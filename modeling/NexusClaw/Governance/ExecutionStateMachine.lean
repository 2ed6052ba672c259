import NexusClaw.Governance.Entities

/-!
# Execution state machine

`audit-chain/src/execution-state-machine.ts`: the table of valid transitions of an execution, the
check and the guard built on it. Terminal statuses are the ones without a successor.
-/

namespace NexusClaw.Governance

/-- `VALID_TRANSITIONS` -/
def validTransitions : ExecutionStatus → List ExecutionStatus
  | .pending => [.running, .guardrailPending, .cancelled]
  | .running => [.done, .failed, .timeout, .guardrailPending, .cancelled]
  | .guardrailPending => [.running, .failed, .cancelled]
  | .done => []
  | .failed => []
  | .timeout => []
  | .cancelled => []

def isValidTransition (fromStatus toStatus : ExecutionStatus) : Bool :=
  (validTransitions fromStatus).contains toStatus

/-- Throws `IllegalStateTransitionError` on a transition the table does not list. -/
def handleStateTransition (currentStatus newStatus : ExecutionStatus) :
    Except String ExecutionStatus :=
  if isValidTransition currentStatus newStatus then .ok newStatus
  else .error ("Illegal state transition: " ++ currentStatus.text ++ " → " ++ newStatus.text)

def isTerminal (status : ExecutionStatus) : Bool :=
  (validTransitions status).length = 0

/-- A transition that is allowed. -/
lemma handleStateTransition_ok {a b c : ExecutionStatus} (h : handleStateTransition a b = .ok c) :
    c = b ∧ isValidTransition a b = true := by
  unfold handleStateTransition at h
  by_cases e : isValidTransition a b = true
  · rw [if_pos e] at h
    cases h
    exact ⟨rfl, e⟩
  · rw [if_neg e] at h
    cases h

/-- No transition of the table leaves a terminal status. -/
lemma isTerminal.no_transition {a : ExecutionStatus} (h : isTerminal a = true)
    (b : ExecutionStatus) : isValidTransition a b = false := by
  cases a <;> cases b <;> revert h <;> decide

/-- The four terminal states. -/
lemma isTerminal_iff {a : ExecutionStatus} :
    isTerminal a = true ↔ a = .done ∨ a = .failed ∨ a = .timeout ∨ a = .cancelled := by
  cases a <;> decide

end NexusClaw.Governance
