import NexusClaw.Governance.Growth

/-!
# The ledger

What the store says about executions, as the rest of the world sees it: the execution rows, the
approvals, and for each execution the types of the terminal events enqueued so far. `World.ledger`
forgets everything else. The operations on a `Ledger` are the entries that the kernel's programs
make; a statement either makes one of them or is quiet.
-/

namespace NexusClaw.Governance
open Concurrent

structure Ledger where
  executions : Table Id AgentExecution
  approvals : Table Id ApprovalInstance
  closings : Id → List EventType

/-- The types of the terminal events of an execution, oldest first. -/
def closings (w : World) (e : Id) : List EventType :=
  (terminalEvents w e).map (·.eventType)

def World.ledger (w : World) : Ledger :=
  ⟨w.executions, w.approvals, closings w⟩

namespace Ledger

/-! ## Entries -/

/-- A new execution. -/
def enter (l : Ledger) (e : Id) (row : AgentExecution) : Ledger :=
  { l with executions := l.executions.put e row }

/-- An update of an execution. -/
def patch (l : Ledger) (e : Id) (p : ExecutionPatch) : Ledger :=
  { l with executions := l.executions.modify e (·.patch p) }

/-- A new approval. -/
def ask (l : Ledger) (a : Id) (row : ApprovalInstance) : Ledger :=
  { l with approvals := l.approvals.put a row }

/-- An update of an approval. -/
def decide (l : Ledger) (a : Id) (p : ApprovalPatch) : Ledger :=
  { l with approvals := l.approvals.modify a (·.patch p) }

/-- A terminal event of an execution. -/
def close (l : Ledger) (e : Id) (event : EventType) : Ledger :=
  { l with closings := Function.update l.closings e (l.closings e ++ [event]) }

variable (l : Ledger) (e a : Id) (row : AgentExecution) (inst : ApprovalInstance)
  (p : ExecutionPatch) (q : ApprovalPatch) (event : EventType)

/-- A new execution leaves the approvals. -/
@[simp] lemma enter_approvals : (l.enter e row).approvals = l.approvals := rfl
/-- A new execution closes nothing. -/
@[simp] lemma enter_closings : (l.enter e row).closings = l.closings := rfl
/-- An update of an execution leaves the approvals. -/
@[simp] lemma patch_approvals : (l.patch e p).approvals = l.approvals := rfl
/-- An update of an execution closes nothing. -/
@[simp] lemma patch_closings : (l.patch e p).closings = l.closings := rfl
/-- A new approval leaves the executions. -/
@[simp] lemma ask_executions : (l.ask a inst).executions = l.executions := rfl
/-- A new approval closes nothing. -/
@[simp] lemma ask_closings : (l.ask a inst).closings = l.closings := rfl
/-- An update of an approval leaves the executions. -/
@[simp] lemma decide_executions : (l.decide a q).executions = l.executions := rfl
/-- An update of an approval closes nothing. -/
@[simp] lemma decide_closings : (l.decide a q).closings = l.closings := rfl
/-- A terminal event leaves the executions. -/
@[simp] lemma close_executions : (l.close e event).executions = l.executions := rfl
/-- A terminal event leaves the approvals. -/
@[simp] lemma close_approvals : (l.close e event).approvals = l.approvals := rfl

/-- A new execution is the one of its id. -/
@[simp] lemma enter_self : (l.enter e row).executions e = some row :=
  Table.put_self ..

/-- An update takes effect at its id. -/
@[simp] lemma patch_self : (l.patch e p).executions e = (l.executions e).map (·.patch p) :=
  Table.modify_self ..

/-- A terminal event is appended for its execution. -/
@[simp] lemma close_self : (l.close e event).closings e = l.closings e ++ [event] :=
  Function.update_self ..

variable {e a} {k : Id}

/-- A new execution is none of the others. -/
lemma enter_of_ne (h : k ≠ e) : (l.enter e row).executions k = l.executions k :=
  Table.put_of_ne _ _ h

/-- An update leaves the other executions. -/
lemma patch_of_ne (h : k ≠ e) : (l.patch e p).executions k = l.executions k :=
  Table.modify_of_ne _ _ h

variable {row p} in
/-- The update of an execution that is there. -/
lemma patch_found {l : Ledger} (h : l.executions e = some row) :
    (l.patch e p).executions e = some (row.patch p) := by
  rw [patch_self, h, Option.map_some]

/-- An empty update changes nothing. -/
lemma patch_nothing (l : Ledger) (e : Id) : l.patch e {} = l := by
  have hsame : l.executions.modify e (·.patch {}) = l.executions := by
    funext k
    by_cases hk : k = e
    · rw [hk, Table.modify_self]
      cases h : l.executions e with
      | none => rfl
      | some row =>
        show some (row.patch {}) = some row
        cases row
        simp [AgentExecution.patch]
    · exact Table.modify_of_ne _ _ hk
  show Ledger.mk (l.executions.modify e (·.patch {})) l.approvals l.closings = l
  rw [hsame]

/-- An update of an execution that is not there changes nothing. -/
lemma patch_absent {l : Ledger} (h : l.executions e = none) : l.patch e p = l := by
  have hsame : l.executions.modify e (·.patch p) = l.executions := by
    funext k
    by_cases hk : k = e
    · rw [hk, Table.modify_self, h, Option.map_none]
    · exact Table.modify_of_ne _ _ hk
  show Ledger.mk (l.executions.modify e (·.patch p)) l.approvals l.closings = l
  rw [hsame]

/-- A terminal event is none of the others'. -/
lemma close_of_ne (h : k ≠ e) : (l.close e event).closings k = l.closings k :=
  Function.update_of_ne h ..

end Ledger

/-! ## What a statement does to the ledger -/

/-- A statement that makes no entry. -/
def Stmt.quiet : Stmt → Prop
  | .createExecution _ => False
  | .updateExecution _ _ => False
  | .createApproval _ => False
  | .updateApproval _ _ => False
  | .updatePendingApproval _ _ _ _ => False
  | .saveApproval _ => False
  | .enqueue event => event.eventType.terminal = false
  | _ => True

section exec
variable (ans : Answers) (w : World)

/-- An update of the table is one of the ledger. -/
lemma ledger_updateExecution (e : Id) (p : ExecutionPatch) :
    (exec ans (.updateExecution e p) w).1.ledger = w.ledger.patch e p := rfl

/-- A terminal event of the outbox closes its execution in the ledger. -/
lemma ledger_enqueue {event : OutboxEvent} (h : event.eventType.terminal = true) :
    (exec ans (.enqueue event) w).1.ledger =
      w.ledger.close event.aggregateId event.eventType := by
  have hclosings : closings (exec ans (.enqueue event) w).1 =
      Function.update (closings w) event.aggregateId
        (closings w event.aggregateId ++ [event.eventType]) := by
    funext e
    by_cases he : e = event.aggregateId
    · subst he
      simp [closings, terminalEvents, exec, h]
    · simp [closings, terminalEvents, exec, Function.update_of_ne he, Ne.symm he]
  show Ledger.mk w.executions w.approvals (closings (exec ans (.enqueue event) w).1) = _
  rw [hclosings]
  rfl

variable {w} in
/-- The other statements do not show in the ledger. -/
lemma ledger_quiet {s : Stmt} (hs : s.quiet) : (exec ans s w).1.ledger = w.ledger := by
  cases s with
  | enqueue event =>
    have hclosings : closings (exec ans (.enqueue event) w).1 = closings w := by
      funext e
      have hs : event.eventType.terminal = false := hs
      simp [closings, terminalEvents, exec, hs]
    show Ledger.mk w.executions w.approvals (closings (exec ans (.enqueue event) w).1) = _
    rw [hclosings]
    rfl
  | createExecution row => exact absurd hs id
  | updateExecution e p => exact hs.elim
  | createApproval row => exact absurd hs id
  | updateApproval a p => exact hs.elim
  | updatePendingApproval a workspaceId stepIndex p => exact hs.elim
  | saveApproval row => exact absurd hs id
  | _ => rfl

end exec

/-- A program of quiet statements leaves the ledger as it is. -/
lemma run_quiet (ans : Answers) {α : Type} {p : Act α} (hp : p.Uses Stmt.quiet) (w : World) :
    (p.run (exec ans) w).2.ledger = w.ledger :=
  hp.run (I := fun w' : World => w'.ledger = w.ledger)
    (fun _ _ hs hw => (ledger_quiet ans hs).trans hw) rfl

/-- The clock never goes back. -/
lemma exec_clock (ans : Answers) (s : Stmt) (w : World) : w.clock ≤ (exec ans s w).1.clock := by
  cases s with
  | createExecution row => exact Nat.le_succ _
  | createApproval row => exact Nat.le_succ _
  | createToolCall row => exact Nat.le_succ _
  | createStep row => exact Nat.le_succ _
  | enqueue event => exact Nat.le_succ _
  | canApprove step approverId => exact Nat.le_succ _
  | chat messages => exact Nat.le_succ _
  | runTool origin name input => exact Nat.le_succ _
  | callTool approvalId tool args => exact Nat.le_succ _
  | elicit message => exact Nat.le_succ _
  | _ => exact Nat.le_refl _

/-- Nor does it over a whole program. -/
lemma run_clock (ans : Answers) {α : Type} (p : Act α) (w : World) :
    w.clock ≤ (p.run (exec ans) w).2.clock := by
  induction p generalizing w with
  | ret a => exact Nat.le_refl _
  | throw e => exact Nat.le_refl _
  | stmt s k ih => exact (exec_clock ans s w).trans (ih _ _)

/-- A quiet first part: what follows starts from the same ledger, or does not start. -/
lemma run_quiet_bind (ans : Answers) {α β : Type} {P : World → Except String β → Prop}
    {Q : α → Prop} {p : Act α} {f : α → Act β} {w : World} (hp : p.Uses Stmt.quiet) (he : p.Ends Q)
    (fail : ∀ e w', w'.ledger = w.ledger → P w' (.error e))
    (go : ∀ a w', Q a → w'.ledger = w.ledger → w.clock ≤ w'.clock →
      P ((f a).run (exec ans) w').2 ((f a).run (exec ans) w').1) :
    P ((p >>= f).run (exec ans) w).2 ((p >>= f).run (exec ans) w).1 := by
  have hw := run_quiet ans hp w
  have hc := run_clock ans p w
  rw [Prog.run_bind]
  rcases h : p.run (exec ans) w with ⟨r, w'⟩
  rw [h] at hw hc
  cases r with
  | error e => exact fail e w' hw
  | ok a => exact go a w' (he.run h) hw hc

end NexusClaw.Governance
