import NexusClaw.Governance.TerminalStates

/-!
# Terminal events and the execution's outcome

The exporter reads `agent.execution.completed` and `agent.execution.failed`; the status and the event
are written in different places. `Settled` says that they agree for every execution, `ClosesOnce` is
the condition on an operation under which the agreement is kept: a run of the loop that does not
pause, no resumption of a paused run, no refusal by the gate, and no decision on an execution that
is done or failed.
-/

namespace NexusClaw.Governance
open Concurrent

/-- The terminal events that a status calls for. -/
def ExecutionStatus.closing : ExecutionStatus → List EventType
  | .done => [.executionCompleted]
  | .failed => [.executionFailed]
  | _ => []

/-- The row of an execution agrees with its terminal events. -/
structure AgentExecution.Agrees (row : AgentExecution) (events : List EventType) : Prop where
  completed : .executionCompleted ∈ events ↔ row.status = .done
  failed : .executionFailed ∈ events ↔ row.status = .failed
  once : events.length ≤ 1
  paused : row.status = .guardrailPending → events = [] ∧ row.completedAt = false

/-- The terminal events are the ones that the status calls for, and a paused execution is not
completed. -/
structure AgentExecution.Settled (row : AgentExecution) (events : List EventType) : Prop where
  events : events = row.status.closing
  waits : row.status = .guardrailPending → row.completedAt = false

/-- A settled row agrees with its events. -/
lemma AgentExecution.Settled.agrees {row : AgentExecution} {events : List EventType}
    (h : row.Settled events) : row.Agrees events where
  completed := by
    rw [h.events]
    cases row.status <;> decide
  failed := by
    rw [h.events]
    cases row.status <;> decide
  once := by
    rw [h.events]
    cases row.status <;> decide
  paused := by
    intro hp
    refine ⟨?_, h.waits hp⟩
    rw [h.events, hp]
    rfl

/-- Every execution of the ledger is settled; where there is none there are no events. -/
structure Ledger.Settled (l : Ledger) : Prop where
  absent : ∀ e, l.executions e = none → l.closings e = []
  present : ∀ e row, l.executions e = some row → row.Settled (l.closings e)

/-- A status that calls for no terminal event. -/
def ExecutionStatus.isOpen : ExecutionStatus → Bool
  | .done => false
  | .failed => false
  | _ => true

/-- An open status has no closing event. -/
lemma ExecutionStatus.isOpen.closing {status : ExecutionStatus} (h : status.isOpen = true) :
    status.closing = [] := by
  cases status with
  | done => cases h
  | failed => cases h
  | _ => rfl

/-! ## Entries of a settled ledger -/

namespace Ledger.Settled
variable {l : Ledger} {e : Id} {row : AgentExecution} {p : ExecutionPatch}

/-- A new execution that is open. -/
lemma enter (h : l.Settled) (hfresh : l.executions e = none) (hopen : row.status.isOpen = true)
    (hwaits : row.status = .guardrailPending → row.completedAt = false) :
    (l.enter e row).Settled where
  absent := by
    intro k hk
    by_cases hke : k = e
    · rw [hke, Ledger.enter_self] at hk
      exact nomatch hk
    · exact h.absent k ((l.enter_of_ne row hke).symm.trans hk)
  present := by
    intro k row' hk
    by_cases hke : k = e
    · rw [hke, Ledger.enter_self] at hk
      obtain rfl := Option.some.inj hk
      refine ⟨?_, hwaits⟩
      rw [hke, (ExecutionStatus.isOpen.closing hopen)]
      exact h.absent e hfresh
    · exact h.present k row' ((l.enter_of_ne row hke).symm.trans hk)

/-- An update from one open status to another. -/
lemma patch (h : l.Settled) (hrow : l.executions e = some row) (hopen : row.status.isOpen = true)
    (hopen' : (row.patch p).status.isOpen = true)
    (hwaits : (row.patch p).status = .guardrailPending → (row.patch p).completedAt = false) :
    (l.patch e p).Settled where
  absent := by
    intro k hk
    by_cases hke : k = e
    · rw [hke, Ledger.patch_self, hrow] at hk
      exact nomatch hk
    · exact h.absent k ((l.patch_of_ne p hke).symm.trans hk)
  present := by
    intro k row' hk
    by_cases hke : k = e
    · rw [hke, Ledger.patch_self, hrow] at hk
      obtain rfl := Option.some.inj hk
      refine ⟨?_, hwaits⟩
      rw [hke, ExecutionStatus.isOpen.closing hopen', ← (ExecutionStatus.isOpen.closing hopen)]
      exact (h.present e row hrow).events
    · exact h.present k row' ((l.patch_of_ne p hke).symm.trans hk)

/-- The closing of an open execution: its final status and the event for it. -/
lemma close {event : EventType} (h : l.Settled) (hrow : l.executions e = some row)
    (hopen : row.status.isOpen = true) (hevent : (row.patch p).status.closing = [event])
    (hwaits : (row.patch p).status ≠ .guardrailPending) :
    ((l.patch e p).close e event).Settled where
  absent := by
    intro k hk
    by_cases hke : k = e
    · rw [hke, Ledger.close_executions, Ledger.patch_self, hrow] at hk
      exact nomatch hk
    · rw [Ledger.close_of_ne _ _ hke]
      exact h.absent k ((l.patch_of_ne p hke).symm.trans hk)
  present := by
    intro k row' hk
    by_cases hke : k = e
    · rw [hke, Ledger.close_executions, Ledger.patch_self, hrow] at hk
      obtain rfl := Option.some.inj hk
      refine ⟨?_, fun hp => absurd hp hwaits⟩
      have hnone : l.closings e = [] := (h.present e row hrow).events.trans (ExecutionStatus.isOpen.closing hopen)
      rw [hke, Ledger.close_self, hevent, Ledger.patch_closings, hnone, List.nil_append]
    · rw [Ledger.close_of_ne _ _ hke]
      exact h.present k row' ((l.patch_of_ne p hke).symm.trans hk)

/-- A new approval leaves the executions settled. -/
lemma ask (h : l.Settled) (a : Id) (inst : ApprovalInstance) : (l.ask a inst).Settled :=
  ⟨h.absent, h.present⟩

/-- So does the update of an approval. -/
lemma decide (h : l.Settled) (a : Id) (q : ApprovalPatch) : (l.decide a q).Settled :=
  ⟨h.absent, h.present⟩

end Ledger.Settled

/-! ## Entries -/

section entries
variable {cfg : Config} {w w' : World}

/-- A run that does not escalate leaves them settled. -/
lemma RunEntry.settled {input : ExecutorInput} (h : RunEntry cfg input w w')
    (hcalm : ¬ Escalates cfg input w w') (hk : w.Keyed) (hw : w.ledger.Settled) :
    w'.ledger.Settled := by
  have hpending : (input.row.at w.clock).status.isOpen = true := rfl
  have henter : (w.ledger.enter w.clock (input.row.at w.clock)).Settled :=
    hw.enter hk.fresh hpending (fun h => nomatch h)
  cases h with
  | stopped entry =>
    rw [entry]
    exact henter
  | ended final entry =>
    rw [entry]
    refine henter.close (Ledger.enter_self ..) hpending ?_ ?_
    · obtain rfl | rfl := final <;> rfl
    · obtain rfl | rfl := final <;> exact fun h => nomatch h
  | parked inst fresh asks escalates entry => exact absurd escalates hcalm

/-- So does a gate that does not refuse. -/
lemma GateEntry.settled {toolName : String} {toolInput : Json} {r : Except String GateResult}
    (h : GateEntry cfg toolName toolInput w w' r) (hgrants : ¬ GateRefuses cfg toolName toolInput)
    (hk : w.Keyed) (hw : w.ledger.Settled) : w'.ledger.Settled := by
  have hrunning : ((gateExecution cfg toolName).at w.clock).status.isOpen = true := rfl
  have henter : (w.ledger.enter w.clock ((gateExecution cfg toolName).at w.clock)).Settled :=
    hw.enter hk.fresh hrunning (fun h => nomatch h)
  cases h with
  | threw entry =>
    rw [entry]
    exact henter
  | allowed entry =>
    rw [entry]
    exact henter
  | refused refuses entry => exact absurd refuses hgrants
  | @paused call id riskLevel inst fresh asks entry =>
    rw [entry]
    exact (henter.ask id inst).patch (Ledger.enter_self ..) hrunning rfl (fun _ => rfl)

/-- So does a completion. -/
lemma CompleteEntry.settled {e : Id} {outcome : GateOutcome} (h : CompleteEntry e outcome w w')
    (hw : w.ledger.Settled) : w'.ledger.Settled := by
  cases h with
  | refused same =>
    rw [same]
    exact hw
  | @closed row found runs entry =>
    rw [entry]
    have hopen : row.status.isOpen = true := by
      rw [runs]
      rfl
    refine hw.close found hopen ?_ ?_
    · show outcome.executionStatus.closing = [outcome.eventType]
      unfold GateOutcome.executionStatus GateOutcome.eventType
      split <;> rfl
    · show outcome.executionStatus ≠ .guardrailPending
      unfold GateOutcome.executionStatus
      split <;> decide

/-- So does a decision. -/
lemma DecideEntry.settled {a : Id} {decision : Decision} {r : Except String Unit}
    (h : DecideEntry a decision w w' r) (hw : w.ledger.Settled)
    (hopen : ∀ row execution, w.approvals a = some row → row.status = .pending →
      w.executions row.recordId = some execution → execution.status.isOpen = true) :
    w'.ledger.Settled := by
  cases h with
  | refused closed same =>
    rw [same]
    exact hw
  | @decided row actor found waits entry =>
    rw [entry]
    have hdecided := hw.decide a
      { status := some decision.status
        completedAt := true
        history := some (row.history ++ [gatewayEntry row decision actor]) }
    cases hexec : w.executions row.recordId with
    | none =>
      rw [Ledger.patch_absent _ (by exact hexec)]
      exact hdecided
    | some execution =>
      refine hdecided.patch hexec (hopen row execution found waits hexec) ?_ ?_
      · cases decision <;> rfl
      · cases decision <;> exact fun hp => nomatch hp

/-- So does a lookup. -/
lemma LookupEntry.settled {row : ApprovalInstance} {execution : AgentExecution}
    (h : LookupEntry row execution w w') (hexec : w.executions row.recordId = some execution)
    (hopen : row.status = .rejected → execution.status.isOpen = true) (hw : w.ledger.Settled) :
    w'.ledger.Settled := by
  cases h with
  | idle notRejected same =>
    rw [same]
    exact hw
  | kept rejected cancelled same =>
    rw [same]
    exact hw
  | cancels rejected differs entry =>
    rw [entry]
    exact hw.patch hexec (hopen rejected) rfl (fun h => nomatch h)
  | @repairs w₁ outcome waits runs first rest =>
    have hfirst : w₁.ledger.Settled := by
      rw [first]
      exact hw.decide _ _
    obtain hrest | hrest := rest
    · exact hrest.settled hfirst
    · rw [hrest]
      exact hfirst
  | executes decided notRejected first rest => exact rest.settled (first ▸ hw)

/-- The approval that a gated call paused for belongs to its own execution, which waits. -/
lemma GateEntry.decided_open {name : String} {args : Json} {call id : Id} {riskLevel : String}
    {w₁ w₂ : World}
    (h : GateEntry cfg name args w w₁ (.ok (.paused w.clock call id riskLevel)))
    (same : w₂.ledger = w₁.ledger) {row : ApprovalInstance} {execution : AgentExecution}
    (hrow : w₂.ledger.approvals id = some row)
    (hexec : w₂.ledger.executions row.recordId = some execution) :
    execution.status = .guardrailPending := by
  obtain ⟨inst, -, hasks, hentry⟩ := h.asked
  rw [same, hentry] at hrow hexec
  obtain rfl : inst = row := Option.some.inj ((Table.put_self ..).symm.trans hrow)
  rw [hasks.recordId, Ledger.patch_self, Ledger.ask_executions, Ledger.enter_self] at hexec
  obtain rfl := Option.some.inj hexec
  rfl

/-- So does a tool call that is not refused. -/
lemma GatedEntry.settled {name : String} {args : Json} (h : GatedEntry cfg name args w w')
    (hgrants : ¬ GateRefuses cfg name args) (hk : w.Keyed) (hw : w.ledger.Settled) :
    w'.ledger.Settled := by
  cases h with
  | stopped gate same =>
    rw [same]
    exact gate.settled hgrants hk hw
  | executed gate same rest =>
    refine rest.settled ?_
    rw [same]
    exact gate.settled hgrants hk hw
  | @decided call id riskLevel decision r w₁ w₂ w₃ w₄ outcome gate same decide same' rest =>
    have htwo : w₂.ledger.Settled := same ▸ gate.settled hgrants hk hw
    have hfour : w₄.ledger.Settled := by
      rw [same']
      refine decide.settled htwo fun row execution hrow _ hexec => ?_
      rw [gate.decided_open same hrow hexec]
      rfl
    obtain hlast | hlast := rest
    · rw [hlast]
      exact hfour
    · exact hlast.settled hfour

end entries

/-! ## Operations -/

/-- The condition on an operation, in the world it finds. A run of the loop gets no response that
asks for a held call; no paused run is resumed; the gate does not refuse; and an execution that is
decided about, or whose rejection is looked up, is neither done nor failed. -/
def ClosesOnce (cfg : Config) (ans : Answers) (w : World) : Operation → Prop
  | .run input => ¬ Escalates cfg input w (serve cfg ans w (.run input))
  | .resumePaused input => ∀ execution, w.executions input.executionId = some execution →
      execution.status ≠ .guardrailPending
  | .gate toolName toolInput => ¬ GateRefuses cfg toolName toolInput
  | .complete _ _ => True
  | .postDecide a text _ => ∀ row execution, ConsoleAccepts cfg w a text .approved row →
      w.executions row.recordId = some execution →
      if execution.triggerSource = .governanceGate then execution.status.isOpen = true
      else execution.status ≠ .guardrailPending
  | .decideApproval a _ _ => ∀ row execution, w.approvals a = some row → row.status = .pending →
      w.executions row.recordId = some execution → execution.status.isOpen = true
  | .toolsCall _ name args =>
      if name = pendingLookupTool then
        ∀ a row execution, lookupTarget cfg (approvalIdArg cfg args) = some a →
          w.approvals a = some row → w.executions row.recordId = some execution →
          row.status = .rejected → execution.status.isOpen = true
      else cfg.byAggregatedName name ≠ none → ¬ GateRefuses cfg name args

section operations
variable {cfg : Config} {ans : Answers} {w w' : World}

/-- So does a resumption that does not escalate. -/
lemma ResumeEntry.settled {input : ResumeInput} (h : ResumeEntry cfg input w w')
    (hcalm : ∀ execution, w.executions input.executionId = some execution →
      execution.status ≠ .guardrailPending) (hw : w.ledger.Settled) : w'.ledger.Settled := by
  cases h with
  | refused same =>
    rw [same]
    exact hw
  | stopped found waits entry => exact absurd waits (hcalm _ found)
  | ended found waits final entry => exact absurd waits (hcalm _ found)
  | parked inst found waits fresh asks entry => exact absurd waits (hcalm _ found)

/-- So does a decision over HTTP. -/
lemma postDecide_settled {a : Id} {text comment : Option String} (hk : w.Keyed)
    (hw : w.ledger.Settled) (hcalm : ClosesOnce cfg ans w (.postDecide a text comment)) :
    ((postDecide cfg a text comment).run (exec ans) w).2.ledger.Settled := by
  obtain ⟨same, -⟩ | ⟨decision, row, haccepts, hentry⟩ := postDecide_entry cfg ans a text comment hk
  · rw [same]
    exact hw
  · cases hentry with
    | rejected hd entry =>
      rw [entry]
      exact hw.decide _ _
    | @released execution hd found gate entry =>
      have hopen := hcalm row execution (hd ▸ haccepts) found
      rw [if_pos gate] at hopen
      rw [entry]
      exact hw.patch found hopen rfl (fun h => nomatch h)
    | resumed w₁ comment' call hd loop keyed first rest =>
      refine rest.settled (fun execution found => ?_) (first ▸ hw.decide _ _)
      have hfound : w.executions row.recordId = some execution := by
        have he : w₁.executions = w.executions := congrArg Ledger.executions first
        rw [← he]
        exact found
      have hopen := hcalm row execution (hd ▸ haccepts) hfound
      rwa [if_neg (loop execution hfound)] at hopen

/-- An operation that meets the condition keeps the ledger settled. -/
lemma serve_settled (op : Operation) (hk : w.Keyed) (hw : w.ledger.Settled)
    (hcalm : ClosesOnce cfg ans w op) : (serve cfg ans w op).ledger.Settled := by
  -- one case for each operation, by the entry that it leaves
  cases op with
  | run input =>
    have hentry := run_entry cfg ans input w
    simp only [ClosesOnce] at hcalm
    simp only [serve, Operation.program, Prog.pure_eq, Prog.run_bind_ret] at hcalm ⊢
    exact hentry.settled hcalm hk hw
  | resumePaused input =>
    simp only [serve, Operation.program, Prog.pure_eq, Prog.run_bind_ret]
    exact (resumePaused_entry cfg ans input hk).settled hcalm hw
  | gate toolName toolInput =>
    simp only [serve, Operation.program, Prog.pure_eq, Prog.run_bind_ret]
    exact (gate_entry cfg ans toolName toolInput hk).settled hcalm hk hw
  | complete e outcome => exact (complete_entry cfg ans e outcome w).settled hw
  | postDecide a text comment =>
    simp only [serve, Operation.program, Prog.pure_eq, Prog.run_bind_ret]
    exact postDecide_settled hk hw hcalm
  | decideApproval a decision actor =>
    exact (decideApproval_entry ans a decision actor hk).settled hw hcalm
  | toolsCall elicitation name args =>
    simp only [serve, Operation.program, Prog.pure_eq, Prog.run_bind_ret]
    simp only [ClosesOnce] at hcalm
    cases toolsCall_entry cfg ans elicitation name args hk with
    | idle same lookups gates =>
      rw [same]
      exact hw
    | @lookup a row execution looks target found runs entry =>
      rw [if_pos looks] at hcalm
      exact entry.settled runs (hcalm a row execution target found runs) hw
    | gated gates known entry =>
      rw [if_neg gates] at hcalm
      exact entry.settled (hcalm (by rw [known]; exact Option.some_ne_none _)) hk hw

end operations

/-! ## Runs -/

/-- The empty store is settled. -/
lemma empty_settled : World.empty.ledger.Settled :=
  ⟨fun _ _ => rfl, fun _ _ h => nomatch h⟩

/-- In every run whose operations meet the condition, every execution agrees with its terminal events
in every state that the run reaches. -/
theorem terminal_events_match (cfg : Config) (ans : Answers) (ops before : List Operation)
    (h : Meets (serve cfg ans) (ClosesOnce cfg ans) .empty ops) (hbefore : before <+: ops) (e : Id)
    (row : AgentExecution) (hrow : (serveAll cfg ans .empty before).executions e = some row) :
    row.Agrees (closings (serveAll cfg ans .empty before) e) := by
  obtain ⟨after, rfl⟩ := hbefore
  have hinv : (serveAll cfg ans .empty before).Keyed ∧
      (serveAll cfg ans .empty before).ledger.Settled :=
    (meets_append.mp h).1.inv (I := fun w => w.Keyed ∧ w.ledger.Settled)
      (fun w op hw hop => ⟨serve_keyed cfg ans op hw.1, serve_settled op hw.1 hw.2 hop⟩)
      ⟨empty_keyed, empty_settled⟩
  exact (hinv.2.present e row hrow).agrees

/-- The lenient configuration refuses nothing. -/
lemma lenient_grants : ¬ GateRefuses .lenient "mail__send" .empty := by
  rintro (haccess | ⟨evaluation, heval, hblocked⟩)
  · exact nomatch haccess
  · obtain rfl := Except.ok.inj heval
    revert hblocked
    decide

/-- A call that the gate allows and the caller completes. -/
def allowedCall : List Operation :=
  [.gate "mail__send" .empty, .complete 0 { success := true, output := .json .empty }]

/-- An allowed call ends with its event. -/
theorem allowed_call_matches :
    ∃ row, (serveAll .lenient .small .empty allowedCall).executions 0 = some row ∧
      row.Agrees (closings (serveAll .lenient .small .empty allowedCall) 0) := by
  have hfound : ((serveAll .lenient .small .empty allowedCall).executions 0).isSome = true := by
    decide +kernel
  obtain ⟨row, hrow⟩ := Option.isSome_iff_exists.mp hfound
  exact ⟨row, hrow, terminal_events_match .lenient .small allowedCall allowedCall
    ⟨lenient_grants, trivial, trivial⟩ (List.prefix_refl _) 0 row hrow⟩

/-- A run that pauses is closed as failed: its execution waits for an approval, has the failure event
and is marked as completed. -/
theorem paused_run_closed :
    ¬ ∀ row, pausedRun.executions 0 = some row → row.Agrees (closings pausedRun 0) := by
  intro h
  have hpaused : (pausedRun.executions 0).map (·.status) = some .guardrailPending := by
    decide +kernel
  have hclosed : closings pausedRun 0 = [.executionFailed] := by decide +kernel
  obtain ⟨row, hrow, hs⟩ := Option.map_eq_some_iff.mp hpaused
  exact nomatch hclosed.symm.trans ((h row hrow).paused hs).1

end NexusClaw.Governance
