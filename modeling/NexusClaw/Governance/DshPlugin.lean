import NexusClaw.Governance.TerminalStates

/-!
# The approval answerer of the harness

`adapters/dsh-plugin/index.js`: every approval request of the harness goes through the gate of the
sidecar, and a paused one waits for a decision by polling the execution. Between two polls the
sidecar serves any operations of anybody, and every request may be lost on its way or on its way
back. The tool is allowed only after the gate has allowed it or an operation has released its
execution, whatever else happens (`allowed_only_released`); a rejection in the console alone is
never noticed.
-/

namespace NexusClaw.Governance.DshPlugin
open Concurrent

/-! ## The plugin -/

/-- The results of an answerer; `next` hands the request to the next one. -/
inductive Answer where
  | allowedOnce
  | rejected
  | next
deriving DecidableEq, Repr

/-- What becomes of a request to the sidecar. -/
inductive Fate where
  | unsent
  | answerLost
  | answered
deriving DecidableEq, Repr

/-- The request of the harness. -/
structure ApprovalRequest where
  toolName : Option String
  callId : Option Json
  agent : Option Json

def ApprovalRequest.name (req : ApprovalRequest) : String :=
  req.toolName.getD "unknown"

/-- The input that the gate sees; the harness gives no arguments of the tool. -/
def ApprovalRequest.input (req : ApprovalRequest) : Json :=
  .obj ([("source", Json.str "dsh")] ++ (req.callId.map fun v => ("callId", v)).toList ++
    (req.agent.map fun v => ("agent", v)).toList)

/-- One round of the wait: what the sidecar serves during the sleep, and whether the poll after it is
answered. -/
structure Round where
  served : List Operation
  polled : Bool

/-- `FAIL_CLOSED ? 'rejected' : next()` -/
def giveUp (failClosed : Bool) : Answer :=
  if failClosed then .rejected else .next

/-- What `reportOutcome` leaves; its errors are caught. -/
def reportOutcome (cfg : Config) (ans : Answers) (fate : Fate) (executionId : Id) (note : String)
    (w : World) : World :=
  match fate with
  | .unsent => w
  | _ => serve cfg ans w (.complete executionId { success := true, output := .json (.str note) })

/-- `detail?.execution?.status`; the request for an unknown execution fails. -/
def statusOf (w : World) (executionId : Id) : Option ExecutionStatus :=
  (w.executions executionId).map (·.status)

/-- The status that a poll learns. -/
def Round.poll (round : Round) (w : World) (executionId : Id) : Option ExecutionStatus :=
  if round.polled then statusOf w executionId else none

/-- The loop up to the deadline. -/
def awaitDecision (cfg : Config) (ans : Answers) (failClosed : Bool) (report : Fate)
    (executionId : Id) (toolName : String) : List Round → World → Answer × World
  | [], w => (giveUp failClosed, w)
  | round :: rounds, w =>
    let w := serveAll cfg ans w round.served
    let status := round.poll w executionId
    if status = some .running ∨ status = some .done then
      (.allowedOnce,
        reportOutcome cfg ans report executionId ("approved by human for dsh " ++ toolName) w)
    else if status = some .cancelled ∨ status = some .failed then (.rejected, w)
    else awaitDecision cfg ans failClosed report executionId toolName rounds w

/-- The handler after the answer of the gate. -/
def answerVerdict (cfg : Config) (ans : Answers) (failClosed : Bool) (report : Fate)
    (rounds : List Round) (toolName : String) :
    Except String GateResult × World → Answer × World
  | (.error _, w) => (giveUp failClosed, w)
  | (.ok (.blocked _ _ _), w) => (.rejected, w)
  | (.ok (.allow executionId _), w) =>
    (.allowedOnce,
      reportOutcome cfg ans report executionId ("allowed by gate for dsh " ++ toolName) w)
  | (.ok (.paused executionId _ _ _), w) =>
    awaitDecision cfg ans failClosed report executionId toolName rounds w

/-- `POST /gate`: what it answers, and the world that it leaves. -/
def postGate (cfg : Config) (ans : Answers) (req : ApprovalRequest) (w : World) :
    Except String GateResult × World :=
  if req.name = "" then (.error "toolName is required", w)
  else (gate cfg req.name req.input).run (exec ans) w

/-- The handler of `approval/request`. -/
def approvalRequest (cfg : Config) (ans : Answers) (failClosed : Bool) (gateFate report : Fate)
    (rounds : List Round) (req : ApprovalRequest) (w : World) : Answer × World :=
  match gateFate with
  | .unsent => (giveUp failClosed, w)
  | .answerLost => (giveUp failClosed, (postGate cfg ans req w).2)
  | .answered => answerVerdict cfg ans failClosed report rounds req.name (postGate cfg ans req w)

/-! ## Operations on a paused execution -/

/-- The operation releases the execution: a decision that approves it while its approval waits, or a
resumption. -/
def Releases (cfg : Config) (e : Id) (w : World) : Operation → Prop
  | .postDecide a text _ => ∃ row, ConsoleAccepts cfg w a text .approved row ∧ row.recordId = e
  | .decideApproval a decision _ => decision = .approved ∧
      ∃ row, w.approvals a = some row ∧ row.status = .pending ∧ row.recordId = e
  | .resumePaused input => input.executionId = e
  | _ => False

/-- The operation cancels the execution: the gateway rejects it, or looks up its rejected approval. -/
def Cancels (cfg : Config) (e : Id) (w : World) : Operation → Prop
  | .decideApproval a decision _ => decision = .rejected ∧
      ∃ row, w.approvals a = some row ∧ row.status = .pending ∧ row.recordId = e
  | .toolsCall _ name args => name = pendingLookupTool ∧
      ∃ a row, lookupTarget cfg (approvalIdArg cfg args) = some a ∧ w.approvals a = some row ∧
        row.status = .rejected ∧ row.recordId = e
  | _ => False

section operations
variable {cfg : Config} {ans : Answers} {w w' : World} {e : Id} {status : ExecutionStatus}

/-- A change at another execution leaves a status. -/
lemma statusOf_of_onlyAt {k : Id} (h : OnlyAt k w.ledger w'.ledger) (hk : e ≠ k) :
    statusOf w' e = statusOf w e :=
  congrArg (Option.map AgentExecution.status) (h e hk)

/-- The same executions have the same status. -/
lemma statusOf_of_ledger (h : w'.ledger.executions = w.ledger.executions) :
    statusOf w' e = statusOf w e :=
  congrArg (Option.map AgentExecution.status) (congrFun h e)

/-- An execution with a status is not the next. -/
lemma statusOf_ne_clock (hk : w.Keyed) (h : statusOf w e = some status) : e ≠ w.clock := by
  rintro rfl
  unfold statusOf at h
  rw [hk.fresh] at h
  cases h

/-- An execution that does not run is completed by nothing. -/
lemma CompleteEntry.statusOf {k : Id} {outcome : GateOutcome} (h : CompleteEntry k outcome w w')
    (hs : statusOf w e = some status) (hrun : status ≠ .running) :
    statusOf w' e = some status := by
  by_cases hk : e = k
  · subst hk
    cases h with
    | refused same => exact (statusOf_of_ledger (congrArg Ledger.executions same)).trans hs
    | closed found runs entry =>
      rw [DshPlugin.statusOf, found, Option.map_some, runs] at hs
      exact absurd (Option.some.inj hs).symm hrun
  · exact (statusOf_of_onlyAt h.onlyAt hk).trans hs

/-- A lookup changes the execution only by cancelling it. -/
lemma LookupEntry.statusOf {row : ApprovalInstance} {execution : AgentExecution}
    (h : LookupEntry row execution w w') (hexec : w.executions row.recordId = some execution)
    (hs : statusOf w e = some status) (hrun : status ≠ .running) :
    statusOf w' e = some status ∨
      statusOf w' e = some .cancelled ∧ row.status = .rejected ∧ row.recordId = e := by
  -- one case for each entry that a lookup can leave
  cases h with
  | idle notRejected same =>
    exact .inl ((statusOf_of_ledger (congrArg Ledger.executions same)).trans hs)
  | kept rejected cancelled same =>
    exact .inl ((statusOf_of_ledger (congrArg Ledger.executions same)).trans hs)
  | cancels rejected differs entry =>
    by_cases hk : row.recordId = e
    · refine .inr ⟨?_, rejected, hk⟩
      have hpatch : w'.ledger.executions e =
          some (execution.patch { status := some .cancelled, completedAt := true }) := by
        rw [entry, hk, Ledger.patch_self, ← hk]
        exact congrArg (Option.map _) hexec
      exact congrArg (Option.map (·.status)) hpatch
    · refine .inl ((statusOf_of_onlyAt (k := row.recordId) ?_ fun h => hk h.symm).trans hs)
      rw [entry]
      exact (OnlyAt.of_eq rfl).patch _
  | @repairs w₁ outcome waits runs first rest =>
    have hfirst : DshPlugin.statusOf w₁ e = some status := by
      refine (statusOf_of_ledger ?_).trans hs
      rw [first]
      rfl
    rcases rest with hrest | hrest
    · exact .inl (CompleteEntry.statusOf hrest hfirst hrun)
    · exact .inl ((statusOf_of_ledger (congrArg Ledger.executions hrest)).trans hfirst)
  | @executes w₁ outcome decided notRejected first rest =>
    have hfirst := (statusOf_of_ledger (e := e) (congrArg Ledger.executions first)).trans hs
    exact .inl (CompleteEntry.statusOf rest hfirst hrun)

/-- What a decision over HTTP makes of a status. -/
lemma postDecide_statusOf (a : Id) (text comment : Option String) (hk : w.Keyed)
    (hs : statusOf w e = some status) (hop : ¬ Releases cfg e w (.postDecide a text comment)) :
    statusOf ((postDecide cfg a text comment).run (exec ans) w).2 e = some status := by
  obtain ⟨same, -⟩ | ⟨decision, row, haccepts, hentry⟩ :=
    postDecide_entry cfg ans a text comment hk
  · exact (statusOf_of_ledger (congrArg Ledger.executions same)).trans hs
  · cases hentry with
    | rejected hd entry =>
      refine (statusOf_of_ledger ?_).trans hs
      rw [entry]
      rfl
    | released hd found gate entry =>
      have hother : e ≠ row.recordId := fun h => hop ⟨row, hd ▸ haccepts, h.symm⟩
      refine (statusOf_of_onlyAt ?_ hother).trans hs
      rw [entry]
      exact (OnlyAt.of_eq rfl).patch _
    | resumed w₁ comment' call hd loop keyed first rest =>
      have hother : e ≠ row.recordId := fun h => hop ⟨row, hd ▸ haccepts, h.symm⟩
      have hfirst : statusOf w₁ e = some status := by
        refine (statusOf_of_ledger ?_).trans hs
        rw [first]
        rfl
      exact (statusOf_of_onlyAt rest.onlyAt hother).trans hfirst

/-- What a decision makes of a status. -/
lemma decideApproval_statusOf (a : Id) (decision : Decision) (actor : String) (hk : w.Keyed)
    (hs : statusOf w e = some status)
    (hop : ¬ Releases cfg e w (.decideApproval a decision actor)) :
    statusOf ((decideApproval a decision actor).run (exec ans) w).2 e = some status ∨
      statusOf ((decideApproval a decision actor).run (exec ans) w).2 e = some .cancelled ∧
        Cancels cfg e w (.decideApproval a decision actor) := by
  have hentry := decideApproval_entry ans a decision actor hk
  generalize (decideApproval a decision actor).run (exec ans) w = out at hentry ⊢
  obtain ⟨r, w'⟩ := out
  cases hentry with
  | refused closed same =>
    exact .inl ((statusOf_of_ledger (congrArg Ledger.executions same)).trans hs)
  | @decided row actor found waits entry =>
    by_cases hrow : row.recordId = e
    · cases decision with
      | approved => exact absurd ⟨rfl, row, found, waits, hrow⟩ hop
      | rejected =>
        refine .inr ⟨?_, rfl, row, found, waits, hrow⟩
        obtain ⟨execution, hexec, -⟩ := Option.map_eq_some_iff.mp hs
        have hpatch : w'.ledger.executions e =
            some (execution.patch { status := some .cancelled, completedAt := true }) := by
          rw [entry, hrow, Ledger.patch_self]
          exact congrArg (Option.map _) hexec
        exact congrArg (Option.map (·.status)) hpatch
    · refine .inl ((statusOf_of_onlyAt (k := row.recordId) ?_ fun h => hrow h.symm).trans hs)
      rw [entry]
      exact ((OnlyAt.of_eq rfl).decide _ _).patch _

/-- One operation: an execution that does not run keeps its status, if it is not released, or is
cancelled. -/
lemma serve_statusOf (op : Operation) (hk : w.Keyed) (hs : statusOf w e = some status)
    (hrun : status ≠ .running) (hop : ¬ Releases cfg e w op) :
    statusOf (serve cfg ans w op) e = some status ∨
      statusOf (serve cfg ans w op) e = some .cancelled ∧ Cancels cfg e w op := by
  have hclock := statusOf_ne_clock hk hs
  -- an operation on another execution leaves this one alone
  cases op with
  | run input =>
    simp only [serve, Operation.program, Prog.pure_eq, Prog.run_bind_ret]
    exact .inl ((statusOf_of_onlyAt (run_entry cfg ans input w).onlyAt hclock).trans hs)
  | resumePaused input =>
    simp only [serve, Operation.program, Prog.pure_eq, Prog.run_bind_ret]
    have hother : e ≠ input.executionId := fun h => hop h.symm
    exact .inl ((statusOf_of_onlyAt (resumePaused_entry cfg ans input hk).onlyAt hother).trans hs)
  | gate toolName toolInput =>
    simp only [serve, Operation.program, Prog.pure_eq, Prog.run_bind_ret]
    have honly := (gate_entry cfg ans toolName toolInput hk).onlyAt
    exact .inl ((statusOf_of_onlyAt honly hclock).trans hs)
  | complete k outcome =>
    exact .inl (CompleteEntry.statusOf (complete_entry cfg ans k outcome w) hs hrun)
  | postDecide a text comment =>
    simp only [serve, Operation.program, Prog.pure_eq, Prog.run_bind_ret]
    exact .inl (postDecide_statusOf a text comment hk hs hop)
  | decideApproval a decision actor => exact decideApproval_statusOf a decision actor hk hs hop
  | toolsCall elicitation name args =>
    simp only [serve, Operation.program, Prog.pure_eq, Prog.run_bind_ret]
    cases toolsCall_entry cfg ans elicitation name args hk with
    | idle same lookups gates =>
      exact .inl ((statusOf_of_ledger (congrArg Ledger.executions same)).trans hs)
    | @lookup a row execution looks target found runs entry =>
      rcases LookupEntry.statusOf entry runs hs hrun with hkept | ⟨hcancelled, hrejected, hrow⟩
      · exact .inl hkept
      · exact .inr ⟨hcancelled, looks, a, row, target, found, hrejected, hrow⟩
    | gated gates known entry => exact .inl ((statusOf_of_onlyAt entry.onlyAt hclock).trans hs)

end operations

/-! ## Operations between two polls -/

/-- An operation of the sequence satisfies `G` in the world that it finds. -/
def Reached (cfg : Config) (ans : Answers) (G : World → Operation → Prop) (w : World)
    (ops : List Operation) : Prop :=
  ∃ before op after, ops = before ++ op :: after ∧ G (serveAll cfg ans w before) op

section wait
variable {cfg : Config} {ans : Answers} {G : World → Operation → Prop} {w : World} {e : Id}
  {ops ops' : List Operation}

/-- What was reached stays so with more requests. -/
lemma Reached.early (h : Reached cfg ans G w ops) (ops' : List Operation) :
    Reached cfg ans G w (ops ++ ops') := by
  obtain ⟨before, op, after, rfl, hop⟩ := h
  exact ⟨before, op, after ++ ops', List.append_assoc _ _ _, hop⟩

/-- What is reached later is reached. -/
lemma Reached.later (h : Reached cfg ans G (serveAll cfg ans w ops) ops') :
    Reached cfg ans G w (ops ++ ops') := by
  obtain ⟨before, op, after, rfl, hop⟩ := h
  refine ⟨ops ++ before, op, after, (List.append_assoc _ _ _).symm, ?_⟩
  rwa [serveAll_append]

/-- A weaker condition is reached. -/
lemma Reached.imp {G' : World → Operation → Prop} (h : Reached cfg ans G w ops)
    (himp : ∀ w op, G w op → G' w op) : Reached cfg ans G' w ops := by
  obtain ⟨before, op, after, hops, hop⟩ := h
  exact ⟨before, op, after, hops, himp _ op hop⟩

/-- What is not reached is met by no request. -/
lemma not_reached (h : ¬ Reached cfg ans G w ops) :
    Meets (serve cfg ans) (fun w op => ¬ G w op) w ops :=
  meets_iff.2 fun before op after hops hop => h ⟨before, op, after, hops, hop⟩

/-- The execution waits, or is cancelled. -/
def Held (w : World) (e : Id) : Prop :=
  statusOf w e = some .guardrailPending ∨ statusOf w e = some .cancelled

/-- An execution that no operation releases is held. -/
lemma serveAll_held (hk : w.Keyed) (hw : Held w e)
    (h : ¬ Reached cfg ans (Releases cfg e) w ops) : Held (serveAll cfg ans w ops) e := by
  have hkept := (not_reached h).inv (I := fun w => w.Keyed ∧ Held w e)
    (fun w op hI hop => ⟨serve_keyed cfg ans op hI.1, ?_⟩) ⟨hk, hw⟩
  · exact hkept.2
  · rcases hI.2 with hs | hs
    · rcases serve_statusOf op hI.1 hs (by decide) hop with hsame | ⟨hcancelled, -⟩
      · exact .inl hsame
      · exact .inr hcancelled
    · rcases serve_statusOf op hI.1 hs (by decide) hop with hsame | ⟨hcancelled, -⟩
      · exact .inr hsame
      · exact .inr hcancelled

/-- An execution that no operation releases or cancels goes on waiting. -/
lemma serveAll_waits (hk : w.Keyed) (hw : statusOf w e = some .guardrailPending)
    (h : ¬ Reached cfg ans (fun w op => Releases cfg e w op ∨ Cancels cfg e w op) w ops) :
    statusOf (serveAll cfg ans w ops) e = some .guardrailPending := by
  have hkept := (not_reached h).inv
    (I := fun w => w.Keyed ∧ statusOf w e = some .guardrailPending)
    (fun w op hI hop => ⟨serve_keyed cfg ans op hI.1, ?_⟩) ⟨hk, hw⟩
  · exact hkept.2
  · obtain ⟨hrelease, hcancel⟩ := not_or.1 hop
    rcases serve_statusOf op hI.1 hI.2 (by decide) hrelease with hsame | ⟨-, hcancels⟩
    · exact hsame
    · exact absurd hcancels hcancel

variable {failClosed : Bool} {report : Fate} {toolName : String}

/-- The requests keep the tables keyed. -/
lemma serveAll_keyed (hk : w.Keyed) (ops : List Operation) : (serveAll cfg ans w ops).Keyed :=
  (serveAll_grows cfg ans ops w hk).1

/-- Giving up is not allowing. -/
lemma giveUp_ne (failClosed : Bool) : giveUp failClosed ≠ .allowedOnce := by
  cases failClosed <;> decide

/-- A poll fails or shows the status. -/
lemma poll_cases (round : Round) (w : World) (e : Id) :
    round.poll w e = none ∨ round.poll w e = statusOf w e := by
  unfold Round.poll
  split
  · exact .inr rfl
  · exact .inl rfl

/-- A call that is held is not shown as running or done. -/
lemma poll_held (round : Round) (hw : Held w e) :
    ¬ (round.poll w e = some .running ∨ round.poll w e = some .done) := by
  rcases poll_cases round w e with hpoll | hpoll
  · rw [hpoll]
    decide
  · rcases hw with hs | hs
    · rw [hpoll, hs]
      decide
    · rw [hpoll, hs]
      decide

/-- A call that waits is not shown as cancelled. -/
lemma poll_waits (round : Round) (hw : statusOf w e = some .guardrailPending) :
    ¬ (round.poll w e = some .cancelled ∨ round.poll w e = some .failed) := by
  rcases poll_cases round w e with hpoll | hpoll
  · rw [hpoll]
    decide
  · rw [hpoll, hw]
    decide

/-- The wait ends with the tool allowed only after a release. -/
lemma awaitDecision_allowed {rounds : List Round} (hk : w.Keyed) (hw : Held w e)
    (h : (awaitDecision cfg ans failClosed report e toolName rounds w).1 = .allowedOnce) :
    Reached cfg ans (Releases cfg e) w (rounds.flatMap (·.served)) := by
  induction rounds generalizing w with
  | nil => exact absurd h (giveUp_ne failClosed)
  | cons round rounds ih =>
    rw [List.flatMap_cons]
    by_cases hreached : Reached cfg ans (Releases cfg e) w round.served
    · exact hreached.early _
    · have hheld := serveAll_held hk hw hreached
      rw [awaitDecision, if_neg (poll_held round hheld)] at h
      split at h
      · cases h
      · exact (ih (serveAll_keyed hk _) hheld h).later

/-- The wait ends with a rejection only after a release or a cancellation, unless the plugin fails
closed. -/
lemma awaitDecision_rejected {rounds : List Round} (hk : w.Keyed)
    (hw : statusOf w e = some .guardrailPending) (hopen : failClosed = false)
    (h : (awaitDecision cfg ans failClosed report e toolName rounds w).1 = .rejected) :
    Reached cfg ans (fun w op => Releases cfg e w op ∨ Cancels cfg e w op) w
      (rounds.flatMap (·.served)) := by
  induction rounds generalizing w with
  | nil =>
    rw [hopen] at h
    cases h
  | cons round rounds ih =>
    rw [List.flatMap_cons]
    by_cases hreached : Reached cfg ans (fun w op => Releases cfg e w op ∨ Cancels cfg e w op) w
        round.served
    · exact hreached.early _
    · have hwaits := serveAll_waits hk hw hreached
      rw [awaitDecision, if_neg (poll_held round (.inl hwaits)),
        if_neg (poll_waits round hwaits)] at h
      exact (ih (serveAll_keyed hk _) hwaits h).later

end wait

/-- An execution that the gate has paused waits. -/
lemma paused_waits {cfg : Config} {ans : Answers} {req : ApprovalRequest} {w w' : World}
    (hk : w.Keyed) {e call a : Id} {riskLevel : String}
    (h : (gate cfg req.name req.input).run (exec ans) w = (.ok (.paused e call a riskLevel), w')) :
    w'.Keyed ∧ statusOf w' e = some .guardrailPending := by
  have hentry := gate_entry cfg ans req.name req.input hk
  have huses : (gate cfg req.name req.input).Uses Stmt.noSave :=
    gate_uses (fun _ _ hs => hs.noSave) (fun _ => trivial) req.name req.input
  have hkeyed := (run_grows ans huses hk).1
  rw [h] at hentry hkeyed
  refine ⟨hkeyed, ?_⟩
  have he : e = w.clock := by
    cases hentry
    rfl
  subst he
  obtain ⟨inst, -, -, hledger⟩ := hentry.asked
  have hrow : w'.ledger.executions w.clock = some (((gateExecution cfg req.name).at w.clock).patch
      { status := some .guardrailPending }) := by
    rw [hledger, Ledger.patch_self]
    exact congrArg (Option.map _) (Table.put_self ..)
  exact congrArg (Option.map AgentExecution.status) hrow

/-- Whatever the sidecar serves between the polls and whichever requests are lost, the plugin allows
the tool only if the gate has allowed it, or has paused it and an operation after that released its
execution. It rejects the tool only if it fails closed, the gate has blocked it, or it was paused and
an operation released or cancelled its execution: a rejection in the console does neither. -/
theorem allowed_only_released (cfg : Config) (ans : Answers) (failClosed : Bool)
    (gateFate report : Fate) (rounds : List Round) (req : ApprovalRequest) {w : World}
    (hk : w.Keyed) :
    ((approvalRequest cfg ans failClosed gateFate report rounds req w).1 = .allowedOnce →
      (∃ e call w', (gate cfg req.name req.input).run (exec ans) w = (.ok (.allow e call), w')) ∨
      ∃ e call a riskLevel w',
        (gate cfg req.name req.input).run (exec ans) w = (.ok (.paused e call a riskLevel), w') ∧
        Reached cfg ans (Releases cfg e) w' (rounds.flatMap (·.served))) ∧
    ((approvalRequest cfg ans failClosed gateFate report rounds req w).1 = .rejected →
      failClosed = true ∨
      (∃ e call reason w',
        (gate cfg req.name req.input).run (exec ans) w = (.ok (.blocked e call reason), w')) ∨
      ∃ e call a riskLevel w',
        (gate cfg req.name req.input).run (exec ans) w = (.ok (.paused e call a riskLevel), w') ∧
        Reached cfg ans (fun w op => Releases cfg e w op ∨ Cancels cfg e w op) w'
          (rounds.flatMap (·.served))) := by
  have hgiveUp (h : giveUp failClosed = .rejected) : failClosed = true := by
    cases failClosed with
    | false => cases h
    | true => rfl
  unfold approvalRequest
  -- a gate request that is lost ends in the fallback, which allows nothing
  cases gateFate with
  | unsent => exact ⟨fun h => absurd h (giveUp_ne _), fun h => .inl (hgiveUp h)⟩
  | answerLost => exact ⟨fun h => absurd h (giveUp_ne _), fun h => .inl (hgiveUp h)⟩
  | answered =>
    unfold postGate
    by_cases hname : req.name = ""
    · rw [if_pos hname]
      exact ⟨fun h => absurd h (giveUp_ne _), fun h => .inl (hgiveUp h)⟩
    rw [if_neg hname]
    rcases hrun : (gate cfg req.name req.input).run (exec ans) w with ⟨r, w'⟩
    cases r with
    | error error => exact ⟨fun h => absurd h (giveUp_ne _), fun h => .inl (hgiveUp h)⟩
    | ok verdict =>
      cases verdict with
      | blocked e call reason =>
        constructor
        · intro h
          cases h
        · intro _
          exact .inr (.inl ⟨e, call, reason, w', rfl⟩)
      | allow e call =>
        constructor
        · intro _
          exact .inl ⟨e, call, w', rfl⟩
        · intro h
          cases h
      | paused e call a riskLevel =>
        obtain ⟨hkeyed, hwaits⟩ := paused_waits hk hrun
        constructor
        · intro h
          have hreached := awaitDecision_allowed hkeyed (.inl hwaits) h
          exact .inr ⟨e, call, a, riskLevel, w', rfl, hreached⟩
        · intro h
          cases hclosed : failClosed with
          | true => exact .inl rfl
          | false =>
            exact .inr (.inr ⟨e, call, a, riskLevel, w', rfl,
              awaitDecision_rejected hkeyed hwaits hclosed h⟩)

/-- The small deployment, which reads every paused call as the one of `mail__send`. -/
def Config.reading : Config :=
  { Config.small with parse := fun _ => some smallCall }

def sendRequest : ApprovalRequest where
  toolName := some "mail__send"
  callId := none
  agent := none

set_option maxRecDepth 20000 in
/-- The console rejects in vain once the gateway has approved; the second poll is answered. -/
theorem send_released :
    (∃ e call w',
      (gate Config.reading sendRequest.name sendRequest.input).run (exec .small) .empty =
        (.ok (.allow e call), w')) ∨
    ∃ e call a riskLevel w',
      (gate Config.reading sendRequest.name sendRequest.input).run (exec .small) .empty =
        (.ok (.paused e call a riskLevel), w') ∧
      Reached Config.reading .small (Releases Config.reading e) w'
        [.decideApproval 3 .approved "", .postDecide 3 (some "REJECTED") none] :=
  (allowed_only_released Config.reading .small false .answered .answered
    [⟨[.decideApproval 3 .approved ""], false⟩, ⟨[.postDecide 3 (some "REJECTED") none], true⟩]
    sendRequest empty_keyed).1 (by decide)

set_option maxRecDepth 20000 in
/-- A rejection in the console is never noticed. -/
example : (approvalRequest Config.reading .small false .answered .answered
    [⟨[.postDecide 3 (some "REJECTED") none], true⟩, ⟨[], true⟩] sendRequest .empty).1 = .next := by
  decide

end NexusClaw.Governance.DshPlugin
