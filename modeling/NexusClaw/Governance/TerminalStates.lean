import NexusClaw.Concurrent.Serial
import NexusClaw.Governance.Entries

/-!
# Terminal execution states

The state machine lists no transition out of a terminal status. The writers that go through it keep
this by their own checks; the decision of the console, the decision of the gateway and the rejected
branch of the lookup update the status column directly. `DecidesOpen` is the exact condition under
which they keep it too, and `terminal_states_kept` the statement for runs.
-/

namespace NexusClaw.Governance
open Concurrent

/-- Executions with a terminal status keep it. -/
def TerminalKept (l l' : Ledger) : Prop :=
  ∀ e row, l.executions e = some row → isTerminal row.status = true →
    ∃ row', l'.executions e = some row' ∧ row'.status = row.status

/-- A ledger keeps its own terminal states. -/
lemma TerminalKept.refl (l : Ledger) : TerminalKept l l :=
  fun _ row h _ => ⟨row, h, rfl⟩

/-- They are kept over two steps. -/
lemma TerminalKept.trans {a b c : Ledger} (h : TerminalKept a b) (h' : TerminalKept b c) :
    TerminalKept a c := by
  intro e row hrow ht
  obtain ⟨row', hrow', hs⟩ := h e row hrow ht
  obtain ⟨row'', hrow'', hs'⟩ := h' e row' hrow' (hs ▸ ht)
  exact ⟨row'', hrow'', hs'.trans hs⟩

/-- The same executions keep them. -/
lemma TerminalKept.of_eq {l l' : Ledger} (h : l'.executions = l.executions) : TerminalKept l l' :=
  fun _ row hrow _ => ⟨row, h ▸ hrow, rfl⟩

/-- A terminal status stays. -/
lemma TerminalKept.status {l l' : Ledger} (h : TerminalKept l l') {e : Id}
    {status : ExecutionStatus} (hs : (l.executions e).map (·.status) = some status)
    (ht : isTerminal status = true) : (l'.executions e).map (·.status) = some status := by
  obtain ⟨row, hrow, rfl⟩ := Option.map_eq_some_iff.mp hs
  obtain ⟨row', hrow', hs'⟩ := h e row hrow ht
  rw [hrow', Option.map_some, hs']

/-- An update keeps terminal statuses if the execution it changes is not at one, or is at the one
that is written. -/
lemma terminalKept_patch {l : Ledger} {e : Id} {p : ExecutionPatch}
    (h : ∀ row, l.executions e = some row → isTerminal row.status = true →
      p.status.getD row.status = row.status) : TerminalKept l (l.patch e p) := by
  intro k row hrow ht
  by_cases hk : k = e
  · subst hk
    refine ⟨row.patch p, ?_, h row hrow ht⟩
    rw [Ledger.patch_self, hrow, Option.map_some]
  · exact ⟨row, (l.patch_of_ne p hk).trans hrow, rfl⟩

/-- An update of an execution that is not at a terminal status. -/
lemma terminalKept_patch_open {l : Ledger} {e : Id} {p : ExecutionPatch} {row : AgentExecution}
    (hrow : l.executions e = some row) (h : isTerminal row.status = false) :
    TerminalKept l (l.patch e p) := by
  refine terminalKept_patch fun row' hrow' ht => ?_
  obtain rfl := Option.some.inj (hrow.symm.trans hrow')
  exact nomatch h.symm.trans ht

/-! ## Entries -/

section entries
variable {cfg : Config} {w w' : World}

/-- A change at a new execution keeps them. -/
lemma OnlyAt.terminalKept {l l' : Ledger} {e : Id} (h : OnlyAt e l l')
    (hfresh : l.executions e = none) : TerminalKept l l' := by
  intro k row hrow _
  have hk : k ≠ e := by
    rintro rfl
    exact nomatch hfresh.symm.trans hrow
  exact ⟨row, (h k hk).trans hrow, rfl⟩

/-- The next id is not taken. -/
lemma World.Keyed.fresh (hk : w.Keyed) : w.executions w.clock = none := by
  cases h : w.executions w.clock with
  | none => rfl
  | some row => exact absurd (hk.executions _ _ h).2 (Nat.lt_irrefl _)

/-- A resumption keeps them. -/
lemma ResumeEntry.terminalKept {input : ResumeInput} (h : ResumeEntry cfg input w w') :
    TerminalKept w.ledger w'.ledger := by
  have hopen : ∀ {row : AgentExecution}, row.status = .guardrailPending →
      isTerminal row.status = false := by
    intro row h
    rw [h]
    rfl
  intro k row hrow ht
  by_cases hk : k = input.executionId
  · subst hk
    cases h with
    | refused same => exact ⟨row, same ▸ hrow, rfl⟩
    | stopped found waits entry =>
      obtain rfl := Option.some.inj (hrow.symm.trans found)
      exact nomatch (hopen waits).symm.trans ht
    | ended found waits final entry =>
      obtain rfl := Option.some.inj (hrow.symm.trans found)
      exact nomatch (hopen waits).symm.trans ht
    | parked inst found waits fresh asks entry =>
      obtain rfl := Option.some.inj (hrow.symm.trans found)
      exact nomatch (hopen waits).symm.trans ht
  · exact ⟨row, (h.onlyAt k hk).trans hrow, rfl⟩

/-- So does a completion. -/
lemma CompleteEntry.terminalKept {e : Id} {outcome : GateOutcome}
    (h : CompleteEntry e outcome w w') : TerminalKept w.ledger w'.ledger := by
  cases h with
  | refused same => exact .of_eq (congrArg Ledger.executions same)
  | closed found runs entry =>
    rw [entry]
    exact terminalKept_patch_open found (by rw [runs]; rfl)

/-- What an update that changes a status leaves behind is not what was kept. -/
lemma TerminalKept.written {l l' : Ledger} {e : Id} {p : ExecutionPatch} {row : AgentExecution}
    {status : ExecutionStatus} (h : TerminalKept l l') (hl : l' = l.patch e p)
    (hp : p.status = some status) (hrow : l.executions e = some row)
    (ht : isTerminal row.status = true) : row.status = status := by
  obtain ⟨row', hrow', hs⟩ := h e row hrow ht
  rw [hl, Ledger.patch_self, hrow] at hrow'
  obtain rfl := Option.some.inj hrow'
  rw [← hs, AgentExecution.patch_status, hp, Option.getD_some]

/-- When a lookup keeps them. -/
lemma LookupEntry.terminalKept_iff {row : ApprovalInstance} {execution : AgentExecution}
    (h : LookupEntry row execution w w') (hexec : w.executions row.recordId = some execution) :
    TerminalKept w.ledger w'.ledger ↔
      (row.status = .rejected → isTerminal execution.status = true →
        execution.status = .cancelled) := by
  cases h with
  | idle notRejected same =>
    exact ⟨fun _ hr => absurd hr notRejected, fun _ => .of_eq (congrArg Ledger.executions same)⟩
  | kept rejected cancelled same =>
    exact ⟨fun _ _ _ => cancelled, fun _ => .of_eq (congrArg Ledger.executions same)⟩
  | cancels rejected differs entry =>
    constructor
    · intro hkept _ ht
      exact hkept.written entry rfl hexec ht
    · intro hc
      rw [entry]
      refine terminalKept_patch fun row' hrow' ht => ?_
      obtain rfl := Option.some.inj (hexec.symm.trans hrow')
      exact absurd (hc rejected ht) differs
  | repairs outcome waits runs first rest =>
    refine ⟨(fun _ hr => nomatch waits.symm.trans hr), fun _ => ?_⟩
    have hfirst := TerminalKept.of_eq (congrArg Ledger.executions first)
    obtain hrest | hrest := rest
    · exact hfirst.trans hrest.terminalKept
    · exact hfirst.trans (.of_eq (congrArg Ledger.executions hrest))
  | executes decided notRejected first rest =>
    refine ⟨fun _ hr => absurd hr notRejected, fun _ => ?_⟩
    exact (TerminalKept.of_eq (congrArg Ledger.executions first)).trans rest.terminalKept

end entries

/-! ## Operations -/

/-- No decision and no lookup reaches an execution at a terminal status that it would change: the
console approves a gated call, the gateway decides and the lookup finds a rejection only while the
execution is open (or already at the status to be written). -/
def DecidesOpen (cfg : Config) (w : World) : Operation → Prop
  | .postDecide a text _ => ∀ row execution, ConsoleAccepts cfg w a text .approved row →
      w.executions row.recordId = some execution → execution.triggerSource = .governanceGate →
      isTerminal execution.status = false
  | .decideApproval a decision _ => ∀ row execution, w.approvals a = some row →
      row.status = .pending → w.executions row.recordId = some execution →
      isTerminal execution.status = true → decision = .rejected ∧ execution.status = .cancelled
  | .toolsCall _ name args => ∀ a row execution, name = pendingLookupTool →
      lookupTarget cfg (approvalIdArg cfg args) = some a → w.approvals a = some row →
      w.executions row.recordId = some execution → row.status = .rejected →
      isTerminal execution.status = true → execution.status = .cancelled
  | _ => True

section operations
variable (cfg : Config) (ans : Answers) {w : World}

/-- When a decision over HTTP keeps them. -/
lemma postDecide_terminalKept_iff (a : Id) (text comment : Option String) (hk : w.Keyed) :
    TerminalKept w.ledger ((postDecide cfg a text comment).run (exec ans) w).2.ledger ↔
      DecidesOpen cfg w (.postDecide a text comment) := by
  obtain ⟨same, hrefused⟩ | ⟨decision, row, haccepts, hentry⟩ :=
    postDecide_entry cfg ans a text comment hk
  · refine ⟨fun _ row execution h => absurd h (hrefused _ _), fun _ => ?_⟩
    exact .of_eq (congrArg Ledger.executions same)
  -- one case for each entry that the decision can leave
  · cases hentry with
    | rejected hd entry =>
      refine ⟨fun _ row' execution h => ?_, fun _ => .of_eq (by rw [entry, Ledger.decide_executions])⟩
      have heq := Option.some.inj (haccepts.normal.symm.trans h.normal)
      exact nomatch hd.symm.trans heq
    | @released execution hd found gate entry =>
      constructor
      · intro hkept row' execution' h hexec hsource
        obtain rfl := Option.some.inj (haccepts.found.symm.trans h.found)
        cases ht : isTerminal execution'.status with
        | false => rfl
        | true =>
          have hrunning := hkept.written entry rfl hexec ht
          rw [hrunning] at ht
          exact nomatch ht
      · intro hopen
        rw [entry]
        exact terminalKept_patch_open found (hopen row execution (hd ▸ haccepts) found gate)
    | resumed w₁ comment' call hd loop keyed first rest =>
      constructor
      · intro _ row' execution h hexec hsource
        obtain rfl := Option.some.inj (haccepts.found.symm.trans h.found)
        exact absurd hsource (loop execution hexec)
      · intro _
        exact (TerminalKept.of_eq (congrArg Ledger.executions first)).trans rest.terminalKept

/-- When a decision keeps them. -/
lemma decideApproval_terminalKept_iff (a : Id) (decision : Decision) (actor : String)
    (hk : w.Keyed) :
    TerminalKept w.ledger ((decideApproval a decision actor).run (exec ans) w).2.ledger ↔
      DecidesOpen cfg w (.decideApproval a decision actor) := by
  have hentry := decideApproval_entry ans a decision actor hk
  generalize (decideApproval a decision actor).run (exec ans) w = out at hentry
  obtain ⟨r, w'⟩ := out
  -- one case for each entry that the decision can leave
  cases hentry with
  | refused closed same =>
    refine ⟨fun _ row execution hrow hp => absurd hp (closed row hrow), fun _ => ?_⟩
    exact .of_eq (congrArg Ledger.executions same)
  | @decided row actor found waits entry =>
    constructor
    · intro hkept row' execution hrow' _ hexec ht
      obtain rfl := Option.some.inj (found.symm.trans hrow')
      have hs : ∀ status, decision.executionPatch.status = some status →
          execution.status = status := fun status hp =>
        ((TerminalKept.of_eq (l := w.ledger.decide a _) rfl).trans hkept).written entry hp hexec ht
      cases decision with
      | approved =>
        rw [hs .running rfl] at ht
        exact nomatch ht
      | rejected => exact ⟨rfl, hs .cancelled rfl⟩
    · intro hopen
      have hstep : TerminalKept w.ledger (w.ledger.decide a
          { status := some decision.status
            completedAt := true
            history := some (row.history ++ [gatewayEntry row decision actor]) }) := .of_eq rfl
      dsimp only
      rw [entry]
      refine hstep.trans (terminalKept_patch fun execution hexec ht => ?_)
      obtain ⟨rfl, hc⟩ := hopen row execution found waits hexec ht
      exact hc.symm

/-- When a tool call keeps them. -/
lemma toolsCall_terminalKept_iff (elicitation : Bool) (name : String) (args : Json)
    (hk : w.Keyed) :
    TerminalKept w.ledger ((toolsCall cfg elicitation name args).run (exec ans) w).2.ledger ↔
      DecidesOpen cfg w (.toolsCall elicitation name args) := by
  cases toolsCall_entry cfg ans elicitation name args hk with
  | idle same lookups gates =>
    refine ⟨fun _ a row execution hn ha hrow hexec => ?_, fun _ => ?_⟩
    · exact nomatch (lookups a row hn ha hrow).symm.trans hexec
    · exact .of_eq (congrArg Ledger.executions same)
  | @lookup a row execution looks target found runs entry =>
    rw [entry.terminalKept_iff runs]
    constructor
    · intro h a' row' execution' _ ha' hrow' hexec' hr ht
      obtain rfl := Option.some.inj (target.symm.trans ha')
      obtain rfl := Option.some.inj (found.symm.trans hrow')
      obtain rfl := Option.some.inj (runs.symm.trans hexec')
      exact h hr ht
    · intro h
      exact h a row execution looks target found runs
  | gated gates known entry =>
    refine ⟨fun _ a row execution hn => absurd hn gates, fun _ => ?_⟩
    exact entry.onlyAt.terminalKept hk.fresh

/-- One operation keeps the terminal statuses exactly if it decides nothing that is closed. -/
lemma serve_terminalKept_iff (op : Operation) (hk : w.Keyed) :
    TerminalKept w.ledger (serve cfg ans w op).ledger ↔ DecidesOpen cfg w op := by
  cases op with
  | run input =>
    refine iff_of_true ?_ trivial
    simp only [serve, Operation.program, Prog.pure_eq, Prog.run_bind_ret]
    exact (run_entry cfg ans input w).onlyAt.terminalKept hk.fresh
  | resumePaused input =>
    refine iff_of_true ?_ trivial
    simp only [serve, Operation.program, Prog.pure_eq, Prog.run_bind_ret]
    exact (resumePaused_entry cfg ans input hk).terminalKept
  | gate toolName toolInput =>
    refine iff_of_true ?_ trivial
    simp only [serve, Operation.program, Prog.pure_eq, Prog.run_bind_ret]
    exact (gate_entry cfg ans toolName toolInput hk).onlyAt.terminalKept hk.fresh
  | complete e outcome => exact iff_of_true (complete_entry cfg ans e outcome w).terminalKept trivial
  | postDecide a text comment =>
    simp only [serve, Operation.program, Prog.pure_eq, Prog.run_bind_ret]
    exact postDecide_terminalKept_iff cfg ans a text comment hk
  | decideApproval a decision actor => exact decideApproval_terminalKept_iff cfg ans a decision actor hk
  | toolsCall elicitation name args =>
    simp only [serve, Operation.program, Prog.pure_eq, Prog.run_bind_ret]
    exact toolsCall_terminalKept_iff cfg ans elicitation name args hk

end operations

/-! ## Runs -/

/-- A request keeps the tables keyed. -/
lemma serve_keyed (cfg : Config) (ans : Answers) (op : Operation) {w : World} (hk : w.Keyed) :
    (serve cfg ans w op).Keyed :=
  (run_grows ans (program_noSave cfg op) hk).1

/-- Two lists of requests are served one after the other. -/
lemma serveAll_append (cfg : Config) (ans : Answers) (w : World) (ops ops' : List Operation) :
    serveAll cfg ans w (ops ++ ops') = serveAll cfg ans (serveAll cfg ans w ops) ops' :=
  List.foldl_append ..

/-- A run never changes a terminal status, over any stretch of it, exactly if every operation of the
run decides nothing that is closed. -/
theorem terminal_states_kept (cfg : Config) (ans : Answers) (ops : List Operation) :
    (∀ before stretch after, ops = before ++ stretch ++ after →
      TerminalKept (serveAll cfg ans .empty before).ledger
        (serveAll cfg ans .empty (before ++ stretch)).ledger) ↔
      Meets (serve cfg ans) (DecidesOpen cfg) .empty ops := by
  constructor
  · intro h
    refine meets_iff.mpr fun before op after e => ?_
    have hk : (serveAll cfg ans .empty before).Keyed := (serveAll_grows cfg ans before _ empty_keyed).1
    have hkept := h before [op] after (by rw [e, List.append_assoc]; rfl)
    rw [serveAll_append] at hkept
    exact (serve_terminalKept_iff cfg ans op hk).mp hkept
  · rintro h before stretch after rfl
    have hk : (serveAll cfg ans .empty before).Keyed := (serveAll_grows cfg ans before _ empty_keyed).1
    have hmeets := (meets_append.mp (meets_append.mp h).1).2
    rw [serveAll_append]
    exact Meets.follows (I := World.Keyed) (T := fun a b => TerminalKept a.ledger b.ledger)
      (fun w => .refl w.ledger) (fun _ _ _ => .trans) (fun _ op hk _ => serve_keyed cfg ans op hk)
      (fun _ op hk hop => (serve_terminalKept_iff cfg ans op hk).mpr hop) hmeets hk

/-- A gated call is approved in the console, which leaves the approval pending, and completed. -/
def reopening : List Operation :=
  [.gate "mail__send" .empty, .postDecide 3 (some "APPROVED") none,
    .complete 0 { success := true, output := .json .empty }]

/-- The second approval of the same call in the console takes the execution from done to running. -/
theorem terminal_state_reopened :
    ¬ TerminalKept (serveAll .small .small .empty reopening).ledger
      (serveAll .small .small .empty
        (reopening ++ [.postDecide 3 (some "approved") none])).ledger := by
  intro hkept
  have hdone : ((serveAll .small .small .empty reopening).ledger.executions 0).map (·.status) =
      some .done := by decide +kernel
  have hrunning : ((serveAll .small .small .empty
      (reopening ++ [.postDecide 3 (some "approved") none])).ledger.executions 0).map (·.status) =
      some .running := by decide +kernel
  exact nomatch hrunning.symm.trans (hkept.status hdone rfl)

end NexusClaw.Governance
