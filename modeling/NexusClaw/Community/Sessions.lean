import Mathlib.Data.Fintype.Basic
import NexusClaw.AgentRuntime.Accounts
import NexusClaw.Community.Authority

/-!
# Executions over their pauses

The accounts of all runs against the store: `Kept` says that the steps of every execution are
numbered, that a run which is underway knows them, and that every proposal but one has a step. It
holds as long as no run of an execution starts while another one of it is underway, which is what a
pause and its resume do. From it follow the totals of a closeout over any number of pauses, and the
limits of an execution as long as no call is approved that was paused in the last pass.
-/

namespace NexusClaw.Community
open Concurrent AgentRuntime
open Governance (Id)

/-! ## The law of the requests -/

section requests
variable {cfg : Config}

/-- The account of a run. -/
lemma runSync_accounts {input : RunInput} :
    Accounted (fun _ _ => True) {} (runSync cfg input) := by
  refine tracked_await_bind.2 ⟨trivial, fun _ => ?_, fun _ => trivial⟩
  refine tracked_await_bind.2 ⟨trivial, fun agent => ?_, fun _ => trivial⟩
  cases agent with
  | none => exact trivial
  | some agent =>
    refine tracked_await_bind.2 ⟨rfl, fun saved => ?_, fun _ => trivial⟩
    have hrun : Accounted (fun _ _ => True)
        { holds := some saved.id
          known := [saved.id]
          ready := true }
        (execute cfg saved none input.authenticatedCaller) :=
      execute_accounts (List.mem_cons_self ..) rfl
    exact hrun.bind (fun _ _ _ => trivial) fun _ _ _ => trivial

/-- The account of an execution of an agent. -/
lemma executeAgent_accounts {agentId : Id} {input : String} {principal : CommunityPrincipal} :
    Accounted (fun _ _ => True) {} (executeAgent cfg agentId input principal) := by
  unfold executeAgent
  generalize trim input = text
  refine tracked_ite.2 ⟨fun _ => trivial, fun _ => ?_⟩
  refine tracked_await_bind.2 ⟨trivial, fun _ => ?_, fun _ => trivial⟩
  refine runSync_accounts.bind (fun m id _ => ?_) fun _ _ _ => trivial
  refine tracked_await_bind.2 ⟨trivial, fun row => ?_, fun _ => trivial⟩
  cases row <;> trivial

/-- A decision knows the execution that it found. -/
lemma readPaused_accounts {instanceId workspaceId : Id} :
    Accounted (Upon (fun m found => m = { known := [found.2.1.id] }) fun _ => True) {}
      (readPaused cfg instanceId workspaceId) := by
  refine tracked_await_bind.2 ⟨trivial, fun found => ?_, fun _ => trivial⟩
  cases found.filter (·.objectName = "AgentExecution") with
  | none => exact trivial
  | some row =>
    refine tracked_ite.2 ⟨fun _ => trivial, fun _ => ?_⟩
    cases parsePausedToolCall cfg row.history with
    | none => exact trivial
    | some paused =>
      refine tracked_await_bind.2 ⟨trivial, fun execution => ?_, fun _ => trivial⟩
      cases execution with
      | none => exact trivial
      | some execution => exact tracked_ite.2 ⟨fun _ => trivial, fun _ => rfl⟩

/-- The account of a decision. -/
lemma decideApproval_accounts {instanceId : Id} {decision : String} {comment : Option String}
    {principal : CommunityPrincipal} :
    Accounted (fun _ _ => True) {} (decideApproval cfg instanceId decision comment principal) := by
  unfold decideApproval
  cases Decision.ofText decision with
  | none => exact trivial
  | some decision =>
    refine tracked_bind readPaused_accounts (fun m found hm => ?_) fun _ _ _ => trivial
    obtain ⟨row, execution, paused⟩ := found
    subst hm
    refine tracked_await_bind.2 ⟨trivial, fun _ => ?_, fun _ => trivial⟩
    cases decision with
    | rejected =>
      refine tracked_await_bind.2 ⟨fun hmetered => ?_, fun _ => trivial, fun _ => trivial⟩
      cases hmetered
    | approved =>
      refine tracked_ofExcept_bind (fun status _ => ?_) fun _ _ => trivial
      refine tracked_await_bind.2 ⟨trivial, fun _ => ?_, fun _ => trivial⟩
      have hrun : ∀ resume, Accounted (fun _ _ => True) { known := [execution.id] }
          (execute cfg { execution with status := status } (some resume) none) :=
        fun resume => execute_accounts (List.mem_cons_self ..) rfl
      refine (hrun _).bind (fun m result _ => ?_) fun _ _ _ => trivial
      exact tracked_await_bind.2 ⟨trivial, fun _ => trivial, fun _ => trivial⟩

/-- Every request obeys the law of a run. -/
theorem serve_accounts (request : Request) :
    Accounted (fun _ _ => True) {} (request.serve cfg) := by
  cases request with
  | executeAgent agentId input principal =>
    have hagent := @executeAgent_accounts cfg agentId input principal
    rw [serve_executeAgent]
    -- the text of the operation is of no interest any more
    generalize executeAgent cfg agentId input principal = p at hagent ⊢
    exact hagent.bind (fun _ _ _ => trivial) fun _ _ _ => trivial
  | decideApproval instanceId decision comment principal =>
    have hdecide := @decideApproval_accounts cfg instanceId decision comment principal
    rw [serve_decideApproval]
    generalize decideApproval cfg instanceId decision comment principal = p at hdecide ⊢
    exact hdecide.bind (fun _ _ _ => trivial) fun _ _ _ => trivial
  | pendingApprovals principal =>
    refine Tracked.bind (Q := fun _ _ => True) ?_ (fun _ _ _ => trivial) fun _ _ _ => trivial
    exact tracked_await_bind.2 ⟨trivial, fun _ => trivial, fun _ => trivial⟩

end requests

/-! ## The store and the accounts -/

/-- What holds of the store and of the accounts of all runs. -/
structure Kept {ι : Type} (w : World) (M : ι → Account) : Prop where
  stepless : ∀ e, w.clock ≤ e → w.stepsOf e = []
  unproposed : ∀ e, w.clock ≤ e → w.proposalsOf e = []
  stored : ∀ e row, w.executions e = some row → row.id < w.clock
  known : ∀ i, ∀ e ∈ (M i).known, e < w.clock
  held : ∀ i e, (M i).holds = some e → e < w.clock
  alone : ∀ i j e, (M i).holds = some e → (M j).holds = some e → i = j
  numbered : ∀ e, Numbered (w.stepsOf e)
  books : ∀ i e, (M i).holds = some e → (M i).ready = true →
    (w.stepsOf e).map ReactStep.plain = (M i).rows.map ReactStep.plain ∧
      (w.proposalsOf e).length ≤ (M i).calls
  calls : ∀ e, (w.proposalsOf e).length ≤ toolSteps (w.stepsOf e) + 1

/-- The execution of which a statement starts a run. -/
def startedBy (w : World) : Stmt → Option Id
  | .createExecution _ => some w.clock
  | .transaction event none =>
    if event.eventType = .executionStarted then some event.aggregateId else none
  | _ => none

/-- No run of an execution starts while another one of it is underway. -/
def Alone {ι : Type} (w : World) (M : ι → Account) (i : ι) (s : Stmt) : Prop :=
  ∀ e, startedBy w s = some e → ∀ j, j ≠ i → (M j).holds ≠ some e

/-- The others hold other executions. -/
lemma Kept.others {ι : Type} {w : World} {M : ι → Account} (h : Kept w M) {i : ι} {e : Id}
    (hi : (M i).holds = some e) (j : ι) (hj : j ≠ i) : (M j).holds ≠ some e :=
  fun hje => hj (h.alone j i e hje hi)

section kept
variable {ι : Type} [DecidableEq ι] {w w' : World} {M : ι → Account} {i : ι} {m : Account}

/-- No two requests hold one execution after the step. -/
lemma alone_update (h : ∀ i j e, (M i).holds = some e → (M j).holds = some e → i = j)
    (hm : ∀ e, m.holds = some e → ∀ j, j ≠ i → (M j).holds ≠ some e) :
    ∀ j k e, (Function.update M i m j).holds = some e →
      (Function.update M i m k).holds = some e → j = k := by
  intro j k e hj hk
  by_cases hji : j = i
  · subst hji
    rw [Function.update_self] at hj
    by_cases hkj : k = j
    · exact hkj.symm
    · rw [Function.update_of_ne hkj] at hk
      exact absurd hk (hm e hj k hkj)
  · rw [Function.update_of_ne hji] at hj
    by_cases hki : k = i
    · subst hki
      rw [Function.update_self] at hk
      exact absurd hj (hm e hk j hji)
    · rw [Function.update_of_ne hki] at hk
      exact h j k e hj hk

/-- What is known is of the past after the step. -/
lemma known_update {n : Nat} (h : ∀ j, ∀ e ∈ (M j).known, e < w.clock) (hclock : w.clock ≤ n)
    (hm : ∀ e ∈ m.known, e < n) : ∀ j, ∀ e ∈ (Function.update M i m j).known, e < n := by
  rw [Function.forall_update_iff M fun _ m => ∀ e ∈ m.known, e < n]
  exact ⟨hm, fun j _ e he => (h j e he).trans_le hclock⟩

/-- What is held is of the past after the step. -/
lemma held_update {n : Nat} (h : ∀ j e, (M j).holds = some e → e < w.clock) (hclock : w.clock ≤ n)
    (hm : ∀ e, m.holds = some e → e < n) :
    ∀ j e, (Function.update M i m j).holds = some e → e < n := by
  rw [Function.forall_update_iff M fun _ m => ∀ e, m.holds = some e → e < n]
  exact ⟨hm, fun j _ e he => (h j e he).trans_le hclock⟩

/-- The books agree after the step. -/
lemma books_update (hm : ∀ e, m.holds = some e → m.ready = true →
      (w'.stepsOf e).map ReactStep.plain = m.rows.map ReactStep.plain ∧
        (w'.proposalsOf e).length ≤ m.calls)
    (h : ∀ j, j ≠ i → ∀ e, (M j).holds = some e → (M j).ready = true →
      (w'.stepsOf e).map ReactStep.plain = (M j).rows.map ReactStep.plain ∧
        (w'.proposalsOf e).length ≤ (M j).calls) :
    ∀ j e, (Function.update M i m j).holds = some e → (Function.update M i m j).ready = true →
      (w'.stepsOf e).map ReactStep.plain = (Function.update M i m j).rows.map ReactStep.plain ∧
        (w'.proposalsOf e).length ≤ (Function.update M i m j).calls := by
  rw [Function.forall_update_iff M fun _ m => ∀ e, m.holds = some e → m.ready = true →
    (w'.stepsOf e).map ReactStep.plain = m.rows.map ReactStep.plain ∧
      (w'.proposalsOf e).length ≤ m.calls]
  exact ⟨hm, h⟩

/-- A statement that adds no step and no proposal, after which the run holds what nobody else holds
and is right about it. -/
lemma Kept.stay (h : Kept w M) (hsteps : ∀ e, w'.stepsOf e = w.stepsOf e)
    (hproposals : ∀ e, w'.proposalsOf e = w.proposalsOf e)
    (hstored : ∀ e row, w'.executions e = some row → row.id < w'.clock)
    (hclock : w.clock ≤ w'.clock) (hknown : ∀ e ∈ m.known, e < w'.clock)
    (hheld : ∀ e, m.holds = some e → e < w'.clock)
    (halone : ∀ e, m.holds = some e → ∀ j, j ≠ i → (M j).holds ≠ some e)
    (hbooks : ∀ e, m.holds = some e → m.ready = true →
      (w.stepsOf e).map ReactStep.plain = m.rows.map ReactStep.plain ∧
        (w.proposalsOf e).length ≤ m.calls) :
    Kept w' (Function.update M i m) where
  stepless e he := (hsteps e).trans (h.stepless e (hclock.trans he))
  unproposed e he := (hproposals e).trans (h.unproposed e (hclock.trans he))
  stored := hstored
  known := known_update h.known hclock hknown
  held := held_update h.held hclock hheld
  alone := alone_update h.alone halone
  numbered e := by
    rw [hsteps e]
    exact h.numbered e
  books := by
    refine books_update (fun e he hready => ?_) fun j _ e he hready => ?_
    · rw [hsteps e, hproposals e]
      exact hbooks e he hready
    · rw [hsteps e, hproposals e]
      exact h.books j e he hready
  calls e := by
    rw [hsteps e, hproposals e]
    exact h.calls e

/-- A run persists the next step of its execution. -/
lemma Kept.push (h : Kept w M) {row : ReactStep} (hlaw : (M i).Allows (.createStep row)) :
    Kept (settle (.createStep row) (.ok ()) w)
      (Function.update M i ((M i).note (.createStep row) (.ok ()))) := by
  obtain ⟨hholds, hready, hindex, _⟩ := hlaw
  obtain ⟨hrows, hcalls⟩ := h.books i _ hholds hready
  have hheld := h.held i _ hholds
  have hsame : (settle (.createStep row) (.ok ()) w).stepsOf row.executionId =
      w.stepsOf row.executionId ++ [{ row with id := w.clock }] := by
    rw [settle_stepsOf]
    simp [addedSteps]
  have hother : ∀ e, e ≠ row.executionId →
      (settle (.createStep row) (.ok ()) w).stepsOf e = w.stepsOf e := by
    intro e he
    rw [settle_stepsOf]
    simp [addedSteps, he.symm]
  have hproposals : ∀ e, (settle (.createStep row) (.ok ()) w).proposalsOf e = w.proposalsOf e := by
    intro e
    rw [settle_proposals]
    exact List.append_nil _
  have hlast : row.stepIndex = (w.stepsOf row.executionId).length := by
    have hlength : (w.stepsOf row.executionId).length = (M i).rows.length := by
      rw [← List.length_map ReactStep.plain, hrows, List.length_map]
    rw [hlength]
    apply hindex
    rw [← numbered_plain, ← hrows, numbered_plain]
    exact h.numbered _
  refine
    { stepless := fun e he => ?_
      unproposed := fun e he => (hproposals e).trans (h.unproposed e (Nat.le_of_succ_le he))
      stored := fun e row hrow => Nat.lt_succ_of_lt (h.stored e row hrow)
      known := known_update h.known (Nat.le_succ _) fun e he => Nat.lt_succ_of_lt (h.known i e he)
      held := held_update h.held (Nat.le_succ _) fun e he => Nat.lt_succ_of_lt (h.held i e he)
      alone := alone_update h.alone fun e he => h.others he
      numbered := fun e => ?_
      books := ?_
      calls := fun e => ?_ }
  · rw [hother e (hheld.trans_le (Nat.le_of_succ_le he)).ne']
    exact h.stepless e (Nat.le_of_succ_le he)
  -- the steps of the execution grow by one, those of the others stay
  · by_cases he : e = row.executionId
    · subst he
      rw [hsame]
      exact (h.numbered _).concat hlast
    · rw [hother e he]
      exact h.numbered e
  · refine books_update (fun e he _ => ?_) fun j hj e he hready => ?_
    · have heq : row.executionId = e := Option.some.inj (hholds.symm.trans he)
      subst heq
      rw [hsame, hproposals, List.map_append, hrows]
      refine ⟨?_, hcalls⟩
      show _ = ((M i).read ++ ((M i).written ++ [row])).map ReactStep.plain
      rw [← List.append_assoc, List.map_append]
      rfl
    · have hne : e ≠ row.executionId := fun heq => h.others hholds j hj (heq ▸ he)
      rw [hother e hne, hproposals]
      exact h.books j e he hready
  · rw [hproposals]
    by_cases he : e = row.executionId
    · subst he
      rw [hsame]
      exact (h.calls _).trans (Nat.succ_le_succ (toolSteps_le_concat _))
    · rw [hother e he]
      exact h.calls e

/-- A run proposes a call for its execution. -/
lemma Kept.propose (h : Kept w M) {proposal : Proposal} {call : Id}
    (hlaw : (M i).Allows (.propose proposal)) :
    Kept (settle (.propose proposal) (.ok call) w)
      (Function.update M i ((M i).note (.propose proposal) (.ok call))) := by
  obtain ⟨hholds, hready, hstep, _⟩ := hlaw
  obtain ⟨hrows, hcalls⟩ := h.books i _ hholds hready
  have hheld := h.held i _ hholds
  have hsteps : ∀ e, (settle (.propose proposal) (.ok call) w).stepsOf e = w.stepsOf e := by
    intro e
    rw [settle_stepsOf]
    exact List.append_nil _
  have hsame : (settle (.propose proposal) (.ok call) w).proposalsOf proposal.executionId =
      w.proposalsOf proposal.executionId ++ [call] := by
    rw [settle_proposals]
    simp [addedProposals, proposalFor]
  have hother : ∀ e, e ≠ proposal.executionId →
      (settle (.propose proposal) (.ok call) w).proposalsOf e = w.proposalsOf e := by
    intro e he
    rw [settle_proposals]
    simp [addedProposals, proposalFor, he.symm]
  refine
    { stepless := fun e he => (hsteps e).trans (h.stepless e (Nat.le_of_succ_le he))
      unproposed := fun e he => ?_
      stored := fun e row hrow => Nat.lt_succ_of_lt (h.stored e row hrow)
      known := known_update h.known (Nat.le_succ _) fun e he => Nat.lt_succ_of_lt (h.known i e he)
      held := held_update h.held (Nat.le_succ _) fun e he => Nat.lt_succ_of_lt (h.held i e he)
      alone := alone_update h.alone fun e he => h.others he
      numbered := fun e => (hsteps e).symm ▸ h.numbered e
      books := ?_
      calls := fun e => ?_ }
  · rw [hother e (hheld.trans_le (Nat.le_of_succ_le he)).ne']
    exact h.unproposed e (Nat.le_of_succ_le he)
  · refine books_update (fun e he _ => ?_) fun j hj e he hready => ?_
    · have heq : proposal.executionId = e := Option.some.inj (hholds.symm.trans he)
      subst heq
      rw [hsteps, hsame, List.length_append]
      exact ⟨hrows, Nat.succ_le_succ hcalls⟩
    · have hne : e ≠ proposal.executionId := fun heq => h.others hholds j hj (heq ▸ he)
      rw [hother e hne, hsteps]
      exact h.books j e he hready
  · rw [hsteps]
    by_cases he : e = proposal.executionId
    · subst he
      rw [hsame, List.length_append]
      -- the calls before have all their steps when the next one is proposed
      rw [← toolSteps_plain, ← hrows, toolSteps_plain] at hstep
      exact Nat.succ_le_succ (hcalls.trans hstep)
    · rw [hother e he]
      exact h.calls e

/-! ### One statement -/

/-- A statement that is neither a step nor a proposal leaves both alone. -/
lemma Kept.settled {ans : Answers} {s : Stmt} (h : Kept w M)
    (hadds : addedSteps s (answer ans s w) w.clock = [])
    (hproposes : addedProposals s (answer ans s w) = [])
    (hknown : ∀ e ∈ m.known, e < w.clock + 1) (hheld : ∀ e, m.holds = some e → e < w.clock + 1)
    (halone : ∀ e, m.holds = some e → ∀ j, j ≠ i → (M j).holds ≠ some e)
    (hbooks : ∀ e, m.holds = some e → m.ready = true →
      (w.stepsOf e).map ReactStep.plain = m.rows.map ReactStep.plain ∧
        (w.proposalsOf e).length ≤ m.calls) :
    Kept (exec ans s w).1 (Function.update M i m) := by
  have hclock : (exec ans s w).1.clock = w.clock + 1 := settle_clock s _ w
  apply h.stay
  · intro e
    show (settle s (answer ans s w) w).stepsOf e = _
    rw [settle_stepsOf, hadds]
    exact List.append_nil _
  · intro e
    show (settle s (answer ans s w) w).proposalsOf e = _
    rw [settle_proposals, hproposes]
    exact List.append_nil _
  · intro e row hrow
    rw [hclock]
    exact executions_below h.stored hrow
  · rw [hclock]
    exact Nat.le_succ _
  · rw [hclock]
    exact hknown
  · rw [hclock]
    exact hheld
  · exact halone
  · exact hbooks

/-- A statement after which the run holds what it held, or nothing, and is as right about it. -/
lemma Kept.same {ans : Answers} {s : Stmt} (h : Kept w M)
    (hadds : addedSteps s (answer ans s w) w.clock = [])
    (hproposes : addedProposals s (answer ans s w) = [])
    (hknown : ∀ e ∈ m.known, e < w.clock + 1)
    (hholds : ∀ e, m.holds = some e → (M i).holds = some e ∧ m.ready = (M i).ready ∧
      m.rows = (M i).rows ∧ m.calls = (M i).calls) :
    Kept (exec ans s w).1 (Function.update M i m) := by
  apply h.settled hadds hproposes hknown
  · intro e he
    exact Nat.lt_succ_of_lt (h.held i e (hholds e he).1)
  · intro e he
    exact h.others (hholds e he).1
  · intro e he hready
    obtain ⟨hheld, hsame, hrows, hcalls⟩ := hholds e he
    rw [hrows, hcalls]
    exact h.books i e hheld (hsame ▸ hready)

/-- A run is created. -/
lemma Kept.create {ans : Answers} {row saved : AgentExecution} (h : Kept w M)
    (hr : answer ans (.createExecution row) w = .ok saved)
    (halone : Alone w M i (.createExecution row)) :
    Kept (exec ans (.createExecution row) w).1
      (Function.update M i ((M i).note (.createExecution row) (.ok saved))) := by
  have hid := answer_createExecution hr
  apply h.settled
  · rfl
  · rfl
  · intro e he
    rcases List.mem_cons.1 he with rfl | he
    · rw [hid]
      exact Nat.lt_succ_self _
    · exact Nat.lt_succ_of_lt (h.known i e he)
  · intro e he
    rw [← Option.some.inj he, hid]
    exact Nat.lt_succ_self _
  · intro e he
    rw [← Option.some.inj he, hid]
    exact halone _ rfl
  · intro e he _
    rw [← Option.some.inj he, hid, h.stepless _ le_rfl, h.unproposed _ le_rfl]
    exact ⟨rfl, le_rfl⟩

/-- A run starts, a closeout or the `catch` ends it, and any other event leaves it alone. -/
lemma Kept.transact {ans : Answers} {event : OutboxEvent} {patch : Option ExecutionPatch}
    (h : Kept w M) (hlaw : (M i).Allows (.transaction event patch))
    (halone : Alone w M i (.transaction event patch)) (ok : Bool) :
    Kept (exec ans (.transaction event patch) w).1
      (Function.update M i ((M i).transact event patch ok)) := by
  have hknown : ∀ e ∈ (M i).known, e < w.clock + 1 := fun e he => Nat.lt_succ_of_lt (h.known i e he)
  -- a patch with the event closes the execution, an event alone may start a run
  cases patch with
  | some patch =>
    unfold Account.transact
    dsimp only
    split_ifs
    · exact h.same rfl rfl hknown fun e he => ⟨he, rfl, rfl, rfl⟩
    · exact h.same rfl rfl hknown fun e he => by cases he
  | none =>
    unfold Account.transact
    dsimp only
    split_ifs with hstart
    · obtain ⟨hin, hready⟩ := hlaw hstart.1
      apply h.settled
      · rfl
      · rfl
      · exact hknown
      · intro e he
        rw [← Option.some.inj he]
        exact hknown _ hin
      · intro e he
        rw [← Option.some.inj he]
        refine halone _ ?_
        show (if event.eventType = .executionStarted then some event.aggregateId else none) = _
        rw [if_pos hstart.1]
      · intro e he hready'
        rw [← Option.some.inj he]
        rcases hready with hheld | ⟨hfalse, _⟩
        · exact h.books i _ hheld hready'
        · have hboth : true = false := hready'.symm.trans hfalse
          cases hboth
    · exact h.same rfl rfl hknown fun e he => ⟨he, rfl, rfl, rfl⟩

/-- A resumed run reads all steps of its execution. -/
lemma Kept.reads {ans : Answers} {e : Id} {rows : List ReactStep} (h : Kept w M)
    (hlaw : (M i).Allows (.findSteps e)) (hr : answer ans (.findSteps e) w = .ok rows) :
    Kept (exec ans (.findSteps e) w).1
      (Function.update M i ((M i).note (.findSteps e) (.ok rows))) := by
  obtain ⟨hholds, _, hwritten⟩ := hlaw
  have hrows : rows = (w.stepsOf e).map (·.loaded ans.asText) := by
    rw [answer_findSteps hr, (h.numbered e).sorted]
  apply h.settled
  · rfl
  · rfl
  · exact fun e he => Nat.lt_succ_of_lt (h.known i e he)
  · exact fun e he => Nat.lt_succ_of_lt (h.held i e he)
  · exact fun e he => h.others he
  · intro e' he _
    have heq : e = e' := Option.some.inj (hholds.symm.trans he)
    subst heq
    refine ⟨?_, ?_⟩
    · show _ = (rows ++ (M i).written).map ReactStep.plain
      rw [hwritten, List.append_nil, hrows, List.map_map]
      rfl
    · show _ ≤ toolSteps rows + 1
      rw [hrows, ← toolSteps_plain, List.map_map]
      exact (h.calls e).trans_eq (congrArg (· + 1) toolSteps_plain.symm)

/-- One lawful statement keeps the store and the accounts, as long as runs of one execution do not
overlap. -/
theorem Kept.step {ans : Answers} {s : Stmt} (h : Kept w M) (hlaw : (M i).Allows s)
    (halone : Alone w M i s) :
    Kept (exec ans s w).1 (Function.update M i ((M i).note s (exec ans s w).2)) := by
  have hknown : ∀ e ∈ (M i).known, e < w.clock + 1 := fun e he => Nat.lt_succ_of_lt (h.known i e he)
  have hquiet : ∀ r : s.Resp, addedSteps s (answer ans s w) w.clock = [] →
      addedProposals s (answer ans s w) = [] → (M i).note s r = M i →
      Kept (exec ans s w).1 (Function.update M i ((M i).note s r)) := by
    intro r hadds hproposes hnote
    rw [hnote]
    exact h.same hadds hproposes hknown fun e he => ⟨he, rfl, rfl, rfl⟩
  show Kept (exec ans s w).1 (Function.update M i ((M i).note s (answer ans s w)))
  -- only these statements touch the steps, the proposals or the accounts
  cases s with
  | createStep row =>
    cases hr : answer ans (.createStep row) w with
    | error msg => exact hquiet _ (by rw [hr]; rfl) (by rw [hr]; rfl) rfl
    | ok a =>
      show Kept (settle (.createStep row) (answer ans (.createStep row) w) w) _
      rw [hr]
      exact h.push hlaw
  | propose proposal =>
    cases hr : answer ans (.propose proposal) w with
    | error msg => exact hquiet _ (by rw [hr]; rfl) (by rw [hr]; rfl) rfl
    | ok call =>
      show Kept (settle (.propose proposal) (answer ans (.propose proposal) w) w) _
      rw [hr]
      exact h.propose hlaw
  | createExecution row =>
    cases hr : answer ans (.createExecution row) w with
    | error msg => exact hquiet _ rfl rfl rfl
    | ok saved => exact h.create hr halone
  | transaction event patch => exact h.transact hlaw halone _
  | findSteps e =>
    cases hr : answer ans (.findSteps e) w with
    | error msg => exact hquiet _ rfl rfl rfl
    | ok rows => exact h.reads hlaw hr
  | findExecution id workspaceId =>
    cases hr : answer ans (.findExecution id workspaceId) w with
    | error msg => exact hquiet _ rfl rfl rfl
    | ok row =>
      cases row with
      | none => exact hquiet _ rfl rfl rfl
      | some row =>
        refine h.same rfl rfl (fun e he => ?_) fun e he => ⟨he, rfl, rfl, rfl⟩
        rcases List.mem_cons.1 he with rfl | he
        · exact Nat.lt_succ_of_lt (h.stored _ _ (answer_findExecution hr))
        · exact hknown e he
  | buildContext agent workspaceId executionId caller =>
    cases answer ans (.buildContext agent workspaceId executionId caller) w with
    | error msg => exact hquiet _ rfl rfl rfl
    | ok context => exact h.same rfl rfl hknown fun e he => ⟨he, rfl, rfl, rfl⟩
  | _ => exact hquiet _ rfl rfl rfl

end kept

/-! ## Totals over pauses -/

/-- The invariant holds before anything is stored. -/
lemma kept_fresh {ι : Type} (agents : List Agent) (grants : List ObjectGrant)
    (metadata : List ObjectMetadata) :
    Kept (World.fresh agents grants metadata) fun _ : ι => ({} : Account) where
  stepless _ _ := rfl
  unproposed _ _ := rfl
  stored _ _ hrow := by cases hrow
  known _ _ he := by cases he
  held _ _ he := by cases he
  alone _ _ _ he := by cases he
  numbered _ := numbered_nil
  books _ _ he := by cases he
  calls _ := Nat.zero_le _

instance {ι : Type} [DecidableEq ι] [Fintype ι] (w : World) (M : ι → Account) (i : ι) (s : Stmt) :
    Decidable (Alone w M i s) :=
  decidable_of_iff (((startedBy w s).all fun e => decide (∀ j, j ≠ i → (M j).holds ≠ some e)) = true)
    (by
      unfold Alone
      cases startedBy w s with
      | none => exact ⟨fun _ _ he => (by cases he), fun _ => rfl⟩
      | some e =>
        rw [Option.all_some, decide_eq_true_eq]
        exact ⟨fun h e' he => Option.some.inj he ▸ h, fun h => h e rfl⟩)

/-- No two runs of an execution are underway at a time, along a schedule. -/
def OneRunAtATime {ι : Type} [DecidableEq ι] (cfg : Config) (ans : Answers) (w : World)
    (requests : ι → Request) (sched : List ι) : Prop :=
  Pool.Guarded (exec ans) (fun w H i s => Alone w (fun j => accountOf (H j)) i s)
    (Pool.start w fun i => (requests i).serve cfg) sched

/-- A statement that reads steps replaces those that a run has read, any other keeps them. -/
lemma note_read (m : Account) (s : Stmt) (r : s.Resp) :
    (m.note s r).read = m.read ∨ (m.note s r).read = [] ∨
      ∃ e rows, (⟨s, r⟩ : Sigma Stmt.Resp) = ⟨.findSteps e, .ok rows⟩ ∧
        (m.note s r).read = rows := by
  cases s with
  | findSteps e =>
    cases r with
    | error msg => exact .inl rfl
    | ok rows => exact .inr (.inr ⟨e, rows, rfl, rfl⟩)
  | createExecution row =>
    cases r with
    | error msg => exact .inl rfl
    | ok saved => exact .inr (.inl rfl)
  | findExecution id workspaceId =>
    rcases r with msg | row
    · exact .inl rfl
    · cases row <;> exact .inl rfl
  | transaction event patch =>
    refine .inl ?_
    show (m.transact event patch _).read = m.read
    unfold Account.transact
    cases patch with
    | none => dsimp only; split_ifs <;> rfl
    | some patch => dsimp only; split_ifs <;> rfl
  | _ => cases r <;> exact .inl rfl

/-- What a run has read back, it has read with `findSteps`. -/
lemma read_from_history (m : Account) (h : History Stmt Stmt.Resp) :
    ∀ row ∈ (bookkeeping Account.note m h).read, row ∈ m.read ∨
      ∃ e rows, ⟨.findSteps e, .ok rows⟩ ∈ h ∧ row ∈ rows := by
  induction h generalizing m with
  | nil => exact fun row hrow => .inl hrow
  | cons o h ih =>
    obtain ⟨s, r⟩ := o
    intro row hrow
    rcases ih (m.note s r) row hrow with hin | ⟨e, rows, hin, hfound⟩
    · rcases note_read m s r with hsame | hnil | ⟨e, rows, heq, hread⟩
      · rw [hsame] at hin
        exact .inl hin
      · rw [hnil] at hin
        cases hin
      · rw [hread] at hin
        exact .inr ⟨e, rows, heq ▸ List.mem_cons_self .., hin⟩
    · exact .inr ⟨e, rows, List.mem_cons_of_mem _ hin, hfound⟩

/-- The totals are those of all steps of the execution, as they were produced. -/
structure Metered (w : World) (executionId : Id) (patch : ExecutionPatch) : Prop where
  input : patch.totalInputTokens = some ((w.stepsOf executionId).map (·.tokensUsed.input)).sum
  output : patch.totalOutputTokens = some ((w.stepsOf executionId).map (·.tokensUsed.output)).sum

/-- The summary is that of all steps of the execution, as they were produced. -/
def Summarized (w : World) (executionId : Id) (patch : ExecutionPatch) : Prop :=
  patch.aiProviderSummary =
    some (summarize ((w.stepsOf executionId).filterMap (·.aiProviderStamp)))

/-- Of a step that was persisted and read back every reader sees what it saw before if and only if the
step survives. In every interleaving of requests in which the runs of an execution do not overlap, a
closeout writes the tokens of all steps, and the summary of all steps if no step that its run has read
back has a stamp. -/
theorem metering_over_pauses {ι : Type} [DecidableEq ι] (cfg : Config) (ans : Answers)
    (agents : List Agent) (grants : List ObjectGrant) (metadata : List ObjectMetadata)
    (requests : ι → Request) (sched : List ι)
    (halone : OneRunAtATime cfg ans (World.fresh agents grants metadata) requests sched) :
    (∀ execution step,
      ReadAlike ((persisted execution step).loaded ans.asText).rebuilt step ↔ Survives step) ∧
    let c := serving cfg ans (World.fresh agents grants metadata) requests sched
    ∀ i event patch k, c.thread i = .stmt (.transaction event (some patch)) k →
      patch.totalInputTokens.isSome = true →
      Metered c.world event.aggregateId patch ∧
        ((∀ e rows, ⟨.findSteps e, .ok rows⟩ ∈ c.seen i →
            ∀ row ∈ rows, row.aiProviderStamp = none) →
          Summarized c.world event.aggregateId patch) := by
  refine ⟨rebuilt_iff ans.asText, ?_⟩
  intro c i event patch k hi hmetered
  have hkept : Kept c.world fun j => accountOf (c.seen j) :=
    (Tracked.play (J := Kept) (fun i => serve_accounts (requests i))
      (kept_fresh agents grants metadata) (fun w M i s h hlaw hG => h.step hlaw hG) halone).1
  have hlaw : (accountOf (c.seen i)).Allows (.transaction event (some patch)) :=
    Tracked.next (p := fun i => (requests i).serve cfg) (serve_accounts (requests i)) hi
  obtain ⟨hholds, hready, htotals⟩ := hlaw hmetered
  obtain ⟨hrows, _⟩ := hkept.books i _ hholds hready
  refine ⟨⟨?_, ?_⟩, fun hstamps => ?_⟩
  · rw [htotals.input]
    rw [map_plain (·.tokensUsed.input) (fun _ => rfl) hrows]
  · rw [htotals.output]
    rw [map_plain (·.tokensUsed.output) (fun _ => rfl) hrows]
  · have hstored : (c.world.stepsOf event.aggregateId).filterMap (·.aiProviderStamp) =
        (accountOf (c.seen i)).rows.filterMap (·.aiProviderStamp) := by
      have hmap := congrArg (List.filterMap id)
        (map_plain (·.aiProviderStamp) (fun _ => rfl) hrows)
      rwa [List.filterMap_map, List.filterMap_map] at hmap
    have hread : (accountOf (c.seen i)).read.filterMap (·.aiProviderStamp) = [] := by
      apply List.filterMap_eq_nil_iff.2
      intro row hrow
      -- what a run has read, it has read in one of the statements behind it
      rcases read_from_history {} (c.seen i) row hrow with hnone | ⟨e, rows, hin, hfound⟩
      · cases hnone
      · exact hstamps e rows hin row hfound
    unfold Summarized
    rw [htotals.summary, hstored]
    unfold Account.rows
    rw [List.filterMap_append, hread, List.nil_append]

end NexusClaw.Community
