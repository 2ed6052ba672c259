import NexusClaw.Community.Sessions

/-!
# The limits of a session

The limits of an execution over all its passes, and the totals and the limits of a session with one
pass and an approval.
-/

namespace NexusClaw.Community
open Concurrent AgentRuntime
open Governance (Id)

/-! ## Limits over pauses -/

/-- The proposed calls of an execution for which a tool's body was run. -/
def ranCalls (w : World) (executionId : Id) : List Id :=
  (w.proposalsOf executionId).filter fun call =>
    w.trace.any fun
      | .toolBody invocation _ _ => invocation.call = call
      | _ => false

/-- Every context of an execution has the same constraints. -/
def SameConstraints (limits : Id → Constraints) (w : World) : Stmt → Prop
  | .buildContext agent workspaceId executionId caller =>
    ∀ context, buildContext agent workspaceId executionId caller w.grants w.metadata = .ok context →
      context.constraints = limits executionId
  | _ => True

/-- No run goes on with as many steps as the limit allows. -/
def BelowLimit (limits : Id → Constraints) (w : World) : Stmt → Prop
  | .findSteps executionId =>
    (w.stepsOf executionId).length < (limits executionId).maxReActIterations
  | _ => True

/-- The store and the accounts are within the limits. -/
structure Within {ι : Type} (limits : Id → Constraints) (w : World) (M : ι → Account) : Prop where
  constraints : ∀ i e c, (M i).holds = some e → (M i).constraints = some c → c = limits e
  approving : ∀ i e, (M i).holds = some e → (M i).approved = true →
    (M i).rows.length < (limits e).maxReActIterations
  steps : ∀ e, (w.stepsOf e).length ≤ (limits e).maxReActIterations
  calls : ∀ e, (w.proposalsOf e).length ≤ (limits e).maxToolCalls

section within
variable {ι : Type} [DecidableEq ι] {limits : Id → Constraints} {w w' : World} {M : ι → Account}
  {i : ι} {m : Account} {ans : Answers}

/-- A run whose account is within the limits after a statement that leaves the store within them. -/
lemma Within.update (h : Within limits w M)
    (hconstraints : ∀ e c, m.holds = some e → m.constraints = some c → c = limits e)
    (happroving : ∀ e, m.holds = some e → m.approved = true →
      m.rows.length < (limits e).maxReActIterations)
    (hsteps : ∀ e, (w'.stepsOf e).length ≤ (limits e).maxReActIterations)
    (hcalls : ∀ e, (w'.proposalsOf e).length ≤ (limits e).maxToolCalls) :
    Within limits w' (Function.update M i m) where
  constraints := by
    rw [Function.forall_update_iff M fun _ m => ∀ e c, m.holds = some e →
      m.constraints = some c → c = limits e]
    exact ⟨hconstraints, fun j _ => h.constraints j⟩
  approving := by
    rw [Function.forall_update_iff M fun _ m => ∀ e, m.holds = some e → m.approved = true →
      m.rows.length < (limits e).maxReActIterations]
    exact ⟨happroving, fun j _ => h.approving j⟩
  steps := hsteps
  calls := hcalls

/-- A statement that adds neither a step nor a proposal. -/
lemma Within.settled {s : Stmt} (h : Within limits w M)
    (hadds : addedSteps s (answer ans s w) w.clock = [])
    (hproposes : addedProposals s (answer ans s w) = [])
    (hconstraints : ∀ e c, m.holds = some e → m.constraints = some c → c = limits e)
    (happroving : ∀ e, m.holds = some e → m.approved = true →
      m.rows.length < (limits e).maxReActIterations) :
    Within limits (exec ans s w).1 (Function.update M i m) := by
  refine h.update hconstraints happroving (fun e => ?_) fun e => ?_
  · show ((settle s (answer ans s w) w).stepsOf e).length ≤ _
    rw [settle_stepsOf, hadds, List.filter_nil, List.append_nil]
    exact h.steps e
  · show ((settle s (answer ans s w) w).proposalsOf e).length ≤ _
    rw [settle_proposals, hproposes, List.filterMap_nil, List.append_nil]
    exact h.calls e

/-- The next step is below the limit: the loop checks it, and a resumed run went on below it. -/
lemma Within.push (h : Within limits w M) (hkept : Kept w M) {row : ReactStep}
    (hlaw : (M i).Allows (.createStep row)) :
    Within limits (settle (.createStep row) (.ok ()) w)
      (Function.update M i ((M i).note (.createStep row) (.ok ()))) := by
  obtain ⟨hholds, hready, _, hlimit⟩ := hlaw
  obtain ⟨hrows, _⟩ := hkept.books i _ hholds hready
  have hlength : (w.stepsOf row.executionId).length = (M i).rows.length := by
    rw [← List.length_map ReactStep.plain, hrows, List.length_map]
  refine h.update (h.constraints i) (fun e _ ha => by cases ha) (fun e => ?_) fun e => ?_
  · rw [settle_stepsOf, List.length_append]
    by_cases he : e = row.executionId
    · subst he
      have hbelow : (M i).rows.length < (limits row.executionId).maxReActIterations := by
        rcases hlimit with happroved | ⟨c, hc, hbelow⟩
        · exact h.approving i _ hholds happroved
        · rw [← h.constraints i _ c hholds hc]
          exact hbelow
      rw [hlength]
      simpa [addedSteps] using Nat.succ_le_of_lt hbelow
    · have hsame := h.steps e
      simpa [addedSteps, Ne.symm he] using hsame
  · rw [settle_proposals]
    exact (List.append_nil (w.proposalsOf e)).symm ▸ h.calls e

/-- A proposal stays within the limits. -/
lemma Within.propose (h : Within limits w M) (hkept : Kept w M) {proposal : Proposal} {call : Id}
    (hlaw : (M i).Allows (.propose proposal)) :
    Within limits (settle (.propose proposal) (.ok call) w)
      (Function.update M i ((M i).note (.propose proposal) (.ok call))) := by
  obtain ⟨hholds, hready, _, c, hc, hmax⟩ := hlaw
  obtain ⟨_, hcalls⟩ := hkept.books i _ hholds hready
  refine h.update (h.constraints i) (h.approving i) (fun e => ?_) fun e => ?_
  · rw [settle_stepsOf]
    exact (List.append_nil (w.stepsOf e)).symm ▸ h.steps e
  · rw [settle_proposals, List.length_append]
    by_cases he : e = proposal.executionId
    · subst he
      rw [← h.constraints i _ c hholds hc]
      have hnext : (w.proposalsOf proposal.executionId).length + 1 ≤ c.maxToolCalls :=
        (Nat.succ_le_succ hcalls).trans hmax
      simpa [addedProposals, proposalFor] using hnext
    · have hsame := h.calls e
      simpa [addedProposals, proposalFor, Ne.symm he] using hsame

/-- One lawful statement below the limit keeps the limits. -/
theorem Within.step {s : Stmt} (h : Within limits w M) (hkept : Kept w M)
    (hlaw : (M i).Allows s) (hsame : SameConstraints limits w s) (hbelow : BelowLimit limits w s) :
    Within limits (exec ans s w).1 (Function.update M i ((M i).note s (exec ans s w).2)) := by
  have hquiet : ∀ r : s.Resp, addedSteps s (answer ans s w) w.clock = [] →
      addedProposals s (answer ans s w) = [] → (M i).note s r = M i →
      Within limits (exec ans s w).1 (Function.update M i ((M i).note s r)) := by
    intro r hadds hproposes hnote
    rw [hnote]
    exact h.settled hadds hproposes (h.constraints i) (h.approving i)
  show Within limits (exec ans s w).1 (Function.update M i ((M i).note s (answer ans s w)))
  cases s with
  | createStep row =>
    cases hr : answer ans (.createStep row) w with
    | error msg => exact hquiet _ (by rw [hr]; rfl) (by rw [hr]; rfl) rfl
    | ok a =>
      show Within limits (settle (.createStep row) (answer ans (.createStep row) w) w) _
      rw [hr]
      exact h.push hkept hlaw
  | propose proposal =>
    cases hr : answer ans (.propose proposal) w with
    | error msg => exact hquiet _ (by rw [hr]; rfl) (by rw [hr]; rfl) rfl
    | ok call =>
      show Within limits (settle (.propose proposal) (answer ans (.propose proposal) w) w) _
      rw [hr]
      exact h.propose hkept hlaw
  | createExecution row =>
    cases hr : answer ans (.createExecution row) w with
    | error msg => exact hquiet _ rfl rfl rfl
    | ok saved => exact h.settled rfl rfl (fun _ _ _ hc => by cases hc) fun _ _ ha => by cases ha
  | transaction event patch =>
    show Within limits _ (Function.update M i ((M i).transact event patch _))
    unfold Account.transact
    cases patch with
    | some patch =>
      dsimp only
      split_ifs
      · exact h.settled rfl rfl (h.constraints i) (h.approving i)
      · exact h.settled rfl rfl (fun _ _ he => by cases he) fun _ he => by cases he
    | none =>
      dsimp only
      split_ifs with hstart
      · -- a run that starts holds the execution already or has no constraints yet
        obtain ⟨_, hheld | ⟨_, hnone, happroved⟩⟩ := hlaw hstart.1
        · refine h.settled rfl rfl (fun e c he hc => ?_) fun e he ha => ?_
          · exact h.constraints i e c (hheld.trans he) hc
          · exact h.approving i e (hheld.trans he) ha
        · refine h.settled rfl rfl (fun e c he hc => ?_) fun e he ha => ?_
          · have hboth : none = some c := hnone.symm.trans hc
            cases hboth
          · have hboth : false = true := happroved.symm.trans ha
            cases hboth
      · exact h.settled rfl rfl (h.constraints i) (h.approving i)
  | findSteps e =>
    cases hr : answer ans (.findSteps e) w with
    | error msg => exact hquiet _ rfl rfl rfl
    | ok rows =>
      obtain ⟨hholds, _, hwritten⟩ := hlaw
      refine h.settled rfl rfl (h.constraints i) fun e' he' _ => ?_
      have heq : e = e' := Option.some.inj (hholds.symm.trans he')
      subst heq
      show (rows ++ (M i).written).length < _
      rw [hwritten, List.append_nil, answer_findSteps hr, List.length_map,
        List.length_insertionSort]
      exact hbelow
  | findExecution id workspaceId =>
    cases answer ans (.findExecution id workspaceId) w with
    | error msg => exact hquiet _ rfl rfl rfl
    | ok row =>
      cases row with
      | none => exact hquiet _ rfl rfl rfl
      | some row => exact h.settled rfl rfl (h.constraints i) (h.approving i)
  | buildContext agent workspaceId executionId caller =>
    cases hr : answer ans (.buildContext agent workspaceId executionId caller) w with
    | error msg => exact hquiet _ rfl rfl rfl
    | ok context =>
      refine h.settled rfl rfl (fun e c he hc => ?_) (h.approving i)
      have hholds : (M i).holds = some executionId := hlaw
      have heq : executionId = e := Option.some.inj (hholds.symm.trans he)
      subst heq
      rw [← Option.some.inj hc]
      exact hsame context (answer_buildContext hr)
  | _ => exact hquiet _ rfl rfl rfl

end within

/-- In every interleaving of requests in which the runs of an execution do not overlap, have the same
constraints and are not resumed at the step limit: the steps of every execution are numbered from
zero on, there are no more of them than the limit of steps, and no more of its proposed calls were
run than the limit of calls. -/
theorem limits_over_pauses {ι : Type} [DecidableEq ι] (cfg : Config) (ans : Answers)
    (agents : List Agent) (grants : List ObjectGrant) (metadata : List ObjectMetadata)
    (limits : Id → Constraints) (requests : ι → Request) (sched : List ι)
    (halone : OneRunAtATime cfg ans (World.fresh agents grants metadata) requests sched)
    (hsame : Pool.Guarded (exec ans) (fun w _ _ s => SameConstraints limits w s)
      (Pool.start (World.fresh agents grants metadata) fun i => (requests i).serve cfg) sched)
    (hbelow : Pool.Guarded (exec ans) (fun w _ _ s => BelowLimit limits w s)
      (Pool.start (World.fresh agents grants metadata) fun i => (requests i).serve cfg) sched) :
    let w := (serving cfg ans (World.fresh agents grants metadata) requests sched).world
    ∀ e, (w.stepsOf e).map (·.stepIndex) = List.range (w.stepsOf e).length ∧
      (w.stepsOf e).length ≤ (limits e).maxReActIterations ∧
      (ranCalls w e).length ≤ (limits e).maxToolCalls := by
  intro w e
  have hwithin : Within limits (World.fresh agents grants metadata) fun _ : ι => ({} : Account) :=
    ⟨fun _ _ _ he => (by cases he), fun _ _ he => (by cases he), fun _ => Nat.zero_le _,
      fun _ => Nat.zero_le _⟩
  have hplay := (Tracked.play (J := fun w M => Kept w M ∧ Within limits w M)
    (G := fun w M i s => (Alone w M i s ∧ SameConstraints limits w s) ∧ BelowLimit limits w s)
    (fun i => serve_accounts (requests i))
    ⟨kept_fresh agents grants metadata, hwithin⟩
    (fun w M i s h hlaw hG => ⟨h.1.step hlaw hG.1.1, h.2.step h.1 hlaw hG.1.2 hG.2⟩)
    (Pool.Guarded.and _ (Pool.Guarded.and _ halone hsame) hbelow)).1
  refine ⟨hplay.1.numbered e, hplay.2.steps e, ?_⟩
  exact (List.length_filter_le _ _).trans (hplay.2.calls e)

/-! ### One pass and an approval -/

/-- An agent whose messages wait for an approval, and whose runs have few passes. -/
def limited (passes : Rat) : Agent :=
  { watched (some 2) (some 3) with
    guardrailRules :=
      { (watched (some 2) (some 3)).guardrailRules with
        execution := { maxReActIterations := some passes } } }

/-- A model whose replies have the stamp. -/
def Answers.stamped (stamp : Option AIProviderRuntimeStamp) : Answers :=
  { Answers.smooth fun _ => 0 with
    chat := fun n => { (Answers.smooth fun _ => 0).chat n with aiProviderStamp := stamp } }

/-- Alice has the limited agent send a message and approves the call, up to the closeout. -/
def overPause (passes : Rat) (stamp : Option AIProviderRuntimeStamp) :
    Pool Stmt Stmt.Resp String Response World Bool :=
  serving { Config.small messaging with tools := [notifier] } (Answers.stamped stamp)
    (World.fresh [limited passes] [] []) approving
    (List.replicate 23 false ++ List.replicate 15 true)

/-- The closeout that a program is about to write. -/
def closeoutOf (p : Act Response) : Option (OutboxEvent × ExecutionPatch) :=
  match p.next? with
  | some (.transaction event (some patch)) => some (event, patch)
  | _ => none

/-- A program at its close. -/
lemma closeoutOf_eq_some {p : Act Response} {event : OutboxEvent} {patch : ExecutionPatch}
    (h : closeoutOf p = some (event, patch)) :
    ∃ k, p = .stmt (.transaction event (some patch)) k := by
  unfold closeoutOf at h
  cases hnext : p.next? with
  | none => rw [hnext] at h; cases h
  | some s =>
    rw [hnext] at h
    obtain ⟨k, hk⟩ := Prog.next?_eq_some hnext
    cases s with
    | transaction event' patch' =>
      cases patch' with
      | none => cases h
      | some patch' =>
        cases h
        exact ⟨k, hk⟩
    | _ => cases h

/-- No step that a statement has read has a stamp. -/
def unstamped : (s : Stmt) → s.Resp → Bool
  | .findSteps _, .ok rows => rows.all (·.aiProviderStamp = none)
  | _, _ => true

/-- The limits of the limited agent's executions. -/
def limitsOf (passes : Rat) (_ : Id) : Constraints :=
  communityConstraints (limited passes)

/-- The context that a statement builds. -/
def contextBuilt (w : World) : Stmt → Option (Id × Except String ExecutionContext)
  | .buildContext agent workspaceId executionId caller =>
    some (executionId, buildContext agent workspaceId executionId caller w.grants w.metadata)
  | _ => none

/-- The test of the limits that a context was built with. -/
lemma sameConstraints_iff {limits : Id → Constraints} {w : World} {s : Stmt} :
    ((contextBuilt w s).all fun built =>
      match built.2 with
      | .ok context => decide (context.constraints = limits built.1)
      | .error _ => true) = true ↔ SameConstraints limits w s := by
  cases s with
  | buildContext agent workspaceId executionId caller =>
    show (match buildContext agent workspaceId executionId caller w.grants w.metadata with
      | .ok context => decide (context.constraints = limits executionId)
      | .error _ => true) = true ↔ ∀ context, _ = Except.ok context → _
    cases buildContext agent workspaceId executionId caller w.grants w.metadata with
    | error msg => exact ⟨fun _ _ hok => (by cases hok), fun _ => rfl⟩
    | ok context =>
      rw [decide_eq_true_eq]
      exact ⟨fun hsame _ hok => Except.ok.inj hok ▸ hsame, fun hsame => hsame _ rfl⟩
  | _ => exact ⟨fun _ => trivial, fun _ => rfl⟩

/-- The execution of which a statement reads the steps. -/
def stepsRead : Stmt → Option Id
  | .findSteps executionId => some executionId
  | _ => none

/-- The test of the steps that were read. -/
lemma belowLimit_iff {limits : Id → Constraints} {w : World} {s : Stmt} :
    ((stepsRead s).all fun e =>
      decide ((w.stepsOf e).length < (limits e).maxReActIterations)) = true ↔
      BelowLimit limits w s := by
  cases s with
  | findSteps e => exact decide_eq_true_iff
  | _ => exact ⟨fun _ => trivial, fun _ => rfl⟩

instance (limits : Id → Constraints) (w : World) (s : Stmt) :
    Decidable (SameConstraints limits w s) :=
  decidable_of_iff _ sameConstraints_iff

instance (limits : Id → Constraints) (w : World) (s : Stmt) : Decidable (BelowLimit limits w s) :=
  decidable_of_iff _ belowLimit_iff

/-- Alice decides after her agent's run has paused: no step of the schedule breaks a condition. The
schedule is evaluated once for the three of them. -/
lemma two_passes_guarded :
    Pool.Guarded (exec (Answers.stamped none))
      (fun w H i s => Alone w (fun j => accountOf (H j)) i s ∧ SameConstraints (limitsOf 2) w s ∧
        BelowLimit (limitsOf 2) w s)
      (Pool.start (World.fresh [limited 2] [] []) fun i =>
        (approving i).serve { Config.small messaging with tools := [notifier] })
      (List.replicate 23 false ++ List.replicate 15 true) := by
  decide +kernel

/-- Two passes over a pause, up to the close. -/
lemma two_passes_run :
    ((closeoutOf ((overPause 2 none).thread true)).map
        (·.2.totalInputTokens.isSome)) = some true ∧
      ((overPause 2 none).seen true).all (fun o => unstamped o.1 o.2) = true ∧
      ranCalls (overPause 2 none).world 3 = [14] := by
  decide +kernel

/-- A step of a call with two inputs in the order of their column. -/
def keptStep : ReActStepData where
  iteration := 0
  thought := { reasoning := "", plan := "", confidence := 1 }
  action :=
    { type := .toolCall
      toolName := some (.str "message.send")
      toolInput := some (.obj [("to", .str "bob"), ("text", .str "hello")])
      generatePrompt := some .null }
  observation := Observation.ofText true "sent" none
  tokensUsed := { input := 1, output := 1 }
  model := "m"

/-- The step of the call comes back as it was, and without stamps the resumed run writes what all
steps come to. -/
theorem unstamped_metering_kept :
    ReadAlike ((persisted errand keptStep).loaded Json.render).rebuilt keptStep ∧
    ∃ event patch, closeoutOf ((overPause 2 none).thread true) = some (event, patch) ∧
      Metered (overPause 2 none).world event.aggregateId patch ∧
      Summarized (overPause 2 none).world event.aggregateId patch := by
  obtain ⟨hclose, hread, _⟩ := two_passes_run
  have halone : OneRunAtATime { Config.small messaging with tools := [notifier] }
      (Answers.stamped none) (World.fresh [limited 2] [] []) approving
      (List.replicate 23 false ++ List.replicate 15 true) :=
    two_passes_guarded.imp _ fun _ _ _ _ h => h.1
  obtain ⟨⟨event, patch⟩, hsome, hmetered⟩ := Option.map_eq_some_iff.1 hclose
  obtain ⟨k, hk⟩ := closeoutOf_eq_some hsome
  have hplay : serving { Config.small messaging with tools := [notifier] } (Answers.stamped none)
      (World.fresh [limited 2] [] []) approving
      (List.replicate 23 false ++ List.replicate 15 true) = overPause 2 none := rfl
  obtain ⟨hsteps, hruns⟩ := metering_over_pauses
    { Config.small messaging with tools := [notifier] } (Answers.stamped none) [limited 2] [] []
    approving (List.replicate 23 false ++ List.replicate 15 true) halone
  have htheorem := hruns true event patch k
  rw [hplay] at htheorem
  obtain ⟨htotals, hsummary⟩ := htheorem hk hmetered
  have hkept : Survives keptStep :=
    { stamp := rfl
      termination := rfl
      toolName := .inr ⟨_, rfl⟩
      generatePrompt := .inl rfl
      toolInput := ⟨_, rfl, by decide +kernel, trivial, trivial, trivial⟩
      output := ⟨_, rfl, trivial⟩ }
  refine ⟨(hsteps errand keptStep).2 hkept, event, patch, hsome, htotals,
    hsummary fun e rows hin row hrow => ?_⟩
  have hall := List.all_eq_true.1 hread _ hin
  simpa using List.all_eq_true.1 hall row hrow

/-- The step that paused has a stamp, which the resumed run does not read back: it closes the
execution with no summary although a model was called. -/
theorem stamped_summary_lost :
    ∃ event patch, closeoutOf ((overPause 1 (some { modelId := some "m" })).thread true) =
        some (event, patch) ∧
      patch.aiProviderSummary = some none ∧
      ¬ Summarized (overPause 1 (some { modelId := some "m" })).world event.aggregateId patch := by
  have hrun : ((closeoutOf ((overPause 1 (some { modelId := some "m" })).thread true)).map
      fun close => (close.1.aggregateId, close.2.aiProviderSummary)) = some (3, some none) ∧
      (summarize (((overPause 1 (some { modelId := some "m" })).world.stepsOf 3).filterMap
        (·.aiProviderStamp))).isSome = true := by decide +kernel
  obtain ⟨hclose, hstored⟩ := hrun
  obtain ⟨⟨event, patch⟩, hsome, hpair⟩ := Option.map_eq_some_iff.1 hclose
  obtain ⟨hid, hsummary⟩ := Prod.mk.inj hpair
  refine ⟨event, patch, hsome, hsummary, fun h => ?_⟩
  unfold Summarized at h
  rw [show event.aggregateId = 3 from hid, show patch.aiProviderSummary = some none from hsummary]
    at h
  rw [← Option.some.inj h] at hstored
  cases hstored

/-- With two passes the approved step is the second one. -/
theorem two_passes_kept :
    (((overPause 2 none).world.stepsOf 3).map (·.stepIndex) =
        List.range ((overPause 2 none).world.stepsOf 3).length ∧
      ((overPause 2 none).world.stepsOf 3).length ≤ (limitsOf 2 3).maxReActIterations ∧
      (ranCalls (overPause 2 none).world 3).length ≤ (limitsOf 2 3).maxToolCalls) ∧
    ranCalls (overPause 2 none).world 3 = [14] := by
  obtain ⟨_, _, hran⟩ := two_passes_run
  have hkept := limits_over_pauses { Config.small messaging with tools := [notifier] }
    (Answers.stamped none) [limited 2] [] [] (limitsOf 2) approving
    (List.replicate 23 false ++ List.replicate 15 true)
    (two_passes_guarded.imp _ fun _ _ _ _ h => h.1)
    (two_passes_guarded.imp _ fun _ _ _ _ h => h.2.1)
    (two_passes_guarded.imp _ fun _ _ _ _ h => h.2.2) 3
  exact ⟨hkept, hran⟩

/-- With one pass the approved step is one too many, under the same constraints before and after
the pause. -/
theorem one_pass_exceeded :
    Pool.Guarded (exec (Answers.stamped none)) (fun w _ _ s => SameConstraints (limitsOf 1) w s)
      (Pool.start (World.fresh [limited 1] [] []) fun i =>
        (approving i).serve { Config.small messaging with tools := [notifier] })
      (List.replicate 23 false ++ List.replicate 15 true) ∧
    ((overPause 1 none).world.stepsOf 3).map (·.stepIndex) = [0, 1] ∧
    (limitsOf 1 3).maxReActIterations = 1 := by
  refine ⟨?_, ?_, ?_⟩
  · decide +kernel
  · decide +kernel
  · decide +kernel

end NexusClaw.Community
