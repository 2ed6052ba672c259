import NexusClaw.Governance.Entries

/-!
# The steps of a loop

What `runLoop` leaves behind for its execution: the steps it persists, how often it asks the model,
and the messages it holds. `iterate_iterated` says what one iteration can do, `loopFrom_looped` what
a loop can: the steps continue the numbering where the loop started, and the model is asked once for
each of them, and once more if the loop ends without a step.
-/

namespace NexusClaw.Governance
open Concurrent

def Effect.isChat : Effect → Bool
  | .chat _ => true
  | _ => false

/-- How often a model was asked. -/
def World.chats (w : World) : Nat :=
  w.trace.countP Effect.isChat

/-- The persisted steps of an execution in the order of their creation. -/
def World.stepsOf (w : World) (e : Id) : List ReactStep :=
  w.steps.filter (·.executionId = e)

/-- From `w` to `w'` the steps `rows` of the execution were persisted and the model was asked
`chats` times. -/
structure Recorded (e : Id) (w w' : World) (rows : List ReactStep) (chats : Nat) : Prop where
  steps : w'.stepsOf e = w.stepsOf e ++ rows
  chats : w'.chats = w.chats + chats

section recorded
variable {e : Id} {a b c : World} {rows rows' : List ReactStep} {n n' : Nat}

/-- Nothing records nothing. -/
lemma Recorded.refl (e : Id) (w : World) : Recorded e w w [] 0 :=
  ⟨(List.append_nil _).symm, rfl⟩

/-- What two parts record. -/
lemma Recorded.trans (h : Recorded e a b rows n) (h' : Recorded e b c rows' n') :
    Recorded e a c (rows ++ rows') (n + n') where
  steps := by rw [h'.steps, h.steps, List.append_assoc]
  chats := by rw [h'.chats, h.chats, Nat.add_assoc]

/-- A statement that persists no step, asks no model and touches no execution. -/
def Stmt.silent : Stmt → Prop
  | .createExecution _ => False
  | .updateExecution _ _ => False
  | .createStep _ => False
  | .chat _ => False
  | _ => True

/-- Nothing was persisted or asked, and the executions are as they were. -/
def Silent (e : Id) (w w' : World) : Prop :=
  Recorded e w w' [] 0 ∧ w'.executions = w.executions

/-- Two silent parts. -/
lemma Silent.trans (h : Silent e a b) (h' : Silent e b c) : Silent e a c :=
  ⟨h.1.trans h'.1, h'.2.trans h.2⟩

/-- A silent statement records no step. -/
lemma exec_silent (ans : Answers) {s : Stmt} (hs : s.silent) (w : World) :
    Silent e w (exec ans s w).1 := by
  have hchats : ∀ effect : Effect, effect.isChat = false → ∀ w' : World,
      w'.trace = w.trace ++ [effect] → w'.steps = w.steps → w'.executions = w.executions →
      Silent e w w' := by
    intro effect heffect w' ht hsteps hexec
    refine ⟨⟨?_, ?_⟩, hexec⟩
    · rw [World.stepsOf, World.stepsOf, hsteps, List.append_nil]
    · rw [World.chats, World.chats, ht, List.countP_append, List.countP_singleton, heffect]
      rfl
  have hstay : ∀ w' : World, w'.trace = w.trace → w'.steps = w.steps →
      w'.executions = w.executions → Silent e w w' := by
    intro w' ht hsteps hexec
    refine ⟨⟨?_, ?_⟩, hexec⟩
    · rw [World.stepsOf, World.stepsOf, hsteps, List.append_nil]
    · rw [World.chats, World.chats, ht]
      rfl
  cases s with
  | createExecution row => exact absurd hs id
  | updateExecution key patch => exact absurd hs id
  | createStep row => exact absurd hs id
  | chat messages => exact absurd hs id
  | runTool origin name input => exact hchats (.toolBody origin name input) rfl _ rfl rfl rfl
  | callTool approvalId tool args =>
    exact hchats (.upstreamCall approvalId tool args) rfl _ rfl rfl rfl
  | _ => exact hstay _ rfl rfl rfl

/-- Nor does a program of silent statements. -/
lemma run_silent (ans : Answers) {α : Type} {p : Act α} (hp : p.Uses Stmt.silent) (w : World) :
    Silent e w (p.run (exec ans) w).2 :=
  hp.run_rel (T := Silent e) (fun w => ⟨.refl e w, rfl⟩) (fun _ _ _ h h' => h.trans h')
    (fun _ w hs => exec_silent ans hs w) w

/-- A question to the model is counted. -/
lemma exec_chat (ans : Answers) (messages : List ChatMessage) (w : World) :
    Recorded e w (exec ans (.chat messages) w).1 [] 1 where
  steps := (List.append_nil _).symm
  chats := by simp [World.chats, exec, Effect.isChat]

/-- A created step is recorded. -/
lemma exec_createStep (ans : Answers) (row : ReactStep) (hrow : row.executionId = e) (w : World) :
    Recorded e w (exec ans (.createStep row) w).1 [{ row with id := w.clock }] 0 where
  steps := by simp [World.stepsOf, exec, hrow]
  chats := rfl

end recorded

/-- A tool that runs records no step. -/
lemma executeApprovedTool_silent (cfg : Config) (origin : Origin) (context : LoopContext)
    (name : String) (toolInput : Json) :
    (executeApprovedTool cfg origin context name toolInput).Uses Stmt.silent := by
  refine Prog.Uses.call_bind trivial fun call => ?_
  refine Prog.Uses.bind ?_ fun result => ?_
  · unfold registryExecute
    refine Prog.uses_ite.mpr ⟨fun _ => trivial, fun _ => ?_⟩
    refine Prog.uses_ite.mpr ⟨fun _ => trivial, fun _ => ?_⟩
    refine Prog.Uses.call_bind trivial fun r => ?_
    cases r with
    | error e => trivial
    | ok result => trivial
  · exact Prog.Uses.bind (uses_finalize fun _ => trivial) fun _ => trivial

/-- Nor does the tool of a resumed call. -/
lemma executeResumedTool_silent (cfg : Config) (origin : Origin) (context : LoopContext)
    (toolInput : Json) (toolName : Option Json) :
    (executeResumedTool cfg origin context toolInput toolName).Uses Stmt.silent := by
  have hunnamed : ∀ name, (executeUnnamedTool cfg context name).Uses Stmt.silent := fun name =>
    Prog.Uses.call_bind trivial fun call =>
      Prog.Uses.bind (uses_finalize fun _ => trivial) fun _ => trivial
  cases toolName with
  | none => trivial
  | some name =>
    cases name with
    | null => trivial
    | str name => exact executeApprovedTool_silent ..
    | _ => exact hunnamed _

/-! ## One iteration -/

/-- The messages that an iteration adds for the step it persisted. -/
inductive Block (cfg : Config) (row : ReactStep) : List ChatMessage → Prop where
  | blocked (assistant : ChatMessage) (error : String)
      (output : row.observationOutput = .obj [("value", .null)]) :
      Block cfg row [assistant, observationMessage cfg (some .null) (some error)]
  | executed (assistant first second : ChatMessage) : Block cfg row [assistant, first, second]

/-- What an iteration can do, or the rest of one in which the model is asked `n` times. -/
inductive Iterated (cfg : Config) (context : LoopContext) (i n : Nat) (w w' : World) :
    Except String (Option ExecutionStatus × LoopContext) → Prop where
  | threw {error : String} (recorded : Recorded context.execution.id w w' [] n)
      (kept : w'.executions = w.executions) : Iterated cfg context i n w w' (.error error)
  | failed (recorded : Recorded context.execution.id w w' [] n)
      (kept : w'.executions = w.executions) :
      Iterated cfg context i n w w' (.ok (some .failed, context))
  | finished {context' : LoopContext} {row : ReactStep} (index : row.stepIndex = i)
      (recorded : Recorded context.execution.id w w' [row] n)
      (kept : w'.executions = w.executions) :
      Iterated cfg context i n w w' (.ok (some .done, context'))
  | paused {context' : LoopContext} (recorded : Recorded context.execution.id w w' [] n)
      (waits : w'.executions = w.executions.modify context.execution.id
        (·.patch { status := some .guardrailPending }))
      (messages : context'.messages = context.messages) :
      Iterated cfg context i n w w' (.ok (some .guardrailPending, context'))
  | stepped {context' : LoopContext} {row : ReactStep} {block : List ChatMessage}
      (index : row.stepIndex = i) (adds : Block cfg row block)
      (recorded : Recorded context.execution.id w w' [row] n) (kept : w'.executions = w.executions)
      (messages : context'.messages = context.messages ++ block)
      (stays : context.Stays context') : Iterated cfg context i n w w' (.ok (none, context'))

section iteration
variable {cfg : Config} {ans : Answers} {context : LoopContext} {i n : Nat} {w w₁ w' : World}

/-- The rest of an iteration after what persisted nothing is an iteration. -/
lemma Iterated.after {k m : Nat} {r : Except String (Option ExecutionStatus × LoopContext)}
    (hw : Recorded context.execution.id w w₁ [] m) (hk : w₁.executions = w.executions)
    (h : Iterated cfg context i n w₁ w' r) (hn : m + n = k) :
    Iterated cfg context i k w w' r := by
  subst hn
  cases h with
  | threw recorded kept => exact .threw (hw.trans recorded) (kept.trans hk)
  | failed recorded kept => exact .failed (hw.trans recorded) (kept.trans hk)
  | finished index recorded kept => exact .finished index (hw.trans recorded) (kept.trans hk)
  | paused recorded waits messages => exact .paused (hw.trans recorded) (by rw [waits, hk]) messages
  | stepped index adds recorded kept messages stays =>
    exact .stepped index adds (hw.trans recorded) (kept.trans hk) messages stays

/-- What a pause records. -/
lemma pauseLoop_iterated (ans : Answers)
    (hstatus : context.execution.status = .pending ∨ context.execution.status = .running)
    (name : String) (toolInput : Json) (evaluation : GuardrailEvaluation) (w : World) :
    ∃ context' w', (pauseLoop cfg context name toolInput evaluation).run (exec ans) w =
        (.ok (.paused, context'), w') ∧
      Iterated cfg context i 0 w w' (.ok (some .guardrailPending, context')) := by
  have htransition : handleStateTransition context.execution.status .guardrailPending =
      .ok .guardrailPending := by
    obtain h | h := hstatus
    · rw [h]
      rfl
    · rw [h]
      rfl
  simp only [pauseLoop, createAgentApproval, htransition, Act.ofExcept_ok, Prog.call_bind,
    Prog.stmt_bind, Prog.ret_bind, Prog.pure_eq, Prog.run_stmt, Prog.run_ret]
  exact ⟨_, _, rfl, .paused ⟨(List.append_nil _).symm, rfl⟩ rfl rfl⟩

/-- A step that is persisted always ends with the context that counts it. -/
lemma persistStep_run (cfg : Config) (ans : Answers) (origin : Origin) (context : LoopContext)
    (i : Nat) (thought : Option Json) (actionType : ActionType) (action : Json)
    (observation : Observation) (w : World) :
    ∃ row w', (persistStep cfg origin context i thought actionType action observation).run
          (exec ans) w =
        (.ok { context with
            stepCount := context.stepCount + 1
            messages := context.messages ++
              [assistantMessage cfg thought action,
                observationMessage cfg observation.output observation.error] }, w') ∧
      row.stepIndex = i ∧ row.thoughtReasoning = thought.bind (·.get? "reasoning") ∧
      row.observationOutput = observation.column ∧
      Recorded context.execution.id w w' [row] 0 ∧ w'.executions = w.executions := by
  let row : ReactStep :=
    { executionId := context.execution.id
      stepIndex := i
      thoughtReasoning := thought.bind (·.get? "reasoning")
      thoughtPlan := thought.bind (·.get? "plan")
      thoughtConfidence := thought.bind (·.get? "confidence")
      actionType
      toolName := action.get? "toolName"
      toolInput := action.get? "toolInput"
      generatePrompt := action.get? "generatePrompt"
      observationSuccess := observation.success
      observationOutput := observation.column
      observationError := observation.error
      guardrailTriggered := observation.guardrailTriggered
      origin }
  exact ⟨{ row with id := w.clock }, (exec ans (.createStep row) w).1, rfl, rfl, rfl, rfl,
    exec_createStep ans row rfl w, rfl⟩

/-- What a tool call of an iteration records. -/
lemma performToolCall_iterated (ans : Answers) (thought : Option Json)
    (action toolName toolInput : Json)
    (hstatus : context.execution.status = .pending ∨ context.execution.status = .running)
    (w : World) :
    Iterated cfg context i 0 w
      ((performToolCall cfg context i thought action toolName toolInput).run (exec ans) w).2
      ((performToolCall cfg context i thought action toolName toolInput).run (exec ans) w).1 := by
  unfold performToolCall
  have hgated := gateToolCall_gated cfg context toolName toolInput
  generalize gateToolCall cfg context toolName toolInput = gated at hgated
  -- one case for each way through the gate
  cases hgated with
  | @blocked error judged =>
    obtain ⟨row, w', hrun, hindex, -, houtput, hrecorded, hkept⟩ := persistStep_run cfg ans .loop
      context i thought .toolCall action
      { success := false, output := some .null, error := some error, guardrailTriggered := true } w
    rw [Prog.ret_bind]
    dsimp only
    rw [Prog.run_bind_ok _ hrun]
    exact .stepped hindex (.blocked _ error houtput) hrecorded hkept rfl ⟨rfl, rfl⟩
  | threw judged => exact .threw (.refl _ w) rfl
  | @allowed name evaluation hname judged passes =>
    have hsilent := run_silent (e := context.execution.id) ans
      (executeApprovedTool_silent cfg .loop context name toolInput) w
    rw [Prog.ret_bind]
    dsimp only
    rcases hexecute : (executeApprovedTool cfg .loop context name toolInput).run (exec ans) w
      with ⟨r, w₁⟩
    rw [hexecute] at hsilent
    cases r with
    | error e =>
      rw [Prog.run_bind_error _ hexecute]
      exact .threw hsilent.1 hsilent.2
    | ok result =>
      rw [Prog.run_bind_ok _ hexecute]
      obtain ⟨row, w', hrun, hindex, -, -, hrecorded, hkept⟩ := persistStep_run cfg ans .loop
        context i thought .toolCall action result.observation w₁
      rw [Prog.run_bind_ok _ hrun]
      refine .after (n := 0) hsilent.1 hsilent.2 ?_ rfl
      exact .stepped hindex (.executed (assistantMessage cfg thought action)
          (observationMessage cfg result.output.value? result.error)
          (observationMessage cfg result.output.value? result.error)) hrecorded hkept
        (List.append_assoc ..) ⟨rfl, rfl⟩
  | @paused name evaluation hname judged stopped unblocked =>
    obtain ⟨context', w', hrun, hpaused⟩ :=
      pauseLoop_iterated ans hstatus name toolInput evaluation w
    rw [Prog.run_bind_ok _ hrun]
    exact hpaused

/-- What an action of an iteration records. -/
lemma perform_iterated (ans : Answers) (thought action : Option Json)
    (hstatus : context.execution.status = .pending ∨ context.execution.status = .running)
    (w : World) :
    Iterated cfg context i 0 w ((perform cfg context i thought action).run (exec ans) w).2
      ((perform cfg context i thought action).run (exec ans) w).1 := by
  unfold perform
  split
  · exact .threw (.refl _ w) rfl
  · exact .threw (.refl _ w) rfl
  · next action _ =>
    split
    · obtain ⟨row, w', hrun, hindex, -, -, hrecorded, hkept⟩ := persistStep_run cfg ans .loop
        context i thought .finish action
        { success := true
          output := some (.obj [("text", Json.nullish (action.get? "generatePrompt") (.str ""))])
          error := none
          guardrailTriggered := false } w
      rw [Prog.run_bind_ok _ hrun]
      exact .finished hindex hrecorded hkept
    · exact performToolCall_iterated ans thought action _ _ hstatus w
    · exact .failed (.refl _ w) rfl

/-- What a reply records. -/
lemma respond_iterated (ans : Answers) (response : Except String String)
    (hstatus : context.execution.status = .pending ∨ context.execution.status = .running)
    (w : World) :
    Iterated cfg context i 0 w ((respond cfg context i response).run (exec ans) w).2
      ((respond cfg context i response).run (exec ans) w).1 := by
  cases response with
  | error e => exact .threw (.refl _ w) rfl
  | ok content =>
    unfold respond
    dsimp only
    cases parseResponse cfg content with
    | none => exact .failed (.refl _ w) rfl
    | some parsed => exact perform_iterated ans parsed.1 parsed.2 hstatus w

/-- One iteration asks the model once. -/
lemma iterate_iterated (ans : Answers)
    (hstatus : context.execution.status = .pending ∨ context.execution.status = .running)
    (w : World) :
    Iterated cfg context i 1 w ((iterate cfg context i).run (exec ans) w).2
      ((iterate cfg context i).run (exec ans) w).1 :=
  .after (exec_chat ans context.messages w) rfl
    (respond_iterated ans (ans.chat w.clock) hstatus (exec ans (.chat context.messages) w).1) rfl

end iteration

/-! ## The loop -/

/-- How a loop ended: it paused and holds a context, or the executions are as they were. -/
inductive Ending (cfg : Config) (context : LoopContext) (w w' : World) (rows : List ReactStep)
    (chats : Nat) : Except String (ExecutionStatus × LoopContext) → Prop where
  | paused {live : LoopContext} {blocks : List (List ChatMessage)}
      (asked : chats = rows.length + 1)
      (waits : w'.executions = w.executions.modify context.execution.id
        (·.patch { status := some .guardrailPending }))
      (adds : List.Forall₂ (Block cfg) rows blocks)
      (messages : live.messages = context.messages ++ blocks.flatten) :
      Ending cfg context w w' rows chats (.ok (.guardrailPending, live))
  | ended {r : Except String (ExecutionStatus × LoopContext)}
      (ends : ∀ live, r ≠ .ok (.guardrailPending, live)) (kept : w'.executions = w.executions) :
      Ending cfg context w w' rows chats r

/-- From `w` to `w'` a loop started at iteration `i` with `remaining` iterations left. -/
structure Looped (cfg : Config) (context : LoopContext) (i remaining : Nat) (w w' : World)
    (r : Except String (ExecutionStatus × LoopContext)) (rows : List ReactStep) (chats : Nat) :
    Prop where
  recorded : Recorded context.execution.id w w' rows chats
  indices : rows.map (·.stepIndex) = List.range' i rows.length
  rows_le : rows.length ≤ chats
  chats_le : chats ≤ remaining
  ending : Ending cfg context w w' rows chats r

section loop
variable {cfg : Config}

/-- A loop after an iteration that went on. -/
lemma Looped.after_step {context context' : LoopContext} {i remaining : Nat} {w w₁ w' : World}
    {r : Except String (ExecutionStatus × LoopContext)} {row : ReactStep}
    {rows : List ReactStep} {chats : Nat} {block : List ChatMessage}
    (index : row.stepIndex = i) (adds : Block cfg row block)
    (recorded : Recorded context.execution.id w w₁ [row] 1) (kept : w₁.executions = w.executions)
    (messages : context'.messages = context.messages ++ block) (stays : context.Stays context')
    (h : Looped cfg context' (i + 1) remaining w₁ w' r rows chats) :
    Looped cfg context i (remaining + 1) w w' r (row :: rows) (1 + chats) := by
  have hid : context'.execution.id = context.execution.id := congrArg _ stays.1
  have hrest := h.recorded
  rw [hid] at hrest
  refine ⟨recorded.trans hrest, ?_, ?_, ?_, ?_⟩
  · rw [List.map_cons, h.indices, index, List.length_cons, List.range'_succ]
  · have hle := h.rows_le
    rw [List.length_cons]
    omega
  · have hle := h.chats_le
    omega
  · cases h.ending with
    | @paused live blocks asked waits adds' messages' =>
      refine .paused (by rw [asked, List.length_cons]; omega) ?_ (.cons adds adds') ?_
      · rw [waits, hid, kept]
      · rw [messages', messages, List.flatten_cons, List.append_assoc]
    | ended ends kept' => exact .ended ends (kept'.trans kept)

/-- What the loop records, by induction on the iterations that remain. -/
lemma loopFrom_looped (ans : Answers) (remaining i : Nat) (context : LoopContext)
    (hstatus : context.execution.status = .pending ∨ context.execution.status = .running)
    (w : World) :
    ∃ rows chats, Looped cfg context i remaining w
      ((loopFrom cfg remaining i context).run (exec ans) w).2
      ((loopFrom cfg remaining i context).run (exec ans) w).1 rows chats := by
  -- induction on the iterations that remain
  induction remaining generalizing i context w with
  | zero =>
    refine ⟨[], 0, .refl _ w, rfl, Nat.le_refl 0, Nat.le_refl 0, .ended ?_ rfl⟩
    intro live h
    cases h
  | succ remaining ih =>
    have hone : Iterated cfg context i 1 w _ _ := iterate_iterated ans hstatus w
    unfold loopFrom
    rw [Prog.run_bind]
    rcases hiterate : (iterate cfg context i).run (exec ans) w with ⟨r, w₁⟩
    rw [hiterate] at hone
    cases hone with
    | threw recorded kept =>
      refine ⟨[], 1, recorded, rfl, Nat.zero_le 1, Nat.le_add_left 1 remaining, .ended ?_ kept⟩
      intro live h
      cases h
    | failed recorded kept =>
      refine ⟨[], 1, recorded, rfl, Nat.zero_le 1, Nat.le_add_left 1 remaining, .ended ?_ kept⟩
      intro live h
      cases h
    | finished index recorded kept =>
      refine ⟨[_], 1, recorded, congrArg (fun i => [i]) index, Nat.le_refl 1,
        Nat.le_add_left 1 remaining, .ended ?_ kept⟩
      intro live h
      cases h
    | paused recorded waits messages =>
      exact ⟨[], 1, recorded, rfl, Nat.zero_le 1, Nat.le_add_left 1 remaining,
        .paused rfl waits .nil (by rw [messages]; exact (List.append_nil _).symm)⟩
    | @stepped context' row block index adds recorded kept messages stays =>
      obtain ⟨rows, chats, hrest⟩ := ih (i + 1) context' (by rw [stays.1]; exact hstatus) w₁
      exact ⟨row :: rows, 1 + chats,
        .after_step index adds recorded kept messages stays hrest⟩

/-- What the whole loop records. -/
lemma runLoop_looped (cfg : Config) (ans : Answers) (context : LoopContext)
    (hstatus : context.execution.status = .pending ∨ context.execution.status = .running)
    (w : World) :
    ∃ rows chats, Looped cfg context context.stepCount (cfg.maxIterations - context.stepCount) w
      ((runLoop cfg context).run (exec ans) w).2 ((runLoop cfg context).run (exec ans) w).1
      rows chats :=
  loopFrom_looped ans _ _ context hstatus w

end loop

/-! ## Before the loop -/

/-- `run` up to the loop. -/
def beginRun (input : ExecutorInput) : Act LoopContext := do
  let execution ← createExecution input.row
  enqueue (runStarted input execution.id)
  pure (input.context execution)

/-- `run` after the loop. -/
def endRun (input : ExecutorInput) (executionId : Id) (finalStatus : ExecutionStatus)
    (stepCount : Nat) : Act AgentExecution := do
  updateExecution executionId { status := some finalStatus, completedAt := true }
  enqueue (runFinished input executionId finalStatus stepCount)
  findExecutionOrFail executionId

/-- A run begins, loops and ends. -/
lemma run_eq (cfg : Config) (input : ExecutorInput) :
    run cfg input = (beginRun input >>= fun context => runLoop cfg context >>= fun r =>
      endRun input context.execution.id r.1 r.2.stepCount) := rfl

/-- `resumePaused` up to the loop: the id of the row it found, and the context. -/
def beginResume (cfg : Config) (input : ResumeInput) : Act (Id × LoopContext) := do
  match input.pausedToolCall with
  | none => .throw "APPROVAL_LEGACY_RESUME_CONTEXT_MISSING"
  | some pausedToolCall =>
    let execution ← findExecutionOrFail input.executionId
    if execution.status ≠ .guardrailPending then .throw "EXECUTION_NOT_AWAITING_APPROVAL"
    else
      let validated ← Act.ofExcept (handleStateTransition execution.status .running)
      updateExecution execution.id { status := some validated }
      let persisted ← findSteps input.executionId
      let context ← resumeApproved cfg input.approvalInstanceId
        (resumeContext cfg input.workspaceId { execution with status := validated } persisted)
        pausedToolCall
      pure (execution.id, context)

/-- `resumePaused` after the loop. -/
def endResume (input : ResumeInput) (executionId : Id) (finalStatus : ExecutionStatus) :
    Act AgentExecution := do
  updateExecution executionId { status := some finalStatus, completedAt := true }
  findExecutionOrFail input.executionId

/-- So does a resumption. -/
lemma resumePaused_eq (cfg : Config) (input : ResumeInput) :
    resumePaused cfg input = (beginResume cfg input >>= fun begun => runLoop cfg begun.2 >>=
      fun r => endResume input begun.1 r.1) := by
  unfold resumePaused beginResume
  cases input.pausedToolCall with
  | none => rfl
  | some call =>
    simp only [findExecutionOrFail_bind, Prog.stmt_bind]
    congr 1
    funext r
    cases r with
    | none => rfl
    | some row =>
      dsimp only
      rw [Prog.ite_bind]
      congr 1
      cases handleStateTransition row.status .running with
      | error e => rfl
      | ok validated =>
        simp only [Act.ofExcept_ok, Prog.ret_bind, Prog.call_bind, Prog.stmt_bind, Prog.bind_assoc,
          Prog.pure_eq]
        rfl

/-- The steps as `resumePaused` reads them. -/
def World.persisted (w : World) (e : Id) : List ReactStep :=
  (w.stepsOf e).insertionSort fun a b => a.stepIndex ≤ b.stepIndex

/-- The thought of the step that a resume persists. -/
def approvedThought : Json :=
  .obj
    [("reasoning", .str "approved resume"),
      ("plan", .str "execute approved tool"),
      ("confidence", .num 1)]

section segments
variable {cfg : Config} (ans : Answers) {w : World}

/-- The begin of a run. -/
lemma beginRun_run (input : ExecutorInput) (hfresh : w.stepsOf w.clock = []) :
    ∃ w', (beginRun input).run (exec ans) w = (.ok (input.context (input.row.at w.clock)), w') ∧
      w'.stepsOf w.clock = [] ∧ w'.chats = w.chats ∧
      w'.executions = w.executions.put w.clock (input.row.at w.clock) :=
  ⟨_, rfl, hfresh, rfl, rfl⟩

/-- The end of a run. -/
lemma endRun_world (input : ExecutorInput) (e : Id) (status : ExecutionStatus) (n : Nat) :
    let w' := ((endRun input e status n).run (exec ans) w).2
    w'.stepsOf e = w.stepsOf e ∧ w'.chats = w.chats ∧
      w'.executions = w.executions.modify e
        (·.patch { status := some status, completedAt := true }) := by
  simp only [endRun, Prog.call_bind, Prog.run_stmt, findExecutionOrFail_run]
  exact ⟨rfl, rfl, rfl⟩

/-- The end of a resumption. -/
lemma endResume_world (input : ResumeInput) (e : Id) (status : ExecutionStatus) :
    let w' := ((endResume input e status).run (exec ans) w).2
    w'.stepsOf input.executionId = w.stepsOf input.executionId ∧ w'.chats = w.chats ∧
      w'.executions = w.executions.modify e
        (·.patch { status := some status, completedAt := true }) := by
  simp only [endResume, Prog.call_bind, Prog.run_stmt, findExecutionOrFail_run]
  exact ⟨rfl, rfl, rfl⟩

/-- What `resumePaused` can do before its loop. -/
inductive Resumed (cfg : Config) (input : ResumeInput) (w w' : World) :
    Except String (Id × LoopContext) → Prop where
  | refused {error : String} (same : w' = w) : Resumed cfg input w w' (.error error)
  | threw {row : AgentExecution} {error : String}
      (found : w.executions input.executionId = some row) (waits : row.status = .guardrailPending)
      (recorded : Recorded input.executionId w w' [] 0)
      (running : w'.executions = w.executions.modify row.id
        (·.patch { status := some .running })) : Resumed cfg input w w' (.error error)
  | begun {row : AgentExecution} {context : LoopContext} {step : ReactStep}
      {action : Json} {observation : ChatMessage}
      (found : w.executions input.executionId = some row) (waits : row.status = .guardrailPending)
      (recorded : Recorded row.id w w' [step] 0)
      (index : step.stepIndex = (w.persisted input.executionId).length)
      (reasoning : step.thoughtReasoning = some (.str "approved resume"))
      (running : w'.executions = w.executions.modify row.id
        (·.patch { status := some .running }))
      (execution : context.execution = { row with status := .running })
      (count : context.stepCount = (w.persisted input.executionId).length + 1)
      (messages : context.messages =
        (resumeContext cfg input.workspaceId row (w.persisted input.executionId)).messages ++
          [assistantMessage cfg (some approvedThought) action, observation]) :
      Resumed cfg input w w' (.ok (row.id, context))

/-- The approved call throws, or its step follows the persisted ones. -/
lemma resumeApproved_run (cfg : Config) (a : Id) (context : LoopContext) (call : PausedToolCall)
    (w : World) :
    (∃ error w', (resumeApproved cfg a context call).run (exec ans) w = (.error error, w') ∧
      Silent context.execution.id w w') ∨
    ∃ step context' w' action observation,
      (resumeApproved cfg a context call).run (exec ans) w = (.ok context', w') ∧
      step.stepIndex = context.stepCount ∧
      step.thoughtReasoning = some (.str "approved resume") ∧
      Recorded context.execution.id w w' [step] 0 ∧ w'.executions = w.executions ∧
      context' =
        { context with
          stepCount := context.stepCount + 1
          messages := context.messages ++
            [assistantMessage cfg (some approvedThought) action, observation] } := by
  let toolInput := Json.nullish call.toolInput .empty
  have hsilent := run_silent (e := context.execution.id) ans
    (executeResumedTool_silent cfg (.resume a) context toolInput call.toolName) w
  unfold resumeApproved
  dsimp only
  rcases hexecute : (executeResumedTool cfg (.resume a) context toolInput call.toolName).run
    (exec ans) w with ⟨r, w₁⟩
  rw [hexecute] at hsilent
  cases r with
  | error e => exact .inl ⟨e, w₁, Prog.run_bind_error _ hexecute, hsilent⟩
  | ok result =>
    obtain ⟨step, w', hrun, hindex, hreasoning, -, hrecorded, hkept⟩ := persistStep_run cfg ans
      (.resume a) context context.stepCount (some approvedThought) .toolCall
      (resumedAction call.toolName toolInput) result.observation w₁
    exact .inr ⟨step, _, w', _, _, (Prog.run_bind_ok _ hexecute).trans hrun, hindex, hreasoning,
      hsilent.1.trans hrecorded, hkept.trans hsilent.2, rfl⟩

/-- The begin of a resumption. -/
lemma beginResume_resumed (cfg : Config) (input : ResumeInput)
    (hkey : ∀ row, w.executions input.executionId = some row → row.id = input.executionId) :
    Resumed cfg input w ((beginResume cfg input).run (exec ans) w).2
      ((beginResume cfg input).run (exec ans) w).1 := by
  unfold beginResume
  -- the call, the execution and its status are checked before anything is recorded
  cases input.pausedToolCall with
  | none => exact .refused rfl
  | some call =>
    simp only [findExecutionOrFail_bind, Prog.run_stmt, exec]
    cases hrow : w.executions input.executionId with
    | none => exact .refused rfl
    | some row =>
      by_cases hp : row.status = .guardrailPending
      · have hvalid : handleStateTransition .guardrailPending .running = .ok .running := rfl
        simp only [hp, ne_eq, not_true_eq_false, if_false, hvalid, Act.ofExcept_ok, Prog.ret_bind]
        let w₁ := (exec ans (.updateExecution row.id { status := some .running }) w).1
        let context := resumeContext cfg input.workspaceId { row with status := .running }
          (w.persisted input.executionId)
        show Resumed cfg input w ((resumeApproved cfg input.approvalInstanceId context call >>=
            fun context => pure (row.id, context)).run (exec ans) w₁).2
          ((resumeApproved cfg input.approvalInstanceId context call >>=
            fun context => pure (row.id, context)).run (exec ans) w₁).1
        obtain ⟨error, w', hrun, hsilent⟩ | ⟨step, context', w', action, observation, hrun, hindex,
            hreasoning, hrecorded, hkept, rfl⟩ :=
          resumeApproved_run ans cfg input.approvalInstanceId context call w₁
        · rw [Prog.run_bind_error _ hrun]
          have hid : context.execution.id = input.executionId := hkey row hrow
          rw [hid] at hsilent
          exact .threw hrow hp ⟨hsilent.1.steps, hsilent.1.chats⟩ hsilent.2
        · rw [Prog.run_bind_ok _ hrun]
          exact .begun hrow hp ⟨hrecorded.steps, hrecorded.chats⟩ hindex hreasoning hkept rfl rfl
            rfl
      · simp only [ne_eq, hp, not_false_eq_true, if_true]
        exact .refused rfl

end segments

end NexusClaw.Governance
