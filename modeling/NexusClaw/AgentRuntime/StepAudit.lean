import NexusClaw.AgentRuntime.Passes
import NexusClaw.AgentRuntime.Retries

/-!
# What the steps tell of a tool

The observation of a tool call is built from the final result of `executeTool`, and rewritten where
the pass was the last one that the step limit allows. `Audit` follows a run of the loop and puts the
result of each successful call next to the step that was persisted for it.
-/

namespace NexusClaw.AgentRuntime
open Concurrent
open Governance (Id)

/-! ## The audit of a run -/

/-- `returned` is a success of a body whose record is not closed yet, `succeeded` the success of the
pass that no step records yet. `results` are the successes of `executeTool`, and `told` those with the
step persisted for them. -/
structure Audit where
  returned : Option ToolCallResult := none
  succeeded : Option ToolCallResult := none
  results : List ToolCallResult := []
  told : List (ReactStep × ToolCallResult) := []

/-- The record has taken a success, which is the result of the call. -/
def Audit.succeed (m : Audit) (result : ToolCallResult) : Audit :=
  { m with
    returned := none
    succeeded := some result
    results := m.results ++ [result] }

/-- A step is persisted. -/
def Audit.persist (m : Audit) (row : ReactStep) : Audit :=
  { m with
    succeeded := none
    told := m.told ++ m.succeeded.toList.map fun result => (row, result) }

def Audit.note (m : Audit) : (s : Stmt) → s.Resp → Audit
  | .runTool _ _ _ _, .ok (.ok result) =>
    { m with returned := if result.success then some result else none }
  | .transitionToolCall id expected patch, r =>
    match m.returned with
    | none => m
    | some result =>
      if patch.status = .succeeded ∧ updated ⟨.transitionToolCall id expected patch, r⟩ = true then
        m.succeed result
      else { m with returned := none }
  | .createStep row, .ok _ => m.persist row
  | _, _ => m

/-- The audit of a history. -/
def auditOf (h : History Stmt Stmt.Resp) : Audit :=
  bookkeeping Audit.note {} h

/-- The step tells the result of its tool. -/
def Tells (result : ToolCallResult) (success : Bool) (output : Governance.JsOutput) : Prop :=
  success = true ∧ output = result.output

/-- The pass `i` is not the last that the step limit allows, and the result asks for no approval. -/
def Kept (context : ExecutionContext) (i : Nat) (result : ToolCallResult) : Prop :=
  i + 1 < context.constraints.maxReActIterations ∧ result.guardrailCheck ≠ .escalated

/-- What the step of a successful call says. -/
structure StepOf (context : ExecutionContext) (row : ReactStep) (result : ToolCallResult) :
    Prop where
  tells : Kept context row.stepIndex result →
    Tells result row.observationSuccess row.observationOutput
  hides : ¬ Kept context row.stepIndex result → row.observationSuccess = false

/-- The step of a pass with a success is a step of that success. -/
def Audit.Law (context : ExecutionContext) (m : Audit) : Stmt → Prop
  | .createStep row => ∀ result, m.succeeded = some result → StepOf context row result
  | _ => True

/-- Nothing is under way in the pass. -/
structure Audit.Idle (m : Audit) : Prop where
  returned : m.returned = none
  succeeded : m.succeeded = none

section calls
variable {context : ExecutionContext} {m : Audit}

/-- Nothing is awaited after a result is dropped. -/
lemma Audit.Idle.drop (h : m.Idle) : { m with returned := none } = m := by
  have hreturned := h.returned
  cases m
  cases hreturned
  rfl

/-- A statement of the registry notes nothing. -/
lemma Audit.Idle.registry (h : m.Idle) {s : Stmt} (hs : s.OfRegistry) (r : s.Resp) :
    m.note s r = m := by
  cases s <;> first | exact hs.elim | rfl | skip
  simp only [Audit.note, h.returned]

/-- The statements around a body leave an idle audit as it is. -/
lemma audit_frame (h : m.Idle) :
    RegistryFrame Audit.note (Audit.Law context) (fun m' => m' = m) where
  lawful _ s hs _ := by cases s <;> first | exact hs.elim | exact trivial
  keeps _ _ r hs hm := by
    rw [hm]
    exact h.registry hs r

/-- What a call of the registry ends with: nothing is noted and the call is refused, or its success
is. -/
def CallPost (m : Audit) (m' : Audit) (r : Except String ToolCallResult) : Prop :=
  m' = m ∧ Refused r ∨
    ∃ result, r = .ok result ∧ result.success = true ∧ m' = m.succeed result

variable {invocation : Invocation} {tool : AgentTool} {input : Json} {run : ExecutionContext}

/-- What the body threw is recorded as a refusal. -/
lemma executionThrew_refused (h : m.Idle) (call : ToolCallRecord) (error : String) :
    Tracked Audit.note (Audit.Law context) (CallPost m) m (executionThrew call error) :=
  ((audit_frame h).refusal (executionThrew_uses ..) (ends_last _ fun _ => rfl) rfl).post
    fun _ _ h => .inl h

/-- A success whose output has no record is dropped with the update that stores FAILED. -/
lemma executionThrew_torn (h : m.Idle) (result : ToolCallResult) (call : ToolCallRecord)
    (error : String) :
    Tracked Audit.note (Audit.Law context) (CallPost m) { m with returned := some result }
      (executionThrew call error) := by
  have hdropped : ∀ r, Audit.note { m with returned := some result }
      (.transitionToolCall call.id [.started, .running]
        { status := .failed
          permissionCheck := some .passed
          guardrailCheck := some .passed
          errorCode := some "TOOL_EXECUTION_THROWN" }) r = m := by
    intro r
    exact h.drop
  refine ⟨trivial, fun r => ?_⟩
  rw [hdropped r]
  cases r with
  | error e => exact .inl ⟨rfl, trivial⟩
  | ok affected =>
    show Tracked _ _ _ m (Prog.bind (if affected = 1 then .ret () else .throw _) _)
    split_ifs with hone
    · exact .inl ⟨rfl, rfl⟩
    · exact .inl ⟨rfl, trivial⟩

/-- The update that stores SUCCEEDED makes the success the result, or it throws into the `catch`. -/
lemma finalize_audit (h : m.Idle) {result : ToolCallResult} (hsuccess : result.success = true)
    (call : ToolCallRecord) {expected : List Governance.ToolCallStatus} {patch : ToolCallPatch}
    (hpatch : patch.status = .succeeded) :
    Tracked Audit.note (Audit.Law context) (CallPost m) { m with returned := some result }
      ((transition call.id expected patch).attempt >>= fun finalized =>
        match finalized with
        | .error e => executionThrew call e
        | .ok _ => .ret result) := by
  -- the update notes the result as succeeded, or fails and the result is dropped
  have htransition : Tracked Audit.note (Audit.Law context)
      (Upon (fun m' _ => m' = m.succeed result) fun m' => m' = m) { m with returned := some result }
      (transition call.id expected patch) := by
    refine tracked_await_bind.2 ⟨trivial, fun affected => tracked_ite.2
      ⟨fun hone => ?_, fun hother => ?_⟩, fun e => ?_⟩
    · show Audit.note _ _ _ = m.succeed result
      simp only [Audit.note, updated, hone, hpatch, decide_true, and_self, if_true]
      rfl
    · show Audit.note _ _ _ = m
      simp only [Audit.note, updated, hother, decide_false, Bool.false_eq_true, and_false, if_false]
      exact h.drop
    · show Audit.note _ _ _ = m
      simp only [Audit.note, updated, Bool.false_eq_true, and_false, if_false]
      exact h.drop
  refine tracked_attempt_bind htransition fun m' r hm => ?_
  cases r with
  | error e =>
    cases hm
    exact executionThrew_refused h call e
  | ok u => exact .inr ⟨result, rfl, hsuccess, hm⟩

/-- The audit of a body. -/
lemma runStaticTool_audit (h : m.Idle) (call : ToolCallRecord) :
    Tracked Audit.note (Audit.Law context) (CallPost m) m
      (runStaticTool invocation tool input run call) := by
  refine ((audit_frame h).stretch (transition_uses ..) rfl).bind (fun m' _ hm => ?_)
    fun _ _ hm => .inl ⟨hm, trivial⟩
  cases hm
  refine tracked_await_bind.2 ⟨trivial, fun result => ?_, fun e => .inl ⟨rfl, trivial⟩⟩
  cases result with
  | error e => exact executionThrew_refused h call e
  | ok result =>
    obtain ⟨success, output, error, permissionCheck, guardrailCheck, riskLevel, prepared⟩ := result
    -- a failed result is never told; a success is told once its update went through
    cases success with
    | false =>
      show Tracked _ _ _ { m with returned := none } _
      rw [h.drop]
      refine ((audit_frame h).stretch (finalizeCall_uses ..).attempt rfl).bind
        (fun m' finalized hm => ?_) fun _ _ hm => .inl ⟨hm, trivial⟩
      cases hm
      cases finalized with
      | error e => exact executionThrew_refused h call e
      | ok _ => exact .inl ⟨rfl, rfl⟩
    | true =>
      dsimp only
      by_cases hpreview : hasPreview output = true
      · rw [finalizeCall_preview hpreview]
        exact finalize_audit h rfl call rfl
      · rw [finalizeCall_refused hpreview]
        exact executionThrew_torn h _ call _

variable {cfg : Config} {toolName : String}

/-- The audit of a call. -/
lemma executeTool_audit (h : m.Idle) :
    Tracked Audit.note (Audit.Law context) (CallPost m) m
      (executeTool cfg invocation toolName input run) := by
  refine (audit_frame h).executeTool (fun m' r hm hr => .inl ⟨hm, hr⟩) (fun m' tool call hm _ => ?_)
    rfl
  cases hm
  exact runStaticTool_audit h call

/-- What a call of the registry comes to. -/
def outcomeOf : Except String ToolCallResult → ToolCallResult
  | .ok result => result
  | .error e => thrownResult e

/-- The final result of a call: a success is the one that is noted, and nothing else is noted. -/
def RetryPost (m m' : Audit) (executed : RetriedResult) : Prop :=
  m' = m ∧ executed.result.success = false ∨
    executed.result.success = true ∧ m' = m.succeed executed.result

/-- The audit of a call with its retries, by induction on them. -/
lemma retryTool_audit (h : m.Idle) (retries retryCount : Nat) :
    Tracked Audit.note (Audit.Law context) (Upon (RetryPost m) fun _ => False) m
      (retryTool cfg invocation toolName input run retries retryCount) := by
  have hresult : ∀ m' r, CallPost m m' r → ∀ (retryCount : Nat) (errorClass : ErrorClass),
      RetryPost m m'
        { result := outcomeOf r, retryCount, errorClass } := by
    intro m' r hr retryCount errorClass
    rcases hr with ⟨hm, hrefused⟩ | ⟨result, rfl, hsuccess, hm⟩
    · cases r with
      | ok result => exact .inl ⟨hm, hrefused⟩
      | error e => exact .inl ⟨hm, rfl⟩
    · exact .inr ⟨hsuccess, hm⟩
  -- induction on the retries: another attempt starts only from where nothing succeeded
  induction retries generalizing retryCount with
  | zero =>
    refine tracked_attempt_bind (executeTool_audit h) fun m' r hr => ?_
    dsimp only
    exact tracked_ite.2 ⟨fun _ => hresult m' r hr _ _, fun _ => hresult m' r hr _ _⟩
  | succ retries ih =>
    refine tracked_attempt_bind (executeTool_audit h) fun m' r hr => ?_
    dsimp only
    refine tracked_ite.2 ⟨fun _ => hresult m' r hr _ _, fun hagain => tracked_ite.2
      ⟨fun _ => ?_, fun _ => hresult m' r hr _ _⟩⟩
    rcases hr with ⟨rfl, -⟩ | ⟨result, rfl, hsuccess, -⟩
    · exact ih _
    · exact absurd (.inl hsuccess) hagain

end calls

/-! ## The books of a run -/

/-- A step that says what its row says. -/
def SameObservation (row : ReactStep) (step : ReActStepData) : Prop :=
  step.observation.success = row.observationSuccess ∧
    step.observation.output = row.observationOutput

/-- Each success has its step among the steps taken so far. -/
structure Books (m : Audit) (steps : List ReActStepData) : Prop where
  idle : m.Idle
  results : m.results = m.told.map Prod.snd
  told : ∀ row result, (row, result) ∈ m.told →
    ∃ step, steps[row.stepIndex]? = some step ∧ SameObservation row step

section books
variable {m : Audit} {steps : List ReActStepData} {row : ReactStep} {step : ReActStepData}

/-- What was told stays told with one more step. -/
lemma told_push (h : ∀ row result, (row, result) ∈ m.told →
      ∃ step, steps[row.stepIndex]? = some step ∧ SameObservation row step)
    {row : ReactStep} {result : ToolCallResult} (hmem : (row, result) ∈ m.told)
    (step : ReActStepData) :
    ∃ step', (steps ++ [step])[row.stepIndex]? = some step' ∧ SameObservation row step' := by
  obtain ⟨step', hstep', hsame⟩ := h row result hmem
  refine ⟨step', ?_, hsame⟩
  rw [List.getElem?_append_left (List.getElem?_eq_some_iff.1 hstep').1, hstep']

/-- A step of a pass without a success. -/
lemma Books.push (h : Books m steps) (row : ReactStep) (step : ReActStepData) :
    Books (m.persist row) (steps ++ [step]) := by
  have htold : (m.persist row).told = m.told := by
    simp only [Audit.persist, h.idle.succeeded, Option.toList_none, List.map_nil, List.append_nil]
  refine ⟨⟨h.idle.returned, rfl⟩, ?_, fun row' result hmem => ?_⟩
  · rw [htold]
    exact h.results
  · rw [htold] at hmem
    exact told_push h.told hmem step

/-- The step of a success. -/
lemma Books.pushCall (h : Books m steps) (result : ToolCallResult)
    (hindex : row.stepIndex = steps.length) (hsame : SameObservation row step) :
    Books ((m.succeed result).persist row) (steps ++ [step]) := by
  refine ⟨⟨rfl, rfl⟩, ?_, fun row' result' hmem => ?_⟩
  · show m.results ++ [result] = (m.told ++ [(row, result)]).map Prod.snd
    rw [List.map_append, h.results]
    rfl
  · rcases List.mem_append.1 hmem with hold | hnew
    · exact told_push h.told hold step
    · cases List.mem_singleton.1 hnew
      refine ⟨step, ?_, hsame⟩
      rw [hindex]
      exact List.getElem?_concat_length

end books

/-! ## The walk -/

/-- A statement that no audit notes. -/
def Stmt.Unnoted : Stmt → Prop
  | .findExecution _ _ => True
  | .updateExecution _ _ => True
  | .createApproval _ => True
  | .emitApprovalCreated _ => True
  | .logGuardrailEvent _ => True
  | _ => False

section walk
variable {α : Type} {loop : Loop} {context : ExecutionContext} {m : Audit}

/-- A program that notes nothing. -/
lemma tracked_unnoted {p : Act α} (hp : p.Uses Stmt.Unnoted) :
    Tracked Audit.note (Audit.Law context) (Upon (fun m' _ => m' = m) fun _ => True) m p := by
  refine Tracked.of_uses (J := fun m' => m' = m) hp rfl (fun m' s hs _ => ?_)
    (fun m' s r hs hm => ?_) fun m' r hm => ?_
  · cases s <;> first | exact hs.elim | exact trivial
  · cases s <;> first | exact hs.elim | exact hm
  · cases r with
    | ok a => exact hm
    | error e => trivial

/-- A transition notes nothing. -/
lemma handleStateTransition_unnoted (executionId : Id) (status : Governance.ExecutionStatus) :
    (handleStateTransition executionId status).Uses Stmt.Unnoted := by
  refine Prog.Uses.bind (await_uses trivial) fun row => ?_
  cases row with
  | none => trivial
  | some row => exact Prog.Uses.bind (ofExcept_uses _) fun _ => await_uses trivial

/-- Nor does the request for an approval. -/
lemma createAgentApproval_unnoted (cfg : Config) (request : ApprovalRequest) :
    (createAgentApproval cfg request).Uses Stmt.Unnoted := by
  unfold createAgentApproval
  rw [Prog.uses_ite]
  refine ⟨fun _ => trivial, fun _ => ?_⟩
  refine Prog.Uses.bind (await_uses trivial) fun _ => ?_
  exact Prog.Uses.bind (await_uses trivial) fun _ => Prog.Uses.bind (await_uses trivial)
    fun _ => trivial

variable {steps : List ReActStepData} {step : ReActStepData}

/-- The audit of a step without a call. -/
lemma persistStep_idle (h : Books m steps) (execution : AgentExecution) (step : ReActStepData) :
    Tracked Audit.note (Audit.Law context) (Upon (fun m' _ => Books m' (steps ++ [step]))
      fun _ => True) m (persistStep execution step) := by
  refine tracked_await.2 ⟨fun result hsome => ?_, fun r => ?_⟩
  · rw [h.idle.succeeded] at hsome
    cases hsome
  · cases r with
    | ok u => exact h.push (persisted execution step) step
    | error e => trivial

/-- The audit of a step with its call. -/
lemma persistStep_call (h : Books m steps) (execution : AgentExecution) {result : ToolCallResult}
    (hiteration : step.iteration = steps.length)
    (hstep : StepOf context (persisted execution step) result) :
    Tracked Audit.note (Audit.Law context) (Upon (fun m' _ => Books m' (steps ++ [step]))
      fun _ => True) (m.succeed result) (persistStep execution step) := by
  refine tracked_await.2 ⟨fun result' hsome => ?_, fun r => ?_⟩
  · cases hsome
    exact hstep
  · cases r with
    | ok u =>
      show Books ((m.succeed result).persist (persisted execution step)) (steps ++ [step])
      exact h.pushCall result hiteration ⟨rfl, rfl⟩
    | error e => trivial

/-- What the audit says about a pass outside the run of a proposal. -/
lemma audit_base (loop : Loop) :
    PassBase Audit.note (Audit.Law loop.context) loop (fun m s => Books m s.steps)
      (fun m s => Books m s.steps) (fun m s _ _ => Books m s.steps) (fun _ => True) where
  early_thrown _ _ _ := trivial
  inside_thrown _ _ _ _ _ := trivial
  now m s h _ := tracked_await.2 ⟨trivial, fun r => by cases r <;> first | exact h | trivial⟩
  iteration m s i h :=
    tracked_await.2 ⟨trivial, fun r => by cases r <;> first | exact h | trivial⟩
  build m s h := tracked_await.2 ⟨trivial, fun r => by cases r <;> first | exact h | trivial⟩
  crop m s trimmed h _ :=
    tracked_await.2 ⟨trivial, fun r => by cases r <;> first | exact h | trivial⟩
  keep _ _ _ _ h _ := h
  reply _ _ _ _ _ h := ⟨trivial, fun _ => h, fun _ => ⟨fun _ => h, fun _ _ _ => h⟩⟩
  more _ _ _ _ _ _ _ h _ := ⟨trivial, fun _ => h, fun _ => h⟩
  count _ _ _ _ h := h
  propose m s t digest toolName action h _ :=
    tracked_await.2 ⟨trivial, fun r => by cases r <;> first | exact h | trivial⟩
  rules _ _ _ _ h := ⟨trivial, fun _ => h⟩
  suspend m s t h := by
    refine (tracked_unnoted (handleStateTransition_unnoted _ _)).post fun m' r hm => ?_
    cases r with
    | ok u =>
      cases hm
      exact h
    | error e => trivial
  ask m s t request h _ _ := by
    refine (tracked_unnoted (createAgentApproval_unnoted _ _)).post fun m' r hm => ?_
    cases r with
    | ok id =>
      cases hm
      exact h
    | error e => trivial
  record m s t b step h _ _ _ := persistStep_idle h loop.execution step
  recordEarly m s step h _ _ := persistStep_idle h loop.execution step
  event _ _ h := ⟨trivial, fun _ => h⟩

/-- A success that asks for an approval: the step says that the execution waits. -/
lemma pause_audit {s : LoopState} (h : Books m s.steps) {result : ToolCallResult}
    (hescalated : result.guardrailCheck = .escalated) (proposed : Proposed)
    (riskLevel description : String) (prepared : Bool) (output : String → String) :
    Turns Audit.note (Audit.Law loop.context) (fun m s => Books m s.steps) (fun _ => True)
      (m.succeed result) (pause loop s proposed riskLevel description prepared output) := by
  refine tracked_bind (tracked_unnoted (handleStateTransition_unnoted _ _)) (fun m' _ hm => ?_)
    fun _ _ _ => trivial
  cases hm
  refine tracked_bind (tracked_unnoted (createAgentApproval_unnoted _ _)) (fun m' id hm => ?_)
    fun _ _ _ => trivial
  cases hm
  refine tracked_bind (persistStep_call h loop.execution rfl ⟨fun hkept => ?_, fun _ => rfl⟩)
    (fun _ _ hm => hm) fun _ _ _ => trivial
  exact absurd hescalated hkept.2

/-- Below the cap the steps stay. -/
lemma capSteps_below {i : Nat} (h : i + 1 < loop.context.constraints.maxReActIterations)
    (action : Action) (observation : Observation) :
    capSteps loop i action observation = observation := by
  unfold capSteps
  exact if_neg fun hcap => by omega

/-- At the cap a call is marked. -/
lemma capSteps_last {i : Nat} (h : ¬ i + 1 < loop.context.constraints.maxReActIterations)
    {action : Action} (hcall : action.type = .toolCall) {observation : Observation}
    (hopen : observation.termination = none) :
    (capSteps loop i action observation).success = false := by
  unfold capSteps
  rw [if_pos ⟨not_lt.1 h, by rw [hcall]; decide, by rw [hopen]; rfl⟩]
  rfl

/-- The step of a success: at the step limit it is rewritten. -/
lemma recordStep_audit (loop : Loop) {s : LoopState} (h : Books m s.steps) {result : ToolCallResult}
    (hsuccess : result.success = true) (hescalated : result.guardrailCheck ≠ .escalated)
    (thought : Thought) {action : Action} (hcall : action.type = .toolCall)
    (response : ChatResponse) (tokensUsed : TokensUsed) :
    Turns Audit.note (Audit.Law loop.context) (fun m s => Books m s.steps) (fun _ => True)
      (m.succeed result)
      (recordStep loop s thought action
        { success := result.success
          output := result.output
          error := result.error
          guardrailTriggered := result.guardrailCheck ≠ .passed } response tokensUsed) := by
  refine tracked_bind (persistStep_call h loop.execution rfl ⟨fun hkept => ?_, fun hlost => ?_⟩)
    (fun m' _ hm => ?_) fun _ _ _ => trivial
  · have hsteps := capSteps_below hkept.1 action
      { success := result.success
        output := result.output
        error := result.error
        guardrailTriggered := result.guardrailCheck ≠ .passed }
    refine ⟨?_, ?_⟩
    · rw [← hsuccess]
      exact congrArg Observation.success hsteps
    · exact congrArg Observation.output hsteps
  · exact capSteps_last (fun hbelow => hlost ⟨hbelow, hescalated⟩) hcall rfl
  · exact tracked_try_bind.2 ⟨trivial, fun r => tracked_ite.2 ⟨fun _ => hm, fun _ => hm⟩⟩

/-- The audit of a proposed call. -/
lemma runProposed_audit {s : LoopState} (h : Books m s.steps) (proposed : Proposed)
    (hcall : proposed.action.type = .toolCall) :
    Turns Audit.note (Audit.Law loop.context) (fun m s => Books m s.steps) (fun _ => True) m
      (runProposed loop s proposed) := by
  refine tracked_bind (retryTool_audit h.idle _ _) (fun m' executed hm => ?_) fun _ _ hm => hm.elim
  rcases hm with ⟨rfl, hfailed⟩ | ⟨hsuccess, rfl⟩
  · refine tracked_ite.2 ⟨fun _ => (audit_base loop).pause h hcall, fun _ => ?_⟩
    rw [hfailed]
    exact (audit_base loop).stopWith (b := true) h rfl rfl fun _ => hcall
  · refine tracked_ite.2 ⟨fun hescalated => pause_audit h hescalated .., fun hescalated => ?_⟩
    have hrecord := recordStep_audit loop h hsuccess hescalated proposed.thought hcall
      proposed.response proposed.response.tokens
    rw [hsuccess] at hrecord ⊢
    exact hrecord

/-- What the audit says about a pass. -/
lemma audit_rules (loop : Loop) :
    PassRules Audit.note (Audit.Law loop.context) loop (fun m s => Books m s.steps)
      (fun m s => Books m s.steps) (fun m s _ _ => Books m s.steps) (fun _ => True) :=
  { audit_base loop with run := fun _ _ proposed h hcall => runProposed_audit h proposed hcall }

/-- The audit of the loop. -/
lemma runReActLoop_audit {cfg : Config} {execution : AgentExecution} {context : ExecutionContext}
    {agentPrompt : Option String} {forceTier : Option Nat} {initialSteps : List ReActStepData} :
    Tracked Audit.note (Audit.Law context) (Upon (fun m s => Books m s.steps) fun _ => True) {}
      (runReActLoop cfg execution context agentPrompt forceTier initialSteps) := by
  refine tracked_await_bind.2 ⟨trivial, fun now => ?_, fun _ => trivial⟩
  refine (audit_rules (loopOf cfg execution context forceTier now)).reactLoop ⟨⟨rfl, rfl⟩, rfl, ?_⟩
  intro row result hmem
  cases hmem

end walk

/-! ## Every run -/

/-- The steps tell what the tools of a run did: each success that has its step is what the persisted
and the returned step say, a returned run has a step for every success, and a step that says failure
is of no success. -/
structure StepsTell (m : Audit) (thread : Act LoopState) : Prop where
  persisted : ∀ row result, (row, result) ∈ m.told →
    Tells result row.observationSuccess row.observationOutput
  complete : ∀ s, thread = .ret s → m.results = m.told.map Prod.snd
  returned : ∀ s, thread = .ret s → ∀ row result, (row, result) ∈ m.told →
    ∃ step, s.steps[row.stepIndex]? = some step ∧
      Tells result step.observation.success step.observation.output
  failed : ∀ s, thread = .ret s → ∀ i step, s.steps[i]? = some step →
    step.observation.success = false → ∀ row result, (row, result) ∈ m.told → row.stepIndex ≠ i

/-- Only a persisted step adds to what is told. -/
lemma told_note (m : Audit) (s : Stmt) (r : s.Resp) :
    (m.note s r).told = m.told ∨ ∃ row, s = .createStep row ∧
      (m.note s r).told = m.told ++ m.succeeded.toList.map fun result => (row, result) := by
  -- a step tells of the result noted last, and no other statement tells of any
  cases s with
  | createStep row =>
    cases r with
    | ok u => exact .inr ⟨row, rfl, rfl⟩
    | error e => exact .inl rfl
  | runTool invocation name input context =>
    left
    cases r with
    | error e => rfl
    | ok r =>
      cases r with
      | error e => rfl
      | ok result => rfl
  | transitionToolCall id expected patch =>
    left
    cases hreturned : m.returned with
    | none => simp only [Audit.note, hreturned]
    | some result =>
      simp only [Audit.note, hreturned]
      split_ifs
      · rfl
      · rfl
  | _ => exact .inl rfl

/-- A lawful audit tells each success with its step. -/
lemma told_of_lawful {context : ExecutionContext} {h : History Stmt Stmt.Resp}
    (hl : Lawful Audit.note (Audit.Law context) {} h) :
    ∀ row result, (row, result) ∈ (auditOf h).told → StepOf context row result := by
  refine hl.inv (I := fun m => ∀ row result, (row, result) ∈ m.told → StepOf context row result)
    (fun row result hmem => by cases hmem) fun m s r hm hlaw row result hmem => ?_
  rcases told_note m s r with hsame | ⟨row', rfl, hnew⟩
  · rw [hsame] at hmem
    exact hm row result hmem
  · rw [hnew] at hmem
    rcases List.mem_append.1 hmem with hold | hadded
    · exact hm row result hold
    · obtain ⟨result', hresult', heq⟩ := List.mem_map.1 hadded
      cases heq
      exact hlaw result (Option.mem_toList.1 hresult')

/-- In every interleaving of any number of calls of the loop, at every moment: the steps tell what the
tools did exactly when each success that has its step came before the last pass of the limit and asked
for no approval. -/
theorem steps_tell {ι : Type} [DecidableEq ι] (cfg : Config) (ans : Answers) (w : World)
    (execution : ι → AgentExecution) (context : ι → ExecutionContext)
    (agentPrompt : ι → Option String) (forceTier : ι → Option Nat)
    (initialSteps : ι → List ReActStepData) (sched : List ι) :
    let c := (Pool.start w fun i =>
      runReActLoop cfg (execution i) (context i) (agentPrompt i) (forceTier i)
        (initialSteps i)).play (exec ans) sched
    ∀ i, StepsTell (auditOf (c.seen i)) (c.thread i) ↔
      ∀ row result, (row, result) ∈ (auditOf (c.seen i)).told →
        Kept (context i) row.stepIndex result := by
  intro c i
  have htracked : Tracked Audit.note (Audit.Law (context i))
      (Upon (fun m s => Books m s.steps) fun _ => True) {}
      (runReActLoop cfg (execution i) (context i) (agentPrompt i) (forceTier i)
        (initialSteps i)) := runReActLoop_audit
  have hlawful : Lawful Audit.note (Audit.Law (context i)) {} (c.seen i) :=
    Tracked.lawful (p := fun i =>
      runReActLoop cfg (execution i) (context i) (agentPrompt i) (forceTier i) (initialSteps i))
      htracked w sched
  have hstep := told_of_lawful hlawful
  have hbooks : ∀ s, c.thread i = .ret s → Books (auditOf (c.seen i)) s.steps := fun s hs =>
    Tracked.returned (p := fun i =>
      runReActLoop cfg (execution i) (context i) (agentPrompt i) (forceTier i) (initialSteps i))
      htracked hs
  constructor
  -- a result that is not kept would be told by a step that failed
  · intro htell row result hmem
    by_contra hlost
    have hfailed := (hstep row result hmem).hides hlost
    have hsucceeded := (htell.persisted row result hmem).1
    rw [hfailed] at hsucceeded
    cases hsucceeded
  · intro hkept
    have hpersisted : ∀ row result, (row, result) ∈ (auditOf (c.seen i)).told →
        Tells result row.observationSuccess row.observationOutput := fun row result hmem =>
      (hstep row result hmem).tells (hkept row result hmem)
    have hreturned : ∀ s, c.thread i = .ret s → ∀ row result,
        (row, result) ∈ (auditOf (c.seen i)).told →
        ∃ step, s.steps[row.stepIndex]? = some step ∧
          Tells result step.observation.success step.observation.output := by
      intro s hs row result hmem
      obtain ⟨step, hat, hsuccess, houtput⟩ := (hbooks s hs).told row result hmem
      refine ⟨step, hat, ?_⟩
      rw [hsuccess, houtput]
      exact hpersisted row result hmem
    refine ⟨hpersisted, fun s hs => (hbooks s hs).results, hreturned, ?_⟩
    rintro s hs k step hat hfailed row result hmem rfl
    obtain ⟨step', hat', htells⟩ := hreturned s hs row result hmem
    rw [hat] at hat'
    cases hat'
    rw [htells.1] at hfailed
    cases hfailed

/-! ### A message sent in the last pass -/

/-- A reply that asks for the message. -/
def notifyReply : ParsedReply where
  thought := { reasoning := "", plan := "", confidence := 1 }
  type := some (.str "tool_call")
  toolName := some (.str "message.send")
  toolInput := some .empty
  generatePrompt := none

/-- The context of an agent that may send messages and takes one step. -/
def oneStep : ExecutionContext :=
  { notifying with constraints := { notifying.constraints with maxReActIterations := 1 } }

/-- The loop of that agent, whose message is sent. -/
def notified : Pool Stmt Stmt.Resp String LoopState World Unit :=
  (Pool.start (World.fresh [] [] []) fun _ =>
    runReActLoop { Config.small notifyReply with tools := [notifier] } errand oneStep none none
      []).play (exec (Answers.sending fun _ => none)) (List.replicate 16 ())

/-- The message is sent, and its step says that the execution reached its step limit. -/
theorem sent_step_fails : ¬ StepsTell (auditOf (notified.seen ())) (notified.thread ()) := by
  intro htell
  have hfails : ((auditOf (notified.seen ())).told.any fun p => !p.1.observationSuccess) = true := by
    decide +kernel
  obtain ⟨⟨row, result⟩, hmem, hrow⟩ := List.any_eq_true.1 hfails
  rw [(htell.persisted row result hmem).1] at hrow
  cases hrow

end NexusClaw.AgentRuntime
