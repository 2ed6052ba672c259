import NexusClaw.AgentRuntime.ModelReply
import NexusClaw.AgentRuntime.ToolRegistry
import NexusClaw.Governance.ApprovalEngine
import NexusClaw.Governance.ExecutionStateMachine

/-!
# The ReAct loop

`ExecutorEngineService.runReActLoop` for a context without a release snapshot, with the approval it
asks for (`CommunityExecutionApprovalAdapter`). `Turn` is how one pass through the body of the `for`
loop ends: `stop` is its `break` and its `return`, `again` its `continue` and its end. The index `i`
of a pass is the number of steps taken so far. Only a crop of the prompt repeats a pass, once in a
run, so that the fuel of `reactLoop` is never what ends it.
-/

namespace NexusClaw.AgentRuntime
open Concurrent
open Governance (Id ExecutionStatus)

/-! ## Texts -/

def TerminationReason.text : TerminationReason → String
  | .toolNonRetryable => "tool_non_retryable"
  | .toolRetriesExhausted => "tool_retries_exhausted"
  | .tokenBudget => "token_budget"
  | .stepTokenBudget => "step_token_budget"
  | .maxSteps => "max_steps"
  | .maxToolCalls => "max_tool_calls"
  | .toolCallJitter => "tool_call_jitter"
  | .modelResponseInvalid => "model_response_invalid"
  | .wallClockTimeout => "wall_clock_timeout"
  | .humanHandoffCompleted => "human_handoff_completed"

/-- `toolFailureUserMessage` -/
def ErrorClass.userMessage : ErrorClass → String
  | .permission => "当前请求超出了这位员工的授权范围，我不能继续读取相关数据。"
  | .validation =>
    "这次分析所需的查询参数没有通过校验，因此我不能给出可靠结论。" ++
      "已取得的部分数据不足以支持趋势判断，请修正分析口径后再试。"
  | .network => "数据服务暂时不可用，本次没有取得足够证据，我不会据此推测结论。请稍后再试。"
  | .governor => "本次查询已达到平台执行限额，现有结果不足以形成可靠结论。请缩小分析范围后重试。"
  | .unknown => "本次数据读取未能完成，因此我暂时不能给出可靠结论。"

/-- An observation whose output is a text. -/
def Observation.ofText (success : Bool) (output : String) (error : Option String) : Observation where
  success
  output := .json (.str output)
  error

/-! ## State -/

/-- What a run of the loop does not change. -/
structure Loop where
  cfg : Config
  execution : AgentExecution
  context : ExecutionContext
  forceTier : Option Nat
  budgetMs : Rat
  deadline : Rat

/-- The local variables of `runReActLoop`; `status` is the execution's in memory and `paused` its
entry in `pausedApprovals`. -/
structure LoopState where
  steps : List ReActStepData
  totalTokens : Nat
  agentPrompt : Option String
  hasTriedSectionCrop : Bool := false
  toolCallCount : Nat
  lastJitterDigest : Option String := none
  jitterRepeatCount : Nat := 0
  status : ExecutionStatus
  paused : Option Id := none

inductive Turn where
  | again (s : LoopState)
  | stop (s : LoopState)

def LoopState.push (s : LoopState) (step : ReActStepData) : LoopState :=
  { s with steps := s.steps ++ [step] }

/-- `totalTokens += tokens` -/
def LoopState.spend (s : LoopState) (tokens : Nat) : LoopState :=
  { s with totalTokens := s.totalTokens + tokens }

/-- `context.constraints.maxTokens - totalTokens` -/
def LoopState.remaining (s : LoopState) (context : ExecutionContext) : Int :=
  context.constraints.maxTokens - s.totalTokens

/-! ## Steps -/

/-- The entity that `persistStep` creates for a step. -/
def persisted (execution : AgentExecution) (step : ReActStepData) : ReactStep where
  executionId := execution.id
  stepIndex := step.iteration
  thought := step.thought
  action := step.action
  observationSuccess := step.observation.success
  observationOutput := step.observation.output
  observationError := step.observation.error
  guardrailTriggered := step.observation.guardrailTriggered
  tokensUsed := step.tokensUsed
  model := step.model
  aiProviderStamp := step.aiProviderStamp

/-- `persistStep` -/
def persistStep (execution : AgentExecution) (step : ReActStepData) : Act Unit :=
  await (.createStep (persisted execution step))

/-- `steps.push(step)` and `persistStep`, then the loop is left. -/
def stopWith (loop : Loop) (s : LoopState) (step : ReActStepData) : Act Turn := do
  persistStep loop.execution step
  .ret (.stop (s.push step))

/-- A step that the loop takes in place of the model, without a termination. -/
def engineStep (iteration : Nat) (reasoning plan : String) (confidence : Rat)
    (output error : String) : ReActStepData where
  iteration
  thought := { reasoning, plan, confidence }
  action := { type := .finish }
  observation := Observation.ofText false output error
  tokensUsed := { input := 0, output := 0 }
  model := "n/a"

/-- `createExecutionTimeoutStep` -/
def createExecutionTimeoutStep (cfg : Config) (iteration : Nat) (wallClockBudgetMs : Rat) :
    ReActStepData :=
  engineStep iteration
    ("Wall-clock execution budget of " ++ String.ofList (cfg.fmt.format wallClockBudgetMs) ++
      "ms exceeded")
    "Terminate execution" 1 "Execution terminated: wall-clock time budget exceeded."
    "EXECUTION_WALL_CLOCK_TIMEOUT"

def capStep (iteration : Nat) : ReActStepData :=
  engineStep iteration "Smart Cap budget reached" "Terminate execution" 1
    "Smart Cap budget reached during execution. Execution terminated by budget policy."
    "Smart Cap budget reached"

def errorStep (iteration : Nat) (llmErrorMessage : String) : ReActStepData :=
  engineStep iteration ("LLM call failed: " ++ llmErrorMessage) "Terminate" 0
    ("LLM provider error: " ++ llmErrorMessage) llmErrorMessage

/-- `createControlledTerminationStep` -/
def createControlledTerminationStep (iteration : Nat) (response : Option ChatResponse)
    (termination : Termination) (userMessage : String) (proposed : Option (Thought × Action)) :
    ReActStepData where
  iteration
  thought :=
    match proposed with
    | some (thought, _) => thought
    | none =>
      { reasoning :=
          if termination.reason = .tokenBudget then "Token budget exceeded"
          else termination.reason.text
        plan := "Terminate"
        confidence := 1 }
  action :=
    match proposed with
    | some (_, action) => action
    | none => { type := .finish }
  observation :=
    { Observation.ofText false userMessage termination.rootCause with
      termination := some termination }
  tokensUsed :=
    { input := (response.map (·.inputTokens)).getD 0
      output := (response.map (·.outputTokens)).getD 0 }
  model := (response.map (·.model)).getD "n/a"
  aiProviderStamp := response.bind (·.aiProviderStamp)

/-- A step with the thought, the action and the response of the model. -/
def modelStep (iteration : Nat) (thought : Thought) (action : Action) (observation : Observation)
    (response : ChatResponse) (tokensUsed : TokensUsed) : ReActStepData where
  iteration
  thought
  action
  observation
  tokensUsed
  model := response.model
  aiProviderStamp := response.aiProviderStamp

def ChatResponse.tokens (response : ChatResponse) : TokensUsed where
  input := response.inputTokens
  output := response.outputTokens

/-! ## Pausing -/

/-- `handleStateTransition` of the engine. -/
def handleStateTransition (executionId : Id) (newStatus : ExecutionStatus) : Act Unit := do
  match ← await (.findExecution executionId none) with
  | none => .throw ("Execution not found: " ++ toString executionId)
  | some execution =>
    let validated ← Act.ofExcept (Governance.handleStateTransition execution.status newStatus)
    await (.updateExecution executionId validated)

/-- The paused call as `JSON.stringify` writes it. -/
def ApprovalRequest.pausedToolCall (request : ApprovalRequest) : Json :=
  .obj
    [("toolName", .str request.toolName), ("toolInput", request.toolInput),
      ("riskLevel", .str request.riskLevel), ("description", .str request.description)]

/-- The comment of the first entry of an approval's history. -/
def ApprovalRequest.comments (cfg : Config) (request : ApprovalRequest) : String :=
  "Tool: " ++ request.toolName ++ ", Risk: " ++ request.riskLevel ++ " — " ++
    request.description ++ "\n" ++ Governance.pausedMarker ++
    String.ofList (Json.text cfg.fmt request.pausedToolCall)

/-- `CommunityExecutionApprovalAdapter.createAgentApproval` -/
def createAgentApproval (cfg : Config) (request : ApprovalRequest) : Act Id := do
  if request.prepared then .throw "COMMUNITY_GOVERNED_APPROVAL_POLICY_UNAVAILABLE"
  else
    let approval ← await (.createApproval
      { workspaceId := request.workspaceId
        recordId := request.agentExecutionId
        objectName := "AgentExecution"
        status := .pending
        currentStepIndex := 0
        history :=
          [{ stepIndex := 0
             action := .submitted
             actorId := none
             comments := some (request.comments cfg) }]
        request })
    await (.emitApprovalCreated approval.id)
    await (.logGuardrailEvent
      { executionId := request.agentExecutionId
        riskLevel := request.riskLevel
        operationType := request.toolName
        actionTaken := "approve"
        approvalId := some approval.id })
    .ret approval.id

/-- A tool call of the model on its way through the gates. -/
structure Proposed where
  call : Id
  toolName : String
  thought : Thought
  action : Action
  response : ChatResponse

/-- The branches that pause: the status is persisted, the approval is created and the step says for
which approval the execution waits. -/
def pause (loop : Loop) (s : LoopState) (proposed : Proposed) (riskLevel description : String)
    (prepared : Bool) (output : String → String) : Act Turn := do
  handleStateTransition loop.execution.id .guardrailPending
  let approvalId ← createAgentApproval loop.cfg
    { workspaceId := loop.execution.workspaceId
      agentExecutionId := loop.execution.id
      toolName := proposed.toolName
      toolInput := Json.nullish proposed.action.toolInput .empty
      riskLevel
      description
      prepared
      call := proposed.call }
  let observation :=
    { Observation.ofText false (output (toString approvalId)) none with guardrailTriggered := true }
  stopWith loop { s with status := .guardrailPending, paused := some approvalId }
    (modelStep s.steps.length proposed.thought proposed.action observation proposed.response
      proposed.response.tokens)

/-! ## The end of a pass -/

/-- The observation of the last pass that the step limit allows. -/
def capSteps (loop : Loop) (i : Nat) (action : Action) (observation : Observation) : Observation :=
  let maxIterations := loop.context.constraints.maxReActIterations
  let reached := "Maximum ReAct step count " ++ toString maxIterations ++ " reached"
  if maxIterations ≤ i + 1 ∧ action.type ≠ .humanHandoff ∧ observation.termination.isNone then
    { Observation.ofText false "The execution reached its step limit before it could finish."
        reached with
      termination := some
        { reason := .maxSteps
          rootCause := reached
          toolName := action.toolName
          retryCount := some 0 } }
  else observation

/-- Step 7: the step is recorded and its event sent, of which a failure is only logged. -/
def recordStep (loop : Loop) (s : LoopState) (thought : Thought) (action : Action)
    (observation : Observation) (response : ChatResponse) (tokensUsed : TokensUsed) :
    Act Turn := do
  let observation := capSteps loop s.steps.length action observation
  let step := modelStep s.steps.length thought action observation response tokensUsed
  persistStep loop.execution step
  let _ ← (await (.transaction (loop.execution.event .executionStep) none)).attempt
  if observation.termination.isSome then .ret (.stop (s.push step))
  else .ret (.again (s.push step))

/-! ## Tool calls -/

/-- The call has passed the gates of the loop. -/
def runProposed (loop : Loop) (s : LoopState) (proposed : Proposed) : Act Turn := do
  let toolName := proposed.toolName
  let executed ← executeToolWithRetry loop.cfg { call := proposed.call, approval := none } toolName
    ((Json.orElse proposed.action.toolInput (some .empty)).getD .empty) loop.context
  let result := executed.result
  if result.guardrailCheck = .escalated then
    pause loop s proposed (result.riskLevel.getD "L2")
      ("Tool " ++ toolName ++ " escalated by tool framework guardrail") result.prepared
      fun id => "Guardrail escalated - awaiting approval (approvalInstanceId: " ++ id ++ ")"
  else if !result.success then
    let classification := classifyToolFailure loop.cfg result
    stopWith loop s
      (createControlledTerminationStep s.steps.length (some proposed.response)
        { reason := if classification.1 then .toolRetriesExhausted else .toolNonRetryable
          rootCause := result.error.getD "Tool execution failed"
          toolName := some (.str toolName)
          errorClass := some executed.errorClass
          retryCount := some executed.retryCount }
        classification.2.userMessage (some (proposed.thought, proposed.action)))
  else
    recordStep loop s proposed.thought proposed.action
      { success := result.success
        output := result.output
        error := result.error
        guardrailTriggered := result.guardrailCheck ≠ .passed }
      proposed.response proposed.response.tokens

/-- The step of a call that the guardrail engine blocks; the loop goes on. -/
def blockStep (iteration : Nat) (proposed : Proposed) (label : String) : ReActStepData :=
  modelStep iteration proposed.thought proposed.action
    { Observation.ofText false
        ("Guardrail L4 blocked tool \"" ++ proposed.toolName ++ "\" — rule \"" ++ label ++
          "\" marks this as a hard block (requires human; cannot proceed via approval).")
        "TOOL_RISK_L4_BLOCKED" with
      guardrailTriggered := true }
    proposed.response proposed.response.tokens

/-- What the loop does with the engine's evaluation. -/
def engineDecision (loop : Loop) (s : LoopState) (proposed : Proposed)
    (evaluation : Option Governance.GuardrailEvaluation) : Act Turn :=
  match evaluation.filter (·.matched) with
  | none => runProposed loop s proposed
  | some evaluation =>
    let label := ruleLabel evaluation
    match evaluation.action.type with
    | .allow => runProposed loop s proposed
    | .audit => runProposed loop s proposed
    | .block => do
      let step := blockStep s.steps.length proposed label
      persistStep loop.execution step
      .ret (.again (s.push step))
    | .confirm | .approve =>
      pause loop s proposed evaluation.riskLevel label false fun id =>
        "Guardrail " ++ evaluation.riskLevel ++ " triggered — tool \"" ++ proposed.toolName ++
          "\" requires human approval: " ++ label ++ " (approvalInstanceId: " ++ id ++ ")"

/-- The gate of the rules that the agent is bound to. -/
def engineGate (loop : Loop) (s : LoopState) (proposed : Proposed) : Act Turn := do
  let evaluation ← evaluateBoundRules loop.cfg loop.execution.workspaceId proposed.toolName
    (Json.nullish proposed.action.toolInput .empty) loop.context.constraints.guardrailRuleIds
  engineDecision loop s proposed evaluation

/-- The gate of the agent's own rules; every level but L1 pauses. -/
def sensitiveGate (loop : Loop) (s : LoopState) (proposed : Proposed) : Act Turn := do
  let rule ← Act.ofExcept (checkSensitiveOps loop.cfg proposed.toolName proposed.action.toolInput
    loop.context.constraints.sensitiveOps)
  match rule.filter (·.textOf "riskLevel" ≠ "L1") with
  | none => engineGate loop s proposed
  | some rule =>
    pause loop s proposed (rule.textOf "riskLevel") rule.label false fun id =>
      "Guardrail L2 triggered — tool \"" ++ proposed.toolName ++ "\" requires human approval: " ++
        rule.label ++ " (approvalInstanceId: " ++ id ++ ")"

/-- `stableToolCallDigest` -/
def stableToolCallDigest (cfg : Config) (toolName : String) (toolInput : Option Json) : String :=
  cfg.digest (.obj (("toolName", .str toolName) ::
    (toolInput.toList.map fun input => ("toolInput", input))))

/-- The counters after one more call. -/
def LoopState.count (s : LoopState) (digest : String) : LoopState :=
  { s with
    toolCallCount := s.toolCallCount + 1
    lastJitterDigest := some digest
    jitterRepeatCount :=
      if s.lastJitterDigest = some digest then s.jitterRepeatCount + 1 else 1 }

/-- A tool call as the gates see it. -/
def Loop.proposal (loop : Loop) (toolName : String) (action : Action) : Proposal where
  executionId := loop.execution.id
  workspaceId := loop.execution.workspaceId
  toolName
  toolInput := Json.nullish action.toolInput .empty
  sensitiveOps := loop.context.constraints.sensitiveOps
  guardrailRuleIds := loop.context.constraints.guardrailRuleIds

/-- The `tool_call` branch: the fuses, then the gates. -/
def callTool (loop : Loop) (s : LoopState) (thought : Thought) (action : Action)
    (response : ChatResponse) (toolName : String) : Act Turn := do
  let s := s.count (stableToolCallDigest loop.cfg toolName action.toolInput)
  let terminate (reason : TerminationReason) (rootCause userMessage : String) : Act Turn :=
    stopWith loop s
      (createControlledTerminationStep s.steps.length (some response)
        { reason, rootCause, toolName := some (.str toolName) } userMessage none)
  if 3 ≤ s.jitterRepeatCount then
    terminate .toolCallJitter
      ("Identical tool call repeated " ++ toString s.jitterRepeatCount ++
        " times consecutively (jitter fuse at 3)")
      "The execution stopped because the agent repeated the same tool call without progress."
  else if loop.context.constraints.maxToolCalls < s.toolCallCount then
    terminate .maxToolCalls
      ("Tool call limit " ++ toString loop.context.constraints.maxToolCalls ++ " exceeded")
      "The execution stopped after too many tool calls."
  else
    let call ← await (.propose (loop.proposal toolName action))
    sensitiveGate loop s { call, toolName, thought, action, response }

/-! ## The other actions -/

/-- The `llm_generate` branch. -/
def generate (loop : Loop) (s : LoopState) (thought : Thought) (action : Action)
    (response : ChatResponse) : Act Turn := do
  let generated ← (await (.chat .generation
    [{ role := "system", content := "You are a helpful content generation assistant." },
      { role := "user", content := (action.generatePrompt.bind Json.asString).getD "" }]
    none 2)).attempt
  match generated with
  | .error e =>
    recordStep loop s thought action (Observation.ofText false ("Generation failed: " ++ e) e)
      response response.tokens
  | .ok generated =>
    recordStep loop (s.spend (generated.inputTokens + generated.outputTokens)) thought action
      (Observation.ofText true generated.content none) response
      { input := response.inputTokens + generated.inputTokens
        output := response.outputTokens + generated.outputTokens }

/-- The last branch. A completed handoff carries its termination; a tool call without a name comes
here too and carries none. -/
def handOff (loop : Loop) (s : LoopState) (thought : Thought) (action : Action)
    (response : ChatResponse) : Act Turn :=
  let observation := Observation.ofText true "Handed off to human agent" none
  recordStep loop s thought action
    (if action.type = .humanHandoff then
      { observation with
        termination := some
          { reason := .humanHandoffCompleted
            rootCause := "Human handoff completed; execution terminated to avoid repeated " ++
              "handoff calls"
            toolName := action.toolName
            retryCount := some 0 } }
    else observation)
    response response.tokens

/-- Steps 5 and 6. -/
def dispatch (loop : Loop) (s : LoopState) (thought : Thought) (action : Action)
    (response effectiveResponse : ChatResponse) : Act Turn :=
  match action.type with
  | .finish => do
    let output ← Act.ofExcept (materializeFinalAnswer loop.cfg action.generatePrompt)
    stopWith loop s
      (modelStep s.steps.length thought action (Observation.ofText true output none)
        effectiveResponse effectiveResponse.tokens)
  | .toolCall =>
    match nonEmpty action.name with
    | some toolName => callTool loop s thought action response toolName
    | none => handOff loop s thought action response
  | .llmGenerate => generate loop s thought action response
  | .humanHandoff => handOff loop s thought action response

/-! ## One pass -/

/-- Step 4: the action of the reply, or the one of a repair, or the end of the run. -/
def readReply (loop : Loop) (s : LoopState) (response : ChatResponse) : Act Turn :=
  match extractNativeAction response with
  | some (thought, action) => dispatch loop s thought action response response
  | none =>
    match parseThoughtAndAction loop.cfg response.content with
    | .ok (thought, action) => dispatch loop s thought action response response
    | .error parseError => do
      let repair ← repairStructuredResponse loop.cfg loop.context response
        (s.remaining loop.context) (loop.forceTier.getD 2)
      let effectiveResponse :=
        match repair.response with
        | none => response
        | some repaired =>
          { repaired with
            inputTokens := response.inputTokens + repaired.inputTokens
            outputTokens := response.outputTokens + repaired.outputTokens }
      let spent := (repair.response.map fun r => r.inputTokens + r.outputTokens).getD 0
      let s := s.spend spent
      match repair.parsed with
      | some (thought, action) => dispatch loop s thought action response effectiveResponse
      | none =>
        stopWith loop s
          (createControlledTerminationStep s.steps.length (some effectiveResponse)
            { reason := .modelResponseInvalid
              rootCause := structuredResponseDiagnostic loop.cfg response parseError
              retryCount := some (if repair.attempted then 1 else 0) }
            "The agent could not produce a valid response. Please try again." none)

/-- The prompt without its normal sections, where there is one to crop. -/
def cropPrompt (loop : Loop) (s : LoopState) : Option String :=
  if s.hasTriedSectionCrop then none
  else (nonEmpty s.agentPrompt).bind fun prompt => nonEmpty (loop.cfg.recompose prompt)

/-- The state after a try to crop. -/
def LoopState.cropped (s : LoopState) (trimmed : Option String) : LoopState :=
  { s with
    hasTriedSectionCrop := s.hasTriedSectionCrop || (nonEmpty s.agentPrompt).isSome
    agentPrompt := trimmed.orElse fun _ => s.agentPrompt }

/-- The budgets of a step and of the run, which the reply may have exceeded. -/
def checkTokens (loop : Loop) (s : LoopState) (response : ChatResponse) : Act Turn :=
  let constraints := loop.context.constraints
  let stepTokenTotal : Nat := response.inputTokens + response.outputTokens
  let s := s.spend stepTokenTotal
  let terminate (s : LoopState) (reason : TerminationReason) (rootCause userMessage : String) :
      Act Turn :=
    stopWith loop s (createControlledTerminationStep s.steps.length (some response)
      { reason, rootCause } userMessage none)
  if constraints.maxStepTokens.any fun (limit : Int) => limit < stepTokenTotal then
    terminate s .stepTokenBudget
      ("Single model step used " ++ toString stepTokenTotal ++ " tokens; limit is " ++
        toString (constraints.maxStepTokens.getD 0))
      "This step was too large to run safely. Please narrow the request."
  else if constraints.maxTokens < s.totalTokens then
    match cropPrompt loop s with
    | some trimmed => .ret (.again (s.cropped (some trimmed)))
    | none =>
      let previousRootCause :=
        (s.steps.reverse.find? fun step => !step.observation.success).bind (·.observation.error)
      terminate (s.cropped none) .tokenBudget
        (previousRootCause.getD
          ("Execution used " ++ toString s.totalTokens ++ " tokens; limit is " ++
            toString constraints.maxTokens))
        "The execution reached its token limit before it could finish."
  else readReply loop s response

/-- `buildChatMessages` -/
def buildChatMessages (loop : Loop) (s : LoopState) : Act (List ChatMessage) := do
  let constitution ← await (.getActiveText loop.context.workspaceId)
  .ret (loop.cfg.chatMessages constitution loop.context s.steps loop.execution.rawInput
    s.agentPrompt)

/-- Step 3: the call of the model. -/
def callModel (loop : Loop) (s : LoopState) (messages : List ChatMessage) : Act Turn := do
  let estimated : Int := estimateChatInputTokens messages
  let remaining := s.remaining loop.context
  if remaining ≤ estimated + 128 then
    stopWith loop s (createControlledTerminationStep s.steps.length none
      { reason := .tokenBudget
        rootCause := "Estimated next call requires at least " ++ toString (estimated + 128) ++
          " tokens; " ++ toString remaining ++ " remain" }
      "The execution is close to its token limit and stopped before starting another model call."
      none)
  else
    let maxTokens := min (loop.context.constraints.maxOutputTokensPerStep.getD 2048)
      (remaining - estimated)
    match ← (await (.chat .reactModelCall messages (some maxTokens)
        (loop.forceTier.getD 2))).attempt with
    | .error e => stopWith loop s (errorStep s.steps.length e)
    | .ok response => checkTokens loop s response

/-- Step 2: the messages of the call, with a cropped prompt where the tokens would not do. -/
def prepareCall (loop : Loop) (s : LoopState) : Act Turn := do
  let messages ← buildChatMessages loop s
  if s.remaining loop.context ≤ estimateChatInputTokens messages + 128 then
    match cropPrompt loop s with
    | none => callModel loop (s.cropped none) messages
    | some trimmed => do
      let s := s.cropped (some trimmed)
      let messages ← buildChatMessages loop s
      callModel loop s messages
  else callModel loop s messages

/-- One pass through the body of the loop. -/
def turn (loop : Loop) (s : LoopState) : Act Turn := do
  let now ← await .now
  if loop.deadline ≤ now then
    stopWith loop s (createExecutionTimeoutStep loop.cfg s.steps.length loop.budgetMs)
  else
    let allowed ← await (.checkIteration loop.execution.workspaceId loop.execution.agentId
      s.steps.length)
    if allowed then prepareCall loop s
    else stopWith loop s (capStep s.steps.length)

/-! ## The loop -/

/-- The passes that are left: one for each step and one for a crop. -/
def LoopState.passes (s : LoopState) (loop : Loop) : Nat :=
  loop.context.constraints.maxReActIterations - s.steps.length +
    if s.hasTriedSectionCrop then 0 else 1

/-- The `for` loop. -/
def reactLoop (loop : Loop) : Nat → LoopState → Act LoopState
  | 0, s => .ret s
  | fuel + 1, s =>
    if loop.context.constraints.maxReActIterations ≤ s.steps.length then .ret s
    else do
      match ← turn loop s with
      | .stop s => .ret s
      | .again s => reactLoop loop fuel s

/-- `wallClockBudgetMs` -/
def wallClockBudget (context : ExecutionContext) : Rat :=
  if 0 < context.constraints.timeoutMs then context.constraints.timeoutMs else 300000

/-- What is fixed when the loop starts. -/
def loopOf (cfg : Config) (execution : AgentExecution) (context : ExecutionContext)
    (forceTier : Option Nat) (now : Nat) : Loop where
  cfg
  execution
  context
  forceTier
  budgetMs := wallClockBudget context
  deadline := now + wallClockBudget context

/-- The local variables as the loop finds them. -/
def initialState (execution : AgentExecution) (agentPrompt : Option String)
    (initialSteps : List ReActStepData) : LoopState where
  steps := initialSteps
  totalTokens := (initialSteps.map fun step => step.tokensUsed.input + step.tokensUsed.output).sum
  agentPrompt
  toolCallCount := initialSteps.countP fun step => step.action.type = .toolCall
  status := execution.status

/-- `runReActLoop`, with the execution's status in memory. -/
def runReActLoop (cfg : Config) (execution : AgentExecution) (context : ExecutionContext)
    (agentPrompt : Option String) (forceTier : Option Nat) (initialSteps : List ReActStepData) :
    Act LoopState := do
  let now ← await .now
  let loop := loopOf cfg execution context forceTier now
  let s := initialState execution agentPrompt initialSteps
  reactLoop loop (s.passes loop) s

end NexusClaw.AgentRuntime
