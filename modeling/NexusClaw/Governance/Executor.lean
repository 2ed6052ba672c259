import NexusClaw.Governance.ApprovalEngine
import NexusClaw.Governance.ExecutionStateMachine
import NexusClaw.Governance.ToolCallLifecycle

/-!
# Executor engine

`executor/src/executor-engine.ts` and `tool-registry.ts`: the governed ReAct loop. The model answers
with arbitrary text; what the loop reads of it is JSON without a schema, so a proposed tool name is a
JSON value, and only a string can be on a list of tools. Of the steps a `LoopContext` collects only
their number is read.
-/

namespace NexusClaw.Governance
open Concurrent

structure ExecutorInput where
  workspaceId : Id
  agentId : Id
  rawInput : String
  allowedTools : List String := []
  blockedTools : List String := []
  guardrailRuleIds : List String := []
  traceId : Option String := none
  correlationId : Option String := none
deriving DecidableEq, Repr

structure LoopContext where
  execution : AgentExecution
  input : ExecutorInput
  stepCount : Nat
  messages : List ChatMessage

/-- `ResumeContext['pausedToolCall']`; its risk level and description are not read. The handler of a
decision casts what it parsed, so the name need be no string. -/
structure PausedToolCall where
  toolName : Option Json
  toolInput : Option Json

/-! ## The tool registry -/

def registryRefusal (error : String) : ToolCallResult where
  success := false
  output := .json .null
  error := some error
  permissionCheck := .denied
  guardrailCheck := .blocked

/-- The result of a tool body that threw. -/
def toolThrew (error : String) : ToolCallResult where
  success := false
  output := .json .null
  error := some error
  permissionCheck := .passed
  guardrailCheck := .passed

/-- `ToolRegistry.execute` -/
def registryExecute (cfg : Config) (origin : Origin) (name : String) (input : Json)
    (allowedTools : List String) : Act ToolCallResult :=
  if name ∉ cfg.tools then pure (registryRefusal ("Tool not found: " ++ name))
  else if name ∉ allowedTools then pure (registryRefusal ("TOOL_NOT_ALLOWED:" ++ name))
  else do
    match ← runTool origin name input with
    | .ok result => pure result
    | .error e => pure (toolThrew e)

/-! ## Steps -/

/-- `executeApprovedTool` -/
def executeApprovedTool (cfg : Config) (origin : Origin) (context : LoopContext)
    (toolName : String) (toolInput : Json) : Act ToolCallResult := do
  let call ← begin toolName "governed" context.execution.id context.input.workspaceId
  let result ← registryExecute cfg origin toolName toolInput context.input.allowedTools
  finalize call.id
    { status := if result.success then .succeeded else .failed
      output := result.output
      permissionCheck := result.permissionCheck
      guardrailCheck := result.guardrailCheck
      errorCode := result.error }
  pure result

structure Observation where
  success : Bool
  output : Option Json
  error : Option String
  guardrailTriggered : Bool

/-- The value of an output; one that is not JSON does not get past `finalize`. -/
def JsOutput.value? : JsOutput → Option Json
  | .undefined => none
  | .json v => some v
  | .notJson => none

def ToolCallResult.observation (result : ToolCallResult) : Observation where
  success := result.success
  output := result.output.value?
  error := result.error
  guardrailTriggered := false

/-- The `observationOutput` column: a value that is no object is wrapped in one. -/
def Observation.column (observation : Observation) : Json :=
  match observation.output with
  | some (.obj fields) => .obj fields
  | some (.arr xs) => .arr xs
  | some v => .obj [("value", v)]
  | none => .empty

/-- ``observation: ${JSON.stringify(output ?? error)}`` -/
def observationMessage (cfg : Config) (output : Option Json) (error : Option String) :
    ChatMessage where
  role := "user"
  content :=
    "observation: " ++
      match output, error with
      | none, none => "undefined"
      | none, some e => cfg.stringify (.str e)
      | some .null, none => "undefined"
      | some .null, some e => cfg.stringify (.str e)
      | some v, _ => cfg.stringify v

def assistantMessage (cfg : Config) (thought : Option Json) (action : Json) : ChatMessage where
  role := "assistant"
  content := cfg.stringify (.obj ((thought.map fun t => ("thought", t)).toList ++ [("action", action)]))

/-- `persistStep` -/
def persistStep (cfg : Config) (origin : Origin) (context : LoopContext) (iteration : Nat)
    (thought : Option Json) (actionType : ActionType) (action : Json) (observation : Observation) :
    Act LoopContext := do
  createStep
    { executionId := context.execution.id
      stepIndex := iteration
      thoughtReasoning := thought.bind (·.get? "reasoning")
      thoughtPlan := thought.bind (·.get? "plan")
      thoughtConfidence := thought.bind (·.get? "confidence")
      actionType
      toolName := action.get? "toolName"
      toolInput := action.get? "toolInput"
      generatePrompt := action.get? "generatePrompt"
      observationSuccess := observation.success
      observationOutput := observation.column
      observationError := observation.error
      guardrailTriggered := observation.guardrailTriggered
      origin }
  pure
    { context with
      stepCount := context.stepCount + 1
      messages := context.messages ++
        [assistantMessage cfg thought action,
          observationMessage cfg observation.output observation.error] }

/-! ## The gate in the loop -/

inductive ToolGate where
  | allow (toolName : String)
  | paused
  | blocked (error : String)
deriving DecidableEq, Repr

def loopPaused (context : LoopContext) (toolName riskLevel : String) : OutboxEvent where
  workspaceId := context.input.workspaceId
  eventType := .executionPaused
  aggregateId := context.execution.id
  payload :=
    { workspaceId := context.input.workspaceId
      executionId := some context.execution.id
      toolName := some toolName
      riskLevel := some riskLevel }

/-- The approval that the loop asks for. -/
def loopRequest (context : LoopContext) (toolName : String) (toolInput : Json)
    (evaluation : GuardrailEvaluation) : AgentApprovalRequest where
  workspaceId := context.input.workspaceId
  agentExecutionId := context.execution.id
  toolName := toolName
  toolInput := toolInput
  riskLevel := evaluation.riskLevel
  description := evaluation.ruleName.getD toolName

/-- The L2/L3 branch of `gateToolCall`. -/
def pauseLoop (cfg : Config) (context : LoopContext) (toolName : String) (toolInput : Json)
    (evaluation : GuardrailEvaluation) : Act (ToolGate × LoopContext) := do
  let _ ← createAgentApproval cfg (loopRequest context toolName toolInput evaluation)
  let validated ← Act.ofExcept (handleStateTransition context.execution.status .guardrailPending)
  updateExecution context.execution.id { status := some validated }
  let context := { context with execution := { context.execution with status := validated } }
  enqueue (loopPaused context toolName evaluation.riskLevel)
  pure (.paused, context)

/-- `gateToolCall` -/
def gateToolCall (cfg : Config) (context : LoopContext) (toolName toolInput : Json) :
    Act (ToolGate × LoopContext) := do
  match toolName with
  | .str name =>
    if !checkToolAccess name context.input.allowedTools context.input.blockedTools then
      pure (.blocked ("TOOL_NOT_ALLOWED:" ++ name), context)
    else
      let evaluation ← Act.ofExcept
        (evaluate cfg context.input.workspaceId name toolInput context.input.guardrailRuleIds)
      if !evaluation.matched ∨ evaluation.riskLevel = "L0" ∨ evaluation.riskLevel = "L1" then
        pure (.allow name, context)
      else if evaluation.riskLevel = "L4" then
        pure (.blocked ("GUARDRAIL_BLOCKED:" ++ name), context)
      else pauseLoop cfg context name toolInput evaluation
  | other => pure (.blocked ("TOOL_NOT_ALLOWED:" ++ cfg.text other), context)

/-! ## The loop -/

/-- `thought` and `action` of a response; no value when `JSON.parse` throws or yields `null`. -/
def parseResponse (cfg : Config) (content : String) : Option (Option Json × Option Json) :=
  match cfg.parse content with
  | none => none
  | some .null => none
  | some parsed => some (parsed.get? "thought", parsed.get? "action")

/-- What an action asks for. -/
inductive Proposal where
  | finish
  | toolCall (toolName toolInput : Json)
  | other

def Proposal.read (action : Json) : Proposal :=
  if (action.get? "type").bind Json.asString = some "finish" then .finish
  else if (action.get? "type").bind Json.asString = some "tool_call" ∧
      Json.truthy (action.get? "toolName") then
    .toolCall ((action.get? "toolName").getD .null) (Json.nullish (action.get? "toolInput") .empty)
  else .other

/-- The branch of an iteration for a tool call; no status means `continue`. -/
def performToolCall (cfg : Config) (context : LoopContext) (iteration : Nat)
    (thought : Option Json) (action toolName toolInput : Json) :
    Act (Option ExecutionStatus × LoopContext) := do
  let (verdict, context) ← gateToolCall cfg context toolName toolInput
  match verdict with
  | .paused => pure (some .guardrailPending, context)
  | .blocked error =>
    let context ← persistStep cfg .loop context iteration thought .toolCall action
      { success := false, output := some .null, error := some error, guardrailTriggered := true }
    pure (none, context)
  | .allow name =>
    let result ← executeApprovedTool cfg .loop context name toolInput
    let context ← persistStep cfg .loop context iteration thought .toolCall action
      result.observation
    pure
      (none,
        { context with
          messages := context.messages ++
            [observationMessage cfg result.output.value? result.error] })

/-- An iteration after the response was parsed. -/
def perform (cfg : Config) (context : LoopContext) (iteration : Nat) (thought : Option Json) :
    Option Json → Act (Option ExecutionStatus × LoopContext)
  | none => .throw "Cannot read properties of undefined (reading 'type')"
  | some .null => .throw "Cannot read properties of null (reading 'type')"
  | some action =>
    match Proposal.read action with
    | .finish => do
      let context ← persistStep cfg .loop context iteration thought .finish action
        { success := true
          output := some (.obj [("text", Json.nullish (action.get? "generatePrompt") (.str ""))])
          error := none
          guardrailTriggered := false }
      pure (some .done, context)
    | .toolCall toolName toolInput =>
      performToolCall cfg context iteration thought action toolName toolInput
    | .other => pure (some .failed, context)

/-- An iteration after the model answered. -/
def respond (cfg : Config) (context : LoopContext) (iteration : Nat) :
    Except String String → Act (Option ExecutionStatus × LoopContext)
  | .error e => .throw e
  | .ok content =>
    match parseResponse cfg content with
    | none => pure (some .failed, context)
    | some (thought, action) => perform cfg context iteration thought action

/-- One iteration of `runLoop`. -/
def iterate (cfg : Config) (context : LoopContext) (iteration : Nat) :
    Act (Option ExecutionStatus × LoopContext) := do
  let response ← chat context.messages
  respond cfg context iteration response

/-- The iterations from `iteration` on, of which `remaining` are left. -/
def loopFrom (cfg : Config) : Nat → Nat → LoopContext → Act (ExecutionStatus × LoopContext)
  | 0, _, context => pure (.failed, context)
  | remaining + 1, iteration, context => do
    let (status, context) ← iterate cfg context iteration
    match status with
    | some status => pure (status, context)
    | none => loopFrom cfg remaining (iteration + 1) context

/-- `runLoop` -/
def runLoop (cfg : Config) (context : LoopContext) : Act (ExecutionStatus × LoopContext) :=
  loopFrom cfg (cfg.maxIterations - context.stepCount) context.stepCount context

/-! ## Run and resume -/

/-- The row that `run` inserts. -/
def ExecutorInput.row (input : ExecutorInput) : AgentExecution where
  workspaceId := input.workspaceId
  agentId := input.agentId
  triggerSource := .api
  triggerPayload := some
    { allowedTools := input.allowedTools
      blockedTools := input.blockedTools
      guardrailRuleIds := input.guardrailRuleIds }
  rawInput := input.rawInput
  status := .pending
  traceId := input.traceId
  correlationId := input.correlationId

def runStarted (input : ExecutorInput) (executionId : Id) : OutboxEvent where
  workspaceId := input.workspaceId
  eventType := .executionStarted
  aggregateId := executionId
  payload := { workspaceId := input.workspaceId, executionId := some executionId }

def runFinished (input : ExecutorInput) (executionId : Id) (finalStatus : ExecutionStatus)
    (stepCount : Nat) : OutboxEvent where
  workspaceId := input.workspaceId
  eventType := if finalStatus = .done then .executionCompleted else .executionFailed
  aggregateId := executionId
  payload :=
    { workspaceId := input.workspaceId
      executionId := some executionId
      status := some finalStatus
      stepCount := some stepCount }

def ExecutorInput.context (input : ExecutorInput) (execution : AgentExecution) : LoopContext where
  execution := execution
  input := input
  stepCount := 0
  messages := [{ role := "user", content := input.rawInput }]

/-- `ExecutorEngine.run` -/
def run (cfg : Config) (input : ExecutorInput) : Act AgentExecution := do
  let execution ← createExecution input.row
  enqueue (runStarted input execution.id)
  let (finalStatus, context) ← runLoop cfg (input.context execution)
  updateExecution execution.id { status := some finalStatus, completedAt := true }
  enqueue (runFinished input execution.id finalStatus context.stepCount)
  findExecutionOrFail execution.id

structure ResumeInput where
  executionId : Id
  workspaceId : Id
  approvalInstanceId : Id
  pausedToolCall : Option PausedToolCall

def toolCallAction (toolName toolInput : Json) : Json :=
  .obj [("type", .str "tool_call"), ("toolName", toolName), ("toolInput", toolInput)]

/-- The two messages that `resumePaused` rebuilds from a persisted step. -/
def ReactStep.messages (cfg : Config) (step : ReactStep) : List ChatMessage :=
  [assistantMessage cfg
      (some (.obj
        [("reasoning", Json.nullish step.thoughtReasoning (.str "")),
          ("plan", .str ""),
          ("confidence", .num 1)]))
      (toolCallAction (Json.nullish step.toolName (.str ""))
        (Json.nullish step.toolInput .empty)),
    observationMessage cfg (some step.observationOutput) step.observationError]

/-- The context that `resumePaused` rebuilds from the row it read and the persisted steps. -/
def resumeContext (cfg : Config) (workspaceId : Id) (execution : AgentExecution)
    (persisted : List ReactStep) : LoopContext where
  execution := execution
  input :=
    { workspaceId
      agentId := execution.agentId
      rawInput := execution.rawInput
      allowedTools := (execution.triggerPayload.map (·.allowedTools)).getD []
      blockedTools := (execution.triggerPayload.map (·.blockedTools)).getD []
      guardrailRuleIds := (execution.triggerPayload.map (·.guardrailRuleIds)).getD []
      traceId := execution.traceId
      correlationId := execution.correlationId }
  stepCount := persisted.length
  messages := { role := "user", content := execution.rawInput } ::
    persisted.flatMap (·.messages cfg)

/-- The message of an insert without the name of the tool. -/
def toolNameMissing : String :=
  "null value in column \"toolName\" violates not-null constraint"

/-- `executeApprovedTool` for a name that is no string: the column takes its text, and a registry
keyed by strings has no such tool. -/
def executeUnnamedTool (cfg : Config) (context : LoopContext) (toolName : Json) :
    Act ToolCallResult := do
  let call ← begin (cfg.text toolName) "governed" context.execution.id context.input.workspaceId
  let result := registryRefusal ("Tool not found: " ++ cfg.text toolName)
  finalize call.id
    { status := .failed
      output := result.output
      permissionCheck := result.permissionCheck
      guardrailCheck := result.guardrailCheck
      errorCode := result.error }
  pure result

/-- `executeApprovedTool` for the name that was handed over. -/
def executeResumedTool (cfg : Config) (origin : Origin) (context : LoopContext) (toolInput : Json) :
    Option Json → Act ToolCallResult
  | none => .throw toolNameMissing
  | some .null => .throw toolNameMissing
  | some (.str toolName) => executeApprovedTool cfg origin context toolName toolInput
  | some toolName => executeUnnamedTool cfg context toolName

/-- The action of a step that a resume persists. -/
def resumedAction (toolName : Option Json) (toolInput : Json) : Json :=
  .obj
    (("type", .str "tool_call") ::
      ((toolName.map fun name => ("toolName", name)).toList ++ [("toolInput", toolInput)]))

/-- The "approved resume" of `resumePaused`: the tool call and its step. -/
def resumeApproved (cfg : Config) (approvalInstanceId : Id) (context : LoopContext)
    (pausedToolCall : PausedToolCall) : Act LoopContext := do
  let toolInput := Json.nullish pausedToolCall.toolInput .empty
  let result ← executeResumedTool cfg (.resume approvalInstanceId) context toolInput
    pausedToolCall.toolName
  persistStep cfg (.resume approvalInstanceId) context context.stepCount
    (some (.obj
      [("reasoning", .str "approved resume"),
        ("plan", .str "execute approved tool"),
        ("confidence", .num 1)]))
    .toolCall (resumedAction pausedToolCall.toolName toolInput) result.observation

/-- `ExecutorEngine.resumePaused` -/
def resumePaused (cfg : Config) (input : ResumeInput) : Act AgentExecution := do
  match input.pausedToolCall with
  | none => .throw "APPROVAL_LEGACY_RESUME_CONTEXT_MISSING"
  | some pausedToolCall =>
    let execution ← findExecutionOrFail input.executionId
    if execution.status ≠ .guardrailPending then .throw "EXECUTION_NOT_AWAITING_APPROVAL"
    else
      let validated ← Act.ofExcept (handleStateTransition execution.status .running)
      updateExecution execution.id { status := some validated }
      let persisted ← findSteps input.executionId
      let context ← resumeApproved cfg input.approvalInstanceId
        (resumeContext cfg input.workspaceId { execution with status := validated } persisted)
        pausedToolCall
      let (finalStatus, _) ← runLoop cfg context
      updateExecution execution.id { status := some finalStatus, completedAt := true }
      findExecutionOrFail input.executionId

end NexusClaw.Governance
