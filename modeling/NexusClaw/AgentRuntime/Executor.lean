import NexusClaw.AgentRuntime.ReActLoop

/-!
# The executor engine

`ExecutorEngineService.execute` and `runSync` in the Community composition: no release, no durable
approval and no cognition port is provided. `execute` is the `try` and the `catch` around
`executeWithinGovernorContext`, a run that resumes an approved call included.
-/

namespace NexusClaw.AgentRuntime
open Concurrent
open Governance (Id ExecutionStatus)

/-! ## Resuming -/

/-- `ResumeContext` with the parts of the paused call that the engine reads, and with the proposal
that the approval was made for. -/
structure ResumeContext where
  approvalInstanceId : Id
  toolName : String
  toolInput : Option Json
  call : Id

/-- A step as `rebuildHistorySteps` reads it back: without termination and stamp. -/
def ReactStep.rebuilt (row : ReactStep) : ReActStepData where
  iteration := row.stepIndex
  thought := row.thought
  action := row.action
  observation :=
    { success := row.observationSuccess
      output := row.observationOutput
      error := row.observationError
      guardrailTriggered := row.guardrailTriggered }
  tokensUsed := row.tokensUsed
  model := row.model

/-- `rebuildHistorySteps` -/
def rebuildHistorySteps (executionId : Id) : Act (List ReActStepData) := do
  let rows ← await (.findSteps executionId)
  .ret (rows.map ReactStep.rebuilt)

/-- `Math.max(...rebuiltSteps.map((s) => s.iteration)) + 1` -/
def nextIteration (steps : List ReActStepData) : Nat :=
  (steps.map fun step => step.iteration + 1).foldr max 0

/-- The step of an approved call. -/
def approvedStep (resume : ResumeContext) (iteration : Nat) (result : ToolCallResult) :
    ReActStepData where
  iteration
  thought :=
    { reasoning := "Tool call approved by human approval " ++ toString resume.approvalInstanceId
      plan := "Execute approved tool call"
      confidence := 1 }
  action :=
    { type := .toolCall
      toolName := some (.str resume.toolName)
      toolInput := resume.toolInput }
  observation :=
    { success := result.success
      output := result.output
      error := result.error
      guardrailTriggered := result.guardrailCheck ≠ .passed }
  tokensUsed := { input := 0, output := 0 }
  model := "n/a"

/-- `executeApprovedToolCall`: the call goes to the registry once, under a grant. -/
def executeApprovedToolCall (cfg : Config) (execution : AgentExecution)
    (context : ExecutionContext) (resume : ResumeContext) (rebuiltSteps : List ReActStepData) :
    Act ReActStepData := do
  let grant : ApprovalGrant :=
    { toolName := resume.toolName
      approvalInstanceId := resume.approvalInstanceId }
  let result ← executeTool cfg
    { call := resume.call, approval := some resume.approvalInstanceId } resume.toolName
    (Json.nullish resume.toolInput .empty) { context with approvalGrant := some grant }
  let step := approvedStep resume (nextIteration rebuiltSteps) result
  persistStep execution step
  .ret step

/-- The steps that the loop starts with. -/
def resumedSteps (cfg : Config) (execution : AgentExecution) (context : ExecutionContext) :
    Option ResumeContext → Act (List ReActStepData)
  | none => .ret []
  | some resume => do
    let rebuiltSteps ← rebuildHistorySteps execution.id
    let approvedStep ← executeApprovedToolCall cfg execution context resume rebuiltSteps
    .ret (rebuiltSteps ++ [approvedStep])

/-! ## Planning -/

/-- `buildPlanMessages` -/
def buildPlanMessages (rawInput : String) (agentPrompt : Option String) : List ChatMessage :=
  let persona :=
    match nonEmpty agentPrompt with
    | some prompt => prompt ++ "\n\n"
    | none => ""
  [{ role := "system"
     content :=
      persona ++ "你现在处于\"规划阶段\"。把用户请求拆解成一个简洁的执行计划：" ++
        "3-6 个步骤，每步一行、以\"步骤N.\"开头。" ++
        "只输出计划本身，不要执行任何操作、不要调用工具、不要给出最终答案。" },
    { role := "user", content := rawInput }]

/-- `generatePlan` -/
def generatePlan (rawInput : String) (agentPrompt : Option String) : Act (Option String) := do
  let response ← await (.chat .planning (buildPlanMessages rawInput agentPrompt) none 2)
  .ret (nonEmpty (some (trim response.content)))

/-- The prompt of the loop; a plan that fails is left out. -/
def effectivePrompt (agent : Agent) (rawInput : String) : Act (Option String) :=
  if agent.planningEnabled then do
    match ← (generatePlan rawInput agent.prompt).attempt with
    | .ok (some plan) =>
      .ret (some (agent.prompt.getD "" ++ "\n\n## 执行计划（先规划后执行）\n" ++ plan))
    | _ => .ret agent.prompt
  else .ret agent.prompt

/-! ## Closing a run -/

/-- `lastStep?.observation.termination` -/
def LoopState.termination (s : LoopState) : Option Termination :=
  s.steps.getLast?.bind (·.observation.termination)

def finalStatus (s : LoopState) : ExecutionStatus :=
  if s.status = .guardrailPending then .guardrailPending
  else if s.termination.any (·.reason ≠ .humanHandoffCompleted) then .failed
  else .done

/-- `(output?.toString() || '').substring(0, 500)` -/
def outputSummary (cfg : Config) : Governance.JsOutput → Except String String
  | .undefined => .ok ""
  | .json .null => .ok ""
  | .json (.str text) => .ok (String.ofList (text.toList.take 500))
  | output => (cfg.toText output).map fun text => String.ofList (text.toList.take 500)

/-- What the stamps of a run come to. -/
def summarize (stamps : List AIProviderRuntimeStamp) : Option AIProviderSummary :=
  let values (part : AIProviderRuntimeStamp → Option String) : List String :=
    stamps.filterMap fun stamp => nonEmpty (part stamp)
  if stamps.isEmpty then none
  else
    some
      { orgPolicyKeys := distinct (values (·.orgPolicyKey))
        routingModes := distinct (values (·.routingMode))
        primaryProviderConfigKey := (values (·.providerConfigKey)).head?
        selectedProviderConfigKeys := distinct (values (·.providerConfigKey))
        selectedProviderKinds := distinct (values (·.providerKind))
        selectedModelIds := distinct (values (·.modelId))
        migrationStates := distinct (values (·.migrationState))
        resolutionSources := distinct (values (·.resolutionSource)) }

/-- `buildAIProviderSummary` -/
def buildAIProviderSummary (steps : List ReActStepData) : Option AIProviderSummary :=
  summarize (steps.filterMap (·.aiProviderStamp))

structure ExecutionResult where
  status : ExecutionStatus
  steps : List ReActStepData

/-- `meteringUpdate` -/
def metering (s : LoopState) (finalOutput : String) : ExecutionPatch where
  totalInputTokens := some (s.steps.map (·.tokensUsed.input)).sum
  totalOutputTokens := some (s.steps.map (·.tokensUsed.output)).sum
  aiProviderSummary := some (buildAIProviderSummary s.steps)
  outputSummary := some finalOutput

/-- The closeout: a paused run leaves the status as it is. -/
def closeOut (cfg : Config) (execution : AgentExecution) (s : LoopState) : Act ExecutionResult := do
  let finalOutput ← Act.ofExcept (outputSummary cfg
    ((s.steps.getLast?.map (·.observation.output)).getD .undefined))
  let status := finalStatus s
  if status = .guardrailPending then
    await (.transaction
      { execution.event .executionPaused with approvalInstanceId := s.paused }
      (some (metering s finalOutput)))
  else
    await (.transaction
      { execution.event (if status = .failed then .executionFailed else .executionCompleted) with
        status := some status
        terminationReason := s.termination.map (·.reason) }
      (some { metering s finalOutput with
        status := some status
        completedAt := true }))
  .ret { status, steps := s.steps }

/-! ## Running -/

/-- The tier that the budget policy forces. -/
def forcedTier : BudgetDecision → Act (Option Nat)
  | .allow => .ret none
  | .pause => .throw "Smart Cap budget exhausted. Agent execution paused by budget policy."
  | .downgrade modelTier => .ret (some modelTier)

/-- `if (dac) { enterAgentRequestContext(…) }` -/
def bindPrincipal (execution : AgentExecution) (context : ExecutionContext) : Act Unit :=
  match context.dataAccessContext with
  | none => .ret ()
  | some dac => await (.enterAgentRequestContext dac execution.id)

/-- The `try` block of `executeWithinGovernorContext`. -/
def executeBody (cfg : Config) (execution : AgentExecution) (resume : Option ResumeContext)
    (authenticatedCaller : Option Caller) : Act ExecutionResult := do
  match ← await (.findAgent execution.agentId none) with
  | none => .throw ("Agent not found: " ++ toString execution.agentId)
  | some agent =>
    await (.transaction (execution.event .executionStarted) none)
    let budgetDecision ← await (.preflight execution.workspaceId execution.agentId)
    let forceTier ← forcedTier budgetDecision
    let context ← await (.buildContext agent execution.workspaceId execution.id authenticatedCaller)
    bindPrincipal execution context
    let initialSteps ← resumedSteps cfg execution context resume
    let prompt ← effectivePrompt agent execution.rawInput
    let s ← runReActLoop cfg execution context prompt forceTier initialSteps
    closeOut cfg execution s

/-- `ExecutorEngineService.execute` -/
def execute (cfg : Config) (execution : AgentExecution) (resume : Option ResumeContext)
    (authenticatedCaller : Option Caller) : Act ExecutionResult := do
  match ← (executeBody cfg execution resume authenticatedCaller).attempt with
  | .ok result => .ret result
  | .error message => do
    await (.transaction (execution.event .executionFailed)
      (some
        { status := some .failed
          outputSummary := some message
          completedAt := true }))
    .ret { status := .failed, steps := [] }

/-- The input of `runSync`. -/
structure RunInput where
  workspaceId : Id
  agentId : Id
  rawInput : String
  triggeredBy : Option Id
  authenticatedCaller : Option Caller
  triggerSource : String
  triggerPayload : Option TriggerPayload

/-- `ExecutorEngineService.runSync`; the result is the id of the execution. -/
def runSync (cfg : Config) (input : RunInput) : Act Id := do
  await (.assertExecutionAllowed input.workspaceId)
  match ← await (.findAgent input.agentId (some input.workspaceId)) with
  | none =>
    .throw ("Agent " ++ toString input.agentId ++ " not found in workspace " ++
      toString input.workspaceId)
  | some _ =>
    let saved ← await (.createExecution
      { workspaceId := input.workspaceId
        agentId := input.agentId
        triggerSource := input.triggerSource
        triggeredBy := input.triggeredBy
        triggerPayload := input.triggerPayload
        rawInput := input.rawInput
        status := .pending })
    let _ ← execute cfg saved none input.authenticatedCaller
    .ret saved.id

end NexusClaw.AgentRuntime
