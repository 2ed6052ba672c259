import NexusClaw.JsonText
import NexusClaw.Governance.ExecutionStateMachine
import NexusClaw.Governance.Store

/-!
# Rows and values of the backend runtime

The entities of `packages/backend` with the columns that the executor engine, the tool registry and
the Community resolver read or write, and the values they pass on (`agent-runtime/interfaces`).
Statuses, checks and the execution state machine are those of the governance packages, of which the
backend holds a copy. Identifiers are `uuid` columns and are natural numbers here, a date column
that is only ever tested for being set is a `Bool`, and the store assigns `id` on insertion.

A model proposes a tool call at one point of one run. A number stands for that point (`call`): an
approval keeps it next to its request and an invocation of a tool keeps it too, so that a statement
about the store can say which proposal an invocation belongs to. No modelled function reads it.
-/

namespace NexusClaw.AgentRuntime
open Governance (Id ExecutionStatus ApprovalStatus HistoryAction JsOutput PermissionCheck
  GuardrailCheck ToolCallStatus)

/-! ## Agents and permissions -/

/-- A rule of `sensitiveOps`: the row as it is stored. -/
abbrev SensitiveOpRule := Json

/-- A property of a rule that is a text; the mutations store rules whose `operation`, `toolPattern`,
`riskLevel` and `action` are texts, and whose `description` is one or not there. -/
def SensitiveOpRule.textOf (rule : SensitiveOpRule) (field : String) : String :=
  ((rule.get? field).bind Json.asString).getD ""

/-- `guardrailRules.execution` -/
structure ExecutionRules where
  maxReActIterations : Option Rat := none
  timeoutMs : Option Rat := none

/-- The `guardrailRules` column; a property of another type than the one read is absent, but for
`sensitiveOps`, which is stored as it is. -/
structure GuardrailRules where
  allowedTools : List String := []
  sensitiveOps : Option Json := none
  execution : ExecutionRules := {}
  ruleIds : Option (List String) := none

structure Agent where
  id : Id := 0
  workspaceId : Id
  name : String := ""
  apiName : String := ""
  version : Nat := 0
  prompt : Option String := none
  roleId : Option Id := none
  serviceUserId : Option Id := none
  orgNodeId : Option Id := none
  guardrailRules : GuardrailRules := {}
  planningEnabled : Bool := false

/-- The columns of `agents` that a change of the configuration sets. -/
structure AgentPatch where
  prompt : Option String
  guardrailRules : GuardrailRules
  version : Nat

def Agent.patch (row : Agent) (p : AgentPatch) : Agent :=
  { row with
    prompt := p.prompt.orElse fun _ => row.prompt
    guardrailRules := p.guardrailRules
    version := p.version }

/-- `CommunityExecutionConstraintsInput`; an absent value is `null` or not there. -/
structure ExecutionConstraintsInput where
  maxReActIterations : Option Int := none
  timeoutMs : Option Int := none

/-- `CommunityUpdateAgentConfigInput`; an absent value is `null` or not there. -/
structure UpdateAgentConfigInput where
  prompt : Option String := none
  allowedTools : Option (List String) := none
  sensitiveOps : Option Json := none
  execution : Option ExecutionConstraintsInput := none

/-- A row of `object_permissions`. -/
structure ObjectGrant where
  roleId : Id
  objectMetadataId : Id
  canRead : Bool
  canCreate : Bool
  canEdit : Bool
  canDelete : Bool
deriving DecidableEq, Repr

structure ObjectMetadata where
  id : Id
  workspaceId : Id
  nameSingular : String
deriving DecidableEq, Repr

/-- `AuthenticatedExecutionCaller` -/
structure Caller where
  userId : Id
  roleId : Id
  workspaceId : Id
  orgNodeId : Option Id
deriving DecidableEq, Repr

/-! ## Execution context -/

structure ObjectPermission where
  objectApiName : String
  canRead : Bool
  canCreate : Bool
  canUpdate : Bool
  canDelete : Bool
deriving DecidableEq, Repr

inductive DataScope where
  | orgSubtree (orgNodeId : Id) (orgSubtreeIds : List Id)
  | own (orgNodeId : Option Id)
deriving DecidableEq, Repr

inductive ActorType where
  | agent
  | user
deriving DecidableEq, Repr

structure Security where
  agentId : Id
  roleId : Id
  objectPermissions : List ObjectPermission
  dataScope : DataScope
  sensitiveOps : List SensitiveOpRule
deriving DecidableEq, Repr

structure Constraints where
  maxTokens : Int
  maxOutputTokensPerStep : Option Int
  maxStepTokens : Option Int
  timeoutMs : Rat
  maxToolCalls : Nat
  allowedTools : List String
  maxReActIterations : Nat
  maxToolRetryAttempts : Option Int
  sensitiveOps : List SensitiveOpRule
  guardrailRuleIds : Option (List String)
deriving DecidableEq, Repr

/-- `ToolApprovalGrant` of the approval path that carries no durable payload. -/
structure ApprovalGrant where
  toolName : String
  approvalInstanceId : Id
deriving DecidableEq, Repr

/-- `AgentExecutionContext` without a release snapshot. -/
structure ExecutionContext where
  executionId : Id
  workspaceId : Id
  triggeredBy : Option Id
  actorType : ActorType
  actorId : Id
  security : Security
  constraints : Constraints
  approvalGrant : Option ApprovalGrant := none
  dataAccessContext : Option Caller
deriving DecidableEq, Repr

/-! ## Executions and steps -/

/-- `AIProviderRuntimeStamp` with the parts that the summary reads; a part that is `null` is absent. -/
structure AIProviderRuntimeStamp where
  providerConfigKey : Option String := none
  orgPolicyKey : Option String := none
  routingMode : Option String := none
  providerKind : Option String := none
  modelId : Option String := none
  migrationState : Option String := none
  resolutionSource : Option String := none
deriving DecidableEq, Repr

/-- What `buildAIProviderSummary` returns. -/
structure AIProviderSummary where
  providerFamily : String := "ai"
  orgPolicyKeys : List String
  routingModes : List String
  primaryProviderConfigKey : Option String
  selectedProviderConfigKeys : List String
  selectedProviderKinds : List String
  selectedModelIds : List String
  migrationStates : List String
  resolutionSources : List String
deriving DecidableEq, Repr

/-- `triggerPayload` -/
structure TriggerPayload where
  actorType : String
  actorId : Id
deriving DecidableEq, Repr

structure AgentExecution where
  id : Id := 0
  workspaceId : Id
  agentId : Id
  triggerSource : String
  triggeredBy : Option Id
  triggerPayload : Option TriggerPayload
  rawInput : String
  status : ExecutionStatus
  totalInputTokens : Nat := 0
  totalOutputTokens : Nat := 0
  aiProviderSummary : Option AIProviderSummary := none
  outputSummary : Option String := none
  completedAt : Bool := false
deriving DecidableEq, Repr

/-- The columns of `agent_executions` that an update sets; an absent one stays as it is. -/
structure ExecutionPatch where
  status : Option ExecutionStatus := none
  totalInputTokens : Option Nat := none
  totalOutputTokens : Option Nat := none
  aiProviderSummary : Option (Option AIProviderSummary) := none
  outputSummary : Option String := none
  completedAt : Bool := false

def AgentExecution.patch (row : AgentExecution) (p : ExecutionPatch) : AgentExecution :=
  { row with
    status := p.status.getD row.status
    totalInputTokens := p.totalInputTokens.getD row.totalInputTokens
    totalOutputTokens := p.totalOutputTokens.getD row.totalOutputTokens
    aiProviderSummary := p.aiProviderSummary.getD row.aiProviderSummary
    outputSummary := p.outputSummary.orElse fun _ => row.outputSummary
    completedAt := row.completedAt || p.completedAt }

/-- An update sets the status or keeps it. -/
@[simp] lemma AgentExecution.patch_status (row : AgentExecution) (p : ExecutionPatch) :
    (row.patch p).status = p.status.getD row.status := rfl

/-- An update keeps the workspace. -/
@[simp] lemma AgentExecution.patch_workspaceId (row : AgentExecution) (p : ExecutionPatch) :
    (row.patch p).workspaceId = row.workspaceId := rfl

/-- An update keeps the agent. -/
@[simp] lemma AgentExecution.patch_agentId (row : AgentExecution) (p : ExecutionPatch) :
    (row.patch p).agentId = row.agentId := rfl

structure Thought where
  reasoning : String
  plan : String
  confidence : Rat
deriving DecidableEq, Repr

inductive ActionType where
  | toolCall
  | llmGenerate
  | humanHandoff
  | finish
deriving DecidableEq, Repr

/-- `ReActStepData['action']`; a property that is there holds whatever the model or a column put into
it, `null` included. -/
structure Action where
  type : ActionType
  toolName : Option Json := none
  toolInput : Option Json := none
  generatePrompt : Option Json := none

/-- The name of the tool, where it is a text. -/
def Action.name (action : Action) : Option String :=
  action.toolName.bind Json.asString

inductive TerminationReason where
  | toolNonRetryable
  | toolRetriesExhausted
  | tokenBudget
  | stepTokenBudget
  | maxSteps
  | maxToolCalls
  | toolCallJitter
  | modelResponseInvalid
  | wallClockTimeout
  | humanHandoffCompleted
deriving DecidableEq, Repr

inductive ErrorClass where
  | governor
  | permission
  | validation
  | network
  | unknown
deriving DecidableEq, Repr

structure Termination where
  reason : TerminationReason
  rootCause : String
  toolName : Option Json := none
  errorClass : Option ErrorClass := none
  retryCount : Option Nat := none

structure Observation where
  success : Bool
  output : JsOutput
  error : Option String := none
  guardrailTriggered : Bool := false
  termination : Option Termination := none

structure TokensUsed where
  input : Nat
  output : Nat
deriving DecidableEq, Repr

/-- `ReActStepData` -/
structure ReActStepData where
  iteration : Nat
  thought : Thought
  action : Action
  observation : Observation
  tokensUsed : TokensUsed
  model : String
  aiProviderStamp : Option AIProviderRuntimeStamp := none

/-- A row of `react_steps`; there is no column for the termination. The store keeps what was written, and
`ReactStep.loaded` is what the columns give back. -/
structure ReactStep where
  id : Id := 0
  executionId : Id
  stepIndex : Nat
  thought : Thought
  action : Action
  observationSuccess : Bool
  observationOutput : JsOutput
  observationError : Option String
  guardrailTriggered : Bool
  tokensUsed : TokensUsed
  model : String
  aiProviderStamp : Option AIProviderRuntimeStamp

/-! ## Approvals -/

/-- `ExecutionApprovalRequest` with the call it is made for; of the preparation only its presence is
read. -/
structure ApprovalRequest where
  workspaceId : Id
  agentExecutionId : Id
  toolName : String
  toolInput : Json
  riskLevel : String
  description : String
  prepared : Bool := false
  call : Id

/-- An entry of the `history` column. -/
structure ApprovalHistoryEntry where
  stepIndex : Nat
  action : HistoryAction
  actorId : Option Id
  comments : Option String
deriving DecidableEq, Repr

/-- A row of `approval_instances`; `request` is no column, it is the request the row was made from. -/
structure ApprovalInstance where
  id : Id := 0
  workspaceId : Id
  recordId : Id
  objectName : String
  status : ApprovalStatus
  currentStepIndex : Nat
  history : List ApprovalHistoryEntry
  completedAt : Bool := false
  request : ApprovalRequest

/-! ## Tool calls -/

/-- A row of `tool_call_records`. -/
structure ToolCallRecord where
  id : Id := 0
  executionId : Id
  toolName : String
  status : ToolCallStatus
  input : Json
  permissionCheck : Option PermissionCheck := none
  guardrailCheck : Option GuardrailCheck := none
  errorCode : Option String := none

structure ToolCallPatch where
  status : ToolCallStatus
  permissionCheck : Option PermissionCheck := none
  guardrailCheck : Option GuardrailCheck := none
  errorCode : Option String := none

def ToolCallRecord.patch (row : ToolCallRecord) (p : ToolCallPatch) : ToolCallRecord :=
  { row with
    status := p.status
    permissionCheck := p.permissionCheck
    guardrailCheck := p.guardrailCheck
    errorCode := p.errorCode }

/-- `ToolCallResult`; of a preparation only its presence is read. -/
structure ToolCallResult where
  success : Bool
  output : JsOutput
  error : Option String := none
  permissionCheck : PermissionCheck
  guardrailCheck : GuardrailCheck
  riskLevel : Option String := none
  prepared : Bool := false

/-- The type `RiskLevel`. -/
def riskLevels : List String :=
  ["L0", "L1", "L2", "L3", "L4"]

/-- `AgentTool`; `execute` is a statement, and `preparesApproval` says whether the tool has the
optional `prepareApproval`. -/
structure AgentTool where
  name : String
  category : String
  inputSchema : Json
  objectApiName : Option String
  operation : Option String
  riskLevel : String
  preparesApproval : Bool
  riskLevel_mem : riskLevel ∈ riskLevels := by decide

/-! ## The model port -/

structure ChatMessage where
  role : String
  content : String
deriving DecidableEq, Repr

structure NativeToolCall where
  name : String
  input : Json

structure ChatResponse where
  content : String
  model : String
  inputTokens : Nat
  outputTokens : Nat
  finishReason : String
  toolCalls : List NativeToolCall := []
  aiProviderStamp : Option AIProviderRuntimeStamp := none

inductive BudgetDecision where
  | allow
  | pause
  | downgrade (modelTier : Nat)
deriving DecidableEq, Repr

/-! ## Events -/

inductive EventType where
  | executionStarted
  | executionStep
  | executionPaused
  | executionCompleted
  | executionFailed
  | executionCancelled
  | agentConfigUpdated
  | agentCreated
deriving DecidableEq, Repr

/-- `completed`, `failed` and `paused` close a run. -/
def EventType.closing : EventType → Bool
  | .executionCompleted => true
  | .executionFailed => true
  | .executionPaused => true
  | _ => false

/-- A row of `outbox_events` with the parts of its payload that the model keeps. -/
structure OutboxEvent where
  id : Id := 0
  workspaceId : Id
  eventType : EventType
  aggregateId : Id
  status : Option ExecutionStatus := none
  approvalInstanceId : Option Id := none
  terminationReason : Option TerminationReason := none
  version : Option Nat := none
  changedFields : List String := []
  principalId : Option Id := none
deriving DecidableEq, Repr

/-- An event of an execution. -/
def AgentExecution.event (execution : AgentExecution) (eventType : EventType) : OutboxEvent where
  workspaceId := execution.workspaceId
  eventType
  aggregateId := execution.id

end NexusClaw.AgentRuntime
