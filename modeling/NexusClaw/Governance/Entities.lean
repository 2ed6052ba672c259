import NexusClaw.Json

/-!
# Rows of the governance store

The entities of `audit-chain`, `approval` and `outbox` with the columns that the gate, the executor,
the approval engine, the sidecar server and the MCP gateway read or write. Identifiers are `uuid`
columns and are natural numbers here; a date column that is only ever tested for being set is a
`Bool`. A patch (`ExecutionPatch`, `ApprovalPatch`, `ToolCallPatch`) is the object handed to
`repository.update`: an absent property leaves the column as it is, so a property that can also be
`null` is an option of an option. The store assigns `id` (and `createdAt`) when a row is inserted.
-/

namespace NexusClaw.Governance

/-- A `uuid` column. -/
abbrev Id := Nat

/-! ## `agent_executions` -/

/-- The `ExecutionStatus` of `@agent-governance/contracts`. -/
inductive ExecutionStatus where
  | pending
  | running
  | guardrailPending
  | done
  | failed
  | timeout
  | cancelled
deriving DecidableEq, Repr

/-- The text of the column. -/
def ExecutionStatus.text : ExecutionStatus → String
  | .pending => "pending"
  | .running => "running"
  | .guardrailPending => "guardrail_pending"
  | .done => "done"
  | .failed => "failed"
  | .timeout => "timeout"
  | .cancelled => "cancelled"

/-- The `triggerSource` values written by `ExecutorEngine.run` and by `GateService.gate`. -/
inductive TriggerSource where
  | api
  | governanceGate
deriving DecidableEq, Repr

/-- `triggerPayload.policy` -/
structure Policy where
  allowedTools : List String
  blockedTools : List String
  guardrailRuleIds : List String
deriving DecidableEq, Repr

structure AgentExecution where
  id : Id := 0
  workspaceId : Id
  agentId : Id
  triggerSource : TriggerSource
  triggerPayload : Option Policy
  rawInput : String
  status : ExecutionStatus
  outputSummary : Option String := none
  completedAt : Bool := false
  traceId : Option String := none
  correlationId : Option String := none
deriving DecidableEq, Repr

/-- The columns of `agent_executions` that an update can set. -/
structure ExecutionPatch where
  status : Option ExecutionStatus := none
  completedAt : Bool := false
  outputSummary : Option String := none

def AgentExecution.patch (row : AgentExecution) (p : ExecutionPatch) : AgentExecution :=
  { row with
    status := p.status.getD row.status
    completedAt := row.completedAt || p.completedAt
    outputSummary := p.outputSummary.orElse fun _ => row.outputSummary }

/-- An update keeps the id. -/
@[simp] lemma AgentExecution.patch_id (row : AgentExecution) (p : ExecutionPatch) :
    (row.patch p).id = row.id := rfl

/-- An update sets the status or keeps it. -/
@[simp] lemma AgentExecution.patch_status (row : AgentExecution) (p : ExecutionPatch) :
    (row.patch p).status = p.status.getD row.status := rfl

/-- An update keeps the source. -/
@[simp] lemma AgentExecution.patch_triggerSource (row : AgentExecution) (p : ExecutionPatch) :
    (row.patch p).triggerSource = row.triggerSource := rfl

/-- An update never takes the end back. -/
@[simp] lemma AgentExecution.patch_completedAt (row : AgentExecution) (p : ExecutionPatch) :
    (row.patch p).completedAt = (row.completedAt || p.completedAt) := rfl

/-! ## `approval_instances` -/

inductive ApprovalStatus where
  | pending
  | approved
  | rejected
  | recalled
  | expired
deriving DecidableEq, Repr

inductive HistoryAction where
  | submitted
  | approved
  | rejected
deriving DecidableEq, Repr

/-- An entry of the `history` column. -/
structure ApprovalHistoryEntry where
  stepIndex : Nat
  stepName : String
  action : HistoryAction
  actorId : String
  actorName : String
  comments : Option String
  queueContext : Option String := none
deriving DecidableEq, Repr

inductive SubjectType where
  | agentTool
  | flowTool
  | workforceRelease
deriving DecidableEq, Repr

structure ApprovalInstance where
  id : Id := 0
  workspaceId : Id
  processId : Id
  recordId : Id
  status : ApprovalStatus
  currentStepIndex : Nat
  subjectType : Option SubjectType := none
  history : List ApprovalHistoryEntry
  completedAt : Bool := false
deriving DecidableEq, Repr

/-- The columns of `approval_instances` that an update can set. -/
structure ApprovalPatch where
  status : Option ApprovalStatus := none
  currentStepIndex : Option Nat := none
  history : Option (List ApprovalHistoryEntry) := none
  completedAt : Bool := false

def ApprovalInstance.patch (row : ApprovalInstance) (p : ApprovalPatch) : ApprovalInstance :=
  { row with
    status := p.status.getD row.status
    currentStepIndex := p.currentStepIndex.getD row.currentStepIndex
    history := p.history.getD row.history
    completedAt := row.completedAt || p.completedAt }

/-- An update keeps the id. -/
@[simp] lemma ApprovalInstance.patch_id (row : ApprovalInstance) (p : ApprovalPatch) :
    (row.patch p).id = row.id := rfl

/-- An update sets the status or keeps it. -/
@[simp] lemma ApprovalInstance.patch_status (row : ApprovalInstance) (p : ApprovalPatch) :
    (row.patch p).status = p.status.getD row.status := rfl

/-- An update keeps the execution. -/
@[simp] lemma ApprovalInstance.patch_recordId (row : ApprovalInstance) (p : ApprovalPatch) :
    (row.patch p).recordId = row.recordId := rfl

/-- An update keeps the workspace. -/
@[simp] lemma ApprovalInstance.patch_workspaceId (row : ApprovalInstance) (p : ApprovalPatch) :
    (row.patch p).workspaceId = row.workspaceId := rfl

/-- An update sets the history or keeps it. -/
@[simp] lemma ApprovalInstance.patch_history (row : ApprovalInstance) (p : ApprovalPatch) :
    (row.patch p).history = p.history.getD row.history := rfl

inductive ApproverType where
  | user
  | role
  | orgNode
  | manager
  | aiAgent
  | queue
deriving DecidableEq, Repr

inductive TimeoutAction where
  | reject
  | escalate
deriving DecidableEq, Repr

/-- A row of `approval_steps`. -/
structure ApprovalStep where
  id : Id
  approvalProcessId : Id
  stepOrder : Nat
  stepName : String
  approverType : ApproverType
  approverId : Option String
  timeoutMinutes : Option Nat
  timeoutAction : TimeoutAction
deriving DecidableEq, Repr

/-! ## `tool_call_records` -/

inductive ToolCallStatus where
  | started
  | denied
  | blocked
  | requiresApproval
  | running
  | succeeded
  | failed
  | completionUnknown
deriving DecidableEq, Repr

/-- The text of the column. -/
def ToolCallStatus.text : ToolCallStatus → String
  | .started => "STARTED"
  | .denied => "DENIED"
  | .blocked => "BLOCKED"
  | .requiresApproval => "REQUIRES_APPROVAL"
  | .running => "RUNNING"
  | .succeeded => "SUCCEEDED"
  | .failed => "FAILED"
  | .completionUnknown => "COMPLETION_UNKNOWN"

inductive PermissionCheck where
  | passed
  | denied
deriving DecidableEq, Repr

inductive GuardrailCheck where
  | passed
  | escalated
  | blocked
deriving DecidableEq, Repr

structure ToolCallRecord where
  id : Id := 0
  executionId : Id
  workspaceId : Id
  toolName : String
  toolCategory : String
  status : ToolCallStatus
  permissionCheck : Option PermissionCheck := none
  permissionDetail : Option String := none
  guardrailCheck : Option GuardrailCheck := none
  errorCode : Option String := none
deriving DecidableEq, Repr

/-- The patch of `ToolCallLifecycleService.transition`; it always sets the status. -/
structure ToolCallPatch where
  status : ToolCallStatus
  permissionCheck : Option PermissionCheck := none
  permissionDetail : Option (Option String) := none
  guardrailCheck : Option GuardrailCheck := none
  errorCode : Option (Option String) := none

def ToolCallRecord.patch (row : ToolCallRecord) (p : ToolCallPatch) : ToolCallRecord :=
  { row with
    status := p.status
    permissionCheck := p.permissionCheck.orElse fun _ => row.permissionCheck
    permissionDetail := p.permissionDetail.getD row.permissionDetail
    guardrailCheck := p.guardrailCheck.orElse fun _ => row.guardrailCheck
    errorCode := p.errorCode.getD row.errorCode }

/-- An update keeps the id. -/
@[simp] lemma ToolCallRecord.patch_id (row : ToolCallRecord) (p : ToolCallPatch) :
    (row.patch p).id = row.id := rfl

/-- An update keeps the execution. -/
@[simp] lemma ToolCallRecord.patch_executionId (row : ToolCallRecord) (p : ToolCallPatch) :
    (row.patch p).executionId = row.executionId := rfl

/-- An update sets the status or keeps it. -/
@[simp] lemma ToolCallRecord.patch_status (row : ToolCallRecord) (p : ToolCallPatch) :
    (row.patch p).status = p.status := rfl

/-! ## `react_steps` -/

inductive ActionType where
  | toolCall
  | finish
deriving DecidableEq, Repr

/-- Which call of `persistStep` wrote a row: the one in the loop or the one in `resumePaused` that
records the step of the given approval. No column of the table; it lets statements speak about the
"approved resume" step without relying on its text, which the model could repeat. -/
inductive Origin where
  | loop
  | resume (approvalInstanceId : Id)
deriving DecidableEq, Repr

structure ReactStep where
  id : Id := 0
  executionId : Id
  stepIndex : Nat
  thoughtReasoning : Option Json
  thoughtPlan : Option Json
  thoughtConfidence : Option Json
  actionType : ActionType
  toolName : Option Json
  toolInput : Option Json
  generatePrompt : Option Json
  observationSuccess : Bool
  observationOutput : Json
  observationError : Option String
  guardrailTriggered : Bool
  origin : Origin

/-! ## `outbox_events` -/

/-- The event types the governance kernel enqueues on `AGENT_EVENTS`. -/
inductive EventType where
  | executionStarted
  | executionPaused
  | executionCompleted
  | executionFailed
deriving DecidableEq, Repr

/-- `agent.execution.completed` and `agent.execution.failed` are the terminal events. -/
def EventType.terminal : EventType → Bool
  | .executionStarted => false
  | .executionPaused => false
  | .executionCompleted => true
  | .executionFailed => true

structure OutboxPayload where
  workspaceId : Id
  executionId : Option Id
  toolName : Option String := none
  source : Option String := none
  riskLevel : Option String := none
  approvalInstanceId : Option Id := none
  status : Option ExecutionStatus := none
  stepCount : Option Nat := none
  success : Option Bool := none
deriving DecidableEq, Repr

structure OutboxEvent where
  id : Id := 0
  workspaceId : Id
  eventType : EventType
  aggregateId : Id
  payload : OutboxPayload
  createdAt : Nat := 0
deriving DecidableEq, Repr

end NexusClaw.Governance
