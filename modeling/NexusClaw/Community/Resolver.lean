import NexusClaw.AgentRuntime.Executor

/-!
# The Community resolver

`community-agent-runtime.resolver.ts`: `communityExecuteAgent`, `communityPendingApprovals` and
`communityDecideApproval`, with the decoder of the paused call.
-/

namespace NexusClaw.Community
open Concurrent AgentRuntime
open Governance (Id ExecutionStatus)

/-- `CommunityPrincipal` -/
structure CommunityPrincipal where
  id : Id
  roleId : Id
  defaultWorkspaceId : Id
  orgNodeId : Option Id

/-- The `authenticatedCaller` of a principal. -/
def CommunityPrincipal.caller (principal : CommunityPrincipal) : Caller where
  userId := principal.id
  roleId := principal.roleId
  workspaceId := principal.defaultWorkspaceId
  orgNodeId := principal.orgNodeId

/-! ## Executing an agent -/

/-- `communityExecuteAgent` -/
def executeAgent (cfg : Config) (agentId : Id) (input : String) (principal : CommunityPrincipal) :
    Act AgentExecution := do
  let text := trim input
  if text = "" then .throw "Agent task input must not be empty"
  else
    await (.assertExecutionAllowed principal.defaultWorkspaceId)
    let executionId ← runSync cfg
      { workspaceId := principal.defaultWorkspaceId
        agentId
        rawInput := text
        triggeredBy := some principal.id
        authenticatedCaller := some principal.caller
        triggerSource := "community_api"
        triggerPayload := some { actorType := "human_user", actorId := principal.id } }
    match ← await (.findExecution executionId (some principal.defaultWorkspaceId)) with
    | none => .throw "Execution audit row not found"
    | some execution => .ret execution

/-! ## The paused call -/

/-- `PausedToolCall`, of which the code checks the name only. -/
structure PausedToolCall where
  toolName : String
  toolInput : Option Json
  riskLevel : Option Json
  description : Option Json

/-- What `JSON.parse` made of a text behind the marker, if it names a tool. -/
def PausedToolCall.ofJson (v : Json) : Option PausedToolCall :=
  ((v.get? "toolName").bind Json.asString).map fun toolName =>
    { toolName
      toolInput := v.get? "toolInput"
      riskLevel := v.get? "riskLevel"
      description := v.get? "description" }

/-- The paused call of one entry; a malformed one is skipped. -/
def pausedCallOf (cfg : Config) (entry : ApprovalHistoryEntry) : Option PausedToolCall :=
  (Governance.afterMarker (entry.comments.getD "")).bind fun text =>
    (Json.parse cfg.fmt text.toList).bind PausedToolCall.ofJson

/-- `parsePausedToolCall` -/
def parsePausedToolCall (cfg : Config) (history : List ApprovalHistoryEntry) :
    Option PausedToolCall :=
  history.findSome? (pausedCallOf cfg)

/-! ## Pending approvals -/

structure CommunityPendingApproval where
  id : Id
  executionId : Id
  toolName : String
  riskLevel : Option Json
  description : Option Json
  toolInput : Json

/-- What the list shows of a row. -/
def project (cfg : Config) (row : ApprovalInstance) : Option CommunityPendingApproval :=
  (parsePausedToolCall cfg row.history).map fun paused =>
    { id := row.id
      executionId := row.recordId
      toolName := paused.toolName
      riskLevel := paused.riskLevel
      description := paused.description
      toolInput := Json.nullish paused.toolInput .empty }

/-- `communityPendingApprovals` -/
def pendingApprovals (cfg : Config) (principal : CommunityPrincipal) :
    Act (List CommunityPendingApproval) := do
  let rows ← await (.findPendingApprovals principal.defaultWorkspaceId)
  .ret (rows.filterMap (project cfg))

/-! ## Deciding -/

inductive Decision where
  | approved
  | rejected
deriving DecidableEq, Repr

/-- `decision.trim().toUpperCase()`, where it is one of the two. -/
def Decision.ofText (decision : String) : Option Decision :=
  let normalized := (trim decision).toUpper
  if normalized = "APPROVED" then some .approved
  else if normalized = "REJECTED" then some .rejected
  else none

def Decision.status : Decision → Governance.ApprovalStatus
  | .approved => .approved
  | .rejected => .rejected

def Decision.action : Decision → Governance.HistoryAction
  | .approved => .approved
  | .rejected => .rejected

structure CommunityApprovalDecisionResult where
  instanceId : Id
  decision : Decision
  executionId : Id
  executionStatus : ExecutionStatus
deriving DecidableEq, Repr

/-- The instance as the decision saves it. -/
def decided (row : ApprovalInstance) (decision : Decision) (comment : Option String)
    (principal : CommunityPrincipal) : ApprovalInstance :=
  { row with
    history := row.history ++
      [{ stepIndex := row.currentStepIndex + 1
         action := decision.action
         actorId := some principal.id
         comments := some (comment.getD "") }]
    status := decision.status
    completedAt := true }

/-- The checks before the decision is saved: the rows it is made on and the paused call. -/
def readPaused (cfg : Config) (instanceId workspaceId : Id) :
    Act (ApprovalInstance × AgentExecution × PausedToolCall) := do
  match (← await (.findApproval instanceId workspaceId)).filter
      (·.objectName = "AgentExecution") with
  | none => .throw "Approval instance not found"
  | some row =>
    if row.status ≠ .pending then .throw "APPROVAL_ALREADY_DECIDED"
    else
      match parsePausedToolCall cfg row.history with
      | none => .throw "APPROVAL_PAUSED_TOOL_CALL_MISSING"
      | some paused => do
        match ← await (.findExecution row.recordId (some workspaceId)) with
        | none => .throw "Paused execution not found"
        | some execution =>
          if execution.status ≠ .guardrailPending then .throw "EXECUTION_NOT_AWAITING_APPROVAL"
          else .ret (row, execution, paused)

/-- What follows a saved rejection. -/
def cancelPaused (row : ApprovalInstance) (execution : AgentExecution) :
    Act CommunityApprovalDecisionResult := do
  await (.transaction
    { execution.event .executionCancelled with approvalInstanceId := some row.id }
    (some { status := some .cancelled, completedAt := true }))
  .ret
    { instanceId := row.id
      decision := .rejected
      executionId := execution.id
      executionStatus := .cancelled }

/-- What follows a saved approval. -/
def resumePaused (cfg : Config) (row : ApprovalInstance) (execution : AgentExecution)
    (paused : PausedToolCall) (workspaceId : Id) : Act CommunityApprovalDecisionResult := do
  let validatedStatus ← Act.ofExcept
    (Governance.handleStateTransition execution.status .running)
  await (.updateExecution execution.id validatedStatus)
  let execution := { execution with status := validatedStatus }
  let resume : ResumeContext :=
    { approvalInstanceId := row.id
      toolName := paused.toolName
      toolInput := paused.toolInput
      call := row.request.call }
  -- the decision does not say for whom the run goes on
  let _ ← execute cfg execution (some resume) none
  let refreshed ← await (.findExecution execution.id (some workspaceId))
  .ret
    { instanceId := row.id
      decision := .approved
      executionId := execution.id
      executionStatus := (refreshed.map (·.status)).getD execution.status }

/-- `communityDecideApproval` -/
def decideApproval (cfg : Config) (instanceId : Id) (decision : String) (comment : Option String)
    (principal : CommunityPrincipal) : Act CommunityApprovalDecisionResult :=
  match Decision.ofText decision with
  | none => .throw "Decision must be APPROVED or REJECTED"
  | some decision => do
    let (row, execution, paused) ← readPaused cfg instanceId principal.defaultWorkspaceId
    await (.saveApproval (decided row decision comment principal))
    match decision with
    | .rejected => cancelPaused row execution
    | .approved => resumePaused cfg row execution paused principal.defaultWorkspaceId

end NexusClaw.Community
