import NexusClaw.Governance.Guardrail

/-!
# Approval engine

`approval/src/approval-engine.ts`: the creation of an agent approval (`createAgentApproval`), the
two operations that move an instance (`processDecision` by a conditional update, `processTimeout` by
a whole-row save) and the decoders of the paused tool call that is stored as text in the first
history entry. Instances with a `subjectType` are refused by both operations, so the governed policy
steps and the decision versions they carry are not part of the model.
-/

namespace NexusClaw.Governance
open Concurrent

/-- `AGENT_SENSITIVE_OP_PROCESS_ID` -/
def agentSensitiveOpProcessId : Id := 1

/-- An approval decision, in either spelling of the source (`'APPROVED' | 'REJECTED'`). -/
inductive Decision where
  | approved
  | rejected
deriving DecidableEq, Repr

def Decision.status : Decision → ApprovalStatus
  | .approved => .approved
  | .rejected => .rejected

def Decision.action : Decision → HistoryAction
  | .approved => .approved
  | .rejected => .rejected

/-! ## The paused tool call -/

def pausedMarker : String := "__pausedToolCall__:"

/-- The text before and after the first occurrence of `marker`. -/
def breakOn (marker : List Char) : List Char → Option (List Char × List Char)
  | [] => if marker.isPrefixOf [] then some ([], []) else none
  | c :: cs =>
    if marker.isPrefixOf (c :: cs) then some ([], (c :: cs).drop marker.length)
    else (breakOn marker cs).map fun (before, after) => (c :: before, after)

/-- `text.slice(text.indexOf(marker) + marker.length)`, if the marker occurs. -/
def afterMarker (text : String) : Option String :=
  (breakOn pausedMarker.toList text.toList).map fun (_, after) => String.ofList after

/-- `text.split(marker)[1]` -/
def betweenMarkers (text : String) : Option String :=
  (breakOn pausedMarker.toList text.toList).map fun (_, after) =>
    match breakOn pausedMarker.toList after with
    | none => String.ofList after
    | some (between, _) => String.ofList between

/-- `AgentApprovalRequest`, without the approval preparation that no caller in the kernel passes. -/
structure AgentApprovalRequest where
  workspaceId : Id
  agentExecutionId : Id
  toolName : String
  toolInput : Json
  riskLevel : String
  description : String

def AgentApprovalRequest.pausedToolCallJson (request : AgentApprovalRequest) : Json :=
  .obj
    [("toolName", .str request.toolName),
      ("toolInput", request.toolInput),
      ("riskLevel", .str request.riskLevel),
      ("description", .str request.description)]

def AgentApprovalRequest.comments (cfg : Config) (request : AgentApprovalRequest) : String :=
  "Tool: " ++ request.toolName ++ ", Risk: " ++ request.riskLevel ++ " — " ++
    request.description ++ "\n" ++ pausedMarker ++ cfg.stringify request.pausedToolCallJson

/-- The entry that `createAgentApproval` opens the history with. -/
def AgentApprovalRequest.submitted (cfg : Config) (request : AgentApprovalRequest) :
    ApprovalHistoryEntry where
  stepIndex := 0
  stepName := "Agent Sensitive Operation"
  action := .submitted
  actorId := "system"
  actorName := "Agent Runtime"
  comments := some (request.comments cfg)

/-- The row that `createAgentApproval` inserts. -/
def AgentApprovalRequest.instance (cfg : Config) (request : AgentApprovalRequest) :
    ApprovalInstance where
  workspaceId := request.workspaceId
  processId := agentSensitiveOpProcessId
  recordId := request.agentExecutionId
  status := .pending
  currentStepIndex := 0
  history := [request.submitted cfg]

/-- `createAgentApproval` -/
def createAgentApproval (cfg : Config) (request : AgentApprovalRequest) :
    Act ApprovalInstance := do
  let saved ← createApproval (request.instance cfg)
  emit (.created saved.id request.agentExecutionId request.toolName request.riskLevel)
  audit (.logGuardrailEvent request.workspaceId request.agentExecutionId request.riskLevel
    request.toolName ((request.toolInput.get? "objectApiName").bind Json.asString) saved.id
    request.description)
  pure saved

/-- The comments of the first history entry. -/
def ApprovalInstance.firstComments (row : ApprovalInstance) : Option String :=
  row.history.head?.bind (·.comments)

/-- `extractPausedToolCall`; `parsePausedToolCall` of the MCP gateway computes the same. -/
def extractPausedToolCall (cfg : Config) (row : ApprovalInstance) : Option Json := do
  let comments ← row.firstComments
  let text ← afterMarker comments
  cfg.parse text

/-! ## Steps -/

def isAgentApproval (row : ApprovalInstance) : Bool :=
  row.processId = agentSensitiveOpProcessId || row.subjectType = some .agentTool

/-- `getStepsForInstance`: agent approvals have a single implicit step. -/
def getStepsForInstance (row : ApprovalInstance) : Act (List ApprovalStep) :=
  if isAgentApproval row then pure [] else findApprovalSteps row.processId

/-- `currentStep?.stepName || 'Step n'` -/
def stepNameAt (step : Option ApprovalStep) (stepIndex : Nat) : String :=
  match step with
  | some s => if s.stepName = "" then "Step " ++ toString (stepIndex + 1) else s.stepName
  | none => "Step " ++ toString (stepIndex + 1)

/-- `canUserApproveStep`; without a current step anyone may decide. -/
def canUserApprove (step : Option ApprovalStep) (approverId : String) : Act Bool :=
  match step with
  | none => pure true
  | some s => canApprove s approverId

/-! ## Decisions -/

structure ApprovalDecision where
  instanceId : Id
  approverId : String
  approverName : String
  action : Decision
  comments : Option String
deriving DecidableEq, Repr

/-- The instance moved on to its next step. -/
def ApprovalInstance.advanced (row : ApprovalInstance) (entry : ApprovalHistoryEntry) :
    ApprovalInstance :=
  { row with
    history := row.history ++ [entry]
    currentStepIndex := row.currentStepIndex + 1 }

/-- The instance closed with a final status. -/
def ApprovalInstance.closed (row : ApprovalInstance) (status : ApprovalStatus)
    (entry : ApprovalHistoryEntry) : ApprovalInstance :=
  { row with
    history := row.history ++ [entry]
    status
    completedAt := true }

/-- The columns that a decision writes back. -/
def ApprovalInstance.decided (row : ApprovalInstance) : ApprovalPatch where
  status := some row.status
  currentStepIndex := some row.currentStepIndex
  history := some row.history
  completedAt := row.completedAt

/-- `saveDecisionFirstWriter` -/
def saveDecisionFirstWriter (row : ApprovalInstance) (expectedStepIndex : Nat) : Act Unit := do
  let affected ← updatePendingApproval row.id row.workspaceId expectedStepIndex row.decided
  if affected ≠ 1 then .throw "APPROVAL_DECISION_CONCURRENT_MODIFICATION" else pure ()

/-- What follows the conditional update runs only if the row was still the one expected. -/
lemma saveDecision_bind {α : Type} (row : ApprovalInstance) (expectedStepIndex : Nat)
    (f : Unit → Act α) :
    (saveDecisionFirstWriter row expectedStepIndex >>= f) =
      (updatePendingApproval row.id row.workspaceId expectedStepIndex row.decided >>= fun affected =>
        if affected = (1 : Nat) then f ()
        else .throw "APPROVAL_DECISION_CONCURRENT_MODIFICATION") := by
  unfold saveDecisionFirstWriter
  simp only [Prog.call_bind, Prog.stmt_bind]
  congr 1
  funext affected
  by_cases h : affected = (1 : Nat)
  · simp [h]
  · simp [h]

/-- The history entry of a decision. -/
def ApprovalDecision.entry (decision : ApprovalDecision) (stepIndex : Nat)
    (step : Option ApprovalStep) : ApprovalHistoryEntry where
  stepIndex := stepIndex
  stepName := stepNameAt step stepIndex
  action := decision.action.action
  actorId := decision.approverId
  actorName := decision.approverName
  comments := decision.comments
  queueContext := step.bind fun s => if s.approverType = .queue then s.approverId else none

/-- The events and the audit call after an approval that completes the instance. -/
def announceApproved (cfg : Config) (row : ApprovalInstance) (approverId : String) : Act Unit := do
  if isAgentApproval row then
    emit (.agentResume row.workspaceId row.recordId row.id (extractPausedToolCall cfg row))
    audit (.updateByApprovalId row.id "approved" (some approverId))
  else pure ()

/-- The events and the audit call after a rejection. -/
def announceRejected (row : ApprovalInstance) (decision : ApprovalDecision) : Act Unit := do
  if isAgentApproval row then
    emit (.agentTerminate row.workspaceId row.recordId row.id
      (if decision.comments.getD "" = "" then "Approval rejected" else decision.comments.getD ""))
    audit (.updateByApprovalId row.id "rejected" (some decision.approverId))
  else pure ()

/-- The part of `processDecision` after the approver check: `row` is the instance as it was read,
`steps` the steps of its process. -/
def recordDecision (cfg : Config) (row : ApprovalInstance) (steps : List ApprovalStep)
    (decision : ApprovalDecision) : Act ApprovalInstance := do
  let entry := decision.entry row.currentStepIndex steps[row.currentStepIndex]?
  match decision.action with
  | .approved =>
    let nextStepIndex := row.currentStepIndex + 1
    if nextStepIndex < steps.length then
      saveDecisionFirstWriter (row.advanced entry) row.currentStepIndex
      emit (.stepAdvanced row.id nextStepIndex)
      pure (row.advanced entry)
    else
      saveDecisionFirstWriter (row.closed .approved entry) row.currentStepIndex
      announceApproved cfg (row.closed .approved entry) decision.approverId
      pure (row.closed .approved entry)
  | .rejected =>
    saveDecisionFirstWriter (row.closed .rejected entry) row.currentStepIndex
    announceRejected (row.closed .rejected entry) decision
    pure (row.closed .rejected entry)

/-- `processDecision` -/
def processDecision (cfg : Config) (decision : ApprovalDecision) : Act ApprovalInstance := do
  match ← findApproval decision.instanceId with
  | none => .throw ("Approval instance " ++ toString decision.instanceId ++ " not found")
  | some row =>
    if row.subjectType.isSome then .throw "APPROVAL_V2_DECISION_OWNER_REQUIRED"
    else if row.status ≠ .pending then
      .throw ("Approval instance " ++ toString decision.instanceId ++ " is not pending")
    else
      let steps ← getStepsForInstance row
      let allowed ← canUserApprove steps[row.currentStepIndex]? decision.approverId
      if !allowed then .throw ("User " ++ decision.approverId ++ " is not the current approver")
      else recordDecision cfg row steps decision

/-! ## Timeouts -/

def TimeoutAction.text : TimeoutAction → String
  | .reject => "reject"
  | .escalate => "escalate"

/-- The history entry of a timeout. -/
def timeoutEntry (step : Option ApprovalStep) (stepIndex : Nat) (action : TimeoutAction) :
    ApprovalHistoryEntry where
  stepIndex := stepIndex
  stepName := stepNameAt step stepIndex
  action := .rejected
  actorId := "system"
  actorName := "Timeout Handler"
  comments :=
    some ("Auto-" ++ action.text ++ " due to timeout (" ++
      toString ((step.bind (·.timeoutMinutes)).getD 0) ++ " minutes)")

/-- The part of `processTimeout` that writes; the save overwrites the whole row. -/
def recordTimeout (row : ApprovalInstance) (steps : List ApprovalStep) : Act Unit := do
  let step := steps[row.currentStepIndex]?
  let action := (step.map (·.timeoutAction)).getD .reject
  let entry := timeoutEntry step row.currentStepIndex action
  let nextStepIndex := row.currentStepIndex + 1
  if action = .escalate ∧ nextStepIndex < steps.length then
    saveApproval (row.advanced entry)
    emit (.escalated row.id row.currentStepIndex nextStepIndex)
  else
    saveApproval (row.closed .rejected entry)
    if isAgentApproval row then
      audit (.updateByApprovalId row.id "timeout" none)
      emit (.agentTerminate row.workspaceId row.recordId row.id
        ("Approval timed out (auto-" ++ action.text ++ ")"))
    else pure ()

/-- `processTimeout` -/
def processTimeout (instanceId : Id) : Act Unit := do
  match ← findApproval instanceId with
  | none => pure ()
  | some row =>
    if row.status ≠ .pending then pure ()
    else if row.subjectType.isSome then .throw "APPROVAL_V2_EXPIRY_OWNER_REQUIRED"
    else
      let steps ← getStepsForInstance row
      recordTimeout row steps

end NexusClaw.Governance
