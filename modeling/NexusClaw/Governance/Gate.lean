import NexusClaw.Governance.ApprovalEngine
import NexusClaw.Governance.ExecutionStateMachine
import NexusClaw.Governance.ToolCallLifecycle

/-!
# Gate service

`sidecar/src/gate.ts`: the governance gate for tools that the caller executes itself. `gate` opens an
execution with one tool-call record and answers allow, paused or blocked; `complete` reports the
outcome of the call and closes both.
-/

namespace NexusClaw.Governance
open Concurrent

inductive GateResult where
  | allow (executionId toolCallId : Id)
  | paused (executionId toolCallId approvalId : Id) (riskLevel : String)
  | blocked (executionId toolCallId : Id) (reason : String)
deriving DecidableEq, Repr

/-- The row that `gate` inserts. -/
def gateExecution (cfg : Config) (toolName : String) : AgentExecution where
  workspaceId := cfg.workspaceId
  agentId := cfg.agentId
  triggerSource := .governanceGate
  triggerPayload := none
  rawInput := "gate:" ++ toolName
  status := .running

def gateStarted (cfg : Config) (executionId : Id) (toolName : String) : OutboxEvent where
  workspaceId := cfg.workspaceId
  eventType := .executionStarted
  aggregateId := executionId
  payload :=
    { workspaceId := cfg.workspaceId
      executionId := some executionId
      toolName := some toolName
      source := some "governance_gate" }

def gatePaused (cfg : Config) (executionId : Id) (toolName riskLevel : String) (approvalId : Id) :
    OutboxEvent where
  workspaceId := cfg.workspaceId
  eventType := .executionPaused
  aggregateId := executionId
  payload :=
    { workspaceId := cfg.workspaceId
      executionId := some executionId
      toolName := some toolName
      riskLevel := some riskLevel
      approvalInstanceId := some approvalId }

/-- The denial and the block of `gate`: the record takes the refusal, the execution fails. -/
def refuseCall (executionId callId : Id) (patch : ToolCallPatch) (reason : String) :
    Act GateResult := do
  transition callId [.started] patch
  updateExecution executionId
    { status := some .failed
      completedAt := true
      outputSummary := some reason }
  pure (.blocked executionId callId reason)

/-- The L2/L3 branch of `gate`. -/
def pauseCall (cfg : Config) (executionId callId : Id) (toolName : String) (toolInput : Json)
    (evaluation : GuardrailEvaluation) : Act GateResult := do
  let approval ← createAgentApproval cfg
    { workspaceId := cfg.workspaceId
      agentExecutionId := executionId
      toolName
      toolInput
      riskLevel := evaluation.riskLevel
      description := evaluation.ruleName.getD toolName }
  transition callId [.started]
    { status := .requiresApproval
      permissionCheck := some .passed
      guardrailCheck := some .escalated }
  let status ← Act.ofExcept (handleStateTransition .running .guardrailPending)
  updateExecution executionId { status := some status }
  enqueue (gatePaused cfg executionId toolName evaluation.riskLevel approval.id)
  pure (.paused executionId callId approval.id evaluation.riskLevel)

/-- `GateService.gate` after the tool-call record is there. -/
def judgeCall (cfg : Config) (executionId callId : Id) (toolName : String) (toolInput : Json) :
    Act GateResult := do
  if !checkToolAccess toolName cfg.allowedTools [] then
    refuseCall executionId callId
      { status := .denied
        permissionCheck := some .denied
        permissionDetail := some (some ("TOOL_NOT_ALLOWED:" ++ toolName))
        guardrailCheck := some .blocked
        errorCode := some (some "TOOL_NOT_ALLOWED") }
      ("TOOL_NOT_ALLOWED:" ++ toolName)
  else
    let evaluation ← Act.ofExcept (evaluate cfg cfg.workspaceId toolName toolInput [])
    if evaluation.riskLevel = "L4" then
      refuseCall executionId callId
        { status := .blocked
          permissionCheck := some .passed
          guardrailCheck := some .blocked
          errorCode := some (some ("GUARDRAIL_BLOCKED:" ++ toolName)) }
        ("GUARDRAIL_BLOCKED:" ++ toolName)
    else if evaluation.matched ∧ (evaluation.riskLevel = "L2" ∨ evaluation.riskLevel = "L3") then
      pauseCall cfg executionId callId toolName toolInput evaluation
    else pure (.allow executionId callId)

/-- `GateService.gate` -/
def gate (cfg : Config) (toolName : String) (toolInput : Json) : Act GateResult := do
  let execution ← createExecution (gateExecution cfg toolName)
  enqueue (gateStarted cfg execution.id toolName)
  let call ← begin toolName "governed_gate" execution.id cfg.workspaceId
  judgeCall cfg execution.id call.id toolName toolInput

/-! ## Completion -/

/-- The `outcome` argument of `complete`. -/
structure GateOutcome where
  success : Bool
  output : JsOutput

/-- The status of the tool-call record that an outcome stands for. -/
def GateOutcome.callStatus (outcome : GateOutcome) : ToolCallStatus :=
  if outcome.success then .succeeded else .failed

def GateOutcome.executionStatus (outcome : GateOutcome) : ExecutionStatus :=
  if outcome.success then .done else .failed

def GateOutcome.eventType (outcome : GateOutcome) : EventType :=
  if outcome.success then .executionCompleted else .executionFailed

def gateCompleted (cfg : Config) (executionId : Id) (outcome : GateOutcome) : OutboxEvent where
  workspaceId := cfg.workspaceId
  eventType := outcome.eventType
  aggregateId := executionId
  payload :=
    { workspaceId := cfg.workspaceId
      executionId := some executionId
      source := some "governance_gate"
      success := some outcome.success }

/-- `finalize` only accepts a record that is started or running, so an approved one is moved on. -/
def resumeCall (call : ToolCallRecord) : Act Unit :=
  if call.status = .requiresApproval then
    transition call.id [.requiresApproval] { status := .running }
  else pure ()

def GateOutcome.finalizeInput (outcome : GateOutcome) : ToolCallFinalizeInput where
  status := outcome.callStatus
  output := outcome.output
  permissionCheck := .passed
  guardrailCheck := .passed
  errorCode := if outcome.success then none else some "GATE_TOOL_REPORTED_FAILURE"

/-- `complete` from the finalisation of the record to the end. -/
def closeCall (cfg : Config) (executionId callId : Id) (outcome : GateOutcome) : Act Unit := do
  finalize callId outcome.finalizeInput
  let status ← Act.ofExcept (handleStateTransition .running outcome.executionStatus)
  updateExecution executionId { status := some status, completedAt := true }
  enqueue (gateCompleted cfg executionId outcome)

/-- `GateService.complete` -/
def complete (cfg : Config) (executionId : Id) (outcome : GateOutcome) : Act Unit := do
  let execution ← findExecutionOrFail executionId
  if execution.status ≠ .running then .throw "GATE_EXECUTION_NOT_AWAITING_COMPLETION"
  else
    let calls ← findToolCalls executionId
    match calls with
    | [] => .throw "GATE_TOOL_CALL_MISSING"
    | call :: _ =>
      resumeCall call
      closeCall cfg executionId call.id outcome

end NexusClaw.Governance
