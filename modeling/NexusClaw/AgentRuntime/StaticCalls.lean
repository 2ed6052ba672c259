import NexusClaw.AgentRuntime.Grants
import NexusClaw.AuditChain.StaticBinding

/-!
# Calls of static tools

`executeTool` of `tool-framework/tool-registry.service.ts` for a static tool, with the record of the
call as `tool-call-lifecycle.service.ts` writes it: the call begins a record or takes up the one that
its grant names, and every exit moves the record from the statuses that it expects. Nobody else
writes the record, and every statement succeeds; what the tool's own code answers is an input.
-/

namespace NexusClaw.AgentRuntime.StaticCalls
open Concurrent
open Governance (Id ToolCallStatus PermissionCheck GuardrailCheck JsOutput riskOrder)
open AuditChain

/-! ## Values -/

/-- The context of a call; what is added here stands in `approvalGrant`. -/
structure StaticContext extends ExecutionContext where
  toolCallId : Option Id := none
  inputDigest : Option String := none

/-- `requiresApproval` is `status`, which has one value. -/
structure StaticResult extends ToolCallResult where
  permissionDetail : Option String := none
  duration : Int := 0
  toolCallId : Option Id := none
  requiresApproval : Bool := false
  toolName : Option String := none
  inputDigest : Option String := none

/-- The records; `inputDigest` is a column that only the insertion of a record writes. -/
structure World where
  calls : StaticBinding.World
  inputDigest : Table Id String
  guardrailLogs : List GuardrailLog

def statusOf (w : World) (id : Id) : Option ToolCallStatus :=
  (w.calls id).map (·.status)

/-- What a call meets outside the registry. `compileError` is what Ajv throws for a schema; the
answers are those of `tool.prepareApproval`, of `tool.execute` and of the owner of durable approvals,
and the tool's code may change the records but not the status of its own. -/
structure Host where
  platform : StaticBinding.Platform
  generateId : World → Id
  now : World → Nat
  compileError : Json → Option String
  prepareApproval : Except String Unit
  execute : Except String StaticResult
  approvalSubjects : Bool
  submitStaticToolSubject : Except String Unit
  preparing : Id → World → World
  executing : Id → World → World
  preparing_status : ∀ id w, statusOf (preparing id w) id = statusOf w id
  executing_status : ∀ id w, statusOf (executing id w) id = statusOf w id

/-! ## Statements -/

inductive Stmt where
  | record (s : StaticBinding.Stmt)
  | generateId
  | now
  | insert (row : StaticBinding.ToolCallRecord) (inputDigest : String)
  | findApproved (id workspaceId : Id) (toolName : String)
  | logGuardrailEvent (entry : GuardrailLog)
  | prepareApproval (id : Id) (input : Json)
  | execute (id : Id) (input : Json)
  | submitStaticToolSubject (toolName : String) (input : Json)

abbrev Resp : Stmt → Type
  | .record s => StaticBinding.Resp s
  | .generateId => Id
  | .now => Nat
  | .insert _ _ => Unit
  | .findApproved _ _ _ => Option (StaticBinding.ToolCallRecord × Option String)
  | .logGuardrailEvent _ => Unit
  | .prepareApproval _ _ => Except String Unit
  | .execute _ _ => Except String StaticResult
  | .submitStaticToolSubject _ _ => Except String Unit

def exec (host : Host) : (s : Stmt) → World → World × Resp s
  | .record s, w =>
    let r := StaticBinding.exec host.platform s w.calls
    ({ w with calls := r.1 }, r.2)
  | .generateId, w => (w, host.generateId w)
  | .now, w => (w, host.now w)
  | .insert row inputDigest, w =>
    ({ w with
        calls := w.calls.put row.id row
        inputDigest := w.inputDigest.put row.id inputDigest }, ())
  | .findApproved id workspaceId toolName, w =>
    (w, ((w.calls id).filter fun row =>
        row.workspaceId = some workspaceId && row.toolName = toolName &&
          (row.status = .requiresApproval || row.status = .running)).map
      fun row => (row, w.inputDigest id))
  | .logGuardrailEvent entry, w => ({ w with guardrailLogs := w.guardrailLogs ++ [entry] }, ())
  | .prepareApproval id _, w => (host.preparing id w, host.prepareApproval)
  | .execute id _, w => (host.executing id w, host.execute)
  | .submitStaticToolSubject _ _, w => (w, host.submitStaticToolSubject)

abbrev Act (α : Type) : Type :=
  Prog Stmt Resp String α

def await (s : Stmt) : Act (Resp s) :=
  Prog.call s

def ofExcept {α : Type} : Except String α → Act α
  | .ok a => .ret a
  | .error e => .throw e

/-- A call of the service of the records. -/
def lifecycle {α : Type} : StaticBinding.Act α → Act α
  | .ret a => .ret a
  | .throw e => .throw e
  | .stmt s k => .stmt (.record s) fun r => lifecycle (k r)

/-! ## The record of a call -/

/-- What `executeTool` reads of the record in hand, with `approvedResume`. -/
structure HeldCall where
  id : Id
  status : ToolCallStatus
  inputDigest : Option String
  approvedResume : Bool

/-- `begin` -/
def beginCall (host : Host) (toolName : String) (input : Json) (context : StaticContext) :
    Act HeldCall := do
  let preview ← ofExcept (host.platform.buildPreview input)
  let startedAt ← await .now
  let id ← await .generateId
  await (.insert
    { id
      workspaceId := some context.workspaceId
      agentExecutionId := some context.executionId
      toolName
      status := .started
      lastHeartbeatAt := some startedAt
      leaseExpiresAt := some (startedAt + (max 1 context.constraints.timeoutMs.floor).toNat) }
    preview.digest)
  .ret { id, status := .started, inputDigest := some preview.digest, approvedResume := false }

/-- The record has the binding that was approved. -/
def isBound (row : StaticBinding.ToolCallRecord) : Bool :=
  StaticBinding.truthy row.staticBindingRevisionId &&
    StaticBinding.truthy row.staticBindingChecksum && StaticBinding.truthy row.staticBindingGeneration

def resumeApprovedStatic (host : Host) (toolName : String) (input : Json)
    (context : StaticContext) : Act HeldCall :=
  match context.toolCallId, nonEmpty context.inputDigest with
  | some toolCallId, some inputDigest => do
    let preview ← ofExcept (host.platform.buildPreview input)
    if preview.digest ≠ inputDigest then .throw "TOOL_APPROVAL_GRANT_MISMATCH"
    else
      match ← await (.findApproved toolCallId context.workspaceId toolName) with
      | none => .throw "TOOL_APPROVAL_TOOL_CALL_MISMATCH"
      | some (row, digest) =>
        if digest = some inputDigest ∧ isBound row = true then
          .ret
            { id := toolCallId
              status := row.status
              inputDigest := digest
              approvedResume := true }
        else .throw "TOOL_APPROVAL_TOOL_CALL_MISMATCH"
  | _, _ => .throw "TOOL_APPROVAL_GRANT_INVALID"

/-- `context.approvalGrant?.toolName === toolName` -/
def granted (toolName : String) (context : StaticContext) : Bool :=
  context.approvalGrant.any (·.toolName = toolName)

/-- The record that the call is about. -/
def handOver (host : Host) (toolName : String) (input : Json) (context : StaticContext) :
    Act HeldCall :=
  if granted toolName context = true ∧ context.toolCallId.isSome = true then
    resumeApprovedStatic host toolName input context
  else beginCall host toolName input context

/-- `openCallStatuses` -/
def openCallStatuses (call : HeldCall) : List ToolCallStatus :=
  if call.status = .requiresApproval then [.requiresApproval] else [.started]

/-! ## Checks -/

/-- What the checks before the execution say of a call; the first that fails decides. -/
inductive Verdict where
  | notAllowed
  | invalid (error : String)
  | denied (reason errorCode : String)
  | blocked
  | escalated
  | admitted

/-- Step 2 of `executeTool`. -/
def schemaRefusal (cfg : Config) (host : Host) (tool : AgentTool) (input : Json) :
    Except String (Option String) :=
  if Json.truthy (some tool.inputSchema) then
    match host.compileError tool.inputSchema with
    | some e => .error e
    | none => .ok (cfg.schemaError tool.inputSchema input)
  else .ok none

/-- Step 4 of `executeTool`. -/
def riskVerdict (tool : AgentTool) (context : StaticContext) : Verdict :=
  if 4 ≤ riskOrder tool.riskLevel then .blocked
  else if 3 ≤ riskOrder tool.riskLevel ∧ granted tool.name context = false then .escalated
  else .admitted

/-- Steps 1 to 4 of `executeTool`; none of them writes. -/
def verdict (cfg : Config) (host : Host) (tool : AgentTool) (input : Json)
    (context : StaticContext) : Except String Verdict :=
  if tool.name ∉ context.constraints.allowedTools then .ok .notAllowed
  else do
    match ← schemaRefusal cfg host tool input with
    | some error => .ok (.invalid error)
    | none =>
      match ← permissionRefusal cfg tool input context.toExecutionContext with
      | some (reason, errorCode) => .ok (.denied reason errorCode)
      | none => .ok (riskVerdict tool context)

/-! ## Exits -/

def logGovernanceEvent (context : StaticContext) (tool : AgentTool) (operation : Option String)
    (riskLevel actionTaken : String) : Act Unit :=
  await (.logGuardrailEvent
    { executionId := context.executionId
      riskLevel
      operationType := operation.getD tool.name
      actionTaken })

/-- A refusal that is logged and closes the record. -/
def refuse (context : StaticContext) (tool : AgentTool) (operation : Option String)
    (call : HeldCall) (expected : List ToolCallStatus) (riskLevel error errorCode : String)
    (status : ToolCallStatus) (permissionCheck : PermissionCheck) : Act StaticResult := do
  logGovernanceEvent context tool operation riskLevel "block"
  lifecycle (StaticBinding.transition call.id expected status
    { permissionCheck := some (some permissionCheck)
      guardrailCheck := some (some .blocked)
      errorCode := some (some errorCode) })
  .ret
    { toToolCallResult := failResult error permissionCheck .blocked
      toolCallId := some call.id }

/-- The exit of step 2. -/
def rejectInput (host : Host) (call : HeldCall) (error : String) : Act StaticResult := do
  lifecycle (StaticBinding.finalize host.platform call.id
    { status := .failed
      output := .undefined
      permissionCheck := .passed
      permissionDetail := none
      guardrailCheck := .passed
      durationMs := 0
      errorCode := some "TOOL_INPUT_SCHEMA_INVALID" })
  .ret
    { toToolCallResult := failResult ("Tool input schema validation failed: " ++ error) .passed .passed
      toolCallId := some call.id }

/-- `tool.prepareApproval`, where the tool has it. -/
def prepareApproval (tool : AgentTool) (input : Json) (call : HeldCall) : Act Unit :=
  if tool.preparesApproval then do
    let prepared ← await (.prepareApproval call.id input)
    ofExcept prepared
  else .ret ()

/-- The exit of step 4 that asks for an approval. -/
def escalate (tool : AgentTool) (input : Json) (context : StaticContext) (call : HeldCall) :
    Act StaticResult := do
  prepareApproval tool input call
  logGovernanceEvent context tool tool.operation tool.riskLevel "approve"
  lifecycle (StaticBinding.transition call.id [.started] .requiresApproval
    { permissionCheck := some (some .passed)
      guardrailCheck := some (some .escalated)
      errorCode := some (some "TOOL_APPROVAL_REQUIRED")
      leaseExpiresAt := some none
      lastHeartbeatAt := some none })
  .ret
    { success := false
      output := .json .null
      error := some "L3 operation requires approval"
      permissionCheck := .passed
      guardrailCheck := .escalated
      riskLevel := some tool.riskLevel
      prepared := tool.preparesApproval
      toolCallId := some call.id
      requiresApproval := true
      toolName := some tool.name
      inputDigest := call.inputDigest }

/-- The `catch` of step 5. -/
def executionThrew (host : Host) (call : HeldCall) (startTime : Nat) (error : String) :
    Act StaticResult := do
  let endTime ← await .now
  let duration : Int := endTime - startTime
  lifecycle (StaticBinding.finalize host.platform call.id
    { status := .failed
      output := .undefined
      permissionCheck := .passed
      permissionDetail := none
      guardrailCheck := .passed
      durationMs := duration
      errorCode := some "TOOL_EXECUTION_THROWN" })
  .ret
    { success := false
      output := .json .null
      error := some error
      permissionCheck := .passed
      guardrailCheck := .passed
      duration
      toolCallId := some call.id }

/-- What the record gets of an answer of the tool. -/
def finalizeInput (result : StaticResult) (duration : Int) :
    StaticBinding.ToolCallFinalizeInput where
  status := if result.success then .succeeded else .failed
  output := result.output
  permissionCheck := result.permissionCheck
  permissionDetail := result.permissionDetail
  guardrailCheck := result.guardrailCheck
  durationMs := duration
  errorCode := if result.success then none else some "TOOL_EXECUTION_FAILED"

/-- The record and the result after an answer of the tool. -/
def recordResult (host : Host) (call : HeldCall) (startTime : Nat) (result : StaticResult) :
    Act StaticResult := do
  let endTime ← await .now
  let duration : Int := endTime - startTime
  lifecycle (StaticBinding.finalize host.platform call.id (finalizeInput result duration))
  .ret { result with duration, toolCallId := some call.id }

/-- The `try` of step 5. -/
def executeBody (host : Host) (input : Json) (call : HeldCall) (startTime : Nat) :
    Act StaticResult := do
  let answer ← await (.execute call.id input)
  let result ← ofExcept answer
  recordResult host call startTime result

/-- `markRunning`, where the record is not running yet. -/
def startRunning (context : StaticContext) (call : HeldCall) (startTime : Nat) : Act Unit :=
  if call.status ≠ .running then
    lifecycle (StaticBinding.markRunning call.id context.constraints.timeoutMs.floor
      (if call.approvedResume then [.requiresApproval] else [.started]) startTime)
  else .ret ()

/-- Step 5 of `executeTool`. -/
def runStaticTool (host : Host) (input : Json) (context : StaticContext) (call : HeldCall) :
    Act StaticResult := do
  let startTime ← await .now
  startRunning context call startTime
  match ← (executeBody host input call startTime).attempt with
  | .ok result => .ret result
  | .error e => executionThrew host call startTime e

/-- The steps of `executeTool` once the record is there. -/
def executeRecorded (cfg : Config) (host : Host) (tool : AgentTool) (input : Json)
    (context : StaticContext) (call : HeldCall) : Act StaticResult :=
  match verdict cfg host tool input context with
  | .error e => .throw e
  | .ok .notAllowed =>
    refuse context tool none call (openCallStatuses call) "L4" "Tool not allowed"
      "TOOL_NOT_ALLOWED" .denied .denied
  | .ok (.invalid error) => rejectInput host call error
  | .ok (.denied reason errorCode) =>
    refuse context tool tool.operation call [.started] "L4" reason errorCode .denied .denied
  | .ok .blocked =>
    refuse context tool tool.operation call [.started] tool.riskLevel
      "L4 operation blocked - requires human" "TOOL_RISK_L4_BLOCKED" .blocked .passed
  | .ok .escalated => escalate tool input context call
  | .ok .admitted => do
    if 3 ≤ riskOrder tool.riskLevel then
      logGovernanceEvent context tool tool.operation tool.riskLevel "allow"
    runStaticTool host input context call

/-- The approval of a connector message, whose record is not begun here. -/
def approveDurably (host : Host) (tool : AgentTool) (input : Json) (context : StaticContext) :
    Act StaticResult :=
  if tool.preparesApproval = true ∧ host.approvalSubjects = true then do
    let id ← await .generateId
    let _ ← ofExcept (host.platform.buildPreview input)
    let prepared ← await (.prepareApproval id input)
    ofExcept prepared
    let submitted ← await (.submitStaticToolSubject tool.name input)
    ofExcept submitted
    logGovernanceEvent context tool none tool.riskLevel "approve"
    .ret
      { success := false
        output := .json .null
        error := some "L3 operation requires approval"
        permissionCheck := .passed
        guardrailCheck := .escalated
        requiresApproval := true
        toolName := some tool.name }
  else
    .ret { toToolCallResult := failResult "TOOL_APPROVAL_SUBJECT_OWNER_UNAVAILABLE" .passed .blocked }

/-- `ToolRegistryService.executeTool` -/
def executeTool (cfg : Config) (host : Host) (toolName : String) (input : Json)
    (context : StaticContext) : Act StaticResult :=
  match cfg.tools.find? (·.name = toolName) with
  | none => .ret { toToolCallResult := failResult ("Tool not found: " ++ toolName) .denied .blocked }
  | some tool =>
    if needsDurableApproval tool input context.toExecutionContext then
      approveDurably host tool input context
    else do
      let call ← handOver host toolName input context
      executeRecorded cfg host tool input context call

end NexusClaw.AgentRuntime.StaticCalls
