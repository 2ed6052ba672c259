import NexusClaw.AgentRuntime.ToolRegistry
import NexusClaw.AuditChain.StaticBinding
import NexusClaw.Concurrent.Outline

/-!
# Code actions

`executeTool` of `tool-framework/tool-registry.service.ts` for a release-aware context, with
`resolveTool` and `executeContextualTool` below it, and with `begin` and `resumeApproved` of
`tool-call-lifecycle.service.ts`. Any number of calls run at once, beside other programs that write
records through the same service; what the providers, the owner of approvals and the code itself
answer may be different at every moment.
-/

namespace NexusClaw.AgentRuntime.CodeActions
open Concurrent
open Governance (Id ToolCallStatus PermissionCheck GuardrailCheck JsOutput riskOrder)
open AuditChain

/-! ## Values -/

/-- What the registry and the records read of `ResolvedAgentExecutableToolV1`. -/
structure ResolvedTool where
  toolName : String
  declaredRiskLevel : String
  timeoutMs : Int
  functionRevisionId : String
  descriptorHash : String
  publishedChecksum : String
  runtimeProviderId : String
deriving DecidableEq

structure Release where
  executionWorkspaceId : Id
  sourceWorkspaceId : Id
  releaseSetId : String
deriving DecidableEq

structure ToolApprovalGrant where
  toolName : String
  approvalInstanceId : String
  toolCallId : Option Id := none
  inputDigest : Option String := none
  releaseSetId : Option String := none
  publishedChecksum : Option String := none

structure GovernedContext where
  release : Release
  allowedTools : List String
  timeoutMs : Int
  approvalGrant : Option ToolApprovalGrant := none

/-- The columns of a governed record that only its insertion writes. -/
structure Binding where
  toolName : String
  inputDigest : String
  workspaceId : Id
  sourceWorkspaceId : Id
  releaseSetId : String
  functionRevisionId : String
  descriptorHash : String
  publishedChecksum : String
  runtimeProviderId : String
deriving DecidableEq

/-- What a result has beyond `ToolCallResult`; `completionCoordinated` comes from the provider. -/
structure ActionResult extends ToolCallResult where
  duration : Int := 0
  toolCallId : Option Id := none
  requiresApproval : Bool := false
  completionCoordinated : Bool := false

/-- What `submitToolSubject` answers. -/
structure ApprovalSubject where
  toolCallId : Id
  approvalInstanceId : String

/-- The surroundings of the registry: its tools and the keys of its providers, what `buildPreview`
makes of values, and what is answered outside at each moment. -/
structure Host where
  tools : List AgentTool
  providers : List String
  supportsContextualExecution : Bool
  approvalSubjects : Bool
  inputDigest : Json → String
  inputError : Json → ResolvedTool → Option String
  platform : ResolvedTool → StaticBinding.Platform
  resolveTool : Nat → String → String → Except String (Option ResolvedTool)
  submitToolSubject : Nat → Except String ApprovalSubject
  executeResolvedTool : Nat → Except String ActionResult

/-! ## Records -/

structure World where
  calls : StaticBinding.World
  bound : Table Id Binding
  nextId : Id
  now : Nat

inductive Stmt where
  | resolveTool (key name : String)
  | now
  | insert (row : StaticBinding.ToolCallRecord) (binding : Binding)
  | record (tool : ResolvedTool) (s : StaticBinding.Stmt)
  | findApproved (id workspaceId : Id)
  | submitToolSubject (tool : ResolvedTool) (input : Json)
  | executeResolvedTool (id : Id) (tool : ResolvedTool) (input : Json)

/-- A record that a read has found meets the condition of the read. -/
abbrev Found (workspaceId : Id) : Type :=
  ToolCallStatus × { binding : Binding // binding.workspaceId = workspaceId }

abbrev Resp : Stmt → Type
  | .resolveTool _ _ => Except String (Option ResolvedTool)
  | .now => Nat
  | .insert _ _ => Id
  | .record _ s => StaticBinding.Resp s
  | .findApproved _ workspaceId => Option (Found workspaceId)
  | .submitToolSubject _ _ => Except String ApprovalSubject
  | .executeResolvedTool _ _ _ => Except String ActionResult

/-- The read of `resumeApproved`. -/
def World.findApproved (w : World) (id workspaceId : Id) : Option (Found workspaceId) := do
  let row ← w.calls id
  let binding ← w.bound id
  if h : binding.workspaceId = workspaceId ∧
      (row.status = .requiresApproval ∨ row.status = .running) then
    some (row.status, ⟨binding, h.1⟩)
  else none

/-- Ids are new whenever they are given out. -/
def World.insert (w : World) (row : StaticBinding.ToolCallRecord) (binding : Binding) : World :=
  { w with
    calls := w.calls.put w.nextId { row with id := w.nextId }
    bound := w.bound.put w.nextId binding
    nextId := w.nextId + 1 }

def perform (host : Host) : (s : Stmt) → World → World × Resp s
  | .resolveTool key name, w => (w, host.resolveTool w.now key name)
  | .now, w => (w, w.now)
  | .insert row binding, w => (w.insert row binding, w.nextId)
  | .record tool s, w =>
    let r := StaticBinding.exec (host.platform tool) s w.calls
    ({ w with calls := r.1 }, r.2)
  | .findApproved id workspaceId, w => (w, w.findApproved id workspaceId)
  | .submitToolSubject _ _, w => (w, host.submitToolSubject w.now)
  | .executeResolvedTool _ _ _, w => (w, host.executeResolvedTool w.now)

def exec (host : Host) (s : Stmt) (w : World) : World × Resp s :=
  ({ (perform host s w).1 with now := w.now + 1 }, (perform host s w).2)

abbrev Act (α : Type) : Type :=
  Prog Stmt Resp String α

def await (s : Stmt) : Act (Resp s) :=
  Prog.call s

def ofExcept {α : Type} : Except String α → Act α
  | .ok a => .ret a
  | .error e => .throw e

/-- A call of the service of the records; previews are made with the descriptor of the tool. -/
def lifecycle {α : Type} (tool : ResolvedTool) : StaticBinding.Act α → Act α
  | .ret a => .ret a
  | .throw e => .throw e
  | .stmt s k => .stmt (.record tool s) fun r => lifecycle tool (k r)

/-! ## Resolution -/

/-- The tools that the providers resolve a name to. -/
def matchingTools (toolName : String) : List String → Act (List ResolvedTool)
  | [] => .ret []
  | key :: keys => do
    let resolved ← ofExcept (← await (.resolveTool key toolName))
    let rest ← matchingTools toolName keys
    .ret (resolved.toList ++ rest)

/-- `resolveTool` -/
def resolveTool (host : Host) (toolName : String) : Act (Option (AgentTool ⊕ ResolvedTool)) := do
  let matched ← matchingTools toolName host.providers
  if 1 < matched.length then .throw ("TOOL_CONTEXTUAL_NAME_COLLISION:" ++ toolName)
  else
    match host.tools.find? (·.name = toolName), matched with
    | some _, _ :: _ => .throw ("TOOL_STATIC_CONTEXTUAL_NAME_COLLISION:" ++ toolName)
    | some tool, [] => .ret (some (.inl tool))
    | none, tool :: _ => .ret (some (.inr tool))
    | none, [] => .ret none

/-! ## The record of a call -/

/-- The columns that the insertion of a record writes once. -/
def bindingOf (host : Host) (toolName : String) (input : Json) (release : Release)
    (tool : ResolvedTool) : Binding where
  toolName
  inputDigest := host.inputDigest input
  workspaceId := release.executionWorkspaceId
  sourceWorkspaceId := release.sourceWorkspaceId
  releaseSetId := release.releaseSetId
  functionRevisionId := tool.functionRevisionId
  descriptorHash := tool.descriptorHash
  publishedChecksum := tool.publishedChecksum
  runtimeProviderId := tool.runtimeProviderId

/-- What `executeTool` reads of the record in hand, with `approvedResume`. -/
structure HeldCall where
  id : Id
  status : ToolCallStatus
  approvedResume : Bool

/-- The preview of an input, or what `buildPreview` throws. -/
def digestOf (host : Host) (input : Json) (tool : ResolvedTool) : Act String :=
  match host.inputError input tool with
  | some e => .throw e
  | none => .ret (host.inputDigest input)

/-- `begin` -/
def beginCall (host : Host) (toolName : String) (input : Json) (context : GovernedContext)
    (tool : ResolvedTool) : Act HeldCall := do
  let _ ← digestOf host input tool
  let startedAt ← await .now
  let id ← await (.insert
    { id := 0
      workspaceId := some context.release.executionWorkspaceId
      agentExecutionId := none
      toolName
      status := .started
      lastHeartbeatAt := some startedAt
      leaseExpiresAt := some (startedAt + (max 1 context.timeoutMs).toNat) }
    (bindingOf host toolName input context.release tool))
  .ret { id, status := .started, approvedResume := false }

/-- The grant carries all that `resumeApproved` asks for. -/
def ToolApprovalGrant.complete (grant : ToolApprovalGrant) :
    Option (Id × String × String × String) := do
  let toolCallId ← grant.toolCallId
  let inputDigest ← nonEmpty grant.inputDigest
  let releaseSetId ← nonEmpty grant.releaseSetId
  let publishedChecksum ← nonEmpty grant.publishedChecksum
  if grant.approvalInstanceId = "" then none
  else some (toolCallId, inputDigest, releaseSetId, publishedChecksum)

/-- The record that was found against what the call is about. -/
def takeUp (toolCallId : Id) (expected : Binding) {workspaceId : Id} :
    Option (Found workspaceId) → Act HeldCall
  | none => .throw "TOOL_APPROVAL_TOOL_CALL_NOT_FOUND"
  | some (status, record) =>
    if record.1.toolName ≠ expected.toolName ∨ record.1.inputDigest ≠ expected.inputDigest ∨
        record.1.sourceWorkspaceId ≠ expected.sourceWorkspaceId ∨
        record.1.releaseSetId ≠ expected.releaseSetId ∨
        record.1.functionRevisionId ≠ expected.functionRevisionId ∨
        record.1.descriptorHash ≠ expected.descriptorHash ∨
        record.1.publishedChecksum ≠ expected.publishedChecksum ∨
        record.1.runtimeProviderId ≠ expected.runtimeProviderId then
      .throw "TOOL_APPROVAL_TOOL_CALL_MISMATCH"
    else .ret { id := toolCallId, status, approvedResume := true }

/-- `resumeApproved` -/
def resumeApproved (host : Host) (toolName : String) (input : Json) (context : GovernedContext)
    (tool : ResolvedTool) (grant : ToolApprovalGrant) : Act HeldCall :=
  match grant.complete with
  | none => .throw "TOOL_APPROVAL_GRANT_INVALID"
  | some (toolCallId, inputDigest, releaseSetId, publishedChecksum) => do
    let expectedInputDigest ← digestOf host input tool
    if expectedInputDigest ≠ inputDigest ∨ releaseSetId ≠ context.release.releaseSetId ∨
        publishedChecksum ≠ tool.publishedChecksum then
      .throw "TOOL_APPROVAL_GRANT_MISMATCH"
    else do
      let record ← await (.findApproved toolCallId context.release.executionWorkspaceId)
      takeUp toolCallId
        { bindingOf host toolName input context.release tool with
          inputDigest, releaseSetId, publishedChecksum }
        record

/-- The grant of the context, if it is for the tool. -/
def grantFor (toolName : String) (context : GovernedContext) : Option ToolApprovalGrant :=
  context.approvalGrant.filter (·.toolName = toolName)

/-- The record that the call is about. -/
def handOver (host : Host) (toolName : String) (input : Json) (context : GovernedContext)
    (tool : ResolvedTool) : Act HeldCall :=
  match grantFor toolName context with
  | some grant => resumeApproved host toolName input context tool grant
  | none => beginCall host toolName input context tool

/-- `openCallStatuses` -/
def openCallStatuses (call : HeldCall) : List ToolCallStatus :=
  if call.status = .requiresApproval then [.requiresApproval] else [.started]

/-! ## Execution -/

/-- A refusal that closes the record. -/
def refuse (tool : ResolvedTool) (call : HeldCall) (error errorCode : String)
    (status : ToolCallStatus) (permissionCheck : PermissionCheck) : Act ActionResult := do
  lifecycle tool (StaticBinding.transition call.id (openCallStatuses call) status
    { permissionCheck := some (some permissionCheck)
      guardrailCheck := some (some .blocked)
      errorCode := some (some errorCode) })
  .ret
    { toToolCallResult := failResult error permissionCheck .blocked
      toolCallId := some call.id }

def approvalRequired : ToolCallResult where
  success := false
  output := .json .null
  error := some "L3 operation requires approval"
  permissionCheck := .passed
  guardrailCheck := .escalated

/-- The exit of `executeContextualTool` that asks for an approval. -/
def escalate (tool : ResolvedTool) (call : HeldCall) : Act ActionResult := do
  lifecycle tool (StaticBinding.transition call.id (openCallStatuses call) .requiresApproval
    { permissionCheck := some (some .passed)
      guardrailCheck := some (some .escalated)
      errorCode := some (some "TOOL_APPROVAL_REQUIRED")
      leaseExpiresAt := some none
      lastHeartbeatAt := some none })
  .ret
    { toToolCallResult := approvalRequired
      toolCallId := some call.id
      requiresApproval := true }

/-- `deriveCodeActionLifecycleLeaseMs` -/
def lifecycleLeaseMs (tool : ResolvedTool) (requestedTimeoutMs : Int) : Int :=
  60000 + max 1 (min (min requestedTimeoutMs tool.timeoutMs) 60000) + 30000

/-- Where a record that is about to run has waited. -/
def waitingStatuses (call : HeldCall) : List ToolCallStatus :=
  if call.approvedResume then [.requiresApproval] else [.started]

/-- `markRunning`, where the record is not running yet. -/
def startRunning (tool : ResolvedTool) (context : GovernedContext) (call : HeldCall)
    (startedAt : Nat) : Act Unit :=
  if call.status ≠ .running then
    lifecycle tool (StaticBinding.markRunning call.id (lifecycleLeaseMs tool context.timeoutMs)
      (waitingStatuses call) startedAt)
  else .ret ()

/-- What the record gets of an answer of the provider. -/
def finalizeInput (result : ActionResult) (duration : Int) :
    StaticBinding.ToolCallFinalizeInput where
  status := if result.success then .succeeded else .failed
  output := result.output
  permissionCheck := result.permissionCheck
  permissionDetail := none
  guardrailCheck := result.guardrailCheck
  durationMs := duration
  errorCode := if result.success then none else some "CODE_ACTION_EXECUTION_FAILED"

/-- The record of an answer, unless the provider has written it. -/
def recordResult (host : Host) (tool : ResolvedTool) (call : HeldCall) (result : ActionResult)
    (duration : Int) : Act Unit :=
  if result.completionCoordinated then .ret ()
  else
    lifecycle tool
      (StaticBinding.finalize (host.platform tool) call.id (finalizeInput result duration))

/-- The `try` of `executeContextualTool`. -/
def executeBody (host : Host) (tool : ResolvedTool) (input : Json) (call : HeldCall)
    (startedAt : Nat) : Act ActionResult := do
  let result ← ofExcept (← await (.executeResolvedTool call.id tool input))
  let endedAt ← await .now
  recordResult host tool call result (endedAt - startedAt)
  .ret { result with duration := endedAt - startedAt, toolCallId := some call.id }

/-- The `catch` of `executeContextualTool`. -/
def executionThrew (host : Host) (tool : ResolvedTool) (call : HeldCall) (startedAt : Nat)
    (error : String) : Act ActionResult := do
  let endedAt ← await .now
  lifecycle tool (StaticBinding.finalize (host.platform tool) call.id
    { status := .failed
      output := .undefined
      permissionCheck := .passed
      permissionDetail := none
      guardrailCheck := .passed
      durationMs := endedAt - startedAt
      errorCode := some "CODE_ACTION_EXECUTION_THROWN" })
  .ret
    { toToolCallResult := failResult error .passed .passed
      duration := endedAt - startedAt
      toolCallId := some call.id }

/-- The end of `executeContextualTool`. -/
def runCodeAction (host : Host) (tool : ResolvedTool) (input : Json) (context : GovernedContext)
    (call : HeldCall) : Act ActionResult := do
  let startedAt ← await .now
  startRunning tool context call startedAt
  match ← (executeBody host tool input call startedAt).attempt with
  | .ok result => .ret result
  | .error e => executionThrew host tool call startedAt e

/-- `executeContextualTool` -/
def executeContextualTool (host : Host) (tool : ResolvedTool) (input : Json)
    (context : GovernedContext) (call : HeldCall) : Act ActionResult :=
  if 4 ≤ riskOrder tool.declaredRiskLevel then
    refuse tool call "L4 operation blocked - requires human" "TOOL_RISK_L4_BLOCKED" .blocked .passed
  else if 3 ≤ riskOrder tool.declaredRiskLevel ∧ call.approvedResume = false then
    escalate tool call
  else if host.supportsContextualExecution = false then
    refuse tool call "CODE_RUNTIME_ISOLATION_UNVERIFIED" "CODE_RUNTIME_ISOLATION_UNVERIFIED"
      .blocked .passed
  else runCodeAction host tool input context call

/-- A call of `executeTool`; the flag is `requireDurableL3Approval`. -/
structure Request where
  toolName : String
  input : Json
  context : GovernedContext
  requireDurableL3Approval : Bool := false

/-- The approval of an action, whose record is not begun here. -/
def submit (host : Host) (request : Request) (tool : ResolvedTool) : Act ActionResult :=
  if host.approvalSubjects then do
    let subject ← ofExcept (← await (.submitToolSubject tool request.input))
    .ret
      { toToolCallResult := approvalRequired
        toolCallId := some subject.toolCallId
        requiresApproval := true }
  else
    .ret { toToolCallResult := failResult "TOOL_APPROVAL_SUBJECT_OWNER_UNAVAILABLE" .passed .blocked }

/-- An action that is allowed but has no grant needs a durable approval. -/
def needsApproval (request : Request) (tool : ResolvedTool) : Bool :=
  (tool.declaredRiskLevel = "L3" || request.requireDurableL3Approval) &&
    (grantFor request.toolName request.context).isNone &&
    request.context.allowedTools.contains request.toolName

/-- `executeTool` with the record in hand. -/
def executeHeld (host : Host) (request : Request) (tool : ResolvedTool) (call : HeldCall) :
    Act ActionResult :=
  if request.toolName ∉ request.context.allowedTools then
    refuse tool call "Tool not allowed" "TOOL_NOT_ALLOWED" .denied .denied
  else executeContextualTool host tool request.input request.context call

/-- `executeTool` once the tool is resolved to a code action. -/
def executeResolved (host : Host) (request : Request) (tool : ResolvedTool) : Act ActionResult :=
  if needsApproval request tool then submit host request tool
  else do
    let call ← handOver host request.toolName request.input request.context tool
    executeHeld host request tool call

def denied (error : String) : Act ActionResult :=
  .ret { toToolCallResult := failResult error .denied .blocked }

/-- `ToolRegistryService.executeTool` for a governed context. -/
def executeTool (host : Host) (request : Request) : Act ActionResult := do
  match ← resolveTool host request.toolName with
  | none => denied ("Tool not found: " ++ request.toolName)
  | some (.inl _) =>
    if request.requireDurableL3Approval then
      denied "GOVERNED_SENSITIVE_APPROVAL_DESCRIPTOR_MISMATCH"
    else denied "Static tool requires the persisted runtime security context"
  | some (.inr tool) =>
    if request.requireDurableL3Approval ∧ tool.declaredRiskLevel ≠ "L3" then
      denied "GOVERNED_SENSITIVE_APPROVAL_DESCRIPTOR_MISMATCH"
    else executeResolved host request tool

end NexusClaw.AgentRuntime.CodeActions
