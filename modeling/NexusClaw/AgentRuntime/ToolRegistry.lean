import NexusClaw.AgentRuntime.Gates

/-!
# Tool registry

`tool-framework/tool-registry.service.ts` and the parts of `tool-call-lifecycle.service.ts` it calls,
for a static tool and a context without a release snapshot: the allow-list, the schema, the
permission, the risk gate with its one-shot grant, and the execution with the record around it. No
owner of durable approvals is registered, so a connector message that would need one is refused.
-/

namespace NexusClaw.AgentRuntime
open Concurrent
open Governance (Id ToolCallStatus PermissionCheck GuardrailCheck riskOrder)

/-! ## The record of a call -/

/-- `PROTOTYPE_KEYS` -/
def prototypeKeys : List String :=
  ["__proto__", "prototype", "constructor"]

mutual
/-- `isJsonValue` of a value that came from JSON: no key in it is one of `PROTOTYPE_KEYS`. -/
def isJsonValue : Json → Bool
  | .arr xs => areJsonValues xs
  | .obj fields => areJsonFields fields
  | _ => true

def areJsonValues : List Json → Bool
  | [] => true
  | x :: xs => isJsonValue x && areJsonValues xs

def areJsonFields : List (String × Json) → Bool
  | [] => true
  | (key, v) :: fields => !prototypeKeys.contains key && isJsonValue v && areJsonFields fields
end

/-- `ToolCallLifecycleService.begin` -/
def beginCall (toolName : String) (input : Json) (context : ExecutionContext) :
    Act ToolCallRecord :=
  if isJsonValue input then
    await (.createToolCall
      { executionId := context.executionId
        toolName
        status := .started
        input })
  else .throw "TOOL_CALL_INPUT_NOT_JSON"

/-- `ToolCallLifecycleService.transition` -/
def transition (id : Id) (expected : List ToolCallStatus) (patch : ToolCallPatch) : Act Unit := do
  let affected ← await (.transitionToolCall id expected patch)
  if affected = 1 then .ret ()
  else .throw ("TOOL_CALL_STATE_CONFLICT:" ++ toString id ++ ":" ++ patch.status.text)

/-- The output has a preview for the record: it is `undefined` or passes `isJsonValue`. -/
def hasPreview : Governance.JsOutput → Bool
  | .undefined => true
  | .json v => isJsonValue v
  | .notJson => false

/-- `ToolCallLifecycleService.finalize` -/
def finalizeCall (id : Id) (output : Governance.JsOutput) (patch : ToolCallPatch) : Act Unit :=
  if hasPreview output then transition id [.started, .running] patch
  else .throw "TOOL_CALL_OUTPUT_NOT_JSON"

/-- `failResult` -/
def failResult (error : String) (permissionCheck : PermissionCheck)
    (guardrailCheck : GuardrailCheck) : ToolCallResult where
  success := false
  output := .json .null
  error := some error
  permissionCheck
  guardrailCheck

/-- `logGovernanceEvent` -/
def logGovernanceEvent (context : ExecutionContext) (tool : AgentTool)
    (riskLevel actionTaken : String) : Act Unit :=
  await (.logGuardrailEvent
    { executionId := context.executionId
      riskLevel
      operationType := tool.operation.getD tool.name
      actionTaken })

/-- A refusal that is logged, closes the record and is the result of the call. -/
def refuse (context : ExecutionContext) (tool : AgentTool) (call : ToolCallRecord)
    (riskLevel error errorCode : String) (status : ToolCallStatus)
    (permissionCheck : PermissionCheck) : Act ToolCallResult := do
  logGovernanceEvent context tool riskLevel "block"
  transition call.id [.started]
    { status
      permissionCheck := some permissionCheck
      guardrailCheck := some .blocked
      errorCode := some errorCode }
  .ret (failResult error permissionCheck .blocked)

/-! ## Permissions -/

/-- `tool.requiredPermissions.objectApiName || input.objectApiName`, where it is truthy. -/
def requiredObject (tool : AgentTool) (input : Json) : Option Json :=
  match nonEmpty tool.objectApiName with
  | some object => some (.str object)
  | none => (input.get? "objectApiName").filter fun object => Json.truthy (some object)

/-- The exact permission of an object, else the only one that differs in case; the case of a value
that is no string cannot be folded. -/
def permissionOf (cfg : Config) (permissions : List ObjectPermission) (object : Json) :
    Except String (Option ObjectPermission) :=
  match object.asString with
  | some name =>
    match permissions.find? (·.objectApiName = name) with
    | some permission => .ok (some permission)
    | none =>
      match permissions.filter fun p => cfg.lowerCase p.objectApiName = cfg.lowerCase name with
      | [permission] => .ok (some permission)
      | _ => .ok none
  | none =>
    if permissions.isEmpty then .ok none
    else .error "resolvedObjectApiName.toLocaleLowerCase is not a function"

def ObjectPermission.grants (permission : ObjectPermission) (operation : String) : Bool :=
  (operation = "read" && permission.canRead) || (operation = "create" && permission.canCreate) ||
    (operation = "update" && permission.canUpdate) || (operation = "delete" && permission.canDelete)

/-- Why the permission check fails, with the code of the refusal. -/
def permissionRefusal (cfg : Config) (tool : AgentTool) (input : Json)
    (context : ExecutionContext) : Except String (Option (String × String)) :=
  match nonEmpty tool.operation, requiredObject tool input with
  | some operation, some object => do
    match ← permissionOf cfg context.security.objectPermissions object with
    | none =>
      let name ← cfg.toText (.json object)
      .ok (some ("No permission for object " ++ name, "OBJECT_PERMISSION_MISSING"))
    | some permission =>
      if permission.grants operation then .ok none
      else
        let name ← cfg.toText (.json object)
        .ok (some ("No " ++ operation ++ " permission on " ++ name, "OBJECT_OPERATION_DENIED"))
  | _, _ => .ok none

/-! ## Execution -/

/-- The result of a body that threw, or whose result the record did not take. -/
def executionThrew (call : ToolCallRecord) (error : String) : Act ToolCallResult := do
  finalizeCall call.id .undefined
    { status := .failed
      permissionCheck := some .passed
      guardrailCheck := some .passed
      errorCode := some "TOOL_EXECUTION_THROWN" }
  .ret
    { success := false
      output := .json .null
      error := some error
      permissionCheck := .passed
      guardrailCheck := .passed }

/-- Step 5 of `executeTool`. -/
def runStaticTool (invocation : Invocation) (tool : AgentTool) (input : Json)
    (context : ExecutionContext) (call : ToolCallRecord) : Act ToolCallResult := do
  transition call.id [.started]
    { status := .running
      permissionCheck := some .passed
      guardrailCheck := some .passed }
  match ← await (.runTool invocation tool.name input context) with
  | .error e => executionThrew call e
  | .ok result =>
    let finalized ← (finalizeCall call.id result.output
      { status := if result.success then .succeeded else .failed
        permissionCheck := some result.permissionCheck
        guardrailCheck := some result.guardrailCheck
        errorCode := if result.success then none else some "TOOL_EXECUTION_FAILED" }).attempt
    match finalized with
    | .error e => executionThrew call e
    | .ok _ => .ret result

/-- `tool.prepareApproval`, where the tool has it. -/
def prepareApproval (tool : AgentTool) (input : Json) : Act Unit :=
  if tool.preparesApproval then await (.prepareApproval tool.name input) else .ret ()

/-- The branch of step 4 that asks for an approval. -/
def escalate (tool : AgentTool) (input : Json) (context : ExecutionContext)
    (call : ToolCallRecord) : Act ToolCallResult := do
  prepareApproval tool input
  logGovernanceEvent context tool tool.riskLevel "approve"
  transition call.id [.started]
    { status := .requiresApproval
      permissionCheck := some .passed
      guardrailCheck := some .escalated
      errorCode := some "TOOL_APPROVAL_REQUIRED" }
  .ret
    { success := false
      output := .json .null
      error := some "L3 operation requires approval"
      permissionCheck := .passed
      guardrailCheck := .escalated
      riskLevel := some tool.riskLevel
      prepared := tool.preparesApproval }

/-- Step 4 of `executeTool`. -/
def riskGate (invocation : Invocation) (tool : AgentTool) (input : Json)
    (context : ExecutionContext) (call : ToolCallRecord) : Act ToolCallResult :=
  if 4 ≤ riskOrder tool.riskLevel then
    refuse context tool call tool.riskLevel "L4 operation blocked - requires human"
      "TOOL_RISK_L4_BLOCKED" .blocked .passed
  else if 3 ≤ riskOrder tool.riskLevel then
    if context.approvalGrant.any (·.toolName = tool.name) then do
      logGovernanceEvent context tool tool.riskLevel "allow"
      runStaticTool invocation tool input context call
    else escalate tool input context call
  else runStaticTool invocation tool input context call

/-- The required fields that the schema of a connector tool names. -/
def requiredFields (tool : AgentTool) : List String :=
  match tool.inputSchema.get? "required" with
  | some (.arr fields) => fields.filterMap Json.asString
  | _ => []

/-- A connector message at risk level L3 without a grant, whose approval needs a durable owner. -/
def needsDurableApproval (tool : AgentTool) (input : Json) (context : ExecutionContext) : Bool :=
  (tool.name = "slack.message.send" || tool.name = "teams.message.send") &&
    tool.riskLevel = "L3" &&
    !context.approvalGrant.any (·.toolName = tool.name) &&
    context.constraints.allowedTools.contains tool.name &&
    (nonEmpty tool.objectApiName).isNone && (nonEmpty tool.operation).isNone &&
    match input with
    | .obj _ => (requiredFields tool).all fun field => (input.get? field).isSome
    | .arr _ => (requiredFields tool).isEmpty
    | _ => false

/-- The steps of `executeTool` once the record is there. -/
def executeRecorded (cfg : Config) (invocation : Invocation) (tool : AgentTool) (input : Json)
    (context : ExecutionContext) (call : ToolCallRecord) : Act ToolCallResult :=
  if tool.name ∉ context.constraints.allowedTools then
    refuse context tool call "L4" "Tool not allowed" "TOOL_NOT_ALLOWED" .denied .denied
  else
    match cfg.schemaError tool.inputSchema input with
    | some error => do
      finalizeCall call.id .undefined
        { status := .failed
          permissionCheck := some .passed
          guardrailCheck := some .passed
          errorCode := some "TOOL_INPUT_SCHEMA_INVALID" }
      .ret (failResult ("Tool input schema validation failed: " ++ error) .passed .passed)
    | none =>
      match permissionRefusal cfg tool input context with
      | .error e => .throw e
      | .ok (some (reason, errorCode)) =>
        refuse context tool call "L4" reason errorCode .denied .denied
      | .ok none => riskGate invocation tool input context call

/-- `ToolRegistryService.executeTool` -/
def executeTool (cfg : Config) (invocation : Invocation) (toolName : String) (input : Json)
    (context : ExecutionContext) : Act ToolCallResult :=
  match cfg.tools.find? (·.name = toolName) with
  | none => .ret (failResult ("Tool not found: " ++ toolName) .denied .blocked)
  | some tool =>
    if needsDurableApproval tool input context then
      .ret (failResult "TOOL_APPROVAL_SUBJECT_OWNER_UNAVAILABLE" .passed .blocked)
    else do
      let call ← beginCall toolName input context
      executeRecorded cfg invocation tool input context call

/-! ## Retries -/

/-- `text.includes(part)` -/
def includes (text part : String) : Bool :=
  text.toList.tails.any fun t => part.toList.isPrefixOf t

/-- A character of the class `\w`. -/
def isWordChar (c : Char) : Bool :=
  c.isAlphanum || c = '_'

/-- `/\b(code)\b/.test(text)`: the code stands in the text as a word. -/
def hasWord (text code : String) : Bool :=
  (' ' :: text.toList).tails.any fun t =>
    match t with
    | [] => false
    | c :: rest =>
      !isWordChar c && code.toList.isPrefixOf rest &&
        (rest.drop code.length).head?.all fun d => !isWordChar d

/-- `classifyToolFailure` -/
def classifyToolFailure (cfg : Config) (result : ToolCallResult) : Bool × ErrorClass :=
  let message := cfg.lowerCase (result.error.getD "")
  let mentions (parts : List String) : Bool := parts.any (includes message)
  let codes (parts : List String) : Bool := parts.any (hasWord message)
  if mentions ["governor limit context missing", "governor limit exceeded"] then
    (false, .governor)
  else if result.permissionCheck = .denied ∨
      mentions ["permission", "forbidden", "unauthorized"] ∨ codes ["401", "403"] then
    (false, .permission)
  else if mentions ["validation", "invalid", "required", "must be"] then (false, .validation)
  else if mentions ["econnreset", "etimedout", "network", "temporarily unavailable",
      "rate limit"] ∨ codes ["429", "502", "503", "504"] then
    (true, .network)
  else (false, .unknown)

/-- The result that the retry loop makes of an exception. -/
def thrownResult (error : String) : ToolCallResult where
  success := false
  output := .json .null
  error := some error
  permissionCheck := .passed
  guardrailCheck := .blocked

structure RetriedResult where
  result : ToolCallResult
  retryCount : Nat
  errorClass : ErrorClass

/-- The attempts from `retryCount` on, of which `retries` may still be repeated. -/
def retryTool (cfg : Config) (invocation : Invocation) (toolName : String) (toolInput : Json)
    (context : ExecutionContext) : Nat → Nat → Act RetriedResult
  | retries, retryCount => do
    let result ← (executeTool cfg invocation toolName toolInput context).attempt
    let result : ToolCallResult :=
      match result with
      | .ok result => result
      | .error e => thrownResult e
    if result.success ∨ result.guardrailCheck = .escalated then
      .ret { result, retryCount, errorClass := .unknown }
    else
      let (retryable, errorClass) := classifyToolFailure cfg result
      match retries with
      | 0 => .ret { result, retryCount, errorClass }
      | retries + 1 =>
        if retryable then
          retryTool cfg invocation toolName toolInput context retries (retryCount + 1)
        else .ret { result, retryCount, errorClass }

/-- `executeToolWithRetry` -/
def executeToolWithRetry (cfg : Config) (invocation : Invocation) (toolName : String)
    (toolInput : Json) (context : ExecutionContext) : Act RetriedResult :=
  retryTool cfg invocation toolName toolInput context
    (context.constraints.maxToolRetryAttempts.getD 2).toNat 0

end NexusClaw.AgentRuntime
