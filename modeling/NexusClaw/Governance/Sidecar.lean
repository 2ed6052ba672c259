import NexusClaw.Governance.Executor
import NexusClaw.Governance.Gate

/-!
# Sidecar server and MCP gateway

`sidecar/src/server.ts` and `sidecar/src/mcp/gateway.ts`: the HTTP endpoints that write, and the
gateway's `tools/call` handler with its elicitation branch, its pending fallback and the lookup
tool. An `Operation` is one call of the kernel from outside; it is what a run serves one after the
other, or what several requests in flight interleave.
-/

namespace NexusClaw.Governance
open Concurrent

/-! ## POST /approvals/:id/decide -/

inductive DecideReply where
  | badRequest
  | alreadyDecided
  | decided (instanceId : Id) (decision : Decision) (executionId : Id)
      (executionStatus : ExecutionStatus)
deriving DecidableEq, Repr

/-- The body's `decision` after `toUpperCase`, if it is one of the two that are accepted. -/
def normalizeDecision (decision : Option String) : Option Decision :=
  match decision with
  | none => none
  | some text =>
    if text.toList.map Char.toUpper = "APPROVED".toList then some .approved
    else if text.toList.map Char.toUpper = "REJECTED".toList then some .rejected
    else none

/-- The record of a paused call: the properties that the readers of its text use. -/
structure PausedRecord where
  toolName : Option Json
  toolInput : Option Json
  riskLevel : Option Json
  description : Option Json

/-- The `resumeCall` of the handler; only a text that does not parse and `null` make it throw. -/
def decideResumeCall (cfg : Config) (row : ApprovalInstance) : Except String PausedRecord :=
  match (row.firstComments.bind betweenMarkers).bind cfg.parse with
  | none => .error "Unexpected token in JSON"
  | some .null => .error "Cannot read properties of null (reading 'toolName')"
  | some paused =>
    .ok
      { toolName := paused.get? "toolName"
        toolInput := paused.get? "toolInput"
        riskLevel := paused.get? "riskLevel"
        description :=
          match paused.get? "description" with
          | none => paused.get? "toolName"
          | some .null => paused.get? "toolName"
          | some description => some description }

/-- The history entry of an approval in the console. -/
def consoleEntry (row : ApprovalInstance) (comment : Option String) : ApprovalHistoryEntry where
  stepIndex := row.currentStepIndex + 1
  stepName := "Agent Sensitive Operation"
  action := .approved
  actorId := "sidecar-console"
  actorName := "Sidecar Console"
  comments := some (comment.getD "")

/-- The rejecting branch of the handler. -/
def consoleReject (row : ApprovalInstance) : Act DecideReply := do
  updateApproval row.id { status := some .rejected, completedAt := true }
  pure (.decided row.id .rejected row.recordId .cancelled)

/-- The approving branch of the handler for an execution of the gate. -/
def consoleRelease (row : ApprovalInstance) : Act DecideReply := do
  updateExecution row.recordId { status := some .running }
  pure (.decided row.id .approved row.recordId .running)

/-- The approving branch of the handler for an execution of the loop. -/
def consoleResume (cfg : Config) (row : ApprovalInstance) (comment : Option String)
    (resumeCall : PausedRecord) : Act DecideReply := do
  updateApproval row.id
    { status := some .approved
      completedAt := true
      history := some (row.history ++ [consoleEntry row comment]) }
  let execution ← resumePaused cfg
    { executionId := row.recordId
      workspaceId := cfg.ws
      approvalInstanceId := row.id
      pausedToolCall := some
        { toolName := resumeCall.toolName
          toolInput := resumeCall.toolInput } }
  pure (.decided row.id .approved row.recordId execution.status)

/-- The handler of `POST /approvals/:id/decide`. -/
def postDecide (cfg : Config) (approvalId : Id) (decision comment : Option String) :
    Act DecideReply :=
  match normalizeDecision decision with
  | none => pure .badRequest
  | some normalized => do
    let row ← findApprovalOrFail approvalId
    if row.status ≠ .pending then pure .alreadyDecided
    else
      let resumeCall ← Act.ofExcept (decideResumeCall cfg row)
      match normalized with
      | .rejected => consoleReject row
      | .approved =>
        let gatedExecution ← findExecution row.recordId
        if (gatedExecution.map (·.triggerSource)) = some .governanceGate then consoleRelease row
        else consoleResume cfg row comment resumeCall

/-! ## The gateway -/

/-- The history entry of `decideApproval`. -/
def gatewayEntry (row : ApprovalInstance) (decision : Decision) (actor : String) :
    ApprovalHistoryEntry where
  stepIndex := row.currentStepIndex + 1
  stepName := "MCP Human Gate"
  action := decision.action
  actorId := "mcp-gateway"
  actorName := actor
  comments := some ""

/-- The update of the execution in `decideApproval`. -/
def Decision.executionPatch : Decision → ExecutionPatch
  | .approved => { status := some .running }
  | .rejected => { status := some .cancelled, completedAt := true }

/-- `decideApproval` -/
def decideApproval (approvalId : Id) (decision : Decision) (actor : String) : Act Unit := do
  let row ← findApprovalOrFail approvalId
  if row.status ≠ .pending then .throw "APPROVAL_ALREADY_DECIDED"
  else
    updateApproval row.id
      { status := some decision.status
        completedAt := true
        history := some (row.history ++ [gatewayEntry row decision actor]) }
    updateExecution row.recordId decision.executionPatch

/-- The results of the `tools/call` handler. -/
inductive ToolReply where
  | blocked (reason : String) (executionId : Option Id)
  | error (reason : String)
  | content (result : UpstreamCallResult)
  | approvalRejected (tool : Option String) (executionId : Id)
  | approvalPending (approvalId executionId : Id) (tool riskLevel : String)
  | waiting (approvalId : Id)

/-- The parts of an upstream result as one text. -/
def contentText (cfg : Config) (content : List Json) : String :=
  "\n".intercalate (content.map fun part =>
    match part.get? "text" with
    | some (.str text) => text
    | _ => cfg.stringify part)

/-- `executeAndComplete`; `pendingLookup` ends with the same statements. The approval for which the
call is made is no argument of the source. -/
def executeAndComplete (cfg : Config) (approvalId : Option Id) (tool : AggregatedTool)
    (executionId : Id) (args : Json) : Act ToolReply := do
  match ← callTool approvalId tool args with
  | .error error =>
    complete cfg executionId { success := false, output := .json (.obj [("error", .str error)]) }
    pure (.error error)
  | .ok result =>
    complete cfg executionId
      { success := !result.isError, output := .json (.str (contentText cfg result.content)) }
    pure (.content result)

/-- `byAggregatedName.get`: of two tools with one name the map keeps the later. -/
def Config.byAggregatedName (cfg : Config) (name : String) : Option AggregatedTool :=
  cfg.aggregated.reverse.find? (·.aggregatedName = name)

/-- The status that `pendingLookup` acts on: a pending row whose execution runs counts as approved. -/
def lookupStatus (row : ApprovalInstance) (execution : AgentExecution) : ApprovalStatus :=
  if row.status = .pending ∧ execution.status = .running then .approved else row.status

/-- The tool and the arguments that `pendingLookup` recovers from the approval row. -/
def recoveredCall (cfg : Config) (row : ApprovalInstance) : Option (AggregatedTool × Json) := do
  let paused ← extractPausedToolCall cfg row
  let name ← (paused.get? "toolName").bind Json.asString
  let tool ← cfg.byAggregatedName name
  pure (tool, Json.nullish (paused.get? "toolInput") .empty)

/-- The name in the recorded call, for the reply to a rejection. -/
def recoveredName (cfg : Config) (row : ApprovalInstance) : Option String := do
  let paused ← extractPausedToolCall cfg row
  (paused.get? "toolName").bind Json.asString

/-- The rejected branch of `pendingLookup`; its inner repair needs a pending row and never runs. -/
def lookupRejected (cfg : Config) (row : ApprovalInstance) (execution : AgentExecution) :
    Act ToolReply := do
  if execution.status ≠ .cancelled then
    updateExecution row.recordId { status := some .cancelled, completedAt := true }
    pure (.approvalRejected (recoveredName cfg row) row.recordId)
  else pure (.approvalRejected (recoveredName cfg row) row.recordId)

/-- The approved branch of `pendingLookup` from the recovery of the call on. -/
def lookupExecute (cfg : Config) (row : ApprovalInstance) : Act ToolReply :=
  match recoveredCall cfg row with
  | none => pure (.error "PAUSED_CALL_UNAVAILABLE")
  | some (tool, args) => executeAndComplete cfg (some row.id) tool row.recordId args

/-- The approved branch of `pendingLookup`. -/
def lookupApproved (cfg : Config) (row : ApprovalInstance) : Act ToolReply :=
  if row.status = .pending then do
    updateApproval row.id { status := some .approved, completedAt := true }
    lookupExecute cfg row
  else lookupExecute cfg row

/-- `pendingLookup` after the approval row was read. -/
def lookupRow (cfg : Config) (row : ApprovalInstance) : Act ToolReply := do
  let execution ← findExecutionOrFail row.recordId
  match lookupStatus row execution with
  | .pending => pure (.waiting row.id)
  | .rejected => lookupRejected cfg row execution
  | .approved => lookupApproved cfg row
  | .recalled => lookupApproved cfg row
  | .expired => lookupApproved cfg row

/-- `pendingLookup` -/
def pendingLookup (cfg : Config) (approvalId : String) : Act ToolReply :=
  if approvalId = "" then pure (.error "approval_id is required")
  else
    match cfg.idOf approvalId with
    | none => pure (.error ("UNKNOWN_APPROVAL:" ++ approvalId))
    | some id => do
      match ← findApproval id with
      | none => pure (.error ("UNKNOWN_APPROVAL:" ++ approvalId))
      | some row => lookupRow cfg row

def pendingLookupTool : String := "governance_pending__lookup"

/-- `String(args.approval_id ?? '')` -/
def approvalIdArg (cfg : Config) (args : Json) : String :=
  match args.get? "approval_id" with
  | none => ""
  | some .null => ""
  | some v => cfg.text v

/-- The decision an elicited answer stands for. -/
def ElicitResult.decision? (answer : ElicitResult) : Option String :=
  if answer.action = .accept then answer.decision else none

/-- The elicitation branch of the `tools/call` handler. -/
def elicitDecision (cfg : Config) (tool : AggregatedTool) (name : String) (args : Json)
    (executionId approvalId : Id) (riskLevel : String) : Act ToolReply := do
  match ← elicit ("Governance approval required: " ++ name ++ " (risk " ++ riskLevel ++ ").") with
  | .error error => .throw error
  | .ok answer =>
    if answer.decision? = some "APPROVED" then
      decideApproval approvalId .approved "mcp-elicitation"
      executeAndComplete cfg (some approvalId) tool executionId args
    else
      decideApproval approvalId .rejected "mcp-elicitation"
      pure (.approvalRejected (some name) executionId)

/-- The `tools/call` handler; `elicitation` is the client's capability. -/
def toolsCall (cfg : Config) (elicitation : Bool) (name : String) (args : Json) :
    Act ToolReply :=
  if name = pendingLookupTool then pendingLookup cfg (approvalIdArg cfg args)
  else
    match cfg.byAggregatedName name with
    | none => pure (.blocked ("TOOL_NOT_ALLOWED:" ++ name) none)
    | some tool => do
      match ← gate cfg name args with
      | .blocked executionId _ reason => pure (.blocked reason (some executionId))
      | .allow executionId _ => executeAndComplete cfg none tool executionId args
      | .paused executionId _ approvalId riskLevel =>
        if elicitation then elicitDecision cfg tool name args executionId approvalId riskLevel
        else pure (.approvalPending approvalId executionId name riskLevel)

/-! ## Operations -/

/-- The calls of the kernel from outside, each with its arguments. -/
inductive Operation where
  | run (input : ExecutorInput)
  | resumePaused (input : ResumeInput)
  | gate (toolName : String) (toolInput : Json)
  | complete (executionId : Id) (outcome : GateOutcome)
  | postDecide (approvalId : Id) (decision comment : Option String)
  | decideApproval (approvalId : Id) (decision : Decision) (actor : String)
  | toolsCall (elicitation : Bool) (name : String) (args : Json)

/-- The program of an operation; its reply goes to the caller. -/
def Operation.program (cfg : Config) : Operation → Act Unit
  | .run input => do let _ ← Governance.run cfg input; pure ()
  | .resumePaused input => do let _ ← Governance.resumePaused cfg input; pure ()
  | .gate toolName toolInput => do let _ ← Governance.gate cfg toolName toolInput; pure ()
  | .complete executionId outcome => Governance.complete cfg executionId outcome
  | .postDecide approvalId decision comment => do
    let _ ← Governance.postDecide cfg approvalId decision comment; pure ()
  | .decideApproval approvalId decision actor =>
    Governance.decideApproval approvalId decision actor
  | .toolsCall elicitation name args => do
    let _ ← Governance.toolsCall cfg elicitation name args; pure ()

/-- The world after an operation that nothing interrupts. -/
def serve (cfg : Config) (ans : Answers) (w : World) (op : Operation) : World :=
  ((op.program cfg).run (exec ans) w).2

/-- The world after a sequence of operations. -/
def serveAll (cfg : Config) (ans : Answers) (w : World) (ops : List Operation) : World :=
  ops.foldl (serve cfg ans) w

/-- No request is served. -/
@[simp] lemma serveAll_nil (cfg : Config) (ans : Answers) (w : World) :
    serveAll cfg ans w [] = w := rfl

/-- The requests are served from the first. -/
@[simp] lemma serveAll_cons (cfg : Config) (ans : Answers) (w : World) (op : Operation)
    (ops : List Operation) :
    serveAll cfg ans w (op :: ops) = serveAll cfg ans (serve cfg ans w op) ops := rfl

/-! ## A small deployment -/

/-- The call that a gate request for `mail__send` without arguments records when it pauses. -/
def smallCall : Json :=
  .obj
    [("toolName", .str "mail__send"),
      ("toolInput", .empty),
      ("riskLevel", .str "L3"),
      ("description", .str "hold")]

/-- A model response that proposes the call. -/
def smallProposal : Json :=
  .obj [("action", .obj [("type", .str "tool_call"), ("toolName", .str "mail__send")])]

/-- A model response that ends the loop. -/
def smallFinish : Json :=
  .obj [("action", .obj [("type", .str "finish")])]

/-- The number that decimal digits denote. -/
def decimal (text : String) : Option Id :=
  text.toList.foldlM
    (fun n c => if c.isDigit then some (10 * n + (c.toNat - '0'.toNat)) else none) 0

/-- One tool, every call of which needs an approval; `parse` knows the texts that occur. -/
def Config.small : Config where
  rules :=
    [{ id := "r1"
       workspaceId := 1
       name := "hold"
       isActive := true
       priority := 0
       conditions := some {}
       riskLevel := "L3" }]
  tools := ["mail__send"]
  maxIterations := 8
  workspaceId := 1
  agentId := 2
  ws := 1
  allowedTools := ["mail__send"]
  aggregated := [{ upstream := "mail", name := "send", aggregatedName := "mail__send" }]
  stringify := Json.render
  parse := fun text =>
    [smallCall, smallProposal, smallFinish].find? fun v => v.render = text
  below := fun _ _ => false
  toText := fun _ => "[object Object]"
  idOf := decimal

/-- The same deployment without rules: a granted call is allowed. -/
def Config.lenient : Config :=
  { Config.small with rules := [] }

/-- An outside where everything succeeds: the model finishes at once, the user approves. -/
def Answers.small : Answers where
  chat := fun _ => .ok smallFinish.render
  toolBody := fun _ _ _ =>
    .ok
      { success := true
        output := .json .empty
        error := none
        permissionCheck := .passed
        guardrailCheck := .passed }
  upstream := fun _ => .ok { content := [], isError := false }
  elicit := fun _ => .ok { action := .accept, decision := some "APPROVED" }
  canApprove := fun _ _ _ => true

/-- The store after a gate request paused for approval `3`. -/
def pausedWorld : World :=
  serve .small .small .empty (.gate "mail__send" .empty)

/-- A model that first proposes the call and finishes once it has seen the outcome. -/
def Answers.proposing : Answers :=
  { Answers.small with
    chat := fun clock => .ok (if clock < 5 then smallProposal else smallFinish).render }

/-- A run that the proposal paused: execution 0 waits for approval 3. -/
def pausedRun : World :=
  serve .small .proposing World.empty
    (.run { workspaceId := 1, agentId := 2, rawInput := "go", allowedTools := ["mail__send"] })

end NexusClaw.Governance
