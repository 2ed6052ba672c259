import NexusClaw.Concurrent.Tracked
import NexusClaw.Jsonb
import NexusClaw.Governance.Guardrail
import NexusClaw.AgentRuntime.Entities

/-!
# The store and the ports of the backend

`World` is what the requests of the backend share. `Stmt` lists the awaited operations of the
executor engine, the tool registry and the Community resolver, one constructor for one repository
statement, outbox transaction or port call, and `exec` is what each does. Two constructors are no
operation of the source: `propose` marks the point at which the gates first see a proposed call and
gives that point its number, and `enterAgentRequestContext` is a call that is not awaited.

What the outside answers is `Answers`, indexed by a clock that every statement advances. Every
repository statement, outbox transaction and port call may throw (`Answers.fails`), and then it has
no effect. A tool body that throws has been run all the same, so its exception is a part of its
answer.
-/

namespace NexusClaw.AgentRuntime
open Concurrent
open Governance (Id ExecutionStatus ToolCallStatus JsOutput)

/-! ## The world -/

/-- A tool call as the model proposes it, with what the gates of the loop read. -/
structure Proposal where
  executionId : Id
  workspaceId : Id
  toolName : String
  toolInput : Json
  sensitiveOps : List SensitiveOpRule
  guardrailRuleIds : Option (List String)

/-- The proposal that an invocation of a tool belongs to, and the approval it is made under. -/
structure Invocation where
  call : Id
  approval : Option Id
deriving DecidableEq, Repr

/-- What is done outside the store. -/
inductive Effect where
  | proposed (call : Id) (proposal : Proposal)
  | toolBody (invocation : Invocation) (name : String) (input : Json)
  | requestContext (executionId : Id) (principal : Caller)
  | configured (agentId : Id) (input : UpdateAgentConfigInput)

/-- A row of `guardrail_logs`. -/
structure GuardrailLog where
  executionId : Id
  riskLevel : String
  operationType : String
  actionTaken : String
  approvalId : Option Id := none

structure World where
  clock : Nat
  agents : List Agent
  grants : List ObjectGrant
  metadata : List ObjectMetadata
  executions : Table Id AgentExecution
  approvals : Table Id ApprovalInstance
  steps : List ReactStep
  toolCalls : List ToolCallRecord
  outbox : List OutboxEvent
  guardrailLogs : List GuardrailLog
  trace : List Effect

def World.tick (w : World) : World :=
  { w with clock := w.clock + 1 }

/-- A deployment before its first request. -/
def World.fresh (agents : List Agent) (grants : List ObjectGrant) (metadata : List ObjectMetadata) :
    World where
  clock := 0
  agents
  grants
  metadata
  executions := fun _ => none
  approvals := fun _ => none
  steps := []
  toolCalls := []
  outbox := []
  guardrailLogs := []
  trace := []

/-- What the outside answers at each value of the clock; `asText` is what the database driver writes
into a `text` column for a value that is no text. -/
structure Answers where
  fails : Nat → Option String
  preflight : Nat → BudgetDecision
  checkIteration : Nat → Bool
  getActiveText : Nat → Option String
  now : Nat → Nat
  chat : Nat → ChatResponse
  toolBody : Nat → Except String ToolCallResult
  asText : Json → String

/-! ## Columns -/

/-- The output of a step in its `jsonb` column; one that is not JSON does not get past `finalize`. -/
def outputColumn : JsOutput → Json
  | .json v => v.jsonb
  | _ => .null

/-- A row as it is read: an action and an output come through their columns, and NULL is `null`. No
reader of a step reads its thought. -/
def ReactStep.loaded (asText : Json → String) (row : ReactStep) : ReactStep :=
  { row with
    action :=
      { type := row.action.type
        toolName := some (Json.textColumn asText row.action.toolName)
        toolInput := some (Json.jsonbColumn row.action.toolInput)
        generatePrompt := some (Json.textColumn asText row.action.generatePrompt) }
    observationOutput := .json (outputColumn row.observationOutput) }

/-! ## Execution contexts -/

/-- `new Set(ids)` read in order and looked up in the metadata of the workspace. -/
def apiName (metadata : List ObjectMetadata) (workspaceId objectMetadataId : Id) : Option String :=
  (metadata.find? fun item => item.id = objectMetadataId && item.workspaceId = workspaceId).map
    (·.nameSingular)

/-- The permissions that a role's grants project to. -/
def objectPermissions (metadata : List ObjectMetadata) (workspaceId : Id)
    (grants : List ObjectGrant) : List ObjectPermission :=
  grants.flatMap fun grant =>
    match apiName metadata workspaceId grant.objectMetadataId with
    | none => []
    | some "" => []
    | some objectApiName =>
      [{ objectApiName
         canRead := grant.canRead
         canCreate := grant.canCreate
         canUpdate := grant.canEdit
         canDelete := grant.canDelete }]

/-- A malformed value falls back to 4. -/
def ExecutionRules.steps (rules : ExecutionRules) : Nat :=
  match rules.maxReActIterations with
  | none => 4
  | some n => if n.den = 1 ∧ 1 ≤ n ∧ n ≤ 50 then n.num.toNat else 4

/-- A malformed value falls back to a minute. -/
def ExecutionRules.timeout (rules : ExecutionRules) : Rat :=
  match rules.timeoutMs with
  | none => 60000
  | some n => if 1000 ≤ n ∧ n ≤ 600000 then n else 60000

/-- `agent.serviceUserId && agent.roleId` -/
def Agent.identity (agent : Agent) : Option (Id × Id) :=
  match agent.serviceUserId, agent.roleId with
  | some serviceUserId, some roleId => some (serviceUserId, roleId)
  | _, _ => none

/-- The rules of a `sensitiveOps` that is a list. -/
def GuardrailRules.rules (rules : GuardrailRules) : List SensitiveOpRule :=
  match rules.sensitiveOps with
  | some (.arr rows) => rows
  | _ => []

def communityConstraints (agent : Agent) : Constraints where
  maxTokens := 4096
  maxOutputTokensPerStep := some 512
  maxStepTokens := some 1024
  timeoutMs := agent.guardrailRules.execution.timeout
  maxToolCalls := 4
  allowedTools := agent.guardrailRules.allowedTools
  maxReActIterations := agent.guardrailRules.execution.steps
  maxToolRetryAttempts := some 0
  sensitiveOps := agent.guardrailRules.rules
  guardrailRuleIds := agent.guardrailRules.ruleIds

/-- The context of an agent that acts under the role `roleId` as `actor`. -/
def contextFor (agent : Agent) (workspaceId executionId roleId : Id) (actor : ActorType × Id)
    (dataScope : DataScope) (caller : Option Caller) (grants : List ObjectGrant)
    (metadata : List ObjectMetadata) : ExecutionContext where
  executionId
  workspaceId
  triggeredBy := caller.map (·.userId)
  actorType := actor.1
  actorId := actor.2
  security :=
    { agentId := agent.id
      roleId
      objectPermissions :=
        objectPermissions metadata workspaceId (grants.filter (·.roleId = roleId))
      dataScope
      sensitiveOps := agent.guardrailRules.rules }
  constraints := communityConstraints agent
  dataAccessContext := caller

/-- `CommunityExecutionContextAdapter.buildContext` -/
def buildContext (agent : Agent) (workspaceId executionId : Id) (caller : Option Caller)
    (grants : List ObjectGrant) (metadata : List ObjectMetadata) :
    Except String ExecutionContext :=
  if agent.workspaceId ≠ workspaceId then .error "COMMUNITY_EXECUTION_WORKSPACE_MISMATCH"
  else
    match agent.identity, caller with
    | some (serviceUserId, roleId), caller =>
      let dataScope :=
        match agent.orgNodeId with
        | some orgNodeId => .orgSubtree orgNodeId [orgNodeId]
        | none => .own (caller.bind (·.orgNodeId))
      .ok (contextFor agent workspaceId executionId roleId (.agent, serviceUserId) dataScope caller
        grants metadata)
    | none, none => .error "COMMUNITY_EXECUTION_PRINCIPAL_REQUIRED"
    | none, some caller =>
      if caller.workspaceId ≠ workspaceId then .error "COMMUNITY_EXECUTION_PRINCIPAL_REQUIRED"
      else
        .ok (contextFor agent workspaceId executionId caller.roleId (.user, caller.userId)
          (.own caller.orgNodeId) (some caller) grants metadata)

/-! ## Statements -/

inductive ChatPurpose where
  | planning
  | reactModelCall
  | structuredRepair
  | generation
deriving DecidableEq, Repr

inductive Stmt where
  | findAgent (id : Id) (workspaceId : Option Id)
  | buildContext (agent : Agent) (workspaceId executionId : Id) (caller : Option Caller)
  | enterAgentRequestContext (principal : Caller) (executionId : Id)
  | createExecution (row : AgentExecution)
  | findExecution (id : Id) (workspaceId : Option Id)
  | updateExecution (id : Id) (status : ExecutionStatus)
  | transaction (event : OutboxEvent) (patch : Option ExecutionPatch)
  | createApproval (row : ApprovalInstance)
  | findApproval (id workspaceId : Id)
  | findPendingApprovals (workspaceId : Id)
  | saveApproval (row : ApprovalInstance)
  | emitApprovalCreated (instanceId : Id)
  | logGuardrailEvent (entry : GuardrailLog)
  | createStep (row : ReactStep)
  | findSteps (executionId : Id)
  | createToolCall (row : ToolCallRecord)
  | transitionToolCall (id : Id) (expected : List ToolCallStatus) (patch : ToolCallPatch)
  | assertExecutionAllowed (workspaceId : Id)
  | preflight (workspaceId agentId : Id)
  | checkIteration (workspaceId agentId : Id) (iteration : Nat)
  | getActiveText (workspaceId : Id)
  | loadRules (workspaceId : Id) (ruleIds : List String)
  | now
  | chat (purpose : ChatPurpose) (messages : List ChatMessage) (maxTokens : Option Int) (tier : Nat)
  | prepareApproval (name : String) (input : Json)
  | runTool (invocation : Invocation) (name : String) (input : Json) (context : ExecutionContext)
  | propose (proposal : Proposal)
  | findAgentNamed (workspaceId : Id) (apiName : String)
  | updateAgent (id : Id) (patch : AgentPatch) (event : OutboxEvent)
    (input : UpdateAgentConfigInput)
  | createAgent (row : Agent) (event : OutboxEvent)

/-- What a statement returns when it does not throw. -/
abbrev Stmt.Out : Stmt → Type
  | .findAgent _ _ => Option Agent
  | .buildContext _ _ _ _ => ExecutionContext
  | .enterAgentRequestContext _ _ => Unit
  | .createExecution _ => AgentExecution
  | .findExecution _ _ => Option AgentExecution
  | .updateExecution _ _ => Unit
  | .transaction _ _ => Unit
  | .createApproval _ => ApprovalInstance
  | .findApproval _ _ => Option ApprovalInstance
  | .findPendingApprovals _ => List ApprovalInstance
  | .saveApproval _ => Unit
  | .emitApprovalCreated _ => Unit
  | .logGuardrailEvent _ => Unit
  | .createStep _ => Unit
  | .findSteps _ => List ReactStep
  | .createToolCall _ => ToolCallRecord
  | .transitionToolCall _ _ _ => Nat
  | .assertExecutionAllowed _ => Unit
  | .preflight _ _ => BudgetDecision
  | .checkIteration _ _ _ => Bool
  | .getActiveText _ => Option String
  | .loadRules _ _ => Unit
  | .now => Nat
  | .chat _ _ _ _ => ChatResponse
  | .prepareApproval _ _ => Unit
  | .runTool _ _ _ _ => Except String ToolCallResult
  | .propose _ => Id
  | .findAgentNamed _ _ => Option Agent
  | .updateAgent _ _ _ _ => Unit
  | .createAgent _ _ => Agent

/-- The response of a statement. -/
abbrev Stmt.Resp (s : Stmt) : Type :=
  Except String s.Out

/-- A repository statement, an outbox transaction or a port call. -/
def Stmt.fallible : Stmt → Bool
  | .enterAgentRequestContext _ _ => false
  | .now => false
  | .runTool _ _ _ _ => false
  | .propose _ => false
  | _ => true

/-- The rows that `transition` selects. -/
def ToolCallRecord.selected (row : ToolCallRecord) (id : Id) (expected : List ToolCallStatus) :
    Bool :=
  row.id = id && expected.contains row.status

/-- A row that a `where` with an optional workspace selects. -/
def inWorkspace (workspaceId : Option Id) (row : Id) : Bool :=
  workspaceId.all (· = row)

/-- What a statement answers in a world, unless it throws on its own. -/
def reply (ans : Answers) : (s : Stmt) → World → s.Resp
  | .findAgent id workspaceId, w =>
    .ok (w.agents.find? fun row => row.id = id && inWorkspace workspaceId row.workspaceId)
  | .buildContext agent workspaceId executionId caller, w =>
    buildContext agent workspaceId executionId caller w.grants w.metadata
  | .enterAgentRequestContext _ _, _ => .ok ()
  | .createExecution row, w => .ok { row with id := w.clock }
  | .findExecution id workspaceId, w =>
    .ok ((w.executions id).filter fun row => inWorkspace workspaceId row.workspaceId)
  | .updateExecution _ _, _ => .ok ()
  | .transaction _ _, _ => .ok ()
  | .createApproval row, w => .ok { row with id := w.clock }
  | .findApproval id workspaceId, w =>
    .ok ((w.approvals id).filter fun row => row.workspaceId = workspaceId)
  | .findPendingApprovals workspaceId, w =>
    .ok (((List.range w.clock).filterMap w.approvals).filter fun row =>
      row.workspaceId = workspaceId && row.status = .pending && row.objectName = "AgentExecution")
  | .saveApproval _, _ => .ok ()
  | .emitApprovalCreated _, _ => .ok ()
  | .logGuardrailEvent _, _ => .ok ()
  | .createStep _, _ => .ok ()
  | .findSteps executionId, w =>
    .ok (((w.steps.filter (·.executionId = executionId)).insertionSort
      (fun a b => a.stepIndex ≤ b.stepIndex)).map (·.loaded ans.asText))
  | .createToolCall row, w => .ok { row with id := w.clock }
  | .transitionToolCall id expected _, w => .ok (w.toolCalls.countP (·.selected id expected))
  | .assertExecutionAllowed _, _ => .ok ()
  | .preflight _ _, w => .ok (ans.preflight w.clock)
  | .checkIteration _ _ _, w => .ok (ans.checkIteration w.clock)
  | .getActiveText _, w => .ok (ans.getActiveText w.clock)
  | .loadRules _ _, _ => .ok ()
  | .now, w => .ok (ans.now w.clock)
  | .chat _ _ _ _, w => .ok (ans.chat w.clock)
  | .prepareApproval _ _, _ => .ok ()
  | .runTool _ _ _ _, w => .ok (ans.toolBody w.clock)
  | .propose _, w => .ok w.clock
  | .findAgentNamed workspaceId apiName, w =>
    .ok (w.agents.find? fun row => row.workspaceId = workspaceId && row.apiName = apiName)
  | .updateAgent _ _ _ _, _ => .ok ()
  | .createAgent row _, w => .ok { row with id := w.clock }

/-- What a statement that returned `a` has done. -/
def effect : (s : Stmt) → s.Out → World → World
  | .enterAgentRequestContext principal executionId, _, w =>
    { w with trace := w.trace ++ [.requestContext executionId principal] }
  | .createExecution _, row, w => { w with executions := w.executions.put row.id row }
  | .updateExecution id status, _, w =>
    { w with executions := w.executions.modify id (·.patch { status := some status }) }
  | .transaction event patch, _, w =>
    { w with
        executions :=
          match patch with
          | none => w.executions
          | some patch => w.executions.modify event.aggregateId (·.patch patch)
        outbox := w.outbox ++ [{ event with id := w.clock }] }
  | .createApproval _, row, w => { w with approvals := w.approvals.put row.id row }
  | .saveApproval row, _, w => { w with approvals := w.approvals.put row.id row }
  | .logGuardrailEvent entry, _, w => { w with guardrailLogs := w.guardrailLogs ++ [entry] }
  | .createStep row, _, w => { w with steps := w.steps ++ [{ row with id := w.clock }] }
  | .createToolCall _, row, w => { w with toolCalls := w.toolCalls ++ [row] }
  | .transitionToolCall id expected patch, _, w =>
    { w with
        toolCalls := w.toolCalls.map fun row =>
          if row.selected id expected then row.patch patch else row }
  | .runTool invocation name input _, _, w =>
    { w with trace := w.trace ++ [.toolBody invocation name input] }
  | .propose proposal, call, w => { w with trace := w.trace ++ [.proposed call proposal] }
  | .updateAgent id patch event input, _, w =>
    { w with
        agents := w.agents.map fun row => if row.id = id then row.patch patch else row
        outbox := w.outbox ++ [{ event with id := w.clock }]
        trace := w.trace ++ [.configured id input] }
  | .createAgent _ event, row, w =>
    { w with
        agents := w.agents ++ [row]
        outbox := w.outbox ++ [{ event with id := w.clock, aggregateId := row.id }] }
  | _, _, w => w

/-- The response of a statement: it throws where the outside makes it. -/
def answer (ans : Answers) (s : Stmt) (w : World) : s.Resp :=
  if s.fallible then
    match ans.fails w.clock with
    | some e => .error e
    | none => reply ans s w
  else reply ans s w

/-- The world after a statement with its response. -/
def settle (s : Stmt) (r : s.Resp) (w : World) : World :=
  match r with
  | .ok a => (effect s a w).tick
  | .error _ => w.tick

/-- The meaning of a statement. -/
def exec (ans : Answers) (s : Stmt) (w : World) : World × s.Resp :=
  (settle s (answer ans s w) w, answer ans s w)

/-! ## Programs of the backend -/

/-- A program of the backend; an exception is its message. -/
abbrev Act (α : Type) : Type :=
  Prog Stmt Stmt.Resp String α

/-- A value or the exception that the source throws in its place. -/
def Act.ofExcept {α : Type} : Except String α → Act α
  | .ok a => .ret a
  | .error e => .throw e

/-- One awaited statement. -/
def await (s : Stmt) : Act s.Out :=
  .stmt s Act.ofExcept

end NexusClaw.AgentRuntime
