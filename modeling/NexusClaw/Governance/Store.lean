import Mathlib.Data.List.Sort
import NexusClaw.Concurrent.Outline
import NexusClaw.Concurrent.Table
import NexusClaw.Governance.Entities

/-!
# The store and the outside world

`World` is everything the governance kernel shares between requests: the tables of the database,
the bus of approval events, the audit log, and the trace of what was done outside (model calls, tool
bodies, upstream calls). `Stmt` lists the awaited operations of the source, one constructor for one
repository statement or external call, and `exec` is what each does; a repository statement is
atomic, as a single SQL statement is.

What the outside answers (the model, a tool body, an upstream server, the elicited user, a custom
approver check) is `Answers`, indexed by a clock that every such call advances: two calls may be
answered differently in any way, so a statement about all `Answers` covers every behaviour.
-/

namespace NexusClaw.Governance
open Concurrent

/-! ## External calls -/

/-- What a tool or a caller reports as output: it may be `undefined`, or a value that is not JSON. -/
inductive JsOutput where
  | undefined
  | json (v : Json)
  | notJson

/-- `ToolCallResult` of `@agent-governance/contracts`. -/
structure ToolCallResult where
  success : Bool
  output : JsOutput
  error : Option String
  permissionCheck : PermissionCheck
  guardrailCheck : GuardrailCheck

structure UpstreamCallResult where
  content : List Json
  isError : Bool

inductive ElicitAction where
  | accept
  | decline
  | cancel
deriving DecidableEq, Repr

/-- The answer to the elicitation form: `content.decision` is present only if the user gave it. -/
structure ElicitResult where
  action : ElicitAction
  decision : Option String
deriving DecidableEq, Repr

/-- A tool of an upstream MCP server under its aggregated name. -/
structure AggregatedTool where
  upstream : String
  name : String
  aggregatedName : String
deriving DecidableEq, Repr

structure ChatMessage where
  role : String
  content : String
deriving DecidableEq, Repr

/-- An entry of the trace of external calls. An upstream call made for an approval carries the
approval's id, which is no argument of `callTool`; a tool body carries the call site. -/
inductive Effect where
  | chat (response : Except String String)
  | toolBody (origin : Origin) (name : String) (input : Json)
  | upstreamCall (approvalId : Option Id) (tool : AggregatedTool) (args : Json)

/-- The events of `ApprovalEventsPort`. -/
inductive ApprovalEvent where
  | created (instanceId agentExecutionId : Id) (toolName riskLevel : String)
  | stepAdvanced (instanceId : Id) (stepIndex : Nat)
  | escalated (instanceId : Id) (fromStep toStep : Nat)
  | agentResume (workspaceId agentExecutionId instanceId : Id) (pausedToolCall : Option Json)
  | agentTerminate (workspaceId agentExecutionId instanceId : Id) (reason : String)

/-- The calls of `ApprovalAuditPort`. -/
inductive AuditEntry where
  | logGuardrailEvent (workspaceId executionId : Id) (riskLevel operationType : String)
      (objectApiName : Option String) (approvalId : Id) (description : String)
  | updateByApprovalId (approvalId : Id) (approvalStatus : String) (approverId : Option String)

/-! ## The world -/

structure World where
  clock : Nat
  executions : Table Id AgentExecution
  approvals : Table Id ApprovalInstance
  approvalSteps : List ApprovalStep
  toolCalls : List ToolCallRecord
  steps : List ReactStep
  outbox : List OutboxEvent
  bus : List ApprovalEvent
  auditLog : List AuditEntry
  trace : List Effect

/-- The store before the first request. -/
def World.empty : World where
  clock := 0
  executions := fun _ => none
  approvals := fun _ => none
  approvalSteps := []
  toolCalls := []
  steps := []
  outbox := []
  bus := []
  auditLog := []
  trace := []

/-- The terminal events of an execution. -/
def terminalEvents (w : World) (e : Id) : List OutboxEvent :=
  w.outbox.filter fun event => event.aggregateId = e && event.eventType.terminal

/-- What the outside answers at each value of the clock. -/
structure Answers where
  chat : Nat → Except String String
  toolBody : Nat → String → Json → Except String ToolCallResult
  upstream : Nat → Except String UpstreamCallResult
  elicit : Nat → Except String ElicitResult
  canApprove : Nat → ApprovalStep → String → Bool

/-! ## Statements -/

inductive Stmt where
  | createExecution (row : AgentExecution)
  | findExecution (id : Id)
  | updateExecution (id : Id) (patch : ExecutionPatch)
  | createApproval (row : ApprovalInstance)
  | findApproval (id : Id)
  | updateApproval (id : Id) (patch : ApprovalPatch)
  | updatePendingApproval (id workspaceId : Id) (stepIndex : Nat) (patch : ApprovalPatch)
  | saveApproval (row : ApprovalInstance)
  | findApprovalSteps (processId : Id)
  | canApprove (step : ApprovalStep) (approverId : String)
  | createToolCall (row : ToolCallRecord)
  | transitionToolCall (id : Id) (expected : List ToolCallStatus) (patch : ToolCallPatch)
  | findToolCalls (executionId : Id)
  | createStep (row : ReactStep)
  | findSteps (executionId : Id)
  | enqueue (event : OutboxEvent)
  | emit (event : ApprovalEvent)
  | audit (entry : AuditEntry)
  | chat (messages : List ChatMessage)
  | runTool (origin : Origin) (name : String) (input : Json)
  | callTool (approvalId : Option Id) (tool : AggregatedTool) (args : Json)
  | elicit (message : String)

/-- The response of a statement; an update returns the number of affected rows where the source
reads it. -/
abbrev Stmt.Resp : Stmt → Type
  | .createExecution _ => AgentExecution
  | .findExecution _ => Option AgentExecution
  | .updateExecution _ _ => Unit
  | .createApproval _ => ApprovalInstance
  | .findApproval _ => Option ApprovalInstance
  | .updateApproval _ _ => Unit
  | .updatePendingApproval _ _ _ _ => Nat
  | .saveApproval _ => Unit
  | .findApprovalSteps _ => List ApprovalStep
  | .canApprove _ _ => Bool
  | .createToolCall _ => ToolCallRecord
  | .transitionToolCall _ _ _ => Nat
  | .findToolCalls _ => List ToolCallRecord
  | .createStep _ => Unit
  | .findSteps _ => List ReactStep
  | .enqueue _ => Unit
  | .emit _ => Unit
  | .audit _ => Unit
  | .chat _ => Except String String
  | .runTool _ _ _ => Except String ToolCallResult
  | .callTool _ _ _ => Except String UpstreamCallResult
  | .elicit _ => Except String ElicitResult

/-- The rows that the conditional update of `saveDecisionFirstWriter` selects. -/
def ApprovalInstance.isPendingAt (row : ApprovalInstance) (workspaceId : Id) (stepIndex : Nat) :
    Bool :=
  row.workspaceId = workspaceId && row.status = .pending && row.currentStepIndex = stepIndex

/-- The rows that `transition` selects. -/
def ToolCallRecord.selected (row : ToolCallRecord) (id : Id) (expected : List ToolCallStatus) :
    Bool :=
  row.id = id && expected.contains row.status

/-- The meaning of a statement. -/
def exec (ans : Answers) : (s : Stmt) → World → World × s.Resp
  | .createExecution row, w =>
    let row := { row with id := w.clock }
    ({ w with clock := w.clock + 1, executions := w.executions.put row.id row }, row)
  | .findExecution id, w => (w, w.executions id)
  | .updateExecution id patch, w =>
    ({ w with executions := w.executions.modify id (·.patch patch) }, ())
  | .createApproval row, w =>
    let row := { row with id := w.clock }
    ({ w with clock := w.clock + 1, approvals := w.approvals.put row.id row }, row)
  | .findApproval id, w => (w, w.approvals id)
  | .updateApproval id patch, w =>
    ({ w with approvals := w.approvals.modify id (·.patch patch) }, ())
  | .updatePendingApproval id workspaceId stepIndex patch, w =>
    ({ w with
        approvals := w.approvals.modify id fun row =>
          if row.isPendingAt workspaceId stepIndex then row.patch patch else row },
      if (w.approvals id).any (·.isPendingAt workspaceId stepIndex) then 1 else 0)
  | .saveApproval row, w => ({ w with approvals := w.approvals.put row.id row }, ())
  | .findApprovalSteps processId, w =>
    (w, (w.approvalSteps.filter (·.approvalProcessId = processId)).insertionSort
      (fun a b => a.stepOrder ≤ b.stepOrder))
  | .canApprove step approverId, w =>
    ({ w with clock := w.clock + 1 }, ans.canApprove w.clock step approverId)
  | .createToolCall row, w =>
    let row := { row with id := w.clock }
    ({ w with clock := w.clock + 1, toolCalls := w.toolCalls ++ [row] }, row)
  | .transitionToolCall id expected patch, w =>
    ({ w with
        toolCalls := w.toolCalls.map fun row =>
          if row.selected id expected then row.patch patch else row },
      w.toolCalls.countP (·.selected id expected))
  | .findToolCalls executionId, w => (w, w.toolCalls.filter (·.executionId = executionId))
  | .createStep row, w =>
    ({ w with clock := w.clock + 1, steps := w.steps ++ [{ row with id := w.clock }] }, ())
  | .findSteps executionId, w =>
    (w, (w.steps.filter (·.executionId = executionId)).insertionSort
      (fun a b => a.stepIndex ≤ b.stepIndex))
  | .enqueue event, w =>
    ({ w with
        clock := w.clock + 1
        outbox := w.outbox ++ [{ event with id := w.clock, createdAt := w.clock }] }, ())
  | .emit event, w => ({ w with bus := w.bus ++ [event] }, ())
  | .audit entry, w => ({ w with auditLog := w.auditLog ++ [entry] }, ())
  | .chat _, w =>
    ({ w with clock := w.clock + 1, trace := w.trace ++ [.chat (ans.chat w.clock)] },
      ans.chat w.clock)
  | .runTool origin name input, w =>
    ({ w with clock := w.clock + 1, trace := w.trace ++ [.toolBody origin name input] },
      ans.toolBody w.clock name input)
  | .callTool approvalId tool args, w =>
    ({ w with clock := w.clock + 1, trace := w.trace ++ [.upstreamCall approvalId tool args] },
      ans.upstream w.clock)
  | .elicit _, w => ({ w with clock := w.clock + 1 }, ans.elicit w.clock)

/-! ## Programs of the kernel -/

/-- A program of the governance kernel; an exception is its message. -/
abbrev Act (α : Type) : Type :=
  Prog Stmt Stmt.Resp String α

abbrev createExecution (row : AgentExecution) : Act AgentExecution := .call (Stmt.createExecution row)

abbrev findExecution (id : Id) : Act (Option AgentExecution) := .call (Stmt.findExecution id)

abbrev updateExecution (id : Id) (patch : ExecutionPatch) : Act Unit :=
  .call (Stmt.updateExecution id patch)

abbrev createApproval (row : ApprovalInstance) : Act ApprovalInstance := .call (Stmt.createApproval row)

abbrev findApproval (id : Id) : Act (Option ApprovalInstance) := .call (Stmt.findApproval id)

abbrev updateApproval (id : Id) (patch : ApprovalPatch) : Act Unit :=
  .call (Stmt.updateApproval id patch)

abbrev updatePendingApproval (id workspaceId : Id) (stepIndex : Nat) (patch : ApprovalPatch) :
    Act Nat :=
  .call (Stmt.updatePendingApproval id workspaceId stepIndex patch)

abbrev saveApproval (row : ApprovalInstance) : Act Unit := .call (Stmt.saveApproval row)

abbrev findApprovalSteps (processId : Id) : Act (List ApprovalStep) :=
  .call (Stmt.findApprovalSteps processId)

abbrev canApprove (step : ApprovalStep) (approverId : String) : Act Bool :=
  .call (Stmt.canApprove step approverId)

abbrev createToolCall (row : ToolCallRecord) : Act ToolCallRecord := .call (Stmt.createToolCall row)

abbrev transitionToolCall (id : Id) (expected : List ToolCallStatus) (patch : ToolCallPatch) :
    Act Nat :=
  .call (Stmt.transitionToolCall id expected patch)

abbrev findToolCalls (executionId : Id) : Act (List ToolCallRecord) :=
  .call (Stmt.findToolCalls executionId)

abbrev createStep (row : ReactStep) : Act Unit := .call (Stmt.createStep row)

abbrev findSteps (executionId : Id) : Act (List ReactStep) := .call (Stmt.findSteps executionId)

abbrev enqueue (event : OutboxEvent) : Act Unit := .call (Stmt.enqueue event)

abbrev emit (event : ApprovalEvent) : Act Unit := .call (Stmt.emit event)

abbrev audit (entry : AuditEntry) : Act Unit := .call (Stmt.audit entry)

abbrev chat (messages : List ChatMessage) : Act (Except String String) := .call (Stmt.chat messages)

abbrev runTool (origin : Origin) (name : String) (input : Json) :
    Act (Except String ToolCallResult) :=
  .call (Stmt.runTool origin name input)

abbrev callTool (approvalId : Option Id) (tool : AggregatedTool) (args : Json) :
    Act (Except String UpstreamCallResult) :=
  .call (Stmt.callTool approvalId tool args)

abbrev elicit (message : String) : Act (Except String ElicitResult) := .call (Stmt.elicit message)

/-- A computation that may throw, as a program without statements. -/
def Act.ofExcept {α : Type} : Except String α → Act α
  | .ok a => .ret a
  | .error e => .throw e

/-- A value is returned. -/
@[simp] lemma Act.ofExcept_ok {α : Type} (a : α) : Act.ofExcept (.ok a) = .ret a := rfl

/-- An error is thrown. -/
@[simp] lemma Act.ofExcept_error {α : Type} (e : String) :
    (Act.ofExcept (.error e) : Act α) = .throw e := rfl

def findExecutionOrFail (id : Id) : Act AgentExecution := do
  match ← findExecution id with
  | none => .throw "EntityNotFoundError"
  | some row => pure row

def findApprovalOrFail (id : Id) : Act ApprovalInstance := do
  match ← findApproval id with
  | none => .throw "EntityNotFoundError"
  | some row => pure row

/-- A lookup of an execution in front of the rest. -/
lemma findExecutionOrFail_bind {α : Type} (id : Id) (f : AgentExecution → Act α) :
    (findExecutionOrFail id >>= f) =
      .stmt (.findExecution id) fun
        | none => .throw "EntityNotFoundError"
        | some row => f row := by
  unfold findExecutionOrFail
  simp only [Prog.call_bind, Prog.stmt_bind]
  congr 1
  funext r
  cases r <;> rfl

/-- A lookup of an approval in front of the rest. -/
lemma findApprovalOrFail_bind {α : Type} (id : Id) (f : ApprovalInstance → Act α) :
    (findApprovalOrFail id >>= f) =
      .stmt (.findApproval id) fun
        | none => .throw "EntityNotFoundError"
        | some row => f row := by
  unfold findApprovalOrFail
  simp only [Prog.call_bind, Prog.stmt_bind]
  congr 1
  funext r
  cases r <;> rfl

/-! ## Outline rules for the reads that throw -/

section outline
variable {ι : Type} [DecidableEq ι] {ans : Answers}
variable {I : World → (ι → History Stmt Stmt.Resp) → Prop}
variable {G : World → (ι → History Stmt Stmt.Resp) → ι → Stmt → Prop}
variable {α : Type} {Q : History Stmt Stmt.Resp → Except String α → Prop}
variable {i : ι} {h : History Stmt Stmt.Resp}

/-- The outline behind the lookup of an execution. -/
lemma outline_findExecutionOrFail {id : Id} {f : AgentExecution → Act α}
    (hQ : ∀ h e, Q h (.error e))
    (hf : ∀ w H, I w H → H i = h → G w H i (.findExecution id) →
      I (exec ans (.findExecution id) w).1 (observe H i (.findExecution id) (exec ans (.findExecution id) w).2) ∧
        ∀ row, w.executions id = some row →
        Outline (exec ans) I G Q i (h ++ [⟨.findExecution id, some row⟩]) (f row)) :
    Outline (exec ans) I G Q i h (findExecutionOrFail id >>= f) := by
  rw [findExecutionOrFail_bind]
  intro w H hI hH hG
  obtain ⟨hI', hrest⟩ := hf w H hI hH hG
  refine ⟨hI', ?_⟩
  show Outline (exec ans) I G Q i (h ++ [⟨.findExecution id, w.executions id⟩]) _
  cases hr : w.executions id with
  | none =>
    simp only [exec, hr]
    exact hQ _ _
  | some row =>
    simp only [exec, hr]
    exact hrest row hr

/-- The outline behind the lookup of an approval. -/
lemma outline_findApprovalOrFail {id : Id} {f : ApprovalInstance → Act α}
    (hQ : ∀ h e, Q h (.error e))
    (hf : ∀ w H, I w H → H i = h → G w H i (.findApproval id) →
      I (exec ans (.findApproval id) w).1 (observe H i (.findApproval id) (exec ans (.findApproval id) w).2) ∧
        ∀ row, w.approvals id = some row →
        Outline (exec ans) I G Q i (h ++ [⟨.findApproval id, some row⟩]) (f row)) :
    Outline (exec ans) I G Q i h (findApprovalOrFail id >>= f) := by
  rw [findApprovalOrFail_bind]
  intro w H hI hH hG
  obtain ⟨hI', hrest⟩ := hf w H hI hH hG
  refine ⟨hI', ?_⟩
  show Outline (exec ans) I G Q i (h ++ [⟨.findApproval id, w.approvals id⟩]) _
  cases hr : w.approvals id with
  | none =>
    simp only [exec, hr]
    exact hQ _ _
  | some row =>
    simp only [exec, hr]
    exact hrest row hr

end outline

end NexusClaw.Governance
