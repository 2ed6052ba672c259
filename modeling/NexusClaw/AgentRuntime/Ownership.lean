import NexusClaw.AgentRuntime.Executor
import NexusClaw.AgentRuntime.Passes

/-!
# Rows in hand

What a program has been handed by its statements, and the statements that it may then issue: a row is
written only if it was handed to the program, or belongs to an execution that was, and a workspace is
named only as the program's own or as that of a row in hand. Every run of the executor engine obeys
this law for an execution in hand, whatever its statements are answered.
-/

namespace NexusClaw.AgentRuntime
open Concurrent
open Governance (Id ToolCallStatus PermissionCheck JsOutput)

/-! ## The law -/

/-- The rows that a program has been handed; `agentIds` are the ids under which it found an agent, and
`ran` are the contexts in which it ran the body of a tool. -/
structure Hand where
  agentIds : List Id := []
  agents : List Agent := []
  executions : List AgentExecution := []
  approvals : List ApprovalInstance := []
  toolCalls : List ToolCallRecord := []
  contexts : List ExecutionContext := []
  steps : List ReactStep := []
  ran : List ExecutionContext := []

/-- What a statement hands to the program. -/
def Hand.note (m : Hand) : (s : Stmt) → s.Resp → Hand
  | .findAgent id _, .ok (some row) =>
    { m with
      agentIds := id :: m.agentIds
      agents := row :: m.agents }
  | .findAgentNamed _ _, .ok (some row) => { m with agents := row :: m.agents }
  | .createExecution _, .ok row => { m with executions := row :: m.executions }
  | .findExecution _ _, .ok (some row) => { m with executions := row :: m.executions }
  | .findApproval _ _, .ok (some row) => { m with approvals := row :: m.approvals }
  | .findPendingApprovals _, .ok rows => { m with approvals := rows ++ m.approvals }
  | .createToolCall _, .ok row => { m with toolCalls := row :: m.toolCalls }
  | .buildContext _ _ _ _, .ok context => { m with contexts := context :: m.contexts }
  | .findSteps _, .ok rows => { m with steps := rows ++ m.steps }
  | .runTool _ _ _ context, _ => { m with ran := context :: m.ran }
  | _, _ => m

/-- What a program of the workspace may do with the rows in its hand. -/
def Hand.Allows (workspaceId : Id) (m : Hand) : Stmt → Prop
  | .findAgent id ws => ws = some workspaceId ∨ ∃ e ∈ m.executions, id = e.agentId
  | .buildContext _ ws id _ => ∃ e ∈ m.executions, ws = e.workspaceId ∧ id = e.id
  | .enterAgentRequestContext _ id => ∃ e ∈ m.executions, id = e.id
  | .createExecution row => row.workspaceId = workspaceId ∧ row.agentId ∈ m.agentIds
  | .findExecution id ws => ws = some workspaceId ∨ ∃ e ∈ m.executions, id = e.id
  | .updateExecution id _ => ∃ e ∈ m.executions, id = e.id
  | .transaction event _ =>
    ∃ e ∈ m.executions, event.workspaceId = e.workspaceId ∧ event.aggregateId = e.id
  | .createApproval row =>
    ∃ e ∈ m.executions, row.workspaceId = e.workspaceId ∧ row.recordId = e.id
  | .findApproval _ ws => ws = workspaceId
  | .findPendingApprovals ws => ws = workspaceId
  | .saveApproval row => ∃ a ∈ m.approvals, row.id = a.id ∧ row.workspaceId = a.workspaceId
  | .emitApprovalCreated _ => True
  | .logGuardrailEvent entry => (∃ e ∈ m.executions, entry.executionId = e.id) ∨
      ∃ c ∈ m.contexts, entry.executionId = c.executionId
  | .createStep row => ∃ e ∈ m.executions, row.executionId = e.id
  | .findSteps id => ∃ e ∈ m.executions, id = e.id
  | .createToolCall row => ∃ c ∈ m.contexts, row.executionId = c.executionId
  | .transitionToolCall id _ _ => ∃ t ∈ m.toolCalls, id = t.id
  | .assertExecutionAllowed ws => ws = workspaceId
  | .preflight ws _ => ∃ e ∈ m.executions, ws = e.workspaceId
  | .checkIteration ws _ _ => ∃ e ∈ m.executions, ws = e.workspaceId
  | .getActiveText ws => ∃ c ∈ m.contexts, ws = c.workspaceId
  | .loadRules ws _ => ∃ e ∈ m.executions, ws = e.workspaceId
  | .now => True
  | .chat _ _ _ _ => True
  | .prepareApproval _ _ => True
  | .runTool _ _ _ context =>
    ∃ c ∈ m.contexts, context.executionId = c.executionId ∧ context.workspaceId = c.workspaceId
  | .propose proposal =>
    ∃ e ∈ m.executions, proposal.executionId = e.id ∧ proposal.workspaceId = e.workspaceId
  | .findAgentNamed ws _ => ws = workspaceId
  | .updateAgent id _ event _ =>
    (∃ a ∈ m.agents, id = a.id) ∧ event.workspaceId = workspaceId
  | .createAgent row event => row.workspaceId = workspaceId ∧ event.workspaceId = workspaceId

/-- An execution that the program was handed, in whatever state. -/
def Hand.Has (m : Hand) (execution : AgentExecution) : Prop :=
  ∃ e ∈ m.executions, execution.id = e.id ∧ execution.workspaceId = e.workspaceId ∧
    execution.agentId = e.agentId

/-- A context that the program was handed, with whatever grant. -/
def Hand.Serves (m : Hand) (context : ExecutionContext) : Prop :=
  ∃ c ∈ m.contexts, context.executionId = c.executionId ∧ context.workspaceId = c.workspaceId

/-- What a run of the loop has in hand. -/
structure Hand.Runs (m : Hand) (execution : AgentExecution) (context : ExecutionContext) :
    Prop where
  execution : m.Has execution
  context : m.Serves context

/-- A program of the workspace that obeys the law. -/
abbrev Obeys {α : Type} (workspaceId : Id) (Q : Hand → Except String α → Prop) (m : Hand)
    (p : Act α) : Prop :=
  Tracked Hand.note (Hand.Allows workspaceId) Q m p

section hand
variable {workspaceId : Id} {m : Hand} {execution : AgentExecution} {context : ExecutionContext}

/-- What is in hand stays there: the executions. -/
lemma Hand.note_executions (m : Hand) (s : Stmt) (r : s.Resp) :
    m.executions ⊆ (m.note s r).executions := by
  cases s with
  | createExecution row =>
    rcases r with e | saved
    · exact List.Subset.refl _
    · exact List.subset_cons_self ..
  | findExecution id ws =>
    rcases r with e | row
    · exact List.Subset.refl _
    · cases row with
      | none => exact List.Subset.refl _
      | some row => exact List.subset_cons_self ..
  | _ =>
    rcases r with e | a
    · exact List.Subset.refl _
    · first
        | exact List.Subset.refl _
        | cases a <;> exact List.Subset.refl _

/-- The contexts. -/
lemma Hand.note_contexts (m : Hand) (s : Stmt) (r : s.Resp) :
    m.contexts ⊆ (m.note s r).contexts := by
  cases s with
  | buildContext agent ws id caller =>
    rcases r with e | context
    · exact List.Subset.refl _
    · exact List.subset_cons_self ..
  | _ =>
    rcases r with e | a
    · exact List.Subset.refl _
    · first
        | exact List.Subset.refl _
        | cases a <;> exact List.Subset.refl _

/-- The tool calls. -/
lemma Hand.note_toolCalls (m : Hand) (s : Stmt) (r : s.Resp) :
    m.toolCalls ⊆ (m.note s r).toolCalls := by
  cases s with
  | createToolCall row =>
    rcases r with e | row
    · exact List.Subset.refl _
    · exact List.subset_cons_self ..
  | _ =>
    rcases r with e | a
    · exact List.Subset.refl _
    · first
        | exact List.Subset.refl _
        | cases a <;> exact List.Subset.refl _

/-- An execution that is in hand stays so. -/
lemma Hand.Has.note (h : m.Has execution) (s : Stmt) (r : s.Resp) : (m.note s r).Has execution := by
  obtain ⟨e, he, heq⟩ := h
  exact ⟨e, m.note_executions s r he, heq⟩

/-- A context that is in hand stays so. -/
lemma Hand.Serves.note (h : m.Serves context) (s : Stmt) (r : s.Resp) :
    (m.note s r).Serves context := by
  obtain ⟨c, hc, heq⟩ := h
  exact ⟨c, m.note_contexts s r hc, heq⟩

/-- A run that is in hand stays so. -/
lemma Hand.Runs.note (h : m.Runs execution context) (s : Stmt) (r : s.Resp) :
    (m.note s r).Runs execution context :=
  ⟨h.execution.note s r, h.context.note s r⟩

end hand

/-! ## The registry -/

/-- A statement of the registry for the record of a call. -/
def Stmt.OfCall (call : ToolCallRecord) (context : ExecutionContext) : Stmt → Prop
  | .transitionToolCall id _ _ => id = call.id
  | .logGuardrailEvent entry => entry.executionId = context.executionId
  | .prepareApproval _ _ => True
  | .runTool _ _ _ c => c = context
  | _ => False

section registry
variable {cfg : Config} {invocation : Invocation} {tool : AgentTool} {input : Json}
  {context : ExecutionContext} {call : ToolCallRecord}

/-- A transition is one of its call. -/
lemma transition_ofCall (expected : List ToolCallStatus) (patch : ToolCallPatch) :
    (transition call.id expected patch).Uses (Stmt.OfCall call context) := by
  refine Prog.Uses.bind (await_uses rfl) fun affected => ?_
  rw [Prog.uses_ite]
  exact ⟨fun _ => trivial, fun _ => trivial⟩

/-- Finalizing is one of its call. -/
lemma finalizeCall_ofCall (output : JsOutput) (patch : ToolCallPatch) :
    (finalizeCall call.id output patch).Uses (Stmt.OfCall call context) := by
  unfold finalizeCall
  rw [Prog.uses_ite]
  exact ⟨fun _ => transition_ofCall .., fun _ => trivial⟩

/-- So is a refusal. -/
lemma refuse_ofCall (riskLevel error errorCode : String) (status : ToolCallStatus)
    (permissionCheck : PermissionCheck) :
    (refuse context tool call riskLevel error errorCode status permissionCheck).Uses
      (Stmt.OfCall call context) :=
  Prog.Uses.bind (await_uses rfl) fun _ => (transition_ofCall ..).bind fun _ => trivial

/-- So is the record of what the body threw. -/
lemma executionThrew_ofCall (error : String) :
    (executionThrew call error).Uses (Stmt.OfCall call context) :=
  (finalizeCall_ofCall ..).bind fun _ => trivial

/-- So is the run of the body. -/
lemma runStaticTool_ofCall :
    (runStaticTool invocation tool input context call).Uses (Stmt.OfCall call context) := by
  refine (transition_ofCall ..).bind fun _ => Prog.Uses.bind (await_uses rfl) fun ran => ?_
  cases ran with
  | error e => exact executionThrew_ofCall e
  | ok result =>
    refine (finalizeCall_ofCall ..).attempt.bind fun finalized => ?_
    cases finalized with
    | error e => exact executionThrew_ofCall e
    | ok _ => trivial

/-- So is an escalation. -/
lemma escalate_ofCall :
    (escalate tool input context call).Uses (Stmt.OfCall call context) := by
  have hprepare : (prepareApproval tool input).Uses (Stmt.OfCall call context) := by
    unfold prepareApproval
    rw [Prog.uses_ite]
    exact ⟨fun _ => await_uses trivial, fun _ => trivial⟩
  exact hprepare.bind fun _ => Prog.Uses.bind (await_uses rfl) fun _ =>
    (transition_ofCall ..).bind fun _ => trivial

/-- So is the gate of the levels. -/
lemma riskGate_ofCall :
    (riskGate invocation tool input context call).Uses (Stmt.OfCall call context) := by
  unfold riskGate
  rw [Prog.uses_ite, Prog.uses_ite, Prog.uses_ite]
  refine ⟨fun _ => refuse_ofCall .., fun _ => ⟨fun _ => ⟨fun _ => ?_, fun _ => ?_⟩, fun _ => ?_⟩⟩
  · exact Prog.Uses.bind (await_uses rfl) fun _ => runStaticTool_ofCall
  · exact escalate_ofCall
  · exact runStaticTool_ofCall

/-- So is everything behind the record of the call. -/
lemma executeRecorded_ofCall :
    (executeRecorded cfg invocation tool input context call).Uses (Stmt.OfCall call context) := by
  unfold executeRecorded
  rw [Prog.uses_ite]
  refine ⟨fun _ => refuse_ofCall .., fun _ => ?_⟩
  cases cfg.schemaError tool.inputSchema input with
  | some error => exact (finalizeCall_ofCall ..).bind fun _ => trivial
  | none =>
    cases permissionRefusal cfg tool input context with
    | error e => trivial
    | ok refusal =>
      cases refusal with
      | some refusal => exact refuse_ofCall ..
      | none => exact riskGate_ofCall

variable {workspaceId : Id} {m : Hand} {execution : AgentExecution} {served : ExecutionContext}

/-- The registry, with the context of the loop or with one that has a grant. -/
lemma executeTool_obeys (toolName : String) (h : m.Runs execution served)
    (hid : context.executionId = served.executionId)
    (hws : context.workspaceId = served.workspaceId) :
    Obeys workspaceId (fun m' _ => m'.Runs execution served) m
      (executeTool cfg invocation toolName input context) := by
  unfold executeTool
  cases cfg.tools.find? (·.name = toolName) with
  | none => exact h
  | some tool =>
    dsimp only
    refine tracked_ite.2 ⟨fun _ => h, fun _ => ?_⟩
    obtain ⟨c, hc, hcid, hcws⟩ := h.context
    unfold beginCall
    by_cases hinput : isJsonValue input = true
    rotate_left
    · rw [if_neg hinput]
      exact h
    rw [if_pos hinput]
    refine tracked_await_bind.2 ⟨⟨c, hc, hid.trans hcid⟩, fun call => ?_, fun e => h.note _ _⟩
    -- From here on the record of the call is in hand.
    refine Tracked.of_uses (J := fun m' => m'.Runs execution served ∧ call ∈ m'.toolCalls)
      executeRecorded_ofCall ⟨h.note _ _, List.mem_cons_self⟩ (fun m' s hs hm => ?_)
      (fun m' s r _ hm => ⟨hm.1.note s r, m'.note_toolCalls s r hm.2⟩) fun _ _ hm => hm.1
    obtain ⟨c, hc, hcid, hcws⟩ := hm.1.context
    cases s with
    | transitionToolCall id expected patch => exact ⟨call, hm.2, hs⟩
    | logGuardrailEvent entry => exact .inr ⟨c, hc, hs.trans (hid.trans hcid)⟩
    | prepareApproval name input => trivial
    | runTool invocation name input context' =>
      have heq : context' = context := hs
      exact ⟨c, hc, (congrArg (·.executionId) heq).trans (hid.trans hcid),
        (congrArg (·.workspaceId) heq).trans (hws.trans hcws)⟩
    | _ => exact hs.elim

/-- Every retry is a call of its own, by induction on the retries. -/
lemma retryTool_obeys (toolName : String) (retries retryCount : Nat)
    (h : m.Runs execution context) :
    Obeys workspaceId (fun m' _ => m'.Runs execution context) m
      (retryTool cfg invocation toolName input context retries retryCount) := by
  have hcall : ∀ m : Hand, m.Runs execution context →
      Obeys workspaceId (fun m' _ => m'.Runs execution context) m
        (executeTool cfg invocation toolName input context).attempt := fun m hm =>
    (executeTool_obeys toolName hm rfl rfl).attempt fun _ _ h => h
  induction retries generalizing m retryCount with
  | zero =>
    refine (hcall m h).bind (fun m result hm => ?_) fun _ _ hm => hm
    dsimp only
    rw [tracked_ite]
    exact ⟨fun _ => hm, fun _ => hm⟩
  | succ retries ih =>
    refine (hcall m h).bind (fun m result hm => ?_) fun _ _ hm => hm
    dsimp only
    rw [tracked_ite, tracked_ite]
    exact ⟨fun _ => hm, fun _ => ⟨fun _ => ih _ hm, fun _ => hm⟩⟩

end registry

/-! ## The loop -/

/-- A statement that every run of the execution may issue. -/
def Stmt.InRun (workspaceId : Id) (execution : AgentExecution) (s : Stmt) : Prop :=
  ∀ m : Hand, m.Has execution → m.Allows workspaceId s

section loop
variable {α : Type} {workspaceId : Id} {m : Hand} {execution : AgentExecution}
  {context : ExecutionContext}

/-- A program of a run keeps to its workspace. -/
lemma obeys_inRun {p : Act α} (hp : p.Uses (Stmt.InRun workspaceId execution))
    (h : m.Runs execution context) :
    Obeys workspaceId (fun m' _ => m'.Runs execution context) m p :=
  Tracked.of_uses hp h (fun m' _ hs hm => hs m' hm.execution) (fun _ s r _ hm => hm.note s r)
    fun _ _ hm => hm

/-- A program of a run keeps its execution in hand. -/
lemma obeys_has {p : Act α} (hp : p.Uses (Stmt.InRun workspaceId execution)) (h : m.Has execution) :
    Obeys workspaceId (fun m' _ => m'.Has execution) m p :=
  Tracked.of_uses hp h (fun m' _ hs hm => hs m' hm) (fun _ s r _ hm => hm.note s r) fun _ _ hm => hm

/-- A statement that needs the id of the execution. -/
lemma inRun_id {s : Stmt} (h : ∀ m : Hand, (∃ e ∈ m.executions, execution.id = e.id) →
    m.Allows workspaceId s) : s.InRun workspaceId execution := by
  rintro m ⟨e, he, hid, -, -⟩
  exact h m ⟨e, he, hid⟩

/-- The transaction at the end of a run. -/
lemma inRun_transaction (event : OutboxEvent) (patch : Option ExecutionPatch)
    (hws : event.workspaceId = execution.workspaceId) (hid : event.aggregateId = execution.id) :
    Stmt.InRun workspaceId execution (.transaction event patch) := by
  rintro m ⟨e, he, heid, hews, -⟩
  exact ⟨e, he, hws.trans hews, hid.trans heid⟩

/-- A stored step belongs to the run. -/
lemma persistStep_inRun (step : ReActStepData) :
    (persistStep execution step).Uses (Stmt.InRun workspaceId execution) :=
  await_uses (inRun_id fun _ h => h)

/-- So does a transition. -/
lemma handleStateTransition_inRun (newStatus : Governance.ExecutionStatus) :
    (handleStateTransition execution.id newStatus).Uses (Stmt.InRun workspaceId execution) := by
  refine Prog.Uses.bind (await_uses (inRun_id fun _ h => .inr h)) fun row => ?_
  cases row with
  | none => trivial
  | some row =>
    dsimp only
    exact (ofExcept_uses _).bind fun _ => await_uses (inRun_id fun _ h => h)

/-- So does the request for an approval. -/
lemma createAgentApproval_inRun {cfg : Config} {request : ApprovalRequest}
    (hid : request.agentExecutionId = execution.id)
    (hws : request.workspaceId = execution.workspaceId) :
    (createAgentApproval cfg request).Uses (Stmt.InRun workspaceId execution) := by
  unfold createAgentApproval
  rw [Prog.uses_ite]
  refine ⟨fun _ => trivial, fun _ => Prog.Uses.bind (await_uses ?_) fun _ =>
    Prog.Uses.bind (await_uses fun _ _ => trivial) fun _ => Prog.Uses.bind (await_uses ?_)
      fun _ => trivial⟩
  · rintro m ⟨e, he, heid, hews, -⟩
    exact ⟨e, he, hws.trans hews, hid.trans heid⟩
  · rintro m ⟨e, he, heid, -, -⟩
    exact .inl ⟨e, he, hid.trans heid⟩

end loop

/-- The law along the passes of the loop. -/
lemma obeys_frame (workspaceId : Id) (loop : Loop) :
    PassFrame Hand.note (Hand.Allows workspaceId) loop
      (fun m _ => m.Runs loop.execution loop.context)
      (fun m _ => m.Runs loop.execution loop.context)
      (fun m _ _ _ => m.Runs loop.execution loop.context)
      (fun m => m.Runs loop.execution loop.context) where
  early_thrown _ _ h := h
  inside_thrown _ _ _ _ h := h
  now m s h _ := by
    refine tracked_await.2 ⟨trivial, fun r => ?_⟩
    cases r with
    | ok now => exact h
    | error e => exact h
  iteration m s i h := by
    obtain ⟨e, he, -, hws, -⟩ := h.execution
    refine tracked_await.2 ⟨⟨e, he, hws⟩, fun r => ?_⟩
    cases r with
    | ok allowed => exact h
    | error e => exact h
  build m s h := by
    obtain ⟨c, hc, -, hws⟩ := h.context
    refine tracked_await.2 ⟨⟨c, hc, hws⟩, fun r => ?_⟩
    cases r with
    | ok text => exact h
    | error e => exact h
  crop m s trimmed h _ := by
    obtain ⟨c, hc, -, hws⟩ := h.context
    refine tracked_await.2 ⟨⟨c, hc, hws⟩, fun r => ?_⟩
    cases r with
    | ok text => exact h
    | error e => exact h
  keep m s t b h _ := h
  reply m s messages maxTokens tier h :=
    ⟨trivial, fun _ => h, fun _ => ⟨fun _ => h, fun _ _ _ => h⟩⟩
  more m s t purpose messages maxTokens tier h _ := ⟨trivial, fun _ => h, fun _ => h⟩
  count m s t digest h := h
  propose m s t digest toolName action h _ := by
    obtain ⟨e, he, hid, hws, -⟩ := h.execution
    refine tracked_await.2 ⟨⟨e, he, hid, hws⟩, fun r => ?_⟩
    cases r with
    | ok call => exact h
    | error e => exact h
  rules m s t ids h := by
    obtain ⟨e, he, -, hws, -⟩ := h.execution
    exact ⟨⟨e, he, hws⟩, fun r => h.note _ r⟩
  tool m s t invocation toolName input h :=
    (retryTool_obeys toolName _ _ h).post fun m r hr => by
      cases r with
      | ok executed => exact hr
      | error e => exact hr
  suspend m s t h :=
    (obeys_inRun (handleStateTransition_inRun _) h).post fun m r hr => by
      cases r with
      | ok _ => exact hr
      | error e => exact hr
  ask m s t request h hid hws :=
    (obeys_inRun (createAgentApproval_inRun hid hws) h).post fun m r hr => by
      cases r with
      | ok _ => exact hr
      | error e => exact hr
  record m s t b step h _ _ _ :=
    (obeys_inRun (persistStep_inRun step) h).post fun m r hr => by
      cases r with
      | ok _ => exact hr
      | error e => exact hr
  recordEarly m s step h _ _ :=
    (obeys_inRun (persistStep_inRun step) h).post fun m r hr => by
      cases r with
      | ok _ => exact hr
      | error e => exact hr
  event m s h := by
    obtain ⟨e, he, hid, hws, -⟩ := h.execution
    exact ⟨⟨e, he, hws, hid⟩, fun r => h.note _ r⟩

/-! ## A run -/

section run
variable {cfg : Config} {workspaceId : Id} {m : Hand} {execution : AgentExecution}
  {context : ExecutionContext} {caller : Option Caller}

/-- The loop keeps to its workspace. -/
lemma runReActLoop_obeys {prompt : Option String} {tier : Option Nat} {steps : List ReActStepData}
    (h : m.Runs execution context) :
    Obeys workspaceId (fun m' _ => m'.Has execution) m
      (runReActLoop cfg execution context prompt tier steps) := by
  refine tracked_await_bind.2 ⟨trivial, fun now => ?_, fun _ => h.execution⟩
  refine ((obeys_frame workspaceId (loopOf cfg execution context tier now)).reactLoop h).post
    fun m' r hr => ?_
  cases r with
  | ok s => exact hr.execution
  | error e => exact hr.execution

/-- So does the approved call of a resumed run. -/
lemma resumedSteps_obeys {resume : Option ResumeContext} (h : m.Runs execution context) :
    Obeys workspaceId (fun m' _ => m'.Runs execution context) m
      (resumedSteps cfg execution context resume) := by
  cases resume with
  | none => exact h
  | some resume =>
    unfold resumedSteps rebuildHistorySteps executeApprovedToolCall
    dsimp only
    obtain ⟨e, he, hid, -, -⟩ := h.execution
    rw [Prog.bind_assoc]
    refine tracked_await_bind.2 ⟨⟨e, he, hid⟩, fun rows => ?_, fun _ => h.note _ _⟩
    rw [Prog.ret_bind, Prog.bind_assoc]
    refine Tracked.bind (executeTool_obeys resume.toolName (h.note _ _) rfl rfl)
      (fun m' result hm => ?_) fun _ _ hm => hm
    rw [Prog.bind_assoc]
    refine (obeys_inRun (persistStep_inRun _) hm).bind (fun _ _ hm' => hm')
      fun _ _ hm' => hm'

/-- The plan belongs to the run. -/
lemma effectivePrompt_inRun (agent : Agent) (rawInput : String) :
    (effectivePrompt agent rawInput).Uses (Stmt.InRun workspaceId execution) := by
  unfold effectivePrompt
  rw [Prog.uses_ite]
  refine ⟨fun _ => ?_, fun _ => trivial⟩
  have hplan : (generatePlan rawInput agent.prompt).Uses (Stmt.InRun workspaceId execution) :=
    Prog.Uses.bind (await_uses fun _ _ => trivial) fun _ => trivial
  refine hplan.attempt.bind fun plan => ?_
  rcases plan with e | plan
  · trivial
  · cases plan <;> trivial

/-- The close belongs to the run. -/
lemma closeOut_inRun (s : LoopState) :
    (closeOut cfg execution s).Uses (Stmt.InRun workspaceId execution) := by
  refine (ofExcept_uses _).bind fun finalOutput => ?_
  dsimp only
  split_ifs
  all_goals exact Prog.Uses.bind (await_uses (inRun_transaction _ _ rfl rfl)) fun _ => trivial

/-- The body of a run has a context of its execution in hand from `buildContext` on. -/
lemma executeBody_obeys {resume : Option ResumeContext} (h : m.Has execution) :
    Obeys workspaceId (fun m' _ => m'.Has execution) m
      (executeBody cfg execution resume caller) := by
  obtain ⟨e, he, hid, hws, hagent⟩ := id h
  refine tracked_await_bind.2 ⟨.inr ⟨e, he, hagent⟩, fun agent => ?_, fun _ => h.note _ _⟩
  -- what the program holds only grows, so each statement finds its execution in hand
  have h := h.note (.findAgent execution.agentId none) (.ok agent)
  cases agent with
  | none => exact h
  | some agent =>
    have hstarted : Stmt.InRun workspaceId execution
        (.transaction (execution.event .executionStarted) none) := inRun_transaction _ _ rfl rfl
    refine tracked_await_bind.2 ⟨hstarted _ h, fun _ => ?_, fun _ => h⟩
    obtain ⟨e, he, hid, hws, -⟩ := id h
    refine tracked_await_bind.2 ⟨⟨e, he, hws⟩, fun decision => ?_, fun _ => h⟩
    have htier : (forcedTier decision).Uses (Stmt.InRun workspaceId execution) := by
      cases decision <;> trivial
    refine (obeys_has htier h).bind (fun m' tier hm => ?_) fun _ _ hm => hm
    obtain ⟨e, he, hid, hws, -⟩ := id hm
    refine tracked_await_bind.2 ⟨⟨e, he, hws, hid⟩, fun context => ?_, fun _ => hm.note _ _⟩
    have hruns : (m'.note (.buildContext agent execution.workspaceId execution.id caller)
        (.ok context)).Runs execution context :=
      ⟨hm.note _ _, context, List.mem_cons_self, rfl, rfl⟩
    have hprincipal : (bindPrincipal execution context).Uses
        (Stmt.InRun workspaceId execution) := by
      unfold bindPrincipal
      cases context.dataAccessContext with
      | none => trivial
      | some dac => exact await_uses (inRun_id fun _ h => h)
    refine (obeys_inRun hprincipal hruns).bind (fun m' _ hm => ?_) fun _ _ hm => hm.execution
    refine (resumedSteps_obeys hm).bind (fun m' steps hm => ?_) fun _ _ hm => hm.execution
    refine (obeys_inRun (effectivePrompt_inRun agent _) hm).bind (fun m' prompt hm => ?_)
      fun _ _ hm => hm.execution
    refine (runReActLoop_obeys hm).bind (fun m' s hm => ?_) fun _ _ hm => hm
    exact obeys_has (closeOut_inRun s) hm

/-- Every run, fresh or resumed, obeys the law. -/
theorem execute_obeys {resume : Option ResumeContext} (h : m.Has execution) :
    Obeys workspaceId (fun m' _ => m'.Has execution) m (execute cfg execution resume caller) := by
  refine tracked_attempt_bind (executeBody_obeys h) fun m' r hm => ?_
  cases r with
  | ok result => exact hm
  | error message =>
    have hfailed : Stmt.InRun workspaceId execution
        (.transaction (execution.event .executionFailed) (some
          { status := some .failed
            outputSummary := some message
            completedAt := true })) := inRun_transaction _ _ rfl rfl
    exact tracked_await_bind.2 ⟨hfailed m' hm, fun _ => hm.note _ _, fun _ => hm.note _ _⟩

end run

end NexusClaw.AgentRuntime
