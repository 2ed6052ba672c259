import NexusClaw.AgentRuntime.Executor
import NexusClaw.AgentRuntime.Rules

/-!
# Statements of a run

Which statements the loop and a run of the executor engine can issue, whatever they are answered:
the loop pauses its own execution and leaves every other row of the two tables alone, and a run
builds the context of its execution for the caller it was given.
-/

namespace NexusClaw.AgentRuntime
open Concurrent
open Governance (Id)

/-- A statement of the loop for an execution. -/
def Stmt.OfLoop (execution : AgentExecution) : Stmt → Prop
  | .findExecution id _ => id = execution.id
  | .updateExecution id status => id = execution.id ∧ status = .guardrailPending
  | .transaction event patch => event = execution.event .executionStep ∧ patch = none
  | .createApproval row =>
    row.recordId = execution.id ∧ row.workspaceId = execution.workspaceId ∧ row.status = .pending
  | .createStep row => row.executionId = execution.id
  | .findAgent _ _ => False
  | .buildContext _ _ _ _ => False
  | .enterAgentRequestContext _ _ => False
  | .createExecution _ => False
  | .findApproval _ _ => False
  | .findPendingApprovals _ => False
  | .saveApproval _ => False
  | .findSteps _ => False
  | .assertExecutionAllowed _ => False
  | .preflight _ _ => False
  | .findAgentNamed _ _ => False
  | .updateAgent _ _ _ _ => False
  | .createAgent _ _ => False
  | _ => True

/-- What the registry may issue the loop may issue. -/
lemma Stmt.OfRegistry.ofLoop {s : Stmt} (h : s.OfRegistry) (execution : AgentExecution) :
    s.OfLoop execution := by
  cases s <;> first | exact h.elim | exact trivial

section loop
variable {cfg : Config} {loop : Loop} {s : LoopState} {proposed : Proposed} {thought : Thought}
  {action : Action} {response : ChatResponse}

/-- The registry with its retries. -/
lemma retryTool_uses (execution : AgentExecution) (invocation : Invocation) (toolName : String)
    (input : Json) (context : ExecutionContext) (retries retryCount : Nat) :
    (retryTool cfg invocation toolName input context retries retryCount).Uses
      (Stmt.OfLoop execution) := by
  have hreg : RegistryCall (fun m _ _ => m) (fun _ s => Stmt.OfLoop execution s) cfg invocation
      toolName input context (fun _ : Unit => True) (fun _ => True) :=
    ⟨fun _ _ hs _ => hs.ofLoop execution, fun _ _ _ _ _ => trivial, fun _ _ _ _ _ => trivial,
      fun _ _ _ _ => trivial, fun _ _ _ _ => trivial⟩
  exact (hreg.retryTool retries retryCount (m := ()) trivial).uses

/-- The registry stays within the loop's statements. -/
lemma executeTool_uses (execution : AgentExecution) (invocation : Invocation) (toolName : String)
    (input : Json) (context : ExecutionContext) :
    (executeTool cfg invocation toolName input context).Uses (Stmt.OfLoop execution) := by
  have hreg : RegistryCall (fun m _ _ => m) (fun _ s => Stmt.OfLoop execution s) cfg invocation
      toolName input context (fun _ : Unit => True) (fun _ => True) :=
    ⟨fun _ _ hs _ => hs.ofLoop execution, fun _ _ _ _ _ => trivial, fun _ _ _ _ _ => trivial,
      fun _ _ _ _ => trivial, fun _ _ _ _ => trivial⟩
  exact (hreg.executeTool (m := ()) trivial).uses

/-- A stored step belongs to the execution of the loop. -/
lemma persistStep_uses (execution : AgentExecution) (step : ReActStepData) :
    (persistStep execution step).Uses (Stmt.OfLoop execution) :=
  await_uses rfl

/-- A step that stops the loop is stored for its execution. -/
lemma stopWith_uses (step : ReActStepData) :
    (stopWith loop s step).Uses (Stmt.OfLoop loop.execution) :=
  (persistStep_uses ..).bind fun _ => trivial

/-- A step that the loop goes on from is stored for its execution. -/
lemma recordStep_uses (observation : Observation) (tokensUsed : TokensUsed) :
    (recordStep loop s thought action observation response tokensUsed).Uses
      (Stmt.OfLoop loop.execution) := by
  have hevent : (await (.transaction (loop.execution.event .executionStep) none)).Uses
      (Stmt.OfLoop loop.execution) := await_uses ⟨rfl, rfl⟩
  refine (persistStep_uses ..).bind fun _ => hevent.attempt.bind fun _ => ?_
  rw [Prog.uses_ite]
  exact ⟨fun _ => trivial, fun _ => trivial⟩

/-- A transition is one update of the execution. -/
lemma handleStateTransition_uses (execution : AgentExecution) :
    (handleStateTransition execution.id .guardrailPending).Uses (Stmt.OfLoop execution) := by
  refine Prog.Uses.bind (await_uses rfl) fun row => ?_
  cases row with
  | none => trivial
  | some row =>
    dsimp only
    cases h : Governance.handleStateTransition row.status .guardrailPending with
    | error e => trivial
    | ok validated =>
      obtain ⟨rfl, _⟩ := Governance.handleStateTransition_ok h
      exact await_uses ⟨rfl, rfl⟩

/-- An approval is asked for in the workspace of the execution. -/
lemma createAgentApproval_uses (execution : AgentExecution) {request : ApprovalRequest}
    (hid : request.agentExecutionId = execution.id)
    (hworkspace : request.workspaceId = execution.workspaceId) :
    (createAgentApproval cfg request).Uses (Stmt.OfLoop execution) := by
  unfold createAgentApproval
  rw [Prog.uses_ite]
  refine ⟨fun _ => trivial, fun _ => ?_⟩
  refine Prog.Uses.bind (await_uses ⟨hid, hworkspace, rfl⟩) fun _ => ?_
  exact Prog.Uses.bind (await_uses trivial) fun _ => Prog.Uses.bind (await_uses trivial)
    fun _ => trivial

/-- A pause asks for an approval, moves the execution and stops. -/
lemma pause_uses (riskLevel description : String) (prepared : Bool) (output : String → String) :
    (pause loop s proposed riskLevel description prepared output).Uses
      (Stmt.OfLoop loop.execution) :=
  (handleStateTransition_uses _).bind fun _ => (createAgentApproval_uses _ rfl rfl).bind fun _ =>
    stopWith_uses _

/-- A proposed call that is let through runs for the execution. -/
lemma runProposed_uses : (runProposed loop s proposed).Uses (Stmt.OfLoop loop.execution) := by
  refine (retryTool_uses ..).bind fun executed => ?_
  dsimp only
  rw [Prog.uses_ite, Prog.uses_ite]
  exact ⟨fun _ => pause_uses .., fun _ => ⟨fun _ => stopWith_uses _, fun _ => recordStep_uses ..⟩⟩

/-- The rules are read in the workspace, which writes nothing. -/
lemma evaluateBoundRules_uses (execution : AgentExecution) (workspaceId : Id) (toolName : String)
    (toolInput : Json) (ids : Option (List String)) :
    (evaluateBoundRules cfg workspaceId toolName toolInput ids).Uses (Stmt.OfLoop execution) := by
  unfold evaluateBoundRules
  cases boundRules cfg ids with
  | none => trivial
  | some bound =>
    have hload : (await (.loadRules workspaceId bound.2)).Uses (Stmt.OfLoop execution) :=
      await_uses trivial
    refine hload.attempt.bind fun loaded => ?_
    cases loaded <;> trivial

/-- What the engine's decision leads to. -/
lemma engineDecision_uses (evaluation : Option Governance.GuardrailEvaluation) :
    (engineDecision loop s proposed evaluation).Uses (Stmt.OfLoop loop.execution) := by
  unfold engineDecision
  cases evaluation.filter (·.matched) with
  | none => exact runProposed_uses
  | some found =>
    dsimp only
    cases found.action.type with
    | allow => exact runProposed_uses
    | audit => exact runProposed_uses
    | confirm => exact pause_uses ..
    | approve => exact pause_uses ..
    | block => exact (persistStep_uses ..).bind fun _ => trivial

/-- The gate of the sensitive operations, and the engine behind it. -/
lemma sensitiveGate_uses : (sensitiveGate loop s proposed).Uses (Stmt.OfLoop loop.execution) := by
  refine (ofExcept_uses _).bind fun rule => ?_
  cases rule.filter (·.textOf "riskLevel" ≠ "L1") with
  | none => exact (evaluateBoundRules_uses ..).bind fun _ => engineDecision_uses _
  | some rule => exact pause_uses ..

/-- A tool call of an iteration, through every gate. -/
lemma callTool_uses (toolName : String) :
    (callTool loop s thought action response toolName).Uses (Stmt.OfLoop loop.execution) := by
  unfold callTool
  dsimp only
  rw [Prog.uses_ite, Prog.uses_ite]
  refine ⟨fun _ => stopWith_uses _, fun _ => ⟨fun _ => stopWith_uses _, fun _ => ?_⟩⟩
  exact Prog.Uses.bind (await_uses trivial) fun _ => sensitiveGate_uses

/-- An answer of the model is stored as a step. -/
lemma generate_uses :
    (generate loop s thought action response).Uses (Stmt.OfLoop loop.execution) := by
  have hchat : ∀ messages, (await (.chat .generation messages none 2)).Uses
      (Stmt.OfLoop loop.execution) := fun _ => await_uses trivial
  refine (hchat _).attempt.bind fun generated => ?_
  cases generated with
  | error e => exact recordStep_uses ..
  | ok generated => exact recordStep_uses ..

/-- Every action of a reply. -/
lemma dispatch_uses (effectiveResponse : ChatResponse) :
    (dispatch loop s thought action response effectiveResponse).Uses
      (Stmt.OfLoop loop.execution) := by
  unfold dispatch
  cases action.type with
  | finish => exact (ofExcept_uses _).bind fun _ => stopWith_uses _
  | toolCall =>
    dsimp only
    cases nonEmpty action.name with
    | none => exact recordStep_uses ..
    | some toolName => exact callTool_uses toolName
  | llmGenerate => exact generate_uses
  | humanHandoff => exact recordStep_uses ..

/-- A repair asks the model again and stores nothing. -/
lemma repairStructuredResponse_uses (execution : AgentExecution) (context : ExecutionContext)
    (remaining : Int) (tier : Nat) :
    (repairStructuredResponse cfg context response remaining tier).Uses
      (Stmt.OfLoop execution) := by
  unfold repairStructuredResponse
  dsimp only
  rw [Prog.uses_ite]
  refine ⟨fun _ => trivial, fun _ => ?_⟩
  have hchat : ∀ messages maxTokens, (await (.chat .structuredRepair messages maxTokens tier)).Uses
      (Stmt.OfLoop execution) := fun _ _ => await_uses trivial
  refine (hchat _ _).attempt.bind fun repaired => ?_
  cases repaired with
  | error e => trivial
  | ok repaired =>
    dsimp only
    cases parseThoughtAndAction cfg repaired.content with
    | error e => trivial
    | ok parsed =>
      dsimp only
      rw [Prog.uses_ite]
      exact ⟨fun _ => trivial, fun _ => trivial⟩

/-- A reply is read, repaired if need be, and dispatched. -/
lemma readReply_uses : (readReply loop s response).Uses (Stmt.OfLoop loop.execution) := by
  unfold readReply
  cases extractNativeAction response with
  | some found => exact dispatch_uses _
  | none =>
    dsimp only
    cases parseThoughtAndAction loop.cfg response.content with
    | ok found => exact dispatch_uses _
    | error e =>
      refine (repairStructuredResponse_uses ..).bind fun repair => ?_
      cases repair.parsed with
      | none => exact stopWith_uses _
      | some found => exact dispatch_uses _

/-- The budget is checked before the reply is read. -/
lemma checkTokens_uses : (checkTokens loop s response).Uses (Stmt.OfLoop loop.execution) := by
  unfold checkTokens
  dsimp only
  rw [Prog.uses_ite, Prog.uses_ite]
  refine ⟨fun _ => stopWith_uses _, fun _ => ⟨fun _ => ?_, fun _ => readReply_uses⟩⟩
  cases cropPrompt loop (s.spend (response.inputTokens + response.outputTokens)) with
  | none => exact stopWith_uses _
  | some trimmed => trivial

/-- A call of the model, and what its reply leads to. -/
lemma callModel_uses (messages : List ChatMessage) :
    (callModel loop s messages).Uses (Stmt.OfLoop loop.execution) := by
  unfold callModel
  dsimp only
  rw [Prog.uses_ite]
  refine ⟨fun _ => stopWith_uses _, fun _ => ?_⟩
  have hchat : ∀ maxTokens tier, (await (.chat .reactModelCall messages maxTokens tier)).Uses
      (Stmt.OfLoop loop.execution) := fun _ _ => await_uses trivial
  refine (hchat _ _).attempt.bind fun reply => ?_
  cases reply with
  | error e => exact stopWith_uses _
  | ok response => exact checkTokens_uses

/-- The messages, cropped where they are too long. -/
lemma buildChatMessages_uses : (buildChatMessages loop s).Uses (Stmt.OfLoop loop.execution) :=
  Prog.Uses.bind (await_uses trivial) fun _ => trivial

/-- The checks in front of a call of the model. -/
lemma prepareCall_uses : (prepareCall loop s).Uses (Stmt.OfLoop loop.execution) := by
  refine buildChatMessages_uses.bind fun messages => ?_
  dsimp only
  rw [Prog.uses_ite]
  refine ⟨fun _ => ?_, fun _ => callModel_uses _⟩
  cases cropPrompt loop s with
  | none => exact callModel_uses _
  | some trimmed => exact buildChatMessages_uses.bind fun _ => callModel_uses _

/-- One pass of the loop. -/
lemma turn_uses : (turn loop s).Uses (Stmt.OfLoop loop.execution) := by
  refine Prog.Uses.bind (await_uses trivial) fun now => ?_
  rw [Prog.uses_ite]
  refine ⟨fun _ => stopWith_uses _, fun _ => ?_⟩
  refine Prog.Uses.bind (await_uses trivial) fun allowed => ?_
  rw [Prog.uses_ite]
  exact ⟨fun _ => prepareCall_uses, fun _ => stopWith_uses _⟩

/-- All passes, by induction on the fuel. -/
lemma reactLoop_uses (fuel : Nat) :
    (reactLoop loop fuel s).Uses (Stmt.OfLoop loop.execution) := by
  induction fuel generalizing s with
  | zero => trivial
  | succ fuel ih =>
    unfold reactLoop
    rw [Prog.uses_ite]
    refine ⟨fun _ => trivial, fun _ => turn_uses.bind fun next => ?_⟩
    cases next with
    | stop s => trivial
    | again s => exact ih

/-- The loop of a run works for its execution alone. -/
theorem runReActLoop_uses (execution : AgentExecution) (context : ExecutionContext)
    (agentPrompt : Option String) (forceTier : Option Nat) (initialSteps : List ReActStepData) :
    (runReActLoop cfg execution context agentPrompt forceTier initialSteps).Uses
      (Stmt.OfLoop execution) := by
  refine Prog.Uses.bind (await_uses trivial) fun now => ?_
  show (reactLoop (loopOf cfg execution context forceTier now) _ _).Uses
    (Stmt.OfLoop (loopOf cfg execution context forceTier now).execution)
  exact reactLoop_uses _

end loop

/-! ## Runs -/

/-- A statement of a run of the engine for an execution and a caller. -/
def Stmt.OfRun (execution : AgentExecution) (caller : Option Caller) : Stmt → Prop
  | .findAgent id workspaceId => id = execution.agentId ∧ workspaceId = none
  | .buildContext _ workspaceId executionId authenticatedCaller =>
    workspaceId = execution.workspaceId ∧ executionId = execution.id ∧ authenticatedCaller = caller
  | .enterAgentRequestContext _ executionId => executionId = execution.id
  | .findSteps executionId => executionId = execution.id
  | .preflight _ _ => True
  | .transaction event _ =>
    event.aggregateId = execution.id ∧ event.workspaceId = execution.workspaceId
  | s => s.OfLoop execution

/-- What the loop may issue the run around it may issue. -/
lemma Stmt.OfLoop.ofRun {s : Stmt} {execution : AgentExecution} (h : s.OfLoop execution)
    (caller : Option Caller) : s.OfRun execution caller := by
  cases s with
  | transaction event patch =>
    obtain ⟨rfl, _⟩ := h
    exact ⟨rfl, rfl⟩
  | findAgent | buildContext | enterAgentRequestContext | findSteps | preflight => exact h.elim
  | _ => exact h

section run
variable {cfg : Config} {execution : AgentExecution} {context : ExecutionContext}
  {resume : Option ResumeContext} {caller : Option Caller}

/-- The steps of a resumed run are rebuilt from its execution. -/
lemma resumedSteps_uses :
    (resumedSteps cfg execution context resume).Uses (Stmt.OfRun execution caller) := by
  cases resume with
  | none => trivial
  | some resume =>
    have hsteps : (rebuildHistorySteps execution.id).Uses (Stmt.OfRun execution caller) :=
      Prog.Uses.bind (await_uses rfl) fun _ => trivial
    refine hsteps.bind fun rebuiltSteps => ?_
    have happroved : (executeApprovedToolCall cfg execution context resume rebuiltSteps).Uses
        (Stmt.OfLoop execution) :=
      (executeTool_uses ..).bind fun _ => (persistStep_uses ..).bind fun _ => trivial
    exact (happroved.mono fun _ h => h.ofRun caller).bind fun _ => trivial

/-- The plan asks the model and stores nothing. -/
lemma effectivePrompt_uses (agent : Agent) (rawInput : String) :
    (effectivePrompt agent rawInput).Uses (Stmt.OfRun execution caller) := by
  unfold effectivePrompt
  rw [Prog.uses_ite]
  refine ⟨fun _ => ?_, fun _ => trivial⟩
  have hplan : (generatePlan rawInput agent.prompt).Uses (Stmt.OfRun execution caller) :=
    Prog.Uses.bind (await_uses trivial) fun _ => trivial
  refine hplan.attempt.bind fun plan => ?_
  rcases plan with e | plan
  · trivial
  · cases plan <;> trivial

/-- The close of a run writes its execution and its event. -/
lemma closeOut_uses (s : LoopState) :
    (closeOut cfg execution s).Uses (Stmt.OfRun execution caller) := by
  refine (ofExcept_uses _).bind fun finalOutput => ?_
  dsimp only
  split_ifs
  all_goals exact Prog.Uses.bind (await_uses ⟨rfl, rfl⟩) fun _ => trivial

/-- Every statement of a run, fresh or resumed. -/
theorem execute_uses :
    (execute cfg execution resume caller).Uses (Stmt.OfRun execution caller) := by
  have hbody : (executeBody cfg execution resume caller).Uses (Stmt.OfRun execution caller) := by
    refine Prog.Uses.bind (await_uses ⟨rfl, rfl⟩) fun agent => ?_
    cases agent with
    | none => trivial
    | some agent =>
      refine Prog.Uses.bind (await_uses ⟨rfl, rfl⟩) fun _ =>
        Prog.Uses.bind (await_uses trivial) fun decision => ?_
      have htier : (forcedTier decision).Uses (Stmt.OfRun execution caller) := by
        cases decision <;> trivial
      refine htier.bind fun tier => Prog.Uses.bind (await_uses ⟨rfl, rfl, rfl⟩) fun context => ?_
      have hprincipal : (bindPrincipal execution context).Uses (Stmt.OfRun execution caller) := by
        unfold bindPrincipal
        cases context.dataAccessContext with
        | none => trivial
        | some dac => exact await_uses rfl
      refine hprincipal.bind fun _ => resumedSteps_uses.bind fun steps =>
        (effectivePrompt_uses agent _).bind fun prompt => ?_
      have hloop : (runReActLoop cfg execution context prompt tier steps).Uses
          (Stmt.OfLoop execution) := runReActLoop_uses ..
      exact (hloop.mono fun _ h => h.ofRun caller).bind fun s => closeOut_uses s
  -- an exception of the body is caught, and the execution closed as failed
  refine hbody.attempt.bind fun result => ?_
  cases result with
  | ok result => trivial
  | error message => exact Prog.Uses.bind (await_uses ⟨rfl, rfl⟩) fun _ => trivial

end run

end NexusClaw.AgentRuntime
