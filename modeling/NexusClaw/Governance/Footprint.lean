import NexusClaw.Governance.Sidecar

/-!
# What the programs write

Every program of the kernel works for one execution. `Stmt.worksFor cfg e` holds of the statements that
write no row but those that belong to `e`: the execution itself, its tool-call records, its steps,
its events and new approvals of it. The lemmas of this module, one for each program, say that a
program issues only such statements, whatever it is answered.
-/

namespace NexusClaw.Governance
open Concurrent

def ToolCallStatus.closed : ToolCallStatus → Bool
  | .succeeded => true
  | .failed => true
  | _ => false

/-- The statement writes only what belongs to the execution `e`; it calls no upstream server and
leaves existing approvals and closed tool-call records alone. -/
def Stmt.worksFor (cfg : Config) (e : Id) : Stmt → Prop
  | .createExecution _ => False
  | .updateExecution id _ => id = e
  | .createApproval row =>
    ∃ request : AgentApprovalRequest, request.agentExecutionId = e ∧ row = request.instance cfg
  | .updateApproval _ _ => False
  | .updatePendingApproval _ _ _ _ => False
  | .saveApproval _ => False
  | .createToolCall row => row.executionId = e
  | .transitionToolCall _ expected _ => ∀ status ∈ expected, status.closed = false
  | .createStep row => row.executionId = e
  | .enqueue event => event.aggregateId = e
  | .callTool _ _ _ => False
  | .elicit _ => False
  | _ => True

section blocks
variable {φ : Stmt → Prop}

/-- A computed result issues no statement. -/
@[simp] lemma uses_ofExcept {α : Type} (x : Except String α) : (Act.ofExcept x).Uses φ := by
  cases x <;> trivial

/-- The lookup of an execution is one statement, then a result or a failure. -/
@[simp] lemma uses_findExecutionOrFail {id : Id} :
    (findExecutionOrFail id).Uses φ ↔ φ (.findExecution id) := by
  refine ⟨fun h => h.1, fun h => ⟨h, fun r => ?_⟩⟩
  cases r <;> trivial

/-- The lookup of an approval is one statement, then a result or a failure. -/
@[simp] lemma uses_findApprovalOrFail {id : Id} :
    (findApprovalOrFail id).Uses φ ↔ φ (.findApproval id) := by
  refine ⟨fun h => h.1, fun h => ⟨h, fun r => ?_⟩⟩
  cases r <;> trivial

/-- A transition of a tool call is one conditional update. -/
@[simp] lemma uses_transition {id : Id} {expected : List ToolCallStatus} {patch : ToolCallPatch} :
    (transition id expected patch).Uses φ ↔ φ (.transitionToolCall id expected patch) := by
  simp [transition]

/-- Finalizing is one transition out of `started` or `running`. -/
lemma uses_finalize {id : Id} {input : ToolCallFinalizeInput}
    (h : ∀ patch, φ (.transitionToolCall id [.started, .running] patch)) :
    (finalize id input).Uses φ := by
  obtain he | he := finalize_cases id input
  · rw [he]
    trivial
  · rw [he]
    exact uses_transition.mpr (h _)

end blocks

/-- Asking for an approval works for the execution of the request. -/
lemma createAgentApproval_worksFor (cfg : Config) {e : Id} {request : AgentApprovalRequest}
    (he : request.agentExecutionId = e) :
    (createAgentApproval cfg request).Uses (Stmt.worksFor cfg e) := by
  refine Prog.Uses.call_bind ⟨request, he, rfl⟩ fun saved => ?_
  exact Prog.Uses.call_bind trivial fun _ => Prog.Uses.call_bind trivial fun _ => trivial

/-! ## The gate -/

/-- A refused call works for its execution. -/
lemma refuseCall_worksFor (e callId : Id) (patch : ToolCallPatch) (reason : String) :
    (refuseCall e callId patch reason).Uses (Stmt.worksFor cfg e) := by
  refine Prog.Uses.bind (by simp [Stmt.worksFor, ToolCallStatus.closed]) fun _ => ?_
  simp [Stmt.worksFor]

/-- A paused call works for its execution. -/
lemma pauseCall_worksFor (cfg : Config) (e callId : Id) (toolName : String) (toolInput : Json)
    (evaluation : GuardrailEvaluation) :
    (pauseCall cfg e callId toolName toolInput evaluation).Uses (Stmt.worksFor cfg e) := by
  refine Prog.Uses.bind (createAgentApproval_worksFor cfg rfl) fun approval => ?_
  refine Prog.Uses.bind (by simp [Stmt.worksFor, ToolCallStatus.closed]) fun _ => ?_
  refine Prog.Uses.bind (uses_ofExcept _) fun status => ?_
  simp [Stmt.worksFor, gatePaused]

/-- The guardrail, and the pause that may follow it, work for the execution. -/
lemma judgeCall_worksFor (cfg : Config) (e callId : Id) (toolName : String) (toolInput : Json) :
    (judgeCall cfg e callId toolName toolInput).Uses (Stmt.worksFor cfg e) := by
  unfold judgeCall
  refine Prog.uses_ite.mpr ⟨fun _ => refuseCall_worksFor .., fun _ => ?_⟩
  refine Prog.Uses.bind (uses_ofExcept _) fun evaluation => ?_
  refine Prog.uses_ite.mpr ⟨fun _ => refuseCall_worksFor .., fun _ => ?_⟩
  exact Prog.uses_ite.mpr ⟨fun _ => pauseCall_worksFor .., fun _ => trivial⟩

/-- Closing a call works for its execution. -/
lemma closeCall_worksFor (cfg : Config) (e callId : Id) (outcome : GateOutcome) :
    (closeCall cfg e callId outcome).Uses (Stmt.worksFor cfg e) := by
  refine Prog.Uses.bind (uses_finalize (by simp [Stmt.worksFor, ToolCallStatus.closed])) fun _ => ?_
  refine Prog.Uses.bind (uses_ofExcept _) fun status => ?_
  simp [Stmt.worksFor, gateCompleted]

/-- A completion works for the execution it is told. -/
lemma complete_worksFor (cfg : Config) (e : Id) (outcome : GateOutcome) :
    (complete cfg e outcome).Uses (Stmt.worksFor cfg e) := by
  refine Prog.Uses.bind (by simp [Stmt.worksFor]) fun execution => ?_
  refine Prog.uses_ite.mpr ⟨fun _ => trivial, fun _ => ?_⟩
  refine Prog.Uses.bind (Prog.uses_call.mpr trivial) fun calls => ?_
  cases calls with
  | nil => trivial
  | cons call rest =>
    refine Prog.Uses.bind ?_ fun _ => closeCall_worksFor _ _ _ _
    unfold resumeCall
    simp [Stmt.worksFor, ToolCallStatus.closed]

/-! ## The loop

What the loop issues depends on what it did before: it moves its execution to `guardrail_pending`
only after it created an approval for it. -/

/-- An approval was created for the execution `e`. -/
def Asked (e : Id) : Sigma Stmt.Resp → Prop
  | ⟨.createApproval row, _⟩ => row.recordId = e
  | _ => False

/-- The statement is one of a loop for the execution `e` that does its tool calls and steps under
`origin` and has observed `h`. -/
def Stmt.loopsFor (cfg : Config) (e : Id) (origin : Origin) (h : History Stmt Stmt.Resp) : Stmt → Prop
  | .updateExecution id patch =>
    id = e ∧ patch.status = some .guardrailPending ∧ patch.completedAt = false ∧ Did (Asked e) h
  | .createStep row => row.executionId = e ∧ row.origin = origin
  | .runTool origin' _ _ => origin' = origin
  | .enqueue event => event.aggregateId = e ∧ event.eventType = .executionPaused
  | s => s.worksFor cfg e

/-- What the loop may issue at a point is among what it may issue at all. -/
lemma Stmt.loopsFor.worksFor {e : Id} {origin : Origin} {h : History Stmt Stmt.Resp} {s : Stmt}
    (hs : s.loopsFor cfg e origin h) : s.worksFor cfg e := by
  cases s with
  | updateExecution id patch => exact hs.1
  | createStep row => exact hs.1
  | enqueue event => exact hs.1
  | runTool origin' name input => trivial
  | _ => exact hs

/-- The context still belongs to the same execution and the same input. -/
def LoopContext.Continues (context context' : LoopContext) : Prop :=
  context'.execution.id = context.execution.id ∧ context'.input = context.input

/-- The context goes on through two parts one after the other. -/
lemma LoopContext.Continues.trans {a b c : LoopContext} (h : a.Continues b) (h' : b.Continues c) :
    a.Continues c :=
  ⟨h'.1.trans h.1, h'.2.trans h.2⟩

/-- A stretch of the loop for `context` has ended, with `context'` and perhaps a final status. -/
structure LoopContext.Reaches (context : LoopContext) (h : History Stmt Stmt.Resp)
    (status : Option ExecutionStatus) (context' : LoopContext) : Prop where
  continues : context.Continues context'
  final : ∀ s, status = some s → s = .done ∨ s = .failed ∨ s = .guardrailPending
  asked : status = some .guardrailPending → Did (Asked context.execution.id) h

/-- An iteration that does not end the loop. -/
lemma LoopContext.Reaches.goOn {context context' : LoopContext} {h : History Stmt Stmt.Resp}
    (hc : context.Continues context') : context.Reaches h none context' where
  continues := hc
  final := fun _ hs => nomatch hs
  asked := fun hs => nomatch hs

/-- An iteration that ends the loop as done. -/
lemma LoopContext.Reaches.finish {context context' : LoopContext} {h : History Stmt Stmt.Resp}
    (hc : context.Continues context') : context.Reaches h (some .done) context' where
  continues := hc
  final := by rintro _ ⟨⟩; exact .inl rfl
  asked := fun hs => nomatch hs

/-- An iteration that ends the loop as failed. -/
lemma LoopContext.Reaches.fail {context context' : LoopContext} {h : History Stmt Stmt.Resp}
    (hc : context.Continues context') : context.Reaches h (some .failed) context' where
  continues := hc
  final := by rintro _ ⟨⟩; exact .inr (.inl rfl)
  asked := fun hs => nomatch hs

/-- An iteration that pauses the loop has asked for an approval. -/
lemma LoopContext.Reaches.pause {context context' : LoopContext} {h : History Stmt Stmt.Resp}
    (hc : context.Continues context') (ha : Did (Asked context.execution.id) h) :
    context.Reaches h (some .guardrailPending) context' where
  continues := hc
  final := by rintro _ ⟨⟩; exact .inr (.inr rfl)
  asked := fun _ => ha

/-- What the next stretch reaches, the two together reach. -/
lemma LoopContext.Reaches.after {context context' context'' : LoopContext}
    {h : History Stmt Stmt.Resp} {status : Option ExecutionStatus}
    (hr : context'.Reaches h status context'') (hc : context.Continues context') :
    context.Reaches h status context'' where
  continues := hc.trans hr.continues
  final := hr.final
  asked := fun hs => hc.1 ▸ hr.asked hs

section loop
variable {h : History Stmt Stmt.Resp} {origin : Origin}

/-- A computed result is followed only where it is no failure. -/
lemma along_ofExcept {α β : Type} {φ : History Stmt Stmt.Resp → Stmt → Prop}
    {Q : History Stmt Stmt.Resp → β → Prop} {x : Except String α} {f : α → Act β}
    (hf : ∀ a, x = .ok a → Along φ Q h (f a)) : Along φ Q h (Act.ofExcept x >>= f) := by
  cases x with
  | ok a => exact hf a rfl
  | error e => trivial

/-- The registry audits and calls for the execution alone. -/
lemma registryExecute_along (cfg : Config) (e : Id) (origin : Origin) (name : String)
    (input : Json) (allowedTools : List String) :
    Along (Stmt.loopsFor cfg e origin) (fun _ _ => True) h
      (registryExecute cfg origin name input allowedTools) := by
  refine along_ite.mpr ⟨fun _ => trivial, fun _ => along_ite.mpr ⟨fun _ => trivial, fun _ => ?_⟩⟩
  refine Along.call rfl fun r => ?_
  cases r <;> trivial

/-- Finalizing needs its transition to be allowed here, and nothing afterwards. -/
lemma along_finalize {φ : History Stmt Stmt.Resp → Stmt → Prop} {id : Id}
    {input : ToolCallFinalizeInput}
    (hφ : ∀ patch, φ h (.transitionToolCall id [.started, .running] patch)) :
    Along φ (fun _ _ => True) h (finalize id input) := by
  obtain he | he := finalize_cases id input
  · rw [he]
    trivial
  · rw [he]
    refine Along.call (hφ _) fun affected => ?_
    exact along_ite.mpr ⟨fun _ => trivial, fun _ => trivial⟩

/-- An admitted tool runs for the execution of the context. -/
lemma executeApprovedTool_along (cfg : Config) (context : LoopContext) (toolName : String)
    (toolInput : Json) :
    Along (Stmt.loopsFor cfg context.execution.id origin) (fun _ _ => True) h
      (executeApprovedTool cfg origin context toolName toolInput) := by
  refine Along.call rfl fun call => ?_
  refine Along.bind (registryExecute_along ..) fun h result _ => ?_
  refine Along.bind (along_finalize fun patch => ?_) fun _ _ _ => trivial
  simp [Stmt.loopsFor, Stmt.worksFor, ToolCallStatus.closed]

/-- So does the tool of a resumed call. -/
lemma executeResumedTool_along (cfg : Config) (context : LoopContext) (toolInput : Json)
    (toolName : Option Json) :
    Along (Stmt.loopsFor cfg context.execution.id origin) (fun _ _ => True) h
      (executeResumedTool cfg origin context toolInput toolName) := by
  have hunnamed : ∀ name, Along (Stmt.loopsFor cfg context.execution.id origin) (fun _ _ => True) h
      (executeUnnamedTool cfg context name) := by
    refine fun name => Along.call rfl fun call => ?_
    refine Along.bind (along_finalize fun patch => ?_) fun _ _ _ => trivial
    simp [Stmt.loopsFor, Stmt.worksFor, ToolCallStatus.closed]
  cases toolName with
  | none => trivial
  | some name =>
    cases name with
    | null => trivial
    | str name => exact executeApprovedTool_along ..
    | _ => exact hunnamed _

/-- A stored step continues the context. -/
lemma persistStep_along (cfg : Config) (context : LoopContext) (iteration : Nat)
    (thought : Option Json) (actionType : ActionType) (action : Json)
    (observation : Observation) :
    Along (Stmt.loopsFor cfg context.execution.id origin) (fun _ context' => context.Continues context')
      h (persistStep cfg origin context iteration thought actionType action observation) :=
  Along.call ⟨rfl, rfl⟩ fun _ => ⟨rfl, rfl⟩

/-- After the request for an approval the request is in the history. -/
lemma createAgentApproval_along (cfg : Config) {e : Id} {request : AgentApprovalRequest}
    (he : request.agentExecutionId = e) :
    Along (Stmt.loopsFor cfg e origin) (fun h _ => Did (Asked e) h) h
      (createAgentApproval cfg request) := by
  refine Along.call ⟨request, he, rfl⟩ fun saved => ?_
  refine Along.call trivial fun _ => Along.call trivial fun _ => ?_
  simp [Asked, AgentApprovalRequest.instance, he]

/-- A pause continues the context, and it has asked for an approval. -/
lemma pauseLoop_along (cfg : Config) (context : LoopContext) (toolName : String)
    (toolInput : Json) (evaluation : GuardrailEvaluation) :
    Along (Stmt.loopsFor cfg context.execution.id origin)
      (fun h r => context.Continues r.2 ∧ Did (Asked context.execution.id) h) h
      (pauseLoop cfg context toolName toolInput evaluation) := by
  refine Along.bind (createAgentApproval_along cfg rfl) fun h _ hasked => ?_
  refine along_ofExcept fun validated hv => ?_
  obtain ⟨rfl, -⟩ := handleStateTransition_ok hv
  refine Along.call ⟨rfl, rfl, rfl, hasked⟩ fun _ => ?_
  refine Along.call ⟨rfl, rfl⟩ fun _ => ⟨⟨rfl, rfl⟩, ?_⟩
  exact hasked.mono (by simp)

/-- The gate continues the context, and where it pauses it has asked. -/
lemma gateToolCall_along (cfg : Config) (context : LoopContext) (toolName toolInput : Json) :
    Along (Stmt.loopsFor cfg context.execution.id origin)
      (fun h r => context.Continues r.2 ∧ (r.1 = .paused → Did (Asked context.execution.id) h)) h
      (gateToolCall cfg context toolName toolInput) := by
  have stay : context.Continues context := ⟨rfl, rfl⟩
  cases toolName with
  | str name =>
    refine along_ite.mpr ⟨fun _ => ⟨stay, fun hp => nomatch hp⟩, fun _ => ?_⟩
    refine along_ofExcept fun evaluation _ => ?_
    refine along_ite.mpr ⟨fun _ => ⟨stay, fun hp => nomatch hp⟩, fun _ => ?_⟩
    refine along_ite.mpr ⟨fun _ => ⟨stay, fun hp => nomatch hp⟩, fun _ => ?_⟩
    exact (pauseLoop_along ..).mono (fun _ _ hs => hs) fun _ _ hr => ⟨hr.1, fun _ => hr.2⟩
  | _ => exact ⟨stay, fun hp => nomatch hp⟩

/-- What a tool call of an iteration reaches. -/
lemma performToolCall_along (cfg : Config) (context : LoopContext) (iteration : Nat)
    (thought : Option Json) (action toolName toolInput : Json) :
    Along (Stmt.loopsFor cfg context.execution.id .loop) (fun h r => context.Reaches h r.1 r.2) h
      (performToolCall cfg context iteration thought action toolName toolInput) := by
  refine Along.bind (gateToolCall_along ..) ?_
  rintro h ⟨verdict, context'⟩ ⟨hc, hasked⟩
  have hid : context'.execution.id = context.execution.id := hc.1
  rw [← hid]
  cases verdict with
  | paused => exact .pause hc (hasked rfl)
  | blocked error =>
    exact Along.bind (persistStep_along ..) fun _ _ hp => .goOn (hc.trans hp)
  | allow name =>
    refine Along.bind (executeApprovedTool_along ..) fun h result _ => ?_
    exact Along.bind (persistStep_along ..) fun _ _ hp => .goOn (hc.trans hp)

/-- What an action of an iteration reaches. -/
lemma perform_along (cfg : Config) (context : LoopContext) (iteration : Nat)
    (thought action : Option Json) :
    Along (Stmt.loopsFor cfg context.execution.id .loop) (fun h r => context.Reaches h r.1 r.2) h
      (perform cfg context iteration thought action) := by
  unfold perform
  split
  · trivial
  · trivial
  · split
    · exact Along.bind (persistStep_along ..) fun _ _ hp => .finish hp
    · exact performToolCall_along ..
    · exact .fail ⟨rfl, rfl⟩

/-- What a reply of the model reaches. -/
lemma respond_along (cfg : Config) (context : LoopContext) (iteration : Nat)
    (response : Except String String) :
    Along (Stmt.loopsFor cfg context.execution.id .loop) (fun h r => context.Reaches h r.1 r.2) h
      (respond cfg context iteration response) := by
  cases response with
  | error e => trivial
  | ok content =>
    simp only [respond]
    cases parseResponse cfg content with
    | none => exact .fail ⟨rfl, rfl⟩
    | some parsed => exact perform_along ..

/-- What the loop reaches, by induction on the iterations that remain. -/
lemma loopFrom_along (cfg : Config) (remaining iteration : Nat) (context : LoopContext) :
    Along (Stmt.loopsFor cfg context.execution.id .loop) (fun h r => context.Reaches h (some r.1) r.2)
      h (loopFrom cfg remaining iteration context) := by
  induction remaining generalizing iteration context h with
  | zero => exact .fail ⟨rfl, rfl⟩
  | succ remaining ih =>
    refine Along.bind (Along.call trivial fun response => respond_along cfg context iteration response) ?_
    rintro h ⟨status, context'⟩ hr
    cases status with
    | some status => exact hr
    | none =>
      have hid : context'.execution.id = context.execution.id := hr.continues.1
      rw [← hid]
      exact (ih (iteration + 1) context').mono (fun _ _ hs => hs) fun _ _ hr' =>
        hr'.after hr.continues

/-- What the whole loop reaches. -/
lemma runLoop_along (cfg : Config) (context : LoopContext) :
    Along (Stmt.loopsFor cfg context.execution.id .loop) (fun h r => context.Reaches h (some r.1) r.2)
      h (runLoop cfg context) :=
  loopFrom_along ..

/-- A resumption continues the context under its approval. -/
lemma resumeApproved_along (cfg : Config) (approvalInstanceId : Id) (context : LoopContext)
    (pausedToolCall : PausedToolCall) :
    Along (Stmt.loopsFor cfg context.execution.id (.resume approvalInstanceId))
      (fun _ context' => context.Continues context') h
      (resumeApproved cfg approvalInstanceId context pausedToolCall) :=
  Along.bind (executeResumedTool_along ..) fun _ _ _ => persistStep_along ..

/-- The loop works for the execution of its context. -/
lemma runLoop_worksFor (cfg : Config) (context : LoopContext) :
    (runLoop cfg context).Uses (Stmt.worksFor cfg context.execution.id) :=
  (runLoop_along (h := []) cfg context).uses fun _ _ hs => hs.worksFor

/-- A resumption works for the execution of its context. -/
lemma resumeApproved_worksFor (cfg : Config) (approvalInstanceId : Id) (context : LoopContext)
    (pausedToolCall : PausedToolCall) :
    (resumeApproved cfg approvalInstanceId context pausedToolCall).Uses
      (Stmt.worksFor cfg context.execution.id) :=
  (resumeApproved_along (h := []) cfg approvalInstanceId context pausedToolCall).uses
    fun _ _ hs => hs.worksFor

end loop

/-- A decision reads the approval, writes it, and may write its execution. -/
lemma decideApproval_uses {φ : Stmt → Prop} (hf : ∀ id, φ (.findApproval id))
    (ha : ∀ id patch, φ (.updateApproval id patch))
    (he : ∀ id patch, φ (.updateExecution id patch)) (approvalId : Id) (decision : Decision)
    (actor : String) : (decideApproval approvalId decision actor).Uses φ := by
  refine Prog.Uses.bind (uses_findApprovalOrFail.mpr (hf approvalId)) fun row => ?_
  refine Prog.uses_ite.mpr ⟨fun _ => trivial, fun _ => ?_⟩
  exact Prog.Uses.call_bind (ha _ _) fun _ => Prog.uses_call.mpr (he _ _)

/-! ## Whole programs

A property of statements that holds of everything that works for some execution, and of the few
statements that do not, holds of all statements of a program. -/

section programs
variable {φ : Stmt → Prop} {cfg : Config} (hw : ∀ e s, s.worksFor cfg e → φ s)

include hw

/-- A gate creates one execution and works for it. -/
lemma gate_uses (hc : ∀ row, φ (.createExecution row)) (toolName : String)
    (toolInput : Json) : (gate cfg toolName toolInput).Uses φ := by
  refine Prog.Uses.call_bind (hc _) fun execution => ?_
  refine Prog.Uses.call_bind (hw execution.id _ rfl) fun _ => ?_
  refine Prog.Uses.call_bind (hw execution.id _ rfl) fun call => ?_
  exact (judgeCall_worksFor _ _ _ _ _).mono (hw execution.id)

/-- A completion is among the requests. -/
lemma complete_uses (e : Id) (outcome : GateOutcome) :
    (complete cfg e outcome).Uses φ :=
  (complete_worksFor cfg e outcome).mono (hw e)

/-- A run creates one execution and works for it. -/
lemma run_uses (hc : ∀ row, φ (.createExecution row)) (input : ExecutorInput) :
    (run cfg input).Uses φ := by
  refine Prog.Uses.call_bind (hc _) fun execution => ?_
  refine Prog.Uses.call_bind (hw execution.id _ rfl) fun _ => ?_
  refine Prog.Uses.bind ((runLoop_worksFor _ _).mono (hw _)) fun r => ?_
  refine Prog.Uses.call_bind (hw execution.id _ rfl) fun _ => ?_
  refine Prog.Uses.call_bind (hw execution.id _ rfl) fun _ => ?_
  exact uses_findExecutionOrFail.mpr (hw 0 _ trivial)

/-- A resumption is among the requests. -/
lemma resumePaused_uses (input : ResumeInput) :
    (resumePaused cfg input).Uses φ := by
  unfold resumePaused
  cases input.pausedToolCall with
  | none => trivial
  | some call =>
    refine Prog.Uses.bind (uses_findExecutionOrFail.mpr (hw 0 _ trivial)) fun execution => ?_
    refine Prog.uses_ite.mpr ⟨fun _ => trivial, fun _ => ?_⟩
    refine Prog.Uses.bind (uses_ofExcept _) fun validated => ?_
    refine Prog.Uses.call_bind (hw execution.id _ rfl) fun _ => ?_
    refine Prog.Uses.call_bind (hw 0 _ trivial) fun persisted => ?_
    refine Prog.Uses.bind ((resumeApproved_worksFor _ _ _ _).mono (hw _)) fun context => ?_
    refine Prog.Uses.bind ((runLoop_worksFor _ _).mono (hw _)) fun r => ?_
    refine Prog.Uses.call_bind (hw execution.id _ rfl) fun _ => ?_
    exact uses_findExecutionOrFail.mpr (hw 0 _ trivial)

/-- So is the look at a rejected call. -/
lemma lookupRejected_uses (row : ApprovalInstance)
    (execution : AgentExecution) : (lookupRejected cfg row execution).Uses φ := by
  unfold lookupRejected
  refine Prog.uses_ite.mpr ⟨fun _ => ?_, fun _ => trivial⟩
  exact Prog.Uses.call_bind (hw row.recordId _ rfl) fun _ => trivial

variable (hu : ∀ id patch, φ (.updateApproval id patch))

include hu

/-- So is a decision over HTTP. -/
lemma postDecide_uses (approvalId : Id) (decision comment : Option String) :
    (postDecide cfg approvalId decision comment).Uses φ := by
  unfold postDecide
  cases normalizeDecision decision with
  | none => trivial
  | some normalized =>
    refine Prog.Uses.bind (uses_findApprovalOrFail.mpr (hw 0 _ trivial)) fun row => ?_
    refine Prog.uses_ite.mpr ⟨fun _ => trivial, fun _ => ?_⟩
    refine Prog.Uses.bind (uses_ofExcept _) fun call => ?_
    cases normalized with
    | rejected => exact Prog.Uses.call_bind (hu _ _) fun _ => trivial
    | approved =>
      refine Prog.Uses.call_bind (hw 0 _ trivial) fun found => ?_
      refine Prog.uses_ite.mpr ⟨fun _ => ?_, fun _ => ?_⟩
      · exact Prog.Uses.call_bind (hw row.recordId _ rfl) fun _ => trivial
      · refine Prog.Uses.call_bind (hu _ _) fun _ => ?_
        exact Prog.Uses.bind (resumePaused_uses hw _) fun _ => trivial

variable (ht : ∀ approvalId tool args, φ (.callTool approvalId tool args))

include ht

omit hu in
/-- So is the upstream call with the completion after it. -/
lemma executeAndComplete_uses (approvalId : Option Id) (tool : AggregatedTool)
    (e : Id) (args : Json) : (executeAndComplete cfg approvalId tool e args).Uses φ := by
  refine Prog.Uses.call_bind (ht _ _ _) fun r => ?_
  cases r with
  | error error => exact Prog.Uses.bind (complete_uses hw _ _) fun _ => trivial
  | ok result => exact Prog.Uses.bind (complete_uses hw _ _) fun _ => trivial

/-- So is the look at an approved call. -/
lemma lookupApproved_uses (row : ApprovalInstance) :
    (lookupApproved cfg row).Uses φ := by
  have hexecute : (lookupExecute cfg row).Uses φ := by
    unfold lookupExecute
    cases recoveredCall cfg row with
    | none => trivial
    | some call => exact executeAndComplete_uses hw ht _ _ _ _
  unfold lookupApproved
  exact Prog.uses_ite.mpr ⟨fun _ => Prog.Uses.call_bind (hu _ _) fun _ => hexecute, fun _ => hexecute⟩

/-- So is the lookup of a pending call. -/
lemma pendingLookup_uses (text : String) : (pendingLookup cfg text).Uses φ := by
  unfold pendingLookup
  refine Prog.uses_ite.mpr ⟨fun _ => trivial, fun _ => ?_⟩
  cases cfg.idOf text with
  | none => trivial
  | some id =>
    refine Prog.Uses.call_bind (hw 0 _ trivial) fun found => ?_
    cases found with
    | none => trivial
    | some row =>
      refine Prog.Uses.bind (uses_findExecutionOrFail.mpr (hw 0 _ trivial)) fun execution => ?_
      cases lookupStatus row execution with
      | pending => trivial
      | rejected => exact lookupRejected_uses hw row execution
      | approved => exact lookupApproved_uses hw hu ht row
      | recalled => exact lookupApproved_uses hw hu ht row
      | expired => exact lookupApproved_uses hw hu ht row

variable (hq : ∀ message, φ (.elicit message))

include hq

/-- So is the question to the client and what follows its answer. -/
lemma elicitDecision_uses (tool : AggregatedTool) (name : String) (args : Json)
    (e a : Id) (riskLevel : String) :
    (elicitDecision cfg tool name args e a riskLevel).Uses φ := by
  refine Prog.Uses.call_bind (hq _) fun answered => ?_
  cases answered with
  | error error => trivial
  | ok answer =>
    refine Prog.uses_ite.mpr ⟨fun _ => ?_, fun _ => ?_⟩
    · exact Prog.Uses.bind (decideApproval_uses (fun _ => hw 0 _ trivial) hu (fun id _ => hw id _ rfl) _ _ _) fun _ =>
        executeAndComplete_uses hw ht _ _ _ _
    · exact Prog.Uses.bind (decideApproval_uses (fun _ => hw 0 _ trivial) hu (fun id _ => hw id _ rfl) _ _ _) fun _ => trivial

variable (hc : ∀ row, φ (.createExecution row))

include hc

/-- So is a tool call of the gateway. -/
lemma toolsCall_uses (elicitation : Bool) (name : String) (args : Json) :
    (toolsCall cfg elicitation name args).Uses φ := by
  unfold toolsCall
  refine Prog.uses_ite.mpr ⟨fun _ => pendingLookup_uses hw hu ht _, fun _ => ?_⟩
  cases cfg.byAggregatedName name with
  | none => trivial
  | some tool =>
    refine Prog.Uses.bind (gate_uses hw hc name args) fun verdict => ?_
    cases verdict with
    | blocked e callId reason => trivial
    | allow e callId => exact executeAndComplete_uses hw ht _ _ _ _
    | paused e callId a riskLevel =>
      cases elicitation with
      | true => exact elicitDecision_uses hw hu ht hq tool name args e a riskLevel
      | false => trivial

/-- The statements of every operation: those that work for some execution, the insertion of an
execution, updates of approvals by key, upstream calls and elicitations. -/
lemma program_uses (op : Operation) : (op.program cfg).Uses φ := by
  cases op with
  | run input => exact Prog.Uses.bind (run_uses hw hc input) fun _ => trivial
  | resumePaused input => exact Prog.Uses.bind (resumePaused_uses hw input) fun _ => trivial
  | gate toolName toolInput =>
    exact Prog.Uses.bind (gate_uses hw hc toolName toolInput) fun _ => trivial
  | complete e outcome => exact complete_uses hw e outcome
  | postDecide a decision comment =>
    exact Prog.Uses.bind (postDecide_uses hw hu a decision comment) fun _ => trivial
  | decideApproval a decision actor => exact decideApproval_uses (fun _ => hw 0 _ trivial) hu (fun id _ => hw id _ rfl) a decision actor
  | toolsCall elicitation name args =>
    exact Prog.Uses.bind (toolsCall_uses hw hu ht hq hc elicitation name args) fun _ => trivial

end programs

end NexusClaw.Governance
