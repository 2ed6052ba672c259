import NexusClaw.AgentRuntime.ToolRegistry

/-!
# Rules for programs of the backend

The rules of `Tracked` for an awaited statement, one under `try`/`catch` and a value that may be an
exception, and one walk through the tool registry: whatever the bookkeeping is, a call of
`executeTool` is a stretch of registry statements with at most one run of the tool's body in it, and
the body runs only for a registered tool below risk level L4.
-/

namespace NexusClaw.AgentRuntime
open Concurrent
open Governance (Id ToolCallStatus riskOrder)

variable {α β μ : Type}
variable {δ : μ → (s : Stmt) → s.Resp → μ} {φ : μ → Stmt → Prop} {m : μ}

/-! ## Awaited statements -/

section await
variable {Q : μ → Except String α → Prop}

/-- A statement that is awaited in front of the rest. -/
lemma tracked_await_bind {s : Stmt} {f : s.Out → Act α} :
    Tracked δ φ Q m (await s >>= f) ↔
      φ m s ∧ (∀ a, Tracked δ φ Q (δ m s (.ok a)) (f a)) ∧
        ∀ e, Q (δ m s (.error e)) (.error e) := by
  constructor
  · intro h
    exact ⟨h.1, fun a => h.2 (.ok a), fun e => h.2 (.error e)⟩
  · intro ⟨hs, hok, herror⟩
    refine ⟨hs, fun r => ?_⟩
    cases r with
    | ok a => exact hok a
    | error e => exact herror e

/-- A statement that is awaited. -/
lemma tracked_await {s : Stmt} {Q : μ → Except String s.Out → Prop} :
    Tracked δ φ Q m (await s) ↔ φ m s ∧ ∀ r, Q (δ m s r) r := by
  constructor
  · intro h
    refine ⟨h.1, fun r => ?_⟩
    cases r with
    | ok a => exact h.2 (.ok a)
    | error e => exact h.2 (.error e)
  · intro ⟨hs, hr⟩
    refine ⟨hs, fun r => ?_⟩
    cases r with
    | ok a => exact hr (.ok a)
    | error e => exact hr (.error e)

/-- A statement whose failure is caught. -/
lemma tracked_try_bind {s : Stmt} {f : Except String s.Out → Act α} :
    Tracked δ φ Q m ((await s).attempt >>= f) ↔
      φ m s ∧ ∀ r, Tracked δ φ Q (δ m s r) (f r) := by
  constructor
  · intro h
    refine ⟨h.1, fun r => ?_⟩
    cases r with
    | ok a => exact h.2 (.ok a)
    | error e => exact h.2 (.error e)
  · intro ⟨hs, hr⟩
    refine ⟨hs, fun r => ?_⟩
    cases r with
    | ok a => exact hr (.ok a)
    | error e => exact hr (.error e)

/-- A computed result in front of the rest. -/
lemma tracked_ofExcept_bind {r : Except String β} {f : β → Act α}
    (hok : ∀ a, r = .ok a → Tracked δ φ Q m (f a)) (herror : ∀ e, r = .error e → Q m (.error e)) :
    Tracked δ φ Q m (Act.ofExcept r >>= f) := by
  cases r with
  | ok a => exact hok a rfl
  | error e => exact herror e rfl

/-- A postcondition given for the results and for the exceptions. -/
def Upon (P : μ → α → Prop) (E : μ → Prop) : μ → Except String α → Prop
  | m, .ok a => P m a
  | m, .error _ => E m

/-- A sequence, from what its first part leaves. -/
lemma tracked_bind {p : Act β} {f : β → Act α} {P : μ → β → Prop} {E : μ → Prop}
    (hp : Tracked δ φ (Upon P E) m p) (hf : ∀ m b, P m b → Tracked δ φ Q m (f b))
    (he : ∀ m e, E m → Q m (.error e)) : Tracked δ φ Q m (p >>= f) :=
  hp.bind (fun m b h => hf m b h) fun m e h => he m e h

/-- The rule of `try` and `catch` around a program. -/
lemma tracked_attempt_bind {p : Act β} {f : Except String β → Act α}
    {P : μ → Except String β → Prop} (hp : Tracked δ φ P m p)
    (hf : ∀ m r, P m r → Tracked δ φ Q m (f r)) : Tracked δ φ Q m (p.attempt >>= f) := by
  have hattempt : Tracked δ φ (Upon P fun _ => False) m p.attempt := hp.attempt fun _ _ h => h
  exact tracked_bind hattempt hf fun _ _ h => h.elim

end await

/-! ## The guardrail engine -/

/-- The loop reads the bound rules with one statement, and goes on with the verdict where it could
read them. -/
lemma tracked_evaluateBoundRules_bind {Q : μ → Except String α → Prop} {cfg : Config}
    {p : Proposal} {f : Option Governance.GuardrailEvaluation → Act α}
    (lawful : ∀ ids, φ m (.loadRules p.workspaceId ids))
    (unbound : verdict cfg p = none → Tracked δ φ Q m (f none))
    (loaded : ∀ ids, Tracked δ φ Q (δ m (.loadRules p.workspaceId ids) (.ok ()))
      (f (verdict cfg p)))
    (unread : ∀ ids e, Tracked δ φ Q (δ m (.loadRules p.workspaceId ids) (.error e)) (f none)) :
    Tracked δ φ Q m
      (evaluateBoundRules cfg p.workspaceId p.toolName p.toolInput p.guardrailRuleIds >>= f) := by
  unfold evaluateBoundRules
  cases hbound : boundRules cfg p.guardrailRuleIds with
  | none =>
    refine unbound ?_
    unfold verdict
    rw [hbound]
    rfl
  | some bound =>
    obtain ⟨rules, ids⟩ := bound
    have hverdict : verdict cfg p =
        (Governance.evaluate rules p.workspaceId p.toolName p.toolInput ids).toOption := by
      unfold verdict
      rw [hbound]
      rfl
    dsimp only
    rw [Prog.bind_assoc, tracked_try_bind]
    refine ⟨lawful ids, fun r => ?_⟩
    cases r with
    | error e => exact unread ids e
    | ok _ => exact hverdict ▸ loaded ids

/-! ## The registry -/

/-- A statement of the registry other than the run of a tool's body. -/
def Stmt.OfRegistry : Stmt → Prop
  | .createToolCall _ => True
  | .transitionToolCall _ _ _ => True
  | .logGuardrailEvent _ => True
  | .prepareApproval _ _ => True
  | _ => False

/-- What the registry has checked when it runs the body of a tool. -/
structure Cleared (cfg : Config) (toolName : String) (input : Json) (context : ExecutionContext)
    (tool : AgentTool) : Prop where
  registered : cfg.tools.find? (·.name = toolName) = some tool
  allowed : tool.name ∈ context.constraints.allowedTools
  schema : cfg.schemaError tool.inputSchema input = none
  permission : permissionRefusal cfg tool input context = .ok none
  below : riskOrder tool.riskLevel < 4
  granted : 3 ≤ riskOrder tool.riskLevel →
    context.approvalGrant.any (·.toolName = tool.name) = true

/-- What a bookkeeping has to say about the statements around the run of a body: they are lawful
where `I` holds and keep it. -/
structure RegistryFrame (δ : μ → (s : Stmt) → s.Resp → μ) (φ : μ → Stmt → Prop) (I : μ → Prop) :
    Prop where
  lawful : ∀ m s, s.OfRegistry → I m → φ m s
  keeps : ∀ m s r, s.OfRegistry → I m → I (δ m s r)

/-- What a bookkeeping has to say about a call of the registry: `I` holds up to the run of the
body and `J` from there on. -/
structure RegistryCall (δ : μ → (s : Stmt) → s.Resp → μ) (φ : μ → Stmt → Prop) (cfg : Config)
    (invocation : Invocation) (toolName : String) (input : Json) (context : ExecutionContext)
    (I J : μ → Prop) : Prop where
  lawful : ∀ m s, s.OfRegistry → I m ∨ J m → φ m s
  before : ∀ m s r, s.OfRegistry → I m → I (δ m s r)
  after : ∀ m s r, s.OfRegistry → J m → J (δ m s r)
  runs : ∀ m tool, I m → Cleared cfg toolName input context tool →
    φ m (.runTool invocation tool.name input context)
  ran : ∀ m name r, I m → J (δ m (.runTool invocation name input context) r)

/-- A computed result issues nothing. -/
lemma ofExcept_uses {ψ : Stmt → Prop} (r : Except String α) : (Act.ofExcept r).Uses ψ := by
  cases r <;> trivial

/-- An awaited statement is issued. -/
lemma await_uses {ψ : Stmt → Prop} {s : Stmt} (hs : ψ s) : (await s).Uses ψ :=
  ⟨hs, ofExcept_uses⟩

/-- A transition is a statement of the registry. -/
lemma transition_uses (id : Id) (expected : List ToolCallStatus) (patch : ToolCallPatch) :
    (transition id expected patch).Uses Stmt.OfRegistry := by
  refine (await_uses trivial).bind fun affected => ?_
  rw [Prog.uses_ite]
  exact ⟨fun _ => trivial, fun _ => trivial⟩

/-- Finalizing with an output that has a preview. -/
lemma finalizeCall_preview {output : Governance.JsOutput} (h : hasPreview output = true) (id : Id)
    (patch : ToolCallPatch) :
    finalizeCall id output patch = transition id [.started, .running] patch :=
  if_pos h

/-- Finalizing with an output that has none. -/
lemma finalizeCall_refused {output : Governance.JsOutput} (h : ¬ hasPreview output = true) (id : Id)
    (patch : ToolCallPatch) : finalizeCall id output patch = .throw "TOOL_CALL_OUTPUT_NOT_JSON" :=
  if_neg h

/-- Finalizing is within the registry. -/
lemma finalizeCall_uses (id : Id) (output : Governance.JsOutput) (patch : ToolCallPatch) :
    (finalizeCall id output patch).Uses Stmt.OfRegistry := by
  unfold finalizeCall
  rw [Prog.uses_ite]
  exact ⟨fun _ => transition_uses .., fun _ => trivial⟩

/-- So is the begin of a call. -/
lemma beginCall_uses (toolName : String) (input : Json) (context : ExecutionContext) :
    (beginCall toolName input context).Uses Stmt.OfRegistry := by
  unfold beginCall
  rw [Prog.uses_ite]
  exact ⟨fun _ => await_uses trivial, fun _ => trivial⟩

/-- So is a refusal. -/
lemma refuse_uses (context : ExecutionContext) (tool : AgentTool) (call : ToolCallRecord)
    (riskLevel error errorCode : String) (status : ToolCallStatus)
    (permissionCheck : Governance.PermissionCheck) :
    (refuse context tool call riskLevel error errorCode status permissionCheck).Uses
      Stmt.OfRegistry :=
  (await_uses trivial).bind fun _ => (transition_uses ..).bind fun _ => trivial

/-- So is the record of what the body threw. -/
lemma executionThrew_uses (call : ToolCallRecord) (error : String) :
    (executionThrew call error).Uses Stmt.OfRegistry :=
  (finalizeCall_uses ..).bind fun _ => trivial

/-- So is an escalation. -/
lemma escalate_uses (tool : AgentTool) (input : Json) (context : ExecutionContext)
    (call : ToolCallRecord) : (escalate tool input context call).Uses Stmt.OfRegistry := by
  have hprepare : (prepareApproval tool input).Uses Stmt.OfRegistry := by
    unfold prepareApproval
    rw [Prog.uses_ite]
    exact ⟨fun _ => await_uses trivial, fun _ => trivial⟩
  exact hprepare.bind fun _ => (await_uses trivial).bind fun _ =>
    (transition_uses ..).bind fun _ => trivial

/-- A call that does not end with a success. -/
def Refused : Except String ToolCallResult → Prop
  | .ok result => result.success = false
  | .error _ => True

/-- What a program ends with is what its last step returns. -/
lemma ends_last {Q : β → Prop} (p : Act α) {f : α → Act β} (hf : ∀ a, (f a).Ends Q) :
    (p >>= f).Ends Q :=
  (Prog.ends_true p).bind fun a _ => hf a

/-- A refusal answers that the call was refused. -/
lemma refuse_ends {context : ExecutionContext} {tool : AgentTool} {call : ToolCallRecord}
    {riskLevel error errorCode : String} {status : ToolCallStatus}
    {permissionCheck : Governance.PermissionCheck} :
    (refuse context tool call riskLevel error errorCode status permissionCheck).Ends
      fun result => result.success = false :=
  ends_last _ fun _ => ends_last _ fun _ => rfl

/-- An escalation answers that an approval is needed. -/
lemma escalate_ends {tool : AgentTool} {input : Json} {context : ExecutionContext}
    {call : ToolCallRecord} :
    (escalate tool input context call).Ends fun result => result.success = false :=
  ends_last _ fun _ => ends_last _ fun _ => ends_last _ fun _ => rfl

section frame
variable {cfg : Config} {invocation : Invocation} {toolName : String} {input : Json}
  {context : ExecutionContext} {tool : AgentTool} {I : μ → Prop}

/-- A stretch of registry statements. -/
lemma RegistryFrame.stretch (frame : RegistryFrame δ φ I) {p : Act α}
    (hp : p.Uses Stmt.OfRegistry) (hm : I m) : Tracked δ φ (fun m _ => I m) m p :=
  Tracked.of_uses hp hm frame.lawful frame.keeps fun _ _ h => h

/-- A call that is refused. -/
lemma RegistryFrame.refusal (frame : RegistryFrame δ φ I) {p : Act ToolCallResult}
    (hp : p.Uses Stmt.OfRegistry) (hr : p.Ends fun result => result.success = false) (hm : I m) :
    Tracked δ φ (fun m r => I m ∧ Refused r) m p := by
  induction p generalizing m with
  | ret result => exact ⟨hm, hr⟩
  | throw e => exact ⟨hm, trivial⟩
  | stmt s k ih =>
    exact ⟨frame.lawful m s hp.1 hm, fun r => ih r (hp.2 r) (hr r) (frame.keeps m s r hp.1 hm)⟩

variable {Q : μ → Except String ToolCallResult → Prop}

/-- The rule of the gate of the levels. -/
lemma RegistryFrame.riskGate (frame : RegistryFrame δ φ I)
    (post : ∀ m r, I m → Refused r → Q m r)
    (body : ∀ m tool call, I m → Cleared cfg toolName input context tool →
      Tracked δ φ Q m (runStaticTool invocation tool input context call))
    (ht : cfg.tools.find? (·.name = toolName) = some tool)
    (hallowed : tool.name ∈ context.constraints.allowedTools)
    (hschema : cfg.schemaError tool.inputSchema input = none)
    (hpermission : permissionRefusal cfg tool input context = .ok none) (call : ToolCallRecord)
    (hm : I m) : Tracked δ φ Q m (riskGate invocation tool input context call) := by
  unfold AgentRuntime.riskGate
  rw [tracked_ite, tracked_ite, tracked_ite]
  refine ⟨fun _ => ?_, fun hrisk => ⟨fun hhigh => ⟨fun hgrant => ?_, fun _ => ?_⟩, fun hlow => ?_⟩⟩
  · exact (frame.refusal (refuse_uses ..) refuse_ends hm).post fun m r h => post m r h.1 h.2
  · have hlog : (logGovernanceEvent context tool tool.riskLevel "allow").Uses Stmt.OfRegistry :=
      await_uses trivial
    refine (frame.stretch hlog hm).bind (fun m _ hm => ?_) fun m _ hm => post m _ hm trivial
    exact body m tool call hm ⟨ht, hallowed, hschema, hpermission, by omega, fun _ => hgrant⟩
  · exact (frame.refusal (escalate_uses ..) escalate_ends hm).post fun m r h =>
      post m r h.1 h.2
  · exact body m tool call hm
      ⟨ht, hallowed, hschema, hpermission, by omega, fun h => absurd h hlow⟩

/-- One walk through `executeTool`, of which `body` knows the run of the tool. -/
theorem RegistryFrame.executeTool (frame : RegistryFrame δ φ I)
    (post : ∀ m r, I m → Refused r → Q m r)
    (body : ∀ m tool call, I m → Cleared cfg toolName input context tool →
      Tracked δ φ Q m (runStaticTool invocation tool input context call)) (hm : I m) :
    Tracked δ φ Q m (executeTool cfg invocation toolName input context) := by
  unfold AgentRuntime.executeTool
  have refused : ∀ {m : μ} {p : Act ToolCallResult}, I m → p.Uses Stmt.OfRegistry →
      (p.Ends fun result => result.success = false) → Tracked δ φ Q m p :=
    fun hm hp hr => (frame.refusal hp hr hm).post fun m r h => post m r h.1 h.2
  cases ht : cfg.tools.find? (·.name = toolName) with
  | none => exact post _ _ hm rfl
  | some tool =>
    dsimp only
    rw [tracked_ite]
    refine ⟨fun _ => post _ _ hm rfl, fun _ => ?_⟩
    refine (frame.stretch (beginCall_uses ..) hm).bind (fun m call hm => ?_) fun m _ hm => post m _ hm trivial
    unfold executeRecorded
    -- the refusals in the order of the source: the name, the schema, the permission, the risk
    rw [tracked_ite]
    refine ⟨fun _ => refused hm (refuse_uses ..) refuse_ends, fun hallowed => ?_⟩
    cases hschema : cfg.schemaError tool.inputSchema input with
    | some error =>
      refine refused hm ((finalizeCall_uses ..).bind fun _ => ?_) (ends_last _ fun _ => rfl)
      trivial
    | none =>
      cases hpermission : permissionRefusal cfg tool input context with
      | error e => exact post _ _ hm trivial
      | ok refusal =>
        cases refusal with
        | some refusal => exact refused hm (refuse_uses ..) refuse_ends
        | none => exact frame.riskGate post body ht (not_not.1 hallowed) hschema hpermission call hm

end frame

section registry
variable {cfg : Config} {invocation : Invocation} {toolName : String} {input : Json}
  {context : ExecutionContext} {I J : μ → Prop}

/-- The frame of a call. -/
lemma RegistryCall.frame (reg : RegistryCall δ φ cfg invocation toolName input context I J) :
    RegistryFrame δ φ I :=
  ⟨fun m s hs hm => reg.lawful m s hs (.inl hm), reg.before⟩

/-- A stretch of registry statements after the body has run. -/
lemma RegistryCall.tail
    (reg : RegistryCall δ φ cfg invocation toolName input context I J) {p : Act α}
    (hp : p.Uses Stmt.OfRegistry) (hm : J m) : Tracked δ φ (fun m _ => I m ∨ J m) m p :=
  Tracked.of_uses hp hm (fun m s hs h => reg.lawful m s hs (.inr h))
    (fun m s r hs h => reg.after m s r hs h) fun _ _ h => .inr h

/-- The body runs at most once. -/
lemma RegistryCall.runStaticTool
    (reg : RegistryCall δ φ cfg invocation toolName input context I J) {tool : AgentTool}
    (ht : Cleared cfg toolName input context tool) (call : ToolCallRecord) (hm : I m) :
    Tracked δ φ (fun m _ => I m ∨ J m) m (runStaticTool invocation tool input context call) := by
  refine (reg.frame.stretch (transition_uses ..) hm).bind (fun m _ hm => ?_) fun _ _ hm => .inl hm
  rw [tracked_await_bind]
  refine ⟨reg.runs m tool hm ht, fun result => ?_, fun e => .inr ?_⟩
  · have ran := reg.ran m tool.name (.ok result) hm
    cases result with
    | error e => exact reg.tail (executionThrew_uses ..) ran
    | ok result =>
      refine reg.tail ((finalizeCall_uses ..).attempt.bind fun finalized => ?_) ran
      cases finalized with
      | error e => exact executionThrew_uses ..
      | ok _ => trivial
  · exact reg.ran m tool.name (.error e) hm

/-- One walk through `executeTool`. -/
theorem RegistryCall.executeTool
    (reg : RegistryCall δ φ cfg invocation toolName input context I J) (hm : I m) :
    Tracked δ φ (fun m _ => I m ∨ J m) m (executeTool cfg invocation toolName input context) :=
  reg.frame.executeTool (fun _ _ hm _ => .inl hm)
    (fun _ _ call hm ht => reg.runStaticTool ht call hm) hm

/-- A call that may be repeated keeps what each of its attempts keeps. -/
lemma RegistryCall.retryTool
    (reg : RegistryCall δ φ cfg invocation toolName input context I I)
    (retries retryCount : Nat) (hm : I m) :
    Tracked δ φ (fun m _ => I m) m
      (retryTool cfg invocation toolName input context retries retryCount) := by
  have hcall : ∀ m, I m → Tracked δ φ (fun m _ => I m) m
      (AgentRuntime.executeTool cfg invocation toolName input context).attempt := fun m hm =>
    (reg.executeTool hm).attempt fun _ _ h => h.elim id id
  induction retries generalizing m retryCount with
  | zero =>
    refine (hcall m hm).bind (fun m result hm => ?_) fun _ _ hm => hm
    dsimp only
    rw [tracked_ite]
    exact ⟨fun _ => hm, fun _ => hm⟩
  | succ retries ih =>
    refine (hcall m hm).bind (fun m result hm => ?_) fun _ _ hm => hm
    dsimp only
    rw [tracked_ite, tracked_ite]
    exact ⟨fun _ => hm, fun _ => ⟨fun _ => ih _ hm, fun _ => hm⟩⟩

/-- The rule of a call with its retries. -/
lemma RegistryCall.executeToolWithRetry
    (reg : RegistryCall δ φ cfg invocation toolName input context I I) (hm : I m) :
    Tracked δ φ (fun m _ => I m) m
      (executeToolWithRetry cfg invocation toolName input context) :=
  reg.retryTool _ _ hm

end registry

end NexusClaw.AgentRuntime
