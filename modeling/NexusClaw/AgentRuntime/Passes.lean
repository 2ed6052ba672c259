import NexusClaw.AgentRuntime.ReActLoop
import NexusClaw.AgentRuntime.Rules

/-!
# Walks through the loop

One walk through `runReActLoop` for every bookkeeping. `PassFrame` says where a pass stands: at the
head of the loop, in its checks, or with the tokens of the replies it has received in hand and with
or without a proposal that no step records yet. Its fields are what a bookkeeping has to say about
the single statements; `PassFrame.reactLoop` follows the text of the loop and gives the head back.
-/

namespace NexusClaw.AgentRuntime
open Concurrent
open Governance (Id)

variable {μ : Type} {δ : μ → (s : Stmt) → s.Resp → μ} {φ : μ → Stmt → Prop}

/-! ## Where a pass stands -/

instance : Zero TokensUsed where
  zero := { input := 0, output := 0 }

instance : Add TokensUsed where
  add a b := { input := a.input + b.input, output := a.output + b.output }

/-- The tokens of a reply all together. -/
def ChatResponse.total (response : ChatResponse) : Nat :=
  response.inputTokens + response.outputTokens

/-- The reply takes the run over its tokens, no limit of a step ends the run, and there is a prompt to
crop: the pass is taken once more. -/
def Loop.crops (loop : Loop) (s : LoopState) (response : ChatResponse) : Prop :=
  loop.context.constraints.maxStepTokens.any
      (fun (limit : Int) => limit < response.total) = false ∧
    loop.context.constraints.maxTokens < s.totalTokens ∧ (cropPrompt loop s).isSome = true

/-- Where the loop is after a turn. -/
def Turn.state : Turn → LoopState
  | .again s => s
  | .stop s => s

/-- What a bookkeeping has to say about the statements of a pass outside the run of a proposal. -/
structure PassBase (δ : μ → (s : Stmt) → s.Resp → μ) (φ : μ → Stmt → Prop) (loop : Loop)
    (Head Early : μ → LoopState → Prop) (Inside : μ → LoopState → TokensUsed → Bool → Prop)
    (Thrown : μ → Prop) : Prop where
  early_thrown : ∀ m s, Early m s → Thrown m
  inside_thrown : ∀ m s t b, Inside m s t b → Thrown m
  now : ∀ m s, Head m s → s.steps.length < loop.context.constraints.maxReActIterations →
    Tracked δ φ (Upon (fun m' _ => Early m' s) Thrown) m (await .now)
  iteration : ∀ m s i, Early m s → Tracked δ φ (Upon (fun m' _ => Early m' s) Thrown) m
    (await (.checkIteration loop.execution.workspaceId loop.execution.agentId i))
  build : ∀ m s, Early m s → Tracked δ φ (Upon (fun m' _ => Inside m' s 0 false) Thrown) m
    (await (.getActiveText loop.context.workspaceId))
  crop : ∀ m s trimmed, Inside m s 0 false → cropPrompt loop s = some trimmed →
    Tracked δ φ (Upon (fun m' _ => Inside m' (s.cropped (some trimmed)) 0 false) Thrown) m
      (await (.getActiveText loop.context.workspaceId))
  keep : ∀ m s t b, Inside m s t b → cropPrompt loop s = none → Inside m (s.cropped none) t b
  reply : ∀ m s messages maxTokens tier, Inside m s 0 false →
    φ m (.chat .reactModelCall messages maxTokens tier) ∧
      (∀ e, Inside (δ m (.chat .reactModelCall messages maxTokens tier) (.error e)) s 0 false) ∧
      ∀ r : ChatResponse,
        (¬ loop.crops (s.spend r.total) r →
          Inside (δ m (.chat .reactModelCall messages maxTokens tier) (.ok r)) (s.spend r.total)
            r.tokens false) ∧
        ∀ trimmed, loop.crops (s.spend r.total) r →
          cropPrompt loop (s.spend r.total) = some trimmed →
          Head (δ m (.chat .reactModelCall messages maxTokens tier) (.ok r))
            ((s.spend r.total).cropped (some trimmed))
  more : ∀ m s t purpose messages maxTokens tier, Inside m s t false →
    purpose = .structuredRepair ∨ purpose = .generation →
    φ m (.chat purpose messages maxTokens tier) ∧
      (∀ e, Inside (δ m (.chat purpose messages maxTokens tier) (.error e)) s t false) ∧
      ∀ r : ChatResponse, Inside (δ m (.chat purpose messages maxTokens tier) (.ok r))
        (s.spend r.total) (t + r.tokens) false
  count : ∀ m s t digest, Inside m s t false → Inside m (s.count digest) t false
  propose : ∀ m s t digest toolName action, Inside m s t false →
    (s.count digest).toolCallCount ≤ loop.context.constraints.maxToolCalls →
    Tracked δ φ (Upon (fun m' _ => Inside m' (s.count digest) t true) Thrown) m
      (await (.propose (loop.proposal toolName action)))
  rules : ∀ m s t ids, Inside m s t true → φ m (.loadRules loop.execution.workspaceId ids) ∧
    ∀ r, Inside (δ m (.loadRules loop.execution.workspaceId ids) r) s t true
  suspend : ∀ m s t, Inside m s t true →
    Tracked δ φ (Upon (fun m' _ => Inside m' s t true) Thrown) m
      (handleStateTransition loop.execution.id .guardrailPending)
  ask : ∀ m s t request, Inside m s t true → request.agentExecutionId = loop.execution.id →
    request.workspaceId = loop.execution.workspaceId →
    Tracked δ φ (Upon (fun m' id =>
        Inside m' { s with status := .guardrailPending, paused := some id } t true) Thrown) m
      (createAgentApproval loop.cfg request)
  record : ∀ m s t b step, Inside m s t b → step.iteration = s.steps.length →
    step.tokensUsed = t → (b = true → step.action.type = .toolCall) →
    Tracked δ φ (Upon (fun m' _ => Head m' (s.push step)) Thrown) m
      (persistStep loop.execution step)
  recordEarly : ∀ m s step, Early m s → step.iteration = s.steps.length → step.tokensUsed = 0 →
    Tracked δ φ (Upon (fun m' _ => Head m' (s.push step)) Thrown) m
      (persistStep loop.execution step)
  event : ∀ m s, Head m s → φ m (.transaction (loop.execution.event .executionStep) none) ∧
    ∀ r, Head (δ m (.transaction (loop.execution.event .executionStep) none) r) s

/-- What a bookkeeping that takes no note of a tool's result has to say about a pass. -/
structure PassFrame (δ : μ → (s : Stmt) → s.Resp → μ) (φ : μ → Stmt → Prop) (loop : Loop)
    (Head Early : μ → LoopState → Prop) (Inside : μ → LoopState → TokensUsed → Bool → Prop)
    (Thrown : μ → Prop) : Prop extends PassBase δ φ loop Head Early Inside Thrown where
  tool : ∀ m s t invocation toolName input, Inside m s t true →
    Tracked δ φ (Upon (fun m' _ => Inside m' s t true) Thrown) m
      (executeToolWithRetry loop.cfg invocation toolName input loop.context)

/-- A turn gives the head of the loop back. -/
abbrev Turns (δ : μ → (s : Stmt) → s.Resp → μ) (φ : μ → Stmt → Prop) (Head : μ → LoopState → Prop)
    (Thrown : μ → Prop) (m : μ) (p : Act Turn) : Prop :=
  Tracked δ φ (Upon (fun m' turn => Head m' turn.state) Thrown) m p

/-- What any bookkeeping has to say about a pass; `run` is the proposal that has passed the gates. -/
structure PassRules (δ : μ → (s : Stmt) → s.Resp → μ) (φ : μ → Stmt → Prop) (loop : Loop)
    (Head Early : μ → LoopState → Prop) (Inside : μ → LoopState → TokensUsed → Bool → Prop)
    (Thrown : μ → Prop) : Prop extends PassBase δ φ loop Head Early Inside Thrown where
  run : ∀ m s (proposed : Proposed), Inside m s proposed.response.tokens true →
    proposed.action.type = .toolCall → Turns δ φ Head Thrown m (runProposed loop s proposed)

/-! ## Running and pausing a proposal -/

/-- The statements that run a proposed call or pause for it. -/
def Stmt.Gating (execution : AgentExecution) : Stmt → Prop
  | .findExecution id _ => id = execution.id
  | .updateExecution id status => id = execution.id ∧ status = .guardrailPending
  | .createApproval row =>
    row.recordId = execution.id ∧ row.workspaceId = execution.workspaceId ∧ row.status = .pending
  | .emitApprovalCreated _ => True
  | .logGuardrailEvent _ => True
  | .createToolCall _ => True
  | .transitionToolCall _ _ _ => True
  | .prepareApproval _ _ => True
  | .runTool _ _ _ _ => True
  | _ => False

section gating
variable {α : Type} {cfg : Config} {execution : AgentExecution}

/-- A statement of the registry may be issued in the gate. -/
lemma Stmt.OfRegistry.gating {s : Stmt} (h : s.OfRegistry) : s.Gating execution := by
  cases s <;> first | exact h.elim | exact trivial

/-- So may those of a call with its retries. -/
lemma executeToolWithRetry_gating (invocation : Invocation) (toolName : String) (input : Json)
    (context : ExecutionContext) :
    (executeToolWithRetry cfg invocation toolName input context).Uses (Stmt.Gating execution) := by
  have hreg : RegistryCall (fun m _ _ => m) (fun _ s => Stmt.Gating execution s) cfg invocation
      toolName input context (fun _ : Unit => True) (fun _ => True) :=
    ⟨fun _ _ hs _ => hs.gating, fun _ _ _ _ _ => trivial, fun _ _ _ _ _ => trivial,
      fun _ _ _ _ => trivial, fun _ _ _ _ => trivial⟩
  exact (hreg.executeToolWithRetry (m := ()) trivial).uses

/-- So may a transition to the pause. -/
lemma handleStateTransition_gating :
    (handleStateTransition execution.id .guardrailPending).Uses (Stmt.Gating execution) := by
  refine Prog.Uses.bind (await_uses rfl) fun row => ?_
  cases row with
  | none => trivial
  | some row =>
    dsimp only
    cases h : Governance.handleStateTransition row.status .guardrailPending with
    | error e => trivial
    | ok validated =>
      obtain ⟨rfl, _⟩ := Governance.handleStateTransition_ok h
      exact await_uses ⟨rfl, rfl⟩

/-- So may the request for an approval. -/
lemma createAgentApproval_gating {request : ApprovalRequest}
    (hid : request.agentExecutionId = execution.id)
    (hworkspace : request.workspaceId = execution.workspaceId) :
    (createAgentApproval cfg request).Uses (Stmt.Gating execution) := by
  unfold createAgentApproval
  rw [Prog.uses_ite]
  refine ⟨fun _ => trivial, fun _ => ?_⟩
  refine Prog.Uses.bind (await_uses ⟨hid, hworkspace, rfl⟩) fun _ => ?_
  exact Prog.Uses.bind (await_uses trivial) fun _ => Prog.Uses.bind (await_uses trivial)
    fun _ => trivial

/-- A stretch of such statements, for a bookkeeping that takes no note of them. -/
lemma tracked_gating {I E : μ → Prop} {p : Act α} {m : μ} (hp : p.Uses (Stmt.Gating execution))
    (hm : I m) (quiet : ∀ m s r, s.Gating execution → I m → φ m s ∧ I (δ m s r))
    (thrown : ∀ m, I m → E m) : Tracked δ φ (Upon (fun m' _ => I m') E) m p := by
  refine Tracked.of_uses hp hm (fun m s hs hm => ?_) (fun m s r hs hm => ?_) fun m r hm => ?_
  · cases s <;> first | exact hs.elim | exact (quiet m _ (.error "") hs hm).1
  · exact (quiet m s r hs hm).2
  · cases r with
    | ok a => exact hm
    | error e => exact thrown m hm

end gating

/-! ## The walk -/

section walk
variable {loop : Loop} {Head Early : μ → LoopState → Prop}
variable {Inside : μ → LoopState → TokensUsed → Bool → Prop} {Thrown : μ → Prop}
variable {m : μ} {s : LoopState} {t : TokensUsed} {b : Bool}

namespace PassBase
variable (f : PassBase δ φ loop Head Early Inside Thrown)
include f

/-- A pass that stops with a step. -/
lemma stopWith {step : ReActStepData} (h : Inside m s t b)
    (hiteration : step.iteration = s.steps.length) (htokens : step.tokensUsed = t)
    (hcall : b = true → step.action.type = .toolCall) :
    Turns δ φ Head Thrown m (stopWith loop s step) :=
  tracked_bind (f.record m s t b step h hiteration htokens hcall) (fun _ _ hm => hm)
    fun _ _ hm => hm

/-- A step that the checks of a pass take in place of the model. -/
lemma stopEarly {step : ReActStepData} (h : Early m s)
    (hiteration : step.iteration = s.steps.length) (htokens : step.tokensUsed = 0) :
    Turns δ φ Head Thrown m (AgentRuntime.stopWith loop s step) :=
  tracked_bind (f.recordEarly m s step h hiteration htokens) (fun _ _ hm => hm) fun _ _ hm => hm

/-- A termination in place of an action; no proposal is open there. -/
lemma terminate {response : ChatResponse} {termination : Termination} {userMessage : String}
    (h : Inside m s response.tokens false) :
    Turns δ φ Head Thrown m (AgentRuntime.stopWith loop s
      (createControlledTerminationStep s.steps.length (some response) termination userMessage
        none)) := by
  apply f.stopWith h
  · rfl
  · rfl
  · intro hb
    cases hb

/-- A pass that records a step and goes on. -/
lemma recordStep {thought : Thought} {action : Action} {observation : Observation}
    {response : ChatResponse} {tokensUsed : TokensUsed} (h : Inside m s tokensUsed b)
    (hcall : b = true → action.type = .toolCall) :
    Turns δ φ Head Thrown m
      (recordStep loop s thought action observation response tokensUsed) := by
  refine tracked_bind (f.record m s tokensUsed b _ h rfl rfl hcall) (fun m' _ hm => ?_)
    fun _ _ hm => hm
  obtain ⟨hlaw, hevent⟩ := f.event m' _ hm
  refine tracked_try_bind.2 ⟨hlaw, fun r => tracked_ite.2 ⟨fun _ => ?_, fun _ => ?_⟩⟩
  · exact hevent r
  · exact hevent r

/-- A pass that pauses. -/
lemma pause {proposed : Proposed} {riskLevel description : String} {prepared : Bool}
    {output : String → String} (h : Inside m s proposed.response.tokens true)
    (hcall : proposed.action.type = .toolCall) :
    Turns δ φ Head Thrown m
      (pause loop s proposed riskLevel description prepared output) := by
  refine tracked_bind (f.suspend m s _ h) (fun m' _ hm => ?_) fun _ _ hm => hm
  refine tracked_bind (f.ask m' s _ _ hm rfl rfl) (fun m' id hm => ?_) fun _ _ hm => hm
  exact f.stopWith hm rfl rfl fun _ => hcall

/-- A pass with an answer of the model. -/
lemma generate {thought : Thought} {action : Action} {response : ChatResponse}
    (h : Inside m s response.tokens false) :
    Turns δ φ Head Thrown m (generate loop s thought action response) := by
  obtain ⟨hlaw, herror, hok⟩ := f.more m s _ .generation
    [{ role := "system", content := "You are a helpful content generation assistant." },
      { role := "user", content := (action.generatePrompt.bind Json.asString).getD "" }]
    none 2 h (.inr rfl)
  refine tracked_try_bind.2 ⟨hlaw, fun generated => ?_⟩
  cases generated with
  | error e => exact f.recordStep (herror e) fun hb => by cases hb
  | ok generated => exact f.recordStep (hok generated) fun hb => by cases hb

/-- A pass with a handoff. -/
lemma handOff {thought : Thought} {action : Action} {response : ChatResponse}
    (h : Inside m s response.tokens false) :
    Turns δ φ Head Thrown m (handOff loop s thought action response) :=
  f.recordStep h fun hb => by cases hb

/-- A repair adds its tokens to those in hand, and may only finish. -/
lemma repair {response : ChatResponse} {remaining : Int} {tier : Nat} (h : Inside m s t false) :
    Tracked δ φ (Upon (fun m' repair =>
        (match repair.response with
          | none => Inside m' s t false
          | some r => Inside m' (s.spend r.total) (t + r.tokens) false) ∧
        ∀ thought action, repair.parsed = some (thought, action) → action.type = .finish) Thrown) m
      (repairStructuredResponse loop.cfg loop.context response remaining tier) := by
  -- a repair that is not asked for, or fails, has no action to finish with
  have hnothing : ∀ thought : Thought, ∀ action : Action,
      (none : Option (Thought × Action)) = some (thought, action) → action.type = .finish :=
    fun _ _ hsome => by cases hsome
  unfold repairStructuredResponse
  refine tracked_ite.2 ⟨fun _ => ⟨h, hnothing⟩, fun _ => ?_⟩
  obtain ⟨hlaw, herror, hok⟩ := f.more m s t .structuredRepair (repairMessages response)
    (some (min (loop.context.constraints.maxOutputTokensPerStep.getD 2048)
      (remaining - estimateChatInputTokens (repairMessages response)))) tier h (.inl rfl)
  refine tracked_try_bind.2 ⟨hlaw, fun r => ?_⟩
  cases r with
  | error e => exact ⟨herror e, hnothing⟩
  | ok repaired =>
    have hmore := hok repaired
    dsimp only
    cases parseThoughtAndAction loop.cfg repaired.content with
    | error e => exact ⟨hmore, hnothing⟩
    | ok parsed =>
      obtain ⟨thought, action⟩ := parsed
      refine tracked_ite.2 ⟨fun hfinish => ⟨hmore, fun thought' action' hsome => ?_⟩, fun _ =>
        ⟨hmore, hnothing⟩⟩
      cases hsome
      exact hfinish

end PassBase

/-- A pass with a proposed call that runs. -/
lemma PassFrame.runProposed (f : PassFrame δ φ loop Head Early Inside Thrown) {proposed : Proposed}
    (h : Inside m s proposed.response.tokens true) (hcall : proposed.action.type = .toolCall) :
    Turns δ φ Head Thrown m (runProposed loop s proposed) := by
  refine tracked_bind (f.tool m s _ _ _ _ h) (fun m' executed hm => ?_) fun _ _ hm => hm
  refine tracked_ite.2 ⟨fun _ => f.pause hm hcall, fun _ => tracked_ite.2 ⟨fun _ => ?_, fun _ => ?_⟩⟩
  · exact f.stopWith hm rfl rfl fun _ => hcall
  · exact f.recordStep hm fun _ => hcall

/-- The rules that a frame gives. -/
lemma PassFrame.toRules (f : PassFrame δ φ loop Head Early Inside Thrown) :
    PassRules δ φ loop Head Early Inside Thrown :=
  { f.toPassBase with run := fun _ _ _ h hcall => f.runProposed h hcall }

namespace PassRules
variable (f : PassRules δ φ loop Head Early Inside Thrown)
include f

/-- A pass with a decision of the engine. -/
lemma engineDecision {proposed : Proposed} {evaluation : Option Governance.GuardrailEvaluation}
    (h : Inside m s proposed.response.tokens true) (hcall : proposed.action.type = .toolCall) :
    Turns δ φ Head Thrown m (engineDecision loop s proposed evaluation) := by
  unfold AgentRuntime.engineDecision
  cases evaluation.filter (·.matched) with
  | none => exact f.run m s _ h hcall
  | some evaluation =>
    dsimp only
    cases evaluation.action.type with
    | allow => exact f.run m s _ h hcall
    | audit => exact f.run m s _ h hcall
    | confirm => exact f.pause h hcall
    | approve => exact f.pause h hcall
    | block =>
      exact tracked_bind (f.record m s _ true _ h rfl rfl fun _ => hcall) (fun _ _ hm => hm)
        fun _ _ hm => hm

/-- The gates, in their order. -/
lemma sensitiveGate {proposed : Proposed} (h : Inside m s proposed.response.tokens true)
    (hcall : proposed.action.type = .toolCall) :
    Turns δ φ Head Thrown m (sensitiveGate loop s proposed) := by
  refine tracked_ofExcept_bind (fun rule _ => ?_) fun _ _ => f.inside_thrown _ _ _ _ h
  cases rule.filter (·.textOf "riskLevel" ≠ "L1") with
  | some rule => exact f.pause h hcall
  | none =>
    apply tracked_evaluateBoundRules_bind (p := loop.proposal proposed.toolName proposed.action)
    · intro ids
      exact (f.rules m s _ ids h).1
    · intro _
      exact f.engineDecision h hcall
    · intro ids
      exact f.engineDecision ((f.rules m s _ ids h).2 _) hcall
    · intro ids e
      exact f.engineDecision ((f.rules m s _ ids h).2 _) hcall

/-- A pass with a tool call. -/
lemma callTool {thought : Thought} {action : Action} {response : ChatResponse} {toolName : String}
    (h : Inside m s response.tokens false) (hcall : action.type = .toolCall) :
    Turns δ φ Head Thrown m (callTool loop s thought action response toolName) := by
  have hcount := f.count m s _ (stableToolCallDigest loop.cfg toolName action.toolInput) h
  refine tracked_ite.2 ⟨fun _ => f.terminate hcount, fun _ => tracked_ite.2
    ⟨fun _ => f.terminate hcount, fun hmax => ?_⟩⟩
  refine tracked_bind (f.propose m s _ _ toolName action h (not_lt.1 hmax)) (fun m' call hm => ?_)
    fun _ _ hm => hm
  exact f.sensitiveGate hm hcall

/-- The action of a reply: a finish takes all the tokens of the pass, any other action those of the
reply it came with. -/
lemma dispatch {thought : Thought} {action : Action} {response effectiveResponse : ChatResponse}
    (h : Inside m s effectiveResponse.tokens false)
    (heffective : action.type ≠ .finish → response = effectiveResponse) :
    Turns δ φ Head Thrown m (dispatch loop s thought action response effectiveResponse) := by
  unfold AgentRuntime.dispatch
  cases htype : action.type with
  | finish =>
    refine tracked_ofExcept_bind (fun answer _ => ?_) fun _ _ => f.inside_thrown _ _ _ _ h
    exact f.stopWith h rfl rfl fun hb => by cases hb
  | toolCall =>
    have hresponse := heffective (by rw [htype]; decide)
    dsimp only
    cases nonEmpty action.name with
    | none => exact f.handOff (hresponse ▸ h)
    | some toolName => exact f.callTool (hresponse ▸ h) htype
  | llmGenerate =>
    have hresponse := heffective (by rw [htype]; decide)
    exact f.generate (hresponse ▸ h)
  | humanHandoff =>
    have hresponse := heffective (by rw [htype]; decide)
    exact f.handOff (hresponse ▸ h)

/-- A pass from the reply on. -/
lemma readReply {response : ChatResponse} (h : Inside m s response.tokens false) :
    Turns δ φ Head Thrown m (readReply loop s response) := by
  unfold AgentRuntime.readReply
  cases extractNativeAction response with
  | some native => exact f.dispatch h fun _ => rfl
  | none =>
    dsimp only
    cases parseThoughtAndAction loop.cfg response.content with
    | ok parsed => exact f.dispatch h fun _ => rfl
    | error parseError =>
      refine tracked_bind (f.repair h) (fun m' repair hm => ?_) fun _ _ hm => hm
      obtain ⟨hinside, hfinish⟩ := hm
      obtain ⟨parsed, repairing, attempted⟩ := repair
      -- what the pass has in hand is the effective response, with or without a repairing reply
      cases repairing with
      | none =>
        cases parsed with
        | none => exact f.terminate hinside
        | some parsed => exact f.dispatch hinside fun hno => absurd (hfinish _ _ rfl) hno
      | some r =>
        cases parsed with
        | none => exact f.terminate hinside
        | some parsed => exact f.dispatch hinside fun hno => absurd (hfinish _ _ rfl) hno

/-- A pass from the call of the model on. -/
lemma callModel {messages : List ChatMessage} (h : Inside m s 0 false) :
    Turns δ φ Head Thrown m (callModel loop s messages) := by
  refine tracked_ite.2 ⟨fun _ => f.stopWith h rfl rfl (fun hb => by cases hb), fun _ => ?_⟩
  obtain ⟨hlaw, herror, hok⟩ := f.reply m s messages
    (some (min (loop.context.constraints.maxOutputTokensPerStep.getD 2048)
      (s.remaining loop.context - estimateChatInputTokens messages))) (loop.forceTier.getD 2) h
  refine tracked_try_bind.2 ⟨hlaw, fun r => ?_⟩
  cases r with
  | error e => exact f.stopWith (herror e) rfl rfl fun hb => by cases hb
  | ok response =>
    obtain ⟨hin, hagain⟩ := hok response
    show Turns δ φ Head Thrown _ (checkTokens loop s response)
    -- the tokens of the step first, then those of the run, which may crop the prompt
    unfold checkTokens
    dsimp only
    refine tracked_ite.2 ⟨fun hstep => ?_, fun hstep => tracked_ite.2 ⟨fun hover => ?_, fun hfits =>
      ?_⟩⟩
    · refine f.terminate (hin fun hcrops => ?_)
      exact absurd hstep (by rw [Bool.not_eq_true]; exact hcrops.1)
    · cases hcrop : cropPrompt loop (s.spend (response.inputTokens + response.outputTokens)) with
      | none =>
        have hinside := hin fun hcrops => by
          have hsome : (cropPrompt loop (s.spend (response.inputTokens + response.outputTokens))).isSome
              = true := hcrops.2.2
          rw [hcrop] at hsome
          cases hsome
        exact f.terminate (f.keep _ _ _ _ hinside hcrop)
      | some trimmed =>
        have hcrops : loop.crops (s.spend response.total) response :=
          ⟨eq_false_of_ne_true hstep, hover, Option.isSome_iff_exists.2 ⟨trimmed, hcrop⟩⟩
        exact hagain trimmed hcrops hcrop
    · exact f.readReply (hin fun hcrops => hfits hcrops.2.1)

/-- A pass from its checks on. -/
lemma prepareCall (h : Early m s) : Turns δ φ Head Thrown m (prepareCall loop s) := by
  have hbuild : Tracked δ φ (Upon (fun m' _ => Inside m' s 0 false) Thrown) m
      (buildChatMessages loop s) :=
    tracked_bind (f.build m s h) (fun _ _ hm => hm) fun _ _ hm => hm
  refine tracked_bind hbuild (fun m' messages hm => ?_) fun _ _ hm => hm
  refine tracked_ite.2 ⟨fun _ => ?_, fun _ => f.callModel hm⟩
  cases hcrop : cropPrompt loop s with
  | none => exact f.callModel (f.keep m' s 0 false hm hcrop)
  | some trimmed =>
    have hagain : Tracked δ φ (Upon (fun m' _ => Inside m' (s.cropped (some trimmed)) 0 false)
        Thrown) m' (buildChatMessages loop (s.cropped (some trimmed))) :=
      tracked_bind (f.crop m' s trimmed hm hcrop) (fun _ _ hm => hm) fun _ _ hm => hm
    exact tracked_bind hagain (fun _ _ hm => f.callModel hm) fun _ _ hm => hm

/-- One pass. -/
lemma turn (h : Head m s)
    (hbelow : s.steps.length < loop.context.constraints.maxReActIterations) :
    Turns δ φ Head Thrown m (turn loop s) := by
  refine tracked_bind (f.now m s h hbelow) (fun m' now hm => ?_) fun _ _ hm => hm
  refine tracked_ite.2 ⟨fun _ => f.stopEarly hm rfl rfl, fun _ => ?_⟩
  refine tracked_bind (f.iteration m' s _ hm) (fun m' allowed hm => ?_) fun _ _ hm => hm
  exact tracked_ite.2 ⟨fun _ => f.prepareCall hm, fun _ => f.stopEarly hm rfl rfl⟩

/-- The loop, from one head to the next. -/
theorem reactLoop {fuel : Nat} (h : Head m s) :
    Tracked δ φ (Upon Head Thrown) m (reactLoop loop fuel s) := by
  induction fuel generalizing m s with
  | zero => exact h
  | succ fuel ih =>
    refine tracked_ite.2 ⟨fun _ => h, fun hbelow => ?_⟩
    refine tracked_bind (f.turn h (not_le.1 hbelow)) (fun m' turn hm => ?_) fun _ _ hm => hm
    cases turn with
    | stop s' => exact hm
    | again s' => exact ih hm

end PassRules

/-- The rule of the loop, by induction on the fuel. -/
theorem PassFrame.reactLoop (f : PassFrame δ φ loop Head Early Inside Thrown) {fuel : Nat}
    (h : Head m s) : Tracked δ φ (Upon Head Thrown) m (reactLoop loop fuel s) :=
  f.toRules.reactLoop h

end walk

end NexusClaw.AgentRuntime
