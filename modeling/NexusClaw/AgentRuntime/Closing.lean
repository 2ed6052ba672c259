import NexusClaw.AgentRuntime.Executor
import NexusClaw.AgentRuntime.Rules

/-!
# How a run is closed

The engine infers the final status of a run from one optional field of its last step. `RunLog` keeps
what the responses of a run say about its exits, and `regular` there is the condition under which
the inference is right: the clock, the budget and the model never end the run from outside, no call
is blocked in the last pass, and a resumed run starts below the step limit. The main result is about
every interleaving of any number of runs, fresh or resumed, from any state of the store.
-/

namespace NexusClaw.AgentRuntime
open Concurrent
open Governance (Id ExecutionStatus)

/-! ## The log of a run -/

/-- A closing event that was written, with the status that its transaction set. -/
structure Closing where
  eventType : EventType
  executionId : Id
  status : Option ExecutionStatus
deriving DecidableEq, Repr

structure RunLog where
  limit : Nat := 0
  budgetMs : Rat := 0
  deadline : Option Rat := none
  taken : Nat := 0
  proposal : Option Proposal := none
  replies : List ChatResponse := []
  closings : List Closing := []
  paused : Bool := false
  regular : Bool := true

/-- The log after one more statement of the run was answered. -/
def RunLog.note (cfg : Config) (m : RunLog) : (s : Stmt) → s.Resp → RunLog
  | .buildContext _ _ _ _, .ok context =>
    { m with
      limit := context.constraints.maxReActIterations
      budgetMs := wallClockBudget context
      regular := m.regular && 0 < context.constraints.maxReActIterations }
  -- the approved call of a resumed run is one more step
  | .findSteps _, .ok rows =>
    { m with
      taken := rows.length
      regular := m.regular && rows.length + 1 < m.limit }
  | .createStep _, .ok _ => { m with taken := m.taken + 1 }
  | .now, .ok now =>
    match m.deadline with
    | none => { m with deadline := some (now + m.budgetMs) }
    | some deadline => { m with regular := m.regular && now < deadline }
  | .checkIteration _ _ _, .ok allowed => { m with regular := m.regular && allowed }
  | .chat .reactModelCall _ _ _, .ok response => { m with replies := m.replies ++ [response] }
  | .chat .reactModelCall _ _ _, .error _ => { m with regular := false }
  | .chat .structuredRepair _ _ _, .ok response => { m with replies := m.replies ++ [response] }
  | .propose proposal, .ok _ => { m with proposal := some proposal }
  -- the execution waits for an approval
  | .updateExecution _ .guardrailPending, .ok _ => { m with paused := true }
  | .loadRules _ _, .ok _ =>
    { m with
      regular := m.regular && !(m.limit ≤ m.taken + 1 && m.proposal.any (blocks cfg)) }
  | .transaction event patch, .ok _ =>
    if event.eventType.closing then
      { m with
        closings := m.closings ++
          [{ eventType := event.eventType
             executionId := event.aggregateId
             status := patch.bind (·.status) }] }
    else m
  | _, _ => m

/-- The log of a history. -/
def runLog (cfg : Config) (h : History Stmt Stmt.Resp) : RunLog :=
  bookkeeping (RunLog.note cfg) {} h

/-! ## What a run may end with -/

/-- A finish whose answer a reply of the model supplied. -/
def Finished (cfg : Config) (replies : List ChatResponse) (step : ReActStepData) : Prop :=
  ∃ response ∈ replies, ∃ thought answer,
    parseThoughtAndAction cfg response.content = .ok (thought, step.action) ∧
      step.action.type = .finish ∧
      materializeFinalAnswer cfg step.action.generatePrompt = .ok answer ∧
      step.observation = Observation.ofText true answer none

/-- A completed handoff. -/
def HandedOff (step : ReActStepData) : Prop :=
  step.action.type = .humanHandoff ∧
    step.observation.termination.any (·.reason = .humanHandoffCompleted) = true

/-- A step that the engine closes the right way. -/
def Marked (cfg : Config) (replies : List ChatResponse) (step : ReActStepData) : Prop :=
  Finished cfg replies step ∨ HandedOff step ∨
    step.observation.termination.any (·.reason ≠ .humanHandoffCompleted) = true

/-- A state that the loop may leave: paused, or with such a last step. -/
def Settled (cfg : Config) (replies : List ChatResponse) (s : LoopState) : Prop :=
  s.status = .guardrailPending ∨ ∃ step, s.steps.getLast? = some step ∧ Marked cfg replies step

/-- A state is paused only if the run paused, or was handed a paused execution. -/
def PausedByRun (execution : AgentExecution) (m : RunLog) (s : LoopState) : Prop :=
  s.status = .guardrailPending → m.paused = true ∨ execution.status = .guardrailPending

/-- A step that is accounted for may be added. -/
lemma settled_push {cfg : Config} {replies : List ChatResponse} {s : LoopState}
    {step : ReActStepData} (h : Marked cfg replies step) : Settled cfg replies (s.push step) :=
  .inr ⟨step, List.getLast?_concat .., h⟩

/-! ## Passes -/

/-- Where the loop stands inside of a pass of which at most `n` passes are left. -/
structure Midway (loop : Loop) (n : Nat) (m : RunLog) (s : LoopState) : Prop where
  limit : m.limit = loop.context.constraints.maxReActIterations
  deadline : m.deadline = some loop.deadline
  taken : m.taken = s.steps.length
  closings : m.closings = []
  below : s.steps.length < loop.context.constraints.maxReActIterations
  left : s.passes loop ≤ n
  status : s.status = loop.execution.status

/-- What a pass leaves: nothing is closed, a further pass has less to go, and a regular run is left
in a settled state only and never falls out of the loop. -/
def TurnPost (loop : Loop) (n : Nat) (m : RunLog) : Except String Turn → Prop
  | .ok (.again s) =>
    m.limit = loop.context.constraints.maxReActIterations ∧ m.deadline = some loop.deadline ∧
      m.taken = s.steps.length ∧ m.closings = [] ∧ s.passes loop < n ∧
      s.status = loop.execution.status ∧
      (m.regular = true → s.steps.length < loop.context.constraints.maxReActIterations)
  | .ok (.stop s) => m.closings = [] ∧ PausedByRun loop.execution m s ∧
    (m.regular = true → Settled loop.cfg m.replies s)
  | .error _ => m.closings = []

section passes
variable {cfg : Config} {loop : Loop} {n : Nat} {m : RunLog} {s : LoopState}

/-- Programs of a run with their log. -/
abbrev Logged {α : Type} (cfg : Config) (Q : RunLog → Except String α → Prop) (m : RunLog)
    (p : Act α) : Prop :=
  Tracked (RunLog.note cfg) (fun _ _ => True) Q m p

/-- A statement that no response makes worth a note. -/
def Stmt.Silent (cfg : Config) (s : Stmt) : Prop :=
  ∀ m r, RunLog.note cfg m s r = m

/-- A silent program logs nothing. -/
lemma logged_silent {α : Type} {p : Act α} (hp : p.Uses (Stmt.Silent cfg)) :
    Logged cfg (fun m' _ => m' = m) m p :=
  Tracked.of_uses (J := (· = m)) hp rfl (fun _ _ _ _ => trivial)
    (fun m' _ r hs hm => (hs m' r).trans hm) fun _ _ h => h

/-- A call of the registry logs nothing. -/
lemma registryCall_silent (invocation : Invocation) (toolName : String) (input : Json)
    (context : ExecutionContext) :
    RegistryCall (RunLog.note cfg) (fun _ _ => True) cfg invocation toolName input context (· = m)
      (· = m) where
  lawful _ _ _ _ := trivial
  before m' s r hs hm := by
    rw [← hm]
    cases s <;> first | exact hs.elim | rfl
  after m' s r hs hm := by
    rw [← hm]
    cases s <;> first | exact hs.elim | rfl
  runs _ _ _ _ := trivial
  ran _ _ _ hm := hm

/-- The log after one more step was persisted. -/
def RunLog.step (m : RunLog) : RunLog :=
  { m with taken := m.taken + 1 }

/-- A step is stored in front of the rest. -/
lemma persistStep_bind {α : Type} {execution : AgentExecution} {step : ReActStepData}
    {f : Unit → Act α} {Q : RunLog → Except String α → Prop} (hok : Logged cfg Q m.step (f ()))
    (herror : ∀ e, Q m (.error e)) : Logged cfg Q m (persistStep execution step >>= f) :=
  tracked_await_bind.2 ⟨trivial, fun _ => hok, herror⟩

/-- Midway no approval is outstanding. -/
lemma Midway.pausedByRun (h : Midway loop n m s) : PausedByRun loop.execution m s :=
  fun hs => .inr (h.status.symm.trans hs)

/-- The loop is left with one more step. -/
lemma stopWith_logged {step : ReActStepData} (hm : m.closings = [])
    (hpaused : PausedByRun loop.execution m s)
    (hstep : m.regular = true → Settled loop.cfg m.replies (s.push step)) :
    Logged loop.cfg (TurnPost loop n) m (stopWith loop s step) :=
  persistStep_bind ⟨hm, hpaused, hstep⟩ fun _ => hm

/-- A termination other than a handoff closes the run as failed. -/
lemma terminate_logged {response : Option ChatResponse} {termination : Termination}
    {userMessage : String} {proposed : Option (Thought × Action)} {i : Nat}
    (hm : m.closings = []) (hs : s.status = loop.execution.status)
    (ht : termination.reason ≠ .humanHandoffCompleted) :
    Logged loop.cfg (TurnPost loop n) m (stopWith loop s
      (createControlledTerminationStep i response termination userMessage proposed)) := by
  refine stopWith_logged hm (fun hp => .inr (hs.symm.trans hp)) fun _ =>
    settled_push (.inr (.inr ?_))
  simpa [createControlledTerminationStep] using ht

/-- One more step is taken and the loop goes on. -/
lemma Midway.push (h : Midway loop n m s) (step : ReActStepData)
    (hbelow : m.regular = true →
      s.steps.length + 1 < loop.context.constraints.maxReActIterations) :
    TurnPost loop n m.step (.ok (.again (s.push step))) := by
  have hlength : (s.push step).steps.length = s.steps.length + 1 := by
    simp [LoopState.push]
  have hleft := h.left
  have hlt := h.below
  refine ⟨h.limit, h.deadline, ?_, h.closings, ?_, h.status, fun hm => ?_⟩
  · show m.taken + 1 = _
    rw [hlength, h.taken]
  · unfold LoopState.passes at hleft ⊢
    rw [hlength]
    show loop.context.constraints.maxReActIterations - (s.steps.length + 1) +
      (if s.hasTriedSectionCrop then 0 else 1) < n
    omega
  · rw [hlength]
    exact hbelow hm

/-- The pass is the last one, or the observation is the one that was made. -/
lemma capSteps_cases (loop : Loop) (i : Nat) (action : Action) (observation : Observation) :
    ((capSteps loop i action observation).termination.any
        (·.reason ≠ .humanHandoffCompleted) = true) ∨
      (capSteps loop i action observation = observation ∧
        (i + 1 < loop.context.constraints.maxReActIterations ∨ action.type = .humanHandoff ∨
          observation.termination.isSome = true)) := by
  unfold capSteps
  dsimp only
  split_ifs with h
  · exact .inl rfl
  · refine .inr ⟨rfl, ?_⟩
    by_contra hno
    push Not at hno
    refine h ⟨hno.1, hno.2.1, ?_⟩
    simpa using hno.2.2

/-- The end of a pass: a termination stops the loop, and there is one where it must stop. -/
lemma recordStep_logged {thought : Thought} {action : Action} {observation : Observation}
    {response : ChatResponse} {tokensUsed : TokensUsed} (h : Midway loop n m s)
    (hhandoff : action.type = .humanHandoff →
      observation.termination.any (·.reason = .humanHandoffCompleted) = true)
    (hother : action.type ≠ .humanHandoff → observation.termination = none) :
    Logged loop.cfg (TurnPost loop n) m
      (recordStep loop s thought action observation response tokensUsed) := by
  have hcap := capSteps_cases loop s.steps.length action observation
  unfold recordStep
  dsimp only
  generalize capSteps loop s.steps.length action observation = capped at hcap ⊢
  refine persistStep_bind (tracked_try_bind.2 ⟨trivial, fun r => ?_⟩) fun _ => h.closings
  -- the event of the step closes nothing
  have hlog : RunLog.note loop.cfg m.step
      (.transaction (loop.execution.event .executionStep) none) r = m.step := by
    cases r <;> rfl
  rw [hlog]
  refine tracked_ite.2 ⟨fun hterm => ⟨h.closings, h.pausedByRun, fun _ => settled_push ?_⟩,
    fun hterm => ?_⟩
  · rcases hcap with hmax | ⟨rfl, _⟩
    · exact .inr (.inr hmax)
    · by_cases ha : action.type = .humanHandoff
      · exact .inr (.inl ⟨ha, hhandoff ha⟩)
      · rw [hother ha] at hterm
        cases hterm
  · rcases hcap with hmax | ⟨rfl, hwhy⟩
    · cases hc : capped.termination with
      | none => rw [hc] at hmax; cases hmax
      | some t => rw [hc] at hterm; exact absurd rfl hterm
    · refine h.push _ fun _ => ?_
      rcases hwhy with hlt | ha | hsome
      · exact hlt
      · have hany := hhandoff ha
        cases hc : capped.termination with
        | none => rw [hc] at hany; cases hany
        | some t => rw [hc] at hterm; exact absurd rfl hterm
      · exact absurd hsome hterm

/-- The log after the execution was set to wait. -/
def RunLog.pausing (m : RunLog) : RunLog :=
  { m with paused := true }

/-- A transition to the paused status is noted. -/
lemma transition_logged {execution : AgentExecution} :
    Logged cfg (Upon (fun m' _ => m' = m.pausing) fun m' => m' = m) m
      (handleStateTransition execution.id .guardrailPending) := by
  refine tracked_await_bind.2 ⟨trivial, fun row => ?_, fun _ => rfl⟩
  cases row with
  | none => exact rfl
  | some row =>
    refine tracked_ofExcept_bind (fun validated hvalidated => ?_) fun _ _ => rfl
    obtain ⟨rfl, -⟩ := Governance.handleStateTransition_ok hvalidated
    refine ⟨trivial, fun r => ?_⟩
    cases r with
    | ok _ => exact rfl
    | error e => exact rfl

/-- A pause leaves the loop with a paused status. -/
lemma pause_logged {proposed : Proposed} {riskLevel description : String} {prepared : Bool}
    {output : String → String} (hm : m.closings = []) :
    Logged loop.cfg (TurnPost loop n) m
      (pause loop s proposed riskLevel description prepared output) := by
  have hcreate : ∀ request, (createAgentApproval loop.cfg request).Uses
      (Stmt.Silent loop.cfg) := by
    intro request
    unfold createAgentApproval
    rw [Prog.uses_ite]
    refine ⟨fun _ => trivial, fun _ => ?_⟩
    exact (await_uses fun _ _ => rfl).bind fun _ => (await_uses fun _ _ => rfl).bind fun _ =>
      (await_uses fun _ _ => rfl).bind fun _ => trivial
  unfold pause
  refine tracked_bind transition_logged (fun m' _ hm' => ?_) fun m' _ hm' => hm' ▸ hm
  subst hm'
  refine (logged_silent (hcreate _)).bind (fun m' id hm' => ?_) fun m' _ hm' => hm' ▸ hm
  subst hm'
  exact stopWith_logged hm (fun _ => .inl rfl) fun _ => .inl rfl

/-- A proposed call that runs. -/
lemma runProposed_logged {proposed : Proposed} (h : Midway loop n m s)
    (hcall : proposed.action.type = .toolCall) :
    Logged loop.cfg (TurnPost loop n) m (runProposed loop s proposed) := by
  unfold runProposed
  refine ((registryCall_silent _ _ _ _).executeToolWithRetry rfl).bind (fun m' executed hm' => ?_)
    fun m' _ hm' => hm' ▸ h.closings
  subst hm'
  refine tracked_ite.2 ⟨fun _ => pause_logged h.closings, fun _ => tracked_ite.2 ⟨fun _ => ?_,
    fun _ => ?_⟩⟩
  · refine terminate_logged h.closings h.status ?_
    split_ifs <;> simp
  · refine recordStep_logged h (fun ha => ?_) fun _ => rfl
    rw [hcall] at ha
    cases ha

/-- The engine's decision; a block in the last pass is what a regular run does not see. -/
lemma engineDecision_logged {proposed : Proposed}
    {evaluation : Option Governance.GuardrailEvaluation} (h : Midway loop n m s)
    (hcall : proposed.action.type = .toolCall)
    (hblock : evaluation.any (fun e => e.matched && e.action.type = .block) = true →
      m.regular = true → s.steps.length + 1 < loop.context.constraints.maxReActIterations) :
    Logged loop.cfg (TurnPost loop n) m (engineDecision loop s proposed evaluation) := by
  unfold engineDecision
  cases hmatched : evaluation.filter (·.matched) with
  | none => exact runProposed_logged h hcall
  | some found =>
    obtain ⟨rfl, hfound⟩ := Option.filter_eq_some_iff.1 hmatched
    dsimp only
    cases htype : found.action.type with
    | allow => exact runProposed_logged h hcall
    | audit => exact runProposed_logged h hcall
    | confirm => exact pause_logged h.closings
    | approve => exact pause_logged h.closings
    | block =>
      refine persistStep_bind (h.push _ (hblock ?_)) fun _ => h.closings
      rw [Option.any_some, hfound, htype]
      rfl

/-- The decision of the engine on a proposed call. -/
lemma engineGate_logged {proposed : Proposed} (h : Midway loop n m s)
    (hcall : proposed.action.type = .toolCall)
    (hproposal : m.proposal = some (loop.proposal proposed.toolName proposed.action)) :
    Logged loop.cfg (TurnPost loop n) m (engineGate loop s proposed) := by
  refine tracked_evaluateBoundRules_bind (p := loop.proposal proposed.toolName proposed.action)
    (fun _ => trivial) (fun _ => engineDecision_logged h hcall (fun hb => by cases hb))
    (fun ids => ?_) fun ids e => engineDecision_logged h hcall (fun hb => by cases hb)
  refine engineDecision_logged ⟨h.limit, h.deadline, h.taken, h.closings, h.below, h.left, h.status⟩ hcall ?_
  intro hblocks hregular
  have hblocked : m.proposal.any (blocks loop.cfg) = true := by
    rw [hproposal]
    exact hblocks
  have hlast := ((Bool.and_eq_true _ _).mp hregular).2
  rw [hblocked, Bool.and_true, h.limit, h.taken] at hlast
  simpa using hlast

/-- The gate of the sensitive operations on a proposed call. -/
lemma sensitiveGate_logged {proposed : Proposed} (h : Midway loop n m s)
    (hcall : proposed.action.type = .toolCall)
    (hproposal : m.proposal = some (loop.proposal proposed.toolName proposed.action)) :
    Logged loop.cfg (TurnPost loop n) m (sensitiveGate loop s proposed) := by
  refine tracked_ofExcept_bind (fun rule _ => ?_) fun _ _ => h.closings
  cases rule.filter (·.textOf "riskLevel" ≠ "L1") with
  | none => exact engineGate_logged h hcall hproposal
  | some rule => exact pause_logged h.closings

/-- A tool call of an iteration. -/
lemma callTool_logged {thought : Thought} {action : Action} {response : ChatResponse}
    {toolName : String} (h : Midway loop n m s) (hcall : action.type = .toolCall) :
    Logged loop.cfg (TurnPost loop n) m (callTool loop s thought action response toolName) := by
  unfold callTool
  refine tracked_ite.2 ⟨fun _ => terminate_logged h.closings h.status (by simp), fun _ => tracked_ite.2
    ⟨fun _ => terminate_logged h.closings h.status (by simp), fun _ => tracked_await_bind.2 ⟨trivial,
      fun call => ?_, fun _ => h.closings⟩⟩⟩
  exact sensitiveGate_logged ⟨h.limit, h.deadline, h.taken, h.closings, h.below, h.left, h.status⟩ hcall rfl

/-- An answer of an iteration. -/
lemma generate_logged {thought : Thought} {action : Action} {response : ChatResponse}
    (h : Midway loop n m s) (htype : action.type = .llmGenerate) :
    Logged loop.cfg (TurnPost loop n) m (generate loop s thought action response) := by
  have hno : action.type ≠ .humanHandoff := by
    rw [htype]
    decide
  refine tracked_try_bind.2 ⟨trivial, fun generated => ?_⟩
  cases generated with
  | error e => exact recordStep_logged h (fun ha => absurd ha hno) fun _ => rfl
  | ok generated =>
    exact recordStep_logged ⟨h.limit, h.deadline, h.taken, h.closings, h.below, h.left, h.status⟩
      (fun ha => absurd ha hno) fun _ => rfl

/-- A handoff of an iteration. -/
lemma handOff_logged {thought : Thought} {action : Action} {response : ChatResponse}
    (h : Midway loop n m s) :
    Logged loop.cfg (TurnPost loop n) m (handOff loop s thought action response) := by
  refine recordStep_logged h (fun ha => ?_) fun ha => ?_
  · rw [if_pos ha]
    rfl
  · rw [if_neg ha]
    rfl

/-- The action of a reply; a finish is one that a reply of the run supplied. -/
lemma dispatch_logged {thought : Thought} {action : Action}
    {response effectiveResponse : ChatResponse} (h : Midway loop n m s)
    (hfinish : action.type = .finish → ∃ reply ∈ m.replies,
      parseThoughtAndAction loop.cfg reply.content = .ok (thought, action)) :
    Logged loop.cfg (TurnPost loop n) m
      (dispatch loop s thought action response effectiveResponse) := by
  unfold dispatch
  cases htype : action.type with
  | finish =>
    refine tracked_ofExcept_bind (fun answer hanswer => ?_) fun _ _ => h.closings
    obtain ⟨reply, hreply, hparse⟩ := hfinish htype
    exact stopWith_logged h.closings h.pausedByRun fun _ =>
      settled_push (.inl ⟨reply, hreply, thought, answer, hparse, htype, hanswer, rfl⟩)
  | toolCall =>
    dsimp only
    cases nonEmpty action.name with
    | none => exact handOff_logged h
    | some toolName => exact callTool_logged h htype
  | llmGenerate => exact generate_logged h htype
  | humanHandoff => exact handOff_logged h

/-- A repair that is accepted is a finish that the repairing reply supplied. -/
lemma repair_logged {response : ChatResponse} {remaining : Int} {tier : Nat}
    (h : Midway loop n m s) :
    Logged loop.cfg (Upon (fun m' repair => Midway loop n m' s ∧
        ∀ thought action, repair.parsed = some (thought, action) → ∃ reply ∈ m'.replies,
          parseThoughtAndAction loop.cfg reply.content = .ok (thought, action))
        fun m' => m'.closings = []) m
      (repairStructuredResponse loop.cfg loop.context response remaining tier) := by
  -- a repair without a parsed answer promises nothing
  have hempty : ∀ repair : Repair, repair.parsed = none → ∀ m' : RunLog,
      ∀ thought action, repair.parsed = some (thought, action) → ∃ reply ∈ m'.replies,
        parseThoughtAndAction loop.cfg reply.content = .ok (thought, action) := by
    intro repair hnone m' thought action hsome
    rw [hnone] at hsome
    cases hsome
  unfold repairStructuredResponse
  refine tracked_ite.2 ⟨fun _ => ⟨h, hempty _ rfl m⟩, fun _ => tracked_try_bind.2
    ⟨trivial, fun r => ?_⟩⟩
  cases r with
  | error e => exact ⟨h, hempty _ rfl m⟩
  | ok repaired =>
    have hmid : Midway loop n { m with replies := m.replies ++ [repaired] } s :=
      ⟨h.limit, h.deadline, h.taken, h.closings, h.below, h.left, h.status⟩
    dsimp only
    cases hparse : parseThoughtAndAction loop.cfg repaired.content with
    | error e => exact ⟨hmid, hempty _ rfl _⟩
    | ok parsed =>
      obtain ⟨thought, action⟩ := parsed
      refine tracked_ite.2 ⟨fun _ => ⟨hmid, fun thought' action' hsome => ?_⟩, fun _ =>
        ⟨hmid, hempty _ rfl _⟩⟩
      cases hsome
      exact ⟨repaired, List.mem_append_right _ (List.mem_singleton.2 rfl), hparse⟩

/-- A reply of the model. -/
lemma readReply_logged {response : ChatResponse} (h : Midway loop n m s)
    (hreply : response ∈ m.replies) :
    Logged loop.cfg (TurnPost loop n) m (readReply loop s response) := by
  unfold readReply
  -- a native call never finishes: a finish rests on a parsed reply
  cases hnative : extractNativeAction response with
  | some native =>
    refine dispatch_logged h fun hfinish => ?_
    unfold extractNativeAction at hnative
    cases hcalls : response.toolCalls with
    | nil => rw [hcalls] at hnative; cases hnative
    | cons first rest => rw [hcalls] at hnative; cases hnative; cases hfinish
  | none =>
    dsimp only
    cases hparse : parseThoughtAndAction loop.cfg response.content with
    | ok parsed => exact dispatch_logged h fun _ => ⟨response, hreply, hparse⟩
    | error parseError =>
      refine tracked_bind (repair_logged h) (fun m' repair hm' => ?_) fun _ _ hm' => hm'
      obtain ⟨hmid, hparsed⟩ := hm'
      cases hrepair : repair.parsed with
      | some parsed =>
        obtain ⟨thought, action⟩ := parsed
        exact dispatch_logged
          ⟨hmid.limit, hmid.deadline, hmid.taken, hmid.closings, hmid.below, hmid.left, hmid.status⟩
          fun _ => hparsed thought action hrepair
      | none => exact terminate_logged hmid.closings hmid.status (by simp)

/-! ### Cropping -/

/-- A prompt is cropped once, and only if there is one. -/
lemma cropPrompt_some {trimmed : String} (h : cropPrompt loop s = some trimmed) :
    s.hasTriedSectionCrop = false ∧ (nonEmpty s.agentPrompt).isSome = true := by
  unfold cropPrompt at h
  cases htried : s.hasTriedSectionCrop with
  | true => rw [htried] at h; cases h
  | false =>
    rw [htried] at h
    cases hprompt : nonEmpty s.agentPrompt with
    | none => rw [hprompt] at h; cases h
    | some prompt => exact ⟨rfl, rfl⟩

/-- A crop costs a pass. -/
lemma passes_cropped {trimmed : String} (h : cropPrompt loop s = some trimmed) :
    (s.cropped (some trimmed)).passes loop < s.passes loop := by
  obtain ⟨htried, hprompt⟩ := cropPrompt_some h
  unfold LoopState.passes LoopState.cropped
  dsimp only
  rw [htried, hprompt]
  exact Nat.lt_succ_self _

/-- Cropping the prompt changes no account. -/
lemma Midway.cropped (h : Midway loop n m s) (trimmed : Option String) :
    Midway loop n m (s.cropped trimmed) := by
  refine ⟨h.limit, h.deadline, h.taken, h.closings, h.below, le_trans ?_ h.left, h.status⟩
  unfold LoopState.passes LoopState.cropped
  dsimp only
  cases s.hasTriedSectionCrop with
  | true => exact le_rfl
  | false =>
    refine Nat.add_le_add_left ?_ _
    cases (nonEmpty s.agentPrompt).isSome with
    | true => exact Nat.zero_le _
    | false => exact le_rfl

/-! ### The pass as a whole -/

/-- The budget in front of a reply. -/
lemma checkTokens_logged {response : ChatResponse} (h : Midway loop n m s)
    (hreply : response ∈ m.replies) :
    Logged loop.cfg (TurnPost loop n) m (checkTokens loop s response) := by
  have hmid : Midway loop n m (s.spend (response.inputTokens + response.outputTokens)) :=
    ⟨h.limit, h.deadline, h.taken, h.closings, h.below, h.left, h.status⟩
  unfold checkTokens
  refine tracked_ite.2 ⟨fun _ => terminate_logged h.closings h.status (by simp), fun _ => tracked_ite.2
    ⟨fun _ => ?_, fun _ => readReply_logged hmid hreply⟩⟩
  cases hcrop : cropPrompt loop (s.spend (response.inputTokens + response.outputTokens)) with
  | none => exact terminate_logged h.closings h.status (by simp)
  | some trimmed =>
    have hcropped := hmid.cropped (some trimmed)
    exact ⟨h.limit, h.deadline, hcropped.taken, h.closings,
      lt_of_lt_of_le (passes_cropped hcrop) hmid.left, hcropped.status, fun _ => hcropped.below⟩

/-- A call of the model. -/
lemma callModel_logged {messages : List ChatMessage} (h : Midway loop n m s) :
    Logged loop.cfg (TurnPost loop n) m (callModel loop s messages) := by
  unfold callModel
  refine tracked_ite.2 ⟨fun _ => terminate_logged h.closings h.status (by simp), fun _ => tracked_try_bind.2
    ⟨trivial, fun r => ?_⟩⟩
  cases r with
  | error e => exact stopWith_logged h.closings h.pausedByRun fun hregular => by cases hregular
  | ok response =>
    exact checkTokens_logged ⟨h.limit, h.deadline, h.taken, h.closings, h.below, h.left, h.status⟩
      (List.mem_append_right _ (List.mem_singleton.2 rfl))

/-- The checks in front of a call of the model. -/
lemma prepareCall_logged (h : Midway loop n m s) :
    Logged loop.cfg (TurnPost loop n) m (prepareCall loop s) := by
  have hmessages : ∀ s, (buildChatMessages loop s).Uses (Stmt.Silent loop.cfg) := fun s =>
    (await_uses fun _ _ => rfl).bind fun _ => trivial
  refine (logged_silent (hmessages s)).bind (fun m' messages hm' => ?_)
    fun m' _ hm' => hm' ▸ h.closings
  subst hm'
  refine tracked_ite.2 ⟨fun _ => ?_, fun _ => callModel_logged h⟩
  cases cropPrompt loop s with
  | none => exact callModel_logged (h.cropped none)
  | some trimmed =>
    refine (logged_silent (hmessages _)).bind (fun m' messages hm' => ?_)
      fun m' _ hm' => hm' ▸ h.closings
    subst hm'
    exact callModel_logged (h.cropped (some trimmed))

/-- One pass. -/
lemma turn_logged (h : Midway loop n m s) :
    Logged loop.cfg (TurnPost loop n) m (turn loop s) := by
  refine tracked_await_bind.2 ⟨trivial, fun now => ?_, fun _ => h.closings⟩
  have hnow : RunLog.note loop.cfg m .now (.ok now) =
      { m with regular := m.regular && (now : Rat) < loop.deadline } := by
    unfold RunLog.note
    rw [h.deadline]
  rw [hnow]
  refine tracked_ite.2 ⟨fun hlate => stopWith_logged h.closings h.pausedByRun fun hregular => ?_, fun _ =>
    tracked_await_bind.2 ⟨trivial, fun allowed => ?_, fun _ => h.closings⟩⟩
  · have hearly := of_decide_eq_true ((Bool.and_eq_true _ _).mp hregular).2
    exact absurd hlate (Rat.not_le.2 hearly)
  · cases allowed with
    | true =>
      exact prepareCall_logged ⟨h.limit, h.deadline, h.taken, h.closings, h.below, h.left, h.status⟩
    | false =>
      refine stopWith_logged h.closings h.pausedByRun fun hregular => ?_
      have hallowed := ((Bool.and_eq_true _ _).mp hregular).2
      cases hallowed

end passes

/-! ## The loop -/

/-- What the loop leaves behind. -/
def LoopPost (cfg : Config) (execution : AgentExecution) (m : RunLog) :
    Except String LoopState → Prop
  | .ok s => m.closings = [] ∧ PausedByRun execution m s ∧
    (m.regular = true → Settled cfg m.replies s)
  | .error _ => m.closings = []

section loop
variable {cfg : Config} {m : RunLog}

/-- The loop ends on its own: the fuel covers the passes that are left, and a regular run that may
not take another one has been stopped before. -/
lemma reactLoop_logged (loop : Loop) {fuel : Nat} {s : LoopState}
    (hlimit : m.limit = loop.context.constraints.maxReActIterations)
    (hdeadline : m.deadline = some loop.deadline) (htaken : m.taken = s.steps.length)
    (hclosings : m.closings = []) (hfuel : s.passes loop ≤ fuel)
    (hstatus : s.status = loop.execution.status)
    (hbelow : m.regular = true → s.steps.length < loop.context.constraints.maxReActIterations) :
    Logged loop.cfg (LoopPost loop.cfg loop.execution) m (reactLoop loop fuel s) := by
  have hpaused : ∀ m, PausedByRun loop.execution m s := fun m hs => .inr (hstatus.symm.trans hs)
  -- induction on the fuel: a pass leaves fewer passes than there is fuel
  induction fuel generalizing m s with
  | zero =>
    refine ⟨hclosings, hpaused m, fun hregular => ?_⟩
    have hlt := hbelow hregular
    unfold LoopState.passes at hfuel
    omega
  | succ fuel ih =>
    refine tracked_ite.2 ⟨fun hdone => ⟨hclosings, hpaused m, fun hregular => ?_⟩, fun hlt => ?_⟩
    · exact absurd (hbelow hregular) (not_lt.2 hdone)
    · have hmid : Midway loop (fuel + 1) m s :=
        ⟨hlimit, hdeadline, htaken, hclosings, not_le.1 hlt, hfuel, hstatus⟩
      refine (turn_logged hmid).bind (fun m' t ht => ?_) fun _ _ ht => ht
      cases t with
      | stop s' => exact ht
      | again s' =>
        obtain ⟨hlimit, hdeadline, htaken, hclosings, hleft, hstatus, hbelow⟩ := ht
        exact ih hlimit hdeadline htaken hclosings (Nat.le_of_lt_succ hleft) hstatus hbelow
          fun m hs => .inr (hstatus.symm.trans hs)

/-- The whole loop. -/
lemma runReActLoop_logged {execution : AgentExecution} {context : ExecutionContext}
    {agentPrompt : Option String} {forceTier : Option Nat} {initialSteps : List ReActStepData}
    (hlimit : m.limit = context.constraints.maxReActIterations)
    (hbudget : m.budgetMs = wallClockBudget context) (hdeadline : m.deadline = none)
    (htaken : m.taken = initialSteps.length) (hclosings : m.closings = [])
    (hbelow : m.regular = true →
      initialSteps.length < context.constraints.maxReActIterations) :
    Logged cfg (LoopPost cfg execution) m
      (runReActLoop cfg execution context agentPrompt forceTier initialSteps) := by
  refine tracked_await_bind.2 ⟨trivial, fun now => ?_, fun _ => hclosings⟩
  have hnow : RunLog.note cfg m .now (.ok now) =
      { m with deadline := some (now + wallClockBudget context) } := by
    unfold RunLog.note
    rw [hdeadline, hbudget]
  rw [hnow]
  exact reactLoop_logged (loopOf cfg execution context forceTier now) hlimit rfl htaken hclosings
    le_rfl rfl hbelow

/-! ## A run -/

/-- The context is there and the loop has not started. -/
structure Starting (context : ExecutionContext) (m : RunLog) (steps : List ReActStepData) :
    Prop where
  limit : m.limit = context.constraints.maxReActIterations
  budgetMs : m.budgetMs = wallClockBudget context
  deadline : m.deadline = none
  taken : m.taken = steps.length
  closings : m.closings = []
  below : m.regular = true → steps.length < context.constraints.maxReActIterations

/-- The approved call is one more step. -/
lemma executeApprovedToolCall_logged {execution : AgentExecution} {context : ExecutionContext}
    {resume : ResumeContext} {rebuiltSteps : List ReActStepData} (hm : m.closings = []) :
    Logged cfg (Upon (fun m' _ => m' = m.step) fun m' => m'.closings = []) m
      (executeApprovedToolCall cfg execution context resume rebuiltSteps) := by
  have hreg : RegistryCall (RunLog.note cfg) (fun _ _ => True) cfg
      { call := resume.call, approval := some resume.approvalInstanceId } resume.toolName
      (Json.nullish resume.toolInput .empty)
      { context with
        approvalGrant := some
          { toolName := resume.toolName, approvalInstanceId := resume.approvalInstanceId } }
      (· = m) (· = m) := registryCall_silent _ _ _ _
  unfold executeApprovedToolCall
  refine (hreg.executeTool rfl).bind (fun m' result hm' => ?_) fun m' e hm' => ?_
  · have heq : m' = m := hm'.elim id id
    subst heq
    exact persistStep_bind rfl fun _ => hm
  · have heq : m' = m := hm'.elim id id
    subst heq
    exact hm

/-- The approved call of a resumed run is taken before the loop. -/
lemma resumedSteps_logged {execution : AgentExecution} {context : ExecutionContext}
    {resume : Option ResumeContext} (h : Starting context m []) :
    Logged cfg (Upon (fun m' steps => Starting context m' steps) fun m' => m'.closings = []) m
      (resumedSteps cfg execution context resume) := by
  cases resume with
  | none => exact h
  | some resume =>
    unfold resumedSteps rebuildHistorySteps
    dsimp only
    rw [Prog.bind_assoc]
    refine tracked_await_bind.2 ⟨trivial, fun rows => ?_, fun _ => h.closings⟩
    have hclosings : (RunLog.note cfg m (.findSteps execution.id) (.ok rows)).closings = [] :=
      h.closings
    rw [Prog.ret_bind]
    refine tracked_bind (executeApprovedToolCall_logged hclosings) (fun m' step hm' => ?_)
      fun _ _ hm' => hm'
    have hlength : (rows.map ReactStep.rebuilt ++ [step]).length = rows.length + 1 := by
      rw [List.length_append, List.length_map]
      rfl
    subst hm'
    refine ⟨h.limit, h.budgetMs, h.deadline, hlength.symm, h.closings, fun hregular => ?_⟩
    have hrows := of_decide_eq_true ((Bool.and_eq_true _ _).mp hregular).2
    rw [hlength, ← h.limit]
    exact hrows

/-- The plan logs nothing. -/
lemma effectivePrompt_logged {agent : Agent} {rawInput : String} :
    Logged cfg (fun m' _ => m' = m) m (effectivePrompt agent rawInput) := by
  have hplan : (generatePlan rawInput agent.prompt).Uses (Stmt.Silent cfg) :=
    (await_uses fun _ r => by cases r <;> rfl).bind fun _ => trivial
  have hprompt : (effectivePrompt agent rawInput).Uses (Stmt.Silent cfg) := by
    unfold effectivePrompt
    rw [Prog.uses_ite]
    refine ⟨fun _ => hplan.attempt.bind fun plan => ?_, fun _ => trivial⟩
    rcases plan with e | plan
    · trivial
    · cases plan <;> trivial
  exact logged_silent hprompt

/-! ## Closing -/

/-- The closing event that goes with a status. -/
def closingOf (executionId : Id) (status : ExecutionStatus) : Closing where
  eventType :=
    if status = .guardrailPending then .executionPaused
    else if status = .failed then .executionFailed
    else .executionCompleted
  executionId
  status := if status = .guardrailPending then none else some status

/-- The last step is a finish whose answer the model supplied, or a completed handoff. -/
def EndsWell (cfg : Config) (replies : List ChatResponse) (steps : List ReActStepData) : Prop :=
  ∃ step, steps.getLast? = some step ∧ (Finished cfg replies step ∨ HandedOff step)

/-- What a run ends with: one closing event that goes with its status, paused only if it paused, and
in a regular run `done` only behind a finish or a handoff; or no closing event, if it threw. -/
def RunPost (cfg : Config) (execution : AgentExecution) (m : RunLog) :
    Except String ExecutionResult → Prop
  | .ok result =>
    result.status ∈ [ExecutionStatus.guardrailPending, .failed, .done] ∧
      m.closings = [closingOf execution.id result.status] ∧
      (result.status = .guardrailPending → m.paused = true ∨ execution.status = .guardrailPending) ∧
      (m.regular = true → result.status = .done → EndsWell cfg m.replies result.steps)
  | .error _ => m.closings = []

/-- The three statuses a run can close with. -/
lemma finalStatus_mem (s : LoopState) :
    finalStatus s ∈ [ExecutionStatus.guardrailPending, .failed, .done] := by
  unfold finalStatus
  split_ifs <;> simp

/-- A settled state that is closed as done has a finish or a handoff for its last step. -/
lemma Settled.done {s : LoopState} {replies : List ChatResponse} (h : Settled cfg replies s)
    (hdone : finalStatus s = .done) : EndsWell cfg replies s.steps := by
  unfold finalStatus at hdone
  split_ifs at hdone with hpaused hfailed
  rcases h with h | ⟨step, hlast, hfinished | hhanded | hterm⟩
  · exact absurd h hpaused
  · exact ⟨step, hlast, .inl hfinished⟩
  · exact ⟨step, hlast, .inr hhanded⟩
  · refine absurd ?_ hfailed
    unfold LoopState.termination
    rw [hlast]
    exact hterm

/-- A state that is closed as paused is paused. -/
lemma finalStatus_paused {s : LoopState} (h : finalStatus s = .guardrailPending) :
    s.status = .guardrailPending := by
  unfold finalStatus at h
  split_ifs at h with hpaused hfailed
  exact hpaused

/-- The close of a run. -/
lemma closeOut_logged {execution : AgentExecution} {s : LoopState} (hm : m.closings = [])
    (hp : PausedByRun execution m s) (hs : m.regular = true → Settled cfg m.replies s) :
    Logged cfg (RunPost cfg execution) m (closeOut cfg execution s) := by
  refine tracked_ofExcept_bind (fun output _ => ?_) fun _ _ => hm
  have hdone : m.regular = true → finalStatus s = .done → EndsWell cfg m.replies s.steps :=
    fun hregular hdone => (hs hregular).done hdone
  have hpaused : finalStatus s = .guardrailPending →
      m.paused = true ∨ execution.status = .guardrailPending := fun h => hp (finalStatus_paused h)
  have hmem := finalStatus_mem s
  dsimp only
  generalize finalStatus s = status at hdone hpaused hmem ⊢
  simp only [List.mem_cons, List.not_mem_nil, or_false] at hmem
  -- each status has its own event, in one transaction with the row
  rcases hmem with rfl | rfl | rfl
  · refine tracked_await_bind.2 ⟨trivial, fun _ => ⟨by simp, ?_, hpaused, hdone⟩, fun _ => hm⟩
    show m.closings ++ _ = _
    rw [hm]
    rfl
  · refine tracked_await_bind.2 ⟨trivial, fun _ => ⟨by simp, ?_, hpaused, hdone⟩, fun _ => hm⟩
    show m.closings ++ _ = _
    rw [hm]
    rfl
  · refine tracked_await_bind.2 ⟨trivial, fun _ => ⟨by simp, ?_, hpaused, hdone⟩, fun _ => hm⟩
    show m.closings ++ _ = _
    rw [hm]
    rfl

/-- The body of a run. -/
lemma executeBody_logged {execution : AgentExecution} {resume : Option ResumeContext}
    {caller : Option Caller} :
    Logged cfg (RunPost cfg execution) {} (executeBody cfg execution resume caller) := by
  refine tracked_await_bind.2 ⟨trivial, fun agent => ?_, fun _ => rfl⟩
  cases agent with
  | none => exact rfl
  | some agent =>
    refine tracked_await_bind.2 ⟨trivial, fun _ => tracked_await_bind.2 ⟨trivial,
      fun decision => ?_, fun _ => rfl⟩, fun _ => rfl⟩
    have htier : (forcedTier decision).Uses (Stmt.Silent cfg) := by
      cases decision <;> trivial
    refine (logged_silent htier).bind (fun m tier hm => ?_) fun m _ hm => hm ▸ rfl
    subst hm
    refine tracked_await_bind.2 ⟨trivial, fun context => ?_, fun _ => rfl⟩
    have hprincipal : (bindPrincipal execution context).Uses (Stmt.Silent cfg) := by
      unfold bindPrincipal
      cases context.dataAccessContext with
      | none => trivial
      | some dac => exact await_uses fun _ _ => rfl
    refine (logged_silent hprincipal).bind (fun m _ hm => ?_) fun m _ hm => hm ▸ rfl
    subst hm
    refine tracked_bind (resumedSteps_logged ⟨rfl, rfl, rfl, rfl, rfl, fun hregular => ?_⟩)
      (fun m steps hsteps => ?_) fun _ _ hm => hm
    · have hpos : (true && decide (0 < context.constraints.maxReActIterations)) = true := hregular
      simpa using hpos
    · refine effectivePrompt_logged.bind (fun m' prompt hm' => ?_)
        fun m' _ hm' => hm' ▸ hsteps.closings
      subst hm'
      have hloop : Logged cfg (LoopPost cfg execution) _
          (runReActLoop cfg execution context prompt tier steps) :=
        runReActLoop_logged hsteps.limit hsteps.budgetMs hsteps.deadline hsteps.taken
          hsteps.closings hsteps.below
      refine hloop.bind (fun m s hs => ?_) fun _ _ hs => hs
      exact closeOut_logged hs.1 hs.2.1 hs.2.2

/-- A run that throws has closed nothing, any other has written one closing event. -/
theorem execute_logged {execution : AgentExecution} {resume : Option ResumeContext}
    {caller : Option Caller} :
    Logged cfg (RunPost cfg execution) {} (execute cfg execution resume caller) := by
  refine tracked_attempt_bind executeBody_logged fun m r hr => ?_
  cases r with
  | ok result => exact hr
  | error message =>
    refine tracked_await_bind.2 ⟨trivial, fun _ => ⟨by simp, ?_, fun hpaused => (by cases hpaused),
      fun _ hdone => (by cases hdone)⟩, fun _ => hr⟩
    show m.closings ++ _ = _
    rw [show m.closings = [] from hr]
    rfl

end loop

/-- A context that is built allows a step. -/
theorem buildContext_steps_pos {agent : Agent} {workspaceId executionId : Id}
    {caller : Option Caller} {grants : List ObjectGrant} {metadata : List ObjectMetadata}
    {context : ExecutionContext}
    (h : buildContext agent workspaceId executionId caller grants metadata = .ok context) :
    0 < context.constraints.maxReActIterations := by
  have hconstraints : context.constraints = communityConstraints agent := by
    -- both ways to a context take the constraints from the agent
    unfold buildContext at h
    split_ifs at h
    cases hidentity : agent.identity with
    | some identity =>
      rw [hidentity] at h
      cases h
      rfl
    | none =>
      rw [hidentity] at h
      cases caller with
      | none => cases h
      | some caller =>
        dsimp only at h
        split_ifs at h
        cases h
        rfl
  rw [hconstraints]
  show 0 < agent.guardrailRules.execution.steps
  unfold ExecutionRules.steps
  -- a number of steps that is out of range gives way to the default
  cases agent.guardrailRules.execution.maxReActIterations with
  | none => decide
  | some n =>
    dsimp only
    split_ifs with hn
    · obtain ⟨hden, hlow, _⟩ := hn
      rw [Rat.le_iff, hden] at hlow
      simp only [Rat.num_ofNat, Rat.den_ofNat] at hlow
      omega
    · decide

/-! ## Done means finished -/

/-- What the engine promises of a run that returned: one closing event that goes with the status;
`done` only behind a finish whose answer the model supplied or a completed handoff; and a run that
neither ended so nor paused nor was handed a paused execution is closed as failed. -/
def DoneMeansFinished (cfg : Config) (execution : AgentExecution) (log : RunLog)
    (result : ExecutionResult) : Prop :=
  log.closings = [closingOf execution.id result.status] ∧
    (result.status = .done → EndsWell cfg log.replies result.steps) ∧
    (¬ EndsWell cfg log.replies result.steps → log.paused = false →
      execution.status ≠ .guardrailPending →
        result.status = .failed ∧
          log.closings = [⟨.executionFailed, execution.id, some .failed⟩])

/-- In every interleaving of any number of runs, fresh or resumed, each regular run that has
returned keeps the promise. -/
theorem done_means_finished {ι : Type} [DecidableEq ι] (cfg : Config) (ans : Answers) (w : World)
    (execution : ι → AgentExecution) (resume : ι → Option ResumeContext)
    (caller : ι → Option Caller) (sched : List ι) :
    let c := (Pool.start w fun i => execute cfg (execution i) (resume i) (caller i)).play
      (exec ans) sched
    ∀ i result, c.thread i = .ret result → (runLog cfg (c.seen i)).regular = true →
      DoneMeansFinished cfg (execution i) (runLog cfg (c.seen i)) result := by
  intro c i result hresult hregular
  have hended : RunPost cfg (execution i) (runLog cfg (c.seen i)) (.ok result) :=
    Tracked.ends_ret (fun i => execute_logged) w sched hresult
  obtain ⟨hstatus, hclosings, hpaused, hdone⟩ := hended
  refine ⟨hclosings, hdone hregular, fun hends hnot hfresh => ?_⟩
  have hfailed : result.status = .failed := by
    simp only [List.mem_cons, List.not_mem_nil, or_false] at hstatus
    rcases hstatus with hpending | hfailed | hok
    · rcases hpaused hpending with hlog | hhanded
      · cases hnot.symm.trans hlog
      · exact absurd hhanded hfresh
    · exact hfailed
    · exact absurd (hdone hregular hok) hends
  refine ⟨hfailed, ?_⟩
  rw [hclosings, hfailed]
  rfl

/-! ### A run of a small deployment -/

/-- No number is finite, so that no text of a number is ever read. -/
def noNumbers : Json.NumberFormat where
  finite _ := False
  format _ := []
  read _ := none
  read_format h := h.elim
  format_head h := h.elim
  format_chars h := h.elim

/-- A reply that finishes with a greeting. -/
def greeting : ParsedReply where
  thought := { reasoning := "", plan := "", confidence := 1 }
  type := some (.str "finish")
  toolName := none
  toolInput := none
  generatePrompt := some (.str "Hello")

/-- A deployment without tools in which every reply is read as `reply`. -/
def Config.small (reply : ParsedReply) : Config where
  fmt := noNumbers
  tools := []
  guardrailEngine := none
  readReply _ := some reply
  chatMessages _ _ _ _ _ := []
  recompose _ := none
  digest _ := ""
  regexTest _ _ := .ok false
  schemaError _ _ := none
  lowerCase := id
  toText _ := .ok ""

/-- An agent with an identity of its own. -/
def clerk : Agent where
  id := 1
  workspaceId := 1
  serviceUserId := some 2
  roleId := some 3

def errand : AgentExecution where
  id := 7
  workspaceId := 1
  agentId := 1
  triggerSource := "community_api"
  triggeredBy := none
  triggerPayload := none
  rawInput := "Greet me"
  status := .pending

/-- Nothing fails, and the clock shows `now`. -/
def Answers.smooth (now : Nat → Nat) : Answers where
  fails _ := none
  preflight _ := .allow
  checkIteration _ := true
  getActiveText _ := none
  now
  chat _ :=
    { content := ""
      model := "m"
      inputTokens := 1
      outputTokens := 1
      finishReason := "stop" }
  toolBody _ := .error ""
  asText := Json.render

/-- The run of the errand under a clock. -/
def errandUnder (now : Nat → Nat) : Pool Stmt Stmt.Resp String ExecutionResult World Unit :=
  (Pool.start (World.fresh [clerk] [] [])
    fun _ => execute (Config.small greeting) errand none none).play
    (exec (Answers.smooth now)) (List.replicate 12 ())

/-- The errand, and one for an agent that does not exist. -/
def errands : Bool → AgentExecution
  | false => errand
  | true => { errand with id := 8, agentId := 9 }

/-- Both of them, under a clock that stands still. -/
def errandsTogether : Pool Stmt Stmt.Resp String ExecutionResult World Bool :=
  (Pool.start (World.fresh [clerk] [] [])
    fun i => execute (Config.small greeting) (errands i) none none).play
    (exec (Answers.smooth fun _ => 0)) ([false, true] ++ List.replicate 11 false ++ [true])

/-- Two regular runs side by side: one is closed as done behind its greeting, the other, which finds
no agent, as failed. -/
theorem greeted_means_finished :
    (∃ result, errandsTogether.thread false = .ret result ∧
      DoneMeansFinished (Config.small greeting) errand
        (runLog (Config.small greeting) (errandsTogether.seen false)) result) ∧
    ∃ result, errandsTogether.thread true = .ret result ∧ result.status = .failed ∧
      DoneMeansFinished (Config.small greeting) (errands true)
        (runLog (Config.small greeting) (errandsTogether.seen true)) result := by
  have hpromise := done_means_finished (Config.small greeting) (Answers.smooth fun _ => 0)
    (World.fresh [clerk] [] []) errands (fun _ => none) (fun _ => none)
    ([false, true] ++ List.replicate 11 false ++ [true])
  constructor
  · have hended : (errandsTogether.thread false).result?.isSome = true := by decide +kernel
    obtain ⟨result, hresult⟩ := Option.isSome_iff_exists.mp hended
    have hret := Prog.result?_eq_some hresult
    exact ⟨result, hret, hpromise false result hret (by decide +kernel)⟩
  · have hended : (errandsTogether.thread true).result?.map (·.status) = some .failed := by
      decide +kernel
    obtain ⟨result, hresult, hstatus⟩ := Option.map_eq_some_iff.mp hended
    have hret := Prog.result?_eq_some hresult
    exact ⟨result, hret, hstatus, hpromise true result hret (by decide +kernel)⟩

/-- The clock passes the deadline before the first pass: the timeout step carries no termination, so
that the run is closed as done, with the completed event, although the model was never asked. -/
theorem late_run_done :
    ∃ result, (errandUnder fun n => if n ≤ 4 then 0 else 100000).thread () = .ret result ∧
      ¬ DoneMeansFinished (Config.small greeting) errand
        (runLog (Config.small greeting)
          ((errandUnder fun n => if n ≤ 4 then 0 else 100000).seen ())) result := by
  have hdone : ((errandUnder fun n => if n ≤ 4 then 0 else 100000).thread ()).result?.map
      (·.status) = some .done := by decide +kernel
  have hreplies : (runLog (Config.small greeting)
      ((errandUnder fun n => if n ≤ 4 then 0 else 100000).seen ())).replies.length = 0 := by
    decide +kernel
  have hlast : (((errandUnder fun n => if n ≤ 4 then 0 else 100000).thread ()).result?.bind
      (·.steps.getLast?)).map (·.action.type) = some .finish := by decide +kernel
  obtain ⟨result, hresult, hstatus⟩ := Option.map_eq_some_iff.mp hdone
  refine ⟨result, Prog.result?_eq_some hresult, fun h => ?_⟩
  obtain ⟨step, hstep, hwhy⟩ := h.2.1 hstatus
  rw [hresult, Option.bind_some, hstep] at hlast
  rcases hwhy with ⟨reply, hreply, _⟩ | ⟨hhandoff, _⟩
  · rw [List.eq_nil_of_length_eq_zero hreplies] at hreply
    cases hreply
  · rw [Option.map_some, hhandoff] at hlast
    cases hlast

end NexusClaw.AgentRuntime
