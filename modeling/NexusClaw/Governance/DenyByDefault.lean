import NexusClaw.Governance.Ledger

/-!
# Deny by default in the loop

The model may answer anything, so the loop is judged by what it lets happen outside. `Governed` is
the policy, as a grammar of traces: a round asks the model once and then either does nothing, or
makes the call that was proposed, granted and let pass, or holds a call for an approval, after which
nothing more happens. The results say that whatever the model and the tools do, `runLoop` produces a
governed trace, and that it creates an approval exactly for the call it holds.
-/

namespace NexusClaw.Governance
open Concurrent

/-! ## The policy -/

/-- The response asks for a tool call. -/
def Proposes (cfg : Config) (content name : String) (toolInput : Json) : Prop :=
  ∃ thought action, parseResponse cfg content = some (thought, some action) ∧
    Proposal.read action = .toolCall (.str name) toolInput

/-- The evaluation lets the call pass: no rule matched, or the level is L0 or L1. -/
def GuardrailEvaluation.Passes (evaluation : GuardrailEvaluation) : Prop :=
  evaluation.matched = false ∨ evaluation.riskLevel = "L0" ∨ evaluation.riskLevel = "L1"

/-- The call is granted, and `evaluation` is what the guardrail says about it. -/
structure Judged (cfg : Config) (input : ExecutorInput) (name : String) (toolInput : Json)
    (evaluation : GuardrailEvaluation) : Prop where
  allowed : name ∈ input.allowedTools
  unblocked : name ∉ input.blockedTools
  evaluated :
    evaluate cfg input.workspaceId name toolInput input.guardrailRuleIds = .ok evaluation

/-- A call that waits for an approval. -/
structure Hold where
  toolName : String
  toolInput : Json
  evaluation : GuardrailEvaluation

/-- The response asks for a granted call that is neither let pass nor blocked. -/
structure Holds (cfg : Config) (input : ExecutorInput) (content : String) (hold : Hold) : Prop where
  proposed : Proposes cfg content hold.toolName hold.toolInput
  judged : Judged cfg input hold.toolName hold.toolInput hold.evaluation
  stopped : ¬ hold.evaluation.Passes
  unblocked : hold.evaluation.riskLevel ≠ "L4"

/-- The traces that the policy admits, with the call that is held at the end, if any. -/
inductive Governed (cfg : Config) (input : ExecutorInput) : List Effect → Option Hold → Prop where
  | stop : Governed cfg input [] none
  | quiet {response : Except String String} {events : List Effect} {held : Option Hold}
      (nothing : ∀ content hold, response = .ok content → ¬ Holds cfg input content hold)
      (rest : Governed cfg input events held) :
      Governed cfg input (.chat response :: events) held
  | call {content name : String} {toolInput : Json} {evaluation : GuardrailEvaluation}
      {events : List Effect} {held : Option Hold} (proposed : Proposes cfg content name toolInput)
      (judged : Judged cfg input name toolInput evaluation) (passes : evaluation.Passes)
      (rest : Governed cfg input events held) :
      Governed cfg input (.chat (.ok content) :: .toolBody .loop name toolInput :: events) held
  | hold {content : String} {hold : Hold} (holds : Holds cfg input content hold) :
      Governed cfg input [.chat (.ok content)] (some hold)

section policy
variable {cfg : Config} {input : ExecutorInput} {events : List Effect} {held : Option Hold}

/-- A reply proposes one call. -/
lemma Proposes.unique {content name name' : String} {toolInput toolInput' : Json}
    (h : Proposes cfg content name toolInput) (h' : Proposes cfg content name' toolInput') :
    name = name' ∧ toolInput = toolInput' := by
  obtain ⟨thought, action, hparse, hread⟩ := h
  obtain ⟨thought', action', hparse', hread'⟩ := h'
  rw [hparse] at hparse'
  cases hparse'
  rw [hread] at hread'
  cases hread'
  exact ⟨rfl, rfl⟩

/-- A call is judged in one way. -/
lemma Judged.unique {name : String} {toolInput : Json} {ev ev' : GuardrailEvaluation}
    (h : Judged cfg input name toolInput ev) (h' : Judged cfg input name toolInput ev') :
    ev = ev' := by
  have he := h.evaluated.symm.trans h'.evaluated
  cases he
  rfl

/-- Two governed parts, the first of which did not pause. -/
lemma Governed.append {events' : List Effect} (h : Governed cfg input events none)
    (h' : Governed cfg input events' held) : Governed cfg input (events ++ events') held := by
  generalize hn : (none : Option Hold) = n at h
  induction h with
  | stop => exact h'
  | quiet nothing _ ih => exact .quiet nothing (ih hn)
  | call proposed judged passes _ ih => exact .call proposed judged passes (ih hn)
  | hold holds => cases hn

/-- A tool body is called right after the model proposed the call, granted and let pass. -/
lemma Governed.called (h : Governed cfg input events held) {before after : List Effect}
    {origin : Origin} {name : String} {toolInput : Json}
    (he : events = before ++ .toolBody origin name toolInput :: after) :
    origin = .loop ∧ ∃ content evaluation, before.getLast? = some (.chat (.ok content)) ∧
      Proposes cfg content name toolInput ∧ Judged cfg input name toolInput evaluation ∧
      evaluation.Passes := by
  -- induction on the rules of the policy, along the statements
  induction h generalizing before with
  | stop =>
    have hlen := congrArg List.length he
    simp at hlen
  | quiet nothing _ ih =>
    cases before with
    | nil => cases he
    | cons first before =>
      obtain ⟨rfl, htail⟩ := List.cons.inj he
      obtain ⟨ho, content, evaluation, hlast, hrest⟩ := ih htail
      refine ⟨ho, content, evaluation, ?_, hrest⟩
      cases before with
      | nil => cases hlast
      | cons second before => exact hlast
  | call proposed judged passes _ ih =>
    cases before with
    | nil => cases he
    | cons first before =>
      obtain ⟨rfl, htail⟩ := List.cons.inj he
      cases before with
      | nil =>
        obtain ⟨hbody, -⟩ := List.cons.inj htail
        cases hbody
        exact ⟨rfl, _, _, rfl, proposed, judged, passes⟩
      | cons second before =>
        obtain ⟨rfl, hevents⟩ := List.cons.inj htail
        obtain ⟨ho, content, evaluation, hlast, hrest⟩ := ih hevents
        refine ⟨ho, content, evaluation, ?_, hrest⟩
        cases before with
        | nil => cases hlast
        | cons third before => exact hlast
  | hold holds =>
    cases before with
    | nil => cases he
    | cons first before =>
      have hlen := congrArg List.length he
      simp at hlen

/-- A response that asks for a call to be held is the last thing that happens, and the call is
held. -/
lemma Governed.ends_held (h : Governed cfg input events held) {before after : List Effect}
    {content : String} {hold : Hold} (he : events = before ++ .chat (.ok content) :: after)
    (hh : Holds cfg input content hold) : after = [] ∧ held = some hold := by
  -- induction on the rules of the policy, along the statements
  induction h generalizing before with
  | stop =>
    have hlen := congrArg List.length he
    simp at hlen
  | quiet nothing _ ih =>
    cases before with
    | nil =>
      obtain ⟨hchat, -⟩ := List.cons.inj he
      cases hchat
      exact absurd hh (nothing content hold rfl)
    | cons first before => exact ih (List.cons.inj he).2
  | call proposed judged passes _ ih =>
    cases before with
    | nil =>
      obtain ⟨hchat, -⟩ := List.cons.inj he
      cases hchat
      obtain ⟨rfl, rfl⟩ := proposed.unique hh.proposed
      obtain rfl := judged.unique hh.judged
      exact absurd passes hh.stopped
    | cons first before =>
      obtain ⟨-, htail⟩ := List.cons.inj he
      cases before with
      | nil => cases htail
      | cons second before => exact ih (List.cons.inj htail).2
  | @hold content' hold' holds =>
    cases before with
    | nil =>
      obtain ⟨hchat, hnil⟩ := List.cons.inj he
      cases hchat
      obtain ⟨hname, hinput⟩ := holds.proposed.unique hh.proposed
      cases hold
      cases hold'
      subst hname hinput
      obtain rfl := holds.judged.unique hh.judged
      exact ⟨hnil.symm, rfl⟩
    | cons first before =>
      have hlen := congrArg List.length he
      simp at hlen

end policy

/-! ## What programs show outside -/

/-- From `w` to `w'` the outside saw `events`, and the ledger did not change. -/
structure Shows (w w' : World) (events : List Effect) : Prop where
  trace : w'.trace = w.trace ++ events
  ledger : w'.ledger = w.ledger
  clock : w.clock ≤ w'.clock

/-- Nothing shows nothing. -/
lemma Shows.refl (w : World) : Shows w w [] :=
  ⟨(List.append_nil _).symm, rfl, Nat.le_refl _⟩

/-- What two parts show. -/
lemma Shows.trans {a b c : World} {events events' : List Effect} (h : Shows a b events)
    (h' : Shows b c events') : Shows a c (events ++ events') where
  trace := by rw [h'.trace, h.trace, List.append_assoc]
  ledger := h'.ledger.trans h.ledger
  clock := h.clock.trans h'.clock

/-- A quiet statement that nobody outside sees. -/
def Stmt.unseen : Stmt → Prop
  | .chat _ => False
  | .runTool _ _ _ => False
  | .callTool _ _ _ => False
  | s => s.quiet

section shows
variable (ans : Answers)

/-- An unseen statement shows nothing. -/
lemma exec_unseen {s : Stmt} (hs : s.unseen) (w : World) : Shows w (exec ans s w).1 [] := by
  have hstay : s.quiet → (exec ans s w).1.trace = w.trace → w.clock ≤ (exec ans s w).1.clock →
      Shows w (exec ans s w).1 [] :=
    fun hq ht hc => ⟨by rw [ht, List.append_nil], ledger_quiet ans hq, hc⟩
  cases s with
  | chat messages => exact absurd hs id
  | runTool origin name input => exact absurd hs id
  | callTool approvalId tool args => exact absurd hs id
  | _ => exact hstay hs rfl (by simp only [exec]; omega)

/-- Nor does a program of unseen statements. -/
lemma run_unseen {α : Type} {p : Act α} (hp : p.Uses Stmt.unseen) (w : World) :
    Shows w (p.run (exec ans) w).2 [] :=
  hp.run_rel (T := fun a b => Shows a b []) Shows.refl (fun _ _ _ h h' => h.trans h')
    (fun _ w hs => exec_unseen ans hs w) w

/-- A stored step is unseen. -/
lemma persistStep_unseen (cfg : Config) (origin : Origin) (context : LoopContext)
    (iteration : Nat) (thought : Option Json) (actionType : ActionType) (action : Json)
    (observation : Observation) :
    (persistStep cfg origin context iteration thought actionType action observation).Uses
      Stmt.unseen :=
  Prog.Uses.call_bind trivial fun _ => Prog.uses_ret _

/-- Whatever the program ends with, what it showed satisfies `A`. -/
def ShowsOnly {α : Type} (A : List Effect → Prop) (p : Act α) : Prop :=
  ∀ w, ∃ events, A events ∧ Shows w (p.run (exec ans) w).2 events

section only
variable {ans} {α β : Type} {A : List Effect → Prop} {p : Act α} {f : α → Act β}

/-- An unseen program shows nothing. -/
lemma ShowsOnly.of_unseen (hA : A []) (hp : p.Uses Stmt.unseen) : ShowsOnly ans A p :=
  fun w => ⟨[], hA, run_unseen ans hp w⟩

/-- What is unseen adds nothing behind. -/
lemma ShowsOnly.bind_unseen (hp : ShowsOnly ans A p) (hf : ∀ a, (f a).Uses Stmt.unseen) :
    ShowsOnly ans A (p >>= f) := by
  intro w
  obtain ⟨events, hA, hs⟩ := hp w
  refine ⟨events, hA, ?_⟩
  rw [Prog.run_bind]
  rcases h : p.run (exec ans) w with ⟨r, w'⟩
  rw [h] at hs
  cases r with
  | error e => exact hs
  | ok a =>
    have hrest := hs.trans (run_unseen ans (hf a) w')
    rwa [List.append_nil] at hrest

/-- What is unseen adds nothing in front. -/
lemma ShowsOnly.unseen_bind (hA : A []) (hp : p.Uses Stmt.unseen)
    (hf : ∀ a, ShowsOnly ans A (f a)) : ShowsOnly ans A (p >>= f) := by
  intro w
  have hs := run_unseen ans hp w
  rw [Prog.run_bind]
  rcases h : p.run (exec ans) w with ⟨r, w'⟩
  rw [h] at hs
  cases r with
  | error e => exact ⟨[], hA, hs⟩
  | ok a =>
    obtain ⟨events, hev, hrest⟩ := hf a w'
    exact ⟨events, hev, hs.trans hrest⟩

end only

/-- The registry reaches the body of the tool at most once, with the call's own input. -/
lemma registryExecute_shows (cfg : Config) (origin : Origin) (name : String) (toolInput : Json)
    (allowedTools : List String) :
    ShowsOnly ans (fun events => events = [] ∨ events = [.toolBody origin name toolInput])
      (registryExecute cfg origin name toolInput allowedTools) := by
  unfold registryExecute
  by_cases hknown : name ∈ cfg.tools
  · rw [if_neg (not_not_intro hknown)]
    by_cases hallowed : name ∈ allowedTools
    · rw [if_neg (not_not_intro hallowed)]
      refine ShowsOnly.bind_unseen (fun w => ⟨[.toolBody origin name toolInput], .inr rfl, ?_⟩) ?_
      · exact ⟨rfl, rfl, Nat.le_succ _⟩
      · intro r
        cases r <;> trivial
    · rw [if_pos hallowed]
      exact .of_unseen (.inl rfl) trivial
  · rw [if_pos hknown]
    exact .of_unseen (.inl rfl) trivial

/-- A tool that is admitted shows its body alone. -/
lemma executeApprovedTool_shows (cfg : Config) (origin : Origin) (context : LoopContext)
    (name : String) (toolInput : Json) :
    ShowsOnly ans (fun events => events = [] ∨ events = [.toolBody origin name toolInput])
      (executeApprovedTool cfg origin context name toolInput) := by
  refine ShowsOnly.unseen_bind (.inl rfl) (Prog.uses_call.mpr trivial) fun call => ?_
  refine ShowsOnly.bind_unseen (registryExecute_shows ans cfg origin name toolInput _) fun result => ?_
  exact Prog.Uses.bind (uses_finalize fun _ => trivial) fun _ => Prog.uses_ret _

end shows

/-! ## Rounds -/

/-- The context after a stretch of the loop that did not pause. -/
def LoopContext.Stays (context context' : LoopContext) : Prop :=
  context'.execution = context.execution ∧ context'.input = context.input

/-- The approval that is created for a held call. -/
def Hold.instance (cfg : Config) (context : LoopContext) (hold : Hold) (id : Id) :
    ApprovalInstance :=
  { (loopRequest context hold.toolName hold.toolInput hold.evaluation).instance cfg with id }

/-- What became of the ledger: nothing, or exactly one new approval, for the held call, and the
execution waits. -/
def Stored (cfg : Config) (context : LoopContext) (w w' : World) : Option Hold → Prop
  | none => w'.ledger = w.ledger
  | some hold => ∃ id, w.clock ≤ id ∧ w'.ledger =
      (w.ledger.ask id (hold.instance cfg context id)).patch context.execution.id
        { status := some .guardrailPending }

/-- From `w` to `w'` the loop for `context` did `events` outside and held `held`. -/
structure Round (cfg : Config) (context : LoopContext) (w w' : World) (events : List Effect)
    (held : Option Hold) : Prop where
  trace : w'.trace = w.trace ++ events
  stored : Stored cfg context w w' held
  clock : w.clock ≤ w'.clock

section rounds
variable {cfg : Config} {ans : Answers} {context : LoopContext} {events : List Effect}
  {held : Option Hold}

/-- What a part shows that does not pause. -/
lemma Shows.round {w w' : World} (h : Shows w w' events) : Round cfg context w w' events none :=
  ⟨h.trace, h.ledger, h.clock⟩

/-- Two rounds, the first of which did not pause. -/
lemma Round.trans {context' : LoopContext} {a b c : World} {events' : List Effect}
    (h : Round cfg context a b events none) (hc : context.Stays context')
    (h' : Round cfg context' b c events' held) :
    Round cfg context a c (events ++ events') held where
  trace := by rw [h'.trace, h.trace, List.append_assoc]
  stored := by
    have hkept : b.ledger = a.ledger := h.stored
    have hrest := h'.stored
    cases held with
    | none => exact Eq.trans hrest hkept
    | some hold =>
      obtain ⟨id, hid, hput⟩ := hrest
      refine ⟨id, h.clock.trans hid, ?_⟩
      rw [hput, hkept, Hold.instance, Hold.instance, loopRequest, loopRequest, hc.1, hc.2]
  clock := h.clock.trans h'.clock

/-- The four ways through the gate of the loop. -/
inductive Gated (cfg : Config) (context : LoopContext) (toolName toolInput : Json) :
    Act (ToolGate × LoopContext) → Prop where
  | blocked {error : String} (judged : ∀ name evaluation, toolName = .str name →
      Judged cfg context.input name toolInput evaluation → evaluation.riskLevel = "L4") :
      Gated cfg context toolName toolInput (.ret (.blocked error, context))
  | threw {error : String} (judged : ∀ name evaluation, toolName = .str name →
      ¬ Judged cfg context.input name toolInput evaluation) :
      Gated cfg context toolName toolInput (.throw error)
  | allowed {name : String} {evaluation : GuardrailEvaluation} (hname : toolName = .str name)
      (judged : Judged cfg context.input name toolInput evaluation) (passes : evaluation.Passes) :
      Gated cfg context toolName toolInput (.ret (.allow name, context))
  | paused {name : String} {evaluation : GuardrailEvaluation} (hname : toolName = .str name)
      (judged : Judged cfg context.input name toolInput evaluation) (stopped : ¬ evaluation.Passes)
      (unblocked : evaluation.riskLevel ≠ "L4") :
      Gated cfg context toolName toolInput (pauseLoop cfg context name toolInput evaluation)

/-- What the gate of a call shows. -/
lemma gateToolCall_gated (cfg : Config) (context : LoopContext) (toolName toolInput : Json) :
    Gated cfg context toolName toolInput (gateToolCall cfg context toolName toolInput) := by
  -- the name, the grant, the evaluation, in the order of the source
  cases toolName with
  | str name =>
    unfold gateToolCall
    by_cases hg : checkToolAccess name context.input.allowedTools context.input.blockedTools = true
    · obtain ⟨hallowed, hunblocked⟩ := checkToolAccess_iff.mp hg
      simp only [hg, Bool.not_true, Bool.false_eq_true, if_false]
      cases hev : evaluate cfg context.input.workspaceId name toolInput
          context.input.guardrailRuleIds with
      | error e =>
        refine .threw ?_
        rintro _ evaluation ⟨⟩ hj
        exact nomatch hev.symm.trans hj.evaluated
      | ok evaluation =>
        have hj : Judged cfg context.input name toolInput evaluation := ⟨hallowed, hunblocked, hev⟩
        simp only [Act.ofExcept_ok, Prog.ret_bind]
        by_cases hp : evaluation.Passes
        · rw [if_pos (by simpa [GuardrailEvaluation.Passes] using hp)]
          exact .allowed rfl hj hp
        · rw [if_neg (by simpa [GuardrailEvaluation.Passes] using hp)]
          by_cases h4 : evaluation.riskLevel = "L4"
          · rw [if_pos h4]
            refine .blocked ?_
            rintro _ evaluation' ⟨⟩ hj'
            rwa [hj'.unique hj]
          · rw [if_neg h4]
            exact .paused rfl hj hp h4
    · simp only [eq_false_of_ne_true hg, Bool.not_false, if_true]
      refine .blocked ?_
      rintro _ evaluation ⟨⟩ hj
      exact absurd (checkToolAccess_iff.mpr ⟨hj.allowed, hj.unblocked⟩) hg
  | _ => exact .blocked fun name evaluation hname => nomatch hname

/-- Pausing creates the approval for the call and nothing else happens outside. -/
lemma pauseLoop_round (ans : Answers)
    (hstatus : context.execution.status = .pending ∨ context.execution.status = .running)
    (name : String) (toolInput : Json) (evaluation : GuardrailEvaluation) (w : World) :
    ∃ context' w', (pauseLoop cfg context name toolInput evaluation).run (exec ans) w =
        (.ok (.paused, context'), w') ∧
      Round cfg context w w' [] (some ⟨name, toolInput, evaluation⟩) := by
  have htransition : handleStateTransition context.execution.status .guardrailPending =
      .ok .guardrailPending := by
    obtain h | h := hstatus
    · rw [h]
      rfl
    · rw [h]
      rfl
  simp only [pauseLoop, createAgentApproval, htransition, Act.ofExcept_ok, Prog.call_bind,
    Prog.stmt_bind, Prog.ret_bind, Prog.pure_eq, Prog.run_stmt, Prog.run_ret]
  refine ⟨_, _, rfl, ⟨(List.append_nil _).symm, ⟨w.clock, Nat.le_refl _, ?_⟩, Nat.le_add_right _ 2⟩⟩
  -- The event is no terminal one, so the ledger is the one after the update.
  exact (ledger_quiet ans (by exact rfl)).trans rfl

/-- A program has played the rest of the round that `response` opened: it pauses the loop exactly
if it held a call. -/
def Answered (cfg : Config) (ans : Answers) (context : LoopContext) (response : Except String String)
    (p : Act (Option ExecutionStatus × LoopContext)) : Prop :=
  ∀ w, ∃ events held, Governed cfg context.input (.chat response :: events) held ∧
    Round cfg context w (p.run (exec ans) w).2 events held ∧
    (held.isSome ↔ ∃ context', (p.run (exec ans) w).1 = .ok (some .guardrailPending, context'))

/-- The program does not end with a pause. -/
def Act.goesOn (p : Act (Option ExecutionStatus × LoopContext)) : Prop :=
  p.Ends fun r => r.1 ≠ some .guardrailPending

/-- A program that goes on does not pause. -/
lemma Act.goesOn.no_pause {p : Act (Option ExecutionStatus × LoopContext)} (hp : p.goesOn)
    (w : World) :
    (none : Option Hold).isSome ↔
      ∃ context', (p.run (exec ans) w).1 = .ok (some .guardrailPending, context') := by
  constructor
  · intro h
    cases h
  · rintro ⟨context', hr⟩
    have hrun : p.run (exec ans) w = (_, (p.run (exec ans) w).2) := Prod.ext hr rfl
    exact absurd rfl (hp.run hrun)

/-- Nothing happens outside, and nothing was to be held. -/
lemma Answered.quiet {response : Except String String}
    {p : Act (Option ExecutionStatus × LoopContext)} (hp : p.Uses Stmt.unseen) (hgo : p.goesOn)
    (hn : ∀ content hold, response = .ok content → ¬ Holds cfg context.input content hold) :
    Answered cfg ans context response p :=
  fun w => ⟨[], none, .quiet hn .stop, (run_unseen ans hp w).round, hgo.no_pause w⟩

/-- What a tool call of an iteration shows. -/
lemma performToolCall_answered {content : String} {iteration : Nat} {thought : Option Json}
    {action toolName toolInput : Json}
    (hstatus : context.execution.status = .pending ∨ context.execution.status = .running)
    (hparse : parseResponse cfg content = some (thought, some action))
    (hread : Proposal.read action = .toolCall toolName toolInput) :
    Answered cfg ans context (.ok content)
      (performToolCall cfg context iteration thought action toolName toolInput) := by
  have hproposed : ∀ {name input}, Proposes cfg content name input →
      toolName = .str name ∧ toolInput = input := by
    rintro name input ⟨thought', action', hparse', hread'⟩
    rw [hparse] at hparse'
    cases hparse'
    rw [hread] at hread'
    cases hread'
    exact ⟨rfl, rfl⟩
  unfold performToolCall
  have hgated := gateToolCall_gated cfg context toolName toolInput
  generalize gateToolCall cfg context toolName toolInput = gated at hgated
  -- one case for each way through the gate
  cases hgated with
  | @blocked error judged =>
    rw [Prog.ret_bind]
    refine .quiet (Prog.Uses.bind (persistStep_unseen ..) fun _ => Prog.uses_ret _)
      (fun _ h => nomatch h) ?_
    rintro _ hold ⟨⟩ hh
    obtain ⟨hname, rfl⟩ := hproposed hh.proposed
    exact hh.unblocked (judged _ _ hname hh.judged)
  | threw judged =>
    refine .quiet trivial trivial ?_
    rintro _ hold ⟨⟩ hh
    obtain ⟨hname, rfl⟩ := hproposed hh.proposed
    exact judged _ _ hname hh.judged
  | @allowed name evaluation hname judged passes =>
    intro w
    have hshows := ShowsOnly.bind_unseen (executeApprovedTool_shows ans cfg .loop context name toolInput)
      (f := fun result => persistStep cfg .loop context iteration thought .toolCall action
          result.observation >>= fun context' =>
        (pure (none, { context' with messages := context'.messages ++
          [observationMessage cfg result.output.value? result.error] }) :
            Act (Option ExecutionStatus × LoopContext)))
      (fun result => Prog.Uses.bind (persistStep_unseen ..) fun _ => Prog.uses_ret _)
    have hgo : Act.goesOn (executeApprovedTool cfg .loop context name toolInput >>= fun result =>
        persistStep cfg .loop context iteration thought .toolCall action
          result.observation >>= fun context' =>
        (pure (none, { context' with messages := context'.messages ++
          [observationMessage cfg result.output.value? result.error] }) :
            Act (Option ExecutionStatus × LoopContext))) :=
      Prog.Ends.bind (Prog.ends_true _) fun _ _ _ h => nomatch h
    obtain ⟨events, rfl | rfl, hs⟩ := hshows w
    · refine ⟨[], none, .quiet ?_ .stop, hs.round, hgo.no_pause w⟩
      rintro _ hold ⟨⟩ hh
      obtain ⟨hname', rfl⟩ := hproposed hh.proposed
      obtain rfl := Json.str.inj (hname.symm.trans hname')
      obtain rfl := judged.unique hh.judged
      exact hh.stopped passes
    · subst hname
      exact ⟨_, none, .call ⟨thought, action, hparse, hread⟩ judged passes .stop, hs.round,
        hgo.no_pause w⟩
  | @paused name evaluation hname judged stopped unblocked =>
    intro w
    obtain ⟨context', w', hrun, hround⟩ := pauseLoop_round ans hstatus name toolInput evaluation w
    rw [Prog.run_bind_ok _ hrun]
    rw [hname] at hread
    exact ⟨[], some ⟨name, toolInput, evaluation⟩,
      .hold ⟨⟨thought, action, hparse, hread⟩, judged, stopped, unblocked⟩, hround,
      fun _ => ⟨context', rfl⟩, fun _ => rfl⟩

/-- What an action of an iteration shows. -/
lemma perform_answered {content : String} {iteration : Nat} {thought action : Option Json}
    (hstatus : context.execution.status = .pending ∨ context.execution.status = .running)
    (hparse : parseResponse cfg content = some (thought, action)) :
    Answered cfg ans context (.ok content) (perform cfg context iteration thought action) := by
  -- Only a response whose action reads as a tool call proposes one.
  have hnone : (∀ name input, ¬ Proposes cfg content name input) →
      ∀ content' hold, (.ok content : Except String String) = .ok content' →
        ¬ Holds cfg context.input content' hold := by
    rintro hp _ hold ⟨⟩ hh
    exact hp _ _ hh.proposed
  have hother : ∀ a, action = some a → (∀ toolName toolInput,
      Proposal.read a ≠ .toolCall toolName toolInput) →
      ∀ name input, ¬ Proposes cfg content name input := by
    rintro a rfl hread name input ⟨thought', action', hparse', hread'⟩
    rw [hparse] at hparse'
    cases hparse'
    exact hread _ _ hread'
  unfold perform
  split
  · refine .quiet trivial trivial (hnone ?_)
    rintro name input ⟨thought', action', hparse', -⟩
    rw [hparse] at hparse'
    cases hparse'
  · refine .quiet trivial trivial (hnone (hother _ rfl fun _ _ => ?_))
    exact nofun
  · split
    · rename_i hread
      refine .quiet (Prog.Uses.bind (persistStep_unseen ..) fun _ => trivial)
        (fun _ h => nomatch h) ?_
      refine hnone (hother _ rfl fun _ _ => ?_)
      rw [hread]
      exact nofun
    · rename_i hread
      exact performToolCall_answered hstatus hparse hread
    · rename_i hread
      refine .quiet trivial (fun h => nomatch h) (hnone (hother _ rfl fun _ _ => ?_))
      rw [hread]
      exact nofun

/-- What a reply shows. -/
lemma respond_answered (cfg : Config) (ans : Answers) (iteration : Nat)
    (response : Except String String)
    (hstatus : context.execution.status = .pending ∨ context.execution.status = .running) :
    Answered cfg ans context response (respond cfg context iteration response) := by
  cases response with
  | error e => exact .quiet trivial trivial fun content hold h => by cases h
  | ok content =>
    simp only [respond]
    cases hparse : parseResponse cfg content with
    | none =>
      refine .quiet (Prog.uses_ret _) (fun h => by cases h) ?_
      rintro _ hold ⟨⟩ hh
      obtain ⟨thought, action, hsome, -⟩ := hh.proposed
      cases hparse.symm.trans hsome
    | some parsed => exact perform_answered hstatus hparse

/-! ## The loop -/

/-- A stored step keeps what the gate looks at. -/
lemma persistStep_stays (cfg : Config) (context : LoopContext) (iteration : Nat)
    (thought : Option Json) (actionType : ActionType) (action : Json)
    (observation : Observation) :
    (persistStep cfg .loop context iteration thought actionType action observation).Ends
      context.Stays :=
  fun _ => ⟨rfl, rfl⟩

/-- So does a tool call that does not end the loop. -/
lemma performToolCall_stays (iteration : Nat) (thought : Option Json)
    (action toolName toolInput : Json) :
    (performToolCall cfg context iteration thought action toolName toolInput).Ends
      fun r => r.1 = none → context.Stays r.2 := by
  unfold performToolCall
  have hgated := gateToolCall_gated cfg context toolName toolInput
  generalize gateToolCall cfg context toolName toolInput = gated at hgated
  cases hgated with
  | blocked judged =>
    rw [Prog.ret_bind]
    refine Prog.Ends.bind (persistStep_stays cfg context _ _ _ _ _) fun context' hs => ?_
    exact fun _ => hs
  | threw judged => trivial
  | allowed hname judged passes =>
    rw [Prog.ret_bind]
    refine Prog.Ends.bind (Prog.ends_true _) fun result _ => ?_
    refine Prog.Ends.bind (persistStep_stays cfg context _ _ _ _ _) fun context' hs => ?_
    exact fun _ => hs
  | paused hname judged stopped unblocked =>
    refine Prog.Ends.bind (Q := fun r => r.1 = .paused) ?_ ?_
    · refine Prog.Ends.bind (Prog.ends_true _) fun _ _ => ?_
      refine Prog.Ends.bind (Prog.ends_true _) fun validated _ => ?_
      exact fun _ _ => rfl
    · rintro ⟨verdict, context'⟩ ⟨⟩
      exact fun h => nomatch h

/-- So does an iteration that does not end the loop. -/
lemma iterate_stays (cfg : Config) (context : LoopContext) (iteration : Nat) :
    (iterate cfg context iteration).Ends fun r => r.1 = none → context.Stays r.2 := by
  refine Prog.Ends.bind (Prog.ends_true _) fun response _ => ?_
  cases response with
  | error e => trivial
  | ok content =>
    simp only [respond]
    cases parseResponse cfg content with
    | none => exact fun h => by cases h
    | some parsed =>
      simp only [perform]
      split
      · trivial
      · trivial
      · split
        · exact Prog.Ends.bind (Prog.ends_true _) fun _ _ h => by cases h
        · exact performToolCall_stays _ _ _ _ _
        · exact fun h => by cases h

/-- Every run of the loop does what the policy admits, and it pauses exactly if it held a call. -/
lemma loopFrom_governed (ans : Answers) (remaining iteration : Nat) (context : LoopContext)
    (hstatus : context.execution.status = .pending ∨ context.execution.status = .running)
    (w : World) :
    ∃ events held, Governed cfg context.input events held ∧
      Round cfg context w ((loopFrom cfg remaining iteration context).run (exec ans) w).2 events held ∧
      (held.isSome ↔ ∃ context',
        ((loopFrom cfg remaining iteration context).run (exec ans) w).1 =
          .ok (.guardrailPending, context')) := by
  -- induction on the rounds that remain; the model speaks at the head of each
  induction remaining generalizing iteration context w with
  | zero =>
    refine ⟨[], none, .stop, (Shows.refl w).round, ?_⟩
    constructor
    · intro h
      cases h
    · rintro ⟨context', ⟨⟩⟩
  | succ remaining ih =>
    have hround : ∃ events held, Governed cfg context.input events held ∧
        Round cfg context w ((iterate cfg context iteration).run (exec ans) w).2 events held ∧
        (held.isSome ↔ ∃ context', ((iterate cfg context iteration).run (exec ans) w).1 =
          .ok (some .guardrailPending, context')) := by
      have hchat : Shows w (exec ans (.chat context.messages) w).1 [.chat (ans.chat w.clock)] :=
        ⟨rfl, rfl, Nat.le_succ _⟩
      obtain ⟨events, held, hg, hr, hresult⟩ := respond_answered cfg ans iteration
        (ans.chat w.clock) hstatus (exec ans (.chat context.messages) w).1
      exact ⟨_, held, hg, hchat.round.trans ⟨rfl, rfl⟩ hr, hresult⟩
    have hstays := iterate_stays cfg context iteration
    obtain ⟨events, held, hg, hr, hresult⟩ := hround
    simp only [loopFrom]
    rw [Prog.run_bind]
    rcases hrun : (iterate cfg context iteration).run (exec ans) w with ⟨r, w'⟩
    rw [hrun] at hr hresult
    cases r with
    | error e =>
      refine ⟨events, held, hg, hr, hresult.trans ?_⟩
      constructor
      · rintro ⟨context', ⟨⟩⟩
      · rintro ⟨context', ⟨⟩⟩
    | ok out =>
      obtain ⟨status, context'⟩ := out
      cases status with
      | some status =>
        refine ⟨events, held, hg, hr, hresult.trans ?_⟩
        constructor
        · rintro ⟨context'', ⟨⟩⟩
          exact ⟨_, rfl⟩
        · rintro ⟨context'', ⟨⟩⟩
          exact ⟨_, rfl⟩
      | none =>
        have hsame : context.Stays context' := hstays.run hrun rfl
        cases held with
        | some hold =>
          obtain ⟨context'', hc⟩ := hresult.mp rfl
          exact nomatch hc
        | none =>
          obtain ⟨events', held', hg', hr', hresult'⟩ := ih (iteration + 1) context'
            (by rwa [hsame.1]) w'
          rw [hsame.2] at hg'
          exact ⟨events ++ events', held', hg.append hg', hr.trans hsame hr', hresult'⟩

end rounds

/-- An evaluation without a match. -/
lemma evaluate_unmatched {cfg : Config} {workspaceId : Id} {name : String} {toolInput : Json}
    {ruleIds : List String} {evaluation : GuardrailEvaluation}
    (h : evaluate cfg workspaceId name toolInput ruleIds = .ok evaluation)
    (hm : evaluation.matched = false) : evaluation.riskLevel = "L0" := by
  unfold evaluate at h
  cases hmatched : matchRules cfg (extractOperation name toolInput)
      (loadRules cfg workspaceId ruleIds) with
  | error e =>
    simp only [hmatched] at h
    cases h
  | ok matched =>
    simp only [hmatched] at h
    cases hrisk : assessRisk matched with
    | none =>
      simp only [bind, Except.bind, hrisk] at h
      cases h
      rfl
    | some topRule =>
      simp only [bind, Except.bind, hrisk] at h
      cases h
      cases hm

/-- A call that passes is no L4 call. -/
lemma Judged.not_blocked {cfg : Config} {input : ExecutorInput} {name : String} {toolInput : Json}
    {evaluation : GuardrailEvaluation} (hj : Judged cfg input name toolInput evaluation)
    (hp : evaluation.Passes) : evaluation.riskLevel ≠ "L4" := by
  intro h4
  obtain hm | h0 | h1 := hp
  · have h0 := evaluate_unmatched hj.evaluated hm
    rw [h4] at h0
    exact absurd h0 (by decide)
  · rw [h4] at h0
    exact absurd h0 (by decide)
  · rw [h4] at h1
    exact absurd h1 (by decide)

/-- Whatever the model and the tools answer: a tool body is called only for the call that the last
response proposed, if it is granted and its evaluation is unmatched, L0 or L1; and an L2 or L3 call
is the last thing that happens, ends the loop in `guardrail_pending` and creates one approval, for
that call. -/
theorem loop_denies_by_default (cfg : Config) (ans : Answers) (context : LoopContext) (w : World)
    (hk : w.Keyed)
    (hstatus : context.execution.status = .pending ∨ context.execution.status = .running) :
    let out := (runLoop cfg context).run (exec ans) w
    ∃ events, out.2.trace = w.trace ++ events ∧
      (∀ before after origin name toolInput,
        events = before ++ .toolBody origin name toolInput :: after →
        origin = .loop ∧ ∃ content evaluation, before.getLast? = some (.chat (.ok content)) ∧
          Proposes cfg content name toolInput ∧
          Judged cfg context.input name toolInput evaluation ∧
          evaluation.Passes ∧ evaluation.riskLevel ≠ "L4") ∧
      ∀ before after content name toolInput evaluation,
        events = before ++ .chat (.ok content) :: after →
        Proposes cfg content name toolInput →
        Judged cfg context.input name toolInput evaluation →
        evaluation.matched = true → evaluation.riskLevel = "L2" ∨ evaluation.riskLevel = "L3" →
        after = [] ∧ (∃ context', out.1 = .ok (.guardrailPending, context')) ∧
          ∃ id, w.approvals id = none ∧ out.2.approvals = w.approvals.put id
            { (loopRequest context name toolInput evaluation).instance cfg with id } := by
  intro out
  obtain ⟨events, held, hg, hr, hresult⟩ := loopFrom_governed ans
    (cfg.maxIterations - context.stepCount) context.stepCount context hstatus w
  refine ⟨events, hr.trace, ?_, ?_⟩
  · intro before after origin name toolInput he
    obtain ⟨ho, content, evaluation, hlast, hp, hj, hpass⟩ := hg.called he
    exact ⟨ho, content, evaluation, hlast, hp, hj, hpass, hj.not_blocked hpass⟩
  · intro before after content name toolInput evaluation he hp hj hm hlevel
    have hh : Holds cfg context.input content ⟨name, toolInput, evaluation⟩ := by
      refine ⟨hp, hj, ?_, ?_⟩
      · rintro (hm' | h0 | h1)
        · exact nomatch hm.symm.trans hm'
        · rw [h0] at hlevel
          exact absurd hlevel (by decide)
        · rw [h1] at hlevel
          exact absurd hlevel (by decide)
      · intro h4
        dsimp only at h4
        rw [h4] at hlevel
        exact absurd hlevel (by decide)
    obtain ⟨hafter, rfl⟩ := hg.ends_held he hh
    obtain ⟨id, hid, hput⟩ := hr.stored
    refine ⟨hafter, hresult.mp rfl, id, ?_, congrArg Ledger.approvals hput⟩
    cases hrow : w.approvals id with
    | none => rfl
    | some row => exact absurd (hk.approvals id row hrow).2 (Nat.not_lt.mpr hid)

/-- A model that proposes the same call forever. -/
def Answers.insisting : Answers :=
  { Answers.small with chat := fun _ => .ok smallProposal.render }

/-- A fresh run that may call `mail__send`. -/
def freshContext : LoopContext :=
  let input : ExecutorInput :=
    { workspaceId := 1, agentId := 2, rawInput := "go", allowedTools := ["mail__send"] }
  input.context input.row

/-- The proposal of an L3 call stops the loop of a fresh run with an approval for it. -/
theorem loop_denies_by_default_fresh :
    (∃ context', ((runLoop .small freshContext).run (exec .insisting) .empty).1 =
        .ok (.guardrailPending, context')) ∧
      ∃ id row, ((runLoop .small freshContext).run (exec .insisting) .empty).2.approvals id =
        some row := by
  obtain ⟨events, htrace, -, hheld⟩ := loop_denies_by_default .small .insisting freshContext .empty
    empty_keyed (.inl rfl)
  have hevents : events = [] ++ .chat (.ok smallProposal.render) :: [] := htrace.symm
  obtain ⟨-, hresult, id, -, hput⟩ := hheld [] [] smallProposal.render "mail__send" .empty
    { matched := true, ruleId := some "r1", ruleName := some "hold", riskLevel := "L3"
      action := { type := .approve, blocked := false, escalated := true } } hevents
    ⟨none, .obj [("type", .str "tool_call"), ("toolName", .str "mail__send")], rfl, rfl⟩
    ⟨by decide, by decide, rfl⟩ rfl (.inr rfl)
  exact ⟨hresult, id, _, (congrFun hput id).trans (Table.put_self ..)⟩

end NexusClaw.Governance
