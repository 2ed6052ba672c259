import NexusClaw.AgentRuntime.Passes
import NexusClaw.AgentRuntime.Closing

/-!
# The tokens of a run

The loop adds the tokens of its replies up in local variables and puts them into the step that ends a
pass. `Tally` keeps the replies of a run and those of them whose pass is taken again with a cropped
prompt, which no step records. The main result is the balance of every run without initial steps.
-/

namespace NexusClaw.AgentRuntime
open Concurrent
open Governance (Id)

/-! ## Sums -/

/-- The totals of the closeout. -/
def used (steps : List ReActStepData) : TokensUsed where
  input := (steps.map (·.tokensUsed.input)).sum
  output := (steps.map (·.tokensUsed.output)).sum

/-- The tokens of some replies. -/
def reported (responses : List ChatResponse) : TokensUsed where
  input := (responses.map (·.inputTokens)).sum
  output := (responses.map (·.outputTokens)).sum

def TokensUsed.total (t : TokensUsed) : Nat :=
  t.input + t.output

section sums
variable (a b : TokensUsed)

/-- Two counts are the same if both of their parts are. -/
@[ext] lemma TokensUsed.ext {a b : TokensUsed} (hinput : a.input = b.input)
    (houtput : a.output = b.output) : a = b := by
  cases a
  cases b
  cases hinput
  cases houtput
  rfl

/-- No tokens were read. -/
@[simp] lemma TokensUsed.zero_input : (0 : TokensUsed).input = 0 := rfl

/-- None were written. -/
@[simp] lemma TokensUsed.zero_output : (0 : TokensUsed).output = 0 := rfl

/-- The tokens read add up. -/
@[simp] lemma TokensUsed.add_input : (a + b).input = a.input + b.input := rfl

/-- So do those written. -/
@[simp] lemma TokensUsed.add_output : (a + b).output = a.output + b.output := rfl

/-- No steps used no tokens. -/
@[simp] lemma used_nil : used [] = 0 := rfl

/-- No replies report none. -/
@[simp] lemma reported_nil : reported [] = 0 := rfl

/-- What one more step used. -/
lemma used_concat (steps : List ReActStepData) (step : ReActStepData) :
    used (steps ++ [step]) = used steps + step.tokensUsed := by
  apply TokensUsed.ext
  · simp [used]
  · simp [used]

/-- What one more reply reports. -/
lemma reported_concat (responses : List ChatResponse) (r : ChatResponse) :
    reported (responses ++ [r]) = reported responses + r.tokens := by
  apply TokensUsed.ext
  · simp [reported, ChatResponse.tokens]
  · simp [reported, ChatResponse.tokens]

/-- Nothing is reported if no reply reports anything. -/
lemma reported_eq_zero {responses : List ChatResponse} :
    reported responses = 0 ↔ ∀ r ∈ responses, r.tokens = 0 := by
  induction responses with
  | nil => simp
  | cons r rs ih =>
    rw [List.forall_mem_cons, ← ih]
    constructor
    · intro h
      have hinput := congrArg TokensUsed.input h
      have houtput := congrArg TokensUsed.output h
      simp only [reported, List.map_cons, List.sum_cons, TokensUsed.zero_input,
        TokensUsed.zero_output, Nat.add_eq_zero_iff] at hinput houtput
      exact ⟨TokensUsed.ext hinput.1 houtput.1, TokensUsed.ext hinput.2 houtput.2⟩
    · intro ⟨hr, hrs⟩
      have hinput := congrArg TokensUsed.input hr
      have houtput := congrArg TokensUsed.output hr
      have hinputs := congrArg TokensUsed.input hrs
      have houtputs := congrArg TokensUsed.output hrs
      apply TokensUsed.ext
      · show r.inputTokens + _ = 0
        exact Nat.add_eq_zero_iff.2 ⟨hinput, hinputs⟩
      · show r.outputTokens + _ = 0
        exact Nat.add_eq_zero_iff.2 ⟨houtput, houtputs⟩

end sums

/-! ## The tally of a run -/

/-- The prompt has sections that a crop can drop. -/
def croppable (cfg : Config) (agentPrompt : Option String) : Bool :=
  ((nonEmpty agentPrompt).bind fun prompt => nonEmpty (cfg.recompose prompt)).isSome

/-- The replies of a run, and those whose pass was taken again. `cropped` says that the prompt was
cropped, `built` that the messages of the pass were. -/
structure Tally where
  responses : List ChatResponse := []
  dropped : List ChatResponse := []
  cropped : Bool := false
  built : Bool := false

/-- A reply within the limit of a step that takes the run over its tokens while there is a prompt to
crop that was not cropped before. -/
def Tally.drops (constraints : Constraints) (sections : Bool) (m : Tally) (r : ChatResponse) :
    Bool :=
  !constraints.maxStepTokens.any (fun (limit : Int) => limit < r.total) &&
    constraints.maxTokens < ((reported m.responses + r.tokens).total : Int) && sections &&
    !m.cropped

def Tally.note (constraints : Constraints) (sections : Bool) (m : Tally) :
    (s : Stmt) → s.Resp → Tally
  | .now, _ => { m with built := false }
  -- messages that are built twice in a pass are built for a cropped prompt
  | .getActiveText _, .ok _ => { m with built := true, cropped := m.cropped || m.built }
  | .chat .reactModelCall _ _ _, .ok r =>
    if m.drops constraints sections r then
      { m with
        responses := m.responses ++ [r]
        dropped := m.dropped ++ [r]
        cropped := true }
    else { m with responses := m.responses ++ [r] }
  | .chat _ _ _ _, .ok r => { m with responses := m.responses ++ [r] }
  | _, _ => m

/-- What a reply adds to the tally. -/
lemma note_reply {constraints : Constraints} {sections : Bool} {m : Tally}
    {messages : List ChatMessage} {maxTokens : Option Int} {tier : Nat} {r : ChatResponse} :
    Tally.note constraints sections m (.chat .reactModelCall messages maxTokens tier) (.ok r) =
      if m.drops constraints sections r then
        { m with
          responses := m.responses ++ [r]
          dropped := m.dropped ++ [r]
          cropped := true }
      else { m with responses := m.responses ++ [r] } := rfl

/-- The tally of a history. -/
def tally (constraints : Constraints) (sections : Bool) (h : History Stmt Stmt.Resp) : Tally :=
  bookkeeping (Tally.note constraints sections) {} h

/-! ## The balance -/

/-- The books of a pass with the tokens `t` in hand. -/
structure Balanced (loop : Loop) (sections : Bool) (m : Tally) (s : LoopState) (t : TokensUsed) :
    Prop where
  balance : reported m.responses = used s.steps + t + reported m.dropped
  total : s.totalTokens = (reported m.responses).total
  crop : (cropPrompt loop s).isSome = (sections && !m.cropped)

section balanced
variable {loop : Loop} {sections : Bool} {m : Tally} {s : LoopState} {t : TokensUsed}

/-- A prompt that is not cropped is not cropped later. -/
lemma cropPrompt_keep (h : cropPrompt loop s = none) :
    cropPrompt loop (s.cropped none) = none := by
  unfold cropPrompt LoopState.cropped at *
  cases htried : s.hasTriedSectionCrop with
  | true => rfl
  | false =>
    rw [htried] at h
    have hnone : ((nonEmpty s.agentPrompt).bind fun prompt =>
        nonEmpty (loop.cfg.recompose prompt)) = none := h
    cases hprompt : (nonEmpty s.agentPrompt).isSome with
    | true => simp
    | false => simpa [hprompt] using hnone

/-- A cropped prompt is not cropped again. -/
lemma cropPrompt_cropped {trimmed : String} (h : cropPrompt loop s = some trimmed) :
    cropPrompt loop (s.cropped (some trimmed)) = none := by
  obtain ⟨_, hprompt⟩ := cropPrompt_some h
  unfold cropPrompt LoopState.cropped
  simp [hprompt]

/-- The balance stays if nothing is cropped. -/
lemma Balanced.keep (h : Balanced loop sections m s t) (hcrop : cropPrompt loop s = none) :
    Balanced loop sections m (s.cropped none) t := by
  refine ⟨h.balance, h.total, ?_⟩
  rw [cropPrompt_keep hcrop, ← h.crop, hcrop]

/-- A crop. -/
lemma Balanced.crops (h : Balanced loop sections m s t) {trimmed : String}
    (hcrop : cropPrompt loop s = some trimmed) :
    Balanced loop sections { m with cropped := true } (s.cropped (some trimmed)) t := by
  refine ⟨h.balance, h.total, ?_⟩
  rw [cropPrompt_cropped hcrop]
  show false = (sections && !true)
  rw [Bool.not_true, Bool.and_false]

/-- One more reply. -/
lemma Balanced.receive (h : Balanced loop sections m s t) (r : ChatResponse) :
    Balanced loop sections { m with responses := m.responses ++ [r] } (s.spend r.total)
      (t + r.tokens) := by
  have hbalance := h.balance
  refine ⟨?_, ?_, h.crop⟩
  · show reported (m.responses ++ [r]) = used s.steps + (t + r.tokens) + reported m.dropped
    rw [reported_concat, hbalance]
    apply TokensUsed.ext
    · simp only [TokensUsed.add_input]
      omega
    · simp only [TokensUsed.add_output]
      omega
  · show s.totalTokens + r.total = (reported (m.responses ++ [r])).total
    rw [reported_concat, h.total]
    simp only [TokensUsed.total, TokensUsed.add_input, TokensUsed.add_output, ChatResponse.total,
      ChatResponse.tokens]
    omega

/-- A reply that no step will record. -/
lemma Balanced.drop (h : Balanced loop sections m s t) (r : ChatResponse) :
    Balanced loop sections
      { m with responses := m.responses ++ [r], dropped := m.dropped ++ [r] } (s.spend r.total)
      t := by
  have hreceive := h.receive r
  refine ⟨?_, hreceive.total, hreceive.crop⟩
  have hbalance := hreceive.balance
  show reported (m.responses ++ [r]) = used s.steps + t + reported (m.dropped ++ [r])
  rw [reported_concat m.dropped, show reported (m.responses ++ [r]) = _ from hbalance]
  show used s.steps + (t + r.tokens) + reported m.dropped = _
  apply TokensUsed.ext
  · simp only [TokensUsed.add_input]
    omega
  · simp only [TokensUsed.add_output]
    omega

/-- The step of a pass takes all the tokens in hand. -/
lemma Balanced.push (h : Balanced loop sections m s t) {step : ReActStepData}
    (htokens : step.tokensUsed = t) : Balanced loop sections m (s.push step) 0 := by
  refine ⟨?_, h.total, h.crop⟩
  show _ = used (s.steps ++ [step]) + 0 + reported m.dropped
  rw [h.balance, used_concat, htokens]
  apply TokensUsed.ext
  · simp
  · simp

/-- The tally and the loop agree on what is dropped. -/
lemma Balanced.drops_iff (h : Balanced loop sections m s t) (r : ChatResponse) :
    m.drops loop.context.constraints sections r = true ↔ loop.crops (s.spend r.total) r := by
  have htotal : (s.spend r.total).totalTokens = (reported m.responses + r.tokens).total := by
    have hreceived := (h.receive r).total
    rw [hreceived]
    show (reported (m.responses ++ [r])).total = _
    rw [reported_concat]
  have hcrop : (cropPrompt loop (s.spend r.total)).isSome = (sections && !m.cropped) := h.crop
  unfold Tally.drops Loop.crops
  rw [hcrop, htotal]
  simp only [Bool.and_eq_true, Bool.not_eq_true', decide_eq_true_eq]
  exact ⟨fun ⟨⟨⟨ha, hb⟩, hc⟩, hd⟩ => ⟨ha, hb, hc, hd⟩,
    fun ⟨ha, hb, hc, hd⟩ => ⟨⟨⟨ha, hb⟩, hc⟩, hd⟩⟩

end balanced

/-! ## Every run -/

section frame
variable (loop : Loop) (sections : Bool)

/-- The books along the passes of the loop. -/
lemma balanced_frame :
    PassFrame (Tally.note loop.context.constraints sections) (fun _ _ => True) loop
      (fun m s => Balanced loop sections m s 0)
      (fun m s => Balanced loop sections m s 0 ∧ m.built = false)
      (fun m s t _ => Balanced loop sections m s t ∧ m.built = true) (fun _ => True) where
  early_thrown _ _ _ := trivial
  inside_thrown _ _ _ _ _ := trivial
  now m s h _ := by
    refine tracked_await.2 ⟨trivial, fun r => ?_⟩
    cases r with
    | ok now => exact ⟨⟨h.balance, h.total, h.crop⟩, rfl⟩
    | error e => exact trivial
  iteration m s i h := by
    refine tracked_await.2 ⟨trivial, fun r => ?_⟩
    cases r with
    | ok allowed => exact h
    | error e => exact trivial
  build m s h := by
    refine tracked_await.2 ⟨trivial, fun r => ?_⟩
    cases r with
    | error e => exact trivial
    | ok text =>
      refine ⟨⟨h.1.balance, h.1.total, ?_⟩, rfl⟩
      show _ = (sections && !(m.cropped || m.built))
      rw [h.2, Bool.or_false]
      exact h.1.crop
  crop m s trimmed h hcrop := by
    refine tracked_await.2 ⟨trivial, fun r => ?_⟩
    cases r with
    | error e => exact trivial
    | ok text =>
      have hcropped := h.1.crops hcrop
      refine ⟨⟨hcropped.balance, hcropped.total, ?_⟩, rfl⟩
      show _ = (sections && !(m.cropped || m.built))
      rw [h.2, Bool.or_true]
      exact hcropped.crop
  keep m s t b h hcrop := ⟨h.1.keep hcrop, h.2⟩
  reply m s messages maxTokens tier h := by
    refine ⟨trivial, fun e => h, fun r => ⟨fun hno => ?_, fun trimmed hcrops hsome => ?_⟩⟩
    -- a reply that crops nothing is counted in the step
    · have hdrops : m.drops loop.context.constraints sections r = false := by
        rw [← Bool.not_eq_true, h.1.drops_iff r]
        exact hno
      have hreceive := h.1.receive r
      rw [note_reply, hdrops]
      refine ⟨⟨?_, hreceive.total, hreceive.crop⟩, h.2⟩
      have hbalance := hreceive.balance
      rw [show (0 : TokensUsed) + r.tokens = r.tokens from
        TokensUsed.ext (Nat.zero_add _) (Nat.zero_add _)] at hbalance
      exact hbalance
    · have hdrops := (h.1.drops_iff r).2 hcrops
      rw [note_reply, if_pos hdrops]
      exact (h.1.drop r).crops hsome
  more m s t purpose messages maxTokens tier h hpurpose := by
    refine ⟨trivial, fun e => ?_, fun r => ?_⟩
    · rcases hpurpose with rfl | rfl
      · exact h
      · exact h
    · rcases hpurpose with rfl | rfl
      · exact ⟨h.1.receive r, h.2⟩
      · exact ⟨h.1.receive r, h.2⟩
  count m s t digest h := ⟨⟨h.1.balance, h.1.total, h.1.crop⟩, h.2⟩
  propose m s t digest toolName action h _ := by
    refine tracked_await.2 ⟨trivial, fun r => ?_⟩
    cases r with
    | ok call => exact ⟨⟨h.1.balance, h.1.total, h.1.crop⟩, h.2⟩
    | error e => exact trivial
  rules m s t ids h := ⟨trivial, fun r => h⟩
  tool m s t invocation toolName input h := by
    have huses : (executeToolWithRetry loop.cfg invocation toolName input loop.context).Uses
        (Stmt.Gating loop.execution) := executeToolWithRetry_gating ..
    exact tracked_gating huses h
      (fun m s r hs hm => ⟨trivial, by cases s <;> first | exact hs.elim | exact hm⟩)
      fun _ _ => trivial
  suspend m s t h :=
    tracked_gating handleStateTransition_gating h
      (fun m s r hs hm => ⟨trivial, by cases s <;> first | exact hs.elim | exact hm⟩)
      fun _ _ => trivial
  ask m s t request h hid hworkspace := by
    have hbooks : Tracked (Tally.note loop.context.constraints sections) (fun _ _ => True)
        (Upon (fun m' _ => Balanced loop sections m' s t ∧ m'.built = true) fun _ => True) m
        (createAgentApproval loop.cfg request) :=
      tracked_gating (createAgentApproval_gating hid hworkspace) h
        (fun m s r hs hm => ⟨trivial, by cases s <;> first | exact hs.elim | exact hm⟩)
        fun _ _ => trivial
    refine hbooks.post fun m r hr => ?_
    cases r with
    | ok id => exact ⟨⟨hr.1.balance, hr.1.total, hr.1.crop⟩, hr.2⟩
    | error e => exact trivial
  record m s t b step h _ htokens _ := by
    refine ⟨trivial, fun r => ?_⟩
    cases r with
    | ok _ => exact h.1.push htokens
    | error e => exact trivial
  recordEarly m s step h _ htokens := by
    refine ⟨trivial, fun r => ?_⟩
    cases r with
    | ok _ => exact h.1.push htokens
    | error e => exact trivial
  event m s h := ⟨trivial, fun r => h⟩

end frame

/-- A call of the loop without initial steps keeps its books. -/
lemma runReActLoop_balanced {cfg : Config} {execution : AgentExecution} {context : ExecutionContext}
    {agentPrompt : Option String} {forceTier : Option Nat} :
    Tracked (Tally.note context.constraints (croppable cfg agentPrompt)) (fun _ _ => True)
      (Upon (fun m s => reported m.responses = used s.steps + reported m.dropped) fun _ => True)
      {} (runReActLoop cfg execution context agentPrompt forceTier []) := by
  refine tracked_await_bind.2 ⟨trivial, fun now => ?_, fun _ => trivial⟩
  have hstart : Balanced (loopOf cfg execution context forceTier now) (croppable cfg agentPrompt)
      {} (initialState execution agentPrompt []) 0 := by
    refine ⟨rfl, rfl, ?_⟩
    rw [Bool.not_false, Bool.and_true]
    rfl
  refine ((balanced_frame (loopOf cfg execution context forceTier now) _).reactLoop hstart).post
    fun m r hr => ?_
  cases r with
  | error e => exact trivial
  | ok s =>
    have hbalance : reported m.responses = used s.steps + 0 + reported m.dropped := hr.balance
    show reported m.responses = _
    rw [hbalance]
    apply TokensUsed.ext
    · simp
    · simp

/-- In every interleaving of any number of calls of the loop without initial steps: the totals of the
returned steps are those of all replies if and only if every dropped reply reports no tokens. -/
theorem tokens_accounted {ι : Type} [DecidableEq ι] (cfg : Config) (ans : Answers) (w : World)
    (execution : ι → AgentExecution) (context : ι → ExecutionContext)
    (agentPrompt : ι → Option String) (forceTier : ι → Option Nat) (sched : List ι) :
    let c := (Pool.start w fun i =>
      runReActLoop cfg (execution i) (context i) (agentPrompt i) (forceTier i) []).play
      (exec ans) sched
    ∀ i s, c.thread i = .ret s →
      let books := tally (context i).constraints (croppable cfg (agentPrompt i)) (c.seen i)
      used s.steps = reported books.responses ↔ ∀ r ∈ books.dropped, r.tokens = 0 := by
  intro c i s hs books
  have hbalance : reported books.responses = used s.steps + reported books.dropped :=
    Tracked.returned (p := fun i =>
      runReActLoop cfg (execution i) (context i) (agentPrompt i) (forceTier i) [])
      runReActLoop_balanced hs
  rw [← reported_eq_zero]
  constructor
  -- the tokens of the dropped replies make up the difference
  · intro heq
    rw [← heq] at hbalance
    apply TokensUsed.ext
    · have hinput := congrArg TokensUsed.input hbalance
      simp only [TokensUsed.add_input] at hinput
      show _ = 0
      omega
    · have houtput := congrArg TokensUsed.output hbalance
      simp only [TokensUsed.add_output] at houtput
      show _ = 0
      omega
  · intro hzero
    rw [hbalance, hzero]
    apply TokensUsed.ext
    · simp
    · simp

/-! ### A run that drafts and finishes -/

/-- A reply that asks for a generation. -/
def draft : ParsedReply where
  thought := { reasoning := "", plan := "", confidence := 1 }
  type := some (.str "llm_generate")
  toolName := none
  toolInput := none
  generatePrompt := some (.str "Draft a greeting")

/-- A deployment that reads drafts and greetings, and whose prompts can be cropped. -/
def Config.writing : Config :=
  { Config.small greeting with
    readReply := fun text => some (if text = "draft" then draft else greeting)
    recompose := fun _ => some "Rules" }

/-- The model drafts, generates 3000 tokens and then replies with `outputTokens` tokens. -/
def Answers.drafting (outputTokens : Nat) : Answers :=
  { Answers.smooth fun _ => 0 with
    chat := fun n =>
      { content := if n = 4 then "draft" else "greet"
        model := "m"
        inputTokens := if n = 4 then 500 else 0
        outputTokens := if n = 4 then 0 else if n = 5 then 3000 else outputTokens
        finishReason := "stop" } }

/-- The context of the clerk's errand. -/
def errandContext : ExecutionContext :=
  contextFor clerk 1 7 3 (.agent, 2) (.own none) none [] []

/-- The loop of the errand. -/
def draftedWith (outputTokens : Nat) : Pool Stmt Stmt.Resp String LoopState World Unit :=
  (Pool.start (World.fresh [clerk] [] []) fun _ =>
    runReActLoop Config.writing errand errandContext (some "Style\nRules") none []).play
    (exec (Answers.drafting outputTokens)) (List.replicate 16 ())

/-- The replies that the loop of the errand has received. -/
def draftedReplies (outputTokens : Nat) : Tally :=
  tally errandContext.constraints (croppable Config.writing (some "Style\nRules"))
    ((draftedWith outputTokens).seen ())

/-- A short second reply fits, and all tokens are in the steps. -/
theorem draft_tokens_accounted :
    ∃ s, (draftedWith 100).thread () = .ret s ∧
      used s.steps = reported (draftedReplies 100).responses := by
  have hended : ((draftedWith 100).thread ()).result?.isSome = true := by decide +kernel
  have hdropped : (draftedReplies 100).dropped.length = 0 := by decide +kernel
  obtain ⟨s, hs⟩ := Option.isSome_iff_exists.mp hended
  have hret := Prog.result?_eq_some hs
  refine ⟨s, hret, (tokens_accounted Config.writing (Answers.drafting 100)
    (World.fresh [clerk] [] []) (fun _ : Unit => errand) (fun _ => errandContext)
    (fun _ => some "Style\nRules") (fun _ => none) (List.replicate 16 ()) () s hret).2 ?_⟩
  intro r hr
  have hmem : r ∈ (draftedReplies 100).dropped := hr
  rw [List.eq_nil_of_length_eq_zero hdropped] at hmem
  cases hmem

/-- A second reply of 1000 tokens is within the limit of a step and takes the run over its 4096: the
prompt is cropped and the pass taken again, and the 1000 tokens are in no step. -/
theorem cropped_tokens_lost :
    ∃ s, (draftedWith 1000).thread () = .ret s ∧
      used s.steps ≠ reported (draftedReplies 1000).responses := by
  have hused : ((draftedWith 1000).thread ()).result?.map (fun s => used s.steps) =
      some { input := 500, output := 3000 } := by decide +kernel
  have hreported : reported (draftedReplies 1000).responses =
      { input := 500, output := 4000 } := by decide +kernel
  obtain ⟨s, hs, hsteps⟩ := Option.map_eq_some_iff.mp hused
  refine ⟨s, Prog.result?_eq_some hs, ?_⟩
  rw [hsteps, hreported]
  decide

end NexusClaw.AgentRuntime
