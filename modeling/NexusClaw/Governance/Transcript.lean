import NexusClaw.Governance.PausedCall
import NexusClaw.Governance.StepBudget

/-!
# The transcript after a pause

`resumePaused` rebuilds the messages of the loop from the persisted steps. `Paused` are the loops
that stopped at a call that waits, with the messages they held; `pausedAt_of_paused` says what these
are, and `transcript_rebuilt` when the rebuilt messages are the same. The live loop adds the
observation of an executed call twice, a blocked call is stored with an output that is not `null`,
and the plan of an approved call is not rebuilt, so they are the same only before the first step.
-/

namespace NexusClaw.Governance
open Concurrent

/-- A loop of the execution `e` paused in the world `w` and held the context `live`. -/
inductive Paused (cfg : Config) (ans : Answers) (e : Id) : World → LoopContext → Prop where
  | run {w w' : World} {input : ExecutorInput} {live : LoopContext} (key : w.clock = e)
      (fresh : w.stepsOf e = [])
      (paused : (beginRun input >>= runLoop cfg).run (exec ans) w =
        (.ok (.guardrailPending, live), w')) : Paused cfg ans e w' live
  | resume {w w₁ w' : World} {input : ResumeInput} {before live : LoopContext}
      (earlier : Paused cfg ans e w before) (idle : Between e w w₁)
      (target : input.executionId = e)
      (paused : (beginResume cfg input >>= fun begun => runLoop cfg begun.2).run (exec ans) w₁ =
        (.ok (.guardrailPending, live), w')) : Paused cfg ans e w' live

/-- The first message of a transcript. -/
def userMessage (row : AgentExecution) : ChatMessage where
  role := "user"
  content := row.rawInput

/-- What a paused loop holds: the blocks of the steps it persisted, after what a resume rebuilt of
the earlier ones and added for the approved call. -/
inductive Transcript (cfg : Config) (row : AgentExecution) :
    List ReactStep → List ChatMessage → Prop where
  | first {rows : List ReactStep} {blocks : List (List ChatMessage)}
      (adds : List.Forall₂ (Block cfg) rows blocks) :
      Transcript cfg row rows (userMessage row :: blocks.flatten)
  | resumed {old rows : List ReactStep} {step : ReactStep} {action : Json}
      {observation : ChatMessage} {more : List ChatMessage}
      (reasoning : step.thoughtReasoning = some (.str "approved resume")) :
      Transcript cfg row (old ++ step :: rows)
        (userMessage row :: (old.flatMap (·.messages cfg) ++
          assistantMessage cfg (some approvedThought) action :: observation :: more))

/-- A paused loop, its row, and its steps in order. -/
structure PausedAt (cfg : Config) (e : Id) (w : World) (live : LoopContext) : Prop where
  indices : (w.stepsOf e).map (·.stepIndex) = List.range (w.stepsOf e).length
  row : ∃ row, w.executions e = some row ∧ row.id = e ∧
    Transcript cfg row (w.stepsOf e) live.messages

section paused
variable {cfg : Config} {ans : Answers} {e : Id} {w w' : World} {live : LoopContext}

/-- Steps that are numbered in order are read as they were persisted. -/
lemma persisted_eq (h : (w.stepsOf e).map (·.stepIndex) = List.range (w.stepsOf e).length) :
    w.persisted e = w.stepsOf e := by
  have hsorted : ((w.stepsOf e).map (·.stepIndex)).Pairwise (· ≤ ·) := by
    rw [h]
    exact List.pairwise_le_range
  rw [List.pairwise_map] at hsorted
  exact List.Pairwise.insertionSort_eq hsorted

/-- A transcript is told again from the stored steps. -/
lemma Transcript.retell {row row' : AgentExecution} {rows : List ReactStep}
    {messages : List ChatMessage} (h : Transcript cfg row rows messages)
    (hraw : row'.rawInput = row.rawInput) : Transcript cfg row' rows messages := by
  have huser : userMessage row' = userMessage row := by rw [userMessage, userMessage, hraw]
  cases h with
  | first adds =>
    rw [← huser]
    exact .first adds
  | resumed reasoning =>
    rw [← huser]
    exact .resumed reasoning

/-- A loop that pauses, from a context whose execution has a row and numbered steps. -/
lemma runLoop_paused {context : LoopContext} {w₁ : World} {row₁ : AgentExecution}
    (hstatus : context.execution.status = .pending ∨ context.execution.status = .running)
    (hid : context.execution.id = e) (hcount : (w₁.stepsOf e).length = context.stepCount)
    (hindices : (w₁.stepsOf e).map (·.stepIndex) = List.range (w₁.stepsOf e).length)
    (hrow₁ : w₁.executions e = some row₁)
    (h : (runLoop cfg context).run (exec ans) w₁ = (.ok (.guardrailPending, live), w')) :
    ∃ rows blocks row', w'.stepsOf e = w₁.stepsOf e ++ rows ∧
      (w'.stepsOf e).map (·.stepIndex) = List.range (w'.stepsOf e).length ∧
      List.Forall₂ (Block cfg) rows blocks ∧ live.messages = context.messages ++ blocks.flatten ∧
      w'.executions e = some row' ∧ row'.id = row₁.id ∧ row'.rawInput = row₁.rawInput := by
  obtain ⟨rows, chats, hloop⟩ := runLoop_looped cfg ans context hstatus w₁
  rw [h] at hloop
  obtain ⟨row', hrow', hkey, hraw, -⟩ := hloop.ending.row hid hrow₁
  have hsteps := hloop.recorded.steps
  rw [hid] at hsteps
  cases hloop.ending with
  | @paused live blocks asked waits adds messages =>
    refine ⟨rows, blocks, row', hsteps, ?_, adds, messages, hrow', hkey, hraw⟩
    rw [hsteps]
    exact indices_append hindices (by rw [hloop.indices, hcount])
  | ended ends kept => exact absurd rfl (ends live)

/-- A paused loop is paused at its execution. -/
lemma pausedAt_of_paused (h : Paused cfg ans e w live) : PausedAt cfg e w live := by
  -- induction on the runs and resumes that led to the pause
  induction h with
  | @run w w' input live key fresh paused =>
    subst key
    obtain ⟨w₁, hbegin, hsteps₁, -, hexec₁⟩ := beginRun_run ans input fresh
    rw [Prog.run_bind_ok _ hbegin] at paused
    have hrow₁ : w₁.executions w.clock = some (input.row.at w.clock) := by
      rw [hexec₁, Table.put_self]
    have hid : (input.context (input.row.at w.clock)).execution.id = w.clock := rfl
    have hindices₁ : (w₁.stepsOf w.clock).map (·.stepIndex) =
        List.range (w₁.stepsOf w.clock).length := by
      rw [hsteps₁]
      rfl
    have hcount : (w₁.stepsOf w.clock).length =
        (input.context (input.row.at w.clock)).stepCount := by
      rw [hsteps₁]
      rfl
    obtain ⟨rows, blocks, row', hsteps, hindices, hadds, hmessages, hrow', hkey, hraw⟩ :=
      runLoop_paused (.inl rfl) hid hcount hindices₁ hrow₁ paused
    refine ⟨hindices, row', hrow', hkey, ?_⟩
    rw [hsteps, hsteps₁, List.nil_append, hmessages]
    exact (Transcript.first hadds).retell hraw
  | @resume w w₁ w' input before live earlier idle target paused ih =>
    subst target
    obtain ⟨hindices, row, hrow, hkey, -⟩ := ih
    have hkeys : ∀ row₁, w₁.executions input.executionId = some row₁ →
        row₁.id = input.executionId := by
      intro row₁ hrow₁
      obtain ⟨row₀, hrow₀, hid, -, -⟩ := idle.row row₁ hrow₁
      cases hrow.symm.trans hrow₀
      exact hid.trans hkey
    have hresumed := beginResume_resumed ans cfg input hkeys
    rcases hbegin : (beginResume cfg input).run (exec ans) w₁ with ⟨r, w₂⟩
    rw [hbegin] at hresumed
    cases hresumed with
    | refused same =>
      rw [Prog.run_bind_error _ hbegin] at paused
      cases paused
    | threw found waits recorded running =>
      rw [Prog.run_bind_error _ hbegin] at paused
      cases paused
    | @begun row₁ context step action observation found waits recorded index reasoning running
        execution count messages =>
      rw [Prog.run_bind_ok _ hbegin] at paused
      have hkey₁ := hkeys row₁ found
      rw [hkey₁] at recorded running
      have hindices₁ := idle.steps ▸ hindices
      obtain ⟨hindices₂, hcount₂⟩ := begun_steps recorded index count hindices₁
      have hrow₂ : w₂.executions input.executionId =
          some (row₁.patch { status := some .running }) := by
        rw [running, Table.modify_some _ found]
      have hid : context.execution.id = input.executionId := by
        rw [execution]
        exact hkey₁
      obtain ⟨rows, blocks, row', hsteps, hindices', -, hmessages, hrow', hkey', hraw⟩ :=
        runLoop_paused (.inr (by rw [execution])) hid hcount₂ hindices₂ hrow₂ paused
      refine ⟨hindices', row', hrow', hkey'.trans hkey₁, ?_⟩
      have hold := persisted_eq hindices₁
      have hmore : live.messages = userMessage row₁ ::
          ((w₁.stepsOf input.executionId).flatMap (·.messages cfg) ++
            assistantMessage cfg (some approvedThought) action :: observation ::
              blocks.flatten) := by
        rw [hmessages, messages, hold]
        simp [resumeContext, userMessage]
      rw [hsteps, recorded.steps, List.append_assoc, hmore]
      exact (Transcript.resumed reasoning).retell hraw

end paused

/-! ## What is rebuilt -/

section rebuilt
variable {cfg : Config} {fmt : Json.NumberFormat} {rows : List ReactStep}
  {blocks : List (List ChatMessage)}

/-- Two values with one text are the same. -/
lemma stringify_inj (cfg : Config) {u v : Json}
    (h : (cfg.speaking fmt).stringify u = (cfg.speaking fmt).stringify v) :
    u.text fmt = v.text fmt :=
  String.ofList_injective h

/-- The observation of a blocked call is a string, the rebuilt one an object. -/
lemma blocked_differs {step : ReactStep} {error : String}
    (houtput : step.observationOutput = .obj [("value", .null)]) :
    observationMessage (cfg.speaking fmt) (some step.observationOutput) step.observationError ≠
      observationMessage (cfg.speaking fmt) (some .null) (some error) := by
  intro h
  rw [houtput] at h
  have hcontent := congrArg ChatMessage.content h
  have htext := stringify_inj cfg ((String.append_right_inj "observation: ").mp hcontent)
  cases htext

/-- The text of a message for an approved call, up to the plan. -/
lemma thought_text (fmt : Json.NumberFormat) : ∃ before : List Char, ∀ plan action, ∃ after,
    (Json.obj [("thought", .obj
        [("reasoning", .str "approved resume"), ("plan", .str plan), ("confidence", .num 1)]),
      ("action", action)]).text fmt = before ++ (Json.quote plan ++ after) := by
  refine ⟨'\x7b' :: (Json.quote "thought" ++ ':' :: '\x7b' :: (Json.quote "reasoning" ++ ':' ::
    (Json.quote "approved resume" ++ ',' :: (Json.quote "plan" ++ [':'])))), ?_⟩
  intro plan action
  refine ⟨Json.textMembers fmt [("confidence", .num 1)] ++
    Json.textMembers fmt [("action", action)], ?_⟩
  simp [Json.text, Json.textMember, Json.textMembers]

/-- The plan of an approved call is not rebuilt. -/
lemma approved_differs {step : ReactStep} {action action' : Json}
    (hreasoning : step.thoughtReasoning = some (.str "approved resume")) :
    assistantMessage (cfg.speaking fmt)
        (some (.obj
          [("reasoning", Json.nullish step.thoughtReasoning (.str "")),
            ("plan", .str ""),
            ("confidence", .num 1)])) action ≠
      assistantMessage (cfg.speaking fmt) (some approvedThought) action' := by
  intro h
  rw [hreasoning] at h
  have htext := stringify_inj cfg (congrArg ChatMessage.content h)
  obtain ⟨before, hbefore⟩ := thought_text fmt
  obtain ⟨after, hrebuilt⟩ := hbefore "" action
  obtain ⟨after', hlive⟩ := hbefore "execute approved tool" action'
  have hplans := List.append_cancel_left (hrebuilt.symm.trans (htext.trans hlive))
  obtain ⟨-, htail⟩ := List.cons.inj hplans
  obtain ⟨hchar, -⟩ := List.cons.inj htail
  cases hchar

/-- Two messages for each step. -/
lemma length_rebuilt (cfg : Config) (rows : List ReactStep) :
    (rows.flatMap (·.messages cfg)).length = 2 * rows.length := by
  induction rows with
  | nil => rfl
  | cons row rows ih =>
    rw [List.flatMap_cons, List.length_append, ih, List.length_cons]
    show 2 + _ = _
    omega

/-- At least two messages for each step. -/
lemma length_blocks (h : List.Forall₂ (Block cfg) rows blocks) :
    2 * rows.length ≤ blocks.flatten.length := by
  induction h with
  | nil => exact Nat.le_refl 0
  | @cons row block rows blocks hblock _ ih =>
    have hlength : 2 ≤ block.length := by
      cases hblock with
      | blocked assistant error output => exact Nat.le_refl 2
      | executed assistant first second => exact Nat.le_succ 2
    rw [List.flatten_cons, List.length_append, List.length_cons]
    omega

/-- The messages of a step are rebuilt for no step. -/
lemma blocks_differ (h : List.Forall₂ (Block (cfg.speaking fmt)) rows blocks)
    (heq : rows.flatMap (·.messages (cfg.speaking fmt)) = blocks.flatten) : rows = [] := by
  cases h with
  | nil => rfl
  | @cons row block rows blocks hblock hrest =>
    cases hblock with
    | blocked assistant error output =>
      rw [List.flatMap_cons, List.flatten_cons] at heq
      obtain ⟨-, htail⟩ := List.cons.inj heq
      obtain ⟨hobservation, -⟩ := List.cons.inj htail
      exact absurd hobservation (blocked_differs output)
    | executed assistant first second =>
      -- The third message of an executed step has no counterpart.
      have hlength := congrArg List.length heq
      have hblocks := length_blocks hrest
      rw [length_rebuilt, List.flatten_cons, List.length_append, List.length_cons] at hlength
      simp only [List.length_cons, List.length_nil] at hlength
      omega

/-- The transcript of a paused loop is the rebuilt one exactly if it has no steps. -/
lemma Transcript.rebuilt {row : AgentExecution} {messages : List ChatMessage}
    (h : Transcript (cfg.speaking fmt) row rows messages) :
    userMessage row :: rows.flatMap (·.messages (cfg.speaking fmt)) = messages ↔ rows = [] := by
  cases h with
  | @first rows blocks adds =>
    constructor
    · intro heq
      exact blocks_differ adds (List.cons.inj heq).2
    · rintro rfl
      cases adds
      rfl
  | @resumed old rows step action observation more reasoning =>
    constructor
    · intro heq
      have htail := (List.cons.inj heq).2
      rw [List.flatMap_append, List.flatMap_cons] at htail
      obtain ⟨hassistant, -⟩ := List.cons.inj (List.append_cancel_left htail)
      exact absurd hassistant (approved_differs reasoning)
    · intro hnil
      cases List.append_eq_nil_iff.mp hnil with
      | intro _ hcons => cases hcons

end rebuilt

/-- The messages that a resume rebuilds are those that the paused loop held exactly if the execution
has no persisted step. -/
theorem transcript_rebuilt (cfg : Config) (fmt : Json.NumberFormat) (ans : Answers) (e : Id)
    (w w₁ : World) (live : LoopContext) (hpaused : Paused (cfg.speaking fmt) ans e w live)
    (hidle : Between e w w₁) (row : AgentExecution) (hrow : w₁.executions e = some row)
    (workspaceId : Id) :
    (resumeContext (cfg.speaking fmt) workspaceId row (w₁.persisted e)).messages = live.messages ↔
      w.stepsOf e = [] := by
  obtain ⟨hindices, row₀, hrow₀, -, htranscript⟩ := pausedAt_of_paused hpaused
  obtain ⟨row₁, hrow₁, -, hraw, -⟩ := hidle.row row hrow
  cases hrow₀.symm.trans hrow₁
  have hsteps : w₁.persisted e = w.stepsOf e := by
    rw [World.persisted, hidle.steps]
    exact persisted_eq hindices
  have hrebuilt := (htranscript.retell hraw).rebuilt
  rw [hsteps]
  exact hrebuilt

/-! ## Two runs -/

/-- The loop of a run, as a pair of its result and the world it leaves. -/
def loopOf (cfg : Config) (ans : Answers) (input : ExecutorInput) :
    Except String (ExecutionStatus × LoopContext) × World :=
  (beginRun input >>= runLoop cfg).run (exec ans) .empty

/-- The loop of a run that paused. -/
lemma loopOf_paused (cfg : Config) (ans : Answers) (input : ExecutorInput) (n : Nat)
    (h : (loopOf cfg ans input).1.map (fun r => (r.1, r.2.messages.length)) =
      .ok (.guardrailPending, n)) :
    ∃ live, Paused cfg ans 0 (loopOf cfg ans input).2 live ∧ live.messages.length = n := by
  rcases hloop : loopOf cfg ans input with ⟨r, w⟩
  rw [hloop] at h
  cases r with
  | error error => cases h
  | ok result =>
    obtain ⟨status, live⟩ := result
    obtain ⟨rfl, rfl⟩ := Prod.mk.inj (Except.ok.inj h)
    exact ⟨live, .run rfl rfl hloop, rfl⟩

/-- The first call of this run waits for an approval. -/
theorem first_call_rebuilt :
    ∃ live row, Paused (Config.small.speaking digits) .proposing 0
        (loopOf (Config.small.speaking digits) .proposing smallInput).2 live ∧
      (resumeContext (Config.small.speaking digits) 1 row
        ((loopOf (Config.small.speaking digits) .proposing smallInput).2.persisted 0)).messages =
          live.messages := by
  obtain ⟨live, hpaused, -⟩ := loopOf_paused (Config.small.speaking digits) .proposing smallInput
    1 (by decide +kernel)
  obtain ⟨row, hrow⟩ := Option.isSome_iff_exists.mp (show ((loopOf (Config.small.speaking digits)
    .proposing smallInput).2.executions 0).isSome = true by decide +kernel)
  have hnone := List.isEmpty_iff.mp (show ((loopOf (Config.small.speaking digits) .proposing
    smallInput).2.stepsOf 0).isEmpty = true by decide +kernel)
  exact ⟨live, row, hpaused, (transcript_rebuilt .small digits .proposing 0 _ _ live hpaused
    (Between.refl 0 _) row hrow 1).mpr hnone⟩

/-- One tool whose calls are let pass, and one whose calls wait. -/
def Config.mixed : Config :=
  { Config.small with
    rules :=
      [{ id := "r1"
         workspaceId := 1
         name := "hold"
         isActive := true
         priority := 0
         conditions := some { operation := some "mail__send" }
         riskLevel := "L3" }]
    tools := ["mail__send", "mail__list"] }

/-- A model that calls the one tool, then the other. -/
def Answers.twice : Answers :=
  { Answers.small with
    chat := fun clock => .ok
      (Json.obj [("action", .obj
        [("type", .str "tool_call"),
          ("toolName", .str (if clock < 3 then "mail__list" else "mail__send"))])]).render }

def mixedInput : ExecutorInput :=
  { smallInput with allowedTools := ["mail__send", "mail__list"] }

/-- A run that executes a call before the one that waits: the loop held four messages, and three are
rebuilt. -/
theorem executed_call_lost :
    ¬ ∀ live row, Paused (Config.mixed.speaking digits) .twice 0
        (loopOf (Config.mixed.speaking digits) .twice mixedInput).2 live →
      (loopOf (Config.mixed.speaking digits) .twice mixedInput).2.executions 0 = some row →
      (resumeContext (Config.mixed.speaking digits) 1 row ((loopOf (Config.mixed.speaking digits)
        .twice mixedInput).2.persisted 0)).messages = live.messages := by
  intro h
  obtain ⟨live, hpaused, hlive⟩ := loopOf_paused (Config.mixed.speaking digits) .twice mixedInput
    4 (by decide +kernel)
  obtain ⟨row, hrow⟩ := Option.isSome_iff_exists.mp (show ((loopOf (Config.mixed.speaking digits)
    .twice mixedInput).2.executions 0).isSome = true by decide +kernel)
  have hone : ((loopOf (Config.mixed.speaking digits) .twice mixedInput).2.persisted 0).length =
      1 := by
    decide +kernel
  have hlength := congrArg List.length (h live row hpaused hrow)
  rw [hlive] at hlength
  have hrebuilt := length_rebuilt (Config.mixed.speaking digits)
    ((loopOf (Config.mixed.speaking digits) .twice mixedInput).2.persisted 0)
  rw [hone] at hrebuilt
  rw [resumeContext, List.length_cons, hrebuilt] at hlength
  cases hlength

end NexusClaw.Governance
