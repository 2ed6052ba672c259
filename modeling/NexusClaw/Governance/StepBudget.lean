import NexusClaw.Governance.LoopSteps

/-!
# Step indices and the budget of iterations

An execution is run once and resumed any number of times, one call after the other. `Session` are
the worlds that such a sequence goes through, with the number of times the model was asked so far;
between the calls anything may happen that neither persists a step of the execution nor moves it to
`guardrail_pending`. `Budget` is what holds in all of them.
-/

namespace NexusClaw.Governance
open Concurrent

/-- What may happen to the execution `e` between two calls for it. -/
structure Between (e : Id) (w w' : World) : Prop where
  steps : w'.stepsOf e = w.stepsOf e
  row : ∀ row', w'.executions e = some row' → ∃ row, w.executions e = some row ∧
    row'.id = row.id ∧ row'.rawInput = row.rawInput ∧
      (row'.status = .guardrailPending → row.status = .guardrailPending)

/-- Nothing happens between a state and itself. -/
lemma Between.refl (e : Id) (w : World) : Between e w w :=
  ⟨rfl, fun row' hrow' => ⟨row', hrow', rfl, rfl, id⟩⟩

/-- What happens between over two parts. -/
lemma Between.trans {e : Id} {a b c : World} (h : Between e a b) (h' : Between e b c) :
    Between e a c where
  steps := h'.steps.trans h.steps
  row := by
    intro row'' hrow''
    obtain ⟨row', hrow', hid', hraw', hwaits'⟩ := h'.row row'' hrow''
    obtain ⟨row, hrow, hid, hraw, hwaits⟩ := h.row row' hrow'
    exact ⟨row, hrow, hid'.trans hid, hraw'.trans hraw, fun hw => hwaits (hwaits' hw)⟩

/-- A statement that works for another execution leaves this one between its calls. -/
lemma exec_between {cfg : Config} (ans : Answers) {e k : Id} (hne : e ≠ k) {s : Stmt}
    (hs : s.worksFor cfg k) (w : World) : Between e w (exec ans s w).1 := by
  have hstay : ∀ w' : World, w'.steps = w.steps → w'.executions e = w.executions e →
      Between e w w' := by
    intro w' hsteps hexec
    refine ⟨by rw [World.stepsOf, hsteps]; rfl, ?_⟩
    intro row' hrow'
    rw [hexec] at hrow'
    exact ⟨row', hrow', rfl, rfl, id⟩
  cases s with
  | createExecution row => exact absurd hs not_false
  | updateExecution key patch =>
    obtain rfl : key = k := hs
    exact hstay _ rfl (Table.modify_of_ne _ _ hne)
  | createStep row =>
    obtain rfl : row.executionId = k := hs
    refine ⟨?_, fun row' hrow' => ⟨row', hrow', rfl, rfl, id⟩⟩
    simp [World.stepsOf, exec, hne.symm]
  | _ => exact hstay _ rfl rfl

/-- So does a program for another execution. -/
lemma run_between {cfg : Config} (ans : Answers) {e k : Id} (hne : e ≠ k) {α : Type} {p : Act α}
    (hp : p.Uses (Stmt.worksFor cfg k)) (w : World) : Between e w (p.run (exec ans) w).2 :=
  hp.run_rel (T := Between e) (Between.refl e) (fun _ _ _ h h' => h.trans h')
    (fun _ w hs => exec_between ans hne hs w) w

/-- What `run` writes after its loop paused leaves the execution as the loop left it. -/
lemma endRun_between (ans : Answers) (input : ExecutorInput) {e : Id} {w : World}
    {row : AgentExecution} (hrow : w.executions e = some row)
    (hwaits : row.status = .guardrailPending) (n : Nat) :
    Between e w ((endRun input e .guardrailPending n).run (exec ans) w).2 := by
  obtain ⟨hsteps, -, hexec⟩ := endRun_world (w := w) ans input e .guardrailPending n
  refine ⟨hsteps, ?_⟩
  intro row' hrow'
  rw [hexec, Table.modify_some _ hrow] at hrow'
  cases hrow'
  exact ⟨row, hrow, rfl, rfl, fun _ => hwaits⟩

/-- A run of the execution `e` and its resumptions led to the world `w`, and the model was asked `n`
times for it. -/
inductive Session (cfg : Config) (ans : Answers) (e : Id) : World → Nat → Prop where
  | run {w : World} {input : ExecutorInput} {n : Nat} (key : w.clock = e)
      (fresh : w.stepsOf e = [])
      (asked : ((run cfg input).run (exec ans) w).2.chats = w.chats + n) :
      Session cfg ans e ((run cfg input).run (exec ans) w).2 n
  | between {w w' : World} {n : Nat} (before : Session cfg ans e w n) (idle : Between e w w') :
      Session cfg ans e w' n
  | resume {w : World} {input : ResumeInput} {n m : Nat} (before : Session cfg ans e w n)
      (target : input.executionId = e)
      (asked : ((resumePaused cfg input).run (exec ans) w).2.chats = w.chats + m) :
      Session cfg ans e ((resumePaused cfg input).run (exec ans) w).2 (n + m)

/-- The steps are numbered from 0 on, neither they nor the model's answers exceed the budget, and an
execution that waits was answered once for each of its steps and once for the call it waits for. -/
structure Budget (cfg : Config) (e : Id) (w : World) (n : Nat) : Prop where
  indices : (w.stepsOf e).map (·.stepIndex) = List.range (w.stepsOf e).length
  steps_le : (w.stepsOf e).length ≤ cfg.maxIterations
  chats_le : n ≤ cfg.maxIterations
  key : ∀ row, w.executions e = some row → row.id = e
  waiting : ∀ row, w.executions e = some row → row.status = .guardrailPending →
    n = (w.stepsOf e).length + 1

section budget
variable {cfg : Config} {ans : Answers} {e : Id} {w w' : World}

/-- Numbers that go on where the others end. -/
lemma indices_append {a b : List ReactStep} (ha : a.map (·.stepIndex) = List.range a.length)
    (hb : b.map (·.stepIndex) = List.range' a.length b.length) :
    (a ++ b).map (·.stepIndex) = List.range (a ++ b).length := by
  have happend := List.range'_append_1 (s := 0) (m := a.length) (n := b.length)
  rw [Nat.zero_add] at happend
  rw [List.map_append, ha, hb, List.length_append, List.range_eq_range', List.range_eq_range',
    happend]

/-- The budget is kept in between. -/
lemma Budget.between {n : Nat} (h : Budget cfg e w n) (idle : Between e w w') :
    Budget cfg e w' n := by
  refine ⟨by rw [idle.steps]; exact h.indices, by rw [idle.steps]; exact h.steps_le, h.chats_le,
    ?_, ?_⟩
  · intro row' hrow'
    obtain ⟨row, hrow, hid, -, -⟩ := idle.row row' hrow'
    exact hid.trans (h.key row hrow)
  · intro row' hrow' hwaits'
    obtain ⟨row, hrow, -, -, hwaits⟩ := idle.row row' hrow'
    rw [idle.steps]
    exact h.waiting row hrow (hwaits hwaits')

/-- The budget after a loop: `rows` and `chats` are the loop's, `k` the steps before it. -/
lemma Budget.of_loop {context : LoopContext} {i remaining n : Nat} {w₁ w₂ : World}
    {r : Except String (ExecutionStatus × LoopContext)} {rows : List ReactStep} {chats : Nat}
    (hid : context.execution.id = e)
    (hloop : Looped cfg context i remaining w₁ w₂ r rows chats)
    (hindices : (w₁.stepsOf e).map (·.stepIndex) = List.range (w₁.stepsOf e).length)
    (hi : (w₁.stepsOf e).length = i) (hasked : n = i)
    (hbudget : i + remaining ≤ cfg.maxIterations) (hsteps : w'.stepsOf e = w₂.stepsOf e)
    (hkey : ∀ row, w'.executions e = some row → row.id = e)
    (hstatus : ∀ row, w'.executions e = some row → row.status = .guardrailPending →
      ∃ live, r = .ok (.guardrailPending, live)) :
    Budget cfg e w' (n + chats) := by
  have hrecorded := hloop.recorded.steps
  rw [hid] at hrecorded
  have hrows := hloop.rows_le
  have hchats := hloop.chats_le
  have hlength : (w'.stepsOf e).length = i + rows.length := by
    rw [hsteps, hrecorded, List.length_append, hi]
  refine ⟨?_, ?_, ?_, hkey, ?_⟩
  · rw [hsteps, hrecorded]
    exact indices_append hindices (by rw [hloop.indices, hi])
  · omega
  · omega
  · intro row hrow hwaits
    obtain ⟨live, rfl⟩ := hstatus row hrow hwaits
    cases hloop.ending with
    | paused asked waits adds messages => omega
    | ended ends kept => exact absurd rfl (ends live)

/-- The row of the execution after a loop: it waits only if the loop paused, or it waited before. -/
lemma Ending.row {r : Except String (ExecutionStatus × LoopContext)} {context : LoopContext}
    {w₁ w₂ : World} {rows : List ReactStep} {chats : Nat}
    (hending : Ending cfg context w₁ w₂ rows chats r) (hid : context.execution.id = e)
    {row₁ : AgentExecution} (hrow₁ : w₁.executions e = some row₁) :
    ∃ row₂, w₂.executions e = some row₂ ∧ row₂.id = row₁.id ∧ row₂.rawInput = row₁.rawInput ∧
      (row₂.status = .guardrailPending →
        row₁.status = .guardrailPending ∨ ∃ live, r = .ok (.guardrailPending, live)) := by
  subst hid
  cases hending with
  | @paused live blocks asked waits adds messages =>
    have hrow₂ := Table.modify_some
      (fun row : AgentExecution => row.patch { status := some .guardrailPending }) hrow₁
    exact ⟨row₁.patch { status := some .guardrailPending }, by rw [waits]; exact hrow₂, rfl, rfl,
      fun _ => .inr ⟨live, rfl⟩⟩
  | ended ends kept => exact ⟨row₁, by rw [kept]; exact hrow₁, rfl, rfl, .inl⟩

/-- The budget after a loop and what a run or a resume does when it has ended. -/
lemma Budget.close (ans : Answers) (context : LoopContext)
    (p : ExecutionStatus × LoopContext → Act AgentExecution) {w₁ : World} {row₁ : AgentExecution}
    (hstatus : context.execution.status = .pending ∨ context.execution.status = .running)
    (hid : context.execution.id = e)
    (hindices : (w₁.stepsOf e).map (·.stepIndex) = List.range (w₁.stepsOf e).length)
    (hcount : (w₁.stepsOf e).length = context.stepCount)
    (hbudget : context.stepCount ≤ cfg.maxIterations)
    (hrow₁ : w₁.executions e = some row₁) (hkey : row₁.id = e)
    (hrunning : row₁.status ≠ .guardrailPending)
    (hend : ∀ status live w₂, ((p (status, live)).run (exec ans) w₂).2.stepsOf e = w₂.stepsOf e ∧
      ((p (status, live)).run (exec ans) w₂).2.chats = w₂.chats ∧
      ((p (status, live)).run (exec ans) w₂).2.executions = w₂.executions.modify e
        (·.patch { status := some status, completedAt := true })) :
    ∃ chats, ((runLoop cfg context >>= p).run (exec ans) w₁).2.chats = w₁.chats + chats ∧
      Budget cfg e ((runLoop cfg context >>= p).run (exec ans) w₁).2
        (context.stepCount + chats) := by
  obtain ⟨rows, chats, hloop⟩ := runLoop_looped cfg ans context hstatus w₁
  refine ⟨chats, ?_⟩
  rw [Prog.run_bind]
  rcases hrun : (runLoop cfg context).run (exec ans) w₁ with ⟨r, w₂⟩
  rw [hrun] at hloop
  obtain ⟨row₂, hrow₂, hkey₂, -, hwaits₂⟩ := hloop.ending.row hid hrow₁
  have hasked := hloop.recorded.chats
  -- a loop that throws leaves its execution running, so nothing awaits a resume
  cases r with
  | error error =>
    refine ⟨hasked, .of_loop hid hloop hindices hcount rfl (by omega) rfl ?_ ?_⟩
    · intro row hrow
      cases hrow₂.symm.trans hrow
      rw [hkey₂, hkey]
    · intro row hrow hwaits
      cases hrow₂.symm.trans hrow
      obtain hbefore | hpaused := hwaits₂ hwaits
      · exact absurd hbefore hrunning
      · exact hpaused
  | ok result =>
    obtain ⟨status, live⟩ := result
    obtain ⟨hsteps, hchats, hexec⟩ := hend status live w₂
    dsimp only
    have hfinal : ((p (status, live)).run (exec ans) w₂).2.executions e =
        some (row₂.patch { status := some status, completedAt := true }) := by
      rw [hexec]
      exact Table.modify_some _ hrow₂
    refine ⟨hchats.trans hasked, .of_loop hid hloop hindices hcount rfl (by omega) hsteps ?_ ?_⟩
    · intro row hrow
      cases hfinal.symm.trans hrow
      exact hkey₂.trans hkey
    · intro row hrow hwaits
      cases hfinal.symm.trans hrow
      obtain rfl : status = .guardrailPending := hwaits
      exact ⟨live, rfl⟩

/-- A run of a new execution keeps the budget. -/
lemma run_budget (ans : Answers) (input : ExecutorInput) (hkey : w.clock = e)
    (hfresh : w.stepsOf e = []) :
    ∃ n, ((run cfg input).run (exec ans) w).2.chats = w.chats + n ∧
      Budget cfg e ((run cfg input).run (exec ans) w).2 n := by
  subst hkey
  obtain ⟨w₁, hbegin, hsteps₁, hchats₁, hexec₁⟩ := beginRun_run ans input hfresh
  have hrow₁ : w₁.executions w.clock = some (input.row.at w.clock) := by
    rw [hexec₁, Table.put_self]
  have hpending : (input.row.at w.clock).status ≠ .guardrailPending := by
    intro h
    cases h
  have hindices : (w₁.stepsOf w.clock).map (·.stepIndex) =
      List.range (w₁.stepsOf w.clock).length := by
    rw [hsteps₁]
    rfl
  have hcount : (w₁.stepsOf w.clock).length = 0 := by
    rw [hsteps₁]
    rfl
  obtain ⟨chats, hchats, hbudget⟩ := Budget.close ans (input.context (input.row.at w.clock))
    (fun r => endRun input w.clock r.1 r.2.stepCount) (.inl rfl) rfl hindices hcount
    (Nat.zero_le cfg.maxIterations) hrow₁ rfl hpending
    (fun status live w₂ => endRun_world ans input w.clock status live.stepCount)
  rw [run_eq, Prog.run_bind_ok _ hbegin]
  have hzero : 0 + chats = chats := Nat.zero_add chats
  refine ⟨chats, by rw [← hchats₁]; exact hchats, ?_⟩
  rw [← hzero]
  exact hbudget

/-- As many steps are rebuilt as were stored. -/
lemma length_persisted (w : World) (e : Id) : (w.persisted e).length = (w.stepsOf e).length :=
  List.length_insertionSort ..

/-- The steps when the loop of a resume starts: the approved call's follows the earlier ones. -/
lemma begun_steps {context : LoopContext} {step : ReactStep}
    (hrecorded : Recorded e w w' [step] 0) (hindex : step.stepIndex = (w.persisted e).length)
    (hcount : context.stepCount = (w.persisted e).length + 1)
    (hindices : (w.stepsOf e).map (·.stepIndex) = List.range (w.stepsOf e).length) :
    (w'.stepsOf e).map (·.stepIndex) = List.range (w'.stepsOf e).length ∧
      (w'.stepsOf e).length = context.stepCount := by
  rw [length_persisted] at hindex hcount
  have hnext : [step].map (·.stepIndex) = List.range' (w.stepsOf e).length [step].length := by
    simp [hindex]
  rw [hrecorded.steps]
  refine ⟨indices_append hindices hnext, ?_⟩
  rw [hcount, List.length_append]
  rfl

/-- A resume keeps the budget. -/
lemma resume_budget (ans : Answers) {n : Nat} (input : ResumeInput)
    (htarget : input.executionId = e) (h : Budget cfg e w n) :
    ∃ m, ((resumePaused cfg input).run (exec ans) w).2.chats = w.chats + m ∧
      Budget cfg e ((resumePaused cfg input).run (exec ans) w).2 (n + m) := by
  subst htarget
  rw [resumePaused_eq]
  have hresumed := beginResume_resumed ans cfg input h.key
  rcases hbegin : (beginResume cfg input).run (exec ans) w with ⟨r, w₁⟩
  rw [hbegin] at hresumed
  -- a resume is refused, fails before its step is recorded, or begins
  cases hresumed with
  | refused same =>
    rw [Prog.run_bind_error _ hbegin, same]
    exact ⟨0, rfl, h⟩
  | @threw row error found waits recorded running =>
    rw [Prog.run_bind_error _ hbegin]
    have hid := h.key row found
    rw [hid] at running
    have hsteps : w₁.stepsOf input.executionId = w.stepsOf input.executionId :=
      recorded.steps.trans (List.append_nil _)
    have hrow : ∀ row', w₁.executions input.executionId = some row' →
        row' = row.patch { status := some .running } := by
      intro row' hrow'
      rw [running, Table.modify_some _ found] at hrow'
      exact (Option.some.inj hrow').symm
    refine ⟨0, recorded.chats, ?_, ?_, h.chats_le, ?_, ?_⟩
    · rw [hsteps]
      exact h.indices
    · rw [hsteps]
      exact h.steps_le
    · intro row' hrow'
      rw [hrow row' hrow']
      exact hid
    · intro row' hrow' hwaits
      rw [hrow row' hrow'] at hwaits
      cases hwaits
  | @begun row context step action observation found waits recorded index reasoning running
      execution count messages =>
    rw [Prog.run_bind_ok _ hbegin]
    have hid := h.key row found
    have hasked := h.waiting row found waits
    rw [hid] at recorded running
    obtain ⟨hindices, hcount⟩ := begun_steps recorded index count h.indices
    have hn : n = context.stepCount := by rw [hasked, count, length_persisted]
    have hrow₁ : w₁.executions input.executionId =
        some (row.patch { status := some .running }) := by
      rw [running, Table.modify_some _ found]
    have hkey₁ : (row.patch { status := some .running }).id = input.executionId := hid
    have hrunning : (row.patch { status := some .running }).status ≠ .guardrailPending := by
      intro h
      cases h
    have hstatus : context.execution.status = .running := by rw [execution]
    have hcontext : context.execution.id = input.executionId := by
      rw [execution]
      exact hid
    obtain ⟨chats, hchats, hbudget⟩ := Budget.close ans context
      (fun r => endResume input row.id r.1) (.inr hstatus) hcontext hindices hcount
      (hn ▸ h.chats_le) hrow₁ hkey₁ hrunning (by
        intro status live w₂
        have hend := endResume_world (w := w₂) ans input row.id status
        rw [hid] at hend ⊢
        exact hend)
    refine ⟨chats, hchats.trans (by rw [recorded.chats]; rfl), ?_⟩
    rw [hn]
    exact hbudget

/-- In every world of a session the steps of the execution carry the indices 0, 1, … once each,
there are no more of them than iterations, and the model was asked no more often than that. -/
theorem step_budget (cfg : Config) (ans : Answers) (e : Id) (w : World) (n : Nat)
    (h : Session cfg ans e w n) :
    (w.stepsOf e).map (·.stepIndex) = List.range (w.stepsOf e).length ∧
      (w.stepsOf e).length ≤ cfg.maxIterations ∧ n ≤ cfg.maxIterations := by
  have hbudget : Budget cfg e w n := by
    induction h with
    | run key fresh asked =>
      obtain ⟨n', hasked, hbudget⟩ := run_budget ans _ key fresh
      obtain rfl : _ = n' := Nat.add_left_cancel (asked.symm.trans hasked)
      exact hbudget
    | between before idle ih => exact ih.between idle
    | resume before target asked ih =>
      obtain ⟨m', hasked, hbudget⟩ := resume_budget ans _ target ih
      obtain rfl : _ = m' := Nat.add_left_cancel (asked.symm.trans hasked)
      exact hbudget
  exact ⟨hbudget.indices, hbudget.steps_le, hbudget.chats_le⟩

end budget

/-! ## A session -/

def smallInput : ExecutorInput where
  workspaceId := 1
  agentId := 2
  rawInput := "go"
  allowedTools := ["mail__send"]

def smallResume : ResumeInput where
  executionId := 0
  workspaceId := 1
  approvalInstanceId := 3
  pausedToolCall := some { toolName := some (.str "mail__send"), toolInput := none }

/-- The run that the proposal pauses, and its resumption. -/
def resumedRun : World :=
  ((resumePaused .small smallResume).run (exec .proposing)
    ((run .small smallInput).run (exec .proposing) .empty).2).2

/-- The resumed run is a session of two parts. -/
lemma resumedRun_session : Session .small .proposing 0 resumedRun (1 + 1) :=
  .resume (.run rfl rfl rfl) rfl rfl

/-- Its steps are numbered and within the budget. -/
theorem small_session_budget :
    (resumedRun.stepsOf 0).map (·.stepIndex) = List.range (resumedRun.stepsOf 0).length ∧
      (resumedRun.stepsOf 0).length ≤ 8 ∧ 1 + 1 ≤ 8 :=
  step_budget .small .proposing 0 resumedRun (1 + 1) resumedRun_session

/-- Its steps are the approved call and the end. -/
example : (resumedRun.stepsOf 0).map (·.stepIndex) = [0, 1] := by decide +kernel

end NexusClaw.Governance
