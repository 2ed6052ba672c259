import NexusClaw.AgentRuntime.Executor
import NexusClaw.AgentRuntime.Passes

/-!
# The accounts of a run

What a run knows of its execution: the steps it read back and those it wrote, and how many tool calls
it and the runs before it have proposed at most. `Account.Allows` is the law of a run about its steps,
its proposals and the totals of its closeout; `execute_accounts` shows that every run obeys it.
-/

namespace NexusClaw.AgentRuntime
open Concurrent
open Governance (Id JsOutput)

/-! ## Rows of an execution -/

/-- The fields of a step that the loop, the history of the prompt, the totals of the closeout and the
summary read. -/
structure ReadAlike (read step : ReActStepData) : Prop where
  iteration : read.iteration = step.iteration
  action : read.action = step.action
  success : read.observation.success = step.observation.success
  output : read.observation.output = step.observation.output
  error : read.observation.error = step.observation.error
  termination : read.observation.termination = step.observation.termination
  tokensUsed : read.tokensUsed = step.tokensUsed
  model : read.model = step.model
  aiProviderStamp : read.aiProviderStamp = step.aiProviderStamp

/-- A step without a stamp and a termination, whose texts are there or `null`, and whose input and
output are there with their keys in the order of a `jsonb` column. -/
structure Survives (step : ReActStepData) : Prop where
  stamp : step.aiProviderStamp = none
  termination : step.observation.termination = none
  toolName : step.action.toolName = some .null ∨ ∃ s, step.action.toolName = some (.str s)
  generatePrompt :
    step.action.generatePrompt = some .null ∨ ∃ s, step.action.generatePrompt = some (.str s)
  toolInput : ∃ v, step.action.toolInput = some v ∧ v.Ordered
  output : ∃ v, step.observation.output = .json v ∧ v.Ordered

/-- An output comes back as it was exactly if it is a value with its keys in order. -/
lemma outputColumn_eq_iff {output : JsOutput} :
    JsOutput.json (outputColumn output) = output ↔ ∃ v, output = .json v ∧ v.Ordered := by
  cases output with
  | json v => simp [outputColumn, Json.jsonb_eq_iff]
  | undefined => simp
  | notJson => simp

/-- An action comes back as it was exactly if its three columns do. -/
lemma loaded_action_iff (asText : Json → String) (row : ReactStep) :
    (row.loaded asText).action = row.action ↔
      some (Json.textColumn asText row.action.toolName) = row.action.toolName ∧
        some (Json.jsonbColumn row.action.toolInput) = row.action.toolInput ∧
        some (Json.textColumn asText row.action.generatePrompt) = row.action.generatePrompt := by
  constructor
  · intro h
    exact ⟨congrArg Action.toolName h, congrArg Action.toolInput h,
      congrArg Action.generatePrompt h⟩
  · intro ⟨hname, hinput, hprompt⟩
    unfold ReactStep.loaded
    dsimp only
    rw [hname, hinput, hprompt]

/-- Of a step that was persisted and read back the readers see what they saw before exactly if it
survives. -/
theorem rebuilt_iff (asText : Json → String) (execution : AgentExecution) (step : ReActStepData) :
    ReadAlike ((persisted execution step).loaded asText).rebuilt step ↔ Survives step := by
  have haction := loaded_action_iff asText (persisted execution step)
  rw [Json.textColumn_eq_iff, Json.jsonbColumn_eq_iff, Json.textColumn_eq_iff] at haction
  constructor
  · intro h
    obtain ⟨hname, hinput, hprompt⟩ := haction.1 h.action
    exact ⟨h.aiProviderStamp.symm, h.termination.symm, hname, hprompt, hinput,
      outputColumn_eq_iff.1 h.output⟩
  · intro h
    exact
      { iteration := rfl
        action := haction.2 ⟨h.toolName, h.toolInput, h.generatePrompt⟩
        success := rfl
        output := outputColumn_eq_iff.2 h.output
        error := rfl
        termination := h.termination.symm
        tokensUsed := rfl
        model := rfl
        aiProviderStamp := h.stamp.symm }

/-- A row without its id and without the values that come back through columns. -/
def ReactStep.plain (row : ReactStep) : ReactStep :=
  { row with
    id := 0
    action := { type := row.action.type }
    observationOutput := .undefined }

/-- The steps that are calls of a tool. -/
def toolSteps (rows : List ReactStep) : Nat :=
  rows.countP (·.action.type = .toolCall)

/-- The steps are numbered from zero on, in order. -/
def Numbered (rows : List ReactStep) : Prop :=
  rows.map (·.stepIndex) = List.range rows.length

section rows
variable {rows : List ReactStep}

/-- A step counts if it calls a tool. -/
lemma toolSteps_concat (row : ReactStep) :
    toolSteps (rows ++ [row]) = toolSteps rows + if row.action.type = .toolCall then 1 else 0 := by
  unfold toolSteps
  rw [List.countP_append, List.countP_singleton]
  simp

/-- A step takes nothing from the count. -/
lemma toolSteps_le_concat (row : ReactStep) : toolSteps rows ≤ toolSteps (rows ++ [row]) := by
  rw [toolSteps_concat]
  exact Nat.le_add_right _ _

/-- The plain rows count the same. -/
lemma toolSteps_plain : toolSteps (rows.map ReactStep.plain) = toolSteps rows := by
  unfold toolSteps
  rw [List.countP_map]
  rfl

/-- The plain rows are numbered the same. -/
lemma numbered_plain : Numbered (rows.map ReactStep.plain) ↔ Numbered rows := by
  unfold Numbered
  rw [List.map_map, List.length_map]
  rfl

/-- Rows that are the same to the accounts are the same to what does not come through a column. -/
lemma map_plain {β : Type} (g : ReactStep → β) (hg : ∀ row, g row.plain = g row)
    {rows' : List ReactStep} (h : rows.map ReactStep.plain = rows'.map ReactStep.plain) :
    rows.map g = rows'.map g := by
  have hcomp : g ∘ ReactStep.plain = g := funext hg
  have hmap := congrArg (List.map g) h
  rwa [List.map_map, List.map_map, hcomp] at hmap

/-- No rows are numbered. -/
lemma numbered_nil : Numbered [] := rfl

/-- The next row takes the next number. -/
lemma Numbered.concat (h : Numbered rows) {row : ReactStep} (hrow : row.stepIndex = rows.length) :
    Numbered (rows ++ [row]) := by
  unfold Numbered at *
  rw [List.map_append, h, List.length_append, List.length_singleton, List.range_succ,
    List.map_singleton, hrow]

/-- Numbered steps are read in the order in which they were written. -/
lemma Numbered.sorted (h : Numbered rows) :
    rows.insertionSort (fun a b => a.stepIndex ≤ b.stepIndex) = rows := by
  have hsorted : (rows.map (·.stepIndex)).Pairwise (· ≤ ·) := by
    rw [show rows.map (·.stepIndex) = List.range rows.length from h]
    exact List.pairwise_le_range
  rw [List.pairwise_map] at hsorted
  exact List.Pairwise.insertionSort_eq hsorted

/-- The greatest of the first numbers. -/
lemma foldr_max_range (n a : Nat) :
    ((List.range n).map (· + 1)).foldr max a = max a n := by
  induction n generalizing a with
  | zero => simp
  | succ n ih =>
    rw [List.range_succ, List.map_append, List.foldr_append, ih]
    simp only [List.map_cons, List.map_nil, List.foldr_cons, List.foldr_nil]
    omega

/-- The step of an approved call comes next. -/
lemma Numbered.nextIteration (h : Numbered rows) :
    nextIteration (rows.map ReactStep.rebuilt) = rows.length := by
  have hmap : (rows.map ReactStep.rebuilt).map (fun step => step.iteration + 1) =
      (rows.map (·.stepIndex)).map (· + 1) := by
    rw [List.map_map, List.map_map]
    rfl
  unfold AgentRuntime.nextIteration
  rw [hmap, show rows.map (·.stepIndex) = List.range rows.length from h, foldr_max_range]
  exact Nat.zero_max _

end rows

/-! ## The account -/

/-- `holds` is the execution that the run is underway for, `known` the executions it has seen a row
of, `ready` says that it knows the steps of its execution, `approved` that the next one is that of an
approved call, and `calls` bounds the calls proposed for the execution. -/
structure Account where
  holds : Option Id := none
  known : List Id := []
  ready : Bool := false
  constraints : Option Constraints := none
  approved : Bool := false
  read : List ReactStep := []
  written : List ReactStep := []
  calls : Nat := 0

def Account.rows (m : Account) : List ReactStep :=
  m.read ++ m.written

/-- The account after a transaction: a start opens a run, and a closeout or the `catch` ends it. -/
def Account.transact (m : Account) (event : OutboxEvent) (patch : Option ExecutionPatch)
    (ok : Bool) : Account :=
  match patch with
  | none =>
    if event.eventType = .executionStarted ∧ ok = true then
      { m with holds := some event.aggregateId }
    else m
  | some patch =>
    if patch.totalInputTokens.isSome = true ∧ ok = false then m else { m with holds := none }

def Account.note (m : Account) : (s : Stmt) → s.Resp → Account
  | .createExecution _, .ok saved =>
    { holds := some saved.id
      known := saved.id :: m.known
      ready := true }
  | .findExecution _ _, .ok (some row) => { m with known := row.id :: m.known }
  | .transaction event patch, r => m.transact event patch r.isOk
  | .buildContext _ _ _ _, .ok context => { m with constraints := some context.constraints }
  -- every call that was proposed before has a step, but for the one of a run that threw
  | .findSteps _, .ok rows =>
    { m with
      ready := true
      approved := true
      read := rows
      calls := toolSteps rows + 1 }
  | .createStep row, .ok _ => { m with approved := false, written := m.written ++ [row] }
  | .propose _, .ok _ => { m with calls := m.calls + 1 }
  | _, _ => m

/-- The totals of a closeout. -/
structure Account.Totals (m : Account) (patch : ExecutionPatch) : Prop where
  input : patch.totalInputTokens = some (m.rows.map (·.tokensUsed.input)).sum
  output : patch.totalOutputTokens = some (m.rows.map (·.tokensUsed.output)).sum
  summary : patch.aiProviderSummary = some (summarize (m.written.filterMap (·.aiProviderStamp)))

/-- What a run may do where it stands. -/
def Account.Allows (m : Account) : Stmt → Prop
  | .createExecution _ => m.holds = none
  | .transaction event none =>
    event.eventType = .executionStarted →
      event.aggregateId ∈ m.known ∧ (m.holds = some event.aggregateId ∨
        m.ready = false ∧ m.constraints = none ∧ m.approved = false)
  | .transaction event (some patch) =>
    patch.totalInputTokens.isSome = true →
      m.holds = some event.aggregateId ∧ m.ready = true ∧ m.Totals patch
  | .buildContext _ _ executionId _ => m.holds = some executionId
  | .findSteps executionId =>
    m.holds = some executionId ∧ m.constraints.isSome = true ∧ m.written = []
  | .createStep row =>
    m.holds = some row.executionId ∧ m.ready = true ∧
      (Numbered m.rows → row.stepIndex = m.rows.length) ∧
      (m.approved = true ∨ ∃ c, m.constraints = some c ∧ m.rows.length < c.maxReActIterations)
  | .propose proposal =>
    m.holds = some proposal.executionId ∧ m.ready = true ∧ m.calls ≤ toolSteps m.rows ∧
      ∃ c, m.constraints = some c ∧ m.calls + 1 ≤ c.maxToolCalls
  | _ => True

/-- The account of a history. -/
def accountOf (h : History Stmt Stmt.Resp) : Account :=
  bookkeeping Account.note {} h

/-- Programs that obey the law. -/
abbrev Accounted {α : Type} (Q : Account → Except String α → Prop) (m : Account) (p : Act α) : Prop :=
  Tracked Account.note Account.Allows Q m p

/-! ## The loop -/

/-- The account and the local variables of the loop tell the same steps; `openCalls` proposals have
no step yet. -/
structure Booked (loop : Loop) (openCalls : Nat) (m : Account) (s : LoopState) : Prop where
  holds : m.holds = some loop.execution.id
  ready : m.ready = true
  constraints : m.constraints = some loop.context.constraints
  approved : m.approved = false
  steps : ∃ new, s.steps = m.read.map ReactStep.rebuilt ++ new ∧
    m.written = new.map (persisted loop.execution)
  calls : m.calls ≤ toolSteps m.rows + openCalls
  count : m.calls ≤ s.toolCallCount

/-- The proposals without a step inside of a pass. -/
def pendingCalls : Bool → Nat
  | true => 1
  | false => 0

section booked
variable {loop : Loop} {m : Account} {s : LoopState} {n : Nat}

/-- There is a row for each step. -/
lemma Booked.length (h : Booked loop n m s) : m.rows.length = s.steps.length := by
  obtain ⟨new, hsteps, hwritten⟩ := h.steps
  unfold Account.rows
  rw [hsteps, hwritten, List.length_append, List.length_append, List.length_map, List.length_map]

/-- A change of the other local variables. -/
lemma Booked.locally (h : Booked loop n m s) {s' : LoopState} (hsteps : s'.steps = s.steps)
    (hcount : s.toolCallCount ≤ s'.toolCallCount) : Booked loop n m s' :=
  ⟨h.holds, h.ready, h.constraints, h.approved, hsteps ▸ h.steps, h.calls, h.count.trans hcount⟩

/-- The loop may persist the step that comes next. -/
lemma Booked.allows (h : Booked loop n m s) {step : ReActStepData}
    (hiteration : step.iteration = s.steps.length)
    (hbelow : s.steps.length < loop.context.constraints.maxReActIterations) :
    m.Allows (.createStep (persisted loop.execution step)) := by
  refine ⟨h.holds, h.ready, fun _ => ?_, .inr ⟨_, h.constraints, ?_⟩⟩
  · rw [h.length]
    exact hiteration
  · rw [h.length]
    exact hbelow

/-- The account after a step was persisted. -/
lemma Booked.push (h : Booked loop n m s) {step : ReActStepData}
    (hcall : m.calls ≤ toolSteps (m.rows ++ [persisted loop.execution step])) :
    Booked loop 0
      { m with approved := false, written := m.written ++ [persisted loop.execution step] }
      (s.push step) := by
  obtain ⟨new, hsteps, hwritten⟩ := h.steps
  refine ⟨h.holds, h.ready, h.constraints, rfl, ⟨new ++ [step], ?_, ?_⟩, ?_, h.count⟩
  · show s.steps ++ [step] = _
    rw [hsteps, List.append_assoc]
  · show m.written ++ [_] = _
    rw [hwritten, List.map_append, List.map_singleton]
  · show m.calls ≤ toolSteps (m.read ++ (m.written ++ [_])) + 0
    rw [← List.append_assoc]
    exact hcall

/-- A stored step is booked. -/
lemma Booked.persist {b : Bool} (h : Booked loop (pendingCalls b) m s) {step : ReActStepData}
    (hiteration : step.iteration = s.steps.length)
    (hbelow : s.steps.length < loop.context.constraints.maxReActIterations)
    (hcall : b = true → step.action.type = .toolCall) :
    Accounted (Upon (fun m' _ => Booked loop 0 m' (s.push step)) fun _ => True) m
      (persistStep loop.execution step) := by
  unfold persistStep
  refine tracked_await.2 ⟨h.allows hiteration hbelow, fun r => ?_⟩
  cases r with
  | error e => exact trivial
  | ok _ =>
    apply h.push
    have hcalls := h.calls
    cases b with
    | false => exact hcalls.trans (toolSteps_le_concat _)
    | true =>
      have htype : (persisted loop.execution step).action.type = .toolCall := hcall rfl
      rw [toolSteps_concat, if_pos htype]
      exact hcalls

end booked

/-- Running or pausing a call adds to what the run knows at most. -/
lemma note_gating {execution : AgentExecution} {s : Stmt} (hs : s.Gating execution) (m : Account)
    (r : s.Resp) : m.Allows s ∧ ∃ known, m.note s r = { m with known := known } := by
  cases s with
  | findExecution id workspaceId =>
    refine ⟨trivial, ?_⟩
    rcases r with e | row
    · exact ⟨m.known, rfl⟩
    · cases row with
      | none => exact ⟨m.known, rfl⟩
      | some row => exact ⟨row.id :: m.known, rfl⟩
  | _ => first | exact hs.elim | exact ⟨trivial, m.known, rfl⟩

/-- The account does not change while a call is run or paused. -/
lemma booked_gating {loop : Loop} {m : Account} {s : LoopState} {n : Nat} {α : Type} {p : Act α}
    (hp : p.Uses (Stmt.Gating loop.execution)) (h : Booked loop n m s) :
    Accounted (Upon (fun m' _ => Booked loop n m' s) fun _ => True) m p := by
  refine tracked_gating hp h (fun m st r hs hm => ?_) fun _ _ => trivial
  obtain ⟨hlaw, known, hnote⟩ := note_gating hs m r
  rw [hnote]
  exact ⟨hlaw, hm.holds, hm.ready, hm.constraints, hm.approved, hm.steps, hm.calls, hm.count⟩

/-- The account along the passes of the loop. -/
lemma booked_frame (loop : Loop) :
    PassFrame Account.note Account.Allows loop (fun m s => Booked loop 0 m s)
      (fun m s => Booked loop 0 m s ∧
        s.steps.length < loop.context.constraints.maxReActIterations)
      (fun m s _ b => Booked loop (pendingCalls b) m s ∧
        s.steps.length < loop.context.constraints.maxReActIterations) (fun _ => True) where
  early_thrown _ _ _ := trivial
  inside_thrown _ _ _ _ _ := trivial
  now m s h hbelow := by
    refine tracked_await.2 ⟨trivial, fun r => ?_⟩
    cases r with
    | ok now => exact ⟨h, hbelow⟩
    | error e => exact trivial
  iteration m s i h := by
    refine tracked_await.2 ⟨trivial, fun r => ?_⟩
    cases r with
    | ok allowed => exact h
    | error e => exact trivial
  build m s h := by
    refine tracked_await.2 ⟨trivial, fun r => ?_⟩
    cases r with
    | ok text => exact h
    | error e => exact trivial
  crop m s trimmed h _ := by
    refine tracked_await.2 ⟨trivial, fun r => ?_⟩
    cases r with
    | ok text => exact ⟨h.1.locally rfl le_rfl, h.2⟩
    | error e => exact trivial
  keep m s t b h _ := ⟨h.1.locally rfl le_rfl, h.2⟩
  reply m s messages maxTokens tier h :=
    ⟨trivial, fun _ => h, fun _ => ⟨fun _ => ⟨h.1.locally rfl le_rfl, h.2⟩,
      fun _ _ _ => h.1.locally rfl le_rfl⟩⟩
  more m s t purpose messages maxTokens tier h _ :=
    ⟨trivial, fun _ => h, fun _ => ⟨h.1.locally rfl le_rfl, h.2⟩⟩
  count m s t digest h := ⟨h.1.locally rfl (Nat.le_succ _), h.2⟩
  propose m s t digest toolName action h hmax := by
    -- the state has counted the call before it is entered in the books
    have hcount : m.calls + 1 ≤ (s.count digest).toolCallCount := Nat.succ_le_succ h.1.count
    refine tracked_await.2 ⟨⟨h.1.holds, h.1.ready, h.1.calls, _, h.1.constraints,
      hcount.trans hmax⟩, fun r => ?_⟩
    cases r with
    | error e => exact trivial
    | ok call =>
      exact ⟨⟨h.1.holds, h.1.ready, h.1.constraints, h.1.approved, h.1.steps,
        Nat.succ_le_succ h.1.calls, hcount⟩, h.2⟩
  rules m s t ids h := ⟨trivial, fun r => h⟩
  tool m s t invocation toolName input h :=
    (booked_gating (executeToolWithRetry_gating ..) h.1).post fun m r hr => by
      cases r with
      | ok executed => exact ⟨hr, h.2⟩
      | error e => exact trivial
  suspend m s t h :=
    (booked_gating handleStateTransition_gating h.1).post fun m r hr => by
      cases r with
      | ok _ => exact ⟨hr, h.2⟩
      | error e => exact trivial
  ask m s t request h hid hworkspace :=
    (booked_gating (createAgentApproval_gating hid hworkspace) h.1).post fun m r hr => by
      cases r with
      | ok id => exact ⟨Booked.locally hr rfl le_rfl, h.2⟩
      | error e => exact trivial
  record m s t b step h hiteration _ hcall := h.1.persist hiteration h.2 hcall
  recordEarly m s step h hiteration _ :=
    h.1.persist (b := false) hiteration h.2 fun hb => by cases hb
  event m s h := by
    refine ⟨fun hstart => ?_, fun r => ?_⟩
    · cases hstart
    · exact h

/-! ## A run -/

section run
variable {cfg : Config} {execution : AgentExecution} {context : ExecutionContext} {m : Account}

/-- Statements that the account takes no note of. -/
def Stmt.Plain (s : Stmt) : Prop :=
  ∀ m : Account, m.Allows s ∧ ∀ r, m.note s r = m

/-- A plain program changes no account. -/
lemma accounted_plain {α : Type} {p : Act α} (hp : p.Uses Stmt.Plain) :
    Accounted (fun m' _ => m' = m) m p :=
  Tracked.of_uses (J := (· = m)) hp rfl (fun m' _ hs _ => (hs m').1)
    (fun m' _ r hs hm => ((hs m').2 r).trans hm) fun _ _ h => h

/-- The account of a run before it reads anything: a new execution is held from its creation on, a
paused one is only known. -/
def Account.Enters (m : Account) (executionId : Id) : Option ResumeContext → Prop
  | none => m = { holds := some executionId, known := m.known, ready := true }
  | some _ => m = { known := m.known }

/-- The account once the context of the run is built. -/
def Account.opened (m : Account) (executionId : Id) (context : ExecutionContext) : Account :=
  { m with
    holds := some executionId
    constraints := some context.constraints }

/-- The steps that the loop starts with are those of the account. -/
def Starts (cfg : Config) (execution : AgentExecution) (context : ExecutionContext) (m : Account)
    (steps : List ReActStepData) : Prop :=
  ∀ prompt tier now, Booked (loopOf cfg execution context tier now) 0 m
    (initialState execution prompt steps)

/-- The approved call of a resumed run. -/
lemma executeApprovedToolCall_accounts {resume : ResumeContext} {rows : List ReactStep}
    {known : List Id} :
    Accounted (Upon (fun m' step =>
        Starts cfg execution context m' (rows.map ReactStep.rebuilt ++ [step])) fun _ => True)
      { holds := some execution.id
        known := known
        ready := true
        constraints := some context.constraints
        approved := true
        read := rows
        calls := toolSteps rows + 1 }
      (executeApprovedToolCall cfg execution context resume (rows.map ReactStep.rebuilt)) := by
  -- the call itself issues gating statements only
  have hreg : RegistryCall (fun m _ _ => m) (fun _ s => Stmt.Gating execution s) cfg
      { call := resume.call, approval := some resume.approvalInstanceId } resume.toolName
      (Json.nullish resume.toolInput .empty)
      { context with
        approvalGrant := some
          { toolName := resume.toolName, approvalInstanceId := resume.approvalInstanceId } }
      (fun _ : Unit => True) (fun _ => True) :=
    ⟨fun _ _ hs _ => hs.gating, fun _ _ _ _ _ => trivial, fun _ _ _ _ _ => trivial,
      fun _ _ _ _ => trivial, fun _ _ _ _ => trivial⟩
  have hcall := (hreg.executeTool (m := ()) trivial).uses
  let J : Account → Prop := fun m => ∃ known', m =
    { holds := some execution.id
      known := known'
      ready := true
      constraints := some context.constraints
      approved := true
      read := rows
      calls := toolSteps rows + 1 }
  have hquiet : ∀ m s r, s.Gating execution → J m → m.Allows s ∧ J (m.note s r) := by
    rintro m s r hs ⟨known', rfl⟩
    obtain ⟨hlaw, known'', hnote⟩ := note_gating hs _ r
    exact ⟨hlaw, known'', hnote⟩
  unfold executeApprovedToolCall
  refine tracked_bind (tracked_gating (I := J) (E := fun _ => True) hcall ⟨known, rfl⟩ hquiet
    fun _ _ => trivial) (fun m' result hm => ?_) fun _ _ _ => trivial
  obtain ⟨known', rfl⟩ := hm
  dsimp only
  unfold persistStep
  -- the step that is persisted comes after the ones read back
  refine tracked_await_bind.2 ⟨⟨rfl, rfl, fun hnumbered => ?_, .inl rfl⟩, fun _ => ?_,
    fun _ => trivial⟩
  · have hrows : Numbered rows := by
      rw [← List.append_nil rows]
      exact hnumbered
    show nextIteration (rows.map ReactStep.rebuilt) = (rows ++ []).length
    rw [hrows.nextIteration, List.append_nil]
  · intro prompt tier now
    refine ⟨rfl, rfl, rfl, rfl, ⟨[_], rfl, rfl⟩, ?_, ?_⟩
    · show toolSteps rows + 1 ≤ toolSteps (rows ++ [_]) + 0
      rw [toolSteps_concat]
      exact le_rfl
    · show toolSteps rows + 1 ≤ List.countP _ (rows.map ReactStep.rebuilt ++ [_])
      rw [List.countP_append, List.countP_map]
      exact le_rfl

/-- The account of a resumed run before its loop. -/
lemma resumedSteps_accounts {resume : Option ResumeContext} (h : m.Enters execution.id resume) :
    Accounted (Upon (fun m' steps => Starts cfg execution context m' steps) fun _ => True)
      (m.opened execution.id context) (resumedSteps cfg execution context resume) := by
  cases resume with
  | none =>
    intro prompt tier now
    rw [show m = _ from h]
    exact ⟨rfl, rfl, rfl, rfl, ⟨[], rfl, rfl⟩, Nat.zero_le _, Nat.zero_le _⟩
  | some resume =>
    rw [show m = _ from h]
    unfold resumedSteps rebuildHistorySteps
    dsimp only
    rw [Prog.bind_assoc]
    refine tracked_await_bind.2 ⟨⟨rfl, rfl, rfl⟩, fun rows => ?_, fun _ => trivial⟩
    rw [Prog.ret_bind]
    exact tracked_bind executeApprovedToolCall_accounts (fun _ _ hm => hm) fun _ _ _ => trivial

/-- The totals of the closeout are those of the account. -/
lemma closeOut_accounts {loop : Loop} {s : LoopState} (h : Booked loop 0 m s) :
    Accounted (fun _ _ => True) m (closeOut cfg loop.execution s) := by
  obtain ⟨new, hsteps, hwritten⟩ := h.steps
  have htotals : ∀ output, m.Totals (metering s output) := by
    intro output
    refine ⟨?_, ?_, ?_⟩
    · show some _ = some _
      unfold Account.rows
      rw [hsteps, hwritten, List.map_append, List.map_append, List.map_map, List.map_map]
      rfl
    · show some _ = some _
      unfold Account.rows
      rw [hsteps, hwritten, List.map_append, List.map_append, List.map_map, List.map_map]
      rfl
    · -- a step that was read back has no stamp
      show some (summarize (s.steps.filterMap _)) = some _
      rw [hsteps, hwritten, List.filterMap_append, List.filterMap_map, List.filterMap_map]
      have hnone : List.filterMap ((fun step : ReActStepData => step.aiProviderStamp) ∘
          ReactStep.rebuilt) m.read = [] := List.filterMap_eq_nil_iff.2 fun _ _ => rfl
      rw [hnone]
      rfl
  refine tracked_ofExcept_bind (fun output _ => ?_) fun _ _ => trivial
  refine tracked_ite.2 ⟨fun _ => ?_, fun _ => ?_⟩
  · exact tracked_await_bind.2 ⟨fun _ => ⟨h.holds, h.ready, htotals output⟩, fun _ => trivial,
      fun _ => trivial⟩
  · refine tracked_await_bind.2 ⟨fun _ => ⟨h.holds, h.ready, ?_⟩, fun _ => trivial,
      fun _ => trivial⟩
    exact ⟨(htotals output).input, (htotals output).output, (htotals output).summary⟩

/-- The account of the loop. -/
lemma runReActLoop_accounts {prompt : Option String} {tier : Option Nat}
    {steps : List ReActStepData} (h : Starts cfg execution context m steps) :
    Accounted (Upon (fun m' s => ∃ now, Booked (loopOf cfg execution context tier now) 0 m' s)
      fun _ => True) m (runReActLoop cfg execution context prompt tier steps) := by
  refine tracked_await_bind.2 ⟨trivial, fun now => ?_, fun _ => trivial⟩
  refine ((booked_frame (loopOf cfg execution context tier now)).reactLoop
    (h prompt tier now)).post fun m' r hr => ?_
  cases r with
  | ok s => exact ⟨now, hr⟩
  | error e => exact trivial

/-- The plan is in no account. -/
lemma effectivePrompt_plain {agent : Agent} {rawInput : String} :
    (effectivePrompt agent rawInput).Uses Stmt.Plain := by
  have hchat : ∀ messages, (await (.chat .planning messages none 2)).Uses Stmt.Plain :=
    fun _ => await_uses fun _ => ⟨trivial, fun _ => rfl⟩
  unfold effectivePrompt
  rw [Prog.uses_ite]
  refine ⟨fun _ => ?_, fun _ => trivial⟩
  have hplan : (generatePlan rawInput agent.prompt).Uses Stmt.Plain :=
    (hchat _).bind fun _ => trivial
  refine hplan.attempt.bind fun plan => ?_
  rcases plan with e | plan
  · trivial
  · cases plan <;> trivial

/-- The body of a run. -/
lemma executeBody_accounts {resume : Option ResumeContext} {caller : Option Caller}
    (hknown : execution.id ∈ m.known) (h : m.Enters execution.id resume) :
    Accounted (fun _ _ => True) m (executeBody cfg execution resume caller) := by
  refine tracked_await_bind.2 ⟨trivial, fun agent => ?_, fun _ => trivial⟩
  cases agent with
  | none => exact trivial
  | some agent =>
    -- a fresh run starts without a step, a resumed one with the approved call in hand
    have hstart : m.Allows (.transaction (execution.event .executionStarted) none) := by
      intro _
      refine ⟨hknown, ?_⟩
      cases resume with
      | none => exact .inl (by rw [show m = _ from h]; rfl)
      | some resume =>
        rw [show m = _ from h]
        exact .inr ⟨rfl, rfl, rfl⟩
    refine tracked_await_bind.2 ⟨hstart, fun _ => ?_, fun _ => trivial⟩
    refine tracked_await_bind.2 ⟨trivial, fun decision => ?_, fun _ => trivial⟩
    have htier : (forcedTier decision).Uses Stmt.Plain := by
      cases decision <;> trivial
    refine (accounted_plain htier).bind (fun m' tier hm => ?_) fun _ _ _ => trivial
    subst hm
    refine tracked_await_bind.2 ⟨rfl, fun context => ?_, fun _ => trivial⟩
    have hprincipal : (bindPrincipal execution context).Uses Stmt.Plain := by
      unfold bindPrincipal
      cases context.dataAccessContext with
      | none => trivial
      | some dac => exact await_uses fun _ => ⟨trivial, fun _ => rfl⟩
    refine (accounted_plain hprincipal).bind (fun m' _ hm => ?_) fun _ _ _ => trivial
    subst hm
    have hresumed : Accounted (Upon (fun m' steps => Starts cfg execution context m' steps)
        fun _ => True) _ (resumedSteps cfg execution context resume) :=
      show Tracked _ _ _ (m.opened execution.id context) _ from resumedSteps_accounts h
    refine tracked_bind hresumed (fun m' steps hm => ?_) fun _ _ _ => trivial
    refine (accounted_plain effectivePrompt_plain).bind (fun m'' prompt hm' => ?_)
      fun _ _ _ => trivial
    subst hm'
    refine tracked_bind (runReActLoop_accounts hm) (fun m'' s hs => ?_) fun _ _ _ => trivial
    obtain ⟨now, hbooked⟩ := hs
    exact closeOut_accounts hbooked

/-- Every run obeys the law. -/
theorem execute_accounts {resume : Option ResumeContext} {caller : Option Caller}
    (hknown : execution.id ∈ m.known) (h : m.Enters execution.id resume) :
    Accounted (fun _ _ => True) m (execute cfg execution resume caller) := by
  refine tracked_attempt_bind (executeBody_accounts hknown h) fun m' r _ => ?_
  cases r with
  | ok result => exact trivial
  | error message =>
    refine tracked_await_bind.2 ⟨fun hmetered => ?_, fun _ => trivial, fun _ => trivial⟩
    cases hmetered

end run

/-! ## The store -/

/-- The steps of an execution, in the order in which they were written. -/
def World.stepsOf (w : World) (executionId : Id) : List ReactStep :=
  w.steps.filter (·.executionId = executionId)

/-- The proposal that an effect is, for an execution. -/
def proposalFor (executionId : Id) : Effect → Option Id
  | .proposed call proposal => if proposal.executionId = executionId then some call else none
  | _ => none

/-- The proposals of an execution. -/
def World.proposalsOf (w : World) (executionId : Id) : List Id :=
  w.trace.filterMap (proposalFor executionId)

/-- The step that a statement adds. -/
def addedSteps : (s : Stmt) → s.Resp → Nat → List ReactStep
  | .createStep row, .ok _, clock => [{ row with id := clock }]
  | _, _, _ => []

/-- The proposal that a statement adds. -/
def addedProposals : (s : Stmt) → s.Resp → List Effect
  | .propose proposal, .ok call => [.proposed call proposal]
  | _, _ => []

section store
variable {ans : Answers} {w : World} {s : Stmt} {e : Id}

/-- The steps that a statement adds to the store. -/
lemma settle_steps (s : Stmt) (r : s.Resp) (w : World) :
    (settle s r w).steps = w.steps ++ addedSteps s r w.clock := by
  cases s <;> cases r <;> simp [settle, effect, World.tick, addedSteps]

/-- The proposals that it adds. -/
lemma settle_proposals (s : Stmt) (r : s.Resp) (w : World) :
    (settle s r w).proposalsOf e =
      w.proposalsOf e ++ (addedProposals s r).filterMap (proposalFor e) := by
  cases s <;> cases r <;>
    simp [settle, effect, World.tick, addedProposals, World.proposalsOf, proposalFor]

/-- The steps that it adds for one execution. -/
lemma settle_stepsOf (s : Stmt) (r : s.Resp) (w : World) :
    (settle s r w).stepsOf e =
      w.stepsOf e ++ (addedSteps s r w.clock).filter (·.executionId = e) := by
  unfold World.stepsOf
  rw [settle_steps, List.filter_append]

/-- Every statement takes a moment. -/
lemma settle_clock (s : Stmt) (r : s.Resp) (w : World) : (settle s r w).clock = w.clock + 1 := by
  cases s <;> cases r <;> rfl

/-- A created execution has the id of the moment. -/
lemma answer_createExecution {row saved : AgentExecution}
    (h : answer ans (.createExecution row) w = .ok saved) : saved.id = w.clock := by
  unfold answer at h
  cases hfails : ans.fails w.clock with
  | some e => rw [hfails] at h; cases h
  | none => rw [hfails] at h; cases h; rfl

/-- An execution that is found is stored. -/
lemma answer_findExecution {id : Id} {workspaceId : Option Id} {row : AgentExecution}
    (h : answer ans (.findExecution id workspaceId) w = .ok (some row)) :
    w.executions id = some row := by
  unfold answer at h
  cases hfails : ans.fails w.clock with
  | some e => rw [hfails] at h; cases h
  | none =>
    rw [hfails] at h
    exact (Option.filter_eq_some_iff.1 (Except.ok.inj h)).1

/-- The steps that are found are those of the execution, in order. -/
lemma answer_findSteps {rows : List ReactStep}
    (h : answer ans (.findSteps e) w = .ok rows) :
    rows = ((w.stepsOf e).insertionSort (fun a b => a.stepIndex ≤ b.stepIndex)).map
      (·.loaded ans.asText) := by
  unfold answer at h
  cases hfails : ans.fails w.clock with
  | some e => rw [hfails] at h; cases h
  | none => rw [hfails] at h; cases h; rfl

/-- A context that is built is one of its caller. -/
lemma answer_buildContext {agent : Agent} {workspaceId executionId : Id} {caller : Option Caller}
    {context : ExecutionContext}
    (h : answer ans (.buildContext agent workspaceId executionId caller) w = .ok context) :
    buildContext agent workspaceId executionId caller w.grants w.metadata = .ok context := by
  unfold answer at h
  cases hfails : ans.fails w.clock with
  | some e => rw [hfails] at h; cases h
  | none =>
    rw [hfails] at h
    exact h

/-- Every stored row was numbered by the clock. -/
lemma executions_below (h : ∀ e row, w.executions e = some row → row.id < w.clock) {e : Id}
    {row : AgentExecution} (hrow : (exec ans s w).1.executions e = some row) :
    row.id < w.clock + 1 := by
  have hold : ∀ {row : AgentExecution}, w.executions e = some row → row.id < w.clock + 1 :=
    fun hrow => Nat.lt_succ_of_lt (h e _ hrow)
  -- a patch keeps the identifier of the row
  have hpatch : ∀ {p : ExecutionPatch} {id : Id},
      w.executions.modify id (·.patch p) e = some row → row.id < w.clock + 1 := by
    intro p id hrow
    obtain ⟨row', hrow', rfl⟩ := Table.modify_eq_some hrow
    split_ifs
    · exact Nat.lt_succ_of_lt (h e row' hrow')
    · exact Nat.lt_succ_of_lt (h e row' hrow')
  have hanswer : ∀ r, answer ans s w = r → (settle s r w).executions e = some row →
      row.id < w.clock + 1 := by
    intro r hr hrow
    cases r with
    | error msg => exact hold hrow
    | ok a =>
      cases s with
      | createExecution new =>
        -- the new row takes its identifier from the clock, the others were there
        have hid := answer_createExecution hr
        by_cases he : e = a.id
        · subst he
          have hput : (w.executions.put a.id a) a.id = some row := hrow
          rw [Table.put_self] at hput
          cases hput
          rw [hid]
          exact Nat.lt_succ_self _
        · have hput : (w.executions.put a.id a) e = some row := hrow
          rw [Table.put_of_ne _ _ he] at hput
          exact hold hput
      | updateExecution id status => exact hpatch hrow
      | transaction event patch =>
        cases patch with
        | none => exact hold hrow
        | some patch => exact hpatch hrow
      | _ => exact hold hrow
  exact hanswer _ rfl hrow

end store

end NexusClaw.AgentRuntime
