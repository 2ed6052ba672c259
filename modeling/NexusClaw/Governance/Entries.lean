import NexusClaw.Governance.DenyByDefault

/-!
# What the operations enter in the ledger

One lemma for each program of the kernel: run alone, it leaves the ledger as one of the constructors
of its `…Entry` says. The properties of sequences of operations are proved from these cases, without
going back to the programs.
-/

namespace NexusClaw.Governance
open Concurrent

variable {cfg : Config}

/-! ## The loop -/

/-- A call that is held was asked for. -/
lemma Governed.asked {input : ExecutorInput} {events : List Effect} {held : Option Hold}
    (h : Governed cfg input events held) {hold : Hold} (hh : held = some hold) :
    ∃ content, .chat (.ok content) ∈ events ∧ Holds cfg input content hold := by
  induction h with
  | stop => cases hh
  | quiet nothing rest ih =>
    obtain ⟨content, hmem, hholds⟩ := ih hh
    exact ⟨content, List.mem_cons_of_mem _ hmem, hholds⟩
  | call proposed judged passes rest ih =>
    obtain ⟨content, hmem, hholds⟩ := ih hh
    exact ⟨content, List.mem_cons_of_mem _ (List.mem_cons_of_mem _ hmem), hholds⟩
  | hold holds =>
    cases hh
    exact ⟨_, List.mem_cons_self .., holds⟩

/-- A response after `w` asks for a call that is held. -/
def Escalates (cfg : Config) (input : ExecutorInput) (w w' : World) : Prop :=
  ∃ events content hold, w'.trace = w.trace ++ events ∧ .chat (.ok content) ∈ events ∧
    Holds cfg input content hold

inductive LoopEntry (cfg : Config) (context : LoopContext) (w w' : World) :
    Except String (ExecutionStatus × LoopContext) → Prop where
  | threw {error : String} (same : w'.ledger = w.ledger) :
      LoopEntry cfg context w w' (.error error)
  | ended {status : ExecutionStatus} {context' : LoopContext}
      (final : status = .done ∨ status = .failed) (same : w'.ledger = w.ledger) :
      LoopEntry cfg context w w' (.ok (status, context'))
  | parked {context' : LoopContext} {id : Id} {hold : Hold} (fresh : w.clock ≤ id)
      (escalates : Escalates cfg context.input w w')
      (entry : w'.ledger = (w.ledger.ask id (hold.instance cfg context id)).patch
        context.execution.id { status := some .guardrailPending }) :
      LoopEntry cfg context w w' (.ok (.guardrailPending, context'))

/-- What the loop leaves in the ledger. -/
lemma runLoop_entry (cfg : Config) (ans : Answers) (context : LoopContext)
    (hstatus : context.execution.status = .pending ∨ context.execution.status = .running)
    (w : World) :
    LoopEntry cfg context w ((runLoop cfg context).run (exec ans) w).2
      ((runLoop cfg context).run (exec ans) w).1 := by
  have hfinal : (runLoop cfg context).Ends
      fun r => r.1 = .done ∨ r.1 = .failed ∨ r.1 = .guardrailPending :=
    (runLoop_along (h := []) cfg context).ends fun _ _ hr => hr.final _ rfl
  obtain ⟨events, held, hg, hr, hresult⟩ := loopFrom_governed ans
    (cfg.maxIterations - context.stepCount) context.stepCount context hstatus w
  change Round cfg context w ((runLoop cfg context).run (exec ans) w).2 events held at hr
  change held.isSome ↔ ∃ context', ((runLoop cfg context).run (exec ans) w).1 =
    .ok (.guardrailPending, context') at hresult
  rcases hrun : (runLoop cfg context).run (exec ans) w with ⟨r, w'⟩
  rw [hrun] at hr hresult
  -- the loop stops at a held call, throws, or ends by itself
  cases held with
  | some hold =>
    obtain ⟨context', hok⟩ := hresult.mp rfl
    obtain ⟨content, hmem, hholds⟩ := hg.asked rfl
    obtain ⟨id, hid, hentry⟩ := hr.stored
    dsimp only at hok ⊢
    rw [hok]
    exact .parked hid ⟨events, content, hold, hr.trace, hmem, hholds⟩ hentry
  | none =>
    cases r with
    | error e => exact .threw hr.stored
    | ok out =>
      obtain ⟨status, context'⟩ := out
      obtain h | h | h := hfinal.run hrun
      · exact .ended (.inl h) hr.stored
      · exact .ended (.inr h) hr.stored
      · dsimp only at h
        subst h
        exact nomatch hresult.mpr ⟨context', rfl⟩

/-! ## Run and resume -/

/-- The approval `inst` was created under the key `id` for the execution `e`. -/
def Asks (cfg : Config) (e id : Id) (inst : ApprovalInstance) : Prop :=
  ∃ request : AgentApprovalRequest,
    request.agentExecutionId = e ∧ inst = { request.instance cfg with id }

/-- The approval is stored under its id. -/
lemma Asks.key {e id : Id} {inst : ApprovalInstance} (h : Asks cfg e id inst) : inst.id = id := by
  obtain ⟨request, -, rfl⟩ := h
  rfl

/-- The approval belongs to the execution. -/
lemma Asks.recordId {e id : Id} {inst : ApprovalInstance} (h : Asks cfg e id inst) :
    inst.recordId = e := by
  obtain ⟨request, rfl, rfl⟩ := h
  rfl

/-- A new approval is pending. -/
lemma Asks.status {e id : Id} {inst : ApprovalInstance} (h : Asks cfg e id inst) :
    inst.status = .pending := by
  obtain ⟨request, -, rfl⟩ := h
  rfl

/-- The approval of a hold asks for the execution of the context. -/
lemma Hold.asks (cfg : Config) (context : LoopContext) (hold : Hold) (id : Id) :
    Asks cfg context.execution.id id (hold.instance cfg context id) :=
  ⟨_, rfl, rfl⟩

/-- The row that `run` or `gate` inserts gets its key from the clock. -/
def AgentExecution.at (row : AgentExecution) (e : Id) : AgentExecution :=
  { row with id := e }

inductive RunEntry (cfg : Config) (input : ExecutorInput) (w w' : World) : Prop where
  | stopped (entry : w'.ledger = w.ledger.enter w.clock (input.row.at w.clock))
  | ended {status : ExecutionStatus} (final : status = .done ∨ status = .failed)
      (entry : w'.ledger = ((w.ledger.enter w.clock (input.row.at w.clock)).patch w.clock
        { status := some status, completedAt := true }).close w.clock
          (if status = .done then .executionCompleted else .executionFailed))
  | parked {id : Id} (inst : ApprovalInstance) (fresh : w.clock < id)
      (asks : Asks cfg w.clock id inst) (escalates : Escalates cfg input w w')
      (entry : w'.ledger = ((((w.ledger.enter w.clock (input.row.at w.clock)).ask id inst).patch
        w.clock { status := some .guardrailPending }).patch w.clock
          { status := some .guardrailPending, completedAt := true }).close w.clock .executionFailed)

/-- An escalation is one over any ledger around the same traces. -/
lemma Escalates.widen {input : ExecutorInput} {a b c : World} (h : Escalates cfg input b c)
    {w' : World} (ha : b.trace = a.trace) (hc : w'.trace = c.trace) :
    Escalates cfg input a w' := by
  obtain ⟨events, content, hold, ht, hmem, hholds⟩ := h
  exact ⟨events, content, hold, by rw [hc, ht, ha], hmem, hholds⟩

/-- A lookup changes nothing. -/
lemma findExecutionOrFail_run (ans : Answers) (id : Id) (w : World) :
    ((findExecutionOrFail id).run (exec ans) w).2 = w := by
  simp only [findExecutionOrFail, Prog.call_bind, Prog.run_stmt, exec]
  cases w.executions id <;> rfl

/-- The event at the end of a run is a terminal one. -/
lemma runFinished_terminal (input : ExecutorInput) (e : Id) (status : ExecutionStatus) (n : Nat) :
    (runFinished input e status n).eventType.terminal = true := by
  unfold runFinished
  split <;> rfl

/-- The closing of `run`: the update, the event, and the read of the reply. -/
lemma runClose_run (ans : Answers) (input : ExecutorInput) (e : Id) (status : ExecutionStatus)
    (n : Nat) (w : World) :
    let w' := ((updateExecution e { status := some status, completedAt := true } >>= fun _ =>
      enqueue (runFinished input e status n) >>= fun _ => findExecutionOrFail e).run (exec ans) w).2
    w'.ledger = (w.ledger.patch e { status := some status, completedAt := true }).close e
        (if status = .done then .executionCompleted else .executionFailed) ∧ w'.trace = w.trace := by
  simp only [Prog.call_bind, Prog.run_stmt, findExecutionOrFail_run]
  exact ⟨ledger_enqueue ans _ (runFinished_terminal input e status n), rfl⟩

/-- What a run leaves in the ledger. -/
lemma run_entry (cfg : Config) (ans : Answers) (input : ExecutorInput) (w : World) :
    RunEntry cfg input w ((run cfg input).run (exec ans) w).2 := by
  -- The two statements before the loop, then the loop.
  let w₁ := (exec ans (.enqueue (runStarted input w.clock))
    (exec ans (.createExecution input.row) w).1).1
  have hl₁ : w₁.ledger = w.ledger.enter w.clock (input.row.at w.clock) :=
    (ledger_quiet ans (by exact rfl)).trans rfl
  have hloop := runLoop_entry cfg ans (input.context (input.row.at w.clock)) (.inl rfl) w₁
  show RunEntry cfg input w ((runLoop cfg (input.context (input.row.at w.clock)) >>= fun r => _).run
    (exec ans) w₁).2
  rw [Prog.run_bind]
  rcases hrun : (runLoop cfg (input.context (input.row.at w.clock))).run (exec ans) w₁ with ⟨r, w₂⟩
  rw [hrun] at hloop
  cases hloop with
  | threw same => exact .stopped (same.trans hl₁)
  | @ended status context' final same =>
    obtain ⟨hl, -⟩ := runClose_run ans input w.clock status context'.stepCount w₂
    exact .ended final (by rw [← hl₁, ← same]; exact hl)
  | @parked context' id hold fresh escalates entry =>
    obtain ⟨hl, ht⟩ := runClose_run ans input w.clock .guardrailPending context'.stepCount w₂
    have hfresh : w.clock < id := Nat.lt_of_lt_of_le (Nat.lt_succ_of_lt (Nat.lt_succ_self _)) fresh
    refine .parked (hold.instance cfg (input.context (input.row.at w.clock)) id) hfresh
      (hold.asks cfg (input.context (input.row.at w.clock)) id)
      (escalates.widen rfl ht) ?_
    rw [← hl₁]
    exact hl.trans (by rw [entry]; rfl)

inductive ResumeEntry (cfg : Config) (input : ResumeInput) (w w' : World) : Prop where
  | refused (same : w'.ledger = w.ledger)
  | stopped {row : AgentExecution} (found : w.executions input.executionId = some row)
      (waits : row.status = .guardrailPending)
      (entry : w'.ledger = w.ledger.patch input.executionId { status := some .running })
  | ended {row : AgentExecution} {status : ExecutionStatus}
      (found : w.executions input.executionId = some row) (waits : row.status = .guardrailPending)
      (final : status = .done ∨ status = .failed)
      (entry : w'.ledger = (w.ledger.patch input.executionId { status := some .running }).patch
        input.executionId { status := some status, completedAt := true })
  | parked {row : AgentExecution} {id : Id} (inst : ApprovalInstance)
      (found : w.executions input.executionId = some row) (waits : row.status = .guardrailPending)
      (fresh : w.clock ≤ id) (asks : Asks cfg input.executionId id inst)
      (entry : w'.ledger = (((w.ledger.patch input.executionId { status := some .running }).ask id
        inst).patch input.executionId { status := some .guardrailPending }).patch
          input.executionId { status := some .guardrailPending, completedAt := true })

/-- A tool that runs shows nothing in the ledger. -/
lemma executeApprovedTool_quiet (cfg : Config) (origin : Origin) (context : LoopContext)
    (name : String) (toolInput : Json) :
    (executeApprovedTool cfg origin context name toolInput).Uses Stmt.quiet := by
  refine Prog.Uses.call_bind trivial fun call => ?_
  refine Prog.Uses.bind ?_ fun result => ?_
  · unfold registryExecute
    refine Prog.uses_ite.mpr ⟨fun _ => trivial, fun _ => ?_⟩
    refine Prog.uses_ite.mpr ⟨fun _ => trivial, fun _ => ?_⟩
    exact Prog.Uses.call_bind trivial fun r => by cases r <;> trivial
  · exact Prog.Uses.bind (uses_finalize fun _ => trivial) fun _ => trivial

/-- Nor does the tool of a resumed call. -/
lemma executeResumedTool_quiet (cfg : Config) (origin : Origin) (context : LoopContext)
    (toolInput : Json) (toolName : Option Json) :
    (executeResumedTool cfg origin context toolInput toolName).Uses Stmt.quiet := by
  have hunnamed : ∀ name, (executeUnnamedTool cfg context name).Uses Stmt.quiet := fun name =>
    Prog.Uses.call_bind trivial fun call =>
      Prog.Uses.bind (uses_finalize fun _ => trivial) fun _ => trivial
  cases toolName with
  | none => trivial
  | some name =>
    cases name with
    | null => trivial
    | str name => exact executeApprovedTool_quiet ..
    | _ => exact hunnamed _

/-- Nor does a resumption, before the loop goes on. -/
lemma resumeApproved_quiet (cfg : Config) (a : Id) (context : LoopContext) (call : PausedToolCall) :
    (resumeApproved cfg a context call).Uses Stmt.quiet :=
  Prog.Uses.bind (executeResumedTool_quiet ..) fun _ => Prog.Uses.call_bind trivial fun _ => trivial

/-- A resumption keeps the execution it was given. -/
lemma resumeApproved_stays (cfg : Config) (a : Id) (context : LoopContext) (call : PausedToolCall) :
    (resumeApproved cfg a context call).Ends fun context' => context'.execution = context.execution :=
  Prog.Ends.bind (Prog.ends_true _) fun _ _ _ => rfl

/-- What a resumption leaves in the ledger. -/
lemma resumePaused_entry (cfg : Config) (ans : Answers) (input : ResumeInput) {w : World}
    (hk : w.Keyed) : ResumeEntry cfg input w ((resumePaused cfg input).run (exec ans) w).2 := by
  unfold resumePaused
  cases input.pausedToolCall with
  | none => exact .refused rfl
  | some call =>
    simp only [findExecutionOrFail_bind, Prog.run_stmt, exec]
    cases hrow : w.executions input.executionId with
    | none => exact .refused rfl
    | some row =>
      have hid : row.id = input.executionId := (hk.executions _ row hrow).1
      by_cases hp : row.status = .guardrailPending
      · have hvalid : handleStateTransition .guardrailPending .running = .ok .running := rfl
        simp only [hp, ne_eq, not_true_eq_false, if_false, hvalid, Act.ofExcept_ok, Prog.ret_bind]
        -- The update and the read of the steps, then the approved call and the loop.
        let w₁ := (exec ans (.updateExecution row.id { status := some .running }) w).1
        have hl₁ : w₁.ledger = w.ledger.patch input.executionId { status := some .running } := by
          rw [← hid]
          rfl
        let context := resumeContext cfg input.workspaceId { row with status := .running }
          (exec ans (.findSteps input.executionId) w₁).2
        show ResumeEntry cfg input w ((resumeApproved cfg input.approvalInstanceId context call >>=
          fun context => _).run (exec ans) w₁).2
        refine run_quiet_bind ans (P := fun w' _ => ResumeEntry cfg input w w')
          (resumeApproved_quiet ..) (resumeApproved_stays cfg _ context call) (fun _ w' hl => .stopped hrow hp (hl.trans hl₁)) ?_
        intro context' w₂ hexec hl₂ hc₂
        have hloop := runLoop_entry cfg ans context' (.inr (by rw [hexec]; rfl)) w₂
        have hcid : context'.execution.id = input.executionId := by
          rw [hexec]
          exact hid
        rw [Prog.run_bind]
        rcases hrun : (runLoop cfg context').run (exec ans) w₂ with ⟨r, w₃⟩
        rw [hrun] at hloop
        cases hloop with
        | threw same => exact .stopped hrow hp (same.trans (hl₂.trans hl₁))
        | @ended status context'' final same =>
          refine .ended hrow hp final ?_
          simp only [Prog.call_bind, Prog.run_stmt, findExecutionOrFail_run]
          rw [ledger_updateExecution, same, hl₂, hl₁, hid]
        | @parked context'' id hold fresh escalates entry =>
          refine .parked (hold.instance cfg context' id) hrow hp (hc₂.trans fresh)
            (hcid ▸ hold.asks ..) ?_
          simp only [Prog.call_bind, Prog.run_stmt, findExecutionOrFail_run]
          rw [ledger_updateExecution, entry, hl₂, hl₁, hcid, hid]
      · simp only [ne_eq, hp, not_false_eq_true, if_true]
        exact .refused rfl

/-! ## The gate -/

/-- The gate refuses the call: it is not granted, or the guardrail blocks it. -/
def GateRefuses (cfg : Config) (toolName : String) (toolInput : Json) : Prop :=
  checkToolAccess toolName cfg.allowedTools [] = false ∨
    ∃ evaluation, evaluate cfg cfg.workspaceId toolName toolInput [] = .ok evaluation ∧
      evaluation.riskLevel = "L4"

inductive GateEntry (cfg : Config) (toolName : String) (toolInput : Json) (w w' : World) :
    Except String GateResult → Prop where
  | threw {error : String}
      (entry : w'.ledger = w.ledger.enter w.clock ((gateExecution cfg toolName).at w.clock)) :
      GateEntry cfg toolName toolInput w w' (.error error)
  | allowed {call : Id}
      (entry : w'.ledger = w.ledger.enter w.clock ((gateExecution cfg toolName).at w.clock)) :
      GateEntry cfg toolName toolInput w w' (.ok (.allow w.clock call))
  | refused {call : Id} {reason : String} (refuses : GateRefuses cfg toolName toolInput)
      (entry : w'.ledger = (w.ledger.enter w.clock ((gateExecution cfg toolName).at w.clock)).patch
        w.clock { status := some .failed, completedAt := true, outputSummary := some reason }) :
      GateEntry cfg toolName toolInput w w' (.ok (.blocked w.clock call reason))
  | paused {call id : Id} {riskLevel : String} (inst : ApprovalInstance) (fresh : w.clock < id)
      (asks : Asks cfg w.clock id inst)
      (entry : w'.ledger = ((w.ledger.enter w.clock ((gateExecution cfg toolName).at w.clock)).ask
        id inst).patch w.clock { status := some .guardrailPending }) :
      GateEntry cfg toolName toolInput w w' (.ok (.paused w.clock call id riskLevel))

/-- A transition that selects exactly one record succeeds, and makes no entry. -/
lemma transition_run (ans : Answers) {α : Type} {id : Id} {expected : List ToolCallStatus}
    {p : ToolCallPatch} {f : Unit → Act α} {w : World}
    (h : w.toolCalls.countP (·.selected id expected) = 1) :
    (transition id expected p >>= f).run (exec ans) w =
      (f ()).run (exec ans) (exec ans (.transitionToolCall id expected p) w).1 := by
  rw [transition_bind, Prog.run_stmt]
  exact congrArg (fun q : Act α => q.run (exec ans) (exec ans (.transitionToolCall id expected p) w).1)
    (if_pos h)

/-- The record that was inserted last is the only one with its key. -/
lemma countP_fresh {rows : List ToolCallRecord} (row : ToolCallRecord)
    (h : ∀ r ∈ rows, r.id < row.id) (hs : row.status = .started) :
    (rows ++ [row]).countP (·.selected row.id [.started]) = 1 := by
  have hrows : rows.countP (·.selected row.id [.started]) = 0 := by
    refine List.countP_eq_zero.mpr fun r hr hsel => ?_
    have hid : r.id = row.id := by
      have := hsel
      simp only [ToolCallRecord.selected, Bool.and_eq_true, decide_eq_true_eq] at this
      exact this.1
    exact absurd hid (Nat.ne_of_lt (h r hr))
  rw [List.countP_append, hrows]
  simp [ToolCallRecord.selected, hs]

/-- A refused call whose record is selected once is blocked. -/
lemma refuseCall_run (ans : Answers) {e callId : Id} {p : ToolCallPatch} {reason : String}
    {w : World} (h : w.toolCalls.countP (·.selected callId [.started]) = 1) :
    ((refuseCall e callId p reason).run (exec ans) w).1 = .ok (.blocked e callId reason) ∧
      ((refuseCall e callId p reason).run (exec ans) w).2.ledger = w.ledger.patch e
        { status := some .failed, completedAt := true, outputSummary := some reason } := by
  unfold refuseCall
  rw [transition_run ans h]
  exact ⟨rfl, rfl⟩

/-- A paused call whose record is selected once asks for its approval. -/
lemma pauseCall_run (cfg : Config) (ans : Answers) (e callId : Id) (toolName : String)
    (toolInput : Json) (evaluation : GuardrailEvaluation) {w : World}
    (h : w.toolCalls.countP (·.selected callId [.started]) = 1) :
    let out := (pauseCall cfg e callId toolName toolInput evaluation).run (exec ans) w
    ∃ inst riskLevel, Asks cfg e w.clock inst ∧
      out.1 = .ok (.paused e callId w.clock riskLevel) ∧
      out.2.ledger = (w.ledger.ask w.clock inst).patch e { status := some .guardrailPending } := by
  intro out
  let request : AgentApprovalRequest :=
    { workspaceId := cfg.workspaceId
      agentExecutionId := e
      toolName
      toolInput
      riskLevel := evaluation.riskLevel
      description := evaluation.ruleName.getD toolName }
  have hvalid : handleStateTransition .running .guardrailPending = .ok .guardrailPending := rfl
  refine ⟨_, evaluation.riskLevel, ⟨request, rfl, rfl⟩, ?_⟩
  simp only [out, pauseCall, createAgentApproval, Prog.call_bind, Prog.stmt_bind, Prog.ret_bind,
    Prog.pure_eq, Prog.run_stmt]
  rw [transition_run ans (by exact h)]
  simp only [hvalid, Act.ofExcept_ok, Prog.ret_bind, Prog.run_stmt, Prog.run_ret]
  exact ⟨rfl, (ledger_quiet ans (by exact rfl)).trans rfl⟩

/-- What the guardrail leaves in the ledger. -/
lemma judgeCall_entry (cfg : Config) (ans : Answers) (e : Id) (call : ToolCallRecord)
    (toolName : String) (toolInput : Json) {w : World}
    (h : w.toolCalls.countP (·.selected call.id [.started]) = 1) :
    let out := (judgeCall cfg e call.id toolName toolInput).run (exec ans) w
    (∃ error, out.1 = .error error ∧ out.2.ledger = w.ledger) ∨
      (out.1 = .ok (.allow e call.id) ∧ out.2.ledger = w.ledger) ∨
      (∃ reason, GateRefuses cfg toolName toolInput ∧ out.1 = .ok (.blocked e call.id reason) ∧
        out.2.ledger = w.ledger.patch e
          { status := some .failed, completedAt := true, outputSummary := some reason }) ∨
      ∃ inst riskLevel, Asks cfg e w.clock inst ∧
        out.1 = .ok (.paused e call.id w.clock riskLevel) ∧
        out.2.ledger = (w.ledger.ask w.clock inst).patch e { status := some .guardrailPending } := by
  intro out
  simp only [out, judgeCall]
  -- the grant, the evaluation, the level, in the order of the source
  by_cases hg : checkToolAccess toolName cfg.allowedTools [] = true
  · simp only [hg, Bool.not_true, Bool.false_eq_true, if_false]
    cases hev : evaluate cfg cfg.workspaceId toolName toolInput [] with
    | error error => exact .inl ⟨error, rfl, rfl⟩
    | ok evaluation =>
      simp only [Act.ofExcept_ok, Prog.ret_bind]
      by_cases h4 : evaluation.riskLevel = "L4"
      · rw [if_pos h4]
        exact .inr (.inr (.inl ⟨_, .inr ⟨evaluation, hev, h4⟩, refuseCall_run ans h⟩))
      · rw [if_neg h4]
        by_cases hp : evaluation.matched ∧
            (evaluation.riskLevel = "L2" ∨ evaluation.riskLevel = "L3")
        · rw [if_pos hp]
          exact .inr (.inr (.inr (pauseCall_run cfg ans _ _ _ _ _ h)))
        · rw [if_neg hp]
          exact .inr (.inl ⟨rfl, rfl⟩)
  · simp only [eq_false_of_ne_true hg, Bool.not_false, if_true]
    exact .inr (.inr (.inl ⟨_, .inl (eq_false_of_ne_true hg), refuseCall_run ans h⟩))

/-- What a gate leaves in the ledger. -/
lemma gate_entry (cfg : Config) (ans : Answers) (toolName : String) (toolInput : Json) {w : World}
    (hk : w.Keyed) :
    GateEntry cfg toolName toolInput w ((gate cfg toolName toolInput).run (exec ans) w).2
      ((gate cfg toolName toolInput).run (exec ans) w).1 := by
  -- The execution, its event and its tool-call record, which is the only one with its key.
  let w₂ := (exec ans (.enqueue (gateStarted cfg w.clock toolName))
    (exec ans (.createExecution (gateExecution cfg toolName)) w).1).1
  let call : ToolCallRecord :=
    { id := w₂.clock
      executionId := w.clock
      workspaceId := cfg.workspaceId
      toolName
      toolCategory := "governed_gate"
      status := .started }
  let w₃ := (exec ans (.createToolCall { call with id := 0 }) w₂).1
  have hl : w₃.ledger = w.ledger.enter w.clock ((gateExecution cfg toolName).at w.clock) :=
    (ledger_quiet ans (s := .createToolCall { call with id := 0 }) trivial).trans
      ((ledger_quiet ans (by exact rfl)).trans rfl)
  have hone : w₃.toolCalls.countP (·.selected call.id [.started]) = 1 :=
    countP_fresh call
      (fun r hr => (hk.toolCalls r hr).trans (Nat.lt_succ_of_lt (Nat.lt_succ_self _))) rfl
  have hjudge := judgeCall_entry cfg ans w.clock call toolName toolInput hone
  show GateEntry cfg toolName toolInput w
    ((judgeCall cfg w.clock call.id toolName toolInput).run (exec ans) w₃).2
    ((judgeCall cfg w.clock call.id toolName toolInput).run (exec ans) w₃).1
  generalize (judgeCall cfg w.clock call.id toolName toolInput).run (exec ans) w₃ = out at hjudge
  obtain ⟨r, w'⟩ := out
  rw [hl] at hjudge
  obtain ⟨error, hr, hw⟩ | ⟨hr, hw⟩ | ⟨reason, hrefuses, hr, hw⟩ | ⟨inst, riskLevel, hasks, hr, hw⟩ :=
    hjudge
  · cases hr
    exact .threw hw
  · cases hr
    exact .allowed hw
  · cases hr
    exact .refused hrefuses hw
  · cases hr
    have hfresh : w.clock < w₃.clock := Nat.lt_succ_of_lt (Nat.lt_succ_of_lt (Nat.lt_succ_self _))
    exact .paused inst hfresh hasks hw

/-! ## Completion -/

inductive CompleteEntry (e : Id) (outcome : GateOutcome) (w w' : World) : Prop where
  | refused (same : w'.ledger = w.ledger)
  | closed {row : AgentExecution} (found : w.executions e = some row)
      (runs : row.status = .running)
      (entry : w'.ledger = (w.ledger.patch e
        { status := some outcome.executionStatus, completedAt := true }).close e outcome.eventType)

/-- The event of a completion is a terminal one. -/
lemma gateCompleted_terminal (cfg : Config) (e : Id) (outcome : GateOutcome) :
    (gateCompleted cfg e outcome).eventType.terminal = true := by
  show (if outcome.success then EventType.executionCompleted else .executionFailed).terminal = true
  split <;> rfl

/-- A running execution may take every outcome. -/
lemma running_to_outcome (outcome : GateOutcome) :
    handleStateTransition .running outcome.executionStatus = .ok outcome.executionStatus := by
  unfold GateOutcome.executionStatus
  split <;> rfl

/-- What a completion leaves in the ledger. -/
lemma complete_entry (cfg : Config) (ans : Answers) (e : Id) (outcome : GateOutcome) (w : World) :
    CompleteEntry e outcome w ((complete cfg e outcome).run (exec ans) w).2 := by
  simp only [complete, findExecutionOrFail_bind, Prog.run_stmt, exec]
  cases hrow : w.executions e with
  | none => exact .refused rfl
  | some row =>
    by_cases hr : row.status = .running
    · simp only [hr, ne_eq, not_true_eq_false, if_false, Prog.call_bind, Prog.run_stmt, exec]
      cases w.toolCalls.filter (·.executionId = e) with
      | nil => exact .refused rfl
      | cons call rest =>
        have hresume : (resumeCall call).Uses Stmt.quiet :=
          Prog.uses_ite.mpr ⟨fun _ => uses_transition.mpr trivial, fun _ => trivial⟩
        refine run_quiet_bind ans (P := fun w' _ => CompleteEntry e outcome w w') hresume
          (Prog.ends_true _) (fun _ _ hl => .refused hl) fun _ w₁ _ hl₁ _ => ?_
        refine run_quiet_bind ans (P := fun w' _ => CompleteEntry e outcome w w')
          (uses_finalize fun _ => trivial) (Prog.ends_true _)
          (fun _ _ hl => .refused (hl.trans hl₁)) fun _ w₂ _ hl₂ _ => ?_
        simp only [running_to_outcome, Act.ofExcept_ok, Prog.ret_bind, Prog.call_bind,
          Prog.run_stmt]
        refine .closed hrow hr ?_
        refine (ledger_enqueue ans _ (gateCompleted_terminal cfg e outcome)).trans ?_
        rw [ledger_updateExecution, hl₂, hl₁]
        rfl
    · simp only [ne_eq, hr, not_false_eq_true, if_true]
      exact .refused rfl

/-! ## Decisions -/

/-- A decision of the gateway that is accepted, and one that is refused. -/
inductive DecideEntry (a : Id) (decision : Decision) (w w' : World) : Except String Unit → Prop where
  | refused {error : String} (closed : ∀ row, w.approvals a = some row → row.status ≠ .pending)
      (same : w'.ledger = w.ledger) : DecideEntry a decision w w' (.error error)
  | decided {row : ApprovalInstance} (actor : String) (found : w.approvals a = some row)
      (waits : row.status = .pending)
      (entry : w'.ledger = (w.ledger.decide a
        { status := some decision.status
          completedAt := true
          history := some (row.history ++ [gatewayEntry row decision actor]) }).patch row.recordId
            decision.executionPatch) : DecideEntry a decision w w' (.ok ())

/-- What a decision leaves in the ledger. -/
lemma decideApproval_entry (ans : Answers) (a : Id) (decision : Decision) (actor : String) {w : World}
    (hk : w.Keyed) :
    DecideEntry a decision w ((decideApproval a decision actor).run (exec ans) w).2
      ((decideApproval a decision actor).run (exec ans) w).1 := by
  simp only [decideApproval, findApprovalOrFail_bind, Prog.run_stmt, exec]
  cases hrow : w.approvals a with
  | none => exact .refused (fun row h => by cases hrow.symm.trans h) rfl
  | some row =>
    have hid : row.id = a := (hk.approvals a row hrow).1
    by_cases hp : row.status = .pending
    · simp only [hp, ne_eq, not_true_eq_false, if_false, Prog.call_bind, Prog.run_stmt,
        Prog.run_call, hid]
      exact .decided actor hrow hp rfl
    · simp only [ne_eq, hp, not_false_eq_true, if_true, Prog.run_throw]
      refine .refused (fun row' h => ?_) rfl
      obtain rfl := Option.some.inj (hrow.symm.trans h)
      exact hp

/-- What an accepted request of the console does. -/
inductive ConsoleEntry (cfg : Config) (a : Id) (decision : Decision) (row : ApprovalInstance)
    (w w' : World) : Prop where
  | rejected (hd : decision = .rejected)
      (entry : w'.ledger = w.ledger.decide a { status := some .rejected, completedAt := true })
  | released {execution : AgentExecution} (hd : decision = .approved)
      (found : w.executions row.recordId = some execution)
      (gate : execution.triggerSource = .governanceGate)
      (entry : w'.ledger = w.ledger.patch row.recordId { status := some .running })
  | resumed (w₁ : World) (comment : Option String) (call : PausedToolCall)
      (hd : decision = .approved)
      (loop : ∀ execution, w.executions row.recordId = some execution →
        execution.triggerSource ≠ .governanceGate)
      (keyed : w₁.Keyed)
      (first : w₁.ledger = w.ledger.decide a
        { status := some .approved
          completedAt := true
          history := some (row.history ++ [consoleEntry row comment]) })
      (rest : ResumeEntry cfg ⟨row.recordId, cfg.ws, a, some call⟩ w₁ w')

/-- The console accepts the request: the decision is one of the two, the approval is pending and its
text can be decoded. -/
structure ConsoleAccepts (cfg : Config) (w : World) (a : Id) (text : Option String)
    (decision : Decision) (row : ApprovalInstance) : Prop where
  normal : normalizeDecision text = some decision
  found : w.approvals a = some row
  waits : row.status = .pending
  decodes : ∃ call, decideResumeCall cfg row = .ok call

/-- What a decision over HTTP leaves in the ledger. -/
lemma postDecide_entry (cfg : Config) (ans : Answers) (a : Id) (text comment : Option String)
    {w : World} (hk : w.Keyed) :
    (((postDecide cfg a text comment).run (exec ans) w).2.ledger = w.ledger ∧
        ∀ decision row, ¬ ConsoleAccepts cfg w a text decision row) ∨
      ∃ decision row, ConsoleAccepts cfg w a text decision row ∧
        ConsoleEntry cfg a decision row w ((postDecide cfg a text comment).run (exec ans) w).2 := by
  unfold postDecide
  cases hn : normalizeDecision text with
  | none => exact .inl ⟨rfl, fun decision row h => by cases hn.symm.trans h.normal⟩
  | some decision =>
    simp only [findApprovalOrFail_bind, Prog.run_stmt, exec]
    cases hrow : w.approvals a with
    | none => exact .inl ⟨rfl, fun decision row h => by cases hrow.symm.trans h.found⟩
    | some row =>
      have hid : row.id = a := (hk.approvals a row hrow).1
      by_cases hp : row.status = .pending
      · simp only [hp, ne_eq, not_true_eq_false, if_false]
        -- the row is decided where it is pending and its call can be read
        cases hcall : decideResumeCall cfg row with
        | error e =>
          refine .inl ⟨rfl, fun decision' row' h => ?_⟩
          obtain ⟨call, hc⟩ := h.decodes
          obtain rfl := Option.some.inj (hrow.symm.trans h.found)
          cases hcall.symm.trans hc
        | ok call =>
          refine .inr ⟨decision, row, ⟨hn, hrow, hp, call, hcall⟩, ?_⟩
          cases decision with
          | rejected =>
            refine .rejected rfl ?_
            rw [← hid]
            rfl
          | approved =>
            simp only [Act.ofExcept_ok, Prog.ret_bind, Prog.call_bind, Prog.run_stmt]
            have hf : (exec ans (.findExecution row.recordId) w).2 = w.executions row.recordId := rfl
            generalize (exec ans (.findExecution row.recordId) w).2 = found at hf ⊢
            by_cases hg : found.map (·.triggerSource) = some .governanceGate
            · rw [if_pos hg]
              obtain ⟨execution, hexec, hsource⟩ := Option.map_eq_some_iff.mp hg
              exact .released rfl (hf.symm.trans hexec) hsource rfl
            · rw [if_neg hg]
              have hloop : ∀ execution, w.executions row.recordId = some execution →
                  execution.triggerSource ≠ .governanceGate := by
                intro execution hexec hsource
                rw [← hf] at hexec
                exact hg (by rw [hexec, Option.map_some, hsource])
              simp only [consoleResume, Prog.call_bind, Prog.run_stmt, Prog.pure_eq,
                Prog.run_bind_ret, hid]
              let s : Stmt := .updateApproval a
                { status := some .approved
                  completedAt := true
                  history := some (row.history ++ [consoleEntry row comment]) }
              have hkeyed : (exec ans s w).1.Keyed := exec_keyed trivial hk
              exact .resumed (exec ans s w).1 comment ⟨call.toolName, call.toolInput⟩ rfl hloop hkeyed rfl
                (resumePaused_entry cfg ans _ hkeyed)
      · simp only [ne_eq, hp, not_false_eq_true, if_true]
        refine .inl ⟨rfl, fun decision' row' h => ?_⟩
        obtain rfl := Option.some.inj (hrow.symm.trans h.found)
        exact hp h.waits

/-! ## The gateway -/

/-- A quiet call followed by a completion. -/
lemma executeAndComplete_entry (cfg : Config) (ans : Answers) (approvalId : Option Id)
    (tool : AggregatedTool) (e : Id) (args : Json) (w : World) :
    ∃ w₁ outcome, w₁.ledger = w.ledger ∧ CompleteEntry e outcome w₁
      ((executeAndComplete cfg approvalId tool e args).run (exec ans) w).2 := by
  refine ⟨(exec ans (.callTool approvalId tool args) w).1, ?_⟩
  simp only [executeAndComplete, Prog.call_bind, Prog.run_stmt]
  generalize (exec ans (.callTool approvalId tool args) w).2 = r
  cases r with
  | error error =>
    simp only [Prog.pure_eq, Prog.run_bind_ret]
    exact ⟨_, rfl, complete_entry cfg ans e _ _⟩
  | ok result =>
    simp only [Prog.pure_eq, Prog.run_bind_ret]
    exact ⟨_, rfl, complete_entry cfg ans e _ _⟩

/-- What a lookup that found the approval and its execution does. -/
inductive LookupEntry (row : ApprovalInstance) (execution : AgentExecution) (w w' : World) : Prop where
  | idle (notRejected : row.status ≠ .rejected) (same : w'.ledger = w.ledger)
  | kept (rejected : row.status = .rejected) (cancelled : execution.status = .cancelled)
      (same : w'.ledger = w.ledger)
  | cancels (rejected : row.status = .rejected) (differs : execution.status ≠ .cancelled)
      (entry : w'.ledger = w.ledger.patch row.recordId
        { status := some .cancelled, completedAt := true })
  | repairs {w₁ : World} (outcome : GateOutcome) (waits : row.status = .pending)
      (runs : execution.status = .running)
      (first : w₁.ledger = w.ledger.decide row.id { status := some .approved, completedAt := true })
      (rest : CompleteEntry row.recordId outcome w₁ w' ∨ w'.ledger = w₁.ledger)
  | executes {w₁ : World} {outcome : GateOutcome} (decided : row.status ≠ .pending)
      (notRejected : row.status ≠ .rejected) (first : w₁.ledger = w.ledger)
      (rest : CompleteEntry row.recordId outcome w₁ w')

/-- What the call of an approved lookup leaves in the ledger. -/
lemma lookupExecute_entry (cfg : Config) (ans : Answers) (row : ApprovalInstance) (w : World) :
    ((lookupExecute cfg row).run (exec ans) w).2 = w ∨
      ∃ w₁ outcome, w₁.ledger = w.ledger ∧ CompleteEntry row.recordId outcome w₁
        ((lookupExecute cfg row).run (exec ans) w).2 := by
  unfold lookupExecute
  cases recoveredCall cfg row with
  | none => exact .inl rfl
  | some call => exact .inr (executeAndComplete_entry cfg ans _ _ _ _ w)

/-- What a lookup of a call that was not rejected leaves in the ledger. -/
lemma lookupApproved_entry (cfg : Config) (ans : Answers) {row : ApprovalInstance}
    {execution : AgentExecution} {w : World}
    (hpending : row.status = .pending → execution.status = .running)
    (hrejected : row.status ≠ .rejected) :
    LookupEntry row execution w ((lookupApproved cfg row).run (exec ans) w).2 := by
  unfold lookupApproved
  by_cases hp : row.status = .pending
  · rw [if_pos hp]
    simp only [Prog.call_bind, Prog.run_stmt]
    obtain h | ⟨w₁, outcome, hw₁, hentry⟩ := lookupExecute_entry cfg ans row
      (exec ans (.updateApproval row.id { status := some .approved, completedAt := true }) w).1
    · rw [h]
      exact .repairs ⟨true, .undefined⟩ hp (hpending hp) rfl (.inr rfl)
    · exact .repairs outcome hp (hpending hp) hw₁ (.inl hentry)
  · rw [if_neg hp]
    obtain h | ⟨w₁, outcome, hw₁, hentry⟩ := lookupExecute_entry cfg ans row w
    · rw [h]
      exact .idle hrejected rfl
    · exact .executes hp hrejected hw₁ hentry

/-- What a lookup of a stored approval leaves in the ledger. -/
lemma lookupRow_entry (cfg : Config) (ans : Answers) (row : ApprovalInstance) (w : World) :
    (w.executions row.recordId = none ∧ ((lookupRow cfg row).run (exec ans) w).2 = w) ∨
      ∃ execution, w.executions row.recordId = some execution ∧
        LookupEntry row execution w ((lookupRow cfg row).run (exec ans) w).2 := by
  simp only [lookupRow, findExecutionOrFail_bind, Prog.run_stmt, exec]
  cases hrow : w.executions row.recordId with
  | none => exact .inl ⟨rfl, rfl⟩
  | some execution =>
    refine .inr ⟨execution, rfl, ?_⟩
    dsimp only
    -- an approval whose execution runs already counts as given
    by_cases hrepair : row.status = .pending ∧ execution.status = .running
    · have hs : lookupStatus row execution = .approved := if_pos hrepair
      rw [hs]
      exact lookupApproved_entry cfg ans (fun _ => hrepair.2) (by rw [hrepair.1]; decide)
    · have hs : lookupStatus row execution = row.status := if_neg hrepair
      have hp : row.status = .pending → execution.status = .running ∨ row.status = .pending := .inr
      rw [hs]
      cases hst : row.status with
      | pending => exact .idle (by rw [hst]; decide) rfl
      | rejected =>
        unfold lookupRejected
        by_cases hc : execution.status = .cancelled
        · simp only [hc, ne_eq, not_true_eq_false, if_false]
          exact .kept hst hc rfl
        · simp only [ne_eq, hc, not_false_eq_true, if_true]
          exact .cancels hst hc rfl
      | approved =>
        exact lookupApproved_entry cfg ans (fun h => by cases hst.symm.trans h)
          (fun h => by cases hst.symm.trans h)
      | recalled =>
        exact lookupApproved_entry cfg ans (fun h => by cases hst.symm.trans h)
          (fun h => by cases hst.symm.trans h)
      | expired =>
        exact lookupApproved_entry cfg ans (fun h => by cases hst.symm.trans h)
          (fun h => by cases hst.symm.trans h)

/-- The approval that a call of the lookup tool names. -/
def lookupTarget (cfg : Config) (approvalId : String) : Option Id :=
  if approvalId = "" then none else cfg.idOf approvalId

/-- What a pending lookup leaves in the ledger. -/
lemma pendingLookup_entry (cfg : Config) (ans : Answers) (approvalId : String) (w : World) :
    (((pendingLookup cfg approvalId).run (exec ans) w).2 = w ∧
        ∀ a row, lookupTarget cfg approvalId = some a → w.approvals a = some row →
          w.executions row.recordId = none) ∨
      ∃ a row execution, lookupTarget cfg approvalId = some a ∧ w.approvals a = some row ∧
        w.executions row.recordId = some execution ∧
        LookupEntry row execution w ((pendingLookup cfg approvalId).run (exec ans) w).2 := by
  unfold pendingLookup lookupTarget
  by_cases he : approvalId = ""
  · rw [if_pos he, if_pos he]
    exact .inl ⟨rfl, fun a row h => by cases h⟩
  · rw [if_neg he, if_neg he]
    cases hid : cfg.idOf approvalId with
    | none => exact .inl ⟨rfl, fun a row h => by cases h⟩
    | some a =>
      simp only [Prog.call_bind, Prog.run_stmt, exec]
      cases hrow : w.approvals a with
      | none =>
        refine .inl ⟨rfl, fun a' row h h' => ?_⟩
        obtain rfl := Option.some.inj h
        cases hrow.symm.trans h'
      | some row =>
        obtain ⟨hnone, hw⟩ | ⟨execution, hexec, hentry⟩ := lookupRow_entry cfg ans row w
        · refine .inl ⟨hw, fun a' row' h h' => ?_⟩
          obtain rfl := Option.some.inj h
          obtain rfl := Option.some.inj (hrow.symm.trans h')
          exact hnone
        · exact .inr ⟨a, row, execution, rfl, hrow, hexec, hentry⟩

/-- What a call of a gated tool does: the gate's entry, then the execution of an allowed call, or a
decision by elicitation and the execution of an approved one. -/
inductive GatedEntry (cfg : Config) (name : String) (args : Json) (w w' : World) : Prop where
  | stopped {r : Except String GateResult} {w₁ : World} (gate : GateEntry cfg name args w w₁ r)
      (same : w'.ledger = w₁.ledger)
  | executed {call : Id} {outcome : GateOutcome} {w₁ w₂ : World}
      (gate : GateEntry cfg name args w w₁ (.ok (.allow w.clock call)))
      (same : w₂.ledger = w₁.ledger) (rest : CompleteEntry w.clock outcome w₂ w')
  | decided {call id : Id} {riskLevel : String} {decision : Decision} {r : Except String Unit}
      {w₁ w₂ w₃ w₄ : World} (outcome : GateOutcome)
      (gate : GateEntry cfg name args w w₁ (.ok (.paused w.clock call id riskLevel)))
      (same : w₂.ledger = w₁.ledger) (decision : DecideEntry id decision w₂ w₃ r)
      (same' : w₄.ledger = w₃.ledger)
      (rest : w'.ledger = w₄.ledger ∨ CompleteEntry w.clock outcome w₄ w')

/-- What a question to the client leaves in the ledger. -/
lemma elicitDecision_entry (cfg : Config) (ans : Answers) (tool : AggregatedTool) (name : String)
    (args : Json) (e a : Id) (riskLevel : String) {w : World} (hk : w.Keyed) :
    let w' := ((elicitDecision cfg tool name args e a riskLevel).run (exec ans) w).2
    w'.ledger = w.ledger ∨
      ∃ w₂ w₃ w₄ decision r outcome, w₂.ledger = w.ledger ∧ DecideEntry a decision w₂ w₃ r ∧
        w₄.ledger = w₃.ledger ∧ (w'.ledger = w₄.ledger ∨ CompleteEntry e outcome w₄ w') := by
  intro w'
  let message := "Governance approval required: " ++ name ++ " (risk " ++ riskLevel ++ ")."
  let w₂ := (exec ans (.elicit message) w).1
  have hk₂ : w₂.Keyed := exec_keyed trivial hk
  have hrun : w' = ((elicitDecision cfg tool name args e a riskLevel).run (exec ans) w).2 := rfl
  simp only [elicitDecision, Prog.call_bind, Prog.run_stmt] at hrun
  generalize (exec ans (.elicit message) w).2 = answer at hrun
  -- an answer that decides nothing leaves the approval pending
  cases answer with
  | error error =>
    left
    rw [hrun]
    rfl
  | ok answer =>
    right
    dsimp only at hrun
    by_cases hd : answer.decision? = some "APPROVED"
    · rw [if_pos hd, Prog.run_bind] at hrun
      have hentry := decideApproval_entry ans a .approved "mcp-elicitation" hk₂
      rcases hdec : (decideApproval a .approved "mcp-elicitation").run (exec ans) w₂ with ⟨r, w₃⟩
      change (decideApproval a .approved "mcp-elicitation").run (exec ans)
        (exec ans (.elicit message) w).1 = (r, w₃) at hdec
      rw [hdec] at hrun hentry
      cases r with
      | error error =>
        exact ⟨w₂, w₃, w₃, .approved, .error error, ⟨true, .undefined⟩, rfl, hentry, rfl,
          .inl (congrArg World.ledger hrun)⟩
      | ok u =>
        obtain ⟨w₄, outcome, hw₄, hcomplete⟩ :=
          executeAndComplete_entry cfg ans (some a) tool e args w₃
        rw [← hrun] at hcomplete
        exact ⟨w₂, w₃, w₄, .approved, .ok u, outcome, rfl, hentry, hw₄, .inr hcomplete⟩
    · rw [if_neg hd, Prog.pure_eq, Prog.run_bind_ret] at hrun
      exact ⟨w₂, _, _, .rejected, _, ⟨true, .undefined⟩, rfl,
        decideApproval_entry ans a .rejected "mcp-elicitation" hk₂, rfl,
        .inl (congrArg World.ledger hrun)⟩

/-- What a call of the gateway does. -/
inductive CallEntry (cfg : Config) (name : String) (args : Json) (w w' : World) : Prop where
  | idle (same : w'.ledger = w.ledger)
      (lookups : ∀ a row, name = pendingLookupTool →
        lookupTarget cfg (approvalIdArg cfg args) = some a → w.approvals a = some row →
        w.executions row.recordId = none)
      (gates : name ≠ pendingLookupTool → cfg.byAggregatedName name = none)
  | lookup {a : Id} {row : ApprovalInstance} {execution : AgentExecution}
      (looks : name = pendingLookupTool)
      (target : lookupTarget cfg (approvalIdArg cfg args) = some a)
      (found : w.approvals a = some row) (runs : w.executions row.recordId = some execution)
      (entry : LookupEntry row execution w w')
  | gated {tool : AggregatedTool} (gates : name ≠ pendingLookupTool)
      (known : cfg.byAggregatedName name = some tool) (entry : GatedEntry cfg name args w w')

/-- What a tool call of the gateway leaves in the ledger. -/
lemma toolsCall_entry (cfg : Config) (ans : Answers) (elicitation : Bool) (name : String)
    (args : Json) {w : World} (hk : w.Keyed) :
    CallEntry cfg name args w ((toolsCall cfg elicitation name args).run (exec ans) w).2 := by
  unfold toolsCall
  -- the lookup of pending approvals, then a tool that is known, as the gate judges it
  by_cases hn : name = pendingLookupTool
  · rw [if_pos hn]
    obtain ⟨hw, hnone⟩ | ⟨a, row, execution, ha, hrow, hexec, hentry⟩ :=
      pendingLookup_entry cfg ans (approvalIdArg cfg args) w
    · exact .idle (congrArg World.ledger hw) (fun a row _ => hnone a row) (fun h => absurd hn h)
    · exact .lookup hn ha hrow hexec hentry
  · rw [if_neg hn]
    cases ht : cfg.byAggregatedName name with
    | none => exact .idle rfl (fun a row h => absurd h hn) (fun _ => ht)
    | some tool =>
      refine .gated hn ht ?_
      have hgate := gate_entry cfg ans name args hk
      have hk₁ : ((gate cfg name args).run (exec ans) w).2.Keyed :=
        (run_grows ans (gate_uses (fun _ _ h => h.noSave) (fun _ => trivial) name args) hk).1
      dsimp only
      rw [Prog.run_bind]
      rcases hrun : (gate cfg name args).run (exec ans) w with ⟨r, w₁⟩
      rw [hrun] at hgate hk₁
      cases r with
      | error error => exact .stopped hgate rfl
      | ok verdict =>
        cases verdict with
        | blocked e call reason => exact .stopped hgate rfl
        | allow e call =>
          have he : e = w.clock := by cases hgate; rfl
          subst he
          obtain ⟨w₂, outcome, hw₂, hcomplete⟩ :=
            executeAndComplete_entry cfg ans none tool w.clock args w₁
          exact .executed hgate hw₂ hcomplete
        | paused e call a riskLevel =>
          have he : e = w.clock := by cases hgate; rfl
          subst he
          dsimp only
          cases elicitation with
          | false => exact .stopped hgate rfl
          | true =>
            rw [if_pos rfl]
            obtain hw | ⟨w₂, w₃, w₄, decision, r, outcome, hw₂, hdecide, hw₄, hrest⟩ :=
              elicitDecision_entry cfg ans tool name args w.clock a riskLevel hk₁
            · exact .stopped hgate hw
            · exact .decided outcome hgate hw₂ hdecide hw₄ hrest

/-! ## Frames -/

/-- Of the executions, only `e` may differ. -/
def OnlyAt (e : Id) (l l' : Ledger) : Prop :=
  ∀ k, k ≠ e → l'.executions k = l.executions k

/-- A ledger that stays differs nowhere. -/
lemma OnlyAt.of_eq {e : Id} {l l' : Ledger} (h : l' = l) : OnlyAt e l l' :=
  fun _ _ => h ▸ rfl

/-- Two changes at one execution. -/
lemma OnlyAt.trans {e : Id} {a b c : Ledger} (h : OnlyAt e a b) (h' : OnlyAt e b c) :
    OnlyAt e a c :=
  fun k hk => (h' k hk).trans (h k hk)

section onlyAt
variable {e : Id} {l l' : Ledger} (h : OnlyAt e l l')

include h

/-- A new execution is a change at its id. -/
lemma OnlyAt.enter (row : AgentExecution) : OnlyAt e l (l'.enter e row) :=
  fun k hk => (l'.enter_of_ne row hk).trans (h k hk)

/-- An update is a change at its execution. -/
lemma OnlyAt.patch (p : ExecutionPatch) : OnlyAt e l (l'.patch e p) :=
  fun k hk => (l'.patch_of_ne p hk).trans (h k hk)

/-- A new approval changes no execution. -/
lemma OnlyAt.ask (a : Id) (inst : ApprovalInstance) : OnlyAt e l (l'.ask a inst) := h

/-- The update of an approval changes no execution. -/
lemma OnlyAt.decide (a : Id) (q : ApprovalPatch) : OnlyAt e l (l'.decide a q) := h

/-- A terminal event changes no execution. -/
lemma OnlyAt.close (k : Id) (event : EventType) : OnlyAt e l (l'.close k event) := h

end onlyAt

section frames
variable {w w' : World} {e : Id}

/-- A run changes only the execution it creates. -/
lemma RunEntry.onlyAt {input : ExecutorInput} (h : RunEntry cfg input w w') :
    OnlyAt w.clock w.ledger w'.ledger := by
  have henter : OnlyAt w.clock w.ledger (w.ledger.enter w.clock (input.row.at w.clock)) :=
    (OnlyAt.of_eq rfl).enter _
  cases h with
  | stopped entry =>
    rw [entry]
    exact henter
  | ended final entry =>
    rw [entry]
    exact (henter.patch _).close _ _
  | parked inst fresh asks escalates entry =>
    rw [entry]
    exact (((henter.ask _ _).patch _).patch _).close _ _

/-- A resumption changes only its execution. -/
lemma ResumeEntry.onlyAt {input : ResumeInput} (h : ResumeEntry cfg input w w') :
    OnlyAt input.executionId w.ledger w'.ledger := by
  have hstart : OnlyAt input.executionId w.ledger
      (w.ledger.patch input.executionId { status := some .running }) := (OnlyAt.of_eq rfl).patch _
  cases h with
  | refused same => exact .of_eq same
  | stopped found waits entry =>
    rw [entry]
    exact hstart
  | ended found waits final entry =>
    rw [entry]
    exact hstart.patch _
  | parked inst found waits fresh asks entry =>
    rw [entry]
    exact ((hstart.ask _ _).patch _).patch _

/-- A gate changes only the execution it creates. -/
lemma GateEntry.onlyAt {toolName : String} {toolInput : Json} {r : Except String GateResult}
    (h : GateEntry cfg toolName toolInput w w' r) : OnlyAt w.clock w.ledger w'.ledger := by
  have henter : OnlyAt w.clock w.ledger
      (w.ledger.enter w.clock ((gateExecution cfg toolName).at w.clock)) :=
    (OnlyAt.of_eq rfl).enter _
  cases h with
  | threw entry =>
    rw [entry]
    exact henter
  | allowed entry =>
    rw [entry]
    exact henter
  | refused refuses entry =>
    rw [entry]
    exact henter.patch _
  | paused inst fresh asks entry =>
    rw [entry]
    exact (henter.ask _ _).patch _

/-- A completion changes only its execution. -/
lemma CompleteEntry.onlyAt {outcome : GateOutcome} (h : CompleteEntry e outcome w w') :
    OnlyAt e w.ledger w'.ledger := by
  cases h with
  | refused same => exact .of_eq same
  | closed found runs entry =>
    rw [entry]
    exact ((OnlyAt.of_eq rfl).patch _).close _ _

/-- The approval that the gate asked for. -/
lemma GateEntry.asked {toolName : String} {toolInput : Json} {call id : Id} {riskLevel : String}
    (h : GateEntry cfg toolName toolInput w w' (.ok (.paused w.clock call id riskLevel))) :
    ∃ inst, w.clock < id ∧ Asks cfg w.clock id inst ∧ w'.ledger =
      ((w.ledger.enter w.clock ((gateExecution cfg toolName).at w.clock)).ask id inst).patch
        w.clock { status := some .guardrailPending } := by
  cases h with
  | paused inst fresh asks entry => exact ⟨inst, fresh, asks, entry⟩

/-- A decision changes only the execution of its approval. -/
lemma DecideEntry.onlyAt {a : Id} {decision : Decision} {r : Except String Unit}
    (h : DecideEntry a decision w w' r)
    (he : ∀ row, w.approvals a = some row → row.recordId = e) : OnlyAt e w.ledger w'.ledger := by
  cases h with
  | refused closed same => exact .of_eq same
  | @decided row actor found waits entry =>
    rw [entry, he row found]
    exact ((OnlyAt.of_eq rfl).decide _ _).patch _

/-- A tool call changes only the execution it creates. -/
lemma GatedEntry.onlyAt {name : String} {args : Json} (h : GatedEntry cfg name args w w') :
    OnlyAt w.clock w.ledger w'.ledger := by
  cases h with
  | stopped gate same => exact gate.onlyAt.trans (.of_eq same)
  | executed gate same rest => exact (gate.onlyAt.trans (.of_eq same)).trans rest.onlyAt
  | @decided call id riskLevel decision r w₁ w₂ w₃ w₄ outcome gate same decide same' rest =>
    obtain ⟨inst, -, hasks, hentry⟩ := gate.asked
    have hinst : w₂.ledger.approvals id = some inst := by
      rw [same, hentry]
      exact Table.put_self ..
    have hdecide : OnlyAt w.clock w₂.ledger w₃.ledger := by
      refine decide.onlyAt fun row hrow => ?_
      obtain rfl := Option.some.inj (hinst.symm.trans hrow)
      exact hasks.recordId
    have hfour := ((gate.onlyAt.trans (.of_eq same)).trans hdecide).trans (.of_eq same')
    obtain hlast | hlast := rest
    · exact hfour.trans (.of_eq hlast)
    · exact hfour.trans hlast.onlyAt

end frames

end NexusClaw.Governance
