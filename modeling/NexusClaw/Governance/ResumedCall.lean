import NexusClaw.Governance.Growth

/-!
# The call that a resumption runs

`resumePaused` takes the call to run and the approval it was approved under from its caller.
`resumePaused_runs` says which call it runs, as a function of its arguments and the store;
`resumed_call_authorised` when that call is the one the named approval records.
-/

namespace NexusClaw.Governance
open Concurrent

/-- The calls that resumptions under the approval `a` have run. -/
def resumedBodies (a : Id) (w : World) : List (String × Json) :=
  w.trace.filterMap fun
    | .toolBody (.resume a') name toolInput => if a' = a then some (name, toolInput) else none
    | _ => none

/-- No tool body of a resumption. -/
def Stmt.noResume : Stmt → Prop
  | .runTool (.resume _) _ _ => False
  | _ => True

/-- What one resumption ran. -/
def ranBy (cfg : Config) (ans : Answers) (input : ResumeInput) (w : World) : List (String × Json) :=
  (resumedBodies input.approvalInstanceId ((resumePaused cfg input).run (exec ans) w).2).drop
    (resumedBodies input.approvalInstanceId w).length

/-- The tools that the policy of an execution grants. -/
def AgentExecution.grantedTools (row : AgentExecution) : List String :=
  (row.triggerPayload.map (·.allowedTools)).getD []

/-- The approval named by the input is approved, is about this execution and this workspace, and
records this call. -/
def Authorised (cfg : Config) (w : World) (input : ResumeInput) (name : String)
    (toolInput : Json) : Prop :=
  ∃ inst, w.approvals input.approvalInstanceId = some inst ∧ inst.status = .approved ∧
    inst.recordId = input.executionId ∧ inst.workspaceId = input.workspaceId ∧
    ∃ request : AgentApprovalRequest, request.toolName = name ∧ request.toolInput = toolInput ∧
      inst.history.head? = some (request.submitted cfg)

section bodies
variable {a : Id} {ans : Answers} {α β : Type}

/-- A statement that resumes nothing leaves the bodies. -/
lemma resumedBodies_exec {s : Stmt} (hs : s.noResume) (w : World) :
    resumedBodies a (exec ans s w).1 = resumedBodies a w := by
  cases s with
  | runTool origin name toolInput =>
    cases origin with
    | resume a' => exact absurd hs id
    | loop => simp [resumedBodies, exec]
  | chat messages => simp [resumedBodies, exec]
  | callTool approvalId tool args => simp [resumedBodies, exec]
  | _ => rfl

/-- Nor does a program of such statements change them. -/
lemma resumedBodies_run {p : Act α} (hp : p.Uses Stmt.noResume) (w : World) :
    resumedBodies a (p.run (exec ans) w).2 = resumedBodies a w :=
  hp.run (I := fun w' => resumedBodies a w' = resumedBodies a w)
    (fun _ _ hs hw => (resumedBodies_exec hs _).trans hw) rfl

/-- A continuation that runs no resumed tool adds nothing. -/
lemma resumedBodies_bind {p : Act α} {f : α → Act β} (hf : ∀ r, (f r).Uses Stmt.noResume)
    (w : World) : resumedBodies a ((p >>= f).run (exec ans) w).2 =
      resumedBodies a (p.run (exec ans) w).2 := by
  rw [Prog.run_bind]
  rcases p.run (exec ans) w with ⟨r, w'⟩
  cases r with
  | error e => rfl
  | ok r => exact resumedBodies_run (hf r) w'

/-- What the registry runs. -/
lemma registryExecute_runs (cfg : Config) (name : String) (toolInput : Json)
    (allowedTools : List String) (w : World) :
    resumedBodies a ((registryExecute cfg (.resume a) name toolInput allowedTools).run
      (exec ans) w).2 = resumedBodies a w ++
        if name ∈ cfg.tools ∧ name ∈ allowedTools then [(name, toolInput)] else [] := by
  unfold registryExecute
  by_cases hknown : name ∈ cfg.tools
  · rw [if_neg (not_not_intro hknown)]
    by_cases hallowed : name ∈ allowedTools
    · rw [if_neg (not_not_intro hallowed), if_pos ⟨hknown, hallowed⟩, resumedBodies_bind]
      · simp [resumedBodies, exec]
      · intro r
        cases r <;> trivial
    · rw [if_pos hallowed, if_neg fun h => hallowed h.2, List.append_nil]
      rfl
  · rw [if_pos hknown, if_neg fun h => hknown h.1, List.append_nil]
    rfl

/-- What an approved tool runs. -/
lemma executeApprovedTool_runs (cfg : Config) (context : LoopContext) (name : String)
    (toolInput : Json) (w : World) :
    resumedBodies a ((executeApprovedTool cfg (.resume a) context name toolInput).run
      (exec ans) w).2 = resumedBodies a w ++
        if name ∈ cfg.tools ∧ name ∈ context.input.allowedTools then [(name, toolInput)] else [] := by
  simp only [executeApprovedTool, begin, Prog.call_bind, Prog.run_stmt]
  refine (resumedBodies_bind (fun result => ?_) _).trans (registryExecute_runs cfg _ _ _ _)
  exact Prog.Uses.bind (uses_finalize fun _ => trivial) fun _ => Prog.uses_ret _

/-- What the registry runs of a call that was handed over: a name that is no string is none of a tool. -/
def PausedToolCall.runs (cfg : Config) (allowedTools : List String) (call : PausedToolCall) :
    List (String × Json) :=
  ((call.toolName.bind Json.asString).toList.filter fun name =>
    name ∈ cfg.tools ∧ name ∈ allowedTools).map fun name =>
      (name, Json.nullish call.toolInput .empty)

/-- A call without a name runs nothing. -/
lemma executeUnnamedTool_runs (cfg : Config) (context : LoopContext) (toolName : Json) (w : World) :
    resumedBodies a ((executeUnnamedTool cfg context toolName).run (exec ans) w).2 =
      resumedBodies a w := by
  refine resumedBodies_run (p := executeUnnamedTool cfg context toolName) ?_ w
  refine Prog.Uses.call_bind ?_ fun call => ?_
  · trivial
  · exact Prog.Uses.bind (uses_finalize fun _ => trivial) fun _ => trivial

/-- What a resumed call runs. -/
lemma executeResumedTool_runs (cfg : Config) (context : LoopContext) (call : PausedToolCall)
    (w : World) :
    resumedBodies a ((executeResumedTool cfg (.resume a) context
      (Json.nullish call.toolInput .empty) call.toolName).run (exec ans) w).2 =
        resumedBodies a w ++ call.runs cfg context.input.allowedTools := by
  unfold PausedToolCall.runs
  cases call.toolName with
  | none => exact (List.append_nil _).symm
  | some name =>
    cases name with
    | null => exact (List.append_nil _).symm
    | str name =>
      refine (executeApprovedTool_runs ..).trans (congrArg _ ?_)
      by_cases h : name ∈ cfg.tools ∧ name ∈ context.input.allowedTools
      · simp [h, Json.asString]
      · simp [h, Json.asString]
    | _ => exact (executeUnnamedTool_runs ..).trans (List.append_nil _).symm

/-- What a resumption runs. -/
lemma resumeApproved_runs (cfg : Config) (context : LoopContext) (call : PausedToolCall)
    (w : World) :
    resumedBodies a ((resumeApproved cfg a context call).run (exec ans) w).2 =
      resumedBodies a w ++ call.runs cfg context.input.allowedTools := by
  refine (resumedBodies_bind (fun result => ?_) _).trans (executeResumedTool_runs cfg _ _ _)
  exact Prog.Uses.call_bind trivial fun _ => Prog.uses_ret _

/-- The loop resumes nothing. -/
lemma Stmt.loopsFor.noResume {cfg : Config} {e : Id} {h : History Stmt Stmt.Resp} {s : Stmt}
    (hs : s.loopsFor cfg e .loop h) : s.noResume := by
  cases s with
  | runTool origin name toolInput =>
    obtain rfl : origin = .loop := hs
    trivial
  | _ => trivial

end bodies

/-- The call that a resumption runs: the one it was handed, if the execution waits, the tool is
registered and the policy grants it. -/
def resumedCall (cfg : Config) (w : World) (input : ResumeInput) : List (String × Json) :=
  match input.pausedToolCall, w.executions input.executionId with
  | some call, some row =>
    if row.status = .guardrailPending then call.runs cfg row.grantedTools else []
  | _, _ => []

/-- What a resumption runs, with the loop behind it. -/
lemma resumePaused_runs (cfg : Config) (ans : Answers) (input : ResumeInput) (w : World) :
    resumedBodies input.approvalInstanceId ((resumePaused cfg input).run (exec ans) w).2 =
      resumedBodies input.approvalInstanceId w ++ resumedCall cfg w input := by
  unfold resumePaused resumedCall
  cases input.pausedToolCall with
  | none => exact (List.append_nil _).symm
  | some call =>
    simp only [findExecutionOrFail_bind, Prog.run_stmt, exec]
    cases hrow : w.executions input.executionId with
    | none => exact (List.append_nil _).symm
    | some row =>
      by_cases hp : row.status = .guardrailPending
      · have hvalid : handleStateTransition .guardrailPending .running = .ok .running := rfl
        simp only [hp, ne_eq, not_true_eq_false, if_false, hvalid, Act.ofExcept_ok, Prog.ret_bind,
          Prog.call_bind, Prog.run_stmt, if_true]
        -- What follows the approved call is the loop, which runs its tools under another origin.
        rw [resumedBodies_bind fun context => ?_]
        · exact resumeApproved_runs cfg _ call _
        · refine Prog.Uses.bind ((runLoop_along (h := []) cfg context).uses
            fun _ _ hs => hs.noResume) fun _ => ?_
          exact Prog.Uses.call_bind trivial fun _ => uses_findExecutionOrFail.mpr trivial
      · simp only [ne_eq, hp, not_false_eq_true, if_true, if_false]
        exact (List.append_nil _).symm

/-- What ran is the resumed call, if any. -/
lemma ranBy_eq (cfg : Config) (ans : Answers) (input : ResumeInput) (w : World) :
    ranBy cfg ans input w = resumedCall cfg w input := by
  unfold ranBy
  rw [resumePaused_runs, List.drop_left]

/-- When a paused call runs. -/
lemma PausedToolCall.mem_runs {cfg : Config} {allowedTools : List String} {call : PausedToolCall}
    {ran : String × Json} : ran ∈ call.runs cfg allowedTools ↔
      ∃ name, call.toolName = some (.str name) ∧ name ∈ cfg.tools ∧ name ∈ allowedTools ∧
        ran = (name, Json.nullish call.toolInput .empty) := by
  have hname : ∀ name, call.toolName.bind Json.asString = some name ↔
      call.toolName = some (.str name) := by
    intro name
    cases call.toolName with
    | none => simp
    | some v => cases v <;> simp [Json.asString]
  unfold PausedToolCall.runs
  simp only [List.mem_map, List.mem_filter, Option.mem_toList, hname, decide_eq_true_eq]
  constructor
  · rintro ⟨name, ⟨hcall, hknown, hallowed⟩, rfl⟩
    exact ⟨name, hcall, hknown, hallowed, rfl⟩
  · rintro ⟨name, hcall, hknown, hallowed, rfl⟩
    exact ⟨name, ⟨hcall, hknown, hallowed⟩, rfl⟩

/-- When a call is resumed. -/
lemma mem_resumedCall {cfg : Config} {w : World} {input : ResumeInput} {ran : String × Json} :
    ran ∈ resumedCall cfg w input ↔
      ∃ call row, input.pausedToolCall = some call ∧ w.executions input.executionId = some row ∧
        row.status = .guardrailPending ∧ ran ∈ call.runs cfg row.grantedTools := by
  unfold resumedCall
  cases input.pausedToolCall with
  | none => simp
  | some call =>
    cases w.executions input.executionId with
    | none => simp
    | some row =>
      by_cases hwaits : row.status = .guardrailPending
      · simp [hwaits]
      · simp [hwaits]

/-- The calls that a resumption runs are authorised by the approval it names exactly if the caller
hands over a call that is, or one that is not run: the execution does not wait, the tool is not
registered or the policy does not grant it. -/
theorem resumed_call_authorised (cfg : Config) (ans : Answers) (input : ResumeInput) (w : World) :
    (∀ ran ∈ ranBy cfg ans input w, Authorised cfg w input ran.1 ran.2) ↔
      ∀ call name row, input.pausedToolCall = some call → call.toolName = some (.str name) →
        w.executions input.executionId = some row →
        row.status = .guardrailPending → name ∈ cfg.tools → name ∈ row.grantedTools →
        Authorised cfg w input name (Json.nullish call.toolInput .empty) := by
  rw [ranBy_eq]
  constructor
  · intro h call name row hcall hname hrow hwaits hknown hgranted
    exact h (name, _) (mem_resumedCall.mpr ⟨call, row, hcall, hrow, hwaits,
      PausedToolCall.mem_runs.mpr ⟨name, hname, hknown, hgranted, rfl⟩⟩)
  · intro h ran hran
    obtain ⟨call, row, hcall, hrow, hwaits, hruns⟩ := mem_resumedCall.mp hran
    obtain ⟨name, hname, hknown, hgranted, rfl⟩ := PausedToolCall.mem_runs.mp hruns
    exact h call name row hcall hname hrow hwaits hknown hgranted

/-- The run of `pausedRun` is resumed while its approval is still pending. -/
def undecidedResume : ResumeInput where
  executionId := 0
  workspaceId := 1
  approvalInstanceId := 3
  pausedToolCall := some
    { toolName := some (.str "mail__send")
      toolInput := some .empty }

/-- A resumption runs its call although nobody decided. -/
theorem resumed_without_approval :
    ¬ ∀ ran ∈ ranBy .small .proposing undecidedResume pausedRun,
      Authorised .small pausedRun undecidedResume ran.1 ran.2 := by
  intro h
  have hwaits : (pausedRun.executions 0).map (fun row =>
      decide (row.status = .guardrailPending ∧ "mail__send" ∈ row.grantedTools)) = some true := by
    decide +kernel
  have hpending : (pausedRun.approvals 3).map (·.status) = some .pending := by decide +kernel
  obtain ⟨row, hrow, hreaches⟩ := Option.map_eq_some_iff.mp hwaits
  obtain ⟨hstatus, hgranted⟩ := of_decide_eq_true hreaches
  rw [ranBy_eq] at h
  have hruns : ("mail__send", Json.empty) ∈ PausedToolCall.runs .small row.grantedTools
      ⟨some (.str "mail__send"), some .empty⟩ :=
    PausedToolCall.mem_runs.mpr ⟨_, rfl, List.mem_singleton_self _, hgranted, rfl⟩
  obtain ⟨inst, hinst, happroved, -⟩ :=
    h ("mail__send", .empty) (mem_resumedCall.mpr ⟨_, row, rfl, hrow, hstatus, hruns⟩)
  change pausedRun.approvals 3 = some inst at hinst
  rw [hinst, Option.map_some, happroved] at hpending
  exact nomatch hpending

end NexusClaw.Governance
