import NexusClaw.Governance.Entries

/-!
# The gate and the loop decide alike

`GateService.gate` and `ExecutorEngine.gateToolCall` read the same evaluation with conditionals of
different shape: the one lists what to block and what to pause and allows the rest, the other lists
what to allow and what to block and pauses the rest. `gateVerdict` and `loopVerdict` are the two
decisions as functions of the call; `gate_decides` and `gateToolCall_decides` say that the programs
compute them, and `gate_and_loop_agree` when they agree and fail closed.
-/

namespace NexusClaw.Governance
open Concurrent

inductive Verdict where
  | allow
  | paused
  | blocked
deriving DecidableEq, Repr

def GateResult.verdict : GateResult → Verdict
  | .allow _ _ => .allow
  | .paused _ _ _ _ => .paused
  | .blocked _ _ _ => .blocked

def ToolGate.verdict : ToolGate → Verdict
  | .allow _ => .allow
  | .paused => .paused
  | .blocked _ => .blocked

/-- The decision of the gate on an evaluation. -/
def GuardrailEvaluation.gated (evaluation : GuardrailEvaluation) : Verdict :=
  if evaluation.riskLevel = "L4" then .blocked
  else if evaluation.matched ∧ (evaluation.riskLevel = "L2" ∨ evaluation.riskLevel = "L3") then
    .paused
  else .allow

/-- The decision of the loop on an evaluation. -/
def GuardrailEvaluation.looped (evaluation : GuardrailEvaluation) : Verdict :=
  if !evaluation.matched ∨ evaluation.riskLevel = "L0" ∨ evaluation.riskLevel = "L1" then .allow
  else if evaluation.riskLevel = "L4" then .blocked
  else .paused

/-- A decision on a call: access first, then the evaluation. -/
def decideCall (cfg : Config) (judge : GuardrailEvaluation → Verdict) (toolName : String)
    (toolInput : Json) : Except String Verdict :=
  if checkToolAccess toolName cfg.allowedTools [] then
    (evaluate cfg cfg.workspaceId toolName toolInput []).map judge
  else .ok .blocked

def gateVerdict (cfg : Config) : String → Json → Except String Verdict :=
  decideCall cfg GuardrailEvaluation.gated

def loopVerdict (cfg : Config) : String → Json → Except String Verdict :=
  decideCall cfg GuardrailEvaluation.looped

/-- The loop works under the gate's grants: its workspace and allow-list, no blocked tools and no
rules bound to the agent; its execution is under way. -/
structure LoopContext.Alike (cfg : Config) (context : LoopContext) : Prop where
  workspaceId : context.input.workspaceId = cfg.workspaceId
  allowedTools : context.input.allowedTools = cfg.allowedTools
  blockedTools : context.input.blockedTools = []
  guardrailRuleIds : context.input.guardrailRuleIds = []
  status : context.execution.status = .pending ∨ context.execution.status = .running

section programs
variable (cfg : Config) (ans : Answers) (toolName : String) (toolInput : Json)

/-- The verdict of a judged call. -/
lemma judgeCall_decides {e : Id} {call : ToolCallRecord} {w : World}
    (h : w.toolCalls.countP (·.selected call.id [.started]) = 1) :
    ((judgeCall cfg e call.id toolName toolInput).run (exec ans) w).1.map GateResult.verdict =
      gateVerdict cfg toolName toolInput := by
  unfold judgeCall gateVerdict decideCall
  -- both sides by the access check, the evaluation and the level
  cases haccess : checkToolAccess toolName cfg.allowedTools [] with
  | false =>
    simp only [Bool.not_false, if_true, Bool.false_eq_true, if_false]
    rw [(refuseCall_run ans h).1]
    rfl
  | true =>
    simp only [Bool.not_true, Bool.false_eq_true, if_false, if_true]
    cases heval : evaluate cfg cfg.workspaceId toolName toolInput [] with
    | error e => rfl
    | ok evaluation =>
      simp only [Act.ofExcept_ok, Prog.ret_bind, Except.map, GuardrailEvaluation.gated]
      by_cases h4 : evaluation.riskLevel = "L4"
      · rw [if_pos h4, if_pos h4, (refuseCall_run ans h).1]
        rfl
      · rw [if_neg h4, if_neg h4]
        by_cases hp : evaluation.matched ∧
            (evaluation.riskLevel = "L2" ∨ evaluation.riskLevel = "L3")
        · rw [if_pos hp, if_pos hp]
          obtain ⟨inst, riskLevel, -, hresult, -⟩ := pauseCall_run cfg ans e call.id toolName
            toolInput evaluation h
          rw [hresult]
          rfl
        · rw [if_neg hp, if_neg hp]
          rfl

/-- The verdict of the gate. -/
lemma gate_decides {w : World} (hk : w.Keyed) :
    ((gate cfg toolName toolInput).run (exec ans) w).1.map GateResult.verdict =
      gateVerdict cfg toolName toolInput := by
  let w₂ := (exec ans (.enqueue (gateStarted cfg w.clock toolName))
    (exec ans (.createExecution (gateExecution cfg toolName)) w).1).1
  let call : ToolCallRecord :=
    { id := w₂.clock
      executionId := w.clock
      workspaceId := cfg.workspaceId
      toolName
      toolCategory := "governed_gate"
      status := .started }
  have hone : (exec ans (.createToolCall { call with id := 0 }) w₂).1.toolCalls.countP
      (·.selected call.id [.started]) = 1 :=
    countP_fresh call
      (fun r hr => (hk.toolCalls r hr).trans (Nat.lt_succ_of_lt (Nat.lt_succ_self _))) rfl
  exact judgeCall_decides cfg ans toolName toolInput (e := w.clock) hone

/-- The verdict of the loop. -/
lemma gateToolCall_decides {context : LoopContext} (hc : context.Alike cfg) (w : World) :
    ((gateToolCall cfg context (.str toolName) toolInput).run (exec ans) w).1.map
      (fun r => r.1.verdict) = loopVerdict cfg toolName toolInput := by
  simp only [gateToolCall, loopVerdict, decideCall, hc.workspaceId, hc.allowedTools,
    hc.blockedTools, hc.guardrailRuleIds]
  cases haccess : checkToolAccess toolName cfg.allowedTools [] with
  | false => rfl
  | true =>
    simp only [Bool.not_true, Bool.false_eq_true, if_false, if_true]
    cases heval : evaluate cfg cfg.workspaceId toolName toolInput [] with
    | error e => rfl
    | ok evaluation =>
      simp only [Act.ofExcept_ok, Prog.ret_bind, Except.map, GuardrailEvaluation.looped]
      by_cases hpass : !evaluation.matched ∨ evaluation.riskLevel = "L0" ∨
          evaluation.riskLevel = "L1"
      · rw [if_pos hpass, if_pos hpass]
        rfl
      · rw [if_neg hpass, if_neg hpass]
        by_cases h4 : evaluation.riskLevel = "L4"
        · rw [if_pos h4, if_pos h4]
          rfl
        · rw [if_neg h4, if_neg h4]
          obtain ⟨context', w', hrun, -⟩ := pauseLoop_round ans hc.status toolName
            toolInput evaluation w
          rw [hrun]
          rfl

end programs

/-! ## Where they agree -/

/-- A level that the engine knows. -/
def KnownLevel (level : String) : Prop :=
  level = "L0" ∨ level = "L1" ∨ level = "L2" ∨ level = "L3" ∨ level = "L4"

/-- The two decisions on an evaluation are the same and allow only an unmatched call, L0 or L1,
exactly if the level of a matched call is known. -/
lemma verdicts_agree {evaluation : GuardrailEvaluation}
    (hunmatched : evaluation.matched = false → evaluation.riskLevel = "L0") :
    (evaluation.gated = evaluation.looped ∧
      (evaluation.matched = true → evaluation.riskLevel ≠ "L0" → evaluation.riskLevel ≠ "L1" →
        evaluation.gated ≠ .allow ∧ evaluation.looped ≠ .allow)) ↔
      (evaluation.matched = true → KnownLevel evaluation.riskLevel) := by
  unfold GuardrailEvaluation.gated GuardrailEvaluation.looped KnownLevel
  cases hm : evaluation.matched with
  | false =>
    have h0 := hunmatched hm
    simp [h0]
  | true =>
    by_cases h0 : evaluation.riskLevel = "L0"
    · simp [h0]
    · by_cases h1 : evaluation.riskLevel = "L1"
      · simp [h1]
      · by_cases h2 : evaluation.riskLevel = "L2"
        · simp [h2]
        · by_cases h3 : evaluation.riskLevel = "L3"
          · simp [h3]
          · by_cases h4 : evaluation.riskLevel = "L4"
            · simp [h4]
            · simp [h0, h1, h2, h3, h4]

/-- The gate and the loop return the same decision on a call, and neither allows it on the word of a
matched rule above L1, exactly if the call is not granted, its evaluation throws, or the rule
selected for it has one of the five levels. -/
theorem gate_and_loop_agree (cfg : Config) (ans : Answers) (toolName : String) (toolInput : Json)
    (context : LoopContext) (hc : context.Alike cfg) (w w' : World) (hk : w.Keyed) :
    let gated := ((gate cfg toolName toolInput).run (exec ans) w).1.map GateResult.verdict
    let looped := ((gateToolCall cfg context (.str toolName) toolInput).run (exec ans) w').1.map
      fun r => r.1.verdict
    (gated = looped ∧
      ∀ evaluation, evaluate cfg cfg.workspaceId toolName toolInput [] = .ok evaluation →
        evaluation.matched = true → evaluation.riskLevel ≠ "L0" → evaluation.riskLevel ≠ "L1" →
        gated ≠ .ok .allow ∧ looped ≠ .ok .allow) ↔
      ∀ evaluation, checkToolAccess toolName cfg.allowedTools [] = true →
        evaluate cfg cfg.workspaceId toolName toolInput [] = .ok evaluation →
        evaluation.matched = true → KnownLevel evaluation.riskLevel := by
  dsimp only
  rw [gate_decides cfg ans toolName toolInput hk,
    gateToolCall_decides cfg ans toolName toolInput hc]
  unfold gateVerdict loopVerdict decideCall
  cases haccess : checkToolAccess toolName cfg.allowedTools [] with
  | false => simp
  | true =>
    simp only [if_true, true_implies]
    cases heval : evaluate cfg cfg.workspaceId toolName toolInput [] with
    | error e => simp [Except.map]
    | ok evaluation =>
      have hagree := verdicts_agree (evaluate_unmatched heval)
      simp only [Except.map, Except.ok.injEq, ne_eq, forall_eq'] at hagree ⊢
      exact hagree

/-- A run under the grants of the small deployment. -/
lemma freshContext_alike : freshContext.Alike .small :=
  ⟨rfl, rfl, rfl, rfl, .inl rfl⟩

/-- Both pause the same call. -/
theorem gate_and_loop_pause :
    ((gate .small "mail__send" .empty).run (exec .small) .empty).1.map GateResult.verdict =
      ((gateToolCall .small freshContext (.str "mail__send") .empty).run (exec .small) .empty).1.map
        (fun r => r.1.verdict) := by
  refine ((gate_and_loop_agree .small .small "mail__send" .empty freshContext freshContext_alike
    .empty .empty empty_keyed).mpr ?_).1
  intro evaluation _ heval _
  obtain rfl := Except.ok.inj heval
  exact .inr (.inr (.inr (.inl rfl)))

/-- The small deployment with a level that the engine does not know. -/
def Config.unleveled : Config :=
  { Config.small with
    rules :=
      [{ id := "r1"
         workspaceId := 1
         name := "hold"
         isActive := true
         priority := 0
         conditions := some {}
         riskLevel := "L5" }] }

/-- The gate allows a call whose rule has an unknown level, and the loop pauses it. -/
theorem gate_allows_unleveled :
    ¬ ∀ context : LoopContext, context.Alike .unleveled →
      ((gate .unleveled "mail__send" .empty).run (exec .small) .empty).1.map GateResult.verdict =
        ((gateToolCall .unleveled context (.str "mail__send") .empty).run (exec .small)
          .empty).1.map (fun r => r.1.verdict) := by
  intro h
  have hsame := h freshContext ⟨rfl, rfl, rfl, rfl, .inl rfl⟩
  rw [gate_decides .unleveled .small "mail__send" .empty empty_keyed,
    gateToolCall_decides .unleveled .small "mail__send" .empty
      ⟨rfl, rfl, rfl, rfl, .inl rfl⟩] at hsame
  have hgate : gateVerdict .unleveled "mail__send" .empty = .ok .allow := rfl
  have hloop : loopVerdict .unleveled "mail__send" .empty = .ok .paused := rfl
  rw [hgate, hloop] at hsame
  cases hsame

end NexusClaw.Governance
