import NexusClaw.Governance.Store

/-!
# Tool-call lifecycle

`audit-chain/src/tool-call-lifecycle.service.ts`, the part the kernel reaches with a legacy context:
`begin` inserts a record, `transition` is the compare-and-set on the status and `finalize` the
transition to a terminal status. The redacted previews and digests of input and output are columns
no modelled code reads; of `buildPreview` there remains that it refuses a value that is not JSON.
-/

namespace NexusClaw.Governance
open Concurrent

/-- `ToolCallLifecycleService.begin` -/
def begin (toolName toolCategory : String) (executionId workspaceId : Id) : Act ToolCallRecord :=
  createToolCall
    { executionId
      workspaceId
      toolName
      toolCategory
      status := .started }

/-- `ToolCallLifecycleService.transition` -/
def transition (id : Id) (expected : List ToolCallStatus) (patch : ToolCallPatch) : Act Unit := do
  let affected ← transitionToolCall id expected patch
  if affected ≠ 1 then
    .throw ("TOOL_CALL_STATE_CONFLICT:" ++ toString id ++ ":" ++ patch.status.text)
  else pure ()

/-- `ToolCallFinalizeInput` -/
structure ToolCallFinalizeInput where
  status : ToolCallStatus
  output : JsOutput
  permissionCheck : PermissionCheck
  guardrailCheck : GuardrailCheck
  errorCode : Option String

/-- What follows a transition runs only if exactly one record was affected. -/
lemma transition_bind {α : Type} (id : Id) (expected : List ToolCallStatus)
    (patch : ToolCallPatch) (f : Unit → Act α) :
    (transition id expected patch >>= f) =
      .stmt (.transitionToolCall id expected patch) fun affected =>
        if affected = (1 : Nat) then f ()
        else .throw ("TOOL_CALL_STATE_CONFLICT:" ++ toString id ++ ":" ++ patch.status.text) := by
  unfold transition
  simp only [Prog.call_bind, Prog.stmt_bind]
  congr 1
  funext affected
  by_cases h : affected = (1 : Nat)
  · simp [h]
  · simp [h]

def ToolCallFinalizeInput.patch (input : ToolCallFinalizeInput) : ToolCallPatch where
  status := input.status
  permissionCheck := some input.permissionCheck
  permissionDetail := some none
  guardrailCheck := some input.guardrailCheck
  errorCode := some input.errorCode

/-- `ToolCallLifecycleService.finalize` -/
def finalize (id : Id) (input : ToolCallFinalizeInput) : Act Unit :=
  match input.output with
  | .notJson => .throw "TOOL_CALL_OUTPUT_NOT_JSON"
  | _ => transition id [.started, .running] input.patch

/-- `finalize` refuses an output that is not JSON before it touches the record. -/
lemma finalize_cases (id : Id) (input : ToolCallFinalizeInput) :
    finalize id input = .throw "TOOL_CALL_OUTPUT_NOT_JSON" ∨
      finalize id input = transition id [.started, .running] input.patch := by
  unfold finalize
  cases input.output with
  | notJson => exact .inl rfl
  | undefined => exact .inr rfl
  | json v => exact .inr rfl

end NexusClaw.Governance
