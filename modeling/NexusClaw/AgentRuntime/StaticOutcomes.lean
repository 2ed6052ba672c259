import NexusClaw.AgentRuntime.StaticVerdicts

/-!
# Every call ends as its outcome

A call ends with the record in the status of its outcome, just where its record is one that the call
may still move (`executeTool_ends_iff`).
-/

namespace NexusClaw.AgentRuntime.StaticCalls
open Concurrent
open Governance (Id ToolCallStatus PermissionCheck GuardrailCheck JsOutput riskOrder)
open AuditChain

/-! ## Exits and outcomes -/

section exits
variable {cfg : Config} {host : Host} {tool : AgentTool} {input : Json} {context : StaticContext}
variable {call : HeldCall} {w : World} {id : Id} {r : Except String StaticResult × World}

/-- An input is not both fine and refused. -/
lemma ValidInput.not_invalid (h : ValidInput cfg host tool input) :
    ¬ InvalidInput cfg host tool input :=
  fun hinvalid => hinvalid.2.2 (h hinvalid.1).2

/-- The first reason decides. -/
lemma Refused.unique {status status' : ToolCallStatus}
    (h : Refused cfg host tool input context status)
    (h' : Refused cfg host tool input context status') : status = status' := by
  -- the checks come one after the other, and each presupposes those before it
  cases h with
  | tool missing =>
    cases h' with
    | tool _ => rfl
    | input allowed _ => exact absurd allowed missing
    | object _ _ _ => rfl
    | risk allowed _ _ _ => exact absurd allowed missing
  | input allowed invalid =>
    cases h' with
    | tool missing => exact absurd allowed missing
    | input _ _ => rfl
    | object _ valid _ => exact absurd invalid valid.not_invalid
    | risk _ valid _ _ => exact absurd invalid valid.not_invalid
  | object allowed valid missing =>
    cases h' with
    | tool _ => rfl
    | input _ invalid => exact absurd invalid valid.not_invalid
    | object _ _ _ => rfl
    | risk _ _ granted _ => exact absurd granted missing
  | risk allowed valid granted _ =>
    cases h' with
    | tool missing => exact absurd allowed missing
    | input _ invalid => exact absurd invalid valid.not_invalid
    | object _ _ missing => exact absurd granted missing
    | risk _ _ _ _ => rfl

/-- A refused call has one of three statuses. -/
lemma Refused.mem {status : ToolCallStatus} (h : Refused cfg host tool input context status) :
    status ∈ [ToolCallStatus.denied, .blocked, .failed] := by
  cases h with
  | tool _ => decide
  | input _ _ => decide
  | object _ _ _ => decide
  | risk _ _ _ _ => decide

/-- A call that is asked for an approval or admitted is not refused. -/
lemma not_refused (allowed : tool.name ∈ context.constraints.allowedTools)
    (valid : ValidInput cfg host tool input) (granted : ObjectGranted cfg tool input context)
    (level : tool.riskLevel ≠ "L4") (status : ToolCallStatus) :
    ¬ Refused cfg host tool input context status := by
  intro h
  cases h with
  | tool missing => exact missing allowed
  | input _ invalid => exact valid.not_invalid invalid
  | object _ _ missing => exact missing granted
  | risk _ _ _ level' => exact level level'

/-- A conflict is none of the outcomes. -/
lemma Conflicts.not_ends (h : Conflicts r) :
    ¬ EndsAsItsOutcome cfg host tool input context id r := by
  intro hends
  obtain ⟨e, he, hconflict⟩ := h
  exact hends.noConflict e he hconflict

/-- An answer succeeds or fails. -/
lemma answerStatus_mem (answer : Except String StaticResult) :
    answerStatus answer ∈ [ToolCallStatus.succeeded, .failed] := by
  have hboth : ToolCallStatus.succeeded ∈ [ToolCallStatus.succeeded, .failed] ∧
      ToolCallStatus.failed ∈ [ToolCallStatus.succeeded, .failed] := by decide
  cases answer with
  | error e => exact hboth.2
  | ok result =>
    rw [answerStatus]
    split_ifs
    · exact hboth.1
    · exact hboth.2

/-- The statuses in which a call can hold its record. -/
def openStatuses : List ToolCallStatus :=
  [.started, .requiresApproval, .running]

/-- A record that is left open has no outcome. -/
lemma Abandons.not_ends {now : ToolCallStatus} (h : Abandons id now r) (hopen : now ∈ openStatuses) :
    ¬ EndsAsItsOutcome cfg host tool input context id r := by
  intro hends
  obtain ⟨⟨e, he⟩, hstatus⟩ := h
  have hdisjoint : ∀ status ∈ openStatuses,
      status ∉ [ToolCallStatus.denied, .blocked, .failed] ∧
        status ∉ [ToolCallStatus.succeeded, .failed] := by decide
  by_cases hrefused : ∃ status, Refused cfg host tool input context status
  · obtain ⟨status, hrefused⟩ := hrefused
    have hleft := hends.refused status hrefused
    rw [hstatus] at hleft
    cases hleft
    exact (hdisjoint now hopen).1 hrefused.mem
  · have hleft := hends.answered (not_exists.1 hrefused) fun result hresult => by
      rw [he] at hresult
      cases hresult
    rw [hstatus] at hleft
    exact (hdisjoint now hopen).2 (Option.some.inj hleft ▸ answerStatus_mem host.execute)

/-- A refusal that answers ends as its outcome. -/
lemma Answers.ends_refused {status : ToolCallStatus} (h : Answers id status false r)
    (hv : Refused cfg host tool input context status) :
    EndsAsItsOutcome cfg host tool input context id r := by
  obtain ⟨⟨result, hresult, hno⟩, hstatus⟩ := h
  refine ⟨fun e he => ?_, fun s hs => ?_, fun result' hresult' hyes => ?_, fun hnone => ?_⟩
  · rw [hresult] at he
    cases he
  · rw [hs.unique hv]
    exact hstatus
  · rw [hresult] at hresult'
    cases hresult'
    rw [hno] at hyes
    cases hyes
  · exact absurd hv (hnone status)

/-- An answer where nothing is refused. -/
lemma Answers.ends_iff {status : ToolCallStatus} {requiresApproval : Bool}
    (h : Answers id status requiresApproval r)
    (hv : ∀ status, ¬ Refused cfg host tool input context status) :
    EndsAsItsOutcome cfg host tool input context id r ↔
      if requiresApproval = true then status = .requiresApproval
      else status = answerStatus host.execute := by
  obtain ⟨⟨result, hresult, happroval⟩, hstatus⟩ := h
  split_ifs with hyes
  · constructor
    · intro hends
      have hwaiting := hends.waiting result hresult (happroval.trans hyes)
      rw [hstatus] at hwaiting
      exact Option.some.inj hwaiting
    · rintro rfl
      refine ⟨fun e he => ?_, fun s hs => absurd hs (hv s), fun _ _ _ => hstatus, fun _ hno => ?_⟩
      · rw [hresult] at he
        cases he
      · rw [hno result hresult] at happroval
        rw [← happroval] at hyes
        cases hyes
  · have hno : result.requiresApproval = false := happroval.trans (Bool.eq_false_iff.2 hyes)
    constructor
    · intro hends
      have hanswered := hends.answered hv fun result' hresult' => by
        rw [hresult] at hresult'
        cases hresult'
        exact hno
      rw [hstatus] at hanswered
      exact Option.some.inj hanswered
    · rintro rfl
      refine ⟨fun e he => ?_, fun s hs => absurd hs (hv s), fun result' hresult' hyes' => ?_,
        fun _ _ => hstatus⟩
      · rw [hresult] at he
        cases he
      · rw [hresult] at hresult'
        cases hresult'
        rw [hno] at hyes'
        cases hyes'

/-- A refusal ends as its outcome exactly when it expects the status of the record. -/
lemma refusal_ends_iff {now status : ToolCallStatus} {expected : List ToolCallStatus}
    (h : if now ∈ expected then Answers id status false r else Conflicts r)
    (hv : Refused cfg host tool input context status) :
    EndsAsItsOutcome cfg host tool input context id r ↔ now ∈ expected := by
  by_cases hmem : now ∈ expected
  · rw [if_pos hmem] at h
    exact iff_of_true (h.ends_refused hv) hmem
  · rw [if_neg hmem] at h
    exact iff_of_false h.not_ends hmem

/-- A held call has one of three statuses. -/
lemma Holds.cases (h : Holds w call) :
    call.status = .started ∨ call.status = .requiresApproval ∨ call.status = .running := by
  cases hresume : call.approvedResume with
  | false => exact .inl (h.begun hresume)
  | true => exact .inr (h.resumed hresume)

/-- A held call is open unless it runs. -/
lemma Holds.mem_open (h : Holds w call) :
    call.status ∈ openCallStatuses call ↔ call.status ≠ .running := by
  unfold openCallStatuses
  rcases h.cases with hs | hs | hs
  all_goals
    rw [hs]
    decide

/-- A held call may be finalized unless it waits for an approval. -/
lemma Holds.mem_finalizable (h : Holds w call) :
    call.status ∈ [ToolCallStatus.started, .running] ↔ call.status ≠ .requiresApproval := by
  rcases h.cases with hs | hs | hs
  all_goals
    rw [hs]
    decide

/-- A held call is not at its end. -/
lemma Holds.mem_openStatuses (h : Holds w call) : call.status ∈ openStatuses := by
  rcases h.cases with hs | hs | hs
  all_goals
    rw [hs]
    decide

/-- The execution ends as the tool answered exactly when the answer can be recorded. -/
lemma runStaticTool_ends_iff (h : Holds w call)
    (hv : ∀ status, ¬ Refused cfg host tool input context status) :
    EndsAsItsOutcome cfg host tool input context call.id
        ((runStaticTool host input context call).run (exec host) w) ↔
      Recordable host := by
  -- either the result has a preview, or its record is closed as failed
  rcases runStaticTool_run host h input context with
    ⟨result, hanswer, hpreview, hrun⟩ | ⟨hno, hrun⟩
  · rw [hrun.ends_iff hv]
    constructor
    · intro hends result' hresult'
      rw [hanswer] at hresult'
      cases hresult'
      rw [if_pos hpreview]
      by_contra hyes
      rw [if_pos (Bool.not_eq_false _ ▸ hyes)] at hends
      have hmem := answerStatus_mem host.execute
      rw [hends] at hmem
      exact absurd hmem (by decide)
    · intro hrecordable
      have happroval := hrecordable result hanswer
      rw [if_pos hpreview] at happroval
      rw [happroval, if_neg Bool.false_ne_true]
  · rw [hrun.ends_iff hv, if_neg Bool.false_ne_true]
    constructor
    · intro hends result hanswer
      rw [hno result hanswer, if_neg Bool.false_ne_true]
      rw [hanswer, answerStatus] at hends
      cases hsuccess : result.success with
      | false => rfl
      | true =>
        rw [hsuccess] at hends
        cases hends
    · intro hrecordable
      cases hanswer : host.execute with
      | error e => rfl
      | ok result =>
        have hfailed := hrecordable result hanswer
        rw [hno result hanswer, if_neg Bool.false_ne_true] at hfailed
        rw [answerStatus, hfailed]
        rfl

/-- When an escalation ends as the outcome of the call. -/
lemma escalate_ends_iff (h : statusOf w call.id = some .started)
    (hv : ∀ status, ¬ Refused cfg host tool input context status) :
    EndsAsItsOutcome cfg host tool input context call.id
        ((escalate tool input context call).run (exec host) w) ↔
      (tool.preparesApproval = true → host.prepareApproval = .ok ()) := by
  have hrun := escalate_run host tool input context h
  by_cases hprepare : tool.preparesApproval = true ∧ host.prepareApproval ≠ .ok ()
  · rw [if_pos hprepare] at hrun
    refine iff_of_false (hrun.not_ends (by decide)) fun hok => ?_
    exact hprepare.2 (hok hprepare.1)
  · rw [if_neg hprepare] at hrun
    refine iff_of_true ((hrun.ends_iff hv).2 (by rw [if_pos rfl])) fun htool => ?_
    by_contra hne
    exact hprepare ⟨htool, hne⟩

section fits
variable {status : ToolCallStatus}

/-- The exit of a tool that is not granted. -/
lemma exitFits_tool (missing : tool.name ∉ context.constraints.allowedTools) :
    ExitFits cfg host tool input context status ↔ status ≠ .running := by
  refine ⟨fun h => ?_, .tool missing⟩
  cases h <;> first | assumption | contradiction

/-- The exit of an invalid input. -/
lemma exitFits_input (allowed : tool.name ∈ context.constraints.allowedTools)
    (invalid : InvalidInput cfg host tool input) :
    ExitFits cfg host tool input context status ↔ status ≠ .requiresApproval := by
  refine ⟨fun h => ?_, .input allowed invalid⟩
  have hvalid : ¬ ValidInput cfg host tool input := fun h => h.not_invalid invalid
  cases h <;> first | assumption | contradiction

/-- The exit of an object that is not granted. -/
lemma exitFits_object (allowed : tool.name ∈ context.constraints.allowedTools)
    (valid : ValidInput cfg host tool input) (missing : ¬ ObjectGranted cfg tool input context)
    (silent : ∀ e, permissionRefusal cfg tool input context.toExecutionContext ≠ .error e) :
    ExitFits cfg host tool input context status ↔ status = .started := by
  refine ⟨fun h => ?_, .object allowed valid missing silent⟩
  have hinvalid := valid.not_invalid
  cases h <;> first | assumption | contradiction

/-- The exit of a level that is always blocked. -/
lemma exitFits_risk (allowed : tool.name ∈ context.constraints.allowedTools)
    (valid : ValidInput cfg host tool input) (granted : ObjectGranted cfg tool input context)
    (level : tool.riskLevel = "L4") :
    ExitFits cfg host tool input context status ↔ status = .started := by
  refine ⟨fun h => ?_, .risk allowed valid granted level⟩
  have hinvalid := valid.not_invalid
  have hthree : tool.riskLevel ≠ "L3" := by
    rw [level]
    decide
  cases h <;> first | assumption | contradiction

/-- The exit of a level that needs an approval. -/
lemma exitFits_approval (allowed : tool.name ∈ context.constraints.allowedTools)
    (valid : ValidInput cfg host tool input) (granted : ObjectGranted cfg tool input context)
    (level : tool.riskLevel = "L3") (unapproved : StaticCalls.granted tool.name context = false) :
    ExitFits cfg host tool input context status ↔
      (tool.preparesApproval = true → host.prepareApproval = .ok ()) := by
  refine ⟨fun h => ?_, .approval allowed valid granted level unapproved⟩
  have hinvalid := valid.not_invalid
  have hfour : tool.riskLevel ≠ "L4" := by
    rw [level]
    decide
  have happroved : ¬ (tool.riskLevel = "L3" → StaticCalls.granted tool.name context = true) := by
    rw [unapproved]
    exact fun h => Bool.false_ne_true (h level)
  cases h <;> first | assumption | contradiction

/-- The exit of a call that passes every check. -/
lemma exitFits_body (allowed : tool.name ∈ context.constraints.allowedTools)
    (valid : ValidInput cfg host tool input) (granted : ObjectGranted cfg tool input context)
    (level : tool.riskLevel ≠ "L4")
    (approved : tool.riskLevel = "L3" → StaticCalls.granted tool.name context = true) :
    ExitFits cfg host tool input context status ↔ Recordable host := by
  refine ⟨fun h => ?_, .body allowed valid granted level approved⟩
  have hinvalid := valid.not_invalid
  cases h with
  | approval _ _ _ level' unapproved =>
    rw [approved level'] at unapproved
    cases unapproved
  | body _ _ _ _ _ fits => exact fits
  | _ => contradiction

/-- A call whose schema does not compile fits no exit. -/
lemma not_exitFits_schema (allowed : tool.name ∈ context.constraints.allowedTools)
    (truthy : Json.truthy (some tool.inputSchema) = true)
    (throws : host.compileError tool.inputSchema ≠ none) :
    ¬ ExitFits cfg host tool input context status := by
  intro h
  have hvalid : ¬ ValidInput cfg host tool input := fun hvalid => throws (hvalid truthy).1
  have hinvalid : ¬ InvalidInput cfg host tool input := fun hinvalid => throws hinvalid.2.1
  cases h <;> contradiction

/-- A call whose permission step throws fits no exit. -/
lemma not_exitFits_permission (allowed : tool.name ∈ context.constraints.allowedTools)
    (valid : ValidInput cfg host tool input) {error : String}
    (throws : permissionRefusal cfg tool input context.toExecutionContext = .error error) :
    ¬ ExitFits cfg host tool input context status := by
  intro h
  have hinvalid := valid.not_invalid
  have hgranted : ¬ ObjectGranted cfg tool input context := by
    rw [← permissionRefusal_none_iff, throws]
    exact nofun
  cases h with
  | object _ _ _ silent _ => exact silent error throws
  | _ => contradiction

end fits

/-- Entry by exit: the record ends as the outcome says exactly when the exit expects its status. -/
lemma executeRecorded_ends_iff (h : Holds w call)
    (hgrant : call.approvedResume = true → granted tool.name context = true) :
    EndsAsItsOutcome cfg host tool input context call.id
        ((executeRecorded cfg host tool input context call).run (exec host) w) ↔
      ExitFits cfg host tool input context call.status := by
  have habandons (e : String) : ¬ EndsAsItsOutcome cfg host tool input context call.id
      ((Prog.throw e : Act StaticResult).run (exec host) w) := by
    have hleft : Abandons call.id call.status
        ((Prog.throw e : Act StaticResult).run (exec host) w) := ⟨⟨e, rfl⟩, h.status⟩
    exact hleft.not_ends h.mem_openStatuses
  have hsays := verdict_says cfg host tool input context
  unfold executeRecorded
  generalize verdict cfg host tool input context = v at hsays ⊢
  cases hsays with
  | tool missing =>
    exact ((refusal_ends_iff (refuse_run h.status _ _ _ _ _ _ _) (.tool missing)).trans
      h.mem_open).trans (exitFits_tool missing).symm
  | schema allowed truthy throws error =>
    exact iff_of_false (habandons error) (not_exitFits_schema allowed truthy throws)
  | input allowed invalid error =>
    exact ((refusal_ends_iff (rejectInput_run h.status error) (.input allowed invalid)).trans
      h.mem_finalizable).trans (exitFits_input allowed invalid).symm
  | permission allowed valid error throws =>
    exact iff_of_false (habandons error) (not_exitFits_permission allowed valid throws)
  | object allowed valid missing reason errorCode refuses =>
    have hsilent : ∀ e, permissionRefusal cfg tool input context.toExecutionContext ≠ .error e := by
      rw [refuses]
      exact nofun
    exact ((refusal_ends_iff (refuse_run h.status _ _ _ _ _ _ _)
      (.object allowed valid missing)).trans List.mem_singleton).trans
        (exitFits_object allowed valid missing hsilent).symm
  | risk allowed valid granted level =>
    exact ((refusal_ends_iff (refuse_run h.status _ _ _ _ _ _ _)
      (.risk allowed valid granted level)).trans List.mem_singleton).trans
        (exitFits_risk allowed valid granted level).symm
  | approval allowed valid granted level unapproved =>
    -- a record that was taken up again has a grant, so this one was begun
    have hbegun : call.status = .started := by
      apply h.begun
      cases hresume : call.approvedResume with
      | false => rfl
      | true => exact absurd (hgrant hresume) (by rw [unapproved]; decide)
    have hrefused := not_refused allowed valid granted (by rw [level]; decide)
    exact (escalate_ends_iff (hbegun ▸ h.status) hrefused).trans
      (exitFits_approval allowed valid granted level unapproved).symm
  | body allowed valid granted level approved =>
    have hrefused := not_refused allowed valid granted level
    rw [exitFits_body allowed valid granted level approved]
    dsimp only
    split_ifs with hrisk
    · unfold logGovernanceEvent await
      rw [Prog.call_bind, Prog.run_stmt]
      exact runStaticTool_ends_iff ⟨h.status, h.begun, h.resumed⟩ hrefused
    · exact runStaticTool_ends_iff h hrefused

end exits

/-- A call of a static tool that begins a record or takes one up again: `call` is in hand, in `w'`. -/
structure HandsOver (cfg : Config) (host : Host) (toolName : String) (input : Json)
    (context : StaticContext) (w : World) (tool : AgentTool) (call : HeldCall) (w' : World) :
    Prop where
  registered : cfg.tools.find? (·.name = toolName) = some tool
  direct : needsDurableApproval tool input context.toExecutionContext = false
  held : (handOver host toolName input context).run (exec host) w = (.ok call, w')

/-- For every entry and every exit: the record ends as the outcome says exactly when the exit expects
the status in which the record came, nothing throws before the body and the answer can be recorded. -/
theorem executeTool_ends_iff (cfg : Config) (host : Host) (toolName : String) (input : Json)
    (context : StaticContext) (w : World) (tool : AgentTool) (call : HeldCall) (w' : World)
    (h : HandsOver cfg host toolName input context w tool call w') :
    EndsAsItsOutcome cfg host tool input context call.id
        ((executeTool cfg host toolName input context).run (exec host) w) ↔
      ExitFits cfg host tool input context call.status := by
  obtain ⟨hheld, hgrant⟩ := handOver_held h.held
  have hname : tool.name = toolName := by
    simpa using List.find?_some h.registered
  unfold executeTool
  rw [h.registered]
  dsimp only
  rw [if_neg (by rw [h.direct]; exact Bool.false_ne_true), Prog.run_bind_ok _ h.held]
  exact executeRecorded_ends_iff hheld (hname ▸ hgrant)

/-! ## A record that runs already -/

def slackMessage : AgentTool where
  name := "slack.message.send"
  category := "connector"
  inputSchema := .obj [("type", .str "object")]
  objectApiName := none
  operation := none
  riskLevel := "L3"
  preparesApproval := true

def Config.messaging : Config :=
  { Config.small greeting with tools := [slackMessage] }

/-- The record of the message is `9`, and the message is sent. -/
def Host.sending : Host where
  platform :=
    { uuid := .ok
      bigint := .ok
      buildPreview := fun v => .ok
        { digest := "sha256:003235b348c3a31947d3b3388ceea0bb5de433f2c48390deafebbd2d072dd2fa"
          value := v } }
  generateId _ := 9
  now _ := 0
  compileError _ := none
  prepareApproval := .ok ()
  execute := .ok
    { success := true
      output := .undefined
      permissionCheck := .passed
      guardrailCheck := .passed }
  approvalSubjects := true
  submitStaticToolSubject := .ok ()
  preparing _ w := w
  executing _ w := w
  preparing_status _ _ := rfl
  executing_status _ _ := rfl

def message : Json :=
  .obj [("channel", .str "C1"), ("text", .str "hi")]

/-- A context with the grant of the approved message. -/
def approved (allowedTools : List String) : StaticContext where
  toExecutionContext :=
    { purger with
      constraints := { purger.constraints with allowedTools }
      approvalGrant := some { toolName := "slack.message.send", approvalInstanceId := 4 } }
  toolCallId := some 9
  inputDigest := some "sha256:003235b348c3a31947d3b3388ceea0bb5de433f2c48390deafebbd2d072dd2fa"

/-- The record of the message, in a status. -/
def boundRecord (status : ToolCallStatus) : World where
  calls :=
    Table.put (fun _ => none) 9
      { id := 9
        workspaceId := some 1
        agentExecutionId := some 7
        toolName := "slack.message.send"
        status
        staticBindingRevisionId := some "r1"
        staticBindingChecksum := some "sha256:00"
        staticBindingGeneration := some "1" }
  inputDigest :=
    Table.put (fun _ => none) 9
      "sha256:003235b348c3a31947d3b3388ceea0bb5de433f2c48390deafebbd2d072dd2fa"
  guardrailLogs := []

def heldMessage (status : ToolCallStatus) : HeldCall where
  id := 9
  status
  inputDigest := some "sha256:003235b348c3a31947d3b3388ceea0bb5de433f2c48390deafebbd2d072dd2fa"
  approvedResume := true

/-- The message is handed over with its status. -/
lemma message_handsOver (allowedTools : List String) (status : ToolCallStatus)
    (h : status = .requiresApproval ∨ status = .running) :
    HandsOver Config.messaging Host.sending "slack.message.send" message (approved allowedTools)
      (boundRecord status) slackMessage (heldMessage status) (boundRecord status) := by
  refine ⟨rfl, by simp [needsDurableApproval, approved, slackMessage], ?_⟩
  rcases h with rfl | rfl
  · rfl
  · rfl

/-- An approved message whose record waits is sent, and its record says so; without the tool in the
agent's list the record says that the call was denied. -/
theorem message_ends :
    EndsAsItsOutcome Config.messaging Host.sending slackMessage message
      (approved ["slack.message.send"]) 9
      ((executeTool Config.messaging Host.sending "slack.message.send" message
        (approved ["slack.message.send"])).run (exec Host.sending)
          (boundRecord .requiresApproval)) ∧
    EndsAsItsOutcome Config.messaging Host.sending slackMessage message (approved []) 9
      ((executeTool Config.messaging Host.sending "slack.message.send" message
        (approved [])).run (exec Host.sending) (boundRecord .requiresApproval)) := by
  constructor
  · apply (executeTool_ends_iff _ _ _ _ _ _ _ _ _
      (message_handsOver ["slack.message.send"] .requiresApproval (.inl rfl))).2
    have hgranted : ObjectGranted Config.messaging slackMessage message
        (approved ["slack.message.send"]) := by
      intro _ _ hoperation
      cases hoperation
    refine .body (by decide) (fun _ => ⟨rfl, by decide⟩) hgranted (by decide) (fun _ => rfl) ?_
    intro result hresult
    cases hresult
    rfl
  · apply (executeTool_ends_iff _ _ _ _ _ _ _ _ _
      (message_handsOver [] .requiresApproval (.inl rfl))).2
    exact .tool (by decide) (by decide)

/-- A message that is taken up again while its record runs, after its tool was taken from the agent. -/
theorem message_conflicts :
    ¬ ∀ (cfg : Config) (host : Host) (toolName : String) (input : Json) (context : StaticContext)
      (w : World) (tool : AgentTool) (call : HeldCall) (w' : World),
      HandsOver cfg host toolName input context w tool call w' →
      EndsAsItsOutcome cfg host tool input context call.id
        ((executeTool cfg host toolName input context).run (exec host) w) := by
  intro h
  have hends := h _ _ _ _ _ _ _ _ _ (message_handsOver [] .running (.inr rfl))
  exact hends.noConflict _ rfl ⟨"9:DENIED", by decide +kernel⟩

end NexusClaw.AgentRuntime.StaticCalls
