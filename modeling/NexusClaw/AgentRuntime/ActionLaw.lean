import NexusClaw.AgentRuntime.CodeActions

/-!
# What a code action rests on

Along the program of a call: when it comes to the code action, what it has been answered before.
-/

namespace NexusClaw.AgentRuntime.CodeActions
open Concurrent
open Governance (Id ToolCallStatus PermissionCheck GuardrailCheck JsOutput riskOrder)
open AuditChain

/-! ## Histories -/

/-- The record `id` was inserted, or found, with this binding. -/
def Shows (id : Id) (binding : Binding) : Sigma Resp → Prop
  | ⟨.insert _ b, n⟩ => n = id ∧ b = binding
  | ⟨.findApproved n _, some (_, b)⟩ => n = id ∧ b.1 = binding
  | _ => False

/-- The record `id` was moved from a status in which it waits to running. -/
def Starts (id : Id) : Sigma Resp → Prop
  | ⟨.record _ (.update n expected status _), affected⟩ =>
    n = id ∧ status = .running ∧ affected = 1 ∧
      ∀ e ∈ expected, e = .started ∨ e = .requiresApproval
  | _ => False

/-- The record `id` was found running. -/
def FindsRunning (id : Id) : Sigma Resp → Prop
  | ⟨.findApproved n _, some (status, _)⟩ => n = id ∧ status = .running
  | _ => False

def answered : Sigma Resp → Option ResolvedTool
  | ⟨.resolveTool _ _, .ok tool⟩ => tool
  | _ => none

/-- Every provider was asked for the name, they gave one tool between them, and no static tool has the
name. -/
structure Resolved (host : Host) (toolName : String) (tool : ResolvedTool)
    (h : History Stmt Resp) : Prop where
  static : host.tools.find? (·.name = toolName) = none
  asked : ∃ asked, asked <+: h ∧
    asked.map Sigma.fst = host.providers.map (.resolveTool · toolName) ∧
    asked.filterMap answered = [tool]

/-- The tool is what the request names; an approval that has to be durable is for an L3 action. -/
structure Chosen (host : Host) (request : Request) (tool : ResolvedTool)
    (h : History Stmt Resp) : Prop extends Resolved host request.toolName tool h where
  durable : request.requireDurableL3Approval = true → tool.declaredRiskLevel = "L3"

/-- The grant is for this record, this input and this revision of the tool. -/
structure GrantsCall (host : Host) (request : Request) (tool : ResolvedTool) (id : Id)
    (grant : ToolApprovalGrant) : Prop where
  given : request.context.approvalGrant = some grant
  toolName : grant.toolName = request.toolName
  approved : grant.approvalInstanceId ≠ ""
  toolCallId : grant.toolCallId = some id
  inputDigest : grant.inputDigest = some (host.inputDigest request.input)
  releaseSetId : grant.releaseSetId = some request.context.release.releaseSetId
  publishedChecksum : grant.publishedChecksum = some tool.publishedChecksum

/-- What stands behind the execution of a code action. -/
structure Authorised (host : Host) (request : Request) (h : History Stmt Resp) (id : Id)
    (tool : ResolvedTool) (input : Json) : Prop where
  input : input = request.input
  allowed : request.toolName ∈ request.context.allowedTools
  risk : riskOrder tool.declaredRiskLevel < 4
  approved : 3 ≤ riskOrder tool.declaredRiskLevel → ∃ grant, GrantsCall host request tool id grant
  chosen : Chosen host request tool h
  recorded : Did (Shows id (bindingOf host request.toolName request.input request.context.release
    tool)) h
  started : Did (Starts id) h ∨
    Did (FindsRunning id) h ∧ ∃ grant, GrantsCall host request tool id grant

/-- A transition never leads back to where a record waits, but from there. -/
def Downhill (expected : List ToolCallStatus) (status : ToolCallStatus) : Prop :=
  status ≠ .started ∧
    (status = .requiresApproval → ∀ e ∈ expected, e = .started ∨ e = .requiresApproval)

/-- What every program does with the records. -/
def Lawful : Stmt → Prop
  | .record _ (.update _ expected status _) => Downhill expected status
  | _ => True

/-- What a call of `executeTool` does. -/
def Does (host : Host) (request : Request) (h : History Stmt Resp) : Stmt → Prop
  | .executeResolvedTool id tool input => Authorised host request h id tool input
  | s => Lawful s

/-- A program beside the calls writes records and executes nothing. -/
def Beside : Stmt → Prop
  | .executeResolvedTool _ _ _ => False
  | s => Lawful s

section along
variable {host : Host} {request : Request} {tool : ResolvedTool} {call : HeldCall} {id : Id}
variable {h h' : History Stmt Resp}

/-- A choice stays in a longer history. -/
lemma Chosen.later (hc : Chosen host request tool h) (hp : h <+: h') :
    Chosen host request tool h' := by
  obtain ⟨⟨hstatic, asked, hasked, hone⟩, hdurable⟩ := hc
  exact ⟨⟨hstatic, asked, hasked.trans hp, hone⟩, hdurable⟩

/-- What `executeTool` knows of the record in hand. -/
structure Held (host : Host) (request : Request) (tool : ResolvedTool) (h : History Stmt Resp)
    (call : HeldCall) : Prop where
  chosen : Chosen host request tool h
  recorded : Did (Shows call.id (bindingOf host request.toolName request.input
    request.context.release tool)) h
  granted : call.approvedResume = true → ∃ grant, GrantsCall host request tool call.id grant
  begun : call.approvedResume = false → call.status = .started
  running : call.status = .running → Did (FindsRunning call.id) h

/-- A call that is held stays so in a longer history. -/
lemma Held.later (hh : Held host request tool h call) (hp : h <+: h') :
    Held host request tool h' call where
  chosen := hh.chosen.later hp
  recorded := hh.recorded.mono hp.subset
  granted := hh.granted
  begun := hh.begun
  running := fun hs => (hh.running hs).mono hp.subset

/-- The matching tools are those that the registry answered, key by key. -/
lemma along_matchingTools (toolName : String) (keys : List String) (h : History Stmt Resp) :
    Along (Does host request) (fun h' matched => ∃ asked, h' = h ++ asked ∧
        asked.map Sigma.fst = keys.map (.resolveTool · toolName) ∧
        asked.filterMap answered = matched) h (matchingTools toolName keys) := by
  induction keys generalizing h with
  | nil => exact ⟨[], (List.append_nil h).symm, rfl, rfl⟩
  | cons key keys ih =>
    refine ⟨trivial, fun r => ?_⟩
    cases r with
    | error e => trivial
    | ok resolved =>
      refine (ih _).bind ?_
      rintro _ _ ⟨asked, rfl, hkeys, rfl⟩
      refine ⟨⟨.resolveTool key toolName, .ok resolved⟩ :: asked, List.append_assoc .., ?_, ?_⟩
      · rw [List.map_cons, List.map_cons, hkeys]
      · cases resolved with
        | none => rfl
        | some tool => rfl

/-- A resolved tool is one that the registry answered. -/
lemma along_resolveTool :
    Along (Does host request) (fun h' r => ∀ tool, r = some (.inr tool) →
      Resolved host request.toolName tool h') [] (resolveTool host request.toolName) := by
  refine (along_matchingTools request.toolName host.providers []).bind ?_
  rintro h' matched ⟨asked, hasked, hkeys, hmatched⟩
  -- two matches are a conflict, and so is one beside a static tool
  split_ifs with hlen
  · trivial
  · cases hstatic : host.tools.find? (·.name = request.toolName) with
    | some static =>
      cases matched with
      | nil =>
        rintro tool ⟨⟩
      | cons tool rest => trivial
    | none =>
      cases matched with
      | nil =>
        rintro tool ⟨⟩
      | cons first rest =>
        rintro tool ⟨⟩
        have hrest : rest = [] := by
          cases rest with
          | nil => rfl
          | cons second rest => exact absurd (by simp) hlen
        subst hrest
        exact ⟨hstatic, asked, by rw [hasked]; exact List.prefix_rfl, hkeys, hmatched⟩

/-- A grant counts for the tool it names. -/
lemma grantFor_eq_some {grant : ToolApprovalGrant}
    (hg : grantFor request.toolName request.context = some grant) :
    request.context.approvalGrant = some grant ∧ grant.toolName = request.toolName := by
  obtain ⟨hgiven, hname⟩ := Option.filter_eq_some_iff.1 hg
  exact ⟨hgiven, of_decide_eq_true hname⟩

/-- A text that is not empty. -/
lemma nonEmpty_eq_some {text : Option String} {s : String} (hs : nonEmpty text = some s) :
    text = some s :=
  (Option.filter_eq_some_iff.1 hs).1

/-- A complete grant has all four of its parts. -/
lemma ToolApprovalGrant.complete_eq_some {grant : ToolApprovalGrant} {toolCallId : Id}
    {inputDigest releaseSetId publishedChecksum : String}
    (hg : grant.complete = some (toolCallId, inputDigest, releaseSetId, publishedChecksum)) :
    grant.approvalInstanceId ≠ "" ∧ grant.toolCallId = some toolCallId ∧
      grant.inputDigest = some inputDigest ∧ grant.releaseSetId = some releaseSetId ∧
      grant.publishedChecksum = some publishedChecksum := by
  unfold ToolApprovalGrant.complete at hg
  simp only [Option.bind_eq_bind, Option.bind_eq_some_iff] at hg
  obtain ⟨id, hid, digest, hdigest, release, hrelease, checksum, hchecksum, hrest⟩ := hg
  split_ifs at hrest with hempty
  cases hrest
  exact ⟨hempty, hid, nonEmpty_eq_some hdigest, nonEmpty_eq_some hrelease,
    nonEmpty_eq_some hchecksum⟩

/-- The digest is computed, and nothing is issued. -/
lemma along_digestOf (host : Host) (input : Json) (tool : ResolvedTool) (h : History Stmt Resp) :
    Along (Does host request) (fun h' digest => h' = h ∧ digest = host.inputDigest input) h
      (digestOf host input tool) := by
  unfold digestOf
  cases host.inputError input tool with
  | some e => trivial
  | none => exact ⟨rfl, rfl⟩

/-- A call that is begun is held. -/
lemma along_beginCall (hr : Chosen host request tool h) :
    Along (Does host request) (Held host request tool) h
      (beginCall host request.toolName request.input request.context tool) := by
  refine (along_digestOf host request.input tool h).bind ?_
  rintro _ digest ⟨rfl, -⟩
  refine ⟨trivial, fun startedAt => ⟨trivial, fun id => ?_⟩⟩
  refine ⟨?_, ?_, ?_, ?_, ?_⟩
  · exact (hr.later (List.prefix_append _ _)).later (List.prefix_append _ _)
  · exact ⟨_, List.mem_concat_self, rfl, rfl⟩
  · rintro ⟨⟩
  · exact fun _ => rfl
  · rintro ⟨⟩

/-- The record that is taken up is the one that was found, and agrees with the call in every column
that is compared. -/
lemma along_takeUp (toolCallId : Id) (expected : Binding) {workspaceId : Id}
    (found : Option (Found workspaceId)) (h : History Stmt Resp) :
    Along (Does host request) (fun h' call => h' = h ∧ ∃ status record,
        found = some (status, record) ∧ record.1 = { expected with workspaceId } ∧
          call = { id := toolCallId, status, approvedResume := true }) h
      (takeUp toolCallId expected found) := by
  cases found with
  | none => trivial
  | some found =>
    obtain ⟨status, record, rfl⟩ := found
    dsimp only [takeUp]
    split_ifs with hother
    · trivial
    · simp only [not_or, not_not] at hother
      obtain ⟨hname, hinput, hsource, hset, hrevision, hdescriptor, hpublished, hprovider⟩ := hother
      refine ⟨rfl, status, ⟨record, rfl⟩, rfl, ?_, rfl⟩
      rw [← hname, ← hinput, ← hsource, ← hset, ← hrevision, ← hdescriptor, ← hpublished,
        ← hprovider]

/-- A call that is resumed under a grant is held. -/
lemma along_resumeApproved {grant : ToolApprovalGrant}
    (hr : Chosen host request tool h)
    (hg : grantFor request.toolName request.context = some grant) :
    Along (Does host request) (Held host request tool) h
      (resumeApproved host request.toolName request.input request.context tool grant) := by
  unfold resumeApproved
  cases hcomplete : grant.complete with
  | none => trivial
  | some entry =>
    obtain ⟨toolCallId, inputDigest, releaseSetId, publishedChecksum⟩ := entry
    refine (along_digestOf host request.input tool h).bind ?_
    rintro _ _ ⟨rfl, rfl⟩
    -- the grant has to name this input, release and checksum
    split_ifs with hmismatch
    · trivial
    · simp only [not_or, not_not] at hmismatch
      obtain ⟨rfl, rfl, rfl⟩ := hmismatch
      obtain ⟨happroved, hid, hdigest, hrelease, hchecksum⟩ :=
        ToolApprovalGrant.complete_eq_some hcomplete
      obtain ⟨hgiven, hname⟩ := grantFor_eq_some hg
      refine ⟨trivial, fun r => (along_takeUp toolCallId _ r _).mono (fun _ _ hx => hx) ?_⟩
      rintro _ call ⟨rfl, status, record, rfl, hrecord, rfl⟩
      refine ⟨hr.later (List.prefix_append _ _), ?_, fun _ => ?_, ?_, fun hs => ?_⟩
      · exact ⟨_, List.mem_concat_self, rfl, hrecord⟩
      · exact ⟨grant, hgiven, hname, happroved, hid, hdigest, hrelease, hchecksum⟩
      · rintro ⟨⟩
      · exact ⟨_, List.mem_concat_self, rfl, hs⟩

/-- A call is handed over begun or resumed. -/
lemma along_handOver (hr : Chosen host request tool h) :
    Along (Does host request) (Held host request tool) h
      (handOver host request.toolName request.input request.context tool) := by
  unfold handOver
  cases hg : grantFor request.toolName request.context with
  | none => exact along_beginCall hr
  | some grant => exact along_resumeApproved hr hg

/-- A transition of the record in hand leaves its observation. -/
lemma along_transition (tool : ResolvedTool) (id : Id) {expected : List ToolCallStatus}
    {status : ToolCallStatus} (patch : StaticBinding.ToolCallPatch)
    (hd : Downhill expected status) (h : History Stmt Resp) :
    Along (Does host request) (fun h' _ =>
        h' = h ++ [⟨.record tool (.update id expected status patch), (1 : Nat)⟩]) h
      (lifecycle tool (StaticBinding.transition id expected status patch)) := by
  refine ⟨hd, fun affected => ?_⟩
  show Along _ _ _ (lifecycle tool (if affected = 1 then .ret () else .throw _))
  split_ifs with haffected
  · rw [haffected]
    rfl
  · trivial

/-- Finalizing is one of the statements of a request. -/
lemma along_finalize (tool : ResolvedTool) (p : StaticBinding.Platform) (id : Id)
    {input : StaticBinding.ToolCallFinalizeInput}
    (hs : input.status = .succeeded ∨ input.status = .failed) (h : History Stmt Resp) :
    Along (Does host request) (fun _ _ => True) h
      (lifecycle tool (StaticBinding.finalize p id input)) := by
  have hd : Downhill [.started, .running] input.status := by
    rcases hs with hs | hs
    · rw [hs]
      exact ⟨by decide, by rintro ⟨⟩⟩
    · rw [hs]
      exact ⟨by decide, by rintro ⟨⟩⟩
  unfold StaticBinding.finalize
  cases input.output with
  | undefined => exact (along_transition tool id _ hd h).mono (fun _ _ hx => hx) fun _ _ _ => trivial
  | notJson => trivial
  | json v =>
    dsimp only
    cases p.buildPreview v with
    | error e => trivial
    | ok preview =>
      exact (along_transition tool id _ hd h).mono (fun _ _ hx => hx) fun _ _ _ => trivial

/-- An open call goes on to any status but the first. -/
lemma downhill_open (call : HeldCall) {status : ToolCallStatus} (hs : status ≠ .started) :
    Downhill (openCallStatuses call) status := by
  refine ⟨hs, fun _ e he => ?_⟩
  unfold openCallStatuses at he
  split_ifs at he
  · exact .inr (List.mem_singleton.1 he)
  · exact .inl (List.mem_singleton.1 he)

/-- A refusal finalizes the call. -/
lemma along_refuse (tool : ResolvedTool) (call : HeldCall) (error errorCode : String)
    {status : ToolCallStatus} (hs : status ≠ .started) (permissionCheck : PermissionCheck)
    (h : History Stmt Resp) :
    Along (Does host request) (fun _ _ => True) h
      (refuse tool call error errorCode status permissionCheck) :=
  (along_transition tool call.id _ (downhill_open call hs) h).bind fun _ _ _ => trivial

/-- A waiting call has one of two statuses. -/
lemma mem_waitingStatuses {e : ToolCallStatus} (he : e ∈ waitingStatuses call) :
    e = .started ∨ e = .requiresApproval := by
  unfold waitingStatuses at he
  split_ifs at he
  · exact .inr (List.mem_singleton.1 he)
  · exact .inl (List.mem_singleton.1 he)

/-- After the start the call runs. -/
lemma along_startRunning (hh : Held host request tool h call) (startedAt : Nat) :
    Along (Does host request) (fun h' _ => Held host request tool h' call ∧
        (Did (Starts call.id) h' ∨ call.status = .running)) h
      (startRunning tool request.context call startedAt) := by
  unfold startRunning
  split_ifs with hs
  · refine (along_transition tool call.id _ ⟨by decide, by rintro ⟨⟩⟩ h).mono
      (fun _ _ hx => hx) ?_
    rintro h' - rfl
    refine ⟨hh.later (List.prefix_append _ _), .inl ⟨_, List.mem_concat_self, ?_⟩⟩
    exact ⟨rfl, rfl, rfl, fun _ => mem_waitingStatuses⟩
  · exact ⟨hh, .inr (not_not.1 hs)⟩

/-- A call that started with every check behind it is authorised. -/
lemma Held.authorised (hh : Held host request tool h call)
    (hallowed : request.toolName ∈ request.context.allowedTools)
    (hrisk : riskOrder tool.declaredRiskLevel < 4)
    (happroved : 3 ≤ riskOrder tool.declaredRiskLevel → call.approvedResume = true)
    (hstarted : Did (Starts call.id) h ∨ call.status = .running) :
    Authorised host request h call.id tool request.input where
  input := rfl
  allowed := hallowed
  risk := hrisk
  approved := fun h3 => hh.granted (happroved h3)
  chosen := hh.chosen
  recorded := hh.recorded
  started := by
    refine hstarted.imp_right fun hs => ⟨hh.running hs, hh.granted ?_⟩
    cases hresume : call.approvedResume with
    | true => rfl
    | false =>
      rw [hh.begun hresume] at hs
      cases hs

/-- The result is recorded. -/
lemma along_recordResult (tool : ResolvedTool) (call : HeldCall) (result : ActionResult)
    (duration : Int) (h : History Stmt Resp) :
    Along (Does host request) (fun _ _ => True) h
      (recordResult host tool call result duration) := by
  unfold recordResult
  split_ifs
  · trivial
  · refine along_finalize tool _ _ ?_ _
    unfold finalizeInput
    split_ifs
    · exact .inl rfl
    · exact .inr rfl

/-- The body runs where the call is authorised. -/
lemma along_executeBody (hh : Held host request tool h call)
    (hallowed : request.toolName ∈ request.context.allowedTools)
    (hrisk : riskOrder tool.declaredRiskLevel < 4)
    (happroved : 3 ≤ riskOrder tool.declaredRiskLevel → call.approvedResume = true)
    (hstarted : Did (Starts call.id) h ∨ call.status = .running) (startedAt : Nat) :
    Along (Does host request) (fun _ _ => True) h
      (executeBody host tool request.input call startedAt) := by
  refine ⟨hh.authorised hallowed hrisk happroved hstarted, fun r => ?_⟩
  cases r with
  | error e => trivial
  | ok result =>
    refine ⟨trivial, fun endedAt => ?_⟩
    exact (along_recordResult tool call result (endedAt - startedAt) _).bind fun _ _ _ => trivial

/-- What the body throws is recorded. -/
lemma along_executionThrew (tool : ResolvedTool) (call : HeldCall) (startedAt : Nat) (error : String)
    (h : History Stmt Resp) : Along (Does host request) (fun _ _ => True) h
      (executionThrew host tool call startedAt error) :=
  ⟨trivial, fun _ => (along_finalize tool _ _ (.inr rfl) _).bind fun _ _ _ => trivial⟩

/-- A tool of the context runs behind its checks. -/
lemma along_executeContextualTool (hh : Held host request tool h call)
    (hallowed : request.toolName ∈ request.context.allowedTools) :
    Along (Does host request) (fun _ _ => True) h
      (executeContextualTool host tool request.input request.context call) := by
  unfold executeContextualTool
  split_ifs with hrisk happroval hsupports
  · exact along_refuse tool call _ _ (by decide) _ h
  · exact (along_transition tool call.id _ (downhill_open call (by decide)) h).bind
      fun _ _ _ => trivial
  · exact along_refuse tool call _ _ (by decide) _ h
  · have happroved : 3 ≤ riskOrder tool.declaredRiskLevel → call.approvedResume = true := by
      intro h3
      exact Bool.eq_true_of_not_eq_false fun hresume => happroval ⟨h3, hresume⟩
    refine ⟨trivial, fun startedAt => ?_⟩
    refine (along_startRunning (hh.later (List.prefix_append _ _)) startedAt).bind ?_
    rintro h' - ⟨hheld, hstarted⟩
    refine (along_executeBody hheld hallowed (Nat.lt_of_not_le hrisk) happroved hstarted
      startedAt).attempt.bind fun h'' r _ => ?_
    cases r with
    | ok result => trivial
    | error e => exact along_executionThrew tool call startedAt e h''

/-- A held call runs behind its checks. -/
lemma along_executeHeld (hh : Held host request tool h call) :
    Along (Does host request) (fun _ _ => True) h (executeHeld host request tool call) := by
  unfold executeHeld
  split_ifs with hallowed
  · exact along_executeContextualTool hh hallowed
  · exact along_refuse tool call _ _ (by decide) _ h

/-- A resolved tool runs behind its checks. -/
lemma along_executeResolved (hr : Chosen host request tool h) :
    Along (Does host request) (fun _ _ => True) h (executeResolved host request tool) := by
  unfold executeResolved
  split_ifs with hneeds
  · unfold submit
    split_ifs
    · refine ⟨trivial, fun r => ?_⟩
      cases r with
      | error e => trivial
      | ok subject => trivial
    · trivial
  · exact (along_handOver hr).bind fun h' call hh => along_executeHeld hh

/-- Every request issues only what it may. -/
lemma along_executeTool (host : Host) (request : Request) :
    Along (Does host request) (fun _ _ => True) [] (executeTool host request) := by
  refine along_resolveTool.bind fun h r hr => ?_
  cases r with
  | none => trivial
  | some resolved =>
    cases resolved with
    | inl static =>
      dsimp only
      split_ifs
      · trivial
      · trivial
    | inr tool =>
      dsimp only
      split_ifs with hdescriptor
      · trivial
      · refine along_executeResolved ⟨hr tool rfl, fun hdurable => ?_⟩
        exact not_not.1 fun hrisk => hdescriptor ⟨hdurable, hrisk⟩

end along

end NexusClaw.AgentRuntime.CodeActions
