import NexusClaw.AgentRuntime.StaticCalls

/-!
# Runs of a static call

What each exit of a call writes to the record that the call holds, statement by statement.
-/

namespace NexusClaw.AgentRuntime.StaticCalls
open Concurrent
open Governance (Id ToolCallStatus PermissionCheck GuardrailCheck JsOutput riskOrder)
open AuditChain

/-! ## Runs -/

section runs
variable {cfg : Config} {host : Host} {tool : AgentTool} {input : Json} {context : StaticContext}
variable {call : HeldCall} {w : World}

/-- A program of the lifecycle runs on the calls alone. -/
lemma run_lifecycle {α : Type} (p : StaticBinding.Act α) (w : World) :
    (lifecycle p).run (exec host) w =
      ((p.run (StaticBinding.exec host.platform) w.calls).1,
        { w with calls := (p.run (StaticBinding.exec host.platform) w.calls).2 }) := by
  induction p generalizing w with
  | ret a => rfl
  | throw e => rfl
  | stmt s k ih => exact ih _ _

/-- `e` says that a record was in none of the expected statuses. -/
def IsConflict (e : String) : Prop :=
  ∃ rest, e = "TOOL_CALL_STATE_CONFLICT:" ++ rest

/-- The two ways in which a move of the record `id` ends. -/
def Moves (id : Id) (expected : List ToolCallStatus) (now status : ToolCallStatus)
    (r : Except String Unit × World) : Prop :=
  if now ∈ expected then r.1 = .ok () ∧ statusOf r.2 id = some status
  else (∃ e, r.1 = .error e ∧ IsConflict e) ∧ statusOf r.2 id = some now

/-- A transition moves the call if its status is expected. -/
lemma transition_moves {id : Id} {now : ToolCallStatus} (h : statusOf w id = some now)
    (expected : List ToolCallStatus) (status : ToolCallStatus)
    (patch : StaticBinding.ToolCallPatch) :
    Moves id expected now status
      ((lifecycle (StaticBinding.transition id expected status patch)).run (exec host) w) := by
  obtain ⟨row, hrow, rfl⟩ := Option.map_eq_some_iff.1 h
  rw [run_lifecycle]
  unfold StaticBinding.transition StaticBinding.await
  rw [Prog.call_bind, Prog.run_stmt]
  -- the update takes effect where the record is in a status that is expected
  by_cases hmem : row.status ∈ expected
  · have hupdate : StaticBinding.exec host.platform (.update id expected status patch) w.calls =
        (w.calls.put id (row.patch status patch), 1) := by
      rw [StaticBinding.exec, StaticBinding.updateWhere, hrow]
      exact if_pos (List.contains_iff_mem.2 hmem)
    rw [hupdate, Moves, if_pos hmem]
    refine ⟨rfl, ?_⟩
    show ((w.calls.put id (row.patch status patch)) id).map (·.status) = some status
    rw [Table.put_self]
    rfl
  · have hupdate : StaticBinding.exec host.platform (.update id expected status patch) w.calls =
        (w.calls, 0) := by
      rw [StaticBinding.exec, StaticBinding.updateWhere, hrow]
      exact if_neg fun hc => hmem (List.contains_iff_mem.1 hc)
    rw [hupdate, Moves, if_neg hmem]
    refine ⟨⟨_, rfl, toString id ++ ":" ++ status.text, ?_⟩, h⟩
    simp only [String.append_assoc]

/-- The run answers and leaves the record `id` in a status. -/
def Answers (id : Id) (status : ToolCallStatus) (requiresApproval : Bool)
    (r : Except String StaticResult × World) : Prop :=
  (∃ result, r.1 = .ok result ∧ result.requiresApproval = requiresApproval) ∧
    statusOf r.2 id = some status

/-- The run throws that the record was in another status. -/
def Conflicts (r : Except String StaticResult × World) : Prop :=
  ∃ e, r.1 = .error e ∧ IsConflict e

/-- A move and an answer after it. -/
lemma Moves.closes {id : Id} {expected : List ToolCallStatus} {now status : ToolCallStatus}
    {p : Act Unit} (h : Moves id expected now status (p.run (exec host) w)) (result : StaticResult) :
    if now ∈ expected then
      Answers id status result.requiresApproval ((p >>= fun _ => .ret result).run (exec host) w)
    else Conflicts ((p >>= fun _ => .ret result).run (exec host) w) := by
  rcases hp : p.run (exec host) w with ⟨r, w'⟩
  rw [hp] at h
  unfold Moves at h
  split_ifs at h ⊢ with hmem
  · obtain ⟨hr, hstatus⟩ := h
    cases hr
    rw [Prog.run_bind_ok _ hp]
    exact ⟨⟨result, rfl, rfl⟩, hstatus⟩
  · obtain ⟨⟨e, hr, hconflict⟩, -⟩ := h
    cases hr
    rw [Prog.run_bind_error _ hp]
    exact ⟨e, rfl, hconflict⟩

/-- A call that moves is answered. -/
lemma Moves.answers {id : Id} {expected : List ToolCallStatus} {now status : ToolCallStatus}
    {p : Act Unit} (h : Moves id expected now status (p.run (exec host) w)) (hmem : now ∈ expected)
    (result : StaticResult) :
    Answers id status result.requiresApproval
      ((p >>= fun _ => .ret result).run (exec host) w) := by
  have hcloses := h.closes result
  rwa [if_pos hmem] at hcloses

/-- A refusal is answered where the call is open, and conflicts elsewhere. -/
lemma refuse_run (h : statusOf w call.id = some call.status) (operation : Option String)
    (expected : List ToolCallStatus) (riskLevel error errorCode : String) (status : ToolCallStatus)
    (permissionCheck : PermissionCheck) :
    if call.status ∈ expected then
      Answers call.id status false ((refuse context tool operation call expected riskLevel error
        errorCode status permissionCheck).run (exec host) w)
    else Conflicts ((refuse context tool operation call expected riskLevel error errorCode status
        permissionCheck).run (exec host) w) := by
  unfold refuse logGovernanceEvent await
  rw [Prog.call_bind, Prog.run_stmt]
  exact (transition_moves (by exact h) _ _ _).closes _

/-- A rejected input fails a call that may be finalized, and conflicts elsewhere. -/
lemma rejectInput_run (h : statusOf w call.id = some call.status) (error : String) :
    if call.status ∈ [ToolCallStatus.started, .running] then
      Answers call.id .failed false ((rejectInput host call error).run (exec host) w)
    else Conflicts ((rejectInput host call error).run (exec host) w) :=
  (transition_moves h _ _ _).closes _

/-- The run throws and leaves the record `id` open. -/
def Abandons (id : Id) (now : ToolCallStatus) (r : Except String StaticResult × World) : Prop :=
  (∃ e, r.1 = .error e) ∧ statusOf r.2 id = some now

/-- The preparation of an approval leaves the status. -/
lemma prepareApproval_run (host : Host) (tool : AgentTool) (input : Json) (call : HeldCall)
    (w : World) :
    statusOf ((prepareApproval tool input call).run (exec host) w).2 call.id =
        statusOf w call.id ∧
      ((prepareApproval tool input call).run (exec host) w).1 =
        if tool.preparesApproval then host.prepareApproval else .ok () := by
  unfold prepareApproval await
  cases tool.preparesApproval with
  | false => exact ⟨rfl, rfl⟩
  | true =>
    have hkept := host.preparing_status call.id w
    show statusOf ((ofExcept host.prepareApproval).run (exec host) (host.preparing call.id w)).2
      call.id = statusOf w call.id ∧
        ((ofExcept host.prepareApproval).run (exec host) (host.preparing call.id w)).1 =
          host.prepareApproval
    cases host.prepareApproval with
    | error e => exact ⟨hkept, rfl⟩
    | ok _ => exact ⟨hkept, rfl⟩

/-- An escalation asks for an approval, or abandons the call. -/
lemma escalate_run (host : Host) (tool : AgentTool) (input : Json) (context : StaticContext)
    (h : statusOf w call.id = some .started) :
    if tool.preparesApproval = true ∧ host.prepareApproval ≠ .ok () then
      Abandons call.id .started ((escalate tool input context call).run (exec host) w)
    else
      Answers call.id .requiresApproval true
        ((escalate tool input context call).run (exec host) w) := by
  obtain ⟨hkept, hprepared⟩ := prepareApproval_run host tool input call w
  unfold escalate
  rcases hrun : (prepareApproval tool input call).run (exec host) w with ⟨r, w'⟩
  rw [hrun] at hkept hprepared
  dsimp only at hkept hprepared
  -- only the preparation of the approval can throw, and it leaves the status alone
  cases r with
  | error e =>
    rw [Prog.run_bind_error _ hrun]
    cases htool : tool.preparesApproval with
    | false =>
      rw [htool] at hprepared
      cases hprepared
    | true =>
      rw [htool, if_pos rfl] at hprepared
      rw [← hprepared, if_pos ⟨rfl, nofun⟩]
      exact ⟨⟨e, rfl⟩, hkept.trans h⟩
  | ok u =>
    have hno : ¬ (tool.preparesApproval = true ∧ host.prepareApproval ≠ .ok ()) := by
      rintro ⟨htool, hne⟩
      rw [htool, if_pos rfl] at hprepared
      exact hne hprepared.symm
    rw [if_neg hno, Prog.run_bind_ok _ hrun]
    unfold logGovernanceEvent await
    rw [Prog.call_bind, Prog.run_stmt]
    exact (transition_moves (by exact hkept.trans h) _ _ _).answers (List.mem_singleton_self _) _

/-- What the record keeps of an output, if it takes it. -/
def previewed (p : StaticBinding.Platform) : JsOutput → Bool
  | .undefined => true
  | .json v => (p.buildPreview v).toBool
  | .notJson => false

def answerStatus : Except String StaticResult → ToolCallStatus
  | .ok result => if result.success then .succeeded else .failed
  | .error _ => .failed

/-- Finalizing moves the call if its output has a preview. -/
lemma finalize_moves {id : Id} {now : ToolCallStatus} (h : statusOf w id = some now)
    (input : StaticBinding.ToolCallFinalizeInput)
    (hpreview : previewed host.platform input.output = true) :
    Moves id [.started, .running] now input.status
      ((lifecycle (StaticBinding.finalize host.platform id input)).run (exec host) w) := by
  unfold StaticBinding.finalize
  cases houtput : input.output with
  | undefined => exact transition_moves h _ _ _
  | notJson =>
    rw [houtput] at hpreview
    cases hpreview
  | json v =>
    rw [houtput, previewed] at hpreview
    dsimp only
    cases hbuild : host.platform.buildPreview v with
    | error e =>
      rw [hbuild] at hpreview
      cases hpreview
    | ok preview => exact transition_moves h _ _ _

/-- An output without a preview is not stored. -/
lemma finalize_refused (host : Host) (id : Id) (input : StaticBinding.ToolCallFinalizeInput)
    (hpreview : previewed host.platform input.output = false) (w : World) :
    ∃ e, (lifecycle (StaticBinding.finalize host.platform id input)).run (exec host) w =
      (.error e, w) := by
  unfold StaticBinding.finalize
  cases houtput : input.output with
  | undefined =>
    rw [houtput] at hpreview
    cases hpreview
  | notJson => exact ⟨_, rfl⟩
  | json v =>
    rw [houtput, previewed] at hpreview
    dsimp only
    cases hbuild : host.platform.buildPreview v with
    | error e => exact ⟨e, rfl⟩
    | ok preview =>
      rw [hbuild] at hpreview
      cases hpreview

/-- The record of an answer: it closes as the answer says, or stays open. -/
lemma recordResult_run (host : Host) (h : statusOf w call.id = some .running) (startTime : Nat)
    (result : StaticResult) :
    if previewed host.platform result.output = true then
      Answers call.id (answerStatus (.ok result)) result.requiresApproval
        ((recordResult host call startTime result).run (exec host) w)
    else Abandons call.id .running ((recordResult host call startTime result).run (exec host) w) := by
  unfold recordResult await
  rw [Prog.call_bind, Prog.run_stmt]
  dsimp only [exec]
  by_cases hpreview : previewed host.platform result.output = true
  · rw [if_pos hpreview]
    exact Moves.answers (finalize_moves h _ hpreview) (by decide) _
  · rw [if_neg hpreview]
    obtain ⟨e, hrefused⟩ := finalize_refused host call.id
      (finalizeInput result (host.now w - startTime)) (Bool.eq_false_iff.2 hpreview) w
    rw [Prog.run_bind_error _ hrefused]
    exact ⟨⟨e, rfl⟩, h⟩

/-- What the body leaves where the record runs: the record closed as the tool answered, or open. -/
lemma executeBody_run (input : Json) (h : statusOf w call.id = some .running) (startTime : Nat) :
    (∃ result, host.execute = .ok result ∧ previewed host.platform result.output = true ∧
        Answers call.id (answerStatus host.execute) result.requiresApproval
          ((executeBody host input call startTime).run (exec host) w)) ∨
      (∀ result, host.execute = .ok result → previewed host.platform result.output = false) ∧
        Abandons call.id .running ((executeBody host input call startTime).run (exec host) w) := by
  have hkept : statusOf (host.executing call.id w) call.id = some .running :=
    (host.executing_status call.id w).trans h
  have hbody : (executeBody host input call startTime).run (exec host) w =
      (ofExcept host.execute >>= recordResult host call startTime).run (exec host)
        (host.executing call.id w) := rfl
  rw [hbody]
  cases hanswer : host.execute with
  | error e =>
    refine .inr ⟨fun result h => ?_, ?_⟩
    · cases h
    · rw [ofExcept, Prog.throw_bind, Prog.run_throw]
      exact ⟨⟨e, rfl⟩, hkept⟩
  | ok result =>
    rw [ofExcept, Prog.ret_bind]
    have hrecord := recordResult_run host hkept startTime result
    -- a result without a preview cannot be entered, and the body throws
    by_cases hpreview : previewed host.platform result.output = true
    · rw [if_pos hpreview] at hrecord
      exact .inl ⟨result, rfl, hpreview, hrecord⟩
    · rw [if_neg hpreview] at hrecord
      refine .inr ⟨fun result' hresult => ?_, hrecord⟩
      cases hresult
      exact Bool.eq_false_iff.2 hpreview

/-- What the body throws fails the call. -/
lemma executionThrew_run (h : statusOf w call.id = some .running) (startTime : Nat)
    (error : String) :
    Answers call.id .failed false
      ((executionThrew host call startTime error).run (exec host) w) := by
  unfold executionThrew await
  rw [Prog.call_bind, Prog.run_stmt]
  exact Moves.answers (finalize_moves h _ rfl) (by decide) _

/-- The record is one that a call of `executeTool` can hold. -/
structure Holds (w : World) (call : HeldCall) : Prop where
  status : statusOf w call.id = some call.status
  begun : call.approvedResume = false → call.status = .started
  resumed : call.approvedResume = true →
    call.status = .requiresApproval ∨ call.status = .running

/-- A held call starts to run. -/
lemma startRunning_run (host : Host) (h : Holds w call) (context : StaticContext)
    (startTime : Nat) :
    ((startRunning context call startTime).run (exec host) w).1 = .ok () ∧
      statusOf ((startRunning context call startTime).run (exec host) w).2 call.id =
        some .running := by
  have hmarks (expected : List ToolCallStatus) (hmem : call.status ∈ expected) :
      ((lifecycle (StaticBinding.markRunning call.id context.constraints.timeoutMs.floor expected
        startTime)).run (exec host) w).1 = .ok () ∧
      statusOf ((lifecycle (StaticBinding.markRunning call.id context.constraints.timeoutMs.floor
        expected startTime)).run (exec host) w).2 call.id = some .running := by
    have hmoves : Moves call.id expected call.status .running
        ((lifecycle (StaticBinding.markRunning call.id context.constraints.timeoutMs.floor expected
          startTime)).run (exec host) w) := transition_moves h.status _ _ _
    unfold Moves at hmoves
    rwa [if_pos hmem] at hmoves
  unfold startRunning
  -- a resumed call may be running already, and is not marked again
  by_cases hrunning : call.status = .running
  · rw [if_neg (not_not.2 hrunning)]
    exact ⟨rfl, hrunning ▸ h.status⟩
  · rw [if_pos hrunning]
    apply hmarks
    cases hresume : call.approvedResume with
    | false =>
      rw [h.begun hresume]
      exact List.mem_singleton_self _
    | true =>
      rw [(h.resumed hresume).resolve_right hrunning]
      exact List.mem_singleton_self _

/-- A successful answer reaches the record only if its output has a preview. -/
lemma runStaticTool_run (host : Host) (h : Holds w call) (input : Json) (context : StaticContext) :
    (∃ result, host.execute = .ok result ∧ previewed host.platform result.output = true ∧
        Answers call.id (answerStatus host.execute) result.requiresApproval
          ((runStaticTool host input context call).run (exec host) w)) ∨
      (∀ result, host.execute = .ok result → previewed host.platform result.output = false) ∧
        Answers call.id .failed false
          ((runStaticTool host input context call).run (exec host) w) := by
  have hstart := startRunning_run host h context (host.now w)
  have hrun : (runStaticTool host input context call).run (exec host) w =
      (startRunning context call (host.now w) >>= fun _ =>
        (executeBody host input call (host.now w)).attempt >>= fun r =>
          match r with
          | .ok result => .ret result
          | .error e => executionThrew host call (host.now w) e).run (exec host) w := rfl
  rw [hrun]
  rcases hs : (startRunning context call (host.now w)).run (exec host) w with ⟨r, w'⟩
  rw [hs] at hstart
  obtain ⟨hr, hrunning⟩ := hstart
  dsimp only at hr hrunning
  cases hr
  rw [Prog.run_bind_ok _ hs, Prog.run_bind_ok _ (Prog.run_attempt _ _ _)]
  -- what the body throws closes the record as failed
  rcases executeBody_run input hrunning (host.now w) with hbody | ⟨hno, hbody⟩
  · obtain ⟨result, hanswer, hpreview, ⟨returned, hreturned, happroval⟩, hstatus⟩ := hbody
    refine .inl ⟨result, hanswer, hpreview, ?_⟩
    rw [hreturned]
    exact ⟨⟨returned, rfl, happroval⟩, hstatus⟩
  · obtain ⟨⟨e, he⟩, hstatus⟩ := hbody
    refine .inr ⟨hno, ?_⟩
    rw [he]
    exact executionThrew_run hstatus _ e

/-! ## Hand-over -/

/-- A call that is begun is held. -/
lemma beginCall_held {toolName : String} {w' : World}
    (h : (beginCall host toolName input context).run (exec host) w = (.ok call, w')) :
    call.approvedResume = false ∧ Holds w' call := by
  unfold beginCall await at h
  cases hpreview : host.platform.buildPreview input with
  | error e =>
    rw [hpreview] at h
    cases h
  | ok preview =>
    rw [hpreview, ofExcept, Prog.ret_bind] at h
    cases h
    refine ⟨rfl, ?_, fun _ => rfl, nofun⟩
    show ((w.calls.put (host.generateId w) _) (host.generateId w)).map (·.status) = some .started
    rw [Table.put_self]
    rfl

/-- A call that is resumed is held. -/
lemma resumeApprovedStatic_held {toolName : String} {w' : World}
    (h : (resumeApprovedStatic host toolName input context).run (exec host) w = (.ok call, w')) :
    call.approvedResume = true ∧ Holds w' call := by
  unfold resumeApprovedStatic await at h
  split at h
  · rename_i toolCallId inputDigest _ _
    cases hpreview : host.platform.buildPreview input with
    | error e =>
      rw [hpreview] at h
      cases h
    | ok preview =>
      rw [hpreview, ofExcept, Prog.ret_bind] at h
      -- the approval is for this input, and the row is looked up with the statuses that may resume
      by_cases hdigest : preview.digest ≠ inputDigest
      · rw [if_pos hdigest] at h
        cases h
      · rw [if_neg hdigest, Prog.call_bind, Prog.run_stmt] at h
        cases hfound : (exec host (.findApproved toolCallId context.workspaceId toolName) w).2 with
        | none =>
          rw [hfound] at h
          cases h
        | some found =>
          obtain ⟨row, digest⟩ := found
          rw [hfound] at h
          obtain ⟨row', hrow, heq⟩ := Option.map_eq_some_iff.1 hfound
          cases heq
          obtain ⟨hrow, hwhere⟩ := Option.filter_eq_some_iff.1 hrow
          dsimp only at h
          split_ifs at h with hbound
          · cases h
            refine ⟨rfl, ?_, nofun, fun _ => ?_⟩
            · show (w.calls toolCallId).map (·.status) = some row.status
              rw [hrow]
              rfl
            · simp only [Bool.and_eq_true, Bool.or_eq_true, decide_eq_true_eq] at hwhere
              exact hwhere.2
          · cases h
  · cases h

/-- A record in hand is begun, or taken up again with a grant for the tool. -/
lemma handOver_held {toolName : String} {w' : World}
    (h : (handOver host toolName input context).run (exec host) w = (.ok call, w')) :
    Holds w' call ∧ (call.approvedResume = true → granted toolName context = true) := by
  unfold handOver at h
  split_ifs at h with hgrant
  · exact ⟨(resumeApprovedStatic_held h).2, fun _ => hgrant.1⟩
  · obtain ⟨hbegun, hheld⟩ := beginCall_held h
    refine ⟨hheld, fun hresumed => ?_⟩
    rw [hbegun] at hresumed
    cases hresumed

end runs

end NexusClaw.AgentRuntime.StaticCalls
