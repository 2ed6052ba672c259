import NexusClaw.Concurrent.Exclusive
import NexusClaw.Governance.Footprint

/-!
# Upstream calls for an approval

How often the call recorded in an approval reaches the upstream server, over every interleaving of
kernel operations. Two code paths make that call: the elicitation branch of `tools/call` and
`pendingLookup`. Each goes by what it reads of the approval row and its execution row, and no row says
that the call was made already; so the call is made once for every request that finds the approval
released, and at most once if no two requests do.
-/

namespace NexusClaw.Governance
open Concurrent

/-- How many upstream calls were made for the approval `a`. -/
def upstreamCalls (a : Id) (w : World) : Nat :=
  w.trace.countP fun
    | .upstreamCall (some b) _ _ => b = a
    | _ => false

/-- The request made an upstream call for the approval `a`. -/
def calls (a : Id) : Sigma Stmt.Resp → Prop
  | ⟨.callTool (some b) _ _, _⟩ => b = a
  | _ => False

/-! ## Released approvals -/

/-- The status stands for a decision that `pendingLookup` does not take for a rejection. -/
def ApprovalStatus.releases : ApprovalStatus → Bool
  | .pending => false
  | .rejected => false
  | .approved => true
  | .recalled => true
  | .expired => true

/-- The request is a `governance_pending__lookup`. -/
def Operation.isLookup : Operation → Bool
  | .toolsCall _ name _ => name = pendingLookupTool
  | _ => false

/-- The row holds a decision for its call, which can be recovered. -/
def ApprovalInstance.callReleased (cfg : Config) (row : ApprovalInstance) : Bool :=
  row.status.releases && (recoveredCall cfg row).isSome

/-- The row waits for a decision on its call, which can be recovered. -/
def ApprovalInstance.callWaits (cfg : Config) (row : ApprovalInstance) : Bool :=
  row.status = .pending && (recoveredCall cfg row).isSome

/-- The approval whose row was read and is as `p` says. -/
def readApproval (p : ApprovalInstance → Bool) : Sigma Stmt.Resp → Option Id
  | ⟨.findApproval _, some row⟩ => if p row then some row.id else none
  | _ => none

/-- A read of a decided row of the approval `a`. -/
def readsDecided (cfg : Config) (a : Id) (o : Sigma Stmt.Resp) : Prop :=
  readApproval (·.callReleased cfg) o = some a

/-- A read of a waiting row of the approval `a`. -/
def readsWaiting (cfg : Config) (a : Id) (o : Sigma Stmt.Resp) : Prop :=
  readApproval (·.callWaits cfg) o = some a

/-- A read of an execution row that is running. -/
def readsRunning : Sigma Stmt.Resp → Bool
  | ⟨.findExecution _, some execution⟩ => execution.status = .running
  | _ => false

/-- The user of an elicitation approves. -/
def userApproves : Sigma Stmt.Resp → Bool
  | ⟨.elicit _, .ok answer⟩ => answer.decision? = some "APPROVED"
  | _ => false

/-- The row asked for under the id `a` is pending. -/
def findsPending (a : Id) : Sigma Stmt.Resp → Bool
  | ⟨.findApproval b, some row⟩ => b = a && row.status = .pending
  | _ => false

instance (cfg : Config) (a : Id) : DecidablePred (readsDecided cfg a) :=
  fun _ => inferInstanceAs (Decidable (_ = _))

instance (cfg : Config) (a : Id) : DecidablePred (readsWaiting cfg a) :=
  fun _ => inferInstanceAs (Decidable (_ = _))

/-- The request found the approval `a` released. A lookup finds its row decided, or waiting and then
an execution running; a `tools/call` finds it pending after its user approved. -/
def Operation.Released (cfg : Config) (op : Operation) (a : Id) (h : History Stmt Stmt.Resp) : Prop :=
  (op.isLookup = true ∧
    (Did (readsDecided cfg a) h ∨ DidThen (readsWaiting cfg a) (readsRunning · = true) h)) ∨
    DidThen (userApproves · = true) (findsPending a · = true) h

instance (cfg : Config) (op : Operation) (a : Id) (h : History Stmt Stmt.Resp) :
    Decidable (op.Released cfg a h) :=
  inferInstanceAs (Decidable (_ ∨ _))

/-- The approvals that a request finds released by its next statement, from the stored rows. -/
def Operation.learns (cfg : Config) (op : Operation) (w : World) (h : History Stmt Stmt.Resp) :
    Stmt → List Id
  | .findApproval a =>
    (w.approvals a).elim [] fun row =>
      if op.isLookup = true ∧ row.callReleased cfg = true then [row.id]
      else if Did (userApproves · = true) h ∧ row.status = .pending then [a]
      else []
  | .findExecution e =>
    if op.isLookup = true ∧ (w.executions e).any (·.status = .running) then
      h.filterMap (readApproval (·.callWaits cfg))
    else []
  | _ => []

/-- What a request found stays found. -/
lemma Operation.Released.mono {cfg : Config} {op : Operation} {a : Id}
    {h : History Stmt Stmt.Resp} (hr : op.Released cfg a h) (o : Sigma Stmt.Resp) :
    op.Released cfg a (h ++ [o]) := by
  unfold Operation.Released at *
  rw [did_concat, didThen_concat, didThen_concat]
  obtain ⟨hl, hd | ht⟩ | ht := hr
  · exact .inl ⟨hl, .inl (.inl hd)⟩
  · exact .inl ⟨hl, .inr (.inl ht)⟩
  · exact .inr (.inl ht)

/-- A request that has read nothing found nothing released. -/
lemma Operation.not_released_nil (cfg : Config) (op : Operation) (a : Id) :
    ¬ op.Released cfg a [] := by
  rintro (⟨-, hd | ht⟩ | ht)
  · exact did_nil _ hd
  · exact ht
  · exact ht

section reads
variable {cfg : Config} {a : Id} {ans : Answers} {w : World} {s : Stmt}

/-- A row read by a step is the stored one. -/
lemma readApproval_exec {p : ApprovalInstance → Bool}
    (h : readApproval p ⟨s, (exec ans s w).2⟩ = some a) :
    ∃ b row, s = .findApproval b ∧ w.approvals b = some row ∧ p row = true ∧ row.id = a := by
  cases s with
  | findApproval b =>
    change readApproval p ⟨.findApproval b, w.approvals b⟩ = some a at h
    cases hrow : w.approvals b with
    | none =>
      rw [hrow] at h
      cases h
    | some row =>
      rw [hrow] at h
      obtain ⟨hp, ha⟩ := Option.ite_none_right_eq_some.mp h
      exact ⟨b, row, rfl, hrow, hp, Option.some.inj ha⟩
  | _ => cases h

/-- An asked row found pending by a step is so stored. -/
lemma findsPending_exec (h : findsPending a ⟨s, (exec ans s w).2⟩ = true) :
    s = .findApproval a ∧ ∃ row, w.approvals a = some row ∧ row.status = .pending := by
  cases s with
  | findApproval b =>
    change findsPending a ⟨.findApproval b, w.approvals b⟩ = true at h
    cases hrow : w.approvals b with
    | none =>
      rw [hrow] at h
      cases h
    | some row =>
      rw [hrow] at h
      obtain ⟨hb, hp⟩ := Bool.and_eq_true .. |>.mp h
      obtain rfl := of_decide_eq_true hb
      exact ⟨rfl, row, hrow, of_decide_eq_true hp⟩
  | _ => cases h

/-- An execution row read running by a step is so stored. -/
lemma readsRunning_exec (h : readsRunning ⟨s, (exec ans s w).2⟩ = true) :
    ∃ e, s = .findExecution e ∧ (w.executions e).any (·.status = .running) = true := by
  cases s with
  | findExecution e =>
    refine ⟨e, rfl, ?_⟩
    change readsRunning ⟨.findExecution e, w.executions e⟩ = true at h
    cases hrow : w.executions e with
    | none =>
      rw [hrow] at h
      cases h
    | some row =>
      rw [hrow] at h
      exact h
  | _ => cases h

/-- Whoever finds an approval released by a step was about to. -/
lemma Operation.Released.before {op : Operation} {h : History Stmt Stmt.Resp}
    (hr : op.Released cfg a (h ++ [⟨s, (exec ans s w).2⟩])) :
    op.Released cfg a h ∨ a ∈ op.learns cfg w h s := by
  unfold Operation.Released at hr
  rw [did_concat, didThen_concat, didThen_concat] at hr
  obtain ⟨hl, (hd | hd) | ht | ⟨hd, hg⟩⟩ | ht | ⟨hd, hg⟩ := hr
  · exact .inl (.inl ⟨hl, .inl hd⟩)
  · obtain ⟨b, row, rfl, hrow, hp, rfl⟩ := readApproval_exec hd
    refine .inr ?_
    rw [Operation.learns, hrow, Option.elim_some, if_pos ⟨hl, hp⟩]
    exact List.mem_singleton_self _
  · exact .inl (.inl ⟨hl, .inr ht⟩)
  · obtain ⟨e, rfl, hrow⟩ := readsRunning_exec hg
    refine .inr ?_
    rw [Operation.learns, if_pos ⟨hl, hrow⟩]
    exact List.mem_filterMap.mpr hd
  · exact .inl (.inr ht)
  · obtain ⟨rfl, row, hrow, hp⟩ := findsPending_exec hg
    refine .inr ?_
    have hdecided : ¬ (op.isLookup = true ∧ row.callReleased cfg = true) := by
      simp [ApprovalInstance.callReleased, hp, ApprovalStatus.releases]
    rw [Operation.learns, hrow, Option.elim_some, if_neg hdecided, if_pos ⟨hd, hp⟩]
    exact List.mem_singleton_self _

end reads

section run
variable {ι : Type} [DecidableEq ι]

/-- The step finds no approval released that another request has found released. -/
def SingleRelease (cfg : Config) (ops : ι → Operation) (w : World)
    (H : ι → History Stmt Stmt.Resp) (i : ι) (s : Stmt) : Prop :=
  ∀ a ∈ (ops i).learns cfg w (H i) s, ∀ j, j ≠ i → ¬ (ops j).Released cfg a (H j)

/-- For each approval at most one request finds it released, only it calls, and it calls once. -/
def CallsInv (cfg : Config) (ops : ι → Operation) (w₀ w : World)
    (H : ι → History Stmt Stmt.Resp) : Prop :=
  ∀ a, Exclusive (fun i => (ops i).Released cfg a) (calls a) (upstreamCalls a) (upstreamCalls a w₀)
    w H

variable {cfg : Config} {ans : Answers} {ops : ι → Operation} {w₀ w : World}
  {H : ι → History Stmt Stmt.Resp} {i : ι}

/-- A statement that is no upstream call for an approval. -/
def Stmt.noApprovedCall : Stmt → Prop
  | .callTool (some _) _ _ => False
  | _ => True

/-- A statement for the execution calls nothing upstream. -/
lemma Stmt.worksFor.noApprovedCall {e : Id} {s : Stmt} (h : s.worksFor cfg e) : s.noApprovedCall := by
  cases s with
  | callTool approvalId tool args => exact absurd h id
  | _ => trivial

/-- A statement that calls nothing is no call. -/
lemma not_calls {s : Stmt} (hs : s.noApprovedCall) (a : Id) (r : s.Resp) : ¬ calls a ⟨s, r⟩ := by
  cases s with
  | callTool approvalId tool args =>
    cases approvalId with
    | none => exact id
    | some b => exact absurd hs id
  | _ => exact id

/-- Nor does it change the calls. -/
lemma upstreamCalls_exec {s : Stmt} (hs : s.noApprovedCall) (a : Id) (w : World) :
    upstreamCalls a (exec ans s w).1 = upstreamCalls a w := by
  cases s with
  | callTool approvalId tool args =>
    cases approvalId with
    | none => simp [upstreamCalls, exec]
    | some b => exact absurd hs id
  | chat messages => simp [upstreamCalls, exec]
  | runTool origin name input => simp [upstreamCalls, exec]
  | _ => rfl

/-- Every statement but the upstream call keeps the invariant. -/
lemma CallsInv.keep {s : Stmt} (hI : CallsInv cfg ops w₀ w H) (hs : s.noApprovedCall)
    (hG : SingleRelease cfg ops w H i s) :
    CallsInv cfg ops w₀ (exec ans s w).1 (observe H i s (exec ans s w).2) :=
  fun a => (hI a).keep (not_calls hs a _) (fun hr => hr.mono _)
    (fun hr => hr.before.imp_right (hG a)) (upstreamCalls_exec hs a w)

/-- The upstream call of a request that found the approval released and has not called yet. -/
lemma CallsInv.call {a : Id} {tool : AggregatedTool} {args : Json} (hI : CallsInv cfg ops w₀ w H)
    (hr : (ops i).Released cfg a (H i)) (hnot : ∀ b, ¬ Did (calls b) (H i))
    (hG : SingleRelease cfg ops w H i (.callTool (some a) tool args)) :
    CallsInv cfg ops w₀ (exec ans (.callTool (some a) tool args) w).1
      (observe H i (.callTool (some a) tool args)
        (exec ans (.callTool (some a) tool args) w).2) := by
  intro b
  by_cases hb : a = b
  · subst hb
    refine (hI a).perform rfl hr (hnot a) (fun h => h.mono _) ?_
    simp [upstreamCalls, exec]
  · refine (hI b).keep hb (fun h => h.mono _) (fun h => h.before.imp_right (hG b)) ?_
    simp [upstreamCalls, exec, hb]

/-! ## The outlines -/

/-- The outline of request `i` under the condition that no two requests find an approval released. -/
abbrev CallsOutline (cfg : Config) (ans : Answers) (ops : ι → Operation) (w₀ : World) (i : ι)
    (Q : History Stmt Stmt.Resp → Prop) {α : Type} (h : History Stmt Stmt.Resp) (p : Act α) : Prop :=
  Outline (exec ans) (CallsInv cfg ops w₀) (SingleRelease cfg ops) (fun h _ => Q h) i h p

variable {h : History Stmt Stmt.Resp} {α : Type}

/-- A program that makes no approved call, before the request has called. -/
lemma quiet_outline {p : Act α} (hp : p.Uses Stmt.noApprovedCall)
    (hnot : ∀ a, ¬ Did (calls a) h) :
    CallsOutline cfg ans ops w₀ i (fun h => ∀ a, ¬ Did (calls a) h) h p := by
  refine Outline.of_uses (J := fun h => ∀ a, ¬ Did (calls a) h) hp hnot ?_ (fun _ _ hJ => hJ)
  intro s w H hs hI hJ hG
  refine ⟨hI.keep hs hG, fun a => ?_⟩
  rw [did_concat]
  rintro (hd | hd)
  · exact hJ a hd
  · exact not_calls hs a _ hd

/-- A program that makes no approved call, at any time. -/
lemma rest_outline {p : Act α} (hp : p.Uses Stmt.noApprovedCall) :
    CallsOutline cfg ans ops w₀ i (fun _ => True) h p :=
  Outline.of_uses (J := fun _ => True) hp trivial
    (fun _ _ _ hs hI _ hG => ⟨hI.keep hs hG, trivial⟩) (fun _ _ _ => trivial)

/-- The outline of a released call. -/
lemma executeAndComplete_outline (a : Id) (tool : AggregatedTool) (e : Id) (args : Json)
    (hr : (ops i).Released cfg a h) (hnot : ∀ b, ¬ Did (calls b) h) :
    CallsOutline cfg ans ops w₀ i (fun _ => True) h
      (executeAndComplete cfg (some a) tool e args) := by
  refine Outline.call fun w H hI hH hG => ?_
  subst hH
  refine ⟨hI.call hr hnot hG, rest_outline ?_⟩
  generalize (exec ans (.callTool (some a) tool args) w).2 = r
  cases r with
  | error e => exact Prog.Uses.bind (complete_uses (fun _ _ h => h.noApprovedCall) ..) fun _ => trivial
  | ok r => exact Prog.Uses.bind (complete_uses (fun _ _ h => h.noApprovedCall) ..) fun _ => trivial

/-- A lookup calls only what it recovers. -/
lemma lookupExecute_outline {row : ApprovalInstance} (hnot : ∀ a, ¬ Did (calls a) h)
    (hr : (recoveredCall cfg row).isSome = true → (ops i).Released cfg row.id h) :
    CallsOutline cfg ans ops w₀ i (fun _ => True) h (lookupExecute cfg row) := by
  unfold lookupExecute
  cases hcall : recoveredCall cfg row with
  | none => trivial
  | some call =>
    refine executeAndComplete_outline row.id call.1 row.recordId call.2 (hr ?_) hnot
    rw [hcall]
    rfl

/-- The approved branch of a lookup that found the approval released. -/
lemma lookupApproved_outline {row : ApprovalInstance} (hnot : ∀ a, ¬ Did (calls a) h)
    (hr : (recoveredCall cfg row).isSome = true → (ops i).Released cfg row.id h) :
    CallsOutline cfg ans ops w₀ i (fun _ => True) h (lookupApproved cfg row) := by
  unfold lookupApproved
  by_cases hp : row.status = .pending
  · rw [if_pos hp]
    refine Outline.call fun w H hI hH hG => ⟨hI.keep trivial hG, ?_⟩
    refine lookupExecute_outline ?_ fun hs => (hr hs).mono _
    simp [hnot, calls]
  · rw [if_neg hp]
    exact lookupExecute_outline hnot hr

/-- A lookup acts on the approval row and the execution row that it read. -/
lemma lookupRow_outline {row : ApprovalInstance} {b : Id} (hop : (ops i).isLookup = true) :
    CallsOutline cfg ans ops w₀ i (fun _ => True) [⟨.findApproval b, some row⟩]
      (lookupRow cfg row) := by
  refine outline_findExecutionOrFail (fun _ _ => trivial) fun w H hI _ hG => ?_
  refine ⟨hI.keep trivial hG, fun execution _ => ?_⟩
  have hnot : ∀ a, ¬ Did (calls a) ([⟨.findApproval b, some row⟩] ++
      [⟨.findExecution row.recordId, some execution⟩]) := by
    intro a
    simp [calls]
  have hreleased : (lookupStatus row execution).releases = true →
      (recoveredCall cfg row).isSome = true →
      (ops i).Released cfg row.id ([⟨.findApproval b, some row⟩] ++
        [⟨.findExecution row.recordId, some execution⟩]) := by
    intro hs hcall
    refine .inl ⟨hop, ?_⟩
    unfold lookupStatus at hs
    split_ifs at hs with hrun
    · refine .inr (.inl ⟨?_, ?_⟩)
      · simp [readsWaiting, readApproval, ApprovalInstance.callWaits, hrun.1, hcall]
      · simp [readsRunning, hrun.2]
    · refine .inl ?_
      simp [readsDecided, readApproval, ApprovalInstance.callReleased, hs, hcall]
  cases hs : lookupStatus row execution with
  | pending => trivial
  | rejected => exact rest_outline (lookupRejected_uses (fun _ _ h => h.noApprovedCall) row execution)
  | approved => exact lookupApproved_outline hnot (hreleased (by rw [hs]; rfl))
  | recalled => exact lookupApproved_outline hnot (hreleased (by rw [hs]; rfl))
  | expired => exact lookupApproved_outline hnot (hreleased (by rw [hs]; rfl))

/-- The outline of a lookup. -/
lemma pendingLookup_outline {elicitation : Bool} {args : Json}
    (hop : ops i = .toolsCall elicitation pendingLookupTool args) :
    CallsOutline cfg ans ops w₀ i (fun _ => True) [] (pendingLookup cfg (approvalIdArg cfg args)) := by
  have hlookup : (ops i).isLookup = true := by
    rw [hop]
    exact decide_eq_true (rfl : pendingLookupTool = pendingLookupTool)
  unfold pendingLookup
  by_cases ht : approvalIdArg cfg args = ""
  · rw [if_pos ht]
    trivial
  rw [if_neg ht]
  cases hid : cfg.idOf (approvalIdArg cfg args) with
  | none => trivial
  | some id =>
    refine Outline.call fun w H hI _ hG => ⟨hI.keep trivial hG, ?_⟩
    generalize (exec ans (.findApproval id) w).2 = found
    cases found with
    | none => trivial
    | some row => exact lookupRow_outline hlookup

/-- A decision that does not throw found the approval pending. -/
lemma decideApproval_outline (a : Id) (decision : Decision) (actor : String)
    (hnot : ∀ b, ¬ Did (calls b) h) (happroves : Did (userApproves · = true) h) :
    Outline (exec ans) (CallsInv cfg ops w₀) (SingleRelease cfg ops)
      (fun h' r => r = .ok () → (∀ b, ¬ Did (calls b) h') ∧
        DidThen (userApproves · = true) (findsPending a · = true) h')
      i h (decideApproval a decision actor) := by
  refine outline_findApprovalOrFail (fun _ _ hr => nomatch hr) fun w H hI _ hG => ?_
  refine ⟨hI.keep trivial hG, fun row _ => ?_⟩
  by_cases hp : row.status = .pending
  · rw [if_neg (not_not_intro hp)]
    have hfound : DidThen (userApproves · = true) (findsPending a · = true)
        (h ++ [⟨.findApproval a, some row⟩]) := by
      refine (didThen_concat ..).mpr (.inr ⟨happroves, ?_⟩)
      simp [findsPending, hp]
    refine Outline.call fun w H hI _ hG => ⟨hI.keep trivial hG, ?_⟩
    intro w H hI _ hG
    refine ⟨hI.keep trivial hG, fun _ => ⟨?_, ?_⟩⟩
    · simp [hnot, calls]
    · exact (didThen_concat ..).mpr (.inl ((didThen_concat ..).mpr (.inl hfound)))
  · rw [if_pos hp]
    exact fun hr => nomatch hr

/-- The outline of a call that the client decides. -/
lemma elicitDecision_outline {name : String} {args : Json}
    (tool : AggregatedTool) (e a : Id) (riskLevel : String) (hnot : ∀ b, ¬ Did (calls b) h) :
    CallsOutline cfg ans ops w₀ i (fun _ => True) h
      (elicitDecision cfg tool name args e a riskLevel) := by
  refine Outline.call fun w H hI _ hG => ⟨hI.keep trivial hG, ?_⟩
  generalize hr : (exec ans (.elicit _) w).2 = answered
  cases answered with
  | error error => trivial
  | ok answer =>
    by_cases hd : answer.decision? = some "APPROVED"
    · simp only [hd, if_true]
      refine Outline.bind (decideApproval_outline a _ _ ?_ ?_) ?_ fun _ _ _ => trivial
      · simp [hnot, calls]
      · simp [userApproves, hd]
      · intro h' _ hq
        obtain ⟨hnot', hfound⟩ := hq rfl
        exact executeAndComplete_outline a tool e args (.inr hfound) hnot'
    · simp only [hd, if_false]
      refine rest_outline (Prog.Uses.bind ?_ fun _ => trivial)
      exact decideApproval_uses (fun _ => trivial) (fun _ _ => trivial) (fun _ _ => trivial) ..

/-- The outline of a tool call. -/
lemma toolsCall_outline (elicitation : Bool) (name : String) (args : Json)
    (hop : ops i = .toolsCall elicitation name args) :
    CallsOutline cfg ans ops w₀ i (fun _ => True) [] (toolsCall cfg elicitation name args) := by
  unfold toolsCall
  by_cases hn : name = pendingLookupTool
  · rw [if_pos hn]
    subst hn
    exact pendingLookup_outline hop
  rw [if_neg hn]
  cases cfg.byAggregatedName name with
  | none => trivial
  | some tool =>
    refine Outline.bind (quiet_outline (gate_uses (fun _ _ h => h.noApprovedCall)
      (fun _ => trivial) ..) fun a => did_nil _) ?_ fun _ _ _ => trivial
    intro h verdict hnot
    cases verdict with
    | blocked e callId reason => trivial
    | allow e callId =>
      refine rest_outline (Prog.Uses.call_bind trivial fun r => ?_)
      cases r with
      | error e => exact Prog.Uses.bind (complete_uses (fun _ _ h => h.noApprovedCall) ..) fun _ => trivial
      | ok r => exact Prog.Uses.bind (complete_uses (fun _ _ h => h.noApprovedCall) ..) fun _ => trivial
    | paused e callId a riskLevel =>
      cases elicitation with
      | true => exact elicitDecision_outline tool e a riskLevel hnot
      | false => trivial

/-- Every operation keeps the invariant at each of its statements. -/
lemma program_outline (cfg : Config) (ans : Answers) (ops : ι → Operation) (w₀ : World) (i : ι) :
    CallsOutline cfg ans ops w₀ i (fun _ => True) [] ((ops i).program cfg) := by
  have hw : ∀ e s, Stmt.worksFor cfg e s → Stmt.noApprovedCall s := fun _ _ h => h.noApprovedCall
  cases hop : ops i with
  | run input => exact rest_outline (Prog.Uses.bind (run_uses hw (fun _ => trivial) ..) fun _ => trivial)
  | resumePaused input => exact rest_outline (Prog.Uses.bind (resumePaused_uses hw ..) fun _ => trivial)
  | gate toolName toolInput =>
    exact rest_outline (Prog.Uses.bind (gate_uses hw (fun _ => trivial) ..) fun _ => trivial)
  | complete e outcome => exact rest_outline (complete_uses hw ..)
  | postDecide a decision comment =>
    exact rest_outline (Prog.Uses.bind (postDecide_uses hw (fun _ _ => trivial) ..) fun _ => trivial)
  | decideApproval a decision actor =>
    exact rest_outline (decideApproval_uses (fun _ => trivial) (fun _ _ => trivial) (fun _ _ => trivial) ..)
  | toolsCall elicitation name args =>
    exact Outline.bind (toolsCall_outline elicitation name args hop) (fun _ _ _ => trivial)
      fun _ _ _ => trivial

/-! ## The result -/

/-- Any number of kernel operations in any interleaving in which no two requests find one approval
released: for each approval at most one upstream call is made. -/
theorem upstream_at_most_once (cfg : Config) (ans : Answers) (ops : ι → Operation) (w : World)
    (sched : List ι) (a : Id) (hw : upstreamCalls a w = 0)
    (hG : Pool.Guarded (exec ans) (SingleRelease cfg ops)
      (Pool.start w fun i => (ops i).program cfg) sched) :
    upstreamCalls a
      ((Pool.start w fun i => (ops i).program cfg).play (exec ans) sched).world ≤ 1 := by
  obtain ⟨hI, -⟩ := Outline.play
    (fun b => Exclusive.start fun i => Operation.not_released_nil cfg (ops i) b)
    (program_outline cfg ans ops w) hG
  have hb := (hI a).bound
  rw [hw] at hb
  exact hb

end run

instance {n : Nat} (cfg : Config) (ops : Fin n → Operation) (w : World)
    (H : Fin n → History Stmt Stmt.Resp) (i : Fin n) (s : Stmt) :
    Decidable (SingleRelease cfg ops w H i s) :=
  inferInstanceAs (Decidable (∀ a ∈ (ops i).learns cfg w (H i) s, ∀ j, j ≠ i → ¬ _))

/-- A paused call, two lookups of it, its approval and a late decision of the console. -/
def lookedUpAround : Fin 5 → Operation :=
  fun i => [Operation.toolsCall false "mail__send" .empty,
    .toolsCall false pendingLookupTool (.obj [("approval_id", .str "3")]),
    .decideApproval 3 .approved "alice",
    .toolsCall false pendingLookupTool (.obj [("approval_id", .str "3")]),
    .postDecide 3 (some "rejected") none].get i

/-- The first lookup reads the approval pending and the execution before the decision, the second
reads the approval decided: of the five requests one finds it released, and the call is made once. -/
theorem upstream_called_once_around :
    let c := (Pool.start World.empty fun i => (lookedUpAround i).program .small).play (exec .small)
      (List.replicate 12 0 ++ [1, 2] ++ List.replicate 8 1 ++ List.replicate 3 2 ++
        List.replicate 9 3 ++ List.replicate 3 4)
    (∀ i, (c.thread i).next?.isNone = true) ∧ upstreamCalls 3 c.world = 1 := by
  refine ⟨by decide +kernel, Nat.le_antisymm ?_ (by decide +kernel)⟩
  exact upstream_at_most_once .small .small lookedUpAround .empty _ 3 rfl (by decide +kernel)

/-- A paused call, its approval, and then the lookup twice. -/
def lookedUpTwice : Nat → Operation
  | 0 => .toolsCall false "mail__send" .empty
  | 1 => .decideApproval 3 .approved "alice"
  | _ => .toolsCall false pendingLookupTool (.obj [("approval_id", .str "3")])

/-- The lookup does not record that it executed the call: each one after the decision executes it
again. -/
theorem upstream_called_twice :
    ¬ ∀ (ops : Nat → Operation) (sched : List Nat) (a : Id),
      upstreamCalls a
        ((Pool.start World.empty fun i => (ops i).program .small).play (exec .small) sched).world
          ≤ 1 := by
  intro h
  have h2 := h lookedUpTwice
    (List.replicate 12 0 ++ List.replicate 4 1 ++ List.replicate 9 2 ++ List.replicate 9 3) 3
  revert h2
  decide +kernel

end NexusClaw.Governance
