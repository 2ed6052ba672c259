import NexusClaw.Governance.ApprovalRaces

/-!
# Approvers

Decisions and timeouts of one approval process, one after the other. `processDecision` asks the
approver check about the step at the instance's index and asks nobody when there is no such step.
`Sound` is what carries a run: the index points at a step, and every step before it was approved by
one of its approvers or was escalated. A process without steps is where it fails.
-/

namespace NexusClaw.Governance
open Concurrent

/-! ## Runs -/

/-- `getSteps` of a process. -/
def World.processSteps (w : World) (processId : Id) : List ApprovalStep :=
  (w.approvalSteps.filter (·.approvalProcessId = processId)).insertionSort
    (fun a b => a.stepOrder ≤ b.stepOrder)

/-- The world after a call. -/
def World.called (cfg : Config) (ans : Answers) (w : World) (call : ApprovalCall) : World :=
  ((call.program cfg).run (exec ans) w).2

/-- The world after calls one after the other. -/
def World.calledAll (cfg : Config) (ans : Answers) (w : World) (calls : List ApprovalCall) : World :=
  calls.foldl (World.called cfg ans) w

/-- The decision is accepted: it returns. -/
def Accepted (cfg : Config) (ans : Answers) (w : World) (decision : ApprovalDecision) : Prop :=
  ∃ row, ((processDecision cfg decision).run (exec ans) w).1 = .ok row

/-! ## Approvers of a step -/

/-- The approver check accepts the step at the instance's index. -/
def Approves (ans : Answers) (w : World) (row : ApprovalInstance) (actor : String) : Prop :=
  ∃ step, (w.processSteps row.processId)[row.currentStepIndex]? = some step ∧
    ans.canApprove w.clock step actor = true

/-- The step `k` was approved by one of its approvers, or was escalated. -/
def Covered (ans : Answers) (steps : List ApprovalStep) (history : List ApprovalHistoryEntry)
    (k : Nat) : Prop :=
  ∃ step entry, steps[k]? = some step ∧ entry ∈ history ∧ entry.stepIndex = k ∧
    ((entry.action = .approved ∧ ∃ n, ans.canApprove n step entry.actorId = true) ∨
      entry = timeoutEntry step k .escalate)

/-- One more entry covers one more step. -/
lemma Covered.append {ans : Answers} {steps : List ApprovalStep}
    {history : List ApprovalHistoryEntry} {k : Nat} (h : Covered ans steps history k)
    (more : List ApprovalHistoryEntry) : Covered ans steps (history ++ more) k := by
  obtain ⟨step, entry, hstep, hin, hrest⟩ := h
  exact ⟨step, entry, hstep, List.mem_append_left _ hin, hrest⟩

/-- Nobody decides a step of the instance `id` without being one of its approvers, whatever is called
from `w` on. -/
structure OnlyApprovers (cfg : Config) (ans : Answers) (w : World) (id : Id) : Prop where
  decides : ∀ calls decision row, decision.instanceId = id →
    (w.calledAll cfg ans calls).approvals id = some row →
    Accepted cfg ans (w.calledAll cfg ans calls) decision →
    Approves ans (w.calledAll cfg ans calls) row decision.approverId
  covered : ∀ calls row, (w.calledAll cfg ans calls).approvals id = some row →
    row.status = .approved → ∀ k, k < (w.processSteps row.processId).length →
    Covered ans (w.processSteps row.processId) row.history k

/-! ## One call -/

/-- The instance after an accepted decision. -/
def ApprovalInstance.decide (row : ApprovalInstance) (steps : List ApprovalStep)
    (decision : ApprovalDecision) : ApprovalInstance :=
  let entry := decision.entry row.currentStepIndex steps[row.currentStepIndex]?
  match decision.action with
  | .approved =>
    if row.currentStepIndex + 1 < steps.length then row.advanced entry
    else row.closed .approved entry
  | .rejected => row.closed .rejected entry

/-- The instance after a timeout. -/
def ApprovalInstance.expire (row : ApprovalInstance) (steps : List ApprovalStep) :
    ApprovalInstance :=
  let step := steps[row.currentStepIndex]?
  let action := (step.map (·.timeoutAction)).getD .reject
  let entry := timeoutEntry step row.currentStepIndex action
  if action = .escalate ∧ row.currentStepIndex + 1 < steps.length then row.advanced entry
  else row.closed .rejected entry

/-- What a call that takes effect finds: a pending instance of a process without a subject type. -/
structure Open (w : World) (id : Id) (row : ApprovalInstance) : Prop where
  stored : w.approvals id = some row
  pending : row.status = .pending
  subjectless : row.subjectType = none

section runs
variable {cfg : Config} {ans : Answers} {w : World}

/-- The steps that the engine reads for an instance. -/
def World.stepsFor (w : World) (row : ApprovalInstance) : List ApprovalStep :=
  if isAgentApproval row then [] else w.processSteps row.processId

/-- The steps of an instance. -/
lemma getSteps_run (row : ApprovalInstance) :
    (getStepsForInstance row).run (exec ans) w = (.ok (w.stepsFor row), w) := by
  unfold getStepsForInstance World.stepsFor
  split_ifs
  · rfl
  · rfl

/-- The conditional update writes the row as it was read and changed. -/
lemma save_run {row row' : ApprovalInstance} (hstored : w.approvals row.id = some row)
    (hpending : row.status = .pending) (hsame : row' = row.patch row'.decided)
    (hid : row'.id = row.id) (hworkspace : row'.workspaceId = row.workspaceId) :
    (saveDecisionFirstWriter row' row.currentStepIndex).run (exec ans) w =
      (.ok (), { w with approvals := w.approvals.put row.id row' }) := by
  have hselected : row.isPendingAt row.workspaceId row.currentStepIndex = true := by
    unfold ApprovalInstance.isPendingAt
    rw [hpending]
    simp
  have htable : (w.approvals.modify row.id fun r =>
      if r.isPendingAt row.workspaceId row.currentStepIndex then r.patch row'.decided else r) =
      w.approvals.put row.id row' := by
    funext k
    rw [Table.modify_apply, Table.put_apply]
    split_ifs with hk
    · subst hk
      rw [hstored, Option.map_some, if_pos hselected, ← hsame]
    · rfl
  unfold saveDecisionFirstWriter
  rw [Prog.run_bind, Prog.run_call]
  simp only [exec, hid, hworkspace, hstored, Option.any_some, hselected, if_true, htable]
  rfl

/-- A decision keeps the instance. -/
lemma decide_keeps (row : ApprovalInstance) (steps : List ApprovalStep)
    (decision : ApprovalDecision) :
    (row.decide steps decision).id = row.id ∧
      (row.decide steps decision).workspaceId = row.workspaceId ∧
      row.decide steps decision = row.patch (row.decide steps decision).decided := by
  unfold ApprovalInstance.decide
  cases decision.action with
  | rejected => exact ⟨rfl, rfl, by cases row; simp [ApprovalInstance.closed,
      ApprovalInstance.patch, ApprovalInstance.decided]⟩
  | approved =>
    dsimp only
    split_ifs
    · exact ⟨rfl, rfl, by cases row; simp [ApprovalInstance.advanced, ApprovalInstance.patch,
        ApprovalInstance.decided]⟩
    · exact ⟨rfl, rfl, by cases row; simp [ApprovalInstance.closed, ApprovalInstance.patch,
        ApprovalInstance.decided]⟩

/-- An announcement writes no approval. -/
lemma announceApproved_run (cfg : Config) (ans : Answers) (w : World) (row : ApprovalInstance)
    (approverId : String) :
    ∃ w', (announceApproved cfg row approverId).run (exec ans) w = (.ok (), w') ∧
      w'.approvals = w.approvals ∧ w'.approvalSteps = w.approvalSteps := by
  unfold announceApproved
  cases isAgentApproval row
  · exact ⟨_, rfl, rfl, rfl⟩
  · exact ⟨_, rfl, rfl, rfl⟩

/-- Nor does that of a rejection. -/
lemma announceRejected_run (ans : Answers) (w : World) (row : ApprovalInstance)
    (decision : ApprovalDecision) :
    ∃ w', (announceRejected row decision).run (exec ans) w = (.ok (), w') ∧
      w'.approvals = w.approvals ∧ w'.approvalSteps = w.approvalSteps := by
  unfold announceRejected
  cases isAgentApproval row
  · exact ⟨_, rfl, rfl, rfl⟩
  · exact ⟨_, rfl, rfl, rfl⟩

/-- A decision that passed the check is recorded. -/
lemma recordDecision_run (cfg : Config) (ans : Answers) {row : ApprovalInstance} (steps : List ApprovalStep)
    (decision : ApprovalDecision) (hstored : w.approvals row.id = some row)
    (hpending : row.status = .pending) :
    ∃ w', (recordDecision cfg row steps decision).run (exec ans) w =
        (.ok (row.decide steps decision), w') ∧
      w'.approvals = w.approvals.put row.id (row.decide steps decision) ∧
      w'.approvalSteps = w.approvalSteps := by
  obtain ⟨hid, hworkspace, hsame⟩ := decide_keeps row steps decision
  have hsave : (saveDecisionFirstWriter (row.decide steps decision) row.currentStepIndex).run
      (exec ans) w = _ := save_run hstored hpending hsame hid hworkspace
  unfold recordDecision
  unfold ApprovalInstance.decide at hsave ⊢
  -- an approval is final at the last step
  cases haction : decision.action with
  | rejected =>
    rw [haction] at hsave
    dsimp only at hsave ⊢
    rw [Prog.run_bind_ok _ hsave]
    obtain ⟨w', hrun, happrovals, hsteps⟩ := announceRejected_run ans _
      (row.closed .rejected (decision.entry row.currentStepIndex steps[row.currentStepIndex]?))
      decision
    rw [Prog.run_bind_ok _ hrun]
    exact ⟨w', rfl, happrovals, hsteps⟩
  | approved =>
    rw [haction] at hsave
    dsimp only at hsave ⊢
    split_ifs at hsave ⊢ with hmore
    · rw [Prog.run_bind_ok _ hsave]
      exact ⟨_, rfl, rfl, rfl⟩
    · rw [Prog.run_bind_ok _ hsave]
      obtain ⟨w', hrun, happrovals, hsteps⟩ := announceApproved_run cfg ans _
        (row.closed .approved (decision.entry row.currentStepIndex steps[row.currentStepIndex]?))
        decision.approverId
      rw [Prog.run_bind_ok _ hrun]
      exact ⟨w', rfl, happrovals, hsteps⟩

/-- The approver check, where there is a step to check. -/
def Admits (ans : Answers) (w : World) (row : ApprovalInstance) (actor : String) : Bool :=
  (w.stepsFor row)[row.currentStepIndex]?.all fun step => ans.canApprove w.clock step actor

/-- The check of an approver writes nothing. -/
lemma canUserApprove_run (ans : Answers) (w : World) (step : Option ApprovalStep)
    (actor : String) :
    ∃ w', (canUserApprove step actor).run (exec ans) w =
        (.ok (step.all fun s => ans.canApprove w.clock s actor), w') ∧
      w'.approvals = w.approvals ∧ w'.approvalSteps = w.approvalSteps := by
  cases step with
  | none => exact ⟨w, rfl, rfl, rfl⟩
  | some step => exact ⟨_, rfl, rfl, rfl⟩

/-- A decision on an open instance by somebody whom the check does not refuse. -/
lemma processDecision_admitted (cfg : Config) {row : ApprovalInstance} {decision : ApprovalDecision}
    (hopen : Open w decision.instanceId row) (hid : row.id = decision.instanceId)
    (hadmits : Admits ans w row decision.approverId = true) :
    ∃ w', (processDecision cfg decision).run (exec ans) w =
        (.ok (row.decide (w.stepsFor row) decision), w') ∧
      w'.approvals = w.approvals.put row.id (row.decide (w.stepsFor row) decision) ∧
      w'.approvalSteps = w.approvalSteps := by
  have hfind : (findApproval decision.instanceId).run (exec ans) w = (.ok (some row), w) := by
    rw [Prog.run_call]
    simp only [exec, hopen.stored]
  obtain ⟨w₁, hcheck, happrovals, hsteps⟩ := canUserApprove_run ans w
    (w.stepsFor row)[row.currentStepIndex]? decision.approverId
  have hstored : w₁.approvals row.id = some row := by
    rw [happrovals, hid]
    exact hopen.stored
  obtain ⟨w', hrecord, happrovals', hsteps'⟩ := recordDecision_run cfg ans
    (w.stepsFor row) decision hstored hopen.pending
  unfold processDecision
  rw [Prog.run_bind_ok _ hfind]
  dsimp only
  rw [if_neg (by rw [hopen.subjectless]; exact Bool.false_ne_true),
    if_neg (not_not.2 hopen.pending), Prog.run_bind_ok _ (getSteps_run row),
    Prog.run_bind_ok _ hcheck]
  rw [show (Option.all _ _) = true from hadmits]
  refine ⟨w', hrecord, ?_, ?_⟩
  · rw [happrovals', happrovals]
  · rw [hsteps', hsteps]

/-- Any other decision throws and leaves the instances alone. -/
lemma processDecision_refused (cfg : Config) {decision : ApprovalDecision}
    (hrefused : ∀ row, Open w decision.instanceId row →
      Admits ans w row decision.approverId = false) :
    ∃ e w', (processDecision cfg decision).run (exec ans) w = (.error e, w') ∧
      w'.approvals = w.approvals ∧ w'.approvalSteps = w.approvalSteps := by
  have hfind : (findApproval decision.instanceId).run (exec ans) w =
      (.ok (w.approvals decision.instanceId), w) := rfl
  unfold processDecision
  rw [Prog.run_bind_ok _ hfind]
  cases hstored : w.approvals decision.instanceId with
  | none => exact ⟨_, w, rfl, rfl, rfl⟩
  | some row =>
    dsimp only
    split_ifs with hsubject hstatus
    · exact ⟨_, w, rfl, rfl, rfl⟩
    · exact ⟨_, w, rfl, rfl, rfl⟩
    · obtain ⟨w₁, hcheck, happrovals, hsteps⟩ := canUserApprove_run ans w
        (w.stepsFor row)[row.currentStepIndex]? decision.approverId
      have hadmits := hrefused row
        ⟨hstored, not_not.1 hstatus, Option.not_isSome_iff_eq_none.1 hsubject⟩
      rw [Prog.run_bind_ok _ (getSteps_run row), Prog.run_bind_ok _ hcheck,
        show (Option.all _ _) = false from hadmits]
      exact ⟨_, w₁, rfl, happrovals, hsteps⟩

/-- A timeout writes the whole row, or nothing. -/
lemma processTimeout_run (ans : Answers) (w : World) (instanceId : Id) :
    (∃ row, Open w instanceId row ∧
      ((processTimeout instanceId).run (exec ans) w).2.approvals =
        w.approvals.put row.id (row.expire (w.stepsFor row)) ∧
      ((processTimeout instanceId).run (exec ans) w).2.approvalSteps = w.approvalSteps) ∨
    (((processTimeout instanceId).run (exec ans) w).2.approvals = w.approvals ∧
      ((processTimeout instanceId).run (exec ans) w).2.approvalSteps = w.approvalSteps) := by
  have hfind : (findApproval instanceId).run (exec ans) w = (.ok (w.approvals instanceId), w) := rfl
  unfold processTimeout
  rw [Prog.run_bind_ok _ hfind]
  cases hstored : w.approvals instanceId with
  | none => exact .inr ⟨rfl, rfl⟩
  | some row =>
    dsimp only
    split_ifs with hstatus hsubject
    · exact .inr ⟨rfl, rfl⟩
    · exact .inr ⟨rfl, rfl⟩
    · refine .inl ⟨row, ⟨hstored, not_not.1 hstatus, Option.not_isSome_iff_eq_none.1 hsubject⟩, ?_⟩
      rw [Prog.run_bind_ok _ (getSteps_run row)]
      unfold recordTimeout ApprovalInstance.expire
      dsimp only
      split_ifs with hmore hagent
      · exact ⟨rfl, rfl⟩
      · exact ⟨rfl, rfl⟩
      · exact ⟨rfl, rfl⟩

end runs

/-! ## Whole runs -/

/-- The index points at a step, and what lies behind it is covered. -/
structure Sound (ans : Answers) (steps : List ApprovalStep) (row : ApprovalInstance) : Prop where
  index : row.currentStepIndex < steps.length
  below : ∀ k, k < row.currentStepIndex → Covered ans steps row.history k
  approved : row.status = .approved → ∀ k, k < steps.length → Covered ans steps row.history k

/-- What holds of the store and of the instance `id` in a run. -/
structure Supervised (ans : Answers) (steps : List ApprovalStep) (id processId : Id) (w : World) :
    Prop where
  keyed : ∀ k row, w.approvals k = some row → row.id = k
  process : w.processSteps processId = steps
  sound : ∀ row, w.approvals id = some row →
    row.processId = processId ∧ isAgentApproval row = false ∧ Sound ans steps row

section sound
variable {cfg : Config} {ans : Answers} {steps : List ApprovalStep} {id processId : Id} {w : World}
  {row : ApprovalInstance}

/-- A step that is covered by a new entry completes what lies behind the next one. -/
lemma Sound.covers (h : Sound ans steps row) {entry : ApprovalHistoryEntry}
    (hnew : Covered ans steps (row.history ++ [entry]) row.currentStepIndex) {k : Nat}
    (hk : k < row.currentStepIndex + 1) : Covered ans steps (row.history ++ [entry]) k := by
  rcases Nat.lt_succ_iff_lt_or_eq.1 hk with hbelow | rfl
  · exact (h.below k hbelow).append [entry]
  · exact hnew

/-- An approved step keeps the instance sound. -/
lemma Sound.advanced (h : Sound ans steps row) {entry : ApprovalHistoryEntry}
    (hpending : row.status = .pending)
    (hnew : Covered ans steps (row.history ++ [entry]) row.currentStepIndex)
    (hmore : row.currentStepIndex + 1 < steps.length) : Sound ans steps (row.advanced entry) where
  index := hmore
  below _ hk := h.covers hnew hk
  approved happroved := by
    have hboth : ApprovalStatus.pending = .approved := hpending.symm.trans happroved
    cases hboth

/-- So does a rejection. -/
lemma Sound.rejected (h : Sound ans steps row) (entry : ApprovalHistoryEntry) :
    Sound ans steps (row.closed .rejected entry) where
  index := h.index
  below k hk := (h.below k hk).append [entry]
  approved happroved := by cases happroved

/-- An approval by an approver keeps the instance sound. -/
lemma Sound.decide (h : Sound ans steps row) {decision : ApprovalDecision} {n : Nat}
    (hpending : row.status = .pending)
    (happroves : ∃ step, steps[row.currentStepIndex]? = some step ∧
      ans.canApprove n step decision.approverId = true) :
    Sound ans steps (row.decide steps decision) := by
  obtain ⟨step, hstep, hcheck⟩ := happroves
  unfold ApprovalInstance.decide
  cases haction : decision.action with
  | rejected => exact h.rejected _
  | approved =>
    have hnew : Covered ans steps (row.history ++
        [decision.entry row.currentStepIndex steps[row.currentStepIndex]?])
        row.currentStepIndex := by
      refine ⟨step, _, hstep, List.mem_append_right _ (List.mem_singleton_self _), rfl, .inl ?_⟩
      refine ⟨?_, n, hcheck⟩
      show decision.action.action = .approved
      rw [haction]
      rfl
    dsimp only
    split_ifs with hmore
    · exact h.advanced hpending hnew hmore
    · have hlast : steps.length = row.currentStepIndex + 1 :=
        le_antisymm (not_lt.1 hmore) h.index
      refine ⟨h.index, fun k hk => h.covers hnew (Nat.lt_succ_of_lt hk), fun _ k hk => ?_⟩
      exact h.covers hnew (hlast ▸ hk)

/-- A timeout keeps the instance sound. -/
lemma Sound.expire (h : Sound ans steps row) (hpending : row.status = .pending) :
    Sound ans steps (row.expire steps) := by
  have hindex := h.index
  have hstep : steps[row.currentStepIndex]? = some steps[row.currentStepIndex] :=
    List.getElem?_eq_getElem hindex
  unfold ApprovalInstance.expire
  dsimp only
  split_ifs with hmore
  · refine h.advanced hpending ?_ hmore.2
    refine ⟨_, _, hstep, List.mem_append_right _ (List.mem_singleton_self _), rfl, .inr ?_⟩
    rw [hmore.1, hstep]
  · exact h.rejected _

/-- The steps of a supervised instance. -/
lemma Supervised.stepsFor (h : Supervised ans steps id processId w)
    (hstored : w.approvals id = some row) : w.stepsFor row = steps := by
  obtain ⟨hprocess, hagent, _⟩ := h.sound row hstored
  unfold World.stepsFor
  rw [hagent, hprocess]
  exact h.process

/-- A sound instance is decided by its approvers only. -/
lemma Supervised.approves (h : Supervised ans steps id processId w) {actor : String}
    (hstored : w.approvals id = some row) (hadmits : Admits ans w row actor = true) :
    ∃ step, steps[row.currentStepIndex]? = some step ∧
      ans.canApprove w.clock step actor = true := by
  obtain ⟨_, _, hsound⟩ := h.sound row hstored
  have hindex := hsound.index
  refine ⟨steps[row.currentStepIndex], List.getElem?_eq_getElem hindex, ?_⟩
  unfold Admits at hadmits
  rw [h.stepsFor hstored, List.getElem?_eq_getElem hindex] at hadmits
  exact hadmits

/-- A call that writes the instance `row` keeps everything. -/
lemma Supervised.put (h : Supervised ans steps id processId w) {w' : World}
    {row' : ApprovalInstance} (hkey : row'.id = row.id)
    (happrovals : w'.approvals = w.approvals.put row.id row')
    (hsteps : w'.approvalSteps = w.approvalSteps)
    (hsound : row.id = id → row'.processId = processId ∧ isAgentApproval row' = false ∧
      Sound ans steps row') : Supervised ans steps id processId w' where
  keyed := by
    intro k r hr
    rw [happrovals, Table.put_apply] at hr
    split_ifs at hr with hk
    · cases hr
      exact hkey.trans hk.symm
    · exact h.keyed k r hr
  process := by
    unfold World.processSteps
    rw [hsteps]
    exact h.process
  sound := by
    intro r hr
    rw [happrovals, Table.put_apply] at hr
    split_ifs at hr with hk
    · cases hr
      exact hsound hk.symm
    · exact h.sound r hr

/-- The same tables are supervised. -/
lemma Supervised.same (h : Supervised ans steps id processId w) {w' : World}
    (happrovals : w'.approvals = w.approvals) (hsteps : w'.approvalSteps = w.approvalSteps) :
    Supervised ans steps id processId w' where
  keyed := happrovals ▸ h.keyed
  process := by
    unfold World.processSteps
    rw [hsteps]
    exact h.process
  sound := happrovals ▸ h.sound

/-- A decision keeps the process. -/
lemma decide_process (row : ApprovalInstance) (steps : List ApprovalStep)
    (decision : ApprovalDecision) :
    (row.decide steps decision).processId = row.processId ∧
      isAgentApproval (row.decide steps decision) = isAgentApproval row := by
  unfold ApprovalInstance.decide
  cases decision.action with
  | rejected => exact ⟨rfl, rfl⟩
  | approved =>
    dsimp only
    split_ifs
    · exact ⟨rfl, rfl⟩
    · exact ⟨rfl, rfl⟩

/-- So does a timeout. -/
lemma expire_process (row : ApprovalInstance) (steps : List ApprovalStep) :
    (row.expire steps).id = row.id ∧ (row.expire steps).processId = row.processId ∧
      isAgentApproval (row.expire steps) = isAgentApproval row := by
  unfold ApprovalInstance.expire
  dsimp only
  split_ifs
  · exact ⟨rfl, rfl, rfl⟩
  · exact ⟨rfl, rfl, rfl⟩

/-- One call. -/
lemma Supervised.called (cfg : Config) (h : Supervised ans steps id processId w) (call : ApprovalCall) :
    Supervised ans steps id processId (w.called cfg ans call) := by
  -- a call that is not admitted, or finds nothing to time out, leaves the row alone
  cases call with
  | decision decision =>
    have hrun : (w.called cfg ans (.decision decision)) =
        ((processDecision cfg decision).run (exec ans) w).2 := Prog.run_bind_ret (exec ans) _ (fun _ => ()) w
    rw [hrun]
    by_cases hadmitted : ∃ row, Open w decision.instanceId row ∧
        Admits ans w row decision.approverId = true
    · obtain ⟨row, hopen, hadmits⟩ := hadmitted
      have hid := h.keyed _ row hopen.stored
      obtain ⟨w', hdecide, happrovals, hsteps⟩ :=
        processDecision_admitted cfg hopen hid hadmits
      rw [hdecide]
      refine h.put (decide_keeps ..).1 happrovals hsteps fun hrow => ?_
      have hstored : w.approvals id = some row := by
        rw [← hrow, hid]
        exact hopen.stored
      obtain ⟨hprocess, hagent, hsound⟩ := h.sound row hstored
      obtain ⟨hsame, hkind⟩ := decide_process row (w.stepsFor row) decision
      refine ⟨hsame.trans hprocess, hkind.trans hagent, ?_⟩
      rw [h.stepsFor hstored]
      exact hsound.decide hopen.pending (h.approves hstored hadmits)
    · obtain ⟨e, w', hrefuse, happrovals, hsteps⟩ :=
        processDecision_refused cfg
          fun row hopen => eq_false_of_ne_true fun hadmits => hadmitted ⟨row, hopen, hadmits⟩
      rw [hrefuse]
      exact h.same happrovals hsteps
  | timeout instanceId =>
    rcases processTimeout_run ans w instanceId with
      ⟨row, hopen, happrovals, hsteps⟩ | ⟨happrovals, hsteps⟩
    · obtain ⟨hkey, hsame, hkind⟩ := expire_process row (w.stepsFor row)
      refine h.put hkey happrovals hsteps fun hrow => ?_
      have hstored : w.approvals id = some row := by
        rw [← hrow, h.keyed _ row hopen.stored]
        exact hopen.stored
      obtain ⟨hprocess, hagent, hsound⟩ := h.sound row hstored
      refine ⟨hsame.trans hprocess, hkind.trans hagent, ?_⟩
      rw [h.stepsFor hstored]
      exact hsound.expire hopen.pending
    · exact h.same happrovals hsteps

/-- Any number of calls. -/
lemma Supervised.calledAll (cfg : Config) (h : Supervised ans steps id processId w) (calls : List ApprovalCall) :
    Supervised ans steps id processId (w.calledAll cfg ans calls) := by
  induction calls generalizing w with
  | nil => exact h
  | cons call calls ih => exact ih (h.called cfg call)

/-- An instance with a subject type is left alone by every call. -/
lemma called_frozen (cfg : Config) (ans : Answers)
    (hkeyed : ∀ k r, w.approvals k = some r → r.id = k) (hsubject : row.subjectType.isSome = true) (hstored : w.approvals id = some row)
    (call : ApprovalCall) :
    (∀ k r, (w.called cfg ans call).approvals k = some r → r.id = k) ∧
      (w.called cfg ans call).approvals id = some row := by
  have hput : ∀ (found row' : ApprovalInstance) (k : Id) (w' : World), Open w k found →
      row'.id = found.id → w'.approvals = w.approvals.put found.id row' →
      (∀ k r, w'.approvals k = some r → r.id = k) ∧ w'.approvals id = some row := by
    intro found row' k w' hopen hkey happrovals
    have hid := hkeyed _ _ hopen.stored
    have hne : id ≠ found.id := by
      intro heq
      rw [heq, hid, hopen.stored] at hstored
      cases hstored
      rw [hopen.subjectless] at hsubject
      cases hsubject
    rw [happrovals]
    refine ⟨fun j r hr => ?_, by rw [Table.put_of_ne _ _ hne]; exact hstored⟩
    rw [Table.put_apply] at hr
    split_ifs at hr with hj
    · cases hr
      exact hkey.trans hj.symm
    · exact hkeyed j r hr
  -- whatever the call writes is another row: the instance with a subject is never open to it
  cases call with
  | decision decision =>
    have hrun : (w.called cfg ans (.decision decision)) =
        ((processDecision cfg decision).run (exec ans) w).2 :=
      Prog.run_bind_ret (exec ans) _ (fun _ => ()) w
    rw [hrun]
    by_cases hadmitted : ∃ found, Open w decision.instanceId found ∧
        Admits ans w found decision.approverId = true
    · obtain ⟨found, hopen, hadmits⟩ := hadmitted
      obtain ⟨w', hdecide, happrovals, _⟩ :=
        processDecision_admitted cfg hopen (hkeyed _ _ hopen.stored) hadmits
      rw [hdecide]
      exact hput _ _ _ _ hopen (decide_keeps ..).1 happrovals
    · obtain ⟨e, w', hrefuse, happrovals, _⟩ := processDecision_refused cfg
        fun found hopen => eq_false_of_ne_true fun hadmits => hadmitted ⟨found, hopen, hadmits⟩
      rw [hrefuse, happrovals]
      exact ⟨hkeyed, hstored⟩
  | timeout instanceId =>
    rcases processTimeout_run ans w instanceId with ⟨found, hopen, happrovals, _⟩ | ⟨happrovals, _⟩
    · exact hput _ _ _ _ hopen (expire_process ..).1 happrovals
    · have hsame : (w.called cfg ans (.timeout instanceId)).approvals = w.approvals := happrovals
      rw [hsame]
      exact ⟨hkeyed, hstored⟩

/-- An instance that is closed stays so over all calls. -/
lemma calledAll_frozen (cfg : Config) (ans : Answers)
    (hkeyed : ∀ k r, w.approvals k = some r → r.id = k) (hsubject : row.subjectType.isSome = true) (hstored : w.approvals id = some row)
    (calls : List ApprovalCall) : (w.calledAll cfg ans calls).approvals id = some row := by
  induction calls generalizing w with
  | nil => exact hstored
  | cons call calls ih =>
    obtain ⟨hkeyed', hstored'⟩ := called_frozen cfg ans hkeyed hsubject hstored call
    exact ih hkeyed' hstored'

/-- A decision that is accepted was made on an open instance and passed the check. -/
lemma Accepted.admitted {decision : ApprovalDecision} (h : Accepted cfg ans w decision) :
    ∃ row, Open w decision.instanceId row ∧ Admits ans w row decision.approverId = true := by
  by_contra hnone
  obtain ⟨e, w', hrefuse, _⟩ := processDecision_refused cfg
    fun row hopen => eq_false_of_ne_true fun hadmits => hnone ⟨row, hopen, hadmits⟩
  obtain ⟨row, hrow⟩ := h
  rw [hrefuse] at hrow
  cases hrow

end sound

/-- A submitted instance that is no agent approval is decided by its approvers only, whatever is
called, if and only if its process has a step (an instance with a subject type is not decided here at
all). -/
theorem only_approvers_iff (cfg : Config) (ans : Answers) {w : World} {id : Id}
    {row : ApprovalInstance} (hkeyed : ∀ k r, w.approvals k = some r → r.id = k)
    (hstored : w.approvals id = some row) (hagent : isAgentApproval row = false)
    (hpending : row.status = .pending) (hindex : row.currentStepIndex = 0) :
    OnlyApprovers cfg ans w id ↔
      row.subjectType.isSome = true ∨ w.processSteps row.processId ≠ [] := by
  constructor
  · intro h
    by_contra hneither
    obtain ⟨hsubject, hsteps⟩ := not_or.1 hneither
    have hnone := Option.not_isSome_iff_eq_none.1 hsubject
    have hempty : w.processSteps row.processId = [] := not_not.1 hsteps
    have hnosteps : w.stepsFor row = [] := by
      unfold World.stepsFor
      rw [hagent, hempty]
      rfl
    -- nobody is asked about a step that is not there
    let decision : ApprovalDecision :=
      { instanceId := id
        approverId := "mallory"
        approverName := "Mallory"
        action := .approved
        comments := none }
    have hadmits : Admits ans w row decision.approverId = true := by
      unfold Admits
      rw [hnosteps]
      rfl
    obtain ⟨w', hrun, _⟩ := @processDecision_admitted ans w cfg row decision
      ⟨hstored, hpending, hnone⟩ (hkeyed _ _ hstored) hadmits
    have haccepted : Accepted cfg ans w decision := ⟨_, congrArg Prod.fst hrun⟩
    obtain ⟨step, hstep, _⟩ := h.decides [] decision row rfl hstored haccepted
    have hget : (w.processSteps row.processId)[row.currentStepIndex]? = some step := hstep
    rw [hempty] at hget
    cases hget
  · intro h
    rcases h with hsubject | hsteps
    · refine ⟨fun calls decision found hid hfound haccepted => ?_, fun calls found hfound happroved =>
        ?_⟩
      · obtain ⟨found', hopen, _⟩ := haccepted.admitted
        have hfrozen := calledAll_frozen cfg ans hkeyed hsubject hstored calls
        have hopen' := hopen.stored
        rw [hid, hfrozen] at hopen'
        cases hopen'
        rw [hopen.subjectless] at hsubject
        cases hsubject
      · have hfrozen := calledAll_frozen cfg ans hkeyed hsubject hstored calls
        rw [hfrozen] at hfound
        cases hfound
        rw [hpending] at happroved
        cases happroved
    · have hstart : Supervised ans (w.processSteps row.processId) id row.processId w := by
        refine ⟨hkeyed, rfl, fun found hfound => ?_⟩
        rw [hstored] at hfound
        cases hfound
        refine ⟨rfl, hagent, ?_, fun k hk => ?_, fun happroved => ?_⟩
        · rw [hindex]
          exact List.length_pos_iff.2 hsteps
        · rw [hindex] at hk
          cases hk
        · rw [hpending] at happroved
          cases happroved
      refine ⟨fun calls decision found hid hfound haccepted => ?_, fun calls found hfound happroved k
        hk => ?_⟩
      · have hall := hstart.calledAll cfg calls
        obtain ⟨found', hopen, hadmits⟩ := haccepted.admitted
        have hopen' := hopen.stored
        rw [hid, hfound] at hopen'
        cases hopen'
        obtain ⟨step, hstep, hcheck⟩ := hall.approves hfound hadmits
        refine ⟨step, ?_, hcheck⟩
        rw [(hall.sound found hfound).1, hall.process]
        exact hstep
      · have hall := hstart.calledAll cfg calls
        obtain ⟨hprocess, _, hsound⟩ := hall.sound found hfound
        rw [hprocess] at hk ⊢
        exact hsound.approved happroved k hk

/-- An instance of process 7 with the given steps. -/
def submitted (steps : List ApprovalStep) : World :=
  { World.empty with
    clock := 1
    approvalSteps := steps
    approvals := fun k =>
      if k = 0 then
        some
          { workspaceId := 1
            processId := 7
            recordId := 5
            status := .pending
            currentStepIndex := 0
            history := [] }
      else none }

/-- The step of a manager. -/
def managerStep : ApprovalStep where
  id := 3
  approvalProcessId := 7
  stepOrder := 0
  stepName := "Manager"
  approverType := .user
  approverId := some "manager"
  timeoutMinutes := none
  timeoutAction := .reject

/-- The store with the instance is keyed. -/
lemma submitted_keyed (steps : List ApprovalStep) :
    ∀ k r, (submitted steps).approvals k = some r → r.id = k := by
  intro k r hr
  unfold submitted at hr
  dsimp only at hr
  split_ifs at hr with hk
  cases hr
  exact hk.symm

/-- Only the manager approves. -/
theorem manager_only : OnlyApprovers .small .small (submitted [managerStep]) 0 :=
  (only_approvers_iff .small .small (submitted_keyed [managerStep]) rfl rfl rfl rfl).2
    (.inr (by decide))

/-- Without steps anybody approves, also where the check accepts nobody. -/
theorem mallory_approves :
    ¬ OnlyApprovers .small { Answers.small with canApprove := fun _ _ _ => false } (submitted []) 0 := by
  intro h
  obtain ⟨step, hstep, _⟩ := h.decides []
    { instanceId := 0
      approverId := "mallory"
      approverName := "Mallory"
      action := .approved
      comments := none } _ rfl rfl ⟨_, rfl⟩
  cases hstep

end NexusClaw.Governance
