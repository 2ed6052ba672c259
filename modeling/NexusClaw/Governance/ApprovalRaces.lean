import NexusClaw.Concurrent.Exclusive
import NexusClaw.Governance.Growth

/-!
# Racing decisions and timeouts

Any number of `processDecision` and `processTimeout` calls, interleaved statement by statement. A
decision writes through a conditional update on the pending status and the step it read, so it fails
when anyone wrote in between. A timeout saves the whole row it read, so it overwrites what was
written in between; the results here are about the runs in which no timeout saves a stale row.

The argument: every write that takes effect is made on the row as its request read it, and moves the
row to a later step or to a final status. So what was written stays a prefix of the history, and the
request that writes the final status is alone in doing so.
-/

namespace NexusClaw.Governance
open Concurrent

/-! ## The calls -/

inductive ApprovalCall where
  | decision (decision : ApprovalDecision)
  | timeout (instanceId : Id)
deriving DecidableEq, Repr

def ApprovalCall.program (cfg : Config) : ApprovalCall → Act Unit
  | .decision d => do let _ ← processDecision cfg d; pure ()
  | .timeout instanceId => processTimeout instanceId

def ApprovalCall.instanceId : ApprovalCall → Id
  | .decision d => d.instanceId
  | .timeout instanceId => instanceId

/-- The history entries that the call can write. -/
def ApprovalCall.Entry : ApprovalCall → ApprovalHistoryEntry → Prop
  | .decision d, entry => ∃ stepIndex step, entry = d.entry stepIndex step
  | .timeout _, entry => ∃ step stepIndex action, entry = timeoutEntry step stepIndex action

/-! ## What a request did to the instance -/

/-- The request's write took effect and left the history `entries`. -/
def writes (id : Id) (entries : List ApprovalHistoryEntry) : Sigma Stmt.Resp → Prop
  | ⟨.updatePendingApproval k _ _ patch, n⟩ => k = id ∧ n = (1 : Nat) ∧ patch.history = some entries
  | ⟨.saveApproval row, _⟩ => row.id = id ∧ row.history = entries
  | _ => False

/-- The request's write took effect and left the final status `status`. -/
def finishes (id : Id) (status : ApprovalStatus) : Sigma Stmt.Resp → Prop
  | ⟨.updatePendingApproval k _ _ patch, n⟩ =>
    k = id ∧ n = (1 : Nat) ∧ patch.status = some status ∧ status ≠ .pending
  | ⟨.saveApproval row, _⟩ => row.id = id ∧ row.status = status ∧ status ≠ .pending
  | _ => False

/-- The event is `approval.agent.resume` or `approval.agent.terminate` for the instance. -/
def ApprovalEvent.ends (id : Id) : ApprovalEvent → Bool
  | .agentResume _ _ instanceId _ => instanceId = id
  | .agentTerminate _ _ instanceId _ => instanceId = id
  | _ => false

/-- How many such events were emitted. -/
def endEvents (id : Id) (w : World) : Nat :=
  w.bus.countP (·.ends id)

/-- The request emitted such an event. -/
def announcesEnd (id : Id) : Sigma Stmt.Resp → Prop
  | ⟨.emit event, _⟩ => event.ends id = true
  | _ => False

/-- The request read the row. -/
def Reads (id : Id) (row : ApprovalInstance) (h : History Stmt Stmt.Resp) : Prop :=
  (⟨.findApproval id, some row⟩ : Sigma Stmt.Resp) ∈ h

/-- The request wrote the final status. -/
def Finisher (id : Id) (h : History Stmt Stmt.Resp) : Prop :=
  ∃ status, Did (finishes id status) h

section run
variable {ι : Type} [DecidableEq ι]

/-- A timeout saves only over the row it read. -/
def FreshSave (w : World) (H : ι → History Stmt Stmt.Resp) (i : ι) (s : Stmt) : Prop :=
  ∀ row', s = .saveApproval row' →
    ∃ row, Reads row'.id row (H i) ∧ w.approvals row'.id = some row

/-- What holds of the instance `id`, stored as `row₀` in the first state, and of all requests. -/
structure Race (id : Id) (row₀ : ApprovalInstance) (w : World)
    (H : ι → History Stmt Stmt.Resp) : Prop where
  keyed : ∀ k row, w.approvals k = some row → row.id = k
  stored : ∃ row, w.approvals id = some row
  read : ∀ i row, Reads id row (H i) → ∀ cur, w.approvals id = some cur →
    row = cur ∨ row.currentStepIndex < cur.currentStepIndex ∨ cur.status ≠ .pending
  written : ∀ i entries, Did (writes id entries) (H i) → ∀ cur, w.approvals id = some cur →
    entries <+: cur.history
  final : ∀ i status, Did (finishes id status) (H i) → ∀ cur, w.approvals id = some cur →
    cur.status = status
  settled : ∀ cur, w.approvals id = some cur → cur.status ≠ .pending →
    cur = row₀ ∨ ∃ i, Did (finishes id cur.status) (H i)
  untouched : row₀.status ≠ .pending →
    w.approvals id = some row₀ ∧ ∀ i, ¬ Finisher id (H i)

/-- The invariant: besides, only a finisher emits a final event, and only once. -/
def RaceInv (id : Id) (row₀ : ApprovalInstance) (w₀ w : World)
    (H : ι → History Stmt Stmt.Resp) : Prop :=
  Race id row₀ w H ∧
    Exclusive (fun _ => Finisher id) (announcesEnd id) (endEvents id) (endEvents id w₀) w H

variable {id : Id} {row₀ : ApprovalInstance} {w₀ w w' : World} {H : ι → History Stmt Stmt.Resp}
  {i : ι} {s : Stmt} {r : s.Resp}

/-- A finisher stays one. -/
lemma Finisher.concat {h : History Stmt Stmt.Resp} {o : Sigma Stmt.Resp} (hf : Finisher id h) :
    Finisher id (h ++ [o]) := by
  obtain ⟨status, h⟩ := hf
  exact ⟨status, (did_concat ..).mpr (.inl h)⟩

/-- A step that writes nothing to the instance. -/
lemma Race.keep (hI : Race id row₀ w H)
    (hkeyed : ∀ k row, w'.approvals k = some row → row.id = k)
    (hsame : w'.approvals id = w.approvals id)
    (hread : ∀ row, (⟨s, r⟩ : Sigma Stmt.Resp) = ⟨.findApproval id, some row⟩ →
      w.approvals id = some row)
    (hw : ∀ entries, ¬ writes id entries ⟨s, r⟩) (hf : ∀ status, ¬ finishes id status ⟨s, r⟩) :
    Race id row₀ w' (observe H i s r) := by
  constructor
  case keyed => exact hkeyed
  case stored => exact hsame ▸ hI.stored
  case read =>
    intro j row hj cur hcur
    rw [hsame] at hcur
    obtain h | ⟨-, h⟩ := (mem_observe_iff ..).mp hj
    · exact hI.read j row h cur hcur
    · have hrow := hread row h.symm
      rw [hcur] at hrow
      exact .inl (Option.some.inj hrow).symm
  case written =>
    intro j entries hj cur hcur
    rw [did_observe_of_not (hw entries)] at hj
    exact hI.written j entries hj cur (hsame ▸ hcur)
  case final =>
    intro j status hj cur hcur
    rw [did_observe_of_not (hf status)] at hj
    exact hI.final j status hj cur (hsame ▸ hcur)
  case settled =>
    intro cur hcur hst
    obtain h | ⟨j, hj⟩ := hI.settled cur (hsame ▸ hcur) hst
    · exact .inl h
    · exact .inr ⟨j, (did_observe_of_not (hf _) j).mpr hj⟩
  case untouched =>
    intro h
    obtain ⟨hrow, hnone⟩ := hI.untouched h
    refine ⟨hsame.trans hrow, fun j hj => ?_⟩
    obtain ⟨status, hj⟩ := hj
    exact hnone j ⟨status, (did_observe_of_not (hf status) j).mp hj⟩

omit [DecidableEq ι] in
/-- While the instance is pending nobody has written a final status. -/
lemma Race.unfinished (hI : Race id row₀ w H) {cur : ApprovalInstance}
    (hcur : w.approvals id = some cur) (hpend : cur.status = .pending) (j : ι) :
    ¬ Finisher id (H j) := by
  rintro ⟨status, hj⟩
  have hst := hI.final j status hj cur hcur
  obtain ⟨o, -, ho⟩ := hj
  have hne : status ≠ .pending := by
    obtain ⟨s', r'⟩ := o
    cases s' with
    | updatePendingApproval k ws step patch => exact ho.2.2.2
    | saveApproval row => exact ho.2.2
    | _ => exact absurd ho not_false
  rw [hpend] at hst
  exact hne hst.symm

/-- A write that takes effect: the row was pending, its history grows, and it moves to a later step
or to a final status. -/
lemma Race.write (hI : Race id row₀ w H) {cur new : ApprovalInstance}
    (hcur : w.approvals id = some cur) (hpend : cur.status = .pending)
    (hkeyed : ∀ k row, w'.approvals k = some row → row.id = k)
    (hnew : w'.approvals id = some new) (hgrow : cur.history <+: new.history)
    (hmove : cur.currentStepIndex < new.currentStepIndex ∨ new.status ≠ .pending)
    (hread : ∀ row, (⟨s, r⟩ : Sigma Stmt.Resp) ≠ ⟨.findApproval id, some row⟩)
    (hw : ∀ entries, writes id entries ⟨s, r⟩ → entries = new.history)
    (hf : ∀ status, finishes id status ⟨s, r⟩ → new.status = status)
    (hd : new.status ≠ .pending → finishes id new.status ⟨s, r⟩) :
    Race id row₀ w' (observe H i s r) := by
  have hnewcur : ∀ cur', w'.approvals id = some cur' → cur' = new := by
    intro cur' h
    rw [hnew] at h
    exact (Option.some.inj h).symm
  constructor
  case keyed => exact hkeyed
  case stored => exact ⟨new, hnew⟩
  case read =>
    intro j row hj cur' hcur'
    rw [hnewcur cur' hcur']
    obtain h | ⟨-, h⟩ := (mem_observe_iff ..).mp hj
    · obtain hm | hm := hmove
      · obtain rfl | hlt | hst := hI.read j row h cur hcur
        · exact .inr (.inl hm)
        · exact .inr (.inl (hlt.trans hm))
        · exact absurd hpend hst
      · exact .inr (.inr hm)
    · exact absurd h.symm (hread row)
  case written =>
    intro j entries hj cur' hcur'
    rw [hnewcur cur' hcur']
    obtain h | ⟨-, h⟩ := (did_observe ..).mp hj
    · exact (hI.written j entries h cur hcur).trans hgrow
    · exact hw entries h ▸ List.prefix_refl _
  case final =>
    intro j status hj cur' hcur'
    rw [hnewcur cur' hcur']
    obtain h | ⟨-, h⟩ := (did_observe ..).mp hj
    · exact absurd ⟨status, h⟩ (hI.unfinished hcur hpend j)
    · exact hf status h
  case settled =>
    intro cur' hcur' hst
    rw [hnewcur cur' hcur'] at hst ⊢
    exact .inr ⟨i, (did_observe ..).mpr (.inr ⟨rfl, hd hst⟩)⟩
  case untouched =>
    intro h
    have hrow := (hI.untouched h).1
    rw [hcur] at hrow
    rw [Option.some.inj hrow] at hpend
    exact absurd hpend h

/-- `Race.keep` for the invariant: besides, no final event is emitted for the instance. -/
lemma RaceInv.keep (hI : RaceInv id row₀ w₀ w H)
    (hkeyed : ∀ k row, w'.approvals k = some row → row.id = k)
    (hsame : w'.approvals id = w.approvals id)
    (hread : ∀ row, (⟨s, r⟩ : Sigma Stmt.Resp) = ⟨.findApproval id, some row⟩ →
      w.approvals id = some row)
    (hw : ∀ entries, ¬ writes id entries ⟨s, r⟩) (hf : ∀ status, ¬ finishes id status ⟨s, r⟩)
    (ha : ¬ announcesEnd id ⟨s, r⟩) (hbus : endEvents id w' = endEvents id w) :
    RaceInv id row₀ w₀ w' (observe H i s r) := by
  refine ⟨hI.1.keep hkeyed hsame hread hw hf, hI.2.keep ha Finisher.concat ?_ hbus⟩
  rintro ⟨status, h⟩
  obtain h | h := (did_concat ..).mp h
  · exact .inl ⟨status, h⟩
  · exact absurd h (hf status)

/-- `Race.write` for the invariant. -/
lemma RaceInv.write (hI : RaceInv id row₀ w₀ w H) {cur new : ApprovalInstance}
    (hcur : w.approvals id = some cur) (hpend : cur.status = .pending)
    (hkeyed : ∀ k row, w'.approvals k = some row → row.id = k)
    (hnew : w'.approvals id = some new) (hgrow : cur.history <+: new.history)
    (hmove : cur.currentStepIndex < new.currentStepIndex ∨ new.status ≠ .pending)
    (hread : ∀ row, (⟨s, r⟩ : Sigma Stmt.Resp) ≠ ⟨.findApproval id, some row⟩)
    (hw : ∀ entries, writes id entries ⟨s, r⟩ → entries = new.history)
    (hf : ∀ status, finishes id status ⟨s, r⟩ → new.status = status)
    (hd : new.status ≠ .pending → finishes id new.status ⟨s, r⟩)
    (ha : ¬ announcesEnd id ⟨s, r⟩) (hbus : endEvents id w' = endEvents id w) :
    RaceInv id row₀ w₀ w' (observe H i s r) :=
  ⟨hI.1.write hcur hpend hkeyed hnew hgrow hmove hread hw hf hd,
    hI.2.keep ha Finisher.concat
      (fun _ => .inr fun j _ => hI.1.unfinished hcur hpend j) hbus⟩

/-- A final event, emitted by the request that wrote the final status. -/
lemma RaceInv.announce (ans : Answers) (hI : RaceInv id row₀ w₀ w H) {event : ApprovalEvent}
    (he : event.ends id = true) (hdone : Finisher id (H i))
    (hnot : ¬ Did (announcesEnd id) (H i)) :
    RaceInv id row₀ w₀ (exec ans (.emit event) w).1
      (observe H i (.emit event) (exec ans (.emit event) w).2) := by
  refine ⟨hI.1.keep hI.1.keyed rfl (fun row h => nomatch h) (fun _ => not_false)
    (fun _ => not_false), hI.2.perform he hdone hnot Finisher.concat ?_⟩
  simp [endEvents, exec, he]

/-! ## The outlines -/

/-- The outline of request `i` under the condition on timeouts. -/
abbrev RaceOutline (id : Id) (row₀ : ApprovalInstance) (w₀ : World) (ans : Answers) (i : ι)
    {α : Type} (Q : History Stmt Stmt.Resp → Except String α → Prop)
    (h : History Stmt Stmt.Resp) (p : Act α) : Prop :=
  Outline (exec ans) (RaceInv id row₀ w₀) FreshSave Q i h p

/-- A statement that touches no approval and emits nothing. -/
def Stmt.bystander : Stmt → Prop
  | .findApprovalSteps _ => True
  | .canApprove _ _ => True
  | .audit _ => True
  | _ => False

/-- A bystander keeps the invariant. -/
lemma RaceInv.bystander (ans : Answers) (hI : RaceInv id row₀ w₀ w H) (hs : s.bystander) :
    RaceInv id row₀ w₀ (exec ans s w).1 (observe H i s (exec ans s w).2) := by
  cases s with
  | findApprovalSteps processId =>
    exact hI.keep hI.1.keyed rfl (fun row h => nomatch h) (fun _ => not_false) (fun _ => not_false)
      not_false rfl
  | canApprove step approverId =>
    exact hI.keep hI.1.keyed rfl (fun row h => nomatch h) (fun _ => not_false) (fun _ => not_false)
      not_false rfl
  | audit entry =>
    exact hI.keep hI.1.keyed rfl (fun row h => nomatch h) (fun _ => not_false) (fun _ => not_false)
      not_false rfl
  | _ => exact absurd hs not_false

/-- So does a lookup. -/
lemma RaceInv.find (ans : Answers) (hI : RaceInv id row₀ w₀ w H) (k : Id) :
    RaceInv id row₀ w₀ (exec ans (.findApproval k) w).1
      (observe H i (.findApproval k) (exec ans (.findApproval k) w).2) := by
  refine hI.keep hI.1.keyed rfl ?_ (fun _ => not_false) (fun _ => not_false) not_false rfl
  intro row h
  injection h with hs hr
  injection hs with hk
  subst hk
  exact hr

/-- An emitted event: only a finisher emits a final one, and only once. -/
lemma RaceInv.emit (ans : Answers) (hI : RaceInv id row₀ w₀ w H) (event : ApprovalEvent)
    (he : event.ends id = true → Finisher id (H i) ∧ ¬ Did (announcesEnd id) (H i)) :
    RaceInv id row₀ w₀ (exec ans (.emit event) w).1
      (observe H i (.emit event) (exec ans (.emit event) w).2) := by
  cases hends : event.ends id with
  | true =>
    obtain ⟨hdone, hnot⟩ := he hends
    exact hI.announce ans hends hdone hnot
  | false =>
    refine hI.keep hI.1.keyed rfl (fun row h => nomatch h) (fun _ => not_false)
      (fun _ => not_false) (fun ha => ?_) ?_
    · rw [announcesEnd, hends] at ha
      cases ha
    · simp [endEvents, exec, hends]

/-- The table stays keyed under an update that keeps the key. -/
lemma keyed_modify {t : Table Id ApprovalInstance} (ht : ∀ k row, t k = some row → row.id = k)
    {k : Id} {f : ApprovalInstance → ApprovalInstance} (hf : ∀ row, (f row).id = row.id) (j : Id)
    (row : ApprovalInstance) (h : t.modify k f j = some row) : row.id = j := by
  obtain ⟨old, hold, rfl⟩ := Table.modify_eq_some h
  by_cases e : j = k
  · rw [if_pos e, hf]
    exact ht j old hold
  · rw [if_neg e]
    exact ht j old hold

/-- The conditional update takes effect on a row that is pending at the step. -/
lemma affected_iff (ans : Answers) {k ws step : Id} {patch : ApprovalPatch} {w : World} :
    (exec ans (.updatePendingApproval k ws step patch) w).2 = (1 : Nat) ↔
      ∃ cur, w.approvals k = some cur ∧ cur.isPendingAt ws step = true := by
  show (if (w.approvals k).any (·.isPendingAt ws step) then 1 else 0) = 1 ↔ _
  cases w.approvals k with
  | none => simp
  | some cur =>
    cases h : cur.isPendingAt ws step <;> simp [h]

/-- What the condition of the update asks. -/
lemma isPendingAt_iff {row : ApprovalInstance} {ws step : Id} :
    row.isPendingAt ws step = true ↔
      row.workspaceId = ws ∧ row.status = .pending ∧ row.currentStepIndex = step := by
  simp [ApprovalInstance.isPendingAt, and_assoc]

/-- A conditional update that is not affected leaves the instance as it was. -/
lemma RaceInv.missed (ans : Answers) (hI : RaceInv id row₀ w₀ w H) {k ws step : Id}
    {patch : ApprovalPatch}
    (hn : ¬ (exec ans (.updatePendingApproval k ws step patch) w).2 = (1 : Nat)) :
    RaceInv id row₀ w₀ (exec ans (.updatePendingApproval k ws step patch) w).1
      (observe H i (.updatePendingApproval k ws step patch)
        (exec ans (.updatePendingApproval k ws step patch) w).2) := by
  refine hI.keep (keyed_modify hI.1.keyed fun row => by split <;> rfl) ?_
    (fun row h => nomatch h) (fun _ h => hn h.2.1) (fun _ h => hn h.2.1) not_false rfl
  by_cases hk : id = k
  · subst hk
    obtain ⟨cur, hcur⟩ := hI.1.stored
    have hsel : cur.isPendingAt ws step ≠ true := fun h =>
      hn ((affected_iff ans).mpr ⟨cur, hcur, h⟩)
    simp [exec, Table.modify_self, hcur, hsel]
  · exact Table.modify_of_ne _ _ hk

/-- A conditional update of another instance. -/
lemma RaceInv.elsewhere (ans : Answers) (hI : RaceInv id row₀ w₀ w H) {k ws step : Id}
    {patch : ApprovalPatch} (hk : id ≠ k) :
    RaceInv id row₀ w₀ (exec ans (.updatePendingApproval k ws step patch) w).1
      (observe H i (.updatePendingApproval k ws step patch)
        (exec ans (.updatePendingApproval k ws step patch) w).2) :=
  hI.keep (keyed_modify hI.1.keyed fun row => by split <;> rfl) (Table.modify_of_ne _ _ hk)
    (fun row h => nomatch h) (fun _ h => hk h.1.symm) (fun _ h => hk h.1.symm) not_false rfl

/-- The conditional update of a decision takes effect only on the row as it was read. -/
lemma RaceInv.decide (ans : Answers) (hI : RaceInv id row₀ w₀ w H) {row row' : ApprovalInstance}
    (hr : Reads row'.id row (H i)) (hpend : row.status = .pending)
    (hgrow : row.history <+: row'.history)
    (hmove : row.currentStepIndex < row'.currentStepIndex ∨ row'.status ≠ .pending) :
    RaceInv id row₀ w₀
      (exec ans (.updatePendingApproval row'.id row'.workspaceId row.currentStepIndex
        row'.decided) w).1
      (observe H i
        (.updatePendingApproval row'.id row'.workspaceId row.currentStepIndex row'.decided)
        (exec ans (.updatePendingApproval row'.id row'.workspaceId row.currentStepIndex
          row'.decided) w).2) := by
  by_cases hk : id = row'.id
  swap
  · exact hI.elsewhere ans hk
  subst hk
  -- the update finds no row that is still as it was read, and writes nothing
  by_cases hn : (exec ans (.updatePendingApproval row'.id row'.workspaceId row.currentStepIndex
      row'.decided) w).2 = (1 : Nat)
  swap
  · exact hI.missed ans hn
  obtain ⟨cur, hcur, hsel⟩ := (affected_iff ans).mp hn
  obtain ⟨-, hst, hstep⟩ := isPendingAt_iff.mp hsel
  have heq : row = cur := by
    obtain h | h | h := hI.1.read i row hr cur hcur
    · exact h
    · rw [hstep] at h
      exact absurd h (Nat.lt_irrefl _)
    · exact absurd hst h
  subst heq
  have hnew : (exec ans (.updatePendingApproval row'.id row'.workspaceId row.currentStepIndex
      row'.decided) w).1.approvals row'.id = some (row.patch row'.decided) := by
    simp [exec, Table.modify_self, hcur, hsel]
  refine hI.write hcur hpend (keyed_modify hI.1.keyed fun row => by split <;> rfl) hnew hgrow hmove
    (fun row h => by cases h) ?_ ?_ ?_ not_false rfl
  · rintro entries ⟨-, -, h⟩
    exact (Option.some.inj h).symm
  · rintro status ⟨-, -, h, -⟩
    exact Option.some.inj h
  · intro h
    exact ⟨rfl, hn, rfl, h⟩

/-- A decision goes on after its update only if the update took effect. -/
lemma saveDecision_outline (ans : Answers) {α : Type}
    {Q : History Stmt Stmt.Resp → Except String α → Prop} {h : History Stmt Stmt.Resp}
    {row row' : ApprovalInstance} {f : Unit → Act α} (hr : Reads row'.id row h)
    (hpend : row.status = .pending) (hgrow : row.history <+: row'.history)
    (hmove : row.currentStepIndex < row'.currentStepIndex ∨ row'.status ≠ .pending)
    (hQ : ∀ h e, Q h (.error e))
    (hf : RaceOutline id row₀ w₀ ans i Q
      (h ++ [⟨.updatePendingApproval row'.id row'.workspaceId row.currentStepIndex row'.decided,
        (1 : Nat)⟩]) (f ())) :
    RaceOutline id row₀ w₀ ans i Q h (saveDecisionFirstWriter row' row.currentStepIndex >>= f) := by
  rw [saveDecision_bind]
  refine Outline.call fun w H hI hH _ => ?_
  subst hH
  refine ⟨hI.decide ans hr hpend hgrow hmove, ?_⟩
  generalize (exec ans (.updatePendingApproval row'.id row'.workspaceId row.currentStepIndex
    row'.decided) w).2 = n
  by_cases hn : n = (1 : Nat)
  · rw [if_pos hn]
    subst hn
    exact hf
  · rw [if_neg hn]
    exact hQ _ _

/-! ## The calls -/

/-- The request wrote an entry of its call. -/
def Wrote (id : Id) (call : ApprovalCall) (h : History Stmt Stmt.Resp) : Prop :=
  ∃ before entry, call.Entry entry ∧ Did (writes id (before ++ [entry])) h

/-- What was written stays so. -/
lemma Wrote.mono {call : ApprovalCall} {h h' : History Stmt Stmt.Resp} (hw : Wrote id call h)
    (hs : h ⊆ h') : Wrote id call h' := by
  obtain ⟨before, entry, he, hd⟩ := hw
  exact ⟨before, entry, he, hd.mono hs⟩

/-- A call that has returned wrote its entry; a timeout may also have found nothing to do. -/
def CallPost (id : Id) (call : ApprovalCall) {α : Type} (h : History Stmt Stmt.Resp)
    (r : Except String α) : Prop :=
  (∃ a, r = .ok a) → call.instanceId = id → Wrote id call h ∨
    (∃ k, call = .timeout k) ∧ ∀ entries, ¬ Did (writes id entries) h

/-- A call that failed owes nothing. -/
lemma callPost_error {call : ApprovalCall} {α : Type} {h : History Stmt Stmt.Resp} {e : String} :
    CallPost id call h (.error e : Except String α) := by
  rintro ⟨a, ha⟩
  cases ha

/-- The events and the audit entry after a final status, in either order of the source. -/
lemma announceApproved_outline (cfg : Config) (ans : Answers) {h : History Stmt Stmt.Resp}
    {row : ApprovalInstance} {approverId : String} (hdone : row.id = id → Finisher id h)
    (hnot : ¬ Did (announcesEnd id) h) :
    RaceOutline id row₀ w₀ ans i (fun h' _ => h ⊆ h') h (announceApproved cfg row approverId) := by
  unfold announceApproved
  cases isAgentApproval row with
  | false => exact List.Subset.refl h
  | true =>
    refine Outline.call fun w H hI hH _ => ⟨hI.emit ans _ fun he => ?_, ?_⟩
    · subst hH
      exact ⟨hdone (of_decide_eq_true he), hnot⟩
    · intro w H hI _ _
      exact ⟨hI.bystander ans trivial, by simp⟩

/-- The announcement of a rejection. -/
lemma announceRejected_outline (ans : Answers) {h : History Stmt Stmt.Resp}
    {row : ApprovalInstance} {decision : ApprovalDecision} (hdone : row.id = id → Finisher id h)
    (hnot : ¬ Did (announcesEnd id) h) :
    RaceOutline id row₀ w₀ ans i (fun h' _ => h ⊆ h') h (announceRejected row decision) := by
  unfold announceRejected
  cases isAgentApproval row with
  | false => exact List.Subset.refl h
  | true =>
    refine Outline.call fun w H hI hH _ => ⟨hI.emit ans _ fun he => ?_, ?_⟩
    · subst hH
      exact ⟨hdone (of_decide_eq_true he), hnot⟩
    · intro w H hI _ _
      exact ⟨hI.bystander ans trivial, by simp⟩

/-- A decision on the row it read. -/
lemma recordDecision_outline (cfg : Config) (ans : Answers) {h : History Stmt Stmt.Resp}
    {row : ApprovalInstance} {steps : List ApprovalStep} {decision : ApprovalDecision}
    (hr : Reads row.id row h) (hid : row.id = decision.instanceId) (hpend : row.status = .pending)
    (hnot : ¬ Did (announcesEnd id) h) :
    RaceOutline id row₀ w₀ ans i (CallPost id (.decision decision)) h
      (recordDecision cfg row steps decision) := by
  have hpost : ∀ (row' : ApprovalInstance) {h' : History Stmt Stmt.Resp}, row'.id = row.id →
      row'.history = row.history ++
        [decision.entry row.currentStepIndex steps[row.currentStepIndex]?] →
      h ++ [⟨.updatePendingApproval row'.id row'.workspaceId row.currentStepIndex row'.decided,
        (1 : Nat)⟩] ⊆ h' → CallPost id (.decision decision) h' (Except.ok row') := by
    intro row' h' hid' hhist hs _ hcall
    refine .inl ⟨row.history, decision.entry row.currentStepIndex steps[row.currentStepIndex]?,
      ⟨_, _, rfl⟩, Did.mono ?_ hs⟩
    refine (did_concat ..).mpr (.inr ⟨?_, rfl, ?_⟩)
    · rw [hid', hid]
      exact hcall
    · rw [← hhist]
      rfl
  have hfin : ∀ (row' : ApprovalInstance), row'.status ≠ .pending → row'.id = id → Finisher id
      (h ++ [⟨.updatePendingApproval row'.id row'.workspaceId row.currentStepIndex row'.decided,
        (1 : Nat)⟩]) := by
    intro row' hst hid'
    exact ⟨row'.status, (did_concat ..).mpr (.inr ⟨hid', rfl, rfl, hst⟩)⟩
  have hnot' : ∀ (o : Sigma Stmt.Resp), ¬ announcesEnd id o → ¬ Did (announcesEnd id) (h ++ [o]) := by
    intro o ho hd
    obtain hd | hd := (did_concat ..).mp hd
    · exact hnot hd
    · exact ho hd
  unfold recordDecision
  -- an approval may lead to the next step; everything else closes the instance
  cases hd : decision.action with
  | approved =>
    by_cases hnext : row.currentStepIndex + 1 < steps.length
    · simp only [hnext, if_true]
      refine saveDecision_outline ans hr hpend (List.prefix_append ..) (.inl (Nat.lt_succ_self _))
        (fun _ _ => callPost_error) ?_
      refine Outline.call fun w H hI _ _ => ⟨hI.emit ans _ (fun he => nomatch he), ?_⟩
      exact hpost (row.advanced _) rfl rfl (by simp)
    · simp only [hnext, if_false]
      refine saveDecision_outline ans hr hpend (List.prefix_append ..)
        (.inr (by simp [ApprovalInstance.closed])) (fun _ _ => callPost_error) ?_
      refine Outline.bind (announceApproved_outline cfg ans
        (hfin (row.closed .approved _) (by simp [ApprovalInstance.closed]))
        (hnot' _ not_false)) ?_ (fun _ _ _ => callPost_error)
      exact fun h' _ hs => hpost (row.closed .approved _) rfl rfl hs
  | rejected =>
    refine saveDecision_outline ans hr hpend (List.prefix_append ..)
      (.inr (by simp [ApprovalInstance.closed])) (fun _ _ => callPost_error) ?_
    refine Outline.bind (announceRejected_outline ans
      (hfin (row.closed .rejected _) (by simp [ApprovalInstance.closed]))
      (hnot' _ not_false)) ?_ (fun _ _ _ => callPost_error)
    exact fun h' _ hs => hpost (row.closed .rejected _) rfl rfl hs

/-- The save of a timeout that is fresh: it overwrites the row as it was read. -/
lemma RaceInv.save (ans : Answers) (hI : RaceInv id row₀ w₀ w H) {row row' : ApprovalInstance}
    (hG : FreshSave w H i (.saveApproval row'))
    (honly : ∀ k row₁, Reads k row₁ (H i) → row₁ = row) (hpend : row.status = .pending)
    (hgrow : row.history <+: row'.history)
    (hmove : row.currentStepIndex < row'.currentStepIndex ∨ row'.status ≠ .pending) :
    RaceInv id row₀ w₀ (exec ans (.saveApproval row') w).1
      (observe H i (.saveApproval row') (exec ans (.saveApproval row') w).2) := by
  have hkeyed : ∀ k row₁, (w.approvals.put row'.id row') k = some row₁ → row₁.id = k := by
    intro k row₁ h
    by_cases hk : k = row'.id
    · subst hk
      rw [Table.put_self] at h
      rw [← Option.some.inj h]
    · rw [Table.put_of_ne _ _ hk] at h
      exact hI.1.keyed k row₁ h
  by_cases hk : id = row'.id
  · subst hk
    obtain ⟨cur, hread, hcur⟩ := hG row' rfl
    obtain rfl := honly _ _ hread
    refine hI.write hcur hpend hkeyed (Table.put_self ..) hgrow hmove (fun row h => nomatch h)
      ?_ ?_ ?_ not_false rfl
    · rintro entries ⟨-, h⟩
      exact h.symm
    · rintro status ⟨-, h, -⟩
      exact h
    · intro h
      exact ⟨rfl, rfl, h⟩
  · exact hI.keep hkeyed (Table.put_of_ne _ _ hk) (fun row h => nomatch h)
      (fun _ h => hk h.1.symm) (fun _ h => hk h.1.symm) not_false rfl

/-- A timeout on the row it read. -/
lemma recordTimeout_outline (ans : Answers) {h : History Stmt Stmt.Resp} {row : ApprovalInstance}
    {steps : List ApprovalStep} {k : Id} (honly : ∀ k row₁, Reads k row₁ h → row₁ = row)
    (hid : row.id = k) (hpend : row.status = .pending) (hnot : ¬ Did (announcesEnd id) h) :
    RaceOutline id row₀ w₀ ans i (CallPost id (.timeout k)) h (recordTimeout row steps) := by
  unfold recordTimeout
  simp only
  generalize (Option.map (fun x => x.timeoutAction) steps[row.currentStepIndex]?).getD .reject
    = action
  have hpost : ∀ (row' : ApprovalInstance) {h' : History Stmt Stmt.Resp}, row'.id = row.id →
      row'.history = row.history ++
        [timeoutEntry steps[row.currentStepIndex]? row.currentStepIndex action] →
      h ++ [⟨.saveApproval row', ()⟩] ⊆ h' →
      CallPost id (.timeout k) h' (Except.ok () : Except String Unit) := by
    intro row' h' hid' hhist hs _ hcall
    refine .inl ⟨row.history, timeoutEntry steps[row.currentStepIndex]? row.currentStepIndex action,
      ⟨_, _, _, rfl⟩, Did.mono ?_ hs⟩
    refine (did_concat ..).mpr (.inr ⟨?_, hhist⟩)
    rw [hid', hid]
    exact hcall
  -- an escalation with a step left only moves the instance on
  by_cases hnext : action = .escalate ∧ row.currentStepIndex + 1 < steps.length
  · rw [if_pos hnext]
    refine Outline.call fun w H hI hH hG => ?_
    subst hH
    refine ⟨hI.save ans hG honly hpend (List.prefix_append ..) (.inl (Nat.lt_succ_self _)), ?_⟩
    intro w H hI _ _
    exact ⟨hI.emit ans _ (fun he => nomatch he),
      hpost (row.advanced _) rfl rfl (List.subset_append_left ..)⟩
  · rw [if_neg hnext]
    refine Outline.call fun w H hI hH hG => ?_
    subst hH
    refine ⟨hI.save ans hG honly hpend (List.prefix_append ..)
      (.inr (by simp [ApprovalInstance.closed])), ?_⟩
    cases isAgentApproval row with
    | false => exact hpost (row.closed .rejected _) rfl rfl (List.Subset.refl _)
    | true =>
      refine Outline.call fun w H hI _ _ => ⟨hI.bystander ans trivial, ?_⟩
      intro w' H' hI hH' _
      refine ⟨hI.emit ans _ fun he => ?_, hpost (row.closed .rejected _) rfl rfl ?_⟩
      · rw [hH']
        refine ⟨Finisher.concat ⟨.rejected, (did_concat ..).mpr (.inr ⟨?_, rfl, by simp⟩)⟩, ?_⟩
        · exact of_decide_eq_true he
        · simp [hnot, announcesEnd]
      · exact List.Subset.trans (List.subset_append_left ..) (List.subset_append_left ..)

/-- The request has read the row, nothing else, and written nothing yet. -/
structure Looked (id : Id) (row : ApprovalInstance) (h : History Stmt Stmt.Resp) : Prop where
  read : Reads row.id row h
  only : ∀ k row₁, Reads k row₁ h → row₁ = row
  quiet : ¬ Did (announcesEnd id) h
  clean : ∀ entries, ¬ Did (writes id entries) h

/-- What was looked up stays so. -/
lemma Looked.concat {row : ApprovalInstance} {h : History Stmt Stmt.Resp} (hL : Looked id row h)
    {s : Stmt} (hs : s.bystander) (r : s.Resp) : Looked id row (h ++ [⟨s, r⟩]) := by
  have hne : ∀ k row₁, (⟨.findApproval k, some row₁⟩ : Sigma Stmt.Resp) ≠ ⟨s, r⟩ := by
    intro k row₁ he
    cases he
    exact hs
  constructor
  case read => exact List.mem_append_left _ hL.read
  case only =>
    intro k row₁ hr
    obtain h | h := List.mem_append.mp hr
    · exact hL.only k row₁ h
    · exact absurd (List.mem_singleton.mp h) (hne k row₁)
  case quiet =>
    intro hd
    obtain h | h := (did_concat ..).mp hd
    · exact hL.quiet h
    · cases s with
      | emit event => exact hs
      | _ => exact h
  case clean =>
    intro entries hd
    obtain h | h := (did_concat ..).mp hd
    · exact hL.clean entries h
    · cases s with
      | updatePendingApproval k ws step patch => exact hs
      | saveApproval row => exact hs
      | _ => exact h

/-- The reads between the row and the write. -/
lemma looked_outline (ans : Answers) {α : Type} {p : Act α} (hp : p.Uses Stmt.bystander)
    {row : ApprovalInstance} {h : History Stmt Stmt.Resp} (hL : Looked id row h) :
    RaceOutline id row₀ w₀ ans i (fun h' _ => Looked id row h') h p :=
  Outline.of_uses hp hL
    (fun _ _ _ hs hI hJ _ => ⟨hI.bystander ans hs, hJ.concat hs _⟩) (fun _ _ hJ => hJ)

/-- The lookup of the steps is a bystander. -/
lemma getSteps_uses (row : ApprovalInstance) : (getStepsForInstance row).Uses Stmt.bystander := by
  unfold getStepsForInstance
  split
  · trivial
  · exact Prog.uses_call.mpr trivial

/-- So is the check of the approver. -/
lemma canUserApprove_uses (step : Option ApprovalStep) (approverId : String) :
    (canUserApprove step approverId).Uses Stmt.bystander := by
  cases step with
  | none => trivial
  | some step => exact Prog.uses_call.mpr trivial

omit [DecidableEq ι] in
/-- The first read of a call. -/
lemma looked_first (ans : Answers) {k : Id} {row : ApprovalInstance} (hI : RaceInv id row₀ w₀ w H)
    (hrow : (exec ans (.findApproval k) w).2 = some row) :
    row.id = k ∧ Looked id row [⟨.findApproval k, some row⟩] := by
  have hid : row.id = k := hI.1.keyed k row hrow
  refine ⟨hid, ?_, ?_, by simp [announcesEnd], by simp [writes]⟩
  · rw [hid]
    exact List.mem_singleton_self _
  · intro j row₁ hr
    cases List.mem_singleton.mp hr
    rfl

/-- The outline of a decision. -/
lemma processDecision_outline (cfg : Config) (ans : Answers) (decision : ApprovalDecision) :
    RaceOutline id row₀ w₀ ans i (CallPost id (.decision decision)) []
      (processDecision cfg decision) := by
  refine Outline.call fun w H hI _ _ => ⟨hI.find ans _, ?_⟩
  generalize hr : (exec ans (.findApproval decision.instanceId) w).2 = found
  cases found with
  | none => exact callPost_error
  | some row =>
    obtain ⟨hid, hL⟩ := looked_first ans hI hr
    simp only
    split
    · exact callPost_error
    split
    · exact callPost_error
    rename_i hpend
    refine Outline.bind (looked_outline ans (getSteps_uses row) hL) ?_
      (fun _ _ _ => callPost_error)
    intro h steps hL
    refine Outline.bind (looked_outline ans (canUserApprove_uses _ _) hL) ?_
      (fun _ _ _ => callPost_error)
    intro h allowed hL
    cases allowed with
    | false => exact callPost_error
    | true => exact recordDecision_outline cfg ans hL.read hid (not_not.mp hpend) hL.quiet

/-- The outline of a timeout. -/
lemma processTimeout_outline (ans : Answers) (k : Id) :
    RaceOutline id row₀ w₀ ans i (CallPost id (.timeout k)) [] (processTimeout k) := by
  refine Outline.call fun w H hI _ _ => ⟨hI.find ans _, ?_⟩
  generalize hr : (exec ans (.findApproval k) w).2 = found
  cases found with
  | none => exact fun _ _ => .inr ⟨⟨k, rfl⟩, by simp [writes]⟩
  | some row =>
    obtain ⟨hid, hL⟩ := looked_first ans hI hr
    simp only
    split
    · exact fun _ _ => .inr ⟨⟨k, rfl⟩, hL.clean⟩
    split
    · exact callPost_error
    rename_i hpend _
    refine Outline.bind (looked_outline ans (getSteps_uses row) hL) ?_
      (fun _ _ _ => callPost_error)
    intro h steps hL
    exact recordTimeout_outline ans hL.only hid (not_not.mp hpend) hL.quiet

/-- The outline of either call. -/
lemma call_outline (cfg : Config) (ans : Answers) (call : ApprovalCall) :
    RaceOutline id row₀ w₀ ans i (CallPost id call) [] (call.program cfg) := by
  cases call with
  | timeout k => exact processTimeout_outline ans k
  | decision d =>
    refine Outline.bind (processDecision_outline cfg ans d) ?_ (fun _ _ _ => callPost_error)
    exact fun h row hq _ hcall => hq ⟨row, rfl⟩ hcall

/-! ## The result -/

omit [DecidableEq ι] in
/-- The invariant before the first statement. -/
lemma raceInv_start (hkeyed : ∀ k row, w.approvals k = some row → row.id = k)
    (hrow : w.approvals id = some row₀) : RaceInv id row₀ w w fun _ : ι => [] := by
  have hnone : ∀ j : ι, ¬ Finisher id ((fun _ : ι => ([] : History Stmt Stmt.Resp)) j) := by
    rintro j ⟨status, h⟩
    exact did_nil _ h
  refine ⟨?_, Exclusive.start hnone⟩
  constructor
  case keyed => exact hkeyed
  case stored => exact ⟨row₀, hrow⟩
  case read => exact fun j row h => nomatch h
  case written => exact fun j entries h => absurd h (did_nil _)
  case final => exact fun j status h => absurd h (did_nil _)
  case settled =>
    intro cur hcur _
    rw [hrow] at hcur
    exact .inl (Option.some.inj hcur).symm
  case untouched => exact fun _ => ⟨hrow, hnone⟩

/-- Any number of decisions and timeouts, on any instances and in any interleaving in which no
timeout saves a stale row. For an instance that is stored: a final status stays; at most one final
event is emitted, none if the instance was decided before; and the entry of every call that returned
is in the stored history, unless the call was a timeout that wrote nothing. -/
theorem approval_decided_once (cfg : Config) (ans : Answers) (w : World) (id : Id)
    (row₀ : ApprovalInstance) (hkeyed : ∀ k row, w.approvals k = some row → row.id = k)
    (hrow : w.approvals id = some row₀) (calls : ι → ApprovalCall) (sched : List ι)
    (hG : Pool.Guarded (exec ans) FreshSave
      (Pool.start w fun i => (calls i).program cfg) sched) :
    let start : Pool Stmt Stmt.Resp String Unit World ι :=
      Pool.start w fun i => (calls i).program cfg
    let c := start.play (exec ans) sched
    (∀ earlier later, sched = earlier ++ later →
      ∀ row, (start.play (exec ans) earlier).world.approvals id = some row →
        row.status = .approved ∨ row.status = .rejected →
        ∃ row', c.world.approvals id = some row' ∧ row'.status = row.status) ∧
      endEvents id c.world ≤ endEvents id w + (if row₀.status = .pending then 1 else 0) ∧
      ∀ i, (calls i).instanceId = id → c.thread i = .ret () →
        (∃ entry row, (calls i).Entry entry ∧ c.world.approvals id = some row ∧
            entry ∈ row.history) ∨
          (∃ k, calls i = .timeout k) ∧ ∀ entries, ¬ Did (writes id entries) (c.seen i) := by
  intro start c
  have hplay : ∀ sched', Pool.Guarded (exec ans) FreshSave start sched' →
      RaceInv id row₀ w (start.play (exec ans) sched').world
          (start.play (exec ans) sched').seen ∧ _ := fun sched' hG' =>
    Outline.play (Q := fun i => CallPost id (calls i)) (raceInv_start hkeyed hrow)
      (fun i => call_outline cfg ans (calls i)) hG'
  obtain ⟨⟨hI, hE⟩, hO⟩ := hplay sched hG
  refine ⟨?_, ?_, ?_⟩
  · intro earlier later hsched row hearly hst
    subst hsched
    obtain ⟨⟨hI₀, -⟩, -⟩ := hplay earlier (Pool.guarded_append (exec ans) |>.mp hG).1
    have hne : row.status ≠ .pending := by
      obtain h | h := hst <;> rw [h] <;> decide
    obtain ⟨cur, hcur⟩ := hI.stored
    obtain rfl | ⟨i, hi⟩ := hI₀.settled row hearly hne
    · exact ⟨row, (hI.untouched hne).1, rfl⟩
    · have hsub := Pool.seen_subset_play (exec ans) (start.play (exec ans) earlier) i later
      rw [← Pool.play_append] at hsub
      exact ⟨cur, hcur, hI.final i row.status (hi.mono hsub) cur hcur⟩
  -- an instance that was closed before the first call is never written
  · by_cases hp : row₀.status = .pending
    · rw [if_pos hp]
      exact hE.bound
    · rw [if_neg hp]
      have hnone := (hI.untouched hp).2
      exact Nat.le_of_eq (hE.untouched fun i hi => hnone i (hE.holder i hi))
  · intro i hid hret
    have hq := hO i
    rw [hret] at hq
    obtain ⟨before, entry, he, hd⟩ | h := hq ⟨(), rfl⟩ hid
    · obtain ⟨cur, hcur⟩ := hI.stored
      have hpre := hI.written i _ hd cur hcur
      exact .inl ⟨entry, cur, he, hcur, hpre.subset (List.mem_append_right _
        (List.mem_singleton_self entry))⟩
    · exact .inr h

end run

/-- A decision and a timeout on the approval. -/
def decisionAndTimeout : Bool → ApprovalCall
  | true => .decision
    { instanceId := 3
      approverId := "alice"
      approverName := "Alice"
      action := .approved
      comments := none }
  | false => .timeout 3

/-- Both read the pending row, the timeout saves what it has read, and the update of the decision
misses: one final event is emitted, and the entry of the timeout is in the history. -/
theorem decision_misses_timeout :
    let c := (Pool.start pausedWorld fun i : Bool =>
      (decisionAndTimeout i).program .small).play (exec .small)
        [true, false, false, true, false, false]
    c.thread true = .throw "APPROVAL_DECISION_CONCURRENT_MODIFICATION" ∧
      endEvents 3 c.world ≤ endEvents 3 pausedWorld + 1 ∧
      ((∃ entry row, (decisionAndTimeout false).Entry entry ∧ c.world.approvals 3 = some row ∧
          entry ∈ row.history) ∨
        (∃ k, decisionAndTimeout false = .timeout k) ∧
          ∀ entries, ¬ Did (writes 3 entries) (c.seen false)) := by
  intro c
  have hdecided := approval_decided_once .small .small pausedWorld 3 _
    (fun k row h => (pausedWorld_keyed.approvals k row h).1) rfl decisionAndTimeout
    [true, false, false, true, false, false] ?_
  · exact ⟨rfl, hdecided.2.1, hdecided.2.2 false rfl rfl⟩
  · refine ⟨(fun _ h => nomatch h), (fun _ h => nomatch h), ?_, (fun _ h => nomatch h),
      (fun _ h => nomatch h), (fun _ h => nomatch h), trivial⟩
    intro row' h
    cases h
    exact ⟨_, List.mem_singleton_self _, rfl⟩

/-- The timeout reads the pending row, the decision approves it, and the save of the timeout rejects
it again: the status changes, both final events are emitted, and the entry of the decision is gone
although the decision returned. -/
theorem timeout_overwrites_decision :
    let start := Pool.start pausedWorld fun i : Bool => (decisionAndTimeout i).program .small
    let before := start.play (exec .small) [false, true, true, true, true]
    let after := before.play (exec .small) [false, false, false]
    before.thread true = .ret () ∧ (before.world.approvals 3).map (·.status) = some .approved ∧
      (after.world.approvals 3).map (·.status) = some .rejected ∧ endEvents 3 after.world = 2 ∧
      (after.world.approvals 3).map (fun row => row.history.any (·.action = .approved)) =
        some false := by
  refine ⟨rfl, ?_⟩
  decide +kernel

end NexusClaw.Governance
