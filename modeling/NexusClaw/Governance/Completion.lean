import NexusClaw.Governance.Footprint

/-!
# Gate completion is exactly-once

`GateService.complete` called any number of times, by requests that interleave statement by
statement. What serialises the calls on one execution is the compare-and-set of `finalize` on the
tool-call record: the request whose update affected the row is the one that closes the call, and
only it goes on to the execution and the event.
-/

namespace NexusClaw.Governance
open Concurrent

/-- An execution of the gate that waits for its caller to report: the call was allowed, or it was
paused and has been approved. -/
structure AwaitsCompletion (w : World) (e : Id) (call : ToolCallRecord) : Prop where
  execution : ∃ row, w.executions e = some row ∧ row.status = .running ∧
    row.triggerSource = .governanceGate
  calls : w.toolCalls.filter (·.executionId = e) = [call]
  status : call.status = .started ∨ call.status = .requiresApproval
  ids : (w.toolCalls.map (·.id)).Nodup
  silent : terminalEvents w e = []

/-! ## Tool-call records under a transition -/

/-- A selected record has an expected status. -/
lemma selected_status {row : ToolCallRecord} {id : Id} {expected : List ToolCallStatus}
    (h : row.selected id expected = true) : row.id = id ∧ row.status ∈ expected := by
  simpa [ToolCallRecord.selected] using h

/-- A transition does not select closed records. -/
lemma not_selected_of_closed {row : ToolCallRecord} {id : Id} {expected : List ToolCallStatus}
    (he : ∀ status ∈ expected, status.closed = false) (hc : row.status.closed = true) :
    row.selected id expected = false := by
  cases h : row.selected id expected with
  | false => rfl
  | true =>
    obtain ⟨-, hm⟩ := selected_status h
    rw [he _ hm] at hc
    cases hc

/-- The records after a transition. -/
def transitioned (rows : List ToolCallRecord) (id : Id) (expected : List ToolCallStatus)
    (patch : ToolCallPatch) : List ToolCallRecord :=
  rows.map fun row => if row.selected id expected then row.patch patch else row

/-- A record after a transition. -/
lemma mem_transitioned {rows : List ToolCallRecord} {id : Id} {expected : List ToolCallStatus}
    {patch : ToolCallPatch} {row : ToolCallRecord} (h : row ∈ transitioned rows id expected patch) :
    ∃ old ∈ rows, row.id = old.id ∧ row.executionId = old.executionId ∧
      (row = old ∧ old.selected id expected = false ∨
        row.status = patch.status ∧ old.selected id expected = true) := by
  obtain ⟨old, hold, rfl⟩ := List.mem_map.mp h
  cases hs : old.selected id expected with
  | false => exact ⟨old, hold, rfl, rfl, .inl ⟨rfl, hs⟩⟩
  | true => exact ⟨old, hold, rfl, rfl, .inr ⟨rfl, hs⟩⟩

/-- A transition keeps the ids. -/
lemma transitioned_ids (rows : List ToolCallRecord) (id : Id) (expected : List ToolCallStatus)
    (patch : ToolCallPatch) :
    (transitioned rows id expected patch).map (·.id) = rows.map (·.id) := by
  unfold transitioned
  rw [List.map_map]
  apply List.map_congr_left
  intro row _
  cases h : row.selected id expected <;> simp [h]

/-- A closed record is still there, unchanged, after any statement of a program. -/
lemma exec_keeps_closed (ans : Answers) {s : Stmt} {w : World} {e : Id} (hs : s.worksFor cfg e)
    {row : ToolCallRecord} (hrow : row ∈ w.toolCalls) (hc : row.status.closed = true) :
    row ∈ (exec ans s w).1.toolCalls := by
  cases s with
  | transitionToolCall id expected patch =>
    refine List.mem_map.mpr ⟨row, hrow, ?_⟩
    rw [not_selected_of_closed hs hc]
    rfl
  | createToolCall r => exact List.mem_append_left _ hrow
  | _ => exact hrow

/-- Over any schedule of programs a closed record stays as it is. -/
lemma play_keeps_closed {ι : Type} [DecidableEq ι] (ans : Answers)
    {c : Pool Stmt Stmt.Resp String Unit World ι}
    (hc : ∀ i, (c.thread i).Uses fun s => ∃ e, s.worksFor cfg e) (sched : List ι)
    (row : ToolCallRecord) (hrow : row ∈ c.world.toolCalls) (hclosed : row.status.closed = true) :
    row ∈ (c.play (exec ans) sched).world.toolCalls := by
  refine (Pool.play_rel (T := fun w w' => row ∈ w.toolCalls → row ∈ w'.toolCalls) (exec ans)
    (fun _ h => h) (fun _ _ _ h h' hw => h' (h hw)) ?_ hc sched).1 hrow
  rintro s w ⟨e, hs⟩ hw
  exact exec_keeps_closed ans hs hw hclosed

/-! ## Who closed the call -/

/-- The request's `finalize` affected the record `c`. -/
def closes (c : Id) : Sigma Stmt.Resp → Prop
  | ⟨.transitionToolCall id expected _, n⟩ => id = c ∧ expected = [.started, .running] ∧ n = (1 : Nat)
  | _ => False

/-- The request updated the execution `e`. -/
def settles (e : Id) : Sigma Stmt.Resp → Prop
  | ⟨.updateExecution id _, _⟩ => id = e
  | _ => False

/-- The request enqueued an event of the execution `e`. -/
def announces (e : Id) : Sigma Stmt.Resp → Prop
  | ⟨.enqueue event, _⟩ => event.aggregateId = e
  | _ => False

section invariant
variable {ι : Type} [DecidableEq ι]

/-- What holds of the execution `e`, its record `c` and the histories of all requests. -/
structure Completion (e c : Id) (outcome : ι → GateOutcome) (w : World)
    (H : ι → History Stmt Stmt.Resp) : Prop where
  ids : (w.toolCalls.map (·.id)).Nodup
  present : c ∈ w.toolCalls.map (·.id)
  mine : ∀ row ∈ w.toolCalls, row.executionId = e ↔ row.id = c
  stored : ∃ row, w.executions e = some row
  unique : ∀ i j, Did (closes c) (H i) → Did (closes c) (H j) → i = j
  record : ∀ i, Did (closes c) (H i) → ∀ row ∈ w.toolCalls, row.id = c →
    row.status = (outcome i).callStatus
  execution : ∀ i, Did (closes c) (H i) → Did (settles e) (H i) →
    ∀ row, w.executions e = some row → row.status = (outcome i).executionStatus
  silent : (∀ i, ¬ Did (announces e) (H i)) → terminalEvents w e = []
  announced : ∀ i, Did (announces e) (H i) → Did (closes c) (H i) ∧
    ∃ event, terminalEvents w e = [event] ∧ event.eventType = (outcome i).eventType ∧
      event.payload.success = some (outcome i).success

variable {e c : Id} {outcome : ι → GateOutcome} {w : World} {H : ι → History Stmt Stmt.Resp}

/-- A step that neither closes, settles nor announces, and that keeps what is closed. -/
lemma Completion.quiet (hI : Completion e c outcome w H) {i : ι} {s : Stmt} {r : s.Resp}
    {w' : World} (hc : ¬ closes c ⟨s, r⟩) (hs : ¬ settles e ⟨s, r⟩) (ha : ¬ announces e ⟨s, r⟩)
    (hids : w'.toolCalls.map (·.id) = w.toolCalls.map (·.id))
    (hrows : ∀ row ∈ w'.toolCalls, ∃ old ∈ w.toolCalls, row.id = old.id ∧
      row.executionId = old.executionId ∧
      (row.id = c → old.status.closed = true → row.status = old.status))
    (hx : w'.executions e = w.executions e) (hev : terminalEvents w' e = terminalEvents w e) :
    Completion e c outcome w' (observe H i s r) where
  ids := hids ▸ hI.ids
  present := hids ▸ hI.present
  mine := by
    intro row hrow
    obtain ⟨old, hold, hid, hex, -⟩ := hrows row hrow
    rw [hid, hex]
    exact hI.mine old hold
  stored := hx ▸ hI.stored
  unique := by
    intro j k hj hk
    rw [did_observe_of_not hc] at hj hk
    exact hI.unique j k hj hk
  record := by
    intro j hj row hrow hid
    rw [did_observe_of_not hc] at hj
    obtain ⟨old, hold, hid', -, hst⟩ := hrows row hrow
    have ho := hI.record j hj old hold (hid' ▸ hid)
    rw [hst hid (by rw [ho]; unfold GateOutcome.callStatus; split <;> rfl), ho]
  execution := by
    intro j hj hk row hrow
    rw [did_observe_of_not hc] at hj
    rw [did_observe_of_not hs] at hk
    exact hI.execution j hj hk row (hx ▸ hrow)
  silent := by
    intro h
    rw [hev]
    exact hI.silent fun j hj => h j ((did_observe_of_not ha j).mpr hj)
  announced := by
    intro j hj
    rw [did_observe_of_not ha] at hj
    rw [did_observe_of_not hc, hev]
    exact hI.announced j hj

/-- A statement that only reads. -/
lemma Completion.read (hI : Completion e c outcome w H) {i : ι} {s : Stmt} {r : s.Resp}
    (hc : ¬ closes c ⟨s, r⟩) (hs : ¬ settles e ⟨s, r⟩) (ha : ¬ announces e ⟨s, r⟩) :
    Completion e c outcome w (observe H i s r) :=
  hI.quiet hc hs ha rfl (fun row hrow => ⟨row, hrow, rfl, rfl, fun _ _ => rfl⟩) rfl rfl

/-- A transition that does not close the record. -/
lemma Completion.transition (ans : Answers) (hI : Completion e c outcome w H) {i : ι} {id : Id}
    {expected : List ToolCallStatus} {patch : ToolCallPatch}
    (he : ∀ status ∈ expected, status.closed = false)
    (hc : ¬ closes c ⟨.transitionToolCall id expected patch,
      (exec ans (.transitionToolCall id expected patch) w).2⟩) :
    Completion e c outcome (exec ans (.transitionToolCall id expected patch) w).1
      (observe H i (.transitionToolCall id expected patch)
        (exec ans (.transitionToolCall id expected patch) w).2) := by
  refine hI.quiet hc not_false not_false (transitioned_ids ..) ?_ rfl rfl
  intro row hrow
  obtain ⟨old, hold, hid, hex, h⟩ := mem_transitioned hrow
  refine ⟨old, hold, hid, hex, fun _ hcl => ?_⟩
  obtain ⟨rfl, -⟩ | ⟨-, hs⟩ := h
  · rfl
  · rw [not_selected_of_closed he hcl] at hs
    cases hs

/-- The transition of `finalize` that affects the record: its request closes the call. -/
lemma Completion.win (ans : Answers) (hI : Completion e c outcome w H) {i : ι}
    {patch : ToolCallPatch} (hp : patch.status = (outcome i).callStatus)
    (hn : (exec ans (.transitionToolCall c [.started, .running] patch) w).2 = (1 : Nat))
    (ha : ¬ Did (announces e) (H i)) (hs : ¬ Did (settles e) (H i)) :
    Completion e c outcome (exec ans (.transitionToolCall c [.started, .running] patch) w).1
      (observe H i (.transitionToolCall c [.started, .running] patch)
        (exec ans (.transitionToolCall c [.started, .running] patch) w).2) := by
  have hpos : 0 < w.toolCalls.countP (·.selected c [.started, .running]) := by
    show 0 < (exec ans (.transitionToolCall c [.started, .running] patch) w).2
    rw [hn]
    exact Nat.one_pos
  obtain ⟨chosen, hchosen, hsel⟩ := List.countP_pos_iff.mp hpos
  obtain ⟨hid, hst⟩ := selected_status hsel
  have hopen : ∀ j, ¬ Did (closes c) (H j) := by
    intro j hj
    rw [hI.record j hj chosen hchosen hid] at hst
    unfold GateOutcome.callStatus at hst
    split at hst <;> simp at hst
  have hwin : ∀ j, Did (closes c) (observe H i (.transitionToolCall c [.started, .running] patch)
      (exec ans (.transitionToolCall c [.started, .running] patch) w).2 j) → j = i := by
    intro j hj
    obtain h | ⟨h, -⟩ := (did_observe ..).mp hj
    · exact absurd h (hopen j)
    · exact h
  -- the record was open, so that no request had closed the call before
  constructor
  case ids => exact (transitioned_ids ..).symm ▸ hI.ids
  case present => exact (transitioned_ids ..).symm ▸ hI.present
  case mine =>
    intro row hrow
    obtain ⟨old, hold, hid, hex, -⟩ := mem_transitioned hrow
    rw [hid, hex]
    exact hI.mine old hold
  case stored => exact hI.stored
  case unique =>
    intro j k hj hk
    rw [hwin j hj, hwin k hk]
  case record =>
    intro j hj row hrow hrid
    obtain rfl := hwin j hj
    obtain ⟨old, hold, hid', -, ⟨rfl, hns⟩ | ⟨hset, -⟩⟩ := mem_transitioned hrow
    · have heq : row = chosen :=
        List.inj_on_of_nodup_map hI.ids hold hchosen (hrid.trans hid.symm)
      rw [heq, hsel] at hns
      cases hns
    · rw [hset, hp]
  case execution =>
    intro j hj hk
    obtain rfl := hwin j hj
    rw [did_observe_of_not not_false] at hk
    exact absurd hk hs
  case silent =>
    intro h
    exact hI.silent fun j hj => h j ((did_observe_of_not not_false j).mpr hj)
  case announced =>
    intro j hj
    rw [did_observe_of_not not_false] at hj
    exact absurd (hI.announced j hj).1 (hopen j)

/-- The winner's update of the execution. -/
lemma Completion.settle (ans : Answers) (hI : Completion e c outcome w H) {i : ι}
    {patch : ExecutionPatch} (hp : patch.status = some (outcome i).executionStatus)
    (hw : Did (closes c) (H i)) :
    Completion e c outcome (exec ans (.updateExecution e patch) w).1
      (observe H i (.updateExecution e patch) (exec ans (.updateExecution e patch) w).2) := by
  constructor
  case ids => exact hI.ids
  case present => exact hI.present
  case mine => exact hI.mine
  case stored =>
    obtain ⟨row, hrow⟩ := hI.stored
    exact ⟨row.patch patch, Table.modify_some _ hrow⟩
  case unique =>
    intro j k hj hk
    rw [did_observe_of_not not_false] at hj hk
    exact hI.unique j k hj hk
  case record =>
    intro j hj
    rw [did_observe_of_not not_false] at hj
    exact hI.record j hj
  case execution =>
    intro j hj _ row hrow
    rw [did_observe_of_not not_false] at hj
    obtain rfl := hI.unique j i hj hw
    obtain ⟨old, -, rfl⟩ := Table.modify_eq_some hrow
    simp [hp]
  case silent =>
    intro h
    exact hI.silent fun j hj => h j ((did_observe_of_not not_false j).mpr hj)
  case announced =>
    intro j hj
    rw [did_observe_of_not not_false] at hj ⊢
    exact hI.announced j hj

/-- The winner's event. -/
lemma Completion.announce (ans : Answers) (hI : Completion e c outcome w H) {i : ι}
    {event : OutboxEvent} (he : event.aggregateId = e)
    (ht : event.eventType = (outcome i).eventType)
    (hp : event.payload.success = some (outcome i).success)
    (hw : Did (closes c) (H i)) (ha : ¬ Did (announces e) (H i)) :
    Completion e c outcome (exec ans (.enqueue event) w).1
      (observe H i (.enqueue event) (exec ans (.enqueue event) w).2) := by
  have hnone : ∀ j, ¬ Did (announces e) (H j) := by
    intro j hj
    obtain rfl := hI.unique j i (hI.announced j hj).1 hw
    exact ha hj
  -- only the request that closed the call comes to its event
  constructor
  case ids => exact hI.ids
  case present => exact hI.present
  case mine => exact hI.mine
  case stored => exact hI.stored
  case unique =>
    intro j k hj hk
    rw [did_observe_of_not not_false] at hj hk
    exact hI.unique j k hj hk
  case record =>
    intro j hj
    rw [did_observe_of_not not_false] at hj
    exact hI.record j hj
  case execution =>
    intro j hj hk
    rw [did_observe_of_not not_false] at hj hk
    exact hI.execution j hj hk
  case silent =>
    intro h
    exact absurd ((did_observe ..).mpr (.inr ⟨rfl, he⟩)) (h i)
  case announced =>
    intro j hj
    obtain h | ⟨rfl, -⟩ := (did_observe ..).mp hj
    · exact absurd h (hnone j)
    · refine ⟨(did_observe_of_not not_false j).mpr hw,
        { event with id := w.clock, createdAt := w.clock }, ?_, ht, hp⟩
      have hsilent := hI.silent hnone
      have hterm : event.eventType.terminal = true := by
        rw [ht]
        unfold GateOutcome.eventType
        split <;> rfl
      unfold terminalEvents at hsilent ⊢
      simp [exec, List.filter_append, hsilent, he, hterm]

/-! ## The outline of a call -/

/-- A call on `target` that has returned did all three writes. -/
def Reported (e c target : Id) (h : History Stmt Stmt.Resp) (r : Except String Unit) : Prop :=
  r = .ok () → target = e → Did (closes c) h ∧ Did (settles e) h ∧ Did (announces e) h

/-- A running execution may take every outcome. -/
lemma handle_outcome (o : GateOutcome) :
    handleStateTransition .running o.executionStatus = .ok o.executionStatus := by
  unfold GateOutcome.executionStatus
  split <;> rfl

/-- The part of the outline that follows a finalisation that affected the record. -/
lemma settle_outline (cfg : Config) (ans : Answers) {i : ι} {h : History Stmt Stmt.Resp}
    (target : Id) (hw : target = e → Did (closes c) h) (ha : ¬ Did (announces e) h) :
    Outline (exec ans) (Completion e c outcome) (fun _ _ _ _ => True) (Reported e c target) i h
      (updateExecution target { status := some (outcome i).executionStatus, completedAt := true } >>=
        fun _ => enqueue (gateCompleted cfg target (outcome i))) := by
  -- a request on another execution cannot reach this one
  by_cases ht : target = e
  · subst ht
    have hw := hw rfl
    intro w H hI hH _
    subst hH
    refine ⟨hI.settle ans rfl hw, ?_⟩
    intro w' H' hI' hH' _
    have hw' : Did (closes c) (H' i) := by
      rw [hH', did_concat]
      exact .inl hw
    have ha' : ¬ Did (announces target) (H' i) := by
      rw [hH', did_concat]
      rintro (h | h)
      · exact ha h
      · exact h
    refine ⟨hI'.announce ans rfl rfl rfl hw' ha', fun _ _ => ⟨?_, ?_, ?_⟩⟩
    · simp [hw]
    · simp [settles]
    · simp [announces, gateCompleted]
  · have hskip : ∀ h r, Reported e c target h r := fun h r _ hte => absurd hte ht
    intro w H hI hH _
    refine ⟨hI.quiet not_false ht not_false rfl
      (fun row hrow => ⟨row, hrow, rfl, rfl, fun _ _ => rfl⟩)
      (Table.modify_of_ne _ _ (Ne.symm ht)) rfl, ?_⟩
    intro w' H' hI' hH' _
    refine ⟨hI'.quiet not_false not_false ht rfl
      (fun row hrow => ⟨row, hrow, rfl, rfl, fun _ _ => rfl⟩) rfl ?_, hskip _ _⟩
    have hother : decide (target = e) = false := decide_eq_false ht
    simp [terminalEvents, exec, List.filter_append, gateCompleted, hother]

/-- The outline of the close of a call. -/
lemma closeCall_outline (cfg : Config) (ans : Answers) {i : ι} {h : History Stmt Stmt.Resp}
    (target callId : Id) (hcall : callId = c ↔ target = e) (ha : ¬ Did (announces e) h)
    (hs : ¬ Did (settles e) h) :
    Outline (exec ans) (Completion e c outcome) (fun _ _ _ _ => True) (Reported e c target) i h
      (closeCall cfg target callId (outcome i)) := by
  unfold closeCall
  rw [handle_outcome]
  obtain hf | hf := finalize_cases callId (outcome i).finalizeInput
  · rw [hf]
    intro hr
    cases hr
  · rw [hf]
    rw [transition_bind]
    intro w H hI hH _
    subst hH
    by_cases hn : (exec ans (.transitionToolCall callId [.started, .running]
        (outcome i).finalizeInput.patch) w).2 = (1 : Nat)
    · beta_reduce
      rw [if_pos hn]
      refine ⟨?_, settle_outline cfg ans target ?_ ?_⟩
      · by_cases hc : callId = c
        · subst hc
          exact hI.win ans rfl hn ha hs
        · exact hI.transition ans (by simp [ToolCallStatus.closed]) fun h => hc h.1
      · intro ht
        rw [did_concat]
        exact .inr ⟨hcall.mpr ht, rfl, hn⟩
      · rw [did_concat]
        rintro (h | h)
        · exact ha h
        · exact h
    · beta_reduce
      rw [if_neg hn]
      refine ⟨hI.transition ans (by simp [ToolCallStatus.closed]) fun h => hn h.2.2, ?_⟩
      intro hr
      cases hr

/-- The outline of the resumption of a call. -/
lemma resumeCall_outline (cfg : Config) (ans : Answers) {i : ι} {h : History Stmt Stmt.Resp}
    (target : Id) (call : ToolCallRecord) (hcall : call.id = c ↔ target = e)
    (ha : ¬ Did (announces e) h) (hs : ¬ Did (settles e) h) :
    Outline (exec ans) (Completion e c outcome) (fun _ _ _ _ => True) (Reported e c target) i h
      (resumeCall call >>= fun _ => closeCall cfg target call.id (outcome i)) := by
  unfold resumeCall
  by_cases hst : call.status = .requiresApproval
  · rw [if_pos hst, transition_bind]
    intro w H hI _ _
    refine ⟨hI.transition ans (by simp [ToolCallStatus.closed]) ?_, ?_⟩
    · rintro ⟨-, he, -⟩
      cases he
    beta_reduce
    split
    · apply closeCall_outline cfg ans target call.id hcall
      · simp [ha, announces]
      · simp [hs, settles]
    · intro hr
      cases hr
  · rw [if_neg hst]
    exact closeCall_outline cfg ans target call.id hcall ha hs

/-- A call keeps the invariant at each of its statements. -/
lemma complete_outline (cfg : Config) (ans : Answers) (i : ι) (target : Id) :
    Outline (exec ans) (Completion e c outcome) (fun _ _ _ _ => True) (Reported e c target) i []
      (complete cfg target (outcome i)) := by
  unfold complete
  rw [findExecutionOrFail_bind]
  intro w H hI _ _
  refine ⟨hI.read not_false not_false not_false, ?_⟩
  generalize (exec ans (.findExecution target) w).2 = found
  -- an execution that is not there, or does not run, ends the request
  cases found with
  | none =>
    intro hr
    cases hr
  | some execution =>
    by_cases hst : execution.status = .running
    · simp only [hst, ne_eq, not_true_eq_false, if_false]
      intro w H hI _ _
      refine ⟨hI.read not_false not_false not_false, ?_⟩
      have hmem : ∀ call ∈ (exec ans (.findToolCalls target) w).2,
          call.id = c ↔ target = e := by
        intro call hcall
        obtain ⟨hin, hex⟩ := List.mem_filter.mp hcall
        rw [← hI.mine call hin, of_decide_eq_true hex]
      generalize (exec ans (.findToolCalls target) w).2 = calls at hmem ⊢
      cases calls with
      | nil =>
        intro hr
        cases hr
      | cons call rest =>
        apply resumeCall_outline cfg ans target call (hmem call List.mem_cons_self)
        · simp [announces]
        · simp [settles]
    · simp only [hst, ne_eq, not_false_eq_true, if_true]
      intro hr
      cases hr

omit [DecidableEq ι] in
/-- The invariant before the first statement. -/
lemma AwaitsCompletion.completion {call : ToolCallRecord} (h : AwaitsCompletion w e call)
    (outcome : ι → GateOutcome) : Completion e call.id outcome w fun _ => [] := by
  have hcall : call ∈ w.toolCalls.filter (·.executionId = e) := by
    rw [h.calls]
    exact List.mem_singleton_self call
  obtain ⟨hin, hex⟩ := List.mem_filter.mp hcall
  constructor
  case ids => exact h.ids
  case present => exact List.mem_map_of_mem hin
  case mine =>
    intro row hrow
    constructor
    · intro he
      have hr : row ∈ w.toolCalls.filter (·.executionId = e) :=
        List.mem_filter.mpr ⟨hrow, decide_eq_true he⟩
      rw [h.calls] at hr
      rw [List.mem_singleton.mp hr]
    · intro hid
      rw [List.inj_on_of_nodup_map h.ids hrow hin hid]
      exact of_decide_eq_true hex
  case stored =>
    obtain ⟨row, hrow, -⟩ := h.execution
    exact ⟨row, hrow⟩
  case unique => exact fun i _ hi => absurd hi (did_nil _)
  case record => exact fun i hi => absurd hi (did_nil _)
  case execution => exact fun i hi => absurd hi (did_nil _)
  case silent => exact fun _ => h.silent
  case announced => exact fun i hi => absurd hi (did_nil _)

end invariant

/-! ## The result -/

section result
variable {ι : Type} [DecidableEq ι]

/-- What is stored of the execution `e` and its call is the given outcome. -/
structure Carries (w : World) (e : Id) (callId : Id) (o : GateOutcome) : Prop where
  record : ∃ row ∈ w.toolCalls, row.id = callId ∧ row.status = o.callStatus
  execution : ∃ row, w.executions e = some row ∧ row.status = o.executionStatus
  event : ∃ event, terminalEvents w e = [event] ∧ event.eventType = o.eventType ∧
    event.payload.success = some o.success

/-- Requests that report outcomes of gate executions, each any execution and any outcome, in any
interleaving. Of the calls on an execution that awaits completion at most one returns; no record
leaves a terminal status; and once a call has returned, everything stored carries its outcome. -/
theorem complete_exactly_once (cfg : Config) (ans : Answers) (w : World) (e : Id)
    (call : ToolCallRecord) (hw : AwaitsCompletion w e call) (target : ι → Id)
    (outcome : ι → GateOutcome) (sched : List ι) :
    let start : Pool Stmt Stmt.Resp String Unit World ι :=
      Pool.start w fun i => complete cfg (target i) (outcome i)
    let c := start.play (exec ans) sched
    (∀ i j, target i = e → target j = e → c.thread i = .ret () → c.thread j = .ret () → i = j) ∧
      (∀ earlier later, sched = earlier ++ later →
        ∀ row ∈ (start.play (exec ans) earlier).world.toolCalls,
          row.status = .succeeded ∨ row.status = .failed → row ∈ c.world.toolCalls) ∧
      ∀ i, target i = e → c.thread i = .ret () → Carries c.world e call.id (outcome i) := by
  intro start c
  have huses : ∀ i, (start.thread i).Uses fun s => ∃ e, s.worksFor cfg e := fun i =>
    (complete_worksFor cfg (target i) (outcome i)).mono fun _ hs => ⟨target i, hs⟩
  obtain ⟨hI, hO⟩ := Outline.play (Q := fun i => Reported e call.id (target i))
    (hw.completion outcome) (fun i => complete_outline cfg ans i (target i))
    (Pool.guarded_of_forall (exec ans) (fun _ _ _ _ => trivial) start sched)
  have hdone : ∀ i, target i = e → c.thread i = .ret () →
      Did (closes call.id) (c.seen i) ∧ Did (settles e) (c.seen i) ∧
        Did (announces e) (c.seen i) := by
    intro i hi hret
    have hq := hO i
    rw [hret] at hq
    exact hq rfl hi
  refine ⟨?_, ?_, ?_⟩
  · intro i j hi hj hri hrj
    exact hI.unique i j (hdone i hi hri).1 (hdone j hj hrj).1
  · intro earlier later hsched row hrow hclosed
    have hc : row.status.closed = true := by
      obtain h | h := hclosed <;> rw [h] <;> rfl
    have hplay : c = (start.play (exec ans) earlier).play (exec ans) later := by
      rw [← Pool.play_append, ← hsched]
    rw [hplay]
    exact play_keeps_closed ans (Pool.play_rel (exec ans) (fun _ => trivial)
      (fun _ _ _ _ _ => trivial) (fun _ _ _ => trivial) huses earlier).2 later row hrow hc
  · intro i hi hret
    obtain ⟨hcl, hse, han⟩ := hdone i hi hret
    obtain ⟨row, hrow, hid⟩ := List.mem_map.mp hI.present
    obtain ⟨ex, hex⟩ := hI.stored
    exact
      { record := ⟨row, hrow, hid, hI.record i hcl row hrow hid⟩
        execution := ⟨ex, hex, hI.execution i hcl hse ex hex⟩
        event := (hI.announced i han).2 }

/-- Two reports of one call: a success and a failure. -/
def twoOutcomes : Bool → GateOutcome
  | true => { success := true, output := .undefined }
  | false => { success := false, output := .undefined }

/-- An allowed call awaits its completion. -/
lemma awaits_allowed :
    AwaitsCompletion (serve .lenient .small .empty (.gate "mail__send" .empty)) 0
      { id := 2
        executionId := 0
        workspaceId := 1
        toolName := "mail__send"
        toolCategory := "governed_gate"
        status := .started } where
  execution := ⟨_, rfl, rfl, rfl⟩
  calls := by decide
  status := .inl rfl
  ids := by decide
  silent := by decide

/-- Both reports read the open record before either closes it; the first to finalise wins. -/
theorem complete_race :
    let start : Pool Stmt Stmt.Resp String Unit World Bool :=
      Pool.start (serve .lenient .small .empty (.gate "mail__send" .empty))
        fun i => complete .lenient 0 (twoOutcomes i)
    let c := start.play (exec .small) [true, false, true, false, true, false, true, true]
    c.thread true = .ret () ∧ (c.thread false = .ret () → false = true) ∧
      Carries c.world 0 2 (twoOutcomes true) := by
  intro start c
  have h := complete_exactly_once .lenient .small _ 0 _ awaits_allowed (fun _ => 0) twoOutcomes
    [true, false, true, false, true, false, true, true]
  exact ⟨rfl, fun hf => h.1 false true rfl rfl hf rfl, h.2.2 true rfl rfl⟩

end result

end NexusClaw.Governance
