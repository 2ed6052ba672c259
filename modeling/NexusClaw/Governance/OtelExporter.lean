import Mathlib.Data.List.Perm.Subperm
import NexusClaw.Governance.Entities

/-!
# OpenTelemetry exporter

`sidecar/src/otel/otel-audit-exporter.ts`: the tick that reads a page of terminal events, exports the
ones past the cursor and moves the cursor. A tick awaits between its statements, so events and rows
may be inserted while it is under way, and a second tick may start before the first has ended. A
`Label` is one such step of the whole system; what the exporter sends to the collector is not read
here, only which events it was sent for.
-/

namespace NexusClaw.Governance.OtelAuditExporter

/-- ``String(event.payload.executionId ?? event.aggregateId)`` -/
def executionId (event : OutboxEvent) : Id :=
  event.payload.executionId.getD event.aggregateId

/-- A tick under way: after the read of its page, or between two exports. `seen` are the terminal
events that were in the table when it started. -/
inductive Tick where
  | fetched (seen page : List OutboxEvent)
  | exporting (seen fresh todo : List OutboxEvent) (sent : Bool)
deriving DecidableEq

structure State where
  table : List OutboxEvent
  rows : List Id
  cursor : Option Nat
  exported : List OutboxEvent
  ticks : List (Nat × Tick)
deriving DecidableEq

def State.start : State where
  table := []
  rows := []
  cursor := none
  exported := []
  ticks := []

/-- The rows that the `where` of the tick selects. -/
def State.terminal (s : State) : List OutboxEvent :=
  s.table.filter (·.eventType.terminal)

def State.tick (s : State) (k : Nat) : Option Tick :=
  s.ticks.lookup k

/-- The tick `k` goes on as `t`. -/
def State.goOn (s : State) (k : Nat) (t : Tick) : State :=
  { s with ticks := (k, t) :: s.ticks.filter (·.1 ≠ k) }

/-- The tick `k` is over. -/
def State.done (s : State) (k : Nat) : State :=
  { s with ticks := s.ticks.filter (·.1 ≠ k) }

def pageSize : Nat := 20

/-- What `order: { createdAt: 'ASC' }, take: 20` may return: the oldest rows in order; among rows of
one age the database chooses. -/
def IsPage (rows page : List OutboxEvent) : Prop :=
  page.Pairwise (fun a b => a.createdAt ≤ b.createdAt) ∧ page.Subperm rows ∧
    page.length = min pageSize rows.length ∧
    ∀ x ∈ page, ∀ y ∈ rows.diff page, x.createdAt ≤ y.createdAt

instance (rows page : List OutboxEvent) : Decidable (IsPage rows page) := by
  unfold IsPage
  infer_instance

/-- `!this.cursor || event.createdAt > this.cursor` -/
def State.isFresh (s : State) (event : OutboxEvent) : Bool :=
  s.cursor.all fun c => decide (c < event.createdAt)

inductive Label where
  | insert (event : OutboxEvent)
  | addRow (executionId : Id)
  | fetch (k : Nat) (page : List OutboxEvent)
  | sift (k : Nat)
  | skip (k : Nat)
  | post (k : Nat) (accepted : Bool)
  | finish (k : Nat)
deriving DecidableEq

/-- One step, if it can be taken. A refused export ends the tick and leaves the cursor. -/
def step (s : State) : Label → Option State
  | .insert event => some { s with table := s.table ++ [event] }
  | .addRow e => some { s with rows := e :: s.rows }
  | .fetch k page =>
    if s.tick k = none ∧ IsPage s.terminal page then some (s.goOn k (.fetched s.terminal page))
    else none
  | .sift k =>
    match s.tick k with
    | some (.fetched seen page) =>
      let fresh := page.filter s.isFresh
      if fresh = [] then some (s.done k) else some (s.goOn k (.exporting seen fresh fresh false))
    | _ => none
  | .skip k =>
    match s.tick k with
    | some (.exporting seen fresh (event :: todo) sent) =>
      if executionId event ∈ s.rows then none
      else some (s.goOn k (.exporting seen fresh todo sent))
    | _ => none
  | .post k accepted =>
    match s.tick k with
    | some (.exporting seen fresh (event :: todo) _) =>
      if executionId event ∈ s.rows then
        if accepted then
          some ({ s with exported := event :: s.exported }.goOn k
            (.exporting seen fresh todo true))
        else some (s.done k)
      else none
    | _ => none
  | .finish k =>
    match s.tick k with
    | some (.exporting _ fresh [] _) =>
      some ({ s with cursor := fresh.getLast?.map OutboxEvent.createdAt }.done k)
    | _ => none

/-- The states that runs reach whose steps all meet the condition `G`. -/
inductive Reachable (G : State → Label → Prop) : State → Prop where
  | start : Reachable G .start
  | step {s s' : State} {l : Label} (h : Reachable G s) (admitted : G s l)
      (took : step s l = some s') : Reachable G s'

/-- A tick that saw `seen` when it started ends with this step, and it exported nothing. -/
def EndsSilently (s : State) (seen : List OutboxEvent) : Label → Prop
  | .sift k => ∃ page, s.tick k = some (.fetched seen page) ∧ page.filter s.isFresh = []
  | .finish k => ∃ fresh, s.tick k = some (.exporting seen fresh [] false)
  | _ => False

/-- The collector accepts every export. -/
def CollectorAccepts (_ : State) : Label → Prop
  | .post _ accepted => accepted = true
  | _ => True

/-! ## The condition -/

/-- The terminal events that were in the table when the tick started. -/
def Tick.seen : Tick → List OutboxEvent
  | .fetched seen _ => seen
  | .exporting seen _ _ _ => seen

/-- The events that a tick under way has read. -/
def Tick.events : Tick → List OutboxEvent
  | .fetched _ page => page
  | .exporting _ fresh _ _ => fresh

/-- The events that a tick under way still has to look at. -/
def Tick.pending : Tick → List OutboxEvent
  | .fetched _ page => page
  | .exporting _ _ todo _ => todo

/-- The event is one that has to be exported: its execution has a row. -/
def State.Due (s : State) (event : OutboxEvent) : Prop :=
  event ∈ s.terminal ∧ executionId event ∈ s.rows

/-- The page leaves out no event that is due and not exported, an event that is due is inserted with
a later date than the cursor and than every event that a tick under way has read, and the row of an
execution does not come after its terminal events. -/
def InOrder (s : State) : Label → Prop
  | .insert event => event.eventType.terminal = true → executionId event ∈ s.rows →
    (∀ c, s.cursor = some c → c < event.createdAt) ∧
      ∀ k t, s.tick k = some t → ∀ x ∈ t.events, x.createdAt < event.createdAt
  | .addRow e => ∀ event ∈ s.terminal, executionId event ≠ e
  | .fetch _ page => ∀ x, s.Due x → x ∈ page ∨ x ∈ s.exported
  | l => CollectorAccepts s l

/-! ## The invariant -/

/-- The due events that a tick saw are exported or are those it still has to look at; what came later
is younger than all it has read. -/
structure Tick.Tracks (s : State) (t : Tick) : Prop where
  here : t.seen ⊆ s.terminal
  left : ∀ x ∈ t.seen, s.Due x → x ∈ t.pending ∨ x ∈ s.exported
  later : ∀ x, s.Due x → x ∈ t.seen ∨ ∀ y ∈ t.events, y.createdAt < x.createdAt

structure Inv (s : State) : Prop where
  covered : ∀ c, s.cursor = some c → ∀ x, s.Due x → x.createdAt ≤ c → x ∈ s.exported
  tracks : ∀ k t, s.tick k = some t → t.Tracks s

/-! ## What a step does to the ticks -/

section ticks
variable {s : State} {k j : Nat} {t t' : Tick}

/-- A tick that ends leaves the others. -/
lemma lookup_filter_ne {ticks : List (Nat × Tick)} (h : j ≠ k) :
    (ticks.filter (·.1 ≠ k)).lookup j = ticks.lookup j := by
  induction ticks with
  | nil => rfl
  | cons p ticks ih =>
    obtain ⟨i, t⟩ := p
    by_cases hi : i = k
    · have hji : (j == i) = false := by
        rw [hi]
        exact beq_false_of_ne h
      rw [List.filter_cons_of_neg (by simpa using hi), ih, List.lookup_cons, hji]
    · rw [List.filter_cons_of_pos (by simpa using hi), List.lookup_cons, List.lookup_cons, ih]

/-- A tick that ends is gone. -/
lemma lookup_filter_self {ticks : List (Nat × Tick)} :
    (ticks.filter (·.1 ≠ k)).lookup k = none := by
  induction ticks with
  | nil => rfl
  | cons p ticks ih =>
    obtain ⟨i, t⟩ := p
    by_cases hi : i = k
    · rw [List.filter_cons_of_neg (by simpa using hi), ih]
    · have hki : (k == i) = false := beq_false_of_ne (Ne.symm hi)
      rw [List.filter_cons_of_pos (by simpa using hi), List.lookup_cons, hki]
      exact ih

/-- The ticks after `k` went on as `t`. -/
lemma tick_goOn (h : (s.goOn k t).tick j = some t') : (j = k ∧ t' = t) ∨ s.tick j = some t' := by
  unfold State.tick State.goOn at h
  rw [List.lookup_cons] at h
  by_cases hj : j = k
  · rw [hj, beq_self_eq_true] at h
    exact .inl ⟨hj, (Option.some.inj h).symm⟩
  · rw [beq_false_of_ne hj] at h
    exact .inr ((lookup_filter_ne hj).symm.trans h)

/-- A tick that is there after another's end was there. -/
lemma tick_done (h : (s.done k).tick j = some t') : s.tick j = some t' := by
  by_cases hj : j = k
  · rw [hj] at h
    exact nomatch lookup_filter_self.symm.trans h
  · exact (lookup_filter_ne hj).symm.trans h

end ticks

/-! ## The steps keep the invariant -/

section steps
variable {s s' : State}

/-- A tick that is not itself moved goes on tracking: the table grows, no export is taken back, and
what becomes due is new and younger than all the tick has read. -/
lemma Tick.Tracks.mono {t : Tick} (h : t.Tracks s) (hterminal : s.terminal ⊆ s'.terminal)
    (hexported : s.exported ⊆ s'.exported)
    (hnew : ∀ x, s'.Due x → s.Due x ∨
      (x ∉ s.terminal ∧ ∀ y ∈ t.events, y.createdAt < x.createdAt)) : t.Tracks s' where
  here := List.Subset.trans h.here hterminal
  left := by
    intro x hx hdue
    obtain hold | ⟨hnot, -⟩ := hnew x hdue
    · exact (h.left x hx hold).imp id (fun hmem => hexported hmem)
    · exact absurd (h.here hx) hnot
  later := by
    intro x hdue
    obtain hold | ⟨-, hyoung⟩ := hnew x hdue
    · exact h.later x hold
    · exact .inr hyoung

/-- An event in order keeps the invariant. -/
lemma Inv.insert {event : OutboxEvent} (h : Inv s) (hop : InOrder s (.insert event)) :
    Inv { s with table := s.table ++ [event] } := by
  have hnew : ∀ x, State.Due { s with table := s.table ++ [event] } x → s.Due x ∨
      (x ∉ s.terminal ∧ x = event ∧ event.eventType.terminal = true ∧
        executionId event ∈ s.rows) := by
    rintro x ⟨hx, hrow⟩
    by_cases hold : x ∈ s.terminal
    · exact .inl ⟨hold, hrow⟩
    · unfold State.terminal at hx hold
      rw [List.filter_append, List.mem_append] at hx
      obtain hx | hx := hx
      · exact absurd hx hold
      · obtain ⟨hmem, hterminal⟩ := List.mem_filter.mp hx
        obtain rfl := List.mem_singleton.mp hmem
        exact .inr ⟨hold, rfl, hterminal, hrow⟩
  constructor
  · intro c hc x hdue hle
    obtain hold | ⟨-, rfl, hterminal, hrow⟩ := hnew x hdue
    · exact h.covered c hc x hold hle
    · exact absurd hle (Nat.not_le_of_lt ((hop hterminal hrow).1 c hc))
  · intro k t ht
    refine (h.tracks k t ht).mono ?_ (List.Subset.refl _) fun x hdue => ?_
    · intro x hx
      obtain ⟨hmem, hterminal⟩ := List.mem_filter.mp hx
      exact List.mem_filter.mpr ⟨List.mem_append_left _ hmem, hterminal⟩
    · obtain hold | ⟨hnot, rfl, hterminal, hrow⟩ := hnew x hdue
      · exact .inl hold
      · exact .inr ⟨hnot, (hop hterminal hrow).2 k t ht⟩

/-- So does an execution. -/
lemma Inv.addRow {e : Id} (h : Inv s) (hop : InOrder s (.addRow e)) :
    Inv { s with rows := e :: s.rows } := by
  have hnew : ∀ x, State.Due { s with rows := e :: s.rows } x → s.Due x := by
    rintro x ⟨hx, hrow⟩
    obtain he | hrow := List.mem_cons.mp hrow
    · exact absurd he (hop x hx)
    · exact ⟨hx, hrow⟩
  constructor
  · intro c hc x hdue hle
    exact h.covered c hc x (hnew x hdue) hle
  · intro k t ht
    exact (h.tracks k t ht).mono (List.Subset.refl _) (List.Subset.refl _)
      fun x hdue => .inl (hnew x hdue)

/-- The invariant after a tick moved on, given what it tracks now. -/
lemma Inv.goOn {k : Nat} {t : Tick} (h : Inv s) (ht : t.Tracks s) : Inv (s.goOn k t) where
  covered := h.covered
  tracks := by
    intro j t' ht'
    have htracks : t'.Tracks s := by
      obtain ⟨-, rfl⟩ | hold := tick_goOn ht'
      · exact ht
      · exact h.tracks j t' hold
    exact ⟨htracks.here, htracks.left, htracks.later⟩

/-- So does the end of a tick. -/
lemma Inv.done {k : Nat} (h : Inv s) : Inv (s.done k) where
  covered := h.covered
  tracks := by
    intro j t' ht'
    have htracks := h.tracks j t' (tick_done ht')
    exact ⟨htracks.here, htracks.left, htracks.later⟩

/-- What is not past the cursor is exported already. -/
lemma Inv.stale {x : OutboxEvent} (h : Inv s) (hdue : s.Due x) (hold : s.isFresh x = false) :
    x ∈ s.exported := by
  unfold State.isFresh at hold
  cases hc : s.cursor with
  | none =>
    rw [hc] at hold
    exact nomatch hold
  | some c =>
    rw [hc, Option.all_some, decide_eq_false_iff_not, Nat.not_lt] at hold
    exact h.covered c hc x hdue hold

/-- So does the choice of the fresh events. -/
lemma Inv.sift {k : Nat} {seen page : List OutboxEvent} (h : Inv s)
    (ht : s.tick k = some (.fetched seen page)) :
    Tick.Tracks s (.exporting seen (page.filter s.isFresh) (page.filter s.isFresh) false) := by
  have htracks := h.tracks k _ ht
  refine ⟨htracks.here, fun x hx hdue => ?_, fun x hdue => ?_⟩
  · obtain hpage | hexported := htracks.left x hx hdue
    · cases hfresh : s.isFresh x with
      | true => exact .inl (List.mem_filter.mpr ⟨hpage, hfresh⟩)
      | false => exact .inr (h.stale hdue hfresh)
    · exact .inr hexported
  · exact (htracks.later x hdue).imp id fun hyoung y hy => hyoung y (List.mem_filter.mp hy).1

/-- So does a tick that has sent everything. -/
lemma Inv.finish {k : Nat} {seen fresh : List OutboxEvent} {sent : Bool} (h : Inv s)
    (ht : s.tick k = some (.exporting seen fresh [] sent)) :
    Inv { s with cursor := fresh.getLast?.map OutboxEvent.createdAt } where
  covered := by
    intro c hc x hdue hle
    obtain ⟨last, hlast, rfl⟩ := Option.map_eq_some_iff.mp hc
    have htracks := h.tracks k _ ht
    obtain hseen | hyoung := htracks.later x hdue
    · exact (htracks.left x hseen hdue).resolve_left List.not_mem_nil
    · exact absurd hle (Nat.not_le_of_lt (hyoung last (List.mem_of_getLast? hlast)))
  tracks := by
    intro j t htick
    have htracks := h.tracks j t htick
    exact ⟨htracks.here, htracks.left, htracks.later⟩

/-- Looking at an event that has no row, or exporting it, leaves the rest to look at. -/
lemma Inv.posted (h : Inv s) (event : OutboxEvent) :
    Inv { s with exported := event :: s.exported } where
  covered := fun c hc x hdue hle => List.mem_cons_of_mem _ (h.covered c hc x hdue hle)
  tracks := fun k t ht => (h.tracks k t ht).mono (List.Subset.refl _) (List.subset_cons_self _ _)
    fun _ hdue => .inl hdue

/-- Every step keeps the invariant. -/
lemma inv_step {l : Label} (h : Inv s) (hop : InOrder s l) (took : step s l = some s') : Inv s' := by
  -- a step reads, skips, exports or moves the cursor; only the store grows
  cases l with
  | insert event =>
    obtain rfl := Option.some.inj took
    exact h.insert hop
  | addRow e =>
    obtain rfl := Option.some.inj took
    exact h.addRow hop
  | fetch k page =>
    simp only [step] at took
    split at took
    · obtain rfl := Option.some.inj took
      exact h.goOn ⟨List.Subset.refl _, fun x _ hdue => hop x hdue, fun x hdue => .inl hdue.1⟩
    · cases took
  | sift k =>
    simp only [step] at took
    split at took
    · next seen page ht =>
      split at took
      · obtain rfl := Option.some.inj took
        exact h.done
      · obtain rfl := Option.some.inj took
        exact h.goOn (h.sift ht)
    · cases took
  | skip k =>
    simp only [step] at took
    split at took
    · next seen fresh event todo sent ht =>
      split at took
      · cases took
      · next hrow =>
        obtain rfl := Option.some.inj took
        have htracks := h.tracks k _ ht
        refine h.goOn ⟨htracks.here, fun x hx hdue => ?_, htracks.later⟩
        refine (htracks.left x hx hdue).imp (fun hmem => ?_) id
        refine (List.mem_cons.mp hmem).resolve_left ?_
        rintro rfl
        exact hrow hdue.2
    · cases took
  | post k accepted =>
    obtain rfl : accepted = true := hop
    simp only [step] at took
    split at took
    · next seen fresh event todo sent ht =>
      split at took
      · obtain rfl := Option.some.inj took
        have hexported := h.posted event
        have htracks := hexported.tracks k _ ht
        refine hexported.goOn ⟨htracks.here, fun x hx hdue => ?_, htracks.later⟩
        obtain hmem | hmem := htracks.left x hx hdue
        · obtain rfl | hmem := List.mem_cons.mp hmem
          · exact .inr (List.mem_cons_self ..)
          · exact .inl hmem
        · exact .inr hmem
      · cases took
    · cases took
  | finish k =>
    simp only [step] at took
    split at took
    · next seen fresh sent ht =>
      obtain rfl := Option.some.inj took
      exact (h.finish ht).done
    · cases took

end steps

/-- It holds at the start. -/
lemma inv_start : Inv .start where
  covered := fun _ h => nomatch h
  tracks := fun _ _ h => nomatch h

/-- It holds in every state that is reached. -/
lemma inv_reachable {s : State} (h : Reachable InOrder s) : Inv s := by
  induction h with
  | start => exact inv_start
  | step _ admitted took ih => exact inv_step ih admitted took

/-- In a run whose steps are in order, a tick that ends without an export leaves no due event of those
it saw that has not been exported. -/
theorem no_terminal_event_lost {s : State} {l : Label} {seen : List OutboxEvent}
    (h : Reachable InOrder s) (hend : EndsSilently s seen l) :
    ∀ event ∈ seen, executionId event ∈ s.rows → event ∈ s.exported := by
  have hinv := inv_reachable h
  intro event hseen hrow
  cases l with
  | sift k =>
    obtain ⟨page, ht, hnone⟩ := hend
    have htracks := hinv.tracks k _ ht
    have hdue : s.Due event := ⟨htracks.here hseen, hrow⟩
    obtain hpage | hexported := htracks.left event hseen hdue
    · cases hfresh : s.isFresh event with
      | true =>
        have hmem : event ∈ page.filter s.isFresh := List.mem_filter.mpr ⟨hpage, hfresh⟩
        rw [hnone] at hmem
        exact absurd hmem List.not_mem_nil
      | false => exact hinv.stale hdue hfresh
    · exact hexported
  | finish k =>
    obtain ⟨fresh, ht⟩ := hend
    have htracks := hinv.tracks k _ ht
    exact (htracks.left event hseen ⟨htracks.here hseen, hrow⟩).resolve_left List.not_mem_nil
  | insert event => exact hend.elim
  | addRow e => exact hend.elim
  | fetch k page => exact hend.elim
  | skip k => exact hend.elim
  | post k accepted => exact hend.elim

/-! ## Two runs -/

/-- The steps one after the other, if each passes the check and can be taken. -/
def runAll (check : State → Label → Bool) (s : State) (labels : List Label) : Option State :=
  labels.foldlM (fun s l => if check s l then step s l else none) s

/-- What the steps of a list reach, if the check is enough for the condition. -/
lemma reachable_runAll {G : State → Label → Prop} {check : State → Label → Bool}
    {labels : List Label} {s s' : State} (hcheck : ∀ s l, check s l = true → G s l)
    (h : Reachable G s) (hrun : runAll check s labels = some s') : Reachable G s' := by
  induction labels generalizing s with
  | nil =>
    obtain rfl := Option.some.inj hrun
    exact h
  | cons l labels ih =>
    obtain ⟨s₁, hstep, hrest⟩ := Option.bind_eq_some_iff.mp hrun
    obtain ⟨hpasses, htook⟩ := Option.ite_none_right_eq_some.mp hstep
    exact ih (h.step (hcheck s l hpasses) htook) hrest

/-- A check that is enough for a step to be in order: it looks at every terminal event and at every
tick. -/
def State.ordered (s : State) : Label → Bool
  | .insert event =>
    s.cursor.all (· < event.createdAt) &&
      s.ticks.all fun entry => entry.2.events.all (·.createdAt < event.createdAt)
  | .addRow e => s.terminal.all (executionId · ≠ e)
  | .fetch _ page => s.terminal.all fun event => page.contains event || s.exported.contains event
  | .post _ accepted => accepted
  | .sift _ => true
  | .skip _ => true
  | .finish _ => true

/-- A step that passes the check is in order. -/
lemma inOrder_of_ordered (s : State) (l : Label) (h : s.ordered l = true) : InOrder s l := by
  cases l with
  | insert event =>
    intro _ _
    obtain ⟨hcursor, hticks⟩ := Bool.and_eq_true_iff.mp h
    refine ⟨fun c hc => ?_, fun k t ht x hx => ?_⟩
    · rw [hc] at hcursor
      exact of_decide_eq_true hcursor
    · obtain ⟨before, after, heq, _⟩ := List.lookup_eq_some_iff.mp ht
      have hmem : (k, t) ∈ s.ticks := heq ▸ List.mem_append_right _ (List.mem_cons_self ..)
      exact of_decide_eq_true (List.all_eq_true.mp (List.all_eq_true.mp hticks _ hmem) x hx)
  | addRow e => exact fun event hevent => of_decide_eq_true (List.all_eq_true.mp h event hevent)
  | fetch k page =>
    intro x hx
    have hfound := Bool.or_eq_true_iff.mp (List.all_eq_true.mp h x hx.1)
    exact hfound.imp List.contains_iff_mem.mp List.contains_iff_mem.mp
  | post k accepted => exact h
  | sift k => trivial
  | skip k => trivial
  | finish k => trivial

/-- The completion of the execution `n` at the time `n`. -/
def completion (n : Nat) : OutboxEvent where
  id := n
  workspaceId := 1
  eventType := .executionCompleted
  aggregateId := n
  payload := { workspaceId := 1, executionId := some n }
  createdAt := n

/-- Two ticks that overlap and export the first two events both, a third event that is inserted while
they do, a tick for it, and one that finds nothing new. -/
def overlapping : List Label :=
  [.addRow 1, .insert (completion 1), .addRow 2, .insert (completion 2),
    .fetch 0 [completion 1, completion 2], .fetch 1 [completion 1, completion 2], .sift 0, .sift 1,
    .post 0 true, .addRow 3, .insert (completion 3), .post 1 true, .post 0 true, .finish 0,
    .post 1 true, .finish 1,
    .fetch 2 [completion 1, completion 2, completion 3], .sift 2, .post 2 true, .finish 2,
    .fetch 3 [completion 1, completion 2, completion 3]]

/-- The state before the last tick looks at its page. -/
def overlapped : State :=
  (runAll State.ordered .start overlapping).getD .start

/-- The ticks export everything, in whatever order they go on. -/
theorem overlapping_ticks_lose_nothing :
    completion 1 ∈ overlapped.exported ∧ completion 2 ∈ overlapped.exported ∧
      completion 3 ∈ overlapped.exported := by
  have hrun : (runAll State.ordered .start overlapping).isSome = true := by decide +kernel
  obtain ⟨s, hs⟩ := Option.isSome_iff_exists.mp hrun
  have hreached : overlapped = s := by
    unfold overlapped
    rw [hs, Option.getD_some]
  have hreachable : Reachable InOrder overlapped :=
    hreached ▸ reachable_runAll inOrder_of_ordered .start hs
  have hsilent : EndsSilently overlapped [completion 1, completion 2, completion 3] (.sift 3) :=
    ⟨[completion 1, completion 2, completion 3], by decide +kernel, by decide +kernel⟩
  have hkept := no_terminal_event_lost hreachable hsilent
  exact ⟨hkept (completion 1) (by decide) (by decide +kernel),
    hkept (completion 2) (by decide) (by decide +kernel),
    hkept (completion 3) (by decide) (by decide +kernel)⟩

/-- Twenty-one completed executions, a tick that exports the first page, and the start of the next. -/
def fullPage : List Label :=
  (List.range 21).flatMap (fun n => [.addRow n, .insert (completion n)]) ++
    [.fetch 0 ((List.range 20).map completion), .sift 0] ++ List.replicate 20 (.post 0 true) ++
    [.finish 0, .fetch 1 ((List.range 20).map completion)]

instance (s : State) : DecidablePred (CollectorAccepts s)
  | .post _ accepted => inferInstanceAs (Decidable (accepted = true))
  | .insert _ => isTrue trivial
  | .addRow _ => isTrue trivial
  | .fetch _ _ => isTrue trivial
  | .sift _ => isTrue trivial
  | .skip _ => isTrue trivial
  | .finish _ => isTrue trivial

/-- The page is always the twenty oldest events, exported or not: the twenty-first is never reached. -/
theorem twenty_first_event_lost :
    ¬ ∀ s l seen, Reachable CollectorAccepts s → EndsSilently s seen l →
      ∀ event ∈ seen, executionId event ∈ s.rows → event ∈ s.exported := by
  intro h
  have hrun : (runAll (fun s l => decide (CollectorAccepts s l)) .start fullPage).any (fun s =>
      (s.tick 1 = some (.fetched ((List.range 21).map completion) ((List.range 20).map completion)) ∧
        ((List.range 20).map completion).filter s.isFresh = [] ∧
        20 ∈ s.rows ∧ completion 20 ∉ s.exported)) = true := by
    decide +kernel
  obtain ⟨s, hs, hstate⟩ := (Option.any_eq_true ..).mp hrun
  obtain ⟨htick, hstale, hrow, hlost⟩ := of_decide_eq_true hstate
  have hreachable : Reachable CollectorAccepts s :=
    reachable_runAll (fun _ _ haccepts => of_decide_eq_true haccepts) .start hs
  refine hlost (h s (.sift 1) _ hreachable ⟨_, htick, hstale⟩ (completion 20) ?_ hrow)
  exact List.mem_map_of_mem (List.mem_range.mpr (by decide))

end NexusClaw.Governance.OtelAuditExporter
