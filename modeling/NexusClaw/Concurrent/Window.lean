import Mathlib.Data.List.Count
import Mathlib.Order.MinMax

/-!
# Counting in fixed windows

A limiter that counts in a window and starts a new one from time to time bounds the events of every
interval of the window's width, provided that nothing recent is forgotten: a window starts when
everything before it is at least one width old, and no event is counted that comes before the start of
its window. `Counts` is what a window then knows of the events so far; the clock need not be monotone.
-/

namespace Concurrent

variable {width : Int} {limit count : Nat} {times old recent : List Int} {now start : Int}

/-- The number of events from `t` up to `t + width`. -/
def within (width t : Int) (times : List Int) : Nat :=
  times.countP fun s => decide (t ≤ s ∧ s < t + width)

/-- At most `limit` events in every interval. -/
def Bounded (width : Int) (limit : Nat) (times : List Int) : Prop :=
  ∀ t, within width t times ≤ limit

/-- Nothing of `times` is less than one width before `now`. -/
def Quiet (width now : Int) (times : List Int) : Prop :=
  ∀ s ∈ times, s + width ≤ now

/-- The window from `start` has counted the last `count` events; the others are old. -/
structure Counts (width : Int) (limit : Nat) (times : List Int) (start : Int) (count : Nat) :
    Prop where
  le : count ≤ limit
  split : ∃ recent old, times = recent ++ old ∧ recent.length = count ∧ (∀ s ∈ recent, start ≤ s) ∧
    Quiet width start old ∧ Bounded width limit old

/-- Nothing happened within the window. -/
@[simp] lemma within_nil (t : Int) : within width t [] = 0 := rfl

/-- What happened in two parts. -/
lemma within_append (t : Int) :
    within width t (recent ++ old) = within width t recent + within width t old :=
  List.countP_append

/-- No more than everything happened within it. -/
lemma within_le_length (t : Int) : within width t times ≤ times.length :=
  List.countP_le_length

/-- Nothing is within the limit. -/
lemma bounded_nil : Bounded width limit [] := fun _ => Nat.zero_le _

/-- An interval that reaches an old event ends before the window starts. -/
lemma within_recent_eq_zero {t : Int} (hrecent : ∀ s ∈ recent, start ≤ s)
    (hold : Quiet width start old) (h : within width t old ≠ 0) : within width t recent = 0 := by
  obtain ⟨s, hs, hin⟩ := List.countP_pos_iff.mp (Nat.pos_of_ne_zero h)
  have hend := hold s hs
  apply List.countP_eq_zero.mpr
  intro r hr hr'
  have hstart := hrecent r hr
  simp only [decide_eq_true_eq] at hin hr'
  omega

/-- What a window has counted is within the limit. -/
lemma Counts.bounded (h : Counts width limit times start count) : Bounded width limit times := by
  obtain ⟨recent, old, rfl, hlength, hrecent, hquiet, hold⟩ := h.split
  intro t
  rw [within_append]
  by_cases hzero : within width t old = 0
  · have hle : within width t recent ≤ recent.length := within_le_length t
    have := h.le
    omega
  · rw [within_recent_eq_zero hrecent hquiet hzero]
    have := hold t
    omega

/-- A new window, when everything is old. -/
lemma Counts.restart (hbounded : Bounded width limit times) (hquiet : Quiet width now times) :
    Counts width limit times now 0 :=
  ⟨Nat.zero_le _, [], times, rfl, rfl, nofun, hquiet, hbounded⟩

/-- One more event, below the limit. -/
lemma Counts.succ (h : Counts width limit times start count) (hlt : count < limit)
    (hstart : start ≤ now) : Counts width limit (now :: times) start (count + 1) := by
  obtain ⟨recent, old, rfl, hlength, hrecent, hquiet, hold⟩ := h.split
  refine ⟨hlt, now :: recent, old, rfl, ?_, ?_, hquiet, hold⟩
  · rw [List.length_cons, hlength]
  · intro s hs
    rcases List.mem_cons.mp hs with rfl | hs
    · exact hstart
    · exact hrecent s hs

end Concurrent
