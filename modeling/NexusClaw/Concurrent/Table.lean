import Mathlib.Tactic.Common
import Mathlib.Logic.Function.Basic

/-!
# Keyed tables

A table with a primary key is a partial function from keys to rows. `Table.put` is an insert or a
whole-row save, `Table.modify` an update by key, which changes nothing when the row is missing.
-/

namespace Concurrent

/-- A table: at most one row for each key. -/
abbrev Table (κ ρ : Type) : Type :=
  κ → Option ρ

namespace Table

variable {κ ρ : Type} [DecidableEq κ]

def put (t : Table κ ρ) (k : κ) (r : ρ) : Table κ ρ :=
  Function.update t k (some r)

def modify (t : Table κ ρ) (k : κ) (f : ρ → ρ) : Table κ ρ :=
  Function.update t k ((t k).map f)

/-- A row that is put is found. -/
@[simp] lemma put_self (t : Table κ ρ) (k : κ) (r : ρ) : t.put k r k = some r :=
  Function.update_self ..

/-- The others stay. -/
lemma put_of_ne (t : Table κ ρ) {k j : κ} (r : ρ) (h : j ≠ k) : t.put k r j = t j :=
  Function.update_of_ne h ..

/-- A row that is modified. -/
@[simp] lemma modify_self (t : Table κ ρ) (k : κ) (f : ρ → ρ) :
    t.modify k f k = (t k).map f :=
  Function.update_self ..

/-- The others stay. -/
lemma modify_of_ne (t : Table κ ρ) {k j : κ} (f : ρ → ρ) (h : j ≠ k) : t.modify k f j = t j :=
  Function.update_of_ne h ..

/-- A modified table at any key. -/
lemma modify_apply (t : Table κ ρ) (k j : κ) (f : ρ → ρ) :
    t.modify k f j = if j = k then (t j).map f else t j := by
  by_cases h : j = k
  · subst h; simp
  · simp [h, modify_of_ne t f h]

/-- A table with a row put at any key. -/
lemma put_apply (t : Table κ ρ) (k j : κ) (r : ρ) :
    t.put k r j = if j = k then some r else t j := by
  by_cases h : j = k
  · subst h; simp
  · simp [h, put_of_ne t r h]

/-- An update by key of a row that is there. -/
lemma modify_some {t : Table κ ρ} {k : κ} {r : ρ} (f : ρ → ρ) (h : t k = some r) :
    t.modify k f k = some (f r) := by
  rw [modify_self, h]; rfl

/-- A row after an update by key comes from a row before it. -/
lemma modify_eq_some {t : Table κ ρ} {k j : κ} {f : ρ → ρ} {r : ρ} (h : t.modify k f j = some r) :
    ∃ r₀, t j = some r₀ ∧ r = if j = k then f r₀ else r₀ := by
  rw [modify_apply] at h
  by_cases e : j = k
  · rw [if_pos e] at h
    obtain ⟨r₀, h₀, rfl⟩ := Option.map_eq_some_iff.mp h
    exact ⟨r₀, h₀, by rw [if_pos e]⟩
  · rw [if_neg e] at h
    exact ⟨r, h, by rw [if_neg e]⟩

end Table

end Concurrent
