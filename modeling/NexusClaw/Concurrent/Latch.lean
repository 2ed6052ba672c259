import NexusClaw.Concurrent.Outline
import NexusClaw.Concurrent.Table

/-!
# Columns that are written once

A value latches when it changes at most once, and then from an empty one: `Latch empty x y` is one such
move from `x` to `y`. The moves compose, so a column of a table that latches at every statement latches
over every schedule (`Latched`), and what was read from a row that was no longer empty is still there
(`Latched.kept`).
-/

namespace Concurrent

variable {α κ ρ : Type} {empty : α → Prop}

/-- The value is as it was, or it was empty and is no longer. -/
def Latch (empty : α → Prop) (x y : α) : Prop :=
  y = x ∨ empty x ∧ ¬ empty y

/-- A value stays. -/
lemma Latch.refl (x : α) : Latch empty x x := .inl rfl

/-- A value that is not empty stays. -/
lemma Latch.kept {x y : α} (h : Latch empty x y) (hx : ¬ empty x) : y = x := by
  rcases h with heq | ⟨hempty, -⟩
  · exact heq
  · exact absurd hempty hx

/-- Over two steps. -/
lemma Latch.trans {x y z : α} (h : Latch empty x y) (h' : Latch empty y z) : Latch empty x z := by
  rcases h with rfl | ⟨hx, hy⟩
  · exact h'
  · rw [h'.kept hy]
    exact .inr ⟨hx, hy⟩

/-- At most one change: a value that differs from the first one is the last. -/
lemma Latch.once {x y z : α} (h : Latch empty x y) (h' : Latch empty y z) (hne : y ≠ x) :
    empty x ∧ ¬ empty y ∧ z = y := by
  rcases h with heq | ⟨hx, hy⟩
  · exact absurd heq hne
  · exact ⟨hx, hy, h'.kept hy⟩

/-- Every row is still there, and its column `f` latches. -/
def Latched (f : ρ → α) (empty : α → Prop) (t t' : Table κ ρ) : Prop :=
  ∀ k r, t k = some r → ∃ r', t' k = some r' ∧ Latch empty (f r) (f r')

section latched
variable {f : ρ → α} {t t' t'' : Table κ ρ}

/-- A table stays. -/
lemma Latched.refl (t : Table κ ρ) : Latched f empty t t :=
  fun _ r h => ⟨r, h, Latch.refl _⟩

/-- Over two steps. -/
lemma Latched.trans (h : Latched f empty t t') (h' : Latched f empty t' t'') :
    Latched f empty t t'' := by
  intro k r hr
  obtain ⟨r', hr', hlatch⟩ := h k r hr
  obtain ⟨r'', hr'', hlatch'⟩ := h' k r' hr'
  exact ⟨r'', hr'', hlatch.trans hlatch'⟩

/-- An update by key of a row whose column latches. -/
lemma Latched.put [DecidableEq κ] {k : κ} {r r' : ρ} (hr : t k = some r)
    (h : Latch empty (f r) (f r')) : Latched f empty t (t.put k r') := by
  intro j s hs
  by_cases e : j = k
  · subst e
    rw [hr] at hs
    cases hs
    exact ⟨r', Table.put_self .., h⟩
  · rw [Table.put_of_ne _ _ e]
    exact ⟨s, hs, Latch.refl _⟩

/-- A column that is not empty stays. -/
lemma Latched.kept (h : Latched f empty t t') {k : κ} {r : ρ} (hr : t k = some r)
    (hne : ¬ empty (f r)) : ∃ r', t' k = some r' ∧ f r' = f r := by
  obtain ⟨r', hr', hlatch⟩ := h k r hr
  exact ⟨r', hr', hlatch.kept hne⟩

end latched

section pool
variable {S : Type} {R : S → Type} {ε β ι σ : Type} [DecidableEq ι] {exec : (s : S) → σ → σ × R s}

/-- What a statement reads stays true of the world from then on: `J` is a property of an observation
and a world that holds when the observation is made and that no statement destroys. -/
lemma Pool.observed_play {J : Sigma R → σ → Prop}
    (seen : ∀ s w, J ⟨s, (exec s w).2⟩ (exec s w).1)
    (step : ∀ o s w, J o w → J o (exec s w).1) (w : σ) (p : ι → Prog S R ε β) (sched : List ι) :
    ∀ i, ∀ o ∈ ((Pool.start w p).play exec sched).seen i,
      J o ((Pool.start w p).play exec sched).world := by
  refine Pool.play_invariant exec (I := fun c => ∀ i, ∀ o ∈ c.seen i, J o c.world) ?_
    (fun _ _ h => by cases h) sched
  intro c j hc
  cases hj : c.thread j with
  | ret a => rw [Pool.advance_ret hj]; exact hc
  | throw e => rw [Pool.advance_throw hj]; exact hc
  | stmt s k =>
    rw [Pool.advance_stmt hj]
    intro i o ho
    by_cases e : i = j
    · subst e
      simp only [Function.update_self, List.mem_append, List.mem_singleton] at ho
      rcases ho with ho | rfl
      · exact step o s _ (hc i o ho)
      · exact seen s _
    · simp only [Function.update_of_ne e] at ho
      exact step o s _ (hc i o ho)

end pool

end Concurrent
