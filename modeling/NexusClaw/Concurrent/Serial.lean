import Mathlib.Data.List.Basic

/-!
# Serial runs

A run of operations one after the other is a fold of the step function. `Meets step G w ops` says
that every operation of the run from `w` satisfies the condition `G` in the world it finds;
`Meets.inv` is the rule of invariants for runs whose steps are constrained this way, and
`Meets.follows` its relational form: what every step relates, the two ends of the run are related by.
-/

namespace Concurrent

variable {σ Op : Type} {step : σ → Op → σ} {G G' : σ → Op → Prop}

/-- Every operation of the run from `w` satisfies `G` in the world it finds. -/
def Meets (step : σ → Op → σ) (G : σ → Op → Prop) : σ → List Op → Prop
  | _, [] => True
  | w, op :: ops => G w op ∧ Meets step G (step w op) ops

/-- No step meets the condition. -/
@[simp] lemma meets_nil {w : σ} : Meets step G w [] := trivial

/-- The first step and the rest. -/
@[simp] lemma meets_cons {w : σ} {op : Op} {ops : List Op} :
    Meets step G w (op :: ops) ↔ G w op ∧ Meets step G (step w op) ops := Iff.rfl

/-- The steps of two lists. -/
@[simp] lemma meets_append {w : σ} {ops ops' : List Op} :
    Meets step G w (ops ++ ops') ↔ Meets step G w ops ∧ Meets step G (ops.foldl step w) ops' := by
  induction ops generalizing w with
  | nil => simp
  | cons op ops ih => simp [ih, and_assoc]

/-- What an admitted step keeps, an admitted run keeps. -/
lemma Meets.inv {I : σ → Prop} (hstep : ∀ w op, I w → G w op → I (step w op)) {w : σ}
    {ops : List Op} (h : Meets step G w ops) (hw : I w) : I (ops.foldl step w) := by
  induction ops generalizing w with
  | nil => exact hw
  | cons op ops ih => exact ih h.2 (hstep w op hw h.1)

/-- An invariant may be used to change the condition. -/
lemma Meets.mono {I : σ → Prop} (hI : ∀ w op, I w → G w op → I (step w op))
    (hG : ∀ w op, I w → G w op → G' w op) {w : σ} {ops : List Op} (h : Meets step G w ops)
    (hw : I w) : Meets step G' w ops := by
  induction ops generalizing w with
  | nil => trivial
  | cons op ops ih => exact ⟨hG w op hw h.1, ih h.2 (hI w op hw h.1)⟩

/-- A reflexive and transitive relation that every step respects relates the two ends of a run. -/
lemma Meets.follows {I : σ → Prop} {T : σ → σ → Prop} (refl : ∀ w, T w w)
    (trans : ∀ a b c, T a b → T b c → T a c) (hI : ∀ w op, I w → G w op → I (step w op))
    (hT : ∀ w op, I w → G w op → T w (step w op)) {w : σ} {ops : List Op}
    (h : Meets step G w ops) (hw : I w) : T w (ops.foldl step w) := by
  induction ops generalizing w with
  | nil => exact refl w
  | cons op ops ih => exact trans _ _ _ (hT w op hw h.1) (ih h.2 (hI w op hw h.1))

/-- The condition read off at every operation of the run. -/
lemma meets_iff {w : σ} {ops : List Op} :
    Meets step G w ops ↔
      ∀ before op after, ops = before ++ op :: after → G (before.foldl step w) op := by
  constructor
  · rintro h before op after rfl
    exact (meets_append.mp h).2.1
  · intro h
    induction ops generalizing w with
    | nil => trivial
    | cons op ops ih =>
      refine ⟨h [] op ops rfl, ih fun before op' after e => ?_⟩
      exact h (op :: before) op' after (by rw [e, List.cons_append])

end Concurrent
