import NexusClaw.Concurrent.Outline

/-!
# Deeds under an exclusive right

A pattern of at-most-once arguments. A program may do something (`deed`) only when its history gives
it a right (`right`), no two programs hold the right, and none does the deed twice; then the deed is
done at most once, which a count `n` of the world records. `Exclusive` is this as an invariant, with
one rule for the steps that are no deed and one for the deed.
-/

namespace Concurrent

variable {S : Type} {R : S → Type} {σ ι : Type} [DecidableEq ι]

/-- At most one program has the right, only it has done the deed, and the count of the deed has
grown from `base` by at most one. -/
structure Exclusive (right : ι → History S R → Prop) (deed : Sigma R → Prop) (n : σ → Nat)
    (base : Nat) (w : σ) (H : ι → History S R) : Prop where
  unique : ∀ i j, right i (H i) → right j (H j) → i = j
  holder : ∀ i, Did deed (H i) → right i (H i)
  untouched : (∀ i, ¬ Did deed (H i)) → n w = base
  bound : n w ≤ base + 1

namespace Exclusive

variable {right : ι → History S R → Prop} {deed : Sigma R → Prop} {n : σ → Nat} {base : Nat}
  {w w' : σ} {H : ι → History S R} {i : ι} {s : S} {r : R s}

omit [DecidableEq ι] in
/-- Before the first step nobody has the right. -/
lemma start (h : ∀ i, ¬ right i []) : Exclusive right deed n (n w) w fun _ => [] where
  unique := fun i _ hi => absurd hi (h i)
  holder := fun _ hd => absurd hd (did_nil _)
  untouched := fun _ => rfl
  bound := Nat.le_succ _

/-- A step that is no deed; whoever gains the right by it must be alone. -/
lemma keep (hE : Exclusive right deed n base w H) (hd : ¬ deed ⟨s, r⟩)
    (mono : right i (H i) → right i (H i ++ [⟨s, r⟩]))
    (alone : right i (H i ++ [⟨s, r⟩]) → right i (H i) ∨ ∀ j, j ≠ i → ¬ right j (H j))
    (hn : n w' = n w) : Exclusive right deed n base w' (observe H i s r) := by
  have old : ∀ j, right j (observe H i s r j) → j ≠ i → right j (H j) := by
    intro j hj hne
    rwa [observe_of_ne H s r hne] at hj
  have new : ∀ j, right i (observe H i s r i) → right j (H j) → j = i := by
    intro j hi hj
    rw [observe_self] at hi
    by_cases hne : j = i
    · exact hne
    · obtain h | h := alone hi
      · exact hE.unique j i hj h
      · exact absurd hj (h j hne)
  constructor
  case unique =>
    intro j k hj hk
    -- the program that takes the step may have gained the right, the others have theirs as before
    by_cases ej : j = i
    · by_cases ek : k = i
      · rw [ej, ek]
      · subst ej
        exact (new k hj (old k hk ek)).symm
    · by_cases ek : k = i
      · subst ek
        exact new j hk (old j hj ej)
      · exact hE.unique j k (old j hj ej) (old k hk ek)
  case holder =>
    intro j hj
    have hr := hE.holder j ((did_observe_of_not hd j).mp hj)
    by_cases e : j = i
    · subst e
      rw [observe_self]
      exact mono hr
    · rwa [observe_of_ne H s r e]
  case untouched =>
    intro h
    rw [hn]
    exact hE.untouched fun j hj => h j ((did_observe_of_not hd j).mpr hj)
  case bound => rw [hn]; exact hE.bound

/-- The deed, by a program that has the right and has not done it. -/
lemma perform (hE : Exclusive right deed n base w H) (hd : deed ⟨s, r⟩)
    (hr : right i (H i)) (hnot : ¬ Did deed (H i))
    (mono : right i (H i) → right i (H i ++ [⟨s, r⟩])) (hn : n w' = n w + 1) :
    Exclusive right deed n base w' (observe H i s r) := by
  have hnone : ∀ j, ¬ Did deed (H j) := by
    intro j hj
    obtain rfl := hE.unique j i (hE.holder j hj) hr
    exact hnot hj
  have hright : ∀ j, right j (observe H i s r j) → right j (H j) := by
    intro j hj
    by_cases e : j = i
    · subst e
      exact hr
    · rwa [observe_of_ne H s r e] at hj
  constructor
  case unique => exact fun j k hj hk => hE.unique j k (hright j hj) (hright k hk)
  case holder =>
    intro j hj
    obtain h | ⟨rfl, -⟩ := (did_observe ..).mp hj
    · exact absurd h (hnone j)
    · rw [observe_self]
      exact mono hr
  case untouched => exact fun h => absurd ((did_observe ..).mpr (.inr ⟨rfl, hd⟩)) (h i)
  case bound => exact Nat.le_of_eq (hn.trans (congrArg (· + 1) (hE.untouched hnone)))

end Exclusive

end Concurrent
