import Mathlib.Algebra.BigOperators.Group.List.Basic
import Mathlib.Algebra.Order.Ring.Rat
import Mathlib.Data.Rat.Floor
import Mathlib.Order.WithBot

/-!
# Numbers of the source

A number that no check has gone over: it may be NaN or infinite, and a finite one is the rational that
the double denotes. Sums are rounded, by a `Rounding` of which only the laws below are used.
-/

namespace NexusClaw

inductive Double where
  | nan
  | infinite (negative : Bool)
  | finite (q : Rat)
deriving DecidableEq

namespace Double

/-- The truth test. -/
def truthy : Double → Bool
  | nan => false
  | infinite _ => true
  | finite q => q ≠ 0

/-- `n || 0` for a number that may be absent. -/
def orZero : Option Double → Double
  | none => finite 0
  | some n => if n.truthy then n else finite 0

/-- Where a number stands on the extended line; NaN stands nowhere. -/
def place : Double → Option (WithBot (WithTop Rat))
  | nan => none
  | infinite true => some ⊥
  | infinite false => some ((⊤ : WithTop Rat) : WithBot (WithTop Rat))
  | finite q => some ((q : WithTop Rat) : WithBot (WithTop Rat))

/-- `-a` -/
def neg : Double → Double
  | nan => nan
  | infinite negative => infinite !negative
  | finite q => finite (-q)

/-- A number as a count or a position, without its fraction; one below zero counts as zero. -/
def toNat : Double → Nat
  | finite q => ⌊q⌋.toNat
  | _ => 0

/-- `a > b` -/
def gt (a b : Double) : Bool :=
  match a.place, b.place with
  | some x, some y => decide (y < x)
  | _, _ => false

/-- `a <= b` -/
def le (a b : Double) : Bool :=
  match a.place, b.place with
  | some x, some y => decide (x ≤ y)
  | _, _ => false

/-- When one double is no greater than another. -/
lemma le_iff {a b : Double} : a.le b = true ↔
    ∃ x y, a.place = some x ∧ b.place = some y ∧ x ≤ y := by
  unfold le
  cases ha : a.place with
  | none => simp
  | some x =>
    cases hb : b.place with
    | none => simp
    | some y => simp

/-- The order is transitive. -/
lemma le_trans {a b c : Double} (h : a.le b = true) (h' : b.le c = true) : a.le c = true := by
  obtain ⟨x, y, hx, hy, hxy⟩ := le_iff.1 h
  obtain ⟨y', z, hy', hz, hyz⟩ := le_iff.1 h'
  obtain rfl := Option.some.inj (hy.symm.trans hy')
  exact le_iff.2 ⟨x, z, hx, hz, hxy.trans hyz⟩

/-- Of two numbers that are not NaN, one is at most the other or greater. -/
lemma le_of_not_gt {a b : Double} (ha : a ≠ nan) (hb : b ≠ nan) (h : a.gt b = false) :
    a.le b = true := by
  have hplace (n : Double) (hn : n ≠ nan) : ∃ x, n.place = some x := by
    cases n with
    | nan => exact absurd rfl hn
    | infinite negative => cases negative <;> exact ⟨_, rfl⟩
    | finite q => exact ⟨_, rfl⟩
  obtain ⟨x, hx⟩ := hplace a ha
  obtain ⟨y, hy⟩ := hplace b hb
  refine le_iff.2 ⟨x, y, hx, hy, not_lt.1 fun hlt => ?_⟩
  simp [gt, hx, hy, hlt] at h

/-- What compares is a number. -/
lemma ne_nan_of_le {a b : Double} (h : a.le b = true) : a ≠ nan ∧ b ≠ nan := by
  obtain ⟨x, y, hx, hy, _⟩ := le_iff.1 h
  constructor
  · rintro rfl
    cases hx
  · rintro rfl
    cases hy

/-- Finite doubles compare as their values. -/
lemma finite_le {p q : Rat} : (finite p).le (finite q) = true ↔ p ≤ q := by
  simp [le, place]

/-- A number at least zero is finite or the positive infinity. -/
lemma zero_le_cases {a : Double} (h : (finite 0).le a = true) :
    a = infinite false ∨ ∃ q, 0 ≤ q ∧ a = finite q := by
  cases a with
  | nan => cases h
  | infinite negative =>
    cases negative with
    | true => simp [le, place] at h
    | false => exact .inl rfl
  | finite q => exact .inr ⟨q, finite_le.1 h, rfl⟩

end Double

/-- Rounding to a double: it keeps the order, and a double stays as it is. -/
structure Rounding where
  round : Rat → Double
  zero : round 0 = .finite 0
  mono : ∀ p q, p ≤ q → (round p).le (round q) = true
  fixed : ∀ p q, round p = .finite q → round q = .finite q

namespace Rounding

/-- `a + b` -/
def add (r : Rounding) : Double → Double → Double
  | .nan, _ => .nan
  | _, .nan => .nan
  | .infinite a, .infinite b => if a = b then .infinite a else .nan
  | .infinite a, .finite _ => .infinite a
  | .finite _, .infinite b => .infinite b
  | .finite p, .finite q => r.round (p + q)

/-- `a - b` -/
def sub (r : Rounding) (a b : Double) : Double :=
  r.add a b.neg

/-- A sum that is never negative and never NaN, as sums of amounts from zero on are. -/
structure Positive (r : Rounding) (n : Double) : Prop where
  nonneg : (Double.finite 0).le n = true
  rounded : ∀ q, n = .finite q → r.round q = .finite q

variable {r : Rounding} {a b : Double}

/-- Zero is not negative. -/
lemma positive_zero (r : Rounding) : r.Positive (.finite 0) := by
  refine ⟨Double.finite_le.2 le_rfl, fun q h => ?_⟩
  obtain rfl := Double.finite.inj h
  exact r.zero

/-- Adding an amount of at least zero goes up. -/
lemma Positive.add (ha : r.Positive a) (hb : (Double.finite 0).le b = true) :
    r.Positive (r.add a b) ∧ a.le (r.add a b) = true := by
  rcases Double.zero_le_cases ha.nonneg with rfl | ⟨p, hp, rfl⟩
  · have hadd : r.add (.infinite false) b = .infinite false := by
      rcases Double.zero_le_cases hb with rfl | ⟨q, _, rfl⟩ <;> rfl
    rw [hadd]
    exact ⟨ha, by decide⟩
  · rcases Double.zero_le_cases hb with rfl | ⟨q, hq, rfl⟩
    · exact ⟨⟨by simp [Rounding.add, Double.le, Double.place], nofun⟩,
        by simp [Rounding.add, Double.le, Double.place]⟩
    · have hup : (Double.finite p).le (r.round (p + q)) = true := by
        have h := r.mono p (p + q) (le_add_of_nonneg_right hq)
        rwa [ha.rounded p rfl] at h
      exact ⟨⟨Double.le_trans ha.nonneg hup, fun s hs => r.fixed _ s hs⟩, hup⟩

/-- Numbers small enough to be taken exactly. -/
def exact : Rounding where
  round := .finite
  zero := rfl
  mono := fun _ _ h => Double.finite_le.2 h
  fixed := fun _ _ _ => rfl

end Rounding

/-- Rounding that takes whole numbers of up to 53 bits as they are. -/
structure WholeRounding extends Rounding where
  whole : ∀ n : Int, n.natAbs ≤ 2 ^ 53 → round n = .finite n

namespace WholeRounding

/-- A sum of whole numbers is exact while it has room for all of them. -/
lemma foldl_add (r : WholeRounding) {bound : Nat} {ns : List Int} {s : Int}
    (hbound : ∀ n ∈ ns, n.natAbs ≤ bound) (hroom : s.natAbs + ns.length * bound ≤ 2 ^ 53) :
    ns.foldl (fun (sum : Double) (n : Int) => r.add sum (.finite n)) (.finite s) =
      .finite ((s + ns.sum : Int) : Rat) := by
  induction ns generalizing s with
  | nil => simp
  | cons n ns ih =>
    have hn := hbound n (List.mem_cons_self ..)
    have hsum : (s + n).natAbs ≤ s.natAbs + n.natAbs := Int.natAbs_add_le s n
    have hlength : (n :: ns).length * bound = ns.length * bound + bound := by
      rw [List.length_cons, Nat.succ_mul]
    rw [hlength] at hroom
    have hnext : r.add (.finite s) (.finite n) = .finite ((s + n : Int) : Rat) := by
      have hwhole := r.whole (s + n) (by omega)
      rw [Int.cast_add] at hwhole ⊢
      exact hwhole
    rw [List.foldl_cons, hnext, ih (fun m hm => hbound m (List.mem_cons_of_mem _ hm)) (by omega),
      List.sum_cons, Int.add_assoc]

/-- Numbers small enough to be taken exactly. -/
def exact : WholeRounding where
  toRounding := .exact
  whole := fun _ _ => rfl

/-- A result between two whole numbers is finite and stays between them. -/
lemma round_between (r : WholeRounding) {a b : Int} {q : Rat} (ha : a.natAbs ≤ 2 ^ 53)
    (hb : b.natAbs ≤ 2 ^ 53) (hle : (a : Rat) ≤ q) (hge : q ≤ b) :
    ∃ x : Rat, r.round q = .finite x ∧ (a : Rat) ≤ x ∧ x ≤ b := by
  have hlow := r.mono _ _ hle
  have hhigh := r.mono _ _ hge
  rw [r.whole a ha] at hlow
  rw [r.whole b hb] at hhigh
  cases hround : r.round q with
  | nan =>
    rw [hround] at hlow
    exact absurd rfl (Double.ne_nan_of_le hlow).2
  | infinite negative =>
    rw [hround] at hlow hhigh
    cases negative with
    | true => simp [Double.le, Double.place] at hlow
    | false => simp [Double.le, Double.place] at hhigh
  | finite x =>
    rw [hround] at hlow hhigh
    exact ⟨x, rfl, Double.finite_le.1 hlow, Double.finite_le.1 hhigh⟩

end WholeRounding

/-- Rounding to the nearest double. Further from zero the doubles lie no closer, so a number that
rounds up to a whole number does so there too. -/
structure NearestRounding extends WholeRounding where
  further : ∀ (q : Rat) (k n : Nat), k + n ≤ 2 ^ 52 → (Double.finite k).le (round q) = true →
    (Double.finite ((k + n : Nat) : Rat)).le (round (q + n)) = true

namespace NearestRounding

/-- Numbers small enough to be taken exactly. -/
def exact : NearestRounding where
  toWholeRounding := .exact
  further := by
    intro q k n _ h
    have hle : (k : Rat) ≤ q := Double.finite_le.1 h
    refine Double.finite_le.2 ?_
    push_cast
    linarith

end NearestRounding

end NexusClaw
