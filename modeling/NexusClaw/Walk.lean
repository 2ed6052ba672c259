import Mathlib.Data.Fintype.Card
import Mathlib.Data.Fintype.EquivFin
import Mathlib.Data.List.Nodup
import Mathlib.Logic.Relation

/-!
# Walks through value graphs

A value is a leaf or a reference to a node, and a node has entries: values, or a mark that stops the
walk there. `guard` goes through a value with one set of seen nodes and answers whether it got
through; `walk` lists the nodes on the way without looking at a set, once for each time they are met.
The guard answers yes exactly when the walk ends and meets no node twice (`guard_true_iff`), and on
finitely many nodes the walk ends exactly when no cycle is reached and every value reached is good
(`walk_iff`). `Unshares` relates a graph to its copy with a node of its own for each reference.
-/

namespace NexusClaw.Walk

inductive Value (π α : Type) where
  | leaf (p : π)
  | ref (a : α)

/-- What a walk checks at a leaf, and where it goes on from a node. -/
structure System (π α : Type) where
  check : π → Bool
  entries : α → List (Option (Value π α))

variable {π α : Type}

/-! ## The two traversals -/

/-- The entries in order, with the set of seen nodes handed on. -/
def every (visit : Value π α → List α → Option (Bool × List α)) :
    List (Option (Value π α)) → List α → Option (Bool × List α)
  | [], seen => some (true, seen)
  | none :: _, seen => some (false, seen)
  | some v :: rest, seen =>
    match visit v seen with
    | some (true, seen') => every visit rest seen'
    | other => other

/-- The guard, with a bound on its depth; `none` is a guard that has not come back. -/
def System.guard [DecidableEq α] (s : System π α) :
    Nat → Value π α → List α → Option (Bool × List α)
  | _, .leaf p, seen => some (s.check p, seen)
  | 0, .ref _, _ => none
  | fuel + 1, .ref a, seen =>
    if a ∈ seen then some (false, seen) else every (s.guard fuel) (s.entries a) (a :: seen)

/-- The guard answers `b` on a value. -/
def System.Returns [DecidableEq α] (s : System π α) (v : Value π α) (b : Bool) : Prop :=
  ∃ fuel seen, s.guard fuel v [] = some (b, seen)

def walkAll (visit : Value π α → Option (List α)) : List (Option (Value π α)) → Option (List α)
  | [] => some []
  | none :: _ => none
  | some v :: rest =>
    match visit v, walkAll visit rest with
    | some here, some later => some (here ++ later)
    | _, _ => none

/-- The nodes met on the way through a value, in order. -/
def System.walk (s : System π α) : Nat → Value π α → Option (List α)
  | _, .leaf p => if s.check p then some [] else none
  | 0, .ref _ => none
  | fuel + 1, .ref a => (walkAll (s.walk fuel) (s.entries a)).map (a :: ·)

/-- The walk through a value ends, with these nodes. -/
def System.Walks (s : System π α) (v : Value π α) (met : List α) : Prop :=
  ∃ fuel, s.walk fuel v = some met

/-- A walk through a list goes through its first and the rest. -/
lemma walkAll_cons {visit : Value π α → Option (List α)} {v : Value π α}
    {rest : List (Option (Value π α))} {met : List α} :
    walkAll visit (some v :: rest) = some met ↔
      ∃ here later, visit v = some here ∧ walkAll visit rest = some later ∧
        met = here ++ later := by
  rw [walkAll]
  cases visit v with
  | none => simp
  | some here =>
    cases walkAll visit rest with
    | none => simp
    | some later => simp [eq_comm]

/-- A walk at a reference goes through its content with less fuel. -/
lemma System.walk_ref {s : System π α} {fuel : Nat} {a : α} {met : List α} :
    s.walk fuel (.ref a) = some met ↔
      ∃ less rest, fuel = less + 1 ∧ walkAll (s.walk less) (s.entries a) = some rest ∧
        met = a :: rest := by
  cases fuel with
  | zero => simp [System.walk]
  | succ less => simp [System.walk, eq_comm]

/-- A walk at a leaf checks it. -/
lemma System.walk_leaf {s : System π α} {fuel : Nat} {p : π} {met : List α} :
    s.walk fuel (.leaf p) = some met ↔ s.check p = true ∧ met = [] := by
  unfold System.walk
  split_ifs with passes
  · simp [passes, eq_comm]
  · simp [passes]

/-- Every entry of a walk that ends is walked. -/
lemma walkAll_mem {visit : Value π α → Option (List α)} {es : List (Option (Value π α))}
    {met : List α} (walked : walkAll visit es = some met) {e : Option (Value π α)} (mem : e ∈ es) :
    ∃ v here, e = some v ∧ visit v = some here := by
  induction es generalizing met with
  | nil => cases mem
  | cons first rest ih =>
    cases first with
    | none => cases walked
    | some v =>
      obtain ⟨here, later, at_v, at_rest, _⟩ := walkAll_cons.mp walked
      rcases List.mem_cons.mp mem with rfl | later_mem
      · exact ⟨v, here, rfl, at_v⟩
      · exact ih at_rest later_mem

/-- Two visits that agree on the elements agree on the list. -/
lemma walkAll_congr {visit visit' : Value π α → Option (List α)} {es : List (Option (Value π α))}
    (more : ∀ v, some v ∈ es → ∀ here, visit v = some here → visit' v = some here) {met : List α}
    (walked : walkAll visit es = some met) : walkAll visit' es = some met := by
  induction es generalizing met with
  | nil => exact walked
  | cons first rest ih =>
    cases first with
    | none => cases walked
    | some v =>
      obtain ⟨here, later, at_v, at_rest, same⟩ := walkAll_cons.mp walked
      refine walkAll_cons.mpr ⟨here, later, more v List.mem_cons_self here at_v, ?_, same⟩
      exact ih (fun w mem => more w (List.mem_cons_of_mem _ mem)) at_rest

/-- A visit that says more says more of a list. -/
lemma walkAll_mono {visit visit' : Value π α → Option (List α)}
    (more : ∀ v here, visit v = some here → visit' v = some here) {es : List (Option (Value π α))}
    {met : List α} (walked : walkAll visit es = some met) : walkAll visit' es = some met :=
  walkAll_congr (fun v _ => more v) walked

/-- More fuel gives the same walk. -/
lemma System.walk_succ (s : System π α) (fuel : Nat) :
    ∀ (v : Value π α) (met : List α), s.walk fuel v = some met → s.walk (fuel + 1) v = some met := by
  induction fuel with
  | zero =>
    intro v met walked
    cases v with
    | leaf p => exact walk_leaf.mpr (walk_leaf.mp walked)
    | ref a => cases walked
  | succ fuel ih =>
    intro v met walked
    cases v with
    | leaf p => exact walk_leaf.mpr (walk_leaf.mp walked)
    | ref a =>
      obtain ⟨less, rest, same, at_rest, met_eq⟩ := walk_ref.mp walked
      cases same
      exact walk_ref.mpr ⟨fuel + 1, rest, rfl, walkAll_mono ih at_rest, met_eq⟩

/-- Any more fuel does. -/
lemma System.walk_le (s : System π α) {fuel more : Nat} (le : fuel ≤ more) {v : Value π α}
    {met : List α} (walked : s.walk fuel v = some met) : s.walk more v = some met := by
  induction le with
  | refl => exact walked
  | step _ ih => exact s.walk_succ _ v met ih

/-- A value has one walk. -/
lemma System.walks_unique {s : System π α} {v : Value π α} {met met' : List α}
    (first : s.Walks v met) (second : s.Walks v met') : met = met' := by
  obtain ⟨fuel, walked⟩ := first
  obtain ⟨fuel', walked'⟩ := second
  have here := s.walk_le (Nat.le_max_left fuel fuel') walked
  have there := s.walk_le (Nat.le_max_right fuel fuel') walked'
  exact Option.some.inj (here.symm.trans there)

/-- Entries that are all walked by some bound are walked by one. -/
lemma System.walkAll_of_each {s : System π α} {es : List (Option (Value π α))}
    (each : ∀ e ∈ es, ∃ v met, e = some v ∧ s.Walks v met) :
    ∃ fuel met, walkAll (s.walk fuel) es = some met := by
  induction es with
  | nil => exact ⟨0, [], rfl⟩
  | cons first rest ih =>
    obtain ⟨v, here, rfl, fuel, walked⟩ := each first List.mem_cons_self
    obtain ⟨fuel', later, walked'⟩ := ih fun e mem => each e (List.mem_cons_of_mem _ mem)
    refine ⟨max fuel fuel', here ++ later, walkAll_cons.mpr ⟨here, later, ?_, ?_, rfl⟩⟩
    · exact s.walk_le (Nat.le_max_left fuel fuel') walked
    · exact walkAll_mono (fun _ _ => s.walk_le (Nat.le_max_right fuel fuel')) walked'

/-! ## Guard and walk -/

/-- A guard passes a list if it passes the first and then the rest. -/
lemma every_cons_true {visit : Value π α → List α → Option (Bool × List α)} {v : Value π α}
    {rest : List (Option (Value π α))} {seen last : List α} :
    every visit (some v :: rest) seen = some (true, last) ↔
      ∃ next, visit v seen = some (true, next) ∧ every visit rest next = some (true, last) := by
  simp only [every]
  split
  · rename_i next visited
    simp [visited]
  · rename_i other
    constructor
    · intro same
      exact absurd same (other last)
    · rintro ⟨next, visited, _⟩
      exact absurd visited (other next)

/-- What the guard answers yes to, in terms of the nodes met. -/
def Through (visited : List α → Option (Bool × List α)) (walked : Option (List α)) : Prop :=
  ∀ seen last, visited seen = some (true, last) ↔
    ∃ met, walked = some met ∧ met.Nodup ∧ (∀ a ∈ met, a ∉ seen) ∧ last = met.reverse ++ seen

/-- A guard that goes along with a walk does so on lists. -/
lemma through_every {visit : Value π α → List α → Option (Bool × List α)}
    {walk : Value π α → Option (List α)} (each : ∀ v, Through (visit v) (walk v))
    (es : List (Option (Value π α))) : Through (every visit es) (walkAll walk es) := by
  -- induction on the entries of the node
  induction es with
  | nil =>
    intro seen last
    simp [every, walkAll, eq_comm]
  | cons first rest ih =>
    intro seen last
    cases first with
    | none => simp [every, walkAll]
    | some v =>
      rw [every_cons_true]
      constructor
      · rintro ⟨next, at_v, at_rest⟩
        obtain ⟨here, walked, nodup, fresh, rfl⟩ := (each v seen next).mp at_v
        obtain ⟨later, walked', nodup', fresh', rfl⟩ := (ih _ last).mp at_rest
        refine ⟨here ++ later, walkAll_cons.mpr ⟨here, later, walked, walked', rfl⟩, ?_, ?_, ?_⟩
        · refine List.nodup_append.mpr ⟨nodup, nodup', ?_⟩
          rintro a mem _ mem' rfl
          exact fresh' a mem' (List.mem_append_left _ (List.mem_reverse.mpr mem))
        · intro a mem
          rcases List.mem_append.mp mem with mem | mem
          · exact fresh a mem
          · exact fun in_seen => fresh' a mem (List.mem_append_right _ in_seen)
        · rw [List.reverse_append, List.append_assoc]
      · rintro ⟨met, walked, nodup, fresh, rfl⟩
        obtain ⟨here, later, at_v, at_rest, rfl⟩ := walkAll_cons.mp walked
        obtain ⟨nodup_here, nodup_later, apart⟩ := List.nodup_append.mp nodup
        refine ⟨here.reverse ++ seen, (each v seen _).mpr ?_, (ih _ _).mpr ?_⟩
        · exact ⟨here, at_v, nodup_here, fun a mem => fresh a (List.mem_append_left _ mem), rfl⟩
        · refine ⟨later, at_rest, nodup_later, ?_, ?_⟩
          · intro a mem in_either
            rcases List.mem_append.mp in_either with in_here | in_seen
            · exact apart a (List.mem_reverse.mp in_here) a mem rfl
            · exact fresh a (List.mem_append_right _ mem) in_seen
          · rw [List.reverse_append, List.append_assoc]

/-- The guard gets through exactly when the walk meets no node twice and none that was seen. -/
lemma System.through_guard [DecidableEq α] (s : System π α) (fuel : Nat) :
    ∀ v, Through (s.guard fuel v) (s.walk fuel v) := by
  -- induction on the fuel, along the entries of a node
  induction fuel with
  | zero =>
    intro v seen last
    cases v with
    | leaf p => cases passes : s.check p <;> simp [System.guard, System.walk, passes, eq_comm]
    | ref a => simp [System.guard, System.walk]
  | succ fuel ih =>
    intro v seen last
    cases v with
    | leaf p => cases passes : s.check p <;> simp [System.guard, System.walk, passes, eq_comm]
    | ref a =>
      simp only [System.guard, System.walk]
      split_ifs with again
      · constructor
        · intro impossible
          cases impossible
        · rintro ⟨met, walked, _, fresh, _⟩
          obtain ⟨rest, _, rfl⟩ := Option.map_eq_some_iff.mp walked
          exact absurd again (fresh a List.mem_cons_self)
      · rw [through_every ih (s.entries a) (a :: seen) last]
        constructor
        · rintro ⟨rest, walked, nodup, fresh, rfl⟩
          refine ⟨a :: rest, by rw [walked]; rfl, ?_, ?_, ?_⟩
          · exact List.nodup_cons.mpr ⟨fun mem => fresh a mem List.mem_cons_self, nodup⟩
          · rintro b mem
            rcases List.mem_cons.mp mem with rfl | mem
            · exact again
            · exact fun in_seen => fresh b mem (List.mem_cons_of_mem _ in_seen)
          · rw [List.reverse_cons, List.append_assoc, List.singleton_append]
        · rintro ⟨met, walked, nodup, fresh, rfl⟩
          obtain ⟨rest, at_rest, rfl⟩ := Option.map_eq_some_iff.mp walked
          obtain ⟨head_fresh, nodup_rest⟩ := List.nodup_cons.mp nodup
          refine ⟨rest, at_rest, nodup_rest, ?_, ?_⟩
          · intro b mem in_either
            rcases List.mem_cons.mp in_either with rfl | in_seen
            · exact head_fresh mem
            · exact fresh b (List.mem_cons_of_mem _ mem) in_seen
          · rw [List.reverse_cons, List.append_assoc, List.singleton_append]

/-- The guard answers yes exactly when the walk ends and meets no node twice. -/
lemma System.returns_true_iff [DecidableEq α] (s : System π α) (v : Value π α) :
    s.Returns v true ↔ ∃ met, s.Walks v met ∧ met.Nodup := by
  constructor
  · rintro ⟨fuel, last, answered⟩
    obtain ⟨met, walked, nodup, _⟩ := (s.through_guard fuel v [] last).mp answered
    exact ⟨met, ⟨fuel, walked⟩, nodup⟩
  · rintro ⟨met, ⟨fuel, walked⟩, nodup⟩
    refine ⟨fuel, met.reverse ++ [], (s.through_guard fuel v [] _).mpr ?_⟩
    exact ⟨met, walked, nodup, fun _ _ => List.not_mem_nil, rfl⟩

/-! ### One answer -/

/-- A guard that says more says more of a list. -/
lemma every_mono {visit visit' : Value π α → List α → Option (Bool × List α)}
    (more : ∀ v seen r, visit v seen = some r → visit' v seen = some r) :
    ∀ (es : List (Option (Value π α))) (seen : List α) (r : Bool × List α),
      every visit es seen = some r → every visit' es seen = some r
  | [], _, _, answered => answered
  | none :: _, _, _, answered => answered
  | some v :: rest, seen, r, answered => by
    cases visited : visit v seen with
    | none => simp [every, visited] at answered
    | some answer =>
      obtain ⟨b, next⟩ := answer
      have visited' := more v seen _ visited
      cases b with
      | false =>
        simp only [every, visited] at answered
        simpa only [every, visited'] using answered
      | true =>
        simp only [every, visited] at answered
        simp only [every, visited']
        exact every_mono more rest next r answered

/-- More fuel gives the same verdict. -/
lemma System.guard_succ [DecidableEq α] (s : System π α) (fuel : Nat) :
    ∀ (v : Value π α) (seen : List α) (r : Bool × List α),
      s.guard fuel v seen = some r → s.guard (fuel + 1) v seen = some r := by
  induction fuel with
  | zero =>
    intro v seen r answered
    cases v with
    | leaf p => exact answered
    | ref a => cases answered
  | succ fuel ih =>
    intro v seen r answered
    cases v with
    | leaf p => exact answered
    | ref a =>
      rw [System.guard] at answered ⊢
      split_ifs at answered ⊢ with again
      · exact answered
      · exact every_mono ih _ _ r answered

/-- Any more fuel does. -/
lemma System.guard_le [DecidableEq α] (s : System π α) {fuel more : Nat} (le : fuel ≤ more)
    {v : Value π α} {seen : List α} {r : Bool × List α} (answered : s.guard fuel v seen = some r) :
    s.guard more v seen = some r := by
  induction le with
  | refl => exact answered
  | step _ ih => exact s.guard_succ _ v seen r ih

/-- A guard returns one verdict. -/
lemma System.returns_unique [DecidableEq α] {s : System π α} {v : Value π α} {b b' : Bool}
    (first : s.Returns v b) (second : s.Returns v b') : b = b' := by
  obtain ⟨fuel, seen, answered⟩ := first
  obtain ⟨fuel', seen', answered'⟩ := second
  have here := s.guard_le (Nat.le_max_left fuel fuel') answered
  have there := s.guard_le (Nat.le_max_right fuel fuel') answered'
  exact (Prod.mk.inj (Option.some.inj (here.symm.trans there))).1

/-- Two guards that answer, and agree on yes, agree. -/
lemma System.returns_congr {β : Type} [DecidableEq α] [DecidableEq β] {s : System π α} {t : System π β}
    {v : Value π α} {w : Value π β} (answers : ∃ b, s.Returns v b) (answers' : ∃ b, t.Returns w b)
    (agree : s.Returns v true ↔ t.Returns w true) (b : Bool) : s.Returns v b ↔ t.Returns w b := by
  obtain ⟨c, first⟩ := answers
  obtain ⟨d, second⟩ := answers'
  have same : c = d := by
    cases c with
    | true => exact System.returns_unique (agree.mp first) second
    | false =>
      cases d with
      | false => rfl
      | true => exact System.returns_unique first (agree.mpr second)
  subst same
  constructor
  · intro answer
    rwa [System.returns_unique answer first]
  · intro answer
    rwa [System.returns_unique answer second]

/-! ### An answer always comes -/

/-- What every visit keeps, the whole of them keeps. -/
lemma every_total {visit : Value π α → List α → Option (Bool × List α)} {P : List α → Prop}
    (each : ∀ v seen, P seen → ∃ b next, visit v seen = some (b, next) ∧ P next) :
    ∀ (es : List (Option (Value π α))) (seen : List α), P seen →
      ∃ b last, every visit es seen = some (b, last) ∧ P last
  | [], seen, holds => ⟨true, seen, rfl, holds⟩
  | none :: _, seen, holds => ⟨false, seen, rfl, holds⟩
  | some v :: rest, seen, holds => by
    obtain ⟨b, next, visited, holds'⟩ := each v seen holds
    cases b with
    | false => exact ⟨false, next, by simp only [every, visited], holds'⟩
    | true =>
      obtain ⟨c, last, answered, holds''⟩ := every_total each rest next holds'
      exact ⟨c, last, by simp only [every, visited, answered], holds''⟩

/-- The nodes that are not seen yet. -/
def unseen [DecidableEq α] [Fintype α] (seen : List α) : Finset α :=
  Finset.univ.filter (· ∉ seen)

/-- Seeing a new address leaves fewer unseen. -/
lemma unseen_cons [DecidableEq α] [Fintype α] {a : α} {seen : List α} (fresh : a ∉ seen) :
    (unseen (a :: seen)).card < (unseen seen).card := by
  apply Finset.card_lt_card
  refine Finset.ssubset_iff_of_subset ?_ |>.mpr ⟨a, ?_, ?_⟩
  · intro b mem
    obtain ⟨_, not_seen⟩ := Finset.mem_filter.mp mem
    refine Finset.mem_filter.mpr ⟨Finset.mem_univ b, ?_⟩
    exact fun in_seen => not_seen (List.mem_cons_of_mem a in_seen)
  · exact Finset.mem_filter.mpr ⟨Finset.mem_univ a, fresh⟩
  · intro mem
    exact (Finset.mem_filter.mp mem).2 List.mem_cons_self

/-- The bound is enough when it is more than the nodes that are not seen yet. -/
lemma System.guard_total [DecidableEq α] [Fintype α] (s : System π α) (fuel : Nat) :
    ∀ (v : Value π α) (seen : List α), (unseen seen).card < fuel →
      ∃ b last, s.guard fuel v seen = some (b, last) ∧ (unseen last).card < fuel := by
  induction fuel with
  | zero =>
    intro v seen bound
    exact absurd bound (Nat.not_lt_zero _)
  | succ fuel ih =>
    intro v seen bound
    cases v with
    | leaf p => exact ⟨s.check p, seen, rfl, bound⟩
    | ref a =>
      simp only [System.guard]
      split_ifs with again
      · exact ⟨false, seen, rfl, bound⟩
      · have less : (unseen (a :: seen)).card < fuel := by
          have := unseen_cons again
          omega
        obtain ⟨b, last, answered, still⟩ := every_total ih (s.entries a) (a :: seen) less
        exact ⟨b, last, answered, Nat.lt_succ_of_lt still⟩

/-- On finitely many nodes the guard comes back. -/
lemma System.returns_total [DecidableEq α] [Finite α] (s : System π α) (v : Value π α) :
    ∃ b, s.Returns v b := by
  have := Fintype.ofFinite α
  obtain ⟨b, last, answered, _⟩ := s.guard_total _ v [] (Nat.lt_succ_self _)
  exact ⟨b, _, last, answered⟩

/-- A guard comes back where a walk ends that goes to the same nodes. -/
lemma System.guard_of_walk [DecidableEq α] {s t : System π α}
    (sub : ∀ a b, some (.ref b) ∈ s.entries a → some (.ref b) ∈ t.entries a) (fuel : Nat) :
    ∀ (v : Value π α) (met seen : List α), t.walk fuel v = some met →
      ∃ b last, s.guard fuel v seen = some (b, last) := by
  -- induction on the fuel, along the entries of a node
  induction fuel with
  | zero =>
    intro v met seen walked
    cases v with
    | leaf p => exact ⟨s.check p, seen, rfl⟩
    | ref a => cases walked
  | succ fuel ih =>
    intro v met seen walked
    cases v with
    | leaf p => exact ⟨s.check p, seen, rfl⟩
    | ref a =>
      obtain ⟨_, rest, same, at_rest, _⟩ := walk_ref.mp walked
      cases same
      have each : ∀ v, some v ∈ s.entries a →
          ∀ seen, ∃ b last, s.guard fuel v seen = some (b, last) := by
        intro v mem seen
        cases v with
        | leaf p =>
          cases fuel <;> exact ⟨s.check p, seen, rfl⟩
        | ref b =>
          obtain ⟨_, here, same, walked'⟩ := walkAll_mem at_rest (sub a b mem)
          cases same
          exact ih _ here seen walked'
      simp only [System.guard]
      split_ifs with again
      · exact ⟨false, seen, rfl⟩
      · generalize a :: seen = seen'
        generalize s.entries a = es at each
        induction es generalizing seen' with
        | nil => exact ⟨true, seen', rfl⟩
        | cons first rest ih_es =>
          cases first with
          | none => exact ⟨false, seen', rfl⟩
          | some v =>
            obtain ⟨b, next, visited⟩ := each v List.mem_cons_self seen'
            cases b with
            | false => exact ⟨false, next, by simp only [every, visited]⟩
            | true =>
              obtain ⟨c, last, answered⟩ :=
                ih_es next fun w mem => each w (List.mem_cons_of_mem _ mem)
              exact ⟨c, last, by simp only [every, visited, answered]⟩

/-! ## Where a walk ends -/

namespace System
variable (s : System π α)

/-- The value has a reference to a node with the other value among its entries. -/
def Edge (v w : Value π α) : Prop :=
  ∃ a, v = .ref a ∧ some w ∈ s.entries a

def Reaches : Value π α → Value π α → Prop :=
  Relation.ReflTransGen s.Edge

/-- No node that is reached is reached again from itself. -/
def Acyclic (v : Value π α) : Prop :=
  ∀ a, s.Reaches v (.ref a) → ¬ Relation.TransGen s.Edge (.ref a) (.ref a)

/-- The leaf passes the check, the node has no entry that stops the walk. -/
def Good : Value π α → Prop
  | .leaf p => s.check p = true
  | .ref a => none ∉ s.entries a

variable {s}

/-- A walk goes along every edge with less fuel. -/
lemma walk_edge {fuel : Nat} {v w : Value π α} {met : List α} (walked : s.walk fuel v = some met)
    (edge : s.Edge v w) : ∃ less met', less < fuel ∧ s.walk less w = some met' := by
  obtain ⟨a, rfl, mem⟩ := edge
  obtain ⟨less, rest, rfl, at_rest, _⟩ := walk_ref.mp walked
  obtain ⟨_, here, same, walked'⟩ := walkAll_mem at_rest mem
  cases same
  exact ⟨less, here, Nat.lt_succ_self less, walked'⟩

/-- A walk goes to everything that is reached. -/
lemma walk_reaches {fuel : Nat} {v w : Value π α} {met : List α} (walked : s.walk fuel v = some met)
    (reaches : s.Reaches v w) : ∃ less met', s.walk less w = some met' := by
  induction reaches with
  | refl => exact ⟨fuel, met, walked⟩
  | tail _ edge ih =>
    obtain ⟨less, met', walked'⟩ := ih
    obtain ⟨least, met'', _, walked''⟩ := walk_edge walked' edge
    exact ⟨least, met'', walked''⟩

/-- A walk along a path has less fuel at its end. -/
lemma walk_trans {fuel : Nat} {v w : Value π α} {met : List α} (walked : s.walk fuel v = some met)
    (path : Relation.TransGen s.Edge v w) :
    ∃ less met', less < fuel ∧ s.walk less w = some met' := by
  induction path with
  | single edge => exact walk_edge walked edge
  | tail _ edge ih =>
    obtain ⟨less, met', lt, walked'⟩ := ih
    obtain ⟨least, met'', lt', walked''⟩ := walk_edge walked' edge
    exact ⟨least, met'', lt'.trans lt, walked''⟩

/-- The bound of a walk falls along a cycle, so there is none. -/
lemma no_cycle_of_walk (fuel : Nat) : ∀ {v : Value π α} {met : List α},
    s.walk fuel v = some met → ¬ Relation.TransGen s.Edge v v := by
  induction fuel using Nat.strong_induction_on with
  | _ fuel ih =>
    intro v met walked cycle
    obtain ⟨less, met', lt, walked'⟩ := walk_trans walked cycle
    exact ih less lt walked' cycle

/-- What is walked is good. -/
lemma good_of_walk {fuel : Nat} {v : Value π α} {met : List α} (walked : s.walk fuel v = some met) :
    s.Good v := by
  cases v with
  | leaf p => exact (walk_leaf.mp walked).1
  | ref a =>
    intro stops
    obtain ⟨less, rest, rfl, at_rest, _⟩ := walk_ref.mp walked
    obtain ⟨_, _, same, _⟩ := walkAll_mem at_rest stops
    cases same

/-- A walk that gets through one system gets through another with the same entries on the way. -/
lemma walk_of_walk {s t : System π α} {P : Value π α → Prop}
    (down : ∀ v w, P v → s.Edge v w → P w) (checks : ∀ p, s.check p = true → t.check p = true)
    (agree : ∀ fuel a met, P (.ref a) → walkAll (s.walk fuel) (s.entries a) = some met →
      s.entries a = t.entries a) (fuel : Nat) :
    ∀ (v : Value π α) (met : List α), P v → s.walk fuel v = some met → t.walk fuel v = some met := by
  induction fuel with
  | zero =>
    intro v met _ walked
    cases v with
    | leaf p =>
      obtain ⟨passes, rfl⟩ := walk_leaf.mp walked
      exact walk_leaf.mpr ⟨checks p passes, rfl⟩
    | ref a => cases walked
  | succ fuel ih =>
    intro v met holds walked
    cases v with
    | leaf p =>
      obtain ⟨passes, rfl⟩ := walk_leaf.mp walked
      exact walk_leaf.mpr ⟨checks p passes, rfl⟩
    | ref a =>
      obtain ⟨_, rest, same, at_rest, rfl⟩ := walk_ref.mp walked
      cases same
      refine walk_ref.mpr ⟨fuel, rest, rfl, ?_, rfl⟩
      rw [← agree fuel a rest holds at_rest]
      exact walkAll_congr (fun w mem here => ih w here (down _ w holds ⟨a, rfl, mem⟩)) at_rest

/-- Below a node that a walk can be at, every path leads on, as the nodes are finitely many. -/
lemma wellFounded_below [Finite α] {v : Value π α} (acyclic : s.Acyclic v) :
    WellFounded fun b a : α =>
      s.Reaches v (.ref a) ∧ Relation.TransGen s.Edge (.ref a) (.ref b) := by
  let below : α → α → Prop := fun b a =>
    s.Reaches v (.ref a) ∧ Relation.TransGen s.Edge (.ref a) (.ref b)
  have : IsTrans α below := ⟨fun _ _ _ first second => ⟨second.1, second.2.trans first.2⟩⟩
  have : Std.Irrefl below := ⟨fun a cycle => acyclic a cycle.1 cycle.2⟩
  exact Finite.wellFounded_of_trans_of_irrefl below

/-- On finitely many nodes a walk ends exactly when no cycle is reached and all that is reached is
good. -/
theorem walk_iff [Finite α] (v : Value π α) :
    (∃ met, s.Walks v met) ↔ s.Acyclic v ∧ ∀ w, s.Reaches v w → s.Good w := by
  constructor
  · rintro ⟨met, fuel, walked⟩
    constructor
    · intro a reaches
      obtain ⟨less, met', walked'⟩ := walk_reaches walked reaches
      exact no_cycle_of_walk less walked'
    · intro w reaches
      obtain ⟨less, met', walked'⟩ := walk_reaches walked reaches
      exact good_of_walk walked'
  · rintro ⟨acyclic, good⟩
    have at_node : ∀ a, s.Reaches v (.ref a) → ∃ met, s.Walks (.ref a) met := by
      intro a
      -- induction along the edges, which lead down where there is no cycle
      induction a using (wellFounded_below acyclic).induction with
      | _ a ih =>
        intro reaches
        have each : ∀ e ∈ s.entries a, ∃ w met, e = some w ∧ s.Walks w met := by
          intro e mem
          cases e with
          | none => exact absurd mem (good _ reaches)
          | some w =>
            have edge : s.Edge (.ref a) w := ⟨a, rfl, mem⟩
            cases w with
            | leaf p =>
              have passes := good _ (reaches.tail edge)
              exact ⟨_, [], rfl, 0, walk_leaf.mpr ⟨passes, rfl⟩⟩
            | ref b =>
              obtain ⟨met, walked⟩ := ih b ⟨reaches, .single edge⟩ (reaches.tail edge)
              exact ⟨_, met, rfl, walked⟩
        obtain ⟨fuel, rest, walked⟩ := walkAll_of_each each
        exact ⟨a :: rest, fuel + 1, walk_ref.mpr ⟨fuel, rest, rfl, walked, rfl⟩⟩
    cases v with
    | leaf p => exact ⟨[], 0, walk_leaf.mpr ⟨good _ .refl, rfl⟩⟩
    | ref a => exact at_node a .refl

end System

/-! ## Copies without sharing -/

/-- The value with its node marked by the way that leads to it. -/
def Value.marked (v : Value π α) (way : List Nat) : Value π (α × List Nat) :=
  match v with
  | .leaf p => .leaf p
  | .ref a => .ref (a, way)

/-- The entries of a copied node: each value is marked by a number of its own, from `k` on, in front
of the way to the node. -/
inductive Marks (way : List Nat) : Nat → List (Option (Value π α)) →
    List (Option (Value π (α × List Nat))) → Prop where
  | nil (k : Nat) : Marks way k [] []
  | stop {k es es'} : Marks way k es es' → Marks way k (none :: es) (none :: es')
  | value {k j es es'} (v : Value π α) :
    k ≤ j → Marks way (j + 1) es es' →
      Marks way k (some v :: es) (some (v.marked (j :: way)) :: es')

/-- The second system is the first one with a node of its own for every reference. -/
structure Unshares (s : System π α) (t : System π (α × List Nat)) : Prop where
  check : t.check = s.check
  entries : ∀ a way, Marks way 0 (s.entries a) (t.entries (a, way))

/-- Marks stay marks for fewer steps. -/
lemma Marks.weaken {way : List Nat} {k less : Nat} {es : List (Option (Value π α))}
    {es' : List (Option (Value π (α × List Nat)))} (marks : Marks way k es es') (le : less ≤ k) :
    Marks way less es es' := by
  induction marks with
  | nil _ => exact .nil less
  | stop _ ih => exact .stop (ih le)
  | value v le' marks _ => exact .value v (le.trans le') marks

/-- A marked list is walked as the list is. -/
lemma Marks.walkAll {way : List Nat} {k : Nat} {es : List (Option (Value π α))}
    {es' : List (Option (Value π (α × List Nat)))} (marks : Marks way k es es')
    {visit : Value π α → Option (List α)}
    {visit' : Value π (α × List Nat) → Option (List (α × List Nat))}
    (same : ∀ v way, visit v = (visit' (v.marked way)).map (List.map Prod.fst)) :
    walkAll visit es = (walkAll visit' es').map (List.map Prod.fst) := by
  induction marks with
  | nil k => rfl
  | stop _ _ => rfl
  | @value k j es es' v _ _ ih =>
    have here := same v (j :: way)
    rw [Walk.walkAll, Walk.walkAll, here, ih]
    cases visit' (v.marked (j :: way)) with
    | none => rfl
    | some first =>
      cases Walk.walkAll visit' es' with
      | none => rfl
      | some later => simp

/-- The copy is walked as the graph is. -/
lemma Unshares.walk {s : System π α} {t : System π (α × List Nat)} (unshares : Unshares s t)
    (fuel : Nat) : ∀ (v : Value π α) (way : List Nat),
      s.walk fuel v = (t.walk fuel (v.marked way)).map (List.map Prod.fst) := by
  have at_leaf : ∀ fuel (p : π),
      s.walk fuel (.leaf p) = (t.walk fuel (.leaf p)).map (List.map Prod.fst) := by
    intro fuel p
    cases fuel <;> cases passes : s.check p <;> simp [System.walk, unshares.check, passes]
  induction fuel with
  | zero =>
    intro v way
    cases v with
    | leaf p => exact at_leaf 0 p
    | ref a => rfl
  | succ fuel ih =>
    intro v way
    cases v with
    | leaf p => exact at_leaf (fuel + 1) p
    | ref a =>
      have rest := (unshares.entries a way).walkAll ih
      simp only [Value.marked, System.walk, rest, Option.map_map]
      rfl

/-- What a walk of the copy meets lies on ways of its own. -/
lemma Unshares.nodup {s : System π α} {t : System π (α × List Nat)} (unshares : Unshares s t)
    (fuel : Nat) : ∀ (v : Value π α) (way : List Nat) (met : List (α × List Nat)),
      t.walk fuel (v.marked way) = some met → met.Nodup ∧ ∀ x ∈ met, way <:+ x.2 := by
  induction fuel with
  | zero =>
    intro v way met walked
    cases v with
    | leaf p =>
      obtain ⟨_, rfl⟩ := System.walk_leaf.mp walked
      exact ⟨List.nodup_nil, fun _ mem => absurd mem List.not_mem_nil⟩
    | ref a => cases walked
  | succ fuel ih =>
    intro v way met walked
    cases v with
    | leaf p =>
      obtain ⟨_, rfl⟩ := System.walk_leaf.mp walked
      exact ⟨List.nodup_nil, fun _ mem => absurd mem List.not_mem_nil⟩
    | ref a =>
      obtain ⟨_, rest, same, at_rest, rfl⟩ := System.walk_ref.mp walked
      cases same
      -- the ways of the entries from `k` on end in numbers from `k` on, before the way to the node
      have entries : ∀ {k es es' rest}, Marks way k es es' →
          walkAll (t.walk fuel) es' = some rest →
            rest.Nodup ∧ ∀ x ∈ rest, ∃ j, k ≤ j ∧ (j :: way) <:+ x.2 := by
        intro k es es' rest marks
        induction marks generalizing rest with
        | nil k =>
          intro walked
          cases walked
          exact ⟨List.nodup_nil, fun _ mem => absurd mem List.not_mem_nil⟩
        | stop _ _ =>
          intro walked
          cases walked
        | @value k j es es' v le _ ih_rest =>
          intro walked
          obtain ⟨here, later, at_v, at_later, rfl⟩ := walkAll_cons.mp walked
          obtain ⟨nodup, ways⟩ := ih v (j :: way) here at_v
          obtain ⟨nodup', ways'⟩ := ih_rest at_later
          constructor
          · refine List.nodup_append.mpr ⟨nodup, nodup', ?_⟩
            rintro x mem _ mem' rfl
            obtain ⟨i, lt, suffix⟩ := ways' x mem'
            have ends := List.suffix_of_suffix_length_le (ways x mem) suffix (Nat.le_refl _)
            have same_number := (List.cons.inj (ends.eq_of_length rfl)).1
            omega
          · intro x mem
            rcases List.mem_append.mp mem with mem | mem
            · exact ⟨j, le, ways x mem⟩
            · obtain ⟨i, lt, suffix⟩ := ways' x mem
              exact ⟨i, by omega, suffix⟩
      obtain ⟨nodup, ways⟩ := entries (unshares.entries a way) at_rest
      constructor
      · refine List.nodup_cons.mpr ⟨fun mem => ?_, nodup⟩
        obtain ⟨j, _, suffix⟩ := ways _ mem
        have longer := suffix.length_le
        exact absurd longer (Nat.not_succ_le_self _)
      · intro x mem
        rcases List.mem_cons.mp mem with rfl | mem
        · exact List.suffix_refl way
        · obtain ⟨j, _, suffix⟩ := ways x mem
          exact (List.suffix_cons j way).trans suffix

/-- The guard gets through the copy exactly when the walk ends. -/
lemma Unshares.returns_true_iff [DecidableEq α] {s : System π α} {t : System π (α × List Nat)}
    (unshares : Unshares s t) (v : Value π α) (way : List Nat) :
    t.Returns (v.marked way) true ↔ ∃ met, s.Walks v met := by
  rw [System.returns_true_iff]
  constructor
  · rintro ⟨met, ⟨fuel, walked⟩, _⟩
    exact ⟨met.map Prod.fst, fuel, by rw [unshares.walk fuel v way, walked]; rfl⟩
  · rintro ⟨met, fuel, walked⟩
    rw [unshares.walk fuel v way] at walked
    obtain ⟨met', walked', _⟩ := Option.map_eq_some_iff.mp walked
    exact ⟨met', ⟨fuel, walked'⟩, (unshares.nodup fuel v way met' walked').1⟩

end NexusClaw.Walk
