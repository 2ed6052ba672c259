import Mathlib.Data.List.Basic
import Mathlib.Data.List.Infix
import Mathlib.Data.Nat.Find

/-!
# Patterns that see their neighbours

A pattern accepts a text by the text and by what stands directly in front of it and behind it, as one
with word boundaries at its ends does. All matches are replaced by a mark, from left to right, the
longest one at a place first. A text of the result that has nothing of the mark stood in the source,
and no match begins in it (`Scanned.source`); so a pattern has no match left where it was replaced, and
gets none back from another one, if what it accepts in a result it accepts in the source (`Carries`).
A text that holds every match it overlaps is replaced on its own, and so is what stands around it
(`Whole.scan`).
-/

namespace NexusClaw

/-- The texts that match, by what stands in front of them and behind them. -/
structure Pattern (α : Type) where
  accepts : Option α → List α → Option α → Bool

namespace Pattern
variable {α : Type}

/-! ## Neighbours -/

/-- The end of a text, or what stands in front of an empty one. -/
def lastOr (before : Option α) (s : List α) : Option α :=
  s.getLast?.or before

/-- The head of a text, or what stands behind an empty one. -/
def headOr (s : List α) (after : Option α) : Option α :=
  s.head?.or after

section neighbours
variable {before after : Option α} {s t : List α} {c : α}

/-- Nothing stands between. -/
@[simp] lemma lastOr_nil : lastOr before [] = before :=
  rfl

/-- The last of a text is the last of what follows its first. -/
@[simp] lemma lastOr_cons : lastOr before (c :: s) = lastOr (some c) s := by
  cases s with
  | nil => rfl
  | cons d s =>
    unfold lastOr
    rw [List.getLast?_cons_cons, List.getLast?_cons]
    rfl

/-- The last of two texts. -/
@[simp] lemma lastOr_append : lastOr before (s ++ t) = lastOr (lastOr before s) t := by
  induction s generalizing before with
  | nil => rfl
  | cons c s ih => rw [List.cons_append, lastOr_cons, lastOr_cons, ih]

/-- A text that is not empty has a last element of its own. -/
lemma lastOr_of_ne_nil (h : s ≠ []) : lastOr before s = s.getLast? := by
  obtain ⟨c, s, rfl⟩ := List.exists_cons_of_ne_nil h
  unfold lastOr
  rw [List.getLast?_cons]
  rfl

/-- With nothing in front, the last is the text's own. -/
lemma lastOr_none : lastOr none s = s.getLast? :=
  Option.or_none

/-- Nothing stands between. -/
@[simp] lemma headOr_nil : headOr [] after = after :=
  rfl

/-- The first element of a text. -/
@[simp] lemma headOr_cons : headOr (c :: s) after = some c :=
  rfl

/-- A text that is not empty has a first element of its own. -/
lemma headOr_of_ne_nil (h : s ≠ []) : headOr s after = s.head? := by
  obtain ⟨c, s, rfl⟩ := List.exists_cons_of_ne_nil h
  rfl

/-- With nothing behind, the first is the text's own. -/
lemma headOr_none : headOr s none = s.head? :=
  Option.or_none

/-- The first of two texts. -/
@[simp] lemma headOr_append : headOr (s ++ t) after = headOr s (headOr t after) := by
  cases s with
  | nil => rfl
  | cons c s => rfl

end neighbours

/-! ## The longest match -/

section matching
variable (p : Pattern α) (mark : List α) (after : Option α)

/-- The length of the longest match at the head of a text; zero, if there is none. -/
def matchAt (before : Option α) (s : List α) : Nat :=
  Nat.findGreatest (fun n => p.accepts before (s.take n) (headOr (s.drop n) after) = true) s.length

/-- All matches are replaced; `skip` counts what is left of one. -/
def scan : Option α → Nat → List α → List α
  | _, _, [] => []
  | _, skip + 1, c :: s => scan (some c) skip s
  | before, 0, c :: s =>
    match p.matchAt after before (c :: s) with
    | 0 => c :: scan (some c) 0 s
    | n + 1 => mark ++ scan (some c) n s

/-- `s.replace(p, mark)`, for all matches. -/
def replace (s : List α) : List α :=
  p.scan mark none none 0 s

/-- No part of the text matches. -/
def Free (s : List α) : Prop :=
  ∀ a t b, s = a ++ (t ++ b) → t ≠ [] → p.accepts (lastOr none a) t (headOr b none) = false

end matching

section longest
variable {p : Pattern α} {before after : Option α} {s t u : List α}

/-- The match is at least as long as any text that is accepted. -/
lemma le_matchAt (h : p.accepts before t (headOr u after) = true) :
    t.length ≤ p.matchAt after before (t ++ u) := by
  apply Nat.le_findGreatest
  · rw [List.length_append]
    exact Nat.le_add_right _ _
  · rw [List.take_left, List.drop_left]
    exact h

/-- The match is within the text. -/
lemma matchAt_le : p.matchAt after before s ≤ s.length :=
  Nat.findGreatest_le _

/-- What is matched is accepted. -/
lemma matchAt_accepts (h : p.matchAt after before s ≠ 0) :
    p.accepts before (s.take (p.matchAt after before s))
      (headOr (s.drop (p.matchAt after before s)) after) = true :=
  Nat.findGreatest_of_ne_zero rfl h

/-- A match of a given length is the text of that length. -/
lemma matchAt_append_accepts (ht : t ≠ []) (h : p.matchAt after before (t ++ u) = t.length) :
    p.accepts before t (headOr u after) = true := by
  have hne : p.matchAt after before (t ++ u) ≠ 0 := by
    rw [h]
    exact mt List.length_eq_zero_iff.1 ht
  have haccepts := matchAt_accepts hne
  rw [h, List.take_left, List.drop_left] at haccepts
  exact haccepts

/-- A match is not empty. -/
lemma take_matchAt_ne_nil (h : p.matchAt after before s ≠ 0) :
    s.take (p.matchAt after before s) ≠ [] := by
  apply List.ne_nil_of_length_pos
  rw [List.length_take_of_le matchAt_le]
  exact Nat.pos_of_ne_zero h

/-- Where nothing is accepted that is not empty, there is no match. -/
lemma matchAt_eq_zero
    (h : ∀ t u, s = t ++ u → t ≠ [] → p.accepts before t (headOr u after) = false) :
    p.matchAt after before s = 0 := by
  by_contra hne
  have hnone := h _ _ (List.take_append_drop _ s).symm (take_matchAt_ne_nil hne)
  rw [matchAt_accepts hne] at hnone
  cases hnone

/-- Only the texts at the head decide the match there. -/
lemma matchAt_mono {before' after' : Option α}
    (h : ∀ t u, s = t ++ u → t ≠ [] → p.accepts before t (headOr u after) = true →
      p.accepts before' t (headOr u after') = true) :
    p.matchAt after before s ≤ p.matchAt after' before' s := by
  rcases Nat.eq_zero_or_pos (p.matchAt after before s) with hzero | hpos
  · rw [hzero]
    exact Nat.zero_le _
  · have hne := Nat.pos_iff_ne_zero.1 hpos
    exact Nat.le_findGreatest matchAt_le
      (h _ _ (List.take_append_drop _ s).symm (take_matchAt_ne_nil hne) (matchAt_accepts hne))

/-- Neighbours that are accepted alike give the same match. -/
lemma matchAt_congr {before' after' : Option α}
    (h : ∀ t u, s = t ++ u → t ≠ [] →
      p.accepts before t (headOr u after) = p.accepts before' t (headOr u after')) :
    p.matchAt after before s = p.matchAt after' before' s :=
  Nat.le_antisymm (matchAt_mono fun t u hsplit hne haccepts => (h t u hsplit hne).symm.trans haccepts)
    (matchAt_mono fun t u hsplit hne haccepts => (h t u hsplit hne).trans haccepts)

/-- A match that goes no further than a part of the text is one of the part. -/
lemma matchAt_append
    (h : ∀ m y, u = m ++ y → m ≠ [] → p.accepts before (s ++ m) (headOr y after) = false) :
    p.matchAt after before (s ++ u) = p.matchAt (headOr u after) before s := by
  apply Nat.le_antisymm
  · rcases Nat.eq_zero_or_pos (p.matchAt after before (s ++ u)) with hzero | hpos
    · rw [hzero]
      exact Nat.zero_le _
    · have haccepts := matchAt_accepts (Nat.pos_iff_ne_zero.1 hpos)
      have hle : p.matchAt after before (s ++ u) ≤ s.length := by
        -- a longer match takes something of `u`
        by_contra hlong
        rw [List.take_append, List.take_of_length_le (by omega), List.drop_append,
          List.drop_of_length_le (by omega), List.nil_append] at haccepts
        have hne : u.take (p.matchAt after before (s ++ u) - s.length) ≠ [] := by
          have hlength : p.matchAt after before (s ++ u) ≤ (s ++ u).length := matchAt_le
          rw [List.length_append] at hlength
          apply List.ne_nil_of_length_pos
          rw [List.length_take]
          omega
        rw [h _ _ (List.take_append_drop _ u).symm hne] at haccepts
        cases haccepts
      rw [List.take_append_of_le_length hle, List.drop_append_of_le_length hle, headOr_append]
        at haccepts
      exact Nat.le_findGreatest hle haccepts
  · rcases Nat.eq_zero_or_pos (p.matchAt (headOr u after) before s) with hzero | hpos
    · rw [hzero]
      exact Nat.zero_le _
    · have haccepts := matchAt_accepts (Nat.pos_iff_ne_zero.1 hpos)
      have hle : p.matchAt (headOr u after) before s ≤ s.length := matchAt_le
      have htake : (s ++ u).take (p.matchAt (headOr u after) before s) =
          s.take (p.matchAt (headOr u after) before s) := List.take_append_of_le_length hle
      rw [← headOr_append, ← List.drop_append_of_le_length hle, ← htake] at haccepts
      apply Nat.le_findGreatest
      · rw [List.length_append]
        exact hle.trans (Nat.le_add_right _ _)
      · exact haccepts

/-- A text that matches is matched as a whole. -/
lemma matchAt_accepted (h : p.accepts before t after = true) : p.matchAt after before t = t.length := by
  apply Nat.le_antisymm matchAt_le
  have hle := le_matchAt (u := []) h
  rw [List.append_nil] at hle
  exact hle

end longest

/-! ## Scanning -/

section scanning
variable {p : Pattern α} {mark : List α} {before after : Option α} {s t u m r : List α} {c : α}

/-- Nothing is left of nothing. -/
@[simp] lemma scan_nil (skip : Nat) : p.scan mark after before skip [] = [] := by
  cases skip <;> rfl

/-- The units of a match are passed over. -/
lemma scan_skip (m s : List α) :
    p.scan mark after before m.length (m ++ s) = p.scan mark after (lastOr before m) 0 s := by
  induction m generalizing before with
  | nil => rfl
  | cons c m ih => rw [List.length_cons, List.cons_append, scan, ih, lastOr_cons]

/-- A unit at which nothing matches stays. -/
lemma scan_keep (h : p.matchAt after before (c :: s) = 0) :
    p.scan mark after before 0 (c :: s) = c :: p.scan mark after (some c) 0 s := by
  rw [scan, h]

/-- A match is replaced by the mark. -/
lemma scan_found (hm : m ≠ []) (h : p.matchAt after before (m ++ s) = m.length) :
    p.scan mark after before 0 (m ++ s) = mark ++ p.scan mark after (lastOr before m) 0 s := by
  obtain ⟨c, m, rfl⟩ := List.exists_cons_of_ne_nil hm
  rw [List.cons_append] at h ⊢
  rw [scan, h, List.length_cons, lastOr_cons]
  exact congrArg (mark ++ ·) (scan_skip m s)

/-- A scan step by step. -/
inductive Scanned (p : Pattern α) (mark : List α) (after : Option α) :
    Option α → List α → List α → Prop where
  | nil {before : Option α} : Scanned p mark after before [] []
  | keep {before : Option α} {c : α} {s r : List α} : p.matchAt after before (c :: s) = 0 →
      Scanned p mark after (some c) s r → Scanned p mark after before (c :: s) (c :: r)
  | found {before : Option α} {m s r : List α} : m ≠ [] → p.matchAt after before (m ++ s) = m.length →
      Scanned p mark after (lastOr before m) s r → Scanned p mark after before (m ++ s) (mark ++ r)

/-- The scan is one of the ways to replace all matches. -/
lemma scanned_scan (s : List α) (before : Option α) :
    Scanned p mark after before s (p.scan mark after before 0 s) := by
  -- on the length of the text, as a match takes several characters away
  induction hn : s.length using Nat.strong_induction_on generalizing s before with
  | _ n ih =>
    cases s with
    | nil => exact .nil
    | cons c s =>
      rcases Nat.eq_zero_or_pos (p.matchAt after before (c :: s)) with hzero | hpos
      · rw [scan_keep hzero]
        exact .keep hzero (ih s.length (by rw [← hn]; exact Nat.lt_succ_self _) s (some c) rfl)
      · have hsplit := List.take_append_drop (p.matchAt after before (c :: s)) (c :: s)
        have hlength : ((c :: s).take (p.matchAt after before (c :: s))).length =
            p.matchAt after before (c :: s) := List.length_take_of_le matchAt_le
        generalize (c :: s).take (p.matchAt after before (c :: s)) = m at hsplit hlength
        generalize (c :: s).drop (p.matchAt after before (c :: s)) = rest at hsplit
        rw [← hsplit] at hlength hpos hn ⊢
        have hm : m ≠ [] := by
          rintro rfl
          exact absurd hlength.symm (Nat.pos_iff_ne_zero.1 hpos)
        rw [scan_found hm hlength.symm]
        refine .found hm hlength.symm (ih rest.length ?_ rest _ rfl)
        rw [← hn, List.length_append]
        have := List.length_pos_iff.2 hm
        omega

/-- Only an empty text leaves nothing. -/
lemma Scanned.eq_nil (hmark : mark ≠ []) (h : Scanned p mark after before s []) : s = [] := by
  generalize hr : ([] : List α) = r at h
  cases h with
  | nil => rfl
  | keep hzero hrest => cases hr
  | found hm hmatch hrest => exact absurd (List.append_eq_nil_iff.1 hr.symm).1 hmark

/-! ## Where a text of the result stood -/

/-- What stands in front of a place of the result, by what stands there in the source: the same, or the
end of a mark for a match. -/
def Left (p : Pattern α) (mark : List α) (after : Option α) (found before : Option α) (s : List α) :
    Prop :=
  found = before ∨ (found = mark.getLast? ∧
    ∃ x m, m ≠ [] ∧ m.getLast? = before ∧ p.matchAt after x (m ++ s) = m.length)

/-- What stands behind a place of the result. -/
def Right (p : Pattern α) (mark : List α) (after : Option α) (found before : Option α) (s : List α) :
    Prop :=
  found = headOr s after ∨ (found = mark.head? ∧
    ∃ m y, m ≠ [] ∧ s = m ++ y ∧ p.matchAt after before s = m.length)

/-- A text `t` of a result stands in the source between `a` and `b`, and no match begins in it. -/
structure Source (p : Pattern α) (mark : List α) (after before found : Option α)
    (a' t b' a b : List α) : Prop where
  kept : ∀ t₁ t₂, t = t₁ ++ t₂ → t₂ ≠ [] → p.matchAt after (lastOr before (a ++ t₁)) (t₂ ++ b) = 0
  left : p.Left mark after (lastOr found a') (lastOr before a) (t ++ b)
  right : p.Right mark after (headOr b' after) (lastOr before (a ++ t)) b
  front : a' = [] → a = []
  back : b' = [] → b = []

/-- What stands right of a scanned text. -/
lemma Scanned.right (hmark : mark ≠ []) (h : Scanned p mark after before s r) :
    p.Right mark after (headOr r after) before s := by
  cases h with
  | nil => exact .inl rfl
  | keep hzero hrest => exact .inl rfl
  | @found _ m s r hm hmatch hrest =>
    obtain ⟨d, mark, rfl⟩ := List.exists_cons_of_ne_nil hmark
    exact .inr ⟨rfl, m, s, hm, rfl, hmatch⟩

/-- A text of the result without anything of the mark stood in the source. -/
theorem Scanned.source (hmark : mark ≠ []) (h : Scanned p mark after before s r) {found : Option α}
    (hleft : p.Left mark after found before s) {a' b' : List α} (hr : r = a' ++ (t ++ b')) (ht : t ≠ [])
    (hfree : ∀ c ∈ mark, c ∉ t) :
    ∃ a b, s = a ++ (t ++ b) ∧ p.Source mark after before found a' t b' a b := by
  induction h generalizing found a' t with
  | nil =>
    obtain ⟨-, htb⟩ := List.append_eq_nil_iff.1 hr.symm
    exact absurd (List.append_eq_nil_iff.1 htb).1 ht
  | @keep before c s r hzero hrest ih =>
    cases a' with
    | cons d a' =>
      obtain ⟨rfl, htail⟩ := List.cons.inj hr
      obtain ⟨a, b, rfl, hsource⟩ := ih (.inl rfl) htail ht hfree
      refine ⟨c :: a, b, rfl, ?_, ?_, ?_, nofun, hsource.back⟩
      · intro t₁ t₂ hsplit hne
        rw [List.cons_append, lastOr_cons]
        exact hsource.kept t₁ t₂ hsplit hne
      · rw [lastOr_cons, lastOr_cons]
        exact hsource.left
      · rw [List.cons_append, lastOr_cons]
        exact hsource.right
    | nil =>
      obtain ⟨d, t, rfl⟩ := List.exists_cons_of_ne_nil ht
      obtain ⟨rfl, htail⟩ := List.cons.inj hr
      rw [List.append_eq] at htail
      by_cases hnil : t = []
      · subst hnil
        rw [List.nil_append] at htail
        subst htail
        refine ⟨[], s, rfl, ?_, hleft, ?_, fun _ => rfl, ?_⟩
        · intro t₁ t₂ hsplit hne
          rcases List.cons_eq_append_iff.1 hsplit with ⟨rfl, rfl⟩ | ⟨t₁', rfl, hempty⟩
          · exact hzero
          · exact absurd (List.append_eq_nil_iff.1 hempty.symm).2 hne
        · exact hrest.right hmark
        · rintro rfl
          exact hrest.eq_nil hmark
      · have hfree' : ∀ e ∈ mark, e ∉ t := fun e he hmem => hfree e he (List.mem_cons_of_mem _ hmem)
        obtain ⟨a, b, rfl, hsource⟩ := ih (.inl rfl) (htail.trans (List.nil_append _).symm) hnil hfree'
        have hfront := hsource.front rfl
        subst hfront
        refine ⟨[], b, rfl, ?_, hleft, ?_, fun _ => rfl, hsource.back⟩
        · intro t₁ t₂ hsplit hne
          rcases List.cons_eq_append_iff.1 hsplit with ⟨rfl, rfl⟩ | ⟨t₁', rfl, hsplit'⟩
          · exact hzero
          · rw [List.nil_append, lastOr_cons]
            exact hsource.kept t₁' t₂ hsplit' hne
        · rw [List.nil_append, lastOr_cons]
          exact hsource.right
  | @found before m s r hm hmatch hrest ih =>
    -- the mark stands in front of the text, as the text has nothing of it
    obtain ⟨a'', rfl, htail⟩ : ∃ a'', a' = mark ++ a'' ∧ r = a'' ++ (t ++ b') := by
      rcases List.append_eq_append_iff.1 hr with ⟨mid, hmid, hrest'⟩ | ⟨mid, hmid, hrest'⟩
      · exact ⟨mid, hmid, hrest'⟩
      · cases mid with
        | nil => exact ⟨[], by simpa using hmid.symm, by simpa using hrest'.symm⟩
        | cons e mid =>
          obtain ⟨d, t, rfl⟩ := List.exists_cons_of_ne_nil ht
          have hhead : d = e := (List.cons.inj hrest').1
          exact absurd List.mem_cons_self
            (hfree d (hmid ▸ List.mem_append_right _ (hhead ▸ List.mem_cons_self)))
    have hleft' : p.Left mark after mark.getLast? (lastOr before m) s :=
      .inr ⟨rfl, before, m, hm, (lastOr_of_ne_nil hm).symm, hmatch⟩
    obtain ⟨a, b, rfl, hsource⟩ := ih hleft' htail ht hfree
    refine ⟨m ++ a, b, by rw [List.append_assoc], ?_, ?_, ?_, ?_, hsource.back⟩
    · intro t₁ t₂ hsplit hne
      rw [List.append_assoc, lastOr_append]
      exact hsource.kept t₁ t₂ hsplit hne
    · rw [lastOr_append, lastOr_append, lastOr_of_ne_nil hmark]
      exact hsource.left
    · rw [List.append_assoc, lastOr_append]
      exact hsource.right
    · intro hnil
      exact absurd (List.append_eq_nil_iff.1 hnil).1 hmark

end scanning

/-! ## Nothing is left -/

section free
variable {p q : Pattern α} {mark s : List α} {before after : Option α}

/-- A text in which nothing is accepted stays. -/
lemma scan_free
    (h : ∀ a m y, s = a ++ (m ++ y) → m ≠ [] →
      p.accepts (lastOr before a) m (headOr y after) = false) :
    p.scan mark after before 0 s = s := by
  induction s generalizing before with
  | nil => rfl
  | cons c s ih =>
    have hzero : p.matchAt after before (c :: s) = 0 :=
      matchAt_eq_zero fun m y hsplit hm => h [] m y hsplit hm
    rw [scan_keep hzero]
    refine congrArg (c :: ·) (ih fun a m y hsplit hm => ?_)
    have hnone := h (c :: a) m y (by rw [hsplit]; rfl) hm
    rw [lastOr_cons] at hnone
    exact hnone

/-- Nothing is accepted within a free text. -/
lemma Free.not_accepts {a t b : List α} (h : p.Free (a ++ (t ++ b))) (ht : t ≠ []) :
    ¬ p.accepts (lastOr none a) t (headOr b none) = true := by
  rw [Bool.not_eq_true]
  exact h a t b rfl ht

/-- A free text stays. -/
lemma Free.replace_eq (h : p.Free s) : p.replace mark s = s :=
  scan_free h

/-- What `q` accepts in a result of `p`, it accepts in the source. -/
def Carries (p q : Pattern α) (mark : List α) : Prop :=
  ∀ a' t b' a b, t ≠ [] → p.Source mark none none none a' t b' a b →
    q.accepts (lastOr none a') t (headOr b' none) = true →
      q.accepts (lastOr none a) t (headOr b none) = true

/-- No text with something of the mark matches. -/
def Inert (p : Pattern α) (mark : List α) : Prop :=
  ∀ x t y, p.accepts x t y = true → ∀ c ∈ mark, c ∉ t

/-- A pattern without a match in the source has none in the result. -/
lemma Free.replace (hmark : mark ≠ []) (hinert : q.Inert mark) (hcarries : Carries p q mark)
    (h : q.Free s) : q.Free (p.replace mark s) := by
  intro a' t b' hr ht
  by_contra haccepts
  rw [Bool.not_eq_false] at haccepts
  obtain ⟨a, b, hs, hsource⟩ :=
    (scanned_scan s none).source hmark (.inl rfl) hr ht (hinert _ _ _ haccepts)
  have hnone := h a t b hs ht
  rw [hcarries a' t b' a b ht hsource haccepts] at hnone
  cases hnone

/-- A pattern has no match left where it was replaced. -/
lemma free_replace (hmark : mark ≠ []) (hinert : p.Inert mark) (hcarries : Carries p p mark) :
    p.Free (p.replace mark s) := by
  intro a' t b' hr ht
  by_contra haccepts
  rw [Bool.not_eq_false] at haccepts
  obtain ⟨a, b, hs, hsource⟩ :=
    (scanned_scan s none).source hmark (.inl rfl) hr ht (hinert _ _ _ haccepts)
  have hkept := hsource.kept [] t rfl ht
  rw [List.append_nil] at hkept
  have hle := le_matchAt (hcarries a' t b' a b ht hsource haccepts)
  rw [hkept] at hle
  exact ht (List.length_eq_zero_iff.1 (Nat.le_zero.1 hle))

end free

/-! ## Patterns between edges -/

/-- The neighbours do not matter. -/
def Plain (p : Pattern α) : Prop :=
  ∀ x x' t y y', p.accepts x t y = p.accepts x' t y'

/-- A match stands between two edges, and nothing else of the neighbours matters. -/
structure Edged (edge : Option α → Option α → Bool) (p : Pattern α) : Prop where
  front : ∀ {x t y}, p.accepts x t y = true → edge x t.head? = true
  back : ∀ {x t y}, p.accepts x t y = true → edge t.getLast? y = true
  sides : ∀ {x t y x' y'}, p.accepts x t y = true → edge x' t.head? = true →
    edge t.getLast? y' = true → p.accepts x' t y' = true

section edges
variable {p q : Pattern α} {mark : List α} {edge : Option α → Option α → Bool}

/-- A pattern that looks at nothing around it is carried over any replacement. -/
lemma Plain.carries (h : q.Plain) : Carries p q mark := by
  intro a' t b' a b ht hsource haccepts
  rw [h _ (lastOr none a') t _ (headOr b' none)]
  exact haccepts

/-- Next to a match is an edge, and so it is next to the mark that stands for it. -/
lemma Edged.carries (hp : p.Edged edge) (hq : q.Edged edge) : Carries p q mark := by
  intro a' t b' a b ht hsource haccepts
  apply hq.sides haccepts
  · rcases hsource.left with hsame | ⟨hfound, x, m, hm, hlast, hmatch⟩
    · rw [← hsame]
      exact hq.front haccepts
    · have hedge := hp.back (matchAt_append_accepts hm hmatch)
      rw [headOr_append, headOr_of_ne_nil ht, hlast] at hedge
      exact hedge
  · rcases hsource.right with hsame | ⟨hfound, m, y, hm, hb, hmatch⟩
    · rw [← hsame]
      exact hq.back haccepts
    · rw [hb] at hmatch
      have hedge := hp.front (matchAt_append_accepts hm hmatch)
      rw [lastOr_append, lastOr_of_ne_nil ht] at hedge
      rw [hb, headOr_append, headOr_of_ne_nil hm]
      exact hedge

end edges

/-! ## Parts of a text -/

/-- No match goes over the place between `a` and `u`. -/
def Cut (p : Pattern α) (before after : Option α) (a u : List α) : Prop :=
  ∀ x w m y, a = x ++ w → u = m ++ y → w ≠ [] → m ≠ [] →
    p.accepts (lastOr before x) (w ++ m) (headOr y after) = false

/-- Every match that overlaps `t` between `a` and `b` lies within it. -/
structure Whole (p : Pattern α) (a t b : List α) : Prop where
  front : p.Cut none none a (t ++ b)
  back : p.Cut none none (a ++ t) b

/-- No match overlaps `t` between `a` and `b`. -/
structure Untouched (p : Pattern α) (a t b : List α) : Prop extends p.Whole a t b where
  within : ∀ x m y, t = x ++ (m ++ y) → m ≠ [] →
    p.accepts (lastOr none (a ++ x)) m (headOr (y ++ b) none) = false

section parts
variable {p : Pattern α} {mark : List α} {before after x x' y y' : Option α}
variable {a s t b u A B U : List α} {P : α → Prop}

/-- Where no match goes over a place of the text, the parts are scanned on their own. -/
lemma Cut.scan_append (hcut : p.Cut before after a u) :
    p.scan mark after before 0 (a ++ u) =
      p.scan mark (headOr u after) before 0 a ++ p.scan mark after (lastOr before a) 0 u := by
  have hscan : ∀ {before a r}, Scanned p mark (headOr u after) before a r → p.Cut before after a u →
      p.scan mark after before 0 (a ++ u) = r ++ p.scan mark after (lastOr before a) 0 u := by
    intro before a r h hcut
    induction h with
    | nil => rfl
    | @keep before c s r hzero hrest ih =>
      have hmatch := matchAt_append (s := c :: s) fun m y hu hm =>
        hcut [] (c :: s) m y rfl hu (List.cons_ne_nil c s) hm
      rw [lastOr_nil, hzero, List.cons_append] at hmatch
      rw [List.cons_append, scan_keep hmatch, lastOr_cons]
      refine congrArg (c :: ·) (ih ?_)
      intro x w m y hsplit hu hw hm
      have hnone := hcut (c :: x) w m y (by rw [hsplit]; rfl) hu hw hm
      rw [lastOr_cons] at hnone
      exact hnone
    | @found before m s r hm hmatch hrest ih =>
      have hmatch' := matchAt_append (s := m ++ s) fun m' y hu hm' =>
        hcut [] (m ++ s) m' y rfl hu (List.append_ne_nil_of_left_ne_nil hm s) hm'
      rw [lastOr_nil, hmatch, List.append_assoc] at hmatch'
      rw [List.append_assoc, scan_found hm hmatch', lastOr_append, ih ?_, List.append_assoc]
      intro x w m' y hsplit hu hw hm'
      have hnone := hcut (m ++ x) w m' y (by rw [hsplit, List.append_assoc]) hu hw hm'
      rw [lastOr_append] at hnone
      exact hnone
  exact hscan (scanned_scan a before) hcut

/-- A cut behind a longer text. -/
lemma Cut.of_append (h : p.Cut before after (a ++ t) u) : p.Cut (lastOr before a) after t u := by
  intro x w m y hsplit hu hw hm
  have hnone := h (a ++ x) w m y (by rw [hsplit, List.append_assoc]) hu hw hm
  rw [lastOr_append] at hnone
  exact hnone

/-- A text that holds every match it overlaps is scanned on its own, and so is what is around it. -/
lemma Whole.scan (ht : t ≠ []) (h : p.Whole a t b) :
    p.replace mark (a ++ (t ++ b)) = p.scan mark t.head? none 0 a ++
      (p.scan mark (headOr b none) (lastOr none a) 0 t ++ p.scan mark none t.getLast? 0 b) := by
  rw [Pattern.replace, h.front.scan_append, h.back.of_append.scan_append, headOr_append,
    headOr_of_ne_nil ht, lastOr_of_ne_nil ht]

/-- A match that holds all others is replaced by the mark. -/
lemma Whole.replace (ht : t ≠ []) (h : p.Whole a t b)
    (haccepts : p.accepts (lastOr none a) t (headOr b none) = true) :
    p.replace mark (a ++ (t ++ b)) =
      p.scan mark t.head? none 0 a ++ (mark ++ p.scan mark none t.getLast? 0 b) := by
  have hscan : p.scan mark (headOr b none) (lastOr none a) 0 t = mark := by
    have hmatch : p.matchAt (headOr b none) (lastOr none a) (t ++ []) = t.length := by
      rw [List.append_nil]
      exact matchAt_accepted haccepts
    rw [← List.append_nil t, scan_found ht hmatch, scan_nil, List.append_nil]
  rw [h.scan ht, hscan]

/-- Around a text that no match reaches into, each side is replaced on its own. -/
lemma Untouched.replace (ht : t ≠ []) (h : p.Untouched a t b) :
    p.replace mark (a ++ (t ++ b)) =
      p.scan mark t.head? none 0 a ++ (t ++ p.scan mark none t.getLast? 0 b) := by
  have hscan : p.scan mark (headOr b none) (lastOr none a) 0 t = t := by
    refine scan_free fun x m y hsplit hm => ?_
    rw [← lastOr_append, ← headOr_append]
    exact h.within x m y hsplit hm
  rw [h.toWhole.scan ht, hscan]

/-! ### Where no match goes over a place -/

/-- A unit that cannot be accepted cuts what stands behind it. -/
lemma cut_of_last (h : ∀ x t y, p.accepts x t y = true → ∀ c ∈ t, P c)
    (hlast : ∀ c ∈ a.getLast?, ¬ P c) : p.Cut before after a u := by
  intro x w m y hsplit hu hw hm
  by_contra haccepts
  rw [Bool.not_eq_false] at haccepts
  have hmem : w.getLast hw ∈ w ++ m := List.mem_append_left _ (List.getLast_mem hw)
  refine hlast (w.getLast hw) ?_ (h _ _ _ haccepts _ hmem)
  rw [hsplit, List.getLast?_append_of_ne_nil _ hw, List.getLast?_eq_some_getLast hw]
  rfl

/-- A unit that cannot be accepted cuts what stands in front of it. -/
lemma cut_of_head (h : ∀ x t y, p.accepts x t y = true → ∀ c ∈ t, P c)
    (hhead : ∀ c ∈ u.head?, ¬ P c) : p.Cut before after a u := by
  intro x w m y hsplit hu hw hm
  by_contra haccepts
  rw [Bool.not_eq_false] at haccepts
  obtain ⟨c, m, rfl⟩ := List.exists_cons_of_ne_nil hm
  have hmem : c ∈ w ++ c :: m := List.mem_append_right _ List.mem_cons_self
  refine hhead c ?_ (h _ _ _ haccepts _ hmem)
  rw [hu]
  rfl

/-- No part of an inert mark is accepted. -/
lemma Inert.within (h : p.Inert mark) (x m y : List α) (hsplit : mark = x ++ (m ++ y)) (hm : m ≠ []) :
    p.accepts before m after = false := by
  by_contra haccepts
  rw [Bool.not_eq_false] at haccepts
  obtain ⟨c, m, rfl⟩ := List.exists_cons_of_ne_nil hm
  refine h _ _ _ haccepts c ?_ List.mem_cons_self
  rw [hsplit]
  exact List.mem_append_right _ List.mem_cons_self

/-- An inert mark is free. -/
lemma Inert.free (h : p.Inert mark) : p.Free mark :=
  fun x m y => h.within x m y

/-- No match overlaps a mark. -/
lemma Inert.untouched (hmark : mark ≠ []) (h : p.Inert mark) : p.Untouched a mark b := by
  have hnone : ∀ x t y, p.accepts x t y = true → ∀ c ∈ t, c ∉ mark :=
    fun x t y haccepts c hc hmem => h x t y haccepts c hmem hc
  refine ⟨⟨?_, ?_⟩, fun x m y => h.within x m y⟩
  · refine cut_of_head hnone fun c hc hout => hout ?_
    obtain ⟨d, mark, rfl⟩ := List.exists_cons_of_ne_nil hmark
    rw [Option.mem_some.1 hc]
    exact List.mem_cons_self
  · refine cut_of_last hnone fun c hc hout => hout ?_
    rw [List.getLast?_append_of_ne_nil _ hmark] at hc
    exact List.mem_of_getLast? hc

/-! ### Parts of a result -/

/-- An end of a result without anything of the mark is an end of the source. -/
lemma suffix_scan (hmark : mark ≠ []) (hfree : ∀ c ∈ mark, c ∉ t)
    (h : t <:+ p.scan mark after before 0 s) : t <:+ s := by
  rcases eq_or_ne t [] with rfl | ht
  · exact List.nil_suffix
  · obtain ⟨a', hr⟩ := h
    have hr' : p.scan mark after before 0 s = a' ++ (t ++ []) := by
      rw [List.append_nil, hr]
    obtain ⟨a, b, hs, hsource⟩ := (scanned_scan s before).source hmark (.inl rfl) hr' ht hfree
    rw [hsource.back rfl, List.append_nil] at hs
    exact ⟨a, hs.symm⟩

/-- A text without units of the mark stood in front before the replacement. -/
lemma prefix_scan (hmark : mark ≠ []) (hfree : ∀ c ∈ mark, c ∉ t)
    (h : t <+: p.scan mark after before 0 s) : t <+: s := by
  rcases eq_or_ne t [] with rfl | ht
  · exact List.nil_prefix
  · obtain ⟨b', hr⟩ := h
    have hr' : p.scan mark after before 0 s = [] ++ (t ++ b') := hr.symm
    obtain ⟨a, b, hs, hsource⟩ := (scanned_scan s before).source hmark (.inl rfl) hr' ht hfree
    rw [hsource.front rfl, List.nil_append] at hs
    exact ⟨b, hs.symm⟩

/-- What stands at the end of a result, if it stands there in the source or is of the mark. -/
lemma getLast_scan (hmark : mark ≠ []) (hinside : ∀ c ∈ mark, P c) (h : ∀ c ∈ s.getLast?, P c) :
    ∀ c ∈ (p.scan mark after before 0 s).getLast?, P c := by
  intro c hc
  by_cases hmem : c ∈ mark
  · exact hinside c hmem
  · obtain ⟨r, hr⟩ := List.getLast?_eq_some_iff.1 (Option.mem_def.1 hc)
    obtain ⟨a, ha⟩ := suffix_scan (t := [c]) hmark
      (fun d hd hdc => hmem (List.mem_singleton.1 hdc ▸ hd)) ⟨r, hr.symm⟩
    exact h c (List.getLast?_eq_some_iff.2 ⟨a, ha.symm⟩)

/-- The first element after the replacement is that of the text or of the mark. -/
lemma head_scan (hmark : mark ≠ []) (hinside : ∀ c ∈ mark, P c) (h : ∀ c ∈ s.head?, P c) :
    ∀ c ∈ (p.scan mark after before 0 s).head?, P c := by
  intro c hc
  by_cases hmem : c ∈ mark
  · exact hinside c hmem
  · obtain ⟨r, hr⟩ := List.head?_eq_some_iff.1 (Option.mem_def.1 hc)
    obtain ⟨b, hb⟩ := prefix_scan (t := [c]) hmark
      (fun d hd hdc => hmem (List.mem_singleton.1 hdc ▸ hd)) ⟨r, hr.symm⟩
    exact h c (List.head?_eq_some_iff.2 ⟨b, hb.symm⟩)

section carry
variable {q : Pattern α}

/-- A place that no match goes over, seen in a result. -/
lemma Cut.carry (hplain : q.Plain) (hinert : q.Inert mark) (h : q.Cut none none a u)
    (hback : ∀ w, (∀ c ∈ mark, c ∉ w) → w <:+ A → w <:+ a)
    (hfront : ∀ m, (∀ c ∈ mark, c ∉ m) → m <+: U → m <+: u) : q.Cut none none A U := by
  intro x w m y hA hU hw hm
  by_contra haccepts
  rw [Bool.not_eq_false] at haccepts
  have hfree := hinert _ _ _ haccepts
  obtain ⟨x', hx⟩ := hback w (fun c hc hmem => hfree c hc (List.mem_append_left _ hmem)) ⟨x, hA.symm⟩
  obtain ⟨y', hy⟩ := hfront m (fun c hc hmem => hfree c hc (List.mem_append_right _ hmem))
    ⟨y, hU.symm⟩
  have hnone := h x' w m y' hx.symm hy.symm hw hm
  rw [hplain _ (lastOr none x) _ _ (headOr y none), haccepts] at hnone
  cases hnone

/-- A suffix without units of the mark is one of the text before. -/
lemma suffix_append_of (hback : ∀ w, (∀ c ∈ mark, c ∉ w) → w <:+ A → w <:+ a) (w : List α)
    (hfree : ∀ c ∈ mark, c ∉ w) (h : w <:+ A ++ t) : w <:+ a ++ t := by
  rcases List.suffix_or_suffix_of_suffix h (List.suffix_append A t) with hin | ⟨w', rfl⟩
  · exact List.suffix_append_of_suffix hin
  · have hw := List.suffix_append_self_iff.1 h
    refine List.suffix_append_self_iff.2 (hback w' (fun c hc hmem => ?_) hw)
    exact hfree c hc (List.mem_append_left _ hmem)

/-- A prefix without units of the mark is one of the text before. -/
lemma prefix_append_of (hfront : ∀ m, (∀ c ∈ mark, c ∉ m) → m <+: B → m <+: b) (m : List α)
    (hfree : ∀ c ∈ mark, c ∉ m) (h : m <+: t ++ B) : m <+: t ++ b := by
  rcases List.prefix_or_prefix_of_prefix h (List.prefix_append t B) with hin | ⟨m', rfl⟩
  · exact List.prefix_append_of_prefix hin
  · have hm := (List.prefix_append_right_inj t).1 h
    refine (List.prefix_append_right_inj t).2 (hfront m' (fun c hc hmem => ?_) hm)
    exact hfree c hc (List.mem_append_right _ hmem)

variable (hmark : mark ≠ []) (hplain : q.Plain) (hinert : q.Inert mark)
include hmark hplain hinert

/-- A text that holds its matches holds them when another pattern is replaced around it. -/
lemma Whole.carry (h : q.Whole a t b) :
    q.Whole (p.scan mark y none 0 a) t (p.scan mark none x 0 b) where
  front := h.front.carry hplain hinert (fun _ hfree => suffix_scan hmark hfree)
    (prefix_append_of fun _ hfree => prefix_scan hmark hfree)
  back := h.back.carry hplain hinert (suffix_append_of fun _ hfree => suffix_scan hmark hfree)
    (fun _ hfree => prefix_scan hmark hfree)

/-- What no match reaches into is so after the replacement of another pattern. -/
lemma Untouched.carry (h : q.Untouched a t b) :
    q.Untouched (p.scan mark y none 0 a) t (p.scan mark none x 0 b) where
  toWhole := h.toWhole.carry hmark hplain hinert
  within := by
    intro x' m y' hsplit hm
    rw [hplain _ (lastOr none (a ++ x')) _ _ (headOr (y' ++ b) none)]
    exact h.within x' m y' hsplit hm

end carry

/-! ### Neighbours that do not matter -/

/-- What stands in front counts only where it is accepted alike. -/
lemma scan_before_congr
    (h : ∀ w z, w ≠ [] → w <+: s → p.accepts x w z = p.accepts x' w z) :
    p.scan mark after x 0 s = p.scan mark after x' 0 s := by
  cases s with
  | nil => rfl
  | cons c s =>
    have hmatch : p.matchAt after x (c :: s) = p.matchAt after x' (c :: s) :=
      matchAt_congr fun w z hsplit hw => h w _ hw ⟨z, hsplit.symm⟩
    rw [scan, scan, hmatch]

/-- What stands behind counts for a match only where it is accepted alike. -/
lemma matchAt_after_congr
    (h : ∀ w, w ≠ [] → w <:+ s → p.accepts before w y = p.accepts before w y') :
    p.matchAt y before s = p.matchAt y' before s := by
  refine matchAt_congr fun w z hsplit hw => ?_
  cases z with
  | nil =>
    rw [List.append_nil] at hsplit
    exact h w hw (hsplit ▸ List.suffix_refl s)
  | cons c z => rfl

/-- What stands behind counts only where it is accepted alike. -/
lemma scan_after_congr (h : ∀ x w, w ≠ [] → w <:+ s → p.accepts x w y = p.accepts x w y') :
    p.scan mark y before 0 s = p.scan mark y' before 0 s := by
  have hscan : ∀ {before s r}, Scanned p mark y before s r →
      (∀ x w, w ≠ [] → w <:+ s → p.accepts x w y = p.accepts x w y') →
      r = p.scan mark y' before 0 s := by
    intro before s r hscanned h
    induction hscanned with
    | nil => rfl
    | @keep before c s r hzero hrest ih =>
      rw [matchAt_after_congr (h before)] at hzero
      rw [scan_keep hzero, ih fun x w hw hsuffix => h x w hw (hsuffix.trans (List.suffix_cons c s))]
    | @found before m s r hm hmatch hrest ih =>
      rw [matchAt_after_congr (h before)] at hmatch
      rw [scan_found hm hmatch,
        ih fun x w hw hsuffix => h x w hw (hsuffix.trans (List.suffix_append m s))]
  exact hscan (scanned_scan s before) h

/-- What stands behind a text does not matter, if no match ends with it. -/
lemma scan_after_of_last (h : ∀ x t y, p.accepts x t y = true → ∀ c ∈ t.getLast?, P c)
    (hlast : ∀ c ∈ s.getLast?, ¬ P c) : p.scan mark y before 0 s = p.scan mark y' before 0 s := by
  refine scan_after_congr fun x w hw hsuffix => ?_
  have hnone (z : Option α) : p.accepts x w z = false := by
    by_contra haccepts
    rw [Bool.not_eq_false] at haccepts
    obtain ⟨s', rfl⟩ := hsuffix
    rw [List.getLast?_append_of_ne_nil _ hw, List.getLast?_eq_some_getLast hw] at hlast
    refine hlast _ rfl (h _ _ _ haccepts _ ?_)
    exact List.getLast?_eq_some_getLast hw
  rw [hnone y, hnone y']

/-- What stands in front of a text does not matter, if no match begins with it. -/
lemma scan_before_of_head (h : ∀ x t y, p.accepts x t y = true → ∀ c ∈ t.head?, P c)
    (hhead : ∀ c ∈ s.head?, ¬ P c) : p.scan mark after x 0 s = p.scan mark after x' 0 s := by
  refine scan_before_congr fun w z hw hprefix => ?_
  have hnone (x : Option α) : p.accepts x w z = false := by
    by_contra haccepts
    rw [Bool.not_eq_false] at haccepts
    obtain ⟨s', rfl⟩ := hprefix
    obtain ⟨c, w, rfl⟩ := List.exists_cons_of_ne_nil hw
    exact hhead c rfl (h _ _ _ haccepts c rfl)
  rw [hnone x, hnone x']

end parts

end Pattern

end NexusClaw
