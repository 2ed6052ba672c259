import Mathlib.Data.List.Basic
import Mathlib.Data.List.Infix

/-!
# Texts cut at a separator

A text is cut at the matches of a separator, from left to right and without overlaps: `sep` gives the
length of the match at the head of a text, if there is one. Texts without a match in them, joined by a
separator, are what cutting gives back (`split_intercalate`). Replacing all matches goes the same way,
and where no match goes over a place of the text, the parts are replaced on their own
(`replace_append`).
-/

namespace NexusClaw.Scan

section split
variable {α : Type} (sep : List α → Option Nat)

/-- The pieces from here on: `piece` is what has been read of the first one, in reverse, and `skip`
counts what is left of a match. -/
def splitFrom : List α → Nat → List α → List (List α)
  | piece, _, [] => [piece.reverse]
  | piece, skip + 1, _ :: cs => splitFrom piece skip cs
  | piece, 0, c :: cs =>
    match sep (c :: cs) with
    | some n => piece.reverse :: splitFrom [] (n - 1) cs
    | none => splitFrom (c :: piece) 0 cs

/-- `s.split(sep)` -/
def split (s : List α) : List (List α) :=
  splitFrom sep [] 0 s

/-- No match begins in the text, whatever follows it. -/
def Clean (t : List α) : Prop :=
  ∀ y, y ≠ [] → y <:+ t → ∀ rest, sep (y ++ rest) = none

variable {sep}

/-- A clean text is clean behind its first element. -/
lemma Clean.tail {c : α} {t : List α} (h : Clean sep (c :: t)) : Clean sep t :=
  fun y hy hsuffix => h y hy (hsuffix.trans (List.suffix_cons c t))

/-- The elements of a separator are passed over. -/
lemma splitFrom_skip (piece xs rest : List α) :
    splitFrom sep piece xs.length (xs ++ rest) = splitFrom sep piece 0 rest := by
  induction xs with
  | nil => rfl
  | cons x xs ih =>
    rw [← ih]
    rfl

/-- A clean text is one piece. -/
lemma splitFrom_clean {t : List α} (h : Clean sep t) (piece rest : List α) :
    splitFrom sep piece 0 (t ++ rest) = splitFrom sep (t.reverse ++ piece) 0 rest := by
  induction t generalizing piece with
  | nil => rfl
  | cons c t ih =>
    have hnone : sep (c :: (t ++ rest)) = none := h (c :: t) (List.cons_ne_nil c t) (List.suffix_refl _) rest
    rw [List.cons_append, splitFrom, hnone]
    show splitFrom sep (c :: piece) 0 (t ++ rest) = _
    rw [ih h.tail, List.reverse_cons, List.append_assoc]
    rfl

/-- A separator ends a piece. -/
lemma splitFrom_match {c : α} {cs rest : List α}
    (h : sep (c :: (cs ++ rest)) = some (cs.length + 1)) (piece : List α) :
    splitFrom sep piece 0 (c :: (cs ++ rest)) = piece.reverse :: splitFrom sep [] 0 rest := by
  rw [splitFrom, h]
  show piece.reverse :: splitFrom sep [] cs.length (cs ++ rest) = _
  rw [splitFrom_skip]

/-- Cutting undoes joining. -/
theorem split_intercalate {glue : List α} (hglue : glue ≠ []) {pieces : List (List α)}
    (hpieces : pieces ≠ []) (hclean : ∀ t ∈ pieces, Clean sep t)
    (hmatch : ∀ t ∈ pieces, ∀ rest, sep (glue ++ (t ++ rest)) = some glue.length) :
    split sep (glue.intercalate pieces) = pieces := by
  obtain ⟨c, cs, rfl⟩ := List.exists_cons_of_ne_nil hglue
  unfold split
  -- induction on the pieces, none of which holds a separator
  induction pieces with
  | nil => exact absurd rfl hpieces
  | cons t pieces ih =>
    have ht := hclean t (List.mem_cons_self ..)
    cases pieces with
    | nil =>
      have hwhole := splitFrom_clean ht [] []
      simp only [List.append_nil] at hwhole
      rw [List.intercalate_singleton, hwhole]
      simp [splitFrom]
    | cons u pieces =>
      have hrest := ih (List.cons_ne_nil u pieces)
        (fun v hv => hclean v (List.mem_cons_of_mem _ hv))
        (fun v hv => hmatch v (List.mem_cons_of_mem _ hv))
      have hu : ∃ tail, (c :: cs).intercalate (u :: pieces) = u ++ tail := by
        cases pieces with
        | nil => exact ⟨[], by simp⟩
        | cons v pieces => exact ⟨_, by rw [List.intercalate_cons_cons, List.append_assoc]⟩
      obtain ⟨tail, htail⟩ := hu
      have hsep : sep (c :: (cs ++ (c :: cs).intercalate (u :: pieces))) = some (cs.length + 1) := by
        rw [htail]
        exact hmatch u (List.mem_cons_of_mem _ (List.mem_cons_self ..)) tail
      rw [List.intercalate_cons_cons, List.append_assoc, splitFrom_clean ht, List.cons_append,
        splitFrom_match hsep, hrest, List.append_nil, List.reverse_reverse]

end split

section replace
variable {α : Type} (found : List α → Option (List α × Nat))

/-- The text from here on: `skip` counts what is left of a match. -/
def replaceFrom : Nat → List α → List α
  | _, [] => []
  | skip + 1, _ :: cs => replaceFrom skip cs
  | 0, c :: cs =>
    match found (c :: cs) with
    | some (replacement, n) => replacement ++ replaceFrom (n - 1) cs
    | none => c :: replaceFrom 0 cs

/-- `s.replace(pattern, replacement)` for all matches: `found` gives what stands for the match at the
head of a text, and its length. -/
def replace (s : List α) : List α :=
  replaceFrom found 0 s

/-- A match takes something of the text. -/
def Proper : Prop :=
  ∀ s replacement n, found s = some (replacement, n) → 0 < n ∧ n ≤ s.length

variable {found}

/-- The elements of a match are passed over. -/
lemma replaceFrom_drop (n : Nat) (s : List α) :
    replaceFrom found n s = replaceFrom found 0 (s.drop n) := by
  induction n generalizing s with
  | zero => rfl
  | succ n ih =>
    cases s with
    | nil => rfl
    | cons c s => exact ih s

/-- Nothing is replaced in nothing. -/
lemma replace_nil : replace found [] = [] :=
  rfl

/-- An element at which nothing is found stays. -/
lemma replace_none {c : α} {s : List α} (h : found (c :: s) = none) :
    replace found (c :: s) = c :: replace found s := by
  unfold replace
  rw [replaceFrom, h]

/-- What is found is replaced. -/
lemma replace_some (hproper : Proper found) {s replacement : List α} {n : Nat}
    (h : found s = some (replacement, n)) :
    replace found s = replacement ++ replace found (s.drop n) := by
  obtain ⟨hpos, hle⟩ := hproper s replacement n h
  cases s with
  | nil => exact absurd hle (Nat.not_le.2 hpos)
  | cons c s =>
    obtain ⟨n, rfl⟩ := Nat.exists_eq_succ_of_ne_zero (Nat.ne_of_gt hpos)
    unfold replace
    rw [replaceFrom, h]
    exact congrArg (replacement ++ ·) (replaceFrom_drop n s)

/-- Each step copies an element or replaces a match. -/
theorem replace_induction (hproper : Proper found) {P : List α → Prop} (nil : P [])
    (copy : ∀ c s, found (c :: s) = none → P s → P (c :: s))
    (change : ∀ s replacement n, found s = some (replacement, n) → P (s.drop n) → P s)
    (s : List α) : P s := by
  induction hlength : s.length using Nat.strong_induction_on generalizing s with
  | _ length ih =>
    cases s with
    | nil => exact nil
    | cons c s =>
      cases hfound : found (c :: s) with
      | none =>
        refine copy c s hfound (ih s.length ?_ s rfl)
        rw [← hlength]
        exact Nat.lt_succ_self _
      | some result =>
        obtain ⟨hpos, hle⟩ := hproper _ _ _ hfound
        refine change _ result.1 result.2 hfound (ih _ ?_ _ rfl)
        rw [List.length_drop, ← hlength]
        omega

/-- Where no match goes over the place between two parts, each is replaced on its own. -/
theorem replace_append (hproper : Proper found) {s later : List α}
    (h : ∀ t, t ≠ [] → t <:+ s → found (t ++ later) = found t) :
    replace found (s ++ later) = replace found s ++ replace found later := by
  induction s using replace_induction hproper with
  | nil => rfl
  | copy c s hnone ih =>
    have hfound := (h (c :: s) (List.cons_ne_nil _ _) (List.suffix_refl _)).trans hnone
    rw [List.cons_append] at hfound ⊢
    rw [replace_none hfound, replace_none hnone, List.cons_append,
      ih fun t ht hsuffix => h t ht (hsuffix.trans (List.suffix_cons c s))]
  | change s replacement n hsome ih =>
    obtain ⟨hpos, hle⟩ := hproper _ _ _ hsome
    have hne : s ≠ [] := by
      rintro rfl
      exact absurd hle (Nat.not_le.2 hpos)
    have hfound := (h s hne (List.suffix_refl _)).trans hsome
    rw [replace_some hproper hfound, replace_some hproper hsome, List.append_assoc,
      List.drop_append_of_le_length hle,
      ih fun t ht hsuffix => h t ht (hsuffix.trans (List.drop_suffix n s))]

end replace

end NexusClaw.Scan
