import Mathlib.Data.List.DropRight
import Mathlib.Data.List.TakeWhile

/-!
# Lines of a text

A text is cut into lines at a separator that counts as white space. What trimming the text takes off is
taken off its lines (`trim_join`): blank lines at both ends, and the white space in front of the first
line that stays and behind the last one. So no other line is touched, and none is lost
(`nonblank_strip`).
-/

namespace NexusClaw.Lines

section
variable {α : Type} (space : α → Bool) (newline : α)

def trim (s : List α) : List α :=
  (s.dropWhile space).rdropWhile space

/-- A line of white space. -/
def Blank (line : List α) : Prop :=
  line.dropWhile space = []

instance : DecidablePred (Blank space) :=
  fun line => decidable_of_iff (line.all space = true) (by simp [Blank, List.dropWhile_eq_nil_iff])

/-- Without the white space in front. -/
def dropStart : List (List α) → List (List α)
  | [] => []
  | line :: lines =>
    if Blank space line then dropStart lines else line.dropWhile space :: lines

/-- Without the white space behind. -/
def dropEnd : List (List α) → List (List α)
  | [] => []
  | line :: lines =>
    if dropEnd lines ≠ [] then line :: dropEnd lines
    else if Blank space line then [] else [line.rdropWhile space]

/-- Without the white space around the lines. -/
def strip (lines : List (List α)) : List (List α) :=
  dropEnd space (dropStart space lines)

variable {space newline}

/-! ## Trimming -/

/-- A blank line is white space. -/
lemma blank_iff {line : List α} : Blank space line ↔ ∀ c ∈ line, space c = true :=
  List.dropWhile_eq_nil_iff

/-- A blank line has nothing left from the back. -/
lemma blank_iff_rdrop {line : List α} : Blank space line ↔ line.rdropWhile space = [] := by
  rw [blank_iff, List.rdropWhile_eq_nil_iff]

/-- A blank line has nothing left. -/
lemma blank_iff_trim {line : List α} : Blank space line ↔ trim space line = [] := by
  unfold trim
  rw [← blank_iff_rdrop]
  unfold Blank
  rw [List.dropWhile_idempotent]

/-- White space is dropped from the back of the second part first. -/
lemma rdropWhile_append {xs ys : List α} : (xs ++ ys).rdropWhile space =
    if ys.rdropWhile space = [] then xs.rdropWhile space else xs ++ ys.rdropWhile space := by
  unfold List.rdropWhile
  rw [List.reverse_append, List.dropWhile_append]
  simp only [List.isEmpty_iff, List.reverse_eq_nil_iff]
  split
  · rfl
  · rw [List.reverse_append, List.reverse_reverse]

/-- White space is dropped from the back of a text. -/
lemma rdropWhile_cons {c : α} {s : List α} : (c :: s).rdropWhile space =
    if s.rdropWhile space = [] then if space c = true then [] else [c]
    else c :: s.rdropWhile space := by
  rw [← List.singleton_append, rdropWhile_append, List.rdropWhile_singleton]
  rfl

/-- White space in front and behind is taken off in either order. -/
lemma dropWhile_rdropWhile (s : List α) :
    (s.rdropWhile space).dropWhile space = (s.dropWhile space).rdropWhile space := by
  induction s with
  | nil => rfl
  | cons c s ih =>
    rw [rdropWhile_cons, List.dropWhile_cons]
    cases hc : space c with
    | true =>
      rw [if_pos rfl, if_pos rfl, ← ih]
      split
      · rename_i hnil
        rw [hnil]
      · rw [List.dropWhile_cons_of_pos hc]
    | false =>
      rw [if_neg Bool.false_ne_true, if_neg Bool.false_ne_true, rdropWhile_cons, hc,
        if_neg Bool.false_ne_true]
      split
      · rw [List.dropWhile_cons_of_neg (by simp [hc])]
      · rw [List.dropWhile_cons_of_neg (by simp [hc])]

/-- White space at the front is trimmed anyway. -/
lemma trim_dropWhile (s : List α) : trim space (s.dropWhile space) = trim space s := by
  unfold trim
  rw [List.dropWhile_idempotent]

/-- White space at the back is trimmed anyway. -/
lemma trim_rdropWhile (s : List α) : trim space (s.rdropWhile space) = trim space s := by
  unfold trim
  rw [dropWhile_rdropWhile, List.rdropWhile_idempotent]

/-- A trimmed text stays. -/
lemma trim_trim (s : List α) : trim space (trim space s) = trim space s := by
  rw [trim, trim, dropWhile_rdropWhile, List.dropWhile_idempotent, List.rdropWhile_idempotent]

/-- A trimmed text has no white space at the front. -/
lemma dropWhile_trim (s : List α) : (trim space s).dropWhile space = trim space s := by
  rw [trim, dropWhile_rdropWhile, List.dropWhile_idempotent]

/-- A trimmed text has no white space at the back. -/
lemma rdropWhile_trim (s : List α) : (trim space s).rdropWhile space = trim space s :=
  List.rdropWhile_idempotent _ _

/-- White space behind a text is trimmed. -/
lemma trim_concat {c : α} (hc : space c = true) (s : List α) :
    trim space (s ++ [c]) = trim space s := by
  rw [← trim_rdropWhile, List.rdropWhile_concat_pos _ _ _ hc, trim_rdropWhile]

/-- Trimming leaves what stands in a text without white space at either end. -/
lemma trim_around {s : List α} (hs : trim space s = s) (hne : s ≠ []) (before after : List α) :
    ∃ front rest, trim space (before ++ (s ++ after)) = front ++ (s ++ rest) ∧
      (before = [] → front = []) := by
  have hfront : s.dropWhile space = s := by
    rw [← hs]
    exact dropWhile_trim s
  have hback : s.rdropWhile space = s := by
    rw [← hs]
    exact rdropWhile_trim s
  have hdrop : ∃ front, (before ++ (s ++ after)).dropWhile space = front ++ (s ++ after) ∧
      (before = [] → front = []) := by
    rw [List.dropWhile_append]
    split
    · refine ⟨[], ?_, fun _ => rfl⟩
      rw [List.dropWhile_append, hfront, if_neg (by rwa [List.isEmpty_iff])]
      rfl
    · exact ⟨before.dropWhile space, rfl, fun h => by rw [h, List.dropWhile_nil]⟩
  have hrdrop : ∃ rest, (s ++ after).rdropWhile space = s ++ rest := by
    rw [rdropWhile_append]
    split
    · exact ⟨[], by rw [hback, List.append_nil]⟩
    · exact ⟨_, rfl⟩
  obtain ⟨front, hdrop, hempty⟩ := hdrop
  obtain ⟨rest, hrdrop⟩ := hrdrop
  refine ⟨front, rest, ?_, hempty⟩
  rw [trim, hdrop, rdropWhile_append, hrdrop, if_neg (List.append_ne_nil_of_left_ne_nil hne rest)]

/-! ## Trimming lines -/

variable {lines : List (List α)}

/-- Dropping white space from joined lines drops blank lines from the start. -/
lemma dropWhile_join (hnewline : space newline = true) (lines : List (List α)) :
    ([newline].intercalate lines).dropWhile space = [newline].intercalate (dropStart space lines) := by
  induction lines with
  | nil => rfl
  | cons line lines ih =>
    rw [dropStart]
    cases lines with
    | nil =>
      rw [List.intercalate_singleton]
      split
      · rename_i hblank
        exact hblank
      · rw [List.intercalate_singleton]
    | cons next lines =>
      rw [List.intercalate_cons_cons, List.append_assoc, List.dropWhile_append]
      split
      · rename_i hblank
        rw [List.isEmpty_iff] at hblank
        rw [if_pos (show Blank space line from hblank), List.singleton_append,
          List.dropWhile_cons_of_pos hnewline, ih]
      · rename_i hline
        rw [List.isEmpty_iff] at hline
        rw [if_neg (show ¬ Blank space line from hline), List.intercalate_cons_cons, List.append_assoc]

/-- Dropping it from the back drops them from the end. -/
lemma rdropWhile_join (hnewline : space newline = true) (lines : List (List α)) :
    ([newline].intercalate lines).rdropWhile space = [newline].intercalate (dropEnd space lines) ∧
      (([newline].intercalate lines).rdropWhile space = [] ↔ dropEnd space lines = []) := by
  -- induction on the lines: the first is cut only where the others are blank
  induction lines with
  | nil => exact ⟨rfl, iff_of_true rfl rfl⟩
  | cons line lines ih =>
    rw [dropEnd]
    cases lines with
    | nil =>
      rw [List.intercalate_singleton, if_neg (by simp [dropEnd])]
      split
      · rename_i hblank
        have hnil := blank_iff_rdrop.1 hblank
        exact ⟨hnil, iff_of_true hnil rfl⟩
      · rename_i hline
        rw [List.intercalate_singleton]
        exact ⟨rfl, iff_of_false (fun hnil => hline (blank_iff_rdrop.2 hnil)) (List.cons_ne_nil _ _)⟩
    | cons next lines =>
      obtain ⟨hjoin, hnil⟩ := ih
      rw [List.intercalate_cons_cons, List.append_assoc, List.singleton_append, rdropWhile_append,
        rdropWhile_cons, hnewline, if_pos rfl]
      by_cases hend : dropEnd space (next :: lines) = []
      · rw [if_pos (hnil.2 hend), if_pos rfl, if_neg (not_not.2 hend)]
        split
        · rename_i hblank
          have hnone := blank_iff_rdrop.1 hblank
          exact ⟨hnone, iff_of_true hnone rfl⟩
        · rename_i hline
          rw [List.intercalate_singleton]
          refine ⟨rfl, iff_of_false (fun hnone => hline (blank_iff_rdrop.2 hnone)) ?_⟩
          exact List.cons_ne_nil _ _
      · rw [if_neg fun h => hend (hnil.1 h), if_neg (List.cons_ne_nil _ _), if_pos hend, hjoin,
          List.intercalate_cons_of_ne_nil hend, List.append_assoc]
        refine ⟨rfl, iff_of_false (fun h => ?_) (List.cons_ne_nil _ _)⟩
        exact List.cons_ne_nil _ _ (List.append_eq_nil_iff.1 h).2

/-- Trimming a text trims its lines. -/
theorem trim_join (hnewline : space newline = true) (lines : List (List α)) :
    trim space ([newline].intercalate lines) = [newline].intercalate (strip space lines) := by
  unfold trim strip
  rw [dropWhile_join hnewline, (rdropWhile_join hnewline _).1]

/-- The lines that are not blank, without the white space around them. -/
def nonblank (space : α → Bool) (lines : List (List α)) : List (List α) :=
  (lines.filter fun line => ¬ Blank space line).map (trim space)

/-- A blank line is skipped. -/
lemma nonblank_cons (line : List α) (lines : List (List α)) : nonblank space (line :: lines) =
    if Blank space line then nonblank space lines else trim space line :: nonblank space lines := by
  unfold nonblank
  rw [List.filter_cons]
  by_cases hblank : Blank space line
  · rw [if_pos hblank, if_neg (by simpa using hblank)]
  · rw [if_neg hblank, if_pos (by simpa using hblank), List.map_cons]

/-- The lines of two groups. -/
lemma nonblank_append (lines later : List (List α)) :
    nonblank space (lines ++ later) = nonblank space lines ++ nonblank space later := by
  unfold nonblank
  rw [List.filter_append, List.map_append]

/-- No line is left if all are blank. -/
lemma nonblank_eq_nil : nonblank space lines = [] ↔ ∀ line ∈ lines, Blank space line := by
  unfold nonblank
  rw [List.map_eq_nil_iff, List.filter_eq_nil_iff]
  simp

/-- Blank lines at the start do not count. -/
lemma nonblank_dropStart (lines : List (List α)) :
    nonblank space (dropStart space lines) = nonblank space lines := by
  induction lines with
  | nil => rfl
  | cons line lines ih =>
    rw [dropStart, nonblank_cons]
    split
    · exact ih
    · rename_i hline
      have hdropped : ¬ Blank space (line.dropWhile space) := by
        rwa [blank_iff_trim, trim_dropWhile, ← blank_iff_trim]
      rw [nonblank_cons, if_neg hdropped, trim_dropWhile]

/-- Nor do those at the end. -/
lemma nonblank_dropEnd (lines : List (List α)) :
    nonblank space (dropEnd space lines) = nonblank space lines := by
  induction lines with
  | nil => rfl
  | cons line lines ih =>
    rw [dropEnd, nonblank_cons]
    split
    · rw [nonblank_cons, ih]
    · rename_i hend
      rw [not_not] at hend
      rw [hend] at ih
      split
      · exact ih
      · rename_i hline
        have hdropped : ¬ Blank space (line.rdropWhile space) := by
          rwa [blank_iff_trim, trim_rdropWhile, ← blank_iff_trim]
        rw [nonblank_cons, if_neg hdropped, trim_rdropWhile, ← ih]

/-- No line is lost. -/
theorem nonblank_strip (lines : List (List α)) :
    nonblank space (strip space lines) = nonblank space lines := by
  unfold strip
  rw [nonblank_dropEnd, nonblank_dropStart]

/-- What is left at the start is a part of a line. -/
lemma mem_dropStart {line : List α} (h : line ∈ dropStart space lines) :
    ∃ whole ∈ lines, line.Sublist whole := by
  induction lines with
  | nil => cases h
  | cons first lines ih =>
    rw [dropStart] at h
    split at h
    · obtain ⟨whole, hwhole, hsub⟩ := ih h
      exact ⟨whole, List.mem_cons_of_mem _ hwhole, hsub⟩
    · rcases List.mem_cons.1 h with rfl | h
      · exact ⟨first, List.mem_cons_self .., List.dropWhile_sublist _⟩
      · exact ⟨line, List.mem_cons_of_mem _ h, List.Sublist.refl _⟩

/-- What is left at the end is a part of a line. -/
lemma mem_dropEnd {line : List α} (h : line ∈ dropEnd space lines) :
    ∃ whole ∈ lines, line.Sublist whole := by
  induction lines with
  | nil => cases h
  | cons first lines ih =>
    rw [dropEnd] at h
    split at h
    · rcases List.mem_cons.1 h with rfl | h
      · exact ⟨line, List.mem_cons_self .., List.Sublist.refl _⟩
      · obtain ⟨whole, hwhole, hsub⟩ := ih h
        exact ⟨whole, List.mem_cons_of_mem _ hwhole, hsub⟩
    · split at h
      · cases h
      · rw [List.mem_singleton.1 h]
        exact ⟨first, List.mem_cons_self .., (List.rdropWhile_prefix _ _).sublist⟩

/-- What is left on both sides is a part of a line. -/
lemma mem_strip {line : List α} (h : line ∈ strip space lines) :
    ∃ whole ∈ lines, line.Sublist whole := by
  obtain ⟨part, hpart, hsub⟩ := mem_dropEnd h
  obtain ⟨whole, hwhole, hsub'⟩ := mem_dropStart hpart
  exact ⟨whole, hwhole, hsub.trans hsub'⟩

/-- The lines of a trimmed text. -/
theorem splitOn_trim [DecidableEq α] (hnewline : space newline = true)
    (hlines : ∀ line ∈ lines, newline ∉ line) :
    (trim space ([newline].intercalate lines)).splitOn newline =
      if strip space lines = [] then [[]] else strip space lines := by
  rw [trim_join hnewline]
  split
  · rename_i hnil
    rw [hnil]
    rfl
  · rename_i hne
    refine List.splitOn_intercalate newline (fun line hline hmem => ?_) hne
    obtain ⟨whole, hwhole, hsub⟩ := mem_strip hline
    exact hlines whole hwhole (hsub.subset hmem)

/-- A line has no line feed. -/
lemma newline_not_mem_splitOn [DecidableEq α] {s line : List α} (h : line ∈ s.splitOn newline) :
    newline ∉ line := by
  induction s generalizing line with
  | nil =>
    rw [List.splitOn_nil, List.mem_singleton] at h
    rw [h]
    exact List.not_mem_nil
  | cons c s ih =>
    rw [List.splitOn_cons_eq_if_modifyHead] at h
    split at h
    · rcases List.mem_cons.1 h with rfl | h
      · exact List.not_mem_nil
      · exact ih h
    · rename_i hc
      obtain ⟨first, rest, hsplit⟩ := List.exists_cons_of_ne_nil (List.splitOn_ne_nil newline s)
      rw [hsplit, List.modifyHead_cons] at h
      rcases List.mem_cons.1 h with rfl | h
      · have hfirst : newline ∉ first := ih (hsplit ▸ List.mem_cons_self ..)
        rw [List.mem_cons, not_or]
        exact ⟨fun heq => hc (by rw [heq, beq_self_eq_true]), hfirst⟩
      · exact ih (hsplit ▸ List.mem_cons_of_mem _ h)

/-- A text begins with its first line, and every other line stands behind a separator. -/
lemma splitOn_flatMap [DecidableEq α] (newline : α) (s : List α) : ∃ first rest,
    s.splitOn newline = first :: rest ∧ s = first ++ rest.flatMap (newline :: ·) := by
  obtain ⟨first, rest, hsplit⟩ := List.exists_cons_of_ne_nil (List.splitOn_ne_nil newline s)
  refine ⟨first, rest, hsplit, ?_⟩
  have hjoin : [newline].intercalate (s.splitOn newline) = s := List.intercalate_splitOn newline
  rw [hsplit] at hjoin
  rw [← hjoin]
  clear hsplit hjoin
  induction rest generalizing first with
  | nil =>
    rw [List.intercalate_singleton]
    exact (List.append_nil first).symm
  | cons next rest ih =>
    rw [List.intercalate_cons_cons, ih, List.append_assoc]
    rfl

/-- A line stands at the start or behind a line feed. -/
lemma mem_splitOn_infix [DecidableEq α] {s line : List α} (h : line ∈ s.splitOn newline) :
    line <+: s ∨ newline :: line <:+: s := by
  obtain ⟨first, rest, hsplit, hs⟩ := splitOn_flatMap newline s
  rw [hsplit] at h
  rcases List.mem_cons.1 h with rfl | hline
  · exact .inl ⟨_, hs.symm⟩
  · obtain ⟨before, behind, hrest⟩ := List.append_of_mem hline
    refine .inr ⟨first ++ before.flatMap (newline :: ·), behind.flatMap (newline :: ·), ?_⟩
    rw [hs, hrest, List.flatMap_append, List.flatMap_cons, List.append_assoc, List.append_assoc]

end

end NexusClaw.Lines
