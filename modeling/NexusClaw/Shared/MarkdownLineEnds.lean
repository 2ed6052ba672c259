import NexusClaw.Shared.MarkdownSections

/-!
# Headings and line ends

What a carriage return at the end of a line does to a heading, and texts that are the same up to their
line ends.
-/

namespace NexusClaw.AgentMarkdownPolicy
open AuditChain (Units unit units)
open Permission.DataScope (isSpace trim)
open Lines (Blank strip nonblank)

/-! ## Line ends -/

def withCarriageReturn (line : Units) : Units :=
  if line.getLast? = some carriageReturn then line else line ++ [carriageReturn]

/-- Each line but the last one with a carriage return at its end. -/
def crlfLines (lines : List Units) : List Units :=
  lines.dropLast.map withCarriageReturn ++ lines.getLast?.toList

/-- The text with CRLF line ends. -/
def toCrlf (text : Units) : Units :=
  joinLines (crlfLines (linesOf text))

/-- The text with LF line ends. -/
def unixEnds : Units → Units
  | [] => []
  | [c] => [c]
  | c :: d :: s =>
    if c = carriageReturn ∧ d = lineFeed then lineFeed :: unixEnds s else c :: unixEnds (d :: s)

structure SameUpToEnds (s s' : MarkdownSection) : Prop where
  level : s.level = s'.level
  title : s.title = s'.title
  order : s.order = s'.order
  priorityTier : s.priorityTier = s'.priorityTier
  content : unixEnds s.content = unixEnds s'.content

/-- The sections are the same with CRLF line ends. -/
def SameUnderCrlf (text : Units) : Prop :=
  List.Forall₂ SameUpToEnds (parseMarkdownSections text) (parseMarkdownSections (toCrlf text))

/-- Hashes and nothing else. -/
def IsBare (line : Units) : Prop :=
  1 ≤ line.length ∧ line.length ≤ 3 ∧ ∀ c ∈ line, c = unit '#'

/-- No heading that has a title is in front of a line end, and no line of hashes, which a carriage
return makes a heading. -/
def Unended (text : Units) : Prop :=
  ∀ line ∈ (linesOf text).dropLast,
    (∀ parts, headingLine line = some parts → parts.2 = []) ∧ ¬ IsBare line

section ends
variable {line : Units} {lines : List Units}

/-- A carriage return at the end: a title cannot hold it, and what is no title is white space. -/
lemma headingOf_concat (line : Units) : headingOf (line ++ [carriageReturn]) =
    if (1 ≤ (line.takeWhile (· = unit '#')).length ∧ (line.takeWhile (· = unit '#')).length ≤ 3) ∧
        (line.dropWhile (· = unit '#') = [] ∨
          (line.dropWhile (· = unit '#')).takeWhile isSpace ≠ []) ∧
        (line.dropWhile (· = unit '#')).dropWhile isSpace = [] then
      some ((line.takeWhile (· = unit '#')).length, [])
    else none := by
  have hspace : isSpace carriageReturn = true := by decide
  have hhashes : (line ++ [carriageReturn]).takeWhile (· = unit '#') =
      line.takeWhile (· = unit '#') := by
    rw [List.takeWhile_append]
    split
    · rename_i hall
      rw [List.takeWhile_cons_of_neg (by decide), List.append_nil]
      exact ((List.takeWhile_prefix _).eq_of_length hall).symm
    · rfl
  have hrest : (line ++ [carriageReturn]).dropWhile (· = unit '#') =
      line.dropWhile (· = unit '#') ++ [carriageReturn] := by
    rw [List.dropWhile_append]
    split
    · rename_i hnil
      rw [List.isEmpty_iff.1 hnil, List.dropWhile_cons_of_neg (by decide), List.nil_append]
    · rfl
  unfold headingOf headingLine
  dsimp only
  rw [hhashes, hrest]
  -- what is in front of the title and what follows it are looked at apart
  generalize line.takeWhile (· = unit '#') = hashes
  generalize line.dropWhile (· = unit '#') = rest
  have hspaces : (rest ++ [carriageReturn]).takeWhile isSpace ≠ [] ↔
      rest = [] ∨ rest.takeWhile isSpace ≠ [] := by
    cases rest with
    | nil => simp [hspace]
    | cons c rest => cases hc : isSpace c <;> simp [hc]
  have htitle : (rest ++ [carriageReturn]).dropWhile isSpace =
      if rest.dropWhile isSpace = [] then [] else rest.dropWhile isSpace ++ [carriageReturn] := by
    rw [List.dropWhile_append]
    simp only [List.isEmpty_iff, List.dropWhile_cons_of_pos hspace, List.dropWhile_nil]
  have hplain : (∀ c ∈ (rest ++ [carriageReturn]).dropWhile isSpace, isLineTerminator c = false) ↔
      rest.dropWhile isSpace = [] := by
    rw [htitle]
    split
    · rename_i hnil
      exact iff_of_true nofun hnil
    · rename_i hne
      refine iff_of_false (fun h => ?_) hne
      exact absurd (h carriageReturn (List.mem_append_right _ (List.mem_singleton_self _))) (by decide)
  simp only [hspaces, hplain, and_assoc]
  split
  · rename_i hmatch
    rw [Option.map_some, htitle, if_pos hmatch.2.2.2]
    rfl
  · rfl

/-- A heading with a title. -/
def isTitled (line : Units) : Bool :=
  (headingOf line).any fun heading => heading.2 ≠ []

/-- A titled line is a heading with a text. -/
lemma isTitled_iff : isTitled line = true ↔
    ∃ parts, headingLine line = some parts ∧ parts.2 ≠ [] := by
  unfold isTitled headingOf
  cases hparts : headingLine line with
  | none => simp
  | some parts =>
    have hhead : Blank isSpace parts.2 ↔ parts.2 = [] := by
      unfold headingLine at hparts
      dsimp only at hparts
      split at hparts
      · cases hparts
        unfold Blank
        rw [List.dropWhile_idempotent]
      · cases hparts
    have htrim : trim parts.2 = [] ↔ parts.2 = [] := by
      rw [← hhead, Lines.blank_iff_trim]
      rfl
    simp [htrim]

/-- A titled heading does not end in a carriage return. -/
lemma isTitled_end (h : isTitled line = true) : line.getLast? ≠ some carriageReturn := by
  obtain ⟨parts, hparts, hne⟩ := isTitled_iff.1 h
  unfold headingLine at hparts
  dsimp only at hparts
  split at hparts
  · rename_i hmatch
    cases hparts
    intro hlast
    obtain ⟨front, hfront⟩ := List.IsSuffix.trans (List.dropWhile_suffix isSpace)
      (List.dropWhile_suffix (l := line) (· = unit '#'))
    dsimp only at hne
    rw [← hfront, List.getLast?_append_of_ne_nil _ hne] at hlast
    exact absurd (hmatch.2.2.2 _ (List.mem_of_getLast? hlast)) (by decide)
  · cases hparts

/-- A title does not come from the carriage return. -/
lemma isTitled_carriage (h : isTitled (withCarriageReturn line) = true) :
    line.getLast? = some carriageReturn ∧ isTitled line = true := by
  unfold withCarriageReturn at h
  split at h
  · rename_i hlast
    exact ⟨hlast, h⟩
  · unfold isTitled at h
    rw [headingOf_concat] at h
    split at h <;> simp at h

/-- A bare line is nothing but one to three hashes. -/
lemma isBare_iff : IsBare line ↔ (1 ≤ (line.takeWhile (· = unit '#')).length ∧
    (line.takeWhile (· = unit '#')).length ≤ 3) ∧ line.dropWhile (· = unit '#') = [] := by
  unfold IsBare
  constructor
  · rintro ⟨hlower, hupper, hall⟩
    have htake : line.takeWhile (· = unit '#') = line :=
      List.takeWhile_eq_self_iff.2 fun c hc => decide_eq_true (hall c hc)
    rw [htake]
    exact ⟨⟨hlower, hupper⟩, List.dropWhile_eq_nil_iff.2 fun c hc => decide_eq_true (hall c hc)⟩
  · rintro ⟨⟨hlower, hupper⟩, hdrop⟩
    have hall : ∀ c ∈ line, c = unit '#' := fun c hc =>
      of_decide_eq_true (List.dropWhile_eq_nil_iff.1 hdrop c hc)
    have htake : line.takeWhile (· = unit '#') = line :=
      List.takeWhile_eq_self_iff.2 fun c hc => decide_eq_true (hall c hc)
    rw [htake] at hlower hupper
    exact ⟨hlower, hupper, hall⟩

/-- A bare line becomes a heading by its carriage return. -/
lemma isBare_carriage (h : IsBare line) :
    headingOf line = none ∧ (headingOf (withCarriageReturn line)).isSome = true := by
  have hbare := isBare_iff.1 h
  constructor
  · unfold headingOf headingLine
    dsimp only
    rw [hbare.2, if_neg (by simp)]
    rfl
  · have hlast : line.getLast? ≠ some carriageReturn := fun hlast =>
      absurd (h.2.2 _ (List.mem_of_getLast? hlast)) (by decide)
    unfold withCarriageReturn
    rw [if_neg hlast, headingOf_concat, if_pos ⟨hbare.1, .inl hbare.2, by rw [hbare.2]; rfl⟩]
    rfl

/-- A carriage return changes nothing else. -/
lemma headingOf_carriage (htitled : isTitled line = false) (hbare : ¬ IsBare line) :
    headingOf (withCarriageReturn line) = headingOf line := by
  unfold withCarriageReturn
  split
  · rfl
  · rw [isBare_iff] at hbare
    rw [headingOf_concat]
    by_cases htitle : (line.dropWhile (· = unit '#')).dropWhile isSpace = []
    · unfold headingOf headingLine
      dsimp only
      rw [htitle]
      by_cases hrest : line.dropWhile (· = unit '#') = []
      · rw [if_neg fun h => hbare ⟨h.1, hrest⟩, if_neg (by simp [hrest])]
        rfl
      · simp only [hrest, false_or, List.not_mem_nil, false_implies, implies_true, and_true, and_assoc]
        split <;> rfl
    · rw [if_neg fun h => htitle h.2.2]
      cases hheading : headingLine line with
      | none =>
        unfold headingOf
        rw [hheading]
        rfl
      | some parts =>
        have hparts := hheading
        unfold headingLine at hparts
        dsimp only at hparts
        split at hparts
        · cases hparts
          rw [isTitled_iff.2 ⟨_, hheading, htitle⟩] at htitled
          cases htitled
        · cases hparts

/-! ## Texts up to line ends -/

def dropCarriageReturn (line : Units) : Units :=
  if line.getLast? = some carriageReturn then line.dropLast else line

/-- A carriage return that was added is dropped. -/
lemma dropCarriageReturn_with (line : Units) :
    dropCarriageReturn (withCarriageReturn line) = dropCarriageReturn line := by
  unfold withCarriageReturn
  split
  · rfl
  · rename_i hlast
    unfold dropCarriageReturn
    rw [List.getLast?_concat, if_pos rfl, if_neg hlast, List.dropLast_concat]

/-- Any unit but a carriage return stays. -/
lemma unixEnds_cons {c : UInt16} (hc : c ≠ carriageReturn) (s : Units) :
    unixEnds (c :: s) = c :: unixEnds s := by
  cases s with
  | nil => rfl
  | cons d s => rw [unixEnds, if_neg fun h => hc h.1]

/-- The line ends are converted line by line. -/
lemma unixEnds_line (h : lineFeed ∉ line) (s : Units) :
    unixEnds (line ++ lineFeed :: s) = dropCarriageReturn line ++ lineFeed :: unixEnds s := by
  induction line with
  | nil => exact unixEnds_cons (by decide) s
  | cons c line ih =>
    obtain ⟨hc, hline⟩ := not_or.1 (List.mem_cons.not.1 h)
    cases line with
    | nil =>
      rw [List.singleton_append, unixEnds]
      unfold dropCarriageReturn
      by_cases hcr : c = carriageReturn
      · rw [if_pos ⟨hcr, rfl⟩, hcr]
        rfl
      · rw [if_neg fun h => hcr h.1, unixEnds_cons (by decide), if_neg (by simpa using hcr)]
        rfl
    | cons d line =>
      have hd : ¬ (c = carriageReturn ∧ d = lineFeed) := fun hboth =>
        hline (hboth.2 ▸ List.mem_cons_self ..)
      have hdrop : dropCarriageReturn (c :: d :: line) = c :: dropCarriageReturn (d :: line) := by
        unfold dropCarriageReturn
        rw [List.getLast?_cons_cons, List.dropLast_cons_cons]
        split <;> rfl
      rw [List.cons_append, List.cons_append, unixEnds, if_neg hd, ← List.cons_append, ih hline, hdrop]
      rfl

/-- The last line has no line end to convert. -/
lemma unixEnds_last (h : lineFeed ∉ line) : unixEnds line = line := by
  induction line with
  | nil => rfl
  | cons c line ih =>
    obtain ⟨-, hline⟩ := not_or.1 (List.mem_cons.not.1 h)
    cases line with
    | nil => rfl
    | cons d line =>
      have hd : ¬ (c = carriageReturn ∧ d = lineFeed) := fun hboth =>
        hline (hboth.2 ▸ List.mem_cons_self ..)
      rw [unixEnds, if_neg hd, ih hline]

/-- Lines that are the same but for carriage returns. -/
structure SameLine (line line' : Units) : Prop where
  heading : headingOf line = headingOf line'
  dropped : dropCarriageReturn line = dropCarriageReturn line'
  plain : lineFeed ∉ line
  plain' : lineFeed ∉ line'

/-- The first of several lines. -/
lemma joinLines_cons_cons (line next : Units) (lines : List Units) :
    joinLines (line :: next :: lines) = line ++ lineFeed :: joinLines (next :: lines) := by
  unfold joinLines
  rw [List.intercalate_cons_cons, List.append_assoc]
  rfl

/-- A carriage return is white space at the end of a line. -/
lemma rdropWhile_dropCarriageReturn (line : Units) :
    (dropCarriageReturn line).rdropWhile isSpace = line.rdropWhile isSpace := by
  unfold dropCarriageReturn
  split
  · rename_i hlast
    obtain ⟨front, rfl⟩ := List.getLast?_eq_some_iff.1 hlast
    rw [List.dropLast_concat, List.rdropWhile_concat_pos _ _ _ (by decide)]
  · rfl

/-- Such lines are joined to the same text, but for line ends and white space at its end. -/
lemma unixEnds_sameLines {lines lines' : List Units} (h : List.Forall₂ SameLine lines lines') :
    (unixEnds (joinLines lines)).rdropWhile isSpace = (unixEnds (joinLines lines')).rdropWhile isSpace := by
  induction h with
  | nil => rfl
  | cons hline hlines ih =>
    cases hlines with
    | nil =>
      unfold joinLines
      rw [List.intercalate_singleton, List.intercalate_singleton, unixEnds_last hline.plain,
        unixEnds_last hline.plain', ← rdropWhile_dropCarriageReturn, hline.dropped,
        rdropWhile_dropCarriageReturn]
    | cons hnext hlines =>
      rw [joinLines_cons_cons, joinLines_cons_cons, unixEnds_line hline.plain,
        unixEnds_line hline.plain', hline.dropped, Lines.rdropWhile_append, Lines.rdropWhile_append,
        Lines.rdropWhile_cons, Lines.rdropWhile_cons, ih]

/-- White space is dropped from the front before or after the conversion. -/
lemma dropWhile_unixEnds (s : Units) :
    (unixEnds s).dropWhile isSpace = unixEnds (s.dropWhile isSpace) := by
  fun_induction unixEnds s with
  | case1 => rfl
  | case2 c =>
    rw [List.dropWhile_cons]
    split <;> rfl
  | case3 c d s hends ih =>
    obtain ⟨rfl, rfl⟩ := hends
    rw [List.dropWhile_cons_of_pos isSpace_lineFeed, List.dropWhile_cons_of_pos (by decide),
      List.dropWhile_cons_of_pos isSpace_lineFeed, ih]
  | case4 c d s hends ih =>
    cases hc : isSpace c with
    | true => rw [List.dropWhile_cons_of_pos hc, List.dropWhile_cons_of_pos hc, ih]
    | false =>
      rw [List.dropWhile_cons_of_neg (by simp [hc]), List.dropWhile_cons_of_neg (by simp [hc]), unixEnds,
        if_neg hends]

/-- No text becomes empty. -/
lemma unixEnds_eq_nil {s : Units} : unixEnds s = [] ↔ s = [] := by
  constructor
  · intro h
    cases s with
    | nil => rfl
    | cons c s =>
      cases s with
      | nil => cases h
      | cons d s =>
        unfold unixEnds at h
        split at h <;> cases h
  · intro h
    rw [h]
    rfl

/-- White space is dropped from the back before or after the conversion. -/
lemma rdropWhile_unixEnds (s : Units) :
    (unixEnds s).rdropWhile isSpace = unixEnds (s.rdropWhile isSpace) := by
  fun_induction unixEnds s with
  | case1 => rfl
  | case2 c =>
    rw [List.rdropWhile_singleton]
    split <;> rfl
  | case3 c d s hends ih =>
    obtain ⟨rfl, rfl⟩ := hends
    rw [Lines.rdropWhile_cons, Lines.rdropWhile_cons, Lines.rdropWhile_cons, ih]
    by_cases hnil : s.rdropWhile isSpace = []
    · rw [hnil]
      rfl
    · rw [if_neg hnil, if_neg fun h => hnil (unixEnds_eq_nil.1 h), if_neg (List.cons_ne_nil _ _)]
      rfl
  | case4 c d s hends ih =>
    rw [Lines.rdropWhile_cons, Lines.rdropWhile_cons, ih]
    cases hrest : (d :: s).rdropWhile isSpace with
    | nil =>
      rw [if_pos (unixEnds_eq_nil.2 rfl), if_pos rfl]
      split <;> rfl
    | cons d' s' =>
      have hd : d' = d := (List.cons_prefix_cons.1 (hrest ▸ List.rdropWhile_prefix _ (d :: s))).1
      rw [if_neg fun h => List.cons_ne_nil _ _ (unixEnds_eq_nil.1 h), if_neg (List.cons_ne_nil _ _), hd,
        unixEnds, if_neg hends]

/-- A text is trimmed before or after the conversion. -/
lemma trim_unixEnds (s : Units) : trim (unixEnds s) = unixEnds (trim s) := by
  rw [trim_eq, trim_eq, Lines.trim, Lines.trim, dropWhile_unixEnds, rdropWhile_unixEnds]

/-- Tokens are found up to line ends. -/
lemma dropToken_unixEnds {token : Units} (h : ∀ t ∈ token, t ≠ lineFeed ∧ t ≠ carriageReturn)
    (s : Units) : dropToken token (unixEnds s) = (dropToken token s).map unixEnds := by
  induction token generalizing s with
  | nil => rfl
  | cons t token ih =>
    obtain ⟨ht, htoken⟩ := List.forall_mem_cons.1 h
    match s with
    | [] => rfl
    | [c] =>
      have hrest := ih htoken []
      rw [unixEnds] at hrest
      rw [unixEnds, dropToken]
      split
      · exact hrest
      · rfl
    | c :: d :: s =>
      rw [unixEnds]
      split
      · rename_i hends
        have hlf : lower lineFeed = lineFeed := by decide
        have hcr : lower carriageReturn = carriageReturn := by decide
        rw [hends.1, dropToken, dropToken, hlf, hcr, if_neg ht.1.symm, if_neg ht.2.symm]
        rfl
      · rw [dropToken, dropToken]
        split
        · exact ih htoken (d :: s)
        · rfl

/-- The marker stands at the same place after the conversion. -/
lemma markerAt_unixEnds (s : Units) : markerAt (unixEnds s) = markerAt s := by
  have hplain : ∀ token ∈ ["<!--", "priority:", "high", "-->"],
      ∀ t ∈ units token, t ≠ lineFeed ∧ t ≠ carriageReturn := by decide
  have hspaced (token : String) (h : token ∈ ["<!--", "priority:", "high", "-->"]) (s : Units) :
      dropToken (units token) ((unixEnds s).dropWhile isSpace) =
        (dropToken (units token) (s.dropWhile isSpace)).map unixEnds := by
    rw [dropWhile_unixEnds, dropToken_unixEnds (hplain token h)]
  unfold markerAt
  rw [dropToken_unixEnds (hplain "<!--" (by simp))]
  cases dropToken (units "<!--") s with
  | none => rfl
  | some s =>
    dsimp only [Option.map_some, bind, Option.bind]
    rw [hspaced "priority:" (by simp)]
    cases dropToken (units "priority:") (s.dropWhile isSpace) with
    | none => rfl
    | some s =>
      dsimp only [Option.map_some]
      rw [hspaced "high" (by simp)]
      cases dropToken (units "high") (s.dropWhile isSpace) with
      | none => rfl
      | some s =>
        dsimp only [Option.map_some]
        rw [hspaced "-->" (by simp), Option.isSome_map]

/-- The marker is found up to line ends. -/
lemma marker_unixEnds (s : Units) :
    explicitHighPriorityMarker (unixEnds s) = explicitHighPriorityMarker s := by
  unfold explicitHighPriorityMarker
  fun_induction unixEnds s with
  | case1 => rfl
  | case2 c => rfl
  | case3 c d s hends ih =>
    obtain ⟨rfl, rfl⟩ := hends
    have hlf (s : Units) : markerAt (lineFeed :: s) = false := rfl
    have hcr (s : Units) : markerAt (carriageReturn :: s) = false := rfl
    rw [List.tails_cons, List.tails_cons, List.tails_cons, List.any_cons, List.any_cons, List.any_cons,
      hlf, hlf, hcr, ih]
    rfl
  | case4 c d s hends ih =>
    have hat := markerAt_unixEnds (c :: d :: s)
    rw [unixEnds, if_neg hends] at hat
    rw [List.tails_cons, List.any_cons, ih, hat, ← List.any_cons, ← List.tails_cons]

/-- The priority of a section does not depend on its line ends. -/
lemma derivePriorityTier_unixEnds {title c c' : Units} (h : unixEnds c = unixEnds c') :
    derivePriorityTier title c = derivePriorityTier title c' := by
  unfold derivePriorityTier
  rw [← marker_unixEnds c, h, marker_unixEnds]

end ends

end NexusClaw.AgentMarkdownPolicy
