import NexusClaw.Shared.AgentMarkdownPolicy

/-!
# Sections written back

The sections of a text, written one below the other, are read back just where trimming makes no heading
of the first or the last line of one (`rendersBack_iff`).
-/

namespace NexusClaw.AgentMarkdownPolicy
open AuditChain (Units unit units)
open Permission.DataScope (isSpace trim)
open Lines (Blank strip nonblank)

/-! ## Sections written back -/

def headingText (level : Nat) (title : Units) : Units :=
  List.replicate level (unit '#') ++ unit ' ' :: title

/-- A heading line and the content. -/
def renderSection (s : MarkdownSection) : Units :=
  if s.level = 0 then s.content else headingText s.level s.title ++ lineFeed :: s.content

def renderSections (sections : List MarkdownSection) : Units :=
  [lineFeed, lineFeed].intercalate (sections.map renderSection)

/-- The sections are those of the text that they are written back to. -/
def RendersBack (text : Units) : Prop :=
  parseMarkdownSections (renderSections (parseMarkdownSections text)) = parseMarkdownSections text

instance (text : Units) : Decidable (RendersBack text) :=
  inferInstanceAs (Decidable (_ = _))

/-- No line of a block is a heading without the white space around the block: in front of its first
line, which was indented, or behind its last one. -/
def Edged (text : Units) : Prop :=
  ∀ block ∈ (blocks (linesOf text)).2, ∀ line ∈ strip isSpace block.2, headingOf line = none

/-- What the parser takes for a heading. -/
structure ProperHeading (heading : Nat × Units) : Prop where
  lower : 1 ≤ heading.1
  upper : heading.1 ≤ 3
  trimmed : trim heading.2 = heading.2
  plain : ∀ c ∈ heading.2, isLineTerminator c = false

section render
variable {line : Units} {lines : List Units} {heading : Nat × Units}
  {bs : List ((Nat × Units) × List Units)}

/-- A heading that is read is a proper one. -/
lemma headingOf_proper (h : headingOf line = some heading) : ProperHeading heading := by
  obtain ⟨parts, hparts, rfl⟩ := Option.map_eq_some_iff.1 h
  unfold headingLine at hparts
  dsimp only at hparts
  split at hparts
  · rename_i hmatch
    obtain ⟨hlower, hupper, -, hplain⟩ := hmatch
    cases hparts
    refine ⟨hlower, hupper, Lines.trim_trim _, fun c hc => hplain c ?_⟩
    refine (List.dropWhile_sublist _).subset ((List.rdropWhile_prefix _ _).sublist.subset hc)
  · cases hparts

/-- A proper heading is read back. -/
lemma headingOf_headingText (h : ProperHeading heading) :
    headingOf (headingText heading.1 heading.2) = some heading := by
  have hspace : isSpace (unit ' ') = true := by decide
  have hhashes : (headingText heading.1 heading.2).takeWhile (· = unit '#') =
      List.replicate heading.1 (unit '#') := by
    unfold headingText
    rw [List.takeWhile_append_of_pos (by simp [List.mem_replicate]),
      List.takeWhile_cons_of_neg (by decide), List.append_nil]
  have hrest : (headingText heading.1 heading.2).dropWhile (· = unit '#') =
      unit ' ' :: heading.2 := by
    unfold headingText
    rw [List.dropWhile_append_of_pos (by simp [List.mem_replicate]),
      List.dropWhile_cons_of_neg (by decide)]
  have htitle : (unit ' ' :: heading.2).dropWhile isSpace = heading.2 := by
    rw [List.dropWhile_cons_of_pos hspace, ← h.trimmed]
    exact Lines.dropWhile_trim _
  have hspaces : (unit ' ' :: heading.2).takeWhile isSpace ≠ [] := by
    rw [List.takeWhile_cons_of_pos hspace]
    exact List.cons_ne_nil _ _
  unfold headingOf headingLine
  dsimp only
  rw [hhashes, hrest, htitle, List.length_replicate,
    if_pos ⟨h.lower, h.upper, hspaces, h.plain⟩, Option.map_some, List.length_replicate, h.trimmed]

/-- An empty line is no heading. -/
lemma headingOf_nil : headingOf [] = none := by decide

/-- The headings of some lines are counted by their blocks. -/
lemma blocks_append (lines later : List Units) :
    (blocks (lines ++ later)).2.length = (blocks lines).2.length + (blocks later).2.length := by
  induction lines with
  | nil => exact (Nat.zero_add _).symm
  | cons line lines ih =>
    rw [List.cons_append]
    cases hheading : headingOf line with
    | none =>
      rw [blocks_cons_none hheading, blocks_cons_none hheading]
      exact ih
    | some heading =>
      rw [blocks_cons_some hheading, blocks_cons_some hheading, List.length_cons, List.length_cons, ih]
      omega

/-- There is no block if and only if there is no heading. -/
lemma blocks_length_zero : (blocks lines).2.length = 0 ↔ ∀ line ∈ lines, headingOf line = none := by
  induction lines with
  | nil => exact iff_of_true rfl nofun
  | cons line lines ih =>
    rw [List.forall_mem_cons]
    cases hheading : headingOf line with
    | none =>
      rw [blocks_cons_none hheading, ih]
      exact (and_iff_right rfl).symm
    | some heading =>
      rw [blocks_cons_some hheading]
      exact iff_of_false (Nat.succ_ne_zero _) fun h => Option.some_ne_none _ h.1

/-- Lines without a heading belong to what is in front of the next one. -/
lemma blocks_plain (hlines : ∀ line ∈ lines, headingOf line = none) (later : List Units) :
    blocks (lines ++ later) = (lines ++ (blocks later).1, (blocks later).2) := by
  induction lines with
  | nil => rfl
  | cons line lines ih =>
    obtain ⟨hline, hlines⟩ := List.forall_mem_cons.1 hlines
    rw [List.cons_append, blocks_cons_none hline, ih hlines]
    rfl

/-- Two groups of lines are joined at a line feed. -/
lemma joinLines_append (hlines : lines ≠ []) {later : List Units} (hlater : later ≠ []) :
    joinLines (lines ++ later) = joinLines lines ++ lineFeed :: joinLines later := by
  induction lines with
  | nil => exact absurd rfl hlines
  | cons line lines ih =>
    unfold joinLines at *
    cases lines with
    | nil =>
      rw [List.singleton_append, List.intercalate_cons_of_ne_nil hlater, List.intercalate_singleton,
        List.append_assoc]
      rfl
    | cons next lines =>
      rw [List.cons_append, List.intercalate_cons_of_ne_nil (by simp), ih (List.cons_ne_nil _ _),
        List.intercalate_cons_cons, List.append_assoc, List.append_assoc, List.append_assoc]

/-- The lines of sections that are written back. -/
def renderedLines : List MarkdownSection → List Units
  | [] => []
  | [s] => headingText s.level s.title :: linesOf s.content
  | s :: s' :: sections =>
    headingText s.level s.title :: (linesOf s.content ++ [] :: renderedLines (s' :: sections))

/-- A rendered section has lines. -/
lemma renderedLines_ne_nil (s : MarkdownSection) (sections : List MarkdownSection) :
    renderedLines (s :: sections) ≠ [] := by
  cases sections <;> exact List.cons_ne_nil _ _

/-- Every text has a line. -/
lemma linesOf_ne_nil (text : Units) : linesOf text ≠ [] :=
  List.splitOn_ne_nil _ _

/-- A heading over its content is the rendered section. -/
lemma joinLines_section (s : MarkdownSection) (hlevel : s.level ≠ 0) :
    joinLines (headingText s.level s.title :: linesOf s.content) = renderSection s := by
  unfold renderSection
  rw [if_neg hlevel, ← List.singleton_append, joinLines_append (List.cons_ne_nil _ _)
    (linesOf_ne_nil _), joinLines_linesOf]
  unfold joinLines
  rw [List.intercalate_singleton]

/-- The lines of the rendered sections make up what is rendered. -/
lemma joinLines_rendered (sections : List MarkdownSection) (hlevels : ∀ s ∈ sections, s.level ≠ 0) :
    joinLines (renderedLines sections) = renderSections sections := by
  induction sections with
  | nil => rfl
  | cons s sections ih =>
    obtain ⟨hlevel, hlevels⟩ := List.forall_mem_cons.1 hlevels
    unfold renderSections at *
    cases sections with
    | nil =>
      rw [List.map_singleton, List.intercalate_singleton]
      exact joinLines_section s hlevel
    | cons s' sections =>
      have hlater : [] :: renderedLines (s' :: sections) ≠ [] := List.cons_ne_nil _ _
      have hblank : joinLines ([] :: renderedLines (s' :: sections)) =
          lineFeed :: joinLines (renderedLines (s' :: sections)) :=
        joinLines_append (List.cons_ne_nil [] []) (renderedLines_ne_nil s' sections)
      rw [renderedLines, ← List.cons_append, joinLines_append (List.cons_ne_nil _ _) hlater,
        joinLines_section s hlevel, hblank, ih hlevels]
      simp only [List.map_cons]
      rw [List.intercalate_cons_cons, List.append_assoc]
      rfl

/-- The lines of a content are headings just where lines of the block are, without the white space
around it. -/
lemma content_plain (hlines : ∀ line ∈ lines, lineFeed ∉ line) :
    (∀ line ∈ linesOf (trim (joinLines lines)), headingOf line = none) ↔
      ∀ line ∈ strip isSpace lines, headingOf line = none := by
  rw [linesOf_trim hlines]
  split
  · rename_i hnil
    rw [hnil]
    exact iff_of_true (List.forall_mem_singleton.2 headingOf_nil) nofun
  · rfl

/-- Sections without headings in their contents are read back. -/
lemma sectionsOf_rendered (hproper : ∀ block ∈ bs, ProperHeading block.1)
    (hplain : ∀ block ∈ bs, ∀ line ∈ linesOf (trim (joinLines block.2)), headingOf line = none)
    (order : Nat) :
    (blocks (renderedLines (sectionsOf bs order))).1 = [] ∧
      sectionsOf (blocks (renderedLines (sectionsOf bs order))).2 order = sectionsOf bs order := by
  -- induction on the blocks; the blank line between two of them is trimmed off again
  induction bs generalizing order with
  | nil => exact ⟨rfl, rfl⟩
  | cons block bs ih =>
    obtain ⟨hhead, hproper⟩ := List.forall_mem_cons.1 hproper
    obtain ⟨hbody, hplain⟩ := List.forall_mem_cons.1 hplain
    obtain ⟨hfront, hsections⟩ := ih hproper hplain (order + 1)
    have hcontent : trim (joinLines (linesOf (trim (joinLines block.2)))) =
        trim (joinLines block.2) := by
      rw [joinLines_linesOf]
      exact Lines.trim_trim _
    cases bs with
    | nil =>
      have hblocks := blocks_plain hbody []
      rw [List.append_nil] at hblocks
      have hrendered : renderedLines (sectionsOf [block] order) =
          headingText block.1.1 block.1.2 :: linesOf (trim (joinLines block.2)) := rfl
      rw [hrendered, blocks_cons_some (headingOf_headingText hhead), hblocks]
      refine ⟨rfl, ?_⟩
      have hnil : blocks [] = ([], []) := rfl
      rw [hnil, List.append_nil, sectionsOf]
      dsimp only
      rw [hcontent]
      rfl
    | cons next bs =>
      have hrendered : renderedLines (sectionsOf (block :: next :: bs) order) =
          headingText block.1.1 block.1.2 :: (linesOf (trim (joinLines block.2)) ++ [] ::
            renderedLines (sectionsOf (next :: bs) (order + 1))) := rfl
      rw [hrendered, blocks_cons_some (headingOf_headingText hhead), blocks_plain hbody,
        blocks_cons_none headingOf_nil]
      refine ⟨rfl, ?_⟩
      rw [hfront, sectionsOf]
      dsimp only
      have hblank : joinLines (linesOf (trim (joinLines block.2)) ++ [[]]) =
          trim (joinLines block.2) ++ [lineFeed] := by
        rw [joinLines_append (linesOf_ne_nil _) (List.cons_ne_nil _ _), joinLines_linesOf]
        rfl
      have htrim : trim (trim (joinLines block.2) ++ [lineFeed]) = trim (joinLines block.2) := by
        rw [trim_eq, Lines.trim_concat isSpace_lineFeed]
        exact Lines.trim_trim _
      rw [hblank, htrim, hsections]
      rfl

/-- Each heading in a content is one more. -/
lemma rendered_length (hproper : ∀ block ∈ bs, ProperHeading block.1) (order : Nat) :
    bs.length ≤ (blocks (renderedLines (sectionsOf bs order))).2.length ∧
      ((blocks (renderedLines (sectionsOf bs order))).2.length = bs.length →
        ∀ block ∈ bs, ∀ line ∈ linesOf (trim (joinLines block.2)), headingOf line = none) := by
  -- induction on the blocks
  induction bs generalizing order with
  | nil => exact ⟨Nat.zero_le _, fun _ => nofun⟩
  | cons block bs ih =>
    obtain ⟨hhead, hproper⟩ := List.forall_mem_cons.1 hproper
    obtain ⟨hle, hequal⟩ := ih hproper (order + 1)
    have hlength : (blocks (renderedLines (sectionsOf (block :: bs) order))).2.length =
        1 + (blocks (linesOf (trim (joinLines block.2)))).2.length +
          (blocks (renderedLines (sectionsOf bs (order + 1)))).2.length := by
      cases bs with
      | nil =>
        have hrendered : renderedLines (sectionsOf [block] order) =
            headingText block.1.1 block.1.2 :: linesOf (trim (joinLines block.2)) := rfl
        rw [hrendered, blocks_cons_some (headingOf_headingText hhead), List.length_cons, Nat.add_comm]
        rfl
      | cons next bs =>
        have hrendered : renderedLines (sectionsOf (block :: next :: bs) order) =
            headingText block.1.1 block.1.2 :: (linesOf (trim (joinLines block.2)) ++ [] ::
              renderedLines (sectionsOf (next :: bs) (order + 1))) := rfl
        rw [hrendered, blocks_cons_some (headingOf_headingText hhead), List.length_cons, blocks_append,
          blocks_cons_none headingOf_nil]
        dsimp only
        omega
    rw [hlength, List.length_cons]
    refine ⟨by omega, fun heq => List.forall_mem_cons.2 ⟨?_, hequal (by omega)⟩⟩
    exact blocks_length_zero.1 (by omega)

/-- Every block begins with a proper heading. -/
lemma blocks_proper (lines : List Units) : ∀ block ∈ (blocks lines).2, ProperHeading block.1 := by
  induction lines with
  | nil => exact nofun
  | cons line lines ih =>
    cases hheading : headingOf line with
    | none =>
      rw [blocks_cons_none hheading]
      exact ih
    | some heading =>
      rw [blocks_cons_some hheading]
      exact List.forall_mem_cons.2 ⟨headingOf_proper hheading, ih⟩

/-- There is one section for each block. -/
lemma sectionsOf_length (bs : List ((Nat × Units) × List Units)) (order : Nat) :
    (sectionsOf bs order).length = bs.length := by
  induction bs generalizing order with
  | nil => rfl
  | cons block bs ih => rw [sectionsOf, List.length_cons, List.length_cons, ih]

end render

/-- The lines of sections that are written back are theirs. -/
lemma linesOf_rendered {bs : List ((Nat × Units) × List Units)} (hbs : bs ≠ [])
    (hproper : ∀ block ∈ bs, ProperHeading block.1) (order : Nat) :
    linesOf (renderSections (sectionsOf bs order)) = renderedLines (sectionsOf bs order) := by
  have hlevels : ∀ s ∈ sectionsOf bs order, s.level ≠ 0 := by
    clear hbs
    induction bs generalizing order with
    | nil => exact nofun
    | cons block bs ih =>
      obtain ⟨hhead, hproper⟩ := List.forall_mem_cons.1 hproper
      exact List.forall_mem_cons.2 ⟨Nat.ne_of_gt hhead.lower, ih hproper (order + 1)⟩
  have hheading {heading : Nat × Units} (h : ProperHeading heading) :
      lineFeed ∉ headingText heading.1 heading.2 := by
    intro hmem
    rcases List.mem_append.1 hmem with hmem | hmem
    · exact absurd (List.eq_of_mem_replicate hmem) (by decide)
    · rcases List.mem_cons.1 hmem with heq | hmem
      · exact absurd heq (by decide)
      · exact absurd (h.plain _ hmem) (by decide)
  have hlines : ∀ line ∈ renderedLines (sectionsOf bs order), lineFeed ∉ line := by
    clear hbs hlevels
    induction bs generalizing order with
    | nil => exact nofun
    | cons block bs ih =>
      obtain ⟨hhead, hproper⟩ := List.forall_mem_cons.1 hproper
      cases bs with
      | nil =>
        refine List.forall_mem_cons.2 ⟨hheading hhead, fun line hline => lineFeed_not_mem hline⟩
      | cons next bs =>
        refine List.forall_mem_cons.2 ⟨hheading hhead, List.forall_mem_append.2 ⟨?_, ?_⟩⟩
        · exact fun line hline => lineFeed_not_mem hline
        · exact List.forall_mem_cons.2 ⟨List.not_mem_nil, ih hproper (order + 1)⟩
  rw [← joinLines_rendered _ hlevels, linesOf_joinLines hlines]
  cases bs with
  | nil => exact absurd rfl hbs
  | cons block bs => exact renderedLines_ne_nil _ _

/-- Sections are read back just where no block begins or ends with what trimming makes a heading. -/
lemma rendersBack_iff (text : Units) : RendersBack text ↔ Edged text := by
  have hproper := blocks_proper (linesOf text)
  have hlines : ∀ block ∈ (blocks (linesOf text)).2, ∀ line ∈ block.2, lineFeed ∉ line :=
    fun block hblock line hline => lineFeed_not_mem (mem_blocks hblock hline)
  unfold RendersBack Edged
  -- a text without headings is one section
  by_cases hbs : (blocks (linesOf text)).2 = []
  · have hwhole := parseMarkdownSections_eq text
    rw [if_pos hbs] at hwhole
    rw [hbs]
    refine iff_of_true ?_ nofun
    rw [hwhole]
    unfold renderSections
    rw [List.map_singleton, List.intercalate_singleton]
    exact hwhole
  · rw [parseMarkdownSections_eq text]
    generalize (blocks (linesOf text)).2 = bs at hproper hlines hbs
    have hlength := rendered_length hproper 0
    have hne : (blocks (renderedLines (sectionsOf bs 0))).2 ≠ [] := by
      intro hnil
      rw [hnil, List.length_nil, Nat.le_zero] at hlength
      exact hbs (List.eq_nil_of_length_eq_zero hlength.1)
    rw [if_neg hbs, parseMarkdownSections_eq, linesOf_rendered hbs hproper, if_neg hne]
    constructor
    · intro hsame block hblock
      have hcount := congrArg List.length hsame
      rw [sectionsOf_length, sectionsOf_length] at hcount
      exact (content_plain (hlines block hblock)).1 (hlength.2 hcount block hblock)
    · intro hedged
      refine (sectionsOf_rendered hproper (fun block hblock => ?_) 0).2
      exact (content_plain (hlines block hblock)).2 (hedged block hblock)

end NexusClaw.AgentMarkdownPolicy
