import NexusClaw.Shared.MarkdownLineEnds

/-!
# Sectioning a text

The sections of a text with other line ends, and when sectioning loses nothing (`faithful_iff`).
-/

namespace NexusClaw.AgentMarkdownPolicy
open AuditChain (Units unit units)
open Permission.DataScope (isSpace trim)
open Lines (Blank strip nonblank)

/-! ## The sections with other line ends -/

section ends
variable {line : Units} {lines : List Units}

/-- All lines but the last get a carriage return. -/
lemma crlfLines_cons_cons (line next : Units) (lines : List Units) :
    crlfLines (line :: next :: lines) = withCarriageReturn line :: crlfLines (next :: lines) := by
  unfold crlfLines
  rw [List.dropLast_cons_cons, List.getLast?_cons_cons]
  rfl

/-- The last line gets none. -/
lemma crlfLines_singleton (line : Units) : crlfLines [line] = [line] :=
  rfl

/-- There are as many lines as before. -/
lemma crlfLines_ne_nil (hne : lines ≠ []) : crlfLines lines ≠ [] := by
  cases lines with
  | nil => exact absurd rfl hne
  | cons line lines =>
    cases lines with
    | nil => exact List.cons_ne_nil _ _
    | cons next lines =>
      rw [crlfLines_cons_cons]
      exact List.cons_ne_nil _ _

/-- A carriage return is no line feed. -/
lemma lineFeed_not_mem_with (h : lineFeed ∉ line) : lineFeed ∉ withCarriageReturn line := by
  unfold withCarriageReturn
  split
  · exact h
  · rw [List.mem_append, not_or]
    exact ⟨h, by decide⟩

/-- The lines with carriage returns are lines. -/
lemma crlfLines_plain (hlines : ∀ line ∈ lines, lineFeed ∉ line) :
    ∀ line ∈ crlfLines lines, lineFeed ∉ line := by
  intro line hline
  rcases List.mem_append.1 hline with hline | hline
  · obtain ⟨whole, hwhole, rfl⟩ := List.mem_map.1 hline
    exact lineFeed_not_mem_with (hlines whole (List.dropLast_subset _ hwhole))
  · exact hlines line (List.mem_of_getLast? (Option.mem_toList.1 hline))

/-- The lines with CRLF line ends. -/
lemma linesOf_toCrlf (text : Units) : linesOf (toCrlf text) = crlfLines (linesOf text) :=
  linesOf_joinLines (crlfLines_plain fun _ hline => lineFeed_not_mem hline)
    (crlfLines_ne_nil (linesOf_ne_nil text))

/-- Converting back gives the text up to its own line ends. -/
lemma unixEnds_toCrlf (text : Units) : unixEnds (toCrlf text) = unixEnds text := by
  have hlines : ∀ line ∈ linesOf text, lineFeed ∉ line := fun _ hline => lineFeed_not_mem hline
  unfold toCrlf
  conv_rhs => rw [← joinLines_linesOf text]
  generalize linesOf text = lines at hlines
  induction lines with
  | nil => rfl
  | cons line lines ih =>
    obtain ⟨hline, hlines⟩ := List.forall_mem_cons.1 hlines
    cases lines with
    | nil => rw [crlfLines_singleton]
    | cons next lines =>
      have hsame := ih hlines
      obtain ⟨next', lines', hcrlf⟩ := List.exists_cons_of_ne_nil
        (crlfLines_ne_nil (List.cons_ne_nil next lines))
      rw [crlfLines_cons_cons, hcrlf, joinLines_cons_cons, joinLines_cons_cons, ← hcrlf,
        unixEnds_line (lineFeed_not_mem_with hline), unixEnds_line hline, dropCarriageReturn_with, hsame]

/-- Line by line the converted text says the same, if no title or bare hashes end a line. -/
lemma sameLines_crlf (hlines : ∀ line ∈ lines, lineFeed ∉ line)
    (hends : ∀ line ∈ lines.dropLast, isTitled line = false ∧ ¬ IsBare line) :
    List.Forall₂ SameLine lines (crlfLines lines) := by
  induction lines with
  | nil => exact .nil
  | cons line lines ih =>
    obtain ⟨hline, hlines⟩ := List.forall_mem_cons.1 hlines
    cases lines with
    | nil => exact .cons ⟨rfl, rfl, hline, hline⟩ .nil
    | cons next lines =>
      rw [List.dropLast_cons_cons] at hends
      obtain ⟨hend, hends⟩ := List.forall_mem_cons.1 hends
      rw [crlfLines_cons_cons]
      refine .cons ⟨?_, ?_, hline, lineFeed_not_mem_with hline⟩ (ih hlines hends)
      · exact (headingOf_carriage hend.1 hend.2).symm
      · exact (dropCarriageReturn_with line).symm

/-- Blocks of lines that are the same but for carriage returns. -/
def SameBlock (block block' : (Nat × Units) × List Units) : Prop :=
  block.1 = block'.1 ∧ List.Forall₂ SameLine block.2 block'.2

/-- Lines that say the same fall into the same blocks. -/
lemma blocks_sameLines {lines' : List Units} (h : List.Forall₂ SameLine lines lines') :
    List.Forall₂ SameLine (blocks lines).1 (blocks lines').1 ∧
      List.Forall₂ SameBlock (blocks lines).2 (blocks lines').2 := by
  induction h with
  | nil => exact ⟨.nil, .nil⟩
  | cons hline _ ih =>
    rename_i line line' lines lines' _
    cases hheading : headingOf line with
    | none =>
      rw [blocks_cons_none hheading, blocks_cons_none (hline.heading ▸ hheading)]
      exact ⟨.cons hline ih.1, ih.2⟩
    | some heading =>
      rw [blocks_cons_some hheading, blocks_cons_some (hline.heading ▸ hheading)]
      exact ⟨.nil, .cons ⟨rfl, ih.1⟩ ih.2⟩

/-- The same blocks give the same sections. -/
lemma sectionsOf_sameBlocks {bs bs' : List ((Nat × Units) × List Units)}
    (h : List.Forall₂ SameBlock bs bs') (order : Nat) :
    List.Forall₂ SameUpToEnds (sectionsOf bs order) (sectionsOf bs' order) := by
  induction h generalizing order with
  | nil => exact .nil
  | cons hblock _ ih =>
    rename_i block block' bs bs' _
    obtain ⟨hheading, hlines⟩ := hblock
    have hcontent : unixEnds (trim (joinLines block.2)) = unixEnds (trim (joinLines block'.2)) := by
      rw [← trim_unixEnds, ← trim_unixEnds, trim_eq, trim_eq, Lines.trim, Lines.trim,
        ← Lines.dropWhile_rdropWhile, ← Lines.dropWhile_rdropWhile, unixEnds_sameLines hlines]
    refine .cons ⟨?_, ?_, rfl, ?_, hcontent⟩ (ih (order + 1))
    · exact congrArg Prod.fst hheading
    · exact congrArg Prod.snd hheading
    · unfold sectionOf
      dsimp only
      rw [hheading]
      exact derivePriorityTier_unixEnds hcontent

/-- The headings of the blocks are those of the lines. -/
lemma blocks_headings (lines : List Units) :
    (blocks lines).2.map Prod.fst = lines.filterMap headingOf := by
  induction lines with
  | nil => rfl
  | cons line lines ih =>
    cases hheading : headingOf line with
    | none =>
      rw [blocks_cons_none hheading, List.filterMap_cons_none hheading]
      exact ih
    | some heading =>
      rw [blocks_cons_some hheading, List.filterMap_cons_some hheading, ← ih]
      rfl

/-- The levels and titles of the sections are the headings of the blocks. -/
lemma sectionsOf_headings (bs : List ((Nat × Units) × List Units)) (order : Nat) :
    (sectionsOf bs order).map (fun s => (s.level, s.title)) = bs.map Prod.fst := by
  induction bs generalizing order with
  | nil => rfl
  | cons block bs ih =>
    rw [sectionsOf, List.map_cons, List.map_cons, ih]
    rfl

/-- The levels and titles of the sections are those of the headings, or of the whole text. -/
lemma parse_headings (text : Units) :
    (parseMarkdownSections text).map (fun s => (s.level, s.title)) =
      if (linesOf text).filterMap headingOf = [] then [(0, [])]
      else (linesOf text).filterMap headingOf := by
  rw [parseMarkdownSections_eq, ← blocks_headings]
  by_cases hbs : (blocks (linesOf text)).2 = []
  · rw [if_pos hbs, if_pos (by rw [hbs]; rfl)]
    rfl
  · rw [if_neg hbs, if_neg fun h => hbs (List.map_eq_nil_iff.1 h), sectionsOf_headings]

/-- The same levels and titles are those of the same headings: a whole text has the level 0. -/
lemma headings_of_sections {text text' : Units}
    (h : (parseMarkdownSections text).map (fun s => (s.level, s.title)) =
      (parseMarkdownSections text').map (fun s => (s.level, s.title))) :
    (linesOf text).filterMap headingOf = (linesOf text').filterMap headingOf := by
  have hlevel (text : Units) : (0, []) ∉ (linesOf text).filterMap headingOf := by
    intro hmem
    obtain ⟨line, -, hline⟩ := List.mem_filterMap.1 hmem
    exact absurd (headingOf_proper hline).lower (Nat.lt_irrefl 0)
  rw [parse_headings, parse_headings] at h
  split at h
  · rename_i hnil
    split at h
    · rename_i hnil'
      rw [hnil, hnil']
    · exact absurd (h ▸ List.mem_singleton_self _) (hlevel text')
  · split at h
    · exact absurd (h.symm ▸ List.mem_singleton_self _) (hlevel text)
    · exact h

/-- An implication between tests that count the same is an equivalence. -/
lemma countP_converse {α : Type} {f g : α → Bool} {xs : List α}
    (himp : ∀ x ∈ xs, f x = true → g x = true) (hcount : xs.countP g ≤ xs.countP f) :
    ∀ x ∈ xs, g x = true → f x = true := by
  induction xs with
  | nil => exact nofun
  | cons x xs ih =>
    obtain ⟨hx, hxs⟩ := List.forall_mem_cons.1 himp
    have hrest := List.countP_mono_left hxs
    rw [List.countP_cons, List.countP_cons] at hcount
    refine List.forall_mem_cons.2 ⟨fun hg => ?_, ih hxs ?_⟩
    · by_contra hf
      rw [if_pos hg, if_neg hf] at hcount
      omega
    · split at hcount
      · split at hcount <;> omega
      · rename_i hg
        rw [if_neg fun hf => hg (hx hf)] at hcount
        omega

/-- Where the lines count the same with either line ends, those in front of a line end do so. -/
lemma countP_crlf {f : Units → Bool} (hcount : (crlfLines lines).countP f = lines.countP f) :
    lines.dropLast.countP (f ∘ withCarriageReturn) = lines.dropLast.countP f := by
  induction lines using List.reverseRecOn with
  | nil => rfl
  | append_singleton lines last _ =>
    unfold crlfLines at hcount
    rw [List.dropLast_concat, List.getLast?_concat, List.countP_append, List.countP_append,
      List.countP_map] at hcount
    rw [List.dropLast_concat]
    exact Nat.add_right_cancel hcount

/-- The sections stay the same if and only if no heading depends on its line end. -/
lemma sameUnderCrlf_iff (text : Units) : SameUnderCrlf text ↔ Unended text := by
  constructor
  · intro h
    have hheadings : (linesOf (toCrlf text)).filterMap headingOf =
        (linesOf text).filterMap headingOf := by
      refine headings_of_sections ?_
      rw [← List.forall₂_eq_eq_eq, List.forall₂_map_left_iff, List.forall₂_map_right_iff]
      exact h.flip.imp fun s s' hsame => by rw [hsame.level, hsame.title]
    rw [linesOf_toCrlf] at hheadings
    -- headings are counted: with line ends of two units there cannot be more of any kind
    have hcount (g : Nat × Units → Bool) :
        (linesOf text).dropLast.countP ((fun line => (headingOf line).any g) ∘ withCarriageReturn) =
          (linesOf text).dropLast.countP fun line => (headingOf line).any g := by
      refine countP_crlf ?_
      have hsame := congrArg (List.countP g) hheadings
      rw [List.countP_filterMap, List.countP_filterMap] at hsame
      have hany (line : Units) : ((headingOf line).map g).getD false = (headingOf line).any g := by
        cases headingOf line <;> rfl
      simpa only [hany] using hsame
    have htitled : ∀ line ∈ (linesOf text).dropLast, isTitled line = false := by
      intro line hline
      refine Bool.eq_false_iff.2 fun htitled => ?_
      have hwith := countP_converse (f := isTitled ∘ withCarriageReturn) (g := isTitled)
        (fun line _ h => (isTitled_carriage h).2) (Nat.le_of_eq (hcount _).symm) line hline htitled
      exact isTitled_end htitled (isTitled_carriage hwith).1
    intro line hline
    constructor
    · intro parts hparts
      by_contra hne
      exact absurd (isTitled_iff.2 ⟨parts, hparts, hne⟩) (by simp [htitled line hline])
    · intro hbare
      have hwith := countP_converse (f := fun line => (headingOf line).any fun _ => true)
        (g := (fun line => (headingOf line).any fun _ => true) ∘ withCarriageReturn)
        (fun line hline h => ?_) (Nat.le_of_eq (hcount _)) line hline ?_
      · rw [(isBare_carriage hbare).1] at hwith
        cases hwith
      · have hkeeps : ¬ IsBare line := fun hbare => by
          rw [(isBare_carriage hbare).1] at h
          cases h
        rw [Function.comp_apply, headingOf_carriage (htitled line hline) hkeeps]
        exact h
      · obtain ⟨heading, hheading⟩ := Option.isSome_iff_exists.1 (isBare_carriage hbare).2
        rw [Function.comp_apply, hheading]
        rfl
  · intro h
    have hends : ∀ line ∈ (linesOf text).dropLast, isTitled line = false ∧ ¬ IsBare line := by
      intro line hline
      refine ⟨Bool.eq_false_iff.2 fun htitled => ?_, (h line hline).2⟩
      obtain ⟨parts, hparts, hne⟩ := isTitled_iff.1 htitled
      exact hne ((h line hline).1 parts hparts)
    have hblocks := (blocks_sameLines (sameLines_crlf (fun _ hline => lineFeed_not_mem hline) hends)).2
    unfold SameUnderCrlf
    rw [parseMarkdownSections_eq, parseMarkdownSections_eq, linesOf_toCrlf]
    by_cases hnil : (blocks (linesOf text)).2 = []
    · rw [if_pos hnil, if_pos (List.forall₂_nil_left_iff.1 (hnil ▸ hblocks))]
      exact .cons ⟨rfl, rfl, rfl, rfl, (unixEnds_toCrlf text).symm⟩ .nil
    · rw [if_neg hnil, if_neg fun hnil' => hnil (List.forall₂_nil_right_iff.1 (hnil' ▸ hblocks))]
      exact sectionsOf_sameBlocks hblocks 0

end ends

/-! ## Sectioning a text -/

/-- Sectioning loses nothing: no line, no section under other line ends, and no section that is written
back. -/
structure Faithful (text : Units) : Prop where
  keeps : KeepsLines text
  ends : SameUnderCrlf text
  back : RendersBack text

/-- The texts that are sectioned faithfully: with nothing in front of the first heading, with no titled
heading and no line of hashes before a line end, and with no heading at an edge of a block. -/
theorem faithful_iff (text : Units) :
    Faithful text ↔ Prefaced text ∧ Unended text ∧ Edged text := by
  rw [← keepsLines_iff, ← sameUnderCrlf_iff, ← rendersBack_iff]
  constructor
  · exact fun h => ⟨h.keeps, h.ends, h.back⟩
  · exact fun h => ⟨h.1, h.2.1, h.2.2⟩

/-- Text in front of a heading is lost. -/
theorem preface_lost : ¬ Faithful (units "Be polite.\n# Rules\nAsk first.") := by
  intro h
  have hkeeps : ¬ KeepsLines (units "Be polite.\n# Rules\nAsk first.") := by decide
  exact hkeeps h.keeps

end NexusClaw.AgentMarkdownPolicy
