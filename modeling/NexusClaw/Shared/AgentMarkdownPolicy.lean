import NexusClaw.Lines
import NexusClaw.Permission.DataScope

/-!
# Sections of a markdown text

`agent-markdown-policy/index.ts`: the identity policy of an agent is cut into sections at its headings.
Text in front of the first heading belongs to no section, a heading must not end in a carriage return,
and trimming a section may make a heading of its first or its last line.
-/

namespace NexusClaw.AgentMarkdownPolicy
open AuditChain (Units unit units)
open Permission.DataScope (isSpace trim)
open Lines (Blank strip nonblank)

inductive PriorityTier where
  | high
  | normal
deriving DecidableEq, Repr

structure MarkdownSection where
  level : Nat
  title : Units
  content : Units
  order : Nat
  priorityTier : PriorityTier
deriving DecidableEq

/-! ## Priority tiers -/

/-- `HIGH_PRIORITY_TITLE_KEYWORDS` -/
def highPriorityTitleKeywords : List Units :=
  ["红线", "禁止", "必须", "不允许", "绝不"].map units

/-- A letter of ASCII in lower case; the flag `i` folds no other code unit to one of these. -/
def lower (c : UInt16) : UInt16 :=
  if unit 'A' ≤ c && c ≤ unit 'Z' then c + 32 else c

/-- What stands after a token, which is in lower case. -/
def dropToken : Units → Units → Option Units
  | [], s => some s
  | _ :: _, [] => none
  | t :: token, c :: s => if lower c = t then dropToken token s else none

/-- A token is dropped if and only if the text begins with it. -/
lemma dropToken_eq_some {token s rest : Units} :
    dropToken token s = some rest ↔ ∃ found, s = found ++ rest ∧ found.map lower = token := by
  induction token generalizing s with
  | nil =>
    constructor
    · intro h
      exact ⟨[], Option.some.inj h, rfl⟩
    · rintro ⟨found, rfl, hfound⟩
      rw [List.map_eq_nil_iff.1 hfound]
      rfl
  | cons t token ih =>
    constructor
    · intro h
      cases s with
      | nil => cases h
      | cons c s =>
        rw [dropToken] at h
        split_ifs at h with hlower
        obtain ⟨found, rfl, hfound⟩ := ih.1 h
        exact ⟨c :: found, rfl, by rw [List.map_cons, hlower, hfound]⟩
    · rintro ⟨found, rfl, hfound⟩
      obtain ⟨c, found, rfl, hlower, hrest⟩ := List.map_eq_cons_iff.1 hfound
      rw [List.cons_append, dropToken, if_pos hlower]
      exact ih.2 ⟨found, rfl, hrest⟩

/-- `/<!--\s*priority:\s*high\s*-->/i` at the head of a text; no token begins with white space. -/
def markerAt (s : Units) : Bool :=
  (do
    let s ← dropToken (units "<!--") s
    let s ← dropToken (units "priority:") (s.dropWhile isSpace)
    let s ← dropToken (units "high") (s.dropWhile isSpace)
    dropToken (units "-->") (s.dropWhile isSpace)).isSome

/-- `EXPLICIT_HIGH_PRIORITY_MARKER.test(content)` -/
def explicitHighPriorityMarker (content : Units) : Bool :=
  content.tails.any markerAt

def derivePriorityTier (title content : Units) : PriorityTier :=
  if explicitHighPriorityMarker content then .high
  else if highPriorityTitleKeywords.any fun keyword => title.tails.any keyword.isPrefixOf then .high
  else .normal

/-! ## Headings -/

def lineFeed : UInt16 :=
  10

def carriageReturn : UInt16 :=
  13

/-- What `.` does not match. -/
def isLineTerminator (c : UInt16) : Bool :=
  c == lineFeed || c == carriageReturn || c == 0x2028 || c == 0x2029

/-- `/^(#{1,3})\s+(.*)$/`: the hashes and the title. -/
def headingLine (line : Units) : Option (Units × Units) :=
  let hashes := line.takeWhile (· = unit '#')
  let rest := line.dropWhile (· = unit '#')
  let title := rest.dropWhile isSpace
  if 1 ≤ hashes.length ∧ hashes.length ≤ 3 ∧ rest.takeWhile isSpace ≠ [] ∧
      ∀ c ∈ title, isLineTerminator c = false then
    some (hashes, title)
  else none

/-- The level and the title of a heading. -/
def headingOf (line : Units) : Option (Nat × Units) :=
  (headingLine line).map fun parts => (parts.1.length, trim parts.2)

/-! ## Sections -/

structure HeadingIndex where
  lineIndex : Nat
  level : Nat
  title : Units

def headingIndexesFrom (lines : List Units) (lineIndex : Nat) : List HeadingIndex :=
  (lines.zipIdx lineIndex).filterMap fun line =>
    (headingOf line.1).map fun heading =>
      { lineIndex := line.2, level := heading.1, title := heading.2 }

/-- The lines of a text. -/
def linesOf (text : Units) : List Units :=
  text.splitOn lineFeed

/-- `lines.join('\n')` -/
def joinLines (lines : List Units) : Units :=
  [lineFeed].intercalate lines

/-- The loop over the headings: the content of a section ends at the next one. -/
def headingSections (lines : List Units) : List HeadingIndex → Nat → List MarkdownSection
  | [], _ => []
  | heading :: headings, order =>
    let contentStart := heading.lineIndex + 1
    let contentEnd := (headings.head?.map (·.lineIndex)).getD lines.length
    let content := trim (joinLines ((lines.take contentEnd).drop contentStart))
    { level := heading.level, title := heading.title, content, order
      priorityTier := derivePriorityTier heading.title content } ::
      headingSections lines headings (order + 1)

def parseMarkdownSections (text : Units) : List MarkdownSection :=
  let lines := linesOf text
  match headingIndexesFrom lines 0 with
  | [] => [{ level := 0, title := [], content := text, order := 0, priorityTier := .normal }]
  | headings => headingSections lines headings 0

/-! ## Blocks of lines -/

/-- The lines in front of the first heading, and each heading with the lines up to the next one. -/
def blocks : List Units → List Units × List ((Nat × Units) × List Units)
  | [] => ([], [])
  | line :: lines =>
    match headingOf line with
    | some heading => ([], (heading, (blocks lines).1) :: (blocks lines).2)
    | none => (line :: (blocks lines).1, (blocks lines).2)

def sectionOf (heading : Nat × Units) (content : Units) (order : Nat) : MarkdownSection where
  level := heading.1
  title := heading.2
  content := content
  order := order
  priorityTier := derivePriorityTier heading.2 content

def sectionsOf : List ((Nat × Units) × List Units) → Nat → List MarkdownSection
  | [], _ => []
  | block :: bs, order =>
    sectionOf block.1 (trim (joinLines block.2)) order :: sectionsOf bs (order + 1)

section blocks
variable {line : Units} {lines : List Units} {heading : Nat × Units}

/-- A heading begins a block. -/
lemma blocks_cons_some (h : headingOf line = some heading) (lines : List Units) :
    blocks (line :: lines) = ([], (heading, (blocks lines).1) :: (blocks lines).2) := by
  rw [blocks, h]

/-- Another line belongs to what is in front of the first block. -/
lemma blocks_cons_none (h : headingOf line = none) (lines : List Units) :
    blocks (line :: lines) = (line :: (blocks lines).1, (blocks lines).2) := by
  rw [blocks, h]

/-- The headings are indexed line by line. -/
lemma headingIndexesFrom_cons (line : Units) (lines : List Units) (k : Nat) :
    headingIndexesFrom (line :: lines) k =
      (headingOf line).toList.map (fun heading =>
        { lineIndex := k, level := heading.1, title := heading.2 }) ++
        headingIndexesFrom lines (k + 1) := by
  unfold headingIndexesFrom
  rw [List.zipIdx_cons, List.filterMap_cons]
  cases headingOf line <;> rfl

/-- The lines up to the next heading are a slice of all lines. -/
lemma blocks_slice (lines : List Units) (k : Nat) :
    ((headingIndexesFrom lines k).head?.map (·.lineIndex)).getD (k + lines.length) =
        k + (blocks lines).1.length ∧
      (blocks lines).1 <+: lines := by
  induction lines generalizing k with
  | nil => exact ⟨rfl, List.prefix_refl _⟩
  | cons line lines ih =>
    rw [headingIndexesFrom_cons]
    cases hheading : headingOf line with
    | some heading =>
      rw [blocks_cons_some hheading]
      exact ⟨rfl, List.nil_prefix⟩
    | none =>
      obtain ⟨hindex, htake⟩ := ih (k + 1)
      rw [blocks_cons_none hheading, List.length_cons, List.length_cons]
      refine ⟨?_, List.cons_prefix_cons.2 ⟨rfl, htake⟩⟩
      rw [← Nat.add_assoc, Nat.add_right_comm, ← Nat.add_assoc, Nat.add_right_comm _ _ 1]
      exact hindex

/-- The sections are made of the blocks. -/
lemma headingSections_blocks (before lines : List Units) (order : Nat) :
    headingSections (before ++ lines) (headingIndexesFrom lines before.length) order =
      sectionsOf (blocks lines).2 order := by
  -- induction on the lines, with those in front of them
  induction lines generalizing before order with
  | nil => rfl
  | cons line lines ih =>
    have hrest := ih (before ++ [line])
    rw [List.append_assoc, List.singleton_append, List.length_append, List.length_singleton] at hrest
    rw [headingIndexesFrom_cons]
    cases hheading : headingOf line with
    | none =>
      rw [blocks_cons_none hheading]
      exact hrest order
    | some heading =>
      obtain ⟨hindex, rest, htake⟩ := blocks_slice lines (before.length + 1)
      have hlength : (before ++ line :: lines).length = before.length + 1 + lines.length := by
        rw [List.length_append, List.length_cons]
        omega
      have hslice (body rest : List Units) : ((before ++ line :: (body ++ rest)).take
          (before.length + 1 + body.length)).drop (before.length + 1) = body := by
        have hsplit : before ++ line :: (body ++ rest) = ((before ++ [line]) ++ body) ++ rest := by
          simp
        rw [hsplit, List.take_left' (by simp; omega), List.drop_left' (by simp)]
      have hbody := hslice (blocks lines).1 rest
      rw [htake] at hbody
      rw [blocks_cons_some hheading]
      show headingSections _ (_ :: headingIndexesFrom lines (before.length + 1)) order = _
      rw [headingSections, sectionsOf, hlength, hindex, hbody, hrest]
      rfl

end blocks

/-- The sections are the blocks between the headings, or the whole text. -/
lemma parseMarkdownSections_eq (text : Units) : parseMarkdownSections text =
    if (blocks (linesOf text)).2 = [] then
      [{ level := 0, title := [], content := text, order := 0, priorityTier := .normal }]
    else sectionsOf (blocks (linesOf text)).2 0 := by
  have hsections := headingSections_blocks [] (linesOf text) 0
  rw [List.nil_append, List.length_nil] at hsections
  unfold parseMarkdownSections
  dsimp only
  cases hheadings : headingIndexesFrom (linesOf text) 0 with
  | nil =>
    rw [hheadings] at hsections
    cases hblocks : (blocks (linesOf text)).2 with
    | nil => rw [if_pos rfl]
    | cons block bs =>
      rw [hblocks] at hsections
      cases hsections
  | cons heading headings =>
    rw [hheadings] at hsections
    cases hblocks : (blocks (linesOf text)).2 with
    | nil =>
      rw [hblocks] at hsections
      cases hsections
    | cons block bs =>
      rw [hblocks] at hsections
      rw [if_neg (List.cons_ne_nil _ _), ← hsections]

/-! ## No line is lost -/

/-- The lines that are not blank and no headings are those of the contents, in their order and up to
the white space around a line. -/
def KeepsLines (text : Units) : Prop :=
  nonblank isSpace ((linesOf text).filter fun line => headingOf line = none) =
    (parseMarkdownSections text).flatMap fun s => nonblank isSpace (linesOf s.content)

instance (text : Units) : Decidable (KeepsLines text) :=
  inferInstanceAs (Decidable (_ = _))

/-- Nothing but blank lines stands in front of the first heading, if there is one. -/
def Prefaced (text : Units) : Prop :=
  (blocks (linesOf text)).2 ≠ [] → ∀ line ∈ (blocks (linesOf text)).1, Blank isSpace line

/-- The trimming of the code is the one of the lines. -/
lemma trim_eq (s : Units) : trim s = Lines.trim isSpace s :=
  rfl

/-- A line feed is white space. -/
lemma isSpace_lineFeed : isSpace lineFeed = true := by decide

section lines
variable {line : Units} {lines : List Units} {text : Units}

/-- A line has no line feed. -/
lemma lineFeed_not_mem (h : line ∈ linesOf text) : lineFeed ∉ line :=
  Lines.newline_not_mem_splitOn h

/-- The lines of a text make up the text. -/
lemma joinLines_linesOf (text : Units) : joinLines (linesOf text) = text :=
  List.intercalate_splitOn lineFeed

/-- Joined lines are split again. -/
lemma linesOf_joinLines (hlines : ∀ line ∈ lines, lineFeed ∉ line) (hne : lines ≠ []) :
    linesOf (joinLines lines) = lines :=
  List.splitOn_intercalate lineFeed hlines hne

/-- Trimming a text strips its lines. -/
lemma linesOf_trim (hlines : ∀ line ∈ lines, lineFeed ∉ line) : linesOf (trim (joinLines lines)) =
    if strip isSpace lines = [] then [[]] else strip isSpace lines :=
  Lines.splitOn_trim isSpace_lineFeed hlines

/-- The content of a section has the lines of its block that are not blank. -/
lemma nonblank_content (hlines : ∀ line ∈ lines, lineFeed ∉ line) :
    nonblank isSpace (linesOf (trim (joinLines lines))) = nonblank isSpace lines := by
  rw [linesOf_trim hlines, ← Lines.nonblank_strip lines]
  split
  · rename_i hnil
    rw [hnil]
    rfl
  · rfl

/-- The lines that are no headings are in front of the first heading or in a block. -/
lemma lines_blocks (lines : List Units) : lines.filter (fun line => headingOf line = none) =
    (blocks lines).1 ++ (blocks lines).2.flatMap Prod.snd := by
  induction lines with
  | nil => rfl
  | cons line lines ih =>
    rw [List.filter_cons, ih]
    cases hheading : headingOf line with
    | none =>
      rw [blocks_cons_none hheading, if_pos (by rw [decide_eq_true_iff])]
      rfl
    | some heading =>
      rw [blocks_cons_some hheading, if_neg (by simp)]
      rfl

/-- Without a heading every line is in front. -/
lemma blocks_nil (h : (blocks lines).2 = []) : (blocks lines).1 = lines := by
  induction lines with
  | nil => rfl
  | cons line lines ih =>
    cases hheading : headingOf line with
    | none =>
      rw [blocks_cons_none hheading] at h ⊢
      rw [ih h]
    | some heading =>
      rw [blocks_cons_some hheading] at h
      cases h

/-- The lines of a block are lines of the text. -/
lemma mem_blocks {body : (Nat × Units) × List Units} (hbody : body ∈ (blocks lines).2)
    (h : line ∈ body.2) : line ∈ lines := by
  have hmem : line ∈ lines.filter fun line => headingOf line = none := by
    rw [lines_blocks]
    exact List.mem_append_right _ (List.mem_flatMap.2 ⟨body, hbody, h⟩)
  exact List.mem_of_mem_filter hmem

/-- The lines that are not blank, block by block. -/
lemma nonblank_flatMap {α : Type} (f : α → List Units) (xs : List α) :
    nonblank isSpace (xs.flatMap f) = xs.flatMap fun x => nonblank isSpace (f x) := by
  induction xs with
  | nil => rfl
  | cons x xs ih => rw [List.flatMap_cons, List.flatMap_cons, Lines.nonblank_append, ih]

/-- What is read from the contents of the sections is read from the blocks. -/
lemma sectionsOf_flatMap {β : Type} (f : Units → List β) (bs : List ((Nat × Units) × List Units))
    (order : Nat) : ((sectionsOf bs order).flatMap fun s => f s.content) =
      bs.flatMap fun block => f (trim (joinLines block.2)) := by
  induction bs generalizing order with
  | nil => rfl
  | cons block bs ih =>
    rw [sectionsOf, List.flatMap_cons, List.flatMap_cons, ih]
    rfl

end lines

/-- No line is lost just where none stands in front of the first heading. -/
lemma keepsLines_iff (text : Units) : KeepsLines text ↔ Prefaced text := by
  have hblocks : ((blocks (linesOf text)).2.flatMap fun block =>
      nonblank isSpace (linesOf (trim (joinLines block.2)))) =
        (blocks (linesOf text)).2.flatMap fun block => nonblank isSpace block.2 := by
    refine List.flatMap_congr fun block hblock => ?_
    exact nonblank_content fun line hline => lineFeed_not_mem (mem_blocks hblock hline)
  unfold KeepsLines Prefaced
  rw [lines_blocks, Lines.nonblank_append, nonblank_flatMap, parseMarkdownSections_eq]
  cases hbs : (blocks (linesOf text)).2 with
  | nil =>
    rw [if_pos rfl]
    refine iff_of_true ?_ fun h => absurd rfl h
    rw [List.flatMap_nil, List.append_nil, List.flatMap_singleton, blocks_nil hbs]
  | cons block bs =>
    rw [if_neg (List.cons_ne_nil _ _), sectionsOf_flatMap fun content =>
      nonblank isSpace (linesOf content), ← hbs, hblocks]
    rw [List.append_left_eq_self, Lines.nonblank_eq_nil]
    exact ⟨fun h _ => h, fun h => h (by rw [hbs]; exact List.cons_ne_nil _ _)⟩

end NexusClaw.AgentMarkdownPolicy
