import NexusClaw.Shared.MarkdownSections

/-!
# Cropping the prompt of a release

`executor/release-bound-agent-runtime.ts` writes the policies of an agent and the topics of a run into
one prompt. When the tokens run out, `executor-engine.service.ts` reads that prompt again and drops the
sections of normal priority. Every heading stands one level deeper in the prompt, so that a section of
the third level is no section any more: it goes with the section in front of it, unless the marker of a
high priority stands in its content (`red_line_survives`).
-/

namespace NexusClaw.PromptCropping
open AuditChain (Units unit units)
open Permission.DataScope (isSpace trim)
open AgentMarkdownPolicy

/-! ## The prompt of a release -/

/-- `InstructionDefinition` -/
structure InstructionDefinition where
  content : Option Units
  order : Option Int
deriving DecidableEq

/-- `TopicDefinition` -/
structure TopicDefinition where
  id : Units
  name : Units
  description : Option Units
  priority : Option Int
  instructions : List InstructionDefinition
  toolBindingIds : List Units
deriving DecidableEq

/-- `ToolBinding` -/
structure ToolBinding where
  id : Units
  toolName : Units
deriving DecidableEq

/-- `AgentDefinition`: what its prompt is written from. -/
structure AgentDefinition where
  persona : Option Units
  identityPolicy : Option Units
  systemInstructions : Option Units
  topics : List TopicDefinition
  toolBindings : List ToolBinding
deriving DecidableEq

/-- `parts.join('\n\n')` -/
def joinParts (parts : List Units) : Units :=
  [lineFeed, lineFeed].intercalate parts

/-- A section as it stands in the prompt. -/
def sectionText (s : MarkdownSection) : Units :=
  if s.title ≠ [] then headingText (s.level + 1) s.title ++ lineFeed :: s.content else s.content

/-- The sections of high priority come first. -/
def ordered (sections : List MarkdownSection) : List MarkdownSection :=
  (sections.filter (·.priorityTier = .high)).insertionSort (fun l r => l.order ≤ r.order) ++
    (sections.filter (·.priorityTier = .normal)).insertionSort (fun l r => l.order ≤ r.order)

def renderMarkdownBlock (source : Option Units) (heading : Units) : Units :=
  let source := source.getD []
  if trim source = [] then []
  else
    let sections := parseMarkdownSections source
    if sections.length = 1 ∧ sections.head?.map (·.level) = some 0 then
      heading ++ lineFeed :: (sections.head?.map (·.content)).getD []
    else heading ++ lineFeed :: joinParts ((ordered sections).map sectionText)

/-- The tool of a binding; of two entries with one id the later one counts. -/
def boundTool (definition : AgentDefinition) (id : Units) : Option Units :=
  (definition.toolBindings.reverse.find? (·.id = id)).map (·.toolName)

/-- The tools that a topic names. -/
def topicTools (definition : AgentDefinition) (topic : TopicDefinition) : List Units :=
  (topic.toolBindingIds.filterMap (boundTool definition)).filter (· ≠ [])

/-- The instructions of a topic in their order. -/
def topicInstructions (topic : TopicDefinition) : List Units :=
  ((topic.instructions.insertionSort fun l r => l.order.getD 0 ≤ r.order.getD 0).filterMap
    fun instruction => instruction.content.map trim).filter (· ≠ [])

/-- One topic of the prompt. -/
def topicText (definition : AgentDefinition) (topic : TopicDefinition) : Units :=
  let instructions := topicInstructions topic
  if topic.name = [] ∧ instructions = [] then []
  else
    let tools := (units ", ").intercalate (topicTools definition topic)
    joinLines (([
      units "## " ++ (if topic.name = [] then units "主题" else topic.name) ++ units " (" ++
        topic.id ++ units ")",
      trim (topic.description.getD []),
      units "主题说明和自然语言指令只用于理解、推荐与排序；不得据此添加排除性查询条件。只有当前用户明确提出的条件或运行时提供的结构化规则可以成为硬过滤。",
      units "本主题只允许工具：" ++ (if tools = [] then units "无" else tools)] ++
      instructions.map (units "- " ++ ·)).filter (· ≠ []))

def composeTopics (topics : List TopicDefinition) (definition : AgentDefinition) : Units :=
  joinParts (((topics.insertionSort fun l r => l.priority.getD 0 ≤ r.priority.getD 0).map
    (topicText definition)).filter (· ≠ []))

/-- No selected topic stands for all of them. -/
def composeReleaseBoundAgentPrompt (definition : AgentDefinition)
    (selectedTopicIds : List Units) : Units :=
  let topics := if selectedTopicIds = [] then definition.topics
    else definition.topics.filter (·.id ∈ selectedTopicIds)
  joinParts ([
    renderMarkdownBlock definition.persona (units "# 角色与语气"),
    renderMarkdownBlock definition.identityPolicy (units "# 身份策略"),
    renderMarkdownBlock definition.systemInstructions (units "# 工作总则"),
    composeTopics topics definition].filter (trim · ≠ []))

/-- The prompt of the loop: a plan goes behind the frozen prompt, and an empty plan is none. -/
def effectivePrompt (frozenPrompt : Units) (plan : Option Units) : Units :=
  match plan with
  | some (c :: plan) => frozenPrompt ++ lineFeed :: lineFeed ::
      (units "## 执行计划（先规划后执行）" ++ lineFeed :: c :: plan)
  | _ => frozenPrompt

/-! ## The crop -/

/-- A section as it stands in the cropped prompt. -/
def croppedText (s : MarkdownSection) : Units :=
  if s.title ≠ [] then headingText (max s.level 1) s.title ++ lineFeed :: s.content else s.content

/-- The prompt without its sections of normal priority, if there are sections of both tiers. -/
def recomposeDroppingNormalSections (agentPrompt : Units) : Option Units :=
  let sections := parseMarkdownSections agentPrompt
  if sections.length ≤ 1 then none
  else
    let highSections := sections.filter (·.priorityTier = .high)
    if highSections.length = 0 ∨ highSections.length = sections.length then none
    else some (joinParts (highSections.map croppedText))

/-! ## Texts that stand as whole lines -/

section lines
variable {x y text part : Units} {parts : List Units}

/-- The lines of two texts joined at a line feed. -/
lemma linesOf_append (x y : Units) : linesOf (x ++ lineFeed :: y) = linesOf x ++ linesOf y := by
  have hjoin := joinLines_append (linesOf_ne_nil x) (linesOf_ne_nil y)
  rw [joinLines_linesOf, joinLines_linesOf] at hjoin
  rw [← hjoin]
  apply linesOf_joinLines
  · intro line hline
    rcases List.mem_append.1 hline with h | h
    · exact lineFeed_not_mem h
    · exact lineFeed_not_mem h
  · exact List.append_ne_nil_of_left_ne_nil (linesOf_ne_nil x) _

/-- The lines of a text in front of others. -/
lemma prefix_joinLines (x : Units) (after : List Units) : x <+: joinLines (linesOf x ++ after) := by
  cases after with
  | nil => rw [List.append_nil, joinLines_linesOf]
  | cons line after =>
    rw [joinLines_append (linesOf_ne_nil x) (List.cons_ne_nil _ _), joinLines_linesOf]
    exact List.prefix_append _ _

/-- The lines of a text among others. -/
lemma infix_joinLines (x : Units) (before after : List Units) :
    x <:+: joinLines (before ++ (linesOf x ++ after)) := by
  cases before with
  | nil => exact (prefix_joinLines x after).isInfix
  | cons line before =>
    have hne : linesOf x ++ after ≠ [] := List.append_ne_nil_of_left_ne_nil (linesOf_ne_nil x) _
    rw [joinLines_append (List.cons_ne_nil _ _) hne]
    apply (prefix_joinLines x after).isInfix.trans
    exact (List.suffix_append_of_suffix (List.suffix_cons _ _)).isInfix

/-- What stands as whole lines stands in the text. -/
lemma infix_of_linesOf (h : linesOf x <:+: linesOf text) : x <:+: text := by
  obtain ⟨before, after, h⟩ := h
  rw [← joinLines_linesOf text, ← h, List.append_assoc]
  exact infix_joinLines x before after

/-- The lines of a part are among the lines of the whole. -/
lemma linesOf_part (h : part ∈ parts) : linesOf part <:+: linesOf (joinParts parts) := by
  induction parts with
  | nil => cases h
  | cons first parts ih =>
    cases parts with
    | nil =>
      obtain rfl := List.mem_singleton.1 h
      have hjoin : joinParts [part] = part := List.intercalate_singleton ..
      rw [hjoin]
    | cons next parts =>
      have hjoin : joinParts (first :: next :: parts) =
          first ++ lineFeed :: ([] ++ lineFeed :: joinParts (next :: parts)) := by
        unfold joinParts
        rw [List.intercalate_cons_cons, List.append_assoc]
        rfl
      rw [hjoin, linesOf_append, linesOf_append]
      rcases List.mem_cons.1 h with rfl | h
      · exact (List.prefix_append _ _).isInfix
      · apply (ih h).trans
        exact ((List.suffix_append _ _).trans (List.suffix_append _ _)).isInfix

/-- A part stands within the whole. -/
lemma part_within (h : part ∈ parts) : part <:+: joinParts parts :=
  infix_of_linesOf (linesOf_part h)

/-- Trimming a text leaves what it holds, if white space stands at neither end of that. -/
lemma infix_trim (hx : trim x = x) (h : x <:+: text) : x <:+: trim text := by
  obtain ⟨before, after, rfl⟩ := h
  by_cases hne : x = []
  · rw [hne]
    exact List.nil_infix
  · obtain ⟨front, rest, htrim, -⟩ := Lines.trim_around hx hne before after
    rw [List.append_assoc, trim_eq, htrim]
    exact ⟨front, rest, List.append_assoc _ _ _⟩

/-- A trimmed text in front stays in front. -/
lemma prefix_trim (hx : trim x = x) (h : x <+: text) : x <+: trim text := by
  obtain ⟨after, rfl⟩ := h
  by_cases hne : x = []
  · rw [hne]
    exact List.nil_prefix
  · obtain ⟨front, rest, htrim, hfront⟩ := Lines.trim_around hx hne [] after
    rw [hfront rfl] at htrim
    exact ⟨rest, htrim.symm⟩

end lines

/-! ## The marker -/

section marker
variable {s token rest text : Units}

/-- A token is dropped whatever follows. -/
lemma dropToken_more (h : dropToken token s = some rest) (later : Units) :
    dropToken token (s ++ later) = some (rest ++ later) := by
  obtain ⟨found, rfl, hfound⟩ := dropToken_eq_some.1 h
  exact dropToken_eq_some.2 ⟨found, List.append_assoc _ _ _, hfound⟩

/-- White space in front of a token. -/
lemma spaced_more (htoken : token ≠ []) (h : dropToken token (s.dropWhile isSpace) = some rest)
    (later : Units) :
    dropToken token ((s ++ later).dropWhile isSpace) = some (rest ++ later) := by
  have hne : s.dropWhile isSpace ≠ [] := by
    intro hnil
    rw [hnil] at h
    cases token with
    | nil => exact htoken rfl
    | cons t token => cases h
  rw [List.dropWhile_append, if_neg (by rwa [List.isEmpty_iff])]
  exact dropToken_more h later

/-- A marker is found whatever follows. -/
lemma markerAt_more (h : markerAt s = true) (later : Units) : markerAt (s ++ later) = true := by
  unfold markerAt at h ⊢
  rw [Option.isSome_iff_exists] at h ⊢
  obtain ⟨last, h⟩ := h
  obtain ⟨opened, hopened, h⟩ := Option.bind_eq_some_iff.1 h
  obtain ⟨named, hnamed, h⟩ := Option.bind_eq_some_iff.1 h
  obtain ⟨high, hhigh, hlast⟩ := Option.bind_eq_some_iff.1 h
  refine ⟨last ++ later, ?_⟩
  apply Option.bind_eq_some_iff.2 ⟨_, dropToken_more hopened later, ?_⟩
  apply Option.bind_eq_some_iff.2 ⟨_, spaced_more (by decide) hnamed later, ?_⟩
  apply Option.bind_eq_some_iff.2 ⟨_, spaced_more (by decide) hhigh later, ?_⟩
  exact spaced_more (by decide) hlast later

/-- The marker is found in every text that holds one with a marker. -/
lemma marker_within (h : s <:+: text) (hs : explicitHighPriorityMarker s = true) :
    explicitHighPriorityMarker text = true := by
  obtain ⟨before, after, rfl⟩ := h
  obtain ⟨tail, htail, hat⟩ := List.any_eq_true.1 hs
  obtain ⟨front, rfl⟩ := (List.mem_tails _ _).1 htail
  apply List.any_eq_true.2 ⟨tail ++ after, ?_, markerAt_more hat after⟩
  apply (List.mem_tails _ _).2
  exact ⟨before ++ front, by simp [List.append_assoc]⟩

/-- A text with a marker is not empty. -/
lemma ne_nil_of_marker (h : explicitHighPriorityMarker s = true) : s ≠ [] := by
  rintro rfl
  exact Bool.false_ne_true h

end marker

/-! ## The sections of the prompt -/

section sections
variable {line source text : Units} {lines before : List Units} {heading : Nat × Units}
  {block : (Nat × Units) × List Units} {s : MarkdownSection}

/-- A block stays behind any lines in front. -/
lemma mem_blocks_behind (h : block ∈ (blocks lines).2) (before : List Units) :
    block ∈ (blocks (before ++ lines)).2 := by
  induction before with
  | nil => exact h
  | cons line before ih =>
    rw [List.cons_append]
    cases hheading : headingOf line with
    | some heading =>
      rw [blocks_cons_some hheading]
      exact List.mem_cons_of_mem _ ih
    | none =>
      rw [blocks_cons_none hheading]
      exact ih

/-- Lines without a heading stay together behind their heading. -/
lemma blocks_titled (hline : headingOf line = some heading)
    (hlines : ∀ l ∈ lines, headingOf l = none) (before after : List Units) :
    (heading, lines ++ (blocks after).1) ∈ (blocks (before ++ (line :: lines ++ after))).2 := by
  apply mem_blocks_behind
  rw [List.cons_append, blocks_cons_some hline, blocks_plain hlines]
  exact List.mem_cons_self ..

/-- Lines without a heading belong to the last heading in front of them. -/
lemma blocks_untitled (hbefore : ∃ line ∈ before, headingOf line ≠ none)
    (hlines : ∀ l ∈ lines, headingOf l = none) (after : List Units) :
    ∃ heading front, (heading, front ++ (lines ++ (blocks after).1)) ∈
      (blocks (before ++ (lines ++ after))).2 := by
  induction before with
  | nil =>
    obtain ⟨line, hline, -⟩ := hbefore
    cases hline
  | cons first before ih =>
    rw [List.cons_append]
    -- the lines go to the last heading in front of them
    by_cases hrest : ∃ line ∈ before, headingOf line ≠ none
    · obtain ⟨heading, front, hmem⟩ := ih hrest
      exact ⟨heading, front, mem_blocks_behind hmem [first]⟩
    · have hplain : ∀ line ∈ before, headingOf line = none := by
        intro line hline
        by_contra hheading
        exact hrest ⟨line, hline, hheading⟩
      have hfirst : headingOf first ≠ none := by
        obtain ⟨line, hline, hheading⟩ := hbefore
        rcases List.mem_cons.1 hline with rfl | hline
        · exact hheading
        · exact absurd (hplain line hline) hheading
      obtain ⟨heading, hheading⟩ := Option.ne_none_iff_exists'.1 hfirst
      refine ⟨heading, before, ?_⟩
      rw [blocks_cons_some hheading, blocks_plain hplain, blocks_plain hlines]
      exact List.mem_cons_self ..

/-- Every block is a section. -/
lemma mem_sectionsOf {bs : List ((Nat × Units) × List Units)} (h : block ∈ bs) (order : Nat) :
    ∃ k, sectionOf block.1 (trim (joinLines block.2)) k ∈ sectionsOf bs order := by
  induction bs generalizing order with
  | nil => cases h
  | cons first bs ih =>
    rw [sectionsOf]
    rcases List.mem_cons.1 h with rfl | h
    · exact ⟨order, List.mem_cons_self ..⟩
    · obtain ⟨k, hk⟩ := ih h (order + 1)
      exact ⟨k, List.mem_cons_of_mem _ hk⟩

/-- Every section is a block. -/
lemma of_mem_sectionsOf {bs : List ((Nat × Units) × List Units)} {order : Nat}
    (h : s ∈ sectionsOf bs order) :
    ∃ block ∈ bs, ∃ k, s = sectionOf block.1 (trim (joinLines block.2)) k := by
  induction bs generalizing order with
  | nil => cases h
  | cons first bs ih =>
    rw [sectionsOf] at h
    rcases List.mem_cons.1 h with rfl | h
    · exact ⟨first, List.mem_cons_self .., order, rfl⟩
    · obtain ⟨block, hblock, k, hk⟩ := ih h
      exact ⟨block, List.mem_cons_of_mem _ hblock, k, hk⟩

/-- A block is a section of the text. -/
lemma section_of_block (h : block ∈ (blocks (linesOf text)).2) :
    ∃ k, sectionOf block.1 (trim (joinLines block.2)) k ∈ parseMarkdownSections text := by
  rw [parseMarkdownSections_eq, if_neg (List.ne_nil_of_mem h)]
  exact mem_sectionsOf h 0

/-- A section of high priority is a block: a text without headings has normal priority. -/
lemma block_of_section (h : s ∈ parseMarkdownSections text) (hhigh : s.priorityTier = .high) :
    ∃ block ∈ (blocks (linesOf text)).2, ∃ k,
      s = sectionOf block.1 (trim (joinLines block.2)) k := by
  rw [parseMarkdownSections_eq] at h
  split at h
  · rw [List.mem_singleton.1 h] at hhigh
    cases hhigh
  · exact of_mem_sectionsOf h

/-- What the parser makes of a section of high priority. -/
structure RedLine (s : MarkdownSection) : Prop where
  heading : ProperHeading (s.level, s.title)
  trimmed : trim s.content = s.content
  tier : derivePriorityTier s.title s.content = .high

/-- A section of high priority is a red line. -/
lemma redLine_of_high (h : s ∈ parseMarkdownSections text) (hhigh : s.priorityTier = .high) :
    RedLine s := by
  obtain ⟨block, hblock, k, rfl⟩ := block_of_section h hhigh
  exact ⟨blocks_proper _ block hblock, Lines.trim_trim _, hhigh⟩

/-- A section of the second level at most has a heading in the prompt. -/
lemma headingOf_deeper (h : ProperHeading (s.level, s.title)) (hlevel : s.level ≤ 2) :
    headingOf (headingText (s.level + 1) s.title) = some (s.level + 1, s.title) :=
  have hdeep : ProperHeading (s.level + 1, s.title) :=
    ⟨Nat.le_add_left 1 _, Nat.succ_le_succ hlevel, h.trimmed, h.plain⟩
  headingOf_headingText hdeep

/-- Four hashes are no heading. -/
lemma headingOf_four (title : Units) : headingOf (headingText 4 title) = none := by
  unfold headingOf headingLine headingText
  dsimp only
  rw [List.takeWhile_append_of_pos (by simp), List.takeWhile_cons_of_neg (by decide),
    List.append_nil, if_neg]
  · rfl
  · rintro ⟨-, hle, -⟩
    rw [List.length_replicate] at hle
    omega

/-- A heading has a hash. -/
lemma hash_of_heading (h : headingOf line ≠ none) : unit '#' ∈ line := by
  cases line with
  | nil => exact absurd headingOf_nil h
  | cons c line =>
    by_cases hc : c = unit '#'
    · rw [hc]
      exact List.mem_cons_self ..
    · refine absurd ?_ h
      unfold headingOf headingLine
      dsimp only
      rw [List.takeWhile_cons_of_neg (by simpa using hc), if_neg]
      · rfl
      · rintro ⟨hle, -⟩
        exact absurd hle (by decide)

/-- A text with a heading is not blank. -/
lemma trim_ne_nil_of_block (h : block ∈ (blocks (linesOf text)).2) : trim text ≠ [] := by
  intro hnil
  have hlength : (blocks (linesOf text)).2.length ≠ 0 :=
    fun hzero => List.ne_nil_of_mem h (List.length_eq_zero_iff.1 hzero)
  rw [Ne, blocks_length_zero] at hlength
  push Not at hlength
  obtain ⟨line, hline, hheading⟩ := hlength
  have hblank : ∀ c ∈ text, isSpace c = true := Lines.blank_iff.1 (Lines.blank_iff_trim.2 hnil)
  have hmem : unit '#' ∈ text := by
    rcases Lines.mem_splitOn_infix hline with hstart | hwithin
    · exact hstart.subset (hash_of_heading hheading)
    · exact hwithin.subset (List.mem_cons_of_mem _ (hash_of_heading hheading))
  exact absurd (hblank _ hmem) (by decide)

end sections

/-! ## Red lines in the prompt -/

section prompt
variable {definition : AgentDefinition} {selectedTopicIds : List Units} {source text : Units}
  {s : MarkdownSection}

/-- A line is its own only line. -/
lemma linesOf_line {line : Units} (h : lineFeed ∉ line) : linesOf line = [line] := by
  have hjoin : joinLines [line] = line := List.intercalate_singleton ..
  have hlines := linesOf_joinLines (List.forall_mem_singleton.2 h) (List.cons_ne_nil line [])
  rwa [hjoin] at hlines

/-- Nothing of the order is lost. -/
lemma mem_ordered (sections : List MarkdownSection) (h : s ∈ sections) : s ∈ ordered sections := by
  unfold ordered
  cases htier : s.priorityTier with
  | high =>
    apply List.mem_append_left
    apply (List.mem_insertionSort _).2
    exact List.mem_filter.2 ⟨h, by rw [htier]; rfl⟩
  | normal =>
    apply List.mem_append_right
    apply (List.mem_insertionSort _).2
    exact List.mem_filter.2 ⟨h, by rw [htier]; rfl⟩

/-- A red line stands behind the heading of its source. -/
lemma renderMarkdownBlock_redLine (hs : s ∈ parseMarkdownSections source)
    (hhigh : s.priorityTier = .high) (heading : Units) :
    ∃ body, renderMarkdownBlock (some source) heading = heading ++ lineFeed :: body ∧
      linesOf (sectionText s) <:+: linesOf body := by
  obtain ⟨block, hblock, -⟩ := block_of_section hs hhigh
  have hlevel := (redLine_of_high hs hhigh).heading.lower
  have hsingle : ¬ ((parseMarkdownSections source).length = 1 ∧
      (parseMarkdownSections source).head?.map (·.level) = some 0) := by
    rintro ⟨hlength, hzero⟩
    obtain ⟨only, honly⟩ := List.length_eq_one_iff.1 hlength
    rw [honly] at hs hzero
    rw [List.mem_singleton.1 hs] at hlevel
    have hnone : only.level = 0 := Option.some.inj hzero
    exact absurd hnone (Nat.one_le_iff_ne_zero.1 hlevel)
  refine ⟨joinParts ((ordered (parseMarkdownSections source)).map sectionText), ?_, ?_⟩
  · unfold renderMarkdownBlock
    dsimp only [Option.getD_some]
    rw [if_neg (trim_ne_nil_of_block hblock), if_neg hsingle]
  · exact linesOf_part (List.mem_map_of_mem (mem_ordered _ hs))

/-- Whole lines behind a heading. -/
def BehindHeading (lines text : List Units) : Prop :=
  ∃ before after, text = before ++ (lines ++ after) ∧ ∃ line ∈ before, headingOf line ≠ none

/-- Lines behind a heading stay behind it in a longer text. -/
lemma BehindHeading.within {lines text text' : List Units} (h : BehindHeading lines text)
    (hin : text <:+: text') : BehindHeading lines text' := by
  obtain ⟨before, after, rfl, line, hline, hheading⟩ := h
  obtain ⟨front, rest, rfl⟩ := hin
  refine ⟨front ++ before, after ++ rest, ?_, line, List.mem_append_right _ hline, hheading⟩
  rw [List.append_assoc, List.append_assoc, List.append_assoc, List.append_assoc]

/-- What `blocks` of the prompt are made of. -/
lemma part_of_prompt {part : Units} (hpart : part ∈ [
      renderMarkdownBlock definition.persona (units "# 角色与语气"),
      renderMarkdownBlock definition.identityPolicy (units "# 身份策略"),
      renderMarkdownBlock definition.systemInstructions (units "# 工作总则")])
    (htrim : trim part ≠ []) :
    linesOf part <:+: linesOf (composeReleaseBoundAgentPrompt definition selectedTopicIds) := by
  apply linesOf_part
  apply List.mem_filter.2
  exact ⟨List.mem_append_left [_] hpart, decide_eq_true htrim⟩

/-- A red line of a policy stands behind the heading of the policy. -/
lemma redLine_of_part (hs : s ∈ parseMarkdownSections source) (hhigh : s.priorityTier = .high)
    {heading : Units} (hheading : headingOf heading ≠ none) (hline : lineFeed ∉ heading) :
    trim (renderMarkdownBlock (some source) heading) ≠ [] ∧
      BehindHeading (linesOf (sectionText s))
        (linesOf (renderMarkdownBlock (some source) heading)) := by
  obtain ⟨body, hbody, before, after, hlines⟩ := renderMarkdownBlock_redLine hs hhigh heading
  have hsplit : linesOf (renderMarkdownBlock (some source) heading) =
      heading :: before ++ (linesOf (sectionText s) ++ after) := by
    rw [hbody, linesOf_append, linesOf_line hline, ← hlines, List.append_assoc]
    rfl
  constructor
  · obtain ⟨found, hfound⟩ := Option.ne_none_iff_exists'.1 hheading
    have hblock := blocks_cons_some hfound (before ++ (linesOf (sectionText s) ++ after))
    have hmem : (found, (blocks (before ++ (linesOf (sectionText s) ++ after))).1) ∈
        (blocks (linesOf (renderMarkdownBlock (some source) heading))).2 := by
      rw [hsplit, List.cons_append, hblock]
      exact List.mem_cons_self ..
    exact trim_ne_nil_of_block hmem
  · exact ⟨heading :: before, after, hsplit, heading, List.mem_cons_self .., hheading⟩

/-- A red line of any source stands in the prompt. -/
lemma redLine_of_prompt (hsource : some source ∈
      [definition.persona, definition.identityPolicy, definition.systemInstructions])
    (hs : s ∈ parseMarkdownSections source) (hhigh : s.priorityTier = .high) :
    BehindHeading (linesOf (sectionText s))
      (linesOf (composeReleaseBoundAgentPrompt definition selectedTopicIds)) := by
  have hparts : ∃ heading, headingOf heading ≠ none ∧ lineFeed ∉ heading ∧
      renderMarkdownBlock (some source) heading ∈ [
        renderMarkdownBlock definition.persona (units "# 角色与语气"),
        renderMarkdownBlock definition.identityPolicy (units "# 身份策略"),
        renderMarkdownBlock definition.systemInstructions (units "# 工作总则")] := by
    rcases List.mem_cons.1 hsource with h | hsource
    · exact ⟨units "# 角色与语气", by decide, by decide, by rw [h]; exact List.mem_cons_self ..⟩
    · rcases List.mem_cons.1 hsource with h | hsource
      · refine ⟨units "# 身份策略", by decide, by decide, ?_⟩
        rw [h]
        exact List.mem_cons_of_mem _ (List.mem_cons_self ..)
      · refine ⟨units "# 工作总则", by decide, by decide, ?_⟩
        rw [List.mem_singleton.1 hsource]
        exact List.mem_cons_of_mem _ (List.mem_cons_of_mem _ (List.mem_cons_self ..))
  obtain ⟨heading, hheading, hline, hpart⟩ := hparts
  obtain ⟨htrim, hbehind⟩ := redLine_of_part hs hhigh hheading hline
  exact hbehind.within (part_of_prompt hpart htrim)

end prompt

/-! ## Red lines in the cropped prompt -/

section crop
variable {text agentPrompt title content content' : Units} {s : MarkdownSection}

/-- The lines of the frozen prompt come first. -/
lemma linesOf_effectivePrompt (frozenPrompt : Units) (plan : Option Units) :
    linesOf frozenPrompt <+: linesOf (effectivePrompt frozenPrompt plan) := by
  unfold effectivePrompt
  split
  · rw [linesOf_append]
    exact List.prefix_append ..
  · exact List.prefix_refl _

/-- A section keeps its high priority in a longer content. -/
lemma tier_within (h : derivePriorityTier title content = .high) (hin : content <:+: content') :
    derivePriorityTier title content' = .high := by
  unfold derivePriorityTier at h ⊢
  split_ifs with hmarker hkeyword
  · rfl
  · rfl
  · split_ifs at h with hold
    exact absurd (marker_within hin hold) hmarker

/-- A block of high priority stays. -/
lemma croppedText_of_block {block : (Nat × Units) × List Units}
    (hblock : block ∈ (blocks (linesOf agentPrompt)).2)
    (htier : derivePriorityTier block.1.2 (trim (joinLines block.2)) = .high)
    (htext : recomposeDroppingNormalSections agentPrompt = some text) (k : Nat) :
    croppedText (sectionOf block.1 (trim (joinLines block.2)) k) <:+: text := by
  obtain ⟨order, hmem⟩ := section_of_block hblock
  unfold recomposeDroppingNormalSections at htext
  dsimp only at htext
  split_ifs at htext
  rw [← Option.some.inj htext]
  apply part_within
  apply List.mem_map.2
  exact ⟨_, List.mem_filter.2 ⟨hmem, decide_eq_true htier⟩, rfl⟩

/-- A titled section is written with its heading. -/
lemma croppedText_titled (htitle : title ≠ []) (level order : Nat) (content : Units) :
    croppedText (sectionOf (level + 1, title) content order) =
      headingText (level + 1) title ++ lineFeed :: content := by
  have hmax : max (level + 1) 1 = level + 1 := Nat.max_eq_left (Nat.le_add_left 1 level)
  unfold croppedText sectionOf
  dsimp only
  rw [if_pos htitle, hmax]

/-- The content of a section is a part of what is written for it. -/
lemma content_within (s : MarkdownSection) : s.content <:+: croppedText s := by
  unfold croppedText
  split
  · exact (List.suffix_append_of_suffix (List.suffix_cons _ _)).isInfix
  · exact List.infix_refl _

/-- The content of a section is within its text. -/
lemma content_sectionText (s : MarkdownSection) : s.content <:+: sectionText s := by
  unfold sectionText
  split
  · exact (List.suffix_append_of_suffix (List.suffix_cons _ _)).isInfix
  · exact List.infix_refl _

/-- A heading is one line. -/
lemma lineFeed_not_mem_headingText (h : ∀ c ∈ title, isLineTerminator c = false) (level : Nat) :
    lineFeed ∉ headingText level title := by
  intro hmem
  rcases List.mem_append.1 hmem with hhash | hrest
  · exact absurd (List.eq_of_mem_replicate hhash) (by decide)
  · rcases List.mem_cons.1 hrest with hspace | htitle
    · exact absurd hspace (by decide)
    · exact absurd (h _ htitle) (by decide)

/-- A titled section is its heading over the lines of its content. -/
lemma linesOf_sectionText (h : RedLine s) (htitle : s.title ≠ []) : linesOf (sectionText s) =
    headingText (s.level + 1) s.title :: linesOf s.content := by
  unfold sectionText
  rw [if_pos htitle, linesOf_append, linesOf_line (lineFeed_not_mem_headingText h.heading.plain _)]
  rfl

/-- White space stands at neither end of a section with a content. -/
lemma trim_sectionText (h : RedLine s) (hcontent : s.content ≠ []) :
    trim (sectionText s) = sectionText s := by
  unfold sectionText
  split
  · have hback : s.content.rdropWhile isSpace = s.content := by
      rw [← h.trimmed]
      exact Lines.rdropWhile_trim s.content
    have hhash : headingText (s.level + 1) s.title ++ lineFeed :: s.content = unit '#' ::
        (headingText s.level s.title ++ [lineFeed]) ++ s.content := by
      unfold headingText
      rw [List.replicate_succ]
      simp
    rw [hhash, trim_eq, Lines.trim, List.cons_append, List.dropWhile_cons_of_neg (by decide),
      ← List.cons_append, Lines.rdropWhile_append, hback, if_neg hcontent]
  · exact h.trimmed

end crop

/-- A red line of a policy stands in the cropped prompt, with or without a plan behind it, if it had a
heading there or the marker stands in it: a title alone does not keep a section of the third
level. -/
theorem red_line_survives {definition : AgentDefinition} {selectedTopicIds : List Units}
    {plan : Option Units} {source text : Units} {s : MarkdownSection}
    (hsource : some source ∈
      [definition.persona, definition.identityPolicy, definition.systemInstructions])
    (hs : s ∈ parseMarkdownSections source) (hhigh : s.priorityTier = .high)
    (hplain : ∀ line ∈ linesOf s.content, headingOf line = none)
    (hkept : s.level ≤ 2 ∨ explicitHighPriorityMarker s.content = true)
    (htext : recomposeDroppingNormalSections (effectivePrompt
      (composeReleaseBoundAgentPrompt definition selectedTopicIds) plan) = some text) :
    sectionText s <:+: text := by
  have hred := redLine_of_high hs hhigh
  have hfrozen : BehindHeading (linesOf (sectionText s))
      (linesOf (composeReleaseBoundAgentPrompt definition selectedTopicIds)) :=
    redLine_of_prompt hsource hs hhigh
  obtain ⟨before, after, hlines, hbefore⟩ := hfrozen.within (linesOf_effectivePrompt _ plan).isInfix
  by_cases htitled : s.title ≠ [] ∧ s.level ≤ 2
  · -- The heading of the section is one of the prompt, and so the section is.
    obtain ⟨htitle, hlevel⟩ := htitled
    have hblock := blocks_titled (headingOf_deeper hred.heading hlevel) hplain before after
    rw [← linesOf_sectionText hred htitle, ← hlines] at hblock
    have hstart : s.content <+: trim (joinLines (linesOf s.content ++ (blocks after).1)) :=
      prefix_trim hred.trimmed (prefix_joinLines _ _)
    have htier := tier_within hred.tier hstart.isInfix
    apply List.IsInfix.trans _ (croppedText_of_block hblock htier htext 0)
    rw [croppedText_titled htitle, sectionText, if_pos htitle]
    apply List.IsPrefix.isInfix
    exact (List.prefix_append_right_inj _).2 (List.cons_prefix_cons.2 ⟨rfl, hstart⟩)
  · -- The lines belong to the heading in front of them, and the marker is among them.
    have hmarker : explicitHighPriorityMarker s.content = true := by
      rcases hkept with hlevel | hmarker
      · have htitle : s.title = [] := by
          by_contra htitle
          exact htitled ⟨htitle, hlevel⟩
        have htier := hred.tier
        rw [htitle] at htier
        unfold derivePriorityTier at htier
        by_contra hmarker
        rw [if_neg hmarker, if_neg (by decide)] at htier
        cases htier
      · exact hmarker
    have hplainText : ∀ line ∈ linesOf (sectionText s), headingOf line = none := by
      by_cases htitle : s.title = []
      · unfold sectionText
        rwa [if_neg (not_not.2 htitle)]
      · have hlevel : s.level = 3 := by
          have hupper : s.level ≤ 3 := hred.heading.upper
          by_contra hne
          exact htitled ⟨htitle, by omega⟩
        rw [linesOf_sectionText hred htitle, hlevel]
        exact List.forall_mem_cons.2 ⟨headingOf_four _, hplain⟩
    obtain ⟨heading, front, hblock⟩ := blocks_untitled hbefore hplainText after
    rw [← hlines] at hblock
    have hwithin : sectionText s <:+:
        trim (joinLines (front ++ (linesOf (sectionText s) ++ (blocks after).1))) := by
      apply infix_trim (trim_sectionText hred (ne_nil_of_marker hmarker))
      exact infix_joinLines _ _ _
    have htier : derivePriorityTier heading.2
        (trim (joinLines (front ++ (linesOf (sectionText s) ++ (blocks after).1)))) = .high := by
      unfold derivePriorityTier
      rw [if_pos (marker_within ((content_sectionText s).trans hwithin) hmarker)]
    apply (hwithin.trans _).trans (croppedText_of_block hblock htier htext 0)
    exact content_within (sectionOf heading _ 0)

/-- An agent whose only policy are its instructions. -/
def instructed (systemInstructions : Units) : AgentDefinition where
  persona := none
  identityPolicy := none
  systemInstructions := some systemInstructions
  topics := []
  toolBindings := []

/-- A prohibition stays, and the section behind it goes. -/
theorem prohibition_survives :
    sectionText ⟨2, units "禁止", units "x", 0, .high⟩ <:+: units "### 禁止\nx" :=
  @red_line_survives (instructed (units "## 禁止\nx\n## a\ny")) [] (some (units "1. look"))
    (units "## 禁止\nx\n## a\ny") _ ⟨2, units "禁止", units "x", 0, .high⟩ (by decide) (by decide) rfl (by decide)
    (.inl (by decide)) (by decide)

/-- A red line of the third level goes with the section in front of it. -/
example : recomposeDroppingNormalSections (effectivePrompt (composeReleaseBoundAgentPrompt
    (instructed (units "# a\nx\n### 红线\ny\n# 必须\nz")) []) none) = some (units "## 必须\nz") := by
  decide

end NexusClaw.PromptCropping
