import NexusClaw.AuditChain.JsonValue
import NexusClaw.Double

/-!
# The budget of the system prompt

`enforceSystemTokenBudget` fills the three slots of the system template by `String.replace`, one after
the other, and drops segments while the prompt is over the budget of the context policy. `fill` is the
template with its slots filled at once; `assembles_of_undisturbed` says when the replacements come to
the same.
-/

namespace NexusClaw.AgentRuntime.PromptBudget
open AuditChain

/-! ## Replacing a text -/

/-- What stands before and after the first occurrence of a pattern. -/
def splitFirst (pattern : Units) : Units → Option (Units × Units)
  | [] => if pattern = [] then some ([], []) else none
  | c :: text =>
    if pattern.isPrefixOf (c :: text) then some ([], (c :: text).drop pattern.length)
    else (splitFirst pattern text).map fun parts => (c :: parts.1, parts.2)

/-- `GetSubstitution` for a match without captures. -/
def getSubstitution (matched before after : Units) : Units → Units
  | [] => []
  | [c] => [c]
  | c :: d :: rest =>
    if c = unit '$' then
      if d = unit '$' then unit '$' :: getSubstitution matched before after rest
      else if d = unit '&' then matched ++ getSubstitution matched before after rest
      else if d = 0x60 then before ++ getSubstitution matched before after rest
      else if d = 0x27 then after ++ getSubstitution matched before after rest
      else c :: getSubstitution matched before after (d :: rest)
    else c :: getSubstitution matched before after (d :: rest)

/-- `text.replace(pattern, replacement)` -/
def replace (text pattern replacement : Units) : Units :=
  match splitFirst pattern text with
  | none => text
  | some (before, after) => before ++ getSubstitution pattern before after replacement ++ after

/-! ## Assembling the prompt -/

structure Segment where
  name : String
  content : Units

/-- `context.cognitive?.contextPolicy?.totalInputTokenBudget`, where it is finite and positive. -/
def enforcedBudget : Option Double → Option Rat
  | some (.finite q) => if 0 < q then some q else none
  | _ => none

/-- `trimmable.find((t) => t.name === name)?.content ?? ''` -/
def contentOf (trimmable : List Segment) (name : String) : Units :=
  ((trimmable.find? (·.name = name)).map (·.content)).getD []

/-- A map from the names of segments to their contents. -/
abbrev Active : Type :=
  String → Option Units

def Active.set (active : Active) (name : String) (content : Units) : Active :=
  fun other => if other = name then some content else active other

/-- `new Map(trimmable.map((t) => [t.name, t.content]))` -/
def Active.ofSegments (trimmable : List Segment) : Active :=
  trimmable.foldl (fun active t => active.set t.name t.content) fun _ => none

def fillPlaceholders (template exemplars knowledge customerMemory : Units) : Units :=
  replace (replace (replace template (units "{exemplars}") exemplars) (units "{knowledge}") knowledge)
    (units "{customerMemory}") customerMemory

def render (template : Units) (active : Active) : Units :=
  fillPlaceholders template ((active "verified_exemplars").getD [])
    ((active "knowledge_context").getD []) ((active "customer_memory").getD [])

/-- `Math.ceil(text.length / 2) + 4` -/
def estimateTokens (text : Units) : Nat :=
  (text.length + 1) / 2 + 4

/-- The names of `placeholderByName`. -/
def hasPlaceholder (name : String) : Bool :=
  ["verified_exemplars", "knowledge_context", "customer_memory"].contains name

/-- The prompt, and the names in the log. -/
structure Assembled where
  rendered : Units
  trimmedNames : List String
deriving DecidableEq

def trimLoop (template : Units) (budget : Rat) :
    List Segment → Active → Units → List String → Assembled
  | [], _, rendered, trimmedNames => { rendered, trimmedNames }
  | segment :: trimmable, active, rendered, trimmedNames =>
    if (estimateTokens rendered : Rat) ≤ budget then { rendered, trimmedNames }
    else if hasPlaceholder segment.name = false ∨ (active segment.name).getD [] = [] then
      trimLoop template budget trimmable active rendered trimmedNames
    else
      let active := active.set segment.name []
      trimLoop template budget trimmable active (render template active)
        (trimmedNames ++ [segment.name])

def enforceSystemTokenBudget (template : Units) (trimmable : List Segment)
    (totalInputTokenBudget : Option Double) : Assembled :=
  match enforcedBudget totalInputTokenBudget with
  | none =>
    { rendered := fillPlaceholders template (contentOf trimmable "verified_exemplars")
        (contentOf trimmable "knowledge_context") (contentOf trimmable "customer_memory")
      trimmedNames := [] }
  | some budget =>
    let active := Active.ofSegments trimmable
    trimLoop template budget trimmable active (render template active) []

/-! ## Templates with slots -/

inductive Slot where
  | exemplars
  | knowledge
  | customerMemory
deriving DecidableEq

/-- The slots in the order in which they are filled and dropped. -/
def slots : List Slot :=
  [.exemplars, .knowledge, .customerMemory]

def Slot.text : Slot → Units
  | .exemplars => units "{exemplars}"
  | .knowledge => units "{knowledge}"
  | .customerMemory => units "{customerMemory}"

def Slot.segment : Slot → String
  | .exemplars => "verified_exemplars"
  | .knowledge => "knowledge_context"
  | .customerMemory => "customer_memory"

inductive Piece where
  | text (text : Units)
  | slot (slot : Slot)
deriving DecidableEq

def Piece.slot? : Piece → Option Slot
  | .text _ => none
  | .slot name => some name

/-- A template has each slot once, among any texts. -/
structure Template where
  pieces : List Piece
  once : (pieces.filterMap Piece.slot?).Perm slots

/-- The pieces with the slots filled. -/
def fill (contents : Slot → Units) (pieces : List Piece) : Units :=
  pieces.flatMap fun piece =>
    match piece with
    | .text text => text
    | .slot name => contents name

/-- The template as the caller writes it. -/
def Template.source (template : Template) : Units :=
  fill Slot.text template.pieces

/-- The segments of `buildChatMessages`. -/
def trimmable (contents : Slot → Units) : List Segment :=
  slots.map fun slot => { name := slot.segment, content := contents slot }

/-- The contents without the dropped ones. -/
def without (contents : Slot → Units) (dropped : List Slot) : Slot → Units :=
  fun slot => if slot ∈ dropped then [] else contents slot

/-- The segments that can be dropped, in the order in which they are. -/
def droppable (contents : Slot → Units) : List Slot :=
  slots.filter (contents · ≠ [])

/-- The estimate of the prompt without the first `count` of them. -/
def estimate (template : Template) (contents : Slot → Units) (count : Nat) : Nat :=
  estimateTokens (fill (without contents ((droppable contents).take count)) template.pieces)

/-- With a budget, `count` segments are dropped only where fewer of them leave the prompt over it. -/
def IsReached (template : Template) (contents : Slot → Units) (budget : Option Double)
    (count : Nat) : Prop :=
  count ≤ (droppable contents).length ∧
    ∀ fewer < count, ∃ q ∈ enforcedBudget budget, q < (estimate template contents fewer : Rat)

/-- The prompt is the template with its slots filled verbatim, without the shortest prefix of the
segments that brings it within the budget. -/
def Assembles (template : Template) (contents : Slot → Units) (budget : Option Double) : Prop :=
  ∃ count, IsReached template contents budget count ∧
    (∀ q ∈ enforcedBudget budget, (estimate template contents count : Rat) ≤ q ∨
      count = (droppable contents).length) ∧
    enforceSystemTokenBudget template.source (trimmable contents) budget =
      { rendered :=
          fill (without contents ((droppable contents).take count)) template.pieces
        trimmedNames := ((droppable contents).take count).map Slot.segment }

/-! ## When the slots are filled verbatim -/

/-- The contents once the slots before `slot` are filled. -/
def filledBefore (contents : Slot → Units) (slot : Slot) : Slot → Units :=
  fun other => if other ∈ slots.takeWhile (· ≠ slot) then contents other else other.text

/-- A dollar sign in a content begins none of the patterns of a replacement. -/
def Plain (content : Units) : Prop :=
  ∀ d ∈ [unit '$', unit '&', 0x60, 0x27], ¬ [unit '$', d] <:+: content

/-- At its turn, the first occurrence of a slot's name is the slot. -/
def FoundInPlace (pieces : List Piece) (contents : Slot → Units) : Prop :=
  ∀ before slot after, pieces = before ++ .slot slot :: after →
    splitFirst slot.text (fill (filledBefore contents slot) pieces) =
      some (fill (filledBefore contents slot) before, fill (filledBefore contents slot) after)

/-- No content has a replacement pattern, and each slot is found in its place whatever has been
dropped by then. -/
structure Undisturbed (template : Template) (contents : Slot → Units) (budget : Option Double) :
    Prop where
  plain : ∀ slot, Plain (contents slot)
  found : ∀ count, IsReached template contents budget count →
    FoundInPlace template.pieces (without contents ((droppable contents).take count))

section
variable {template : Template} {contents : Slot → Units} {pieces : List Piece}

/-- A plain text is plain behind its first unit. -/
lemma Plain.tail {c : UInt16} {content : Units} (h : Plain (c :: content)) : Plain content :=
  fun d hd hinfix => h d hd (List.infix_cons hinfix)

/-- A plain replacement is taken as it is. -/
lemma getSubstitution_plain (matched before after : Units) {content : Units} (h : Plain content) :
    getSubstitution matched before after content = content := by
  induction content with
  | nil => rfl
  | cons c content ih =>
    cases content with
    | nil => rfl
    | cons d rest =>
      rw [getSubstitution]
      by_cases hc : c = unit '$'
      · have hd (e : UInt16) (he : e ∈ [unit '$', unit '&', 0x60, 0x27]) : d ≠ e := by
          rintro rfl
          exact h d he ⟨[], rest, by rw [hc]; rfl⟩
        rw [if_pos hc, if_neg (hd _ (by simp)), if_neg (hd _ (by simp)), if_neg (hd _ (by simp)),
          if_neg (hd _ (by simp)), ih h.tail]
      · rw [if_neg hc, ih h.tail]

/-- A pattern that is found is replaced. -/
lemma replace_found {text pattern content before after : Units}
    (h : splitFirst pattern text = some (before, after)) (hplain : Plain content) :
    replace text pattern content = before ++ content ++ after := by
  unfold replace
  rw [h]
  dsimp only
  rw [getSubstitution_plain _ _ _ hplain]

/-- Two ways to fill the slots that agree on them. -/
lemma fill_congr {f g : Slot → Units} (h : ∀ slot ∈ pieces.filterMap Piece.slot?, f slot = g slot) :
    fill f pieces = fill g pieces := by
  induction pieces with
  | nil => rfl
  | cons piece pieces ih =>
    have hrest := ih fun slot hslot => h slot (by
      rw [List.filterMap_cons]
      split
      · exact hslot
      · exact List.mem_cons_of_mem _ hslot)
    unfold fill at hrest ⊢
    rw [List.flatMap_cons, List.flatMap_cons, hrest]
    cases piece with
    | text text => rfl
    | slot slot =>
      dsimp only
      rw [h slot (List.mem_cons_self ..)]

/-- A slot stands in one place of its template. -/
lemma Template.place (template : Template) (slot : Slot) : ∃ before after,
    template.pieces = before ++ .slot slot :: after ∧
      slot ∉ before.filterMap Piece.slot? ∧ slot ∉ after.filterMap Piece.slot? := by
  have hmem : slot ∈ template.pieces.filterMap Piece.slot? :=
    template.once.mem_iff.2 (by cases slot <;> decide)
  obtain ⟨piece, hpiece, hslot⟩ := List.mem_filterMap.1 hmem
  cases piece with
  | text text => cases hslot
  | slot name =>
    obtain rfl := Option.some.inj hslot
    obtain ⟨before, after, hpieces⟩ := List.append_of_mem hpiece
    have hnodup : (template.pieces.filterMap Piece.slot?).Nodup :=
      template.once.nodup_iff.2 (by decide)
    have hslots : (Piece.slot name :: after).filterMap Piece.slot? =
        name :: after.filterMap Piece.slot? := rfl
    rw [hpieces, List.filterMap_append, hslots, List.nodup_append] at hnodup
    refine ⟨before, after, hpieces, fun h => ?_, (List.nodup_cons.1 hnodup.2.1).1⟩
    exact hnodup.2.2 name h name (List.mem_cons_self ..) rfl

/-- One replacement fills the slot whose turn it is. -/
lemma replace_slot (hplain : ∀ slot, Plain (contents slot))
    (hfound : FoundInPlace template.pieces contents) (slot : Slot) :
    replace (fill (filledBefore contents slot) template.pieces) slot.text (contents slot) =
      fill (fun other => if other = slot then contents slot else filledBefore contents slot other)
        template.pieces := by
  obtain ⟨before, after, hpieces, hbefore, hafter⟩ := template.place slot
  rw [replace_found (hfound before slot after hpieces) (hplain slot), hpieces]
  have hrest {pieces : List Piece} (h : slot ∉ pieces.filterMap Piece.slot?) :
      fill (filledBefore contents slot) pieces =
        fill (fun other => if other = slot then contents slot else filledBefore contents slot other)
          pieces :=
    fill_congr fun other hother => (if_neg fun heq : other = slot => h (heq ▸ hother)).symm
  rw [hrest hbefore, hrest hafter]
  simp [fill]

/-- The placeholders are filled in their places. -/
lemma fillPlaceholders_eq (hplain : ∀ slot, Plain (contents slot))
    (hfound : FoundInPlace template.pieces contents) :
    fillPlaceholders template.source (contents .exemplars) (contents .knowledge)
      (contents .customerMemory) = fill contents template.pieces := by
  have hstart : template.source = fill (filledBefore contents .exemplars) template.pieces :=
    fill_congr fun slot _ => by cases slot <;> rfl
  have hturn (slot : Slot) := replace_slot hplain hfound slot
  -- after each replacement one more slot holds its content
  have hnext : (fun other => if other = Slot.exemplars then contents .exemplars
      else filledBefore contents .exemplars other) = filledBefore contents .knowledge := by
    funext slot
    cases slot <;> rfl
  have hlast : (fun other => if other = Slot.knowledge then contents .knowledge
      else filledBefore contents .knowledge other) = filledBefore contents .customerMemory := by
    funext slot
    cases slot <;> rfl
  have hend : (fun other => if other = Slot.customerMemory then contents .customerMemory
      else filledBefore contents .customerMemory other) = contents := by
    funext slot
    cases slot <;> rfl
  have hfirst := hturn .exemplars
  have hsecond := hturn .knowledge
  have hthird := hturn .customerMemory
  rw [hnext] at hfirst
  rw [hlast] at hsecond
  rw [hend] at hthird
  unfold fillPlaceholders
  rw [hstart]
  exact (congrArg (fun text => replace (replace text _ _) _ _) hfirst).trans
    ((congrArg (fun text => replace text _ _) hsecond).trans hthird)

/-- Dropped contents are plain. -/
lemma plain_without (h : ∀ slot, Plain (contents slot)) (dropped : List Slot) (slot : Slot) :
    Plain (without contents dropped slot) := by
  unfold without
  split
  · intro d _ hinfix
    exact absurd hinfix.length_le (by simp)
  · exact h slot

/-! ## The loop -/

/-- The active contents are those that have not been dropped. -/
def ActiveIs (active : Active) (contents : Slot → Units) : Prop :=
  ∀ slot : Slot, active slot.segment = some (contents slot)

/-- The active sections are rendered as they are filled. -/
lemma render_eq {active : Active} (h : ActiveIs active contents) :
    render template.source active = fillPlaceholders template.source (contents .exemplars)
      (contents .knowledge) (contents .customerMemory) := by
  unfold render
  rw [show active "verified_exemplars" = some (contents .exemplars) from h .exemplars,
    show active "knowledge_context" = some (contents .knowledge) from h .knowledge,
    show active "customer_memory" = some (contents .customerMemory) from h .customerMemory]
  rfl

/-- Two slots have different segments. -/
lemma segment_inj {a b : Slot} (h : a.segment = b.segment) : a = b := by
  revert h
  cases a <;> cases b <;> decide

/-- The sections are active as their segments are. -/
lemma activeIs_ofSegments : ActiveIs (Active.ofSegments (trimmable contents)) contents := by
  intro slot
  cases slot <;> rfl

/-- Dropping one more segment. -/
lemma ActiveIs.drop {active : Active} {dropped : List Slot} {slot : Slot}
    (h : ActiveIs active (without contents dropped)) :
    ActiveIs (active.set slot.segment []) (without contents (dropped ++ [slot])) := by
  intro other
  unfold Active.set without
  by_cases heq : other = slot
  · rw [if_pos (congrArg Slot.segment heq), if_pos (by simp [heq])]
  · rw [if_neg fun hsegment => heq (segment_inj hsegment), h other]
    unfold without
    simp [heq]

/-- The loop from the segments on that are left: what has been dropped are the first droppable ones,
and with fewer of them the prompt is over the budget. -/
lemma trimLoop_run {q : Rat} (hplain : ∀ slot, Plain (contents slot))
    (hfound : ∀ count, (∀ fewer < count, q < (estimate template contents fewer : Rat)) →
      count ≤ (droppable contents).length →
      FoundInPlace template.pieces (without contents ((droppable contents).take count)))
    (rest dropped : List Slot) (hrest : rest.Nodup) (hnew : ∀ slot ∈ rest, slot ∉ dropped)
    (hsplit : droppable contents = dropped ++ rest.filter (contents · ≠ []))
    (hover : ∀ fewer < dropped.length, q < (estimate template contents fewer : Rat))
    (active : Active) (hactive : ActiveIs active (without contents dropped)) :
    ∃ count ≤ (droppable contents).length,
      (∀ fewer < count, q < (estimate template contents fewer : Rat)) ∧
      ((estimate template contents count : Rat) ≤ q ∨ count = (droppable contents).length) ∧
      trimLoop template.source q
        (rest.map fun slot => { name := slot.segment, content := contents slot }) active
        (render template.source active) (dropped.map Slot.segment) =
        { rendered := fill (without contents ((droppable contents).take count)) template.pieces
          trimmedNames := ((droppable contents).take count).map Slot.segment } := by
  -- induction on the segments that are still to be tried
  induction rest generalizing dropped active with
  | nil =>
    have hdropped : droppable contents = dropped := by
      rw [hsplit, List.filter_nil, List.append_nil]
    have htake : (droppable contents).take dropped.length = dropped := by
      rw [hdropped, List.take_length]
    have hall : dropped.length = (droppable contents).length := by
      rw [hdropped]
    refine ⟨dropped.length, hall.le, hover, .inr hall, ?_⟩
    have hplace := hfound dropped.length hover hall.le
    rw [htake] at hplace ⊢
    rw [List.map_nil, trimLoop, render_eq hactive, fillPlaceholders_eq (plain_without hplain dropped) hplace]
  | cons slot rest ih =>
    have htake : (droppable contents).take dropped.length = dropped := by
      rw [hsplit, List.take_left' rfl]
    have hle : dropped.length ≤ (droppable contents).length := by
      rw [hsplit, List.length_append]
      exact Nat.le_add_right _ _
    have hplace := hfound dropped.length hover hle
    rw [htake] at hplace
    have hrendered : render template.source active =
        fill (without contents dropped) template.pieces := by
      rw [render_eq hactive, fillPlaceholders_eq (plain_without hplain dropped) hplace]
    have hestimate : estimateTokens (render template.source active) =
        estimate template contents dropped.length := by
      unfold estimate
      rw [htake, hrendered]
    have hcontent : (active slot.segment).getD [] = contents slot := by
      rw [hactive slot, without, if_neg (hnew slot (List.mem_cons_self ..))]
      rfl
    have hknown : hasPlaceholder slot.segment = true := by
      cases slot <;> rfl
    rw [List.map_cons, trimLoop, hestimate, hcontent, hknown]
    -- the loop stops at a prompt that fits; an empty slot is passed over
    by_cases hfits : (estimate template contents dropped.length : Rat) ≤ q
    · refine ⟨dropped.length, hle, hover, .inl hfits, ?_⟩
      rw [if_pos hfits, htake, hrendered]
    · rw [if_neg hfits]
      by_cases hempty : contents slot = []
      · rw [if_pos (.inr hempty)]
        exact ih dropped (List.nodup_cons.1 hrest).2 (fun other h => hnew other (List.mem_cons_of_mem _ h))
          (by rw [hsplit, List.filter_cons_of_neg (by simpa using hempty)]) hover active hactive
      · rw [if_neg (by simp [hempty])]
        have hdropped := ih (dropped ++ [slot]) (List.nodup_cons.1 hrest).2 ?_ ?_ ?_ _
          hactive.drop
        · rw [List.map_append] at hdropped
          exact hdropped
        · intro other hother hmem
          rcases List.mem_append.1 hmem with hmem | hmem
          · exact hnew other (List.mem_cons_of_mem _ hother) hmem
          · obtain rfl := List.mem_singleton.1 hmem
            exact (List.nodup_cons.1 hrest).1 hother
        · rw [hsplit, List.filter_cons_of_pos (by simpa using hempty), List.append_assoc]
          rfl
        · intro fewer hfewer
          rw [List.length_append, List.length_singleton] at hfewer
          rcases Nat.lt_or_eq_of_le (Nat.le_of_lt_succ hfewer) with hlt | rfl
          · exact hover fewer hlt
          · exact not_le.1 hfits

/-- A template whose slots are found in their places is filled verbatim, and trimmed no more than the
budget asks. -/
theorem assembles_of_undisturbed (template : Template) (contents : Slot → Units)
    (budget : Option Double) (h : Undisturbed template contents budget) :
    Assembles template contents budget := by
  have hnone : without contents [] = contents := by
    funext slot
    exact if_neg List.not_mem_nil
  unfold Assembles enforceSystemTokenBudget
  cases hbudget : enforcedBudget budget with
  | none =>
    have hplace := h.found 0 ⟨Nat.zero_le _, nofun⟩
    refine ⟨0, ⟨Nat.zero_le _, nofun⟩, nofun, ?_⟩
    rw [List.take_zero, hnone] at hplace ⊢
    rw [← fillPlaceholders_eq h.plain hplace]
    rfl
  | some q =>
    obtain ⟨count, hle, hover, hstop, hloop⟩ := trimLoop_run (q := q) h.plain
      (fun count hover hle => h.found count
        ⟨hle, fun fewer hfewer => ⟨q, hbudget, hover fewer hfewer⟩⟩)
      slots [] (by decide) (fun _ _ => List.not_mem_nil) rfl (fun _ h => absurd h (Nat.not_lt_zero _))
      (Active.ofSegments (trimmable contents)) (by rw [hnone]; exact activeIs_ofSegments)
    refine ⟨count, ⟨hle, fun fewer hfewer => ⟨q, hbudget, hover fewer hfewer⟩⟩, ?_, hloop⟩
    intro p hp
    obtain rfl := Option.some.inj hp
    exact hstop

/-- It is enough to look at each slot once. -/
lemma foundInPlace_of_slots (h : ∀ slot, ∃ before after,
      template.pieces = before ++ .slot slot :: after ∧
        splitFirst slot.text (fill (filledBefore contents slot) template.pieces) =
          some (fill (filledBefore contents slot) before, fill (filledBefore contents slot) after)) :
    FoundInPlace template.pieces contents := by
  intro before slot after hpieces
  obtain ⟨before', after', hpieces', hfound⟩ := h slot
  obtain ⟨_, _, hplace, hbefore, hafter⟩ := template.place slot
  have hnot {pieces : List Piece} (h : slot ∉ pieces.filterMap Piece.slot?) :
      Piece.slot slot ∉ pieces :=
    fun hmem => h (List.mem_filterMap.2 ⟨_, hmem, rfl⟩)
  obtain ⟨hsame, _, hsame'⟩ := (List.append_cons_inj_of_notMem (hnot hbefore) (hnot hafter)).1
    (hplace.symm.trans hpieces)
  obtain ⟨hother, _, hother'⟩ := (List.append_cons_inj_of_notMem (hnot hbefore) (hnot hafter)).1
    (hplace.symm.trans hpieces')
  rw [hfound, ← hother, ← hother', hsame, hsame']

/-- The slots of the system template. -/
def shortTemplate : Template where
  pieces := [.text (units "Rules\n"), .slot .knowledge, .text (units "\n"), .slot .exemplars,
    .text (units "\n"), .slot .customerMemory, .text (units "\nFormat")]
  once := by decide

def exemplarsOnly (exemplars : Units) : Slot → Units
  | .exemplars => exemplars
  | _ => []

/-- A short prompt is assembled within its budget. -/
theorem short_prompt_assembles :
    Assembles shortTemplate (exemplarsOnly (units "See {knowledge}.")) (some (.finite 10)) := by
  refine assembles_of_undisturbed _ _ _ ⟨fun slot => ?_, fun count hreached => ?_⟩
  · unfold Plain
    cases slot <;> decide
  · have hcount : count ≤ 1 := hreached.1
    refine foundInPlace_of_slots fun slot => ?_
    cases slot with
    | exemplars =>
      refine ⟨[.text (units "Rules\n"), .slot .knowledge, .text (units "\n")], _, rfl, ?_⟩
      interval_cases count <;> decide
    | knowledge =>
      refine ⟨[.text (units "Rules\n")], _, rfl, ?_⟩
      interval_cases count <;> decide
    | customerMemory =>
      refine ⟨[.text (units "Rules\n"), .slot .knowledge, .text (units "\n"), .slot .exemplars,
        .text (units "\n")], _, rfl, ?_⟩
      interval_cases count <;> decide

/-- Two dollar signs in an exemplar become one. -/
theorem dollars_merged : ¬ Assembles shortTemplate (exemplarsOnly (units "costs $$5")) none := by
  rintro ⟨count, hreached, _, heq⟩
  cases count with
  | zero => exact absurd heq (by decide)
  | succ count =>
    obtain ⟨q, hq, _⟩ := hreached.2 0 (Nat.succ_pos count)
    cases hq

end

end NexusClaw.AgentRuntime.PromptBudget
