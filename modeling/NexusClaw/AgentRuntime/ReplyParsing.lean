import NexusClaw.JsonText
import NexusClaw.AgentRuntime.ModelReply

/-!
# Parsing of a reply

The three attempts of `parseThoughtAndAction`: a reply that is JSON, one with markers, and JSON inside
of a text. An object is cut out of a text by counting its braces, also those inside of strings, and a
final answer is decoded once, so that an envelope in a string in a string is an answer (`parses_iff`).
-/

namespace NexusClaw.ReplyParsing
open AgentRuntime (Config ParsedReply Thought Action isSpace trim dropFenceStart dropFenceEnd
  isEnvelope materializeFinalAnswer objectInput validateStructuredAction parseThoughtAndAction)

/-! ## Objects in a text -/

def openBrace : Char :=
  '\x7b'

def closeBrace : Char :=
  '\x7d'

/-- The text up to where as many braces are closed as opened; `depth` are open before it. -/
def upToBalance : Int → List Char → Option (List Char)
  | _, [] => none
  | depth, c :: cs =>
    let depth := if c = openBrace then depth + 1 else if c = closeBrace then depth - 1 else depth
    if depth = 0 then some [c] else (upToBalance depth cs).map (c :: ·)

/-- `tryExtractJsonObject` -/
def tryExtractJsonObject (fmt : Json.NumberFormat) (text : List Char) : Option Json :=
  (upToBalance 0 (text.dropWhile (· ≠ openBrace))).bind (Json.parse fmt)

/-- `typeof value === 'object' && value !== null` -/
def isObject : Json → Bool
  | .obj _ => true
  | .arr _ => true
  | _ => false

/-- `safeParseToolInput` -/
def safeParseToolInput (fmt : Json.NumberFormat) : Option Json → Option Json
  | some (.obj fields) => some (.obj fields)
  | some (.str input) =>
    let str := trim input
    if str = "" then none
    else ((Json.parse fmt str.toList).filter isObject).or
      (((tryExtractJsonObject fmt str.toList).filter isObject).or
        (some (.obj [("rawInput", .str str)])))
  | _ => none

/-! ## The attempts -/

/-- A thought is kept as a text. -/
def thoughtText : Option Json → String
  | some (.str s) => s
  | some v => v.render
  | none => ""

/-- `parsed.thought || parsed.action`, and the reply that is made of such an object. -/
def readEnvelope (fmt : Json.NumberFormat) (noReasoning : String) (parsed : Json) :
    Option ParsedReply :=
  let thought := parsed.get? "thought"
  let action := parsed.get? "action"
  if Json.truthy thought || Json.truthy action then
    some
      { thought :=
          { reasoning :=
              thoughtText (Json.orElse (thought.bind (·.get? "reasoning")) (some (.str noReasoning)))
            plan := thoughtText (Json.orElse (thought.bind (·.get? "plan")) (some (.str "")))
            confidence :=
              match thought.bind (·.get? "confidence") with
              | some (.num n) => n
              | _ => 1 / 2 }
        type := action.bind (·.get? "type")
        toolName := action.bind (·.get? "toolName")
        toolInput := safeParseToolInput fmt (action.bind (·.get? "toolInput"))
        generatePrompt := action.bind (·.get? "generatePrompt") }
  else none

def fence : List Char :=
  ['`', '`', '`']

/-- What follows a fence: the word `json`, white space and a line break are left out. -/
def behindFence (cs : List Char) : List Char :=
  (if ['j', 's', 'o', 'n'].isPrefixOf cs then cs.drop 4 else cs).dropWhile isSpace

/-- `tryParseAsJson` -/
def tryParseAsJson (fmt : Json.NumberFormat) (raw : List Char) : Option ParsedReply :=
  let cleaned := if fence.isPrefixOf raw then dropFenceEnd (behindFence (raw.drop 3)) else raw
  (Json.parse fmt cleaned).bind (readEnvelope fmt "No reasoning provided")

/-- What stands after a word, which is in lower case. -/
def dropWord : List Char → List Char → Option (List Char)
  | [], cs => some cs
  | _ :: _, [] => none
  | w :: word, c :: cs => if c.toLower = w then dropWord word cs else none

/-- `\*{0,2}` -/
def dropStars : List Char → List Char
  | '*' :: '*' :: cs => cs
  | '*' :: cs => cs
  | cs => cs

/-- `word\*{0,2}\s*:` at the head of a text, and what follows it. -/
def marker (word cs : List Char) : Option (List Char) :=
  (dropWord word cs).bind fun rest =>
    match (dropStars rest).dropWhile isSpace with
    | ':' :: rest => some rest
    | _ => none

/-- `\*{0,2}word\*{0,2}\s*:\s*` anywhere in a text, and what follows the first one. -/
def behindMarker (word : List Char) : List Char → Option (List Char)
  | [] => none
  | c :: cs =>
    match marker word (c :: cs) with
    | some rest => some (rest.dropWhile isSpace)
    | none => behindMarker word cs

/-- `\*{0,2}(?:words)\*{0,2}\s*:` at the head of a text. -/
def markerAhead (words : List (List Char)) (cs : List Char) : Bool :=
  [0, 1, 2].any fun stars =>
    cs.take stars = List.replicate stars '*' &&
      words.any fun word => (marker word (cs.drop stars)).isSome

def upToMarker (words : List (List Char)) : List Char → List Char
  | [] => []
  | c :: cs => if markerAhead words (c :: cs) then [] else c :: upToMarker words cs

def thoughtWord : List Char :=
  "thought".toList

def planWord : List Char :=
  "plan".toList

def actionWord : List Char :=
  "action".toList

/-- `text || fallback` -/
def textOr (text fallback : String) : String :=
  if text = "" then fallback else text

/-- `tryParseMarkerFormat`. An action without an object is a `finish` without an answer, whether the
word is there or not. -/
def tryParseMarkerFormat (fmt : Json.NumberFormat) (raw : List Char) : Option ParsedReply :=
  let thoughtMatch := (behindMarker thoughtWord raw).map (upToMarker [planWord, actionWord])
  let planMatch := (behindMarker planWord raw).map (upToMarker [actionWord])
  let actionMatch := behindMarker actionWord raw
  if thoughtMatch.isNone && actionMatch.isNone then none
  else
    let reasoning := trim (String.ofList (thoughtMatch.getD []))
    let plan := trim (String.ofList (planMatch.getD []))
    let action := actionMatch.bind fun text =>
      tryExtractJsonObject fmt (trim (String.ofList text)).toList
    some
      { thought :=
          { reasoning := textOr reasoning "Parsed from marker format"
            plan := textOr plan reasoning
            confidence := 7 / 10 }
        type :=
          match action with
          | some action => action.get? "type"
          | none => some (.str "finish")
        toolName := action.bind (·.get? "toolName")
        toolInput := safeParseToolInput fmt (action.bind (·.get? "toolInput"))
        generatePrompt := action.bind (·.get? "generatePrompt") }

/-- What stands behind the first fence. -/
def behindFirstFence : List Char → Option (List Char)
  | [] => none
  | c :: cs =>
    if fence.isPrefixOf (c :: cs) then some (behindFence ((c :: cs).drop 3)) else behindFirstFence cs

/-- The text up to the next fence. -/
def upToFence : List Char → Option (List Char)
  | [] => none
  | c :: cs => if fence.isPrefixOf (c :: cs) then some [] else (upToFence cs).map (c :: ·)

/-- `tryExtractEmbeddedJson` -/
def tryExtractEmbeddedJson (fmt : Json.NumberFormat) (raw : List Char) : Option ParsedReply :=
  let fenced := ((behindFirstFence raw).bind upToFence).bind fun text =>
    Json.parse fmt (trim (String.ofList text)).toList
  (fenced.bind (readEnvelope fmt "Extracted from embedded JSON")).or
    ((tryExtractJsonObject fmt raw).bind (readEnvelope fmt "Extracted from embedded JSON"))

/-- The first attempt that reads the text. -/
def readReply (fmt : Json.NumberFormat) (raw : String) : Option ParsedReply :=
  (tryParseAsJson fmt raw.toList).or
    ((tryParseMarkerFormat fmt raw.toList).or (tryExtractEmbeddedJson fmt raw.toList))

/-- The engine with the three attempts. -/
def parsing (cfg : Config) : Config :=
  { cfg with readReply := readReply cfg.fmt }

/-! ## What a reply may say -/

/-- A text is JSON for a value, or for a string that decodes to it. -/
inductive Decodes (fmt : Json.NumberFormat) : List Char → Json → Prop where
  | parsed {cs : List Char} {v : Json} : Json.parse fmt cs = some v → Decodes fmt cs v
  | string {cs : List Char} {s : String} {v : Json} : Json.parse fmt cs = some (.str s) →
    Decodes fmt s.toList v → Decodes fmt cs v

/-- An answer without one code fence. -/
def unfenced (text : String) : List Char :=
  (trim (String.ofList (dropFenceEnd (dropFenceStart (trim text).toList)))).toList

/-- An answer that is an internal envelope, perhaps in a string in a string. -/
def Envelope (fmt : Json.NumberFormat) (text : String) : Prop :=
  ∃ v, Decodes fmt (unfenced text) v ∧ isEnvelope v = true

/-- An envelope that stands in one string at least. -/
def StringEnvelope (fmt : Json.NumberFormat) (text : String) : Prop :=
  ∃ s v, Json.parse fmt (unfenced text) = some (.str s) ∧ Decodes fmt s.toList v ∧ isEnvelope v = true

/-- An action that may leave the parser. -/
def Allowed (fmt : Json.NumberFormat) (action : Action) : Prop :=
  match action.type with
  | .toolCall => (∃ name, action.toolName = some (.str name) ∧ trim name ≠ "") ∧
      ∃ fields, action.toolInput = some (.obj fields)
  | .llmGenerate => True
  | .humanHandoff => True
  | .finish => ∃ text, action.generatePrompt = some (.str text) ∧ trim text ≠ "" ∧ ¬ Envelope fmt text

/-- A reply is refused or has an allowed action. -/
def FailsClosed (cfg : Config) (content : String) : Prop :=
  ∀ thought action, parseThoughtAndAction cfg content = .ok (thought, action) → Allowed cfg.fmt action

/-- A JSON text of an object, without white space around it. -/
structure ObjectText (fmt : Json.NumberFormat) (fields : List (String × Json)) (cs : List Char) :
    Prop where
  parsed : Json.parse fmt cs = some (.obj fields)
  opens : cs.head? = some openBrace
  closes : cs.getLast? = some closeBrace

/-- As many braces are closed as opened, and at no earlier place. -/
structure FirstBalance (cs : List Char) : Prop where
  whole : cs.count openBrace = cs.count closeBrace
  part : ∀ p, p <+: cs → p ≠ [] → p ≠ cs → p.count openBrace ≠ p.count closeBrace

/-! ## Counting braces -/

section braces
variable {fmt : Json.NumberFormat} {cs p before after : List Char}
  {fields : List (String × Json)} {v : Json}

/-- The braces that are open after a text. -/
def depthOf (cs : List Char) : Int :=
  cs.count openBrace - cs.count closeBrace

/-- What a character adds. -/
def braceOf (c : Char) : Int :=
  if c = openBrace then 1 else if c = closeBrace then -1 else 0

/-- The depth of braces, one character after the other. -/
lemma depthOf_cons (c : Char) (cs : List Char) : depthOf (c :: cs) = braceOf c + depthOf cs := by
  have hne : openBrace ≠ closeBrace := by decide
  unfold depthOf braceOf
  by_cases hopen : c = openBrace
  · rw [hopen, List.count_cons_self, List.count_cons_of_ne hne, if_pos rfl]
    omega
  · by_cases hclose : c = closeBrace
    · rw [hclose, List.count_cons_of_ne hne.symm, List.count_cons_self, if_neg hne.symm, if_pos rfl]
      omega
    · rw [List.count_cons_of_ne hopen, List.count_cons_of_ne hclose, if_neg hopen, if_neg hclose]
      omega

/-- The text up to its balance, one character after the other. -/
lemma upToBalance_cons (depth : Int) (c : Char) (cs : List Char) : upToBalance depth (c :: cs) =
    if depth + braceOf c = 0 then some [c] else (upToBalance (depth + braceOf c) cs).map (c :: ·) := by
  have hdepth : (if c = openBrace then depth + 1 else if c = closeBrace then depth - 1 else depth) =
      depth + braceOf c := by
    unfold braceOf
    split
    · rfl
    · split
      · rfl
      · rw [Int.add_zero]
  rw [upToBalance, hdepth]

/-- What the loop takes is the first part after which no brace is open. -/
lemma upToBalance_spec {depth : Int} : upToBalance depth cs = some p ↔
    p <+: cs ∧ p ≠ [] ∧ depth + depthOf p = 0 ∧
      ∀ q, q <+: p → q ≠ [] → q ≠ p → depth + depthOf q ≠ 0 := by
  -- induction on the text: it is cut where the depth first comes back to zero
  induction cs generalizing depth p with
  | nil =>
    refine iff_of_false (by rintro ⟨⟩) fun ⟨hfront, hne, _⟩ => hne (List.prefix_nil.1 hfront)
  | cons c cs ih =>
    have hempty : depthOf [] = 0 := rfl
    rw [upToBalance_cons]
    split
    · rename_i hzero
      constructor
      · rintro ⟨⟩
        refine ⟨List.prefix_append [c] cs, List.cons_ne_nil c [], ?_, fun q hq hne hpart => ?_⟩
        · rw [depthOf_cons, hempty, Int.add_zero, hzero]
        · exact absurd (hq.eq_of_length_le (List.length_pos_iff.2 hne)) hpart
      · rintro ⟨hfront, hne, -, hpart⟩
        obtain ⟨d, tail, rfl⟩ := List.exists_cons_of_ne_nil hne
        obtain ⟨rfl, -⟩ := List.cons_prefix_cons.1 hfront
        by_contra hcontra
        refine hpart [d] (List.prefix_append [d] tail) (List.cons_ne_nil d []) ?_ ?_
        · exact fun heq => hcontra (congrArg some heq)
        · rw [depthOf_cons, hempty, Int.add_zero, hzero]
    · rename_i hopen
      rw [Option.map_eq_some_iff]
      constructor
      · rintro ⟨tail, htail, rfl⟩
        obtain ⟨hfront, hne, hwhole, hpart⟩ := ih.1 htail
        refine ⟨List.cons_prefix_cons.2 ⟨rfl, hfront⟩, List.cons_ne_nil c tail, ?_, ?_⟩
        · rw [depthOf_cons, ← Int.add_assoc, hwhole]
        · intro q hq hqne hqpart
          obtain ⟨d, rest, rfl⟩ := List.exists_cons_of_ne_nil hqne
          obtain ⟨rfl, hrest⟩ := List.cons_prefix_cons.1 hq
          rw [depthOf_cons, ← Int.add_assoc]
          by_cases hnil : rest = []
          · rw [hnil, hempty, Int.add_zero]
            exact hopen
          · exact hpart rest hrest hnil fun heq => hqpart (heq ▸ rfl)
      · rintro ⟨hfront, hne, hwhole, hpart⟩
        obtain ⟨d, tail, rfl⟩ := List.exists_cons_of_ne_nil hne
        obtain ⟨rfl, htail⟩ := List.cons_prefix_cons.1 hfront
        rw [depthOf_cons, ← Int.add_assoc] at hwhole
        refine ⟨tail, ih.2 ⟨htail, ?_, hwhole, fun q hq hqne hqpart => ?_⟩, rfl⟩
        · rintro rfl
          rw [hempty, Int.add_zero] at hwhole
          exact hopen hwhole
        · have hdepth := hpart (d :: q) (List.cons_prefix_cons.2 ⟨rfl, hq⟩) (List.cons_ne_nil d q)
            fun heq => hqpart (List.cons_eq_cons.1 heq).2
          rwa [depthOf_cons, ← Int.add_assoc] at hdepth

/-- The first balance of a text. -/
lemma firstBalance_iff : FirstBalance p ↔ depthOf p = 0 ∧
    ∀ q, q <+: p → q ≠ [] → q ≠ p → depthOf q ≠ 0 := by
  unfold depthOf
  constructor
  · intro h
    refine ⟨by rw [h.whole]; omega, fun q hq hne hpart => ?_⟩
    have hcount := h.part q hq hne hpart
    omega
  · rintro ⟨hwhole, hpart⟩
    refine ⟨by omega, fun q hq hne hq' => ?_⟩
    have hcount := hpart q hq hne hq'
    omega

/-! ## The text of an object -/

/-- Only spaces follow a value. -/
lemma run_after_space {s : Json.State} {rest : List Char}
    (h : Json.run fmt (.after v, []) rest = some s) : ∀ c ∈ rest, Json.isSpace c = true := by
  induction rest with
  | nil => exact fun _ hc => absurd hc List.not_mem_nil
  | cons c rest ih =>
    rw [Json.run_cons, Json.read, Json.readAfter] at h
    cases hspace : Json.isSpace c with
    | true =>
      rw [hspace, if_pos rfl, Option.bind_some] at h
      exact List.forall_mem_cons.2 ⟨hspace, ih h⟩
    | false =>
      rw [hspace, if_neg Bool.false_ne_true] at h
      cases h

/-- White space is all that may follow a text of an object. -/
lemma parse_append_space {rest : List Char} (h : Json.parse fmt cs = some (.obj fields))
    (hlonger : Json.parse fmt (cs ++ rest) = some v) : ∀ c ∈ rest, Json.isSpace c = true := by
  unfold Json.parse at h hlonger
  rw [Json.run_append] at hlonger
  cases hrun : Json.run fmt Json.start cs with
  | none =>
    rw [hrun] at h
    cases h
  | some s =>
    rw [hrun, Option.bind_some] at h hlonger
    obtain ⟨mode, stack⟩ := s
    -- a parser that is still inside of a value, or of a number with a frame open, has read none
    have hsettled : (mode, stack) = (.after (.obj fields), []) := by
      cases mode with
      | after u =>
        cases stack with
        | nil =>
          cases h
          rfl
        | cons frame stack => cases h
      | number chars =>
        rw [Json.settle] at h
        cases hread : fmt.read chars with
        | none =>
          rw [hread] at h
          cases h
        | some n =>
          rw [hread] at h
          cases stack with
          | nil => cases h
          | cons frame stack => cases h
      | _ => cases h
    rw [hsettled] at hlonger
    cases hrest : Json.run fmt (.after (.obj fields), []) rest with
    | none =>
      rw [hrest] at hlonger
      cases hlonger
    | some s => exact run_after_space hrest

/-- The depth of two texts. -/
lemma depthOf_append (cs rest : List Char) : depthOf (cs ++ rest) = depthOf cs + depthOf rest := by
  unfold depthOf
  rw [List.count_append, List.count_append]
  omega

/-- Spaces have no depth. -/
lemma depthOf_space {rest : List Char} (h : ∀ c ∈ rest, Json.isSpace c = true) : depthOf rest = 0 := by
  have hopen : openBrace ∉ rest := fun hmem => absurd (h _ hmem) (by decide)
  have hclose : closeBrace ∉ rest := fun hmem => absurd (h _ hmem) (by decide)
  unfold depthOf
  rw [List.count_eq_zero.2 hopen, List.count_eq_zero.2 hclose]
  rfl

/-- An object is cut out of a text where its braces balance at its end and nowhere before. -/
lemma tryExtract_iff (hbefore : openBrace ∉ before) (hcs : ObjectText fmt fields cs) :
    tryExtractJsonObject fmt (before ++ cs ++ after) = some (.obj fields) ↔ FirstBalance cs := by
  have hne : cs ≠ [] := by
    rintro rfl
    cases hcs.opens
  have hdrop : (before ++ cs ++ after).dropWhile (· ≠ openBrace) = cs ++ after := by
    obtain ⟨tail, rfl⟩ := List.head?_eq_some_iff.1 hcs.opens
    have hpos : ∀ c ∈ before, decide (c ≠ openBrace) = true := by
      intro c hc
      refine decide_eq_true ?_
      rintro rfl
      exact hbefore hc
    rw [List.append_assoc, List.dropWhile_append_of_pos hpos, List.cons_append,
      List.dropWhile_cons_of_neg (by simp)]
  unfold tryExtractJsonObject
  rw [hdrop, firstBalance_iff]
  constructor
  · intro h
    obtain ⟨p, hp, hparsed⟩ := Option.bind_eq_some_iff.1 h
    obtain ⟨hfront, hpne, hwhole, hpart⟩ := upToBalance_spec.1 hp
    simp only [Int.zero_add] at hwhole hpart
    have hsame : p = cs := by
      rcases List.prefix_or_prefix_of_prefix hfront (List.prefix_append cs after) with
        ⟨rest, rfl⟩ | ⟨rest, rfl⟩
      · -- The loop stops inside of the object: its text would go on with white space only.
        have hspace := parse_append_space hparsed hcs.parsed
        cases hlast : rest.getLast? with
        | none => rw [List.getLast?_eq_none_iff.1 hlast, List.append_nil]
        | some c =>
          have hcloses := hcs.closes
          rw [List.getLast?_append, hlast, Option.some_or, Option.some_inj] at hcloses
          have hmem := hspace c (List.mem_of_getLast? hlast)
          rw [hcloses] at hmem
          exact absurd hmem (by decide)
      · -- The loop goes beyond the object: white space follows, so it would have stopped before.
        have hspace := parse_append_space hcs.parsed hparsed
        by_contra hlonger
        rw [depthOf_append, depthOf_space hspace, Int.add_zero] at hwhole
        exact hpart cs (List.prefix_append cs rest) hne (fun heq => hlonger heq.symm) hwhole
    rw [← hsame]
    exact ⟨hwhole, hpart⟩
  · rintro ⟨hwhole, hpart⟩
    have htaken : upToBalance 0 (cs ++ after) = some cs := by
      refine upToBalance_spec.2 ⟨List.prefix_append cs after, hne, ?_, ?_⟩
      · rw [hwhole, Int.zero_add]
      · intro q hq hqne hqpart
        rw [Int.zero_add]
        exact hpart q hq hqne hqpart
    rw [htaken, Option.bind_some]
    exact hcs.parsed

end braces

/-! ## Refused replies -/

section refused
variable {cfg : Config} {fmt : Json.NumberFormat} {text : String} {content : String}

/-- A blank text has nothing within fences. -/
lemma unfenced_blank (h : trim text = "") : unfenced text = [] := by
  unfold unfenced
  rw [h]
  decide

/-- An envelope is not blank. -/
lemma StringEnvelope.nonblank (h : StringEnvelope fmt text) : trim text ≠ "" := by
  intro hblank
  obtain ⟨s, v, hparse, -⟩ := h
  rw [unfenced_blank hblank] at hparse
  cases hparse

/-- What a text decodes to. -/
lemma decodes_iff {cs : List Char} {v : Json} : Decodes fmt cs v ↔
    Json.parse fmt cs = some v ∨ ∃ s, Json.parse fmt cs = some (.str s) ∧ Decodes fmt s.toList v := by
  constructor
  · intro h
    cases h with
    | parsed hparse => exact .inl hparse
    | string hparse hinner => exact .inr ⟨_, hparse, hinner⟩
  · rintro (hparse | ⟨s, hparse, hinner⟩)
    · exact .parsed hparse
    · exact .string hparse hinner

/-- The check of a final answer decodes it once. -/
lemma envelope_iff (h : (Json.parse fmt (unfenced text)).any isEnvelope = false) :
    Envelope fmt text ↔ StringEnvelope fmt text := by
  constructor
  · rintro ⟨v, hdecodes, henvelope⟩
    rcases decodes_iff.1 hdecodes with hparse | ⟨s, hparse, hinner⟩
    · rw [hparse, Option.any_some, henvelope] at h
      cases h
    · exact ⟨s, v, hparse, hinner, henvelope⟩
  · rintro ⟨s, v, hparse, hinner, henvelope⟩
    exact ⟨v, .string hparse hinner, henvelope⟩

/-- A text within an envelope is no envelope itself. -/
lemma StringEnvelope.passes (h : StringEnvelope fmt text) :
    (Json.parse fmt (unfenced text)).any isEnvelope = false := by
  obtain ⟨s, v, hparse, -⟩ := h
  rw [hparse]
  rfl

/-- What the materializer lets through, and nothing else, is a text that is not blank and not the text
of an envelope. -/
lemma materialize_iff {value : Option Json} :
    (∃ answer, materializeFinalAnswer cfg value = .ok answer) ↔
      ∃ text, value = some (.str text) ∧ trim text ≠ "" ∧
        (Json.parse cfg.fmt (unfenced text)).any isEnvelope = false := by
  unfold materializeFinalAnswer
  split
  · rename_i text
    dsimp only
    constructor
    · rintro ⟨answer, h⟩
      split at h
      · cases h
      · rename_i hblank
        split at h
        · cases h
        · rename_i henvelope
          exact ⟨text, rfl, hblank, Bool.eq_false_of_not_eq_true henvelope⟩
    · rintro ⟨_, hsame, hblank, hpasses⟩
      cases hsame
      refine ⟨trim text, ?_⟩
      rw [if_neg hblank]
      unfold unfenced at hpasses
      rw [hpasses]
      rfl
  · rename_i hother
    constructor
    · rintro ⟨answer, h⟩
      cases h
    · rintro ⟨text, hsame, -⟩
      exact absurd hsame (hother text)

/-- A member that is a text. -/
lemma asString_eq {value : Option Json} {s : String} (h : value.bind Json.asString = some s) :
    value = some (.str s) := by
  obtain ⟨v, rfl, hv⟩ := Option.bind_eq_some_iff.1 h
  cases v with
  | str t =>
    cases hv
    rfl
  | _ => cases hv

/-- The input of a tool is an object. -/
lemma objectInput_obj (value : Option Json) : ∃ fields, objectInput value = .obj fields := by
  unfold objectInput
  split
  · exact ⟨_, rfl⟩
  · exact ⟨[], rfl⟩

/-- An action that is not a finish is allowed as it is; a finish has passed the materializer. -/
lemma validate_ok {parsed : ParsedReply} {thought : Thought} {action : Action}
    (h : validateStructuredAction cfg parsed = .ok (thought, action)) :
    (action.type ≠ .finish ∧ Allowed cfg.fmt action) ∨
      (action.type = .finish ∧ parsed.type = some (.str "finish") ∧
        action.generatePrompt = parsed.generatePrompt ∧
        ∃ answer, materializeFinalAnswer cfg parsed.generatePrompt = .ok answer) := by
  unfold validateStructuredAction at h
  dsimp only at h
  -- the kinds of an action in the order of the source: only a finish is materialized
  split at h
  · rename_i hfinish
    cases hanswer : materializeFinalAnswer cfg parsed.generatePrompt with
    | error e =>
      rw [hanswer] at h
      cases h
    | ok answer =>
      rw [hanswer] at h
      cases h
      exact .inr ⟨rfl, asString_eq hfinish, rfl, answer, rfl⟩
  · split at h
    · rename_i hname
      cases h
      left
      refine ⟨by rintro ⟨⟩, ?_, ?_⟩
      · cases hsome : parsed.toolName.bind Json.asString with
        | none =>
          rw [hsome] at hname
          cases hname
        | some name =>
          rw [hsome] at hname
          exact ⟨name, asString_eq hsome, of_decide_eq_true hname⟩
      · obtain ⟨fields, hfields⟩ := objectInput_obj parsed.toolInput
        exact ⟨fields, congrArg some hfields⟩
    · cases h
  · cases h
    exact .inl ⟨by rintro ⟨⟩, trivial⟩
  · cases h
    exact .inl ⟨by rintro ⟨⟩, trivial⟩
  · cases h

/-- A finish that passes the materializer leaves the parser. -/
lemma validate_finish {parsed : ParsedReply} (htype : parsed.type = some (.str "finish"))
    (h : ∃ answer, materializeFinalAnswer cfg parsed.generatePrompt = .ok answer) :
    ∃ action, validateStructuredAction cfg parsed = .ok (parsed.thought, action) ∧
      action.type = .finish ∧ action.generatePrompt = parsed.generatePrompt := by
  obtain ⟨answer, hanswer⟩ := h
  unfold validateStructuredAction
  rw [htype, hanswer]
  exact ⟨_, rfl, rfl, rfl⟩

/-- The configuration that parses reads replies. -/
lemma parsing_readReply (cfg : Config) : (parsing cfg).readReply = readReply cfg.fmt := rfl

/-- A reply fails closed exactly when it is not a finish with an envelope in a string. -/
lemma reply_failsClosed_iff : FailsClosed (parsing cfg) content ↔
    ∀ parsed text, readReply cfg.fmt (trim content) = some parsed →
      parsed.type = some (.str "finish") → parsed.generatePrompt = some (.str text) →
        ¬ StringEnvelope cfg.fmt text := by
  constructor
  · intro h parsed text hread htype hprompt henvelope
    have hmaterialize : ∃ answer, materializeFinalAnswer (parsing cfg) parsed.generatePrompt =
        .ok answer :=
      materialize_iff.2 ⟨text, hprompt, henvelope.nonblank, henvelope.passes⟩
    obtain ⟨action, hvalid, hfinish, hsame⟩ := validate_finish htype hmaterialize
    have hparse : parseThoughtAndAction (parsing cfg) content = .ok (parsed.thought, action) := by
      unfold parseThoughtAndAction
      rw [parsing_readReply, hread]
      exact hvalid
    have hallowed := h parsed.thought action hparse
    unfold Allowed at hallowed
    rw [hfinish, hsame, hprompt] at hallowed
    obtain ⟨text', hsome, -, hnot⟩ := hallowed
    have hsame' : text = text' := Json.str.inj (Option.some.inj hsome)
    rw [← hsame'] at hnot
    exact hnot ((envelope_iff henvelope.passes).2 henvelope)
  · intro h thought action hparse
    unfold parseThoughtAndAction at hparse
    rw [parsing_readReply] at hparse
    split at hparse
    · rename_i parsed hread
      rcases validate_ok hparse with ⟨-, hallowed⟩ | ⟨hfinish, htype, hsame, hmaterialize⟩
      · exact hallowed
      · obtain ⟨text, hprompt, hblank, hpasses⟩ := materialize_iff.1 hmaterialize
        unfold Allowed
        rw [hfinish]
        refine ⟨text, hsame.trans hprompt, hblank, fun henvelope => ?_⟩
        exact h parsed text hread htype hprompt ((envelope_iff hpasses).1 henvelope)
    · cases hparse

end refused

/-- An object is cut out of every text around it exactly when no part of its own text balances its
braces earlier, and a reply fails closed exactly when it is no finish with an envelope in a string. -/
theorem parses_iff (cfg : Config) :
    (∀ before cs after fields, openBrace ∉ before → ObjectText cfg.fmt fields cs →
      (tryExtractJsonObject cfg.fmt (before ++ cs ++ after) = some (.obj fields) ↔
        FirstBalance cs)) ∧
    ∀ content, FailsClosed (parsing cfg) content ↔
      ∀ parsed text, readReply cfg.fmt (trim content) = some parsed →
        parsed.type = some (.str "finish") → parsed.generatePrompt = some (.str text) →
          ¬ StringEnvelope cfg.fmt text := by
  constructor
  · intro before cs after fields hbefore hcs
    exact tryExtract_iff hbefore hcs
  · intro content
    exact reply_failsClosed_iff

/-- An engine without finite numbers. -/
def bareConfig : Config where
  fmt :=
    { finite := fun _ => False
      format := fun _ => ['0']
      read := fun _ => some 0
      read_format := fun h => h.elim
      format_head := fun h => h.elim
      format_chars := fun h => h.elim }
  tools := []
  guardrailEngine := none
  readReply _ := none
  chatMessages _ _ _ _ _ := []
  recompose _ := none
  digest _ := ""
  regexTest _ _ := .ok false
  schemaError _ _ := none
  lowerCase := id
  toText _ := .ok ""

/-- An object with a closing brace in a string is lost. -/
theorem brace_in_string_lost :
    ¬ ∀ cfg : Config,
      (∀ before cs after fields, openBrace ∉ before → ObjectText cfg.fmt fields cs →
        tryExtractJsonObject cfg.fmt (before ++ cs ++ after) = some (.obj fields)) ∧
      ∀ content, FailsClosed (parsing cfg) content := by
  intro h
  have htext : ObjectText bareConfig.fmt [("a", .str "\x7d")] "\x7b\"a\":\"\x7d\"\x7d".toList :=
    ⟨rfl, rfl, rfl⟩
  have hlost : tryExtractJsonObject bareConfig.fmt
      ([] ++ "\x7b\"a\":\"\x7d\"\x7d".toList ++ []) = none :=
    rfl
  have hfound := (h bareConfig).1 [] _ [] _ List.not_mem_nil htext
  rw [hlost] at hfound
  cases hfound

end NexusClaw.ReplyParsing
