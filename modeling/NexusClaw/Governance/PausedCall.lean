import NexusClaw.JsonText
import NexusClaw.Governance.Sidecar

/-!
# The paused tool call in an approval record

`createAgentApproval` writes the paused call as JSON after a marker into a comment that already
repeats texts of the request. Four decoders read it back: `extractPausedToolCall`, the list of
pending approvals and `parsePausedToolCall` of the gateway cut the comment at the first marker, the
handler of a decision splits it and takes the second part. `comment_cut` says what the first cut
leaves, and `paused_call_survives` when all four decoders return the call of the request.
-/

namespace NexusClaw.Governance

/-! ## The marker in a text -/

section marker
variable {marker cs : List Char}

/-- A text broken at a marker. -/
lemma breakOn_eq {before after : List Char} (h : breakOn marker cs = some (before, after)) :
    cs = before ++ (marker ++ after) ∧
      ∀ b a, cs = b ++ (marker ++ a) → before.length ≤ b.length := by
  -- induction on the text that is searched
  induction cs generalizing before after with
  | nil =>
    unfold breakOn at h
    split at h
    · next hp =>
      have hprefix := List.isPrefixOf_iff_prefix.mp hp
      cases h
      have hnil := List.prefix_nil.mp hprefix
      subst hnil
      exact ⟨rfl, fun b a _ => Nat.zero_le _⟩
    · cases h
  | cons c cs ih =>
    unfold breakOn at h
    split at h
    · next hp =>
      obtain ⟨after', hafter⟩ := List.isPrefixOf_iff_prefix.mp hp
      cases h
      refine ⟨?_, fun b a _ => Nat.zero_le _⟩
      rw [← hafter, List.drop_left]
      rfl
    · next hp =>
      cases hbreak : breakOn marker cs with
      | none =>
        rw [hbreak] at h
        cases h
      | some cut =>
        obtain ⟨before', after'⟩ := cut
        rw [hbreak] at h
        cases h
        obtain ⟨hcs, hfirst⟩ := ih hbreak
        refine ⟨by rw [hcs]; rfl, ?_⟩
        intro b a hb
        cases b with
        | nil => exact absurd (List.isPrefixOf_iff_prefix.mpr ⟨a, hb.symm⟩) hp
        | cons d b =>
          obtain ⟨-, htail⟩ := List.cons.inj hb
          have hle := hfirst b a htail
          simpa using hle

/-- A text that is not broken has no marker. -/
lemma breakOn_none (h : breakOn marker cs = none) : ¬ marker <:+: cs := by
  induction cs with
  | nil =>
    unfold breakOn at h
    split at h
    · cases h
    · next hp =>
      rintro hinfix
      have hnil := List.infix_nil.mp hinfix
      subst hnil
      exact hp rfl
  | cons c cs ih =>
    unfold breakOn at h
    split at h
    · cases h
    · next hp =>
      have hrest : breakOn marker cs = none := by
        cases hbreak : breakOn marker cs with
        | none => rfl
        | some cut =>
          rw [hbreak] at h
          cases h
      intro hinfix
      obtain hprefix | hinfix := List.infix_cons_iff.mp hinfix
      · exact hp (List.isPrefixOf_iff_prefix.mpr hprefix)
      · exact ih hrest hinfix

/-- An occurrence that starts before a character the marker does not have ends before it. -/
lemma occurs_before {c : Char} (hc : c ∉ marker) {head rest before after : List Char}
    (h : head ++ c :: rest = before ++ (marker ++ after)) (hle : before.length ≤ head.length) :
    ∃ x, head = before ++ (marker ++ x) ∧ after = x ++ c :: rest := by
  have hprefix : before <+: head ++ c :: rest := ⟨marker ++ after, h.symm⟩
  obtain ⟨z, rfl⟩ := List.prefix_of_prefix_length_le hprefix (List.prefix_append ..) hle
  rw [List.append_assoc] at h
  have hz := List.append_cancel_left h
  obtain ⟨x, hmarker, hx⟩ | ⟨x, hmarker, hx⟩ := List.append_eq_append_iff.mp hz
  · cases x with
    | nil =>
      rw [List.append_nil] at hmarker
      subst hmarker
      exact ⟨[], by rw [List.append_nil], hx.symm⟩
    | cons d x =>
      obtain ⟨rfl, -⟩ := List.cons.inj hx
      refine absurd ?_ hc
      rw [hmarker]
      exact List.mem_append_right _ (List.mem_cons_self ..)
  · subst hmarker
    exact ⟨x, rfl, hx⟩

/-- A marker without the character `c` occurs on one of its sides. -/
lemma occurs_split {c : Char} (hc : c ∉ marker) (left right : List Char) :
    marker <:+: left ++ c :: right ↔ marker <:+: left ∨ marker <:+: right := by
  constructor
  · rintro ⟨before, after, h⟩
    rw [List.append_assoc] at h
    rcases Nat.lt_or_ge left.length before.length with hlt | hle
    · have hleft : left ++ [c] <+: left ++ c :: right := ⟨right, by simp⟩
      have hbefore : before <+: left ++ c :: right := ⟨marker ++ after, h⟩
      have hlength : (left ++ [c]).length ≤ before.length := by
        rw [List.length_append]
        exact hlt
      obtain ⟨z, rfl⟩ := List.prefix_of_prefix_length_le hleft hbefore hlength
      simp only [List.append_assoc, List.append_cancel_left_eq, List.cons_append, List.nil_append,
        List.cons.injEq, true_and] at h
      exact .inr ⟨z, after, by rw [← h, List.append_assoc]⟩
    · obtain ⟨x, hleft, -⟩ := occurs_before hc h.symm hle
      exact .inl ⟨before, x, by rw [hleft, List.append_assoc]⟩
  · rintro (h | h)
    · exact List.infix_append_of_infix_left h
    · exact List.infix_append_of_infix_right (List.infix_cons h)

/-- What the first cut leaves of a text in which the marker stands at the start of a line: all of
the line, or, if the marker occurs before, a text that goes on with that line. -/
lemma breakOn_line (hc : '\n' ∉ marker) (head line : List Char) :
    (breakOn marker (head ++ '\n' :: (marker ++ line)) = some (head ++ ['\n'], line) ∧
        ¬ marker <:+: head) ∨
      ∃ before x, breakOn marker (head ++ '\n' :: (marker ++ line)) =
          some (before, x ++ '\n' :: (marker ++ line)) ∧ marker <:+: head := by
  cases hbreak : breakOn marker (head ++ '\n' :: (marker ++ line)) with
  | none =>
    refine absurd ?_ (breakOn_none hbreak)
    exact ⟨head ++ ['\n'], line, by simp⟩
  | some cut =>
    obtain ⟨before, after⟩ := cut
    obtain ⟨heq, hfirst⟩ := breakOn_eq hbreak
    have hlast := hfirst (head ++ ['\n']) line (by simp)
    rw [List.length_append, List.length_singleton] at hlast
    -- the marker of the line comes first: one that began earlier would run into the line feed
    rcases Nat.lt_or_ge head.length before.length with hlt | hle
    · have hlength : before.length = (head ++ ['\n']).length := by
        rw [List.length_append, List.length_singleton]
        omega
      have hcut : head ++ ['\n'] ++ (marker ++ line) = before ++ (marker ++ after) := by
        rw [← heq]
        simp
      obtain ⟨rfl, htail⟩ := List.append_inj hcut hlength.symm
      have hline := List.append_cancel_left htail
      subst hline
      refine .inl ⟨rfl, ?_⟩
      rintro ⟨b, a, rfl⟩
      have hle := hfirst b (a ++ '\n' :: (marker ++ line)) (by simp)
      simp only [List.length_append, List.length_singleton] at hle
      omega
    · obtain ⟨x, hhead, hafter⟩ := occurs_before hc heq hle
      rw [hafter]
      exact .inr ⟨before, x, rfl, before, x, by rw [hhead, List.append_assoc]⟩

end marker

/-! ## The record -/

/-- What the stored call repeats of an approval preparation. -/
structure ToolApprovalPreparation where
  toolCallId : String
  inputDigest : String

/-- The call as `createAgentApproval` stores it. -/
def AgentApprovalRequest.storedCall (request : AgentApprovalRequest)
    (preparation : Option ToolApprovalPreparation) : Json :=
  .obj
    ([("toolName", .str request.toolName),
        ("toolInput", request.toolInput),
        ("riskLevel", .str request.riskLevel),
        ("description", .str request.description)] ++
      match preparation with
      | none => []
      | some preparation =>
        [("toolCallId", .str preparation.toolCallId),
          ("inputDigest", .str preparation.inputDigest)])

/-- The comment before the line of the marker. -/
def AgentApprovalRequest.summary (request : AgentApprovalRequest) : String :=
  "Tool: " ++ request.toolName ++ ", Risk: " ++ request.riskLevel ++ " — " ++ request.description

/-- The comment that `createAgentApproval` stores. -/
def AgentApprovalRequest.storedComments (cfg : Config) (request : AgentApprovalRequest)
    (preparation : Option ToolApprovalPreparation) : String :=
  request.summary ++ "\n" ++ pausedMarker ++ cfg.stringify (request.storedCall preparation)

/-- Without a preparation it is the comment of the approvals that the kernel creates. -/
lemma storedComments_none (cfg : Config) (request : AgentApprovalRequest) :
    (request.instance cfg).firstComments = some (request.storedComments cfg none) := rfl

def AgentApprovalRequest.record (request : AgentApprovalRequest) : PausedRecord where
  toolName := some (.str request.toolName)
  toolInput := some request.toolInput
  riskLevel := some (.str request.riskLevel)
  description := some (.str request.description)

def PausedRecord.of (paused : Json) : PausedRecord where
  toolName := paused.get? "toolName"
  toolInput := paused.get? "toolInput"
  riskLevel := paused.get? "riskLevel"
  description := paused.get? "description"

/-- The `pausedToolCall` of a row in the answer of `GET /approvals/pending`. -/
def pendingToolCall (cfg : Config) (row : ApprovalInstance) : Option Json :=
  match row.firstComments with
  | none => none
  | some comments => (afterMarker comments).bind cfg.parse

/-- `parsePausedToolCall` of the gateway -/
def parsePausedToolCall (cfg : Config) (row : ApprovalInstance) : Option Json :=
  (afterMarker (row.firstComments.getD "")).bind cfg.parse

/-- Every decoder yields the record of the request. -/
structure ApprovalInstance.Decodes (cfg : Config) (row : ApprovalInstance)
    (request : AgentApprovalRequest) : Prop where
  extract : (extractPausedToolCall cfg row).map PausedRecord.of = some request.record
  pending : (pendingToolCall cfg row).map PausedRecord.of = some request.record
  gateway : (parsePausedToolCall cfg row).map PausedRecord.of = some request.record
  decide : decideResumeCall cfg row = .ok request.record

/-- A deployment with the language's own `JSON.stringify` and `JSON.parse`. -/
def Config.speaking (cfg : Config) (fmt : Json.NumberFormat) : Config :=
  { cfg with
    stringify := fun v => String.ofList (v.text fmt)
    parse := fun text => Json.parse fmt text.toList }

/-- The marker occurs in a text. -/
def Marked (text : List Char) : Prop :=
  pausedMarker.toList <:+: text

instance (text : List Char) : Decidable (Marked text) :=
  inferInstanceAs (Decidable (pausedMarker.toList <:+: text))

/-! ## What the decoders return -/

section decoders
variable {cfg : Config} {fmt : Json.NumberFormat} {request : AgentApprovalRequest}
  {preparation : Option ToolApprovalPreparation} {row : ApprovalInstance}

/-- A stored call is well-formed if its input is. -/
lemma storedCall_wellFormed (preparation : Option ToolApprovalPreparation)
    (hinput : request.toolInput.WellFormed fmt) :
    (request.storedCall preparation).WellFormed fmt := by
  cases preparation with
  | none =>
    have hkeys : ["toolName", "toolInput", "riskLevel", "description"].Nodup := by decide
    exact ⟨hkeys, trivial, hinput, trivial, trivial, trivial⟩
  | some preparation =>
    have hkeys : ["toolName", "toolInput", "riskLevel", "description", "toolCallId",
      "inputDigest"].Nodup := by decide
    exact ⟨hkeys, trivial, hinput, trivial, trivial, trivial, trivial, trivial⟩

/-- A stored call is the record of its request. -/
lemma storedCall_record : PausedRecord.of (request.storedCall preparation) = request.record := by
  cases preparation with
  | none => rfl
  | some preparation => rfl

/-- What is decoded from the comments of a stored call. -/
lemma decideResumeCall_stored (preparation : Option ToolApprovalPreparation)
    (h : (row.firstComments.bind betweenMarkers).bind cfg.parse =
      some (request.storedCall preparation)) :
    decideResumeCall cfg row = .ok request.record := by
  unfold decideResumeCall
  rw [h]
  cases preparation with
  | none => rfl
  | some preparation => rfl

/-- None of the characters between the texts of the summary is one of the marker's. -/
lemma summary_marked : Marked request.summary.toList ↔
    Marked request.toolName.toList ∨ Marked request.riskLevel.toList ∨
      Marked request.description.toList := by
  have hspace : ' ' ∉ pausedMarker.toList := by decide
  have hcomma : ',' ∉ pausedMarker.toList := by decide
  have htool : ¬ pausedMarker.toList <:+: "Tool:".toList :=
    fun h => absurd h.length_le (by decide)
  have hrisk : ¬ pausedMarker.toList <:+: " Risk:".toList :=
    fun h => absurd h.length_le (by decide)
  have hdash : ¬ pausedMarker.toList <:+: "—".toList :=
    fun h => absurd h.length_le (by decide)
  have hsummary : request.summary.toList =
      "Tool:".toList ++ ' ' :: (request.toolName.toList ++ ',' :: (" Risk:".toList ++ ' ' ::
        (request.riskLevel.toList ++ ' ' :: ("—".toList ++ ' ' ::
          request.description.toList)))) := by
    simp [AgentApprovalRequest.summary, String.toList_append]
  unfold Marked
  rw [hsummary, occurs_split hspace, occurs_split hcomma, occurs_split hspace, occurs_split hspace,
    occurs_split hspace]
  simp only [htool, hrisk, hdash, false_or]

/-- The comments of a stored call, piece by piece. -/
lemma storedComments_toList (cfg : Config) :
    (request.storedComments (cfg.speaking fmt) preparation).toList =
      request.summary.toList ++ '\n' :: (pausedMarker.toList ++
        (request.storedCall preparation).text fmt) := by
  simp [AgentApprovalRequest.storedComments, Config.speaking, String.toList_append]

/-- The configuration that speaks JSON parses it. -/
lemma speaking_parse (cs : List Char) :
    (cfg.speaking fmt).parse (String.ofList cs) = Json.parse fmt cs := by
  show Json.parse fmt (String.ofList cs).toList = Json.parse fmt cs
  rw [String.toList_ofList]

/-- What follows a marker in the summary is not read. -/
lemma parse_line (before text : List Char) :
    (cfg.speaking fmt).parse
      (String.ofList (before ++ '\n' :: (pausedMarker.toList ++ text))) = none := by
  rw [speaking_parse]
  exact Json.parse_torn before _

/-- What stands behind the first marker. -/
lemma afterMarker_eq {comments : String} {before after : List Char}
    (h : breakOn pausedMarker.toList comments.toList = some (before, after)) :
    afterMarker comments = some (String.ofList after) := by
  rw [afterMarker, h]
  rfl

/-- What stands between the first marker and the second. -/
lemma betweenMarkers_eq {comments : String} {before after : List Char}
    (h : breakOn pausedMarker.toList comments.toList = some (before, after))
    {second : Option (List Char × List Char)}
    (hsecond : breakOn pausedMarker.toList after = second) :
    betweenMarkers comments = some (String.ofList (second.elim after Prod.fst)) := by
  rw [betweenMarkers, h, Option.map_some]
  dsimp only
  rw [hsecond]
  cases second with
  | none => rfl
  | some cut => rfl

/-- The text of the call is read back. -/
lemma parse_stored (cfg : Config) (preparation : Option ToolApprovalPreparation)
    (hinput : request.toolInput.WellFormed fmt) :
    (cfg.speaking fmt).parse (String.ofList ((request.storedCall preparation).text fmt)) =
      some (request.storedCall preparation) := by
  rw [speaking_parse]
  exact Json.parse_text (storedCall_wellFormed preparation hinput)

/-- What precedes a marker in the text of the call is not read. -/
lemma parse_between (hinput : request.toolInput.WellFormed fmt) {between after : List Char}
    (htext : (request.storedCall preparation).text fmt =
      between ++ (pausedMarker.toList ++ after)) :
    (cfg.speaking fmt).parse (String.ofList between) = none := by
  rw [speaking_parse]
  cases hparse : Json.parse fmt between with
  | none => rfl
  | some v =>
    obtain ⟨s, hrun, -⟩ := Json.reads_text _ (storedCall_wellFormed preparation hinput) []
    have hended := Json.parse_ended hparse (pausedMarker.toList.tail ++ after)
    rw [htext] at hrun
    cases hrun.symm.trans hended

/-- A marker in the text of the call alone makes the handler of a decision throw. -/
lemma decideResumeCall_marked (hinput : request.toolInput.WellFormed fmt)
    (hrow : row.firstComments = some (request.storedComments (cfg.speaking fmt) preparation))
    (hsummary : ¬ Marked request.summary.toList)
    (hcall : Marked ((request.storedCall preparation).text fmt)) :
    decideResumeCall (cfg.speaking fmt) row = .error "Unexpected token in JSON" := by
  have hline : '\n' ∉ pausedMarker.toList := by decide
  obtain ⟨hbreak, -⟩ | ⟨before, x, hbreak, h⟩ := breakOn_line hline
    request.summary.toList ((request.storedCall preparation).text fmt)
  · rw [← storedComments_toList cfg] at hbreak
    cases hsecond : breakOn pausedMarker.toList ((request.storedCall preparation).text fmt) with
    | none => exact absurd hcall (breakOn_none hsecond)
    | some cut =>
      obtain ⟨between, after⟩ := cut
      obtain ⟨htext, -⟩ := breakOn_eq hsecond
      have hbetween := betweenMarkers_eq hbreak hsecond
      rw [decideResumeCall, hrow, Option.bind_some, hbetween, Option.bind_some]
      dsimp only [Option.elim]
      rw [parse_between hinput htext]
  · exact absurd h hsummary

/-- The decoders agree with the request exactly if the marker occurs neither in the texts of the
request nor in the JSON text of the call. -/
theorem paused_call_survives (cfg : Config) (fmt : Json.NumberFormat)
    (request : AgentApprovalRequest) (preparation : Option ToolApprovalPreparation)
    (hinput : request.toolInput.WellFormed fmt) (row : ApprovalInstance)
    (hrow : row.firstComments = some (request.storedComments (cfg.speaking fmt) preparation)) :
    row.Decodes (cfg.speaking fmt) request ↔
      ¬ Marked request.toolName.toList ∧ ¬ Marked request.riskLevel.toList ∧
        ¬ Marked request.description.toList ∧
        ¬ Marked ((request.storedCall preparation).text fmt) := by
  have hline : '\n' ∉ pausedMarker.toList := by decide
  obtain ⟨hbreak, hsummary⟩ | ⟨before, x, hbreak, hsummary⟩ := breakOn_line hline
    request.summary.toList ((request.storedCall preparation).text fmt)
  · rw [← storedComments_toList cfg] at hbreak
    have hparse := parse_stored cfg preparation hinput
    have hafter := afterMarker_eq hbreak
    have hunmarked := mt summary_marked.mpr hsummary
    -- the summary has no marker, and the text of the call breaks at a second one or not at all
    cases hsecond : breakOn pausedMarker.toList ((request.storedCall preparation).text fmt) with
    | none =>
      have hbetween := betweenMarkers_eq hbreak hsecond
      constructor
      · intro _
        simp only [not_or] at hunmarked
        exact ⟨hunmarked.1, hunmarked.2.1, hunmarked.2.2, breakOn_none hsecond⟩
      · intro _
        constructor
        · simp only [extractPausedToolCall, hrow, Option.bind_eq_bind, Option.bind_some, hafter,
            hparse, Option.map_some, storedCall_record]
        · simp only [pendingToolCall, hrow, hafter, Option.bind_some, hparse, Option.map_some,
            storedCall_record]
        · simp only [parsePausedToolCall, hrow, Option.getD_some, hafter, Option.bind_some, hparse,
            Option.map_some, storedCall_record]
        · refine decideResumeCall_stored preparation ?_
          rw [hrow, Option.bind_some, hbetween, Option.bind_some]
          exact hparse
    | some cut =>
      obtain ⟨between, after⟩ := cut
      obtain ⟨htext, -⟩ := breakOn_eq hsecond
      have hcall : Marked ((request.storedCall preparation).text fmt) :=
        ⟨between, after, by rw [htext, List.append_assoc]⟩
      have hthrows := decideResumeCall_marked hinput hrow hsummary hcall
      constructor
      · intro h
        cases hthrows.symm.trans h.decide
      · rintro ⟨-, -, -, hunmarked⟩
        exact absurd hcall hunmarked
  · rw [← storedComments_toList cfg] at hbreak
    have hafter := afterMarker_eq hbreak
    constructor
    · intro h
      have hextract := h.extract
      simp only [extractPausedToolCall, hrow, Option.bind_eq_bind, Option.bind_some, hafter,
        parse_line, Option.map_none] at hextract
      cases hextract
    · rintro ⟨htool, hrisk, hdescription, -⟩
      obtain h | h | h := summary_marked.mp hsummary
      · exact absurd h htool
      · exact absurd h hrisk
      · exact absurd h hdescription

end decoders

/-! ## A call that is stored -/

/-- A digit is written as its character. -/
lemma digit_format {n : Rat} (h : ∃ d : Nat, d < 10 ∧ n = d) :
    ∃ d : Nat, n = d ∧ n.num.natAbs.digitChar = d.digitChar ∧ d.digitChar.isDigit = true ∧
      d.digitChar.toNat - 48 = d := by
  obtain ⟨d, hd, rfl⟩ := h
  refine ⟨d, rfl, ?_, ?_, Nat.toNat_digitChar_sub_48_of_lt_ten hd⟩
  · rw [Rat.num_natCast, Int.natAbs_natCast]
  · rw [Nat.isDigit_digitChar]
    exact decide_eq_true hd

/-- The numbers of one digit. -/
def digits : Json.NumberFormat where
  finite n := ∃ d : Nat, d < 10 ∧ n = d
  format n := [n.num.natAbs.digitChar]
  read cs :=
    match cs with
    | [c] => if c.isDigit then some ((c.toNat - 48 : Nat) : Rat) else none
    | _ => none
  read_format := by
    intro n h
    obtain ⟨d, hn, hchar, hdigit, hval⟩ := digit_format h
    dsimp only
    rw [hchar, if_pos hdigit, hval, hn]
  format_head := by
    intro n h
    obtain ⟨d, hn, hchar, hdigit, hval⟩ := digit_format h
    exact ⟨d.digitChar, [], by rw [hchar], .inl hdigit⟩
  format_chars := by
    intro n h c hc
    obtain ⟨d, hn, hchar, hdigit, hval⟩ := digit_format h
    obtain rfl := List.mem_singleton.mp hc
    rw [hchar]
    simp [Json.isNumberChar, hdigit]

def smallRequest : AgentApprovalRequest where
  workspaceId := 1
  agentExecutionId := 0
  toolName := "mail__send"
  toolInput := .obj [("to", .arr [.str "a", .num 5])]
  riskLevel := "L3"
  description := "hold"

/-- A small call is decoded as it was stored. -/
theorem small_call_survives :
    (smallRequest.instance (Config.small.speaking digits)).Decodes
      (Config.small.speaking digits) smallRequest :=
  (paused_call_survives .small digits smallRequest none
    ⟨by decide, ⟨trivial, ⟨5, by decide, rfl⟩, trivial⟩, trivial⟩ _ rfl).mpr (by decide +kernel)

/-- A call whose input holds the marker. -/
def markedRequest : AgentApprovalRequest :=
  { smallRequest with toolInput := .obj [("note", .str "__pausedToolCall__:")] }

/-- A call whose description holds the marker and another call. -/
def forgedRequest : AgentApprovalRequest :=
  { smallRequest with
    toolInput := .empty
    description := "__pausedToolCall__:\x7b\"toolName\":\"bank\"\x7d" }

/-- The decoders of a stored call do not all return it: the handler of a decision fails on an input
that holds the marker, and on a description that does it returns the call written there. -/
theorem marked_call_lost :
    (¬ ∀ request : AgentApprovalRequest, request.toolInput.WellFormed digits →
      (request.instance (Config.small.speaking digits)).Decodes
        (Config.small.speaking digits) request) ∧
      ((decideResumeCall (Config.small.speaking digits)
        (forgedRequest.instance (Config.small.speaking digits))).map
          fun record => record.toolName.bind Json.asString) = .ok (some "bank") := by
  constructor
  · intro h
    have hinput : markedRequest.toolInput.WellFormed digits := ⟨by decide, trivial, trivial⟩
    have hdecide := (h markedRequest hinput).decide
    rw [decideResumeCall_marked hinput (storedComments_none _ _) (by decide +kernel)
      (by decide +kernel)] at hdecide
    cases hdecide
  · decide +kernel

end NexusClaw.Governance
