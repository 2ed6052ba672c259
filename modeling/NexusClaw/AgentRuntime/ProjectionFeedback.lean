import NexusClaw.AgentRuntime.ProjectionText

/-!
# The feedback of a query

What the message shows of the records, and when it is faithful to the output (`feedback_faithful_iff`).
-/

namespace NexusClaw.RecordQuery
open AuditChain (Units JsonValue NumberFormat Number unit units byteLength parse setProperty join joinRest
  lookup_eq_some byKey byKey_map byKey_eq_of_perm mem_byKey)
open MetadataRuntime (quote quoteUnits unsign unsign_arr unsign_obj distinct_unsign normal_unsign
  fromEntries fromEntries_perm)
open CompactText (stringify stringify_arr stringify_obj stringify_printable parse_stringify member
  Additive bracketedSize)
open AgentMarkdownPolicy (lineFeed)
open PromptSanitizer (wrapUntrustedContent sanitizeUntrustedText sanitize_no_delimiter delimiterSpoof
  fenceAt fenceAt_opening fenceAt_other fenceBody fenceBody_append fenceBody_close fenceBody_none
  inert_fence_quote opening closing doubleQuote breakFences breakFences_cons breakFences_opening defang
  defang_cons defangRoles_eq neutralize roleBody openingTag fencedBody truncationNote_plain)

/-! ## What is written -/

section written
variable {fmt : NumberFormat} {output toolInput : Option JsonValue}

/-- The records of an output as they are shown. -/
def allProjected (output toolInput : Option JsonValue) : List JsonRecord :=
  (recordsOf output).map fun record => projectRecord record (filterFieldNames toolInput)

/-- A record is an object. -/
lemma asRecord_eq {v : JsonValue} {record : JsonRecord} (h : asRecord v = some record) :
    v = .obj record := by
  cases v with
  | obj fields => exact congrArg JsonValue.obj (Option.some.inj h)
  | _ => cases h

/-- The loop takes records from the end until the text has at most 8 KiB or one record is left. -/
lemma shrink_take {write : List JsonRecord → Bool → Units} {records : List JsonRecord}
    {flag : Nat → Bool} {n : Nat} (hn : n ≤ records.length) (hflag : ∀ m < n, flag m = true) :
    shrink write (records.take n) (flag n) =
      write (records.take (Nat.findGreatest (fun m => m ≤ 1 ∨
          byteLength (write (records.take m) (flag m)) ≤ maxSerializedBytes) n))
        (flag (Nat.findGreatest (fun m => m ≤ 1 ∨
          byteLength (write (records.take m) (flag m)) ≤ maxSerializedBytes) n)) := by
  -- induction on the records that are left to try
  induction n with
  | zero =>
    rw [shrink, if_neg (by simp)]
    rfl
  | succ n ih =>
    have hlength : (records.take (n + 1)).length = n + 1 := List.length_take_of_le hn
    rw [shrink, hlength]
    split_ifs with hmore hfits
    · rw [Nat.findGreatest_eq (.inr hfits)]
    · have hdrop : (records.take (n + 1)).dropLast = records.take n := by
        rw [List.dropLast_eq_take, hlength, List.take_take]
        exact congrArg (records.take ·) (by omega)
      have hnot : ¬ (n + 1 ≤ 1 ∨
          byteLength (write (records.take (n + 1)) (flag (n + 1))) ≤ maxSerializedBytes) :=
        not_or.2 ⟨Nat.not_le.2 hmore, hfits⟩
      rw [hdrop, ← hflag n (Nat.lt_succ_self n), Nat.findGreatest_of_not hnot]
      exact ih (by omega) fun m hm => hflag m (by omega)
    · rw [Nat.findGreatest_eq (.inl (Nat.not_lt.1 hmore))]

section distinct
variable (hdistinct : ∀ v ∈ output, v.Distinct)

include hdistinct

/-- The output of a tool repeats no key. -/
lemma distinct_source {fields : JsonRecord} (h : output.bind asRecord = some fields) :
    (JsonValue.obj fields).Distinct := by
  obtain ⟨v, houtput, hrecord⟩ := Option.bind_eq_some_iff.1 h
  rw [← asRecord_eq hrecord]
  exact hdistinct v houtput

/-- Nor does any of its members. -/
lemma distinct_property {key : Units} {v : JsonValue}
    (h : (output.bind asRecord).bind (·.lookup key) = some v) : v.Distinct := by
  obtain ⟨fields, hsource, hlookup⟩ := Option.bind_eq_some_iff.1 h
  obtain ⟨hnodup, hfields⟩ := JsonValue.distinct_obj.1 (distinct_source hdistinct hsource)
  exact hfields _ ((lookup_eq_some hnodup).1 hlookup)

/-- Nor does any of its records. -/
lemma distinct_record : ∀ record ∈ recordsOf output, (JsonValue.obj record).Distinct := by
  intro record hmem
  unfold recordsOf at hmem
  split at hmem
  · rename_i vs hrecords
    obtain ⟨v, hv, hrecord⟩ := List.mem_filterMap.1 hmem
    rw [← asRecord_eq hrecord]
    exact JsonValue.distinct_arr.1 (distinct_property hdistinct hrecords) v hv
  · cases hmem

/-- Nor does the total count. -/
lemma distinct_totalCount : (totalCount output).Distinct := by
  unfold totalCount
  cases htotal : (output.bind asRecord).bind (·.lookup (units "totalCount")) with
  | none => trivial
  | some v =>
    have hv := distinct_property hdistinct htotal
    cases v with
    | null => trivial
    | _ => exact hv

/-- Before the loop, something is missing exactly when ten records do not show everything. -/
lemma truncatedAtFirst_eq :
    truncatedAtFirst (recordsOf output) (projectedRecords output toolInput) =
      truncatedAt output (min maxProjectedRecords (recordsOf output).length) := by
  have hzip (rs : List JsonRecord) (hrs : ∀ record ∈ rs, (JsonValue.obj record).Distinct) (k : Nat) :
      ((rs.zip ((rs.take k).map fun record => projectRecord record (filterFieldNames toolInput))).any
        fun pair => decide (pair.2.length < pair.1.length)) = (rs.take k).any fun record => !allShown record := by
    induction rs generalizing k with
    | nil => rw [List.take_nil]; rfl
    | cons record rs ih =>
      obtain ⟨hrecord, hrs⟩ := List.forall_mem_cons.1 hrs
      cases k with
      | zero => rfl
      | succ k =>
        rw [List.take_succ_cons, List.map_cons, List.zip_cons_cons, List.any_cons, List.any_cons,
          ih hrs, fewer_fields (JsonValue.distinct_obj.1 hrecord).1]
  unfold truncatedAtFirst truncatedAt projectedRecords
  rw [hzip _ (distinct_record hdistinct), List.length_map, List.length_take]
  rcases Nat.lt_or_ge maxProjectedRecords (recordsOf output).length with hmore | hall
  · rw [decide_eq_true (by omega), Bool.true_or, Bool.true_or]
  · rw [List.take_of_length_le hall]

/-- The text is the one with as many records as are kept. -/
lemma serialize_eq : serializeRecordQueryObservationForPrompt fmt output toolInput =
    stringify fmt (feedback output ((allProjected output toolInput).take (kept fmt output toolInput))
      (truncatedAt output (kept fmt output toolInput))) := by
  have hprojected : projectedRecords output toolInput = (allProjected output toolInput).take
      (min maxProjectedRecords (recordsOf output).length) := by
    unfold projectedRecords allProjected
    rw [← List.map_take]
    exact congrArg (List.map _) (List.take_eq_take_iff.2 (by omega))
  have hflag : ∀ m < min maxProjectedRecords (recordsOf output).length, truncatedAt output m = true := by
    intro m hm
    exact Bool.or_eq_true_iff.2 (.inl (decide_eq_true (by omega)))
  rw [serializeRecordQueryObservationForPrompt, truncatedAtFirst_eq hdistinct, hprojected,
    shrink_take (by unfold allProjected; rw [List.length_map]; omega) hflag]
  have hsize (m : Nat) : byteLength (stringify fmt (feedback output ((allProjected output toolInput).take m)
      (truncatedAt output m))) = feedbackSize byteLength fmt output toolInput m := by
    rw [allProjected, ← List.map_take]
    exact size_feedback CompactText.additive_byteLength m
  simp only [hsize]
  rfl

end distinct

end written

/-! ## What comes through -/

/-- The identifiers of the returned records. -/
def returnedIds (output : Option JsonValue) : List JsonValue :=
  ((recordsOf output).filterMap (·.lookup (units "id"))).filter isId

/-- What is read from the text has the total count and every identifier, and says that nothing is
missing only where it has every record as it is. -/
structure Carries (output : Option JsonValue) (fields : JsonRecord) : Prop where
  total : fields.lookup (units "totalCount") = some (unsign (totalCount output))
  ids : fields.lookup (units "recordIds") = some (.arr ((returnedIds output).map unsign))
  honest : fields.lookup (units "truncated") = some (.bool false) →
    ∃ vs, fields.lookup (units "records") = some (.arr vs) ∧
      (JsonValue.arr ((recordsOf output).map .obj)).Same (.arr vs)

/-- The feedback of a record query is bounded, whole and honest, and the message has all of it. -/
structure Faithful (fmt : NumberFormat) (output toolInput : Option JsonValue) : Prop where
  bounded : byteLength (serializeRecordQueryObservationForPrompt fmt output toolInput) ≤ 8 * 1024
  carries : ∃ fields, parse fmt (serializeRecordQueryObservationForPrompt fmt output toolInput) =
    some (.obj fields) ∧ Carries output fields
  uncut : serializeRecordQueryObservationForPrompt fmt output toolInput <:+:
    ReActStep.observationMessage fmt { toolName := some (units "record.query"), toolInput, output }

/-- What is written of an output with `n` records. -/
def writtenParts (output toolInput : Option JsonValue) (n : Nat) : List JsonValue :=
  totalCount output :: recordIds (recordsOf output) ++
    ((recordsOf output).take n).map fun record =>
      .obj (projectRecord record (filterFieldNames toolInput))

/-- With the records that are kept, the text is within both limits and has no tag in a string or a key;
no identifier is cut, and no string is, if nothing else is missing. -/
structure Fits (fmt : NumberFormat) (output toolInput : Option JsonValue) : Prop where
  bytes : feedbackSize byteLength fmt output toolInput (kept fmt output toolInput) ≤ 8 * 1024
  units : feedbackSize List.length fmt output toolInput (kept fmt output toolInput) ≤ 4000
  untagged : ∀ v ∈ writtenParts output toolInput (kept fmt output toolInput), ∀ s ∈ v.strings,
    delimiterSpoof (quoteUnits s) = false
  ids : ∀ id ∈ returnedIds output, Uncut id
  whole : truncatedAt output (kept fmt output toolInput) = false →
    ∀ record ∈ recordsOf output, ∀ f ∈ record, Uncut f.2

section faithful
variable {fmt : NumberFormat} {output toolInput : Option JsonValue}

/-- A scalar stays after parsing if and only if it is not cut. -/
lemma unsign_compactValue {v : JsonValue} : unsign (compactValue v) = unsign v ↔ Uncut v := by
  cases v with
  | str s =>
    show JsonValue.str (compactString s) = .str s ↔ _
    rw [JsonValue.str.injEq]
    exact compactString_eq_self
  | _ => exact iff_of_true rfl trivial

/-- The identifiers that are written are those of the records, cut. -/
lemma recordIds_eq (records : List JsonRecord) : recordIds records =
    ((records.filterMap (·.lookup (units "id"))).filter isId).map compactValue := by
  rw [recordIds, List.filter_filterMap, List.filter_filterMap, List.map_filterMap]
  refine List.filterMap_congr fun record _ => ?_
  cases record.lookup (units "id") with
  | none => rfl
  | some v => cases v <;> rfl

/-- The ids are carried if and only if none is cut. -/
lemma ids_iff : (recordIds (recordsOf output)).map unsign = (returnedIds output).map unsign ↔
    ∀ id ∈ returnedIds output, Uncut id := by
  rw [recordIds_eq, ← returnedIds, List.map_map, List.map_inj_left]
  exact forall₂_congr fun id _ => unsign_compactValue

/-- A scalar has no key to repeat. -/
lemma distinct_scalar {v w : JsonValue} (h : compactScalar v = some w) : w.Distinct := by
  cases v with
  | arr vs => cases h
  | obj fields => cases h
  | _ =>
    cases h
    trivial

/-- A projection repeats no key. -/
lemma distinct_projectRecord (record : JsonRecord) (preferredFields : List Units) :
    (JsonValue.obj (fromEntries (projectRecord record preferredFields))).Distinct := by
  rw [JsonValue.distinct_obj]
  constructor
  · exact ((fromEntries_perm _).map Prod.fst).nodup_iff.2 (keys_projectRecord record preferredFields)
  · intro f hf
    have hshown := (fromEntries_perm _).mem_iff.1 hf
    rw [projectRecord_eq] at hshown
    obtain ⟨key, -, hat⟩ := List.mem_filterMap.1 (List.mem_of_mem_take hshown)
    obtain ⟨v, -, hfield⟩ := Option.bind_eq_some_iff.1 hat
    unfold shownField at hfield
    split_ifs at hfield
    obtain ⟨value, hvalue, rfl⟩ := Option.map_eq_some_iff.1 hfield
    exact distinct_scalar hvalue

/-- Two arrays are the same element by element. -/
lemma same_arr_iff {α : Type} {f g : α → JsonValue} {xs : List α} :
    (JsonValue.arr (xs.map f)).Same (.arr (xs.map g)) ↔ ∀ x ∈ xs, (f x).Same (g x) := by
  rw [JsonValue.Same]
  induction xs with
  | nil =>
    rw [List.map_nil, List.map_nil, JsonValue.SameAll]
    exact iff_of_true trivial (List.forall_mem_nil _)
  | cons x xs ih => rw [List.map_cons, List.map_cons, JsonValue.SameAll, ih, List.forall_mem_cons]

/-- A record all of whose fields are shown is shown as it is exactly when no string of it is cut. -/
lemma same_projectRecord {record : JsonRecord} (hdistinct : (JsonValue.obj record).Distinct)
    (hall : allShown record = true) (preferredFields : List Units) :
    (JsonValue.obj record).Same (unsign (.obj (fromEntries (projectRecord record preferredFields)))) ↔
      ∀ f ∈ record, Uncut f.2 := by
  have hnodup := (JsonValue.distinct_obj.1 hdistinct).1
  have hprojected := distinct_projectRecord record preferredFields
  have hperm := projectRecord_perm hnodup hall preferredFields
  have hsorted : byKey (fromEntries (projectRecord record preferredFields)) =
      (byKey record).map fun f => (f.1, compactValue f.2) := by
    rw [byKey_eq_of_perm hperm (JsonValue.distinct_obj.1 hprojected).1, byKey_map]
  rw [JsonValue.same_iff_normal hdistinct (distinct_unsign hprojected), normal_unsign,
    JsonValue.normal_obj, JsonValue.normal_obj, hsorted, List.map_map, JsonValue.obj.injEq,
    List.map_inj_left]
  constructor
  · intro h f hf
    exact uncut_iff.1 (Prod.mk.inj (h f (mem_byKey.2 hf))).2.symm
  · intro h f hf
    exact Prod.ext rfl (uncut_iff.2 (h f (mem_byKey.1 hf))).symm

/-- If nothing is missing, all records are kept and all their fields are shown. -/
lemma kept_all (h : truncatedAt output (kept fmt output toolInput) = false) :
    (recordsOf output).take (kept fmt output toolInput) = recordsOf output ∧
      ∀ record ∈ recordsOf output, allShown record = true := by
  obtain ⟨hkept, hfields⟩ := Bool.or_eq_false_iff.1 h
  constructor
  · exact List.take_of_length_le (Nat.le_of_not_lt (of_decide_eq_false hkept))
  · intro record hmem
    have hshown := List.any_eq_false.1 hfields record hmem
    simpa using hshown

section distinct
variable (hdistinct : ∀ v ∈ output, v.Distinct)

include hdistinct

/-- A feedback repeats no key. -/
lemma distinct_feedback (n : Nat) (truncated : Bool) :
    (feedback output ((allProjected output toolInput).take n) truncated).Distinct := by
  rw [feedback, JsonValue.distinct_obj]
  have hkeys : (["totalCount", "returnedCount", "recordIds", "records", "truncated"].map units).Nodup := by
    decide
  refine ⟨hkeys, ?_⟩
  simp only [List.forall_mem_cons]
  refine ⟨distinct_totalCount hdistinct, trivial, ?_, ?_, trivial, List.forall_mem_nil _⟩
  · rw [JsonValue.distinct_arr]
    intro id hid
    obtain ⟨record, -, hcompact⟩ := List.mem_filterMap.1 (List.mem_of_mem_filter hid)
    obtain ⟨v, -, hv⟩ := Option.bind_eq_some_iff.1 hcompact
    exact distinct_scalar hv
  · rw [JsonValue.distinct_arr, List.forall_mem_map]
    intro projected hmem
    obtain ⟨record, -, rfl⟩ := List.mem_map.1 (List.mem_of_mem_take hmem)
    exact distinct_projectRecord record _

/-- What is read from the text. -/
lemma parse_serialize : parse fmt (serializeRecordQueryObservationForPrompt fmt output toolInput) =
    some (.obj [(units "totalCount", unsign (totalCount output)),
      (units "returnedCount", unsign (.num (ofCount (recordsOf output).length))),
      (units "recordIds", .arr ((recordIds (recordsOf output)).map unsign)),
      (units "records", .arr (((recordsOf output).take (kept fmt output toolInput)).map fun record =>
        unsign (.obj (fromEntries (projectRecord record (filterFieldNames toolInput)))))),
      (units "truncated", .bool (truncatedAt output (kept fmt output toolInput)))]) := by
  rw [serialize_eq hdistinct, parse_stringify fmt (distinct_feedback hdistinct _ _), feedback, unsign_obj]
  simp only [List.map_cons, List.map_nil, unsign_arr, List.map_map, allProjected, ← List.map_take]
  rfl

/-- When the feedback carries the ids and the fields. -/
lemma carries_iff : (∃ fields,
      parse fmt (serializeRecordQueryObservationForPrompt fmt output toolInput) = some (.obj fields) ∧
        Carries output fields) ↔
    (∀ id ∈ returnedIds output, Uncut id) ∧
      (truncatedAt output (kept fmt output toolInput) = false →
        ∀ record ∈ recordsOf output, ∀ f ∈ record, Uncut f.2) := by
  have hparse : parse fmt (serializeRecordQueryObservationForPrompt fmt output toolInput) = _ :=
    parse_serialize hdistinct
  -- the records that are shown are the output's, unless a string was cut
  have hhonest (h : truncatedAt output (kept fmt output toolInput) = false) :
      (JsonValue.arr ((recordsOf output).map .obj)).Same
        (.arr (((recordsOf output).take (kept fmt output toolInput)).map fun record =>
          unsign (.obj (fromEntries (projectRecord record (filterFieldNames toolInput)))))) ↔
      ∀ record ∈ recordsOf output, ∀ f ∈ record, Uncut f.2 := by
    obtain ⟨hall, hshown⟩ := kept_all h
    rw [hall, same_arr_iff]
    exact forall₂_congr fun record hmem =>
      same_projectRecord (distinct_record hdistinct record hmem) (hshown record hmem) _
  constructor
  · rintro ⟨fields, hread, hcarries⟩
    rw [hparse] at hread
    cases hread
    constructor
    · exact ids_iff.1 (JsonValue.arr.inj (Option.some.inj hcarries.ids))
    · intro h
      obtain ⟨vs, hrecords, hsame⟩ := hcarries.honest (congrArg (fun b => some (JsonValue.bool b)) h)
      refine (hhonest h).1 ?_
      rw [Option.some.inj hrecords]
      exact hsame
  · rintro ⟨hids, hwhole⟩
    refine ⟨_, hparse, rfl, ?_, ?_⟩
    · exact congrArg (fun ids => some (JsonValue.arr ids)) (ids_iff.2 hids)
    · intro h
      have hflag := JsonValue.bool.inj (Option.some.inj h)
      exact ⟨_, rfl, (hhonest hflag).2 (hwhole hflag)⟩

end distinct

end faithful

section message
variable {fmt : NumberFormat} {output toolInput : Option JsonValue}

/-- What stands in front of the text of a query in its message. -/
def messageFront : Units :=
  units "Tool result for " ++ units "record.query" ++ units " (untrusted data):\n" ++
    (openingTag (units "tool:" ++ units "record.query") ++ [lineFeed])

/-- The message has the text of the query exactly when it is within the limit and has no tag. -/
lemma uncut_message {text : Units} (fields : List (Units × JsonValue))
    (htext : text = stringify fmt (.obj fields)) :
    text <:+: units "Tool result for " ++ units "record.query" ++ units " (untrusted data):\n" ++
        wrapUntrustedContent text (units "tool:" ++ units "record.query") ↔
      text.length ≤ 4000 ∧ delimiterSpoof text = false := by
  have hsafe : text <:+: sanitizeUntrustedText text 4000 ↔
      text.length ≤ 4000 ∧ delimiterSpoof text = false := by
    rw [htext]
    exact sanitize_infix_iff fmt fields
  have hmessage : units "Tool result for " ++ units "record.query" ++ units " (untrusted data):\n" ++
      wrapUntrustedContent text (units "tool:" ++ units "record.query") =
        messageFront ++ (sanitizeUntrustedText text 4000 ++ (lineFeed :: units "</untrusted_data>")) := by
    simp only [messageFront, wrapUntrustedContent, fencedBody, List.append_assoc, List.cons_append,
      List.nil_append]
  rw [hmessage, ← hsafe]
  -- the braces of the object stand neither in front of the text nor behind it
  constructor
  · intro h
    obtain ⟨w, hobject⟩ : ∃ w, text = unit '\x7b' :: (w ++ [unit '\x7d']) :=
      ⟨_, htext.trans (stringify_obj fmt fields)⟩
    have hends : text = (unit '\x7b' :: w) ++ [unit '\x7d'] := hobject
    have hfront : text <:+: sanitizeUntrustedText text 4000 ++ (lineFeed :: units "</untrusted_data>") := by
      conv_lhs => rw [hobject]
      have hbrace : unit '\x7b' ∉ messageFront := by decide
      apply infix_behind hbrace
      rw [← hobject]
      exact h
    conv_lhs => rw [hends]
    have hbrace : unit '\x7d' ∉ lineFeed :: units "</untrusted_data>" := by decide
    apply infix_before hbrace
    rw [← hends]
    exact hfront
  · intro h
    exact h.trans ((List.prefix_append _ _).isInfix.trans (List.suffix_append _ _).isInfix)

/-- The text has a tag exactly when one is in what is written of the output. -/
lemma untagged_iff (n : Nat) (truncated : Bool) :
    delimiterSpoof (stringify fmt
        (feedback output ((allProjected output toolInput).take n) truncated)) = false ↔
      ∀ v ∈ writtenParts output toolInput n, ∀ s ∈ v.strings, delimiterSpoof (quoteUnits s) = false := by
  have hstrings := delimiterSpoof_stringify fmt
    (feedback output ((allProjected output toolInput).take n) truncated) []
  have hend : delimiterSpoof [] = false := rfl
  have hrecord (record : JsonRecord) :
      (∀ s ∈ (JsonValue.obj (fromEntries record)).strings, delimiterSpoof (quoteUnits s) = false) ↔
        ∀ s ∈ (JsonValue.obj record).strings, delimiterSpoof (quoteUnits s) = false := by
    have hperm := (fromEntries_perm record).flatMap_right fun f => f.1 :: f.2.strings
    rw [AuditChain.strings_obj, AuditChain.strings_obj]
    exact forall_congr' fun s => imp_congr_left hperm.mem_iff
  rw [List.append_nil, hend, Bool.or_false] at hstrings
  rw [hstrings, List.any_eq_false]
  have hparts (vs : List JsonValue) :
      (∀ s ∈ vs.flatMap JsonValue.strings, delimiterSpoof (quoteUnits s) = false) ↔
        ∀ v ∈ vs, ∀ s ∈ v.strings, delimiterSpoof (quoteUnits s) = false := by
    simp only [List.mem_flatMap, forall_exists_index, and_imp]
    exact ⟨fun h v hv s hs => h s v hv hs, fun h s v hv hs => h v hv s hs⟩
  have hnumber (k : Number) : (JsonValue.num k).strings = [] := by
    rw [JsonValue.strings]
  have hflag (b : Bool) : (JsonValue.bool b).strings = [] := by
    rw [JsonValue.strings]
  simp only [Bool.not_eq_true, feedback, AuditChain.strings_obj, AuditChain.strings_arr, hnumber, hflag,
    List.flatMap_cons, List.flatMap_nil, List.append_nil, List.forall_mem_cons, List.forall_mem_append,
    List.cons_append, List.nil_append, writtenParts, allProjected]
  rw [hparts, hparts, ← List.map_take, List.forall_mem_map, List.forall_mem_map, List.forall_mem_map]
  simp only [hrecord]
  constructor
  · rintro ⟨-, htotal, -, -, hids, -, hrecords, -⟩
    exact ⟨htotal, hids, hrecords⟩
  · rintro ⟨htotal, hids, hrecords⟩
    exact ⟨by decide, htotal, by decide, by decide, hids, by decide, hrecords, by decide,
      List.forall_mem_nil _⟩

end message

/-- The feedback of a record query is bounded, whole and honest and comes through uncut exactly when,
with as many records as are kept, its parts are within both limits and without a tag, no identifier is
cut, and no string is cut where nothing else is missing. -/
theorem feedback_faithful_iff (fmt : NumberFormat) (output toolInput : Option JsonValue)
    (hdistinct : ∀ v ∈ output, v.Distinct) :
    Faithful fmt output toolInput ↔ Fits fmt output toolInput := by
  have htext : serializeRecordQueryObservationForPrompt fmt output toolInput = _ := serialize_eq hdistinct
  have hsize {size : Units → Nat} (hadditive : Additive size) :
      size (serializeRecordQueryObservationForPrompt fmt output toolInput) =
        feedbackSize size fmt output toolInput (kept fmt output toolInput) := by
    rw [htext, allProjected, ← List.map_take]
    exact size_feedback hadditive _
  have hbytes := hsize CompactText.additive_byteLength
  have hunits := hsize CompactText.additive_length
  have huncut := uncut_message _ htext
  constructor
  · intro h
    obtain ⟨hids, hwhole⟩ := (carries_iff hdistinct).1 h.carries
    obtain ⟨hlength, htag⟩ := huncut.1 h.uncut
    constructor
    · rw [← hbytes]
      exact h.bounded
    · rw [← hunits]
      exact hlength
    · rw [htext] at htag
      exact (untagged_iff _ _).1 htag
    · exact hids
    · exact hwhole
  · intro h
    constructor
    · rw [hbytes]
      exact h.bytes
    · exact (carries_iff hdistinct).2 ⟨h.ids, h.whole⟩
    · refine huncut.2 ⟨?_, ?_⟩
      · rw [hunits]
        exact h.units
      · rw [htext]
        exact (untagged_iff _ _).2 h.untagged

/-! ### Two records -/

/-- The bits of the double two and the bits that have its text change places. -/
def swapTwo (bits : UInt64) : UInt64 :=
  Equiv.swap 2 (ofCount 2).bits bits

/-- Swapping two numbers twice. -/
lemma swapTwo_swapTwo (bits : UInt64) : swapTwo (swapTwo bits) = bits :=
  Equiv.swap_apply_self 2 (ofCount 2).bits bits

/-- A format that writes zero and two as the language does, and any other number by its bits. -/
def twoFormat : NumberFormat where
  format n := AuditChain.decimalUnits (swapTwo n.bits).toNat
  read s :=
    let bits := swapTwo (AuditChain.decimalValue s).toUInt64
    if h : (bits >>> 52) &&& 0x7ff ≠ 0x7ff then some ⟨bits, h⟩ else none
  format_zero := by decide +kernel
  read_format n _ := by
    have hbits : swapTwo (AuditChain.decimalValue (AuditChain.decimalUnits
        (swapTwo n.bits).toNat)).toUInt64 = n.bits := by
      rw [AuditChain.decimalValue_decimalUnits]
      have hnat : (swapTwo n.bits).toNat.toUInt64 = swapTwo n.bits := UInt64.ofNat_toNat
      rw [hnat, swapTwo_swapTwo]
    simp only [hbits]
    exact dif_pos n.finite
  format_head n _ := by
    obtain ⟨c, cs, hcs⟩ :=
      List.exists_cons_of_ne_nil (AuditChain.decimalUnits_ne_nil (swapTwo n.bits).toNat)
    exact ⟨c, cs, hcs, .inl (AuditChain.decimalUnits_digits _ c (hcs ▸ List.mem_cons_self ..))⟩
  format_units n _ c hc := by
    unfold AuditChain.isNumberUnit
    rw [AuditChain.decimalUnits_digits _ c hc]
    rfl

/-- Two contacts, the second with a field that the first does not have. -/
def twoContacts : JsonValue :=
  .obj [(units "records", .arr
    [.obj [(units "id", .str (units "c1")), (units "name", .str (units "Ada")),
        (units "vip", .bool true)],
      .obj [(units "name", .str (units "Bob")), (units "id", .str (units "c2")),
        (units "city", .str (units "Rome")), (units "vip", .bool false)]])]

/-- A query by the city. -/
def cityQuery : JsonValue :=
  .obj [(units "filter", .obj [(units "city", .str (units "Rome"))])]

/-- The two contacts repeat no key. -/
lemma distinct_twoContacts : ∀ v ∈ some twoContacts, v.Distinct := by
  intro v hv
  cases hv
  have hrecords : ([units "records"] : List Units).Nodup := List.nodup_singleton _
  have hfirst : ([units "id", units "name", units "vip"] : List Units).Nodup := by decide
  have hsecond : ([units "name", units "id", units "city", units "vip"] : List Units).Nodup := by
    decide
  unfold twoContacts
  simp only [JsonValue.distinct_obj, JsonValue.distinct_arr, List.forall_mem_cons, List.map_cons,
    List.map_nil]
  exact ⟨hrecords, ⟨⟨hfirst, trivial, trivial, trivial, List.forall_mem_nil _⟩,
    ⟨hsecond, trivial, trivial, trivial, trivial, List.forall_mem_nil _⟩, List.forall_mem_nil _⟩,
    List.forall_mem_nil _⟩

/-- No string in the records is long. -/
lemma uncut_twoContacts : ∀ record ∈ recordsOf (some twoContacts), ∀ f ∈ record, Uncut f.2 := by
  have hshort {s : Units} (h : s.length ≤ 120) : Uncut (.str s) := .inl h
  have hrecords : recordsOf (some twoContacts) =
      [[(units "id", .str (units "c1")), (units "name", .str (units "Ada")),
          (units "vip", .bool true)],
        [(units "name", .str (units "Bob")), (units "id", .str (units "c2")),
          (units "city", .str (units "Rome")), (units "vip", .bool false)]] := rfl
  rw [hrecords]
  simp only [List.forall_mem_cons]
  exact ⟨⟨hshort (by decide), hshort (by decide), trivial, List.forall_mem_nil _⟩,
    ⟨hshort (by decide), hshort (by decide), hshort (by decide), trivial, List.forall_mem_nil _⟩,
    List.forall_mem_nil _⟩

/-- Both contacts are kept. -/
lemma kept_twoContacts : kept twoFormat (some twoContacts) (some cityQuery) = 2 :=
  Nat.findGreatest_eq (.inr (by decide +kernel))

/-- The records come through, whole and each with the field of the query behind its identifier. -/
theorem two_records_faithful :
    Faithful twoFormat (some twoContacts) (some cityQuery) ∧
    serializeRecordQueryObservationForPrompt twoFormat (some twoContacts) (some cityQuery) =
      units ("\x7b\"totalCount\":2,\"returnedCount\":2,\"recordIds\":[\"c1\",\"c2\"]," ++
        "\"records\":[\x7b\"id\":\"c1\",\"vip\":true,\"name\":\"Ada\"\x7d," ++
        "\x7b\"id\":\"c2\",\"city\":\"Rome\",\"vip\":false,\"name\":\"Bob\"\x7d]," ++
        "\"truncated\":false\x7d") := by
  refine ⟨(feedback_faithful_iff _ _ _ distinct_twoContacts).2 ?_, ?_⟩
  · constructor
    · rw [kept_twoContacts]
      decide +kernel
    · rw [kept_twoContacts]
      decide +kernel
    · rw [kept_twoContacts]
      decide +kernel
    · intro id hid
      obtain ⟨record, hrecord, hlookup⟩ := List.mem_filterMap.1 (List.mem_filter.1 hid).1
      obtain ⟨before, after, rfl, -⟩ := List.lookup_eq_some_iff.1 hlookup
      exact uncut_twoContacts _ hrecord _ (List.mem_append_right _ (List.mem_cons_self ..))
    · exact fun _ => uncut_twoContacts
  · rw [serialize_eq distinct_twoContacts, kept_twoContacts]
    decide +kernel

/-- A record whose name has 121 letters. -/
def longNamed : JsonValue :=
  .obj [(units "records", .arr [.obj [(units "name", .str (List.replicate 121 (unit 'a')))]])]

/-- The text says that nothing is missing, and the name is cut. -/
theorem cut_name_untold : ¬ ∀ fmt output toolInput, (∀ v ∈ output, JsonValue.Distinct v) →
    Faithful fmt output toolInput := by
  intro h
  have hdistinct : ∀ v ∈ some longNamed, v.Distinct := by
    intro v hv
    cases hv
    simp only [longNamed, JsonValue.distinct_obj, JsonValue.distinct_arr, List.forall_mem_singleton]
    exact ⟨List.nodup_singleton _, List.nodup_singleton _, trivial⟩
  have hkept : kept AuditChain.bitsFormat (some longNamed) none = 1 :=
    Nat.findGreatest_eq (.inl (Nat.le_refl 1))
  have hall : truncatedAt (some longNamed) (kept AuditChain.bitsFormat (some longNamed) none) = false := by
    rw [hkept]
    decide
  obtain ⟨-, hwhole⟩ := (carries_iff hdistinct).1 (h AuditChain.bitsFormat (some longNamed) none hdistinct).carries
  have huncut := hwhole hall _ (List.mem_singleton_self _) _ (List.mem_singleton_self _)
  have hcut : ¬ ((List.replicate 121 (unit 'a')).length ≤ maxStringValueLength ∨
      (List.replicate 121 (unit 'a')).drop maxStringValueLength = [ellipsis]) := by
    rw [List.length_replicate, List.drop_replicate]
    decide
  exact hcut huncut

end NexusClaw.RecordQuery
