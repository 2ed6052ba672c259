import Mathlib.Data.Nat.Find
import NexusClaw.Shared.CompactText
import NexusClaw.AgentRuntime.PromptFence

/-!
# Feedback of record queries

`record-query-observation-projection.ts`, and the message that `buildChatMessages` puts its text into.
The first ten records are shown with ten fields each, strings up to 120 code units, and records are
taken from the end while the text is longer than 8 KiB; the identifiers and the total count are never
shortened, and the sanitizer of the prompt has a limit of its own. `faithful_iff` says exactly which
outputs come through bounded, whole and honest.
-/

namespace NexusClaw.RecordQuery
open AuditChain (Units JsonValue NumberFormat Number unit units byteLength parse setProperty join joinRest
  lookup_eq_some byKey byKey_map byKey_eq_of_perm mem_byKey)
open MetadataRuntime (quote quoteUnits unsign unsign_arr unsign_obj distinct_unsign normal_unsign
  fromEntries fromEntries_perm)
open CompactText (stringify stringify_arr stringify_obj stringify_printable parse_stringify member
  Additive bracketedSize)
open AgentMarkdownPolicy (lineFeed)
open PromptSanitizer (wrapUntrustedContent sanitizeUntrustedText sanitize_no_delimiter delimiterSpoof
  fenceAt fenceAt_opening fenceAt_other fenceBody fenceBody_append fenceBody_close fenceBody_none
  inert_fence_quote opening closing doubleQuote breakFences breakFences_cons breakFences_opening defang
  defang_cons defangRoles_eq neutralize roleBody openingTag fencedBody truncationNote_plain)

/-! ## The projection -/

abbrev JsonRecord : Type :=
  List (Units × JsonValue)

def maxProjectedRecords : Nat :=
  10

def maxProjectedFields : Nat :=
  10

def maxStringValueLength : Nat :=
  120

def maxSerializedBytes : Nat :=
  8 * 1024

/-- `…` -/
def ellipsis : UInt16 :=
  0x2026

def asRecord : JsonValue → Option JsonRecord
  | .obj fields => some fields
  | _ => none

/-- `value.length <= MAX_STRING_VALUE_LENGTH ? value : value.slice(0, MAX_STRING_VALUE_LENGTH) + '…'` -/
def compactString (s : Units) : Units :=
  if s.length ≤ maxStringValueLength then s else s.take maxStringValueLength ++ [ellipsis]

def compactScalar : JsonValue → Option JsonValue
  | .null => some .null
  | .bool b => some (.bool b)
  | .num n => some (.num n)
  | .str s => some (.str (compactString s))
  | .arr _ => none
  | .obj _ => none

/-- `a ?? b` -/
def coalesce : Option JsonValue → Option JsonValue → Option JsonValue
  | none, b => b
  | some .null, b => b
  | some v, _ => some v

def filterFieldNames (toolInput : Option JsonValue) : List Units :=
  let input := toolInput.bind asRecord
  let filter := (coalesce (input.bind (·.lookup (units "filter")))
    (input.bind (·.lookup (units "filters")))).bind asRecord
  (filter.getD []).map Prod.fst

/-- `typeof value === 'number' || typeof value === 'boolean'` -/
def isFact : JsonValue → Bool
  | .num _ => true
  | .bool _ => true
  | _ => false

/-- `Array.from(new Set(keys))` -/
def distinctKeys (keys : List Units) : List Units :=
  keys.reverse.dedup.reverse

def orderedKeys (record : JsonRecord) (preferredFields : List Units) : List Units :=
  distinctKeys (units "id" :: preferredFields ++ (record.filter fun f => isFact f.2).map Prod.fst ++
    record.map Prod.fst)

/-- The property that a scalar cannot be assigned to. -/
def protoKey : Units :=
  units "__proto__"

/-- `projected[key] = value`, for a scalar. -/
def assign (projected : JsonRecord) (key : Units) (value : JsonValue) : JsonRecord :=
  if key = protoKey then projected else setProperty projected key value

/-- The loop of `projectRecord`. -/
def projectKeys (record : JsonRecord) : List Units → JsonRecord → JsonRecord
  | [], projected => projected
  | key :: keys, projected =>
    match (record.lookup key).bind compactScalar with
    | none => projectKeys record keys projected
    | some value =>
      if maxProjectedFields ≤ (assign projected key value).length then assign projected key value
      else projectKeys record keys (assign projected key value)

def projectRecord (record : JsonRecord) (preferredFields : List Units) : JsonRecord :=
  projectKeys record (orderedKeys record preferredFields) []

/-- A count as a double. It is exact: an array has fewer than `2 ^ 32` elements. -/
def ofCount (n : Nat) : Number :=
  let bits : UInt64 :=
    ((n.log2 + 1023) * 2 ^ 52 + n * 2 ^ (52 - n.log2) - 2 ^ 52).toUInt64
  if h : n ≠ 0 ∧ (bits >>> 52) &&& 0x7ff ≠ 0x7ff then ⟨bits, h.2⟩ else .zero

def recordsOf (output : Option JsonValue) : List JsonRecord :=
  match (output.bind asRecord).bind (·.lookup (units "records")) with
  | some (.arr vs) => vs.filterMap asRecord
  | _ => []

/-- `source?.totalCount ?? records.length` -/
def totalCount (output : Option JsonValue) : JsonValue :=
  (coalesce ((output.bind asRecord).bind (·.lookup (units "totalCount"))) none).getD
    (.num (ofCount (recordsOf output).length))

/-- `typeof id === 'string' || typeof id === 'number'` -/
def isId : JsonValue → Bool
  | .str _ => true
  | .num _ => true
  | _ => false

def recordIds (records : List JsonRecord) : List JsonValue :=
  (records.filterMap fun record => (record.lookup (units "id")).bind compactScalar).filter isId

/-- `projected`, the object that is written. Array indices come first in a record. -/
def feedback (output : Option JsonValue) (projectedRecords : List JsonRecord) (truncated : Bool) :
    JsonValue :=
  .obj [(units "totalCount", totalCount output),
    (units "returnedCount", .num (ofCount (recordsOf output).length)),
    (units "recordIds", .arr (recordIds (recordsOf output))),
    (units "records", .arr (projectedRecords.map fun record => .obj (fromEntries record))),
    (units "truncated", .bool truncated)]

/-- The loop at the end of `serializeRecordQueryObservationForPrompt`; `write` is `JSON.stringify` of the
object. -/
def shrink (write : List JsonRecord → Bool → Units) (projectedRecords : List JsonRecord)
    (truncated : Bool) : Units :=
  if 1 < projectedRecords.length then
    if byteLength (write projectedRecords truncated) ≤ maxSerializedBytes then
      write projectedRecords truncated
    else shrink write projectedRecords.dropLast true
  else write projectedRecords truncated
termination_by projectedRecords.length
decreasing_by
  rw [List.length_dropLast]
  omega

def projectedRecords (output toolInput : Option JsonValue) : List JsonRecord :=
  ((recordsOf output).take maxProjectedRecords).map fun record =>
    projectRecord record (filterFieldNames toolInput)

/-- `truncated`, before the loop. -/
def truncatedAtFirst (records projected : List JsonRecord) : Bool :=
  decide (projected.length < records.length) ||
    (records.zip projected).any fun pair => decide (pair.2.length < pair.1.length)

def serializeRecordQueryObservationForPrompt (fmt : NumberFormat) (output toolInput : Option JsonValue) :
    Units :=
  shrink (fun projected truncated => stringify fmt (feedback output projected truncated))
    (projectedRecords output toolInput)
    (truncatedAtFirst (recordsOf output) (projectedRecords output toolInput))

/-! ## The message -/

/-- `step.action` and `step.observation`, as far as messages use them. -/
structure ReActStep where
  toolName : Option Units
  toolInput : Option JsonValue
  output : Option JsonValue

/-- `rawObservation` -/
def ReActStep.rawObservation (fmt : NumberFormat) (step : ReActStep) : Units :=
  if step.toolName = some (units "record.query") then
    serializeRecordQueryObservationForPrompt fmt step.output step.toolInput
  else ((step.output.map (stringify fmt)).getD []).take 1000

/-- The user message that `buildChatMessages` creates for a step. -/
def ReActStep.observationMessage (fmt : NumberFormat) (step : ReActStep) : Units :=
  match step.toolName with
  | none =>
    units "Result (untrusted data):\n" ++
      wrapUntrustedContent (step.rawObservation fmt) (units "result")
  | some [] =>
    units "Result (untrusted data):\n" ++
      wrapUntrustedContent (step.rawObservation fmt) (units "result")
  | some toolName =>
    units "Tool result for " ++ toolName ++ units " (untrusted data):\n" ++
      wrapUntrustedContent (step.rawObservation fmt) (units "tool:" ++ toolName)

/-! ## What a record shows -/

/-- A field as it is shown, if it is. -/
def shownField (f : Units × JsonValue) : Option (Units × JsonValue) :=
  if f.1 = protoKey then none else (compactScalar f.2).map fun value => (f.1, value)

/-- The field of a key, as it is shown. -/
def shownAt (record : JsonRecord) (key : Units) : Option (Units × JsonValue) :=
  (record.lookup key).bind fun v => shownField (key, v)

/-- What the loop goes through of a record, were there no limit. -/
def shown (record : JsonRecord) (preferredFields : List Units) : JsonRecord :=
  (orderedKeys record preferredFields).filterMap (shownAt record)

section record
variable {record : JsonRecord} {preferredFields keys : List Units} {key : Units}
  {f g : Units × JsonValue} {value : JsonValue}

/-- A shown field keeps its key. -/
lemma shownField_key (h : shownField f = some g) : g.1 = f.1 := by
  unfold shownField at h
  split_ifs at h
  obtain ⟨value, -, rfl⟩ := Option.map_eq_some_iff.1 h
  rfl

/-- What is shown at a key has the key. -/
lemma shownAt_key (h : shownAt record key = some g) : g.1 = key := by
  obtain ⟨v, -, hfield⟩ := Option.bind_eq_some_iff.1 h
  exact shownField_key hfield

/-- Nothing is shown at a key without a scalar. -/
lemma shownAt_missing (h : (record.lookup key).bind compactScalar = none) :
    shownAt record key = none := by
  unfold shownAt
  cases hlookup : record.lookup key with
  | none => rfl
  | some v =>
    rw [hlookup, Option.bind_some] at h
    rw [Option.bind_some, shownField, h]
    exact ite_self none

/-- Nothing is shown at `__proto__`. -/
lemma shownAt_proto : shownAt record protoKey = none := by
  unfold shownAt
  cases record.lookup protoKey with
  | none => rfl
  | some v => rw [Option.bind_some, shownField, if_pos rfl]

/-- A scalar is shown at any other key. -/
lemma shownAt_shown (hproto : key ≠ protoKey) (h : (record.lookup key).bind compactScalar = some value) :
    shownAt record key = some (key, value) := by
  obtain ⟨v, hlookup, hvalue⟩ := Option.bind_eq_some_iff.1 h
  rw [shownAt, hlookup, Option.bind_some, shownField, if_neg hproto, hvalue, Option.map_some]

/-- The loop shows the fields of its keys in their order, up to the limit. -/
lemma projectKeys_eq (hnodup : keys.Nodup) {projected : JsonRecord}
    (hnew : ∀ key ∈ keys, key ∉ projected.map Prod.fst)
    (hroom : projected.length < maxProjectedFields) :
    projectKeys record keys projected =
      projected ++ (keys.filterMap (shownAt record)).take (maxProjectedFields - projected.length) := by
  -- induction on the keys: a missing member and `__proto__` take no room
  induction keys generalizing projected with
  | nil => rw [projectKeys, List.filterMap_nil, List.take_nil, List.append_nil]
  | cons key keys ih =>
    obtain ⟨hkey, hkeys⟩ := List.nodup_cons.1 hnodup
    obtain ⟨hnewKey, hnewKeys⟩ := List.forall_mem_cons.1 hnew
    rw [projectKeys]
    cases hvalue : (record.lookup key).bind compactScalar with
    | none =>
      rw [List.filterMap_cons_none (shownAt_missing hvalue)]
      exact ih hkeys hnewKeys hroom
    | some value =>
      dsimp only
      by_cases hproto : key = protoKey
      · have hassign : assign projected key value = projected := if_pos hproto
        have hat : shownAt record key = none := hproto ▸ shownAt_proto
        rw [hassign, if_neg (Nat.not_le.2 hroom), List.filterMap_cons_none hat]
        exact ih hkeys hnewKeys hroom
      · have hassign : assign projected key value = projected ++ [(key, value)] :=
          (if_neg hproto).trans (AuditChain.setProperty_new value hnewKey)
        have hlength : (projected ++ [(key, value)]).length = projected.length + 1 := by
          rw [List.length_append, List.length_singleton]
        have hleft : maxProjectedFields - projected.length =
            (maxProjectedFields - (projected.length + 1)) + 1 := by
          omega
        rw [hassign, hlength, List.filterMap_cons_some (shownAt_shown hproto hvalue), hleft,
          List.take_succ_cons]
        split_ifs with hfull
        · rw [Nat.sub_eq_zero_of_le hfull, List.take_zero]
        · have hnewKeys' : ∀ k ∈ keys, k ∉ (projected ++ [(key, value)]).map Prod.fst := by
            intro k hk hmem
            rw [List.map_append, List.mem_append] at hmem
            rcases hmem with hmem | hmem
            · exact hnewKeys k hk hmem
            · have hsame : k = key := List.mem_singleton.1 hmem
              exact hkey (hsame ▸ hk)
          rw [ih hkeys hnewKeys' (by omega), hlength, List.append_assoc, List.singleton_append]

/-- Distinct keys come once each. -/
lemma nodup_distinctKeys (keys : List Units) : (distinctKeys keys).Nodup :=
  List.nodup_reverse.2 (List.nodup_dedup _)

/-- They are the keys. -/
lemma mem_distinctKeys : key ∈ distinctKeys keys ↔ key ∈ keys := by
  rw [distinctKeys, List.mem_reverse, List.mem_dedup, List.mem_reverse]

/-- A projection is the first twenty-four of the fields shown. -/
lemma projectRecord_eq (record : JsonRecord) (preferredFields : List Units) :
    projectRecord record preferredFields = (shown record preferredFields).take maxProjectedFields :=
  projectKeys_eq (nodup_distinctKeys _) (fun _ _ => List.not_mem_nil) (by decide)

/-- The keys of what is shown are among the keys asked for. -/
lemma keys_filterMap {α : Type} {p : α → Units} {view : α → Option (Units × JsonValue)}
    (h : ∀ a g, view a = some g → g.1 = p a) (xs : List α) :
    ((xs.filterMap view).map Prod.fst).Sublist (xs.map p) := by
  induction xs with
  | nil => exact .slnil
  | cons x xs ih =>
    rw [List.map_cons]
    cases hshow : view x with
    | none =>
      rw [List.filterMap_cons_none hshow]
      exact ih.cons _
    | some g =>
      rw [List.filterMap_cons_some hshow, List.map_cons, h x g hshow]
      exact ih.cons_cons _

/-- What the loop goes through are the fields of the record, in another order. -/
lemma shown_perm (hnodup : (record.map Prod.fst).Nodup) (preferredFields : List Units) :
    (shown record preferredFields).Perm (record.filterMap shownField) := by
  refine (List.perm_ext_iff_of_nodup ?_ ?_).2 fun g => ?_
  · refine (nodup_distinctKeys _).filterMap fun key key' g h h' => ?_
    exact (shownAt_key h).symm.trans (shownAt_key h')
  · exact (hnodup.sublist (keys_filterMap (fun _ _ => shownField_key) record)).of_map
  · rw [shown, List.mem_filterMap, List.mem_filterMap]
    constructor
    · rintro ⟨key, -, hat⟩
      obtain ⟨v, hlookup, hfield⟩ := Option.bind_eq_some_iff.1 hat
      exact ⟨(key, v), (lookup_eq_some hnodup).1 hlookup, hfield⟩
    · rintro ⟨f, hmem, hfield⟩
      refine ⟨f.1, ?_, ?_⟩
      · exact mem_distinctKeys.2 (List.mem_append_right _ (List.mem_map_of_mem hmem))
      · rw [shownAt, (lookup_eq_some hnodup).2 hmem]
        exact hfield

/-- Every field of the record is shown. -/
def allShown (record : JsonRecord) : Bool :=
  decide (record.length ≤ maxProjectedFields) &&
    record.all fun f => decide (f.1 ≠ protoKey) && (compactScalar f.2).isSome

/-- A field is shown if it is a scalar and not `__proto__`. -/
lemma shownField_isSome :
    (shownField f).isSome = (decide (f.1 ≠ protoKey) && (compactScalar f.2).isSome) := by
  unfold shownField
  by_cases hproto : f.1 = protoKey
  · rw [if_pos hproto, decide_eq_false (not_not.2 hproto)]
    rfl
  · rw [if_neg hproto, decide_eq_true hproto, Option.isSome_map, Bool.true_and]

/-- A record is shown with fewer fields than it has exactly when not every field is shown. -/
lemma fewer_fields (hnodup : (record.map Prod.fst).Nodup) (preferredFields : List Units) :
    decide ((projectRecord record preferredFields).length < record.length) = !allShown record := by
  have hcount : (shown record preferredFields).length = record.countP fun f => (shownField f).isSome := by
    rw [(shown_perm hnodup preferredFields).length_eq, List.length_filterMap_eq_countP]
  have hle : (record.countP fun f => (shownField f).isSome) ≤ record.length := List.countP_le_length
  have hall : (record.all fun f => decide (f.1 ≠ protoKey) && (compactScalar f.2).isSome) =
      decide ((record.countP fun f => (shownField f).isSome) = record.length) := by
    rw [Bool.eq_iff_iff, List.all_eq_true, decide_eq_true_eq, List.countP_eq_length]
    simp only [shownField_isSome]
  rw [projectRecord_eq, List.length_take, hcount, allShown, hall, Bool.eq_iff_iff, Bool.not_eq_true',
    Bool.and_eq_false_iff, decide_eq_true_eq, decide_eq_false_iff_not, decide_eq_false_iff_not]
  omega

/-- A value as it is shown. -/
def compactValue (v : JsonValue) : JsonValue :=
  (compactScalar v).getD v

/-- A string that is shown as it is. -/
def Uncut : JsonValue → Prop
  | .str s => s.length ≤ maxStringValueLength ∨ s.drop maxStringValueLength = [ellipsis]
  | _ => True

/-- When a text is not cut. -/
lemma compactString_eq_self {s : Units} :
    compactString s = s ↔ s.length ≤ maxStringValueLength ∨ s.drop maxStringValueLength = [ellipsis] := by
  unfold compactString
  split_ifs with hlength
  · exact ⟨fun _ => .inl hlength, fun _ => rfl⟩
  · rw [or_iff_right hlength]
    constructor
    · intro h
      have hsplit : s.take maxStringValueLength ++ [ellipsis] =
          s.take maxStringValueLength ++ s.drop maxStringValueLength :=
        h.trans (List.take_append_drop _ s).symm
      exact (List.append_cancel_left hsplit).symm
    · intro h
      rw [← h, List.take_append_drop]

/-- A scalar stays if and only if it is not cut. -/
lemma uncut_iff {v : JsonValue} : (compactValue v).normal = v.normal ↔ Uncut v := by
  cases v with
  | str s =>
    show (JsonValue.str (compactString s)).normal = (JsonValue.str s).normal ↔ _
    rw [JsonValue.normal, JsonValue.normal, JsonValue.str.injEq]
    exact compactString_eq_self
  | _ => exact iff_of_true rfl trivial

/-- A record all of whose fields are shown, shown. -/
lemma projectRecord_perm (hnodup : (record.map Prod.fst).Nodup) (hall : allShown record = true)
    (preferredFields : List Units) : (fromEntries (projectRecord record preferredFields)).Perm
      (record.map fun f => (f.1, compactValue f.2)) := by
  obtain ⟨hlength, hfields⟩ := Bool.and_eq_true_iff.1 hall
  have hshown : record.filterMap shownField = record.map fun f => (f.1, compactValue f.2) := by
    rw [← List.filterMap_eq_map]
    refine List.filterMap_congr fun f hf => ?_
    obtain ⟨hproto, hscalar⟩ := Bool.and_eq_true_iff.1 (List.all_eq_true.1 hfields f hf)
    obtain ⟨value, hvalue⟩ := Option.isSome_iff_exists.1 hscalar
    rw [shownField, if_neg (of_decide_eq_true hproto), Function.comp_apply, compactValue, hvalue]
    rfl
  have hperm := shown_perm hnodup preferredFields
  have hroom : (shown record preferredFields).length ≤ maxProjectedFields := by
    rw [hperm.length_eq, hshown, List.length_map]
    exact of_decide_eq_true hlength
  rw [projectRecord_eq, List.take_of_length_le hroom]
  exact (fromEntries_perm _).trans (hshown ▸ hperm)

/-- No key is shown twice. -/
lemma keys_projectRecord (record : JsonRecord) (preferredFields : List Units) :
    ((projectRecord record preferredFields).map Prod.fst).Nodup := by
  have hkeys : ((shown record preferredFields).map Prod.fst).Sublist (orderedKeys record preferredFields) := by
    rw [← List.map_id (orderedKeys record preferredFields)]
    exact keys_filterMap (fun _ _ => shownAt_key) _
  rw [projectRecord_eq, List.map_take]
  exact ((List.take_sublist _ _).trans hkeys).nodup (nodup_distinctKeys _)

end record

end NexusClaw.RecordQuery
