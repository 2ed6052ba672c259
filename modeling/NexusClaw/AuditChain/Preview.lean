import Mathlib.Algebra.Order.BigOperators.Group.List
import NexusClaw.AuditChain.CanonicalText
import NexusClaw.AuditChain.Redaction

/-!
# Previews

`buildPreview` of `tool-call-lifecycle.service.ts`: what a tool-call record keeps of an input or an
output. The payload is redacted, scrubbed and wrapped, and replaced by its digest when its canonical
text is too long.
-/

namespace NexusClaw.AuditChain

/-! ## buildPreview -/

/-- `descriptor.redaction` -/
structure RedactionDescriptor where
  logPolicy : Option String := none
  inputJsonPointers : Option (List Units) := none
  outputJsonPointers : Option (List Units) := none

inductive Direction where
  | input
  | output
deriving DecidableEq, Repr

/-- What previews take from elsewhere; `sha256` is the hexadecimal digest of a text. -/
structure PreviewConfig where
  fmt : NumberFormat
  redactor : Redactor
  sha256 : Units → Units
  sha256_length : ∀ text, (sha256 text).length = 64

/-- `canonicalJsonDigest` -/
def canonicalJsonDigest (cfg : PreviewConfig) (v : JsonValue) : Units :=
  units "sha256:" ++ cfg.sha256 (canonicalJsonString cfg.fmt v)

/-- The bytes of a code unit that is no half of a pair. -/
def unitBytes (c : UInt16) : Nat :=
  if c < 0x80 then 1 else if c < 0x800 then 2 else 3

/-- `Buffer.byteLength(text, 'utf8')` -/
def byteLength : Units → Nat
  | [] => 0
  | [c] => unitBytes c
  | c :: d :: rest =>
    if 0xd800 ≤ c ∧ c < 0xdc00 ∧ 0xdc00 ≤ d ∧ d < 0xe000 then 4 + byteLength rest
    else unitBytes c + byteLength (d :: rest)

def maxPreviewBytes : Nat :=
  8 * 1024

structure Preview where
  digest : Units
  value : JsonValue

/-- The pointers of a direction. -/
def RedactionDescriptor.pointers (descriptor : Option RedactionDescriptor) (direction : Direction) :
    List Units :=
  match direction with
  | .input => (descriptor.bind (·.inputJsonPointers)).getD []
  | .output => (descriptor.bind (·.outputJsonPointers)).getD []

/-- The value of a preview without a payload. -/
def metadataValue (digest : Units) : JsonValue :=
  .obj [(units "redacted", .bool true), (units "digest", .str digest)]

def truncatedValue (digest : Units) : JsonValue :=
  .obj [(units "redacted", .bool true), (units "truncated", .bool true), (units "digest", .str digest)]

/-- `wrapped` -/
def wrap : JsonValue → JsonValue
  | .obj fields => .obj fields
  | v => .obj [(units "value", v)]

/-- The preview of a payload whose sensitive parts are gone. -/
def previewOf (cfg : PreviewConfig) (digest : Units) (scrubbed : JsonValue) : Except String Preview :=
  let canonical := canonicalJsonString cfg.fmt (wrap scrubbed)
  if maxPreviewBytes < byteLength canonical then .ok { digest, value := truncatedValue digest }
  else
    match parse cfg.fmt canonical with
    | none => .error "SyntaxError"
    | some value => .ok { digest, value }

def buildPreview (cfg : PreviewConfig) (raw : JsonValue) (descriptor : Option RedactionDescriptor)
    (direction : Direction) : Except String Preview :=
  let digest := canonicalJsonDigest cfg raw
  if (descriptor.bind (·.logPolicy)) = some "metadata_only" then
    .ok { digest, value := metadataValue digest }
  else do
    let pointerRedacted ← applyJsonRedactionPointers cfg.redactor raw
      (RedactionDescriptor.pointers descriptor direction) "TOOL_CALL_REDACTION_POINTER_INVALID"
    previewOf cfg digest (redactSensitivePayload cfg.redactor pointerRedacted)

/-! ## Size -/

/-- A unit takes at most three bytes. -/
lemma unitBytes_le (c : UInt16) : unitBytes c ≤ 3 := by
  unfold unitBytes
  split_ifs
  · decide
  · decide
  · decide

/-- A text takes at most three bytes a unit. -/
lemma byteLength_le (text : Units) : byteLength text ≤ 3 * text.length := by
  induction text using byteLength.induct with
  | case1 => exact Nat.le_refl 0
  | case2 c => exact unitBytes_le c
  | case3 c d rest hpair ih =>
    rw [byteLength, if_pos hpair]
    simp only [List.length_cons]
    omega
  | case4 c d rest hpair ih =>
    have hc := unitBytes_le c
    rw [byteLength, if_neg hpair]
    simp only [List.length_cons] at ih ⊢
    omega

/-- The bytes in front of an ASCII character, which is no half of a pair, count on their own. -/
lemma byteLength_append (s : Units) {c : UInt16} (hc : c < 0x80) (t : Units) :
    byteLength (s ++ c :: t) = byteLength s + byteLength (c :: t) := by
  induction s using byteLength.induct with
  | case1 => exact (Nat.zero_add _).symm
  | case2 d =>
    have hlow : ¬ (0xd800 ≤ d ∧ d < 0xdc00 ∧ 0xdc00 ≤ c ∧ c < 0xe000) := fun h =>
      absurd (UInt16.lt_of_le_of_lt h.2.2.1 hc) (by decide)
    have hsplit : byteLength (d :: c :: t) = unitBytes d + byteLength (c :: t) := by
      rw [byteLength, if_neg hlow]
    exact hsplit
  | case3 d e rest hpair ih =>
    show byteLength (d :: e :: (rest ++ c :: t)) = _
    rw [byteLength, if_pos hpair, byteLength, if_pos hpair, ih, Nat.add_assoc]
  | case4 d e rest hpair ih =>
    show byteLength (d :: e :: (rest ++ c :: t)) = _
    have ih' : byteLength (e :: (rest ++ c :: t)) = _ := ih
    rw [byteLength, if_neg hpair, byteLength, if_neg hpair, ih', Nat.add_assoc]

/-- A unit is written in at most six. -/
lemma serializeUnit_length_le (c : UInt16) : (serializeUnit c).length ≤ 6 := by
  by_cases hc : 0x7f ≤ c
  · unfold serializeUnit
    split_ifs <;> simp [hex4]
  · unfold serializeUnit
    split_ifs <;> simp [hex4]

/-- A text is written in at most six a unit and two quotes. -/
lemma serializeString_length_le (s : Units) : (serializeString s).length ≤ 6 * s.length + 2 := by
  have hunits : (s.flatMap serializeUnit).length ≤ 6 * s.length := by
    induction s with
    | nil => exact Nat.le_refl 0
    | cons c s ih =>
      have hc := serializeUnit_length_le c
      rw [List.flatMap_cons, List.length_append, List.length_cons]
      omega
  unfold serializeString
  rw [List.length_cons, List.length_append, List.length_singleton]
  omega

/-- Joined parts take a comma each. -/
lemma join_length_le (ts : List Units) :
    (join ts).length ≤ (ts.map fun t => t.length + 1).sum := by
  have hrest (ts : List Units) : (joinRest ts).length ≤ (ts.map fun t => t.length + 1).sum := by
    induction ts with
    | nil => exact Nat.le_refl 0
    | cons t ts ih =>
      rw [joinRest, List.length_cons, List.length_append, List.map_cons, List.sum_cons]
      omega
  cases ts with
  | nil => exact Nat.le_refl 0
  | cons t ts =>
    have h := hrest ts
    rw [join, List.length_append, List.map_cons, List.sum_cons]
    omega

/-- A bound on the canonical text of an object. -/
lemma canonical_obj_length_le (fmt : NumberFormat) (fields : List (Units × JsonValue)) :
    (serializeCanonical fmt (.obj fields)).length ≤
      (fields.map fun f => 6 * f.1.length + 4 + (serializeCanonical fmt f.2).length).sum + 2 := by
  have hmember (f : Units × JsonValue) :
      (serializeMember (f.1, serializeCanonical fmt f.2)).length + 1 ≤
        6 * f.1.length + 4 + (serializeCanonical fmt f.2).length := by
    have hkey := serializeString_length_le f.1
    unfold serializeMember
    dsimp only
    rw [List.length_append, List.length_cons]
    omega
  have hjoin := join_length_le ((byKey fields).map fun f =>
    serializeMember (f.1, serializeCanonical fmt f.2))
  rw [List.map_map] at hjoin
  have hsum := List.sum_le_sum fun f (_ : f ∈ byKey fields) => hmember f
  have hperm := (byKey_perm fields).map fun f => 6 * f.1.length + 4 +
    (serializeCanonical fmt f.2).length
  rw [serializeCanonical_obj, List.length_cons, List.length_append, List.length_singleton]
  exact Nat.succ_le_succ (Nat.succ_le_succ (hperm.sum_nat ▸ hjoin.trans hsum))

/-- A digest is as long as every other. -/
lemma digest_length (cfg : PreviewConfig) (v : JsonValue) : (canonicalJsonDigest cfg v).length = 71 := by
  unfold canonicalJsonDigest
  rw [List.length_append, cfg.sha256_length]
  rfl

/-- The values without a payload are short. -/
lemma small_size (fmt : NumberFormat) {digest : Units} (h : digest.length = 71)
    {fields : List (Units × JsonValue)}
    (hfields : fields = [(units "redacted", .bool true), (units "digest", .str digest)] ∨
      fields = [(units "redacted", .bool true), (units "truncated", .bool true),
        (units "digest", .str digest)]) :
    byteLength (canonicalJsonString fmt (.obj fields)) ≤ maxPreviewBytes := by
  have hbytes := byteLength_le (canonicalJsonString fmt (.obj fields))
  have hlength := canonical_obj_length_le fmt fields
  have htrue : (serializeCanonical fmt (.bool true)).length = 4 := rfl
  have hdigest : (serializeCanonical fmt (.str digest)).length ≤ 6 * digest.length + 2 :=
    serializeString_length_le digest
  have hred : (units "redacted").length = 8 := rfl
  have htrunc : (units "truncated").length = 9 := rfl
  have hdig : (units "digest").length = 6 := rfl
  unfold canonicalJsonString at hbytes ⊢
  unfold maxPreviewBytes
  rcases hfields with rfl | rfl
  · simp only [List.map_cons, List.map_nil, List.sum_cons, List.sum_nil, htrue, hred, hdig] at hlength
    omega
  · simp only [List.map_cons, List.map_nil, List.sum_cons, List.sum_nil, htrue, hred, htrunc,
      hdig] at hlength
    omega

/-- A wrapped value repeats no key. -/
lemma distinct_wrap {v : JsonValue} (hv : v.Distinct) : (wrap v).Distinct := by
  cases v with
  | obj fields => exact hv
  | _ => exact ⟨List.nodup_singleton _, hv, trivial⟩

/-- The canonical text of a preview's value is short. -/
lemma previewOf_size {cfg : PreviewConfig} {digest : Units} {scrubbed : JsonValue} {preview : Preview}
    (hdigest : digest.length = 71) (hv : scrubbed.Distinct)
    (h : previewOf cfg digest scrubbed = .ok preview) :
    byteLength (canonicalJsonString cfg.fmt preview.value) ≤ maxPreviewBytes := by
  unfold previewOf at h
  dsimp only at h
  split_ifs at h with hlong
  · cases h
    exact small_size cfg.fmt hdigest (.inr rfl)
  · rw [parse_canonical cfg.fmt (distinct_wrap hv)] at h
    cases h
    have hsame : canonicalJsonString cfg.fmt (wrap scrubbed).normal =
        canonicalJsonString cfg.fmt (wrap scrubbed) := serializeCanonical_normal ..
    rw [hsame]
    exact Nat.le_of_not_lt hlong

/-! ## What a preview shows -/

/-- A preview shows nothing of what its redaction covers: two payloads with one digest that differ
only at the targets of the pointers and under sensitive keys have one preview. And the canonical text
of its value is never longer than the limit. -/
theorem preview_redacts (cfg : PreviewConfig) (descriptor : Option RedactionDescriptor)
    (direction : Direction) :
    (∀ v w, canonicalJsonDigest cfg v = canonicalJsonDigest cfg w →
      Agree cfg.redactor (targets (RedactionDescriptor.pointers descriptor direction)) v w →
      buildPreview cfg v descriptor direction = buildPreview cfg w descriptor direction) ∧
    ∀ v preview, v.Distinct → buildPreview cfg v descriptor direction = .ok preview →
      byteLength (canonicalJsonString cfg.fmt preview.value) ≤ maxPreviewBytes := by
  constructor
  -- the digest tells the two runs apart, and a preview by metadata holds nothing else
  · intro v w hdigest hagree
    unfold buildPreview
    rw [hdigest]
    dsimp only
    split_ifs with hmetadata
    · rfl
    · rcases applyJsonRedactionPointers_agree hagree with ⟨e, hv, hw⟩ | ⟨v', w', hv, hw, hagree'⟩
      · rw [hv, hw]
      · rw [hv, hw]
        exact congrArg (previewOf cfg _) hagree'.redactSensitivePayload
  · intro v preview hv h
    unfold buildPreview at h
    dsimp only at h
    split_ifs at h with hmetadata
    · cases h
      exact small_size cfg.fmt (digest_length cfg v) (.inl rfl)
    · cases hpointers : applyJsonRedactionPointers cfg.redactor v
          (RedactionDescriptor.pointers descriptor direction) "TOOL_CALL_REDACTION_POINTER_INVALID" with
      | error e =>
        rw [hpointers] at h
        cases h
      | ok w =>
        rw [hpointers] at h
        have hw : w.Distinct := distinct_pointers (distinct_clone hv) hpointers
        exact previewOf_size (digest_length cfg v) (distinct_redactSensitivePayload hw) h

/-- A redactor that knows one sensitive key; an index is read from decimal digits. -/
def plainRedactor : Redactor where
  sensitive key := key = units "password"
  scrubText s := s
  index s := if s ≠ [] ∧ s.all isDigit = true then some (decimalValue s) else none
  index_token i := by
    have hdigits : (decimalUnits i).all isDigit = true := List.all_eq_true.2 (decimalUnits_digits i)
    unfold indexToken
    rw [if_pos ⟨decimalUnits_ne_nil i, hdigits⟩, decimalValue_decimalUnits]

/-- Previews whose digest is that of the text `\x7b"a":0,"b":"x"\x7d`. -/
def plainConfig : PreviewConfig where
  fmt := bitsFormat
  redactor := plainRedactor
  sha256 _ := units "780206b2d6de80af0540e64a36ed70ca5a16f37f97c97c559fb38fdcedb6726c"
  sha256_length _ := rfl

/-- A payload with a number under the key `a`. -/
def numberPayload (n : Number) : JsonValue :=
  .obj [(units "a", .num n), (units "b", .str (units "x"))]

/-- The two zeros have one digest; the pointer hides which of them it was. -/
theorem zero_hidden :
    buildPreview plainConfig (numberPayload .zero)
        (some { inputJsonPointers := some [units "/a"] }) .input =
      buildPreview plainConfig (numberPayload .negZero)
        (some { inputJsonPointers := some [units "/a"] }) .input := by
  refine (preview_redacts plainConfig (some { inputJsonPointers := some [units "/a"] }) .input).1
    _ _ rfl (.obj rfl fun i f g hf hg _ => ?_)
  rcases i with _ | _ | i
  · cases hf
    cases hg
    exact .target (by decide)
  · cases hf
    cases hg
    exact .str _
  · cases hf

example : (buildPreview plainConfig (numberPayload .negZero)
    (some { inputJsonPointers := some [units "/a"] }) .input).map
      (fun preview => canonicalJsonString bitsFormat preview.value) =
    .ok (units "\x7b\"a\":\"[REDACTED]\",\"b\":\"x\"\x7d") := by
  decide +kernel

end NexusClaw.AuditChain
