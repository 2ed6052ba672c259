import NexusClaw.AuditChain.JsonValue

/-!
# Canonical text

`audit-chain/src/canonical.ts` (and the same code in `canonical-hash.ts`): `canonicalJsonString`, on
which digests are taken, beside the serialization of RFC 8785, whose name it has. How `JSON.stringify`
prints a number is a parameter with the laws of the language. The two differ in the characters that
RFC 8785 leaves as they are: `serializeString` escapes every code unit from `0x7f` on.
-/

namespace NexusClaw.AuditChain

/-! ## Numbers as text -/

/-- The code units a number is written with. -/
def isNumberUnit (c : UInt16) : Bool :=
  isDigit c || c = unit '-' || c = unit '+' || c = unit '.' || c = unit 'e' || c = unit 'E'

/-- The number texts of the language: `format` is `JSON.stringify` of a number, `read` gives the value
of a text of the number grammar. -/
structure NumberFormat where
  format : Number → Units
  read : Units → Option Number
  format_zero : format .zero = units "0"
  read_format : ∀ n, n ≠ .negZero → read (format n) = some n
  format_head : ∀ n, n ≠ .negZero →
    ∃ c cs, format n = c :: cs ∧ (isDigit c = true ∨ c = unit '-')
  format_units : ∀ n, n ≠ .negZero → ∀ c ∈ format n, isNumberUnit c = true

/-! ## canonicalJsonString -/

/-- `HEX` -/
def hexTable : Units :=
  units "0123456789abcdef"

def hex4 (n : UInt16) : Units :=
  [hexTable.getD ((n >>> 12) &&& 0xf).toNat 0, hexTable.getD ((n >>> 8) &&& 0xf).toNat 0,
    hexTable.getD ((n >>> 4) &&& 0xf).toNat 0, hexTable.getD (n &&& 0xf).toNat 0]

/-- A code unit in `serializeString`. Its last branch, for a character beyond the code units, is
never taken: `charCodeAt` returns a code unit. -/
def serializeUnit (c : UInt16) : Units :=
  if c = 0x22 then [unit '\\', unit '"']
  else if c = 0x5c then [unit '\\', unit '\\']
  else if 0x20 ≤ c ∧ c < 0x7f then [c]
  else if c = 0x08 then [unit '\\', unit 'b']
  else if c = 0x09 then [unit '\\', unit 't']
  else if c = 0x0a then [unit '\\', unit 'n']
  else if c = 0x0c then [unit '\\', unit 'f']
  else if c = 0x0d then [unit '\\', unit 'r']
  else unit '\\' :: unit 'u' :: hex4 c

def serializeString (s : Units) : Units :=
  unit '"' :: (s.flatMap serializeUnit ++ [unit '"'])

/-- `serializeNumber`; a number is finite. -/
def serializeNumber (fmt : NumberFormat) (n : Number) : Units :=
  if n = .negZero then units "0" else fmt.format n

/-- The texts with a comma before each of them. -/
def joinRest : List Units → Units
  | [] => []
  | t :: ts => unit ',' :: (t ++ joinRest ts)

/-- The texts with commas between them. -/
def join : List Units → Units
  | [] => []
  | t :: ts => t ++ joinRest ts

/-- A member of an object, its value already written. -/
def serializeMember (member : Units × Units) : Units :=
  serializeString member.1 ++ unit ':' :: member.2

mutual
/-- `serializeCanonical` -/
def serializeCanonical (fmt : NumberFormat) : JsonValue → Units
  | .null => units "null"
  | .bool b => if b then units "true" else units "false"
  | .num n => serializeNumber fmt n
  | .str s => serializeString s
  | .arr vs => unit '[' :: (join (serializeAll fmt vs) ++ [unit ']'])
  | .obj fields =>
    unit '\x7b' :: (join ((byKey (serializeFields fmt fields)).map serializeMember) ++ [unit '\x7d'])

def serializeAll (fmt : NumberFormat) : List JsonValue → List Units
  | [] => []
  | v :: vs => serializeCanonical fmt v :: serializeAll fmt vs

def serializeFields (fmt : NumberFormat) : List (Units × JsonValue) → List (Units × Units)
  | [] => []
  | f :: fs => serializeField fmt f :: serializeFields fmt fs

def serializeField (fmt : NumberFormat) : Units × JsonValue → Units × Units
  | (key, v) => (key, serializeCanonical fmt v)
end

/-- `canonicalJsonString` -/
def canonicalJsonString (fmt : NumberFormat) (v : JsonValue) : Units :=
  serializeCanonical fmt v

section canonical
variable (fmt : NumberFormat)

/-- The elements, one by one. -/
lemma serializeAll_eq (vs : List JsonValue) :
    serializeAll fmt vs = vs.map (serializeCanonical fmt) := by
  induction vs with
  | nil => rfl
  | cons v vs ih => rw [serializeAll, ih, List.map_cons]

/-- The members, one by one. -/
lemma serializeFields_eq (fields : List (Units × JsonValue)) :
    serializeFields fmt fields = fields.map fun f => (f.1, serializeCanonical fmt f.2) := by
  induction fields with
  | nil => rfl
  | cons f fs ih => rw [serializeFields, ih, List.map_cons, serializeField]

/-- The canonical text of an array. -/
lemma serializeCanonical_arr (vs : List JsonValue) : serializeCanonical fmt (.arr vs) =
    unit '[' :: (join (vs.map (serializeCanonical fmt)) ++ [unit ']']) := by
  rw [serializeCanonical, serializeAll_eq]

/-- The canonical text of an object. -/
lemma serializeCanonical_obj (fields : List (Units × JsonValue)) :
    serializeCanonical fmt (.obj fields) =
      unit '\x7b' :: (join ((byKey fields).map fun f =>
        serializeMember (f.1, serializeCanonical fmt f.2)) ++ [unit '\x7d']) := by
  rw [serializeCanonical, serializeFields_eq, byKey_map, List.map_map]
  rfl

/-- A number is written without the sign of a zero. -/
lemma serializeNumber_unsigned (n : Number) :
    serializeNumber fmt n = fmt.format n.unsigned := by
  unfold serializeNumber Number.unsigned
  split_ifs
  · exact fmt.format_zero.symm
  · rfl

/-- The order of the keys and the sign of a zero do not show in the text. -/
lemma serializeCanonical_normal (v : JsonValue) :
    serializeCanonical fmt v.normal = serializeCanonical fmt v := by
  induction v with
  | null => rfl
  | bool b => rfl
  | num n =>
    rw [JsonValue.normal, serializeCanonical, serializeCanonical, serializeNumber_unsigned,
      serializeNumber_unsigned, Number.unsigned_unsigned]
  | str s => rfl
  | arr vs ih =>
    rw [JsonValue.normal_arr, serializeCanonical_arr, serializeCanonical_arr, List.map_map]
    refine congrArg (fun ts => unit '[' :: (join ts ++ [unit ']'])) ?_
    exact List.map_congr_left fun v hv => ih v hv
  | obj fields ih =>
    rw [JsonValue.normal_obj, serializeCanonical_obj, serializeCanonical_obj, byKey_map, byKey_byKey,
      List.map_map]
    refine congrArg (fun ts => unit '\x7b' :: (join ts ++ [unit '\x7d'])) ?_
    refine List.map_congr_left fun f hf => ?_
    exact congrArg (fun t => serializeMember (f.1, t)) (ih f (mem_byKey.1 hf))

end canonical

/-! ## RFC 8785 -/

/-- A code unit in a string of the standard: the quotation mark, the backslash and the control
characters below `0x20` are escaped, everything else is literal. -/
def jcsUnit (c : UInt16) : Units :=
  if c = unit '"' ∨ c = unit '\\' then [unit '\\', c]
  else if 0x20 ≤ c then [c]
  else if c = 0x08 then units "\\b"
  else if c = 0x09 then units "\\t"
  else if c = 0x0a then units "\\n"
  else if c = 0x0c then units "\\f"
  else if c = 0x0d then units "\\r"
  else units "\\u" ++ hex4 c

def jcsString (s : Units) : Units :=
  unit '"' :: (s.flatMap jcsUnit ++ [unit '"'])

/-- A number in the shortest form of the language, both zeros as `0`. -/
def jcsNumber (fmt : NumberFormat) (n : Number) : Units :=
  fmt.format n.unsigned

def jcsMember (member : Units × Units) : Units :=
  jcsString member.1 ++ unit ':' :: member.2

mutual
/-- The serialization of the standard, without white space and with the properties of an object in
the order of the code units of their names. -/
def jcs (fmt : NumberFormat) : JsonValue → Units
  | .null => units "null"
  | .bool true => units "true"
  | .bool false => units "false"
  | .num n => jcsNumber fmt n
  | .str s => jcsString s
  | .arr vs => unit '[' :: (join (jcsAll fmt vs) ++ [unit ']'])
  | .obj fields =>
    unit '\x7b' :: (join ((byKey (jcsFields fmt fields)).map jcsMember) ++ [unit '\x7d'])

def jcsAll (fmt : NumberFormat) : List JsonValue → List Units
  | [] => []
  | v :: vs => jcs fmt v :: jcsAll fmt vs

def jcsFields (fmt : NumberFormat) : List (Units × JsonValue) → List (Units × Units)
  | [] => []
  | f :: fs => jcsField fmt f :: jcsFields fmt fs

def jcsField (fmt : NumberFormat) : Units × JsonValue → Units × Units
  | (key, v) => (key, jcs fmt v)
end

mutual
/-- The strings and the keys in a value. -/
def JsonValue.strings : JsonValue → List Units
  | .null => []
  | .bool _ => []
  | .num _ => []
  | .str s => [s]
  | .arr vs => stringsAll vs
  | .obj fields => stringsFields fields

def JsonValue.stringsAll : List JsonValue → List Units
  | [] => []
  | v :: vs => v.strings ++ stringsAll vs

def JsonValue.stringsFields : List (Units × JsonValue) → List Units
  | [] => []
  | f :: fs => stringsField f ++ stringsFields fs

def JsonValue.stringsField : Units × JsonValue → List Units
  | (key, v) => key :: v.strings
end

/-- No string and no key has a character from `0x7f` on. -/
def JsonValue.Plain (v : JsonValue) : Prop :=
  ∀ s ∈ v.strings, ∀ c ∈ s, c < 0x7f

section jcs
variable (fmt : NumberFormat)

/-- The elements, one by one. -/
lemma jcsAll_eq (vs : List JsonValue) : jcsAll fmt vs = vs.map (jcs fmt) := by
  induction vs with
  | nil => rfl
  | cons v vs ih => rw [jcsAll, ih, List.map_cons]

/-- The members, one by one. -/
lemma jcsFields_eq (fields : List (Units × JsonValue)) :
    jcsFields fmt fields = fields.map fun f => (f.1, jcs fmt f.2) := by
  induction fields with
  | nil => rfl
  | cons f fs ih => rw [jcsFields, ih, List.map_cons, jcsField]

/-- The text of an array under the scheme. -/
lemma jcs_arr (vs : List JsonValue) :
    jcs fmt (.arr vs) = unit '[' :: (join (vs.map (jcs fmt)) ++ [unit ']']) := by
  rw [jcs, jcsAll_eq]

/-- The text of an object under the scheme. -/
lemma jcs_obj (fields : List (Units × JsonValue)) :
    jcs fmt (.obj fields) =
      unit '\x7b' :: (join ((byKey fields).map fun f => jcsMember (f.1, jcs fmt f.2)) ++
        [unit '\x7d']) := by
  rw [jcs, jcsFields_eq, byKey_map, List.map_map]
  rfl

/-- The texts within an array. -/
lemma strings_arr (vs : List JsonValue) :
    (JsonValue.arr vs).strings = vs.flatMap JsonValue.strings := by
  rw [JsonValue.strings]
  induction vs with
  | nil => rfl
  | cons v vs ih => rw [JsonValue.stringsAll, ih, List.flatMap_cons]

/-- The texts within an object, its keys among them. -/
lemma strings_obj (fields : List (Units × JsonValue)) :
    (JsonValue.obj fields).strings = fields.flatMap fun f => f.1 :: f.2.strings := by
  rw [JsonValue.strings]
  induction fields with
  | nil => rfl
  | cons f fs ih => rw [JsonValue.stringsFields, ih, List.flatMap_cons, JsonValue.stringsField]

end jcs

/-! ## Where the two differ -/

/-- The number of characters from `0x7f` on in the strings and the keys. -/
def JsonValue.wide (v : JsonValue) : Nat :=
  v.strings.flatten.countP fun c => 0x7f ≤ c

/-- A value is plain if it has no wide unit. -/
lemma plain_iff_wide {v : JsonValue} : v.Plain ↔ v.wide = 0 := by
  unfold JsonValue.Plain JsonValue.wide
  rw [List.countP_eq_zero]
  constructor
  · intro h c hc
    obtain ⟨s, hs, hcs⟩ := List.mem_flatten.1 hc
    simpa using h s hs c hcs
  · intro h s hs c hc
    simpa using h c (List.mem_flatten.2 ⟨s, hs, hc⟩)

/-- The wide units within an array. -/
lemma wide_arr (vs : List JsonValue) :
    (JsonValue.arr vs).wide = (vs.map JsonValue.wide).sum := by
  unfold JsonValue.wide
  rw [strings_arr]
  induction vs with
  | nil => rfl
  | cons v vs ih =>
    rw [List.flatMap_cons, List.flatten_append, List.countP_append, ih, List.map_cons, List.sum_cons]

/-- The wide units within an object. -/
lemma wide_obj (fields : List (Units × JsonValue)) :
    (JsonValue.obj fields).wide =
      (fields.map fun f => f.1.countP (fun c => 0x7f ≤ c) + f.2.wide).sum := by
  unfold JsonValue.wide
  rw [strings_obj]
  induction fields with
  | nil => rfl
  | cons f fs ih =>
    rw [List.flatMap_cons, List.flatten_append, List.countP_append, ih, List.map_cons, List.sum_cons,
      List.flatten_cons, List.countP_append]

/-- A character from `0x7f` on is one code unit in the standard and six here. -/
lemma serializeUnit_wide {c : UInt16} (h : 0x7f ≤ c) :
    (serializeUnit c).length = (jcsUnit c).length + 5 := by
  have hne (d : UInt16) (hd : d < 0x7f) : c ≠ d := by
    rintro rfl
    exact UInt16.not_lt.2 h hd
  have hliteral : 0x20 ≤ c := UInt16.le_trans (by decide) h
  unfold serializeUnit jcsUnit
  rw [if_neg (hne _ (by decide)), if_neg (hne _ (by decide)),
    if_neg fun hc => UInt16.not_lt.2 h hc.2, if_neg (hne _ (by decide)), if_neg (hne _ (by decide)),
    if_neg (hne _ (by decide)), if_neg (hne _ (by decide)), if_neg (hne _ (by decide)),
    if_neg (not_or.2 ⟨hne _ (by decide), hne _ (by decide)⟩), if_pos hliteral]
  rfl

/-- A plain unit is written as the scheme writes it. -/
lemma serializeUnit_plain {c : UInt16} (h : c < 0x7f) : serializeUnit c = jcsUnit c := by
  unfold serializeUnit jcsUnit
  by_cases hquote : c = 0x22
  · subst hquote
    rfl
  · by_cases hslash : c = 0x5c
    · subst hslash
      rfl
    · have hescaped : ¬ (c = unit '"' ∨ c = unit '\\') := not_or.2 ⟨hquote, hslash⟩
      rw [if_neg hquote, if_neg hslash, if_neg hescaped]
      by_cases hliteral : 0x20 ≤ c
      · rw [if_pos ⟨hliteral, h⟩, if_pos hliteral]
      · rw [if_neg fun hc => hliteral hc.1, if_neg hliteral]
        rfl

/-- Every wide unit takes five more. -/
lemma serializeString_length (s : Units) :
    (serializeString s).length = (jcsString s).length + 5 * s.countP fun c => 0x7f ≤ c := by
  have hunits : (s.flatMap serializeUnit).length =
      (s.flatMap jcsUnit).length + 5 * s.countP fun c => 0x7f ≤ c := by
    induction s with
    | nil => rfl
    | cons c s ih =>
      rw [List.flatMap_cons, List.flatMap_cons, List.length_append, List.length_append,
        List.countP_cons, ih]
      by_cases hc : 0x7f ≤ c
      · rw [serializeUnit_wide hc, if_pos (decide_eq_true hc)]
        omega
      · rw [serializeUnit_plain (UInt16.not_le.1 hc), if_neg (by simpa using hc)]
        omega
  unfold serializeString jcsString
  simp only [List.length_cons, List.length_append, hunits]
  omega

/-- A plain text is written as the scheme writes it. -/
lemma serializeString_plain {s : Units} (h : ∀ c ∈ s, c < 0x7f) :
    serializeString s = jcsString s := by
  unfold serializeString jcsString
  rw [List.flatMap_congr fun c hc => serializeUnit_plain (h c hc)]

/-- The lengths of joined texts, from those of the texts. -/
lemma join_length {α : Type} {xs : List α} {f g : α → Units} {k : α → Nat}
    (h : ∀ x ∈ xs, (f x).length = (g x).length + 5 * k x) :
    (join (xs.map f)).length = (join (xs.map g)).length + 5 * (xs.map k).sum := by
  have hrest : ∀ ys : List α, (∀ x ∈ ys, (f x).length = (g x).length + 5 * k x) →
      (joinRest (ys.map f)).length = (joinRest (ys.map g)).length + 5 * (ys.map k).sum := by
    intro ys hys
    induction ys with
    | nil => rfl
    | cons y ys ih =>
      obtain ⟨hy, hys⟩ := List.forall_mem_cons.1 hys
      simp only [List.map_cons, joinRest, List.length_cons, List.length_append, List.sum_cons, ih hys,
        hy]
      omega
  cases xs with
  | nil => rfl
  | cons x xs =>
    obtain ⟨hx, hxs⟩ := List.forall_mem_cons.1 h
    simp only [List.map_cons, join, List.length_append, List.sum_cons, hrest xs hxs, hx]
    omega

/-- The canonical text is longer by five for every wide unit. -/
lemma serializeCanonical_length (fmt : NumberFormat) (v : JsonValue) :
    (serializeCanonical fmt v).length = (jcs fmt v).length + 5 * v.wide := by
  -- induction on the value: only strings and keys are written longer
  induction v with
  | null => rfl
  | bool b => cases b <;> rfl
  | num n =>
    rw [serializeCanonical, jcs, serializeNumber_unsigned]
    rfl
  | str s =>
    rw [serializeCanonical, jcs, serializeString_length]
    simp [JsonValue.wide, JsonValue.strings]
  | arr vs ih =>
    rw [serializeCanonical_arr, jcs_arr, wide_arr]
    simp only [List.length_cons, List.length_append, join_length ih]
    omega
  | obj fields ih =>
    have hmember (f : Units × JsonValue) (hf : f ∈ byKey fields) :
        (serializeMember (f.1, serializeCanonical fmt f.2)).length =
          (jcsMember (f.1, jcs fmt f.2)).length +
            5 * (f.1.countP (fun c => 0x7f ≤ c) + f.2.wide) := by
      simp only [serializeMember, jcsMember, List.length_append, List.length_cons,
        serializeString_length, ih f (mem_byKey.1 hf)]
      omega
    have hmembers := join_length hmember
    rw [serializeCanonical_obj, jcs_obj, wide_obj, ← ((byKey_perm fields).map _).sum_nat]
    simp only [List.length_cons, List.length_append, hmembers]
    omega

/-- The canonical text of a value is that of RFC 8785 if and only if no string and no key in it has a
character from `0x7f` on. -/
theorem canonical_eq_jcs_iff (fmt : NumberFormat) (v : JsonValue) :
    canonicalJsonString fmt v = jcs fmt v ↔ v.Plain := by
  unfold canonicalJsonString
  constructor
  -- the texts differ in length as soon as one unit is written as an escape
  · intro heq
    have hlength := serializeCanonical_length fmt v
    rw [heq] at hlength
    exact plain_iff_wide.2 (by omega)
  · intro hplain
    induction v with
    | null => rfl
    | bool b => cases b <;> rfl
    | num n =>
      rw [serializeCanonical, jcs, serializeNumber_unsigned]
      rfl
    | str s =>
      rw [serializeCanonical, jcs]
      exact serializeString_plain (hplain s (by simp [JsonValue.strings]))
    | arr vs ih =>
      unfold JsonValue.Plain at hplain
      rw [strings_arr] at hplain
      rw [serializeCanonical_arr, jcs_arr]
      refine congrArg (fun ts => unit '[' :: (join ts ++ [unit ']'])) ?_
      exact List.map_congr_left fun v hv =>
        ih v hv fun s hs => hplain s (List.mem_flatMap.2 ⟨v, hv, hs⟩)
    | obj fields ih =>
      unfold JsonValue.Plain at hplain
      rw [strings_obj] at hplain
      rw [serializeCanonical_obj, jcs_obj]
      refine congrArg (fun ts => unit '\x7b' :: (join ts ++ [unit '\x7d'])) ?_
      refine List.map_congr_left fun f hf => ?_
      have hf := mem_byKey.1 hf
      have hkey := hplain f.1 (List.mem_flatMap.2 ⟨f, hf, List.mem_cons_self ..⟩)
      have hvalue := ih f hf fun s hs =>
        hplain s (List.mem_flatMap.2 ⟨f, hf, List.mem_cons_of_mem _ hs⟩)
      unfold serializeMember jcsMember
      rw [serializeString_plain hkey, hvalue]

/-! ## A number format -/

/-- The number with the bits that a decimal text denotes. -/
def readBits (s : Units) : Option Number :=
  let bits := (decimalValue s).toUInt64
  if h : (bits >>> 52) &&& 0x7ff ≠ 0x7ff then some ⟨bits, h⟩ else none

/-- The bits of a number in decimal. -/
def formatBits (n : Number) : Units :=
  decimalUnits n.bits.toNat

/-- The bits of a number are read back. -/
lemma readBits_formatBits (n : Number) : readBits (formatBits n) = some n := by
  have hbits : (decimalValue (formatBits n)).toUInt64 = n.bits := by
    unfold formatBits
    rw [decimalValue_decimalUnits]
    exact UInt64.ofNat_toNat
  unfold readBits
  dsimp only
  simp only [hbits]
  exact dif_pos n.finite

/-- A format that writes zero as the language does, and any other number by its bits. -/
def bitsFormat : NumberFormat where
  format := formatBits
  read := readBits
  format_zero := rfl
  read_format n _ := readBits_formatBits n
  format_head n _ := by
    obtain ⟨c, cs, hcs⟩ := List.exists_cons_of_ne_nil (decimalUnits_ne_nil n.bits.toNat)
    exact ⟨c, cs, hcs, .inl (decimalUnits_digits _ c (hcs ▸ List.mem_cons_self ..))⟩
  format_units n _ c hc := by
    unfold isNumberUnit
    rw [decimalUnits_digits _ c hc]
    rfl

/-- The standard leaves an accented letter as it is. -/
theorem accent_escaped :
    canonicalJsonString bitsFormat (.str [0xe9]) ≠ jcs bitsFormat (.str [0xe9]) := by
  decide +kernel

end NexusClaw.AuditChain
