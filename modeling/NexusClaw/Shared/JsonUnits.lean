import NexusClaw.JsonText
import NexusClaw.Shared.CompactText

/-!
# The two models of JSON

`Json` has strings of characters, `JsonValue` strings of UTF-16 code units. `utf16` is the encoding
between them, and `SameNumbers.toValue` the value that a `Json` is there. The text of a value is the
same in both models (`utf16_text`), and both read it as the same value (`parse_agrees`).
-/

namespace NexusClaw.JsonUnits
open AuditChain (Units JsonValue Number unit units join joinRest serializeNumber jcsUnit
  serializeNumber_unsigned)
open MetadataRuntime (isHigh isLow quoteUnit quoteUnits unsign unsignAll unsignField unsignFields)
open CompactText (stringify stringifyAll stringifyField stringifyFields member parse_stringify)

/-! ## Encoding -/

/-- The first unit of a surrogate pair. -/
def highUnit (c : Char) : UInt16 :=
  (0xd800 + (c.toNat - 0x10000) / 0x400).toUInt16

/-- The second unit of a surrogate pair. -/
def lowUnit (c : Char) : UInt16 :=
  (0xdc00 + (c.toNat - 0x10000) % 0x400).toUInt16

/-- The code units of a character. -/
def charUnits (c : Char) : Units :=
  if c.toNat < 0x10000 then [unit c] else [highUnit c, lowUnit c]

/-- The code units of a text. -/
def utf16 (text : List Char) : Units :=
  text.flatMap charUnits

section units
variable {c d : Char}

/-- A character is no surrogate, and within Unicode. -/
lemma toNat_valid (c : Char) : c.toNat < 0xd800 ∨ 0xdfff < c.toNat ∧ c.toNat < 0x110000 :=
  c.valid

/-- A character of the first plane is its unit. -/
lemma unit_toNat (h : c.toNat < 0x10000) : (unit c).toNat = c.toNat :=
  UInt16.toNat_ofNat.trans (Nat.mod_eq_of_lt h)

/-- The first surrogate has the upper ten bits. -/
lemma highUnit_toNat (h : ¬ c.toNat < 0x10000) :
    (highUnit c).toNat = 0xd800 + (c.toNat - 0x10000) / 0x400 := by
  have hvalid := toNat_valid c
  have hlt : 0xd800 + (c.toNat - 0x10000) / 0x400 < 2 ^ 16 := by omega
  exact UInt16.toNat_ofNat.trans (Nat.mod_eq_of_lt hlt)

/-- The second surrogate has the lower ten bits. -/
lemma lowUnit_toNat : (lowUnit c).toNat = 0xdc00 + (c.toNat - 0x10000) % 0x400 := by
  have hlt : 0xdc00 + (c.toNat - 0x10000) % 0x400 < 2 ^ 16 := by omega
  exact UInt16.toNat_ofNat.trans (Nat.mod_eq_of_lt hlt)

/-- The test for a high surrogate, on numbers. -/
lemma isHigh_iff {u : UInt16} : isHigh u = true ↔ 0xd800 ≤ u.toNat ∧ u.toNat < 0xdc00 := by
  unfold isHigh
  rw [decide_eq_true_iff]
  exact Iff.rfl

/-- The test for a low surrogate, on numbers. -/
lemma isLow_iff {u : UInt16} : isLow u = true ↔ 0xdc00 ≤ u.toNat ∧ u.toNat < 0xe000 := by
  unfold isLow
  rw [decide_eq_true_iff]
  exact Iff.rfl

/-- The unit of a character of the first plane is no high surrogate. -/
lemma not_isHigh_unit (h : c.toNat < 0x10000) : ¬ isHigh (unit c) = true := by
  have hvalid := toNat_valid c
  rw [isHigh_iff, unit_toNat h]
  omega

/-- Nor a low one. -/
lemma not_isLow_unit (h : c.toNat < 0x10000) : ¬ isLow (unit c) = true := by
  have hvalid := toNat_valid c
  rw [isLow_iff, unit_toNat h]
  omega

/-- The other characters begin with a high surrogate. -/
lemma isHigh_highUnit (h : ¬ c.toNat < 0x10000) : isHigh (highUnit c) = true := by
  have hvalid := toNat_valid c
  rw [isHigh_iff, highUnit_toNat h]
  omega

/-- And end with a low one. -/
lemma isLow_lowUnit : isLow (lowUnit c) = true := by
  rw [isLow_iff, lowUnit_toNat]
  omega

/-- A character is read off its number. -/
lemma char_ext (h : c.toNat = d.toNat) : c = d :=
  Char.ext (UInt32.toNat_inj.1 h)

/-- A text is read off its units. -/
lemma utf16_injective : Function.Injective utf16 := by
  intro s
  induction s with
  | nil =>
    intro t h
    cases t with
    | nil => rfl
    | cons d t =>
      unfold utf16 charUnits at h
      rw [List.flatMap_cons] at h
      split_ifs at h <;> cases h
  | cons c s ih =>
    intro t h
    cases t with
    | nil =>
      unfold utf16 charUnits at h
      rw [List.flatMap_cons] at h
      split_ifs at h <;> cases h
    | cons d t =>
      unfold utf16 at h
      rw [List.flatMap_cons, List.flatMap_cons] at h
      unfold charUnits at h
      split_ifs at h with hc hd hd
      · obtain ⟨hunit, hrest⟩ := List.cons.inj h
        have hnat := congrArg UInt16.toNat hunit
        rw [unit_toNat hc, unit_toNat hd] at hnat
        rw [char_ext hnat, ih hrest]
      · -- one begins with a surrogate, and the other does not
        obtain ⟨hunit, -⟩ := List.cons.inj h
        exact absurd (hunit ▸ isHigh_highUnit hd) (not_isHigh_unit hc)
      · obtain ⟨hunit, -⟩ := List.cons.inj h
        exact absurd (hunit ▸ isHigh_highUnit hc) (not_isHigh_unit hd)
      · obtain ⟨hhigh, hrest⟩ := List.cons.inj h
        obtain ⟨hlow, hrest⟩ := List.cons.inj hrest
        have hhighs := congrArg UInt16.toNat hhigh
        have hlows := congrArg UInt16.toNat hlow
        rw [highUnit_toNat hc, highUnit_toNat hd] at hhighs
        rw [lowUnit_toNat, lowUnit_toNat] at hlows
        have hnat : c.toNat = d.toNat := by omega
        rw [char_ext hnat, ih hrest]

/-- Texts are encoded one after the other. -/
lemma utf16_append (s t : List Char) : utf16 (s ++ t) = utf16 s ++ utf16 t :=
  List.flatMap_append

/-- A text is encoded character by character. -/
lemma utf16_cons (c : Char) (s : List Char) : utf16 (c :: s) = charUnits c ++ utf16 s :=
  List.flatMap_cons

end units

/-! ## Strings -/

section strings
variable {c : Char} {u : UInt16}

/-- Beyond ASCII nothing is escaped. -/
lemma quoteChar_wide (h : 128 ≤ c.toNat) : Json.quoteChar c = [c] := by
  have hne : ∀ d : Char, d.toNat < 128 → c ≠ d := by
    rintro d hd rfl
    omega
  unfold Json.quoteChar
  rw [if_neg (hne _ (by decide)), if_neg (hne _ (by decide)), if_neg (hne _ (by decide)),
    if_neg (hne _ (by decide)), if_neg (hne _ (by decide)), if_neg (hne _ (by decide)),
    if_neg (hne _ (by decide)), if_neg (by omega)]

/-- Nor is its unit. -/
lemma jcsUnit_wide (h : 128 ≤ u.toNat) : jcsUnit u = [u] := by
  have hne : ∀ v : UInt16, v.toNat < 128 → u ≠ v := by
    rintro v hv rfl
    omega
  have hliteral : 0x20 ≤ u := UInt16.le_iff_toNat_le.2 (Nat.le_trans (by decide) h)
  unfold jcsUnit
  rw [if_neg (not_or.2 ⟨hne _ (by decide), hne _ (by decide)⟩), if_pos hliteral]

/-- An ASCII character is escaped as its unit is. -/
lemma quoteChar_ascii (h : c.toNat < 128) : utf16 (Json.quoteChar c) = jcsUnit (unit c) := by
  have hall : ∀ n : Fin 128,
      utf16 (Json.quoteChar (Char.ofNat n.val)) = jcsUnit (unit (Char.ofNat n.val)) := by
    decide +kernel
  have hchar := hall ⟨c.toNat, h⟩
  rwa [Char.ofNat_toNat] at hchar

/-- A unit that is no surrogate is quoted on its own. -/
lemma quoteUnits_cons (hhigh : ¬ isHigh u = true) (hlow : ¬ isLow u = true) (rest : Units) :
    quoteUnits (u :: rest) = jcsUnit u ++ quoteUnits rest := by
  have hquote : quoteUnit u = jcsUnit u := by
    unfold quoteUnit
    rw [if_neg (not_or.2 ⟨hhigh, hlow⟩)]
  cases rest with
  | nil => rw [quoteUnits, quoteUnits, hquote, List.append_nil]
  | cons d rest => rw [quoteUnits, if_neg fun h => hhigh h.1, hquote]

/-- A character is quoted as its units are. -/
lemma quoteUnits_charUnits (c : Char) (rest : Units) :
    quoteUnits (charUnits c ++ rest) = utf16 (Json.quoteChar c) ++ quoteUnits rest := by
  by_cases hplane : c.toNat < 0x10000
  · unfold charUnits
    rw [if_pos hplane, List.singleton_append,
      quoteUnits_cons (not_isHigh_unit hplane) (not_isLow_unit hplane)]
    by_cases hascii : c.toNat < 128
    · rw [quoteChar_ascii hascii]
    · have hwide : 128 ≤ c.toNat := Nat.not_lt.1 hascii
      rw [jcsUnit_wide ((unit_toNat hplane).symm ▸ hwide), quoteChar_wide hwide, utf16_cons,
        charUnits, if_pos hplane]
      rfl
  · -- a surrogate pair is literal
    rw [quoteChar_wide (by omega), utf16_cons]
    unfold charUnits
    rw [if_neg hplane]
    show quoteUnits (highUnit c :: lowUnit c :: rest) = _
    rw [quoteUnits, if_pos ⟨isHigh_highUnit hplane, isLow_lowUnit⟩]
    rfl

/-- A text is quoted as its units are. -/
lemma quoteUnits_utf16 (s : List Char) : quoteUnits (utf16 s) = utf16 (s.flatMap Json.quoteChar) := by
  induction s with
  | nil => rfl
  | cons c s ih => rw [utf16_cons, quoteUnits_charUnits, ih, List.flatMap_cons, utf16_append]

/-- So is a string between quotation marks. -/
lemma utf16_quote (s : String) : utf16 (Json.quote s) = MetadataRuntime.quote (utf16 s.toList) := by
  unfold Json.quote MetadataRuntime.quote
  rw [utf16_cons, utf16_append, quoteUnits_utf16]
  rfl

end strings

/-! ## Values -/

/-- Numbers that both models write in the same way. No number here is the negative zero. -/
structure SameNumbers (fmt : Json.NumberFormat) (fmt' : AuditChain.NumberFormat) where
  number : Rat → Number
  unsigned : ∀ n, (number n).unsigned = number n
  format : ∀ n, fmt.finite n → utf16 (fmt.format n) = fmt'.format (number n)

section values
variable {fmt : Json.NumberFormat} {fmt' : AuditChain.NumberFormat} (numbers : SameNumbers fmt fmt')

mutual
/-- The value in the model of code units. -/
def SameNumbers.toValue : Json → JsonValue
  | .null => .null
  | .bool b => .bool b
  | .num n => .num (numbers.number n)
  | .str s => .str (utf16 s.toList)
  | .arr xs => .arr (SameNumbers.toValues xs)
  | .obj fields => .obj (SameNumbers.toMembers fields)

def SameNumbers.toValues : List Json → List JsonValue
  | [] => []
  | v :: vs => SameNumbers.toValue v :: SameNumbers.toValues vs

def SameNumbers.toMembers : List (String × Json) → List (Units × JsonValue)
  | [] => []
  | f :: fs => SameNumbers.toMember f :: SameNumbers.toMembers fs

def SameNumbers.toMember : String × Json → Units × JsonValue
  | (name, v) => (utf16 name.toList, SameNumbers.toValue v)
end

mutual
/-- The text of a value is the same in both models. -/
theorem utf16_text (v : Json) (h : v.WellFormed fmt) :
    utf16 (Json.text fmt v) = stringify fmt' (numbers.toValue v) := by
  cases v with
  | null => rfl
  | bool b => cases b <;> rfl
  | num n =>
    rw [Json.text, SameNumbers.toValue, stringify, serializeNumber_unsigned, numbers.unsigned]
    exact numbers.format n h
  | str s => exact utf16_quote s
  | arr xs =>
    cases xs with
    | nil => rfl
    | cons x xs =>
      rw [Json.text, utf16_cons, utf16_append, utf16_text x h.1, utf16_elements xs h.2,
        SameNumbers.toValue, SameNumbers.toValues, stringify, stringifyAll, join, List.append_assoc]
      rfl
  | obj fields =>
    cases fields with
    | nil => rfl
    | cons f fs =>
      rw [Json.text, utf16_cons, utf16_append, utf16_member f h.2.1, utf16_members fs h.2.2,
        SameNumbers.toValue, SameNumbers.toMembers, stringify, stringifyFields, join,
        List.append_assoc]
      rfl

/-- So are the elements of an array behind the first. -/
theorem utf16_elements (vs : List Json) (h : Json.WellFormedAll fmt vs) :
    utf16 (Json.textElements fmt vs) =
      joinRest (stringifyAll fmt' (numbers.toValues vs)) ++ [unit ']'] := by
  cases vs with
  | nil => rfl
  | cons v vs =>
    rw [Json.textElements, utf16_cons, utf16_append, utf16_text v h.1, utf16_elements vs h.2,
      SameNumbers.toValues, stringifyAll, joinRest, List.cons_append, List.append_assoc]
    rfl

/-- So is a member of an object. -/
theorem utf16_member (f : String × Json) (h : Json.WellFormedField fmt f) :
    utf16 (Json.textMember fmt f) = stringifyField fmt' (numbers.toMember f) := by
  obtain ⟨name, v⟩ := f
  rw [Json.textMember, utf16_append, utf16_cons, utf16_quote, utf16_text v h]
  rfl

/-- And the members behind the first. -/
theorem utf16_members (fs : List (String × Json)) (h : Json.WellFormedFields fmt fs) :
    utf16 (Json.textMembers fmt fs) =
      joinRest (stringifyFields fmt' (numbers.toMembers fs)) ++ [unit '\x7d'] := by
  cases fs with
  | nil => rfl
  | cons f fs =>
    rw [Json.textMembers, utf16_cons, utf16_append, utf16_member f h.1, utf16_members fs h.2,
      SameNumbers.toMembers, stringifyFields, joinRest, List.cons_append, List.append_assoc]
    rfl
end

/-- The keys of an object are encoded. -/
lemma keys_toMembers (fs : List (String × Json)) :
    (numbers.toMembers fs).map Prod.fst = (fs.map Prod.fst).map fun name => utf16 name.toList := by
  induction fs with
  | nil => rfl
  | cons f fs ih =>
    obtain ⟨name, v⟩ := f
    rw [SameNumbers.toMembers, List.map_cons, ih]
    rfl

/-- Different names stay different. -/
lemma nodup_toMembers {fs : List (String × Json)} (h : (fs.map Prod.fst).Nodup) :
    ((numbers.toMembers fs).map Prod.fst).Nodup := by
  rw [keys_toMembers]
  exact h.map fun s t hst => String.toList_injective (utf16_injective hst)

mutual
/-- No object of the value repeats a key. -/
lemma distinct_toValue (v : Json) (h : v.WellFormed fmt) : (numbers.toValue v).Distinct := by
  cases v with
  | null => trivial
  | bool b => trivial
  | num n => trivial
  | str s => trivial
  | arr xs => exact distinct_toValues xs h
  | obj fields => exact ⟨nodup_toMembers numbers h.1, distinct_toMembers fields h.2⟩

/-- Nor does one of its elements. -/
lemma distinct_toValues (vs : List Json) (h : Json.WellFormedAll fmt vs) :
    JsonValue.DistinctAll (numbers.toValues vs) := by
  cases vs with
  | nil => trivial
  | cons v vs => exact ⟨distinct_toValue v h.1, distinct_toValues vs h.2⟩

/-- Nor one of its members. -/
lemma distinct_toMembers (fs : List (String × Json)) (h : Json.WellFormedFields fmt fs) :
    JsonValue.DistinctFields (numbers.toMembers fs) := by
  cases fs with
  | nil => trivial
  | cons f fs =>
    obtain ⟨name, v⟩ := f
    exact ⟨distinct_toValue v h.1, distinct_toMembers fs h.2⟩
end

mutual
/-- A value without a negative zero loses no sign. -/
lemma unsign_toValue (v : Json) : unsign (numbers.toValue v) = numbers.toValue v := by
  cases v with
  | null => rfl
  | bool b => rfl
  | num n => rw [SameNumbers.toValue, unsign, numbers.unsigned]
  | str s => rfl
  | arr xs => rw [SameNumbers.toValue, unsign, unsignAll_toValues xs]
  | obj fields => rw [SameNumbers.toValue, unsign, unsignFields_toMembers fields]

/-- Nor do its elements. -/
lemma unsignAll_toValues (vs : List Json) :
    unsignAll (numbers.toValues vs) = numbers.toValues vs := by
  cases vs with
  | nil => rfl
  | cons v vs => rw [SameNumbers.toValues, unsignAll, unsign_toValue v, unsignAll_toValues vs]

/-- Nor its members. -/
lemma unsignFields_toMembers (fs : List (String × Json)) :
    unsignFields (numbers.toMembers fs) = numbers.toMembers fs := by
  cases fs with
  | nil => rfl
  | cons f fs =>
    obtain ⟨name, v⟩ := f
    rw [SameNumbers.toMembers, unsignFields, SameNumbers.toMember, unsignField, unsign_toValue v,
      unsignFields_toMembers fs]
end

/-- Both models read a text that `JSON.stringify` wrote, and as the same value. -/
theorem parse_agrees {v : Json} (h : v.WellFormed fmt) :
    AuditChain.parse fmt' (utf16 (Json.text fmt v)) =
      (Json.parse fmt (Json.text fmt v)).map numbers.toValue := by
  rw [Json.parse_text h, utf16_text numbers v h, parse_stringify fmt' (distinct_toValue numbers v h),
    unsign_toValue]
  rfl

end values

end NexusClaw.JsonUnits
