import Mathlib.Tactic.Common
import Mathlib.Data.List.Lex
import Mathlib.Data.List.Sort
import Mathlib.Data.List.Nodup
import Mathlib.Data.Nat.Digits.Lemmas

/-!
# JSON values of the audit chain

The values that `isJsonValue` accepts. A string is the list of its UTF-16 code units, lone surrogates
included, and a number is a finite double by its bits, so the two zeros are two numbers. Two values
are the same (`Same`) when they differ at most in the order of the keys and in the sign of a zero;
`normal` picks one of them, and `same_iff_normal` says that it is the right one.
-/

namespace NexusClaw.AuditChain

/-- A string, by its code units. -/
abbrev Units : Type :=
  List UInt16

instance : LawfulBEq Units :=
  inferInstance

/-- A condition on the code units of a text is decided by going through the text, not through all code
units. -/
instance (priority := high) decidableForallUnits {p : UInt16 → Prop} [DecidablePred p] (s : Units) :
    Decidable (∀ c ∈ s, p c) :=
  List.decidableBAll p s

/-- The code unit of an ASCII character. -/
def unit (c : Char) : UInt16 :=
  c.toNat.toUInt16

/-- The code units of a text of the source. -/
def units (s : String) : Units :=
  s.toList.map unit

/-! ## Decimal numbers -/

def isDigit (c : UInt16) : Bool :=
  unit '0' ≤ c && c ≤ unit '9'

def digitUnit (d : Nat) : UInt16 :=
  unit '0' + d.toUInt16

def digitValue (c : UInt16) : Nat :=
  c.toNat - (unit '0').toNat

/-- A natural number in decimal, without leading zeros. -/
def decimalUnits (n : Nat) : Units :=
  if n = 0 then units "0" else (Nat.digits 10 n).reverse.map digitUnit

/-- The value of decimal digits. -/
def decimalValue (s : Units) : Nat :=
  Nat.ofDigits 10 (s.reverse.map digitValue)

/-- A digit is read as its value. -/
lemma digitUnit_digit {d : Nat} (h : d < 10) :
    digitValue (digitUnit d) = d ∧ isDigit (digitUnit d) = true := by
  have hall : ∀ d : Fin 10, digitValue (digitUnit d) = d.val ∧ isDigit (digitUnit d) = true := by
    decide
  exact hall ⟨d, h⟩

/-- A decimal number is read back. -/
lemma decimalValue_decimalUnits (n : Nat) : decimalValue (decimalUnits n) = n := by
  unfold decimalValue decimalUnits
  split_ifs with hzero
  · rw [hzero]
    rfl
  · have hdigits : (((Nat.digits 10 n).reverse.map digitUnit).reverse).map digitValue =
        Nat.digits 10 n := by
      rw [List.map_reverse, List.map_reverse, List.map_reverse, List.reverse_reverse, List.map_map]
      refine (List.map_congr_left fun d hd => ?_).trans (List.map_id _)
      exact (digitUnit_digit (Nat.digits_lt_base (by decide) hd)).1
    rw [hdigits, Nat.ofDigits_digits]

/-- A decimal number is written in digits. -/
lemma decimalUnits_digits (n : Nat) : ∀ c ∈ decimalUnits n, isDigit c = true := by
  unfold decimalUnits
  split_ifs with hzero
  · have hunits : units "0" = [unit '0'] := rfl
    intro c hc
    rw [hunits, List.mem_singleton] at hc
    subst hc
    rfl
  · intro c hc
    obtain ⟨d, hd, rfl⟩ := List.mem_map.1 hc
    exact (digitUnit_digit (Nat.digits_lt_base (by decide) (List.mem_reverse.1 hd))).2

/-- A decimal number has a digit. -/
lemma decimalUnits_ne_nil (n : Nat) : decimalUnits n ≠ [] := by
  unfold decimalUnits
  split_ifs with hzero
  · decide
  · intro hnil
    rw [List.map_eq_nil_iff, List.reverse_eq_nil_iff, Nat.digits_eq_nil_iff_eq_zero] at hnil
    exact hzero hnil

/-! ## Values -/

/-- A finite double: the exponent is not all ones. -/
structure Number where
  bits : UInt64
  finite : (bits >>> 52) &&& 0x7ff ≠ 0x7ff
deriving DecidableEq

namespace Number

def zero : Number := ⟨0, by decide⟩

def negZero : Number := ⟨0x8000000000000000, by decide⟩

/-- The number without the sign of a zero. -/
def unsigned (n : Number) : Number :=
  if n = negZero then zero else n

/-- A sign is lost once. -/
@[simp] lemma unsigned_unsigned (n : Number) : n.unsigned.unsigned = n.unsigned := by
  unfold unsigned
  split_ifs with h hzero
  · exact absurd hzero (by decide)
  · rfl
  · rfl

/-- A number without its sign is not the negative zero. -/
lemma unsigned_ne_negZero (n : Number) : n.unsigned ≠ negZero := by
  unfold unsigned
  split_ifs with h
  · decide
  · exact h

end Number

inductive JsonValue where
  | null
  | bool (b : Bool)
  | num (n : Number)
  | str (s : Units)
  | arr (vs : List JsonValue)
  | obj (fields : List (Units × JsonValue))

/-! ## Order of the keys -/

/-- The members of an object in the order of their keys: by code unit, the shorter one first. -/
def byKey {α : Type} (members : List (Units × α)) : List (Units × α) :=
  members.insertionSort fun f g => f.1.map UInt16.toNat ≤ g.1.map UInt16.toNat

section byKey
variable {α β : Type}

/-- Sorted members are the members. -/
lemma byKey_perm (members : List (Units × α)) : (byKey members).Perm members :=
  List.perm_insertionSort _ _

/-- Sorting keeps the members. -/
@[simp] lemma mem_byKey {members : List (Units × α)} {f : Units × α} :
    f ∈ byKey members ↔ f ∈ members :=
  (byKey_perm members).mem_iff

/-- Sorting keeps the keys. -/
lemma byKey_keys_perm (members : List (Units × α)) :
    ((byKey members).map Prod.fst).Perm (members.map Prod.fst) :=
  (byKey_perm members).map _

/-- Only the keys decide the order. -/
lemma byKey_map (g : α → β) (members : List (Units × α)) :
    byKey (members.map fun f => (f.1, g f.2)) = (byKey members).map fun f => (f.1, g f.2) := by
  unfold byKey
  symm
  apply List.map_insertionSort
  exact fun _ _ _ _ => Iff.rfl

/-- Sorted members are in the order of their keys. -/
lemma byKey_sorted (members : List (Units × α)) :
    (byKey members).Pairwise fun f g => f.1.map UInt16.toNat ≤ g.1.map UInt16.toNat := by
  have : Std.Total fun f g : Units × α => f.1.map UInt16.toNat ≤ g.1.map UInt16.toNat :=
    ⟨fun f g => le_total (f.1.map UInt16.toNat) (g.1.map UInt16.toNat)⟩
  have : IsTrans (Units × α) fun f g => f.1.map UInt16.toNat ≤ g.1.map UInt16.toNat :=
    ⟨fun f g h => le_trans⟩
  exact List.pairwise_insertionSort _ _

/-- Sorted members stay. -/
lemma byKey_byKey (members : List (Units × α)) : byKey (byKey members) = byKey members :=
  (byKey_sorted members).insertionSort_eq

/-- What is found under a key, where no key comes twice. -/
lemma lookup_eq_some {β : Type} {es : List (Units × β)} {key : Units} {v : β}
    (hnodup : (es.map Prod.fst).Nodup) : es.lookup key = some v ↔ (key, v) ∈ es := by
  constructor
  · intro h
    obtain ⟨before, after, rfl, -⟩ := List.lookup_eq_some_iff.1 h
    exact List.mem_append_right _ List.mem_cons_self
  · intro hmem
    obtain ⟨before, after, rfl⟩ := List.append_of_mem hmem
    refine List.lookup_eq_some_iff.2 ⟨before, after, rfl, fun f hf => ?_⟩
    rw [List.map_append, List.nodup_append] at hnodup
    rw [bne_iff_ne]
    exact (hnodup.2.2 f.1 (List.mem_map_of_mem hf) key List.mem_cons_self).symm

/-- Keys with the same code units are the same. -/
lemma key_toNat_injective : Function.Injective (List.map UInt16.toNat) :=
  List.map_injective_iff.2 fun _ _ => UInt16.toNat_inj.1

/-- Members with distinct keys have one order. -/
lemma byKey_eq_of_perm {fs gs : List (Units × α)} (hperm : fs.Perm gs)
    (hnodup : (fs.map Prod.fst).Nodup) : byKey fs = byKey gs := by
  refine List.Perm.eq_of_pairwise ?_ (byKey_sorted fs) (byKey_sorted gs)
    (((byKey_perm fs).trans hperm).trans (byKey_perm gs).symm)
  intro f g hf hg hle hge
  have hkey : f.1 = g.1 := key_toNat_injective (le_antisymm hle hge)
  exact List.inj_on_of_nodup_map hnodup (mem_byKey.1 hf) (hperm.mem_iff.2 (mem_byKey.1 hg)) hkey

end byKey

namespace JsonValue

/-- Induction over a value: the parts of an array, and the values of an object. -/
@[elab_as_elim, induction_eliminator]
lemma induct {P : JsonValue → Prop} (null : P .null) (bool : ∀ b, P (.bool b))
    (num : ∀ n, P (.num n)) (str : ∀ s, P (.str s)) (arr : ∀ vs, (∀ v ∈ vs, P v) → P (.arr vs))
    (obj : ∀ fields, (∀ f ∈ fields, P f.2) → P (.obj fields)) (v : JsonValue) : P v :=
  @JsonValue.rec P (fun vs => ∀ v ∈ vs, P v) (fun fields => ∀ f ∈ fields, P f.2) (fun f => P f.2)
    null bool num str arr obj (List.forall_mem_nil _)
    (fun _ _ hv hvs => List.forall_mem_cons.2 ⟨hv, hvs⟩) (List.forall_mem_nil _)
    (fun _ _ hf hfs => List.forall_mem_cons.2 ⟨hf, hfs⟩) (fun _ _ hv => hv) v

/-! ## Well-formed values -/

mutual
/-- No object has a key twice. -/
def Distinct : JsonValue → Prop
  | .null => True
  | .bool _ => True
  | .num _ => True
  | .str _ => True
  | .arr vs => DistinctAll vs
  | .obj fields => (fields.map Prod.fst).Nodup ∧ DistinctFields fields

def DistinctAll : List JsonValue → Prop
  | [] => True
  | v :: vs => Distinct v ∧ DistinctAll vs

def DistinctFields : List (Units × JsonValue) → Prop
  | [] => True
  | f :: fs => DistinctField f ∧ DistinctFields fs

def DistinctField : Units × JsonValue → Prop
  | (_, v) => Distinct v
end

/-- The elements of an array, one by one. -/
lemma distinctAll_iff {vs : List JsonValue} : DistinctAll vs ↔ ∀ v ∈ vs, Distinct v := by
  induction vs with
  | nil => simp [DistinctAll]
  | cons v vs ih => simp [DistinctAll, ih]

/-- The members of an object, one by one. -/
lemma distinctFields_iff {fields : List (Units × JsonValue)} :
    DistinctFields fields ↔ ∀ f ∈ fields, Distinct f.2 := by
  induction fields with
  | nil => simp [DistinctFields]
  | cons f fs ih =>
    obtain ⟨key, v⟩ := f
    rw [DistinctFields, DistinctField, ih, List.forall_mem_cons]

/-- An array repeats no key if no element does. -/
@[simp] lemma distinct_arr {vs : List JsonValue} :
    Distinct (.arr vs) ↔ ∀ v ∈ vs, Distinct v :=
  distinctAll_iff

/-- An object repeats no key if neither its keys nor its members do. -/
@[simp] lemma distinct_obj {fields : List (Units × JsonValue)} :
    Distinct (.obj fields) ↔ (fields.map Prod.fst).Nodup ∧ ∀ f ∈ fields, Distinct f.2 :=
  and_congr Iff.rfl distinctFields_iff

/-! ## Normal form -/

mutual
/-- The value with every object in the order of its keys and every zero without its sign. -/
def normal : JsonValue → JsonValue
  | .null => .null
  | .bool b => .bool b
  | .num n => .num n.unsigned
  | .str s => .str s
  | .arr vs => .arr (normalAll vs)
  | .obj fields => .obj (byKey (normalFields fields))

def normalAll : List JsonValue → List JsonValue
  | [] => []
  | v :: vs => normal v :: normalAll vs

def normalFields : List (Units × JsonValue) → List (Units × JsonValue)
  | [] => []
  | f :: fs => normalField f :: normalFields fs

def normalField : Units × JsonValue → Units × JsonValue
  | (key, v) => (key, normal v)
end

/-- The normal form of the elements. -/
lemma normalAll_eq (vs : List JsonValue) : normalAll vs = vs.map normal := by
  induction vs with
  | nil => rfl
  | cons v vs ih => rw [normalAll, ih, List.map_cons]

/-- The normal form of the members. -/
lemma normalFields_eq (fields : List (Units × JsonValue)) :
    normalFields fields = fields.map fun f => (f.1, normal f.2) := by
  induction fields with
  | nil => rfl
  | cons f fs ih => rw [normalFields, ih, List.map_cons, normalField]

/-- An array is normalized element by element. -/
@[simp] lemma normal_arr (vs : List JsonValue) : normal (.arr vs) = .arr (vs.map normal) := by
  rw [normal, normalAll_eq]

/-- An object is sorted and normalized member by member. -/
@[simp] lemma normal_obj (fields : List (Units × JsonValue)) :
    normal (.obj fields) = .obj ((byKey fields).map fun f => (f.1, normal f.2)) := by
  rw [normal, normalFields_eq, byKey_map]

/-- A map of the members keeps the keys. -/
lemma keys_map (g : JsonValue → JsonValue) (fields : List (Units × JsonValue)) :
    (fields.map fun f => (f.1, g f.2)).map Prod.fst = fields.map Prod.fst := by
  rw [List.map_map]
  rfl

/-- A normal form is its own. -/
lemma normal_normal (v : JsonValue) : v.normal.normal = v.normal := by
  induction v with
  | null => rfl
  | bool b => rfl
  | num n => rw [normal, normal, Number.unsigned_unsigned]
  | str s => rfl
  | arr vs ih =>
    rw [normal_arr, normal_arr, List.map_map]
    exact congrArg JsonValue.arr (List.map_congr_left fun v hv => ih v hv)
  | obj fields ih =>
    rw [normal_obj, normal_obj, byKey_map, byKey_byKey, List.map_map]
    refine congrArg JsonValue.obj (List.map_congr_left fun f hf => ?_)
    exact Prod.ext rfl (ih f (mem_byKey.1 hf))

/-- A normal form repeats no key. -/
lemma Distinct.normal {v : JsonValue} (hv : v.Distinct) : v.normal.Distinct := by
  induction v with
  | null => trivial
  | bool b => trivial
  | num n => trivial
  | str s => trivial
  | arr vs ih =>
    rw [distinct_arr] at hv
    rw [normal_arr, distinct_arr]
    intro u hu
    obtain ⟨v, hmem, rfl⟩ := List.mem_map.1 hu
    exact ih v hmem (hv v hmem)
  | obj fields ih =>
    obtain ⟨hnodup, hfields⟩ := distinct_obj.1 hv
    rw [normal_obj, distinct_obj, keys_map]
    refine ⟨(byKey_keys_perm fields).nodup_iff.2 hnodup, fun g hg => ?_⟩
    obtain ⟨f, hf, rfl⟩ := List.mem_map.1 hg
    exact ih f (mem_byKey.1 hf) (hfields f (mem_byKey.1 hf))

/-! ## The same value -/

mutual
/-- The same value: objects are compared as maps, and zeros without their sign. -/
def Same : JsonValue → JsonValue → Prop
  | .null, .null => True
  | .bool b, .bool c => b = c
  | .num n, .num m => n.unsigned = m.unsigned
  | .str s, .str t => s = t
  | .arr vs, .arr ws => SameAll vs ws
  | .obj fs, .obj gs => fs.length = gs.length ∧ SameFields fs gs
  | _, _ => False

def SameAll : List JsonValue → List JsonValue → Prop
  | [], [] => True
  | v :: vs, w :: ws => Same v w ∧ SameAll vs ws
  | _, _ => False

/-- Every member of the one object is a member of the other. -/
def SameFields : List (Units × JsonValue) → List (Units × JsonValue) → Prop
  | [], _ => True
  | f :: fs, gs => SameField f gs ∧ SameFields fs gs

def SameField : Units × JsonValue → List (Units × JsonValue) → Prop
  | (key, v), gs => ∃ w, (key, w) ∈ gs ∧ Same v w
end

/-- Two lists of elements are the same if their normal forms are. -/
lemma sameAll_iff {vs : List JsonValue}
    (ih : ∀ v ∈ vs, ∀ {w : JsonValue}, w.Distinct → (Same v w ↔ v.normal = w.normal))
    {ws : List JsonValue} (hws : ∀ w ∈ ws, w.Distinct) :
    SameAll vs ws ↔ vs.map normal = ws.map normal := by
  induction vs generalizing ws with
  | nil =>
    cases ws with
    | nil => simp [SameAll]
    | cons w ws => simp [SameAll]
  | cons v vs ihs =>
    cases ws with
    | nil => simp [SameAll]
    | cons w ws =>
      obtain ⟨ihv, ihvs⟩ := List.forall_mem_cons.1 ih
      obtain ⟨hw, hws⟩ := List.forall_mem_cons.1 hws
      rw [SameAll, ihv hw, ihs ihvs hws, List.map_cons, List.map_cons, List.cons.injEq]

/-- The members of an object are the same as members of the other. -/
lemma sameFields_iff {fs gs : List (Units × JsonValue)} :
    SameFields fs gs ↔ ∀ f ∈ fs, ∃ w, (f.1, w) ∈ gs ∧ Same f.2 w := by
  induction fs with
  | nil => simp [SameFields]
  | cons f fs ih =>
    obtain ⟨key, v⟩ := f
    rw [SameFields, SameField, ih, List.forall_mem_cons]

/-- Two lists of members of one length, the one within the other, are the same up to their order. -/
lemma perm_of_members {α : Type} {fs gs : List (Units × α)} (hnodup : (fs.map Prod.fst).Nodup)
    (hlength : fs.length = gs.length) (hsub : ∀ f ∈ fs, f ∈ gs) : fs.Perm gs :=
  (List.subperm_of_subset hnodup.of_map hsub).perm_of_length_le (Nat.le_of_eq hlength.symm)

/-- The normal form decides whether two values are the same. -/
lemma same_iff_normal {v w : JsonValue} (hv : v.Distinct) (hw : w.Distinct) :
    Same v w ↔ v.normal = w.normal := by
  induction v generalizing w with
  | null => cases w <;> simp [Same, normal]
  | bool b => cases w <;> simp [Same, normal]
  | num n => cases w <;> simp [Same, normal]
  | str s => cases w <;> simp [Same, normal]
  | arr vs ih =>
    rw [distinct_arr] at hv
    cases w with
    | arr ws =>
      rw [distinct_arr] at hw
      rw [Same, sameAll_iff (fun v hmem => ih v hmem (hv v hmem)) hw, normal_arr, normal_arr,
        JsonValue.arr.injEq]
    | _ => simp [Same, normal]
  | obj fs ih =>
    obtain ⟨hnodup, hfields⟩ := distinct_obj.1 hv
    cases w with
    | obj gs =>
      obtain ⟨hnodup', hfields'⟩ := distinct_obj.1 hw
      rw [Same, sameFields_iff, normal, normal, JsonValue.obj.injEq, normalFields_eq,
        normalFields_eq]
      constructor
      · rintro ⟨hlength, hsame⟩
        refine byKey_eq_of_perm (perm_of_members ?_ ?_ ?_) ?_
        · rw [keys_map]
          exact hnodup
        · rw [List.length_map, List.length_map, hlength]
        · intro f' hf'
          obtain ⟨f, hf, rfl⟩ := List.mem_map.1 hf'
          obtain ⟨w, hw, hsame⟩ := hsame f hf
          have hnormal := (ih f hf (hfields f hf) (hfields' _ hw)).1 hsame
          exact List.mem_map.2 ⟨_, hw, Prod.ext rfl hnormal.symm⟩
        · rw [keys_map]
          exact hnodup
      · intro heq
        have hperm : (fs.map fun f => (f.1, f.2.normal)).Perm (gs.map fun g => (g.1, g.2.normal)) :=
          ((byKey_perm _).symm.trans (heq ▸ .refl _)).trans (byKey_perm _)
        refine ⟨by simpa using hperm.length_eq, fun f hf => ?_⟩
        obtain ⟨g, hg, hnormal⟩ := List.mem_map.1 (hperm.mem_iff.1 (List.mem_map_of_mem hf))
        obtain ⟨hkey, hvalue⟩ := Prod.mk.inj hnormal
        refine ⟨g.2, hkey ▸ hg, (ih f hf (hfields f hf) (hfields' g hg)).2 hvalue.symm⟩
    | _ => simp [Same, normal]

end JsonValue

end NexusClaw.AuditChain
