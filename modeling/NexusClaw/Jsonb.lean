import Mathlib.Data.List.Sort
import Mathlib.Data.List.Lex
import NexusClaw.Json

/-!
# Columns of the database

What a `text` and a `jsonb` column give back for the value that was written. Both keep `undefined` and
`null` as NULL. A `jsonb` column has an order of its own for the keys of an object, and the object that
the driver parses has its array indices first, so that `JSON.stringify` may write another text for what
comes back. `jsonb_eq_iff` says which values come back as they were.
-/

namespace NexusClaw.Json

/-! ## Order of the keys -/

/-- The number that the digits of a key stand for. -/
def decimalValue (key : String) : Nat :=
  key.toList.foldl (fun n c => 10 * n + (c.toNat - '0'.toNat)) 0

/-- A key that is an array index. -/
def isIndex (key : String) : Bool :=
  toString (decimalValue key) = key && decimalValue key < 4294967295

/-- The place of a key: array indices in ascending order first, then the other keys as `jsonb` orders
them, the shorter one first and keys of one length by their bytes. -/
def keyRank (key : String) : List Nat :=
  if isIndex key then [0, decimalValue key]
  else 1 :: key.utf8ByteSize :: key.toList.map Char.toNat

/-- The order of two members of an object. -/
def Before (f g : String × Json) : Prop :=
  keyRank f.1 ≤ keyRank g.1

instance : DecidableRel Before := fun f g =>
  inferInstanceAs (Decidable (keyRank f.1 ≤ keyRank g.1))

instance : Std.Total Before :=
  ⟨fun f g => le_total (keyRank f.1) (keyRank g.1)⟩

instance : IsTrans (String × Json) Before :=
  ⟨fun _ _ _ => le_trans⟩

/-! ## Columns -/

mutual
/-- The value that a `jsonb` column gives back. -/
def jsonb : Json → Json
  | .arr xs => .arr (jsonbElements xs)
  | .obj fields => .obj ((jsonbFields fields).insertionSort Before)
  | .null => .null
  | .bool b => .bool b
  | .num n => .num n
  | .str s => .str s

def jsonbElements : List Json → List Json
  | [] => []
  | x :: xs => jsonb x :: jsonbElements xs

def jsonbFields : List (String × Json) → List (String × Json)
  | [] => []
  | (key, v) :: fields => (key, jsonb v) :: jsonbFields fields
end

/-- A `jsonb` column; an absent value is `undefined`. -/
def jsonbColumn : Option Json → Json
  | none => .null
  | some v => jsonb v

/-- A `text` column; `asText` is what the driver writes for a value that is no text. -/
def textColumn (asText : Json → String) : Option Json → Json
  | none => .null
  | some .null => .null
  | some (.str s) => .str s
  | some v => .str (asText v)

/-! ## What comes back as it was -/

mutual
/-- Every object in the value has its keys in the order in which they come back. -/
def Ordered : Json → Prop
  | .arr xs => OrderedElements xs
  | .obj fields => fields.Pairwise Before ∧ OrderedFields fields
  | .null => True
  | .bool _ => True
  | .num _ => True
  | .str _ => True

def OrderedElements : List Json → Prop
  | [] => True
  | x :: xs => Ordered x ∧ OrderedElements xs

def OrderedFields : List (String × Json) → Prop
  | [] => True
  | (_, v) :: fields => Ordered v ∧ OrderedFields fields
end

/-- The values of the members do not change their order. -/
lemma pairwise_jsonbFields {fields : List (String × Json)} :
    (jsonbFields fields).Pairwise Before ↔ fields.Pairwise Before := by
  have hkeys : ∀ fields : List (String × Json),
      (jsonbFields fields).map Prod.fst = fields.map Prod.fst := by
    intro fields
    induction fields with
    | nil => rfl
    | cons f fields ih => exact congrArg (f.1 :: ·) ih
  have hpairwise : ∀ fields : List (String × Json), fields.Pairwise Before ↔
      (fields.map Prod.fst).Pairwise fun a b => keyRank a ≤ keyRank b := fun fields =>
    (List.pairwise_map (f := Prod.fst) (R := fun a b => keyRank a ≤ keyRank b)).symm
  rw [hpairwise, hpairwise, hkeys]

/-- An object comes back as it was exactly if its members do and are in their order. -/
lemma sorted_eq_iff {fields : List (String × Json)} :
    (jsonbFields fields).insertionSort Before = fields ↔
      fields.Pairwise Before ∧ jsonbFields fields = fields := by
  constructor
  · intro h
    have hsorted : fields.Pairwise Before := by
      rw [← h]
      exact List.pairwise_insertionSort _ _
    rw [(pairwise_jsonbFields.2 hsorted).insertionSort_eq] at h
    exact ⟨hsorted, h⟩
  · intro ⟨hsorted, h⟩
    rw [h, hsorted.insertionSort_eq]

mutual
/-- A value comes back as it was exactly if its keys are in the order of the column. -/
theorem jsonb_eq_iff (v : Json) : jsonb v = v ↔ Ordered v := by
  cases v with
  | arr xs => rw [jsonb, Json.arr.injEq, jsonbElements_eq_iff, Ordered]
  | obj fields =>
    rw [jsonb, Json.obj.injEq, sorted_eq_iff, jsonbFields_eq_iff, Ordered]
  | null => exact ⟨fun _ => trivial, fun _ => rfl⟩
  | bool b => exact ⟨fun _ => trivial, fun _ => rfl⟩
  | num n => exact ⟨fun _ => trivial, fun _ => rfl⟩
  | str s => exact ⟨fun _ => trivial, fun _ => rfl⟩

/-- When the elements are stored as they are. -/
theorem jsonbElements_eq_iff (xs : List Json) : jsonbElements xs = xs ↔ OrderedElements xs := by
  cases xs with
  | nil => exact ⟨fun _ => trivial, fun _ => rfl⟩
  | cons x xs =>
    rw [jsonbElements, List.cons.injEq, jsonb_eq_iff x, jsonbElements_eq_iff xs, OrderedElements]

/-- When the members are stored as they are. -/
theorem jsonbFields_eq_iff (fields : List (String × Json)) :
    jsonbFields fields = fields ↔ OrderedFields fields := by
  cases fields with
  | nil => exact ⟨fun _ => trivial, fun _ => rfl⟩
  | cons f fields =>
    obtain ⟨key, v⟩ := f
    rw [jsonbFields, List.cons.injEq, Prod.mk.injEq, jsonb_eq_iff v, jsonbFields_eq_iff fields,
      OrderedFields]
    exact and_congr_left fun _ => and_iff_right rfl
end

/-- A `jsonb` column gives back a value that is there and has its keys in the order of the column. -/
lemma jsonbColumn_eq_iff {value : Option Json} :
    some (jsonbColumn value) = value ↔ ∃ v, value = some v ∧ Ordered v := by
  cases value with
  | none => simp [jsonbColumn]
  | some v => simp [jsonbColumn, jsonb_eq_iff]

/-- A `text` column gives back a text and `null`. -/
lemma textColumn_eq_iff (asText : Json → String) {value : Option Json} :
    some (textColumn asText value) = value ↔
      value = some .null ∨ ∃ s, value = some (.str s) := by
  cases value with
  | none => simp [textColumn]
  | some v => cases v <;> simp [textColumn]

end NexusClaw.Json
