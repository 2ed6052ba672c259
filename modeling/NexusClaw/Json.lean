import Mathlib.Tactic.Common

/-!
# JSON values

The values that cross the governance kernel: tool inputs, model actions, stored `jsonb` columns.
A number is the rational a finite double denotes. `Json.get?` is a property read (`undefined`
becomes `none`), `Json.truthy` the JavaScript truth test on it and `Json.orElse` the operator `||`.
-/

namespace NexusClaw

/-- A JSON value. -/
inductive Json where
  | null
  | bool (b : Bool)
  | num (n : Rat)
  | str (s : String)
  | arr (xs : List Json)
  | obj (fields : List (String × Json))
deriving Repr

namespace Json

/-! ## Equality -/

mutual
/-- The values are the same. -/
def same : Json → Json → Bool
  | .null, .null => true
  | .bool a, .bool b => a == b
  | .num a, .num b => a == b
  | .str a, .str b => a == b
  | .arr xs, .arr ys => sameElements xs ys
  | .obj fs, .obj gs => sameFields fs gs
  | _, _ => false

def sameElements : List Json → List Json → Bool
  | [], [] => true
  | x :: xs, y :: ys => same x y && sameElements xs ys
  | _, _ => false

def sameFields : List (String × Json) → List (String × Json) → Bool
  | [], [] => true
  | (a, v) :: fs, (b, w) :: gs => a == b && same v w && sameFields fs gs
  | _, _ => false
end

mutual
/-- The test of equality. -/
lemma same_iff (v w : Json) : same v w = true ↔ v = w := by
  cases v <;> cases w <;> simp [same, sameElements_iff, sameFields_iff]

/-- The test on the elements. -/
lemma sameElements_iff (xs ys : List Json) : sameElements xs ys = true ↔ xs = ys := by
  cases xs <;> cases ys <;> simp [sameElements, same_iff, sameElements_iff]

/-- The test on the members. -/
lemma sameFields_iff (fs gs : List (String × Json)) : sameFields fs gs = true ↔ fs = gs := by
  rcases fs with _ | ⟨⟨a, v⟩, fs⟩ <;> rcases gs with _ | ⟨⟨b, w⟩, gs⟩ <;>
    simp [sameFields, same_iff, sameFields_iff]
end

instance : DecidableEq Json := fun v w =>
  decidable_of_iff _ (same_iff v w)

/-! ## Reading a value -/

/-- The empty object `{}`. -/
def empty : Json :=
  .obj []

/-- `value.name`; a value that is no object has none of the properties read here. -/
def get? : Json → String → Option Json
  | .obj fields, name => fields.lookup name
  | _, _ => none

/-- The truth test of a property read. -/
def truthy : Option Json → Bool
  | none => false
  | some .null => false
  | some (.bool b) => b
  | some (.num n) => n ≠ 0
  | some (.str s) => s ≠ ""
  | some (.arr _) => true
  | some (.obj _) => true

/-- `a || b` -/
def orElse (a b : Option Json) : Option Json :=
  if truthy a then a else b

/-- `a ?? b` -/
def nullish (a : Option Json) (b : Json) : Json :=
  match a with
  | none => b
  | some .null => b
  | some v => v

/-- `a === b`; two lists or objects that were read apart are never the same one. -/
def strictEq : Json → Json → Bool
  | .arr _, _ => false
  | .obj _, _ => false
  | v, w => v = w

/-- The string a value is, if it is one. -/
def asString : Json → Option String
  | .str s => some s
  | _ => none

/-- `s.length`: the number of UTF-16 units. -/
def utf16Length (s : String) : Nat :=
  s.toList.foldl (fun n c => n + if c.toNat < 0x10000 then 1 else 2) 0

/-- `Object.keys(value)`; a list and a text have their indices as keys. -/
def keys : Json → List String
  | .obj fields => fields.map Prod.fst
  | .arr xs => (List.range xs.length).map toString
  | .str s => (List.range (utf16Length s)).map toString
  | _ => []

mutual
/-- JavaScript can turn the value into a primitive one: an object that has a property `toString` of
its own has no such method, and a list is turned into one with all its elements. -/
def isConvertible : Json → Bool
  | .obj fields => (fields.lookup "toString").isNone
  | .arr xs => areConvertible xs
  | _ => true

def areConvertible : List Json → Bool
  | [] => true
  | x :: xs => isConvertible x && areConvertible xs
end

mutual
/-- `JSON.stringify` of a value whose numbers are integers and whose strings need no escape. -/
def render : Json → String
  | .null => "null"
  | .bool b => if b then "true" else "false"
  | .num n => toString n.num
  | .str s => "\"" ++ s ++ "\""
  | .arr xs => "[" ++ ",".intercalate (renderAll xs) ++ "]"
  | .obj fields => "\x7b" ++ ",".intercalate (renderFields fields) ++ "\x7d"

def renderAll : List Json → List String
  | [] => []
  | v :: vs => render v :: renderAll vs

def renderFields : List (String × Json) → List String
  | [] => []
  | f :: fs => renderField f :: renderFields fs

def renderField : String × Json → String
  | (name, v) => "\"" ++ name ++ "\":" ++ render v
end

/-- The empty object has no member. -/
@[simp] lemma get?_empty (name : String) : empty.get? name = none := rfl

/-- What is undefined gives way. -/
@[simp] lemma nullish_none (b : Json) : nullish none b = b := rfl

end Json

end NexusClaw
