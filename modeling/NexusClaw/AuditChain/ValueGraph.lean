import NexusClaw.AuditChain.Canonical
import NexusClaw.Walk

/-!
# The JSON guard on value graphs

`isJsonValue` of `audit-chain/src/canonical.ts` and of `agent-executable-assets/json-value.ts`, on
values as a run of the language has them: objects at addresses, shared or in a cycle. Both guards are
walks of the library (`governance`, `shared`); what they do at a node is the order of its entries, the
holes that `every` passes by and the reserved keys that only one of them knows. The set of seen objects
is never left again, so both refuse a value that meets an object twice.

`canonicalJsonString` is the serializer of the same file, which runs on what the guard let through.
-/

namespace NexusClaw.ValueGraph
open AuditChain (Units Number NumberFormat unit units byKey mem_byKey join serializeMember
  serializeString serializeNumber)
open Walk

/-! ## Values -/

/-- What is not an object. The numbers that are not finite are one value here. -/
inductive Prim where
  | str (s : Units)
  | num (n : Number)
  | nonFinite
  | bool (b : Bool)
  | null
  | undefined

/-- An object at an address; an absent slot of an array is a hole. -/
inductive Node (α : Type) where
  | array (slots : List (Option (Value Prim α)))
  | object (fields : List (Units × Value Prim α))
  | date

/-- The objects of a program run, by their addresses. -/
abbrev Graph (α : Type) : Type :=
  α → Node α

variable {α : Type}

/-- The values of an object: the elements that are there, or the values under its own keys. -/
def Node.values : Node α → List (Value Prim α)
  | .array slots => slots.filterMap id
  | .object fields => fields.map Prod.snd
  | .date => []

/-! ## isJsonValue -/

/-- The branches on a value that is no object. -/
def Prim.isJson : Prim → Bool
  | .str _ => true
  | .bool _ => true
  | .num _ => true
  | .nonFinite => false
  | .null => true
  | .undefined => false

/-- `PROTOTYPE_KEYS` -/
def prototypeKeys : List Units :=
  ["__proto__", "prototype", "constructor"].map units

/-- The copy of the governance packages: `every` passes holes by, and a date has no keys. -/
def governance (g : Graph α) : System Prim α where
  check := Prim.isJson
  entries a := (g a).values.map some

/-- A field of the loop over the keys: a reserved key ends it. -/
def keyedEntry (field : Units × Value Prim α) : Option (Value Prim α) :=
  if field.1 ∈ prototypeKeys then none else some field.2

/-- The shared copy: a loop over an array gives `undefined` for a hole. -/
def shared (g : Graph α) : System Prim α where
  check := Prim.isJson
  entries a :=
    match g a with
    | .array slots => slots.map fun slot => some (slot.getD (.leaf .undefined))
    | .object fields => fields.map keyedEntry
    | .date => []

/-! ## canonicalJsonString -/

/-- `serializeCanonical` on a value that is no object. -/
def serializePrim (fmt : NumberFormat) : Prim → Except String Units
  | .str s => .ok (serializeString s)
  | .num n => .ok (serializeNumber fmt n)
  | .nonFinite => .error "canonicalJsonString: non-finite number is not JSON"
  | .bool b => .ok (if b then units "true" else units "false")
  | .null => .ok (units "null")
  | .undefined => .error "canonicalJsonString: value is not JSON-serializable"

/-- The members that `serializeObject` writes: the keys by their code units, without those whose
value is `undefined`. -/
def writtenFields (fields : List (Units × Value Prim α)) : List (Units × Value Prim α) :=
  (byKey fields).filter fun field =>
    match field.2 with
    | .leaf .undefined => false
    | _ => true

/-- `serializeCanonical`, with a bound on the depth of the stack. -/
def serializeCanonical (fmt : NumberFormat) (g : Graph α) : Nat → Value Prim α → Except String Units
  | _, .leaf p => serializePrim fmt p
  | 0, .ref _ => .error "Maximum call stack size exceeded"
  | depth + 1, .ref a =>
    match g a with
    | .array slots => do
      let texts ← slots.mapM fun slot =>
        serializeCanonical fmt g depth (slot.getD (.leaf .undefined))
      pure (unit '[' :: (join texts ++ [unit ']']))
    | .object fields => do
      let texts ← (writtenFields fields).mapM fun field => do
        let text ← serializeCanonical fmt g depth field.2
        pure (serializeMember (field.1, text))
      pure (unit '\x7b' :: (join texts ++ [unit '\x7d']))
    | .date => pure (units "\x7b\x7d")

/-- `canonicalJsonString` comes back with a text. -/
def Serializes (fmt : NumberFormat) (g : Graph α) (v : Value Prim α) : Prop :=
  ∃ depth text, serializeCanonical fmt g depth v = .ok text

/-! ## JSON values -/

/-- The references of a graph, without any check. -/
def references (g : Graph α) : System Prim α where
  check _ := true
  entries a := (g a).values.map some

/-- A string, a boolean, null or a finite number; a reference is looked at where it leads. -/
def JsonPrim : Value Prim α → Prop
  | .leaf p => p.isJson = true
  | .ref _ => True

/-- A dense array, or a plain object without a reserved key. -/
def JsonNode : Node α → Prop
  | .array slots => none ∉ slots
  | .object fields => ∀ field ∈ fields, field.1 ∉ prototypeKeys
  | .date => False

/-- A reference leads to a dense array or to a plain object without a reserved key. -/
def JsonRef (g : Graph α) : Value Prim α → Prop
  | .leaf _ => True
  | .ref a => JsonNode (g a)

/-- Every value that is no object is one of JSON. -/
def PrimsJson (g : Graph α) (v : Value Prim α) : Prop :=
  ∀ w, (references g).Reaches v w → JsonPrim w

/-- Every object is one of JSON. -/
def NodesJson (g : Graph α) (v : Value Prim α) : Prop :=
  ∀ w, (references g).Reaches v w → JsonRef g w

/-- No cycle, and nothing that is not of JSON. -/
structure IsJson (g : Graph α) (v : Value Prim α) : Prop where
  acyclic : (references g).Acyclic v
  prims : PrimsJson g v
  nodes : NodesJson g v

/-- No object is met twice on the way through the value. -/
def MetOnce (g : Graph α) (v : Value Prim α) : Prop :=
  ∀ met, (references g).Walks v met → met.Nodup

/-! ## The copy without shared objects -/

/-- The elements with their positions from `k` on in front of the way. -/
def markSlots (way : List Nat) : Nat → List (Option (Value Prim α)) →
    List (Option (Value Prim (α × List Nat)))
  | _, [] => []
  | k, slot :: slots => slot.map (·.marked (k :: way)) :: markSlots way (k + 1) slots

def markFields (way : List Nat) : Nat → List (Units × Value Prim α) →
    List (Units × Value Prim (α × List Nat))
  | _, [] => []
  | k, field :: fields => (field.1, field.2.marked (k :: way)) :: markFields way (k + 1) fields

/-- The graph in which each way to an object leads to an object of its own. -/
def unshared (g : Graph α) : Graph (α × List Nat) := fun a =>
  match g a.1 with
  | .array slots => .array (markSlots a.2 0 slots)
  | .object fields => .object (markFields a.2 0 fields)
  | .date => .date

/-- The filled slots of an array keep their ways. -/
lemma marks_slots (way : List Nat) (k : Nat) (slots : List (Option (Value Prim α))) :
    Marks way k ((slots.filterMap id).map some) (((markSlots way k slots).filterMap id).map some) := by
  induction slots generalizing k with
  | nil => exact .nil k
  | cons slot slots ih =>
    cases slot with
    | none => exact (ih (k + 1)).weaken (Nat.le_succ k)
    | some v => exact .value v (Nat.le_refl k) (ih (k + 1))

/-- The members of an object with their keys keep their ways. -/
lemma marks_keyed (way : List Nat) (k : Nat) (fields : List (Units × Value Prim α)) :
    Marks way k (fields.map keyedEntry) ((markFields way k fields).map keyedEntry) := by
  induction fields generalizing k with
  | nil => exact .nil k
  | cons field fields ih =>
    simp only [markFields, List.map_cons, keyedEntry]
    split_ifs with reserved
    · exact .stop ((ih (k + 1)).weaken (Nat.le_succ k))
    · exact .value field.2 (Nat.le_refl k) (ih (k + 1))

/-- The members of an object keep their ways. -/
lemma marks_fields (way : List Nat) (k : Nat) (fields : List (Units × Value Prim α)) :
    Marks way k ((fields.map Prod.snd).map some)
      (((markFields way k fields).map Prod.snd).map some) := by
  induction fields generalizing k with
  | nil => exact .nil k
  | cons field fields ih => exact .value field.2 (Nat.le_refl k) (ih (k + 1))

/-- All slots of an array keep their ways. -/
lemma marks_dense (way : List Nat) (k : Nat) (slots : List (Option (Value Prim α))) :
    Marks way k (slots.map fun slot => some (slot.getD (.leaf .undefined)))
      ((markSlots way k slots).map fun slot => some (slot.getD (.leaf .undefined))) := by
  induction slots generalizing k with
  | nil => exact .nil k
  | cons slot slots ih =>
    cases slot with
    | none => exact .value (.leaf .undefined) (Nat.le_refl k) (ih (k + 1))
    | some v => exact .value v (Nat.le_refl k) (ih (k + 1))

/-- The copies of the governance package see no sharing. -/
lemma unshares_governance (g : Graph α) : Unshares (governance g) (governance (unshared g)) where
  check := rfl
  entries a way := by
    simp only [governance, unshared]
    cases g a with
    | array slots => exact marks_slots way 0 slots
    | object fields => exact marks_fields way 0 fields
    | date => exact .nil 0

/-- Nor do those of the shared package. -/
lemma unshares_shared (g : Graph α) : Unshares (shared g) (shared (unshared g)) where
  check := rfl
  entries a way := by
    simp only [shared, unshared]
    cases g a with
    | array slots => exact marks_dense way 0 slots
    | object fields => exact marks_keyed way 0 fields
    | date => exact .nil 0

/-- Nor do the references. -/
lemma unshares_references (g : Graph α) : Unshares (references g) (references (unshared g)) where
  check := rfl
  entries := (unshares_governance g).entries

/-! ## The law -/

section law
variable [DecidableEq α] (fmt : NumberFormat) (g : Graph α) (v : Value Prim α)

/-- What the guard is meant to be on a value. -/
structure Lawful : Prop where
  /-- Both copies come back. -/
  answers : (∃ b, (governance g).Returns v b) ∧ ∃ b, (shared g).Returns v b
  same : ∀ b, (governance g).Returns v b ↔ (shared g).Returns v b
  exactly : (governance g).Returns v true ↔ IsJson g v
  /-- The copy without shared objects gets the same answer. -/
  sharing : (references g).Acyclic v → ∀ b,
    ((governance g).Returns v b ↔ (governance (unshared g)).Returns (v.marked []) b) ∧
      ((shared g).Returns v b ↔ (shared (unshared g)).Returns (v.marked []) b)
  serializes : (governance g).Returns v true → Serializes fmt g v

end law

/-! ### The two guards on one walk -/

section walks
variable {g : Graph α} {v : Value Prim α} {met : List α}

/-- A good value is a primitive of JSON. -/
lemma good_governance (w : Value Prim α) : (governance g).Good w ↔ JsonPrim w := by
  cases w with
  | leaf p => exact Iff.rfl
  | ref a => simp [System.Good, governance, JsonPrim]

/-- An array without holes has all its slots. -/
lemma dense_eq (slots : List (Option (Value Prim α))) (dense : none ∉ slots) :
    slots.map (fun slot => some (slot.getD (.leaf .undefined))) = (slots.filterMap id).map some := by
  induction slots with
  | nil => rfl
  | cons slot slots ih =>
    cases slot with
    | none => exact absurd List.mem_cons_self dense
    | some v =>
      have rest := ih fun mem => dense (List.mem_cons_of_mem _ mem)
      simpa using rest

/-- An object without reserved keys has all its members. -/
lemma keyed_eq (fields : List (Units × Value Prim α))
    (clear : ∀ field ∈ fields, field.1 ∉ prototypeKeys) :
    fields.map keyedEntry = (fields.map Prod.snd).map some := by
  rw [List.map_map]
  exact List.map_congr_left fun field mem => if_neg (clear field mem)

/-- No hole and no reserved key: what the shared copy asks of an object. -/
def Clear : Node α → Prop
  | .array slots => none ∉ slots
  | .object fields => ∀ field ∈ fields, field.1 ∉ prototypeKeys
  | .date => True

/-- A node of JSON is clear. -/
lemma JsonNode.clear {node : Node α} (json : JsonNode node) : Clear node := by
  cases node with
  | date => trivial
  | _ => exact json

/-- At a clear object the two copies have the same entries. -/
lemma entries_eq {a : α} (clear : Clear (g a)) : (shared g).entries a = (governance g).entries a := by
  simp only [shared, governance]
  cases node_eq : g a with
  | array slots =>
    rw [node_eq] at clear
    exact dense_eq slots clear
  | object fields =>
    rw [node_eq] at clear
    exact keyed_eq fields clear
  | date => rfl

/-- The shared copy does not get past a hole or a reserved key. -/
lemma clear_of_walk {fuel : Nat} {a : α}
    (walked : walkAll ((shared g).walk fuel) ((shared g).entries a) = some met) : Clear (g a) := by
  cases node_eq : g a with
  | array slots =>
    intro hole
    have mem : some (Value.leaf Prim.undefined) ∈ (shared g).entries a := by
      simp only [shared, node_eq, List.mem_map]
      exact ⟨none, hole, rfl⟩
    obtain ⟨_, _, same, at_hole⟩ := walkAll_mem walked mem
    cases same
    cases (System.walk_leaf.mp at_hole).1
  | object fields =>
    intro field mem reserved
    have stops : (none : Option (Value Prim α)) ∈ (shared g).entries a := by
      simp only [shared, node_eq, List.mem_map]
      exact ⟨field, mem, if_pos reserved⟩
    obtain ⟨_, _, same, _⟩ := walkAll_mem walked stops
    cases same
  | date => trivial

/-- A walk of the governance package is one of references. -/
lemma references_of_governance (walks : (governance g).Walks v met) :
    (references g).Walks v met := by
  obtain ⟨fuel, walked⟩ := walks
  refine ⟨fuel, System.walk_of_walk (P := fun _ => True) ?_ ?_ ?_ fuel v met trivial walked⟩
  · exact fun _ _ _ _ => trivial
  · exact fun _ _ => rfl
  · exact fun _ _ _ _ _ => rfl

/-- Where the shared copy gets through, the other does. -/
lemma governance_of_shared (walks : (shared g).Walks v met) : (governance g).Walks v met := by
  obtain ⟨fuel, walked⟩ := walks
  refine ⟨fuel, System.walk_of_walk (P := fun _ => True) ?_ ?_ ?_ fuel v met trivial walked⟩
  · exact fun _ _ _ _ => trivial
  · exact fun _ passes => passes
  · exact fun _ _ _ _ at_rest => entries_eq (clear_of_walk at_rest)

/-- The nodes below are of JSON too. -/
lemma NodesJson.down {w : Value Prim α} (nodes : NodesJson g v) (edge : (references g).Edge v w) :
    NodesJson g w :=
  fun u reaches => nodes u (.head edge reaches)

/-- On objects of JSON the shared copy gets through where the other does. -/
lemma shared_of_governance (nodes : NodesJson g v) (walks : (governance g).Walks v met) :
    (shared g).Walks v met := by
  obtain ⟨fuel, walked⟩ := walks
  refine ⟨fuel, System.walk_of_walk (P := NodesJson g) ?_ ?_ ?_ fuel v met nodes walked⟩
  · exact fun _ _ json edge => json.down edge
  · exact fun _ passes => passes
  · exact fun _ a _ json _ => (entries_eq (JsonNode.clear (json (.ref a) .refl))).symm

/-- The governance copy has an end on values without a cycle whose other parts are JSON's. -/
lemma governance_walks_iff [Finite α] (v : Value Prim α) :
    (∃ met, (governance g).Walks v met) ↔ (references g).Acyclic v ∧ PrimsJson g v := by
  rw [System.walk_iff]
  constructor
  · rintro ⟨acyclic, good⟩
    exact ⟨acyclic, fun w reaches => (good_governance w).mp (good w reaches)⟩
  · rintro ⟨acyclic, prims⟩
    exact ⟨acyclic, fun w reaches => (good_governance w).mpr (prims w reaches)⟩

/-- Without a cycle every value is walked. -/
lemma references_walks [Finite α] (acyclic : (references g).Acyclic v) :
    ∃ met, (references g).Walks v met := by
  apply (System.walk_iff v).mpr
  refine ⟨acyclic, ?_⟩
  rintro (_ | a) _
  · rfl
  · simp [System.Good, references]

/-- Every reference that the shared copy follows is one of the object. -/
lemma shared_sub {β : Type} {g : Graph β} (a b : β) (mem : some (.ref b) ∈ (shared g).entries a) :
    some (.ref b) ∈ (references g).entries a := by
  simp only [shared, references] at mem ⊢
  cases node_eq : g a with
  | array slots =>
    rw [node_eq] at mem
    obtain ⟨slot, slot_mem, same⟩ := List.mem_map.mp mem
    cases slot with
    | none => cases same
    | some w =>
      cases same
      exact List.mem_map.mpr ⟨_, List.mem_filterMap.mpr ⟨_, slot_mem, rfl⟩, rfl⟩
  | object fields =>
    rw [node_eq] at mem
    obtain ⟨field, field_mem, same⟩ := List.mem_map.mp mem
    unfold keyedEntry at same
    split_ifs at same
    exact List.mem_map.mpr ⟨.ref b, List.mem_map.mpr ⟨field, field_mem, Option.some.inj same⟩, rfl⟩
  | date =>
    rw [node_eq] at mem
    cases mem

/-! ### The serializer on a walked value -/

/-- A list is mapped if each of its elements is. -/
lemma mapM_ok {β γ : Type} {f : β → Except String γ} {xs : List β}
    (each : ∀ x ∈ xs, ∃ y, f x = .ok y) : ∃ ys, xs.mapM f = .ok ys := by
  induction xs with
  | nil => exact ⟨[], rfl⟩
  | cons x xs ih =>
    obtain ⟨y, at_x⟩ := each x List.mem_cons_self
    obtain ⟨ys, at_xs⟩ := ih fun z mem => each z (List.mem_cons_of_mem _ mem)
    refine ⟨y :: ys, ?_⟩
    rw [List.mapM_cons, at_x, at_xs]
    rfl

/-- A primitive of JSON has a text. -/
lemma serializePrim_ok (fmt : NumberFormat) {p : Prim} (json : p.isJson = true) :
    ∃ text, serializePrim fmt p = .ok text := by
  cases p with
  | nonFinite => cases json
  | undefined => cases json
  | _ => exact ⟨_, rfl⟩

/-- What is walked has a text, by induction on the fuel. -/
lemma serialize_of_walk (fmt : NumberFormat) (fuel : Nat) :
    ∀ (v : Value Prim α) (met : List α), NodesJson g v → (governance g).walk fuel v = some met →
      ∃ text, serializeCanonical fmt g fuel v = .ok text := by
  have at_leaf : ∀ fuel (p : Prim) (met : List α), (governance g).walk fuel (.leaf p) = some met →
      ∃ text, serializeCanonical fmt g fuel (.leaf p) = .ok text := by
    intro fuel p met walked
    obtain ⟨text, same⟩ := serializePrim_ok fmt (System.walk_leaf.mp walked).1
    cases fuel <;> exact ⟨text, same⟩
  -- the fuel of the writer is that of the walk, one less for each node on the way
  induction fuel with
  | zero =>
    intro v met _ walked
    cases v with
    | leaf p => exact at_leaf 0 p met walked
    | ref a => cases walked
  | succ fuel ih =>
    intro v met nodes walked
    cases v with
    | leaf p => exact at_leaf (fuel + 1) p met walked
    | ref a =>
      obtain ⟨_, rest, same, at_rest, rfl⟩ := System.walk_ref.mp walked
      cases same
      have json := nodes (.ref a) .refl
      have each : ∀ w ∈ (g a).values, ∃ text, serializeCanonical fmt g fuel w = .ok text := by
        intro w mem
        have entry : some w ∈ (governance g).entries a := List.mem_map.mpr ⟨w, mem, rfl⟩
        obtain ⟨_, here, same, walked'⟩ := walkAll_mem at_rest entry
        cases same
        exact ih w here (nodes.down ⟨a, rfl, entry⟩) walked'
      rw [serializeCanonical]
      cases node_eq : g a with
      | array slots =>
        rw [JsonRef, node_eq] at json
        rw [node_eq] at each
        have texts : ∃ texts, (slots.mapM fun slot =>
            serializeCanonical fmt g fuel (slot.getD (.leaf .undefined))) = .ok texts := by
          apply mapM_ok
          intro slot mem
          cases slot with
          | none => exact absurd mem json
          | some w => exact each w (List.mem_filterMap.mpr ⟨some w, mem, rfl⟩)
        obtain ⟨texts, same⟩ := texts
        refine ⟨unit '[' :: (join texts ++ [unit ']']), ?_⟩
        dsimp only
        rw [same]
        rfl
      | object fields =>
        rw [node_eq] at each
        have texts : ∃ texts, ((writtenFields fields).mapM fun field => do
            let text ← serializeCanonical fmt g fuel field.2
            pure (serializeMember (field.1, text))) = .ok texts := by
          apply mapM_ok
          intro field mem
          have own : field ∈ fields := mem_byKey.mp (List.mem_filter.mp mem).1
          obtain ⟨text, same⟩ := each field.2 (List.mem_map.mpr ⟨field, own, rfl⟩)
          exact ⟨serializeMember (field.1, text), by rw [same]; rfl⟩
        obtain ⟨texts, same⟩ := texts
        refine ⟨unit '\x7b' :: (join texts ++ [unit '\x7d']), ?_⟩
        dsimp only
        rw [same]
        rfl
      | date => exact ⟨_, rfl⟩

end walks

/-! ### When the law holds -/

section law
variable [DecidableEq α] (fmt : NumberFormat) (g : Graph α) (v : Value Prim α)

/-- On the copy without sharing the guards come back, if no cycle is reached. -/
lemma copy_answers [Finite α] (acyclic : (references g).Acyclic v) :
    (∃ b, (governance (unshared g)).Returns (v.marked []) b) ∧
      ∃ b, (shared (unshared g)).Returns (v.marked []) b := by
  obtain ⟨met, fuel, walked⟩ := references_walks acyclic
  rw [(unshares_references g).walk fuel v []] at walked
  obtain ⟨met', walked', _⟩ := Option.map_eq_some_iff.mp walked
  constructor
  · obtain ⟨b, last, answered⟩ := System.guard_of_walk (s := governance (unshared g))
      (t := references (unshared g)) (fun _ _ mem => mem) fuel (v.marked []) met' [] walked'
    exact ⟨b, fuel, last, answered⟩
  · obtain ⟨b, last, answered⟩ := System.guard_of_walk (s := shared (unshared g))
      shared_sub fuel (v.marked []) met' [] walked'
    exact ⟨b, fuel, last, answered⟩

/-- The guard lives up to its law exactly when a value without a cycle whose other parts are JSON's
has no date, no hole and no reserved key, and meets no object twice. -/
theorem lawful_iff [Fintype α] : Lawful fmt g v ↔
    ((references g).Acyclic v → PrimsJson g v → NodesJson g v ∧ MetOnce g v) := by
  have through : ∀ {met}, (governance g).Walks v met → (references g).Acyclic v ∧ PrimsJson g v :=
    fun walks => (governance_walks_iff v).mp ⟨_, walks⟩
  constructor
  · intro law acyclic prims
    obtain ⟨met, walks⟩ := (governance_walks_iff v).mpr ⟨acyclic, prims⟩
    have on_copy := ((unshares_governance g).returns_true_iff v []).mpr ⟨met, walks⟩
    have accepted := (law.sharing acyclic true).1.mpr on_copy
    refine ⟨(law.exactly.mp accepted).nodes, ?_⟩
    obtain ⟨met', walks', nodup⟩ := (System.returns_true_iff _ v).mp accepted
    intro met'' walks''
    rwa [System.walks_unique walks'' (references_of_governance walks')]
  · intro condition
    -- a walk that gets through meets no object twice, and objects of JSON only
    have nodup : ∀ {met}, (governance g).Walks v met → met.Nodup := fun walks =>
      (condition (through walks).1 (through walks).2).2 _ (references_of_governance walks)
    have nodes : ∀ {met}, (governance g).Walks v met → NodesJson g v := fun walks =>
      (condition (through walks).1 (through walks).2).1
    have accepts : (governance g).Returns v true ↔ ∃ met, (governance g).Walks v met := by
      rw [System.returns_true_iff]
      exact ⟨fun ⟨met, walks, _⟩ => ⟨met, walks⟩, fun ⟨met, walks⟩ => ⟨met, walks, nodup walks⟩⟩
    have accepts' : (shared g).Returns v true ↔ ∃ met, (shared g).Walks v met := by
      rw [System.returns_true_iff]
      exact ⟨fun ⟨met, walks, _⟩ => ⟨met, walks⟩,
        fun ⟨met, walks⟩ => ⟨met, walks, nodup (governance_of_shared walks)⟩⟩
    have answers := (governance g).returns_total v
    have answers' := (shared g).returns_total v
    refine ⟨⟨answers, answers'⟩, ?_, ?_, ?_, ?_⟩
    · apply System.returns_congr answers answers'
      rw [accepts, accepts']
      constructor
      · rintro ⟨met, walks⟩
        exact ⟨met, shared_of_governance (nodes walks) walks⟩
      · rintro ⟨met, walks⟩
        exact ⟨met, governance_of_shared walks⟩
    · rw [accepts]
      constructor
      · rintro ⟨met, walks⟩
        exact ⟨(through walks).1, (through walks).2, nodes walks⟩
      · rintro ⟨acyclic, prims, _⟩
        exact (governance_walks_iff v).mpr ⟨acyclic, prims⟩
    · intro acyclic b
      obtain ⟨on_copy, on_copy'⟩ := copy_answers g v acyclic
      constructor
      · apply System.returns_congr answers on_copy
        rw [accepts, (unshares_governance g).returns_true_iff]
      · apply System.returns_congr answers' on_copy'
        rw [accepts', (unshares_shared g).returns_true_iff]
    · intro accepted
      obtain ⟨met, fuel, walked⟩ := accepts.mp accepted
      obtain ⟨text, written⟩ := serialize_of_walk fmt fuel v met (nodes ⟨fuel, walked⟩) walked
      exact ⟨fuel, text, written⟩

end law

/-- `const x = {}; [x, x]` -/
def pair : Graph (Fin 2)
  | 0 => .array [some (.ref 1), some (.ref 1)]
  | 1 => .object []

/-- An array with one object at both of its positions is refused, its copy with two is accepted. -/
theorem pair_refused :
    ¬ ∀ (fmt : NumberFormat) (g : Graph (Fin 2)) (v : Value Prim (Fin 2)), Lawful fmt g v := by
  intro law
  have acyclic : (references pair).Acyclic (.ref 0) :=
    ((System.walk_iff _).mp ⟨[0, 1, 1], 2, rfl⟩).1
  have refused : (governance pair).Returns (.ref 0) false := ⟨2, [1, 0], rfl⟩
  have on_copy : (governance (unshared pair)).Returns (Value.marked (.ref 0) []) true :=
    ⟨2, [(1, [1]), (1, [0]), (0, [])], rfl⟩
  have answer := ((law AuditChain.bitsFormat pair (.ref 0)).sharing acyclic true).1.mpr on_copy
  exact absurd (System.returns_unique answer refused) (by decide)

end NexusClaw.ValueGraph
