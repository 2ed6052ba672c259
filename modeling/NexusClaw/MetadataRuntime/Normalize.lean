import NexusClaw.MetadataRuntime.StableText

/-!
# Snapshots and their normalised records

`metadata-runtime.types.ts`, the identities of `metadata-runtime-taxonomy.ts`, and
`normalizeFieldForDiff` and `normalizeObjectForDiff` of `metadata-runtime.utils.ts`. A snapshot holds
JSON values; the normalised record of an element may have undefined entries.
-/

namespace NexusClaw.MetadataRuntime

open AuditChain

/-! ## Records -/

/-- An object of a snapshot. -/
abbrev JsonRecord : Type :=
  List (Units × JsonValue)

/-- An object with properties that may be undefined. -/
abbrev Record : Type :=
  List (Units × Option Value)

/-- The property `key` gets a value: an existing property keeps its place. -/
def assign {β : Type} (es : List (Units × β)) (key : Units) (v : β) : List (Units × β) :=
  if key ∈ es.map Prod.fst then es.map fun f => if f.1 = key then (key, v) else f
  else es ++ [(key, v)]

/-- The value of an own property; an undefined one has none. -/
def get (r : Record) (key : Units) : Option Value :=
  (r.lookup key).join

mutual
/-- A JSON value has no undefined entries. -/
def ofJson : JsonValue → Value
  | .null => .null
  | .bool b => .bool b
  | .num n => .num n
  | .str s => .str s
  | .arr vs => .arr (ofJsonAll vs)
  | .obj fields => .obj (ofJsonFields fields)

def ofJsonAll : List JsonValue → List Value
  | [] => []
  | v :: vs => ofJson v :: ofJsonAll vs

def ofJsonFields : List (Units × JsonValue) → List (Units × Option Value)
  | [] => []
  | f :: fs => ofJsonField f :: ofJsonFields fs

def ofJsonField : Units × JsonValue → Units × Option Value
  | (key, v) => (key, some (ofJson v))
end

/-- `{ ...record }` -/
def spread (r : JsonRecord) : Record :=
  r.map fun f => (f.1, some (ofJson f.2))

/-- An array of JSON is an array of values. -/
lemma ofJson_arr (vs : List JsonValue) : ofJson (.arr vs) = .arr (vs.map ofJson) := by
  rw [ofJson]
  refine congrArg Value.arr ?_
  induction vs with
  | nil => rfl
  | cons v vs ih => rw [ofJsonAll, ih, List.map_cons]

/-- An object of JSON has no undefined member. -/
lemma ofJson_obj (fields : JsonRecord) : ofJson (.obj fields) = .obj (spread fields) := by
  rw [ofJson]
  refine congrArg Value.obj ?_
  induction fields with
  | nil => rfl
  | cons f fs ih =>
    obtain ⟨key, v⟩ := f
    rw [ofJsonFields, ih]
    rfl

/-- Nothing of a JSON value is undefined. -/
lemma defined_ofJson (v : JsonValue) : (ofJson v).defined = v := by
  induction v with
  | null => rfl
  | bool b => rfl
  | num n => rfl
  | str s => rfl
  | arr vs ih =>
    rw [ofJson_arr, defined_arr, List.map_map]
    exact congrArg JsonValue.arr ((List.map_congr_left ih).trans (List.map_id _))
  | obj fields ih =>
    rw [ofJson_obj, defined_obj]
    refine congrArg JsonValue.obj ?_
    unfold entries spread
    rw [List.filterMap_map]
    refine (List.filterMap_congr fun f hf => ?_).trans List.filterMap_some
    exact congrArg some (Prod.ext rfl (ih f hf))

/-! ## Reading JSON values -/

/-- `value?.key`; a value that is no object has none of the properties read here. -/
def prop (v : Option JsonValue) (key : Units) : Option JsonValue :=
  match v with
  | some (.obj r) => r.lookup key
  | _ => none

def truthy : Option JsonValue → Bool
  | none => false
  | some .null => false
  | some (.bool b) => b
  | some (.num n) => n.unsigned ≠ .zero
  | some (.str s) => s ≠ []
  | some (.arr _) => true
  | some (.obj _) => true

/-- The own properties of a truthy value with `typeof value === 'object'`. -/
def asObject : Option JsonValue → Option JsonRecord
  | some (.obj r) => some r
  | some (.arr vs) => some (vs.zipIdx.map fun v => (decimalUnits v.2, v.1))
  | _ => none

/-- The white space and the line terminators of the language. -/
def isJsSpace (c : UInt16) : Bool :=
  [0x09, 0x0a, 0x0b, 0x0c, 0x0d, 0x20, 0xa0, 0x1680, 0x2028, 0x2029, 0x202f, 0x205f, 0x3000,
    0xfeff].contains c || decide (0x2000 ≤ c ∧ c ≤ 0x200a)

def trim (s : Units) : Units :=
  ((s.dropWhile isJsSpace).reverse.dropWhile isJsSpace).reverse

/-- `asString(payload.key)` -/
def asString (payload : JsonRecord) (key : String) : Option Units :=
  match payload.lookup (units key) with
  | some (.str s) => if trim s = [] then none else some (trim s)
  | _ => none

/-! ## Identities of components -/

inductive TaxonomyKind where
  | roles
  | apps
  | relationships
  | layouts
  | recordPages
  | views
  | menus
  | reportFolders
  | dashboards
  | reports
  | actions
  | flows
  | approvals
  | prompts
  | agents
  | permissionsets
  | permissions
deriving DecidableEq, Repr

/-- `METADATA_RUNTIME_TAXONOMY_KINDS` -/
def taxonomyKinds : List TaxonomyKind :=
  [.roles, .apps, .relationships, .layouts, .recordPages, .views, .menus, .reportFolders, .dashboards,
    .reports, .actions, .flows, .approvals, .prompts, .agents, .permissionsets, .permissions]

def metadataRuntimeSingularKind : TaxonomyKind → String
  | .roles => "role"
  | .apps => "app"
  | .relationships => "relationship"
  | .layouts => "layout"
  | .recordPages => "record-page"
  | .views => "view"
  | .menus => "menu"
  | .reportFolders => "report-folder"
  | .dashboards => "dashboard"
  | .reports => "report"
  | .actions => "action"
  | .flows => "flow"
  | .approvals => "approval"
  | .prompts => "prompt"
  | .agents => "agent"
  | .permissionsets => "permissionset"
  | .permissions => "permission"

/-- The first of the properties that is a string which is not blank. -/
def firstString (payload : JsonRecord) (keys : List String) (otherwise : String) : Units :=
  (keys.findSome? (asString payload)).getD (units otherwise)

/-- `${left}.${right}` -/
def dotted (left right : Units) : Units :=
  left ++ unit '.' :: right

def ownedByRole (payload : JsonRecord) : Bool :=
  asString payload "ownerType" = some (units "role") || (asString payload "roleApiName").isSome

/-- The last part of the identity of a permission. -/
def permissionLeaf (payload : JsonRecord) : Units :=
  let objectNameSingular := asString payload "objectNameSingular"
  let leaf := asString payload "permissionName" <|>
    (objectNameSingular.bind fun name => (asString payload "fieldName").map (dotted name)) <|>
    objectNameSingular <|> asString payload "appApiName" <|> asString payload "menuApiName"
  leaf.getD (firstString payload ["permissionType"] "unknown")

def getMetadataRuntimeComponentIdentity (kind : TaxonomyKind) (payload : JsonRecord) : Units :=
  match kind with
  | .roles | .apps | .dashboards | .reports | .actions | .flows | .approvals | .agents
  | .permissionsets => firstString payload ["apiName", "name", "label"] "unknown"
  | .layouts | .recordPages | .views =>
    dotted (firstString payload ["objectNameSingular"] "unknown-object")
      (firstString payload ["apiName", "name", "label"] "unknown")
  | .relationships =>
    dotted (firstString payload ["objectNameSingular"] "unknown-object")
      (firstString payload ["fieldName", "name"] "unknown")
  | .menus =>
    dotted (firstString payload ["appApiName"] "unknown-app")
      (firstString payload ["apiName", "name"] "unknown")
  | .reportFolders =>
    dotted (firstString payload ["folderType"] "REPORT")
      (firstString payload ["apiName", "name"] "unknown")
  | .prompts =>
    dotted (firstString payload ["promptType"] "template")
      (firstString payload ["apiName", "scene", "name"] "unknown")
  | .permissions =>
    let rest := dotted (firstString payload ["permissionType"] "unknown") (permissionLeaf payload)
    if ownedByRole payload then
      units "role:" ++ dotted (firstString payload ["roleApiName"] "unknown-role") rest
    else dotted (firstString payload ["permissionSetApiName"] "unknown-permissionset") rest

/-! ## Snapshots -/

structure MetadataRuntimeField where
  record : JsonRecord
  name : Units
  named : record.lookup (units "name") = some (.str name)
  distinct : (JsonValue.obj record).Distinct

structure MetadataRuntimeObject where
  record : JsonRecord
  nameSingular : Units
  fields : List MetadataRuntimeField
  named : record.lookup (units "nameSingular") = some (.str nameSingular)
  fielded : record.lookup (units "fields") = some (.arr (fields.map fun field => .obj field.record))
  distinct : (JsonValue.obj record).Distinct

/-- A component of a kind. -/
structure MetadataRuntimeComponent where
  record : JsonRecord
  distinct : (JsonValue.obj record).Distinct

structure MetadataRuntimeSnapshot where
  objects : List MetadataRuntimeObject
  taxonomy : TaxonomyKind → Option (List MetadataRuntimeComponent)

/-- `snapshot[kind] ?? []` -/
def MetadataRuntimeSnapshot.components (s : MetadataRuntimeSnapshot) (kind : TaxonomyKind) :
    List MetadataRuntimeComponent :=
  (s.taxonomy kind).getD []

/-! ## Normalising -/

/-- An object with some of the properties of a truthy value. -/
def pick (v : Option JsonValue) (keys : List String) : Option Value :=
  if truthy v then some (.obj (keys.map fun key => (units key, (prop v (units key)).map ofJson)))
  else none

def normalizedRelation (relation : JsonRecord) : Record :=
  [(units "relationId", (relation.lookup (units "relationId")).map ofJson),
    (units "direction", (relation.lookup (units "direction")).map ofJson),
    (units "sourceObjectMetadata",
      pick (relation.lookup (units "sourceObjectMetadata")) ["nameSingular", "namePlural"]),
    (units "targetObjectMetadata",
      pick (relation.lookup (units "targetObjectMetadata")) ["nameSingular", "namePlural"]),
    (units "sourceFieldMetadata", pick (relation.lookup (units "sourceFieldMetadata")) ["name"]),
    (units "targetFieldMetadata", pick (relation.lookup (units "targetFieldMetadata")) ["name"])]

/-- The assignments and the deletions for a rollup. -/
def rollupSettings (settings : Record) (rollup : Option JsonValue) : Record :=
  let named := ["childObjectNameSingular", "relationFieldName", "childFieldName"].foldl
    (fun settings key => assign settings (units key) ((prop rollup (units key)).map ofJson)) settings
  named.filter fun f =>
    f.1 ∉ [units "childObjectId", units "relationFieldId", units "childFieldId"]

def normalizedSettings (field : JsonRecord) : Option Value :=
  match asObject (field.lookup (units "settings")) with
  | some settings =>
    let rollup := prop (field.lookup (units "referenceHints")) (units "rollup")
    if truthy rollup then some (.obj (rollupSettings (spread settings) rollup))
    else some (.obj (spread settings))
  | none => (field.lookup (units "settings")).map ofJson

def normalizeFieldForDiff (field : MetadataRuntimeField) : Record :=
  let relation := (asObject (field.record.lookup (units "relationDefinition"))).map fun relation =>
    Value.obj (normalizedRelation relation)
  assign (assign (spread field.record) (units "relationDefinition") relation) (units "settings")
    (normalizedSettings field.record)

def normalizeObjectForDiff (object : MetadataRuntimeObject) : Record :=
  let hints := object.record.lookup (units "referenceHints")
  let fields := object.fields.map fun field => Value.obj (normalizeFieldForDiff field)
  assign (assign (assign (spread object.record) (units "fields") (some (.arr fields)))
    (units "labelIdentifierFieldName") ((prop hints (units "labelIdentifierFieldName")).map ofJson))
    (units "imageIdentifierFieldName") ((prop hints (units "imageIdentifierFieldName")).map ofJson)

/-! ## Tidy records -/

/-- The names of the members that every object inherits. -/
def inheritedNames : List Units :=
  ["__proto__", "constructor", "hasOwnProperty", "isPrototypeOf", "propertyIsEnumerable",
    "toLocaleString", "toString", "valueOf", "__defineGetter__", "__defineSetter__",
    "__lookupGetter__", "__lookupSetter__"].map units

/-- No object in an entry has a key twice. -/
def TidyEntry (entry : Option Value) : Prop :=
  ∀ v, entry = some v → v.defined.Distinct

/-- No object in a record has a key twice, and no undefined property has the name of an inherited
member. -/
structure Tidy (r : Record) : Prop where
  keys : (r.map Prod.fst).Nodup
  values : ∀ f ∈ r, TidyEntry f.2
  plain : ∀ f ∈ r, f.2 = none → f.1 ∉ inheritedNames

/-- What is found is a member. -/
lemma mem_of_lookup {β : Type} {es : List (Units × β)} {key : Units} {v : β}
    (h : es.lookup key = some v) : (key, v) ∈ es := by
  obtain ⟨before, after, rfl, -⟩ := List.lookup_eq_some_iff.1 h
  exact List.mem_append_right _ (List.mem_cons_self ..)

/-- A member of a value that repeats no key repeats none. -/
lemma distinct_lookup {r : JsonRecord} {key : Units} {v : JsonValue} (hr : (JsonValue.obj r).Distinct)
    (h : r.lookup key = some v) : v.Distinct :=
  (JsonValue.distinct_obj.1 hr).2 _ (mem_of_lookup h)

section tidy
variable {r : JsonRecord} {o : Option JsonValue}

/-- A JSON value is a tidy entry. -/
lemma tidyEntry_ofJson (h : ∀ v, o = some v → v.Distinct) : TidyEntry (o.map ofJson) := by
  intro w hw
  obtain ⟨v, hv, rfl⟩ := Option.map_eq_some_iff.1 hw
  rw [defined_ofJson]
  exact h v hv

/-- So is a member of a JSON object. -/
lemma tidyEntry_lookup (hr : (JsonValue.obj r).Distinct) (key : Units) :
    TidyEntry ((r.lookup key).map ofJson) :=
  tidyEntry_ofJson fun _ hv => distinct_lookup hr hv

/-- A property repeats no key. -/
lemma distinct_prop (h : ∀ v, o = some v → v.Distinct) (key : Units) :
    ∀ v, prop o key = some v → v.Distinct := by
  intro v hv
  unfold prop at hv
  split at hv
  · exact distinct_lookup (h _ rfl) hv
  · cases hv

/-- An object of tidy entries. -/
lemma tidyEntry_obj {fields : List (Units × Option Value)} (hkeys : (fields.map Prod.fst).Nodup)
    (hvalues : ∀ f ∈ fields, TidyEntry f.2) : TidyEntry (some (.obj fields)) := by
  intro v hv
  cases hv
  rw [defined_obj, JsonValue.distinct_obj]
  have hentries : ∀ g ∈ entries Value.defined fields,
      ∃ f ∈ fields, f.1 = g.1 ∧ ∃ v, f.2 = some v ∧ v.defined = g.2 := by
    intro g hg
    obtain ⟨f, hf, hg⟩ := List.mem_filterMap.1 hg
    obtain ⟨v, hv, rfl⟩ := Option.map_eq_some_iff.1 hg
    exact ⟨f, hf, rfl, v, hv, rfl⟩
  constructor
  · have hsub : ((entries Value.defined fields).map Prod.fst).Sublist (fields.map Prod.fst) := by
      clear hkeys hvalues hentries
      induction fields with
      | nil => exact List.Sublist.slnil
      | cons f fs ih =>
        obtain ⟨key, entry⟩ := f
        cases entry with
        | none => exact ih.cons _
        | some v => exact ih.cons_cons _
    exact hkeys.sublist hsub
  · intro g hg
    obtain ⟨f, hf, -, v, hv, hdefined⟩ := hentries g hg
    rw [← hdefined]
    exact hvalues f hf v hv

/-- A spread object has its keys. -/
lemma keys_spread (r : JsonRecord) : (spread r).map Prod.fst = r.map Prod.fst := by
  rw [spread, List.map_map]
  rfl

/-- A spread object is tidy. -/
lemma tidy_spread (hr : (JsonValue.obj r).Distinct) : Tidy (spread r) := by
  obtain ⟨hkeys, hvalues⟩ := JsonValue.distinct_obj.1 hr
  refine ⟨?_, fun g hg => ?_, fun g hg hnone => ?_⟩
  · rw [keys_spread]
    exact hkeys
  · obtain ⟨f, hf, rfl⟩ := List.mem_map.1 hg
    intro v hv
    cases hv
    rw [defined_ofJson]
    exact hvalues f hf
  · obtain ⟨f, hf, rfl⟩ := List.mem_map.1 hg
    cases hnone

section assign
variable {β : Type} {es : List (Units × β)} {key : Units} {v : β}

/-- An assigned member is the new one or an old one. -/
lemma mem_assign {f : Units × β} (h : f ∈ assign es key v) : f = (key, v) ∨ f ∈ es := by
  unfold assign at h
  split_ifs at h with hkey
  · obtain ⟨g, hg, rfl⟩ := List.mem_map.1 h
    split_ifs
    · exact .inl rfl
    · exact .inr hg
  · rcases List.mem_append.1 h with h | h
    · exact .inr h
    · exact .inl (List.mem_singleton.1 h)

/-- An assignment adds its key if it is new. -/
lemma keys_assign (es : List (Units × β)) (key : Units) (v : β) :
    (assign es key v).map Prod.fst =
      if key ∈ es.map Prod.fst then es.map Prod.fst else es.map Prod.fst ++ [key] := by
  unfold assign
  split_ifs with hkey
  · rw [List.map_map]
    refine List.map_congr_left fun f _ => ?_
    dsimp only [Function.comp_apply]
    split_ifs with hf
    · exact hf.symm
    · rfl
  · rw [List.map_append]
    rfl

/-- An assignment repeats no key. -/
lemma nodup_keys_assign (h : (es.map Prod.fst).Nodup) :
    ((assign es key v).map Prod.fst).Nodup := by
  rw [keys_assign]
  split_ifs with hkey
  · exact h
  · exact h.append (List.nodup_singleton _) (List.disjoint_singleton.2 hkey)

end assign

/-- An assignment keeps a record tidy. -/
lemma Tidy.assign {r : Record} (hr : Tidy r) {key : Units} {entry : Option Value}
    (hentry : TidyEntry entry) (hkey : key ∉ inheritedNames) :
    Tidy (MetadataRuntime.assign r key entry) := by
  refine ⟨nodup_keys_assign hr.keys, fun f hf => ?_, fun f hf hnone => ?_⟩
  · rcases mem_assign hf with rfl | hf
    · exact hentry
    · exact hr.values f hf
  · rcases mem_assign hf with rfl | hf
    · exact hkey
    · exact hr.plain f hf hnone

/-- Picked members make a tidy entry. -/
lemma tidyEntry_pick (h : ∀ v, o = some v → v.Distinct) {keys : List String}
    (hkeys : (keys.map units).Nodup) : TidyEntry (pick o keys) := by
  unfold pick
  split_ifs
  · refine tidyEntry_obj ?_ fun f hf => ?_
    · rw [List.map_map]
      exact hkeys
    · obtain ⟨key, hkey, rfl⟩ := List.mem_map.1 hf
      exact tidyEntry_ofJson (distinct_prop h _)
  · exact nofun

/-- A normalized relation is tidy. -/
lemma tidyEntry_normalizedRelation (hr : (JsonValue.obj r).Distinct) :
    TidyEntry (some (.obj (normalizedRelation r))) := by
  have hkeys : (["relationId", "direction", "sourceObjectMetadata", "targetObjectMetadata",
      "sourceFieldMetadata", "targetFieldMetadata"].map units).Nodup := by decide
  refine tidyEntry_obj hkeys fun f hf => ?_
  have hlookup (key : Units) : ∀ v, r.lookup key = some v → v.Distinct :=
    fun _ hv => distinct_lookup hr hv
  have hpair : (["nameSingular", "namePlural"].map units).Nodup := by decide
  have hname : (["name"].map units).Nodup := List.nodup_singleton _
  simp only [normalizedRelation, List.mem_cons, List.not_mem_nil, or_false] at hf
  rcases hf with rfl | rfl | rfl | rfl | rfl | rfl
  · exact tidyEntry_lookup hr _
  · exact tidyEntry_lookup hr _
  · exact tidyEntry_pick (hlookup _) hpair
  · exact tidyEntry_pick (hlookup _) hpair
  · exact tidyEntry_pick (hlookup _) hname
  · exact tidyEntry_pick (hlookup _) hname

/-- Two numbers are written differently. -/
lemma decimalUnits_injective : Function.Injective decimalUnits :=
  Function.LeftInverse.injective decimalValue_decimalUnits

/-- The own properties of a value of a JSON record. -/
lemma distinct_asObject {fields : JsonRecord} (h : ∀ v, o = some v → v.Distinct)
    (hobject : asObject o = some fields) : (JsonValue.obj fields).Distinct := by
  unfold asObject at hobject
  split at hobject
  · cases hobject
    exact h _ rfl
  · rename_i vs
    cases hobject
    have hvs := JsonValue.distinct_arr.1 (h _ rfl)
    rw [JsonValue.distinct_obj]
    constructor
    · rw [List.map_map]
      have hkeys : (vs.zipIdx.map (Prod.fst ∘ fun v => (decimalUnits v.2, v.1))) =
          (vs.zipIdx.map Prod.snd).map decimalUnits := by
        rw [List.map_map]
        rfl
      rw [hkeys, List.zipIdx_map_snd]
      exact (List.nodup_range' 1).map decimalUnits_injective
    · intro f hf
      obtain ⟨v, hv, rfl⟩ := List.mem_map.1 hf
      exact hvs v.1 (List.fst_mem_of_mem_zipIdx hv)
  · cases hobject

/-- The settings of a rollup are tidy. -/
lemma tidy_rollupSettings {settings : Record} (hsettings : Tidy settings)
    (h : ∀ v, o = some v → v.Distinct) : Tidy (rollupSettings settings o) := by
  have hassign (settings : Record) (hsettings : Tidy settings) (key : String)
      (hkey : units key ∉ inheritedNames) :
      Tidy (assign settings (units key) ((prop o (units key)).map ofJson)) :=
    hsettings.assign (tidyEntry_ofJson (distinct_prop h _)) hkey
  have hnamed := hassign _ (hassign _ (hassign _ hsettings "childObjectNameSingular"
    (by decide)) "relationFieldName" (by decide)) "childFieldName" (by decide)
  refine ⟨?_, fun f hf => ?_, fun f hf => ?_⟩
  · exact hnamed.keys.sublist (List.filter_sublist.map _)
  · exact hnamed.values f (List.mem_of_mem_filter hf)
  · exact hnamed.plain f (List.mem_of_mem_filter hf)

/-- A tidy record is a tidy entry. -/
lemma Tidy.entry {r : Record} (hr : Tidy r) : TidyEntry (some (.obj r)) :=
  tidyEntry_obj hr.keys hr.values

/-- Normalized settings are tidy. -/
lemma tidyEntry_normalizedSettings (hr : (JsonValue.obj r).Distinct) :
    TidyEntry (normalizedSettings r) := by
  have hlookup (key : Units) : ∀ v, r.lookup key = some v → v.Distinct :=
    fun _ hv => distinct_lookup hr hv
  unfold normalizedSettings
  split
  · rename_i settings hsettings
    have htidy := tidy_spread (distinct_asObject (hlookup _) hsettings)
    dsimp only
    split_ifs
    · exact (tidy_rollupSettings htidy (distinct_prop (hlookup _) _)).entry
    · exact htidy.entry
  · exact tidyEntry_lookup hr _

/-- A normalized field is tidy. -/
theorem tidy_normalizeFieldForDiff (field : MetadataRuntimeField) :
    Tidy (normalizeFieldForDiff field) := by
  have hrelation : TidyEntry ((asObject (field.record.lookup (units "relationDefinition"))).map
      fun relation => Value.obj (normalizedRelation relation)) := by
    intro v hv
    obtain ⟨relation, hobject, rfl⟩ := Option.map_eq_some_iff.1 hv
    refine tidyEntry_normalizedRelation (distinct_asObject ?_ hobject) _ rfl
    exact fun _ hv => distinct_lookup field.distinct hv
  refine Tidy.assign (Tidy.assign (tidy_spread field.distinct) hrelation ?_) ?_ ?_
  · decide
  · exact tidyEntry_normalizedSettings field.distinct
  · decide

/-- A normalized object is tidy. -/
theorem tidy_normalizeObjectForDiff (object : MetadataRuntimeObject) :
    Tidy (normalizeObjectForDiff object) := by
  have hhint (key : Units) :
      TidyEntry ((prop (object.record.lookup (units "referenceHints")) key).map ofJson) :=
    tidyEntry_ofJson (distinct_prop (fun _ hv => distinct_lookup object.distinct hv) _)
  have hfields : TidyEntry (some (.arr (object.fields.map fun field =>
      Value.obj (normalizeFieldForDiff field)))) := by
    intro v hv
    cases hv
    rw [defined_arr, List.map_map, JsonValue.distinct_arr, List.forall_mem_map]
    exact fun field _ => (tidy_normalizeFieldForDiff field).entry _ rfl
  refine Tidy.assign (Tidy.assign (Tidy.assign (tidy_spread object.distinct) hfields ?_)
    (hhint _) ?_) (hhint _) ?_
  · decide
  · decide
  · decide

end tidy

end NexusClaw.MetadataRuntime
