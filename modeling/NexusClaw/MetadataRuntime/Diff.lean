import NexusClaw.MetadataRuntime.Normalize

/-!
# The metadata diff

`metadata-diff.service.ts`: the elements of two snapshots are indexed by name, those with one name are
compared property by property through their stable texts, and the identity of a field is split again
into the names of its address.
-/

namespace NexusClaw.MetadataRuntime

open AuditChain

/-! ## Changes of properties -/

/-- What `value?.key` gives. -/
inductive Property where
  | undefined
  | value (v : Value)
  | inherited (name : Units)

def readProperty (r : Option Record) (key : Units) : Property :=
  match r with
  | none => .undefined
  | some r =>
    match r.lookup key with
    | some (some v) => .value v
    | some none => .undefined
    | none => if key ∈ inheritedNames then .inherited key else .undefined

/-- `String` of an inherited function. -/
def functionText (name : Units) : Units :=
  units "function " ++ (if name = units "constructor" then units "Object" else name) ++
    units "() \x7b [native code] \x7d"

/-- `stableStringify` -/
def stableStringify (fmt : NumberFormat) (c : Collation) : Property → Units
  | .undefined => quote (units "undefined")
  | .value v => stableText fmt c v
  | .inherited name => if name = units "__proto__" then units "\x7b\x7d" else quote (functionText name)

structure PropertyChange where
  property : Units
  before : Property
  after : Property

/-- `Object.keys(value ?? {})` -/
def keysOf (r : Option Record) : List Units :=
  (r.getD []).map Prod.fst

section diff
variable (fmt : NumberFormat) (c : Collation)

def getPropertyChanges (before after : Option Record) (ignoreFields : List Units) :
    List PropertyChange :=
  (((keysOf before ++ keysOf after).eraseDups.filter fun key => key ∉ ignoreFields).map fun key =>
    { property := key, before := readProperty before key, after := readProperty after key }).filter
      fun change => stableStringify fmt c change.before ≠ stableStringify fmt c change.after

/-! ## Changes of elements -/

inductive ChangeAction where
  | create
  | update
  | delete
deriving DecidableEq, Repr

inductive ChangeKind where
  | object
  | field
  | taxonomy (kind : TaxonomyKind)
deriving DecidableEq, Repr

structure MetadataRuntimeChange where
  kind : ChangeKind
  action : ChangeAction
  objectNameSingular : Units
  fieldName : Option Units := none
  componentIdentity : Option Units := none
  before : Option Record := none
  after : Option Record := none
  propertyChanges : List PropertyChange := []

/-- The names a change is addressed by. -/
structure Address where
  kind : ChangeKind
  objectNameSingular : Units
  fieldName : Option Units := none
  componentIdentity : Option Units := none

def Address.change (address : Address) (action : ChangeAction) (before after : Option Record)
    (propertyChanges : List PropertyChange) : MetadataRuntimeChange where
  kind := address.kind
  action := action
  objectNameSingular := address.objectNameSingular
  fieldName := address.fieldName
  componentIdentity := address.componentIdentity
  before := before
  after := after
  propertyChanges := propertyChanges

/-- The body of the three loops: `updateIgnore` is what an update ignores. -/
def elementChange (address : Address) (before after : Option Record)
    (ignoreFields updateIgnore : List Units) : Option MetadataRuntimeChange :=
  match before, after with
  | none, some a =>
    some (address.change .create none (some a) (getPropertyChanges fmt c none (some a) ignoreFields))
  | some b, none =>
    some (address.change .delete (some b) none (getPropertyChanges fmt c (some b) none ignoreFields))
  | none, none => none
  | some b, some a =>
    let propertyChanges := getPropertyChanges fmt c (some b) (some a) updateIgnore
    if propertyChanges.isEmpty then none
    else some (address.change .update (some b) (some a) propertyChanges)

/-! ## Indexing -/

/-- A `Map` after the entries are set one after the other. -/
def mapOf {β : Type} (es : List (Units × β)) : List (Units × β) :=
  es.foldl (fun m e => assign m e.1 e.2) []

structure Indexed where
  objects : List (Units × MetadataRuntimeObject)
  fields : List (Units × MetadataRuntimeField)
  taxonomy : TaxonomyKind → List (Units × MetadataRuntimeComponent)

/-- The identity of a field and the field. -/
def fieldEntries (object : MetadataRuntimeObject) : List (Units × MetadataRuntimeField) :=
  object.fields.map fun field => (dotted object.nameSingular field.name, field)

def indexSnapshot (s : MetadataRuntimeSnapshot) : Indexed where
  objects := mapOf (s.objects.map fun object => (object.nameSingular, object))
  fields := mapOf (s.objects.flatMap fieldEntries)
  taxonomy := fun kind => mapOf ((s.components kind).map fun component =>
    (getMetadataRuntimeComponentIdentity kind component.record, component))

/-- The keys of two maps. -/
def allKeys {β : Type} (current target : List (Units × β)) : List Units :=
  (current.map Prod.fst ++ target.map Prod.fst).eraseDups

/-! ## diffSnapshots -/

structure MetadataRuntimeDiffOptions where
  ignoreFields : Option (List Units) := none
  baseline : Option String := none

/-- `METADATA_RUNTIME_DEFAULT_DIFF_OPTIONS.ignoreFields` -/
def defaultIgnoreFields : List Units :=
  ["id", "workspaceId", "createdAt", "updatedAt", "objectMetadataId",
    "labelIdentifierFieldMetadataId", "imageIdentifierFieldMetadataId"].map units

def MetadataRuntimeDiffOptions.ignored (options : MetadataRuntimeDiffOptions) : List Units :=
  options.ignoreFields.getD defaultIgnoreFields

def objectChanges (ignoreFields : List Units)
    (current target : List (Units × MetadataRuntimeObject)) : List MetadataRuntimeChange :=
  (allKeys current target).filterMap fun name =>
    elementChange fmt c { kind := .object, objectNameSingular := name }
      ((current.lookup name).map normalizeObjectForDiff)
      ((target.lookup name).map normalizeObjectForDiff) ignoreFields (ignoreFields ++ [units "fields"])

/-- `const [objectNameSingular, fieldName] = identity.split('.')` -/
def fieldAddress (identity : Units) : Address where
  kind := .field
  objectNameSingular := (identity.splitOn (unit '.')).headD []
  fieldName := (identity.splitOn (unit '.'))[1]?

def fieldChanges (ignoreFields : List Units) (current target : List (Units × MetadataRuntimeField)) :
    List MetadataRuntimeChange :=
  (allKeys current target).filterMap fun identity =>
    elementChange fmt c (fieldAddress identity) ((current.lookup identity).map normalizeFieldForDiff)
      ((target.lookup identity).map normalizeFieldForDiff) ignoreFields ignoreFields

def taxonomyChanges (ignoreFields : List Units) (kind : TaxonomyKind)
    (current target : List (Units × MetadataRuntimeComponent)) : List MetadataRuntimeChange :=
  (allKeys current target).filterMap fun identity =>
    elementChange fmt c
      { kind := .taxonomy kind, objectNameSingular := identity, componentIdentity := some identity }
      ((current.lookup identity).map fun component => spread component.record)
      ((target.lookup identity).map fun component => spread component.record) ignoreFields ignoreFields

structure ActionCounts where
  created : Nat
  updated : Nat
  deleted : Nat
deriving DecidableEq, Repr

/-- The changes of a kind, by their action. -/
def countChanges (changes : List MetadataRuntimeChange) (kind : ChangeKind) : ActionCounts where
  created := (changes.filter fun change => change.kind = kind ∧ change.action = .create).length
  updated := (changes.filter fun change => change.kind = kind ∧ change.action = .update).length
  deleted := (changes.filter fun change => change.kind = kind ∧ change.action = .delete).length

structure DiffSummary where
  objects : ActionCounts
  fields : ActionCounts
  taxonomy : List (TaxonomyKind × ActionCounts)

/-- The loop over the kinds: the changes so far and the counts of the kinds so far. -/
def taxonomyLoop (ignoreFields : List Units) (current target : Indexed) :
    List TaxonomyKind → List MetadataRuntimeChange → List (TaxonomyKind × ActionCounts) →
      List MetadataRuntimeChange × List (TaxonomyKind × ActionCounts)
  | [], changes, counts => (changes, counts)
  | kind :: kinds, changes, counts =>
    let changes := changes ++
      taxonomyChanges fmt c ignoreFields kind (current.taxonomy kind) (target.taxonomy kind)
    taxonomyLoop ignoreFields current target kinds changes
      (counts ++ [(kind, countChanges changes (.taxonomy kind))])

def ChangeAction.upper : ChangeAction → Units
  | .create => units "CREATE"
  | .update => units "UPDATE"
  | .delete => units "DELETE"

def ChangeKind.label : ChangeKind → Units
  | .object => units "object"
  | .field => units "field"
  | .taxonomy kind => units (metadataRuntimeSingularKind kind)

/-- A line of `humanSummary`. -/
def MetadataRuntimeChange.line (change : MetadataRuntimeChange) : Units :=
  let target :=
    match change.componentIdentity.filter (· ≠ []) with
    | some identity => identity
    | none =>
      if change.kind = .object then change.objectNameSingular
      else dotted change.objectNameSingular (change.fieldName.getD (units "undefined"))
  change.action.upper ++ unit ' ' :: change.kind.label ++ unit ' ' :: target

structure MetadataRuntimeDiff where
  baseline : String
  changes : List MetadataRuntimeChange
  summary : DiffSummary
  humanSummary : List Units

def diffSnapshots (currentSnapshot targetSnapshot : MetadataRuntimeSnapshot)
    (options : MetadataRuntimeDiffOptions) : MetadataRuntimeDiff :=
  let current := indexSnapshot currentSnapshot
  let target := indexSnapshot targetSnapshot
  let changes := objectChanges fmt c options.ignored current.objects target.objects ++
    fieldChanges fmt c options.ignored current.fields target.fields
  let looped := taxonomyLoop fmt c options.ignored current target taxonomyKinds changes []
  { baseline := options.baseline.getD "snapshot"
    changes := looped.1
    summary :=
      { objects := countChanges changes .object
        fields := countChanges changes .field
        taxonomy := looped.2 }
    humanSummary := looped.1.map MetadataRuntimeChange.line }

end diff

/-! ## What a diff is to be -/

/-- An element of a snapshot. -/
inductive Element where
  | object (name : Units)
  | field (objectName name : Units)
  | component (kind : TaxonomyKind) (identity : Units)
deriving DecidableEq

namespace MetadataRuntimeSnapshot

def object (s : MetadataRuntimeSnapshot) (name : Units) : Option MetadataRuntimeObject :=
  s.objects.find? fun object => object.nameSingular = name

/-- The normalised record of an element, if the snapshot has it. -/
def normalised (s : MetadataRuntimeSnapshot) : Element → Option Record
  | .object name => (s.object name).map normalizeObjectForDiff
  | .field objectName name => (s.object objectName).bind fun object =>
      (object.fields.find? fun field => field.name = name).map normalizeFieldForDiff
  | .component kind identity => ((s.components kind).find? fun component =>
      getMetadataRuntimeComponentIdentity kind component.record = identity).map fun component =>
        spread component.record

/-- Names and identities are unique. -/
structure Unique (s : MetadataRuntimeSnapshot) : Prop where
  objects : (s.objects.map (·.nameSingular)).Nodup
  fields : ∀ object ∈ s.objects, (object.fields.map (·.name)).Nodup
  components : ∀ kind, ((s.components kind).map fun component =>
    getMetadataRuntimeComponentIdentity kind component.record).Nodup

end MetadataRuntimeSnapshot

/-- The properties that do not count: the fields of an object are elements of their own. -/
def Element.ignored (ignoreFields : List Units) : Element → List Units
  | .object _ => ignoreFields ++ [units "fields"]
  | _ => ignoreFields

/-- Equal properties: up to the order of keys and undefined entries. -/
def SameProperty : Option Value → Option Value → Prop
  | none, none => True
  | some v, some w => v.defined.Same w.defined
  | _, _ => False

/-- Equal elements: both absent, or equal in every property that counts. -/
def SameElement (ignored : List Units) : Option Record → Option Record → Prop
  | none, none => True
  | some r, some r' => ∀ key, key ∉ ignored → SameProperty (get r key) (get r' key)
  | _, _ => False

/-- The element that a change is addressed to. -/
def MetadataRuntimeChange.element (change : MetadataRuntimeChange) : Option Element :=
  match change.kind with
  | .object => some (.object change.objectNameSingular)
  | .field => change.fieldName.map (.field change.objectNameSingular)
  | .taxonomy kind => change.componentIdentity.map (.component kind)

/-- The element is on the side or the sides on which the action of the change finds it. -/
def MetadataRuntimeChange.Fits (change : MetadataRuntimeChange) (before after : Option Record) :
    Prop :=
  match change.action with
  | .create => before = none ∧ after ≠ none
  | .update => before ≠ none ∧ after ≠ none
  | .delete => before ≠ none ∧ after = none

/-- One change applied to the elements that are there: only a missing element can be created, and only
one that is there can be updated or deleted. -/
def applyChange (state : Element → Option Record) (change : MetadataRuntimeChange) :
    Option (Element → Option Record) :=
  match change.element with
  | none => none
  | some e =>
    match change.action, state e with
    | .create, none => some (Function.update state e change.after)
    | .update, some _ => some (Function.update state e change.after)
    | .delete, some _ => some (Function.update state e none)
    | _, _ => none

/-- The counts are the numbers of the changes of a kind with each action. -/
structure Counts (counts : ActionCounts) (kind : ChangeKind) (changes : List MetadataRuntimeChange) :
    Prop where
  created : counts.created =
    (changes.map fun change => (change.kind, change.action)).count (kind, .create)
  updated : counts.updated =
    (changes.map fun change => (change.kind, change.action)).count (kind, .update)
  deleted : counts.deleted =
    (changes.map fun change => (change.kind, change.action)).count (kind, .delete)

/-- The changes are those of the elements that differ, one for each, with the action that its sides
call for; they lead from the one snapshot to the other, and the summary counts them. -/
structure Faithful (ignoreFields : List Units) (current target : MetadataRuntimeSnapshot)
    (diff : MetadataRuntimeDiff) : Prop where
  reported : ∀ e, (∃ change ∈ diff.changes, change.element = some e) ↔
    ¬ SameElement (e.ignored ignoreFields) (current.normalised e) (target.normalised e)
  once : (diff.changes.map (·.element)).Nodup
  fits : ∀ change ∈ diff.changes, ∀ e, change.element = some e →
    change.Fits (current.normalised e) (target.normalised e)
  applied : ∃ result, diff.changes.foldlM applyChange current.normalised = some result ∧
    ∀ e, SameElement (e.ignored ignoreFields) (result e) (target.normalised e)
  objects : Counts diff.summary.objects .object diff.changes
  fields : Counts diff.summary.fields .field diff.changes
  taxonomy : ∀ kind, ∃ counts, diff.summary.taxonomy.lookup kind = some counts ∧
    Counts counts (.taxonomy kind) diff.changes

end NexusClaw.MetadataRuntime
