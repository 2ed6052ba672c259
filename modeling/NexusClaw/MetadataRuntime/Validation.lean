import Mathlib.Data.List.Sort
import NexusClaw.MetadataRuntime.Parser

/-!
# Validation of source files

`metadata-source-file-loader.service.ts`, `validateFiles` of `community-metadata-runtime.service.ts` and
`sortMetadataRuntimeSnapshot`: source files are loaded and parsed, the snapshot is checked, and its
objects, fields and components are sorted by name.
-/

namespace NexusClaw.MetadataRuntime

open AuditChain

/-! ## Loading -/

structure MetadataRuntimeSourceFile where
  path : Units
  content : Units

/-- `YAMLException` -/
structure YamlException where
  message : Units
  mark : Option (Nat × Nat)

/-- `yaml.load`, which gives nothing for an empty text, the order of names and the texts of values. -/
structure Platform where
  load : Units → Except YamlException (Option JsonValue)
  collation : Collation
  texts : Texts

def ignoredFile (path : Units) : MetadataRuntimeDiagnostic :=
  diagnostic "METADATA_RUNTIME_SOURCE_FILE_IGNORED" .warning
    (units ("File is outside the metadata-runtime JSON/YAML object, field, and taxonomy contract " ++
      "and was ignored")) path

def parseError (path : Units) (error : YamlException) : MetadataRuntimeDiagnostic where
  code := "METADATA_RUNTIME_PARSE_ERROR"
  severity := .error
  message := error.message
  path := path
  line := error.mark.map fun mark => mark.1 + 1
  column := error.mark.map fun mark => mark.2 + 1

/-- One turn of the loop of `loadFromFiles`. -/
def loadFile (p : Platform) (file : MetadataRuntimeSourceFile) :
    Except MetadataRuntimeDiagnostic MetadataRuntimeLoadedFile :=
  let path := normalizeMetadataRuntimeFilePath file.path
  if isMetadataRuntimeSourceFile path = false then .error (ignoredFile path)
  else
    match p.load file.content with
    | .error error => .error (parseError path error)
    | .ok document => .ok { path, document }

def loadFromFiles (p : Platform) (files : List MetadataRuntimeSourceFile) :
    List MetadataRuntimeLoadedFile × List MetadataRuntimeDiagnostic :=
  (files.filterMap fun file => (loadFile p file).toOption,
    files.filterMap fun file =>
      match loadFile p file with
      | .error diagnostic => some diagnostic
      | .ok _ => none)

/-! ## Sorting -/

section sort
variable {α ε : Type}

/-- A new element moves down from the end of what is sorted, here in reverse. -/
def place (isBefore : α → α → Except ε Bool) (x : α) : List α → Except ε (List α)
  | [] => .ok [x]
  | last :: rest => do
    if ← isBefore x last then
      let placed ← place isBefore x rest
      .ok (last :: placed)
    else .ok (x :: last :: rest)

/-- `Array.prototype.sort` with a comparison that may throw. -/
def sortBy (isBefore : α → α → Except ε Bool) (xs : List α) : Except ε (List α) := do
  let placed ← xs.foldlM (fun placed x => place isBefore x placed) []
  .ok placed.reverse

end sort

/-- `left.name.localeCompare(right.name) < 0` -/
def nameBefore (p : Platform) (left right : JsonRecord) : Except Units Bool :=
  match left.lookup (units "name"), right.lookup (units "name") with
  | some (.str s), some v => .ok (!p.collation.le (p.texts.textOf v) s)
  | _, _ => .error (units "left.name.localeCompare is not a function")

def sortMetadataRuntimeSnapshot (p : Platform) (snapshot : ParsedSnapshot) :
    Except Units ParsedSnapshot := do
  let objects ← snapshot.objects.mapM fun object => do
    let fields ← sortBy (nameBefore p) object.fields
    .ok { object with fields }
  .ok
    { objects := objects.insertionSort fun left right =>
        p.collation.le left.nameSingular right.nameSingular = true
      taxonomy := fun kind => (snapshot.taxonomy kind).insertionSort fun left right =>
        p.collation.le (getMetadataRuntimeComponentIdentity kind left)
          (getMetadataRuntimeComponentIdentity kind right) = true }

/-! ## validateFiles -/

def finding (code : String) (message : Units) : MetadataRuntimeDiagnostic where
  code := code
  severity := .error
  message := message

/-- The loop over the fields of an object: the names so far and the diagnostics. -/
def checkField (p : Platform) (objectName : Units)
    (acc : List JsonValue × List MetadataRuntimeDiagnostic) (field : JsonRecord) :
    List JsonValue × List MetadataRuntimeDiagnostic :=
  let name := (field.lookup (units "name")).getD .null
  let type := field.lookup (units "type")
  let shown := dotted objectName (p.texts.textOf name)
  let incomplete :=
    if truthy (some name) && truthy type then []
    else
      [finding "METADATA_RUNTIME_FIELD_IDENTITY_INCOMPLETE"
        (units "Object \"" ++ objectName ++ units "\" has a field without name/type")]
  let duplicate :=
    if acc.1.any (sameKey · name) then
      [finding "METADATA_RUNTIME_DUPLICATE_FIELD"
        (units "Duplicate field \"" ++ shown ++ units "\"")]
    else []
  let unavailable :=
    match stringOf field "type" with
    | some type =>
      if type = units "FORMULA" ∨ type = units "ROLLUP" then
        [finding "CAPABILITY_UNAVAILABLE_IN_COMMUNITY"
          (units "Community v0.1 cannot validate " ++ type ++ units " field \"" ++ shown ++
            units "\"")]
      else []
    | none => []
  (acc.1 ++ [name], acc.2 ++ incomplete ++ duplicate ++ unavailable)

/-- The loop over the objects: the names so far and the diagnostics. -/
def checkObject (p : Platform) (acc : List Units × List MetadataRuntimeDiagnostic)
    (object : ParsedObject) : List Units × List MetadataRuntimeDiagnostic :=
  let incomplete :=
    if object.nameSingular ≠ [] && truthy (object.record.lookup (units "namePlural")) then []
    else
      [finding "METADATA_RUNTIME_OBJECT_IDENTITY_INCOMPLETE"
        (units "Community metadata objects require nameSingular and namePlural")]
  let duplicate :=
    if object.nameSingular ∈ acc.1 then
      [finding "METADATA_RUNTIME_DUPLICATE_OBJECT"
        (units "Duplicate object \"" ++ object.nameSingular ++ units "\"")]
    else []
  (acc.1 ++ [object.nameSingular],
    acc.2 ++ incomplete ++ duplicate ++
      (object.fields.foldl (checkField p object.nameSingular) ([], [])).2)

def checkTaxonomy (snapshot : ParsedSnapshot) : List MetadataRuntimeDiagnostic :=
  (taxonomyKinds.filter fun kind => (snapshot.taxonomy kind).isEmpty = false).map fun kind =>
    finding "CAPABILITY_UNAVAILABLE_IN_COMMUNITY"
      (units "Community v0.1 metadata taxonomy \"" ++ units (pluralName kind) ++
        units "\" is unavailable")

structure MetadataRuntimeValidationResult where
  valid : Bool
  diagnostics : List MetadataRuntimeDiagnostic
  summary : List Units

def Severity.upper : Severity → Units
  | .warning => units "WARNING"
  | .error => units "ERROR"

def validationOf (p : Platform) (files : List MetadataRuntimeSourceFile) :
    MetadataRuntimeValidationResult :=
  let loaded := loadFromFiles p files
  let parsed := parseFiles p.texts loaded.1
  let diagnostics := loaded.2 ++ parsed.2 ++ (parsed.1.objects.foldl (checkObject p) ([], [])).2 ++
    checkTaxonomy parsed.1
  { valid := diagnostics.all fun item => item.severity ≠ .error
    diagnostics
    summary := diagnostics.map fun item => item.severity.upper ++ units ": " ++ item.message }

def validateFiles (p : Platform) (files : List MetadataRuntimeSourceFile) :
    Except Units (ParsedSnapshot × MetadataRuntimeValidationResult) := do
  let snapshot ← sortMetadataRuntimeSnapshot p (parseFiles p.texts (loadFromFiles p files).1).1
  .ok (snapshot, validationOf p files)

end NexusClaw.MetadataRuntime
