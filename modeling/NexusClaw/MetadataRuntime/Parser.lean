import NexusClaw.MetadataRuntime.FilePaths

/-!
# Parsing of source files

`metadata-parser.service.ts` and the tests of file names in `metadata-runtime-paths.ts`: the documents
of the files are folded into a map of objects, which have one definition at most and fields by name,
and into lists of components.
-/

namespace NexusClaw.MetadataRuntime

open AuditChain

/-! ## Files -/

def isMetadataRuntimeObjectFile (path : Units) : Bool :=
  (["object.json", "object.yaml", "object.yml"].map units).any (fun name =>
    (unit '.' :: name).isSuffixOf path) ||
    (["object.json", "object.yaml", "object.yml"].map units).contains (basename path)

def isMetadataRuntimeFieldFile (path : Units) : Bool :=
  ([".field.json", ".field.yaml", ".field.yml"].map units).any (·.isSuffixOf path)

def isMetadataRuntimeSourceFile (path : Units) : Bool :=
  isMetadataRuntimeObjectFile path || isMetadataRuntimeFieldFile path ||
    isMetadataRuntimeTaxonomyFile path

/-- A file whose document is a JSON value; an empty file has none. -/
structure MetadataRuntimeLoadedFile where
  path : Units
  document : Option JsonValue

inductive Severity where
  | warning
  | error
deriving DecidableEq, Repr

structure MetadataRuntimeDiagnostic where
  code : String
  severity : Severity
  message : Units
  path : Option Units := none
  line : Option Nat := none
  column : Option Nat := none

/-! ## Envelopes -/

/-- `METADATA_RUNTIME_SCHEMA_VERSION` -/
def metadataRuntimeSchemaVersion : Units :=
  units "metadata-runtime/v1"

/-- A property that is a string which is not empty. -/
def stringOf (r : JsonRecord) (key : String) : Option Units :=
  match r.lookup (units key) with
  | some (.str s) => if s = [] then none else some s
  | _ => none

/-- `isRecord(value) ? value : undefined` -/
def recordOf : Option JsonValue → Option JsonRecord
  | some (.obj r) => some r
  | _ => none

inductive DocumentKind where
  | object
  | field
deriving DecidableEq, Repr

structure Envelope where
  kind : Option DocumentKind
  taxonomyKind : Option TaxonomyKind

/-- What `inferMetadataRuntimeTaxonomyKind` finds for a source file, whose name never has the suffix of
an inherited member. -/
def inferredKind (path : Units) : Option TaxonomyKind :=
  match inferMetadataRuntimeTaxonomyKind path with
  | .kind kind => some kind
  | _ => none

def kindOfName (name : Units) : Option TaxonomyKind :=
  taxonomyKinds.find? fun kind => units (pluralName kind) = name

def diagnostic (code : String) (severity : Severity) (message path : Units) :
    MetadataRuntimeDiagnostic :=
  { code, severity, message, path }

def schemaVersionUnsupported (path schemaVersion : Units) : MetadataRuntimeDiagnostic :=
  diagnostic "METADATA_RUNTIME_SCHEMA_VERSION_UNSUPPORTED" .error
    (units "Unsupported metadata runtime schemaVersion \"" ++ schemaVersion ++
      units "\", expected \"" ++ metadataRuntimeSchemaVersion ++ units "\"") path

def schemaVersionMissing (path : Units) : MetadataRuntimeDiagnostic :=
  diagnostic "METADATA_RUNTIME_SCHEMA_VERSION_MISSING" .warning
    (units "Metadata file \"" ++ path ++ units "\" is missing schemaVersion; defaulting to \"" ++
      metadataRuntimeSchemaVersion ++ units "\" compatibility mode") path

def kindUnsupported (path kind : Units) : MetadataRuntimeDiagnostic :=
  diagnostic "METADATA_RUNTIME_KIND_UNSUPPORTED" .error
    (units "Unsupported metadata runtime kind \"" ++ kind ++ units "\"") path

def kindMissing (path : Units) : MetadataRuntimeDiagnostic :=
  diagnostic "METADATA_RUNTIME_KIND_MISSING" .warning
    (units "Metadata file \"" ++ path ++ units "\" is missing kind; inferring from path") path

def kindPathMismatch (path kind inferred : Units) : MetadataRuntimeDiagnostic :=
  diagnostic "METADATA_RUNTIME_KIND_PATH_MISMATCH" .error
    (units "Metadata file \"" ++ path ++ units "\" declares kind \"" ++ kind ++
      units "\" but its path implies \"" ++ inferred ++ units "\"") path

/-- The declared kind, where it is right for the path. -/
def declaredEnvelope (path kind : Units) : Except MetadataRuntimeDiagnostic Envelope :=
  let inferred := if isMetadataRuntimeFieldFile path then units "field" else units "object"
  if kind = units "object" ∨ kind = units "field" then
    if kind ≠ inferred then .error (kindPathMismatch path kind inferred)
    else .ok
      { kind := some (if kind = units "object" then .object else .field), taxonomyKind := none }
  else
    match (kindOfName kind).orElse fun _ => kindOfName (kind ++ units "s") with
    | none => .error (kindUnsupported path kind)
    | some taxonomyKind => .ok { kind := none, taxonomyKind := some taxonomyKind }

/-- `validateDocumentEnvelope`: the diagnostics, and the envelope of a valid document. -/
def validateDocumentEnvelope (path : Units) (document : JsonRecord) :
    List MetadataRuntimeDiagnostic × Option Envelope :=
  match stringOf document "schemaVersion" with
  | some schemaVersion =>
    if schemaVersion ≠ metadataRuntimeSchemaVersion then
      ([schemaVersionUnsupported path schemaVersion], none)
    else declaredKind []
  | none => declaredKind [schemaVersionMissing path]
where
  declaredKind (diagnostics : List MetadataRuntimeDiagnostic) :
      List MetadataRuntimeDiagnostic × Option Envelope :=
    match stringOf document "kind" with
    | none =>
      (diagnostics ++ [kindMissing path],
        some
          { kind := if isMetadataRuntimeFieldFile path then some .field else none
            taxonomyKind := inferredKind path })
    | some kind =>
      match declaredEnvelope path kind with
      | .error diagnostic => (diagnostics ++ [diagnostic], none)
      | .ok envelope => (diagnostics, some envelope)

/-! ## Objects and fields -/

/-- `MutableObjectDefinition`; the key of a field is the value of its name. -/
structure MutableObjectDefinition where
  object : Option JsonRecord := none
  fields : List (JsonValue × JsonRecord) := []

structure ParserState where
  objects : List (Units × MutableObjectDefinition) := []
  taxonomy : TaxonomyKind → List JsonRecord := fun _ => []
  diagnostics : List MetadataRuntimeDiagnostic := []

def ParserState.report (s : ParserState) (diagnostic : MetadataRuntimeDiagnostic) : ParserState :=
  { s with diagnostics := s.diagnostics ++ [diagnostic] }

/-- `objects.get(name) ?? { fields: new Map() }` -/
def ParserState.entry (s : ParserState) (name : Units) : MutableObjectDefinition :=
  (s.objects.lookup name).getD {}

/-- Keys of a map; objects and arrays are keys of their own. -/
def sameKey : JsonValue → JsonValue → Bool
  | .null, .null => true
  | .bool a, .bool b => a = b
  | .num m, .num n => m.unsigned = n.unsigned
  | .str s, .str t => s = t
  | _, _ => false

def MutableObjectDefinition.has (entry : MutableObjectDefinition) (name : JsonValue) : Bool :=
  entry.fields.any fun field => sameKey field.1 name

/-- The name of a field definition, where it has one. -/
def namedField (field : JsonRecord) : Option JsonValue :=
  (field.lookup (units "name")).filter fun name => truthy (some name)

/-- `String(value)` -/
structure Texts where
  textOf : JsonValue → Units
  textOf_str : ∀ s, textOf (.str s) = s

def fieldNameMissing (path message : Units) : MetadataRuntimeDiagnostic :=
  diagnostic "METADATA_RUNTIME_FIELD_NAME_MISSING" .error message path

def duplicateField (texts : Texts) (objectName : Units) (name : JsonValue) (path : Units) :
    MetadataRuntimeDiagnostic :=
  diagnostic "METADATA_RUNTIME_DUPLICATE_FIELD" .error
    (units "Duplicate field definition \"" ++ dotted objectName (texts.textOf name) ++ units "\"") path

/-- One turn of the loop over the fields of an object document. -/
def consumeInlineField (texts : Texts) (path objectName : Units)
    (acc : MutableObjectDefinition × List MetadataRuntimeDiagnostic) (field : JsonValue) :
    MutableObjectDefinition × List MetadataRuntimeDiagnostic :=
  match recordOf (some field) with
  | none => (acc.1, acc.2 ++ [missing])
  | some record =>
    match namedField record with
    | none => (acc.1, acc.2 ++ [missing])
    | some name =>
      if acc.1.has name then (acc.1, acc.2 ++ [duplicateField texts objectName name path])
      else ({ acc.1 with fields := acc.1.fields ++ [(name, record)] }, acc.2)
where
  missing : MetadataRuntimeDiagnostic :=
    fieldNameMissing path
      (units "Object \"" ++ objectName ++ units "\" contains a field without name")

/-- `Array.isArray(document.fields) ? document.fields : []` -/
def fieldsOf (document : JsonRecord) : List JsonValue :=
  match document.lookup (units "fields") with
  | some (.arr fields) => fields
  | _ => []

/-- `isRecord(document.object) ? document.object : document` -/
def objectPayload (document : JsonRecord) : JsonRecord :=
  (recordOf (document.lookup (units "object"))).getD document

def consumeObjectDocument (texts : Texts) (path : Units) (document : JsonRecord) (s : ParserState) :
    ParserState :=
  let objectDocument := objectPayload document
  match stringOf objectDocument "nameSingular" with
  | none =>
    s.report (diagnostic "METADATA_RUNTIME_OBJECT_NAME_MISSING" .error
      (units "Object definition must include nameSingular") path)
  | some name =>
    let entry := s.entry name
    if entry.object.isSome then
      s.report (diagnostic "METADATA_RUNTIME_DUPLICATE_OBJECT" .error
        (units "Duplicate object definition for \"" ++ name ++ units "\"") path)
    else
      let consumed := (fieldsOf objectDocument).foldl (consumeInlineField texts path name)
        ({ entry with object := some (assign objectDocument (units "fields") (.arr [])) },
          s.diagnostics)
      { s with
        objects := assign s.objects name consumed.1
        diagnostics := consumed.2 }

/-- `asRecord(field.relation)` with a type and a target, of a relation field without a definition. -/
def legacyRelation (field : JsonRecord) : Option (Units × Units) :=
  if stringOf field "type" ≠ some (units "RELATION") ∨
      truthy (field.lookup (units "relationDefinition")) then
    none
  else do
    let relation ← recordOf (field.lookup (units "relation"))
    let direction ← stringOf relation "type"
    let targetObject ← stringOf relation "targetObject"
    some (direction, targetObject)

def normalizeLegacyRelationField (field : JsonRecord) : JsonRecord :=
  match legacyRelation field with
  | none => field
  | some (direction, targetObject) =>
    (assign field (units "relationDefinition")
      (.obj [(units "direction", .str direction),
        (units "targetObjectMetadata",
          .obj [(units "nameSingular", .str targetObject)])])).filter
      fun f => f.1 ≠ units "relation"

def inferObjectNameFromFieldPath (path : Units) : Option Units :=
  let segments := (normalizeMetadataRuntimeFilePath path).splitOn (unit '/')
  match segments.dropWhile (· ≠ units "objects") with
  | _ :: name :: _ => some name
  | _ => none

/-- The object that a field document is for. -/
def fieldObjectName (path : Units) (document : JsonRecord) : Option Units :=
  let name :=
    match document.lookup (units "objectNameSingular") with
    | some (.str s) => some s
    | _ => inferObjectNameFromFieldPath path
  name.filter (· ≠ [])

/-- `isRecord(document.field) ? document.field : document` -/
def fieldPayload (document : JsonRecord) : JsonRecord :=
  (recordOf (document.lookup (units "field"))).getD document

def consumeFieldDocument (texts : Texts) (path : Units) (document : JsonRecord) (s : ParserState) :
    ParserState :=
  let fieldDocument := fieldPayload document
  match fieldObjectName path document with
  | none =>
    s.report (diagnostic "METADATA_RUNTIME_FIELD_OBJECT_MISSING" .error
      (units "Field document must include objectNameSingular or follow objects/<Object>/fields/* path")
      path)
  | some objectName =>
    match namedField fieldDocument with
    | none => s.report (fieldNameMissing path (units "Field definition must include name"))
    | some name =>
      let entry := s.entry objectName
      if entry.has name then s.report (duplicateField texts objectName name path)
      else
        { s with
          objects := assign s.objects objectName
            { entry with
              fields := entry.fields ++ [(name, normalizeLegacyRelationField fieldDocument)] } }

/-! ## Components -/

/-- `getMetadataRuntimeEnvelopePayload` of a document that is an object. -/
def getMetadataRuntimeEnvelopePayload (document : JsonRecord) (kind : TaxonomyKind) : JsonRecord :=
  match recordOf (document.lookup (units (metadataRuntimeSingularKind kind))) with
  | some nested => nested
  | none =>
    if truthy (document.lookup (units "kind")) then
      document.filter fun f => f.1 ≠ units "kind" ∧ f.1 ≠ units "schemaVersion"
    else document

/-- `consumeTaxonomyDocument`; every document that is an object has a payload. -/
def consumeTaxonomyDocument (document : JsonRecord) (kind : TaxonomyKind) (s : ParserState) :
    ParserState :=
  { s with
    taxonomy := Function.update s.taxonomy kind
      (s.taxonomy kind ++ [getMetadataRuntimeEnvelopePayload document kind]) }

/-! ## parseFiles -/

def consumeFile (texts : Texts) (s : ParserState) (file : MetadataRuntimeLoadedFile) : ParserState :=
  let path := normalizeMetadataRuntimeFilePath file.path
  match recordOf file.document with
  | none =>
    s.report (diagnostic "METADATA_RUNTIME_INVALID_DOCUMENT" .error
      (units "Metadata file must parse into an object document") path)
  | some document =>
    let checked := validateDocumentEnvelope path document
    let s := { s with diagnostics := s.diagnostics ++ checked.1 }
    match checked.2 with
    | none => s
    | some envelope =>
      if isMetadataRuntimeFieldFile path || envelope.kind = some .field then
        consumeFieldDocument texts path document s
      else
        match envelope.taxonomyKind with
        | some kind => consumeTaxonomyDocument document kind s
        | none => consumeObjectDocument texts path document s

structure ParsedObject where
  object : JsonRecord
  nameSingular : Units
  fields : List JsonRecord

/-- `{ ...entry.object, nameSingular, fields }` -/
def ParsedObject.record (o : ParsedObject) : JsonRecord :=
  assign (assign o.object (units "nameSingular") (.str o.nameSingular)) (units "fields")
    (.arr (o.fields.map .obj))

structure ParsedSnapshot where
  objects : List ParsedObject
  taxonomy : TaxonomyKind → List JsonRecord

def snapshotObject (entry : Units × MutableObjectDefinition) : Option ParsedObject :=
  entry.2.object.map fun object =>
    { object, nameSingular := entry.1, fields := entry.2.fields.map Prod.snd }

def orphanFields (name : Units) : MetadataRuntimeDiagnostic where
  code := "METADATA_RUNTIME_ORPHAN_FIELDS"
  severity := .error
  message := units "Fields were provided for object \"" ++ name ++
    units "\" but no object definition exists"

def parseFiles (texts : Texts) (files : List MetadataRuntimeLoadedFile) :
    ParsedSnapshot × List MetadataRuntimeDiagnostic :=
  let s := files.foldl (consumeFile texts) {}
  ({ objects := s.objects.filterMap snapshotObject, taxonomy := s.taxonomy },
    s.diagnostics ++ (s.objects.filter fun entry => entry.2.object.isNone).map fun entry =>
      orphanFields entry.1)

end NexusClaw.MetadataRuntime
