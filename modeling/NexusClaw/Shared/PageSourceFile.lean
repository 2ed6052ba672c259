import Mathlib.Data.List.TakeWhile
import NexusClaw.Shared.CanonicalSchema

/-!
# Page source files

`serializePageSourceFile` and `parsePageSourceFile` of `source-format/page-source-file.ts`: a custom
page as two files, the schema in a file of its own, and back, with every error of the way back. A page
comes back as it was (`SamePage`, up to the order of keys and the sign of zeros) when the path leads to
a stem that is its name and no object of its schema has an own key `__proto__`; the stem is cut out of
the path at `/` only.
-/

namespace NexusClaw.PageSource
open AuditChain (Units JsonValue NumberFormat unit units parse isDigit lookup_eq_some)
open MetadataRuntime (unsign unsign_obj distinct_unsign normal_unsign fromEntries fromEntries_perm sortKeys_obj pretty
  pretty_unsign sortKeys)

/-! ## Pages -/

inductive PageType where
  | record
  | list
  | app
  | utility
deriving DecidableEq

inductive PageStatus where
  | draft
  | published
  | archived
deriving DecidableEq

def PageType.text : PageType → Units
  | .record => units "record"
  | .list => units "list"
  | .app => units "app"
  | .utility => units "utility"

def PageStatus.text : PageStatus → Units
  | .draft => units "draft"
  | .published => units "published"
  | .archived => units "archived"

/-- `PAGE_TYPES` -/
def pageTypes : List PageType :=
  [.record, .list, .app, .utility]

/-- `PAGE_STATUSES` -/
def pageStatuses : List PageStatus :=
  [.draft, .published, .archived]

/-- A page; the parser looks at the kinds of no other field than these four. -/
structure CustomPageLike where
  apiName : Units
  name : JsonValue
  description : JsonValue
  type : PageType
  status : PageStatus
  objectName : JsonValue
  schema : List (Units × JsonValue)
  version : JsonValue
  icon : JsonValue
  route : JsonValue
  isActive : JsonValue
  isSystem : JsonValue

/-- `DEPLOYABLE_FIELDS` -/
def deployableFields : List Units :=
  ["apiName", "name", "description", "type", "status", "objectName", "schema", "version", "icon",
    "route", "isActive", "isSystem"].map units

/-- `PAGE_SOURCE_MAIN_SUFFIX` -/
def mainSuffix : Units :=
  units ".page.json"

/-- `PAGE_SOURCE_SCHEMA_SUFFIX` -/
def schemaSuffix : Units :=
  units ".page.schema.json"

/-! ## serializePageSourceFile -/

structure PageSourceFileBundle where
  mainFileName : Units
  mainContent : Units
  schemaFileName : Units
  schemaContent : Units

/-- The object of the main file, with `externalRef` for the schema. -/
def mainObject (entity : CustomPageLike) : List (Units × JsonValue) :=
  [(units "apiName", .str entity.apiName), (units "name", entity.name),
    (units "description", entity.description), (units "type", .str entity.type.text),
    (units "status", .str entity.status.text), (units "objectName", entity.objectName),
    (units "schema", .str (units "@external:" ++ (entity.apiName ++ schemaSuffix))),
    (units "version", entity.version), (units "icon", entity.icon), (units "route", entity.route),
    (units "isActive", entity.isActive), (units "isSystem", entity.isSystem)]

def serializePageSourceFile (fmt : NumberFormat) (entity : CustomPageLike) :
    PageSourceFileBundle where
  mainFileName := entity.apiName ++ mainSuffix
  mainContent := canonicalStringify fmt (.obj (mainObject entity)) false
  schemaFileName := entity.apiName ++ schemaSuffix
  schemaContent := canonicalStringify fmt (.obj entity.schema) true

/-! ## parsePageSourceFile -/

inductive Reason where
  | missingField
  | unknownField
  | apinameMismatch
  | invalidEnum
  | invalidJson
  | schemaMissing
deriving DecidableEq

structure PageSourceFileParseError where
  path : Units
  reason : Reason
  detail : Units

/-- The result; `throws` is an exception that the template of a detail throws. -/
inductive PageSourceFileParseResult where
  | ok (page : CustomPageLike)
  | failed (errors : List PageSourceFileParseError)
  | throws

structure ParsePageSourceFileInput where
  mainContent : Units
  schemaContent : Option Units
  sourcePath : Units

/-- What the language gives: the texts of numbers, and `String(value)`, which may throw. -/
structure Host where
  fmt : NumberFormat
  toText : JsonValue → Option Units

/-- `path.split(separator).pop()` -/
def lastPart (separator : UInt16) (path : Units) : Units :=
  (path.reverse.takeWhile (· ≠ separator)).reverse

def stemOf (fileName : Units) : Option Units :=
  if mainSuffix <:+ fileName then some (fileName.take (fileName.length - mainSuffix.length))
  else none

def extractStemFromPath (sourcePath : Units) : Option Units :=
  (stemOf (lastPart (unit '/') sourcePath)).or (stemOf (lastPart (unit '\\') sourcePath))

/-- `texts.join(', ')` -/
def commaJoined : List Units → Units
  | [] => []
  | [t] => t
  | t :: ts => t ++ units ", " ++ commaJoined ts

/-- A field of the main object, once all of them are known to be there. -/
def member (fields : List (Units × JsonValue)) (name : String) : JsonValue :=
  (fields.lookup (units name)).getD .null

/-- The errors for fields that are not known, and for fields that are not there. -/
def structuralErrors (path : Units) (fields : List (Units × JsonValue)) :
    List PageSourceFileParseError :=
  let unknownFields := ((fromEntries fields).map Prod.fst).filter (· ∉ deployableFields)
  let missingFields := deployableFields.filter (· ∉ fields.map Prod.fst)
  (if unknownFields = [] then []
    else [⟨path, .unknownField, units "Unknown fields: " ++ commaJoined unknownFields⟩]) ++
    missingFields.map fun field =>
      ⟨path, .missingField, units "Missing required field: " ++ field⟩

/-- The check of an enumeration; `none` when the text of the detail throws. -/
def checkEnum {τ : Type} (host : Host) (path : Units) (label : String) (allowed : List τ)
    (text : τ → Units) (value : JsonValue) : Option (Except PageSourceFileParseError τ) :=
  match value with
  | .str s =>
    match allowed.find? (text · = s) with
    | some t => some (.ok t)
    | none => some (.error (invalid s))
  | other => (host.toText other).map fun s => .error (invalid s)
where
  invalid (s : Units) : PageSourceFileParseError :=
    ⟨path, .invalidEnum, units "Invalid " ++ units label ++ units ": \"" ++ s ++
      units "\". Allowed values: " ++ commaJoined (allowed.map text)⟩

def errorOf {τ : Type} : Except PageSourceFileParseError τ → List PageSourceFileParseError
  | .ok _ => []
  | .error e => [e]

def mismatchErrors (path apiName : Units) : List PageSourceFileParseError :=
  match extractStemFromPath path with
  | some stem =>
    if stem = apiName then []
    else
      [⟨path, .apinameMismatch, units "apiName mismatch: file stem is \"" ++ stem ++
        units "\" but apiName field is \"" ++ apiName ++ units "\""⟩]
  | none => []

/-- The page, from the fields of the main file and the schema of the other. -/
def readPage (fields : List (Units × JsonValue)) (apiName : Units) (type : PageType)
    (status : PageStatus) (schema : List (Units × JsonValue)) : CustomPageLike where
  apiName
  name := member fields "name"
  description := member fields "description"
  type
  status
  objectName := member fields "objectName"
  schema
  version := member fields "version"
  icon := member fields "icon"
  route := member fields "route"
  isActive := member fields "isActive"
  isSystem := member fields "isSystem"

/-- The check of the apiName against the stem, of the enumerations and of the schema file, and the
reading of that file. -/
def parseNamed (host : Host) (input : ParsePageSourceFileInput) (fields : List (Units × JsonValue))
    (apiName : Units) : PageSourceFileParseResult :=
  let path := input.sourcePath
  let mismatch := mismatchErrors path apiName
  match checkEnum host path "type" pageTypes PageType.text (member fields "type"),
      checkEnum host path "status" pageStatuses PageStatus.text (member fields "status") with
  | some type, some status =>
    match mismatch, type, status, input.schemaContent with
    | [], .ok type, .ok status, some content =>
      match parse host.fmt content with
      | none => .failed [⟨path, .invalidJson, units "Schema sidecar file is not valid JSON"⟩]
      | some (.obj schema) => .ok (readPage fields apiName type status schema)
      | some _ =>
        .failed [⟨path, .invalidJson, units "Schema sidecar root must be a JSON object"⟩]
    | _, _, _, content =>
      .failed (mismatch ++ errorOf type ++ errorOf status ++
        if content.isNone then
          [⟨path, .schemaMissing, units "Schema sidecar file not found for apiName \"" ++ apiName ++
            units "\""⟩]
        else [])
  | _, _ => .throws

/-- The checks on the object of the main file. -/
def parseMain (host : Host) (input : ParsePageSourceFileInput)
    (fields : List (Units × JsonValue)) : PageSourceFileParseResult :=
  match structuralErrors input.sourcePath fields with
  | [] =>
    match member fields "apiName" with
    | .str (c :: cs) => parseNamed host input fields (c :: cs)
    | _ =>
      .failed [⟨input.sourcePath, .missingField, units "Missing required field: apiName"⟩]
  | errors => .failed errors

def parsePageSourceFile (host : Host) (input : ParsePageSourceFileInput) :
    PageSourceFileParseResult :=
  match parse host.fmt input.mainContent with
  | none => .failed [⟨input.sourcePath, .invalidJson, units "Main file is not valid JSON"⟩]
  | some (.obj fields) => parseMain host input fields
  | some _ =>
    .failed [⟨input.sourcePath, .invalidJson, units "Main file root must be a JSON object"⟩]

/-! ## Round trips -/

/-- The same page: values are compared up to the order of keys and the sign of zeros. -/
structure SamePage (e r : CustomPageLike) : Prop where
  apiName : e.apiName = r.apiName
  name : e.name.Same r.name
  description : e.description.Same r.description
  type : e.type = r.type
  status : e.status = r.status
  objectName : e.objectName.Same r.objectName
  schema : (JsonValue.obj e.schema).Same (.obj r.schema)
  version : e.version.Same r.version
  icon : e.icon.Same r.icon
  route : e.route.Same r.route
  isActive : e.isActive.Same r.isActive
  isSystem : e.isSystem.Same r.isSystem

/-- No value of the page has a key twice. -/
structure DistinctPage (e : CustomPageLike) : Prop where
  name : e.name.Distinct
  description : e.description.Distinct
  objectName : e.objectName.Distinct
  schema : (JsonValue.obj e.schema).Distinct
  version : e.version.Distinct
  icon : e.icon.Distinct
  route : e.route.Distinct
  isActive : e.isActive.Distinct
  isSystem : e.isSystem.Distinct

def isLower (c : UInt16) : Bool :=
  unit 'a' ≤ c && c ≤ unit 'z'

/-- `API_NAME_PATTERN` -/
def isApiName : Units → Bool
  | [] => false
  | c :: cs => isLower c && cs.all fun d => isLower d || isDigit d || d = unit '_'

/-- A page with a name of the pattern. -/
structure WellFormed (e : CustomPageLike) : Prop where
  apiName : isApiName e.apiName = true
  distinct : DistinctPage e

/-- A directory in front of a file name: nothing, or a text that ends in a separator. -/
def Directory (dir : Units) : Prop :=
  dir = [] ∨ dir.getLast? = some (unit '/') ∨ dir.getLast? = some (unit '\\')

/-- The files of the page, found at this path, are read as the page. -/
def RoundTrips (host : Host) (e : CustomPageLike) (path : Units) : Prop :=
  ∃ r, parsePageSourceFile host
      ⟨(serializePageSourceFile host.fmt e).mainContent,
        some (serializePageSourceFile host.fmt e).schemaContent, path⟩ = .ok r ∧
    SamePage e r

/-! ### The main file -/

section files
variable {host : Host} {e r : CustomPageLike} {path : Units}

/-- The main file has the deployable fields. -/
lemma keys_mainObject (e : CustomPageLike) : (mainObject e).map Prod.fst = deployableFields := rfl

/-- No deployable field comes twice. -/
lemma deployableFields_nodup : deployableFields.Nodup := by
  decide

/-- The fields of the main file as they are read back. -/
def rereadFields (e : CustomPageLike) : List (Units × JsonValue) :=
  (mainObject e).map fun f => (f.1, unsign f.2)

/-- A page that was written has no structural error. -/
lemma structuralErrors_reread (path : Units) (e : CustomPageLike) :
    structuralErrors path (rereadFields e) = [] := by
  have hkeys : (rereadFields e).map Prod.fst = deployableFields := rfl
  have hown : ∀ key ∈ (fromEntries (rereadFields e)).map Prod.fst, key ∈ deployableFields := by
    intro key hkey
    rw [← hkeys]
    exact ((fromEntries_perm _).map Prod.fst).mem_iff.1 hkey
  have hunknown : ((fromEntries (rereadFields e)).map Prod.fst).filter (· ∉ deployableFields) = [] :=
    List.filter_eq_nil_iff.2 fun key hkey => by simpa using hown key hkey
  have hmissing : deployableFields.filter (· ∉ (rereadFields e).map Prod.fst) = [] :=
    List.filter_eq_nil_iff.2 fun key hkey => by simpa [hkeys] using hkey
  unfold structuralErrors
  rw [hunknown, hmissing]
  rfl

/-- The schema as it is read back. -/
def rereadSchema (e : CustomPageLike) : List (Units × JsonValue) :=
  match unsign (sortKeysReplacer (.obj e.schema)) with
  | .obj fields => fields
  | _ => []

/-- The page as it is read back from its files. -/
def reread (e : CustomPageLike) : CustomPageLike :=
  readPage (rereadFields e) e.apiName e.type e.status (rereadSchema e)

/-- The schema is read back as an object. -/
lemma rereadSchema_obj (e : CustomPageLike) :
    unsign (sortKeysReplacer (.obj e.schema)) = .obj (rereadSchema e) := by
  unfold rereadSchema sortKeysReplacer
  rw [withoutProto_obj, sortKeys_obj, unsign_obj]

/-- The main file repeats no key. -/
lemma distinct_mainObject (he : DistinctPage e) : (JsonValue.obj (mainObject e)).Distinct := by
  rw [JsonValue.distinct_obj, keys_mainObject]
  refine ⟨deployableFields_nodup, ?_⟩
  simp only [mainObject, List.forall_mem_cons]
  exact ⟨trivial, he.name, he.description, trivial, trivial, he.objectName, trivial, he.version,
    he.icon, he.route, he.isActive, he.isSystem, nofun⟩

/-- The main file is parsed back. -/
lemma parse_mainContent (host : Host) (he : DistinctPage e) :
    parse host.fmt (serializePageSourceFile host.fmt e).mainContent =
      some (.obj (rereadFields e)) := by
  have hread := parse_pretty_line host.fmt (distinct_mainObject he)
  rw [unsign_obj] at hread
  rw [serializePageSourceFile, canonicalStringify_eq]
  exact hread

/-- The schema file is parsed back. -/
lemma parse_schemaContent (host : Host) (he : DistinctPage e) :
    parse host.fmt (serializePageSourceFile host.fmt e).schemaContent =
      some (.obj (rereadSchema e)) := by
  have hread := parse_pretty_line host.fmt (distinct_sortKeysReplacer he.schema)
  rw [rereadSchema_obj] at hread
  have hcontent : (serializePageSourceFile host.fmt e).schemaContent =
      canonicalStringify host.fmt (.obj e.schema) true := rfl
  rw [hcontent, canonicalStringify_eq]
  exact hread

/-- A type that was written is a type. -/
lemma checkEnum_type (host : Host) (path : Units) (type : PageType) :
    checkEnum host path "type" pageTypes PageType.text (.str type.text) = some (.ok type) := by
  cases type <;> rfl

/-- A status that was written is a status. -/
lemma checkEnum_status (host : Host) (path : Units) (status : PageStatus) :
    checkEnum host path "status" pageStatuses PageStatus.text (.str status.text) =
      some (.ok status) := by
  cases status <;> rfl

/-- The files of a page are read as the page, or refused for the stem of their path. -/
lemma parse_serialize (host : Host) (he : DistinctPage e) (hname : e.apiName ≠ []) (path : Units) :
    parsePageSourceFile host
        ⟨(serializePageSourceFile host.fmt e).mainContent,
          some (serializePageSourceFile host.fmt e).schemaContent, path⟩ =
      match mismatchErrors path e.apiName with
      | [] => .ok (reread e)
      | errors => .failed errors := by
  have hmain := parse_mainContent host he
  have hschema := parse_schemaContent host he
  obtain ⟨c, cs, hcons⟩ := List.exists_cons_of_ne_nil hname
  have hapi : member (rereadFields e) "apiName" = .str (c :: cs) := by
    rw [← hcons]
    rfl
  have htype : member (rereadFields e) "type" = .str e.type.text := rfl
  have hstatus : member (rereadFields e) "status" = .str e.status.text := rfl
  rw [parsePageSourceFile, hmain]
  dsimp only
  rw [parseMain, structuralErrors_reread]
  dsimp only
  rw [hapi]
  dsimp only
  rw [parseNamed, htype, hstatus, checkEnum_type, checkEnum_status, ← hcons]
  dsimp only
  -- the names of the files are compared with the stem of the path last
  cases mismatchErrors path e.apiName with
  | nil =>
    dsimp only
    rw [hschema]
    rfl
  | cons error errors => simp [errorOf]

/-! ### What comes back -/

/-- A value is the same without the sign of a zero. -/
lemma same_unsign {v : JsonValue} (hv : v.Distinct) : v.Same (unsign v) := by
  rw [JsonValue.same_iff_normal hv (distinct_unsign hv), normal_unsign]

/-- What is read back is the page, up to the keys that its schema loses. -/
lemma samePage_reread (he : DistinctPage e) :
    SamePage e (reread e) ↔ ProtoFree (.obj e.schema) := by
  have hschema : (JsonValue.obj e.schema).Same (.obj (rereadSchema e)) ↔
      ProtoFree (.obj e.schema) := by
    rw [← rereadSchema_obj, ← same_withoutProto he.schema,
      JsonValue.same_iff_normal he.schema
        (distinct_unsign (distinct_sortKeysReplacer he.schema)), normal_unsign,
      normal_sortKeysReplacer he.schema,
      JsonValue.same_iff_normal he.schema (distinct_withoutProto he.schema)]
  constructor
  · intro h
    exact hschema.1 h.schema
  · intro h
    exact
      { apiName := rfl
        name := same_unsign he.name
        description := same_unsign he.description
        type := rfl
        status := rfl
        objectName := same_unsign he.objectName
        schema := hschema.2 h
        version := same_unsign he.version
        icon := same_unsign he.icon
        route := same_unsign he.route
        isActive := same_unsign he.isActive
        isSystem := same_unsign he.isSystem }

/-- A page comes back from a path exactly when the stem of the path is its name, if the path has one,
and its schema loses no key. -/
lemma roundTrips_path (host : Host) (he : DistinctPage e) (hname : e.apiName ≠ []) (path : Units) :
    RoundTrips host e path ↔
      mismatchErrors path e.apiName = [] ∧ ProtoFree (.obj e.schema) := by
  unfold RoundTrips
  rw [parse_serialize host he hname path, ← samePage_reread he]
  cases mismatchErrors path e.apiName with
  | nil =>
    constructor
    · rintro ⟨r, hr, hsame⟩
      cases hr
      exact ⟨rfl, hsame⟩
    · rintro ⟨-, hsame⟩
      exact ⟨reread e, rfl, hsame⟩
  | cons error errors =>
    constructor
    · rintro ⟨r, hr, -⟩
      cases hr
    · rintro ⟨himpossible, -⟩
      cases himpossible

/-! ### Stems -/

/-- The last part is within the back. -/
lemma lastPart_append {separator : UInt16} {front back : Units} (h : separator ∉ back) :
    lastPart separator (front ++ back) = lastPart separator front ++ back := by
  have hpos : ∀ c ∈ back.reverse, decide (c ≠ separator) = true := by
    intro c hc
    refine decide_eq_true ?_
    rintro rfl
    exact h (List.mem_reverse.1 hc)
  unfold lastPart
  rw [List.reverse_append, List.takeWhile_append_of_pos hpos, List.reverse_append,
    List.reverse_reverse]

/-- The stem of a main file. -/
lemma stemOf_append (front : Units) : stemOf (front ++ mainSuffix) = some front := by
  have hlength : (front ++ mainSuffix).length - mainSuffix.length = front.length := by
    rw [List.length_append, Nat.add_sub_cancel]
  rw [stemOf, if_pos (List.suffix_append front mainSuffix), hlength, List.take_left']
  rfl

/-- The stem of a path to a main file is what its last part at `/` says. -/
lemma extractStem_append (front : Units) :
    extractStemFromPath (front ++ mainSuffix) = some (lastPart (unit '/') front) := by
  have hslash : unit '/' ∉ mainSuffix := by decide
  rw [extractStemFromPath, lastPart_append hslash, stemOf_append, Option.some_or]

/-- A file fits its page if its name is the page's. -/
lemma mismatchErrors_append (front apiName : Units) :
    mismatchErrors (front ++ mainSuffix) apiName = [] ↔ lastPart (unit '/') front = apiName := by
  unfold mismatchErrors
  rw [extractStem_append]
  dsimp only
  split_ifs with hsame
  · simp [hsame]
  · simp [hsame]

/-- A text without a separator is its own last part. -/
lemma lastPart_eq_self {separator : UInt16} {s : Units} :
    lastPart separator s = s ↔ separator ∉ s := by
  unfold lastPart
  rw [List.reverse_eq_iff, List.takeWhile_eq_self_iff]
  simp only [List.mem_reverse, decide_eq_true_eq]
  constructor
  · intro h hmem
    exact h separator hmem rfl
  · rintro h c hc rfl
    exact h hc

/-- The last part is empty behind a separator. -/
lemma lastPart_eq_nil {separator : UInt16} {s : Units} :
    lastPart separator s = [] ↔ s = [] ∨ s.getLast? = some separator := by
  unfold lastPart
  rw [List.reverse_eq_nil_iff]
  rcases List.eq_nil_or_concat s with rfl | ⟨front, c, rfl⟩
  · simp
  · rw [List.concat_eq_append, List.reverse_append, List.getLast?_concat]
    by_cases hc : c = separator
    · simp [hc]
    · simp [hc]

/-! ### Names -/

/-- A name of the API has no slash. -/
lemma apiName_noSlash {s : Units} (h : isApiName s = true) : unit '/' ∉ s := by
  have hlower : isLower (unit '/') = false := by decide
  cases s with
  | nil => exact List.not_mem_nil
  | cons c cs =>
    rw [isApiName, Bool.and_eq_true, List.all_eq_true] at h
    intro hmem
    rcases List.mem_cons.1 hmem with hc | hmem
    · rw [← hc, hlower] at h
      exact Bool.false_ne_true h.1
    · exact absurd (h.2 _ hmem) (by decide)

/-- A name of the API is not empty. -/
lemma apiName_ne_nil {s : Units} (h : isApiName s = true) : s ≠ [] := by
  rintro rfl
  cases h

/-- A page comes back from a directory exactly when the directory is not written with a backslash at
its end, and the schema loses no key. -/
lemma roundTrips_directory (host : Host) (he : WellFormed e) {dir : Units} (hdir : Directory dir) :
    RoundTrips host e (dir ++ (serializePageSourceFile host.fmt e).mainFileName) ↔
      dir.getLast? ≠ some (unit '\\') ∧ ProtoFree (.obj e.schema) := by
  have hne : unit '/' ≠ unit '\\' := by decide
  have hends : lastPart (unit '/') dir = [] ↔ dir.getLast? ≠ some (unit '\\') := by
    rw [lastPart_eq_nil]
    rcases hdir with rfl | hslash | hback
    · simp
    · simp [hslash, hne]
    · rw [hback]
      have hnil : dir ≠ [] := by
        rintro rfl
        cases hback
      simp [hnil, hne.symm]
  rw [roundTrips_path host he.distinct (apiName_ne_nil he.apiName), ← hends]
  refine and_congr_left' ?_
  rw [serializePageSourceFile, ← List.append_assoc, mismatchErrors_append,
    lastPart_append (apiName_noSlash he.apiName)]
  exact List.append_left_eq_self

/-- A page comes back from its own main file exactly when its name has no slash and its schema loses
no key. -/
lemma roundTrips_own (host : Host) (he : DistinctPage e) (hname : e.apiName ≠ []) :
    RoundTrips host e (serializePageSourceFile host.fmt e).mainFileName ↔
      unit '/' ∉ e.apiName ∧ ProtoFree (.obj e.schema) := by
  rw [roundTrips_path host he hname, serializePageSourceFile, mismatchErrors_append,
    lastPart_eq_self]

/-! ### What is accepted -/

/-- A member repeats no key. -/
lemma distinct_member {fields : List (Units × JsonValue)} (hfields : (JsonValue.obj fields).Distinct)
    (name : String) : (member fields name).Distinct := by
  obtain ⟨hnodup, hall⟩ := JsonValue.distinct_obj.1 hfields
  unfold member
  cases hlookup : fields.lookup (units name) with
  | none => trivial
  | some v => exact hall _ ((lookup_eq_some hnodup).1 hlookup)

/-- A page that is read repeats no key. -/
lemma distinct_readPage {fields schema : List (Units × JsonValue)} {apiName : Units}
    {type : PageType} {status : PageStatus} (hfields : (JsonValue.obj fields).Distinct)
    (hschema : (JsonValue.obj schema).Distinct) :
    DistinctPage (readPage fields apiName type status schema) where
  name := distinct_member hfields _
  description := distinct_member hfields _
  objectName := distinct_member hfields _
  schema := hschema
  version := distinct_member hfields _
  icon := distinct_member hfields _
  route := distinct_member hfields _
  isActive := distinct_member hfields _
  isSystem := distinct_member hfields _

/-- When a page with a name is parsed. -/
lemma parseNamed_ok {input : ParsePageSourceFileInput} {fields : List (Units × JsonValue)}
    {apiName : Units} (h : parseNamed host input fields apiName = .ok r) :
    ∃ type status schema content, parse host.fmt content = some (.obj schema) ∧
      r = readPage fields apiName type status schema := by
  unfold parseNamed at h
  dsimp only at h
  split at h
  · split at h
    · split at h
      · cases h
      · rename_i schema hparse
        cases h
        exact ⟨_, _, schema, _, hparse, rfl⟩
      · cases h
    · cases h
  · cases h

/-- A page that is accepted has a name, and no value with a key twice. -/
lemma parse_ok {input : ParsePageSourceFileInput} (h : parsePageSourceFile host input = .ok r) :
    r.apiName ≠ [] ∧ DistinctPage r := by
  unfold parsePageSourceFile at h
  split at h
  · cases h
  · rename_i fields hmain
    unfold parseMain at h
    split at h
    · split at h
      · obtain ⟨type, status, schema, content, hschema, rfl⟩ := parseNamed_ok h
        exact ⟨List.cons_ne_nil _ _,
          distinct_readPage (parse_distinct hmain) (parse_distinct hschema)⟩
      · cases h
    · cases h
  · cases h

/-! ### Order of the keys -/

/-- The page that an object with these own keys is. -/
def pageOf (fields : List (Units × JsonValue)) : Option CustomPageLike :=
  match member fields "apiName", member fields "type", member fields "status",
      member fields "schema" with
  | .str apiName, .str type, .str status, .obj schema =>
    match pageTypes.find? (PageType.text · = type), pageStatuses.find? (PageStatus.text · = status) with
    | some type, some status => some (readPage fields apiName type status schema)
    | _, _ => none
  | _, _, _, _ => none

/-- No array and no object. -/
def Scalar : JsonValue → Prop
  | .arr _ => False
  | .obj _ => False
  | _ => True

/-- The other fields of a page are texts, numbers, truth values or null. -/
structure ScalarPage (e : CustomPageLike) : Prop where
  name : Scalar e.name
  description : Scalar e.description
  objectName : Scalar e.objectName
  version : Scalar e.version
  icon : Scalar e.icon
  route : Scalar e.route
  isActive : Scalar e.isActive
  isSystem : Scalar e.isSystem

/-- A scalar that is the same differs at most in the sign of a zero. -/
lemma unsign_of_scalar {v w : JsonValue} (hv : Scalar v) (hsame : v.Same w) :
    unsign v = unsign w := by
  cases v with
  | arr vs => cases hv
  | obj fields => cases hv
  | null => cases w <;> simp [JsonValue.Same] at hsame ⊢
  | bool b =>
    cases w with
    | bool c => rw [JsonValue.Same] at hsame; rw [hsame]
    | _ => simp [JsonValue.Same] at hsame
  | num n =>
    cases w with
    | num m => rw [JsonValue.Same] at hsame; rw [unsign, unsign, hsame]
    | _ => simp [JsonValue.Same] at hsame
  | str s =>
    cases w with
    | str u => rw [JsonValue.Same] at hsame; rw [hsame]
    | _ => simp [JsonValue.Same] at hsame

/-- Objects that are the same have the same field under every name. -/
lemma same_member {fields fields' : List (Units × JsonValue)}
    (hfields : (JsonValue.obj fields).Distinct) (hfields' : (JsonValue.obj fields').Distinct)
    (hsame : (JsonValue.obj fields).Same (.obj fields')) (name : String) :
    (member fields name).Same (member fields' name) := by
  obtain ⟨hnodup, -⟩ := JsonValue.distinct_obj.1 hfields
  obtain ⟨hnodup', -⟩ := JsonValue.distinct_obj.1 hfields'
  rw [JsonValue.Same, JsonValue.sameFields_iff] at hsame
  obtain ⟨hlength, hmembers⟩ := hsame
  -- neither object has a key that the other lacks
  have hkeys : (fields.map Prod.fst).Perm (fields'.map Prod.fst) := by
    refine (List.subperm_of_subset hnodup ?_).perm_of_length_le (by simp [hlength])
    intro key hkey
    obtain ⟨f, hf, rfl⟩ := List.mem_map.1 hkey
    obtain ⟨w, hw, -⟩ := hmembers f hf
    exact List.mem_map.2 ⟨_, hw, rfl⟩
  unfold member
  cases hlookup : fields.lookup (units name) with
  | some v =>
    obtain ⟨w, hw, hsame⟩ := hmembers _ ((lookup_eq_some hnodup).1 hlookup)
    rw [(lookup_eq_some hnodup').2 hw]
    exact hsame
  | none =>
    cases hlookup' : fields'.lookup (units name) with
    | none => simp [JsonValue.Same]
    | some w =>
      have hmem := hkeys.mem_iff.2 (List.mem_map_of_mem ((lookup_eq_some hnodup').1 hlookup'))
      obtain ⟨⟨key, v⟩, hf, hkey⟩ := List.mem_map.1 hmem
      have hfound := (lookup_eq_some hnodup).2 hf
      rw [show key = units name from hkey, hlookup] at hfound
      cases hfound

/-- The fields of the main file of a page with scalar fields, up to the signs of zeros. -/
lemma mainObject_unsign {e e' : CustomPageLike} (hscalar : ScalarPage e)
    (hsame : SamePage e e') :
    unsign (.obj (mainObject e)) = unsign (.obj (mainObject e')) := by
  rw [unsign_obj, unsign_obj]
  simp only [mainObject, List.map_cons, List.map_nil, unsign_of_scalar hscalar.name hsame.name,
    unsign_of_scalar hscalar.description hsame.description,
    unsign_of_scalar hscalar.objectName hsame.objectName,
    unsign_of_scalar hscalar.version hsame.version, unsign_of_scalar hscalar.icon hsame.icon,
    unsign_of_scalar hscalar.route hsame.route, unsign_of_scalar hscalar.isActive hsame.isActive,
    unsign_of_scalar hscalar.isSystem hsame.isSystem, hsame.apiName, hsame.type, hsame.status]

/-- Pages that are the same, with scalar fields, have the same files. -/
lemma serialize_of_same (fmt : NumberFormat) {e e' : CustomPageLike} (he : DistinctPage e)
    (he' : DistinctPage e') (hscalar : ScalarPage e) (hsame : SamePage e e') :
    serializePageSourceFile fmt e = serializePageSourceFile fmt e' := by
  have hmain : canonicalStringify fmt (.obj (mainObject e)) false =
      canonicalStringify fmt (.obj (mainObject e')) false := by
    rw [canonicalStringify_eq, canonicalStringify_eq, if_neg Bool.false_ne_true,
      if_neg Bool.false_ne_true, ← pretty_unsign, mainObject_unsign hscalar hsame, pretty_unsign]
  have hschema := canonicalStringify_of_same fmt he.schema he'.schema hsame.schema
  unfold serializePageSourceFile
  rw [hmain, hschema, hsame.apiName]

/-- An object and its copy with the keys in another order, at any depth, are the same page. -/
lemma samePage_of_same {fields fields' : List (Units × JsonValue)} {e e' : CustomPageLike}
    (hfields : (JsonValue.obj fields).Distinct) (hfields' : (JsonValue.obj fields').Distinct)
    (hsame : (JsonValue.obj fields).Same (.obj fields')) (he : pageOf fields = some e)
    (he' : pageOf fields' = some e') : DistinctPage e ∧ DistinctPage e' ∧ SamePage e e' := by
  have hmember := same_member hfields hfields' hsame
  have hapi := hmember "apiName"
  have htype := hmember "type"
  have hstatus := hmember "status"
  have hschema := hmember "schema"
  have hdistinct := distinct_member hfields "schema"
  have hdistinct' := distinct_member hfields' "schema"
  unfold pageOf at he he'
  -- the same test fails for both, or the members have the same values
  split at he
  · rename_i apiName type status schema hapi₁ htype₁ hstatus₁ hschema₁
    split at he'
    · rename_i apiName' type' status' schema' hapi₂ htype₂ hstatus₂ hschema₂
      rw [hapi₁, hapi₂, JsonValue.Same] at hapi
      rw [htype₁, htype₂, JsonValue.Same] at htype
      rw [hstatus₁, hstatus₂, JsonValue.Same] at hstatus
      rw [hschema₁, hschema₂] at hschema
      rw [hschema₁] at hdistinct
      rw [hschema₂] at hdistinct'
      subst hapi htype hstatus
      split at he
      · rename_i t s ht hs
        rw [ht, hs] at he'
        cases he
        cases he'
        refine ⟨distinct_readPage hfields hdistinct, distinct_readPage hfields' hdistinct', ?_⟩
        exact
          { apiName := rfl
            name := hmember _
            description := hmember _
            type := rfl
            status := rfl
            objectName := hmember _
            schema := hschema
            version := hmember _
            icon := hmember _
            route := hmember _
            isActive := hmember _
            isSystem := hmember _ }
      · cases he
    · cases he'
  · cases he

/-- Page source files round-trip exactly when the directory does not end in a backslash, or for an
accepted page when its name has no slash, and the schema has no own key `__proto__`; the order of keys
never shows in them. -/
theorem roundTrips_iff (host : Host) :
    (∀ e dir, WellFormed e → Directory dir →
      (RoundTrips host e (dir ++ (serializePageSourceFile host.fmt e).mainFileName) ↔
        dir.getLast? ≠ some (unit '\\') ∧ ProtoFree (.obj e.schema))) ∧
    (∀ fields fields' e e', (JsonValue.obj fields).Distinct → (JsonValue.obj fields').Distinct →
      (JsonValue.obj fields).Same (.obj fields') → pageOf fields = some e →
        pageOf fields' = some e' → ScalarPage e →
          serializePageSourceFile host.fmt e = serializePageSourceFile host.fmt e') ∧
    ∀ input r, parsePageSourceFile host input = .ok r →
      (RoundTrips host r (serializePageSourceFile host.fmt r).mainFileName ↔
        unit '/' ∉ r.apiName ∧ ProtoFree (.obj r.schema)) := by
  refine ⟨?_, ?_, ?_⟩
  · intro e dir he hdir
    exact roundTrips_directory host he hdir
  · intro fields fields' e e' hfields hfields' hsame he he' hscalar
    obtain ⟨hdistinct, hdistinct', hpage⟩ := samePage_of_same hfields hfields' hsame he he'
    exact serialize_of_same host.fmt hdistinct hdistinct' hscalar hpage
  · intro input r hr
    obtain ⟨hname, hdistinct⟩ := parse_ok hr
    exact roundTrips_own host hdistinct hname

end files

/-- A page with an empty schema. -/
def leadPage : CustomPageLike where
  apiName := units "lead"
  name := .str (units "Lead")
  description := .null
  type := .record
  status := .draft
  objectName := .null
  schema := []
  version := .num .zero
  icon := .null
  route := .null
  isActive := .bool true
  isSystem := .bool false

/-- A page in a directory that is written with backslashes does not come back. -/
theorem windows_path_refused :
    ¬ ∀ host : Host,
      (∀ e dir, WellFormed e → Directory dir →
        RoundTrips host e (dir ++ (serializePageSourceFile host.fmt e).mainFileName)) ∧
      (∀ fields fields' e e', (JsonValue.obj fields).Distinct → (JsonValue.obj fields').Distinct →
        (JsonValue.obj fields).Same (.obj fields') → pageOf fields = some e →
          pageOf fields' = some e' → ScalarPage e →
            serializePageSourceFile host.fmt e = serializePageSourceFile host.fmt e') ∧
      ∀ input r, parsePageSourceFile host input = .ok r →
        RoundTrips host r (serializePageSourceFile host.fmt r).mainFileName := by
  intro h
  have hwell : WellFormed leadPage := by
    refine ⟨rfl, ?_⟩
    constructor <;> simp [leadPage, JsonValue.Distinct, JsonValue.DistinctFields]
  have hdir : Directory (units "src\\pages\\") := .inr (.inr rfl)
  have hback := (h ⟨AuditChain.bitsFormat, fun _ => none⟩).1 leadPage _ hwell hdir
  exact ((roundTrips_directory _ hwell hdir).1 hback).1 rfl

end NexusClaw.PageSource
