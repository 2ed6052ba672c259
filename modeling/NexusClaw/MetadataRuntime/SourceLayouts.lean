import NexusClaw.MetadataRuntime.Apply
import NexusClaw.MetadataRuntime.Parser

/-!
# Layouts of an object

An object definition can be written in one document or with a document for each field, and each
document can hold its definition in an envelope or be the definition itself. The documents of a flat
layout carry the keys of the envelope among the properties, and only a field document has a legacy
relation rewritten, so the layouts agree just on the definitions that `SelfDescribing` singles out.
-/

namespace NexusClaw.MetadataRuntime

open AuditChain

/-! ## Definitions and layouts -/

/-- The properties of an object but for its fields, and its fields by distinct names. -/
structure ObjectDefinition where
  record : JsonRecord
  nameSingular : Units
  fields : List MetadataRuntimeField
  named : record.lookup (units "nameSingular") = some (.str nameSingular)
  nonempty : nameSingular ≠ []
  unfielded : units "fields" ∉ record.map Prod.fst
  distinct : (JsonValue.obj record).Distinct
  fieldNames : ∀ field ∈ fields, field.name ≠ []
  distinctNames : (fields.map (·.name)).Nodup

inductive DocumentStyle where
  | enveloped
  | flat
deriving DecidableEq, Repr

/-- The style of the object document, that of the field documents unless the fields are inline, and
paths of such documents. -/
structure SourceLayout where
  objectStyle : DocumentStyle
  fieldStyle : Option DocumentStyle
  objectPath : Units
  fieldPath : Units → Units
  objectPath_object :
    isMetadataRuntimeFieldFile (normalizeMetadataRuntimeFilePath objectPath) = false
  fieldPath_field : ∀ name,
    isMetadataRuntimeFieldFile (normalizeMetadataRuntimeFilePath (fieldPath name)) = true

/-- The properties in a flat document, which carries the kind and the schema version. -/
def flatten (kind : String) (record : JsonRecord) : JsonRecord :=
  assign (assign record (units "kind") (.str (units kind))) (units "schemaVersion")
    (.str metadataRuntimeSchemaVersion)

def envelope (kind : String) : JsonRecord :=
  [(units "kind", .str (units kind)), (units "schemaVersion", .str metadataRuntimeSchemaVersion)]

def objectDocument (style : DocumentStyle) (record : JsonRecord) : JsonRecord :=
  match style with
  | .enveloped => envelope "object" ++ [(units "object", .obj record)]
  | .flat => flatten "object" record

def fieldDocument (style : DocumentStyle) (objectName : Units) (record : JsonRecord) : JsonRecord :=
  match style with
  | .enveloped =>
    envelope "field" ++
      [(units "objectNameSingular", .str objectName), (units "field", .obj record)]
  | .flat => assign (flatten "field" record) (units "objectNameSingular") (.str objectName)

/-- The properties that the object document holds. -/
def ObjectDefinition.written (definition : ObjectDefinition) (layout : SourceLayout) : JsonRecord :=
  match layout.fieldStyle with
  | none =>
    definition.record ++ [(units "fields", .arr (definition.fields.map fun field => .obj field.record))]
  | some _ => definition.record

def SourceLayout.files (layout : SourceLayout) (definition : ObjectDefinition) :
    List MetadataRuntimeLoadedFile :=
  { path := layout.objectPath
    document := some (.obj (objectDocument layout.objectStyle (definition.written layout))) } ::
    match layout.fieldStyle with
    | none => []
    | some style => definition.fields.map fun field =>
      { path := layout.fieldPath field.name
        document := some (.obj (fieldDocument style definition.nameSingular field.record)) }

/-! ## Agreement -/

/-- The same properties, in whatever order. -/
def SameRecord (r r' : JsonRecord) : Prop :=
  ∀ key, r.lookup key = r'.lookup key

structure SameObject (o o' : ParsedObject) : Prop where
  nameSingular : o.nameSingular = o'.nameSingular
  object : SameRecord o.object o'.object
  fields : List.Forall₂ SameRecord o.fields o'.fields

/-- A snapshot that a parse has given. -/
structure Represents (s : MetadataRuntimeSnapshot) (parsed : ParsedSnapshot) : Prop where
  objects : s.objects.map (·.record) = parsed.objects.map ParsedObject.record
  taxonomy : ∀ kind, (s.components kind).map (·.record) = parsed.taxonomy kind

/-- Every two layouts give the same one object, and a diff between them has no change. -/
structure LayoutsAgree (texts : Texts) (fmt : NumberFormat) (c : Collation)
    (options : MetadataRuntimeDiffOptions) (definition : ObjectDefinition) : Prop where
  parsed : ∀ layout layout' : SourceLayout, ∃ o o',
    (parseFiles texts (layout.files definition)).1.objects = [o] ∧
      (parseFiles texts (layout'.files definition)).1.objects = [o'] ∧ SameObject o o'
  unchanged : ∀ (layout layout' : SourceLayout) (s s' : MetadataRuntimeSnapshot),
    Represents s (parseFiles texts (layout.files definition)).1 →
    Represents s' (parseFiles texts (layout'.files definition)).1 →
    (diffSnapshots fmt c s s' options).changes = []

/-- A field that carries the keys of its document itself and has no relation to rewrite. -/
structure SelfDescribingField (objectName : Units) (field : JsonRecord) : Prop where
  kind : field.lookup (units "kind") = some (.str (units "field"))
  schemaVersion : field.lookup (units "schemaVersion") = some (.str metadataRuntimeSchemaVersion)
  objectNameSingular : field.lookup (units "objectNameSingular") = some (.str objectName)
  unwrapped : recordOf (field.lookup (units "field")) = none
  modern : legacyRelation field = none

/-- A definition that carries the keys of its documents itself and has no legacy relation. -/
structure SelfDescribing (definition : ObjectDefinition) : Prop where
  kind : definition.record.lookup (units "kind") = some (.str (units "object"))
  schemaVersion :
    definition.record.lookup (units "schemaVersion") = some (.str metadataRuntimeSchemaVersion)
  unwrapped : recordOf (definition.record.lookup (units "object")) = none
  fields : ∀ field ∈ definition.fields, SelfDescribingField definition.nameSingular field.record

/-! ## Records -/

section assign
variable {β : Type} {es : List (Units × β)} {key other : Units} {v : β}

/-- A replaced member is found at its key. -/
lemma lookup_replaced : (es.map fun f => if f.1 = key then (key, v) else f).lookup other =
    if other = key then (es.lookup key).map fun _ => v else es.lookup other := by
  induction es with
  | nil =>
    split
    · rfl
    · rfl
  | cons f es ih =>
    rw [List.map_cons, List.lookup_cons, List.lookup_cons, List.lookup_cons, ih]
    by_cases hf : f.1 = key
    · subst hf
      by_cases ho : other = f.1
      · simp [ho]
      · simp [ho, beq_eq_false_iff_ne.2 ho]
    · by_cases ho : other = key
      · subst ho
        simp [hf, beq_eq_false_iff_ne.2 (Ne.symm hf)]
      · simp [hf, ho]

/-- A key is found if and only if it is among the keys. -/
lemma lookup_isSome : (es.lookup key).isSome = true ↔ key ∈ es.map Prod.fst := by
  constructor
  · intro h
    obtain ⟨v, hv⟩ := Option.isSome_iff_exists.1 h
    exact List.mem_map_of_mem (mem_of_lookup hv)
  · intro h
    by_contra hnone
    obtain ⟨f, hf, rfl⟩ := List.mem_map.1 h
    have hlookup := List.lookup_eq_none_iff.1 (Option.not_isSome_iff_eq_none.1 hnone) f hf
    simp at hlookup

/-- An assigned member is found. -/
lemma lookup_assign : (assign es key v).lookup key = some v := by
  unfold assign
  split
  · rename_i hkey
    obtain ⟨w, hw⟩ := Option.isSome_iff_exists.1 (lookup_isSome.2 hkey)
    rw [lookup_replaced, if_pos rfl, hw]
    rfl
  · rename_i hkey
    rw [List.lookup_append, Option.not_isSome_iff_eq_none.1 fun h => hkey (lookup_isSome.1 h)]
    simp

/-- The others stay. -/
lemma lookup_assign_ne (h : other ≠ key) : (assign es key v).lookup other = es.lookup other := by
  unfold assign
  split
  · rw [lookup_replaced, if_neg h]
  · rw [List.lookup_append, List.lookup_cons, beq_eq_false_iff_ne.2 h]
    simp

/-- Setting a property to the value that it has changes nothing. -/
lemma assign_self (hkeys : (es.map Prod.fst).Nodup) (h : es.lookup key = some v) :
    assign es key v = es := by
  unfold assign
  rw [if_pos (lookup_isSome.1 (by rw [h]; rfl))]
  refine (List.map_congr_left fun f hf => ?_).trans (List.map_id _)
  by_cases hkey : f.1 = key
  · have hval := List.inj_on_of_nodup_map hkeys hf (mem_of_lookup h) hkey
    rw [if_pos hkey, hval]
    rfl
  · exact if_neg hkey

/-- Removing a member leaves the others. -/
lemma lookup_removed (h : other ≠ key) :
    (es.filter fun f => f.1 ≠ key).lookup other = es.lookup other := by
  induction es with
  | nil => rfl
  | cons f es ih =>
    by_cases hf : f.1 = key
    · rw [List.filter_cons_of_neg (by simp [hf]), ih, List.lookup_cons,
        beq_eq_false_iff_ne.2 (hf ▸ h)]
    · rw [List.filter_cons_of_pos (by simp [hf]), List.lookup_cons, List.lookup_cons, ih]

/-- A removed member is not found. -/
lemma lookup_removed_self : (es.filter fun f => f.1 ≠ key).lookup key = none := by
  rw [List.lookup_eq_none_iff]
  intro f hf
  have hne : f.1 ≠ key := of_decide_eq_true (List.mem_filter.1 hf).2
  exact bne_iff_ne.2 hne.symm

end assign

/-- A record is no property of itself. -/
lemma lookup_ne_self {r : JsonRecord} {key : Units} : r.lookup key ≠ some (.obj r) := by
  intro h
  have hmem := List.sizeOf_lt_of_mem (mem_of_lookup h)
  rw [Prod.mk.sizeOf_spec, JsonValue.obj.sizeOf_spec] at hmem
  omega

/-- A record is an object. -/
lemma recordOf_eq_some {o : Option JsonValue} {r : JsonRecord} (h : recordOf o = some r) :
    o = some (.obj r) := by
  unfold recordOf at h
  split at h
  · rw [Option.some.inj h]
  · cases h

/-- A text that is not empty is read. -/
lemma stringOf_eq {r : JsonRecord} {key : String} {s : Units}
    (h : r.lookup (units key) = some (.str s)) (hs : s ≠ []) : stringOf r key = some s := by
  unfold stringOf
  rw [h]
  exact if_neg hs

section flatten
variable {record : JsonRecord} {kind : String}

/-- A flat document names its kind. -/
lemma flatten_kind : (flatten kind record).lookup (units "kind") = some (.str (units kind)) := by
  rw [flatten, lookup_assign_ne (by decide), lookup_assign]

/-- A flat document names its version. -/
lemma flatten_schemaVersion : (flatten kind record).lookup (units "schemaVersion") =
    some (.str metadataRuntimeSchemaVersion) := by
  rw [flatten, lookup_assign]

/-- The other members are those of the record. -/
lemma flatten_ne {key : Units} (hkind : key ≠ units "kind") (hschema : key ≠ units "schemaVersion") :
    (flatten kind record).lookup key = record.lookup key := by
  rw [flatten, lookup_assign_ne hschema, lookup_assign_ne hkind]

/-- A record that names both already is its own document. -/
lemma flatten_self (hkeys : (record.map Prod.fst).Nodup)
    (hkind : record.lookup (units "kind") = some (.str (units kind)))
    (hschema : record.lookup (units "schemaVersion") = some (.str metadataRuntimeSchemaVersion)) :
    flatten kind record = record := by
  rw [flatten, assign_self hkeys hkind, assign_self hkeys hschema]

end flatten

/-! ## Reading a document -/

section read
variable {texts : Texts} {path : Units} {document : JsonRecord}

/-- The envelope of a document that carries the right kind and the schema version. -/
lemma envelope_valid (kind : DocumentKind)
    (hschema : document.lookup (units "schemaVersion") = some (.str metadataRuntimeSchemaVersion))
    (hkind : document.lookup (units "kind") =
      some (.str (units (if kind = .field then "field" else "object"))))
    (hpath : isMetadataRuntimeFieldFile path = decide (kind = .field)) :
    validateDocumentEnvelope path document = ([], some { kind, taxonomyKind := none }) := by
  have hversion : stringOf document "schemaVersion" = some metadataRuntimeSchemaVersion :=
    stringOf_eq hschema (by decide)
  have hdeclared : stringOf document "kind" =
      some (units (if kind = .field then "field" else "object")) :=
    stringOf_eq hkind (by cases kind <;> decide)
  have hchecked : declaredEnvelope path (units (if kind = .field then "field" else "object")) =
      .ok { kind, taxonomyKind := none } := by
    unfold declaredEnvelope
    rw [hpath]
    cases kind with
    | field => rfl
    | object => rfl
  unfold validateDocumentEnvelope validateDocumentEnvelope.declaredKind
  rw [hversion]
  dsimp only
  rw [if_neg fun h => h rfl, hdeclared]
  dsimp only
  rw [hchecked]

/-- Every document of an object names its version. -/
lemma objectDocument_schemaVersion {style : DocumentStyle} {record : JsonRecord} :
    (objectDocument style record).lookup (units "schemaVersion") =
      some (.str metadataRuntimeSchemaVersion) := by
  cases style with
  | enveloped => rfl
  | flat => exact flatten_schemaVersion

/-- Every document of an object names its kind. -/
lemma objectDocument_kind {style : DocumentStyle} {record : JsonRecord} :
    (objectDocument style record).lookup (units "kind") = some (.str (units "object")) := by
  cases style with
  | enveloped => rfl
  | flat => exact flatten_kind

/-- Every document of a field names its version. -/
lemma fieldDocument_schemaVersion {style : DocumentStyle} {objectName : Units}
    {record : JsonRecord} : (fieldDocument style objectName record).lookup (units "schemaVersion") =
      some (.str metadataRuntimeSchemaVersion) := by
  cases style with
  | enveloped => rfl
  | flat => exact (lookup_assign_ne (by decide)).trans flatten_schemaVersion

/-- Every document of a field names its kind. -/
lemma fieldDocument_kind {style : DocumentStyle} {objectName : Units} {record : JsonRecord} :
    (fieldDocument style objectName record).lookup (units "kind") = some (.str (units "field")) := by
  cases style with
  | enveloped => rfl
  | flat => exact (lookup_assign_ne (by decide)).trans flatten_kind

/-- Every document of a field names its object. -/
lemma fieldDocument_object {style : DocumentStyle} {objectName : Units} {record : JsonRecord}
    (hname : objectName ≠ []) :
    fieldObjectName path (fieldDocument style objectName record) = some objectName := by
  have hlookup : (fieldDocument style objectName record).lookup (units "objectNameSingular") =
      some (.str objectName) := by
    cases style with
    | enveloped => rfl
    | flat => exact lookup_assign
  unfold fieldObjectName
  rw [hlookup]
  exact Option.filter_eq_some_iff.2 ⟨rfl, decide_eq_true hname⟩

/-- An inline field leaves the payload of the object. -/
lemma consumeInlineField_object {objectName : Units}
    {acc : MutableObjectDefinition × List MetadataRuntimeDiagnostic} {field : JsonValue} :
    (consumeInlineField texts path objectName acc field).1.object = acc.1.object := by
  unfold consumeInlineField
  split
  · rfl
  · split
    · rfl
    · split
      · rfl
      · rfl

/-- So do all of them, by induction on the list. -/
lemma inlineFields_object {objectName : Units} {fields : List JsonValue}
    {acc : MutableObjectDefinition × List MetadataRuntimeDiagnostic} :
    (fields.foldl (consumeInlineField texts path objectName) acc).1.object = acc.1.object := by
  induction fields generalizing acc with
  | nil => rfl
  | cons field fields ih => rw [List.foldl_cons, ih, consumeInlineField_object]

/-- The file of an object document is consumed as such. -/
lemma consumeFile_object {record : JsonRecord} {style : DocumentStyle}
    (hpath : isMetadataRuntimeFieldFile (normalizeMetadataRuntimeFilePath path) = false)
    (s : ParserState) :
    consumeFile texts s { path, document := some (.obj (objectDocument style record)) } =
      consumeObjectDocument texts (normalizeMetadataRuntimeFilePath path)
        (objectDocument style record) s := by
  have hvalid : validateDocumentEnvelope (normalizeMetadataRuntimeFilePath path)
      (objectDocument style record) = ([], some { kind := some .object, taxonomyKind := none }) :=
    envelope_valid .object objectDocument_schemaVersion objectDocument_kind hpath
  unfold consumeFile
  simp only [recordOf, hvalid, hpath, List.append_nil]
  rfl

/-- A file of a field adds the field to its object. -/
lemma consumeFile_field (texts : Texts) (record : JsonRecord) (style : DocumentStyle)
    (objectName : Units)
    (hpath : isMetadataRuntimeFieldFile (normalizeMetadataRuntimeFilePath path) = true)
    (s : ParserState) :
    consumeFile texts s { path, document := some (.obj (fieldDocument style objectName record)) } =
      consumeFieldDocument texts (normalizeMetadataRuntimeFilePath path)
        (fieldDocument style objectName record) s := by
  have hvalid : validateDocumentEnvelope (normalizeMetadataRuntimeFilePath path)
      (fieldDocument style objectName record) = ([], some { kind := some .field, taxonomyKind := none }) :=
    envelope_valid .field fieldDocument_schemaVersion fieldDocument_kind hpath
  unfold consumeFile
  simp only [recordOf, hvalid, hpath, List.append_nil]
  rfl

/-- An object document alone gives no object, or one with all the properties of its payload. -/
lemma consumeObject_first (texts : Texts) (path : Units) (document : JsonRecord) :
    (consumeObjectDocument texts path document {}).objects = [] ∨
      ∃ name entry, (consumeObjectDocument texts path document {}).objects = [(name, entry)] ∧
        entry.object = some (assign (objectPayload document) (units "fields") (.arr [])) := by
  unfold consumeObjectDocument
  dsimp only
  cases stringOf (objectPayload document) "nameSingular" with
  | none => exact .inl rfl
  | some name =>
    refine .inr ⟨name, _, rfl, ?_⟩
    exact inlineFields_object

/-- A field whose name is a text that is not empty is named. -/
lemma namedField_eq {record : JsonRecord} {name : Units}
    (h : record.lookup (units "name") = some (.str name)) (hname : name ≠ []) :
    namedField record = some (.str name) := by
  unfold namedField
  rw [h]
  exact Option.filter_eq_some_iff.2 ⟨rfl, decide_eq_true hname⟩

/-- Fields by distinct names are all taken from an object document. -/
lemma inlineFields_all {objectName : Units} {fields : List MetadataRuntimeField}
    (hnames : ∀ field ∈ fields, field.name ≠ []) (hdistinct : (fields.map (·.name)).Nodup)
    {acc : MutableObjectDefinition × List MetadataRuntimeDiagnostic}
    (hnew : ∀ field ∈ fields, acc.1.has (.str field.name) = false) :
    (fields.map fun field => JsonValue.obj field.record).foldl
        (consumeInlineField texts path objectName) acc =
      ({ acc.1 with
          fields := acc.1.fields ++ fields.map fun field => (.str field.name, field.record) },
        acc.2) := by
  -- induction on the fields: a new name is not that of a later one
  induction fields generalizing acc with
  | nil => simp
  | cons field fields ih =>
    have hname := namedField_eq field.named (hnames field (List.mem_cons_self ..))
    have hfirst : consumeInlineField texts path objectName acc (.obj field.record) =
        ({ acc.1 with fields := acc.1.fields ++ [(.str field.name, field.record)] }, acc.2) := by
      unfold consumeInlineField
      simp only [recordOf, hname, hnew field (List.mem_cons_self ..)]
      rfl
    rw [List.map_cons, List.nodup_cons] at hdistinct
    rw [List.map_cons, List.foldl_cons, hfirst,
      ih (fun other h => hnames other (List.mem_cons_of_mem _ h)) hdistinct.2]
    · simp
    · intro other hother
      have hne : field.name ≠ other.name := fun heq =>
        hdistinct.1 (heq ▸ List.mem_map_of_mem hother)
      have hold := hnew other (List.mem_cons_of_mem _ hother)
      unfold MutableObjectDefinition.has at hold ⊢
      rw [List.any_append, hold]
      simp [sameKey, hne]

/-- The document of a field adds at most the field to its object. -/
lemma consumeField_step (texts : Texts) (path : Units) (record : JsonRecord) (style : DocumentStyle)
    {objectName : Units} (hname : objectName ≠ []) {s : ParserState} {entry : MutableObjectDefinition}
    (hs : s.objects = [(objectName, entry)]) :
    ∃ added : List (JsonValue × JsonRecord),
      (consumeFieldDocument texts path (fieldDocument style objectName record) s).objects =
        [(objectName, { entry with fields := entry.fields ++ added })] ∧
      (consumeFieldDocument texts path (fieldDocument style objectName record) s).taxonomy =
        s.taxonomy ∧
      (added.map Prod.snd).Sublist
        [normalizeLegacyRelationField (fieldPayload (fieldDocument style objectName record))] ∧
      ∀ name, namedField (fieldPayload (fieldDocument style objectName record)) = some name →
        entry.has name = false →
        added = [(name,
          normalizeLegacyRelationField (fieldPayload (fieldDocument style objectName record)))] := by
  have hentry : s.entry objectName = entry := by
    unfold ParserState.entry
    rw [hs, List.lookup_cons_self]
    rfl
  unfold consumeFieldDocument
  rw [fieldDocument_object hname]
  dsimp only
  rw [hentry]
  generalize normalizeLegacyRelationField
    (fieldPayload (fieldDocument style objectName record)) = normalized
  -- a field without a name is reported, one that is there already is kept
  cases hnamed : namedField (fieldPayload (fieldDocument style objectName record)) with
  | none =>
    refine ⟨[], ?_, rfl, List.nil_sublist _, nofun⟩
    simp [ParserState.report, hs]
  | some name =>
    dsimp only
    split
    · rename_i hhas
      refine ⟨[], ?_, rfl, List.nil_sublist _, ?_⟩
      · simp [ParserState.report, hs]
      · intro other hother hfresh
        obtain rfl := Option.some.inj hother
        cases hhas.symm.trans hfresh
    · refine ⟨[(name, normalized)], ?_, rfl, List.Sublist.refl _, ?_⟩
      · simp [hs, assign]
      · intro other hother _
        rw [Option.some.inj hother]

/-- The files of the fields of an object. -/
def fieldFiles (layout : SourceLayout) (style : DocumentStyle) (objectName : Units)
    (fields : List MetadataRuntimeField) : List MetadataRuntimeLoadedFile :=
  fields.map fun field =>
    { path := layout.fieldPath field.name
      document := some (.obj (fieldDocument style objectName field.record)) }

/-- What a field is parsed as from a document of its own. -/
def separateField (style : DocumentStyle) (objectName : Units) (field : MetadataRuntimeField) :
    JsonRecord :=
  normalizeLegacyRelationField (fieldPayload (fieldDocument style objectName field.record))

/-- The documents of fields add at most the fields to their object, in their order. -/
lemma fieldFiles_run (texts : Texts) (layout : SourceLayout) (style : DocumentStyle)
    (fields : List MetadataRuntimeField) {objectName : Units} (hname : objectName ≠ []) {s : ParserState}
    {entry : MutableObjectDefinition} (hs : s.objects = [(objectName, entry)]) :
    ∃ added : List (JsonValue × JsonRecord),
      ((fieldFiles layout style objectName fields).foldl (consumeFile texts) s).objects =
        [(objectName, { entry with fields := entry.fields ++ added })] ∧
      ((fieldFiles layout style objectName fields).foldl (consumeFile texts) s).taxonomy =
        s.taxonomy ∧
      (added.map Prod.snd).Sublist (fields.map (separateField style objectName)) := by
  induction fields generalizing s entry with
  | nil => exact ⟨[], by simpa [fieldFiles] using hs, rfl, List.Sublist.refl _⟩
  | cons field fields ih =>
    have hfile := consumeFile_field texts field.record style objectName
      (layout.fieldPath_field field.name) s
    obtain ⟨first, hfirst, htaxonomy, hsub, _⟩ := consumeField_step texts
      (normalizeMetadataRuntimeFilePath (layout.fieldPath field.name)) field.record style hname hs
    rw [← hfile] at hfirst htaxonomy
    obtain ⟨rest, hrest, htaxonomy', hsub'⟩ := ih hfirst
    refine ⟨first ++ rest, ?_, htaxonomy'.trans htaxonomy, ?_⟩
    · rw [← List.append_assoc]
      exact hrest
    · rw [List.map_append]
      exact hsub.append hsub'

/-- Fields by distinct names are all taken from documents of their own, where these hold them as they
are. -/
lemma fieldFiles_all (texts : Texts) (layout : SourceLayout) {style : DocumentStyle} {objectName : Units}
    (hname : objectName ≠ []) {fields : List MetadataRuntimeField}
    (hnames : ∀ field ∈ fields, field.name ≠ []) (hdistinct : (fields.map (·.name)).Nodup)
    (hplain : ∀ field ∈ fields, separateField style objectName field = field.record)
    (hpayload : ∀ field ∈ fields,
      fieldPayload (fieldDocument style objectName field.record) = field.record)
    {s : ParserState} {entry : MutableObjectDefinition} (hs : s.objects = [(objectName, entry)])
    (hnew : ∀ field ∈ fields, entry.has (.str field.name) = false) :
    ((fieldFiles layout style objectName fields).foldl (consumeFile texts) s).objects =
      [(objectName, { entry with
        fields := entry.fields ++ fields.map fun field => (.str field.name, field.record) })] := by
  -- induction on the fields: a new name is not that of a later one
  induction fields generalizing s entry with
  | nil => simpa [fieldFiles] using hs
  | cons field fields ih =>
    have hfile := consumeFile_field texts field.record style objectName
      (layout.fieldPath_field field.name) s
    obtain ⟨first, hfirst, _, _, hadded⟩ := consumeField_step texts
      (normalizeMetadataRuntimeFilePath (layout.fieldPath field.name)) field.record style hname hs
    have hkept := hadded (.str field.name)
      (by
        rw [hpayload field (List.mem_cons_self ..)]
        exact namedField_eq field.named (hnames field (List.mem_cons_self ..)))
      (hnew field (List.mem_cons_self ..))
    rw [show normalizeLegacyRelationField (fieldPayload (fieldDocument style objectName field.record)) =
      field.record from hplain field (List.mem_cons_self ..)] at hkept
    rw [← hfile, hkept] at hfirst
    rw [List.map_cons, List.nodup_cons] at hdistinct
    have hrest := ih (fun other h => hnames other (List.mem_cons_of_mem _ h)) hdistinct.2
      (fun other h => hplain other (List.mem_cons_of_mem _ h))
      (fun other h => hpayload other (List.mem_cons_of_mem _ h)) hfirst ?_
    · rw [List.map_cons, List.append_cons]
      exact hrest
    · intro other hother
      have hne : field.name ≠ other.name := fun heq =>
        hdistinct.1 (heq ▸ List.mem_map_of_mem hother)
      have hold := hnew other (List.mem_cons_of_mem _ hother)
      unfold MutableObjectDefinition.has at hold ⊢
      rw [List.any_append, hold]
      simp [sameKey, hne]

/-- The object of a definition without its fields. -/
def ObjectDefinition.bare (definition : ObjectDefinition) : JsonRecord :=
  definition.record ++ [(units "fields", .arr [])]

/-- The fields that an object document brings. -/
def ObjectDefinition.inline (definition : ObjectDefinition) (layout : SourceLayout) :
    List (JsonValue × JsonRecord) :=
  match layout.fieldStyle with
  | none => definition.fields.map fun field => (.str field.name, field.record)
  | some _ => []

/-- Without its fields an object is written alike in all layouts. -/
lemma written_fields {definition : ObjectDefinition} {layout : SourceLayout} :
    assign (definition.written layout) (units "fields") (.arr []) = definition.bare := by
  unfold ObjectDefinition.written ObjectDefinition.bare
  cases layout.fieldStyle with
  | some style => exact assign_new definition.unfielded
  | none =>
    dsimp only
    unfold assign
    rw [if_pos (by simp), List.map_append]
    refine congrArg₂ (· ++ ·) ?_ (by simp)
    refine (List.map_congr_left fun f hf => ?_).trans (List.map_id _)
    have hne : f.1 ≠ units "fields" := fun heq =>
      definition.unfielded (heq ▸ List.mem_map_of_mem hf)
    exact if_neg hne

/-- No key is written twice. -/
lemma nodup_written (definition : ObjectDefinition) (layout : SourceLayout) :
    ((definition.written layout).map Prod.fst).Nodup := by
  have hkeys := (JsonValue.distinct_obj.1 definition.distinct).1
  unfold ObjectDefinition.written
  cases layout.fieldStyle with
  | some style => exact hkeys
  | none =>
    dsimp only
    rw [List.map_append, List.nodup_append]
    refine ⟨hkeys, List.nodup_singleton _, ?_⟩
    rintro key hkey other hother rfl
    rw [List.mem_singleton.1 hother] at hkey
    exact definition.unfielded hkey

/-- The members of an object are written as they are. -/
lemma lookup_written {definition : ObjectDefinition} {layout : SourceLayout} {key : Units}
    (h : key ≠ units "fields") :
    (definition.written layout).lookup key = definition.record.lookup key := by
  unfold ObjectDefinition.written
  cases layout.fieldStyle with
  | some style => rfl
  | none =>
    dsimp only
    rw [List.lookup_append, List.lookup_cons, beq_eq_false_iff_ne.2 h]
    simp

/-- An object document with the properties of a definition gives its object. -/
lemma consumeObject_written (texts : Texts) (path : Units) {definition : ObjectDefinition}
    {layout : SourceLayout} (hpayload : objectPayload document = definition.written layout) :
    (consumeObjectDocument texts path document {}).objects =
        [(definition.nameSingular,
          { object := some definition.bare, fields := definition.inline layout })] ∧
      (consumeObjectDocument texts path document {}).taxonomy = fun _ => [] := by
  have hname : stringOf (definition.written layout) "nameSingular" = some definition.nameSingular :=
    stringOf_eq ((lookup_written (by decide)).trans definition.named) definition.nonempty
  have hentry : ({} : ParserState).entry definition.nameSingular = {} := rfl
  unfold consumeObjectDocument
  rw [hpayload]
  dsimp only
  rw [written_fields, hname]
  dsimp only
  rw [hentry]
  unfold fieldsOf ObjectDefinition.inline ObjectDefinition.written
  -- the fields stand in documents of their own, or inside of this one
  cases layout.fieldStyle with
  | some style =>
    dsimp only
    rw [Option.not_isSome_iff_eq_none.1 fun h => definition.unfielded (lookup_isSome.1 h)]
    exact ⟨rfl, rfl⟩
  | none =>
    dsimp only
    rw [List.lookup_append,
      Option.not_isSome_iff_eq_none.1 fun h => definition.unfielded (lookup_isSome.1 h),
      Option.none_or, List.lookup_cons_self]
    dsimp only
    rw [inlineFields_all definition.fieldNames definition.distinctNames fun _ _ => rfl]
    exact ⟨rfl, rfl⟩

end read

/-! ## The layouts of a definition -/

section layouts
variable {texts : Texts} {definition : ObjectDefinition} {layout : SourceLayout}

/-- An object with its fields within it is parsed from one file. -/
lemma parse_inline (h : layout.fieldStyle = none) :
    (parseFiles texts (layout.files definition)).1 =
      { objects := (consumeObjectDocument texts (normalizeMetadataRuntimeFilePath layout.objectPath)
          (objectDocument layout.objectStyle (definition.written layout)) {}).objects.filterMap
            snapshotObject
        taxonomy := (consumeObjectDocument texts
          (normalizeMetadataRuntimeFilePath layout.objectPath)
            (objectDocument layout.objectStyle (definition.written layout)) {}).taxonomy } := by
  unfold parseFiles SourceLayout.files
  rw [h]
  dsimp only [List.foldl_cons, List.foldl_nil]
  rw [consumeFile_object layout.objectPath_object]

/-- An object whose fields have files of their own is parsed from all of them. -/
lemma parse_separate {style : DocumentStyle} (h : layout.fieldStyle = some style) :
    (parseFiles texts (layout.files definition)).1 =
      { objects := ((fieldFiles layout style definition.nameSingular definition.fields).foldl
          (consumeFile texts) (consumeObjectDocument texts
            (normalizeMetadataRuntimeFilePath layout.objectPath)
            (objectDocument layout.objectStyle (definition.written layout)) {})).objects.filterMap
              snapshotObject
        taxonomy := ((fieldFiles layout style definition.nameSingular definition.fields).foldl
          (consumeFile texts) (consumeObjectDocument texts
            (normalizeMetadataRuntimeFilePath layout.objectPath)
            (objectDocument layout.objectStyle (definition.written layout)) {})).taxonomy } := by
  unfold parseFiles SourceLayout.files
  rw [h]
  dsimp only [List.foldl_cons]
  rw [consumeFile_object layout.objectPath_object]
  rfl

/-- What a definition is parsed as where nothing is lost or added. -/
def ObjectDefinition.parsed (definition : ObjectDefinition) : ParsedObject where
  object := definition.bare
  nameSingular := definition.nameSingular
  fields := definition.fields.map (·.record)

/-- Layouts whose documents hold the definitions as they are. -/
lemma parse_plain
    (hobject : objectPayload (objectDocument layout.objectStyle (definition.written layout)) =
      definition.written layout)
    (hfields : ∀ style, layout.fieldStyle = some style → ∀ field ∈ definition.fields,
      fieldPayload (fieldDocument style definition.nameSingular field.record) = field.record ∧
        legacyRelation field.record = none) :
    (parseFiles texts (layout.files definition)).1 =
      { objects := [definition.parsed], taxonomy := fun _ => [] } := by
  obtain ⟨hobjects, htaxonomy⟩ := consumeObject_written texts
    (normalizeMetadataRuntimeFilePath layout.objectPath) hobject
  cases hstyle : layout.fieldStyle with
  | none =>
    rw [parse_inline hstyle, hobjects, htaxonomy]
    unfold ObjectDefinition.inline
    rw [hstyle]
    simp [snapshotObject, ObjectDefinition.parsed, Function.comp_def]
  | some style =>
    have hinline : definition.inline layout = [] := by
      unfold ObjectDefinition.inline
      rw [hstyle]
    rw [hinline] at hobjects
    have hall := fieldFiles_all texts layout definition.nonempty
      definition.fieldNames definition.distinctNames
      (fun field hfield => by
        unfold separateField normalizeLegacyRelationField
        rw [(hfields style hstyle field hfield).1, (hfields style hstyle field hfield).2])
      (fun field hfield => (hfields style hstyle field hfield).1) hobjects fun _ _ => rfl
    obtain ⟨_, _, hrun, _⟩ := fieldFiles_run texts layout style definition.fields
      definition.nonempty hobjects
    rw [parse_separate hstyle, hall, hrun, htaxonomy]
    simp [snapshotObject, ObjectDefinition.parsed, Function.comp_def]

/-- The object of an inline layout has the properties of the payload of its document. -/
lemma inline_object (h : layout.fieldStyle = none) {o : ParsedObject}
    (ho : (parseFiles texts (layout.files definition)).1.objects = [o]) :
    o.object = assign
      (objectPayload (objectDocument layout.objectStyle (definition.written layout)))
        (units "fields") (.arr []) := by
  rw [parse_inline h] at ho
  dsimp only at ho
  rcases consumeObject_first texts (normalizeMetadataRuntimeFilePath layout.objectPath)
    (objectDocument layout.objectStyle (definition.written layout)) with
      hnone | ⟨name, entry, hobjects, hentry⟩
  · rw [hnone] at ho
    cases ho
  · rw [hobjects] at ho
    simp only [List.filterMap_cons, List.filterMap_nil, snapshotObject, hentry, Option.map_some] at ho
    rw [← (List.cons.inj ho).1]

/-- The fields of a layout with field documents are at most the fields of these. -/
lemma separate_fields {style : DocumentStyle} (hobject : layout.objectStyle = .enveloped)
    (h : layout.fieldStyle = some style) {o : ParsedObject}
    (ho : (parseFiles texts (layout.files definition)).1.objects = [o]) :
    o.fields.Sublist (definition.fields.map (separateField style definition.nameSingular)) := by
  have hpayload : objectPayload (objectDocument layout.objectStyle (definition.written layout)) =
      definition.written layout := by
    rw [hobject]
    rfl
  obtain ⟨hobjects, _⟩ := consumeObject_written texts
    (normalizeMetadataRuntimeFilePath layout.objectPath) hpayload
  have hinline : definition.inline layout = [] := by
    unfold ObjectDefinition.inline
    rw [h]
  rw [hinline] at hobjects
  obtain ⟨added, hrun, _, hsub⟩ := fieldFiles_run texts layout style definition.fields
    definition.nonempty hobjects
  rw [parse_separate h] at ho
  dsimp only at ho
  rw [hrun] at ho
  have hfields : o.fields = added.map Prod.snd := by
    simp [snapshotObject] at ho
    rw [← ho]
  rw [hfields]
  exact hsub

end layouts

/-! ## Snapshots with the same elements -/

section same
variable {fmt : NumberFormat} {c : Collation} {options : MetadataRuntimeDiffOptions}

/-- A field is its record. -/
lemma field_ext {f f' : MetadataRuntimeField} (h : f.record = f'.record) : f = f' := by
  obtain ⟨record, name, hnamed, _⟩ := f
  obtain ⟨record', name', hnamed', _⟩ := f'
  obtain rfl : record = record' := h
  obtain rfl := JsonValue.str.inj (Option.some.inj (hnamed.symm.trans hnamed'))
  rfl

/-- An object is its record. -/
lemma object_ext {o o' : MetadataRuntimeObject} (h : o.record = o'.record) : o = o' := by
  obtain ⟨record, name, fields, hnamed, hfielded, _⟩ := o
  obtain ⟨record', name', fields', hnamed', hfielded', _⟩ := o'
  obtain rfl : record = record' := h
  obtain rfl := JsonValue.str.inj (Option.some.inj (hnamed.symm.trans hnamed'))
  have hrecords := JsonValue.arr.inj (Option.some.inj (hfielded.symm.trans hfielded'))
  obtain rfl : fields = fields' :=
    List.map_injective_iff.2 (fun _ _ h => field_ext (JsonValue.obj.inj h)) hrecords
  rfl

/-- A component is its record. -/
lemma component_ext {a b : MetadataRuntimeComponent} (h : a.record = b.record) : a = b := by
  obtain ⟨record, _⟩ := a
  obtain ⟨record', _⟩ := b
  obtain rfl : record = record' := h
  rfl

/-- Two snapshots of one parse have the same index. -/
lemma index_eq {s s' : MetadataRuntimeSnapshot} {parsed : ParsedSnapshot} (h : Represents s parsed)
    (h' : Represents s' parsed) : indexSnapshot s = indexSnapshot s' := by
  have hobjects : s.objects = s'.objects :=
    List.map_injective_iff.2 (fun _ _ => object_ext) (h.objects.trans h'.objects.symm)
  have hcomponents (kind : TaxonomyKind) : s.components kind = s'.components kind :=
    List.map_injective_iff.2 (fun _ _ => component_ext)
      ((h.taxonomy kind).trans (h'.taxonomy kind).symm)
  unfold indexSnapshot
  simp only [hobjects, hcomponents]

/-- An element does not change against itself. -/
lemma elementChange_same (address : Address) (r : Option Record) (ignoreFields updateIgnore : List Units) :
    elementChange fmt c address r r ignoreFields updateIgnore = none := by
  cases r with
  | none => rfl
  | some r =>
    have hchanges : getPropertyChanges fmt c (some r) (some r) updateIgnore = [] := by
      unfold getPropertyChanges
      rw [List.filter_eq_nil_iff]
      intro change hchange
      obtain ⟨key, _, rfl⟩ := List.mem_map.1 hchange
      simp
    unfold elementChange
    dsimp only
    rw [hchanges]
    rfl

/-- The taxonomies do not change against themselves. -/
lemma taxonomyLoop_same {ignoreFields : List Units} {indexed : Indexed} (kinds : List TaxonomyKind)
    (counts : List (TaxonomyKind × ActionCounts)) :
    (taxonomyLoop fmt c ignoreFields indexed indexed kinds [] counts).1 = [] := by
  induction kinds generalizing counts with
  | nil => rfl
  | cons kind kinds ih =>
    have hnone : taxonomyChanges fmt c ignoreFields kind (indexed.taxonomy kind)
        (indexed.taxonomy kind) = [] := by
      unfold taxonomyChanges
      rw [List.filterMap_eq_nil_iff]
      exact fun identity _ => elementChange_same _ _ _ _
    unfold taxonomyLoop
    rw [hnone]
    exact ih _

/-- A diff between snapshots with one index has no change. -/
lemma diff_same {s s' : MetadataRuntimeSnapshot} (h : indexSnapshot s = indexSnapshot s') :
    (diffSnapshots fmt c s s' options).changes = [] := by
  have hobjects : objectChanges fmt c options.ignored (indexSnapshot s').objects
      (indexSnapshot s').objects = [] := by
    unfold objectChanges
    rw [List.filterMap_eq_nil_iff]
    exact fun name _ => elementChange_same _ _ _ _
  have hfields : fieldChanges fmt c options.ignored (indexSnapshot s').fields
      (indexSnapshot s').fields = [] := by
    unfold fieldChanges
    rw [List.filterMap_eq_nil_iff]
    exact fun identity _ => elementChange_same _ _ _ _
  unfold diffSnapshots
  rw [h]
  dsimp only
  rw [hobjects, hfields]
  exact taxonomyLoop_same _ _

end same

/-! ## Which definitions the layouts agree on -/

/-- A layout in the folder of an object. -/
def folderLayout (objectStyle : DocumentStyle) (fieldStyle : Option DocumentStyle) : SourceLayout where
  objectStyle := objectStyle
  fieldStyle := fieldStyle
  objectPath := units "objects/account/object.json"
  fieldPath := fun name => units "objects/account/fields/" ++ name ++ units ".field.json"
  objectPath_object := by decide
  fieldPath_field := by
    intro name
    have hpath : normalizeMetadataRuntimeFilePath
        (units "objects/account/fields/" ++ name ++ units ".field.json") =
        units "objects/account/fields/" ++
          name.map (fun c => if c = unit '\\' then unit '/' else c) ++ units ".field.json" := by
      unfold normalizeMetadataRuntimeFilePath
      rw [List.map_append, List.map_append]
      rfl
    rw [hpath]
    refine List.any_eq_true.2 ⟨units ".field.json", by decide, ?_⟩
    exact List.isSuffixOf_iff_suffix.2 (List.suffix_append _ _)

section agree
variable {texts : Texts} {definition : ObjectDefinition}

/-- An object without its fields has its other members. -/
lemma lookup_bare {key : Units} (h : key ≠ units "fields") :
    definition.bare.lookup key = definition.record.lookup key := by
  unfold ObjectDefinition.bare
  rw [List.lookup_append, List.lookup_cons, beq_eq_false_iff_ne.2 h]
  simp

/-- Normalizing a relation leaves the other members. -/
lemma lookup_normalize {record : JsonRecord} {key : Units} (hdefinition : key ≠ units "relationDefinition")
    (hrelation : key ≠ units "relation") :
    (normalizeLegacyRelationField record).lookup key = record.lookup key := by
  unfold normalizeLegacyRelationField
  cases legacyRelation record with
  | none => rfl
  | some legacy =>
    dsimp only
    rw [lookup_removed hrelation, lookup_assign_ne hdefinition]

/-- A legacy relation is rewritten. -/
lemma legacy_of_same {record : JsonRecord}
    (h : SameRecord record (normalizeLegacyRelationField record)) : legacyRelation record = none := by
  cases hlegacy : legacyRelation record with
  | none => rfl
  | some legacy =>
    have hgone : record.lookup (units "relation") = none := by
      rw [h (units "relation")]
      unfold normalizeLegacyRelationField
      rw [hlegacy]
      exact lookup_removed_self
    unfold legacyRelation at hlegacy
    split at hlegacy
    · cases hlegacy
    · rw [hgone] at hlegacy
      cases hlegacy

/-- What the flat object document says about a definition on which it agrees with its envelope. -/
lemma flat_object
    (h : SameRecord definition.bare (assign (objectPayload (objectDocument .flat
      (definition.written (folderLayout .flat none)))) (units "fields") (.arr []))) :
    definition.record.lookup (units "kind") = some (.str (units "object")) ∧
      definition.record.lookup (units "schemaVersion") = some (.str metadataRuntimeSchemaVersion) ∧
      recordOf (definition.record.lookup (units "object")) = none := by
  have hkeys (key : Units) (hkey : key ≠ units "fields") : definition.record.lookup key =
      (objectPayload (objectDocument .flat
        (definition.written (folderLayout .flat none)))).lookup key := by
    rw [← lookup_bare hkey, h key, lookup_assign_ne hkey]
  have hobject : (objectDocument .flat (definition.written (folderLayout .flat none))).lookup
      (units "object") = definition.record.lookup (units "object") :=
    (flatten_ne (by decide) (by decide)).trans (lookup_written (by decide))
  -- a property named as the envelope is taken for it
  cases hrecord : recordOf (definition.record.lookup (units "object")) with
  | some r =>
    have hpayload : objectPayload (objectDocument .flat
        (definition.written (folderLayout .flat none))) = r := by
      unfold objectPayload
      rw [hobject, hrecord]
      rfl
    have hself := hkeys (units "object") (by decide)
    rw [recordOf_eq_some hrecord, hpayload] at hself
    exact absurd hself.symm lookup_ne_self
  | none =>
    have hpayload : objectPayload (objectDocument .flat
        (definition.written (folderLayout .flat none))) =
          flatten "object" (definition.written (folderLayout .flat none)) := by
      unfold objectPayload
      rw [hobject, hrecord]
      rfl
    refine ⟨?_, ?_, rfl⟩
    · rw [hkeys _ (by decide), hpayload, flatten_kind]
    · rw [hkeys _ (by decide), hpayload, flatten_schemaVersion]

/-- What the flat field document says about a field on which it agrees with the inline one. -/
lemma flat_field {objectName : Units} {field : MetadataRuntimeField}
    (h : SameRecord field.record (separateField .flat objectName field))
    (hmodern : legacyRelation field.record = none) : SelfDescribingField objectName field.record := by
  have hkeys (key : Units) (hdefinition : key ≠ units "relationDefinition")
      (hrelation : key ≠ units "relation") : field.record.lookup key =
        (fieldPayload (fieldDocument .flat objectName field.record)).lookup key := by
    rw [h key]
    exact lookup_normalize hdefinition hrelation
  have hfield : (fieldDocument .flat objectName field.record).lookup (units "field") =
      field.record.lookup (units "field") :=
    (lookup_assign_ne (by decide)).trans (flatten_ne (by decide) (by decide))
  -- a property named as the envelope is taken for it
  cases hrecord : recordOf (field.record.lookup (units "field")) with
  | some r =>
    have hpayload : fieldPayload (fieldDocument .flat objectName field.record) = r := by
      unfold fieldPayload
      rw [hfield, hrecord]
      rfl
    have hself := hkeys (units "field") (by decide) (by decide)
    rw [recordOf_eq_some hrecord, hpayload] at hself
    exact absurd hself.symm lookup_ne_self
  | none =>
    have hpayload : fieldPayload (fieldDocument .flat objectName field.record) =
        fieldDocument .flat objectName field.record := by
      unfold fieldPayload
      rw [hfield, hrecord]
      rfl
    refine ⟨?_, ?_, ?_, hrecord, hmodern⟩
    · rw [hkeys _ (by decide) (by decide), hpayload, fieldDocument_kind]
    · rw [hkeys _ (by decide) (by decide), hpayload, fieldDocument_schemaVersion]
    · rw [hkeys _ (by decide) (by decide), hpayload]
      exact lookup_assign

/-- Layouts with inline fields under an envelope lose nothing. -/
lemma parse_folder :
    (parseFiles texts ((folderLayout .enveloped none).files definition)).1 =
      { objects := [definition.parsed], taxonomy := fun _ => [] } :=
  parse_plain rfl nofun

/-- Layouts that agree lose no field and rewrite none. -/
lemma fields_agree {style : DocumentStyle} {o o' : ParsedObject}
    (ho : (parseFiles texts ((folderLayout .enveloped none).files definition)).1.objects = [o])
    (ho' : (parseFiles texts ((folderLayout .enveloped (some style)).files definition)).1.objects =
      [o']) (hsame : SameObject o o') :
    ∀ field ∈ definition.fields,
      SameRecord field.record (separateField style definition.nameSingular field) := by
  rw [parse_folder] at ho
  have hfields : o.fields = definition.fields.map (·.record) := by
    rw [← (List.cons.inj ho).1]
    rfl
  have hsub := separate_fields rfl rfl ho'
  have hrecords := hsame.fields
  rw [hfields] at hrecords
  have hall : o'.fields =
      definition.fields.map (separateField style definition.nameSingular) := by
    refine hsub.eq_of_length ?_
    rw [← hrecords.length_eq, List.length_map, List.length_map]
  rw [hall, List.forall₂_map_left_iff, List.forall₂_map_right_iff, List.forall₂_same] at hrecords
  exact hrecords

end agree

/-- The layouts of a definition agree just where it describes itself: it carries the keys of its
documents among its own properties, and no relation field is a legacy one. -/
theorem layouts_agree_iff (texts : Texts) (fmt : NumberFormat) (c : Collation)
    (options : MetadataRuntimeDiffOptions) (definition : ObjectDefinition) :
    LayoutsAgree texts fmt c options definition ↔ SelfDescribing definition := by
  constructor
  · intro h
    obtain ⟨o, o', ho, ho', hsame⟩ := h.parsed (folderLayout .enveloped none) (folderLayout .flat none)
    have hobject := inline_object rfl ho'
    have hrecord := hsame.object
    rw [hobject] at hrecord
    rw [parse_folder] at ho
    rw [← (List.cons.inj ho).1] at hrecord
    obtain ⟨hkind, hschema, hunwrapped⟩ := flat_object hrecord
    refine ⟨hkind, hschema, hunwrapped, fun field hfield => ?_⟩
    obtain ⟨p, p', hp, hp', hsame'⟩ := h.parsed (folderLayout .enveloped none)
      (folderLayout .enveloped (some .enveloped))
    obtain ⟨q, q', hq, hq', hsame''⟩ := h.parsed (folderLayout .enveloped none)
      (folderLayout .enveloped (some .flat))
    exact flat_field (fields_agree hq hq' hsame'' field hfield)
      (legacy_of_same (fields_agree hp hp' hsame' field hfield))
  · intro h
    have hparse (layout : SourceLayout) : (parseFiles texts (layout.files definition)).1 =
        { objects := [definition.parsed], taxonomy := fun _ => [] } := by
      apply parse_plain
      -- a flat document is its own payload, and an enveloped one holds it under its key
      · cases layout.objectStyle with
        | enveloped => rfl
        | flat =>
          have hflat : objectDocument .flat (definition.written layout) = definition.written layout :=
            flatten_self (nodup_written definition layout) ((lookup_written (by decide)).trans h.kind)
              ((lookup_written (by decide)).trans h.schemaVersion)
          unfold objectPayload
          rw [hflat, lookup_written (by decide), h.unwrapped]
          rfl
      · intro style _ field hfield
        have hself := h.fields field hfield
        refine ⟨?_, hself.modern⟩
        cases style with
        | enveloped => rfl
        | flat =>
          have hkeys := (JsonValue.distinct_obj.1 field.distinct).1
          have hflat : fieldDocument .flat definition.nameSingular field.record = field.record := by
            unfold fieldDocument
            dsimp only
            rw [flatten_self hkeys hself.kind hself.schemaVersion,
              assign_self hkeys hself.objectNameSingular]
          unfold fieldPayload
          rw [hflat, hself.unwrapped]
          rfl
    constructor
    · intro layout layout'
      refine ⟨definition.parsed, definition.parsed, ?_, ?_, rfl, fun _ => rfl, ?_⟩
      · rw [hparse]
      · rw [hparse]
      · exact List.forall₂_same.2 fun _ _ _ => rfl
    · intro layout layout' s s' hs hs'
      rw [hparse] at hs hs'
      exact diff_same (index_eq hs hs')

def quotedTexts : Texts where
  textOf
    | .str s => s
    | _ => []
  textOf_str _ := rfl

def accountDefinition : ObjectDefinition where
  record := [(units "nameSingular", .str (units "account")), (units "namePlural", .str (units "accounts"))]
  nameSingular := units "account"
  fields := []
  named := rfl
  nonempty := by decide
  unfielded := by decide
  distinct := by
    have hkeys : (["nameSingular", "namePlural"].map units).Nodup := by decide
    refine JsonValue.distinct_obj.2 ⟨hkeys, ?_⟩
    simp [JsonValue.Distinct]
  fieldNames := nofun
  distinctNames := .nil

/-- The flat document of an account gives it a kind and a schema version. -/
theorem account_layouts_differ :
    ¬ LayoutsAgree quotedTexts bitsFormat unitOrder {} accountDefinition := by
  intro h
  obtain ⟨o, o', ho, ho', hsame⟩ := h.parsed (folderLayout .enveloped none) (folderLayout .flat none)
  have hrecord := hsame.object
  rw [inline_object rfl ho'] at hrecord
  rw [parse_folder] at ho
  rw [← (List.cons.inj ho).1] at hrecord
  have hkind : accountDefinition.record.lookup (units "kind") = none := by decide
  rw [(flat_object hrecord).1] at hkind
  cases hkind

end NexusClaw.MetadataRuntime
