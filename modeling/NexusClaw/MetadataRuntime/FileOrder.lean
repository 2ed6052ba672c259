import Mathlib.Data.List.Perm.Lattice
import NexusClaw.MetadataRuntime.SourceLayouts
import NexusClaw.MetadataRuntime.Validation

/-!
# The order of the source files

What a file says does not depend on the other files: it is rejected, or it defines an object with
fields, a field or a component. Whether the files are valid together, and the sorted snapshot of valid
ones, depends on what they say and not on their order; only the sorting of fields whose names are not
strings may throw in one order and not in another.
-/

namespace NexusClaw.MetadataRuntime

open AuditChain

/-! ## What a file says -/

inductive Reading where
  | object (name : Units) (payload : JsonRecord)
  | field (objectName : Units) (name : JsonValue) (record : JsonRecord)
  | component (kind : TaxonomyKind) (payload : JsonRecord)

/-- The document of a file with a valid envelope. -/
def readDocument (path : Units) (document : JsonRecord) (envelope : Envelope) :
    Except MetadataRuntimeDiagnostic Reading :=
  if isMetadataRuntimeFieldFile path || envelope.kind = some .field then
    match fieldObjectName path document with
    | none =>
      .error (diagnostic "METADATA_RUNTIME_FIELD_OBJECT_MISSING" .error
        (units ("Field document must include objectNameSingular or follow " ++
          "objects/<Object>/fields/* path")) path)
    | some objectName =>
      match namedField (fieldPayload document) with
      | none => .error (fieldNameMissing path (units "Field definition must include name"))
      | some name =>
        .ok (.field objectName name (normalizeLegacyRelationField (fieldPayload document)))
  else
    match envelope.taxonomyKind with
    | some kind => .ok (.component kind (getMetadataRuntimeEnvelopePayload document kind))
    | none =>
      match stringOf (objectPayload document) "nameSingular" with
      | none =>
        .error (diagnostic "METADATA_RUNTIME_OBJECT_NAME_MISSING" .error
          (units "Object definition must include nameSingular") path)
      | some name => .ok (.object name (objectPayload document))

/-- The diagnostics of a file on its own, and what it says unless it is rejected. -/
def readFile (file : MetadataRuntimeLoadedFile) : List MetadataRuntimeDiagnostic × Option Reading :=
  let path := normalizeMetadataRuntimeFilePath file.path
  match recordOf file.document with
  | none =>
    ([diagnostic "METADATA_RUNTIME_INVALID_DOCUMENT" .error
      (units "Metadata file must parse into an object document") path], none)
  | some document =>
    match validateDocumentEnvelope path document with
    | (diagnostics, none) => (diagnostics, none)
    | (diagnostics, some envelope) =>
      match readDocument path document envelope with
      | .error error => (diagnostics ++ [error], none)
      | .ok reading => (diagnostics, some reading)

/-- What a reading does to the state. -/
def applyReading (texts : Texts) (path : Units) (s : ParserState) : Reading → ParserState
  | .object name payload =>
    let entry := s.entry name
    if entry.object.isSome then
      s.report (diagnostic "METADATA_RUNTIME_DUPLICATE_OBJECT" .error
        (units "Duplicate object definition for \"" ++ name ++ units "\"") path)
    else
      let consumed := (fieldsOf payload).foldl (consumeInlineField texts path name)
        ({ entry with object := some (assign payload (units "fields") (.arr [])) }, s.diagnostics)
      { s with
        objects := assign s.objects name consumed.1
        diagnostics := consumed.2 }
  | .field objectName name record =>
    let entry := s.entry objectName
    if entry.has name then s.report (duplicateField texts objectName name path)
    else
      { s with
        objects := assign s.objects objectName
          { entry with fields := entry.fields ++ [(name, record)] } }
  | .component kind payload =>
    { s with taxonomy := Function.update s.taxonomy kind (s.taxonomy kind ++ [payload]) }

/-- A file is consumed as it reads. -/
lemma consumeFile_read (texts : Texts) (s : ParserState) (file : MetadataRuntimeLoadedFile) :
    consumeFile texts s file =
      match (readFile file).2 with
      | none => { s with diagnostics := s.diagnostics ++ (readFile file).1 }
      | some reading =>
        applyReading texts (normalizeMetadataRuntimeFilePath file.path)
          { s with diagnostics := s.diagnostics ++ (readFile file).1 } reading := by
  unfold consumeFile readFile
  dsimp only
  cases recordOf file.document with
  | none => rfl
  | some document =>
    dsimp only
    generalize normalizeMetadataRuntimeFilePath file.path = path
    rcases validateDocumentEnvelope path document with ⟨diagnostics, envelope⟩
    -- the tests of the source in their order: the document, the envelope, the kind, the name
    cases envelope with
    | none => rfl
    | some envelope =>
      dsimp only
      unfold readDocument
      by_cases hfield : (isMetadataRuntimeFieldFile path || envelope.kind = some .field) = true
      · rw [if_pos hfield, if_pos hfield]
        unfold consumeFieldDocument
        cases fieldObjectName path document with
        | none => simp [ParserState.report, List.append_assoc]
        | some objectName =>
          dsimp only
          cases namedField (fieldPayload document) with
          | none => simp [ParserState.report, List.append_assoc]
          | some name => rfl
      · rw [if_neg hfield, if_neg hfield]
        cases envelope.taxonomyKind with
        | some kind => rfl
        | none =>
          dsimp only
          unfold consumeObjectDocument
          dsimp only
          cases stringOf (objectPayload document) "nameSingular" with
          | none => simp [ParserState.report, List.append_assoc]
          | some name => rfl

/-! ## What files say -/

/-- A list of diagnostics without an error. -/
def NoError (diagnostics : List MetadataRuntimeDiagnostic) : Prop :=
  ∀ item ∈ diagnostics, item.severity ≠ .error

/-- The fields of an object document that have names, under these. -/
def namedInline (field : JsonValue) : Option (JsonValue × JsonRecord) :=
  (recordOf (some field)).bind fun record => (namedField record).map fun name => (name, record)

/-- The fields that a reading defines for an object. -/
def Reading.definitions (name : Units) : Reading → List (JsonValue × JsonRecord)
  | .object other payload => if other = name then (fieldsOf payload).filterMap namedInline else []
  | .field objectName fieldName record =>
    if objectName = name then [(fieldName, record)] else []
  | .component _ _ => []

def Reading.object? : Reading → Option (Units × JsonRecord)
  | .object name payload => some (name, payload)
  | _ => none

def Reading.component? (kind : TaxonomyKind) : Reading → Option JsonRecord
  | .component other payload => if other = kind then some payload else none
  | _ => none

def readings (files : List MetadataRuntimeLoadedFile) : List Reading :=
  files.filterMap fun file => (readFile file).2

def definitionsOf (files : List MetadataRuntimeLoadedFile) (name : Units) :
    List (JsonValue × JsonRecord) :=
  (readings files).flatMap (·.definitions name)

def objectsOf (files : List MetadataRuntimeLoadedFile) : List (Units × JsonRecord) :=
  (readings files).filterMap Reading.object?

def componentsOf (files : List MetadataRuntimeLoadedFile) (kind : TaxonomyKind) : List JsonRecord :=
  (readings files).filterMap (Reading.component? kind)

/-- No two of the names are the same key. -/
def KeysDistinct (fields : List (JsonValue × JsonRecord)) : Prop :=
  fields.Pairwise fun f g => sameKey f.1 g.1 = false

/-- Files that the parser finds no error in, apart from fields of objects that are not there. -/
structure Admissible (files : List MetadataRuntimeLoadedFile) : Prop where
  read : ∀ file ∈ files, (readFile file).2 ≠ none
  named : ∀ object ∈ objectsOf files, ∀ field ∈ fieldsOf object.2, namedInline field ≠ none
  single : ((objectsOf files).map Prod.fst).Nodup
  distinct : ∀ name, KeysDistinct (definitionsOf files name)

def Reading.Defines (name : Units) (reading : Reading) : Prop :=
  reading.object?.map Prod.fst = some name

instance (name : Units) (reading : Reading) : Decidable (reading.Defines name) :=
  inferInstanceAs (Decidable (_ = _))

/-- The fields that readings define for an object in their order: of the documents of the object only
the first one counts. -/
def effective (name : Units) : Bool → List Reading → List (JsonValue × JsonRecord)
  | _, [] => []
  | defined, reading :: rest =>
    if reading.Defines name then
      (if defined then [] else reading.definitions name) ++ effective name true rest
    else reading.definitions name ++ effective name defined rest

def effectiveOf (files : List MetadataRuntimeLoadedFile) (name : Units) :
    List (JsonValue × JsonRecord) :=
  effective name false (readings files)

/-- A name that is a key of its own: an object or an array. -/
def OwnKey (field : JsonValue × JsonRecord) : Prop :=
  sameKey field.1 field.1 = false

instance : DecidablePred OwnKey :=
  fun _ => inferInstanceAs (Decidable (_ = _))

/-- Of some new fields, those are added that have names of their own. -/
structure Adds (old added new : List (JsonValue × JsonRecord)) : Prop where
  sublist : added.Sublist new
  head : old = [] → added.head? = new.head?
  own : added.filter OwnKey = new.filter OwnKey
  covers : ∀ field ∈ new, ¬ OwnKey field → ∃ other ∈ old ++ added, sameKey other.1 field.1 = true

/-- What the parser keeps of any files. -/
structure Kept (files : List MetadataRuntimeLoadedFile) (s : ParserState) : Prop where
  keys : (s.objects.map Prod.fst).Nodup
  object : ∀ name, (s.entry name).object.isSome = true ↔ name ∈ (objectsOf files).map Prod.fst
  fields : ∀ name, Adds [] (s.entry name).fields (effectiveOf files name)
  distinct : ∀ name, KeysDistinct (s.entry name).fields

/-- What the parser keeps of files without an error: all that they say. -/
structure Gathered (files : List MetadataRuntimeLoadedFile) (s : ParserState) : Prop where
  object : ∀ name, (s.entry name).object =
    ((objectsOf files).lookup name).map fun payload => assign payload (units "fields") (.arr [])
  fields : ∀ name, (s.entry name).fields = definitionsOf files name
  keys : ∀ name, name ∈ s.objects.map Prod.fst ↔
    name ∈ (objectsOf files).map Prod.fst ∨ definitionsOf files name ≠ []
  taxonomy : ∀ kind, s.taxonomy kind = componentsOf files kind

section readings
variable {files : List MetadataRuntimeLoadedFile} {file : MetadataRuntimeLoadedFile}
  {texts : Texts} {path : Units} {s : ParserState}

/-- Two lists of findings have no error. -/
lemma noError_append {ds es : List MetadataRuntimeDiagnostic} :
    NoError (ds ++ es) ↔ NoError ds ∧ NoError es := by
  unfold NoError
  exact List.forall_mem_append

/-- A finding that is no error. -/
lemma noError_singleton {d : MetadataRuntimeDiagnostic} : NoError [d] ↔ d.severity ≠ .error := by
  simp [NoError]

/-- What is wrong with an envelope is an error. -/
lemma declaredEnvelope_error {kind : Units} {error : MetadataRuntimeDiagnostic}
    (h : declaredEnvelope path kind = .error error) : error.severity = .error := by
  unfold declaredEnvelope at h
  dsimp only at h
  generalize (if isMetadataRuntimeFieldFile path = true then units "field" else units "object") =
    inferred at h
  by_cases hdeclared : kind = units "object" ∨ kind = units "field"
  · rw [if_pos hdeclared] at h
    by_cases hinferred : kind ≠ inferred
    · rw [if_pos hinferred] at h
      rw [← Except.error.inj h]
      rfl
    · rw [if_neg hinferred] at h
      cases h
  · rw [if_neg hdeclared] at h
    split at h
    · rw [← Except.error.inj h]
      rfl
    · cases h

/-- An envelope is invalid just when a diagnostic is an error. -/
lemma envelope_noError (path : Units) (document : JsonRecord) :
    NoError (validateDocumentEnvelope path document).1 ↔
      (validateDocumentEnvelope path document).2 ≠ none := by
  have hdeclared (ds : List MetadataRuntimeDiagnostic) (hds : NoError ds) :
      NoError (validateDocumentEnvelope.declaredKind path document ds).1 ↔
        (validateDocumentEnvelope.declaredKind path document ds).2 ≠ none := by
    unfold validateDocumentEnvelope.declaredKind
    cases stringOf document "kind" with
    | none => simp [noError_append, noError_singleton, hds, kindMissing, diagnostic]
    | some kind =>
      dsimp only
      cases hkind : declaredEnvelope path kind with
      | ok envelope => simp [hds]
      | error error =>
        have herror := declaredEnvelope_error hkind
        simp [noError_append, noError_singleton, herror]
  unfold validateDocumentEnvelope
  cases stringOf document "schemaVersion" with
  | none =>
    refine hdeclared _ ?_
    simp [noError_singleton, schemaVersionMissing, diagnostic]
  | some schemaVersion =>
    dsimp only
    split
    · simp [noError_singleton, schemaVersionUnsupported, diagnostic]
    · exact hdeclared [] nofun

/-- A file is rejected just when a diagnostic of it is an error. -/
lemma readFile_noError (file : MetadataRuntimeLoadedFile) :
    NoError (readFile file).1 ↔ (readFile file).2 ≠ none := by
  unfold readFile
  dsimp only
  -- the tests of the source in their order; each has its own error
  cases recordOf file.document with
  | none => simp [noError_singleton, diagnostic]
  | some document =>
    dsimp only
    generalize normalizeMetadataRuntimeFilePath file.path = path
    have henvelope := envelope_noError path document
    revert henvelope
    rcases validateDocumentEnvelope path document with ⟨ds, envelope⟩
    intro henvelope
    cases envelope with
    | none => simpa using henvelope
    | some envelope =>
      have hds : NoError ds := henvelope.2 (by simp)
      dsimp only
      cases hread : readDocument path document envelope with
      | ok reading => simp [hds]
      | error error =>
        have herror : error.severity = .error := by
          unfold readDocument at hread
          split at hread
          · split at hread
            · rw [← Except.error.inj hread]
              rfl
            · split at hread
              · rw [← Except.error.inj hread]
                rfl
              · cases hread
          · split at hread
            · cases hread
            · split at hread
              · rw [← Except.error.inj hread]
                rfl
              · cases hread
        simp [noError_append, noError_singleton, herror]

/-! ## The fields of an object document -/

/-- An object has no field of a name. -/
lemma has_false {entry : MutableObjectDefinition} {name : JsonValue} :
    entry.has name = false ↔ ∀ field ∈ entry.fields, sameKey field.1 name = false := by
  unfold MutableObjectDefinition.has
  rw [List.any_eq_false]
  simp

/-- A key that equals one equals itself. -/
lemma sameKey_right {a b : JsonValue} (h : sameKey a b = true) : sameKey b b = true := by
  cases a <;> cases b <;> simp_all [sameKey]

/-- Adding no field. -/
lemma Adds.nothing (old : List (JsonValue × JsonRecord)) : Adds old [] [] :=
  ⟨List.Sublist.refl _, fun _ => rfl, rfl, nofun⟩

/-- What is added to what was added. -/
lemma Adds.append {ds old added new : List (JsonValue × JsonRecord)} (h : Adds [] old ds)
    (hnew : Adds old added new) : Adds [] (old ++ added) (ds ++ new) where
  sublist := h.sublist.append hnew.sublist
  head := fun _ => by
    have hhead := h.head rfl
    cases old with
    | nil =>
      rw [List.nil_append, hnew.head rfl, List.head?_append, ← hhead]
      rfl
    | cons first old =>
      rw [List.head?_append, List.head?_append, ← hhead]
      rfl
  own := by rw [List.filter_append, List.filter_append, h.own, hnew.own]
  covers := fun field hfield hkeyed => by
    rw [List.nil_append]
    rcases List.mem_append.1 hfield with hfield | hfield
    · obtain ⟨other, hother, hsame⟩ := h.covers field hfield hkeyed
      exact ⟨other, List.mem_append_left _ hother, hsame⟩
    · exact hnew.covers field hfield hkeyed

/-- A field that is there already is not added. -/
lemma Adds.duplicate {entry : MutableObjectDefinition} {name : JsonValue} {record : JsonRecord}
    {added new : List (JsonValue × JsonRecord)} (hhas : entry.has name = true)
    (h : Adds entry.fields added new) : Adds entry.fields added ((name, record) :: new) := by
  obtain ⟨other, hother, hsame⟩ := List.any_eq_true.1 hhas
  have hkeyed : ¬ OwnKey (name, record) := by
    unfold OwnKey
    rw [sameKey_right hsame]
    exact Bool.noConfusion
  refine ⟨h.sublist.cons _, fun hnil => ?_, ?_, ?_⟩
  · rw [hnil] at hother
    cases hother
  · rw [List.filter_cons_of_neg (by simpa using hkeyed)]
    exact h.own
  · refine List.forall_mem_cons.2 ⟨fun _ => ?_, h.covers⟩
    exact ⟨other, List.mem_append_left _ hother, hsame⟩

/-- A new field is added. -/
lemma Adds.fresh {old added new : List (JsonValue × JsonRecord)} {field : JsonValue × JsonRecord}
    (h : Adds (old ++ [field]) added new) : Adds old (field :: added) (field :: new) := by
  refine ⟨h.sublist.cons_cons _, fun _ => rfl, ?_, ?_⟩
  · rw [List.filter_cons, List.filter_cons, h.own]
  · refine List.forall_mem_cons.2 ⟨fun hkeyed => ?_, fun other hother hkeyed => ?_⟩
    · refine ⟨field, List.mem_append_right _ (List.mem_cons_self ..), ?_⟩
      exact Bool.eq_true_of_not_eq_false hkeyed
    · have hcovers := h.covers other hother hkeyed
      rw [← List.append_cons] at hcovers
      exact hcovers

/-- The loop over inline fields adds fields with new names, and finds no error just where it adds
them all. -/
lemma inlineFields_run (texts : Texts) (path objectName : Units) (fields : List JsonValue)
    (acc : MutableObjectDefinition × List MetadataRuntimeDiagnostic)
    (hold : KeysDistinct acc.1.fields) :
    ∃ added ds, fields.foldl (consumeInlineField texts path objectName) acc =
        ({ acc.1 with fields := acc.1.fields ++ added }, acc.2 ++ ds) ∧
      KeysDistinct (acc.1.fields ++ added) ∧
      Adds acc.1.fields added (fields.filterMap namedInline) ∧
      (NoError ds ↔ (∀ field ∈ fields, namedInline field ≠ none) ∧
        KeysDistinct (acc.1.fields ++ fields.filterMap namedInline)) ∧
      (NoError ds → added = fields.filterMap namedInline) := by
  -- induction on the fields that are left in the loop
  induction fields generalizing acc with
  | nil =>
    refine ⟨[], [], by simp, by simpa using hold, Adds.nothing _, ?_, fun _ => rfl⟩
    simpa [NoError] using hold
  | cons field fields ih =>
    have hcases : (namedInline field = none ∧ ∃ d, d.severity = .error ∧
        consumeInlineField texts path objectName acc field = (acc.1, acc.2 ++ [d])) ∨
        ∃ name record, namedInline field = some (name, record) ∧
          consumeInlineField texts path objectName acc field =
            if acc.1.has name then (acc.1, acc.2 ++ [duplicateField texts objectName name path])
            else ({ acc.1 with fields := acc.1.fields ++ [(name, record)] }, acc.2) := by
      unfold namedInline consumeInlineField
      cases recordOf (some field) with
      | none => exact .inl ⟨rfl, _, rfl, rfl⟩
      | some record =>
        dsimp only [Option.bind_some]
        cases namedField record with
        | none => exact .inl ⟨rfl, _, rfl, rfl⟩
        | some name => exact .inr ⟨name, record, rfl, rfl⟩
    rcases hcases with ⟨hnone, d, hd, hfirst⟩ | ⟨name, record, hnamed, hfirst⟩
    · obtain ⟨added, ds, hrun, hkeys, hadds, _, _⟩ := ih (acc.1, acc.2 ++ [d]) hold
      have herror : ¬ NoError (d :: ds) := fun h => h d (List.mem_cons_self ..) hd
      refine ⟨added, d :: ds, ?_, hkeys, ?_, ?_, fun h => absurd h herror⟩
      · rw [List.foldl_cons, hfirst, hrun, List.append_assoc]
        rfl
      · rw [List.filterMap_cons_none hnone]
        exact hadds
      · exact ⟨fun h => absurd h herror, fun h => absurd hnone (h.1 field (List.mem_cons_self ..))⟩
    · rw [List.filterMap_cons_some hnamed]
      cases hhas : acc.1.has name with
      | true =>
        rw [hhas, if_pos rfl] at hfirst
        obtain ⟨added, ds, hrun, hkeys, hadds, _, _⟩ :=
          ih (acc.1, acc.2 ++ [duplicateField texts objectName name path]) hold
        have herror : ¬ NoError (duplicateField texts objectName name path :: ds) :=
          fun h => h _ (List.mem_cons_self ..) rfl
        refine ⟨added, _, ?_, hkeys, hadds.duplicate hhas, ?_, fun h => absurd h herror⟩
        · rw [List.foldl_cons, hfirst, hrun, List.append_assoc]
          rfl
        · refine ⟨fun h => absurd h herror, fun h => ?_⟩
          have hfresh := has_false.2 fun other hother =>
            (List.pairwise_append.1 h.2).2.2 other hother (name, record) (List.mem_cons_self ..)
          cases hhas.symm.trans hfresh
      | false =>
        rw [hhas, if_neg (by simp)] at hfirst
        have hnew : KeysDistinct (acc.1.fields ++ [(name, record)]) := by
          refine List.pairwise_append.2 ⟨hold, List.pairwise_singleton _ _, ?_⟩
          intro other hother added hadded
          obtain rfl := List.mem_singleton.1 hadded
          exact has_false.1 hhas other hother
        obtain ⟨added, ds, hrun, hkeys, hadds, hiff, hall⟩ :=
          ih ({ acc.1 with fields := acc.1.fields ++ [(name, record)] }, acc.2) hnew
        dsimp only at hrun hkeys hiff
        rw [← List.append_cons] at hkeys hiff
        refine ⟨(name, record) :: added, ds, ?_, hkeys, hadds.fresh, ?_, ?_⟩
        · rw [List.foldl_cons, hfirst, hrun, ← List.append_cons]
        · rw [hiff, List.forall_mem_cons]
          exact ⟨fun h => ⟨⟨by simp [hnamed], h.1⟩, h.2⟩, fun h => ⟨h.1.2, h.2⟩⟩
        · intro h
          rw [hall h]

/-! ## One more file -/

/-- An assigned entry is the one of its name. -/
lemma entry_assign {objects : List (Units × MutableObjectDefinition)} {name other : Units}
    {entry : MutableObjectDefinition} {taxonomy : TaxonomyKind → List JsonRecord}
    {ds : List MetadataRuntimeDiagnostic} :
    ({ objects := assign objects name entry, taxonomy, diagnostics := ds } : ParserState).entry other =
      if other = name then entry else (objects.lookup other).getD {} := by
  unfold ParserState.entry
  split
  · rename_i heq
    rw [heq, lookup_assign]
    rfl
  · rename_i hne
    rw [lookup_assign_ne hne]

/-- One more file gives at most one more reading. -/
lemma readings_append : readings (files ++ [file]) = readings files ++ (readFile file).2.toList := by
  unfold readings
  rw [List.filterMap_append]
  cases hread : (readFile file).2 with
  | none => simp [hread]
  | some reading => simp [hread]

/-- One more file defines its own fields. -/
lemma definitionsOf_append (name : Units) : definitionsOf (files ++ [file]) name =
    definitionsOf files name ++ (readFile file).2.toList.flatMap (·.definitions name) := by
  unfold definitionsOf
  rw [readings_append, List.flatMap_append]

/-- One more file holds at most one object. -/
lemma objectsOf_append : objectsOf (files ++ [file]) =
    objectsOf files ++ (readFile file).2.toList.filterMap Reading.object? := by
  unfold objectsOf
  rw [readings_append, List.filterMap_append]

/-- One more file holds at most one component. -/
lemma componentsOf_append (kind : TaxonomyKind) : componentsOf (files ++ [file]) kind =
    componentsOf files kind ++ (readFile file).2.toList.filterMap (Reading.component? kind) := by
  unfold componentsOf
  rw [readings_append, List.filterMap_append]

/-- An object is defined if one of the files holds it. -/
lemma defines_iff {name : Units} :
    (∃ reading ∈ readings files, reading.Defines name) ↔ name ∈ (objectsOf files).map Prod.fst := by
  unfold Reading.Defines objectsOf
  rw [List.map_filterMap, List.mem_filterMap]

/-- One more file takes effect behind the others. -/
lemma effective_append (name : Units) (defined : Bool) (earlier : List Reading) (reading : Reading) :
    effective name defined (earlier ++ [reading]) = effective name defined earlier ++
      if reading.Defines name ∧ (defined = true ∨ ∃ other ∈ earlier, other.Defines name) then []
      else reading.definitions name := by
  induction earlier generalizing defined with
  | nil => cases defined <;> simp [effective]
  | cons first earlier ih =>
    rw [List.cons_append, effective, effective, ih, ih]
    by_cases hfirst : first.Defines name
    · rw [if_pos hfirst, if_pos hfirst, List.append_assoc]
      simp [hfirst]
    · rw [if_neg hfirst, if_neg hfirst, List.append_assoc]
      simp [hfirst]

/-- What one more file adds. -/
def contribution (files : List MetadataRuntimeLoadedFile) (reading : Reading) (name : Units) :
    List (JsonValue × JsonRecord) :=
  if reading.Defines name ∧ name ∈ (objectsOf files).map Prod.fst then []
  else reading.definitions name

/-- What takes effect with one more file. -/
lemma effectiveOf_append {reading : Reading} (hread : (readFile file).2 = some reading)
    (name : Units) :
    effectiveOf (files ++ [file]) name = effectiveOf files name ++ contribution files reading name := by
  unfold effectiveOf contribution
  rw [readings_append, hread, Option.toList_some, effective_append]
  simp only [Bool.false_eq_true, false_or, defines_iff]

/-- The objects with one more file. -/
lemma mem_objectsOf_append {reading : Reading} (hread : (readFile file).2 = some reading)
    {name : Units} : name ∈ (objectsOf (files ++ [file])).map Prod.fst ↔
      name ∈ (objectsOf files).map Prod.fst ∨ reading.Defines name := by
  rw [← defines_iff, ← defines_iff, readings_append, hread]
  simp [or_and_right, exists_or]

/-- Fewer files are admissible if more are. -/
lemma Admissible.init (h : Admissible (files ++ [file])) : Admissible files where
  read := fun other hother => h.read other (List.mem_append_left _ hother)
  named := fun object hobject => h.named object (by
    rw [objectsOf_append]
    exact List.mem_append_left _ hobject)
  single := by
    have hsingle := h.single
    rw [objectsOf_append, List.map_append] at hsingle
    exact hsingle.of_append_left
  distinct := fun name => by
    have hdistinct := h.distinct name
    rw [definitionsOf_append] at hdistinct
    exact (List.pairwise_append.1 hdistinct).1

/-- One more file that says something: what the objects keep after it. -/
lemma Kept.step {reading : Reading} (h : Kept files s) (hread : (readFile file).2 = some reading)
    {s' : ParserState} (hkeys : (s'.objects.map Prod.fst).Nodup)
    (hobject : ∀ name, (s'.entry name).object.isSome = true ↔
      (s.entry name).object.isSome = true ∨ reading.Defines name)
    (hfields : ∀ name, ∃ added, (s'.entry name).fields = (s.entry name).fields ++ added ∧
      Adds (s.entry name).fields added (contribution files reading name) ∧
      KeysDistinct ((s.entry name).fields ++ added)) : Kept (files ++ [file]) s' where
  keys := hkeys
  object := fun name => by rw [hobject, mem_objectsOf_append hread, h.object]
  fields := fun name => by
    obtain ⟨added, hentry, hadds, -⟩ := hfields name
    rw [hentry, effectiveOf_append hread]
    exact (h.fields name).append hadds
  distinct := fun name => by
    obtain ⟨added, hentry, -, hdistinct⟩ := hfields name
    rw [hentry]
    exact hdistinct

/-- One more file that adds no field. -/
lemma Kept.same {reading : Reading} (h : Kept files s) (hread : (readFile file).2 = some reading)
    {s' : ParserState} (hs : s'.objects = s.objects)
    (hobject : ∀ name, reading.Defines name → name ∈ (objectsOf files).map Prod.fst)
    (hfields : ∀ name, Adds (s.entry name).fields [] (contribution files reading name)) :
    Kept (files ++ [file]) s' := by
  have hentry (name : Units) : s'.entry name = s.entry name := by
    unfold ParserState.entry
    rw [hs]
  refine h.step hread (hs ▸ h.keys) (fun name => ?_) (fun name => ⟨[], ?_, hfields name, ?_⟩)
  · rw [hentry, h.object]
    exact (or_iff_left_of_imp (hobject name)).symm
  · rw [hentry, List.append_nil]
  · rw [List.append_nil]
    exact h.distinct name

/-- A file that is rejected. -/
lemma Kept.reject (h : Kept files s) (hread : (readFile file).2 = none)
    {ds : List MetadataRuntimeDiagnostic} : Kept (files ++ [file]) { s with diagnostics := ds } := by
  have hreadings : readings (files ++ [file]) = readings files := by
    rw [readings_append, hread]
    exact List.append_nil _
  refine ⟨h.keys, fun name => ?_, fun name => ?_, h.distinct⟩
  · rw [← defines_iff, hreadings, defines_iff]
    exact h.object name
  · unfold effectiveOf
    rw [hreadings]
    exact h.fields name

/-- One more file that says something of one object. -/
lemma Kept.extend {reading : Reading} (h : Kept files s) (hread : (readFile file).2 = some reading)
    {name : Units} {object : Option JsonRecord} {added : List (JsonValue × JsonRecord)}
    (hother : ∀ other, other ≠ name → ¬ reading.Defines other ∧ reading.definitions other = [])
    (hobject : object.isSome = true ↔
      (s.entry name).object.isSome = true ∨ reading.Defines name)
    (hadds : Adds (s.entry name).fields added (contribution files reading name))
    (hdistinct : KeysDistinct ((s.entry name).fields ++ added))
    (ds : List MetadataRuntimeDiagnostic) :
    Kept (files ++ [file])
      { s with
        objects := assign s.objects name { object, fields := (s.entry name).fields ++ added }
        diagnostics := ds } := by
  refine h.step hread (nodup_keys_assign h.keys) (fun other => ?_) (fun other => ?_)
  · rw [entry_assign]
    split
    · rename_i heq
      rw [heq]
      exact hobject
    · rename_i hne
      exact (or_iff_left (hother other hne).1).symm
  · rw [entry_assign]
    split
    · rename_i heq
      rw [heq]
      exact ⟨added, rfl, hadds, hdistinct⟩
    · rename_i hne
      refine ⟨[], (List.append_nil _).symm, ?_, ?_⟩
      · unfold contribution
        rw [if_neg fun h => (hother other hne).1 h.1, (hother other hne).2]
        exact Adds.nothing _
      · rw [List.append_nil]
        exact h.distinct other

/-- What a file must say to be admissible after others. -/
structure Admits (files : List MetadataRuntimeLoadedFile) (reading : Reading) : Prop where
  object : ∀ object, reading.object? = some object →
    object.1 ∉ (objectsOf files).map Prod.fst ∧
      ∀ field ∈ fieldsOf object.2, namedInline field ≠ none
  distinct : ∀ name, KeysDistinct (definitionsOf files name ++ reading.definitions name)

/-- When one more file is admissible. -/
lemma admissible_append {reading : Reading} (hread : (readFile file).2 = some reading) :
    Admissible (files ++ [file]) ↔ Admissible files ∧ Admits files reading := by
  have hobjects : objectsOf (files ++ [file]) = objectsOf files ++ reading.object?.toList := by
    rw [objectsOf_append, hread]
    cases reading <;> rfl
  have hdefinitions (name : Units) : definitionsOf (files ++ [file]) name =
      definitionsOf files name ++ reading.definitions name := by
    rw [definitionsOf_append, hread]
    simp
  -- the files before have to be admissible, and the last may not clash with any of them
  constructor
  · intro h
    refine ⟨h.init, fun object hobject => ⟨?_, ?_⟩, fun name => ?_⟩
    · have hsingle := h.single
      rw [hobjects, hobject, List.map_append, List.nodup_append] at hsingle
      exact fun hmem => hsingle.2.2 object.1 hmem object.1 (List.mem_singleton_self _) rfl
    · refine h.named object ?_
      rw [hobjects, hobject]
      exact List.mem_append_right _ (List.mem_singleton_self _)
    · rw [← hdefinitions]
      exact h.distinct name
  · rintro ⟨h, hadmits⟩
    constructor
    · intro other hother
      rcases List.mem_append.1 hother with hother | hother
      · exact h.read other hother
      · rw [List.mem_singleton.1 hother, hread]
        exact Option.some_ne_none _
    · intro object hobject
      rw [hobjects] at hobject
      rcases List.mem_append.1 hobject with hobject | hobject
      · exact h.named object hobject
      · exact (hadmits.object object (Option.mem_toList.1 hobject)).2
    · rw [hobjects]
      cases hobject : reading.object? with
      | none => simpa using h.single
      | some object =>
        rw [List.map_append, List.nodup_append]
        refine ⟨h.single, List.nodup_singleton _, ?_⟩
        rintro name hname other hother rfl
        obtain rfl := List.mem_singleton.1 hother
        exact (hadmits.object object hobject).1 hname
    · intro name
      rw [hdefinitions]
      exact hadmits.distinct name

/-- A reading keeps what was kept, and its diagnostics come after the ones before. -/
lemma applyReading_kept (texts : Texts) (path : Units) {reading : Reading}
    (hread : (readFile file).2 = some reading) (h : Kept files s) :
    Kept (files ++ [file]) (applyReading texts path s reading) ∧
      ∃ ds, (applyReading texts path s reading).diagnostics = s.diagnostics ++ ds := by
  -- only the entry of the object that the file is about changes
  cases reading with
  | object name payload =>
    have hother (other : Units) (hne : other ≠ name) :
        ¬ (Reading.object name payload).Defines other ∧
          (Reading.object name payload).definitions other = [] :=
      ⟨fun hdefines => hne (Option.some.inj hdefines).symm, if_neg (Ne.symm hne)⟩
    have hdefined : (Reading.object name payload).definitions name =
        (fieldsOf payload).filterMap namedInline := if_pos rfl
    unfold applyReading
    dsimp only
    split
    · rename_i hsome
      have hmem := (h.object name).1 hsome
      refine ⟨h.same hread rfl (fun other hdefines => ?_) (fun other => ?_), _, rfl⟩
      · rw [← Option.some.inj hdefines]
        exact hmem
      · unfold contribution
        by_cases hne : other = name
        · rw [hne, if_pos ⟨rfl, hmem⟩]
          exact Adds.nothing _
        · rw [if_neg fun h => (hother other hne).1 h.1, (hother other hne).2]
          exact Adds.nothing _
    · rename_i hnone
      obtain ⟨added, ds, hrun, hkeys, hadds, _, _⟩ := inlineFields_run texts path name
        (fieldsOf payload)
        ({ s.entry name with object := some (assign payload (units "fields") (.arr [])) },
          s.diagnostics) (h.distinct name)
      rw [hrun]
      refine ⟨h.extend hread hother (iff_of_true rfl (.inr rfl)) ?_ hkeys _, ds, rfl⟩
      unfold contribution
      rw [if_neg fun hboth => hnone ((h.object name).2 hboth.2), hdefined]
      exact hadds
  | field objectName name record =>
    have hother (other : Units) (hne : other ≠ objectName) :
        ¬ (Reading.field objectName name record).Defines other ∧
          (Reading.field objectName name record).definitions other = [] :=
      ⟨nofun, if_neg (Ne.symm hne)⟩
    have hcontribution : contribution files (.field objectName name record) objectName =
        [(name, record)] := by
      unfold contribution
      rw [if_neg nofun]
      exact if_pos rfl
    unfold applyReading
    dsimp only
    split
    · rename_i hhas
      refine ⟨h.same hread rfl nofun (fun other => ?_), _, rfl⟩
      by_cases hne : other = objectName
      · rw [hne, hcontribution]
        exact (Adds.nothing _).duplicate hhas
      · unfold contribution
        rw [if_neg nofun, (hother other hne).2]
        exact Adds.nothing _
    · rename_i hhas
      refine ⟨h.extend hread hother (or_iff_left nofun).symm ?_ ?_ _, [], by simp⟩
      · rw [hcontribution]
        exact (Adds.nothing _).fresh
      · refine List.pairwise_append.2 ⟨h.distinct objectName, List.pairwise_singleton _ _, ?_⟩
        intro other hother added hadded
        obtain rfl := List.mem_singleton.1 hadded
        exact has_false.1 (Bool.eq_false_iff.2 hhas) other hother
  | component kind payload =>
    refine ⟨h.same hread rfl nofun (fun other => ?_), [], by simp [applyReading]⟩
    unfold contribution
    rw [if_neg nofun]
    exact Adds.nothing _

/-- A file that says something of one object only. -/
lemma Gathered.extend {reading : Reading} (h : Gathered files s)
    (hread : (readFile file).2 = some reading) {name : Units} {object : Option JsonRecord}
    (hdefinitions : ∀ other, other ≠ name → reading.definitions other = [])
    (hobjects : ∀ other, other ≠ name → (reading.object?.toList).lookup other = none)
    (hobject : object = ((objectsOf (files ++ [file])).lookup name).map fun payload =>
      assign payload (units "fields") (.arr []))
    (htouched : (∃ payload, reading.object? = some (name, payload)) ∨ reading.definitions name ≠ [])
    (hcomponents : ∀ kind, reading.component? kind = none) (ds : List MetadataRuntimeDiagnostic) :
    Gathered (files ++ [file])
      { s with
        objects := assign s.objects name
          { object, fields := definitionsOf files name ++ reading.definitions name }
        diagnostics := ds } := by
  have hobjectsOf : objectsOf (files ++ [file]) = objectsOf files ++ reading.object?.toList := by
    rw [objectsOf_append, hread]
    cases reading <;> rfl
  have hdefinitionsOf (other : Units) : definitionsOf (files ++ [file]) other =
      definitionsOf files other ++ reading.definitions other := by
    rw [definitionsOf_append, hread]
    simp
  have hother {other : Units} (hne : other ≠ name) :
      (objectsOf (files ++ [file])).lookup other = (objectsOf files).lookup other := by
    rw [hobjectsOf, List.lookup_append, hobjects other hne, Option.or_none]
  constructor
  · intro other
    rw [entry_assign]
    split
    · rename_i heq
      rw [heq]
      exact hobject
    · rename_i hne
      rw [hother hne]
      exact h.object other
  · intro other
    rw [entry_assign, hdefinitionsOf]
    split
    · rename_i heq
      rw [heq]
    · rename_i hne
      rw [hdefinitions other hne, List.append_nil]
      exact h.fields other
  · intro other
    have hkeys : other ∈ (assign s.objects name
        { object, fields := definitionsOf files name ++ reading.definitions name }).map Prod.fst ↔
          other = name ∨ other ∈ s.objects.map Prod.fst := by
      rw [keys_assign]
      split
      · rename_i hmem
        exact ⟨.inr, fun h => h.elim (fun heq => heq ▸ hmem) id⟩
      · rw [List.mem_append, List.mem_singleton, or_comm]
    rw [hkeys, hdefinitionsOf]
    -- the object of the file has what is added, the others what they had
    by_cases hne : other = name
    · rw [hne]
      refine iff_of_true (.inl rfl) ?_
      rcases htouched with ⟨payload, hpayload⟩ | hdefined
      · refine .inl ?_
        rw [hobjectsOf, hpayload]
        simp
      · exact .inr fun hnil => hdefined (List.append_eq_nil_iff.1 hnil).2
    · rw [h.keys other, ← lookup_isSome, ← lookup_isSome, hother hne, hdefinitions other hne,
        List.append_nil]
      exact ⟨fun h => h.resolve_left hne, .inr⟩
  · intro kind
    rw [componentsOf_append, hread]
    simp only [Option.toList_some, List.filterMap_cons, hcomponents, List.filterMap_nil,
      List.append_nil]
    exact h.taxonomy kind

/-- Distinct keys with one more file. -/
lemma keysDistinct_definitions {reading : Reading} (hadm : Admissible files) {name : Units}
    (hdefinitions : ∀ other, other ≠ name → reading.definitions other = []) :
    (∀ other, KeysDistinct (definitionsOf files other ++ reading.definitions other)) ↔
      KeysDistinct (definitionsOf files name ++ reading.definitions name) := by
  refine ⟨fun h => h name, fun h other => ?_⟩
  by_cases hne : other = name
  · rw [hne]
    exact h
  · rw [hdefinitions other hne, List.append_nil]
    exact hadm.distinct other

/-- After files without an error, a reading is without one just when it is admissible, and then all
that it says is gathered. -/
lemma applyReading_gathers (texts : Texts) (path : Units) {reading : Reading} (hread : (readFile file).2 = some reading)
    (hadm : Admissible files) (hkept : Kept files s) (h : Gathered files s) :
    ∃ ds, (applyReading texts path s reading).diagnostics = s.diagnostics ++ ds ∧
      (NoError ds ↔ Admits files reading) ∧
      (NoError ds → Gathered (files ++ [file]) (applyReading texts path s reading)) := by
  cases reading with
  | object name payload =>
    have hdefinitions (other : Units) (hne : other ≠ name) :
        (Reading.object name payload).definitions other = [] := if_neg (Ne.symm hne)
    have hdefined : (Reading.object name payload).definitions name =
        (fieldsOf payload).filterMap namedInline := if_pos rfl
    have hisSome : (s.entry name).object.isSome = true ↔
        name ∈ (objectsOf files).map Prod.fst := by
      rw [h.object name, Option.isSome_map, lookup_isSome]
    unfold applyReading
    dsimp only
    -- a second definition of an object is reported, and the first is kept
    by_cases hsome : (s.entry name).object.isSome = true
    · rw [if_pos hsome]
      refine ⟨_, rfl, ?_, fun hno => absurd rfl (noError_singleton.1 hno)⟩
      exact ⟨fun hno => absurd rfl (noError_singleton.1 hno),
        fun hadmits => absurd (hisSome.1 hsome) (hadmits.object _ rfl).1⟩
    · rw [if_neg hsome]
      have hnew : name ∉ (objectsOf files).map Prod.fst := fun hmem => hsome (hisSome.2 hmem)
      obtain ⟨added, ds, hrun, hkeys, -, hiff, hall⟩ := inlineFields_run texts path name
        (fieldsOf payload)
        ({ s.entry name with object := some (assign payload (units "fields") (.arr [])) },
          s.diagnostics) (hkept.distinct name)
      dsimp only at hkeys hiff
      rw [hrun]
      dsimp only
      rw [h.fields name] at hiff
      refine ⟨ds, rfl, ?_, fun hno => ?_⟩
      · rw [hiff]
        constructor
        · rintro ⟨hnamed, hdistinct⟩
          refine ⟨?_, (keysDistinct_definitions hadm hdefinitions).2 (hdefined ▸ hdistinct)⟩
          intro object hobject
          obtain rfl := Option.some.inj hobject
          exact ⟨hnew, hnamed⟩
        · intro hadmits
          exact ⟨(hadmits.object _ rfl).2, hdefined ▸ hadmits.distinct name⟩
      · rw [hall hno, h.fields name, ← hdefined]
        refine h.extend hread hdefinitions ?_ ?_ (.inl ⟨payload, rfl⟩) (fun _ => rfl) _
        · intro other hne
          rw [Reading.object?, Option.toList_some, List.lookup_cons, beq_eq_false_iff_ne.2 hne]
          rfl
        · rw [objectsOf_append, hread, List.lookup_append,
            Option.not_isSome_iff_eq_none.1 fun hmem => hnew (lookup_isSome.1 hmem)]
          simp [Reading.object?]
  | field objectName name record =>
    have hdefinitions (other : Units) (hne : other ≠ objectName) :
        (Reading.field objectName name record).definitions other = [] := if_neg (Ne.symm hne)
    have hdefined : (Reading.field objectName name record).definitions objectName =
        [(name, record)] := if_pos rfl
    have hdistinct : KeysDistinct (definitionsOf files objectName ++ [(name, record)]) ↔
        (s.entry objectName).has name = false := by
      rw [has_false, h.fields objectName]
      unfold KeysDistinct
      rw [List.pairwise_append]
      refine ⟨fun hpair other hother => hpair.2.2 other hother _ (List.mem_singleton_self _),
        fun hfresh => ⟨hadm.distinct objectName, List.pairwise_singleton _ _, ?_⟩⟩
      intro other hother added hadded
      obtain rfl := List.mem_singleton.1 hadded
      exact hfresh other hother
    have hadmits : Admits files (.field objectName name record) ↔
        (s.entry objectName).has name = false := by
      rw [← hdistinct, ← hdefined, ← keysDistinct_definitions hadm hdefinitions]
      exact ⟨fun hadmits => hadmits.distinct, fun hkeys => ⟨nofun, hkeys⟩⟩
    unfold applyReading
    dsimp only
    rw [hadmits]
    -- a second field of one name is reported as well
    cases hhas : (s.entry objectName).has name with
    | true =>
      rw [if_pos rfl]
      refine ⟨_, rfl, ?_, fun hno => absurd rfl (noError_singleton.1 hno)⟩
      exact ⟨fun hno => absurd rfl (noError_singleton.1 hno), nofun⟩
    | false =>
      rw [if_neg (by simp)]
      refine ⟨[], by simp, iff_of_true nofun rfl, fun _ => ?_⟩
      rw [h.fields objectName, ← hdefined]
      refine h.extend hread hdefinitions (fun _ _ => rfl) ?_ (.inr ?_) (fun _ => rfl) _
      · have hobjects : objectsOf (files ++ [file]) = objectsOf files := by
          rw [objectsOf_append, hread]
          exact List.append_nil _
        rw [hobjects, h.object objectName]
      · rw [hdefined]
        exact List.cons_ne_nil _ _
  | component kind payload =>
    refine ⟨[], by simp [applyReading], iff_of_true nofun ⟨nofun, fun name => ?_⟩, fun _ => ?_⟩
    · rw [Reading.definitions, List.append_nil]
      exact hadm.distinct name
    · have hobjects : objectsOf (files ++ [file]) = objectsOf files := by
        rw [objectsOf_append, hread]
        simp [Reading.object?]
      have hdefinitions (name : Units) : definitionsOf (files ++ [file]) name =
          definitionsOf files name := by
        rw [definitionsOf_append, hread]
        simp [Reading.definitions]
      refine ⟨fun name => ?_, fun name => ?_, fun name => ?_, fun other => ?_⟩
      · rw [hobjects]
        exact h.object name
      · rw [hdefinitions]
        exact h.fields name
      · rw [hobjects, hdefinitions]
        exact h.keys name
      · rw [componentsOf_append, hread]
        by_cases hkind : other = kind
        · subst hkind
          simp [applyReading, Reading.component?, h.taxonomy other]
        · simp [applyReading, Reading.component?, h.taxonomy other, hkind, Ne.symm hkind]

/-! ## All files -/

/-- The state after some files. -/
def parsed (texts : Texts) (files : List MetadataRuntimeLoadedFile) : ParserState :=
  files.foldl (consumeFile texts) {}

/-- The files are parsed one after the other. -/
lemma parsed_append (texts : Texts) (files : List MetadataRuntimeLoadedFile)
    (file : MetadataRuntimeLoadedFile) :
    parsed texts (files ++ [file]) = consumeFile texts (parsed texts files) file :=
  List.foldl_append

/-- What is kept of any files, that the parser finds no error just in admissible ones, and that all
that these say is gathered. -/
lemma parsed_run (texts : Texts) (files : List MetadataRuntimeLoadedFile) :
    Kept files (parsed texts files) ∧
      (NoError (parsed texts files).diagnostics ↔ Admissible files) ∧
      (NoError (parsed texts files).diagnostics → Gathered files (parsed texts files)) := by
  -- induction on the files, from the last one
  induction files using List.reverseRecOn with
  | nil =>
    refine ⟨⟨.nil, fun _ => iff_of_false nofun nofun, fun _ => Adds.nothing _, fun _ => .nil⟩, ?_,
      fun _ => ?_⟩
    · exact iff_of_true nofun ⟨nofun, nofun, .nil, fun _ => .nil⟩
    · exact ⟨fun _ => rfl, fun _ => rfl, fun _ => by simp [parsed, objectsOf, definitionsOf, readings],
        fun _ => rfl⟩
  | append_singleton files file ih =>
    obtain ⟨hkept, hclean, hgathered⟩ := ih
    rw [parsed_append, consumeFile_read]
    cases hread : (readFile file).2 with
    | none =>
      have herror : ¬ NoError (readFile file).1 := fun h => (readFile_noError file).1 h hread
      have hdiagnostics : ¬ NoError ((parsed texts files).diagnostics ++ (readFile file).1) :=
        fun h => herror (noError_append.1 h).2
      refine ⟨hkept.reject hread, iff_of_false hdiagnostics fun h => ?_,
        fun h => absurd h hdiagnostics⟩
      exact h.read file (List.mem_append_right _ (List.mem_singleton_self _)) hread
    | some reading =>
      have hfile : NoError (readFile file).1 := (readFile_noError file).2 (by simp [hread])
      dsimp only
      have hkept' : Kept files { parsed texts files with
          diagnostics := (parsed texts files).diagnostics ++ (readFile file).1 } :=
        ⟨hkept.keys, hkept.object, hkept.fields, hkept.distinct⟩
      obtain ⟨hstep, ds, hds⟩ :=
        applyReading_kept texts (normalizeMetadataRuntimeFilePath file.path) hread hkept'
      refine ⟨hstep, ?_⟩
      by_cases hbefore : NoError (parsed texts files).diagnostics
      · have hgathered' := hgathered hbefore
        obtain ⟨ds, hds, hiff, hgathers⟩ := applyReading_gathers texts
          (normalizeMetadataRuntimeFilePath file.path) hread (hclean.1 hbefore) hkept'
          ⟨hgathered'.object, hgathered'.fields, hgathered'.keys, hgathered'.taxonomy⟩
        rw [hds, noError_append, noError_append]
        constructor
        · rw [admissible_append hread, ← hiff, ← hclean]
          exact ⟨fun h => ⟨h.1.1, h.2⟩, fun h => ⟨⟨h.1, hfile⟩, h.2⟩⟩
        · exact fun h => hgathers h.2
      · rw [hds, noError_append, noError_append]
        refine ⟨iff_of_false (fun h => hbefore h.1.1) fun h => ?_, fun h => absurd h.1.1 hbefore⟩
        exact hbefore (hclean.2 h.init)

end readings

end NexusClaw.MetadataRuntime
