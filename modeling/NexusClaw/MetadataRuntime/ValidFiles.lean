import NexusClaw.MetadataRuntime.FieldSorting

/-!
# Files that validation accepts

Where the validation of files returns, and what its diagnostics say of them.
-/

namespace NexusClaw.MetadataRuntime

open AuditChain

/-! ## Where validation returns -/

section returns
variable {p : Platform} {files : List MetadataRuntimeSourceFile}

def readingOf (p : Platform) (file : MetadataRuntimeSourceFile) : Option Reading :=
  (loadFile p file).toOption.bind fun loaded => (readFile loaded).2

/-- What the source files say. -/
def sourceReadings (p : Platform) (files : List MetadataRuntimeSourceFile) : List Reading :=
  files.filterMap (readingOf p)

/-- The readings of the loaded files are those of the sources. -/
lemma readings_loaded (p : Platform) (files : List MetadataRuntimeSourceFile) :
    readings (loadFromFiles p files).1 = sourceReadings p files :=
  List.filterMap_filterMap

/-- A list is mapped if each of its elements is. -/
lemma mapM_ok {α β ε : Type} {f : α → Except ε β} {xs : List α} {ys : List β} :
    xs.mapM f = .ok ys ↔ List.Forall₂ (fun x y => f x = .ok y) xs ys := by
  induction xs generalizing ys with
  | nil =>
    rw [List.mapM_nil, List.forall₂_nil_left_iff]
    exact ⟨fun h => (Except.ok.inj h).symm, fun h => h ▸ rfl⟩
  | cons x xs ih =>
    rw [List.mapM_cons, List.forall₂_cons_left_iff]
    cases hx : f x with
    | error e =>
      refine iff_of_false nofun ?_
      rintro ⟨y, ys', hy, -⟩
      cases hy
    | ok y =>
      cases hxs : xs.mapM f with
      | error e =>
        refine iff_of_false nofun ?_
        rintro ⟨y', ys', -, hrest, -⟩
        cases hxs.symm.trans (ih.2 hrest)
      | ok ys' =>
        constructor
        · intro h
          exact ⟨y, ys', rfl, ih.1 hxs, (Except.ok.inj h).symm⟩
        · rintro ⟨y', ys'', hy, hrest, rfl⟩
          have hys := hxs.symm.trans (ih.2 hrest)
          rw [← Except.ok.inj hy, ← Except.ok.inj hys]
          rfl

/-- An object with sorted fields. -/
def SortedFields (p : Platform) (object sorted : ParsedObject) : Prop :=
  ∃ fields, sortBy (nameBefore p) object.fields = .ok fields ∧ sorted = { object with fields }

/-- What a sorted snapshot is. -/
lemma sortSnapshot_ok {snapshot sorted : ParsedSnapshot} :
    sortMetadataRuntimeSnapshot p snapshot = .ok sorted ↔
      ∃ objects, List.Forall₂ (SortedFields p) snapshot.objects objects ∧ sorted =
        { objects := objects.insertionSort fun left right =>
            p.collation.le left.nameSingular right.nameSingular = true
          taxonomy := fun kind => (snapshot.taxonomy kind).insertionSort fun left right =>
            p.collation.le (getMetadataRuntimeComponentIdentity kind left)
              (getMetadataRuntimeComponentIdentity kind right) = true } := by
  have hobject (object object' : ParsedObject) :
      (do
        let fields ← sortBy (nameBefore p) object.fields
        .ok { object with fields }) = Except.ok (ε := Units) object' ↔
        SortedFields p object object' := by
    unfold SortedFields
    cases sortBy (nameBefore p) object.fields with
    | error e => exact iff_of_false nofun nofun
    | ok fields =>
      constructor
      · exact fun h => ⟨fields, rfl, (Except.ok.inj h).symm⟩
      · rintro ⟨fields', hfields, rfl⟩
        rw [← Except.ok.inj hfields]
        rfl
  have hobjects (objects : List ParsedObject) :
      (snapshot.objects.mapM fun object => do
        let fields ← sortBy (nameBefore p) object.fields
        .ok { object with fields }) = Except.ok (ε := Units) objects ↔
        List.Forall₂ (SortedFields p) snapshot.objects objects := by
    rw [mapM_ok]
    simp only [hobject]
  unfold sortMetadataRuntimeSnapshot
  -- each object is sorted by itself, and the first that cannot be fails the snapshot
  cases hmap : snapshot.objects.mapM fun object => (do
      let fields ← sortBy (nameBefore p) object.fields
      .ok { object with fields } : Except Units ParsedObject) with
  | error e =>
    refine iff_of_false nofun ?_
    rintro ⟨objects, hforall, -⟩
    cases hmap.symm.trans ((hobjects objects).2 hforall)
  | ok objects =>
    constructor
    · exact fun h => ⟨objects, (hobjects objects).1 hmap, (Except.ok.inj h).symm⟩
    · rintro ⟨objects', hforall, rfl⟩
      rw [← Except.ok.inj (hmap.symm.trans ((hobjects objects').2 hforall))]
      rfl

/-- A snapshot is sorted if and only if the fields of every object can be. -/
lemma sortSnapshot_returns {snapshot : ParsedSnapshot} :
    (∃ sorted, sortMetadataRuntimeSnapshot p snapshot = .ok sorted) ↔
      ∀ object ∈ snapshot.objects, ∃ fields, sortBy (nameBefore p) object.fields = .ok fields := by
  constructor
  · rintro ⟨sorted, hsorted⟩ object hobject
    obtain ⟨objects, hforall, -⟩ := sortSnapshot_ok.1 hsorted
    obtain ⟨i, hi, rfl⟩ := List.getElem_of_mem hobject
    obtain ⟨fields, hfields, -⟩ := (List.forall₂_iff_get.1 hforall).2 i hi
      ((List.forall₂_iff_get.1 hforall).1 ▸ hi)
    exact ⟨fields, hfields⟩
  · intro h
    have hforall : ∃ objects, List.Forall₂ (SortedFields p) snapshot.objects objects := by
      generalize snapshot.objects = objects at h
      induction objects with
      | nil => exact ⟨[], .nil⟩
      | cons object objects ih =>
        obtain ⟨hobject, hobjects⟩ := List.forall_mem_cons.1 h
        obtain ⟨fields, hfields⟩ := hobject
        obtain ⟨sorted, hsorted⟩ := ih hobjects
        exact ⟨_, .cons ⟨fields, hfields, rfl⟩ hsorted⟩
    obtain ⟨objects, hobjects⟩ := hforall
    exact ⟨_, sortSnapshot_ok.2 ⟨objects, hobjects, rfl⟩⟩

/-- What a validation returns. -/
lemma validateFiles_ok {result : ParsedSnapshot × MetadataRuntimeValidationResult} :
    validateFiles p files = .ok result ↔
      sortMetadataRuntimeSnapshot p (parseFiles p.texts (loadFromFiles p files).1).1 = .ok result.1 ∧
        result.2 = validationOf p files := by
  unfold validateFiles
  cases sortMetadataRuntimeSnapshot p (parseFiles p.texts (loadFromFiles p files).1).1 with
  | error e => exact iff_of_false nofun nofun
  | ok snapshot =>
    constructor
    · intro h
      rw [← Except.ok.inj h]
      exact ⟨rfl, rfl⟩
    · rintro ⟨hsnapshot, hvalidation⟩
      rw [Except.ok.inj hsnapshot, ← hvalidation]
      rfl

/-- The objects of a parse are the entries with a payload. -/
lemma mem_parsedObjects {texts : Texts} {loaded : List MetadataRuntimeLoadedFile}
    {object : ParsedObject} :
    object ∈ (parseFiles texts loaded).1.objects ↔
      ∃ name payload, ((parsed texts loaded).entry name).object = some payload ∧ object =
        { object := payload, nameSingular := name
          fields := ((parsed texts loaded).entry name).fields.map Prod.snd } := by
  have hkeys := (parsed_run texts loaded).1.keys
  have hobjects : (parseFiles texts loaded).1.objects =
      (parsed texts loaded).objects.filterMap snapshotObject := rfl
  rw [hobjects, List.mem_filterMap]
  constructor
  · rintro ⟨⟨name, entry⟩, hmem, hentry⟩
    obtain ⟨payload, hpayload, rfl⟩ := Option.map_eq_some_iff.1 hentry
    have hlookup : (parsed texts loaded).entry name = entry := by
      unfold ParserState.entry
      rw [(lookup_eq_some hkeys).2 hmem]
      rfl
    refine ⟨name, payload, ?_, ?_⟩
    · rw [hlookup]
      exact hpayload
    · rw [hlookup]
  · rintro ⟨name, payload, hpayload, rfl⟩
    cases hlookup : (parsed texts loaded).objects.lookup name with
    | none =>
      unfold ParserState.entry at hpayload
      rw [hlookup] at hpayload
      cases hpayload
    | some entry =>
      have hentry : (parsed texts loaded).entry name = entry := by
        unfold ParserState.entry
        rw [hlookup]
        rfl
      refine ⟨(name, entry), mem_of_lookup hlookup, ?_⟩
      rw [hentry] at hpayload ⊢
      unfold snapshotObject
      rw [hpayload]
      rfl

/-- The fields that an entry keeps are named. -/
lemma kept_named {texts : Texts} {loaded : List MetadataRuntimeLoadedFile} {name : Units} :
    ∀ field ∈ ((parsed texts loaded).entry name).fields, Named field := by
  intro field hfield
  have hsub := ((parsed_run texts loaded).1.fields name).sublist
  obtain ⟨reading, hreading, hmem, -⟩ := mem_effective (hsub.subset hfield)
  obtain ⟨file, -, hread⟩ := List.mem_filterMap.1 hreading
  exact readFile_named hread field hmem

/-- The objects that the files define. -/
def Defined (p : Platform) (files : List MetadataRuntimeSourceFile) (name : Units) : Prop :=
  ∃ reading ∈ sourceReadings p files, reading.Defines name

/-- An object is defined if and only if one of the files holds it. -/
lemma defined_iff {name : Units} :
    Defined p files name ↔ name ∈ (objectsOf (loadFromFiles p files).1).map Prod.fst := by
  unfold Defined
  rw [← readings_loaded, defines_iff]

/-- Validation returns just where each field that comes after the first one of an object that is
defined has a text for a name, or the name of the first one. -/
lemma validateFiles_returns :
    (∃ result, validateFiles p files = .ok result) ↔
      ∀ name, Defined p files name → ∀ first tail,
        effective name false (sourceReadings p files) = first :: tail →
          ∀ field ∈ tail, IsText field.1 ∨ sameKey first.1 field.1 = true := by
  have hkept := (parsed_run p.texts (loadFromFiles p files).1).1
  have hobject (name : Units) :
      (∃ payload, ((parsed p.texts (loadFromFiles p files).1).entry name).object = some payload) ↔
        Defined p files name := by
    rw [defined_iff, ← hkept.object name, Option.isSome_iff_exists]
  have hfields (name : Units) :
      (∃ sorted, sortBy (nameBefore p)
        (((parsed p.texts (loadFromFiles p files).1).entry name).fields.map Prod.snd) = .ok sorted) ↔
        ∀ first tail, effective name false (sourceReadings p files) = first :: tail →
          ∀ field ∈ tail, IsText field.1 ∨ sameKey first.1 field.1 = true := by
    rw [sortFields_iff kept_named, (hkept.fields name).texts_iff (hkept.distinct name)]
    unfold effectiveOf
    rw [readings_loaded]
  have hsorts : (∃ result, validateFiles p files = .ok result) ↔ ∃ sorted,
      sortMetadataRuntimeSnapshot p (parseFiles p.texts (loadFromFiles p files).1).1 = .ok sorted := by
    constructor
    · exact fun ⟨result, hresult⟩ => ⟨result.1, (validateFiles_ok.1 hresult).1⟩
    · exact fun ⟨sorted, hsorted⟩ => ⟨(sorted, _), validateFiles_ok.2 ⟨hsorted, rfl⟩⟩
  rw [hsorts, sortSnapshot_returns]
  constructor
  · intro h name hdefined
    obtain ⟨payload, hpayload⟩ := (hobject name).2 hdefined
    exact (hfields name).1 (h _ (mem_parsedObjects.2 ⟨name, payload, hpayload, rfl⟩))
  · intro h object hmem
    obtain ⟨name, payload, hpayload, rfl⟩ := mem_parsedObjects.1 hmem
    exact (hfields name).2 (h name ((hobject name).1 ⟨payload, hpayload⟩))

end returns

/-! ## Where the files are valid -/

section valid
variable {p : Platform} {files : List MetadataRuntimeSourceFile} {ds : List MetadataRuntimeDiagnostic}

/-- A field with a type that the community edition has. -/
def TypedField (field : JsonRecord) : Prop :=
  truthy (field.lookup (units "type")) = true ∧
    ∀ type, stringOf field "type" = some type → type ≠ units "FORMULA" ∧ type ≠ units "ROLLUP"

def fieldName (field : JsonRecord) : JsonValue :=
  (field.lookup (units "name")).getD .null

/-- A loop that reports an error just where something is wrong with an element after the others. -/
lemma foldl_noError {α σ : Type} {step : σ × List MetadataRuntimeDiagnostic → α →
      σ × List MetadataRuntimeDiagnostic} (next : σ → α → σ) (Fine : σ → α → Prop)
    (hnext : ∀ acc x, (step acc x).1 = next acc.1 x)
    (hstep : ∀ acc x, NoError (step acc x).2 ↔ NoError acc.2 ∧ Fine acc.1 x) (xs : List α)
    (acc : σ × List MetadataRuntimeDiagnostic) :
    NoError (xs.foldl step acc).2 ↔ NoError acc.2 ∧
      ∀ before x after, xs = before ++ x :: after → Fine (before.foldl next acc.1) x := by
  induction xs generalizing acc with
  | nil => exact (and_iff_left (by simp)).symm
  | cons x xs ih =>
    rw [List.foldl_cons, ih, hstep, hnext, and_assoc, and_congr_right_iff]
    intro _
    constructor
    · rintro ⟨hx, hxs⟩ before y after heq
      cases before with
      | nil =>
        obtain ⟨rfl, -⟩ := List.cons.inj heq
        exact hx
      | cons x' before =>
        obtain ⟨rfl, rfl⟩ := List.cons.inj heq
        exact hxs before y after rfl
    · intro h
      exact ⟨h [] x xs rfl, fun before y after heq => h (x :: before) y after (by rw [heq]; rfl)⟩

/-- A finding that is left out if a condition holds. -/
lemma noError_unless {c : Prop} [Decidable c] {code : String} {message : Units} :
    NoError (if c then [] else [finding code message]) ↔ c := by
  split
  · rename_i hc
    exact iff_of_true nofun hc
  · rename_i hc
    exact iff_of_false (fun h => noError_singleton.1 h rfl) hc

/-- A finding that is left out unless a condition holds. -/
lemma noError_if {c : Prop} [Decidable c] {code : String} {message : Units} :
    NoError (if c then [finding code message] else []) ↔ ¬ c := by
  rw [← ite_not]
  exact noError_unless

/-- A field passes the check if it has a name and a type and repeats no name. -/
lemma checkField_noError (objectName : Units)
    (acc : List JsonValue × List MetadataRuntimeDiagnostic) (field : JsonRecord) :
    NoError (checkField p objectName acc field).2 ↔ NoError acc.2 ∧
      (truthy (some (fieldName field)) = true ∧ TypedField field ∧
        ∀ name ∈ acc.1, sameKey name (fieldName field) = false) := by
  have hduplicate : ¬ (acc.1.any fun name => sameKey name (fieldName field)) = true ↔
      ∀ name ∈ acc.1, sameKey name (fieldName field) = false := by
    rw [Bool.not_eq_true, List.any_eq_false]
    simp only [Bool.not_eq_true]
  have hcommunity (message : Units → Units) :
      NoError ((stringOf field "type").elim [] fun type =>
        if type = units "FORMULA" ∨ type = units "ROLLUP" then
          [finding "CAPABILITY_UNAVAILABLE_IN_COMMUNITY" (message type)]
        else []) ↔
      ∀ type, stringOf field "type" = some type → type ≠ units "FORMULA" ∧ type ≠ units "ROLLUP" := by
    -- a type is checked only where there is one
    cases stringOf field "type" with
    | none => exact iff_of_true nofun nofun
    | some type =>
      rw [Option.elim_some, noError_if, not_or]
      exact ⟨fun h other heq => Option.some.inj heq ▸ h, fun h => h type rfl⟩
  unfold checkField TypedField
  dsimp only
  rw [noError_append, noError_append, noError_append, noError_unless, Bool.and_eq_true]
  rw [show (field.lookup (units "name")).getD .null = fieldName field from rfl, noError_if, hduplicate]
  refine (and_congr_right fun _ => Iff.trans (Iff.of_eq (congrArg NoError ?_)) (hcommunity fun type =>
    units "Community v0.1 cannot validate " ++ type ++ units " field \"" ++
      dotted objectName (p.texts.textOf (fieldName field)) ++ units "\"")).trans ?_
  · cases stringOf field "type" with
    | none => rfl
    | some type => rfl
  · tauto

/-- The elements of a list that differ from the ones before. -/
lemma pairwise_before {α : Type} {R : α → α → Prop} {xs : List α} :
    xs.Pairwise R ↔ ∀ before x after, xs = before ++ x :: after → ∀ y ∈ before, R y x := by
  induction xs using List.reverseRecOn with
  | nil => exact iff_of_true .nil (by simp)
  | append_singleton xs x ih =>
    rw [List.pairwise_append, ih]
    constructor
    · rintro ⟨hxs, -, hx⟩ before y after heq z hz
      rcases List.eq_nil_or_concat after with rfl | ⟨after, last, rfl⟩
      · obtain ⟨rfl, hlast⟩ := List.append_inj' heq rfl
        exact hx z hz y (hlast ▸ List.mem_singleton_self _)
      · rw [List.concat_eq_append, ← List.cons_append, ← List.append_assoc] at heq
        exact hxs before y after (List.append_inj' heq rfl).1 z hz
    · intro h
      refine ⟨fun before y after heq => ?_, List.pairwise_singleton _ _, fun z hz y hy => ?_⟩
      · exact h before y (after ++ [x]) (by rw [heq, List.append_assoc]; rfl)
      · obtain rfl := List.mem_singleton.1 hy
        exact h xs y [] rfl z hz

/-- The fields of an object are fine where they have types and names of their own. -/
lemma checkFields_noError (objectName : Units) (fields : List JsonRecord) :
    NoError (fields.foldl (checkField p objectName) ([], [])).2 ↔
      (∀ field ∈ fields, truthy (some (fieldName field)) = true ∧ TypedField field) ∧
        fields.Pairwise fun f g => sameKey (fieldName f) (fieldName g) = false := by
  have hnames (before : List JsonRecord) : before.foldl (fun names field => names ++ [fieldName field])
      [] = before.map fieldName := by
    induction before using List.reverseRecOn with
    | nil => rfl
    | append_singleton before field ih => rw [List.foldl_append, ih, List.map_append]; rfl
  rw [foldl_noError (fun names field => names ++ [fieldName field])
    (fun names field => truthy (some (fieldName field)) = true ∧ TypedField field ∧
      ∀ name ∈ names, sameKey name (fieldName field) = false) (fun _ _ => rfl)
    (checkField_noError objectName), pairwise_before]
  simp only [hnames, List.forall_mem_map]
  constructor
  · rintro ⟨-, h⟩
    refine ⟨fun field hfield => ?_, fun before field after heq => (h before field after heq).2.2⟩
    obtain ⟨before, after, heq⟩ := List.append_of_mem hfield
    obtain ⟨htruthy, htyped, -⟩ := h before field after heq
    exact ⟨htruthy, htyped⟩
  · rintro ⟨hfields, hdistinct⟩
    refine ⟨nofun, fun before field after heq => ?_⟩
    obtain ⟨htruthy, htyped⟩ := hfields field (heq ▸ List.mem_append_right _ (List.mem_cons_self ..))
    exact ⟨htruthy, htyped, hdistinct before field after heq⟩

/-- An object that has both its names, and fields that are fine. -/
def FineObject (p : Platform) (object : ParsedObject) : Prop :=
  (object.nameSingular ≠ [] ∧ truthy (object.record.lookup (units "namePlural")) = true) ∧
    NoError (object.fields.foldl (checkField p object.nameSingular) ([], [])).2

/-- The objects pass if each is fine and no name comes twice. -/
lemma checkObjects_noError (objects : List ParsedObject) :
    NoError (objects.foldl (checkObject p) ([], [])).2 ↔
      (∀ object ∈ objects, FineObject p object) ∧ (objects.map (·.nameSingular)).Nodup := by
  have hnames (before : List ParsedObject) :
      before.foldl (fun names object => names ++ [object.nameSingular]) [] =
        before.map (·.nameSingular) := by
    -- induction on the objects, from the last one
    induction before using List.reverseRecOn with
    | nil => rfl
    | append_singleton before object ih => rw [List.foldl_append, ih, List.map_append]; rfl
  have hstep (acc : List Units × List MetadataRuntimeDiagnostic) (object : ParsedObject) :
      NoError (checkObject p acc object).2 ↔
        NoError acc.2 ∧ (FineObject p object ∧ object.nameSingular ∉ acc.1) := by
    unfold checkObject FineObject
    dsimp only
    rw [noError_append, noError_append, noError_append, noError_unless, noError_if, Bool.and_eq_true,
      decide_eq_true_iff]
    tauto
  rw [foldl_noError (fun names object => names ++ [object.nameSingular])
    (fun names object => FineObject p object ∧ object.nameSingular ∉ names) (fun _ _ => rfl) hstep]
  unfold List.Nodup
  rw [List.pairwise_map, pairwise_before]
  simp only [hnames, List.mem_map, not_exists, not_and]
  constructor
  · rintro ⟨-, h⟩
    refine ⟨fun object hobject => ?_, fun before object after heq => (h before object after heq).2⟩
    obtain ⟨before, after, heq⟩ := List.append_of_mem hobject
    exact (h before object after heq).1
  · rintro ⟨hobjects, hdistinct⟩
    refine ⟨nofun, fun before object after heq => ?_⟩
    exact ⟨hobjects object (heq ▸ List.mem_append_right _ (List.mem_cons_self ..)),
      hdistinct before object after heq⟩

/-- A snapshot with no component of a taxonomy passes. -/
lemma checkTaxonomy_noError (snapshot : ParsedSnapshot) :
    NoError (checkTaxonomy snapshot) ↔ ∀ kind, snapshot.taxonomy kind = [] := by
  have hall (kind : TaxonomyKind) : kind ∈ taxonomyKinds := by cases kind <;> decide
  unfold checkTaxonomy NoError
  rw [List.forall_mem_map]
  constructor
  · intro h kind
    by_contra hne
    refine h kind (List.mem_filter.2 ⟨hall kind, ?_⟩) rfl
    simpa using hne
  · intro h kind hkind
    have hne := (List.mem_filter.1 hkind).2
    rw [h kind] at hne
    cases hne

/-- Files that are valid together. -/
structure ValidFiles (p : Platform) (files : List MetadataRuntimeSourceFile) : Prop where
  loaded : NoError (loadFromFiles p files).2
  admissible : Admissible (loadFromFiles p files).1
  owned : ∀ name, definitionsOf (loadFromFiles p files).1 name ≠ [] →
    name ∈ (objectsOf (loadFromFiles p files).1).map Prod.fst
  named : ∀ object ∈ objectsOf (loadFromFiles p files).1,
    object.1 ≠ [] ∧ truthy (object.2.lookup (units "namePlural")) = true
  typed : ∀ object ∈ objectsOf (loadFromFiles p files).1,
    ∀ field ∈ definitionsOf (loadFromFiles p files).1 object.1, TypedField field.2
  plain : ∀ kind, componentsOf (loadFromFiles p files).1 kind = []

/-- The objects of a snapshot in which all that the files say is gathered. -/
lemma mem_gathered {texts : Texts} {loaded : List MetadataRuntimeLoadedFile} {object : ParsedObject}
    (hadm : Admissible loaded) (h : Gathered loaded (parsed texts loaded)) :
    object ∈ (parseFiles texts loaded).1.objects ↔
      ∃ name payload, (name, payload) ∈ objectsOf loaded ∧ object =
        { object := assign payload (units "fields") (.arr []), nameSingular := name
          fields := (definitionsOf loaded name).map Prod.snd } := by
  rw [mem_parsedObjects]
  constructor
  · rintro ⟨name, payload, hpayload, rfl⟩
    rw [h.object name, Option.map_eq_some_iff] at hpayload
    obtain ⟨document, hdocument, rfl⟩ := hpayload
    exact ⟨name, document, mem_of_lookup hdocument, by rw [h.fields name]⟩
  · rintro ⟨name, payload, hmem, rfl⟩
    refine ⟨name, assign payload (units "fields") (.arr []), ?_, by rw [h.fields name]⟩
    rw [h.object name, (lookup_eq_some hadm.single).2 hmem]
    rfl

/-- All definitions are named. -/
lemma definitionsOf_named {loaded : List MetadataRuntimeLoadedFile} {name : Units} :
    ∀ field ∈ definitionsOf loaded name, Named field := by
  intro field hfield
  obtain ⟨reading, hreading, hmem⟩ := List.mem_flatMap.1 hfield
  obtain ⟨file, -, hread⟩ := List.mem_filterMap.1 hreading
  exact readFile_named hread field hmem

/-- The name of a named field is its key. -/
lemma fieldName_named {field : JsonValue × JsonRecord} (h : Named field) :
    fieldName field.2 = field.1 := by
  unfold fieldName
  rw [h.name]
  rfl

/-- The names of the objects of a snapshot are keys of a map. -/
lemma parsedNames_nodup (texts : Texts) (loaded : List MetadataRuntimeLoadedFile) :
    ((parseFiles texts loaded).1.objects.map (·.nameSingular)).Nodup := by
  have hsub : ((parseFiles texts loaded).1.objects.map (·.nameSingular)).Sublist
      ((parsed texts loaded).objects.map Prod.fst) := by
    have hobjects : (parseFiles texts loaded).1.objects =
        (parsed texts loaded).objects.filterMap snapshotObject := rfl
    rw [hobjects]
    generalize (parsed texts loaded).objects = entries
    induction entries with
    | nil => exact List.Sublist.refl _
    | cons entry entries ih =>
      obtain ⟨name, object, fields⟩ := entry
      cases object with
      | none => exact ih.cons name
      | some object => exact ih.cons_cons name
  exact hsub.nodup (parsed_run texts loaded).1.keys

/-- No fields are left over just where every object with fields is defined. -/
lemma owned_iff {texts : Texts} {loaded : List MetadataRuntimeLoadedFile}
    (h : Gathered loaded (parsed texts loaded)) :
    (∀ entry ∈ (parsed texts loaded).objects, entry.2.object ≠ none) ↔
      ∀ name, definitionsOf loaded name ≠ [] → name ∈ (objectsOf loaded).map Prod.fst := by
  have hkept := (parsed_run texts loaded).1
  have hentry {entry : Units × MutableObjectDefinition}
      (hmem : entry ∈ (parsed texts loaded).objects) :
      (parsed texts loaded).entry entry.1 = entry.2 := by
    unfold ParserState.entry
    rw [(lookup_eq_some hkept.keys).2 hmem]
    rfl
  constructor
  · intro hentries name hdefinitions
    obtain ⟨entry, hmem, rfl⟩ := List.mem_map.1 ((h.keys name).2 (.inr hdefinitions))
    rw [← hkept.object, hentry hmem, Option.isSome_iff_ne_none]
    exact hentries entry hmem
  · intro howned entry hmem
    rw [← Option.isSome_iff_ne_none, ← hentry hmem, hkept.object]
    exact ((h.keys entry.1).1 (List.mem_map_of_mem hmem)).elim id (howned entry.1)

/-- When the check of an object finds nothing. -/
lemma fineObject_iff {name : Units} {payload : JsonRecord}
    {definitions : List (JsonValue × JsonRecord)} (hnamed : ∀ field ∈ definitions, Named field)
    (hdistinct : KeysDistinct definitions) :
    FineObject p { object := assign payload (units "fields") (.arr []), nameSingular := name
                   fields := definitions.map Prod.snd } ↔
      (name ≠ [] ∧ truthy (payload.lookup (units "namePlural")) = true) ∧
        ∀ field ∈ definitions, TypedField field.2 := by
  have hplural : ({ object := assign payload (units "fields") (.arr []), nameSingular := name
                    fields := definitions.map Prod.snd } : ParsedObject).record.lookup
      (units "namePlural") = payload.lookup (units "namePlural") := by
    unfold ParsedObject.record
    rw [lookup_assign_ne (by decide), lookup_assign_ne (by decide),
      lookup_assign_ne (by decide)]
  have hkeys : (definitions.map Prod.snd).Pairwise fun f g =>
      sameKey (fieldName f) (fieldName g) = false := by
    rw [List.pairwise_map]
    refine hdistinct.imp_of_mem fun hf hg hsame => ?_
    rwa [fieldName_named (hnamed _ hf), fieldName_named (hnamed _ hg)]
  unfold FineObject
  rw [checkFields_noError, hplural, List.forall_mem_map, and_iff_left hkeys]
  refine and_congr_right fun _ => ⟨fun h field hfield => (h field hfield).2, fun h field hfield => ?_⟩
  refine ⟨?_, h field hfield⟩
  rw [fieldName_named (hnamed field hfield)]
  exact (hnamed field hfield).truthy

/-- The validation succeeds if and only if the files are valid. -/
lemma valid_iff : (validationOf p files).valid = true ↔ ValidFiles p files := by
  have hvalid : (validationOf p files).valid = true ↔ NoError (validationOf p files).diagnostics := by
    unfold validationOf NoError
    dsimp only
    rw [List.all_eq_true]
    simp only [decide_eq_true_iff]
  obtain ⟨-, hclean, hgathered⟩ := parsed_run p.texts (loadFromFiles p files).1
  have horphans : NoError (parseFiles p.texts (loadFromFiles p files).1).2 ↔
      NoError (parsed p.texts (loadFromFiles p files).1).diagnostics ∧
        ∀ entry ∈ (parsed p.texts (loadFromFiles p files).1).objects, entry.2.object ≠ none := by
    have hdiagnostics : (parseFiles p.texts (loadFromFiles p files).1).2 =
        (parsed p.texts (loadFromFiles p files).1).diagnostics ++
          ((parsed p.texts (loadFromFiles p files).1).objects.filter fun entry =>
            entry.2.object.isNone).map fun entry => orphanFields entry.1 := rfl
    rw [hdiagnostics, noError_append, and_congr_right_iff]
    intro _
    unfold NoError
    rw [List.forall_mem_map]
    constructor
    · intro h entry hmem hnone
      refine h entry (List.mem_filter.2 ⟨hmem, ?_⟩) rfl
      rw [hnone]
      rfl
    · intro h entry hmem
      obtain ⟨hentry, hnone⟩ := List.mem_filter.1 hmem
      exact absurd (Option.isNone_iff_eq_none.1 hnone) (h entry hentry)
  rw [hvalid]
  unfold validationOf
  dsimp only
  rw [noError_append, noError_append, noError_append, checkObjects_noError, checkTaxonomy_noError,
    horphans, and_iff_left (parsedNames_nodup _ _)]
  -- what is gathered is known for admissible files only, and others are no valid ones
  by_cases hadm : Admissible (loadFromFiles p files).1
  · have hclear := hclean.2 hadm
    have h := hgathered hclear
    have hobjects : (∀ object ∈ (parseFiles p.texts (loadFromFiles p files).1).1.objects,
        FineObject p object) ↔ ∀ object ∈ objectsOf (loadFromFiles p files).1,
          (object.1 ≠ [] ∧ truthy (object.2.lookup (units "namePlural")) = true) ∧
            ∀ field ∈ definitionsOf (loadFromFiles p files).1 object.1, TypedField field.2 := by
      constructor
      · intro hfine object hobject
        exact (fineObject_iff definitionsOf_named (hadm.distinct object.1)).1
          (hfine _ ((mem_gathered hadm h).2 ⟨object.1, object.2, hobject, rfl⟩))
      · intro hfine object hobject
        obtain ⟨name, payload, hmem, rfl⟩ := (mem_gathered hadm h).1 hobject
        exact (fineObject_iff definitionsOf_named (hadm.distinct name)).2 (hfine _ hmem)
    have htaxonomy : (∀ kind, (parseFiles p.texts (loadFromFiles p files).1).1.taxonomy kind = []) ↔
        ∀ kind, componentsOf (loadFromFiles p files).1 kind = [] :=
      forall_congr' fun kind => by rw [← h.taxonomy kind]; rfl
    rw [owned_iff h, hobjects, htaxonomy]
    constructor
    · rintro ⟨⟨⟨hloaded, -, howned⟩, hfine⟩, hplain⟩
      exact ⟨hloaded, hadm, howned, fun object hobject => (hfine object hobject).1,
        fun object hobject => (hfine object hobject).2, hplain⟩
    · intro hfiles
      exact ⟨⟨⟨hfiles.loaded, hclear, hfiles.owned⟩,
        fun object hobject => ⟨hfiles.named object hobject, hfiles.typed object hobject⟩⟩, hfiles.plain⟩
  · refine iff_of_false ?_ fun hfiles => hadm hfiles.admissible
    rintro ⟨⟨⟨-, hclear, -⟩, -⟩, -⟩
    exact hadm (hclean.1 hclear)

end valid

end NexusClaw.MetadataRuntime
