import NexusClaw.MetadataRuntime.ValidFiles

/-!
# Validation in every order of the files

The result of a validation depends on the files alone, and not on their order, just where no order puts
a name that is not a string after another one (`orderFree_iff`).
-/

namespace NexusClaw.MetadataRuntime

open AuditChain

/-! ## Other orders -/

section orders
variable {p : Platform} {files files' : List MetadataRuntimeSourceFile} {name : Units}

/-- Files in another order give the same readings in another order. -/
lemma sourceReadings_perm (h : files'.Perm files) :
    (sourceReadings p files').Perm (sourceReadings p files) :=
  h.filterMap _

/-- The same definitions of an object. -/
lemma definitionsOf_perm (h : files'.Perm files) (name : Units) :
    (definitionsOf (loadFromFiles p files').1 name).Perm (definitionsOf (loadFromFiles p files).1 name) := by
  unfold definitionsOf
  rw [readings_loaded, readings_loaded]
  exact (sourceReadings_perm h).flatMap_right _

/-- The same objects. -/
lemma objectsOf_perm (h : files'.Perm files) :
    (objectsOf (loadFromFiles p files').1).Perm (objectsOf (loadFromFiles p files).1) := by
  unfold objectsOf
  rw [readings_loaded, readings_loaded]
  exact (sourceReadings_perm h).filterMap _

/-- The same components. -/
lemma componentsOf_perm (h : files'.Perm files) (kind : TaxonomyKind) :
    (componentsOf (loadFromFiles p files').1 kind).Perm (componentsOf (loadFromFiles p files).1 kind) := by
  unfold componentsOf
  rw [readings_loaded, readings_loaded]
  exact (sourceReadings_perm h).filterMap _

/-- Two keys are different either way. -/
lemma sameKey_symm {a b : JsonValue} (h : sameKey a b = false) : sameKey b a = false := by
  cases a <;> cases b <;> simp_all [sameKey, eq_comm]

/-- Distinct keys are so in any order. -/
lemma KeysDistinct.perm {fields fields' : List (JsonValue × JsonRecord)} (h : KeysDistinct fields)
    (hperm : fields'.Perm fields) : KeysDistinct fields' :=
  (hperm.pairwise_iff fun hfg => sameKey_symm hfg).2 h

/-- Valid files are so in any order. -/
lemma ValidFiles.perm (h : ValidFiles p files) (hperm : files'.Perm files) : ValidFiles p files' where
  loaded := fun item hitem => h.loaded item ((hperm.filterMap _).mem_iff.1 hitem)
  admissible :=
    { read := fun file hfile => h.admissible.read file ((hperm.filterMap _).mem_iff.1 hfile)
      named := fun object hobject =>
        h.admissible.named object ((objectsOf_perm hperm).mem_iff.1 hobject)
      single := ((objectsOf_perm hperm).map Prod.fst).nodup_iff.2 h.admissible.single
      distinct := fun name => (h.admissible.distinct name).perm (definitionsOf_perm hperm name) }
  owned := fun name hdefinitions => by
    rw [((objectsOf_perm hperm).map Prod.fst).mem_iff]
    refine h.owned name fun hnil => hdefinitions ?_
    have hperm' := definitionsOf_perm (p := p) hperm name
    rw [hnil] at hperm'
    exact hperm'.eq_nil
  named := fun object hobject => h.named object ((objectsOf_perm hperm).mem_iff.1 hobject)
  typed := fun object hobject field hfield =>
    h.typed object ((objectsOf_perm hperm).mem_iff.1 hobject) field
      ((definitionsOf_perm hperm object.1).mem_iff.1 hfield)
  plain := fun kind => by
    have hperm' := componentsOf_perm (p := p) hperm kind
    rw [h.plain kind] at hperm'
    exact hperm'.eq_nil

/-- Fields of which each can be compared with the ones before it, in every order of the files. -/
def Comparable (p : Platform) (files : List MetadataRuntimeSourceFile) : Prop :=
  ∀ name, Defined p files name → ∀ first field, MayFollow (sourceReadings p files) name first field →
    IsText field.1 ∨ sameKey first.1 field.1 = true

/-- Comparable names are so in any order. -/
lemma Comparable.perm (h : Comparable p files) (hperm : files'.Perm files) : Comparable p files' := by
  intro name hdefined first field hfollow
  rw [defined_iff, ((objectsOf_perm hperm).map Prod.fst).mem_iff, ← defined_iff] at hdefined
  exact h name hdefined first field (hfollow.mono (sourceReadings_perm hperm).subperm)

/-- Validation returns in every order just where the fields can be compared. -/
lemma returns_iff : (∀ files', files'.Perm files → ∃ result, validateFiles p files' = .ok result) ↔
    Comparable p files := by
  constructor
  · intro h name hdefined first field hfollow
    obtain ⟨files', hperm, tail, htail, hfield⟩ := hfollow.order
    refine validateFiles_returns.1 (h files' hperm) name ?_ first tail htail field hfield
    rw [defined_iff, ((objectsOf_perm hperm).map Prod.fst).mem_iff, ← defined_iff]
    exact hdefined
  · intro h files' hperm
    refine validateFiles_returns.2 fun name hdefined first tail htail field hfield => ?_
    exact h.perm hperm name hdefined first field (effective_follows htail field hfield)

/-! ## The same snapshot -/

/-- All definitions of an object are from one reading where one of them is not a text: another reading
with a definition could come first. -/
lemma definitions_single (hvalid : ValidFiles p files) (hcomparable : Comparable p files)
    (hdefined : Defined p files name) {field : JsonValue × JsonRecord}
    (hfield : field ∈ definitionsOf (loadFromFiles p files).1 name) (htext : ¬ IsText field.1) :
    ∃ reading rest, (sourceReadings p files).Perm (reading :: rest) ∧
      ∀ other ∈ rest, other.definitions name = [] := by
  have hdistinct := hvalid.admissible.distinct name
  have hsingle := hvalid.admissible.single
  unfold definitionsOf at hfield hdistinct
  unfold objectsOf at hsingle
  rw [readings_loaded] at hfield hdistinct hsingle
  obtain ⟨reading, hreading, hmem⟩ := List.mem_flatMap.1 hfield
  obtain ⟨before, after, hsplit⟩ := List.append_of_mem hreading
  have hperm : (sourceReadings p files).Perm (reading :: (before ++ after)) :=
    hsplit ▸ List.perm_middle
  refine ⟨reading, before ++ after, hperm, fun other hother => ?_⟩
  obtain ⟨earlier, later, hrest⟩ := List.append_of_mem hother
  have hboth : (sourceReadings p files).Perm (other :: reading :: (earlier ++ later)) := by
    refine hperm.trans ((List.Perm.cons reading ?_).trans (List.Perm.swap other reading _))
    rw [hrest]
    exact List.perm_middle
  have hpair : [other, reading].Subperm (sourceReadings p files) := by
    refine List.Subperm.trans (List.Sublist.subperm ?_) hboth.symm.subperm
    exact List.sublist_append_left [other, reading] _
  -- a definition of another reading could be put in front of the field without a text
  cases hhead : other.definitions name with
  | nil => rfl
  | cons first others =>
    exfalso
    have hnames : ¬ (other.Defines name ∧ reading.Defines name) := by
      rintro ⟨hother, hreading⟩
      obtain ⟨object, hobject, hname⟩ := Option.map_eq_some_iff.1 hother
      obtain ⟨object', hobject', hname'⟩ := Option.map_eq_some_iff.1 hreading
      have hnodup := ((hboth.filterMap Reading.object?).map Prod.fst).nodup_iff.1 hsingle
      rw [List.filterMap_cons_some hobject, List.filterMap_cons_some hobject', List.map_cons,
        List.map_cons, hname, hname'] at hnodup
      exact (List.nodup_cons.1 hnodup).1 (List.mem_cons_self ..)
    have hfollow : MayFollow (sourceReadings p files) name first field := by
      refine .inr ⟨other, reading, hpair, hnames, ?_, hmem⟩
      rw [hhead]
      rfl
    have hsame := (hcomparable name hdefined first field hfollow).resolve_left htext
    have hkeys := KeysDistinct.perm hdistinct
      (hboth.symm.flatMap_right fun reading => reading.definitions name)
    rw [List.flatMap_cons, hhead, List.cons_append] at hkeys
    have hdifferent := (List.pairwise_cons.1 hkeys).1 field
      (List.mem_append_right _ (List.mem_flatMap.2 ⟨reading, List.mem_cons_self .., hmem⟩))
    cases hdifferent.symm.trans hsame

/-- The definitions of an object are in the same order where they are from one reading. -/
lemma flatMap_single {α β : Type} {f : α → List β} {xs rest : List α} {x : α}
    (hperm : xs.Perm (x :: rest)) (h : ∀ y ∈ rest, f y = []) : xs.flatMap f = f x := by
  obtain ⟨before, after, rfl⟩ := List.append_of_mem (hperm.mem_iff.2 (List.mem_cons_self ..))
  have hrest : (before ++ after).Perm rest := (List.perm_middle.symm.trans hperm).cons_inv
  have hbefore : before.flatMap f = [] := List.flatMap_eq_nil_iff.2 fun y hy =>
    h y (hrest.mem_iff.1 (List.mem_append_left _ hy))
  have hafter : after.flatMap f = [] := List.flatMap_eq_nil_iff.2 fun y hy =>
    h y (hrest.mem_iff.1 (List.mem_append_right _ hy))
  rw [List.flatMap_append, List.flatMap_cons, hbefore, hafter, List.nil_append, List.append_nil]

/-- Texts that differ are told apart by the collation. -/
def Collation.Strict (c : Collation) : Prop :=
  ∀ s t, c.le s t = true → c.le t s = true → s = t

/-- The fields of an object are sorted in the same way in every order of valid files. -/
lemma sortFields_perm (hstrict : p.collation.Strict) (hvalid : ValidFiles p files)
    (hcomparable : Comparable p files) (hperm : files'.Perm files) (hdefined : Defined p files name) :
    sortBy (nameBefore p) ((definitionsOf (loadFromFiles p files').1 name).map Prod.snd) =
      sortBy (nameBefore p) ((definitionsOf (loadFromFiles p files).1 name).map Prod.snd) := by
  -- fields with texts are sorted by their names; without, all are of one reading
  by_cases htexts : ∀ field ∈ definitionsOf (loadFromFiles p files).1 name, IsText field.1
  · have hdefinitions := definitionsOf_perm (p := p) hperm name
    obtain ⟨sorted, hsorted, hmembers, hle⟩ := sortFields_ok (p := p) definitionsOf_named
      fun field hfield => htexts field (List.mem_of_mem_tail hfield)
    have htexts' (field : JsonValue × JsonRecord)
        (hfield : field ∈ (definitionsOf (loadFromFiles p files').1 name).tail) : IsText field.1 :=
      htexts field (hdefinitions.mem_iff.1 (List.mem_of_mem_tail hfield))
    obtain ⟨sorted', hsorted', hmembers', hle'⟩ := sortFields_ok (p := p) definitionsOf_named htexts'
    rw [hsorted, hsorted']
    refine congrArg Except.ok (List.Perm.eq_of_pairwise ?_ hle' hle
      (hmembers'.trans ((hdefinitions.map Prod.snd).trans hmembers.symm)))
    intro a b ha hb hab hba
    obtain ⟨f, hf, rfl⟩ := List.mem_map.1 (hmembers'.mem_iff.1 ha)
    obtain ⟨g, hg, rfl⟩ := List.mem_map.1 (hmembers.mem_iff.1 hb)
    have hf := hdefinitions.mem_iff.1 hf
    by_contra hne
    have hshown (field : JsonValue × JsonRecord)
        (hfield : field ∈ definitionsOf (loadFromFiles p files).1 name) :
        field.1 = .str (shownName p field.2) := by
      obtain ⟨s, hs⟩ := htexts field hfield
      unfold shownName
      rw [(definitionsOf_named field hfield).name, Option.getD_some, hs, p.texts.textOf_str]
    have hnames : f.1 = g.1 := by
      rw [hshown f hf, hshown g hg, hstrict _ _ hab hba]
    have hsymm : Std.Symm fun f g : JsonValue × JsonRecord => sameKey f.1 g.1 = false :=
      ⟨fun _ _ => sameKey_symm⟩
    have hdifferent := (hvalid.admissible.distinct name).forall hf hg fun heq => hne (by rw [heq])
    rw [hshown f hf, ← hnames, hshown f hf] at hdifferent
    simp [sameKey] at hdifferent
  · simp only [not_forall] at htexts
    obtain ⟨field, hfield, htext⟩ := htexts
    obtain ⟨reading, rest, hreadings, hnone⟩ :=
      definitions_single hvalid hcomparable hdefined hfield htext
    unfold definitionsOf
    rw [readings_loaded, readings_loaded, flatMap_single hreadings hnone,
      flatMap_single ((sourceReadings_perm hperm).trans hreadings) hnone]

/-- The objects of a valid snapshot with sorted fields. -/
lemma mem_sortedObjects (hvalid : ValidFiles p files) {objects : List ParsedObject}
    (hsorted : List.Forall₂ (SortedFields p) (parseFiles p.texts (loadFromFiles p files).1).1.objects
      objects) {object : ParsedObject} :
    object ∈ objects ↔ ∃ name payload fields,
      (name, payload) ∈ objectsOf (loadFromFiles p files).1 ∧
      sortBy (nameBefore p) ((definitionsOf (loadFromFiles p files).1 name).map Prod.snd) =
        .ok fields ∧
      object = { object := assign payload (units "fields") (.arr []), nameSingular := name, fields } := by
  obtain ⟨-, hclean, hgathered⟩ := parsed_run p.texts (loadFromFiles p files).1
  have hgathered := hgathered (hclean.2 hvalid.admissible)
  obtain ⟨hlength, hget⟩ := List.forall₂_iff_get.1 hsorted
  constructor
  · intro hobject
    obtain ⟨i, hi, rfl⟩ := List.getElem_of_mem hobject
    have hi' : i < (parseFiles p.texts (loadFromFiles p files).1).1.objects.length := hlength ▸ hi
    obtain ⟨fields, hfields, hobject⟩ := hget i hi' hi
    obtain ⟨name, payload, hpayload, hparsed⟩ :=
      (mem_gathered hvalid.admissible hgathered).1 (List.getElem_mem hi')
    simp only [List.get_eq_getElem, hparsed] at hfields hobject
    exact ⟨name, payload, fields, hpayload, hfields, hobject⟩
  · rintro ⟨name, payload, fields, hpayload, hfields, rfl⟩
    obtain ⟨i, hi, hparsed⟩ := List.getElem_of_mem
      ((mem_gathered hvalid.admissible hgathered).2 ⟨name, payload, hpayload, rfl⟩)
    have hi' : i < objects.length := hlength ▸ hi
    obtain ⟨fields', hfields', hobject⟩ := hget i hi hi'
    simp only [List.get_eq_getElem, hparsed] at hfields' hobject
    rw [← Except.ok.inj (hfields'.symm.trans hfields), ← hobject]
    exact List.getElem_mem hi'

/-- No name comes twice among the sorted objects. -/
lemma sortedNames_nodup {objects : List ParsedObject}
    (hsorted : List.Forall₂ (SortedFields p) (parseFiles p.texts (loadFromFiles p files).1).1.objects
      objects) : (objects.map (·.nameSingular)).Nodup := by
  have hnames : objects.map (·.nameSingular) =
      (parseFiles p.texts (loadFromFiles p files).1).1.objects.map (·.nameSingular) := by
    generalize (parseFiles p.texts (loadFromFiles p files).1).1.objects = parsedObjects at hsorted
    induction hsorted with
    | nil => rfl
    | cons hobject _ ih =>
      obtain ⟨fields, -, rfl⟩ := hobject
      rw [List.map_cons, List.map_cons, ih]
  rw [hnames]
  exact parsedNames_nodup _ _

/-- Valid files have no component of a taxonomy. -/
lemma taxonomy_nil (hvalid : ValidFiles p files) (kind : TaxonomyKind) :
    (parseFiles p.texts (loadFromFiles p files).1).1.taxonomy kind = [] := by
  obtain ⟨-, hclean, hgathered⟩ := parsed_run p.texts (loadFromFiles p files).1
  exact ((hgathered (hclean.2 hvalid.admissible)).taxonomy kind).trans (hvalid.plain kind)

/-- Valid files give the same sorted snapshot in every order. -/
lemma snapshot_perm (hstrict : p.collation.Strict) (hvalid : ValidFiles p files)
    (hcomparable : Comparable p files) (hperm : files'.Perm files)
    {result result' : ParsedSnapshot × MetadataRuntimeValidationResult}
    (h : validateFiles p files = .ok result) (h' : validateFiles p files' = .ok result') :
    result'.1 = result.1 := by
  have hvalid' := hvalid.perm hperm
  obtain ⟨objects, hobjects, hresult⟩ := sortSnapshot_ok.1 (validateFiles_ok.1 h).1
  obtain ⟨objects', hobjects', hresult'⟩ := sortSnapshot_ok.1 (validateFiles_ok.1 h').1
  have hnodup := sortedNames_nodup hobjects
  have hmembers : objects'.Perm objects := by
    refine (List.perm_ext_iff_of_nodup (sortedNames_nodup hobjects').of_map hnodup.of_map).2 fun o => ?_
    rw [mem_sortedObjects hvalid hobjects, mem_sortedObjects hvalid' hobjects']
    refine exists_congr fun name => exists_congr fun payload => exists_congr fun fields => ?_
    rw [(objectsOf_perm hperm).mem_iff]
    refine and_congr_right fun hpayload => ?_
    rw [sortFields_perm hstrict hvalid hcomparable hperm
      (defined_iff.2 (List.mem_map_of_mem hpayload))]
  have hsorted : objects'.insertionSort (fun left right =>
        p.collation.le left.nameSingular right.nameSingular = true) =
      objects.insertionSort fun left right =>
        p.collation.le left.nameSingular right.nameSingular = true := by
    -- the comparison of names is total and transitive on the objects of valid files
    have htotal : Std.Total fun left right : ParsedObject =>
        p.collation.le left.nameSingular right.nameSingular = true :=
      ⟨fun left right => p.collation.total _ _⟩
    have htrans : IsTrans ParsedObject fun left right =>
        p.collation.le left.nameSingular right.nameSingular = true :=
      ⟨fun left mid right => p.collation.trans _ _ _⟩
    refine List.Perm.eq_of_pairwise ?_ (List.pairwise_insertionSort _ _)
      (List.pairwise_insertionSort _ _)
      ((List.perm_insertionSort _ _).trans (hmembers.trans (List.perm_insertionSort _ _).symm))
    intro a b ha hb hab hba
    have ha := hmembers.mem_iff.1 ((List.mem_insertionSort _).1 ha)
    have hb := (List.mem_insertionSort _).1 hb
    exact List.inj_on_of_nodup_map hnodup ha hb (hstrict _ _ hab hba)
  rw [hresult, hresult', hsorted]
  simp only [taxonomy_nil hvalid, taxonomy_nil hvalid']

end orders

/-! ## The order of the files -/

/-- The files have one result in all orders: they are valid or not, and valid ones have one snapshot. -/
def OrderFree (p : Platform) (files : List MetadataRuntimeSourceFile) : Prop :=
  ∃ valid snapshot, ∀ files', files'.Perm files → ∃ result, validateFiles p files' = .ok result ∧
    result.2.valid = valid ∧ (valid = true → result.1 = snapshot)

/-- The order of the files does not matter just where the fields of the objects can be compared in
every order: no field with a name that is not a string may come after one with another name. -/
theorem orderFree_iff (p : Platform) (hstrict : p.collation.Strict)
    (files : List MetadataRuntimeSourceFile) : OrderFree p files ↔ Comparable p files := by
  rw [← returns_iff]
  constructor
  · rintro ⟨valid, snapshot, h⟩ files' hperm
    obtain ⟨result, hresult, -⟩ := h files' hperm
    exact ⟨result, hresult⟩
  · intro hreturns
    obtain ⟨result, hresult⟩ := hreturns files (List.Perm.refl _)
    refine ⟨result.2.valid, result.1, fun files' hperm => ?_⟩
    obtain ⟨result', hresult'⟩ := hreturns files' hperm
    have hvalidation := (validateFiles_ok.1 hresult).2
    have hvalidation' := (validateFiles_ok.1 hresult').2
    refine ⟨result', hresult', ?_, fun hvalid => ?_⟩
    · rw [hvalidation, hvalidation', Bool.eq_iff_iff, valid_iff, valid_iff]
      exact ⟨fun h => h.perm hperm.symm, fun h => h.perm hperm⟩
    · rw [hvalidation, valid_iff] at hvalid
      exact snapshot_perm hstrict hvalid (returns_iff.1 hreturns) hperm hresult hresult'

/-- The order of the units tells all texts apart. -/
lemma unitOrder_strict : unitOrder.Strict := by
  intro s t hst hts
  have hle := of_decide_eq_true hst
  have hge := of_decide_eq_true hts
  exact List.map_injective_iff.2 (fun a b => UInt16.toNat_inj.1) (le_antisymm hle hge)

def accountFile : MetadataRuntimeSourceFile where
  path := units "objects/account/object.yaml"
  content := units "nameSingular: account\nnamePlural: accounts"

/-- A field of the account under a name as it stands in the file. -/
def accountField (file name : String) : MetadataRuntimeSourceFile where
  path := units ("objects/account/fields/" ++ file ++ ".field.yaml")
  content := units ("name: " ++ name ++ "\ntype: TEXT")

/-- The texts of names. -/
def nameTexts : Texts where
  textOf
    | .str s => s
    | .bool true => units "true"
    | .bool false => units "false"
    | _ => []
  textOf_str _ := rfl

/-- Reading these files. -/
def accountPlatform : Platform where
  load := fun content => .ok <|
    if content = accountFile.content then
      some (.obj [(units "nameSingular", .str (units "account")),
        (units "namePlural", .str (units "accounts"))])
    else if content = (accountField "city" "city").content then
      some (.obj [(units "name", .str (units "city")), (units "type", .str (units "TEXT"))])
    else if content = (accountField "active" "true").content then
      some (.obj [(units "name", .bool true), (units "type", .str (units "TEXT"))])
    else none
  collation := unitOrder
  texts := nameTexts

/-- Names that are all texts can be compared. -/
lemma comparable_of_texts {p : Platform} {files : List MetadataRuntimeSourceFile}
    (h : ∀ name, ∀ field ∈ (sourceReadings p files).flatMap (·.definitions name), IsText field.1) :
    Comparable p files := by
  intro name _ first field hfollow
  refine .inl (h name field ?_)
  rcases hfollow with ⟨reading, hreading, -, htail⟩ | ⟨reading, other, hpair, -, -, hmem⟩
  · exact List.mem_flatMap.2 ⟨reading, hreading, List.mem_of_mem_tail htail⟩
  · exact List.mem_flatMap.2 ⟨other, hpair.subset (by simp), hmem⟩

/-- What the two files of an account are read as. -/
lemma account_readings : sourceReadings accountPlatform [accountFile, accountField "city" "city"] =
    [.object (units "account") [(units "nameSingular", .str (units "account")),
        (units "namePlural", .str (units "accounts"))],
      .field (units "account") (.str (units "city"))
        [(units "name", .str (units "city")), (units "type", .str (units "TEXT"))]] := by
  rfl

/-- An object and its field, each in a file of its own, do not depend on the order. -/
theorem account_orderFree :
    unitOrder.Strict ∧ OrderFree accountPlatform [accountFile, accountField "city" "city"] := by
  refine ⟨unitOrder_strict, (orderFree_iff accountPlatform unitOrder_strict _).2 ?_⟩
  refine comparable_of_texts fun name field hfield => ?_
  have hnone : fieldsOf [(units "nameSingular", .str (units "account")),
      (units "namePlural", .str (units "accounts"))] = [] := by rfl
  rw [account_readings, List.flatMap_cons, List.flatMap_cons, List.flatMap_nil, List.append_nil] at hfield
  unfold Reading.definitions at hfield
  dsimp only at hfield
  rw [hnone, List.filterMap_nil, ite_self, List.nil_append] at hfield
  split at hfield
  · rw [List.mem_singleton.1 hfield]
    exact ⟨_, rfl⟩
  · cases hfield

/-- A field whose name is the value `true`: it is sorted in front of another one, and not behind it. -/
theorem account_order_matters :
    ([accountFile, accountField "active" "true", accountField "city" "city"].map (·.path)).Nodup ∧
    (validateFiles accountPlatform
      [accountFile, accountField "active" "true", accountField "city" "city"]).isOk = true ∧
    ¬ OrderFree accountPlatform
      [accountFile, accountField "active" "true", accountField "city" "city"] := by
  refine ⟨by decide, by decide, ?_⟩
  rintro ⟨valid, snapshot, h⟩
  obtain ⟨result, hresult, -⟩ := h
    [accountFile, accountField "city" "city", accountField "active" "true"]
    ((List.Perm.swap _ _ _).cons _)
  have hthrows : (validateFiles accountPlatform
      [accountFile, accountField "city" "city", accountField "active" "true"]).isOk = false := by
    decide
  rw [hresult] at hthrows
  cases hthrows

end NexusClaw.MetadataRuntime
