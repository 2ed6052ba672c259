import NexusClaw.MetadataRuntime.Diff

/-!
# When a diff is faithful

`Legible` says when `diffSnapshots` meets its purpose: a field with a dot in one of its names has not
changed and shares its identity with no other field of its snapshot, no missing property stands against
a value that prints like it, and no two keys of a value that both sides share compare as equal under
`localeCompare`. The diff is then `Faithful`.
-/

namespace NexusClaw.MetadataRuntime

open AuditChain

/-! ## Texts of properties -/

/-- The value that prints like the missing property `key`. -/
def standIn (key : Units) : JsonValue :=
  if key ∈ inheritedNames then
    if key = units "__proto__" then .obj [] else .str (functionText key)
  else .str (units "undefined")

/-- The texts of two records tell their properties apart. -/
structure Readable (c : Collation) (ignored : List Units) (r r' : Record) : Prop where
  shared : ∀ key v w, key ∉ ignored → get r key = some v → get r' key = some w →
    v.defined.Same w.defined → v.defined = w.defined ∨ Apart c v.defined
  removed : ∀ key v, key ∉ ignored → get r key = some v → get r' key = none →
    v.defined ≠ standIn key
  added : ∀ key w, key ∉ ignored → get r key = none → get r' key = some w → w.defined ≠ standIn key

section texts
variable {fmt : NumberFormat} {c : Collation} {ignored : List Units} {r r' : Record} {key : Units}

/-- A property with a value is read. -/
lemma readProperty_value {v : Value} (h : get r key = some v) :
    readProperty (some r) key = .value v := by
  have hlookup : r.lookup key = some (some v) := Option.join_eq_some_iff.1 h
  simp only [readProperty, hlookup]

/-- A missing property prints like its stand-in. -/
lemma stable_missing (hr : Tidy r) (h : get r key = none) :
    stableStringify fmt c (readProperty (some r) key) = pretty fmt [] (standIn key) := by
  unfold standIn
  cases hlookup : r.lookup key with
  | none =>
    have hread : readProperty (some r) key =
        if key ∈ inheritedNames then .inherited key else .undefined := by
      simp only [readProperty, hlookup]
    rw [hread]
    split_ifs with hname hproto
    · rw [stableStringify, if_pos hproto]
      rfl
    · rw [stableStringify, if_neg hproto, pretty]
    · rw [stableStringify, pretty]
  | some entry =>
    cases entry with
    | none =>
      have hread : readProperty (some r) key = .undefined := by
        simp only [readProperty, hlookup]
      rw [hread, if_neg (hr.plain _ (mem_of_lookup hlookup) rfl), stableStringify, pretty]
    | some v =>
      rw [get, hlookup] at h
      cases h

/-- What stands in for a missing value repeats no key. -/
lemma distinct_standIn (key : Units) : (standIn key).Distinct := by
  unfold standIn
  split_ifs
  · exact JsonValue.distinct_obj.2 ⟨List.nodup_nil, nofun⟩
  · trivial
  · trivial

/-- A text is sorted to itself. -/
lemma str_of_sorted {v : JsonValue} {s : Units} (h : unsign (sortKeys c v) = .str s) :
    v = .str s := by
  cases v with
  | null => cases h
  | bool b => cases h
  | num n => cases h
  | str t => exact h
  | arr vs =>
    rw [sortKeys_arr, unsign_arr] at h
    cases h
  | obj fields =>
    rw [sortKeys_obj, unsign_obj] at h
    cases h

/-- Only the empty object is sorted to it. -/
lemma empty_of_sorted {v : JsonValue} (h : unsign (sortKeys c v) = .obj []) : v = .obj [] := by
  cases v with
  | null => cases h
  | bool b => cases h
  | num n => cases h
  | str t => cases h
  | arr vs =>
    rw [sortKeys_arr, unsign_arr] at h
    cases h
  | obj fields =>
    rw [sortKeys_obj, unsign_obj] at h
    have hnil : arrange c fields = [] := List.map_eq_nil_iff.1 (List.map_eq_nil_iff.1 (JsonValue.obj.inj h))
    have hperm := arrange_perm (c := c) fields
    rw [hnil] at hperm
    rw [hperm.nil_eq]

/-- Only the stand-in prints like a missing property. -/
lemma eq_standIn {v : JsonValue} (hv : v.Distinct)
    (h : pretty fmt [] (sortKeys c v) = pretty fmt [] (standIn key)) : v = standIn key := by
  have hread := parse_pretty fmt (distinct_sortKeys (c := c) hv)
  rw [h, parse_pretty fmt (distinct_standIn key)] at hread
  have hsorted := (Option.some.inj hread).symm
  unfold standIn at hsorted ⊢
  split_ifs at hsorted ⊢ with hname hproto
  · exact empty_of_sorted hsorted
  · exact str_of_sorted hsorted
  · exact str_of_sorted hsorted

/-- A member of a tidy record repeats no key. -/
lemma distinct_get {v : Value} (hr : Tidy r) (h : get r key = some v) : v.defined.Distinct :=
  hr.values _ (mem_of_lookup (Option.join_eq_some_iff.1 h)) v rfl

/-- The texts of a property are equal exactly when the property is the same. -/
lemma stable_iff (fmt : NumberFormat) (hr : Tidy r) (hr' : Tidy r') (h : Readable c ignored r r') (hkey : key ∉ ignored) :
    stableStringify fmt c (readProperty (some r) key) =
      stableStringify fmt c (readProperty (some r') key) ↔
    SameProperty (get r key) (get r' key) := by
  -- a property that is missing has no text
  cases hv : get r key with
  | none =>
    rw [stable_missing hr hv]
    cases hw : get r' key with
    | none =>
      rw [stable_missing hr' hw]
      exact iff_of_true rfl trivial
    | some w =>
      rw [readProperty_value hw, stableStringify, stableText_eq]
      refine iff_of_false (fun htext => ?_) id
      exact h.added key w hkey hv hw (eq_standIn (distinct_get hr' hw) htext.symm)
  | some v =>
    rw [readProperty_value hv, stableStringify, stableText_eq]
    cases hw : get r' key with
    | none =>
      rw [stable_missing hr' hw]
      refine iff_of_false (fun htext => ?_) id
      exact h.removed key v hkey hv hw (eq_standIn (distinct_get hr hv) htext)
    | some w =>
      rw [readProperty_value hw, stableStringify, stableText_eq, SameProperty]
      have hvdistinct := distinct_get hr hv
      have hwdistinct := distinct_get hr' hw
      constructor
      · exact same_of_pretty hvdistinct hwdistinct
      · intro hsame
        rcases h.shared key v w hkey hv hw hsame with heq | hapart
        · rw [heq]
        · exact pretty_of_same hvdistinct hwdistinct hsame hapart

/-- A key that is not there has no value. -/
lemma get_none (h : key ∉ keysOf (some r)) : get r key = none := by
  cases hlookup : r.lookup key with
  | none => rw [get, hlookup, Option.join_none]
  | some entry => exact absurd (List.mem_map_of_mem (mem_of_lookup hlookup)) h

/-- No property change is reported exactly when all properties that count are the same. -/
lemma propertyChanges_empty (fmt : NumberFormat) (hr : Tidy r) (hr' : Tidy r') (h : Readable c ignored r r') :
    (getPropertyChanges fmt c (some r) (some r') ignored).isEmpty = true ↔
      SameElement ignored (some r) (some r') := by
  rw [List.isEmpty_iff, getPropertyChanges, List.filter_eq_nil_iff, List.forall_mem_map]
  constructor
  · intro hall key hkey
    by_cases hmem : key ∈ keysOf (some r) ++ keysOf (some r')
    · rw [← stable_iff fmt hr hr' h hkey]
      have hkept : key ∈ (keysOf (some r) ++ keysOf (some r')).eraseDups.filter
          fun key => key ∉ ignored :=
        List.mem_filter.2 ⟨List.mem_eraseDups.2 hmem, decide_eq_true hkey⟩
      have htext := hall key hkept
      exact not_not.1 fun hne => htext (decide_eq_true hne)
    · rw [List.mem_append, not_or] at hmem
      rw [get_none hmem.1, get_none hmem.2]
      trivial
  · intro hsame key hmem
    have hkey : key ∉ ignored := of_decide_eq_true (List.mem_filter.1 hmem).2
    have htext := (stable_iff fmt hr hr' h hkey).2 (hsame key hkey)
    exact fun hne => of_decide_eq_true hne htext

/-! ## Changes of one element -/

/-- What a change leaves of its element. -/
def MetadataRuntimeChange.result (change : MetadataRuntimeChange) : Option Record :=
  match change.action with
  | .create => change.after
  | .update => change.after
  | .delete => none

variable {address : Address} {before after : Option Record} {ignoreFields : List Units}
  {change : MetadataRuntimeChange}

/-- An element is reported exactly when it is not the same. -/
lemma elementChange_none
    (h : ∀ r r', before = some r → after = some r' → Tidy r ∧ Tidy r' ∧ Readable c ignored r r') :
    elementChange fmt c address before after ignoreFields ignored = none ↔
      SameElement ignored before after := by
  cases before with
  | none =>
    cases after with
    | none => exact iff_of_true rfl trivial
    | some r' => exact iff_of_false nofun id
  | some r =>
    cases after with
    | none => exact iff_of_false nofun id
    | some r' =>
      obtain ⟨hr, hr', hreadable⟩ := h r r' rfl rfl
      rw [← propertyChanges_empty fmt hr hr' hreadable, elementChange]
      split_ifs with hempty
      · exact iff_of_true rfl hempty
      · exact iff_of_false nofun hempty

/-- A change carries the address of its element, has the action that the sides call for and leaves
what the target has. -/
lemma elementChange_some
    (h : elementChange fmt c address before after ignoreFields ignored = some change) :
    (∃ action b a changes, change = address.change action b a changes) ∧
      change.result = after ∧ change.Fits before after := by
  cases before with
  | none =>
    cases after with
    | none => cases h
    | some r' =>
      cases h
      exact ⟨⟨_, _, _, _, rfl⟩, rfl, rfl, nofun⟩
  | some r =>
    cases after with
    | none =>
      cases h
      exact ⟨⟨_, _, _, _, rfl⟩, rfl, nofun, rfl⟩
    | some r' =>
      rw [elementChange] at h
      split_ifs at h
      cases h
      exact ⟨⟨_, _, _, _, rfl⟩, rfl, nofun, nofun⟩

end texts

/-! ## Looking elements up -/

section lookup
variable {β : Type} {key : Units}

/-- A new key comes last. -/
lemma assign_new {es : List (Units × β)} {v : β} (h : key ∉ es.map Prod.fst) :
    assign es key v = es ++ [(key, v)] :=
  if_neg h

/-- A map of entries with distinct keys holds them all, in their order. -/
lemma mapOf_eq {es : List (Units × β)} (h : (es.map Prod.fst).Nodup) : mapOf es = es := by
  induction es using List.reverseRecOn with
  | nil => rfl
  | append_singleton es e ih =>
    rw [List.map_append, List.nodup_append] at h
    obtain ⟨hes, -, hdisjoint⟩ := h
    have hnew : e.1 ∉ es.map Prod.fst := fun hmem =>
      hdisjoint e.1 hmem e.1 (List.mem_singleton_self _) rfl
    have hmap : mapOf (es ++ [e]) = assign (mapOf es) e.1 e.2 := by
      rw [mapOf, List.foldl_append]
      rfl
    rw [hmap, ih hes, assign_new hnew]

/-- A member is found if no key comes twice. -/
lemma lookup_eq_some {es : List (Units × β)} {v : β} (h : (es.map Prod.fst).Nodup) :
    es.lookup key = some v ↔ (key, v) ∈ es := by
  refine ⟨mem_of_lookup, fun hmem => ?_⟩
  obtain ⟨before, after, rfl⟩ := List.append_of_mem hmem
  refine List.lookup_eq_some_iff.2 ⟨before, after, rfl, fun e he => ?_⟩
  rw [List.map_append, List.nodup_append] at h
  have hne := h.2.2 e.1 (List.mem_map_of_mem he) key (List.mem_cons_self ..)
  rw [bne_iff_ne]
  exact hne.symm

/-- Elements under their names. -/
lemma lookup_named (name : β → Units) (xs : List β) :
    (xs.map fun x => (name x, x)).lookup key = xs.find? fun x => name x = key := by
  induction xs with
  | nil => rfl
  | cons x xs ih =>
    rw [List.map_cons, List.lookup_cons, List.find?_cons, ih]
    by_cases hname : name x = key
    · rw [hname, beq_self_eq_true, decide_eq_true rfl]
    · rw [decide_eq_false hname, beq_eq_false_iff_ne.2 (Ne.symm hname)]

/-- An element is found if no name comes twice. -/
lemma find_eq_some {name : β → Units} {xs : List β} {x : β} (h : (xs.map name).Nodup) :
    xs.find? (fun x => name x = key) = some x ↔ x ∈ xs ∧ name x = key := by
  have hkeys : ((xs.map fun x => (name x, x)).map Prod.fst).Nodup := by
    rw [List.map_map]
    exact h
  rw [← lookup_named, lookup_eq_some hkeys, List.mem_map]
  constructor
  · rintro ⟨y, hy, heq⟩
    cases heq
    exact ⟨hy, rfl⟩
  · rintro ⟨hx, rfl⟩
    exact ⟨x, hx, rfl⟩

/-- Without repetitions nothing comes twice. -/
lemma nodup_eraseDups (keys : List Units) : keys.eraseDups.Nodup := by
  induction h : keys.length using Nat.strong_induction_on generalizing keys with
  | _ n ih =>
    cases keys with
    | nil => exact List.nodup_nil
    | cons key keys =>
      rw [List.eraseDups_cons, List.nodup_cons, List.mem_eraseDups, List.mem_filter]
      refine ⟨fun hmem => ?_, ih _ ?_ _ rfl⟩
      · simp at hmem
      · rw [← h, List.length_cons]
        exact Nat.lt_succ_of_le (List.length_filter_le _ _)

/-- All keys are those of either side. -/
lemma mem_allKeys {current target : List (Units × β)} :
    key ∈ allKeys current target ↔
      current.lookup key ≠ none ∨ target.lookup key ≠ none := by
  have hkeys (es : List (Units × β)) : key ∈ es.map Prod.fst ↔ es.lookup key ≠ none := by
    rw [Option.ne_none_iff_isSome, List.lookup_isSome_iff, List.mem_map]
    constructor
    · rintro ⟨e, he, rfl⟩
      exact ⟨e, he, beq_self_eq_true _⟩
    · rintro ⟨e, he, heq⟩
      exact ⟨e, he, (eq_of_beq heq).symm⟩
  rw [allKeys, List.mem_eraseDups, List.mem_append, hkeys, hkeys]

end lookup

/-! ## Identities of fields -/

/-- The names of a field without a dot in them. -/
def Dotless (objectName name : Units) : Prop :=
  unit '.' ∉ objectName ∧ unit '.' ∉ name

/-- The identity of a field without dots in its names is split into them. -/
lemma splitOn_dotted {o f : Units} (h : Dotless o f) : (dotted o f).splitOn (unit '.') = [o, f] := by
  rw [dotted, List.splitOn_append_cons_self_of_not_mem h.1, List.splitOn_eq_singleton h.2]

/-- No other field has its identity. -/
lemma dotted_injective {o f o' f' : Units} (h : Dotless o f) (heq : dotted o' f' = dotted o f) :
    o' = o ∧ f' = f := by
  have hcount := congrArg (List.count (unit '.')) heq
  rw [dotted, dotted, List.count_append, List.count_append, List.count_cons_self,
    List.count_cons_self, List.count_eq_zero.2 h.1, List.count_eq_zero.2 h.2] at hcount
  have hdotless : Dotless o' f' :=
    ⟨List.count_eq_zero.1 (by omega), List.count_eq_zero.1 (by omega)⟩
  have hsplit := splitOn_dotted hdotless
  rw [heq, splitOn_dotted h] at hsplit
  cases hsplit
  exact ⟨rfl, rfl⟩

namespace MetadataRuntimeSnapshot

/-- The identities of the fields. -/
def identities (s : MetadataRuntimeSnapshot) : List Units :=
  (s.objects.flatMap fieldEntries).map Prod.fst

variable {s : MetadataRuntimeSnapshot}

/-- The index of a snapshot finds its objects. -/
lemma index_objects (hs : s.Unique) (name : Units) :
    (indexSnapshot s).objects.lookup name = s.object name := by
  have hkeys : ((s.objects.map fun object => (object.nameSingular, object)).map Prod.fst).Nodup := by
    rw [List.map_map]
    exact hs.objects
  show (mapOf (s.objects.map fun object => (object.nameSingular, object))).lookup name = _
  rw [mapOf_eq hkeys, lookup_named]
  rfl

/-- The index finds the components. -/
lemma index_taxonomy (hs : s.Unique) (kind : TaxonomyKind) (identity : Units) :
    ((indexSnapshot s).taxonomy kind).lookup identity =
      (s.components kind).find? fun component =>
        getMetadataRuntimeComponentIdentity kind component.record = identity := by
  have hkeys : (((s.components kind).map fun component =>
      (getMetadataRuntimeComponentIdentity kind component.record, component)).map Prod.fst).Nodup := by
    rw [List.map_map]
    exact hs.components kind
  show (mapOf ((s.components kind).map fun component =>
    (getMetadataRuntimeComponentIdentity kind component.record, component))).lookup identity = _
  rw [mapOf_eq hkeys, lookup_named fun component : MetadataRuntimeComponent =>
    getMetadataRuntimeComponentIdentity kind component.record]

/-- The index finds the fields. -/
lemma index_fields (hid : s.identities.Nodup) {identity : Units} {field : MetadataRuntimeField} :
    (indexSnapshot s).fields.lookup identity = some field ↔
      ∃ object ∈ s.objects, field ∈ object.fields ∧
        dotted object.nameSingular field.name = identity := by
  show (mapOf (s.objects.flatMap fieldEntries)).lookup identity = some field ↔ _
  rw [mapOf_eq hid, lookup_eq_some hid, List.mem_flatMap]
  constructor
  · rintro ⟨object, hobject, hentry⟩
    obtain ⟨field', hfield, heq⟩ := List.mem_map.1 hentry
    cases heq
    exact ⟨object, hobject, hfield, rfl⟩
  · rintro ⟨object, hobject, hfield, rfl⟩
    exact ⟨object, hobject, List.mem_map_of_mem hfield⟩

/-- The field of an object. -/
def field (s : MetadataRuntimeSnapshot) (objectName name : Units) : Option MetadataRuntimeField :=
  (s.object objectName).bind fun object => object.fields.find? fun field => field.name = name

/-- The normal form of a field. -/
lemma normalised_field (o f : Units) :
    s.normalised (.field o f) = (s.field o f).map normalizeFieldForDiff := by
  rw [normalised, field, Option.map_bind]
  rfl

/-- A field is one of an object of its name. -/
lemma field_eq_some (hs : s.Unique) {o f : Units} {field : MetadataRuntimeField} :
    s.field o f = some field ↔
      ∃ object ∈ s.objects, object.nameSingular = o ∧ field ∈ object.fields ∧ field.name = f := by
  rw [MetadataRuntimeSnapshot.field, Option.bind_eq_some_iff]
  constructor
  · rintro ⟨object, hobject, hfield⟩
    obtain ⟨hmem, hname⟩ := (find_eq_some hs.objects).1 hobject
    exact ⟨object, hmem, hname, (find_eq_some (hs.fields object hmem)).1 hfield⟩
  · rintro ⟨object, hmem, hname, hfield⟩
    exact ⟨object, (find_eq_some hs.objects).2 ⟨hmem, hname⟩,
      (find_eq_some (hs.fields object hmem)).2 hfield⟩

/-- A field is found under its identity. -/
lemma index_of_field (hs : s.Unique) (hid : s.identities.Nodup) {o f : Units}
    {field : MetadataRuntimeField} (h : s.field o f = some field) :
    (indexSnapshot s).fields.lookup (dotted o f) = some field := by
  obtain ⟨object, hobject, rfl, hfield, rfl⟩ := (field_eq_some hs).1 h
  exact (index_fields hid).2 ⟨object, hobject, hfield, rfl⟩

/-- Under an identity without further dots there is its field or none. -/
lemma index_dotless (hs : s.Unique) (hid : s.identities.Nodup) {o f : Units} (h : Dotless o f) :
    (indexSnapshot s).fields.lookup (dotted o f) = s.field o f := by
  refine Option.ext fun field => ?_
  rw [index_fields hid, field_eq_some hs]
  refine exists_congr fun object => and_congr_right fun _ => ?_
  constructor
  · rintro ⟨hfield, heq⟩
    obtain ⟨hobject, hname⟩ := dotted_injective h heq
    exact ⟨hobject, hfield, hname⟩
  · rintro ⟨rfl, hfield, rfl⟩
    exact ⟨hfield, rfl⟩

/-- The normal form of an element is tidy. -/
lemma tidy_normalised {e : Element} {r : Record} (h : s.normalised e = some r) : Tidy r := by
  cases e with
  | object name =>
    obtain ⟨object, -, rfl⟩ := Option.map_eq_some_iff.1 h
    exact tidy_normalizeObjectForDiff object
  | field o f =>
    rw [normalised_field] at h
    obtain ⟨field, -, rfl⟩ := Option.map_eq_some_iff.1 h
    exact tidy_normalizeFieldForDiff field
  | component kind identity =>
    obtain ⟨component, -, rfl⟩ := Option.map_eq_some_iff.1 h
    exact tidy_spread component.distinct

end MetadataRuntimeSnapshot

/-! ## What a list of changes reports -/

section reports
variable {fmt : NumberFormat} {c : Collation} {ignoreFields : List Units}
  {current target : MetadataRuntimeSnapshot}

/-- An element is the same in both snapshots. -/
def Unchanged (ignoreFields : List Units) (current target : MetadataRuntimeSnapshot) (e : Element) :
    Prop :=
  SameElement (e.ignored ignoreFields) (current.normalised e) (target.normalised e)

/-- The changes are those of the elements in `P` that differ, one for each, with the action that its
sides call for and what the target has. -/
structure Reports (ignoreFields : List Units) (current target : MetadataRuntimeSnapshot)
    (P : Element → Prop) (changes : List MetadataRuntimeChange) : Prop where
  sound : ∀ change ∈ changes, ∃ e, P e ∧ change.element = some e ∧
    change.result = target.normalised e ∧
    change.Fits (current.normalised e) (target.normalised e) ∧
    ¬ Unchanged ignoreFields current target e
  complete : ∀ e, P e → ¬ Unchanged ignoreFields current target e →
    ∃ change ∈ changes, change.element = some e
  once : (changes.map (·.element)).Nodup

/-- Lists that report different elements. -/
lemma Reports.append {P Q : Element → Prop} {xs ys : List MetadataRuntimeChange}
    (hxs : Reports ignoreFields current target P xs)
    (hys : Reports ignoreFields current target Q ys) (hdisjoint : ∀ e, P e → ¬ Q e) :
    Reports ignoreFields current target (fun e => P e ∨ Q e) (xs ++ ys) := by
  constructor
  · intro change hmem
    rcases List.mem_append.1 hmem with hx | hy
    · obtain ⟨e, he, h⟩ := hxs.sound change hx
      exact ⟨e, .inl he, h⟩
    · obtain ⟨e, he, h⟩ := hys.sound change hy
      exact ⟨e, .inr he, h⟩
  · intro e he hdiffer
    rcases he with he | he
    · obtain ⟨change, hmem, h⟩ := hxs.complete e he hdiffer
      exact ⟨change, List.mem_append_left _ hmem, h⟩
    · obtain ⟨change, hmem, h⟩ := hys.complete e he hdiffer
      exact ⟨change, List.mem_append_right _ hmem, h⟩
  · rw [List.map_append]
    refine List.nodup_append.2 ⟨hxs.once, hys.once, fun x hx y hy heq => ?_⟩
    obtain ⟨change, hmem, rfl⟩ := List.mem_map.1 hx
    obtain ⟨change', hmem', rfl⟩ := List.mem_map.1 hy
    obtain ⟨e, he, helement, -⟩ := hxs.sound change hmem
    obtain ⟨e', he', helement', -⟩ := hys.sound change' hmem'
    rw [helement, helement'] at heq
    exact hdisjoint e he (Option.some.inj heq ▸ he')

/-- The changes of several kinds. -/
lemma Reports.flatMap {α : Type} {P : α → Element → Prop} {changes : α → List MetadataRuntimeChange}
    {xs : List α} (hxs : xs.Nodup) (hdisjoint : ∀ x y e, P x e → P y e → x = y)
    (h : ∀ x ∈ xs, Reports ignoreFields current target (P x) (changes x)) :
    Reports ignoreFields current target (fun e => ∃ x ∈ xs, P x e) (xs.flatMap changes) := by
  induction xs with
  | nil => exact ⟨fun _ hmem => (by cases hmem), fun e he => (by simp at he), List.nodup_nil⟩
  | cons x xs ih =>
    obtain ⟨hnew, hxs⟩ := List.nodup_cons.1 hxs
    obtain ⟨hx, hrest⟩ := List.forall_mem_cons.1 h
    have hboth := hx.append (ih hxs hrest) fun e he => fun ⟨y, hy, he'⟩ =>
      hnew (hdisjoint x y e he he' ▸ hy)
    rw [List.flatMap_cons]
    refine ⟨fun change hmem => ?_, fun e he => hboth.complete e (by simpa using he), hboth.once⟩
    obtain ⟨e, he, hsound⟩ := hboth.sound change hmem
    exact ⟨e, by simpa using he, hsound⟩

/-- The key under which the maps hold an element. -/
def Element.key : Element → Units
  | .object name => name
  | .field objectName name => dotted objectName name
  | .component _ identity => identity

/-- The key of a map leads to the element: both snapshots have it under the key, and a change under the
key is addressed to it. -/
structure Leads {β : Type} (norm : β → Record) (address : Units → Address)
    (current target : MetadataRuntimeSnapshot) (before after : List (Units × β)) (key : Units)
    (e : Element) : Prop where
  keyed : e.key = key
  element : ∀ action b a changes, ((address key).change action b a changes).element = some e
  before : (before.lookup key).map norm = current.normalised e
  after : (after.lookup key).map norm = target.normalised e

/-- The loop over the keys of two maps. -/
lemma reports_keys {β : Type} {norm : β → Record} {address : Units → Address}
    {before after : List (Units × β)} {P : Element → Prop} {updateIgnore : List Units}
    (hignored : ∀ e, P e → e.ignored ignoreFields = updateIgnore)
    (hreadable : ∀ e r r', current.normalised e = some r → target.normalised e = some r' →
      Readable c (e.ignored ignoreFields) r r')
    (hkey : ∀ key, (∃ e, P e ∧ Leads norm address current target before after key e) ∨
      elementChange fmt c (address key) ((before.lookup key).map norm)
        ((after.lookup key).map norm) ignoreFields updateIgnore = none)
    (helement : ∀ e, P e → ¬ Unchanged ignoreFields current target e →
      ∃ key, Leads norm address current target before after key e) :
    Reports ignoreFields current target P ((allKeys before after).filterMap fun key =>
      elementChange fmt c (address key) ((before.lookup key).map norm)
        ((after.lookup key).map norm) ignoreFields updateIgnore) := by
  have hnone (e : Element) (he : P e) (key : Units) :
      elementChange fmt c (address key) (current.normalised e) (target.normalised e) ignoreFields
          updateIgnore = none ↔ Unchanged ignoreFields current target e := by
    rw [Unchanged, hignored e he]
    refine elementChange_none fun r r' hr hr' => ?_
    have h := hreadable e r r' hr hr'
    rw [hignored e he] at h
    exact ⟨MetadataRuntimeSnapshot.tidy_normalised hr, MetadataRuntimeSnapshot.tidy_normalised hr', h⟩
  -- a change that the loop finds under a key is one of the element that the key leads to
  have hfound (key : Units) (change : MetadataRuntimeChange)
      (hchange : elementChange fmt c (address key) ((before.lookup key).map norm)
        ((after.lookup key).map norm) ignoreFields updateIgnore = some change) :
      ∃ e, P e ∧ Leads norm address current target before after key e ∧
        change.element = some e ∧ elementChange fmt c (address key) (current.normalised e)
          (target.normalised e) ignoreFields updateIgnore = some change := by
    rcases hkey key with ⟨e, he, hleads⟩ | hsame
    · rw [hleads.before, hleads.after] at hchange
      obtain ⟨⟨action, b, a, changes, rfl⟩, -⟩ := elementChange_some hchange
      exact ⟨e, he, hleads, hleads.element _ _ _ _, hchange⟩
    · rw [hsame] at hchange
      cases hchange
  constructor
  · intro change hmem
    obtain ⟨key, -, hchange⟩ := List.mem_filterMap.1 hmem
    obtain ⟨e, he, -, helement, hchange⟩ := hfound key change hchange
    obtain ⟨-, hresult, hfits⟩ := elementChange_some hchange
    refine ⟨e, he, helement, hresult, hfits, fun hunchanged => ?_⟩
    rw [(hnone e he key).2 hunchanged] at hchange
    cases hchange
  · intro e he hdiffer
    obtain ⟨key, hleads⟩ := helement e he hdiffer
    have hsome := mt (hnone e he key).1 hdiffer
    obtain ⟨change, hchange⟩ := Option.ne_none_iff_exists'.1 hsome
    obtain ⟨⟨action, b, a, changes, rfl⟩, -⟩ := elementChange_some hchange
    refine ⟨_, List.mem_filterMap.2 ⟨key, mem_allKeys.2 ?_, ?_⟩, hleads.element action b a changes⟩
    · by_contra habsent
      rw [not_or, not_not, not_not] at habsent
      rw [← hleads.before, ← hleads.after, habsent.1, habsent.2] at hsome
      exact hsome rfl
    · rw [hleads.before, hleads.after]
      exact hchange
  · rw [List.map_filterMap]
    refine List.Nodup.filterMap (fun key key' element h h' => ?_) (nodup_eraseDups _)
    obtain ⟨change, hchange, rfl⟩ := Option.map_eq_some_iff.1 h
    obtain ⟨change', hchange', heq⟩ := Option.map_eq_some_iff.1 h'
    obtain ⟨e, -, hleads, helement, -⟩ := hfound key change hchange
    obtain ⟨e', -, hleads', helement', -⟩ := hfound key' change' hchange'
    rw [helement, helement'] at heq
    rw [← hleads.keyed, ← hleads'.keyed, Option.some.inj heq]

/-! ## Legible snapshots -/

/-- No change between the snapshots reaches a name with a dot, an identity that two fields share, or a
property whose text says too little. -/
structure Legible (c : Collation) (ignoreFields : List Units)
    (current target : MetadataRuntimeSnapshot) : Prop where
  currentIdentities : current.identities.Nodup
  targetIdentities : target.identities.Nodup
  dotted : ∀ objectName name, ¬ Dotless objectName name →
    Unchanged ignoreFields current target (.field objectName name)
  readable : ∀ e r r', current.normalised e = some r → target.normalised e = some r' →
    Readable c (e.ignored ignoreFields) r r'

/-- The changes of the objects are reported. -/
lemma reports_objects (fmt : NumberFormat) (hcurrent : current.Unique) (htarget : target.Unique)
    (h : Legible c ignoreFields current target) :
    Reports ignoreFields current target (fun e => ∃ name, e = .object name)
      (objectChanges fmt c ignoreFields (indexSnapshot current).objects
        (indexSnapshot target).objects) := by
  have hleads (name : Units) : Leads normalizeObjectForDiff
      (fun name => { kind := .object, objectNameSingular := name }) current target
      (indexSnapshot current).objects (indexSnapshot target).objects name (.object name) := by
    refine ⟨rfl, fun _ _ _ _ => rfl, ?_, ?_⟩
    · rw [MetadataRuntimeSnapshot.index_objects hcurrent]
      rfl
    · rw [MetadataRuntimeSnapshot.index_objects htarget]
      rfl
  apply reports_keys
  · rintro e ⟨name, rfl⟩
    rfl
  · exact h.readable
  · exact fun name => .inl ⟨_, ⟨name, rfl⟩, hleads name⟩
  · rintro e ⟨name, rfl⟩ -
    exact ⟨name, hleads name⟩

/-- The changes of the components are reported. -/
lemma reports_taxonomy (fmt : NumberFormat) (hcurrent : current.Unique) (htarget : target.Unique)
    (h : Legible c ignoreFields current target) (kind : TaxonomyKind) :
    Reports ignoreFields current target (fun e => ∃ identity, e = .component kind identity)
      (taxonomyChanges fmt c ignoreFields kind ((indexSnapshot current).taxonomy kind)
        ((indexSnapshot target).taxonomy kind)) := by
  have hleads (identity : Units) :
      Leads (fun component : MetadataRuntimeComponent => spread component.record)
        (fun identity => .mk (.taxonomy kind) identity none (some identity)) current target
        ((indexSnapshot current).taxonomy kind) ((indexSnapshot target).taxonomy kind) identity
        (.component kind identity) := by
    refine ⟨rfl, fun _ _ _ _ => rfl, ?_, ?_⟩
    · rw [MetadataRuntimeSnapshot.index_taxonomy hcurrent]
      rfl
    · rw [MetadataRuntimeSnapshot.index_taxonomy htarget]
      rfl
  apply reports_keys
  · rintro e ⟨identity, rfl⟩
    rfl
  · exact h.readable
  · exact fun identity => .inl ⟨_, ⟨identity, rfl⟩, hleads identity⟩
  · rintro e ⟨identity, rfl⟩ -
    exact ⟨identity, hleads identity⟩

/-- An unchanged element is in both snapshots or in none. -/
lemma Unchanged.isSome_iff {e : Element} (h : Unchanged ignoreFields current target e) :
    (current.normalised e).isSome = (target.normalised e).isSome := by
  unfold Unchanged at h
  cases hr : current.normalised e with
  | none =>
    cases hr' : target.normalised e with
    | none => rfl
    | some r' =>
      rw [hr, hr'] at h
      exact h.elim
  | some r =>
    cases hr' : target.normalised e with
    | none =>
      rw [hr, hr'] at h
      exact h.elim
    | some r' => rfl

/-- Under an identity with further dots nothing has changed. -/
lemma dotted_unchanged (hcurrent : current.Unique) (htarget : target.Unique)
    (h : Legible c ignoreFields current target) {o f : Units} (hdotted : ¬ Dotless o f)
    (hfield : current.field o f ≠ none ∨ target.field o f ≠ none) :
    elementChange fmt c (fieldAddress (dotted o f))
      (((indexSnapshot current).fields.lookup (dotted o f)).map normalizeFieldForDiff)
      (((indexSnapshot target).fields.lookup (dotted o f)).map normalizeFieldForDiff) ignoreFields
      ignoreFields = none := by
  have hunchanged := h.dotted o f hdotted
  have hboth := hunchanged.isSome_iff
  rw [MetadataRuntimeSnapshot.normalised_field, MetadataRuntimeSnapshot.normalised_field,
    Option.isSome_map, Option.isSome_map] at hboth
  obtain ⟨before, hbefore⟩ : ∃ field, current.field o f = some field := by
    rw [← Option.isSome_iff_exists]
    -- the field is in one of the snapshots, and unchanged, so in both
    rcases hfield with hsome | hsome
    · exact Option.ne_none_iff_isSome.1 hsome
    · rw [hboth]
      exact Option.ne_none_iff_isSome.1 hsome
  obtain ⟨after, hafter⟩ : ∃ field, target.field o f = some field := by
    rw [← Option.isSome_iff_exists, ← hboth, hbefore, Option.isSome_some]
  have hr : current.normalised (.field o f) = some (normalizeFieldForDiff before) := by
    rw [MetadataRuntimeSnapshot.normalised_field, hbefore, Option.map_some]
  have hr' : target.normalised (.field o f) = some (normalizeFieldForDiff after) := by
    rw [MetadataRuntimeSnapshot.normalised_field, hafter, Option.map_some]
  rw [MetadataRuntimeSnapshot.index_of_field hcurrent h.currentIdentities hbefore,
    MetadataRuntimeSnapshot.index_of_field htarget h.targetIdentities hafter, Option.map_some, Option.map_some]
  refine (elementChange_none fun r r' heq heq' => ?_).2 ?_
  · cases heq
    cases heq'
    exact ⟨tidy_normalizeFieldForDiff before, tidy_normalizeFieldForDiff after,
      h.readable _ _ _ hr hr'⟩
  · have hsame : SameElement ignoreFields _ _ := hunchanged
    rwa [hr, hr'] at hsame

/-- The changes of the fields are reported. -/
lemma reports_fields (fmt : NumberFormat) (hcurrent : current.Unique) (htarget : target.Unique)
    (h : Legible c ignoreFields current target) :
    Reports ignoreFields current target (fun e => ∃ objectName name, e = .field objectName name)
      (fieldChanges fmt c ignoreFields (indexSnapshot current).fields
        (indexSnapshot target).fields) := by
  have hleads (o f : Units) (hdotless : Dotless o f) :
      Leads normalizeFieldForDiff fieldAddress current target (indexSnapshot current).fields
        (indexSnapshot target).fields (dotted o f) (.field o f) := by
    refine ⟨rfl, fun _ _ _ _ => ?_, ?_, ?_⟩
    · simp [MetadataRuntimeChange.element, Address.change, fieldAddress, splitOn_dotted hdotless]
    · rw [MetadataRuntimeSnapshot.index_dotless hcurrent h.currentIdentities hdotless,
        MetadataRuntimeSnapshot.normalised_field]
    · rw [MetadataRuntimeSnapshot.index_dotless htarget h.targetIdentities hdotless,
        MetadataRuntimeSnapshot.normalised_field]
  -- an identity in a map is that of a field of its snapshot
  have hown {s : MetadataRuntimeSnapshot} (hs : s.Unique) (hid : s.identities.Nodup)
      {identity : Units} {field : MetadataRuntimeField}
      (hfield : (indexSnapshot s).fields.lookup identity = some field) :
      ∃ o f, identity = dotted o f ∧ s.field o f ≠ none := by
    obtain ⟨object, hobject, hmem, rfl⟩ := (MetadataRuntimeSnapshot.index_fields hid).1 hfield
    have hsome := (MetadataRuntimeSnapshot.field_eq_some hs).2 ⟨object, hobject, rfl, hmem, rfl⟩
    exact ⟨_, _, rfl, by rw [hsome]; exact nofun⟩
  have hone (o f : Units) (hfield : current.field o f ≠ none ∨ target.field o f ≠ none) :
      (∃ e, (∃ objectName name, e = .field objectName name) ∧
        Leads normalizeFieldForDiff fieldAddress current target (indexSnapshot current).fields
          (indexSnapshot target).fields (dotted o f) e) ∨
      elementChange fmt c (fieldAddress (dotted o f))
        (((indexSnapshot current).fields.lookup (dotted o f)).map normalizeFieldForDiff)
        (((indexSnapshot target).fields.lookup (dotted o f)).map normalizeFieldForDiff) ignoreFields
        ignoreFields = none := by
    by_cases hdotless : Dotless o f
    · exact .inl ⟨_, ⟨o, f, rfl⟩, hleads o f hdotless⟩
    · exact .inr (dotted_unchanged hcurrent htarget h hdotless hfield)
  apply reports_keys
  · rintro e ⟨o, f, rfl⟩
    rfl
  · exact h.readable
  · intro identity
    cases hbefore : (indexSnapshot current).fields.lookup identity with
    | some field =>
      obtain ⟨o, f, rfl, hfield⟩ := hown hcurrent h.currentIdentities hbefore
      rw [← hbefore]
      exact hone o f (.inl hfield)
    | none =>
      cases hafter : (indexSnapshot target).fields.lookup identity with
      | some field =>
        obtain ⟨o, f, rfl, hfield⟩ := hown htarget h.targetIdentities hafter
        rw [← hbefore, ← hafter]
        exact hone o f (.inr hfield)
      | none => exact .inr rfl
  · rintro e ⟨o, f, rfl⟩ hdiffer
    by_cases hdotless : Dotless o f
    · exact ⟨dotted o f, hleads o f hdotless⟩
    · exact absurd (h.dotted o f hdotless) hdiffer

end reports

end NexusClaw.MetadataRuntime
