import NexusClaw.MetadataRuntime.Faithful

/-!
# Applying a diff

The changes applied one after the other to the current snapshot, the counts of the summary, and the
main result: the diff of two legible snapshots with unique names is faithful.
-/

namespace NexusClaw.MetadataRuntime

open AuditChain

/-! ## Applying changes -/

section apply
variable {state goal : Element → Option Record} {change : MetadataRuntimeChange}
  {changes : List MetadataRuntimeChange} {e : Element}

/-- A change that fits the state goes through and leaves what it leaves of its element. -/
lemma applyChange_fits (helement : change.element = some e)
    (hfits : change.Fits (state e) (goal e)) :
    applyChange state change = some (Function.update state e change.result) := by
  unfold MetadataRuntimeChange.Fits at hfits
  simp only [applyChange, helement, MetadataRuntimeChange.result]
  cases haction : change.action with
  | create =>
    rw [haction] at hfits
    rw [hfits.1]
  | update =>
    rw [haction] at hfits
    obtain ⟨r, hr⟩ := Option.ne_none_iff_exists'.1 hfits.1
    rw [hr]
  | delete =>
    rw [haction] at hfits
    obtain ⟨r, hr⟩ := Option.ne_none_iff_exists'.1 hfits.1
    rw [hr]

/-- Changes of elements that are met once each, which fit the state and leave what `goal` has, go
through one after the other: an element that one of them is addressed to is then as in `goal`, another
one as before. -/
lemma foldlM_applyChange
    (h : ∀ change ∈ changes, ∃ e, change.element = some e ∧ change.result = goal e ∧
      change.Fits (state e) (goal e))
    (honce : (changes.map (·.element)).Nodup) :
    ∃ result, changes.foldlM applyChange state = some result ∧ ∀ e, result e = goal e ∨
      result e = state e ∧ ∀ change ∈ changes, change.element ≠ some e := by
  induction changes generalizing state with
  | nil => exact ⟨state, rfl, fun e => .inr ⟨rfl, nofun⟩⟩
  | cons change changes ih =>
    obtain ⟨hchange, hchanges⟩ := List.forall_mem_cons.1 h
    obtain ⟨e', helement, hresult, hfits⟩ := hchange
    obtain ⟨hnew, honce⟩ := List.nodup_cons.1 honce
    have hstep := applyChange_fits helement hfits
    rw [hresult] at hstep
    -- the later changes find their elements as they were: this one is not among them
    have hlater : ∀ later ∈ changes, ∃ e, later.element = some e ∧ later.result = goal e ∧
        later.Fits (Function.update state e' (goal e') e) (goal e) := by
      intro later hmem
      obtain ⟨e, helement', hresult', hfits'⟩ := hchanges later hmem
      have hne : e ≠ e' := by
        rintro rfl
        exact hnew (List.mem_map.2 ⟨later, hmem, helement'.trans helement.symm⟩)
      refine ⟨e, helement', hresult', ?_⟩
      rwa [Function.update_of_ne hne]
    obtain ⟨result, hfold, hall⟩ := ih hlater honce
    refine ⟨result, ?_, fun e => ?_⟩
    · rw [List.foldlM_cons, hstep]
      exact hfold
    · rcases hall e with hgoal | ⟨hstate, hnone⟩
      · exact .inl hgoal
      · by_cases he : e = e'
        · subst he
          rw [Function.update_self] at hstate
          exact .inl hstate
        · rw [Function.update_of_ne he] at hstate
          refine .inr ⟨hstate, List.forall_mem_cons.2 ⟨fun heq => he ?_, hnone⟩⟩
          rw [helement] at heq
          exact (Option.some.inj heq).symm

end apply

/-- An element is the same as itself. -/
lemma sameElement_refl {ignored : List Units} {r : Option Record} (h : ∀ r', r = some r' → Tidy r') :
    SameElement ignored r r := by
  cases r with
  | none => trivial
  | some r =>
    intro key hkey
    cases hv : get r key with
    | none => trivial
    | some v =>
      have hdistinct := distinct_get (h r rfl) hv
      exact (JsonValue.same_iff_normal hdistinct hdistinct).2 rfl

/-- What is reported leads from the one snapshot to the other. -/
lemma Reports.applied {ignoreFields : List Units} {current target : MetadataRuntimeSnapshot}
    {changes : List MetadataRuntimeChange}
    (h : Reports ignoreFields current target (fun _ => True) changes) :
    ∃ result, changes.foldlM applyChange current.normalised = some result ∧
      ∀ e, SameElement (e.ignored ignoreFields) (result e) (target.normalised e) := by
  have hresults : ∀ change ∈ changes, ∃ e, change.element = some e ∧
      change.result = target.normalised e ∧
      change.Fits (current.normalised e) (target.normalised e) := by
    intro change hmem
    obtain ⟨e, -, helement, hresult, hfits, -⟩ := h.sound change hmem
    exact ⟨e, helement, hresult, hfits⟩
  obtain ⟨result, hfold, hall⟩ := foldlM_applyChange hresults h.once
  refine ⟨result, hfold, fun e => ?_⟩
  rcases hall e with hgoal | ⟨hstate, hnone⟩
  · rw [hgoal]
    exact sameElement_refl fun _ hr => MetadataRuntimeSnapshot.tidy_normalised hr
  · rw [hstate]
    by_contra hdiffer
    obtain ⟨change, hmem, helement⟩ := h.complete e trivial hdiffer
    exact hnone change hmem helement

/-- An element is reported exactly when it differs. -/
lemma Reports.reported {ignoreFields : List Units} {current target : MetadataRuntimeSnapshot}
    {changes : List MetadataRuntimeChange}
    (h : Reports ignoreFields current target (fun _ => True) changes) (e : Element) :
    (∃ change ∈ changes, change.element = some e) ↔ ¬ Unchanged ignoreFields current target e := by
  constructor
  · rintro ⟨change, hmem, helement⟩
    obtain ⟨e', -, helement', -, -, hdiffer⟩ := h.sound change hmem
    rw [helement] at helement'
    cases helement'
    exact hdiffer
  · exact h.complete e trivial

/-- The action of a change is the one that the sides of its element call for. -/
lemma Reports.fits {ignoreFields : List Units} {current target : MetadataRuntimeSnapshot}
    {changes : List MetadataRuntimeChange}
    (h : Reports ignoreFields current target (fun _ => True) changes) :
    ∀ change ∈ changes, ∀ e, change.element = some e →
      change.Fits (current.normalised e) (target.normalised e) := by
  intro change hmem e helement
  obtain ⟨e', -, helement', -, hfits, -⟩ := h.sound change hmem
  rw [helement] at helement'
  cases helement'
  exact hfits

/-! ## The summary -/

section summary
variable {fmt : NumberFormat} {c : Collation} {ignoreFields : List Units} {current target : Indexed}
  {kind : ChangeKind} {changes later : List MetadataRuntimeChange}

/-- What `countChanges` counts. -/
lemma counts_countChanges (changes : List MetadataRuntimeChange) (kind : ChangeKind) :
    Counts (countChanges changes kind) kind changes := by
  have hcount (action : ChangeAction) :
      (changes.filter fun change => change.kind = kind ∧ change.action = action).length =
        (changes.map fun change => (change.kind, change.action)).count (kind, action) := by
    rw [List.count, List.countP_map, List.countP_eq_length_filter]
    refine congrArg List.length (List.filter_congr fun change _ => ?_)
    rw [Function.comp_apply, Bool.eq_iff_iff, decide_eq_true_iff, beq_iff_eq, Prod.mk.injEq]
  exact ⟨hcount .create, hcount .update, hcount .delete⟩

/-- Changes of other kinds do not count. -/
lemma countChanges_append (h : ∀ change ∈ later, change.kind ≠ kind) :
    countChanges (changes ++ later) kind = countChanges changes kind := by
  have hnone (action : ChangeAction) :
      later.filter (fun change => change.kind = kind ∧ change.action = action) = [] := by
    refine List.filter_eq_nil_iff.2 fun change hmem => ?_
    rw [decide_eq_true_iff]
    exact fun hkind => h change hmem hkind.1
  rw [countChanges, List.filter_append, List.filter_append, List.filter_append, hnone, hnone, hnone,
    List.append_nil, List.append_nil, List.append_nil]
  rfl

/-- The changes of a taxonomy name its kind. -/
lemma kind_taxonomyChanges {kind : TaxonomyKind} {before after : List (Units × MetadataRuntimeComponent)}
    {change : MetadataRuntimeChange}
    (h : change ∈ taxonomyChanges fmt c ignoreFields kind before after) :
    change.kind = .taxonomy kind := by
  obtain ⟨identity, -, hchange⟩ := List.mem_filterMap.1 h
  obtain ⟨⟨_, _, _, _, rfl⟩, -⟩ := elementChange_some hchange
  rfl

/-- The changes after the loop over the kinds. -/
lemma taxonomyLoop_changes (kinds : List TaxonomyKind) (changes : List MetadataRuntimeChange)
    (counts : List (TaxonomyKind × ActionCounts)) :
    (taxonomyLoop fmt c ignoreFields current target kinds changes counts).1 =
      changes ++ kinds.flatMap fun kind =>
        taxonomyChanges fmt c ignoreFields kind (current.taxonomy kind) (target.taxonomy kind) := by
  induction kinds generalizing changes counts with
  | nil => exact (List.append_nil _).symm
  | cons kind kinds ih => rw [taxonomyLoop, ih, List.flatMap_cons, List.append_assoc]

/-- A kind that the loop does not come to keeps its counts. -/
lemma taxonomyLoop_skip {kinds : List TaxonomyKind} {kind : TaxonomyKind} (h : kind ∉ kinds)
    (changes : List MetadataRuntimeChange) (counts : List (TaxonomyKind × ActionCounts)) :
    (taxonomyLoop fmt c ignoreFields current target kinds changes counts).2.lookup kind =
      counts.lookup kind := by
  induction kinds generalizing changes counts with
  | nil => rfl
  | cons kind' kinds ih =>
    rw [List.mem_cons, not_or] at h
    rw [taxonomyLoop, ih h.2, List.lookup_append, List.lookup_cons, beq_eq_false_iff_ne.2 h.1]
    exact Option.or_none

/-- The counts of a kind are those of all the changes: the later ones are of other kinds. -/
lemma taxonomyLoop_counts {kinds : List TaxonomyKind} (hnodup : kinds.Nodup)
    {counts : List (TaxonomyKind × ActionCounts)}
    (hcounts : ∀ kind ∈ kinds, counts.lookup kind = none) {kind : TaxonomyKind} (hkind : kind ∈ kinds)
    (changes : List MetadataRuntimeChange) :
    (taxonomyLoop fmt c ignoreFields current target kinds changes counts).2.lookup kind =
      some (countChanges (taxonomyLoop fmt c ignoreFields current target kinds changes counts).1
        (.taxonomy kind)) := by
  -- induction on the kinds that are left
  induction kinds generalizing changes counts with
  | nil => cases hkind
  | cons kind' kinds ih =>
    obtain ⟨hnew, hnodup⟩ := List.nodup_cons.1 hnodup
    rw [taxonomyLoop]
    rcases List.mem_cons.1 hkind with rfl | hlater
    · have hothers : ∀ change ∈ kinds.flatMap fun kind =>
          taxonomyChanges fmt c ignoreFields kind (current.taxonomy kind) (target.taxonomy kind),
          change.kind ≠ .taxonomy kind := by
        intro change hmem heq
        obtain ⟨kind'', hmem'', hchange⟩ := List.mem_flatMap.1 hmem
        rw [kind_taxonomyChanges hchange] at heq
        cases heq
        exact hnew hmem''
      rw [taxonomyLoop_skip hnew, taxonomyLoop_changes, countChanges_append hothers,
        List.lookup_append, hcounts kind (List.mem_cons_self ..), Option.none_or,
        List.lookup_cons_self]
    · refine ih hnodup (fun k hk => ?_) hlater _
      have hne : k ≠ kind' := fun heq => hnew (heq ▸ hk)
      rw [List.lookup_append, hcounts k (List.mem_cons_of_mem _ hk), Option.none_or,
        List.lookup_cons, beq_eq_false_iff_ne.2 hne]
      rfl

end summary

/-! ## The diff -/

/-- Changes that are reported and a summary that counts them. -/
lemma Reports.faithful {ignoreFields : List Units} {current target : MetadataRuntimeSnapshot}
    {diff : MetadataRuntimeDiff}
    (h : Reports ignoreFields current target (fun _ => True) diff.changes)
    (hobjects : diff.summary.objects = countChanges diff.changes .object)
    (hfields : diff.summary.fields = countChanges diff.changes .field)
    (htaxonomy : ∀ kind, diff.summary.taxonomy.lookup kind =
      some (countChanges diff.changes (.taxonomy kind))) :
    Faithful ignoreFields current target diff := by
  refine ⟨h.reported, h.once, h.fits, h.applied, ?_, ?_, fun kind => ?_⟩
  · rw [hobjects]
    exact counts_countChanges _ _
  · rw [hfields]
    exact counts_countChanges _ _
  · exact ⟨_, htaxonomy kind, counts_countChanges _ _⟩

/-- Every kind is in the list. -/
lemma mem_taxonomyKinds (kind : TaxonomyKind) : kind ∈ taxonomyKinds := by
  cases kind <;> decide

section diff
variable (fmt : NumberFormat) (c : Collation) (current target : MetadataRuntimeSnapshot)
  (options : MetadataRuntimeDiffOptions)

/-- The changes of the objects and of the fields. -/
def metadataChanges : List MetadataRuntimeChange :=
  objectChanges fmt c options.ignored (indexSnapshot current).objects (indexSnapshot target).objects ++
    fieldChanges fmt c options.ignored (indexSnapshot current).fields (indexSnapshot target).fields

/-- The loop over the kinds, which starts with them. -/
def kindsLoop : List MetadataRuntimeChange × List (TaxonomyKind × ActionCounts) :=
  taxonomyLoop fmt c options.ignored (indexSnapshot current) (indexSnapshot target) taxonomyKinds
    (metadataChanges fmt c current target options) []

/-- The changes of a diff, loop by loop. -/
lemma diffSnapshots_changes :
    (diffSnapshots fmt c current target options).changes =
      (kindsLoop fmt c current target options).1 := by
  rw [diffSnapshots, kindsLoop, metadataChanges]

/-- The summary of a diff, loop by loop. -/
lemma diffSnapshots_summary :
    (diffSnapshots fmt c current target options).summary =
      { objects := countChanges (metadataChanges fmt c current target options) .object
        fields := countChanges (metadataChanges fmt c current target options) .field
        taxonomy := (kindsLoop fmt c current target options).2 } := by
  rw [diffSnapshots, kindsLoop, metadataChanges]

/-- The changes of the kinds. -/
lemma kindsLoop_changes :
    (kindsLoop fmt c current target options).1 =
      metadataChanges fmt c current target options ++
        taxonomyKinds.flatMap fun kind => taxonomyChanges fmt c options.ignored kind
          ((indexSnapshot current).taxonomy kind) ((indexSnapshot target).taxonomy kind) := by
  rw [kindsLoop, taxonomyLoop_changes]

/-- The counts of a kind. -/
lemma kindsLoop_counts (kind : TaxonomyKind) :
    (kindsLoop fmt c current target options).2.lookup kind =
      some (countChanges (kindsLoop fmt c current target options).1 (.taxonomy kind)) := by
  have hnodup : taxonomyKinds.Nodup := by decide
  exact taxonomyLoop_counts hnodup (fun _ _ => rfl) (mem_taxonomyKinds kind) _

/-- The loop over the kinds adds no change of an object or of a field. -/
lemma kindsLoop_count {kind : ChangeKind} (hkind : ∀ k, ChangeKind.taxonomy k ≠ kind) :
    countChanges (kindsLoop fmt c current target options).1 kind =
      countChanges (metadataChanges fmt c current target options) kind := by
  rw [kindsLoop_changes]
  refine countChanges_append fun change hmem heq => ?_
  obtain ⟨k, -, hchange⟩ := List.mem_flatMap.1 hmem
  rw [kind_taxonomyChanges hchange] at heq
  exact hkind k heq

end diff

/-- The diff of two snapshots with unique names is faithful if it meets no name with a dot, no shared
identity and no property whose text says too little. -/
theorem diffSnapshots_faithful (fmt : NumberFormat) (c : Collation)
    {current target : MetadataRuntimeSnapshot} (options : MetadataRuntimeDiffOptions)
    (hcurrent : current.Unique) (htarget : target.Unique)
    (h : Legible c options.ignored current target) :
    Faithful options.ignored current target (diffSnapshots fmt c current target options) := by
  have hreports : Reports options.ignored current target (fun _ => True)
      (diffSnapshots fmt c current target options).changes := by
    have hobjects := reports_objects fmt hcurrent htarget h
    have hfields := reports_fields fmt hcurrent htarget h
    -- objects, fields and the kinds of the taxonomy share no element
    have hkinds : taxonomyKinds.Nodup := by decide
    have htaxonomy := Reports.flatMap hkinds
      (by rintro kind kind' e ⟨_, rfl⟩ ⟨_, heq⟩; cases heq; rfl)
      fun kind _ => reports_taxonomy fmt hcurrent htarget h kind
    have hmetadata := hobjects.append hfields (by rintro e ⟨_, rfl⟩ ⟨_, _, heq⟩; cases heq)
    have hall := hmetadata.append htaxonomy (by
      rintro e (⟨_, rfl⟩ | ⟨_, _, rfl⟩) ⟨_, _, _, heq⟩
      · cases heq
      · cases heq)
    rw [diffSnapshots_changes, kindsLoop_changes, metadataChanges]
    refine ⟨fun change hmem => ?_, fun e _ hdiffer => hall.complete e ?_ hdiffer, hall.once⟩
    · obtain ⟨e, -, hsound⟩ := hall.sound change hmem
      exact ⟨e, trivial, hsound⟩
    · cases e with
      | object name => exact .inl (.inl ⟨name, rfl⟩)
      | field o f => exact .inl (.inr ⟨o, f, rfl⟩)
      | component kind identity => exact .inr ⟨kind, mem_taxonomyKinds kind, identity, rfl⟩
  apply hreports.faithful
  · have hkind : ∀ k, ChangeKind.taxonomy k ≠ .object := nofun
    rw [diffSnapshots_summary, diffSnapshots_changes, kindsLoop_count fmt c current target options hkind]
  · have hkind : ∀ k, ChangeKind.taxonomy k ≠ .field := nofun
    rw [diffSnapshots_summary, diffSnapshots_changes, kindsLoop_count fmt c current target options hkind]
  · intro kind
    rw [diffSnapshots_summary, diffSnapshots_changes, kindsLoop_counts]

/-! ## Clear snapshots -/

/-- No property that counts has tied keys or prints like a missing one. -/
def Clear (c : Collation) (ignored : List Units) (r : Record) : Prop :=
  ∀ key v, key ∉ ignored → get r key = some v → Apart c v.defined ∧ v.defined ≠ standIn key

/-- Two clear records can be compared. -/
lemma Clear.readable {c : Collation} {ignored : List Units} {r r' : Record} (h : Clear c ignored r)
    (h' : Clear c ignored r') : Readable c ignored r r' := by
  constructor
  · intro key v w hkey hv _ _
    exact .inr (h key v hkey hv).1
  · intro key v hkey hv _
    exact (h key v hkey hv).2
  · intro key w hkey _ hw
    exact (h' key w hkey hw).2

/-- Entries that are undefined, of a property that does not count, or a text. -/
lemma clear_of_texts {c : Collation} {ignored : List Units} {r : Record}
    (h : ∀ f ∈ r, f.2 = none ∨ f.1 ∈ ignored ∨
      ∃ s, f.2 = some (.str s) ∧ JsonValue.str s ≠ standIn f.1) :
    Clear c ignored r := by
  intro key v hkey hv
  rcases h _ (mem_of_lookup (Option.join_eq_some_iff.1 hv)) with hnone | hin | ⟨s, hs, hne⟩
  · cases hnone
  · exact absurd hin hkey
  · cases hs
    exact ⟨trivial, hne⟩

/-- A snapshot in which no name has a dot and every element is clear: a check of what it lists. -/
structure MetadataRuntimeSnapshot.Clear (c : Collation) (ignoreFields : List Units)
    (s : MetadataRuntimeSnapshot) : Prop where
  identities : s.identities.Nodup
  dotless : ∀ object ∈ s.objects, ∀ field ∈ object.fields, Dotless object.nameSingular field.name
  objects : ∀ object ∈ s.objects,
    MetadataRuntime.Clear c (ignoreFields ++ [units "fields"]) (normalizeObjectForDiff object)
  fields : ∀ object ∈ s.objects, ∀ field ∈ object.fields,
    MetadataRuntime.Clear c ignoreFields (normalizeFieldForDiff field)
  components : ∀ kind, ∀ component ∈ s.components kind,
    MetadataRuntime.Clear c ignoreFields (spread component.record)

section clear
variable {c : Collation} {ignoreFields : List Units} {s current target : MetadataRuntimeSnapshot}

/-- The elements of a clear snapshot are clear. -/
lemma MetadataRuntimeSnapshot.Clear.normalised (h : s.Clear c ignoreFields) {e : Element} {r : Record}
    (hr : s.normalised e = some r) : MetadataRuntime.Clear c (e.ignored ignoreFields) r := by
  cases e with
  | object name =>
    obtain ⟨object, hobject, rfl⟩ := Option.map_eq_some_iff.1 hr
    exact h.objects object (List.mem_of_find?_eq_some hobject)
  | field o f =>
    obtain ⟨object, hobject, hr⟩ := Option.bind_eq_some_iff.1 hr
    obtain ⟨field, hfield, rfl⟩ := Option.map_eq_some_iff.1 hr
    exact h.fields object (List.mem_of_find?_eq_some hobject) field
      (List.mem_of_find?_eq_some hfield)
  | component kind identity =>
    obtain ⟨component, hcomponent, rfl⟩ := Option.map_eq_some_iff.1 hr
    exact h.components kind component (List.mem_of_find?_eq_some hcomponent)

/-- There is no field with a dot in one of its names. -/
lemma MetadataRuntimeSnapshot.Clear.absent (h : s.Clear c ignoreFields) {o f : Units}
    (hdotted : ¬ Dotless o f) : s.normalised (.field o f) = none := by
  by_contra hsome
  obtain ⟨r, hr⟩ := Option.ne_none_iff_exists'.1 hsome
  obtain ⟨object, hobject, hr⟩ := Option.bind_eq_some_iff.1 hr
  obtain ⟨field, hfield, -⟩ := Option.map_eq_some_iff.1 hr
  unfold MetadataRuntimeSnapshot.object at hobject
  have hname := List.find?_some hobject
  have hfieldname := List.find?_some hfield
  rw [decide_eq_true_iff] at hname hfieldname
  rw [← hname, ← hfieldname] at hdotted
  exact hdotted (h.dotless object (List.mem_of_find?_eq_some hobject) field
    (List.mem_of_find?_eq_some hfield))

/-- Clear snapshots are legible. -/
lemma MetadataRuntimeSnapshot.Clear.legible (hcurrent : current.Clear c ignoreFields)
    (htarget : target.Clear c ignoreFields) : Legible c ignoreFields current target := by
  refine ⟨hcurrent.identities, htarget.identities, fun o f hdotted => ?_, fun e r r' hr hr' => ?_⟩
  · unfold Unchanged
    rw [hcurrent.absent hdotted, htarget.absent hdotted]
    trivial
  · exact (hcurrent.normalised hr).readable (htarget.normalised hr')

end clear

/-! ## Objects, fields and a role -/

/-- The order of the code units. -/
def unitOrder : Collation where
  le := fun s t => decide (s.map UInt16.toNat ≤ t.map UInt16.toNat)
  total := by
    intro s t
    rw [decide_eq_true_iff, decide_eq_true_iff]
    exact le_total _ _
  trans := by
    intro s t u hst htu
    rw [decide_eq_true_iff] at *
    exact hst.trans htu

def labelledField (name label : String) : MetadataRuntimeField where
  record := [(units "name", .str (units name)), (units "label", .str (units label))]
  name := units name
  named := rfl
  distinct := by
    have hkeys : (["name", "label"].map units).Nodup := by decide
    refine JsonValue.distinct_obj.2 ⟨hkeys, ?_⟩
    simp [JsonValue.Distinct]

def labelledObject (name label : String) (fields : List MetadataRuntimeField) :
    MetadataRuntimeObject where
  record :=
    [(units "nameSingular", .str (units name)), (units "label", .str (units label)),
      (units "fields", .arr (fields.map fun field => .obj field.record))]
  nameSingular := units name
  fields := fields
  named := rfl
  fielded := rfl
  distinct := by
    have hkeys : (["nameSingular", "label", "fields"].map units).Nodup := by decide
    refine JsonValue.distinct_obj.2 ⟨hkeys, fun f hf => ?_⟩
    simp only [List.mem_cons, List.not_mem_nil, or_false] at hf
    rcases hf with rfl | rfl | rfl
    · trivial
    · trivial
    · rw [JsonValue.distinct_arr, List.forall_mem_map]
      exact fun field _ => field.distinct

def labelledRole (name label : String) : MetadataRuntimeComponent where
  record := [(units "apiName", .str (units name)), (units "label", .str (units label))]
  distinct := by
    have hkeys : (["apiName", "label"].map units).Nodup := by decide
    refine JsonValue.distinct_obj.2 ⟨hkeys, ?_⟩
    simp [JsonValue.Distinct]

/-- A snapshot of objects with their fields, and of roles, by their names and labels. -/
def snapshotOf (objects : List (String × String × List (String × String)))
    (roles : List (String × String)) : MetadataRuntimeSnapshot where
  objects := objects.map fun object =>
    labelledObject object.1 object.2.1 (object.2.2.map fun field => labelledField field.1 field.2)
  taxonomy := fun kind =>
    if kind = .roles then some (roles.map fun role => labelledRole role.1 role.2) else none

/-- A text that no missing property prints as. -/
abbrev Telling (text : String) : Prop :=
  units text ≠ units "undefined"

/-- Only the names of inherited members have another stand-in. -/
lemma telling_text {text key : String} (h : Telling text) (hkey : units key ∉ inheritedNames) :
    JsonValue.str (units text) ≠ standIn (units key) := by
  rw [standIn, if_neg hkey]
  exact fun heq => h (JsonValue.str.inj heq)

/-- A labelled field is clear. -/
lemma clear_labelledField {c : Collation} {ignored : List Units} {name label : String}
    (hname : Telling name) (hlabel : Telling label) :
    Clear c ignored (normalizeFieldForDiff (labelledField name label)) := by
  have hrecord : normalizeFieldForDiff (labelledField name label) =
      [(units "name", some (.str (units name))), (units "label", some (.str (units label))),
        (units "relationDefinition", none), (units "settings", none)] := rfl
  rw [hrecord]
  refine clear_of_texts fun f hf => ?_
  simp only [List.mem_cons, List.not_mem_nil, or_false] at hf
  rcases hf with rfl | rfl | rfl | rfl
  · exact .inr (.inr ⟨_, rfl, telling_text hname (by decide)⟩)
  · exact .inr (.inr ⟨_, rfl, telling_text hlabel (by decide)⟩)
  · exact .inl rfl
  · exact .inl rfl

/-- A labelled object is clear. -/
lemma clear_labelledObject {c : Collation} {ignoreFields : List Units} {name label : String}
    {fields : List MetadataRuntimeField} (hname : Telling name) (hlabel : Telling label) :
    Clear c (ignoreFields ++ [units "fields"])
      (normalizeObjectForDiff (labelledObject name label fields)) := by
  have hrecord : normalizeObjectForDiff (labelledObject name label fields) =
      [(units "nameSingular", some (.str (units name))), (units "label", some (.str (units label))),
        (units "fields",
          some (.arr (fields.map fun field => Value.obj (normalizeFieldForDiff field)))),
        (units "labelIdentifierFieldName", none), (units "imageIdentifierFieldName", none)] := rfl
  rw [hrecord]
  refine clear_of_texts fun f hf => ?_
  simp only [List.mem_cons, List.not_mem_nil, or_false] at hf
  rcases hf with rfl | rfl | rfl | rfl | rfl
  · exact .inr (.inr ⟨_, rfl, telling_text hname (by decide)⟩)
  · exact .inr (.inr ⟨_, rfl, telling_text hlabel (by decide)⟩)
  · exact .inr (.inl (List.mem_append_right _ (List.mem_singleton_self _)))
  · exact .inl rfl
  · exact .inl rfl

/-- A labelled role is clear. -/
lemma clear_labelledRole {c : Collation} {ignored : List Units} {name label : String}
    (hname : Telling name) (hlabel : Telling label) :
    Clear c ignored (spread (labelledRole name label).record) := by
  refine clear_of_texts fun f hf => ?_
  simp only [spread, labelledRole, List.map_cons, List.map_nil, List.mem_cons, List.not_mem_nil,
    or_false] at hf
  rcases hf with rfl | rfl
  · exact .inr (.inr ⟨_, rfl, telling_text hname (by decide)⟩)
  · exact .inr (.inr ⟨_, rfl, telling_text hlabel (by decide)⟩)

section snapshotOf
variable {objects : List (String × String × List (String × String))} {roles : List (String × String)}

/-- A snapshot of roles has no other components. -/
lemma snapshotOf_components (kind : TaxonomyKind) :
    (snapshotOf objects roles).components kind =
      if kind = .roles then roles.map fun role => labelledRole role.1 role.2 else [] := by
  unfold MetadataRuntimeSnapshot.components snapshotOf
  dsimp only
  split_ifs with hkind
  · rfl
  · rfl

/-- A snapshot in which no name comes twice. -/
lemma snapshotOf_unique (hobjects : (objects.map fun object => units object.1).Nodup)
    (hfields : ∀ object ∈ objects, (object.2.2.map fun field => units field.1).Nodup)
    (hroles : (roles.map fun role =>
      getMetadataRuntimeComponentIdentity .roles (labelledRole role.1 role.2).record).Nodup) :
    (snapshotOf objects roles).Unique := by
  constructor
  · unfold snapshotOf
    rw [List.map_map]
    exact hobjects
  · intro object hobject
    obtain ⟨named, hmem, rfl⟩ := List.mem_map.1 hobject
    have hnames := hfields named hmem
    unfold labelledObject
    rw [List.map_map]
    exact hnames
  · intro kind
    rw [snapshotOf_components]
    split_ifs with hkind
    · subst hkind
      rw [List.map_map]
      exact hroles
    · exact List.nodup_nil

/-- A snapshot of plain names and telling texts is clear. -/
lemma snapshotOf_clear (c : Collation) (ignoreFields : List Units)
    (hidentities : (snapshotOf objects roles).identities.Nodup)
    (hobjects : ∀ object ∈ objects,
      Telling object.1 ∧ Telling object.2.1 ∧ unit '.' ∉ units object.1)
    (hfields : ∀ object ∈ objects, ∀ field ∈ object.2.2,
      Telling field.1 ∧ Telling field.2 ∧ unit '.' ∉ units field.1)
    (hroles : ∀ role ∈ roles, Telling role.1 ∧ Telling role.2) :
    (snapshotOf objects roles).Clear c ignoreFields := by
  refine ⟨hidentities, ?_, ?_, ?_, ?_⟩
  · intro object hobject field hfield
    obtain ⟨named, hmem, rfl⟩ := List.mem_map.1 hobject
    obtain ⟨labelled, hlabelled, rfl⟩ := List.mem_map.1 hfield
    exact ⟨(hobjects named hmem).2.2, (hfields named hmem labelled hlabelled).2.2⟩
  · intro object hobject
    obtain ⟨named, hmem, rfl⟩ := List.mem_map.1 hobject
    obtain ⟨hname, hlabel, -⟩ := hobjects named hmem
    exact clear_labelledObject hname hlabel
  · intro object hobject field hfield
    obtain ⟨named, hmem, rfl⟩ := List.mem_map.1 hobject
    obtain ⟨labelled, hlabelled, rfl⟩ := List.mem_map.1 hfield
    obtain ⟨hname, hlabel, -⟩ := hfields named hmem labelled hlabelled
    exact clear_labelledField hname hlabel
  · intro kind component hcomponent
    rw [snapshotOf_components] at hcomponent
    split_ifs at hcomponent
    · obtain ⟨named, hmem, rfl⟩ := List.mem_map.1 hcomponent
      exact clear_labelledRole (hroles named hmem).1 (hroles named hmem).2
    · cases hcomponent

end snapshotOf

/-- An account with a name and a phone, a lead with an email, and the administrator. -/
def salesBefore : MetadataRuntimeSnapshot :=
  snapshotOf
    [("account", "Account", [("name", "Name"), ("phone", "Phone")]),
      ("lead", "Lead", [("email", "Email")])]
    [("admin", "Admin")]

/-- The account and its name have new labels, and a city is there in place of the phone; a contact is
there in place of the lead and its email; the administrator has a new label. -/
def salesAfter : MetadataRuntimeSnapshot :=
  snapshotOf
    [("account", "Client", [("name", "Client name"), ("city", "City")]), ("contact", "Contact", [])]
    [("admin", "Owner")]

/-- No name comes twice before. -/
lemma salesBefore_unique : salesBefore.Unique :=
  snapshotOf_unique (by decide) (by decide) (by decide)

/-- No name comes twice after. -/
lemma salesAfter_unique : salesAfter.Unique :=
  snapshotOf_unique (by decide) (by decide) (by decide)

/-- The snapshot before is clear. -/
lemma salesBefore_clear (c : Collation) (ignoreFields : List Units) :
    salesBefore.Clear c ignoreFields :=
  snapshotOf_clear c ignoreFields (by decide) (by decide) (by decide) (by decide)

/-- The snapshot after is clear. -/
lemma salesAfter_clear (c : Collation) (ignoreFields : List Units) :
    salesAfter.Clear c ignoreFields :=
  snapshotOf_clear c ignoreFields (by decide) (by decide) (by decide) (by decide)

/-- Creates, updates and deletes of objects and fields, and the update of a role. -/
theorem renamed_faithful :
    Faithful defaultIgnoreFields salesBefore salesAfter
      (diffSnapshots bitsFormat unitOrder salesBefore salesAfter {}) ∧
    (diffSnapshots bitsFormat unitOrder salesBefore salesAfter {}).changes.map
      (fun change => (change.action, change.element)) =
      [(.update, some (.object (units "account"))), (.delete, some (.object (units "lead"))),
        (.create, some (.object (units "contact"))),
        (.update, some (.field (units "account") (units "name"))),
        (.delete, some (.field (units "account") (units "phone"))),
        (.delete, some (.field (units "lead") (units "email"))),
        (.create, some (.field (units "account") (units "city"))),
        (.update, some (.component .roles (units "admin")))] := by
  refine ⟨diffSnapshots_faithful bitsFormat unitOrder {} salesBefore_unique salesAfter_unique ?_, ?_⟩
  · exact (salesBefore_clear unitOrder _).legible (salesAfter_clear unitOrder _)
  · decide

/-! ## A field with a dot in its name -/

def cityField : MetadataRuntimeField where
  record := [(units "name", .str (units "billing.city"))]
  name := units "billing.city"
  named := rfl
  distinct := by
    refine JsonValue.distinct_obj.2 ⟨List.nodup_singleton _, ?_⟩
    simp [JsonValue.Distinct]

/-- The object `account` with some of its fields. -/
def accountSnapshot (fields : List MetadataRuntimeField) : MetadataRuntimeSnapshot where
  objects :=
    [{ record :=
        [(units "nameSingular", .str (units "account")),
          (units "fields", .arr (fields.map fun field => .obj field.record))]
       nameSingular := units "account"
       fields := fields
       named := rfl
       fielded := rfl
       distinct := by
        have hkeys : (["nameSingular", "fields"].map units).Nodup := by decide
        refine JsonValue.distinct_obj.2 ⟨hkeys, ?_⟩
        intro f hf
        rcases List.mem_cons.1 hf with rfl | hf
        · trivial
        · rw [List.mem_singleton.1 hf, JsonValue.distinct_arr, List.forall_mem_map]
          exact fun field _ => field.distinct }]
  taxonomy := fun _ => none

/-- A snapshot of one object. -/
lemma accountSnapshot_unique {fields : List MetadataRuntimeField}
    (h : (fields.map (·.name)).Nodup) : (accountSnapshot fields).Unique := by
  refine ⟨List.nodup_singleton _, fun object hobject => ?_, fun _ => List.nodup_nil⟩
  cases List.mem_singleton.1 hobject
  exact h

/-- The new field `billing.city` is reported as the field `billing`. -/
theorem dotted_misaddressed :
    (accountSnapshot []).Unique ∧ (accountSnapshot [cityField]).Unique ∧
    ¬ Faithful defaultIgnoreFields (accountSnapshot []) (accountSnapshot [cityField])
      (diffSnapshots bitsFormat unitOrder (accountSnapshot []) (accountSnapshot [cityField]) {}) := by
  refine ⟨accountSnapshot_unique List.nodup_nil, accountSnapshot_unique (List.nodup_singleton _),
    fun hfaithful => ?_⟩
  have helements : (diffSnapshots bitsFormat unitOrder (accountSnapshot [])
      (accountSnapshot [cityField]) {}).changes.map MetadataRuntimeChange.element =
      [some (.field (units "account") (units "billing"))] := by
    decide
  have hdiffer : ¬ SameElement defaultIgnoreFields
      ((accountSnapshot []).normalised (.field (units "account") (units "billing.city")))
      ((accountSnapshot [cityField]).normalised
        (.field (units "account") (units "billing.city"))) := id
  obtain ⟨change, hmem, helement⟩ :=
    (hfaithful.reported (.field (units "account") (units "billing.city"))).2 hdiffer
  have hin := List.mem_map_of_mem (f := MetadataRuntimeChange.element) hmem
  rw [helements, helement, List.mem_singleton] at hin
  exact absurd hin (by decide)

end NexusClaw.MetadataRuntime
