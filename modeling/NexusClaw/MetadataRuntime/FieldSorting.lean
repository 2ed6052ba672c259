import NexusClaw.MetadataRuntime.FileOrder

/-!
# Sorting the fields of an object

Sorting the fields of an object compares names, and only a string can be compared with what stands
before it: a comparison that may throw. Where it never does, the fields are sorted as by a total order.
-/

namespace NexusClaw.MetadataRuntime

open AuditChain

/-! ## Sorting with a comparison that may throw -/

section sort
variable {α ε : Type} {isBefore : α → α → Except ε Bool} {le : α → α → Bool}

/-- A place for an element that can be compared with all of the sorted ones. -/
lemma place_ok (htotal : ∀ a b, le a b = true ∨ le b a = true)
    (htrans : ∀ a b d, le a b = true → le b d = true → le a d = true) {x : α} {placed : List α}
    (h : ∀ y ∈ placed, isBefore x y = .ok (!le y x))
    (hsorted : placed.Pairwise fun later earlier => le earlier later = true) :
    ∃ result, place isBefore x placed = .ok result ∧ result.Perm (x :: placed) ∧
      result.Pairwise fun later earlier => le earlier later = true := by
  induction placed with
  | nil => exact ⟨[x], rfl, List.Perm.refl _, List.pairwise_singleton _ _⟩
  | cons last rest ih =>
    obtain ⟨hlast, hrest⟩ := List.forall_mem_cons.1 h
    obtain ⟨hbelow, hsorted⟩ := List.pairwise_cons.1 hsorted
    unfold place
    rw [hlast]
    cases hle : le last x with
    | true =>
      refine ⟨x :: last :: rest, rfl, List.Perm.refl _, ?_⟩
      refine List.pairwise_cons.2 ⟨?_, List.pairwise_cons.2 ⟨hbelow, hsorted⟩⟩
      exact List.forall_mem_cons.2 ⟨hle, fun y hy => htrans y last x (hbelow y hy) hle⟩
    | false =>
      obtain ⟨result, hresult, hperm, hpairwise⟩ := ih hrest hsorted
      refine ⟨last :: result, ?_, ?_, ?_⟩
      · rw [hresult]
        rfl
      · exact (hperm.cons last).trans (List.Perm.swap x last rest)
      · refine List.pairwise_cons.2 ⟨fun y hy => ?_, hpairwise⟩
        rcases List.mem_cons.1 (hperm.mem_iff.1 hy) with rfl | hy
        · exact (htotal y last).resolve_right (by simp [hle])
        · exact hbelow y hy

/-- Elements that can each be compared with the ones before are sorted. -/
lemma sortBy_ok (htotal : ∀ a b, le a b = true ∨ le b a = true)
    (htrans : ∀ a b d, le a b = true → le b d = true → le a d = true) {xs : List α}
    (h : xs.Pairwise fun y x => isBefore x y = .ok (!le y x)) :
    ∃ sorted, sortBy isBefore xs = .ok sorted ∧ sorted.Perm xs ∧
      sorted.Pairwise fun a b => le a b = true := by
  have hplaced : ∃ placed, xs.foldlM (fun placed x => place isBefore x placed) [] = .ok placed ∧
      placed.Perm xs ∧ placed.Pairwise fun later earlier => le earlier later = true := by
    induction xs using List.reverseRecOn with
    | nil => exact ⟨[], rfl, List.Perm.refl _, .nil⟩
    | append_singleton xs x ih =>
      obtain ⟨hxs, -, hx⟩ := List.pairwise_append.1 h
      obtain ⟨placed, hplaced, hperm, hsorted⟩ := ih hxs
      have hcompared (y : α) (hy : y ∈ placed) : isBefore x y = .ok (!le y x) :=
        hx y (hperm.mem_iff.1 hy) x (List.mem_singleton_self _)
      obtain ⟨result, hresult, hperm', hsorted'⟩ := place_ok htotal htrans hcompared hsorted
      refine ⟨result, ?_, ?_, hsorted'⟩
      · rw [List.foldlM_append, hplaced]
        exact (bind_pure _).trans hresult
      · exact hperm'.trans ((hperm.cons x).trans (List.perm_append_singleton x xs).symm)
  obtain ⟨placed, hplaced, hperm, hsorted⟩ := hplaced
  refine ⟨placed.reverse, ?_, (List.reverse_perm _).trans hperm, List.pairwise_reverse.2 hsorted⟩
  unfold sortBy
  rw [hplaced]
  rfl

/-- A list with an element placed in it is not empty. -/
lemma place_ne_nil {x : α} {placed result : List α} (h : place isBefore x placed = .ok result) :
    result ≠ [] := by
  cases placed with
  | nil => exact Except.ok.inj h ▸ List.cons_ne_nil _ _
  | cons last rest =>
    unfold place at h
    cases hcompared : isBefore x last with
    | error e =>
      rw [hcompared] at h
      cases h
    | ok before =>
      rw [hcompared] at h
      cases before with
      | false => exact Except.ok.inj h ▸ List.cons_ne_nil _ _
      | true =>
        cases hrest : place isBefore x rest with
        | error e =>
          simp [hrest, bind, Except.bind] at h
        | ok placed =>
          simp only [hrest, bind, Except.bind, if_true] at h
          exact Except.ok.inj h ▸ List.cons_ne_nil _ _

/-- An element after the first one that cannot be compared is in the way. -/
lemma sortBy_throws {first : α} {rest : List α}
    (h : ∃ x ∈ rest, ∀ y, ∃ error, isBefore x y = .error error) :
    ∃ error, sortBy isBefore (first :: rest) = .error error := by
  have hfold (placed : List α) (hplaced : placed ≠ []) :
      ∃ error, rest.foldlM (fun placed x => place isBefore x placed) placed = .error error := by
    -- induction on what has not been placed yet
    induction rest generalizing placed with
    | nil =>
      obtain ⟨x, hx, -⟩ := h
      cases hx
    | cons next rest ih =>
      rw [List.foldlM_cons]
      cases hnext : place isBefore next placed with
      | error error => exact ⟨error, rfl⟩
      | ok placed' =>
        obtain ⟨x, hx, hthrows⟩ := h
        rcases List.mem_cons.1 hx with rfl | hx
        · cases placed with
          | nil => exact absurd rfl hplaced
          | cons last others =>
            obtain ⟨error, herror⟩ := hthrows last
            unfold place at hnext
            rw [herror] at hnext
            cases hnext
        · exact ih ⟨x, hx, hthrows⟩ placed' (place_ne_nil hnext)
  obtain ⟨error, herror⟩ := hfold [first] (List.cons_ne_nil _ _)
  refine ⟨error, ?_⟩
  unfold sortBy
  rw [List.foldlM_cons]
  simp only [place, bind, Except.bind]
  rw [herror]

end sort

/-! ## Fields under their names -/

def IsText (name : JsonValue) : Prop :=
  ∃ s, name = .str s

/-- A field definition under the name that it has. -/
structure Named (field : JsonValue × JsonRecord) : Prop where
  name : field.2.lookup (units "name") = some field.1
  truthy : truthy (some field.1) = true

/-- A field with a name is named. -/
lemma named_of_namedField {record : JsonRecord} {name : JsonValue}
    (h : namedField record = some name) : Named (name, record) := by
  obtain ⟨hname, htruthy⟩ := Option.filter_eq_some_iff.1 h
  exact ⟨hname, htruthy⟩

section named
variable {p : Platform} {file : MetadataRuntimeLoadedFile} {reading : Reading} {name : Units}
  {path : Units} {document : JsonRecord} {envelope : Envelope}

/-- The fields that a document defines are named. -/
lemma readDocument_named (hread : readDocument path document envelope = .ok reading) :
    ∀ field ∈ reading.definitions name, Named field := by
  cases reading with
  | object other payload =>
    intro field hfield
    unfold Reading.definitions at hfield
    dsimp only at hfield
    split at hfield
    · obtain ⟨v, -, hv⟩ := List.mem_filterMap.1 hfield
      obtain ⟨record, -, hrecord⟩ := Option.bind_eq_some_iff.1 hv
      obtain ⟨fieldName, hname, rfl⟩ := Option.map_eq_some_iff.1 hrecord
      exact named_of_namedField hname
    · cases hfield
  | field objectName fieldName record =>
    have hnamed : Named (fieldName, record) := by
      unfold readDocument at hread
      split at hread
      · split at hread
        · cases hread
        · split at hread
          · cases hread
          · rename_i hname
            cases hread
            have hpayload := named_of_namedField hname
            refine ⟨?_, hpayload.truthy⟩
            exact (lookup_normalize (by decide) (by decide)).trans hpayload.name
      · split at hread
        · cases hread
        · split at hread <;> cases hread
    intro field hfield
    unfold Reading.definitions at hfield
    dsimp only at hfield
    split at hfield
    · rwa [List.mem_singleton.1 hfield]
    · cases hfield
  | component kind payload => exact nofun

/-- So are the fields that a file defines. -/
lemma readFile_named (hread : (readFile file).2 = some reading) :
    ∀ field ∈ reading.definitions name, Named field := by
  unfold readFile at hread
  dsimp only at hread
  split at hread
  · cases hread
  · split at hread
    · cases hread
    · split at hread
      · cases hread
      · rename_i hdocument
        cases hread
        exact readDocument_named hdocument

/-! ## Sorting fields -/

/-- The text that a field is sorted by. -/
def shownName (p : Platform) (field : JsonRecord) : Units :=
  p.texts.textOf ((field.lookup (units "name")).getD .null)

def nameLe (p : Platform) (left right : JsonRecord) : Bool :=
  p.collation.le (shownName p left) (shownName p right)

/-- Two texts are compared by the collation. -/
lemma nameBefore_text {left right : JsonRecord} {s : Units} {v : JsonValue}
    (hleft : left.lookup (units "name") = some (.str s))
    (hright : right.lookup (units "name") = some v) :
    nameBefore p left right = .ok (!nameLe p right left) := by
  unfold nameBefore nameLe shownName
  rw [hleft, hright, Option.getD_some, Option.getD_some, p.texts.textOf_str]

/-- A name that is no text has no `localeCompare`. -/
lemma nameBefore_throws {left : JsonRecord} {v : JsonValue}
    (hleft : left.lookup (units "name") = some v) (hv : ¬ IsText v) (right : JsonRecord) :
    ∃ error, nameBefore p left right = .error error := by
  unfold nameBefore
  rw [hleft]
  cases v with
  | str s => exact absurd ⟨s, rfl⟩ hv
  | null => exact ⟨_, rfl⟩
  | bool b => exact ⟨_, rfl⟩
  | num n => exact ⟨_, rfl⟩
  | arr vs => exact ⟨_, rfl⟩
  | obj fs => exact ⟨_, rfl⟩

/-- Fields of which only the first one may have a name that is not a string are sorted. -/
lemma sortFields_ok {kept : List (JsonValue × JsonRecord)} (hnamed : ∀ field ∈ kept, Named field)
    (h : ∀ field ∈ kept.tail, IsText field.1) :
    ∃ sorted, sortBy (nameBefore p) (kept.map Prod.snd) = .ok sorted ∧
      sorted.Perm (kept.map Prod.snd) ∧ sorted.Pairwise fun a b => nameLe p a b = true := by
  have htotal (a b : JsonRecord) : nameLe p a b = true ∨ nameLe p b a = true :=
    p.collation.total _ _
  have htrans (a b d : JsonRecord) (hab : nameLe p a b = true) (hbd : nameLe p b d = true) :
      nameLe p a d = true := p.collation.trans _ _ _ hab hbd
  refine sortBy_ok htotal htrans ?_
  rw [List.pairwise_map]
  cases kept with
  | nil => exact .nil
  | cons first rest =>
    have hcompare (field other : JsonValue × JsonRecord) (hfield : field ∈ rest)
        (hother : other ∈ first :: rest) :
        nameBefore p field.2 other.2 = .ok (!nameLe p other.2 field.2) := by
      obtain ⟨s, hs⟩ := h field hfield
      have hname := (hnamed field (List.mem_cons_of_mem _ hfield)).name
      rw [hs] at hname
      exact nameBefore_text hname (hnamed other hother).name
    refine List.pairwise_cons.2 ⟨fun field hfield => ?_, ?_⟩
    · exact hcompare field first hfield (List.mem_cons_self ..)
    · refine List.pairwise_of_forall_mem_list fun other hother field hfield => ?_
      exact hcompare field other hfield (List.mem_cons_of_mem _ hother)

/-- The fields can be sorted if and only if all names but the first are texts. -/
lemma sortFields_iff {kept : List (JsonValue × JsonRecord)} (hnamed : ∀ field ∈ kept, Named field) :
    (∃ sorted, sortBy (nameBefore p) (kept.map Prod.snd) = .ok sorted) ↔
      ∀ field ∈ kept.tail, IsText field.1 := by
  constructor
  · rintro ⟨sorted, hsorted⟩
    intro field hfield
    by_contra htext
    cases kept with
    | nil => cases hfield
    | cons first rest =>
      have hname := (hnamed field (List.mem_cons_of_mem _ hfield)).name
      have hthrows : ∃ error, sortBy (nameBefore p) (first.2 :: rest.map Prod.snd) = .error error :=
        sortBy_throws ⟨field.2, List.mem_map_of_mem hfield, nameBefore_throws hname htext⟩
      obtain ⟨error, herror⟩ := hthrows
      rw [List.map_cons, herror] at hsorted
      cases hsorted
  · intro h
    obtain ⟨sorted, hsorted, -⟩ := sortFields_ok (p := p) hnamed h
    exact ⟨sorted, hsorted⟩

end named

/-! ## The order of the fields of an object -/

/-- In some order of the readings, a field comes after the first one of an object: both are in one
document, or in two that do not both define the object. -/
def MayFollow (rs : List Reading) (name : Units) (first field : JsonValue × JsonRecord) : Prop :=
  (∃ reading ∈ rs, (reading.definitions name).head? = some first ∧
    field ∈ (reading.definitions name).tail) ∨
  ∃ reading other, [reading, other].Subperm rs ∧
    ¬ (reading.Defines name ∧ other.Defines name) ∧
    (reading.definitions name).head? = some first ∧ field ∈ other.definitions name

section order
variable {name : Units} {defined : Bool} {rs : List Reading}

/-- What may follow among some readings may follow among more. -/
lemma MayFollow.mono {rs' : List Reading} {first field : JsonValue × JsonRecord}
    (h : MayFollow rs name first field) (hsub : rs.Subperm rs') : MayFollow rs' name first field := by
  rcases h with ⟨reading, hreading, htail⟩ | ⟨reading, other, hpair, hfollow⟩
  · exact .inl ⟨reading, hsub.subset hreading, htail⟩
  · exact .inr ⟨reading, other, hpair.trans hsub, hfollow⟩

/-- A file defines its fields unless an earlier object file has defined them. -/
lemma effective_cons (name : Units) (defined : Bool) (reading : Reading) (rs : List Reading) :
    effective name defined (reading :: rs) =
      (if reading.Defines name ∧ defined = true then [] else reading.definitions name) ++
        effective name (defined || decide (reading.Defines name)) rs := by
  rw [effective]
  by_cases hdefines : reading.Defines name
  · cases defined <;> simp [hdefines]
  · simp [hdefines]

/-- A field that takes effect is defined by one of the files. -/
lemma mem_effective {field : JsonValue × JsonRecord} (h : field ∈ effective name defined rs) :
    ∃ reading ∈ rs, field ∈ reading.definitions name ∧
      ¬ (defined = true ∧ reading.Defines name) := by
  induction rs generalizing defined with
  | nil => cases h
  | cons reading rs ih =>
    rw [effective_cons] at h
    rcases List.mem_append.1 h with h | h
    · split at h
      · cases h
      · rename_i hdefines
        exact ⟨reading, List.mem_cons_self .., h, fun hboth => hdefines hboth.symm⟩
    · obtain ⟨other, hother, hmem, hdefines⟩ := ih h
      refine ⟨other, List.mem_cons_of_mem _ hother, hmem, fun hboth => hdefines ⟨?_, hboth.2⟩⟩
      rw [hboth.1, Bool.true_or]

/-- What comes after the first field may do so. -/
lemma effective_follows {first : JsonValue × JsonRecord} {tail : List (JsonValue × JsonRecord)}
    (h : effective name defined rs = first :: tail) : ∀ field ∈ tail, MayFollow rs name first field := by
  -- induction on the readings, with what those before have defined
  induction rs generalizing defined with
  | nil => cases h
  | cons reading rs ih =>
    have hlater : rs.Subperm (reading :: rs) := (List.sublist_cons_self reading rs).subperm
    rw [effective_cons] at h
    intro field hfield
    split at h
    · exact (ih h field hfield).mono hlater
    · cases hdefinitions : reading.definitions name with
      | nil =>
        rw [hdefinitions, List.nil_append] at h
        exact (ih h field hfield).mono hlater
      | cons head others =>
        rw [hdefinitions, List.cons_append] at h
        obtain ⟨rfl, rfl⟩ := List.cons.inj h
        rcases List.mem_append.1 hfield with hfield | hfield
        · refine .inl ⟨reading, List.mem_cons_self .., ?_, ?_⟩
          · rw [hdefinitions]
            rfl
          · rw [hdefinitions]
            exact hfield
        · obtain ⟨other, hother, hmem, hboth⟩ := mem_effective hfield
          refine .inr ⟨reading, other, ?_, fun hdefines => ?_, ?_, hmem⟩
          · exact (List.subperm_cons reading).2 (List.singleton_subperm_iff.2 hother)
          · refine hboth ⟨?_, hdefines.2⟩
            rw [decide_eq_true hdefines.1, Bool.or_true]
          · rw [hdefinitions]
            rfl

/-- Some of what is read can be read first. -/
lemma read_first {α β : Type} {f : α → Option β} {ys : List β} {xs : List α}
    (h : ys.Subperm (xs.filterMap f)) :
    ∃ xs' : List α, xs'.Perm xs ∧ ys <+: xs'.filterMap f := by
  induction ys generalizing xs with
  | nil => exact ⟨xs, List.Perm.refl _, List.nil_prefix⟩
  | cons y ys ih =>
    obtain ⟨x, hx, hy⟩ := List.mem_filterMap.1 (h.subset (List.mem_cons_self ..))
    obtain ⟨before, after, rfl⟩ := List.append_of_mem hx
    have hperm : (x :: (before ++ after)).Perm (before ++ x :: after) := List.perm_middle.symm
    have hrest : ys.Subperm ((before ++ after).filterMap f) := by
      rw [← List.subperm_cons y, ← List.filterMap_cons_some hy]
      exact h.trans (hperm.symm.filterMap f).subperm
    obtain ⟨xs', hxs', hprefix⟩ := ih hrest
    refine ⟨x :: xs', (hxs'.cons x).trans hperm, ?_⟩
    rw [List.filterMap_cons_some hy]
    exact List.cons_prefix_cons.2 ⟨rfl, hprefix⟩

/-- What may follow does so in some order. -/
lemma MayFollow.order {α : Type} {f : α → Option Reading} {xs : List α}
    {first field : JsonValue × JsonRecord} (h : MayFollow (xs.filterMap f) name first field) :
    ∃ xs' : List α, xs'.Perm xs ∧ ∃ tail, effective name false (xs'.filterMap f) = first :: tail ∧
      field ∈ tail := by
  rcases h with ⟨reading, hreading, hhead, htail⟩ | ⟨reading, other, hpair, hboth, hhead, hmem⟩
  · obtain ⟨others, hothers⟩ := List.head?_eq_some_iff.1 hhead
    obtain ⟨xs', hperm, rest, hrest⟩ := read_first (List.singleton_subperm_iff.2 hreading)
    have hfirst : effective name false (xs'.filterMap f) =
        first :: (others ++ effective name (false || decide (reading.Defines name)) rest) := by
      rw [← hrest, List.singleton_append, effective_cons, if_neg (by simp), hothers,
        List.cons_append]
    rw [hothers] at htail
    exact ⟨xs', hperm, _, hfirst, List.mem_append_left _ htail⟩
  · obtain ⟨others, hothers⟩ := List.head?_eq_some_iff.1 hhead
    obtain ⟨xs', hperm, rest, hrest⟩ := read_first hpair
    have hsecond : effective name false (xs'.filterMap f) =
        first :: (others ++ (other.definitions name ++ effective name
          (false || decide (reading.Defines name) || decide (other.Defines name)) rest)) := by
      rw [← hrest, List.cons_append, List.singleton_append, effective_cons, effective_cons,
        if_neg (by simp), if_neg (by simpa [and_comm] using hboth), hothers, List.cons_append]
    refine ⟨xs', hperm, _, hsecond, ?_⟩
    exact List.mem_append_right _ (List.mem_append_left _ hmem)

/-- What is kept of fields has a text after the first one just where each of the fields after the first
one has a text or the name of the first one. -/
lemma Adds.texts_iff {kept ds : List (JsonValue × JsonRecord)} (h : Adds [] kept ds)
    (hdistinct : KeysDistinct kept) :
    (∀ field ∈ kept.tail, IsText field.1) ↔
      ∀ first tail, ds = first :: tail →
        ∀ field ∈ tail, IsText field.1 ∨ sameKey first.1 field.1 = true := by
  have hhead := h.head rfl
  -- the first field kept has no say, whether or not it has a text
  cases kept with
  | nil =>
    refine iff_of_true nofun fun first tail hds => ?_
    rw [hds] at hhead
    cases hhead
  | cons first rest =>
    obtain ⟨tail, rfl⟩ := List.head?_eq_some_iff.1 hhead.symm
    constructor
    · rintro htexts first' tail' heq field hfield
      obtain ⟨rfl, rfl⟩ := List.cons.inj heq
      have hown := h.own
      by_cases hkey : OwnKey field
      · have hrest : field ∈ rest.filter OwnKey := by
          rw [List.filter_cons, List.filter_cons] at hown
          have htails : rest.filter OwnKey = tail.filter OwnKey := by
            split at hown
            · exact (List.cons.inj hown).2
            · exact hown
          rw [htails]
          exact List.mem_filter.2 ⟨hfield, decide_eq_true hkey⟩
        exact .inl (htexts field (List.mem_of_mem_filter hrest))
      · obtain ⟨other, hother, hsame⟩ := h.covers field (List.mem_cons_of_mem _ hfield) hkey
        rcases List.mem_cons.1 hother with rfl | hother
        · exact .inr hsame
        · obtain ⟨s, hs⟩ := htexts other hother
          refine .inl ?_
          rw [hs] at hsame
          revert hsame
          cases field.1 with
          | str t => exact fun _ => ⟨t, rfl⟩
          | null => exact nofun
          | bool b => exact nofun
          | num n => exact nofun
          | arr vs => exact nofun
          | obj fs => exact nofun
    · intro hfollow field hfield
      have hsub : rest.Sublist tail := List.cons_sublist_cons.1 h.sublist
      refine (hfollow first tail rfl field (hsub.subset hfield)).resolve_right fun hsame => ?_
      have hdifferent := (List.pairwise_cons.1 hdistinct).1 field hfield
      cases hdifferent.symm.trans hsame

end order

end NexusClaw.MetadataRuntime
