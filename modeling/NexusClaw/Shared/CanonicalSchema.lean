import NexusClaw.MetadataRuntime.StableText

/-!
# Canonical JSON of page sources

`canonicalStringify` of `source-format/page-source-file.ts`. With sorted keys a replacer builds every
object anew by assignments: an own key `__proto__` sets the prototype of the new object and is no
longer a key of it. The rest of the value is written with its keys by their code units, the array
indices first, and is read back as it was (`parse_canonicalStringify`). What `JSON.parse` gives has no
key twice (`parse_distinct`).
-/

namespace NexusClaw.PageSource
open AuditChain (Units JsonValue NumberFormat Number unit units parse run settle byKey mem_byKey
  byKey_perm byKey_sorted byKey_eq_of_perm byKey_map key_toNat_injective serializeNumber setProperty
  readAfter readValue readText)
open MetadataRuntime (Collation Apart ApartKeys apart_arr apart_obj pretty pretty_arr pretty_obj
  sortKeys sortKeys_arr sortKeys_obj unsign unsign_arr unsign_obj quote quote_printable
  serializeNumber_printable block blockRest memberText line deeper parse_pretty reads_pretty run_settled blank_nil distinct_sortKeys normal_sortKeys
  normal_unsign pretty_of_same)

/-! ## The order of the keys -/

/-- Two texts compare one way or the other. -/
lemma units_le_total (s t : Units) :
    decide (s.map UInt16.toNat ≤ t.map UInt16.toNat) = true ∨
      decide (t.map UInt16.toNat ≤ s.map UInt16.toNat) = true := by
  rcases le_total (s.map UInt16.toNat) (t.map UInt16.toNat) with h | h
  · exact .inl (decide_eq_true h)
  · exact .inr (decide_eq_true h)

/-- The order of texts is transitive. -/
lemma units_le_trans (s t u : Units) (hst : decide (s.map UInt16.toNat ≤ t.map UInt16.toNat) = true)
    (htu : decide (t.map UInt16.toNat ≤ u.map UInt16.toNat) = true) :
    decide (s.map UInt16.toNat ≤ u.map UInt16.toNat) = true :=
  decide_eq_true (le_trans (of_decide_eq_true hst) (of_decide_eq_true htu))

/-- `Object.keys(value).sort()` -/
def codeUnitOrder : Collation where
  le s t := decide (s.map UInt16.toNat ≤ t.map UInt16.toNat)
  total := units_le_total
  trans := units_le_trans

/-- The code units tell all keys apart. -/
lemma apartKeys_codeUnits {keys : List Units} (hnodup : keys.Nodup) :
    ApartKeys codeUnitOrder keys := by
  refine hnodup.imp ?_
  rintro s t hne ⟨hle, hge⟩
  apply hne
  exact key_toNat_injective (le_antisymm (of_decide_eq_true hle) (of_decide_eq_true hge))

/-- Code units tell all keys apart. -/
lemma apart_codeUnits {v : JsonValue} (hv : v.Distinct) : Apart codeUnitOrder v := by
  induction v with
  | null => trivial
  | bool b => trivial
  | num n => trivial
  | str s => trivial
  | arr vs ih =>
    rw [JsonValue.distinct_arr] at hv
    rw [apart_arr]
    exact fun v hmem => ih v hmem (hv v hmem)
  | obj fields ih =>
    obtain ⟨hnodup, hfields⟩ := JsonValue.distinct_obj.1 hv
    rw [apart_obj]
    exact ⟨apartKeys_codeUnits hnodup, fun f hf => ih f hf (hfields f hf)⟩

/-! ## The key that is lost -/

/-- The key whose assignment makes no property. -/
def protoKey : Units :=
  units "__proto__"

mutual
/-- The value without the own keys `__proto__`, at every depth. -/
def withoutProto : JsonValue → JsonValue
  | .null => .null
  | .bool b => .bool b
  | .num n => .num n
  | .str s => .str s
  | .arr vs => .arr (withoutProtoAll vs)
  | .obj fields => .obj (withoutProtoFields fields)

def withoutProtoAll : List JsonValue → List JsonValue
  | [] => []
  | v :: vs => withoutProto v :: withoutProtoAll vs

def withoutProtoFields : List (Units × JsonValue) → List (Units × JsonValue)
  | [] => []
  | f :: fs => withoutProtoField f ++ withoutProtoFields fs

def withoutProtoField : Units × JsonValue → List (Units × JsonValue)
  | (key, v) => if key = protoKey then [] else [(key, withoutProto v)]
end

mutual
/-- No object has an own key `__proto__`. -/
def ProtoFree : JsonValue → Prop
  | .null => True
  | .bool _ => True
  | .num _ => True
  | .str _ => True
  | .arr vs => ProtoFreeAll vs
  | .obj fields => ProtoFreeFields fields

def ProtoFreeAll : List JsonValue → Prop
  | [] => True
  | v :: vs => ProtoFree v ∧ ProtoFreeAll vs

def ProtoFreeFields : List (Units × JsonValue) → Prop
  | [] => True
  | f :: fs => ProtoFreeField f ∧ ProtoFreeFields fs

def ProtoFreeField : Units × JsonValue → Prop
  | (key, v) => key ≠ protoKey ∧ ProtoFree v
end

/-- The members that are kept. -/
def keptFields (fields : List (Units × JsonValue)) : List (Units × JsonValue) :=
  fields.filter fun f => f.1 ≠ protoKey

/-- `__proto__` is dropped within the elements of an array. -/
@[simp] lemma withoutProto_arr (vs : List JsonValue) :
    withoutProto (.arr vs) = .arr (vs.map withoutProto) := by
  rw [withoutProto]
  refine congrArg JsonValue.arr ?_
  induction vs with
  | nil => rfl
  | cons v vs ih => rw [withoutProtoAll, ih, List.map_cons]

/-- `__proto__` is dropped from an object and within its members. -/
@[simp] lemma withoutProto_obj (fields : List (Units × JsonValue)) :
    withoutProto (.obj fields) =
      .obj ((keptFields fields).map fun f => (f.1, withoutProto f.2)) := by
  rw [withoutProto]
  refine congrArg JsonValue.obj ?_
  induction fields with
  | nil => rfl
  | cons f fs ih =>
    rw [withoutProtoFields, withoutProtoField, ih, keptFields, keptFields]
    by_cases hproto : f.1 = protoKey
    · rw [if_pos hproto, List.filter_cons_of_neg (by simp [hproto]), List.nil_append]
    · rw [if_neg hproto, List.filter_cons_of_pos (by simp [hproto]), List.map_cons,
        List.singleton_append]

/-- An array is free of `__proto__` if its elements are. -/
@[simp] lemma protoFree_arr {vs : List JsonValue} :
    ProtoFree (.arr vs) ↔ ∀ v ∈ vs, ProtoFree v := by
  rw [ProtoFree]
  induction vs with
  | nil => simp [ProtoFreeAll]
  | cons v vs ih => rw [ProtoFreeAll, ih, List.forall_mem_cons]

/-- An object is free of `__proto__` if no member has that key, and all are free. -/
@[simp] lemma protoFree_obj {fields : List (Units × JsonValue)} :
    ProtoFree (.obj fields) ↔ ∀ f ∈ fields, f.1 ≠ protoKey ∧ ProtoFree f.2 := by
  rw [ProtoFree]
  induction fields with
  | nil => simp [ProtoFreeFields]
  | cons f fs ih =>
    obtain ⟨key, v⟩ := f
    rw [ProtoFreeFields, ProtoFreeField, ih, List.forall_mem_cons]

/-- The kept members are the others. -/
lemma mem_keptFields {fields : List (Units × JsonValue)} {f : Units × JsonValue} :
    f ∈ keptFields fields ↔ f ∈ fields ∧ f.1 ≠ protoKey := by
  rw [keptFields, List.mem_filter, decide_eq_true_eq]

/-- What is left is free of `__proto__`. -/
lemma protoFree_withoutProto (v : JsonValue) : ProtoFree (withoutProto v) := by
  induction v with
  | null => trivial
  | bool b => trivial
  | num n => trivial
  | str s => trivial
  | arr vs ih =>
    rw [withoutProto_arr, protoFree_arr, List.forall_mem_map]
    exact ih
  | obj fields ih =>
    rw [withoutProto_obj, protoFree_obj, List.forall_mem_map]
    intro f hf
    obtain ⟨hmem, hkey⟩ := mem_keptFields.1 hf
    exact ⟨hkey, ih f hmem⟩

/-- A value that is free of it stays. -/
lemma withoutProto_eq {v : JsonValue} (h : ProtoFree v) : withoutProto v = v := by
  induction v with
  | null => rfl
  | bool b => rfl
  | num n => rfl
  | str s => rfl
  | arr vs ih =>
    rw [protoFree_arr] at h
    rw [withoutProto_arr, List.map_congr_left fun v hv => ih v hv (h v hv), List.map_id']
  | obj fields ih =>
    rw [protoFree_obj] at h
    have hkept : keptFields fields = fields :=
      List.filter_eq_self.2 fun f hf => decide_eq_true (h f hf).1
    have hsame : (fields.map fun f => (f.1, withoutProto f.2)) = fields.map id :=
      List.map_congr_left fun f hf => Prod.ext rfl (ih f hf (h f hf).2)
    rw [withoutProto_obj, hkept, hsame, List.map_id]

/-- Dropping members repeats no key. -/
lemma distinct_withoutProto {v : JsonValue} (hv : v.Distinct) : (withoutProto v).Distinct := by
  induction v with
  | null => trivial
  | bool b => trivial
  | num n => trivial
  | str s => trivial
  | arr vs ih =>
    rw [JsonValue.distinct_arr] at hv
    rw [withoutProto_arr, JsonValue.distinct_arr, List.forall_mem_map]
    exact fun v hmem => ih v hmem (hv v hmem)
  | obj fields ih =>
    obtain ⟨hnodup, hfields⟩ := JsonValue.distinct_obj.1 hv
    rw [withoutProto_obj, JsonValue.distinct_obj, JsonValue.keys_map, List.forall_mem_map]
    refine ⟨hnodup.sublist (List.filter_sublist.map Prod.fst), fun f hf => ?_⟩
    have hmem := (mem_keptFields.1 hf).1
    exact ih f hmem (hfields f hmem)

/-- Members are dropped before or after the sorting. -/
lemma byKey_keptFields {fields : List (Units × JsonValue)}
    (hnodup : (fields.map Prod.fst).Nodup) :
    byKey (keptFields fields) = keptFields (byKey fields) := by
  have hkept : (keptFields (byKey fields)).Perm (keptFields fields) := (byKey_perm fields).filter _
  have hnodup' : ((keptFields fields).map Prod.fst).Nodup :=
    hnodup.sublist (List.filter_sublist.map Prod.fst)
  rw [byKey_eq_of_perm hkept.symm hnodup']
  exact ((byKey_sorted fields).filter _).insertionSort_eq

/-- Leaving keys out and sorting them commute. -/
lemma normal_withoutProto {v : JsonValue} (hv : v.Distinct) :
    (withoutProto v).normal = withoutProto v.normal := by
  induction v with
  | null => rfl
  | bool b => rfl
  | num n => rfl
  | str s => rfl
  | arr vs ih =>
    rw [JsonValue.distinct_arr] at hv
    rw [withoutProto_arr, JsonValue.normal_arr, JsonValue.normal_arr, withoutProto_arr,
      List.map_map, List.map_map]
    exact congrArg JsonValue.arr (List.map_congr_left fun v hmem => ih v hmem (hv v hmem))
  | obj fields ih =>
    obtain ⟨hnodup, hfields⟩ := JsonValue.distinct_obj.1 hv
    have hkept : ∀ fs : List (Units × JsonValue),
        keptFields (fs.map fun f => (f.1, f.2.normal)) =
          (keptFields fs).map fun f => (f.1, f.2.normal) := by
      intro fs
      rw [keptFields, keptFields, List.filter_map]
      rfl
    rw [withoutProto_obj, JsonValue.normal_obj, JsonValue.normal_obj, withoutProto_obj, hkept,
      byKey_map, byKey_keptFields hnodup, List.map_map, List.map_map]
    refine congrArg JsonValue.obj (List.map_congr_left fun f hf => ?_)
    have hmem := mem_byKey.1 (mem_keptFields.1 hf).1
    exact Prod.ext rfl (ih f hmem (hfields f hmem))

/-- The normal form is free of it if the value is. -/
lemma protoFree_normal {v : JsonValue} : ProtoFree v.normal ↔ ProtoFree v := by
  induction v with
  | null => rfl
  | bool b => rfl
  | num n => rfl
  | str s => rfl
  | arr vs ih =>
    rw [JsonValue.normal_arr, protoFree_arr, protoFree_arr, List.forall_mem_map]
    exact forall₂_congr ih
  | obj fields ih =>
    rw [JsonValue.normal_obj, protoFree_obj, protoFree_obj, List.forall_mem_map]
    constructor
    · intro h f hf
      obtain ⟨hkey, hfree⟩ := h f (mem_byKey.2 hf)
      exact ⟨hkey, (ih f hf).1 hfree⟩
    · intro h f hf
      have hmem := mem_byKey.1 hf
      obtain ⟨hkey, hfree⟩ := h f hmem
      exact ⟨hkey, (ih f hmem).2 hfree⟩

/-- Without its keys `__proto__` a value is the same if and only if it has none. -/
lemma same_withoutProto {v : JsonValue} (hv : v.Distinct) :
    v.Same (withoutProto v) ↔ ProtoFree v := by
  rw [JsonValue.same_iff_normal hv (distinct_withoutProto hv)]
  constructor
  · intro h
    rw [← protoFree_normal, h, protoFree_normal]
    exact protoFree_withoutProto v
  · intro h
    rw [withoutProto_eq h]

/-! ## canonicalStringify -/

/-- `json.replace(/\r\n/g, '\n')` -/
def joinBreaks : Units → Units
  | [] => []
  | [c] => [c]
  | c :: d :: cs =>
    if c = 0x0d ∧ d = 0x0a then 0x0a :: joinBreaks cs else c :: joinBreaks (d :: cs)

/-- `json.replace(/\r\n/g, '\n').replace(/\r/g, '\n')` -/
def lineFeeds (s : Units) : Units :=
  (joinBreaks s).map fun c => if c = 0x0d then 0x0a else c

/-- The value with the objects that the replacer builds. -/
def sortKeysReplacer (v : JsonValue) : JsonValue :=
  sortKeys codeUnitOrder (withoutProto v)

/-- `canonicalStringify`; `sorted` is its option `sortKeys`. -/
def canonicalStringify (fmt : NumberFormat) (v : JsonValue) (sorted : Bool) : Units :=
  lineFeeds (pretty fmt [] (if sorted then sortKeysReplacer v else v)) ++ [0x0a]

/-! ### No carriage return in a text -/

/-- A text without carriage returns has no line ends to join. -/
lemma joinBreaks_eq {s : Units} (h : 0x0d ∉ s) : joinBreaks s = s := by
  induction s using joinBreaks.induct with
  | case1 => rfl
  | case2 c => rfl
  | case3 c d cs hbreak ih => exact absurd (hbreak.1 ▸ List.mem_cons_self) h
  | case4 c d cs hbreak ih =>
    rw [joinBreaks, if_neg hbreak, ih fun hmem => h (List.mem_cons_of_mem _ hmem)]

/-- Nor has it line ends to convert. -/
lemma lineFeeds_eq {s : Units} (h : 0x0d ∉ s) : lineFeeds s = s := by
  rw [lineFeeds, joinBreaks_eq h]
  have hsame : ∀ c ∈ s, (if c = 0x0d then 0x0a else c) = c := by
    intro c hc
    refine if_neg ?_
    rintro rfl
    exact h hc
  rw [List.map_congr_left hsame, List.map_id']

/-- A quoted text has no carriage return. -/
lemma quote_noReturn (s : Units) : 0x0d ∉ quote s :=
  fun hmem => absurd (quote_printable s _ hmem) (by decide)

/-- Nor has an indentation. -/
lemma deeper_noReturn {indent : Units} (h : 0x0d ∉ indent) : 0x0d ∉ deeper indent := by
  simpa [deeper] using h

/-- Nor has the rest of a block. -/
lemma blockRest_noReturn {indent : Units} (hindent : 0x0d ∉ indent) {ts : List Units}
    (h : ∀ t ∈ ts, 0x0d ∉ t) : 0x0d ∉ blockRest indent ts := by
  induction ts with
  | nil => exact List.not_mem_nil
  | cons t ts ih =>
    obtain ⟨ht, hts⟩ := List.forall_mem_cons.1 h
    simp [blockRest, line, hindent, ht, ih hts, unit]

/-- Nor has a block. -/
lemma block_noReturn {opening closing : UInt16} (hopen : opening ≠ 0x0d) (hclose : closing ≠ 0x0d)
    {indent : Units} (hindent : 0x0d ∉ indent) {ts : List Units} (h : ∀ t ∈ ts, 0x0d ∉ t) :
    0x0d ∉ block opening closing indent ts := by
  cases ts with
  | nil => simp [block, hopen.symm, hclose.symm]
  | cons t ts =>
    obtain ⟨ht, hts⟩ := List.forall_mem_cons.1 h
    have hrest := blockRest_noReturn (deeper_noReturn hindent) hts
    simp [block, line, hopen.symm, hclose.symm, hindent, deeper_noReturn hindent, ht, hrest]

/-- Nor has a number. -/
lemma serializeNumber_noReturn (fmt : NumberFormat) (n : Number) :
    0x0d ∉ serializeNumber fmt n :=
  fun hmem => absurd (serializeNumber_printable fmt n _ hmem) (by decide)

/-- A text of `JSON.stringify` has no carriage return. -/
lemma pretty_noReturn (fmt : NumberFormat) (v : JsonValue) {indent : Units}
    (hindent : 0x0d ∉ indent) : 0x0d ∉ pretty fmt indent v := by
  induction v generalizing indent with
  | null =>
    rw [pretty]
    decide
  | bool b => cases b <;> rw [pretty] <;> decide
  | num n =>
    rw [pretty]
    exact serializeNumber_noReturn fmt n
  | str s =>
    rw [pretty]
    exact quote_noReturn s
  | arr vs ih =>
    rw [pretty_arr]
    refine block_noReturn (by decide) (by decide) hindent ?_
    rw [List.forall_mem_map]
    exact fun v hmem => ih v hmem (deeper_noReturn hindent)
  | obj fields ih =>
    rw [pretty_obj]
    refine block_noReturn (by decide) (by decide) hindent ?_
    rw [List.forall_mem_map]
    intro f hf
    have hvalue := ih f hf (deeper_noReturn hindent)
    have hkey := quote_noReturn f.1
    simp [memberText, hvalue, hkey, unit]

/-! ### The text is read back -/

/-- The canonical text is the pretty text and a line feed. -/
lemma canonicalStringify_eq (fmt : NumberFormat) (v : JsonValue) (sorted : Bool) :
    canonicalStringify fmt v sorted =
      pretty fmt [] (if sorted then sortKeysReplacer v else v) ++ line [] := by
  rw [canonicalStringify, lineFeeds_eq (pretty_noReturn fmt _ List.not_mem_nil)]
  rfl

/-- A text is read as the value up to the signs of its zeros, also with the line break after it. -/
lemma parse_pretty_line (fmt : NumberFormat) {v : JsonValue} (hv : v.Distinct) :
    parse fmt (pretty fmt [] v ++ line []) = some (unsign v) := by
  obtain ⟨s, hrun, hs⟩ := (reads_pretty fmt hv blank_nil).reads []
  have hline := run_settled hs blank_nil []
  rw [List.append_nil] at hline
  unfold parse
  rw [AuditChain.run_append, hrun, Option.bind_some, hline]
  rfl

/-- The replacer repeats no key. -/
lemma distinct_sortKeysReplacer {v : JsonValue} (hv : v.Distinct) : (sortKeysReplacer v).Distinct :=
  distinct_sortKeys (distinct_withoutProto hv)

/-- The replacer drops `__proto__` and sorts. -/
lemma normal_sortKeysReplacer {v : JsonValue} (hv : v.Distinct) :
    (sortKeysReplacer v).normal = (withoutProto v).normal :=
  normal_sortKeys (distinct_withoutProto hv)

/-- The text with sorted keys is that of every value that is the same. -/
lemma canonicalStringify_of_same (fmt : NumberFormat) {v w : JsonValue} (hv : v.Distinct)
    (hw : w.Distinct) (hsame : v.Same w) :
    canonicalStringify fmt v true = canonicalStringify fmt w true := by
  have hnormal := (JsonValue.same_iff_normal hv hw).1 hsame
  have hsame' : (withoutProto v).Same (withoutProto w) := by
    rw [JsonValue.same_iff_normal (distinct_withoutProto hv) (distinct_withoutProto hw),
      normal_withoutProto hv, normal_withoutProto hw, hnormal]
  rw [canonicalStringify_eq, canonicalStringify_eq, if_pos rfl, if_pos rfl]
  exact congrArg (· ++ line []) (pretty_of_same (distinct_withoutProto hv) (distinct_withoutProto hw)
    hsame' (apart_codeUnits (distinct_withoutProto hv)))

/-! ## What is read has no key twice -/

section reading
open AuditChain (Frame Goal Mode State)

/-- What an open array or object has so far. -/
def FrameDistinct : Frame → Prop
  | .arr done => ∀ v ∈ done, v.Distinct
  | .obj done _ => (JsonValue.obj done).Distinct

def ModeDistinct : Mode → Prop
  | .member done => (JsonValue.obj done).Distinct
  | .colon done _ => (JsonValue.obj done).Distinct
  | .text (.key done) _ _ => (JsonValue.obj done).Distinct
  | .after v => v.Distinct
  | _ => True

/-- No object that the reader has, complete or open, has a key twice. -/
structure StateDistinct (s : State) : Prop where
  mode : ModeDistinct s.1
  stack : ∀ f ∈ s.2, FrameDistinct f

variable {fmt : NumberFormat}

/-- Setting a property repeats no key. -/
lemma distinct_setProperty {fields : List (Units × JsonValue)} {key : Units} {v : JsonValue}
    (hfields : (JsonValue.obj fields).Distinct) (hv : v.Distinct) :
    (JsonValue.obj (setProperty fields key v)).Distinct := by
  obtain ⟨hnodup, hall⟩ := JsonValue.distinct_obj.1 hfields
  rw [JsonValue.distinct_obj]
  unfold setProperty
  split_ifs with hmem
  · have hkeys : (fields.map fun f => if f.1 = key then (key, v) else f).map Prod.fst =
        fields.map Prod.fst := by
      rw [List.map_map]
      refine List.map_congr_left fun f _ => ?_
      by_cases hkey : f.1 = key
      · simp [hkey]
      · simp [hkey]
    rw [hkeys, List.forall_mem_map]
    refine ⟨hnodup, fun f hf => ?_⟩
    by_cases hkey : f.1 = key
    · rw [if_pos hkey]
      exact hv
    · rw [if_neg hkey]
      exact hall f hf
  · rw [List.map_append, List.map_cons, List.map_nil]
    constructor
    · refine List.nodup_append.2 ⟨hnodup, List.nodup_singleton key, ?_⟩
      rintro a ha b hb rfl
      rw [List.mem_singleton.1 hb] at ha
      exact hmem ha
    · intro f hf
      rcases List.mem_append.1 hf with hf | hf
      · exact hall f hf
      · rw [List.mem_singleton.1 hf]
        exact hv

/-- The start of a value repeats no key. -/
lemma readValue_distinct {stack : List Frame} {c : UInt16} {s : State}
    (h : readValue stack c = some s) (hstack : ∀ f ∈ stack, FrameDistinct f) : StateDistinct s := by
  unfold readValue at h
  split_ifs at h <;> cases h <;> exact ⟨trivial, hstack⟩

/-- What follows a value repeats no key. -/
lemma readAfter_distinct {v : JsonValue} {stack : List Frame} {c : UInt16} {s : State}
    (h : readAfter v stack c = some s) (hv : v.Distinct) (hstack : ∀ f ∈ stack, FrameDistinct f) :
    StateDistinct s := by
  unfold readAfter at h
  by_cases hspace : AuditChain.isSpace c = true
  · rw [if_pos hspace] at h
    cases h
    exact ⟨hv, hstack⟩
  · rw [if_neg hspace] at h
    -- the value ends the text, or belongs to the frame on top
    cases stack with
    | nil => cases h
    | cons frame stack =>
      obtain ⟨hframe, hrest⟩ := List.forall_mem_cons.1 hstack
      cases frame with
      | arr done =>
        have hdone : ∀ u ∈ done ++ [v], u.Distinct := by
          intro u hu
          rcases List.mem_append.1 hu with hu | hu
          · exact hframe u hu
          · rw [List.mem_singleton.1 hu]
            exact hv
        dsimp only at h
        split_ifs at h
        · cases h
          exact ⟨trivial, List.forall_mem_cons.2 ⟨hdone, hrest⟩⟩
        · cases h
          exact ⟨JsonValue.distinct_arr.2 hdone, hrest⟩
      | obj done key =>
        have hdone : (JsonValue.obj (setProperty _ key _)).Distinct := distinct_setProperty hframe hv
        dsimp only at h
        split_ifs at h
        · cases h
          exact ⟨hdone, hrest⟩
        · cases h
          exact ⟨hdone, hrest⟩

/-- A text that is read repeats no key. -/
lemma readText_distinct {goal : Goal} {done : Units} {escape : AuditChain.Escape}
    {stack : List Frame} {c : UInt16} {s : State} (h : readText goal done escape stack c = some s)
    (hs : StateDistinct (.text goal done escape, stack)) : StateDistinct s := by
  have hgoal : ∀ read escape, ModeDistinct (.text goal read escape) := by
    intro read escape
    cases goal with
    | value => trivial
    | key fields => exact hs.mode
  unfold readText at h
  cases escape with
  | none =>
    dsimp only at h
    split_ifs at h
    · cases h
      refine ⟨?_, hs.stack⟩
      cases goal with
      | value => trivial
      | key fields => exact hs.mode
    · cases h
      exact ⟨hgoal _ _, hs.stack⟩
    · cases h
      exact ⟨hgoal _ _, hs.stack⟩
  | backslash =>
    dsimp only at h
    split_ifs at h
    · cases h
      exact ⟨hgoal _ _, hs.stack⟩
    · obtain ⟨d, _, rfl⟩ := Option.map_eq_some_iff.1 h
      exact ⟨hgoal _ _, hs.stack⟩
  | hex digits =>
    obtain ⟨d, _, rfl⟩ := Option.map_eq_some_iff.1 h
    split <;> exact ⟨hgoal _ _, hs.stack⟩

/-- One code unit. -/
lemma read_distinct {s s' : State} {c : UInt16} (h : AuditChain.read fmt s c = some s')
    (hs : StateDistinct s) : StateDistinct s' := by
  obtain ⟨mode, stack⟩ := s
  have hempty : (JsonValue.obj []).Distinct := JsonValue.distinct_obj.2 ⟨List.nodup_nil, nofun⟩
  unfold AuditChain.read at h
  -- one case for each mode of the reader
  cases mode with
  | value =>
    dsimp only at h
    split_ifs at h
    · cases h
      exact hs
    · exact readValue_distinct h hs.stack
  | firstElement =>
    dsimp only at h
    split_ifs at h
    · cases h
      exact hs
    · cases h
      exact ⟨JsonValue.distinct_arr.2 nofun, hs.stack⟩
    · exact readValue_distinct h (List.forall_mem_cons.2 ⟨List.forall_mem_nil _, hs.stack⟩)
  | firstMember =>
    dsimp only at h
    split_ifs at h
    · cases h
      exact hs
    · cases h
      exact ⟨hempty, hs.stack⟩
    · cases h
      exact ⟨hempty, hs.stack⟩
  | member done =>
    dsimp only at h
    split_ifs at h
    · cases h
      exact hs
    · cases h
      exact ⟨hs.mode, hs.stack⟩
  | colon done key =>
    dsimp only at h
    split_ifs at h
    · cases h
      exact hs
    · cases h
      exact ⟨trivial, List.forall_mem_cons.2 ⟨hs.mode, hs.stack⟩⟩
  | text goal done escape => exact readText_distinct h hs
  | number done =>
    dsimp only at h
    split_ifs at h
    · cases h
      exact ⟨trivial, hs.stack⟩
    · obtain ⟨n, _, hafter⟩ := Option.bind_eq_some_iff.1 h
      exact readAfter_distinct hafter trivial hs.stack
  | word w count =>
    dsimp only at h
    split_ifs at h with hunit hend
    · cases h
      refine ⟨?_, hs.stack⟩
      cases w <;> trivial
    · cases h
      exact ⟨trivial, hs.stack⟩
  | after v => exact readAfter_distinct h hs.mode hs.stack

/-- A whole text. -/
lemma run_distinct {s s' : State} {cs : Units} (h : run fmt s cs = some s')
    (hs : StateDistinct s) : StateDistinct s' := by
  induction cs generalizing s with
  | nil =>
    cases h
    exact hs
  | cons c cs ih =>
    rw [AuditChain.run_cons] at h
    obtain ⟨next, hread, hrun⟩ := Option.bind_eq_some_iff.1 h
    exact ih hrun (read_distinct hread hs)

/-- What `JSON.parse` gives has no key twice. -/
lemma parse_distinct {cs : Units} {v : JsonValue} (h : parse fmt cs = some v) : v.Distinct := by
  unfold parse at h
  cases hsettle : (run fmt (.value, []) cs).bind (settle fmt) with
  | none =>
    rw [hsettle] at h
    cases h
  | some result =>
    obtain ⟨u, stack⟩ := result
    rw [hsettle] at h
    obtain ⟨⟨mode, stack'⟩, hrun, hlast⟩ := Option.bind_eq_some_iff.1 hsettle
    have hs := run_distinct hrun ⟨trivial, List.forall_mem_nil _⟩
    have hu : u.Distinct := by
      cases mode with
      | after w =>
        cases hlast
        exact hs.mode
      | number done =>
        obtain ⟨n, _, hsame⟩ := Option.map_eq_some_iff.1 hlast
        cases hsame
        trivial
      | _ => cases hlast
    cases stack with
    | nil =>
      cases h
      exact hu
    | cons frame stack => cases h

end reading

end NexusClaw.PageSource
