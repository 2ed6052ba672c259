import Mathlib.Data.List.Induction
import NexusClaw.AuditChain.Preview

/-!
# Pointers and their targets

Where `applyJsonRedactionPointers` puts its markers, against where RFC 6901 says that the pointers
lead. `Resolves` is the RFC's walk over own members and canonical indices, `Arrives` the walk of the
code, whose indices are what `Number` makes of a token. `Marked` relates a value and its redaction:
markers at some paths, keys added in some objects. One pointer extends it by what it arrives at
(`Marked.redactAt`), so after all of them the markers and added keys are known, and so is when they
are the targets and nothing else. An object without an own `__proto__` leads a pointer out of the
value, to the properties that all objects inherit: `outsideAt` is what an assignment there changes.
-/

namespace NexusClaw.AuditChain.PointerTargets

/-! ## Walks -/

/-- The RFC's evaluation of reference tokens: own members, and elements by their index without leading
zeros. -/
inductive Resolves : List Units → JsonValue → JsonValue → Prop where
  | here (v) : Resolves [] v v
  | element {vs : List JsonValue} {i : Nat} {w x rest} (hi : vs[i]? = some w)
      (h : Resolves rest w x) : Resolves (indexToken i :: rest) (.arr vs) x
  | member {fields : List (Units × JsonValue)} {key w x rest} (hkey : fields.lookup key = some w)
      (h : Resolves rest w x) : Resolves (key :: rest) (.obj fields) x

/-- The walk of the code, along the canonical path `path`, with the tokens `left` still to go. -/
inductive Arrives (r : Redactor) :
    List Units → JsonValue → List Units → List Units → JsonValue → Prop where
  | here (tokens v) : Arrives r tokens v [] tokens v
  | element {vs : List JsonValue} {token : Units} {i : Nat} {w x rest path left}
      (hindex : r.index token = some i) (hi : vs[i]? = some w) (h : Arrives r rest w path left x) :
      Arrives r (token :: rest) (.arr vs) (indexToken i :: path) left x
  | member {fields : List (Units × JsonValue)} {key w x rest path left}
      (hkey : fields.lookup key = some w) (h : Arrives r rest w path left x) :
      Arrives r (key :: rest) (.obj fields) (key :: path) left x

/-- The code assigns the marker at `path`. -/
def Reaches (r : Redactor) (tokens : List Units) (v : JsonValue) (path : List Units) : Prop :=
  ∃ x, Arrives r tokens v path [] x

/-- The code finds the inherited property `name` in the object at `path` and makes it an own one. -/
def Adds (r : Redactor) (tokens : List Units) (v : JsonValue) (path : List Units) (name : Units) :
    Prop :=
  ∃ fields, Arrives r tokens v path [name] (.obj fields) ∧ name ∉ fields.map Prod.fst ∧
    name ∈ inheritedNames

/-- The code leaves the value at `path`, for the object that all objects inherit from, and assigns its
property `name`. -/
def Escapes (r : Redactor) (tokens : List Units) (v : JsonValue) (path : List Units)
    (name : Units) : Prop :=
  ∃ fields, Arrives r tokens v path [units "__proto__", name] (.obj fields) ∧
    units "__proto__" ∉ fields.map Prod.fst ∧ name ∈ inheritedNames

/-- The inherited property that an assignment at the end of `tokens` changes. -/
def outsideAt (r : Redactor) : List Units → JsonValue → Option Units
  | [], _ => none
  | token :: rest, .arr vs => do
    let i ← r.index token
    let w ← vs[i]?
    outsideAt r rest w
  | token :: rest, .obj fields =>
    match fields.lookup token with
    | some w => outsideAt r rest w
    | none =>
      match rest with
      | [name] => if token = units "__proto__" ∧ name ∈ inheritedNames then some name else none
      | _ => none
  | _ :: _, _ => none

/-- The inherited properties that the loop changes, with the value as it is at each pointer. -/
def outsideAll (r : Redactor) : List (List Units) → JsonValue → List Units
  | [], _ => []
  | tokens :: rest, v => (outsideAt r tokens v).toList ++ outsideAll r rest (redactAt r tokens v)

/-- What `applyJsonRedactionPointers` changes outside of the value it returns. -/
def modifiedOutside (r : Redactor) (raw : JsonValue) (pointers : List Units) : List Units :=
  outsideAll r (targets (sortPointers pointers)) (cloneJsonValue raw)

section walks
variable {r : Redactor} {tokens path left rest : List Units} {token : Units} {v x : JsonValue}

/-- Where a pointer arrives there is a value. -/
lemma Arrives.resolves (h : Arrives r tokens v path left x) : Resolves path v x := by
  induction h with
  | here => exact .here _
  | element _ hi _ ih => exact .element hi ih
  | member hkey _ ih => exact .member hkey ih

/-- Two indexes are written differently. -/
lemma indexToken_injective (r : Redactor) {i j : Nat} (h : indexToken i = indexToken j) : i = j := by
  have hi := r.index_token i
  rw [h, r.index_token j] at hi
  exact (Option.some.inj hi).symm

/-- A walk that has not consumed a token has not begun. -/
lemma arrives_arr {vs : List JsonValue} :
    Arrives r (token :: rest) (.arr vs) path left x ↔
      (path = [] ∧ left = token :: rest ∧ x = .arr vs) ∨
        ∃ i w path', r.index token = some i ∧ vs[i]? = some w ∧ path = indexToken i :: path' ∧
          Arrives r rest w path' left x := by
  constructor
  · intro h
    cases h with
    | here => exact .inl ⟨rfl, rfl, rfl⟩
    | element hindex hi h => exact .inr ⟨_, _, _, hindex, hi, rfl, h⟩
  · rintro (⟨rfl, rfl, rfl⟩ | ⟨i, w, path', hindex, hi, rfl, h⟩)
    · exact .here _ _
    · exact .element hindex hi h

/-- A pointer arrives at an object or within one of its members. -/
lemma arrives_obj {fields : List (Units × JsonValue)} :
    Arrives r (token :: rest) (.obj fields) path left x ↔
      (path = [] ∧ left = token :: rest ∧ x = .obj fields) ∨
        ∃ w path', fields.lookup token = some w ∧ path = token :: path' ∧
          Arrives r rest w path' left x := by
  constructor
  · intro h
    cases h with
    | here => exact .inl ⟨rfl, rfl, rfl⟩
    | member hkey h => exact .inr ⟨_, _, hkey, rfl, h⟩
  · rintro (⟨rfl, rfl, rfl⟩ | ⟨w, path', hkey, rfl, h⟩)
    · exact .here _ _
    · exact .member hkey h

/-- A pointer arrives at a scalar itself. -/
lemma arrives_scalar (hv : (∀ vs, v ≠ .arr vs) ∧ ∀ fields, v ≠ .obj fields)
    (h : Arrives r tokens v path left x) : path = [] ∧ left = tokens ∧ x = v := by
  cases h with
  | here => exact ⟨rfl, rfl, rfl⟩
  | element => exact absurd rfl (hv.1 _)
  | member => exact absurd rfl (hv.2 _)

/-- The empty pointer reaches the whole value. -/
lemma reaches_nil : Reaches r [] v path ↔ path = [] := by
  constructor
  · rintro ⟨x, h⟩
    cases h
    rfl
  · rintro rfl
    exact ⟨v, .here _ _⟩

end walks

/-! ## Marked values -/

/-- `w` is `v` with the marker at the paths of `C`, the outermost first, and with the keys of `A`
added. -/
inductive Marked : (List Units → Prop) → (List Units → Units → Prop) → JsonValue → JsonValue →
    Prop where
  | target {C A v} (h : C []) : Marked C A v redacted
  | null {C A} (h : ¬ C []) : Marked C A .null .null
  | bool {C A} (h : ¬ C []) (b) : Marked C A (.bool b) (.bool b)
  | num {C A} (h : ¬ C []) (n) : Marked C A (.num n) (.num n)
  | str {C A} (h : ¬ C []) (s) : Marked C A (.str s) (.str s)
  | arr {C A} {vs ws : List JsonValue} (h : ¬ C []) (hlength : vs.length = ws.length)
      (hvs : ∀ (i : Nat) v w, vs[i]? = some v → ws[i]? = some w →
        Marked (fun c => C (indexToken i :: c)) (fun p => A (indexToken i :: p)) v w) :
      Marked C A (.arr vs) (.arr ws)
  | obj {C A} {fs gs : List (Units × JsonValue)} {added : List Units} (h : ¬ C [])
      (hkeys : fs.map Prod.fst = gs.map Prod.fst)
      (hfs : ∀ (i : Nat) (f g : Units × JsonValue), fs[i]? = some f → gs[i]? = some g →
        Marked (fun c => C (f.1 :: c)) (fun p => A (f.1 :: p)) f.2 g.2)
      (hadded : ∀ name, name ∈ added ↔ A [] name)
      (hnew : ∀ name ∈ added, name ∈ inheritedNames ∧ name ∉ fs.map Prod.fst) :
      Marked C A (.obj fs) (.obj (gs ++ added.map fun name => (name, redacted)))

section marked
variable {r : Redactor} {C C' : List Units → Prop} {A A' : List Units → Units → Prop}
  {v w : JsonValue}

/-- Two conditions that hold alike mark alike. -/
lemma Marked.congr (h : Marked C A v w) (hC : ∀ c, C c ↔ C' c) (hA : ∀ p n, A p n ↔ A' p n) :
    Marked C' A' v w := by
  obtain rfl : C = C' := funext fun c => propext (hC c)
  obtain rfl : A = A' := funext fun p => funext fun n => propext (hA p n)
  exact h

/-- A value without marks is itself. -/
lemma Marked.refl (v : JsonValue) : Marked (fun _ => False) (fun _ _ => False) v v := by
  induction v with
  | null => exact .null id
  | bool b => exact .bool id b
  | num n => exact .num id n
  | str s => exact .str id s
  | arr vs ih =>
    refine .arr id rfl fun i v w hv hw => ?_
    obtain rfl := Option.some.inj (hv.symm.trans hw)
    exact ih v (List.mem_of_getElem? hv)
  | obj fields ih =>
    have h : Marked (fun _ => False) (fun _ _ => False) (.obj fields)
        (.obj (fields ++ ([] : List Units).map fun name => (name, redacted))) := by
      refine .obj id rfl (fun i f g hf hg => ?_) (by simp) (by simp)
      obtain rfl := Option.some.inj (hf.symm.trans hg)
      exact ih f (List.mem_of_getElem? hf)
    simpa using h

/-- The key of a member leads to its value. -/
lemma lookup_getElem? {fields : List (Units × JsonValue)} (hnodup : (fields.map Prod.fst).Nodup)
    {i : Nat} {f : Units × JsonValue} (hf : fields[i]? = some f) :
    fields.lookup f.1 = some f.2 := by
  induction fields generalizing i with
  | nil => cases hf
  | cons g fields ih =>
    obtain ⟨hg, hrest⟩ := List.nodup_cons.1 hnodup
    cases i with
    | zero =>
      obtain rfl := Option.some.inj hf
      exact List.lookup_cons_self
    | succ i =>
      have hin : f.1 ∈ fields.map Prod.fst := List.mem_map_of_mem (List.mem_of_getElem? hf)
      have hne : (f.1 == g.1) = false := by
        rw [beq_eq_false_iff_ne]
        exact fun heq => hg (heq ▸ hin)
      have hlookup : (g :: fields).lookup f.1 = fields.lookup f.1 := by
        obtain ⟨key, u⟩ := g
        rw [List.lookup_cons]
        simp only at hne
        rw [hne]
      rw [hlookup]
      exact ih hrest hf

/-- A member that is found has a place. -/
lemma lookup_place {fields : List (Units × JsonValue)} {key : Units} {u : JsonValue}
    (h : fields.lookup key = some u) : ∃ i : Nat, fields[i]? = some (key, u) := by
  obtain ⟨before, after, rfl, _⟩ := List.lookup_eq_some_iff.1 h
  exact ⟨before.length, by simp⟩

/-- A key is among the keys if and only if it is found. -/
lemma lookup_isSome {fields : List (Units × JsonValue)} {key : Units} :
    key ∈ fields.map Prod.fst ↔ ∃ w, fields.lookup key = some w := by
  induction fields with
  | nil => simp
  | cons f fields ih =>
    obtain ⟨k, u⟩ := f
    rw [List.map_cons, List.mem_cons, List.lookup_cons]
    by_cases h : key = k
    · simp [h]
    · have hno : (key == k) = false := by simpa using h
      rw [hno]
      simp [h, ih]

/-! ## One pointer -/

/-- Where a walk through an array leads, element by element. -/
lemma reaches_arr {vs : List JsonValue} {token : Units} {rest path : List Units} :
    Reaches r (token :: rest) (.arr vs) path ↔
      ∃ i w path', r.index token = some i ∧ vs[i]? = some w ∧ path = indexToken i :: path' ∧
        Reaches r rest w path' := by
  constructor
  · rintro ⟨x, h⟩
    rcases arrives_arr.1 h with ⟨_, hleft, _⟩ | ⟨i, w, path', hindex, hi, hpath, h⟩
    · cases hleft
    · exact ⟨i, w, path', hindex, hi, hpath, x, h⟩
  · rintro ⟨i, w, path', hindex, hi, rfl, x, h⟩
    exact ⟨x, .element hindex hi h⟩

/-- A pointer adds a key within an element of an array. -/
lemma adds_arr {vs : List JsonValue} {token name : Units} {rest path : List Units} :
    Adds r (token :: rest) (.arr vs) path name ↔
      ∃ i w path', r.index token = some i ∧ vs[i]? = some w ∧ path = indexToken i :: path' ∧
        Adds r rest w path' name := by
  constructor
  · rintro ⟨fields, h, hnew⟩
    rcases arrives_arr.1 h with ⟨_, _, hx⟩ | ⟨i, w, path', hindex, hi, hpath, h⟩
    · cases hx
    · exact ⟨i, w, path', hindex, hi, hpath, fields, h, hnew⟩
  · rintro ⟨i, w, path', hindex, hi, rfl, fields, h, hnew⟩
    exact ⟨fields, .element hindex hi h, hnew⟩

/-- A pointer reaches into a member of an object. -/
lemma reaches_obj {fields : List (Units × JsonValue)} {token : Units} {rest path : List Units} :
    Reaches r (token :: rest) (.obj fields) path ↔
      ∃ w path', fields.lookup token = some w ∧ path = token :: path' ∧ Reaches r rest w path' := by
  constructor
  · rintro ⟨x, h⟩
    rcases arrives_obj.1 h with ⟨_, hleft, _⟩ | ⟨w, path', hkey, hpath, h⟩
    · cases hleft
    · exact ⟨w, path', hkey, hpath, x, h⟩
  · rintro ⟨w, path', hkey, rfl, x, h⟩
    exact ⟨x, .member hkey h⟩

/-- A pointer adds an inherited key to an object, or a key within a member. -/
lemma adds_obj {fields : List (Units × JsonValue)} {token name : Units} {rest path : List Units} :
    Adds r (token :: rest) (.obj fields) path name ↔
      (path = [] ∧ token = name ∧ rest = [] ∧ name ∉ fields.map Prod.fst ∧ name ∈ inheritedNames) ∨
        ∃ w path', fields.lookup token = some w ∧ path = token :: path' ∧
          Adds r rest w path' name := by
  constructor
  · rintro ⟨fields', h, hnew⟩
    rcases arrives_obj.1 h with ⟨hpath, hleft, hx⟩ | ⟨w, path', hkey, hpath, h⟩
    · obtain ⟨rfl, rfl⟩ := List.cons.inj hleft
      cases hx
      exact .inl ⟨hpath, rfl, rfl, hnew⟩
    · exact .inr ⟨w, path', hkey, hpath, fields', h, hnew⟩
  · rintro (⟨rfl, rfl, rfl, hnew⟩ | ⟨w, path', hkey, rfl, fields', h, hnew⟩)
    · exact ⟨fields, .here _ _, hnew⟩
    · exact ⟨fields', .member hkey h, hnew⟩

/-- The paths marked so far and those that a pointer arrives at. -/
def withPath (r : Redactor) (tokens : List Units) (v : JsonValue) (C : List Units → Prop) :
    List Units → Prop :=
  fun c => C c ∨ Reaches r tokens v c

/-- The keys added so far and the one that a pointer adds. -/
def withKey (r : Redactor) (tokens : List Units) (v : JsonValue) (A : List Units → Units → Prop) :
    List Units → Units → Prop :=
  fun p n => A p n ∨ Adds r tokens v p n

/-- A pointer that leads nowhere in an array or object leaves the marks as they are. -/
lemma Marked.nowhere (h : Marked C A v w) {tokens : List Units}
    (hreaches : ∀ c, ¬ Reaches r tokens v c) (hadds : ∀ p n, ¬ Adds r tokens v p n) :
    Marked (withPath r tokens v C) (withKey r tokens v A) v w :=
  h.congr (fun c => ⟨.inl, fun hc => hc.resolve_right (hreaches c)⟩)
    fun p n => ⟨.inl, fun hn => hn.resolve_right (hadds p n)⟩

/-- A pointer that goes on reaches nothing in a scalar, and adds nothing. -/
lemma reaches_scalar (hv : (∀ vs, v ≠ .arr vs) ∧ ∀ fields, v ≠ .obj fields) {token : Units}
    {rest : List Units} : (∀ c, ¬ Reaches r (token :: rest) v c) ∧
      ∀ p n, ¬ Adds r (token :: rest) v p n := by
  constructor
  · rintro c ⟨x, h⟩
    obtain ⟨_, hleft, _⟩ := arrives_scalar hv h
    cases hleft
  · rintro p n ⟨fields, h, _⟩
    obtain ⟨_, _, hx⟩ := arrives_scalar hv h
    exact hv.2 fields hx.symm

/-- Redacting in an array redacts in the element that the token names. -/
lemma Marked.redactAt_arr {vs ws : List JsonValue} {token : Units} {rest : List Units}
    (h : ¬ C []) (hlength : vs.length = ws.length)
    (hvs : ∀ (i : Nat) v w, vs[i]? = some v → ws[i]? = some w →
      Marked (fun c => C (indexToken i :: c)) (fun p => A (indexToken i :: p)) v w)
    (ih : ∀ (i : Nat) v w, vs[i]? = some v → ws[i]? = some w → ∀ tokens,
      Marked (withPath r tokens v fun c => C (indexToken i :: c))
        (withKey r tokens v fun p => A (indexToken i :: p)) v (redactAt r tokens w)) :
    Marked (withPath r (token :: rest) (.arr vs) C) (withKey r (token :: rest) (.arr vs) A)
      (.arr vs) (redactAt r (token :: rest) (.arr ws)) := by
  have hroot : ¬ withPath r (token :: rest) (.arr vs) C [] := by
    rintro (hC | hreach)
    · exact h hC
    · obtain ⟨i, w, path', _, _, hpath, _⟩ := reaches_arr.1 hreach
      cases hpath
  -- an element that the pointer does not go through keeps its marks
  have hother (i : Nat) (v w : JsonValue) (hv : vs[i]? = some v) (hw : ws[i]? = some w)
      (hi : r.index token ≠ some i) :
      Marked (fun c => withPath r (token :: rest) (.arr vs) C (indexToken i :: c))
        (fun p => withKey r (token :: rest) (.arr vs) A (indexToken i :: p)) v w := by
    refine (hvs i v w hv hw).congr (fun c => ⟨.inl, fun hc => hc.resolve_right ?_⟩)
      fun p n => ⟨.inl, fun hn => hn.resolve_right ?_⟩
    · intro hreach
      obtain ⟨j, _, _, hindex, _, hpath, _⟩ := reaches_arr.1 hreach
      exact hi (indexToken_injective r (List.cons.inj hpath).1 ▸ hindex)
    · intro hadds
      obtain ⟨j, _, _, hindex, _, hpath, _⟩ := adds_arr.1 hadds
      exact hi (indexToken_injective r (List.cons.inj hpath).1 ▸ hindex)
  unfold redactAt
  cases hindex : r.index token with
  | none =>
    refine .arr hroot hlength fun i v w hv hw => hother i v w hv hw ?_
    rw [hindex]
    exact (Option.some_ne_none i).symm
  | some k =>
    refine .arr hroot (by simpa using hlength) fun i v w hv hw => ?_
    by_cases hik : k = i
    · subst hik
      rw [List.getElem?_modify_eq] at hw
      obtain ⟨w₀, hw₀, rfl⟩ := Option.map_eq_some_iff.1 hw
      refine (ih k v w₀ hv hw₀ rest).congr (fun c => or_congr_right ?_) fun p n => or_congr_right ?_
      · rw [reaches_arr]
        constructor
        · exact fun hreach => ⟨k, v, c, hindex, hv, rfl, hreach⟩
        · rintro ⟨j, u, c', hj, hu, hpath, hreach⟩
          obtain rfl := Option.some.inj (hindex.symm.trans hj)
          obtain rfl := Option.some.inj (hv.symm.trans hu)
          rw [(List.cons.inj hpath).2]
          exact hreach
      · rw [adds_arr]
        constructor
        · exact fun hadds => ⟨k, v, p, hindex, hv, rfl, hadds⟩
        · rintro ⟨j, u, p', hj, hu, hpath, hadds⟩
          obtain rfl := Option.some.inj (hindex.symm.trans hj)
          obtain rfl := Option.some.inj (hv.symm.trans hu)
          rw [(List.cons.inj hpath).2]
          exact hadds
    · rw [List.getElem?_modify_ne _ _ hik] at hw
      refine hother i v w hv hw ?_
      rw [hindex]
      exact fun heq => hik (Option.some.inj heq)

/-- An assignment to a member of an object with added keys: the added keys hold the marker already. -/
lemma assign_added {gs : List (Units × JsonValue)} {added : List Units} {token : Units}
    {rest : List Units} :
    (gs ++ added.map fun name => (name, redacted)).map
        (fun f => if f.1 = token then (f.1, redactAt r rest f.2) else f) =
      gs.map (fun f => if f.1 = token then (f.1, redactAt r rest f.2) else f) ++
        added.map fun name => (name, redacted) := by
  have hredacted : redactAt r rest redacted = redacted := by
    cases rest <;> rfl
  rw [List.map_append, List.map_map]
  congr 1
  refine List.map_congr_left fun name _ => ?_
  dsimp only [Function.comp_apply]
  rw [hredacted]
  split <;> rfl

/-- Redacting in an object redacts in the member that the token names. -/
lemma Marked.redactAt_obj {fs gs : List (Units × JsonValue)} {added : List Units} {token : Units}
    {rest : List Units} (hnodup : (fs.map Prod.fst).Nodup) (h : ¬ C [])
    (hkeys : fs.map Prod.fst = gs.map Prod.fst)
    (hfs : ∀ (i : Nat) (f g : Units × JsonValue), fs[i]? = some f → gs[i]? = some g →
      Marked (fun c => C (f.1 :: c)) (fun p => A (f.1 :: p)) f.2 g.2)
    (hadded : ∀ name, name ∈ added ↔ A [] name)
    (hnew : ∀ name ∈ added, name ∈ inheritedNames ∧ name ∉ fs.map Prod.fst)
    (ih : ∀ (i : Nat) (f g : Units × JsonValue), fs[i]? = some f → gs[i]? = some g → ∀ tokens,
      Marked (withPath r tokens f.2 fun c => C (f.1 :: c))
        (withKey r tokens f.2 fun p => A (f.1 :: p)) f.2 (redactAt r tokens g.2)) :
    Marked (withPath r (token :: rest) (.obj fs) C) (withKey r (token :: rest) (.obj fs) A)
      (.obj fs) (redactAt r (token :: rest) (.obj (gs ++ added.map fun name => (name, redacted)))) := by
  have hroot : ¬ withPath r (token :: rest) (.obj fs) C [] := by
    rintro (hC | hreach)
    · exact h hC
    · obtain ⟨w, path', _, hpath, _⟩ := reaches_obj.1 hreach
      cases hpath
  -- a member that the pointer does not go through keeps its marks
  have hother (i : Nat) (f g : Units × JsonValue) (hf : fs[i]? = some f) (hg : gs[i]? = some g)
      (hne : f.1 ≠ token) :
      Marked (fun c => withPath r (token :: rest) (.obj fs) C (f.1 :: c))
        (fun p => withKey r (token :: rest) (.obj fs) A (f.1 :: p)) f.2 g.2 := by
    refine (hfs i f g hf hg).congr (fun c => ⟨.inl, fun hc => hc.resolve_right ?_⟩)
      fun p n => ⟨.inl, fun hn => hn.resolve_right ?_⟩
    · intro hreach
      obtain ⟨_, _, _, hpath, _⟩ := reaches_obj.1 hreach
      exact hne (List.cons.inj hpath).1
    · intro hadds
      rcases adds_obj.1 hadds with ⟨hpath, _⟩ | ⟨_, _, _, hpath, _⟩
      · cases hpath
      · exact hne (List.cons.inj hpath).1
  have hmember : token ∈ (gs ++ added.map fun name => (name, redacted)).map Prod.fst ↔
      token ∈ fs.map Prod.fst ∨ token ∈ added := by
    rw [List.map_append, List.mem_append, ← hkeys, List.map_map]
    simp
  unfold redactAt
  by_cases hown : token ∈ fs.map Prod.fst
  · -- an own member of the value
    rw [if_pos (hmember.2 (.inl hown)), assign_added]
    refine .obj hroot (by rw [keys_assigned, hkeys]) (fun i f g hf hg => ?_) ?_ hnew
    · rw [List.getElem?_map] at hg
      obtain ⟨g₀, hg₀, rfl⟩ := Option.map_eq_some_iff.1 hg
      have hkey := key_eq hkeys hf hg₀
      by_cases htoken : g₀.1 = token
      · rw [if_pos htoken]
        have hlookup := lookup_getElem? hnodup hf
        rw [hkey, htoken] at hlookup
        refine (ih i f g₀ hf hg₀ rest).congr (fun c => or_congr_right ?_)
          fun p n => or_congr_right ?_
        · rw [reaches_obj]
          constructor
          · exact fun hreach => ⟨f.2, c, hlookup, by rw [hkey, htoken], hreach⟩
          · rintro ⟨u, c', hu, hpath, hreach⟩
            obtain rfl := Option.some.inj (hlookup.symm.trans hu)
            rw [(List.cons.inj hpath).2]
            exact hreach
        · rw [adds_obj]
          constructor
          · exact fun hadds => .inr ⟨f.2, p, hlookup, by rw [hkey, htoken], hadds⟩
          · rintro (⟨hpath, _⟩ | ⟨u, p', hu, hpath, hadds⟩)
            · cases hpath
            · obtain rfl := Option.some.inj (hlookup.symm.trans hu)
              rw [(List.cons.inj hpath).2]
              exact hadds
      · rw [if_neg htoken]
        exact hother i f g₀ hf hg₀ (hkey ▸ htoken)
    · intro name
      rw [hadded name]
      refine ⟨.inl, fun hn => hn.resolve_right fun hadds => ?_⟩
      rcases adds_obj.1 hadds with ⟨_, rfl, _, hnot, _⟩ | ⟨_, _, _, hpath, _⟩
      · exact hnot hown
      · cases hpath
  · have hlookup : ∀ w, fs.lookup token ≠ some w := fun w hw => hown (lookup_isSome.2 ⟨w, hw⟩)
    have hne (i : Nat) (f : Units × JsonValue) (hf : fs[i]? = some f) : f.1 ≠ token := by
      rintro rfl
      exact hown (List.mem_map_of_mem (List.mem_of_getElem? hf))
    have hadds (name : Units) : Adds r (token :: rest) (.obj fs) [] name ↔
        token = name ∧ rest = [] ∧ name ∈ inheritedNames := by
      rw [adds_obj]
      constructor
      · rintro (⟨_, htoken, hrest, _, hin⟩ | ⟨w, _, hw, _⟩)
        · exact ⟨htoken, hrest, hin⟩
        · exact absurd hw (hlookup w)
      · rintro ⟨rfl, hrest, hin⟩
        exact .inl ⟨rfl, rfl, hrest, hown, hin⟩
    by_cases hin : token ∈ added
    · -- a key that an earlier pointer added
      rw [if_pos (hmember.2 (.inr hin)), assign_added]
      have hsame : (gs.map fun f => if f.1 = token then (f.1, redactAt r rest f.2) else f) = gs := by
        refine (List.map_congr_left fun f hf => if_neg ?_).trans (List.map_id gs)
        rintro rfl
        exact hown (hkeys ▸ List.mem_map_of_mem hf)
      rw [hsame]
      refine .obj hroot hkeys (fun i f g hf hg => hother i f g hf hg (hne i f hf)) ?_ hnew
      intro name
      rw [hadded name]
      refine ⟨.inl, fun hn => hn.elim id fun hadd => ?_⟩
      obtain ⟨rfl, _⟩ := (hadds name).1 hadd
      exact (hadded token).1 hin
    · rw [if_neg fun hmem => (hmember.1 hmem).elim hown hin]
      split
      · next hinherited =>
        have happend : gs ++ added.map (fun name => (name, redacted)) ++ [(token, redacted)] =
            gs ++ (added ++ [token]).map fun name => (name, redacted) := by
          simp
        rw [happend]
        refine .obj hroot hkeys (fun i f g hf hg => hother i f g hf hg (hne i f hf)) ?_ ?_
        · intro name
          rw [List.mem_append, List.mem_singleton, hadded name]
          refine or_congr_right ?_
          rw [hadds]
          exact ⟨fun heq => ⟨heq.symm, hinherited.1, heq ▸ hinherited.2⟩, fun heq => heq.1.symm⟩
        · intro name hname
          rcases List.mem_append.1 hname with hold | hthis
          · exact hnew name hold
          · obtain rfl := List.mem_singleton.1 hthis
            exact ⟨hinherited.2, hown⟩
      · next hinherited =>
        refine .obj hroot hkeys (fun i f g hf hg => hother i f g hf hg (hne i f hf)) ?_ hnew
        intro name
        rw [hadded name]
        refine ⟨.inl, fun hn => hn.resolve_right fun hadd => ?_⟩
        obtain ⟨rfl, hrest, hinh⟩ := (hadds name).1 hadd
        exact hinherited ⟨hrest, hinh⟩

/-- A scalar has nothing to redact in. -/
lemma Marked.redactAt_scalar (h : Marked C A v w) (hredact : ∀ tokens, tokens ≠ [] →
      redactAt r tokens w = w) (hv : (∀ vs, v ≠ .arr vs) ∧ ∀ fields, v ≠ .obj fields)
    (tokens : List Units) :
    Marked (withPath r tokens v C) (withKey r tokens v A) v (redactAt r tokens w) := by
  cases tokens with
  | nil =>
    have hdone : redactAt r [] w = redacted := by
      cases w <;> rfl
    rw [hdone]
    exact .target (.inr (reaches_nil.2 rfl))
  | cons token rest =>
    rw [hredact _ (List.cons_ne_nil token rest)]
    obtain ⟨hreaches, hadds⟩ := reaches_scalar (r := r) hv
    exact h.nowhere hreaches hadds

/-- One pointer marks what it arrives at, or adds the key it finds inherited there. -/
lemma Marked.redactAt (h : Marked C A v w) (hv : v.Distinct) (tokens : List Units) :
    Marked (withPath r tokens v C) (withKey r tokens v A) v (AuditChain.redactAt r tokens w) := by
  induction h generalizing tokens with
  | target hC =>
    have hdone : AuditChain.redactAt r tokens redacted = redacted := by
      cases tokens <;> rfl
    rw [hdone]
    exact .target (.inl hC)
  | null hC =>
    refine Marked.redactAt_scalar (.null hC) (fun tokens hne => ?_) ⟨nofun, nofun⟩ tokens
    cases tokens with
    | nil => exact absurd rfl hne
    | cons token rest => rfl
  | bool hC b =>
    refine Marked.redactAt_scalar (.bool hC b) (fun tokens hne => ?_) ⟨nofun, nofun⟩ tokens
    cases tokens with
    | nil => exact absurd rfl hne
    | cons token rest => rfl
  | num hC n =>
    refine Marked.redactAt_scalar (.num hC n) (fun tokens hne => ?_) ⟨nofun, nofun⟩ tokens
    cases tokens with
    | nil => exact absurd rfl hne
    | cons token rest => rfl
  | str hC s =>
    refine Marked.redactAt_scalar (.str hC s) (fun tokens hne => ?_) ⟨nofun, nofun⟩ tokens
    cases tokens with
    | nil => exact absurd rfl hne
    | cons token rest => rfl
  | arr hC hlength hvs ih =>
    cases tokens with
    | nil => exact .target (.inr (reaches_nil.2 rfl))
    | cons token rest =>
      rw [JsonValue.distinct_arr] at hv
      exact Marked.redactAt_arr hC hlength hvs fun i v w hi hw =>
        ih i v w hi hw (hv v (List.mem_of_getElem? hi))
  | obj hC hkeys hfs hadded hnew ih =>
    cases tokens with
    | nil => exact .target (.inr (reaches_nil.2 rfl))
    | cons token rest =>
      obtain ⟨hnodup, hfields⟩ := JsonValue.distinct_obj.1 hv
      exact Marked.redactAt_obj hnodup hC hkeys hfs hadded hnew fun i f g hf hg =>
        ih i f g hf hg (hfields f (List.mem_of_getElem? hf))

/-! ## All pointers -/

/-- What some of the pointers arrive at. -/
def Reached (r : Redactor) (ps : List (List Units)) (v : JsonValue) : List Units → Prop :=
  fun c => ∃ p ∈ ps, Reaches r p v c

/-- The keys that some of the pointers add. -/
def KeyAdded (r : Redactor) (ps : List (List Units)) (v : JsonValue) :
    List Units → Units → Prop :=
  fun path name => ∃ p ∈ ps, Adds r p v path name

/-- The value after some of the pointers. -/
lemma marked_foldl (hv : v.Distinct) (ps : List (List Units)) :
    Marked (Reached r ps v) (KeyAdded r ps v) v
      (ps.foldl (fun w p => AuditChain.redactAt r p w) v) := by
  induction ps using List.reverseRecOn with
  | nil =>
    refine (Marked.refl v).congr (fun c => ?_) fun p n => ?_
    · exact ⟨False.elim, fun ⟨_, hp, _⟩ => by cases hp⟩
    · exact ⟨False.elim, fun ⟨_, hp, _⟩ => by cases hp⟩
  | append_singleton ps p ih =>
    rw [List.foldl_append]
    refine (ih.redactAt hv p).congr (fun c => ?_) fun path name => ?_
    · unfold withPath Reached
      simp [or_and_right, exists_or]
    · unfold withKey KeyAdded
      simp [or_and_right, exists_or]

/-- The pointers of the RFC have to cover what is marked and the objects in which keys are added, but
for places that hold the marker already. -/
structure Covered (C : List Units → Prop) (A : List Units → Units → Prop) (T : List Units → Prop)
    (v : JsonValue) : Prop where
  marked : ∀ c x, C c → Resolves c v x → x = redacted ∨ ∃ t, T t ∧ t <+: c
  added : ∀ p n fields, A p n → Resolves p v (.obj fields) → ∃ t, T t ∧ t <+: p

section covered
variable {T : List Units → Prop}

/-- The empty path is the value itself. -/
lemma resolves_nil {x : JsonValue} (h : Resolves [] v x) : x = v := by
  cases h
  rfl

/-- Below a path of which no target is a prefix yet. -/
lemma covered_under {token : Units} (hT : ¬ T []) {c : List Units} :
    (∃ t, T t ∧ t <+: token :: c) ↔ ∃ t, T (token :: t) ∧ t <+: c := by
  constructor
  · rintro ⟨t, ht, hprefix⟩
    cases t with
    | nil => exact absurd ht hT
    | cons first t =>
      obtain ⟨rfl, hrest⟩ := List.cons_prefix_cons.1 hprefix
      exact ⟨t, ht, hrest⟩
  · rintro ⟨t, ht, hprefix⟩
    exact ⟨token :: t, ht, List.cons_prefix_cons.2 ⟨rfl, hprefix⟩⟩

/-- What is covered is covered within a step. -/
lemma Covered.under (h : Covered C A T v) (hT : ¬ T []) {token : Units}
    (hstep : ∀ c x, Resolves c w x → Resolves (token :: c) v x) :
    Covered (fun c => C (token :: c)) (fun p => A (token :: p)) (fun t => T (token :: t)) w := by
  constructor
  · intro c x hc hx
    exact (h.marked _ x hc (hstep c x hx)).imp_right (covered_under hT).1
  · intro p n fields hp hfields
    exact (covered_under hT).1 (h.added _ n fields hp (hstep p _ hfields))

/-- Markers and added keys that the targets cover, with all targets among them, are the targets and
nothing else. -/
lemma Marked.targets_of_covered (h : Marked C A v w) (hv : v.Distinct)
    (hT : ∀ t x, T t → Resolves t v x → C t) (hcovered : Covered C A T v) :
    Marked T (fun _ _ => False) v w := by
  have hroot (u : JsonValue) (C : List Units → Prop) (T : List Units → Prop)
      (hC : ¬ C []) (hT : ∀ t x, T t → Resolves t u x → C t) : ¬ T [] :=
    fun ht => hC (hT [] u ht (.here u))
  induction h generalizing T with
  | @target C A v hC =>
    rcases hcovered.marked [] v hC (.here v) with rfl | ⟨t, ht, hprefix⟩
    · by_cases ht : T []
      · exact .target ht
      · exact .str ht _
    · obtain rfl := List.prefix_nil.1 hprefix
      exact .target ht
  | null hC => exact .null (hroot _ _ _ hC hT)
  | bool hC b => exact .bool (hroot _ _ _ hC hT) b
  | num hC n => exact .num (hroot _ _ _ hC hT) n
  | str hC s => exact .str (hroot _ _ _ hC hT) s
  | @arr C A vs ws hC hlength hvs ih =>
    have hT₀ := hroot _ _ _ hC hT
    rw [JsonValue.distinct_arr] at hv
    refine .arr hT₀ hlength fun i v w hi hw => ?_
    exact ih i v w hi hw (hv v (List.mem_of_getElem? hi)) (fun t x ht hx => hT _ x ht (.element hi hx))
      (hcovered.under hT₀ fun c x hx => .element hi hx)
  | @obj C A fs gs added hC hkeys hfs hadded hnew ih =>
    have hT₀ := hroot _ _ _ hC hT
    obtain ⟨hnodup, hfields⟩ := JsonValue.distinct_obj.1 hv
    have hnone : added = [] := by
      refine List.eq_nil_iff_forall_not_mem.2 fun name hname => ?_
      obtain ⟨t, ht, hprefix⟩ := hcovered.added [] name fs ((hadded name).1 hname) (.here _)
      exact hT₀ (List.prefix_nil.1 hprefix ▸ ht)
    subst hnone
    refine .obj hT₀ hkeys (fun i f g hf hg => ?_) (by simp) (by simp)
    have hlookup := lookup_getElem? hnodup hf
    exact ih i f g hf hg (hfields f (List.mem_of_getElem? hf))
      (fun t x ht hx => hT _ x ht (.member hlookup hx))
      (hcovered.under hT₀ fun c x hx => .member hlookup hx)

/-- A scalar has nothing within it. -/
lemma resolves_scalar {c : List Units} {x : JsonValue}
    (hv : (∀ vs, v ≠ .arr vs) ∧ ∀ fields, v ≠ .obj fields) (h : Resolves c v x) :
    c = [] ∧ x = v := by
  cases h with
  | here => exact ⟨rfl, rfl⟩
  | element => exact absurd rfl (hv.1 _)
  | member => exact absurd rfl (hv.2 _)

/-- A scalar is covered if it is redacted where it should be. -/
lemma Covered.scalar (hv : (∀ vs, v ≠ .arr vs) ∧ ∀ fields, v ≠ .obj fields)
    (h : C [] → v = redacted) : Covered C A T v := by
  constructor
  · intro c x hc hx
    obtain ⟨rfl, rfl⟩ := resolves_scalar hv hx
    exact .inl (h hc)
  · intro p n fields _ hfields
    obtain ⟨_, hx⟩ := resolves_scalar hv hfields
    exact absurd hx.symm (hv.2 fields)

/-- Only a text or a target is marked as a marker. -/
lemma target_or_text (h : Marked T (fun _ _ => False) v redacted) : T [] ∨ v = redacted := by
  generalize hw : redacted = w at h
  cases h with
  | target hT => exact .inl hT
  | null => cases hw
  | bool => cases hw
  | num => cases hw
  | str => exact .inr rfl
  | arr => cases hw
  | obj => cases hw

/-- Where the markers are the targets and no key is added, the targets cover them. -/
lemma Marked.covered_of_targets (h : Marked C A v w) (hv : v.Distinct)
    (h' : Marked T (fun _ _ => False) v w) : Covered C A T v := by
  -- induction on how the value was marked, against the marks of the targets alone
  induction h generalizing T with
  | @target C A v hC =>
    rcases target_or_text h' with hT | rfl
    · exact ⟨fun c x _ _ => .inr ⟨[], hT, List.nil_prefix⟩, fun p n _ _ _ =>
        ⟨[], hT, List.nil_prefix⟩⟩
    · exact .scalar ⟨nofun, nofun⟩ fun _ => rfl
  | null hC => exact .scalar ⟨nofun, nofun⟩ fun h => absurd h hC
  | bool hC b => exact .scalar ⟨nofun, nofun⟩ fun h => absurd h hC
  | num hC n => exact .scalar ⟨nofun, nofun⟩ fun h => absurd h hC
  | str hC s => exact .scalar ⟨nofun, nofun⟩ fun h => absurd h hC
  | @arr C A vs ws hC hlength hvs ih =>
    generalize hout : JsonValue.arr ws = out at h'
    cases h' with
    | target => cases hout
    | @arr _ _ _ ws' hT _ hvs' =>
      obtain rfl := JsonValue.arr.inj hout
      rw [JsonValue.distinct_arr] at hv
      have hchild (i : Nat) (u : JsonValue) (hi : vs[i]? = some u) :
          Covered (fun c => C (indexToken i :: c)) (fun p => A (indexToken i :: p))
            (fun t => T (indexToken i :: t)) u := by
        have hin : i < ws.length := hlength ▸ (List.getElem?_eq_some_iff.1 hi).1
        have hw := List.getElem?_eq_getElem hin
        exact ih i u _ hi hw (hv u (List.mem_of_getElem? hi)) (hvs' i u _ hi hw)
      constructor
      · intro c x hc hx
        cases hx with
        | here => exact absurd hc hC
        | @element _ i u _ rest hi hx =>
          exact ((hchild i u hi).marked rest x hc hx).imp_right (covered_under hT).2
      · intro p n fields hp hfields
        cases hfields with
        | @element _ i u _ rest hi hx =>
          exact (covered_under hT).2 ((hchild i u hi).added rest n fields hp hx)
  | @obj C A fs gs added hC hkeys hfs hadded hnew ih =>
    generalize hout : JsonValue.obj (gs ++ added.map fun name => (name, redacted)) = out at h'
    cases h' with
    | target => cases hout
    | @obj _ _ _ gs' added' hT hkeys' hfs' hadded' _ =>
      have hempty : added' = [] := List.eq_nil_iff_forall_not_mem.2 fun name => (hadded' name).1
      subst hempty
      have hfields := JsonValue.obj.inj hout
      have hlength : gs.length = gs'.length := by
        have h₁ := congrArg List.length hkeys
        have h₂ := congrArg List.length hkeys'
        simp only [List.length_map] at h₁ h₂
        omega
      obtain ⟨rfl, hnone⟩ := List.append_inj hfields hlength
      have hnone : added = [] := List.map_eq_nil_iff.1 hnone
      obtain ⟨hnodup, hdistinct⟩ := JsonValue.distinct_obj.1 hv
      have hchild (key : Units) (u : JsonValue) (hkey : fs.lookup key = some u) :
          Covered (fun c => C (key :: c)) (fun p => A (key :: p)) (fun t => T (key :: t)) u := by
        obtain ⟨before, after, rfl, _⟩ := List.lookup_eq_some_iff.1 hkey
        have hf : (before ++ (key, u) :: after)[before.length]? = some (key, u) := by simp
        have hin : before.length < gs.length := by
          have h₁ := congrArg List.length hkeys
          simp only [List.length_map, List.length_append, List.length_cons] at h₁
          omega
        have hg := List.getElem?_eq_getElem hin
        exact ih _ _ _ hf hg (hdistinct _ (List.mem_of_getElem? hf)) (hfs' _ _ _ hf hg)
      constructor
      · intro c x hc hx
        cases hx with
        | here => exact absurd hc hC
        | @member _ key u _ rest hkey hx =>
          exact ((hchild key u hkey).marked rest x hc hx).imp_right (covered_under hT).2
      · intro p n fields hp hfields
        cases hfields with
        | here =>
          have hin := (hadded n).2 hp
          rw [hnone] at hin
          cases hin
        | @member _ key u _ rest hkey hx =>
          exact (covered_under hT).2 ((hchild key u hkey).added rest n fields hp hx)

end covered

/-! ## Outside of the value -/

/-- A pointer escapes from an array within one of its elements. -/
lemma escapes_arr {vs : List JsonValue} {token name : Units} {rest path : List Units} :
    Escapes r (token :: rest) (.arr vs) path name ↔
      ∃ i w path', r.index token = some i ∧ vs[i]? = some w ∧ path = indexToken i :: path' ∧
        Escapes r rest w path' name := by
  constructor
  · rintro ⟨fields, h, hnew⟩
    rcases arrives_arr.1 h with ⟨_, _, hx⟩ | ⟨i, w, path', hindex, hi, hpath, h⟩
    · cases hx
    · exact ⟨i, w, path', hindex, hi, hpath, fields, h, hnew⟩
  · rintro ⟨i, w, path', hindex, hi, rfl, fields, h, hnew⟩
    exact ⟨fields, .element hindex hi h, hnew⟩

/-- A pointer escapes from an object by its prototype, or within a member. -/
lemma escapes_obj {fields : List (Units × JsonValue)} {token name : Units}
    {rest path : List Units} :
    Escapes r (token :: rest) (.obj fields) path name ↔
      (path = [] ∧ token = units "__proto__" ∧ rest = [name] ∧
          units "__proto__" ∉ fields.map Prod.fst ∧ name ∈ inheritedNames) ∨
        ∃ w path', fields.lookup token = some w ∧ path = token :: path' ∧
          Escapes r rest w path' name := by
  constructor
  · rintro ⟨fields', h, hnew⟩
    rcases arrives_obj.1 h with ⟨hpath, hleft, hx⟩ | ⟨w, path', hkey, hpath, h⟩
    · obtain ⟨rfl, rfl⟩ := List.cons.inj hleft
      cases hx
      exact .inl ⟨hpath, rfl, rfl, hnew⟩
    · exact .inr ⟨w, path', hkey, hpath, fields', h, hnew⟩
  · rintro (⟨rfl, rfl, rfl, hnew⟩ | ⟨w, path', hkey, rfl, fields', h, hnew⟩)
    · exact ⟨fields, .here _ _, hnew⟩
    · exact ⟨fields', .member hkey h, hnew⟩

/-- No pointer escapes from a scalar. -/
lemma escapes_scalar (hv : (∀ vs, v ≠ .arr vs) ∧ ∀ fields, v ≠ .obj fields)
    {tokens path : List Units} {name : Units} : ¬ Escapes r tokens v path name := by
  rintro ⟨fields, h, _⟩
  obtain ⟨_, _, hx⟩ := arrives_scalar hv h
  exact hv.2 fields hx.symm

/-- No prefix of a path is marked. -/
lemma unmarked_cons {token : Units} {path : List Units} :
    (∀ c, c <+: token :: path → ¬ C c) ↔ ¬ C [] ∧ ∀ c, c <+: path → ¬ C (token :: c) := by
  constructor
  · intro h
    exact ⟨h [] List.nil_prefix, fun c hc => h _ (List.cons_prefix_cons.2 ⟨rfl, hc⟩)⟩
  · rintro ⟨hroot, hrest⟩ c hc
    cases c with
    | nil => exact hroot
    | cons first c =>
      obtain ⟨rfl, hinner⟩ := List.cons_prefix_cons.1 hc
      exact hrest c hinner

/-- Nothing outside of a redacted value is modified. -/
lemma outsideAt_redacted (tokens : List Units) : outsideAt r tokens redacted = none := by
  cases tokens <;> rfl

/-- A pointer to an own member goes on in it. -/
lemma outsideAt_own {fields : List (Units × JsonValue)} {token : Units} {rest : List Units}
    {u : JsonValue} (h : fields.lookup token = some u) :
    outsideAt r (token :: rest) (.obj fields) = outsideAt r rest u := by
  conv_lhs => unfold outsideAt
  rw [h]

/-- A pointer to an inherited member modifies the prototype. -/
lemma outsideAt_inherited {fields : List (Units × JsonValue)} {token name : Units}
    {rest : List Units} (h : fields.lookup token = none) :
    outsideAt r (token :: rest) (.obj fields) = some name ↔
      token = units "__proto__" ∧ rest = [name] ∧ name ∈ inheritedNames := by
  unfold outsideAt
  rw [h]
  rcases rest with _ | ⟨n, _ | ⟨m, rest⟩⟩
  · simp
  · dsimp only
    split
    · next hboth =>
      constructor
      · intro heq
        obtain rfl := Option.some.inj heq
        exact ⟨hboth.1, rfl, hboth.2⟩
      · rintro ⟨_, heq, _⟩
        exact congrArg some (List.cons.inj heq).1
    · next hnot =>
      refine ⟨nofun, fun ⟨htoken, heq, hin⟩ => absurd ⟨htoken, ?_⟩ hnot⟩
      rw [(List.cons.inj heq).1]
      exact hin
  · simp

/-- An added key holds the mark. -/
lemma lookup_added (token : Units) (added : List Units) :
    (token ∈ added →
        (added.map fun name => (name, redacted)).lookup token = some redacted) ∧
      (token ∉ added → (added.map fun name => (name, redacted)).lookup token = none) := by
  constructor
  · intro hin
    have hkey : token ∈ (added.map fun name => (name, redacted)).map Prod.fst := by
      rw [List.map_map]
      simpa using hin
    obtain ⟨u, hu⟩ := lookup_isSome.1 hkey
    obtain ⟨i, hi⟩ := lookup_place hu
    obtain ⟨name, _, heq⟩ := List.mem_map.1 (List.mem_of_getElem? hi)
    rw [hu, ← (Prod.mk.inj heq).2]
  · intro hnot
    rw [List.lookup_eq_none_iff]
    intro f hf
    obtain ⟨name, hname, rfl⟩ := List.mem_map.1 hf
    rw [bne_iff_ne]
    rintro rfl
    exact hnot hname

/-- A pointer changes an inherited property where it escapes from the value and nothing on its way
there is marked. -/
lemma Marked.outsideAt_iff (h : Marked C A v w) (hv : v.Distinct) {tokens : List Units}
    {name : Units} : outsideAt r tokens w = some name ↔
      ∃ path, Escapes r tokens v path name ∧ ∀ c, c <+: path → ¬ C c := by
  have hproto : units "__proto__" ∉ inheritedNames := by decide +kernel
  induction h generalizing tokens with
  | @target C A v hC =>
    rw [outsideAt_redacted]
    exact ⟨nofun, fun ⟨path, _, hfree⟩ => absurd hC (hfree [] List.nil_prefix)⟩
  | null hC =>
    have hnone : outsideAt r tokens .null = none := by cases tokens <;> rfl
    rw [hnone]
    refine ⟨nofun, fun ⟨_, hescapes, _⟩ => absurd hescapes (escapes_scalar ?_)⟩
    exact ⟨nofun, nofun⟩
  | bool hC b =>
    have hnone : outsideAt r tokens (.bool b) = none := by cases tokens <;> rfl
    rw [hnone]
    refine ⟨nofun, fun ⟨_, hescapes, _⟩ => absurd hescapes (escapes_scalar ?_)⟩
    exact ⟨nofun, nofun⟩
  | num hC n =>
    have hnone : outsideAt r tokens (.num n) = none := by cases tokens <;> rfl
    rw [hnone]
    refine ⟨nofun, fun ⟨_, hescapes, _⟩ => absurd hescapes (escapes_scalar ?_)⟩
    exact ⟨nofun, nofun⟩
  | str hC s =>
    have hnone : outsideAt r tokens (.str s) = none := by cases tokens <;> rfl
    rw [hnone]
    refine ⟨nofun, fun ⟨_, hescapes, _⟩ => absurd hescapes (escapes_scalar ?_)⟩
    exact ⟨nofun, nofun⟩
  | @arr C A vs ws hC hlength hvs ih =>
    rw [JsonValue.distinct_arr] at hv
    cases tokens with
    | nil => exact ⟨nofun, fun ⟨_, ⟨_, h, _⟩, _⟩ => by cases h⟩
    | cons token rest =>
      have hread : outsideAt r (token :: rest) (.arr ws) =
          (r.index token).bind fun i => (ws[i]?).bind fun w => outsideAt r rest w := rfl
      rw [hread, Option.bind_eq_some_iff]
      constructor
      · rintro ⟨i, hindex, hout⟩
        obtain ⟨w, hw, hout⟩ := Option.bind_eq_some_iff.1 hout
        have hin : i < vs.length := hlength.symm ▸ (List.getElem?_eq_some_iff.1 hw).1
        have hi := List.getElem?_eq_getElem hin
        obtain ⟨path, hescapes, hfree⟩ :=
          (ih i _ w hi hw (hv _ (List.mem_of_getElem? hi))).1 hout
        exact ⟨indexToken i :: path, escapes_arr.2 ⟨i, _, path, hindex, hi, rfl, hescapes⟩,
          unmarked_cons.2 ⟨hC, hfree⟩⟩
      · rintro ⟨path, hescapes, hfree⟩
        obtain ⟨i, u, path', hindex, hi, rfl, hinner⟩ := escapes_arr.1 hescapes
        have hin : i < ws.length := hlength ▸ (List.getElem?_eq_some_iff.1 hi).1
        have hw := List.getElem?_eq_getElem hin
        refine ⟨i, hindex, Option.bind_eq_some_iff.2 ⟨_, hw, ?_⟩⟩
        exact (ih i u _ hi hw (hv u (List.mem_of_getElem? hi))).2
          ⟨path', hinner, (unmarked_cons.1 hfree).2⟩
  | @obj C A fs gs added hC hkeys hfs hadded hnew ih =>
    obtain ⟨hnodup, hdistinct⟩ := JsonValue.distinct_obj.1 hv
    cases tokens with
    | nil => exact ⟨nofun, fun ⟨_, ⟨_, h, _⟩, _⟩ => by cases h⟩
    | cons token rest =>
      have hlookup : (gs ++ added.map fun name => (name, redacted)).lookup token =
          (gs.lookup token).or ((added.map fun name => (name, redacted)).lookup token) :=
        List.lookup_append
      by_cases hown : token ∈ fs.map Prod.fst
      · -- an own member, in the value and in what has become of it
        obtain ⟨u, hu⟩ := lookup_isSome.1 hown
        obtain ⟨i, hi⟩ := lookup_place hu
        have hin : i < gs.length := by
          have h₁ := congrArg List.length hkeys
          have h₂ := (List.getElem?_eq_some_iff.1 hi).1
          simp only [List.length_map] at h₁
          omega
        have hg := List.getElem?_eq_getElem hin
        have hkey : token = gs[i].1 := key_eq hkeys hi hg
        have hw : gs.lookup token = some gs[i].2 := by
          rw [hkey]
          exact lookup_getElem? (hkeys ▸ hnodup) hg
        have hread : outsideAt r (token :: rest)
            (.obj (gs ++ added.map fun name => (name, redacted))) = outsideAt r rest gs[i].2 := by
          exact outsideAt_own (by rw [hlookup, hw]; rfl)
        rw [hread]
        refine (ih i _ _ hi hg (hdistinct _ (List.mem_of_getElem? hi))).trans ?_
        constructor
        · rintro ⟨path, hescapes, hfree⟩
          exact ⟨token :: path, escapes_obj.2 (.inr ⟨u, path, hu, rfl, hescapes⟩),
            unmarked_cons.2 ⟨hC, hfree⟩⟩
        · rintro ⟨path, hescapes, hfree⟩
          rcases escapes_obj.1 hescapes with ⟨_, htoken, _, hnot, _⟩ | ⟨u', path', hu', rfl, hinner⟩
          · exact absurd (htoken ▸ hown) hnot
          · obtain rfl := Option.some.inj (hu.symm.trans hu')
            exact ⟨path', hinner, (unmarked_cons.1 hfree).2⟩
      · have hfs : ∀ u, fs.lookup token ≠ some u := fun u hu => hown (lookup_isSome.2 ⟨u, hu⟩)
        have hgs : gs.lookup token = none := by
          rw [hkeys] at hown
          by_contra hne
          obtain ⟨u, hu⟩ := Option.ne_none_iff_exists'.1 hne
          exact hown (lookup_isSome.2 ⟨u, hu⟩)
        have hescapes (path : List Units) : Escapes r (token :: rest) (.obj fs) path name ↔
            path = [] ∧ token = units "__proto__" ∧ rest = [name] ∧ name ∈ inheritedNames := by
          rw [escapes_obj]
          constructor
          · rintro (⟨hpath, htoken, hrest, _, hin⟩ | ⟨u, _, hu, _⟩)
            · exact ⟨hpath, htoken, hrest, hin⟩
            · exact absurd hu (hfs u)
          · rintro ⟨hpath, htoken, hrest, hin⟩
            exact .inl ⟨hpath, htoken, hrest, htoken ▸ hown, hin⟩
        by_cases hin : token ∈ added
        · -- an added key holds the marker, and is not `__proto__`
          have hw := (lookup_added token added).1 hin
          have hread : outsideAt r (token :: rest)
              (.obj (gs ++ added.map fun name => (name, redacted))) = none := by
            rw [outsideAt_own (by rw [hlookup, hgs, hw]; rfl), outsideAt_redacted]
          rw [hread]
          refine ⟨nofun, fun ⟨path, hpath, _⟩ => ?_⟩
          obtain ⟨_, htoken, _⟩ := (hescapes path).1 hpath
          exact absurd (htoken ▸ (hnew token hin).1) hproto
        · have hw := (lookup_added token added).2 hin
          have hread : outsideAt r (token :: rest)
              (.obj (gs ++ added.map fun name => (name, redacted))) = some name ↔
                token = units "__proto__" ∧ rest = [name] ∧ name ∈ inheritedNames := by
            exact outsideAt_inherited (by rw [hlookup, hgs, hw]; rfl)
          rw [hread]
          constructor
          · intro hout
            refine ⟨[], (hescapes []).2 ⟨rfl, hout⟩, fun c hc => ?_⟩
            exact List.prefix_nil.1 hc ▸ hC
          · rintro ⟨path, hpath, _⟩
            exact ((hescapes path).1 hpath).2

/-- The loop changes nothing outside when no pointer does at its turn. -/
lemma outsideAll_nil {ps : List (List Units)} : outsideAll r ps v = [] ↔
    ∀ before p after, ps = before ++ p :: after →
      outsideAt r p (before.foldl (fun w q => AuditChain.redactAt r q w) v) = none := by
  induction ps generalizing v with
  | nil =>
    refine ⟨fun _ before p after heq => ?_, fun _ => rfl⟩
    simp at heq
  | cons q ps ih =>
    unfold outsideAll
    rw [List.append_eq_nil_iff, ih, Option.toList_eq_nil_iff]
    constructor
    · rintro ⟨hfirst, hrest⟩ before p after heq
      cases before with
      | nil =>
        obtain ⟨rfl, _⟩ := List.cons.inj heq
        exact hfirst
      | cons b before =>
        obtain ⟨rfl, hps⟩ := List.cons.inj heq
        exact hrest before p after hps
    · intro h
      exact ⟨h [] q ps rfl, fun before p after heq => h (q :: before) p after (by rw [heq]; rfl)⟩

end marked

/-! ## Exactly the targets -/

/-- What redaction returns is the value with the marker exactly where the pointers lead, and nothing
else is changed. -/
def ExactlyTargets (r : Redactor) (raw : JsonValue) (pointers : List Units) (code : String) :
    Prop :=
  ∃ output, applyJsonRedactionPointers r raw pointers code = .ok output ∧
    Marked (fun t => t ∈ targets pointers) (fun _ _ => False) (cloneJsonValue raw) output ∧
    modifiedOutside r raw pointers = []

/-- The walk of the code leads nowhere else than the RFC's. -/
structure OnTarget (r : Redactor) (raw : JsonValue) (pointers : List Units) : Prop where
  /-- what a pointer arrives at is at or below a target, or holds the marker already -/
  reached : ∀ p ∈ targets pointers, ∀ c x, Arrives r p (cloneJsonValue raw) c [] x →
    x = redacted ∨ ∃ t ∈ targets pointers, t <+: c
  /-- no pointer ends in an inherited name of an object, unless that is at or below a target -/
  keys : ∀ p ∈ targets pointers, ∀ c name, Adds r p (cloneJsonValue raw) c name →
    ∃ t ∈ targets pointers, t <+: c
  /-- no pointer goes on to an inherited property, unless an earlier one has put the marker there -/
  within : ∀ before p after, targets (sortPointers pointers) = before ++ p :: after →
    ∀ c name, Escapes r p (cloneJsonValue raw) c name →
      ∃ q ∈ before, ∃ d, Reaches r q (cloneJsonValue raw) d ∧ d <+: c

/-- Sorting the pointers keeps their targets. -/
lemma mem_targets_sort {pointers : List Units} {p : List Units} :
    p ∈ targets (sortPointers pointers) ↔ p ∈ targets pointers :=
  ((List.perm_insertionSort _ pointers).filterMap pointerTokens).mem_iff

/-- The pointers redact one after the other. -/
lemma foldlM_targets {r : Redactor} {code : String} {qs : List Units}
    (h : ∀ q ∈ qs, (pointerTokens q).isSome = true) (v : JsonValue) :
    qs.foldlM (applyPointer r code) v =
      .ok ((targets qs).foldl (fun w p => redactAt r p w) v) := by
  induction qs generalizing v with
  | nil => rfl
  | cons q qs ih =>
    obtain ⟨tokens, htokens⟩ := Option.isSome_iff_exists.1 (h q (List.mem_cons_self ..))
    have hcons : targets (q :: qs) = tokens :: targets qs := by
      unfold targets
      rw [List.filterMap_cons_some htokens]
    have hstep : applyPointer r code v q = .ok (redactAt r tokens v) := by
      unfold applyPointer
      rw [htokens]
    rw [List.foldlM_cons, hstep, hcons, List.foldl_cons]
    exact ih (fun q' hq' => h q' (List.mem_cons_of_mem _ hq')) _

/-- The RFC's targets are among the places that the code arrives at. -/
lemma reached_of_resolves {r : Redactor} {t : List Units} {v x : JsonValue} (h : Resolves t v x) :
    Reaches r t v t := by
  induction h with
  | here v => exact ⟨v, .here _ _⟩
  | element hi _ ih =>
    obtain ⟨y, hy⟩ := ih
    exact ⟨y, .element (r.index_token _) hi hy⟩
  | member hkey _ ih =>
    obtain ⟨y, hy⟩ := ih
    exact ⟨y, .member hkey hy⟩

/-- A path leads to one place. -/
lemma resolves_unique (r : Redactor) {c : List Units} {v x y : JsonValue} (hx : Resolves c v x)
    (hy : Resolves c v y) : x = y := by
  induction hx with
  | here => exact (resolves_nil hy).symm
  | @element vs i w x rest hi _ ih =>
    generalize hc : indexToken i :: rest = c at hy
    cases hy with
    | here => cases hc
    | @element _ j u _ rest' hj h =>
      obtain ⟨htoken, rfl⟩ := List.cons.inj hc
      obtain rfl := indexToken_injective r htoken
      obtain rfl := Option.some.inj (hi.symm.trans hj)
      exact ih h
  | member hkey _ ih =>
    cases hy with
    | member hkey' h =>
      obtain rfl := Option.some.inj (hkey.symm.trans hkey')
      exact ih h

/-- The walk of the code along a pointer that names something is on the way of the RFC's. -/
lemma Resolves.along {r : Redactor} {p c left : List Units} {v x y : JsonValue}
    (h : Resolves p v x) (harrives : Arrives r p v c left y) : c ++ left = p ∧ Resolves left y x := by
  induction harrives with
  | here => exact ⟨rfl, h⟩
  | @element vs token i w _ rest path left hindex hi _ ih =>
    cases h with
    | @element _ j w' _ _ hj h =>
      -- an index without leading zeros is read as itself
      obtain rfl := Option.some.inj ((r.index_token j).symm.trans hindex)
      obtain rfl := Option.some.inj (hj.symm.trans hi)
      obtain ⟨happend, hleft⟩ := ih h
      exact ⟨congrArg (indexToken j :: ·) happend, hleft⟩
  | member hkey _ ih =>
    cases h with
    | member hkey' h =>
      obtain rfl := Option.some.inj (hkey'.symm.trans hkey)
      obtain ⟨happend, hleft⟩ := ih h
      exact ⟨congrArg (_ :: ·) happend, hleft⟩

/-- Pointers that all name something lead the code nowhere else. -/
lemma onTarget_of_resolves {r : Redactor} {raw : JsonValue} {pointers : List Units}
    (h : ∀ p ∈ targets pointers, ∃ x, Resolves p (cloneJsonValue raw) x) :
    OnTarget r raw pointers := by
  have hown : ∀ {p c : List Units} {name : Units} {rest : List Units} {fields},
      p ∈ targets pointers → Arrives r p (cloneJsonValue raw) c (name :: rest) (.obj fields) →
      name ∈ fields.map Prod.fst := by
    intro p c name rest fields hp harrives
    obtain ⟨x, hx⟩ := h p hp
    obtain ⟨-, hleft⟩ := hx.along harrives
    cases hleft with
    | member hkey _ => exact lookup_isSome.2 ⟨_, hkey⟩
  refine ⟨fun p hp c x harrives => ?_, fun p hp c name hadds => ?_,
    fun before p after hsplit c name hescapes => ?_⟩
  · obtain ⟨y, hy⟩ := h p hp
    obtain ⟨happend, -⟩ := hy.along harrives
    rw [List.append_nil] at happend
    exact .inr ⟨p, hp, happend ▸ List.prefix_refl c⟩
  · obtain ⟨fields, harrives, hnot, -⟩ := hadds
    exact absurd (hown hp harrives) hnot
  · obtain ⟨fields, harrives, hnot, -⟩ := hescapes
    have hp : p ∈ targets (sortPointers pointers) :=
      hsplit ▸ List.mem_append_right _ (List.mem_cons_self ..)
    exact absurd (hown (mem_targets_sort.1 hp) harrives) hnot

/-- For every value and every list of valid pointers, redaction changes exactly the targets if and only
if no pointer leads the code anywhere else. -/
theorem redaction_exact (r : Redactor) (raw : JsonValue) (pointers : List Units) (code : String)
    (hraw : raw.Distinct) (hvalid : ∀ p ∈ pointers, (pointerTokens p).isSome = true) :
    ExactlyTargets r raw pointers code ↔ OnTarget r raw pointers := by
  have hv := distinct_clone hraw
  have hsorted : ∀ p ∈ sortPointers pointers, (pointerTokens p).isSome = true :=
    fun p hp => hvalid p ((List.perm_insertionSort _ pointers).mem_iff.1 hp)
  have hrun : applyJsonRedactionPointers r raw pointers code =
      .ok ((targets (sortPointers pointers)).foldl (fun w p => redactAt r p w)
        (cloneJsonValue raw)) := foldlM_targets hsorted _
  have hmarked := marked_foldl (r := r) hv (targets (sortPointers pointers))
  -- outside of the value nothing changes where every pointer that leaves it was cut off before
  have houtside : modifiedOutside r raw pointers = [] ↔
      ∀ before p after, targets (sortPointers pointers) = before ++ p :: after →
        ∀ c name, Escapes r p (cloneJsonValue raw) c name →
          ∃ q ∈ before, ∃ d, Reaches r q (cloneJsonValue raw) d ∧ d <+: c := by
    unfold modifiedOutside
    rw [outsideAll_nil]
    refine forall_congr' fun before => forall_congr' fun p => forall_congr' fun after =>
      forall_congr' fun _ => ?_
    rw [Option.eq_none_iff_forall_ne_some]
    constructor
    · intro hnone c name hescapes
      by_contra hfree
      refine hnone name (((marked_foldl hv before).outsideAt_iff hv).2 ⟨c, hescapes, ?_⟩)
      rintro d hd ⟨q, hq, hreach⟩
      exact hfree ⟨q, hq, d, hreach, hd⟩
    · intro h name hout
      obtain ⟨c, hescapes, hfree⟩ := ((marked_foldl hv before).outsideAt_iff hv).1 hout
      obtain ⟨q, hq, d, hreach, hd⟩ := h c name hescapes
      exact hfree d hd ⟨q, hq, hreach⟩
  constructor
  · rintro ⟨output, hout, htargets, hwithin⟩
    obtain rfl := Except.ok.inj (hrun.symm.trans hout)
    have hcovered := hmarked.covered_of_targets hv htargets
    refine ⟨fun p hp c x harrives => ?_, fun p hp c name hadds => ?_, houtside.1 hwithin⟩
    · exact hcovered.marked c x ⟨p, mem_targets_sort.2 hp, x, harrives⟩ harrives.resolves
    · obtain ⟨fields, harrives, _⟩ := id hadds
      exact hcovered.added c name fields ⟨p, mem_targets_sort.2 hp, hadds⟩ harrives.resolves
  · intro h
    refine ⟨_, hrun, hmarked.targets_of_covered hv ?_ ⟨?_, ?_⟩, houtside.2 h.within⟩
    · intro t x ht hresolves
      exact ⟨t, mem_targets_sort.2 ht, reached_of_resolves hresolves⟩
    · rintro c x ⟨p, hp, y, harrives⟩ hresolves
      obtain rfl := resolves_unique r harrives.resolves hresolves
      exact h.reached p (mem_targets_sort.1 hp) c y harrives
    · rintro c name fields ⟨p, hp, hadds⟩ _
      exact h.keys p (mem_targets_sort.1 hp) c name hadds

/-- A party and the lines of an order. -/
def order : JsonValue :=
  .obj [
    (units "id", .str (units "A1")),
    (units "party", .obj [(units "name", .str (units "Ada")), (units "email", .null)]),
    (units "lines", .arr [.str (units "x"), .str (units "y")])]

/-- A pointer to a member, one into that member and one to an element of a list: the party and the
second line are marked, and the rest stays. -/
theorem order_exact : ExactlyTargets plainRedactor order
    [units "/party/email", units "/lines/1", units "/party"] "JSON_REDACTION_POINTER_INVALID" := by
  have htargets : targets [units "/party/email", units "/lines/1", units "/party"] =
      [[units "party", units "email"], [units "lines", indexToken 1], [units "party"]] := by
    decide +kernel
  refine (redaction_exact plainRedactor _ _ _ ?_ ?_).2 (onTarget_of_resolves ?_)
  · have hparty : ([units "name", units "email"] : List Units).Nodup := by decide +kernel
    have hmembers : ([units "id", units "party", units "lines"] : List Units).Nodup := by
      decide +kernel
    exact ⟨hmembers, trivial, ⟨hparty, trivial, trivial, trivial⟩, ⟨trivial, trivial, trivial⟩,
      trivial⟩
  · decide +kernel
  · rw [htargets]
    refine List.forall_mem_cons.2 ⟨⟨_, .member rfl (.member rfl (.here _))⟩,
      List.forall_mem_cons.2 ⟨⟨_, .member rfl (.element rfl (.here _))⟩,
        List.forall_mem_singleton.2 ⟨_, .member rfl (.here _)⟩⟩⟩

/-- An index with a leading zero names no element, and marks one. -/
theorem leading_zero_marks : ¬ ExactlyTargets plainRedactor
    (.arr [.str (units "x"), .str (units "y")]) [units "/01"] "JSON_REDACTION_POINTER_INVALID" := by
  rintro ⟨output, hout, hmarked, _⟩
  have hmarks : applyJsonRedactionPointers plainRedactor (.arr [.str (units "x"), .str (units "y")])
      [units "/01"] "JSON_REDACTION_POINTER_INVALID" = .ok (.arr [.str (units "x"), redacted]) := by
    have hindex : plainRedactor.index (units "01") = some 1 := by decide +kernel
    have htargets : targets (sortPointers [units "/01"]) = [[units "01"]] := by decide +kernel
    unfold applyJsonRedactionPointers
    rw [foldlM_targets (by decide +kernel), htargets]
    show Except.ok (redactAt plainRedactor [units "01"] (.arr [.str (units "x"), .str (units "y")])) = _
    unfold redactAt
    rw [hindex]
    rfl
  obtain rfl := Except.ok.inj (hmarks.symm.trans hout)
  cases hmarked with
  | arr _ _ hvs =>
    rcases target_or_text (hvs 1 _ _ rfl rfl) with htarget | htext
    · exact absurd htarget (by decide +kernel)
    · exact absurd (JsonValue.str.inj htext) (by decide +kernel)

end NexusClaw.AuditChain.PointerTargets
