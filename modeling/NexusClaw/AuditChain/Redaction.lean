import NexusClaw.AuditChain.JsonValue

/-!
# Redaction

`audit-chain/src/redaction.ts`: `applyJsonRedactionPointers` overwrites the targets of RFC 6901
pointers, `redactSensitivePayload` drops the properties with a sensitive key and scrubs the texts.
`Agree` relates two payloads that differ only where the redaction is to reach; each of the two
functions keeps it, and after both nothing of the difference is left.
-/

namespace NexusClaw.AuditChain

/-! ## Pointers -/

/-- `segment.replace(/~d/gu, c)` for a digit `d`. -/
def replaceEscape (digit c : UInt16) : Units → Units
  | [] => []
  | [a] => [a]
  | a :: b :: rest =>
    if a = unit '~' ∧ b = digit then c :: replaceEscape digit c rest
    else a :: replaceEscape digit c (b :: rest)

/-- `/~(?![01])/u.test(segment)`: a tilde without a digit of an escape after it. -/
def hasBareTilde : Units → Bool
  | [] => false
  | [a] => a = unit '~'
  | a :: b :: rest =>
    (a = unit '~' && b ≠ unit '0' && b ≠ unit '1') || hasBareTilde (b :: rest)

def decodeSegment (segment : Units) : Option Units :=
  if hasBareTilde segment then none
  else some (replaceEscape (unit '0') (unit '~') (replaceEscape (unit '1') (unit '/') segment))

/-- The reference tokens of an RFC 6901 pointer; `none` when it is none. -/
def pointerTokens : Units → Option (List Units)
  | [] => some []
  | c :: rest =>
    if c = unit '/' then (rest.splitOn (unit '/')).mapM decodeSegment else none

/-- The token of an array element. -/
def indexToken (i : Nat) : Units :=
  decimalUnits i

/-- What redaction takes from elsewhere: which keys are sensitive, the replacement of secrets in a
text, and `Number(segment)` where it is an index. -/
structure Redactor where
  sensitive : Units → Bool
  scrubText : Units → Units
  index : Units → Option Nat
  index_token : ∀ i, index (indexToken i) = some i

def redacted : JsonValue :=
  .str (units "[REDACTED]")

/-- The names that every object inherits and that an assignment turns into own properties. -/
def inheritedNames : List Units :=
  ["constructor", "__defineGetter__", "__defineSetter__", "hasOwnProperty", "__lookupGetter__",
    "__lookupSetter__", "isPrototypeOf", "propertyIsEnumerable", "toString", "valueOf",
    "toLocaleString"].map units

/-- The assignment at the end of the path `tokens`. A property that is only inherited leads out of the
payload; at the end of the path it is there for `in`, and becomes an own property (but for
`__proto__`, whose setter ignores a string). -/
def redactAt (r : Redactor) : List Units → JsonValue → JsonValue
  | [], _ => redacted
  | token :: rest, .arr vs =>
    match r.index token with
    | none => .arr vs
    | some i => .arr (vs.modify i (redactAt r rest))
  | token :: rest, .obj fields =>
    if token ∈ fields.map Prod.fst then
      .obj (fields.map fun f => if f.1 = token then (f.1, redactAt r rest f.2) else f)
    else if rest = [] ∧ token ∈ inheritedNames then .obj (fields ++ [(token, redacted)])
    else .obj fields
  | _ :: _, v => v

mutual
/-- `cloneJsonValue`: written and parsed again, a negative zero is a zero. -/
def cloneJsonValue : JsonValue → JsonValue
  | .null => .null
  | .bool b => .bool b
  | .num n => .num n.unsigned
  | .str s => .str s
  | .arr vs => .arr (cloneAll vs)
  | .obj fields => .obj (cloneFields fields)

def cloneAll : List JsonValue → List JsonValue
  | [] => []
  | v :: vs => cloneJsonValue v :: cloneAll vs

def cloneFields : List (Units × JsonValue) → List (Units × JsonValue)
  | [] => []
  | f :: fs => cloneField f :: cloneFields fs

def cloneField : Units × JsonValue → Units × JsonValue
  | (key, v) => (key, cloneJsonValue v)
end

/-- One pointer of the loop. -/
def applyPointer (r : Redactor) (invalidPointerCode : String) (v : JsonValue) (pointer : Units) :
    Except String JsonValue :=
  match pointerTokens pointer with
  | none => .error invalidPointerCode
  | some tokens => .ok (redactAt r tokens v)

/-- `[...pointers].sort()` -/
def sortPointers (pointers : List Units) : List Units :=
  pointers.insertionSort fun p q => p.map UInt16.toNat ≤ q.map UInt16.toNat

/-- `applyJsonRedactionPointers` -/
def applyJsonRedactionPointers (r : Redactor) (raw : JsonValue) (pointers : List Units)
    (invalidPointerCode : String) : Except String JsonValue :=
  (sortPointers pointers).foldlM (applyPointer r invalidPointerCode) (cloneJsonValue raw)

/-! ## Sensitive keys -/

mutual
/-- `redactSensitivePayload` in the mode `drop`. An assignment to `__proto__` makes no property. -/
def redactSensitivePayload (r : Redactor) : JsonValue → JsonValue
  | .null => .null
  | .bool b => .bool b
  | .num n => .num n
  | .str s => .str (r.scrubText s)
  | .arr vs => .arr (redactAll r vs)
  | .obj fields => .obj (redactFields r fields)

def redactAll (r : Redactor) : List JsonValue → List JsonValue
  | [] => []
  | v :: vs => redactSensitivePayload r v :: redactAll r vs

def redactFields (r : Redactor) : List (Units × JsonValue) → List (Units × JsonValue)
  | [] => []
  | f :: fs =>
    if r.sensitive f.1 ∨ f.1 = units "__proto__" then redactFields r fs
    else redactField r f :: redactFields r fs

def redactField (r : Redactor) : Units × JsonValue → Units × JsonValue
  | (key, v) => (key, redactSensitivePayload r v)
end

/-! ## What redaction covers -/

/-- The rests of the pointers that go through `token`. -/
def advance (pointers : List (List Units)) (token : Units) : List (List Units) :=
  pointers.filterMap fun p =>
    match p with
    | [] => none
    | first :: rest => if first = token then some rest else none

/-- Two payloads that differ only at the targets of the pointers and under sensitive keys. -/
inductive Agree (r : Redactor) : List (List Units) → JsonValue → JsonValue → Prop where
  | target {pointers v w} : [] ∈ pointers → Agree r pointers v w
  | null {pointers} : Agree r pointers .null .null
  | bool {pointers} (b) : Agree r pointers (.bool b) (.bool b)
  | num {pointers} (n) : Agree r pointers (.num n) (.num n)
  | str {pointers} (s) : Agree r pointers (.str s) (.str s)
  | arr {pointers vs ws} : vs.length = ws.length →
      (∀ i v w, vs[i]? = some v → ws[i]? = some w → Agree r (advance pointers (indexToken i)) v w) →
      Agree r pointers (.arr vs) (.arr ws)
  | obj {pointers fs gs} : fs.map Prod.fst = gs.map Prod.fst →
      (∀ (i : Nat) (f g : Units × JsonValue), fs[i]? = some f → gs[i]? = some g →
        r.sensitive f.1 = false → Agree r (advance pointers f.1) f.2 g.2) →
      Agree r pointers (.obj fs) (.obj gs)

section agree
variable {r : Redactor} {pointers : List (List Units)} {v w : JsonValue}

/-- What is left of the pointers behind a token. -/
lemma mem_advance {token : Units} {rest : List Units} :
    rest ∈ advance pointers token ↔ token :: rest ∈ pointers := by
  unfold advance
  rw [List.mem_filterMap]
  constructor
  · rintro ⟨p, hp, hrest⟩
    cases p with
    | nil => cases hrest
    | cons first more =>
      dsimp only at hrest
      split_ifs at hrest with hfirst
      cases hrest
      exact hfirst ▸ hp
  · intro h
    exact ⟨_, h, if_pos rfl⟩

/-- A value agrees with itself. -/
lemma Agree.refl (r : Redactor) (pointers : List (List Units)) (v : JsonValue) :
    Agree r pointers v v := by
  induction v generalizing pointers with
  | null => exact .null
  | bool b => exact .bool b
  | num n => exact .num n
  | str s => exact .str s
  | arr vs ih =>
    refine .arr rfl fun i v w hv hw => ?_
    obtain rfl : v = w := Option.some.inj (hv.symm.trans hw)
    exact ih v (List.mem_of_getElem? hv) _
  | obj fields ih =>
    refine .obj rfl fun i f g hf hg _ => ?_
    obtain rfl : f = g := Option.some.inj (hf.symm.trans hg)
    exact ih f (List.mem_of_getElem? hf) _

/-- More pointers hide more. -/
lemma Agree.mono (h : Agree r pointers v w) {pointers' : List (List Units)}
    (hsub : ∀ p ∈ pointers, p ∈ pointers') : Agree r pointers' v w := by
  induction h generalizing pointers' with
  | target hin => exact .target (hsub _ hin)
  | null => exact .null
  | bool b => exact .bool b
  | num n => exact .num n
  | str s => exact .str s
  | arr hlength _ ih =>
    refine .arr hlength fun i v w hv hw => ih i v w hv hw fun p hp => ?_
    exact mem_advance.2 (hsub _ (mem_advance.1 hp))
  | obj hkeys _ ih =>
    refine .obj hkeys fun i f g hf hg hsensitive => ih i f g hf hg hsensitive fun p hp => ?_
    exact mem_advance.2 (hsub _ (mem_advance.1 hp))

/-- Two members at one place have one key. -/
lemma key_eq {α β : Type} {fs : List (Units × α)} {gs : List (Units × β)}
    (hkeys : fs.map Prod.fst = gs.map Prod.fst) {i : Nat} {f : Units × α} {g : Units × β}
    (hf : fs[i]? = some f) (hg : gs[i]? = some g) : f.1 = g.1 := by
  have hleft : (fs.map Prod.fst)[i]? = some f.1 := by rw [List.getElem?_map, hf]; rfl
  have hright : (gs.map Prod.fst)[i]? = some g.1 := by rw [List.getElem?_map, hg]; rfl
  rw [hkeys, hright] at hleft
  exact (Option.some.inj hleft).symm

/-! ## Pointers reach their targets -/

/-- Redacting in two arrays that agree. -/
lemma Agree.redactAt_arr {vs ws : List JsonValue} {token : Units} {rest : List Units}
    {pointers' : List (List Units)} (hlength : vs.length = ws.length)
    (hsub : ∀ p ∈ pointers, p = token :: rest ∨ p ∈ pointers')
    (hvs : ∀ i v w, vs[i]? = some v → ws[i]? = some w → Agree r (advance pointers (indexToken i)) v w)
    (ih : ∀ i v w, vs[i]? = some v → ws[i]? = some w → ∀ {q : List Units}
      {pointers' : List (List Units)},
      (∀ p ∈ advance pointers (indexToken i), p = q ∨ p ∈ pointers') →
      Agree r pointers' (redactAt r q v) (redactAt r q w)) :
    Agree r pointers' (redactAt r (token :: rest) (.arr vs)) (redactAt r (token :: rest) (.arr ws)) := by
  -- an element that the pointer does not go through keeps its other pointers
  have hother (i : Nat) (hi : r.index token ≠ some i) :
      ∀ p ∈ advance pointers (indexToken i), p ∈ advance pointers' (indexToken i) := by
    intro p hp
    rcases hsub _ (mem_advance.1 hp) with heq | hin
    · obtain ⟨htoken, -⟩ := List.cons.inj heq
      exact absurd (htoken ▸ r.index_token i) hi
    · exact mem_advance.2 hin
  unfold redactAt
  cases hindex : r.index token with
  | none =>
    refine .arr hlength fun i v w hv hw => (hvs i v w hv hw).mono (hother i ?_)
    rw [hindex]
    exact fun h => by cases h
  | some k =>
    refine .arr (by simpa using hlength) fun i v w hv hw => ?_
    by_cases hik : k = i
    · subst hik
      rw [List.getElem?_modify_eq] at hv hw
      obtain ⟨v₀, hv₀, rfl⟩ := Option.map_eq_some_iff.1 hv
      obtain ⟨w₀, hw₀, rfl⟩ := Option.map_eq_some_iff.1 hw
      refine ih k v₀ w₀ hv₀ hw₀ fun p hp => ?_
      rcases hsub _ (mem_advance.1 hp) with heq | hin
      · exact .inl (List.cons.inj heq).2
      · exact .inr (mem_advance.2 hin)
    · rw [List.getElem?_modify_ne _ _ hik] at hv hw
      refine (hvs i v w hv hw).mono (hother i ?_)
      rw [hindex]
      exact fun h => hik (Option.some.inj h)

/-- An assignment to a property keeps the keys. -/
lemma keys_assigned (fields : List (Units × JsonValue)) (token : Units) (g : JsonValue → JsonValue) :
    (fields.map fun f => if f.1 = token then (f.1, g f.2) else f).map Prod.fst =
      fields.map Prod.fst := by
  rw [List.map_map]
  refine List.map_congr_left fun f _ => ?_
  dsimp only [Function.comp_apply]
  split_ifs
  · rfl
  · rfl

/-- Redacting in two objects that agree. -/
lemma Agree.redactAt_obj {fs gs : List (Units × JsonValue)} {token : Units} {rest : List Units}
    {pointers' : List (List Units)} (hkeys : fs.map Prod.fst = gs.map Prod.fst)
    (hsub : ∀ p ∈ pointers, p = token :: rest ∨ p ∈ pointers')
    (hfs : ∀ (i : Nat) (f g : Units × JsonValue), fs[i]? = some f → gs[i]? = some g →
      r.sensitive f.1 = false → Agree r (advance pointers f.1) f.2 g.2)
    (ih : ∀ (i : Nat) (f g : Units × JsonValue), fs[i]? = some f → gs[i]? = some g →
      r.sensitive f.1 = false → ∀ {q : List Units} {pointers' : List (List Units)},
      (∀ p ∈ advance pointers f.1, p = q ∨ p ∈ pointers') →
      Agree r pointers' (redactAt r q f.2) (redactAt r q g.2)) :
    Agree r pointers' (redactAt r (token :: rest) (.obj fs))
      (redactAt r (token :: rest) (.obj gs)) := by
  -- a member that the pointer does not go through keeps its other pointers
  have hother (i : Nat) (f g : Units × JsonValue) (hf : fs[i]? = some f) (hg : gs[i]? = some g)
      (hsensitive : r.sensitive f.1 = false) (hne : f.1 ≠ token) :
      Agree r (advance pointers' f.1) f.2 g.2 := by
    refine (hfs i f g hf hg hsensitive).mono fun p hp => ?_
    rcases hsub _ (mem_advance.1 hp) with heq | hin
    · exact absurd (List.cons.inj heq).1 hne
    · exact mem_advance.2 hin
  unfold redactAt
  rw [← hkeys]
  split_ifs with hown hnew
  · refine .obj ?_ fun i f g hf hg hsensitive => ?_
    · rw [keys_assigned, keys_assigned, hkeys]
    · rw [List.getElem?_map] at hf hg
      obtain ⟨f₀, hf₀, rfl⟩ := Option.map_eq_some_iff.1 hf
      obtain ⟨g₀, hg₀, rfl⟩ := Option.map_eq_some_iff.1 hg
      have hkey := key_eq hkeys hf₀ hg₀
      rw [← hkey]
      by_cases htoken : f₀.1 = token
      · rw [if_pos htoken] at hsensitive
        rw [if_pos htoken, if_pos htoken]
        refine ih i f₀ g₀ hf₀ hg₀ hsensitive fun p hp => ?_
        rcases hsub _ (mem_advance.1 hp) with heq | hin
        · exact .inl (List.cons.inj heq).2
        · exact .inr (mem_advance.2 hin)
      · rw [if_neg htoken] at hsensitive
        rw [if_neg htoken, if_neg htoken]
        exact hother i f₀ g₀ hf₀ hg₀ hsensitive htoken
  · have hlength : fs.length = gs.length := by simpa using congrArg List.length hkeys
    refine .obj (by rw [List.map_append, List.map_append, hkeys]) fun i f g hf hg hsensitive => ?_
    by_cases hi : i < fs.length
    · rw [List.getElem?_append_left hi] at hf
      rw [List.getElem?_append_left (hlength ▸ hi)] at hg
      refine hother i f g hf hg hsensitive fun htoken => hown ?_
      exact htoken ▸ List.mem_map_of_mem (List.mem_of_getElem? hf)
    · rw [List.getElem?_append_right (Nat.le_of_not_lt hi)] at hf
      rw [List.getElem?_append_right (hlength ▸ Nat.le_of_not_lt hi), ← hlength, hf] at hg
      cases hg
      exact Agree.refl ..
  · refine .obj hkeys fun i f g hf hg hsensitive => hother i f g hf hg hsensitive fun htoken => hown ?_
    exact htoken ▸ List.mem_map_of_mem (List.mem_of_getElem? hf)

/-- A pointer closes the differences at its target and opens none. -/
lemma Agree.redactAt (h : Agree r pointers v w) {q : List Units} {pointers' : List (List Units)}
    (hsub : ∀ p ∈ pointers, p = q ∨ p ∈ pointers') :
    Agree r pointers' (redactAt r q v) (redactAt r q w) := by
  induction h generalizing q pointers' with
  | target hin =>
    rcases hsub _ hin with hq | hin'
    · subst hq
      exact Agree.refl ..
    · exact .target hin'
  | null => exact Agree.refl ..
  | bool b => exact Agree.refl ..
  | num n => exact Agree.refl ..
  | str s => exact Agree.refl ..
  | arr hlength hvs ih =>
    cases q with
    | nil => exact Agree.refl ..
    | cons token rest =>
      exact Agree.redactAt_arr hlength hsub hvs fun i v w hv hw _ _ => ih i v w hv hw
  | obj hkeys hfs ih =>
    cases q with
    | nil => exact Agree.refl ..
    | cons token rest =>
      exact Agree.redactAt_obj hkeys hsub hfs fun i f g hf hg hs _ _ => ih i f g hf hg hs

/-- The elements are cloned one by one. -/
lemma cloneAll_eq (vs : List JsonValue) : cloneAll vs = vs.map cloneJsonValue := by
  induction vs with
  | nil => rfl
  | cons v vs ih => rw [cloneAll, ih, List.map_cons]

/-- The members are cloned one by one. -/
lemma cloneFields_eq (fields : List (Units × JsonValue)) :
    cloneFields fields = fields.map fun f => (f.1, cloneJsonValue f.2) := by
  induction fields with
  | nil => rfl
  | cons f fs ih => rw [cloneFields, ih, List.map_cons, cloneField]

/-- Clones agree as the values do. -/
lemma Agree.clone (h : Agree r pointers v w) :
    Agree r pointers (cloneJsonValue v) (cloneJsonValue w) := by
  induction h with
  | target hin => exact .target hin
  | null => exact Agree.refl ..
  | bool b => exact Agree.refl ..
  | num n => exact Agree.refl ..
  | str s => exact Agree.refl ..
  | arr hlength _ ih =>
    rw [cloneJsonValue, cloneJsonValue, cloneAll_eq, cloneAll_eq]
    refine .arr (by simpa using hlength) fun i v w hv hw => ?_
    rw [List.getElem?_map] at hv hw
    obtain ⟨v₀, hv₀, rfl⟩ := Option.map_eq_some_iff.1 hv
    obtain ⟨w₀, hw₀, rfl⟩ := Option.map_eq_some_iff.1 hw
    exact ih i v₀ w₀ hv₀ hw₀
  | obj hkeys _ ih =>
    rw [cloneJsonValue, cloneJsonValue, cloneFields_eq, cloneFields_eq]
    refine .obj ?_ fun i f g hf hg hsensitive => ?_
    · rw [JsonValue.keys_map, JsonValue.keys_map, hkeys]
    · rw [List.getElem?_map] at hf hg
      obtain ⟨f₀, hf₀, rfl⟩ := Option.map_eq_some_iff.1 hf
      obtain ⟨g₀, hg₀, rfl⟩ := Option.map_eq_some_iff.1 hg
      exact ih i f₀ g₀ hf₀ hg₀ hsensitive

/-- The tokens of the pointers of a descriptor. -/
def targets (pointers : List Units) : List (List Units) :=
  pointers.filterMap pointerTokens

/-- After all pointers, only what is under sensitive keys may differ. -/
lemma foldlM_agree {code : String} {qs : List Units} (h : Agree r pointers v w)
    (hall : ∀ p ∈ pointers, p ∈ targets qs) :
    (∃ e, qs.foldlM (applyPointer r code) v = .error e ∧
        qs.foldlM (applyPointer r code) w = .error e) ∨
      ∃ v' w', qs.foldlM (applyPointer r code) v = .ok v' ∧
        qs.foldlM (applyPointer r code) w = .ok w' ∧ Agree r [] v' w' := by
  -- induction on the pointers: each takes one disagreement away
  induction qs generalizing pointers v w with
  | nil =>
    refine .inr ⟨v, w, rfl, rfl, h.mono fun p hp => ?_⟩
    exact absurd (hall p hp) (by simp [targets])
  | cons q qs ih =>
    rw [List.foldlM_cons, List.foldlM_cons]
    unfold applyPointer
    cases htokens : pointerTokens q with
    | none => exact .inl ⟨code, rfl, rfl⟩
    | some tokens =>
      have hstep : Agree r (pointers.filter (· ≠ tokens)) (AuditChain.redactAt r tokens v)
          (AuditChain.redactAt r tokens w) := by
        refine h.redactAt fun p hp => ?_
        by_cases heq : p = tokens
        · exact .inl heq
        · exact .inr (List.mem_filter.2 ⟨hp, by simpa using heq⟩)
      refine ih hstep fun p hp => ?_
      · obtain ⟨hp, hne⟩ := List.mem_filter.1 hp
        have hin := hall p hp
        unfold targets at hin
        rw [List.filterMap_cons_some htokens] at hin
        rcases List.mem_cons.1 hin with heq | hin
        · exact absurd heq (by simpa using hne)
        · exact hin

/-- Pointer redaction of two payloads that differ only where it reaches. -/
lemma applyJsonRedactionPointers_agree {code : String} {qs : List Units}
    (h : Agree r (targets qs) v w) :
    (∃ e, applyJsonRedactionPointers r v qs code = .error e ∧
        applyJsonRedactionPointers r w qs code = .error e) ∨
      ∃ v' w', applyJsonRedactionPointers r v qs code = .ok v' ∧
        applyJsonRedactionPointers r w qs code = .ok w' ∧ Agree r [] v' w' := by
  refine foldlM_agree h.clone fun p hp => ?_
  exact ((List.perm_insertionSort _ qs).filterMap _).mem_iff.2 hp

/-! ## Sensitive keys are dropped -/

/-- The elements are redacted one by one. -/
lemma redactAll_eq (r : Redactor) (vs : List JsonValue) :
    redactAll r vs = vs.map (redactSensitivePayload r) := by
  induction vs with
  | nil => rfl
  | cons v vs ih => rw [redactAll, ih, List.map_cons]

/-- The keys that stay. -/
def Redactor.keeps (r : Redactor) (key : Units) : Bool :=
  decide ¬ (r.sensitive key = true ∨ key = units "__proto__")

/-- The members are redacted one by one. -/
lemma redactFields_eq (r : Redactor) (fields : List (Units × JsonValue)) :
    redactFields r fields =
      (fields.filter fun f => r.keeps f.1).map fun f => (f.1, redactSensitivePayload r f.2) := by
  induction fields with
  | nil => rfl
  | cons f fs ih =>
    rw [redactFields, List.filter_cons, ih]
    by_cases hdrop : r.sensitive f.1 = true ∨ f.1 = units "__proto__"
    · have hkeeps : ¬ r.keeps f.1 = true := fun h => of_decide_eq_true h hdrop
      rw [if_pos hdrop, if_neg hkeeps]
    · have hkeeps : r.keeps f.1 = true := decide_eq_true hdrop
      rw [if_neg hdrop, if_pos hkeeps, List.map_cons, redactField]

/-- Scrubbing leaves nothing of the difference. -/
lemma Agree.redactSensitivePayload (h : Agree r [] v w) :
    redactSensitivePayload r v = redactSensitivePayload r w := by
  generalize hnone : ([] : List (List Units)) = pointers at h
  -- what disagrees lies under a target, and no target is left
  induction h with
  | target hin =>
    subst hnone
    cases hin
  | null => rfl
  | bool b => rfl
  | num n => rfl
  | str s => rfl
  | arr hlength _ ih =>
    subst hnone
    rw [AuditChain.redactSensitivePayload, AuditChain.redactSensitivePayload, redactAll_eq,
      redactAll_eq]
    refine congrArg JsonValue.arr (List.ext_getElem (by simpa using hlength) fun i hi hi' => ?_)
    rw [List.getElem_map, List.getElem_map]
    exact ih i _ _ (List.getElem?_eq_getElem _) (List.getElem?_eq_getElem _) rfl
  | @obj pointers fs gs hkeys _ ih =>
    subst hnone
    rw [AuditChain.redactSensitivePayload, AuditChain.redactSensitivePayload]
    refine congrArg JsonValue.obj ?_
    clear * - hkeys ih
    induction fs generalizing gs with
    | nil =>
      cases gs with
      | nil => rfl
      | cons g gs => cases hkeys
    | cons f fs ihs =>
      cases gs with
      | nil => cases hkeys
      | cons g gs =>
        obtain ⟨hkey, hkeys⟩ := List.cons.inj hkeys
        have hrest := ihs hkeys fun i f g hf hg => ih (i + 1) f g hf hg
        rw [redactFields, redactFields, hrest, ← hkey]
        split_ifs with hdrop
        · rfl
        · have hsensitive : r.sensitive f.1 = false := eq_false_of_ne_true fun h => hdrop (.inl h)
          have hvalue := ih 0 f g rfl rfl hsensitive rfl
          obtain ⟨key, v⟩ := f
          obtain ⟨key', w⟩ := g
          rw [redactField, redactField, hvalue, show key = key' from hkey]

/-! ## Keys stay distinct -/

/-- A clone repeats no key. -/
lemma distinct_clone (hv : v.Distinct) : (cloneJsonValue v).Distinct := by
  induction v with
  | null => trivial
  | bool b => trivial
  | num n => trivial
  | str s => trivial
  | arr vs ih =>
    rw [JsonValue.distinct_arr] at hv
    rw [cloneJsonValue, cloneAll_eq, JsonValue.distinct_arr]
    exact List.forall_mem_map.2 fun v hmem => ih v hmem (hv v hmem)
  | obj fields ih =>
    obtain ⟨hnodup, hfields⟩ := JsonValue.distinct_obj.1 hv
    rw [cloneJsonValue, cloneFields_eq, JsonValue.distinct_obj, JsonValue.keys_map]
    exact ⟨hnodup, List.forall_mem_map.2 fun f hf => ih f hf (hfields f hf)⟩

/-- A redacted value repeats no key. -/
lemma distinct_redactAt (tokens : List Units) (hv : v.Distinct) : (redactAt r tokens v).Distinct := by
  -- induction on the value: a marker takes the place of a member, or comes under a new key
  induction v generalizing tokens with
  | null => cases tokens <;> trivial
  | bool b => cases tokens <;> trivial
  | num n => cases tokens <;> trivial
  | str s => cases tokens <;> trivial
  | arr vs ih =>
    cases tokens with
    | nil => trivial
    | cons token rest =>
      rw [AuditChain.redactAt]
      cases r.index token with
      | none => exact hv
      | some i =>
        rw [JsonValue.distinct_arr] at hv ⊢
        intro w hw
        obtain ⟨j, hj⟩ := List.getElem?_of_mem hw
        by_cases hij : i = j
        · subst hij
          rw [List.getElem?_modify_eq] at hj
          obtain ⟨u, hu, rfl⟩ := Option.map_eq_some_iff.1 hj
          exact ih u (List.mem_of_getElem? hu) rest (hv u (List.mem_of_getElem? hu))
        · rw [List.getElem?_modify_ne _ _ hij] at hj
          exact hv w (List.mem_of_getElem? hj)
  | obj fields ih =>
    obtain ⟨hnodup, hfields⟩ := JsonValue.distinct_obj.1 hv
    cases tokens with
    | nil => trivial
    | cons token rest =>
      rw [AuditChain.redactAt]
      split_ifs with hown hnew
      · refine JsonValue.distinct_obj.2 ⟨?_, List.forall_mem_map.2 fun f hf => ?_⟩
        · rw [keys_assigned]
          exact hnodup
        · split_ifs
          · exact ih f hf rest (hfields f hf)
          · exact hfields f hf
      · refine JsonValue.distinct_obj.2 ⟨?_, fun f hf => ?_⟩
        · rw [List.map_append]
          exact hnodup.append (List.nodup_singleton _) (List.disjoint_singleton.2 hown)
        · rcases List.mem_append.1 hf with hf | hf
          · exact hfields f hf
          · rw [List.mem_singleton.1 hf]
            trivial
      · exact hv

/-- Nor does it after all pointers. -/
lemma distinct_pointers {code : String} {qs : List Units} {w : JsonValue} (hv : v.Distinct)
    (h : qs.foldlM (applyPointer r code) v = .ok w) : w.Distinct := by
  induction qs generalizing v with
  | nil =>
    cases h
    exact hv
  | cons q qs ih =>
    rw [List.foldlM_cons] at h
    unfold applyPointer at h
    cases htokens : pointerTokens q with
    | none =>
      rw [htokens] at h
      cases h
    | some tokens =>
      rw [htokens] at h
      exact ih (distinct_redactAt tokens hv) h

/-- Nor does a payload without its sensitive members. -/
lemma distinct_redactSensitivePayload (hv : v.Distinct) :
    (AuditChain.redactSensitivePayload r v).Distinct := by
  induction v with
  | null => trivial
  | bool b => trivial
  | num n => trivial
  | str s => trivial
  | arr vs ih =>
    rw [JsonValue.distinct_arr] at hv
    rw [AuditChain.redactSensitivePayload, redactAll_eq, JsonValue.distinct_arr]
    exact List.forall_mem_map.2 fun v hmem => ih v hmem (hv v hmem)
  | obj fields ih =>
    obtain ⟨hnodup, hfields⟩ := JsonValue.distinct_obj.1 hv
    rw [AuditChain.redactSensitivePayload, redactFields_eq, JsonValue.distinct_obj,
      JsonValue.keys_map]
    refine ⟨(List.filter_sublist.map _).nodup hnodup, List.forall_mem_map.2 fun f hf => ?_⟩
    have hf := List.mem_of_mem_filter hf
    exact ih f hf (hfields f hf)

end agree

end NexusClaw.AuditChain
