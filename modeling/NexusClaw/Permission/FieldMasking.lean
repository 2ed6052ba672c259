import NexusClaw.AuditChain.Redaction
import NexusClaw.Double

/-!
# Field masking

`permission/src/field-masking.ts`: the rules of an object are applied one after the other to a copy of
each record. A value is undefined, null, a text or something else; what the source gets from
elsewhere (`String` of a value that is no text, digests, the buckets of a range mask, the properties
that every object inherits, the rounding of sums and differences) is in `Host`.
-/

namespace NexusClaw.Permission.FieldMasking
open AuditChain (Units unit units inheritedNames)

/-! ## Records and rules -/

/-- The value of a field; `other` is neither undefined, null nor a text. -/
inductive Value (ν : Type) where
  | undefined
  | null
  | text (s : Units)
  | other (v : ν)
deriving DecidableEq

/-- The own properties of a record. -/
abbrev Record (ν : Type) : Type :=
  List (Units × Value ν)

/-- `maskType`; `partly` is `'partial'`. -/
inductive MaskType where
  | hide
  | partly
  | hash
  | range
deriving DecidableEq

inductive HashAlgorithm where
  | sha256
  | md5
deriving DecidableEq

/-- What the mask types read of their configuration. -/
structure MaskConfig where
  prefixLength : Option Double := none
  suffixLength : Option Double := none
  maskChar : Option Units := none
  algorithm : Option Units := none
  truncateLength : Option Double := none
  bucketSize : Option Double := none
  unit : Option Units := none

structure FieldMaskRule where
  objectApiName : Units
  fieldApiName : Units
  maskType : MaskType
  maskConfig : MaskConfig

structure Host (ν : Type) where
  /-- `String(value)` -/
  textOf : ν → Units
  /-- `createHash(algorithm).update(text).digest('hex')` -/
  digest : HashAlgorithm → Units → Units
  /-- the texts of `lower` and `upper`, unless the value is no number -/
  bucket : Value ν → Double → Option (Units × Units)
  /-- the value of an inherited property -/
  inherited : Units → ν
  rounding : NearestRounding

/-! ## Masks -/

/-- `Math.max(0, length || 0)`; `none` is infinite. -/
def windowLength (length : Option Double) : Option Rat :=
  match Double.orZero length with
  | .nan => some 0
  | .infinite negative => if negative then some 0 else none
  | .finite q => some (max 0 q)

/-- `s.repeat(n)` -/
def repeatUnits (s : Units) (n : Nat) : Units :=
  (List.replicate n s).flatten

/-- `config.maskChar || '*'` -/
def MaskConfig.char (config : MaskConfig) : Units :=
  match config.maskChar with
  | none => units "*"
  | some s => if s = [] then units "*" else s

/-- `length - prefixLen - suffixLen`, as a number of repetitions. -/
def middleLength (r : NearestRounding) (length : Nat) (prefixLen suffixLen : Rat) : Nat :=
  (r.sub (r.round (length - prefixLen)) (.finite suffixLen)).toNat

/-- `length - suffixLen`, as a position. -/
def suffixStart (r : NearestRounding) (length : Nat) (suffixLen : Rat) : Nat :=
  (r.round (length - suffixLen)).toNat

/-- The windows of a partial mask on a text. -/
def maskText (r : NearestRounding) (config : MaskConfig) (s : Units) : Units :=
  match windowLength config.prefixLength, windowLength config.suffixLength with
  | some prefixLen, some suffixLen =>
    if (Double.finite s.length).le (r.round (prefixLen + suffixLen)) then
      repeatUnits config.char s.length
    else
      s.take ⌊prefixLen⌋.toNat ++
        repeatUnits config.char (middleLength r s.length prefixLen suffixLen) ++
        s.drop (suffixStart r s.length suffixLen)
  | _, _ => repeatUnits config.char s.length

def applyPartialMask {ν : Type} (host : Host ν) (value : Value ν) (config : MaskConfig) : Units :=
  match value with
  | .undefined => []
  | .null => []
  | .text s => if s = [] then [] else maskText host.rounding config s
  | .other v => maskText host.rounding config (host.textOf v)

/-- `hash.slice(0, end)` -/
def sliceTo (s : Units) : Double → Units
  | .nan => []
  | .infinite negative => if negative then [] else s
  | .finite q =>
    -- the end is cut to a whole number; a negative one counts from the end of the text
    if 0 ≤ q then s.take ⌊q⌋.toNat else s.take (s.length - ⌊-q⌋.toNat)

def applyHashMask {ν : Type} (host : Host ν) (value : Value ν) (config : MaskConfig) : Units :=
  let algorithm := if config.algorithm = some (units "md5") then HashAlgorithm.md5 else .sha256
  let digest (s : Units) : Units :=
    let hash := host.digest algorithm s
    match config.truncateLength with
    | none => hash
    | some n => if n.truthy then sliceTo hash n else hash
  match value with
  | .undefined => []
  | .null => []
  | .text s => if s = [] then [] else digest s
  | .other v => digest (host.textOf v)

/-- `config.bucketSize || 1` -/
def MaskConfig.bucket (config : MaskConfig) : Double :=
  match config.bucketSize with
  | none => .finite 1
  | some n => if n.truthy then n else .finite 1

def applyRangeMask {ν : Type} (host : Host ν) (value : Value ν) (config : MaskConfig) : Units :=
  match value with
  | .undefined => []
  | .null => []
  | value =>
    match host.bucket value config.bucket with
    | none => []
    | some (lower, upper) => lower ++ units "-" ++ upper ++ config.unit.getD []

/-! ## Rules on a record -/

section records
variable {ν : Type}

/-- `name in record` -/
def present (record : Record ν) (name : Units) : Bool :=
  (record.lookup name).isSome || decide (name ∈ inheritedNames) || name == units "__proto__"

/-- `record[name]` -/
def read (host : Host ν) (record : Record ν) (name : Units) : Value ν :=
  (record.lookup name).getD (.other (host.inherited name))

/-- `delete record[name]` -/
def remove (record : Record ν) (name : Units) : Record ν :=
  record.filter fun field => field.1 ≠ name

/-- `record[name] = s`; the inherited setter `__proto__` ignores a text. -/
def assign (record : Record ν) (name : Units) (s : Units) : Record ν :=
  if (record.lookup name).isSome then
    record.map fun field => if field.1 = name then (name, .text s) else field
  else if name = units "__proto__" then record
  else record ++ [(name, .text s)]

/-- The loop body for a rule. -/
def applyRule (host : Host ν) (masked : Record ν) (rule : FieldMaskRule) : Record ν :=
  let name := rule.fieldApiName
  if !present masked name then masked
  else
    match rule.maskType with
    | .hide => remove masked name
    | .partly => assign masked name (applyPartialMask host (read host masked name) rule.maskConfig)
    | .hash => assign masked name (applyHashMask host (read host masked name) rule.maskConfig)
    | .range => assign masked name (applyRangeMask host (read host masked name) rule.maskConfig)

def applicableRules (rules : List FieldMaskRule) (objectApiName : Units) : List FieldMaskRule :=
  rules.filter fun rule => rule.objectApiName = objectApiName

def applyMasks (host : Host ν) (records : List (Record ν)) (rules : List FieldMaskRule)
    (objectApiName : Units) : List (Record ν) :=
  let applicable := applicableRules rules objectApiName
  if applicable.length = 0 then records
  else records.map fun record => applicable.foldl (applyRule host) record

end records

/-! ## Windows of a partial mask -/

/-- The configuration masks with one character. -/
def MaskConfig.Single (config : MaskConfig) : Prop :=
  config.char.length = 1

/-- A partial mask has windows of these lengths, and they do not meet in a text of length `n`. -/
def MaskConfig.Leaves (r : NearestRounding) (config : MaskConfig) (n : Nat)
    (prefixLen suffixLen : Rat) : Prop :=
  windowLength config.prefixLength = some prefixLen ∧
    windowLength config.suffixLength = some suffixLen ∧
    (Double.finite n).le (r.round (prefixLen + suffixLen)) = false

/-- A partial mask leaves position `j` of a text of length `n` as it is. -/
def Exposes (r : NearestRounding) (config : MaskConfig) (n j : Nat) : Prop :=
  ∃ prefixLen suffixLen, config.Leaves r n prefixLen suffixLen ∧
    (j < ⌊prefixLen⌋.toNat ∨ suffixStart r n suffixLen ≤ j)

/-- The masked middle fits between prefix and suffix of a text of length `n`: so it does for windows of
whole lengths. -/
def Aligned (r : NearestRounding) (config : MaskConfig) (n : Nat) : Prop :=
  ∀ prefixLen suffixLen, config.Leaves r n prefixLen suffixLen →
    ⌊prefixLen⌋.toNat + middleLength r n prefixLen suffixLen = suffixStart r n suffixLen

/-- The length of the longest text that the engine builds. -/
def maxLength : Nat :=
  2 ^ 29 - 24

/-- A window is not shorter than nothing. -/
lemma windowLength_nonneg {length : Option Double} {q : Rat} (h : windowLength length = some q) :
    0 ≤ q := by
  unfold windowLength at h
  cases hn : Double.orZero length with
  | nan =>
    rw [hn] at h
    exact (Option.some.inj h) ▸ le_refl _
  | infinite negative =>
    rw [hn] at h
    cases negative with
    | true => exact (Option.some.inj h) ▸ le_refl _
    | false => cases h
  | finite x =>
    rw [hn] at h
    exact (Option.some.inj h) ▸ le_max_left _ _

/-- A repeated unit. -/
lemma repeatUnits_single {c : UInt16} (n : Nat) : repeatUnits [c] n = List.replicate n c := by
  unfold repeatUnits
  induction n with
  | zero => rfl
  | succ n ih => rw [List.replicate_succ, List.flatten_cons, ih]; rfl

/-- A mask of one unit. -/
lemma MaskConfig.Single.char {config : MaskConfig} (h : config.Single) :
    ∃ c, config.char = [c] :=
  List.length_eq_one_iff.1 h

section windows
variable {r : NearestRounding} {n : Nat} {p q : Rat}

/-- Windows that do not meet leave room between them. -/
lemma room (hn : n ≤ maxLength) (h : (Double.finite n).le (r.round (p + q)) = false) :
    p + q < n := by
  by_contra hge
  have hmono := r.mono n (p + q) (not_lt.1 hge)
  have hwhole := r.whole n (by unfold maxLength at hn; omega)
  rw [Int.cast_natCast] at hwhole
  rw [hwhole, h] at hmono
  cases hmono

/-- A difference of a length and a window that fits is a number between zero and the length. -/
lemma difference (r : NearestRounding) (hn : n ≤ maxLength) (hp : 0 ≤ p) (hle : p ≤ n) :
    ∃ x, r.round (n - p) = .finite x ∧ 0 ≤ x ∧ x ≤ n := by
  have hroom : (n : Int).natAbs ≤ 2 ^ 53 := by
    unfold maxLength at hn
    omega
  obtain ⟨x, hx, hlow, hhigh⟩ := r.round_between (a := 0) (b := n) (q := n - p) (by decide) hroom
    (by push_cast; linarith) (by push_cast; linarith)
  exact ⟨x, hx, by exact_mod_cast hlow, by exact_mod_cast hhigh⟩

/-- The suffix begins within the text. -/
lemma suffixStart_le (hn : n ≤ maxLength) (hq : 0 ≤ q) (hle : q ≤ n) : suffixStart r n q ≤ n := by
  obtain ⟨x, hx, -, hhigh⟩ := difference r hn hq hle
  unfold suffixStart
  rw [hx]
  have hfloor : ⌊x⌋ ≤ n := Int.cast_le.1 ((Int.floor_le x).trans (by exact_mod_cast hhigh))
  dsimp only [Double.toNat]
  omega

/-- A whole number that is at most a difference is at most its whole part. -/
lemma le_toNat {k : Nat} {x : Rat} (h : (Double.finite k).le (.finite x) = true) :
    k ≤ (Double.finite x).toNat := by
  have hk : (k : Int) ≤ ⌊x⌋ := Int.le_floor.2 (by exact_mod_cast Double.finite_le.1 h)
  dsimp only [Double.toNat]
  omega

/-- Prefix and middle end no later than the suffix begins. -/
lemma windows_le (hn : n ≤ maxLength) (hp : 0 ≤ p) (hq : 0 ≤ q) (hroom : p + q < n) :
    ⌊p⌋.toNat + middleLength r n p q ≤ suffixStart r n q := by
  obtain ⟨x, hx, hx₀, hxn⟩ := difference r hn hp (by linarith)
  obtain ⟨y, hy, -, -⟩ := difference r hn hq (by linarith)
  -- the prefix is as long as its whole part
  obtain ⟨m, hm⟩ : ∃ m : Nat, ⌊p⌋ = m :=
    ⟨⌊p⌋.toNat, (Int.toNat_of_nonneg (Int.floor_nonneg.2 hp)).symm⟩
  have hmp : (m : Rat) ≤ p := by
    have h := Int.floor_le p
    rw [hm] at h
    exact_mod_cast h
  have hmn : m ≤ n := by
    have h : (m : Rat) < n := by linarith
    exact_mod_cast h.le
  have hxm : x ≤ (n : Rat) - m := by
    have h := r.mono (n - p) (n - m) (by linarith)
    have hwhole := r.whole (n - m) (by unfold maxLength at hn; omega)
    push_cast at hwhole
    rw [hx, hwhole] at h
    exact Double.finite_le.1 h
  have hstart : suffixStart r n q = (Double.finite y).toNat := by rw [suffixStart, hy]
  have hmiddle : middleLength r n p q = (r.round (x - q)).toNat := by
    rw [middleLength, hx, Rounding.sub, Double.neg, Rounding.add, sub_eq_add_neg]
  rw [hm, Int.toNat_natCast, hstart, hmiddle]
  apply le_toNat
  rw [← hy]
  obtain ⟨z, hz, -, hzn⟩ := r.round_between (a := -n) (b := n - m) (q := x - q)
    (by unfold maxLength at hn; omega) (by unfold maxLength at hn; omega)
    (by push_cast; linarith) (by push_cast; linarith)
  rw [hz]
  rcases lt_or_ge z 0 with hneg | hpos
  · -- no room for a middle
    have hfloor : ⌊z⌋ < 0 := Int.floor_lt.2 (by exact_mod_cast hneg)
    have hzero : (Double.finite z).toNat = 0 := Int.toNat_of_nonpos hfloor.le
    have h := r.mono m (n - q) (by linarith)
    have hwhole := r.whole m (by unfold maxLength at hn; omega)
    push_cast at hwhole
    rw [hwhole] at h
    rw [hzero, Nat.add_zero]
    exact h
  · obtain ⟨k, hk⟩ : ∃ k : Nat, ⌊z⌋ = k :=
      ⟨⌊z⌋.toNat, (Int.toNat_of_nonneg (Int.floor_nonneg.2 hpos)).symm⟩
    have hkz : (k : Rat) ≤ z := by
      have h := Int.floor_le z
      rw [hk] at h
      exact_mod_cast h
    have hkn : k + m ≤ n := by
      have h : (k : Rat) ≤ (n : Rat) - m := by
        push_cast at hzn
        linarith
      have hsum : ((k + m : Nat) : Rat) ≤ n := by
        push_cast
        linarith
      exact_mod_cast hsum
    have hcount : (Double.finite z).toNat = k := by rw [Double.toNat, hk, Int.toNat_natCast]
    -- the middle is one of the shorter text behind the prefix
    have hshort : (Double.finite k).le (r.round (n - m - q)) = true := by
      have hmono := r.mono (x - q) (n - m - q) (by linarith)
      rw [hz] at hmono
      exact Double.le_trans (Double.finite_le.2 hkz) hmono
    have hfurther := r.further (n - m - q) k m (by unfold maxLength at hn; omega) hshort
    have heq : (n : Rat) - m - q + m = n - q := by ring
    rw [heq] at hfurther
    rw [hcount, Nat.add_comm]
    exact hfurther

end windows

section texts
variable {r : NearestRounding} {config : MaskConfig} {s : Units}

/-- What a mask leaves is determined. -/
lemma MaskConfig.Leaves.unique {n : Nat} {p q p' q' : Rat} (h : config.Leaves r n p q)
    (h' : config.Leaves r n p' q') : p = p' ∧ q = q' :=
  ⟨Option.some.inj (h.1.symm.trans h'.1), Option.some.inj (h.2.1.symm.trans h'.2.1)⟩

/-- Windows of whole lengths fit. -/
lemma aligned_whole {p q : Int} (hp : config.prefixLength = some (.finite p))
    (hq : config.suffixLength = some (.finite q)) {n : Nat} (hn : n ≤ maxLength) :
    Aligned r config n := by
  have hwindow (length : Option Double) (q : Int) (h : length = some (.finite q)) :
      windowLength length = some ((max 0 q : Int) : Rat) := by
    subst h
    unfold windowLength Double.orZero Double.truthy
    by_cases hq : q = 0
    · simp [hq]
    · simp [hq]
  rintro p' q' ⟨hp', hq', hlt⟩
  obtain rfl := Option.some.inj ((hwindow _ p hp).symm.trans hp')
  obtain rfl := Option.some.inj ((hwindow _ q hq).symm.trans hq')
  have hfits : max 0 p + max 0 q < (n : Int) := by exact_mod_cast room hn hlt
  unfold maxLength at hn
  have hrest := r.whole (n - max 0 p) (by omega)
  have hmiddle := r.whole (n - max 0 p + -max 0 q) (by omega)
  have hend := r.whole (n - max 0 q) (by omega)
  push_cast at hrest hmiddle hend
  unfold middleLength suffixStart
  push_cast
  rw [hrest, hend, Rounding.sub, Double.neg, Rounding.add, hmiddle]
  have hfloor (m : Int) : (Double.finite m).toNat = m.toNat := by
    rw [Double.toNat, Int.floor_intCast]
  have hmiddle' := hfloor (n - max 0 p + -max 0 q)
  have hend' := hfloor (n - max 0 q)
  have hprefix : ⌊((max 0 p : Int) : Rat)⌋ = max 0 p := Int.floor_intCast _
  push_cast at hmiddle' hend' hprefix
  rw [hmiddle', hend', hprefix]
  omega

/-- What a partial mask makes of a text: it is masked whole, or prefix, middle and suffix. -/
lemma maskText_cases {c : UInt16} (hc : config.char = [c]) :
    (maskText r config s = List.replicate s.length c ∧ ∀ p q, ¬ config.Leaves r s.length p q) ∨
    ∃ p q, config.Leaves r s.length p q ∧
      maskText r config s = s.take ⌊p⌋.toNat ++
        List.replicate (middleLength r s.length p q) c ++ s.drop (suffixStart r s.length q) := by
  unfold maskText MaskConfig.Leaves
  rw [hc]
  cases hp : windowLength config.prefixLength with
  | none => exact .inl ⟨repeatUnits_single _, fun _ _ h => (by cases h.1)⟩
  | some p =>
    cases hq : windowLength config.suffixLength with
    | none => exact .inl ⟨repeatUnits_single _, fun _ _ h => (by cases h.2.1)⟩
    | some q =>
      dsimp only
      cases hle : (Double.finite s.length).le (r.round (p + q)) with
      | true =>
        refine .inl ⟨repeatUnits_single _, ?_⟩
        rintro p' q' ⟨hp', hq', hlt⟩
        obtain rfl := Option.some.inj hp'
        obtain rfl := Option.some.inj hq'
        rw [hle] at hlt
        cases hlt
      | false =>
        rw [if_neg Bool.false_ne_true, repeatUnits_single]
        exact .inr ⟨p, q, ⟨rfl, rfl, hle⟩, rfl⟩

/-- Where the windows of a mask lie in a text. -/
lemma MaskConfig.Leaves.bounds {n : Nat} {p q : Rat} (hn : n ≤ maxLength)
    (h : config.Leaves r n p q) :
    ⌊p⌋.toNat + middleLength r n p q ≤ suffixStart r n q ∧ suffixStart r n q ≤ n := by
  have hp := windowLength_nonneg h.1
  have hq := windowLength_nonneg h.2.1
  have hroom := room hn h.2.2
  exact ⟨windows_le hn hp hq hroom, suffixStart_le hn hq (by linarith)⟩

/-- A masked text is no longer than the text, and as long only if the mask is aligned. -/
lemma maskText_length (h : config.Single) (hs : s.length ≤ maxLength) :
    (maskText r config s).length ≤ s.length ∧
      ((maskText r config s).length = s.length ↔ Aligned r config s.length) := by
  obtain ⟨c, hc⟩ := h.char
  rcases maskText_cases (r := r) (s := s) hc with ⟨htext, hnone⟩ | ⟨p, q, hleaves, htext⟩
  · rw [htext, List.length_replicate]
    exact ⟨le_refl _, iff_of_true rfl fun p q hleaves => absurd hleaves (hnone p q)⟩
  · obtain ⟨hle, hstart⟩ := hleaves.bounds hs
    have hlength : (maskText r config s).length = ⌊p⌋.toNat +
        middleLength r s.length p q + (s.length - suffixStart r s.length q) := by
      rw [htext, List.length_append, List.length_append, List.length_take, List.length_replicate,
        List.length_drop, min_eq_left (by omega)]
    rw [hlength]
    refine ⟨by omega, ?_⟩
    constructor
    · intro heq p' q' hleaves'
      obtain ⟨rfl, rfl⟩ := hleaves.unique hleaves'
      omega
    · intro haligned
      have heq := haligned p q hleaves
      omega

/-- An aligned mask works position by position. -/
lemma maskText_getElem? {c : UInt16} (hc : config.char = [c]) (hs : s.length ≤ maxLength)
    (h : Aligned r config s.length) (j : Nat) (hj : j < s.length) :
    (Exposes r config s.length j → (maskText r config s)[j]? = s[j]?) ∧
      (¬ Exposes r config s.length j → (maskText r config s)[j]? = some c) := by
  rcases maskText_cases (r := r) (s := s) hc with ⟨htext, hnone⟩ | ⟨p, q, hleaves, htext⟩
  · refine ⟨fun ⟨p, q, hleaves, _⟩ => absurd hleaves (hnone p q), fun _ => ?_⟩
    rw [htext, List.getElem?_replicate, if_pos hj]
  · have heq := h p q hleaves
    have hstart := (hleaves.bounds hs).2
    have hexposes : Exposes r config s.length j ↔
        j < ⌊p⌋.toNat ∨ suffixStart r s.length q ≤ j := by
      constructor
      · rintro ⟨p', q', hleaves', hin⟩
        obtain ⟨rfl, rfl⟩ := hleaves.unique hleaves'
        exact hin
      · exact fun hin => ⟨p, q, hleaves, hin⟩
    have htake : (s.take ⌊p⌋.toNat).length = ⌊p⌋.toNat := by
      rw [List.length_take]
      omega
    rw [hexposes, htext, List.append_assoc]
    -- the front, the hidden middle and the end
    rcases Nat.lt_or_ge j ⌊p⌋.toNat with hbefore | hafter
    · refine ⟨fun _ => ?_, fun hnot => absurd (.inl hbefore) hnot⟩
      rw [List.getElem?_append_left (by omega), List.getElem?_take, if_pos hbefore]
    · rw [List.getElem?_append_right (by omega), htake]
      rcases Nat.lt_or_ge j (suffixStart r s.length q) with hmiddle | hend
      · refine ⟨fun hin => by omega, fun _ => ?_⟩
        rw [List.getElem?_append_left (by rw [List.length_replicate]; omega),
          List.getElem?_replicate, if_pos (by omega)]
      · refine ⟨fun _ => ?_, fun hnot => absurd (.inr hend) hnot⟩
        rw [List.getElem?_append_right (by rw [List.length_replicate]; omega),
          List.length_replicate, List.getElem?_drop]
        congr 1
        omega

/-- Nothing is masked in an empty text. -/
lemma maskText_nil (r : NearestRounding) (config : MaskConfig) : maskText r config [] = [] := by
  unfold maskText
  cases hp : windowLength config.prefixLength with
  | none => rfl
  | some p =>
    cases hq : windowLength config.suffixLength with
    | none => rfl
    | some q =>
      have hle := r.mono 0 (p + q) (add_nonneg (windowLength_nonneg hp) (windowLength_nonneg hq))
      rw [r.zero] at hle
      exact if_pos hle

/-- Several partial masks, one after the other. -/
def maskTexts (r : NearestRounding) (configs : List MaskConfig) (s : Units) : Units :=
  configs.foldl (fun t config => maskText r config t) s

/-- One mask after the other. -/
lemma maskTexts_cons (config : MaskConfig) (configs : List MaskConfig) (s : Units) :
    maskTexts r (config :: configs) s = maskTexts r configs (maskText r config s) := rfl

/-- Several masks keep the length only if each of them is aligned. -/
lemma maskTexts_length {configs : List MaskConfig} (h : ∀ config ∈ configs, config.Single)
    (s : Units) (hs : s.length ≤ maxLength) :
    (maskTexts r configs s).length ≤ s.length ∧
      ((maskTexts r configs s).length = s.length ↔
        ∀ config ∈ configs, Aligned r config s.length) := by
  induction configs generalizing s with
  | nil => exact ⟨le_refl _, iff_of_true rfl (by simp)⟩
  | cons config configs ih =>
    obtain ⟨hle, hiff⟩ := maskText_length (r := r) (h config (List.mem_cons_self ..)) hs
    obtain ⟨hle', hiff'⟩ := ih (fun c hc => h c (List.mem_cons_of_mem _ hc)) (maskText r config s)
      (hle.trans hs)
    rw [maskTexts_cons]
    refine ⟨hle'.trans hle, ?_⟩
    constructor
    · intro heq
      have hsame : (maskText r config s).length = s.length := by omega
      rw [hsame] at hiff'
      intro c hc
      rcases List.mem_cons.1 hc with rfl | hc
      · exact hiff.1 hsame
      · exact hiff'.1 heq c hc
    · intro hall
      have hsame := hiff.2 (hall config (List.mem_cons_self ..))
      rw [hsame] at hiff'
      exact hiff'.2 fun c hc => hall c (List.mem_cons_of_mem _ hc)

/-- Two texts of one length under aligned masks: the results agree wherever the texts do, and wherever
some mask covers the position. -/
lemma maskTexts_agree {configs : List MaskConfig} (h : ∀ config ∈ configs, config.Single)
    {s s' : Units} (hshort : s.length ≤ maxLength) (hlength : s'.length = s.length)
    (haligned : ∀ config ∈ configs, Aligned r config s.length) {j : Nat}
    (hj : s[j]? = s'[j]? ∨ ∃ config ∈ configs, ¬ Exposes r config s.length j) :
    (maskTexts r configs s)[j]? = (maskTexts r configs s')[j]? := by
  -- induction on the masks: each keeps the length and may hide more
  induction configs generalizing s s' with
  | nil =>
    rcases hj with hsame | ⟨_, hin, _⟩
    · exact hsame
    · cases hin
  | cons config configs ih =>
    have hsingle := h config (List.mem_cons_self ..)
    have hhere := haligned config (List.mem_cons_self ..)
    have hshort' : s'.length ≤ maxLength := hlength ▸ hshort
    have hs := (maskText_length hsingle hshort).2.2 hhere
    have hs' := (maskText_length hsingle hshort').2.2 (hlength ▸ hhere)
    rw [maskTexts_cons, maskTexts_cons]
    refine ih (fun c hc => h c (List.mem_cons_of_mem _ hc)) (by omega) (by omega)
      (fun c hc => hs ▸ haligned c (List.mem_cons_of_mem _ hc)) ?_
    rw [hs]
    rcases Nat.lt_or_ge j s.length with hin | hout
    · obtain ⟨c, hc⟩ := hsingle.char
      obtain ⟨hkeep, hcover⟩ := maskText_getElem? hc hshort hhere j hin
      obtain ⟨hkeep', hcover'⟩ :=
        maskText_getElem? hc hshort' (hlength ▸ hhere) j (hlength.symm ▸ hin)
      rw [hlength] at hkeep' hcover'
      by_cases hexposes : Exposes r config s.length j
      · rcases hj with hsame | ⟨other, hother, hnot⟩
        · exact .inl (by rw [hkeep hexposes, hkeep' hexposes, hsame])
        · rcases List.mem_cons.1 hother with rfl | hother
          · exact absurd hexposes hnot
          · exact .inr ⟨other, hother, hnot⟩
      · exact .inl (by rw [hcover hexposes, hcover' hexposes])
    · refine .inl ?_
      rw [List.getElem?_eq_none (by omega), List.getElem?_eq_none (by omega)]

end texts

/-! ## Rules on a record, field by field -/

section fields
variable {ν : Type} {host : Host ν} {record : Record ν} {name field : Units}

/-- A removed field is gone, and no other is. -/
lemma lookup_remove : (remove record name).lookup field =
    if field = name then none else record.lookup field := by
  unfold remove
  induction record with
  | nil => simp
  | cons f record ih =>
    by_cases hf : f.1 = name
    · rw [List.filter_cons_of_neg (by simpa using hf), ih]
      split
      · rfl
      · next hne =>
        have hfield : (field == f.1) = false := by simpa using fun h => hne (h.trans hf)
        obtain ⟨key, v⟩ := f
        rw [List.lookup_cons, hfield]
    · rw [List.filter_cons_of_pos (by simpa using hf)]
      obtain ⟨key, v⟩ := f
      rw [List.lookup_cons, List.lookup_cons, ih]
      by_cases hfield : field = key
      · subst hfield
        simpa using hf
      · have hno : (field == key) = false := by simpa using hfield
        rw [hno]

/-- A field that is replaced is found with its text. -/
lemma lookup_map_text (s : Units) :
    (record.map fun f => if f.1 = name then (name, Value.text s) else f).lookup field =
      if field = name then (record.lookup field).map fun _ => Value.text s
      else record.lookup field := by
  induction record with
  | nil => simp
  | cons f record ih =>
    obtain ⟨key, v⟩ := f
    rw [List.map_cons, List.lookup_cons]
    dsimp only
    by_cases hkey : key = name
    · subst hkey
      rw [if_pos rfl, List.lookup_cons, ih]
      by_cases hfield : field = key
      · simp [hfield]
      · have hno : (field == key) = false := by simpa using hfield
        simp [hno, hfield]
    · rw [if_neg hkey, List.lookup_cons, ih]
      by_cases hfield : field = key
      · subst hfield
        simp [hkey]
      · have hno : (field == key) = false := by simpa using hfield
        simp [hno]

/-- An assignment leaves the other fields. -/
lemma lookup_assign_ne {s : Units} (h : field ≠ name) :
    (assign record name s).lookup field = record.lookup field := by
  unfold assign
  split
  · rw [lookup_map_text, if_neg h]
  · split
    · rfl
    · have hno : (field == name) = false := by simpa using h
      rw [List.lookup_append, List.lookup_cons, hno]
      simp

/-- An assigned field is found, unless it is the prototype. -/
lemma lookup_assign {s : Units} (h : (record.lookup name).isSome ∨ name ≠ units "__proto__") :
    (assign record name s).lookup name = some (.text s) := by
  unfold assign
  by_cases hown : (record.lookup name).isSome
  · rw [if_pos hown, lookup_map_text, if_pos rfl]
    obtain ⟨v, hv⟩ := Option.isSome_iff_exists.1 hown
    rw [hv]
    rfl
  · rw [if_neg hown, if_neg (h.resolve_left hown), List.lookup_append]
    rw [Option.not_isSome_iff_eq_none] at hown
    simp [hown]

/-- What a rule that does not hide writes. -/
def written (host : Host ν) (rule : FieldMaskRule) (v : Value ν) : Units :=
  match rule.maskType with
  | .hide => []
  | .partly => applyPartialMask host v rule.maskConfig
  | .hash => applyHashMask host v rule.maskConfig
  | .range => applyRangeMask host v rule.maskConfig

variable {rule : FieldMaskRule}

/-- A rule is about its field. -/
lemma applyRule_other (h : field ≠ rule.fieldApiName) :
    (applyRule host record rule).lookup field = record.lookup field := by
  unfold applyRule
  dsimp only
  split
  · rfl
  · split
    · rw [lookup_remove, if_neg h]
    · exact lookup_assign_ne h
    · exact lookup_assign_ne h
    · exact lookup_assign_ne h

/-- A hidden field is gone. -/
lemma applyRule_hide (h : rule.maskType = .hide) :
    (applyRule host record rule).lookup rule.fieldApiName = none := by
  unfold applyRule
  dsimp only
  split
  · next hpresent =>
    by_contra hne
    rw [← Ne, Option.ne_none_iff_isSome] at hne
    simp [present, hne] at hpresent
  · rw [h]
    dsimp only
    rw [lookup_remove, if_pos rfl]

/-- Any other rule writes its field if it is present. -/
lemma applyRule_write (h : rule.maskType ≠ .hide) :
    applyRule host record rule =
      if present record rule.fieldApiName then
        assign record rule.fieldApiName (written host rule (read host record rule.fieldApiName))
      else record := by
  unfold applyRule written
  dsimp only
  cases hpresent : present record rule.fieldApiName with
  | false => rfl
  | true =>
    cases htype : rule.maskType with
    | hide => exact absurd htype h
    | partly => rfl
    | hash => rfl
    | range => rfl

/-- A rule writes what it makes of an own field. -/
lemma applyRule_own {v : Value ν} (h : rule.maskType ≠ .hide)
    (hown : record.lookup rule.fieldApiName = some v) :
    (applyRule host record rule).lookup rule.fieldApiName =
      some (.text (written host rule v)) := by
  have hpresent : present record rule.fieldApiName = true := by simp [present, hown]
  have hread : read host record rule.fieldApiName = v := by simp [read, hown]
  rw [applyRule_write h, if_pos hpresent, hread]
  exact lookup_assign (.inl (by simp [hown]))

/-- An inherited name becomes a field of the record. -/
lemma applyRule_inherited (h : rule.maskType ≠ .hide) (hin : rule.fieldApiName ∈ inheritedNames) :
    ((applyRule host record rule).lookup rule.fieldApiName).isSome = true := by
  have hpresent : present record rule.fieldApiName = true := by simp [present, hin]
  have hproto : rule.fieldApiName ≠ units "__proto__" := by
    intro heq
    rw [heq] at hin
    exact absurd hin (by decide +kernel)
  rw [applyRule_write h, if_pos hpresent, lookup_assign (.inr hproto)]
  rfl

/-- Any other name that is no field of the record does not become one. -/
lemma applyRule_absent (hnone : record.lookup rule.fieldApiName = none)
    (hin : rule.fieldApiName ∉ inheritedNames) :
    (applyRule host record rule).lookup rule.fieldApiName = none := by
  by_cases hhide : rule.maskType = .hide
  · exact applyRule_hide hhide
  · rw [applyRule_write hhide]
    split
    · next hpresent =>
      have hproto : rule.fieldApiName = units "__proto__" := by
        simpa [present, hnone, hin] using hpresent
      unfold assign
      rw [hnone, if_neg (by simp), if_pos hproto, hnone]
    · exact hnone

/-! ## Runs of the loop -/

/-- The rules of other fields leave a field. -/
lemma rules_other {rules : List FieldMaskRule} (h : ∀ rule ∈ rules, rule.fieldApiName ≠ field) :
    (rules.foldl (applyRule host) record).lookup field = record.lookup field := by
  induction rules generalizing record with
  | nil => rfl
  | cons rule rules ih =>
    rw [List.foldl_cons, ih fun r hr => h r (List.mem_cons_of_mem _ hr)]
    exact applyRule_other (h rule (List.mem_cons_self ..)).symm

/-- A field that is hidden and that no object inherits is gone. -/
lemma rules_hidden {rules : List FieldMaskRule} (hin : field ∉ inheritedNames)
    (h : record.lookup field = none ∨
      ∃ rule ∈ rules, rule.fieldApiName = field ∧ rule.maskType = .hide) :
    (rules.foldl (applyRule host) record).lookup field = none := by
  induction rules generalizing record with
  | nil =>
    rcases h with hnone | ⟨_, hr, _⟩
    · exact hnone
    · cases hr
  | cons rule rules ih =>
    rw [List.foldl_cons]
    refine ih ?_
    by_cases hfield : rule.fieldApiName = field
    · rcases h with hnone | ⟨r, hr, hname, hhide⟩
      · exact .inl (hfield ▸ applyRule_absent (hfield.symm ▸ hnone) (hfield.symm ▸ hin))
      · rcases List.mem_cons.1 hr with rfl | hr
        · exact .inl (hname ▸ applyRule_hide hhide)
        · exact .inr ⟨r, hr, hname, hhide⟩
    · rcases h with hnone | ⟨r, hr, hname, hhide⟩
      · exact .inl ((applyRule_other (Ne.symm hfield)).trans hnone)
      · rcases List.mem_cons.1 hr with rfl | hr
        · exact absurd hname hfield
        · exact .inr ⟨r, hr, hname, hhide⟩

/-- The last rule on a field decides whether an inherited name is left. -/
lemma rules_last {rules later : List FieldMaskRule}
    (hlater : ∀ r ∈ later, r.fieldApiName ≠ rule.fieldApiName)
    (hin : rule.fieldApiName ∈ inheritedNames) :
    ((rules ++ rule :: later).foldl (applyRule host) record).lookup rule.fieldApiName = none ↔
      rule.maskType = .hide := by
  rw [List.foldl_append, List.foldl_cons, rules_other hlater]
  constructor
  · intro hnone
    by_contra hhide
    have hsome : ((applyRule host (rules.foldl (applyRule host) record) rule).lookup
        rule.fieldApiName).isSome = true := applyRule_inherited hhide hin
    rw [hnone] at hsome
    cases hsome
  · exact applyRule_hide

/-- Partial masks on a text, with whatever rules on other fields between them. -/
lemma rules_text {rules : List FieldMaskRule} {s : Units} (hown : record.lookup field = some (.text s))
    (h : ∀ rule ∈ rules, rule.fieldApiName = field → rule.maskType = .partly) :
    (rules.foldl (applyRule host) record).lookup field =
      some (.text (maskTexts host.rounding
        ((rules.filter fun rule => rule.fieldApiName = field).map FieldMaskRule.maskConfig) s)) := by
  induction rules generalizing record s with
  | nil => exact hown
  | cons rule rules ih =>
    rw [List.foldl_cons]
    by_cases hfield : rule.fieldApiName = field
    · have htype := h rule (List.mem_cons_self ..) hfield
      have hwritten : written host rule (.text s) = maskText host.rounding rule.maskConfig s := by
        unfold written
        rw [htype]
        show (if s = [] then [] else maskText host.rounding rule.maskConfig s) = _
        split
        · next hs =>
          rw [hs, maskText_nil]
        · rfl
      have hstep : (applyRule host record rule).lookup field =
          some (.text (maskText host.rounding rule.maskConfig s)) := by
        rw [← hwritten, ← hfield]
        exact applyRule_own (by simp [htype]) (hfield.symm ▸ hown)
      rw [List.filter_cons_of_pos (by simpa using hfield), List.map_cons, maskTexts_cons]
      exact ih hstep fun r hr => h r (List.mem_cons_of_mem _ hr)
    · rw [List.filter_cons_of_neg (by simpa using hfield)]
      exact ih ((applyRule_other (Ne.symm hfield)).trans hown)
        fun r hr => h r (List.mem_cons_of_mem _ hr)

end fields

/-! ## What masked records reveal -/

section reveals
variable {ν : Type}

/-- The rules of the object on a field are partial masks with one mask character each. -/
def PartialOnly (rules : List FieldMaskRule) (objectApiName field : Units) : Prop :=
  ∀ rule ∈ applicableRules rules objectApiName, rule.fieldApiName = field →
    rule.maskType = .partly ∧ rule.maskConfig.Single

/-- Hidden fields are gone, fields without a rule are as they were, and behind partial masks a text has
its length, with a position that depends on the input's at that position, and not even on that
unless every mask exposes it. -/
structure RevealsOnly (host : Host ν) (records : List (Record ν)) (rules : List FieldMaskRule)
    (objectApiName : Units) : Prop where
  hidden : ∀ out ∈ applyMasks host records rules objectApiName,
    ∀ rule ∈ applicableRules rules objectApiName, rule.maskType = .hide →
      out.lookup rule.fieldApiName = none
  unchanged : List.Forall₂ (fun record out => ∀ field,
      (∀ rule ∈ applicableRules rules objectApiName, rule.fieldApiName ≠ field) →
        out.lookup field = record.lookup field)
    records (applyMasks host records rules objectApiName)
  windows : ∀ i record field s, records[i]? = some record → record.lookup field = some (.text s) →
    PartialOnly rules objectApiName field →
    ∃ out t, (applyMasks host records rules objectApiName)[i]? = some out ∧
      out.lookup field = some (.text t) ∧ t.length = s.length ∧
      -- the other run is on the same records, but for the text of this field
      ∀ s', s'.length = s.length → ∃ out' t',
        (applyMasks host (records.set i (assign record field s')) rules objectApiName)[i]? =
          some out' ∧ out'.lookup field = some (.text t') ∧ t'.length = s.length ∧
        ∀ j, (s[j]? = s'[j]? ∨ ∃ rule ∈ applicableRules rules objectApiName,
            rule.fieldApiName = field ∧ ¬ Exposes host.rounding rule.maskConfig s.length j) →
          t[j]? = t'[j]?

/-- Where a rule hides a name that every object inherits, a hide rule is the last one on it. -/
def HidesLast (rules : List FieldMaskRule) : Prop :=
  ∀ rule ∈ rules, rule.maskType = .hide → rule.fieldApiName ∈ inheritedNames →
    ∃ earlier last later, rules = earlier ++ last :: later ∧ last.maskType = .hide ∧
      last.fieldApiName = rule.fieldApiName ∧ ∀ r ∈ later, r.fieldApiName ≠ last.fieldApiName

/-- Every partial mask on a text leaves a middle that fits. -/
def AllAligned (r : NearestRounding) (records : List (Record ν)) (rules : List FieldMaskRule)
    (objectApiName : Units) : Prop :=
  ∀ record ∈ records, ∀ field s, record.lookup field = some (.text s) →
    PartialOnly rules objectApiName field →
    ∀ rule ∈ applicableRules rules objectApiName, rule.fieldApiName = field →
      Aligned r rule.maskConfig s.length

variable {host : Host ν} {records : List (Record ν)} {rules : List FieldMaskRule}
  {objectApiName : Units}

/-- The rules that apply are applied to each record. -/
lemma applyMasks_eq : applyMasks host records rules objectApiName =
    records.map fun record => (applicableRules rules objectApiName).foldl (applyRule host) record := by
  unfold applyMasks
  dsimp only
  split
  · next hempty =>
    rw [List.eq_nil_of_length_eq_zero hempty]
    simp
  · rfl

/-- The last rule on a field, where there is one. -/
lemma last_rule {rules : List FieldMaskRule} {field : Units}
    (h : ∃ rule ∈ rules, rule.fieldApiName = field) :
    ∃ earlier last later, rules = earlier ++ last :: later ∧ last.fieldApiName = field ∧
      ∀ r ∈ later, r.fieldApiName ≠ field := by
  induction rules with
  | nil =>
    obtain ⟨rule, hrule, _⟩ := h
    cases hrule
  | cons first rest ih =>
    by_cases hrest : ∃ rule ∈ rest, rule.fieldApiName = field
    · obtain ⟨earlier, last, later, rfl, hname, hlater⟩ := ih hrest
      exact ⟨first :: earlier, last, later, rfl, hname, hlater⟩
    · obtain ⟨rule, hrule, hname⟩ := h
      rcases List.mem_cons.1 hrule with rfl | hin
      · exact ⟨[], rule, rest, rfl, hname, fun r hr hfield => hrest ⟨r, hr, hfield⟩⟩
      · exact absurd ⟨rule, hin, hname⟩ hrest

/-- Hidden fields are gone if and only if no later rule writes them again. -/
lemma hidden_iff : (∀ out ∈ applyMasks host records rules objectApiName,
      ∀ rule ∈ applicableRules rules objectApiName, rule.maskType = .hide →
        out.lookup rule.fieldApiName = none) ↔
    records = [] ∨ HidesLast (applicableRules rules objectApiName) := by
  rw [applyMasks_eq]
  constructor
  · intro h
    refine or_iff_not_imp_left.2 fun hrecords rule hrule hhide hin => ?_
    obtain ⟨record, rest, rfl⟩ := List.exists_cons_of_ne_nil hrecords
    obtain ⟨earlier, last, later, hsplit, hname, hlater⟩ := last_rule ⟨rule, hrule, rfl⟩
    rw [← hname] at hlater
    refine ⟨earlier, last, later, hsplit, ?_, hname, hlater⟩
    have hnone := h _ (List.mem_map_of_mem (List.mem_cons_self ..)) rule hrule hhide
    rw [hsplit, ← hname] at hnone
    exact (rules_last hlater (hname ▸ hin)).1 hnone
  · intro h out hout rule hrule hhide
    obtain ⟨record, hrecord, rfl⟩ := List.mem_map.1 hout
    rcases h with rfl | hlast
    · cases hrecord
    · by_cases hin : rule.fieldApiName ∈ inheritedNames
      · obtain ⟨earlier, last, later, hsplit, htype, hname, hlater⟩ := hlast rule hrule hhide hin
        rw [hsplit, ← hname]
        exact (rules_last hlater (hname.symm ▸ hin)).2 htype
      · exact rules_hidden hin (.inr ⟨rule, hrule, rfl, hhide⟩)

/-- The partial masks on a field, in their order. -/
def masksOn (rules : List FieldMaskRule) (objectApiName field : Units) : List MaskConfig :=
  ((applicableRules rules objectApiName).filter fun rule => rule.fieldApiName = field).map
    FieldMaskRule.maskConfig

/-- The masks on a field are those of the rules on it. -/
lemma mem_masksOn {field : Units} {config : MaskConfig} :
    config ∈ masksOn rules objectApiName field ↔
      ∃ rule ∈ applicableRules rules objectApiName, rule.fieldApiName = field ∧
        rule.maskConfig = config := by
  unfold masksOn
  rw [List.mem_map]
  constructor
  · rintro ⟨rule, hrule, rfl⟩
    obtain ⟨hin, hname⟩ := List.mem_filter.1 hrule
    exact ⟨rule, hin, of_decide_eq_true hname, rfl⟩
  · rintro ⟨rule, hin, hname, rfl⟩
    exact ⟨rule, List.mem_filter.2 ⟨hin, decide_eq_true hname⟩, rfl⟩

/-- A text under partial masks alone is masked by each of them. -/
lemma masked_text (host : Host ν) {record : Record ν} {field s : Units} {i : Nat}
    (hi : records[i]? = some record) (hown : record.lookup field = some (.text s))
    (h : PartialOnly rules objectApiName field) :
    ∃ out, (applyMasks host records rules objectApiName)[i]? = some out ∧
      out.lookup field =
        some (.text (maskTexts host.rounding (masksOn rules objectApiName field) s)) := by
  rw [applyMasks_eq, List.getElem?_map, hi]
  exact ⟨_, rfl, rules_text hown fun rule hrule hname => (h rule hrule hname).1⟩

/-- The texts of the records are texts that the engine can build. -/
def Short (records : List (Record ν)) : Prop :=
  ∀ record ∈ records, ∀ field s, record.lookup field = some (.text s) → s.length ≤ maxLength

/-- Masking reveals only what every rule allows if and only if hidden inherited names stay hidden and
the windows of partial masks fit. -/
theorem applyMasks_reveals (host : Host ν) {records : List (Record ν)} (rules : List FieldMaskRule)
    (objectApiName : Units) (hshort : Short records) :
    RevealsOnly host records rules objectApiName ↔
      (records = [] ∨ HidesLast (applicableRules rules objectApiName)) ∧
        AllAligned host.rounding records rules objectApiName := by
  constructor
  · intro h
    refine ⟨hidden_iff.1 h.hidden, fun record hrecord field s hown hpart rule hrule hname => ?_⟩
    obtain ⟨i, hi⟩ := List.mem_iff_getElem?.1 hrecord
    obtain ⟨out, t, hout, ht, hlength, _⟩ := h.windows i record field s hi hown hpart
    obtain ⟨out', hout', ht'⟩ := masked_text host hi hown hpart
    obtain rfl := Option.some.inj (hout.symm.trans hout')
    obtain rfl := Value.text.inj (Option.some.inj (ht.symm.trans ht'))
    have hsingle : ∀ config ∈ masksOn rules objectApiName field, config.Single := by
      intro config hconfig
      obtain ⟨r, hr, hfield, rfl⟩ := mem_masksOn.1 hconfig
      exact (hpart r hr hfield).2
    have hs := hshort record hrecord field s hown
    exact (maskTexts_length hsingle s hs).2.1 hlength _ (mem_masksOn.2 ⟨rule, hrule, hname, rfl⟩)
  · intro ⟨hhides, haligned⟩
    refine ⟨hidden_iff.2 hhides, ?_, ?_⟩
    · rw [applyMasks_eq, List.forall₂_map_right_iff]
      refine List.forall₂_same.2 fun record _ field hnone => ?_
      exact rules_other hnone
    · intro i record field s hi hown hpart
      have hsingle : ∀ config ∈ masksOn rules objectApiName field, config.Single := by
        intro config hconfig
        obtain ⟨r, hr, hfield, rfl⟩ := mem_masksOn.1 hconfig
        exact (hpart r hr hfield).2
      have hs := hshort record (List.mem_of_getElem? hi) field s hown
      have hfits : ∀ config ∈ masksOn rules objectApiName field,
          Aligned host.rounding config s.length := by
        intro config hconfig
        obtain ⟨r, hr, hfield, rfl⟩ := mem_masksOn.1 hconfig
        exact haligned record (List.mem_of_getElem? hi) field s hown hpart r hr hfield
      obtain ⟨out, hout, ht⟩ := masked_text host hi hown hpart
      refine ⟨out, _, hout, ht, (maskTexts_length hsingle s hs).2.2 hfits, fun s' hs' => ?_⟩
      have hi' : (records.set i (assign record field s'))[i]? = some (assign record field s') := by
        rw [List.getElem?_set_self (List.getElem?_eq_some_iff.1 hi).1]
      have hown' : (assign record field s').lookup field = some (.text s') :=
        lookup_assign (.inl (by simp [hown]))
      obtain ⟨out', hout', ht'⟩ := masked_text host hi' hown' hpart
      refine ⟨out', _, hout', ht', ?_, fun j hj => ?_⟩
      · rw [← hs']
        exact (maskTexts_length hsingle s' (hs'.trans_le hs)).2.2 (hs' ▸ hfits)
      · refine maskTexts_agree hsingle hs hs' hfits ?_
        rcases hj with hsame | ⟨rule, hrule, hname, hnot⟩
        · exact .inl hsame
        · exact .inr ⟨_, mem_masksOn.2 ⟨rule, hrule, hname, rfl⟩, hnot⟩

end reveals

/-- A host whose values are known by their texts, none of them a number. -/
def textHost : Host Units where
  textOf := id
  digest := fun _ s => s
  bucket := fun _ _ => none
  inherited := id
  rounding := .exact

/-- Two records with a telephone number each, one of them shorter than the windows on it. -/
def phoneRecords : List (Record Units) :=
  [[(units "name", .text (units "Ada")), (units "phone", .text (units "5550199")),
      (units "ssn", .text (units "078"))],
    [(units "phone", .text (units "55")), (units "name", .text (units "Bob"))]]

/-- The first number of the phone and the last two are left, by one rule each, and `ssn` is hidden. -/
def phoneRules : List FieldMaskRule :=
  [{ objectApiName := units "Contact", fieldApiName := units "phone", maskType := .partly
     maskConfig := { prefixLength := some (.finite 1), suffixLength := some (.finite 2) } },
   { objectApiName := units "Contact", fieldApiName := units "ssn", maskType := .hide
     maskConfig := {} },
   { objectApiName := units "Lead", fieldApiName := units "name", maskType := .hide
     maskConfig := {} },
   { objectApiName := units "Contact", fieldApiName := units "phone", maskType := .partly
     maskConfig := { prefixLength := some (.finite 3), suffixLength := some (.finite 1) } }]

/-- The numbers are short. -/
lemma phoneRecords_short : Short phoneRecords := by
  have htexts : ∀ record ∈ phoneRecords, ∀ entry ∈ record, ∃ s : Units,
      entry.2 = .text s ∧ s.length ≤ maxLength := by
    have hseven : 7 ≤ maxLength := by decide
    simp only [phoneRecords, List.forall_mem_cons]
    refine ⟨⟨⟨_, rfl, ?_⟩, ⟨_, rfl, ?_⟩, ⟨_, rfl, ?_⟩, nofun⟩,
      ⟨⟨_, rfl, ?_⟩, ⟨_, rfl, ?_⟩, nofun⟩, nofun⟩
    all_goals exact le_trans (by decide) hseven
  intro record hrecord field s hs
  obtain ⟨before, after, rfl, -⟩ := List.lookup_eq_some_iff.1 hs
  obtain ⟨t, ht, hlength⟩ := htexts _ hrecord _ (List.mem_append_right _ (List.mem_cons_self ..))
  cases ht
  exact hlength

/-- Every mask on the phone has windows of whole lengths. -/
lemma phoneRules_whole : ∀ rule ∈ phoneRules, rule.maskType = .partly → ∃ p q : Int,
    rule.maskConfig.prefixLength = some (.finite p) ∧
      rule.maskConfig.suffixLength = some (.finite q) := by
  simp only [phoneRules, List.forall_mem_cons]
  exact ⟨fun _ => ⟨1, 2, by simp, by simp⟩, fun h => (by cases h), fun h => (by cases h),
    fun _ => ⟨3, 1, by simp, by simp⟩, List.forall_mem_nil _⟩

/-- The masks on the numbers are aligned. -/
lemma phoneRules_aligned (r : NearestRounding) :
    AllAligned r phoneRecords phoneRules (units "Contact") := by
  intro record hrecord field s hown hpart rule hrule hname
  obtain ⟨p, q, hp, hq⟩ :=
    phoneRules_whole rule (List.mem_filter.1 hrule).1 (hpart rule hrule hname).1
  exact aligned_whole hp hq (phoneRecords_short record hrecord field s hown)

/-- No rule is on an inherited name. -/
lemma phoneRules_plain : ∀ rule ∈ phoneRules, rule.fieldApiName ∉ inheritedNames := by
  decide

/-- Two contacts keep the first and the last digit of their numbers. -/
theorem phones_masked :
    RevealsOnly textHost phoneRecords phoneRules (units "Contact") ∧
    applyMasks textHost phoneRecords phoneRules (units "Contact") =
      [[(units "name", .text (units "Ada")), (units "phone", .text (units "5*****9"))],
        [(units "phone", .text (units "**")), (units "name", .text (units "Bob"))]] := by
  refine ⟨(applyMasks_reveals textHost phoneRules _ phoneRecords_short).2 ⟨.inr ?_, ?_⟩, ?_⟩
  · intro rule hrule _ hin
    exact absurd hin (phoneRules_plain rule (List.mem_filter.1 hrule).1)
  · exact phoneRules_aligned _
  · decide +kernel

/-- `constructor` is hidden and then masked by range. -/
def constructorRules : List FieldMaskRule :=
  [{ objectApiName := units "Contact", fieldApiName := units "constructor", maskType := .hide
     maskConfig := {} },
   { objectApiName := units "Contact", fieldApiName := units "constructor", maskType := .range
     maskConfig := {} }]

/-- A hidden name that every object inherits comes back with the next rule on it. -/
theorem inherited_name_returns : ¬ RevealsOnly textHost [[(units "name", .text (units "Ada"))]]
    constructorRules (units "Contact") := by
  intro h
  have hout : applyMasks textHost [[(units "name", .text (units "Ada"))]] constructorRules
      (units "Contact") =
        [[(units "name", .text (units "Ada")), (units "constructor", .text [])]] := by
    rfl
  have hnone := h.hidden _ (by rw [hout]; exact List.mem_singleton_self _)
    { objectApiName := units "Contact", fieldApiName := units "constructor", maskType := .hide
      maskConfig := {} } (List.mem_cons_self ..) rfl
  exact absurd hnone (by decide +kernel)

end NexusClaw.Permission.FieldMasking
