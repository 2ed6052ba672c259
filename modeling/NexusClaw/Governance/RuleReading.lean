import NexusClaw.Governance.Guardrail

/-!
# What the conditions of a rule describe

`Holds` says when each condition of a rule is true of the operation that a tool input describes; it
reads the input by itself. `Passes` is the check that `rule-matcher.ts` makes for the condition on
what `extractOperation` took from the input. The two differ on a few kinds of input: `Slack` lists
those where the check lets an operation through that the condition does not describe, `Strict` those
where it misses one that it does, and `passes_iff` says that there are no others.
-/

namespace NexusClaw

/-- The number a value is, if it is one. -/
def Json.asNumber : Json → Option Rat
  | .num n => some n
  | _ => none

/-- The name a value is: a text, except the empty one, which names nothing. -/
def Json.asName : Json → Option String
  | .str s => if s = "" then none else some s
  | _ => none

namespace Governance.RuleMatching

/-- The properties that a rule's conditions may have. -/
inductive Key where
  | objectApiName
  | operation
  | fieldApiNames
  | amountThreshold
  | batchSize
deriving DecidableEq

/-! ## What an input describes

Each property has one type: `objectApiName`, `object` and `operation` are names, `fields` is an object
and `fieldApiNames` a list of names, `amount`, `value` and `batchSize` are numbers and `records` is a
list. A property of another type describes nothing. -/

/-- The object named by `objectApiName`, or else by its alias `object`. -/
def describedObject (input : Json) : Option String :=
  ((input.get? "objectApiName").bind Json.asName).or ((input.get? "object").bind Json.asName)

/-- The operation named by the input, or else the tool. -/
def describedOperation (toolName : String) (input : Json) : String :=
  ((input.get? "operation").bind Json.asName).getD toolName

/-- The names in the list `fieldApiNames`. -/
def listedFields (input : Json) : List String :=
  match input.get? "fieldApiNames" with
  | some (.arr xs) => xs.filterMap Json.asString
  | _ => []

/-- The names of the properties of `fields`, or else those in the list `fieldApiNames`. -/
def describedFields (input : Json) : List String :=
  match input.get? "fields" with
  | some (.obj fields) => fields.map Prod.fst
  | _ => listedFields input

/-- The number supplied as `amount`, or else as its alias `value`. -/
def suppliedAmount (input : Json) : Option Rat :=
  ((input.get? "amount").bind Json.asNumber).or ((input.get? "value").bind Json.asNumber)

/-- The number of records in the list `records`, or else the number `batchSize`. -/
def describedBatch (input : Json) : Option Rat :=
  match input.get? "records" with
  | some (.arr xs) => some xs.length
  | _ => (input.get? "batchSize").bind Json.asNumber

/-- A condition is true of the operation that an input describes. A condition that is absent is true
of every operation. -/
def Holds (cond : RuleConditions) (toolName : String) (input : Json) : Key → Prop
  | .objectApiName => ∀ name, cond.objectApiName = some name → describedObject input = some name
  | .operation => ∀ name, cond.operation = some name → describedOperation toolName input = name
  | .fieldApiNames => ∀ names, cond.fieldApiNames = some names →
      ∃ name ∈ names, name ∈ describedFields input
  | .amountThreshold => ∀ bound, cond.amountThreshold = some bound →
      ∃ n, suppliedAmount input = some n ∧ bound ≤ n
  | .batchSize => ∀ bound, cond.batchSize = some bound →
      ∃ n, describedBatch input = some n ∧ bound ≤ n

/-- The check that the matcher makes for a condition. -/
def Passes (cfg : Config) (cond : RuleConditions) (op : ToolCallOperation) : Key → Prop
  | .objectApiName => nameMatches cond.objectApiName op.objectApiName = true
  | .operation => nameMatches cond.operation op.operation = true
  | .fieldApiNames => fieldsMatch cond.fieldApiNames op.fieldApiNames = .ok true
  | .amountThreshold => boundMatches cfg cond.amountThreshold op.amount = .ok true
  | .batchSize => boundMatches cfg cond.batchSize op.batchSize = .ok true

/-! ## Misreadings -/

/-- A value with no method `includes` that the check of a field condition calls it on. -/
def HeadlessFields (value : Json) : Prop :=
  Json.truthy (some value) = true ∧ lengthIsZero value = false ∧
    (∀ xs, value ≠ .arr xs) ∧ ∀ s, value ≠ .str s

/-- A value that is compared with a bound although it is no number. -/
def Unnumbered (value : Json) : Prop :=
  value ≠ .null ∧ ∀ n, value ≠ .num n

/-- The comparison of the value with a bound throws. -/
structure Incomparable (bound : Option Rat) (actual : Option Json) : Prop where
  bounded : bound.isSome = true
  unconvertible : ∃ value, actual = some value ∧ value.isConvertible = false

/-- The matcher comes to a condition on a value that it cannot read. -/
inductive Unreadable (cfg : Config) (cond : RuleConditions) (op : ToolCallOperation) : Prop where
  | fields (asked : ∃ name names, cond.fieldApiNames = some (name :: names))
      (objectApiName : Passes cfg cond op .objectApiName) (operation : Passes cfg cond op .operation)
      (value : ∃ value, op.fieldApiNames = some value ∧ HeadlessFields value)
  | amount (objectApiName : Passes cfg cond op .objectApiName)
      (operation : Passes cfg cond op .operation) (fieldApiNames : Passes cfg cond op .fieldApiNames)
      (value : Incomparable cond.amountThreshold op.amount)
  | batch (objectApiName : Passes cfg cond op .objectApiName)
      (operation : Passes cfg cond op .operation) (fieldApiNames : Passes cfg cond op .fieldApiNames)
      (amountThreshold : Passes cfg cond op .amountThreshold)
      (value : Incomparable cond.batchSize op.batchSize)

/-- A value that is read for a name although it is none. -/
def Unnamed (value : Json) : Prop :=
  Json.truthy (some value) = true ∧ value.asName = none

/-- A value whose keys are read for field names although it is no object. -/
def Unkeyed (value : Json) : Prop :=
  Json.truthy (some value) = true ∧ ∀ fields, value ≠ .obj fields

/-- A field check that passes although no field described is asked for. -/
inductive SlackFields (names : List String) (input : Json) : Prop where
  /-- a text has the method `includes` too -/
  | text {s : String} (hfields : Json.truthy (input.get? "fields") = false) (hs : s ≠ "")
      (htext : input.get? "fieldApiNames" = some (.str s))
      (hsearch : includesAny (.str s) names = .ok true)
  /-- the indices of a list or a text are read for names -/
  | keys {v : Json} (hfields : input.get? "fields" = some v) (hobject : Unkeyed v)
      (hkeys : ∃ name ∈ names, name ∈ v.keys) (hmiss : ∀ name ∈ names, name ∉ describedFields input)

/-- A field check that fails although a field described is asked for. -/
structure StrictFields (names : List String) (input : Json) (v : Json) : Prop where
  fields : input.get? "fields" = some v
  unkeyed : Unkeyed v
  keys : ∀ name ∈ names, name ∉ v.keys
  listed : ∃ name ∈ names, name ∈ describedFields input

/-- An amount that passes a bound which the supplied number does not reach. -/
inductive SlackAmount (cfg : Config) (bound : Rat) (input : Json) : Prop where
  /-- the alias is read in place of an amount of zero -/
  | zero (hamount : input.get? "amount" = some (.num 0)) (hbound : 0 < bound)
      (hvalue : boundMatches cfg (some bound) (input.get? "value") = .ok true)
  /-- an amount that is no number is compared, whatever number the alias is -/
  | amount {v : Json} (hamount : input.get? "amount" = some v) (htruthy : Json.truthy (some v) = true)
      (hnumber : Unnumbered v) (hless : cfg.lessThan v bound = .ok false)
      (hvalue : ∀ n, input.get? "value" = some (.num n) → n < bound)
  /-- there is no amount, and the alias is no number -/
  | value {v : Json} (hamount : Json.truthy (input.get? "amount") = false)
      (hzero : input.get? "amount" ≠ some (.num 0)) (hvalue : input.get? "value" = some v)
      (hnumber : Unnumbered v) (hless : cfg.lessThan v bound = .ok false)

/-- An amount that fails a bound which the supplied number reaches. -/
inductive StrictAmount (cfg : Config) (bound : Rat) (input : Json) : Prop where
  /-- the alias is read in place of an amount of zero -/
  | zero (hamount : input.get? "amount" = some (.num 0)) (hbound : bound ≤ 0)
      (hvalue : boundMatches cfg (some bound) (input.get? "value") ≠ .ok true)
  /-- an amount that is no number is compared, although the alias is a number -/
  | amount {v : Json} {n : Rat} (hamount : input.get? "amount" = some v)
      (htruthy : Json.truthy (some v) = true) (hnumber : Unnumbered v)
      (hless : cfg.lessThan v bound ≠ .ok false) (hvalue : input.get? "value" = some (.num n))
      (hbound : bound ≤ n)

/-- The check of a condition passes an operation that the condition does not describe. -/
def Slack (cfg : Config) (cond : RuleConditions) (toolName : String) (input : Json) : Key → Prop
  -- an empty name is taken for no condition
  | .objectApiName => cond.objectApiName = some ""
  | .operation => cond.operation = some "" ∧ describedOperation toolName input ≠ ""
  -- so is an empty list of fields
  | .fieldApiNames => ∃ names, cond.fieldApiNames = some names ∧
      (names = [] ∨ SlackFields names input)
  | .amountThreshold => ∃ bound, cond.amountThreshold = some bound ∧ SlackAmount cfg bound input
  -- a batch size that is no number
  | .batchSize => ∃ bound value, cond.batchSize = some bound ∧
      (∀ xs, input.get? "records" ≠ some (.arr xs)) ∧ input.get? "batchSize" = some value ∧
      Unnumbered value ∧ cfg.lessThan value bound = .ok false

/-- The check of a condition misses an operation that the condition describes. -/
def Strict (cfg : Config) (cond : RuleConditions) (toolName : String) (input : Json) : Key → Prop
  -- a value that is no name is read for one, although the alias is
  | .objectApiName => ∃ name v, cond.objectApiName = some name ∧ name ≠ "" ∧
      input.get? "objectApiName" = some v ∧ Unnamed v ∧ input.get? "object" = some (.str name)
  | .operation => ∃ v, cond.operation = some toolName ∧ toolName ≠ "" ∧
      input.get? "operation" = some v ∧ Unnamed v
  | .fieldApiNames => ∃ names v, cond.fieldApiNames = some names ∧ StrictFields names input v
  | .amountThreshold => ∃ bound, cond.amountThreshold = some bound ∧ StrictAmount cfg bound input
  | .batchSize => False

/-! ## The single checks -/

/-- A name check passes for an absent or empty name, and for an equal one. -/
lemma nameMatches_iff {expected : Option String} {actual : Option Json} :
    nameMatches expected actual = true ↔
      expected = none ∨ expected = some "" ∨
        ∃ name, expected = some name ∧ name ≠ "" ∧ actual = some (.str name) := by
  cases expected with
  | none => simp [nameMatches]
  | some name =>
    rcases eq_or_ne name "" with rfl | hname
    · simp [nameMatches]
    · have hasked : nameMatches (some name) actual =
          (Json.truthy actual && (actual.bind Json.asString) = some name) := by
        simp [nameMatches]
      rw [hasked]
      simp only [reduceCtorEq, Option.some.injEq, hname, false_or, exists_eq_left', ne_eq,
        not_false_eq_true, true_and, Bool.and_eq_true, decide_eq_true_eq]
      constructor
      · intro ⟨_, hactual⟩
        obtain ⟨value, rfl, hvalue⟩ := Option.bind_eq_some_iff.1 hactual
        cases value with
        | str s =>
          obtain rfl := Option.some.inj hvalue
          rfl
        | _ => cases hvalue
      · rintro rfl
        exact ⟨by simpa [Json.truthy] using hname, rfl⟩

/-- A comparison throws exactly for a value that cannot be converted. -/
lemma lessThan_error (cfg : Config) (value : Json) (bound : Rat) :
    (∃ e, cfg.lessThan value bound = .error e) ↔ value.isConvertible = false := by
  unfold Config.lessThan
  cases value.isConvertible with
  | true => simp
  | false => simp

/-- A number converts to a primitive. -/
lemma isConvertible_num (n : Rat) : (Json.num n).isConvertible = true := by
  simp [Json.isConvertible]

/-- So does null. -/
lemma isConvertible_null : Json.null.isConvertible = true := by
  simp [Json.isConvertible]

/-- The check of a bound on a value that is no number. -/
lemma boundMatches_unnumbered {cfg : Config} {bound : Rat} {v : Json} (hv : Unnumbered v) :
    boundMatches cfg (some bound) (some v) = (cfg.lessThan v bound).map (!·) := by
  cases v with
  | null => exact absurd rfl hv.1
  | num n => exact absurd rfl (hv.2 n)
  | bool b => rfl
  | str s => rfl
  | arr xs => rfl
  | obj fields => rfl

/-- A negation holds where the test fails. -/
lemma map_not_eq_true {r : Except String Bool} : r.map (!·) = .ok true ↔ r = .ok false := by
  cases r with
  | error e => simp [Except.map]
  | ok b => simp [Except.map]

/-- A number reaches a bound if it is no less. -/
lemma boundMatches_number {cfg : Config} {bound n : Rat} :
    boundMatches cfg (some bound) (some (.num n)) = .ok true ↔ bound ≤ n := by
  have hbound : boundMatches cfg (some bound) (some (.num n)) = .ok (!decide (n < bound)) := rfl
  rw [hbound, Except.ok.injEq, Bool.not_eq_true', decide_eq_false_iff_not]
  exact Rat.not_lt

/-- Any other value reaches a bound if it is not found to be less. -/
lemma boundMatches_passes {cfg : Config} {bound : Rat} {v : Json} (hv : Unnumbered v) :
    boundMatches cfg (some bound) (some v) = .ok true ↔ cfg.lessThan v bound = .ok false := by
  rw [boundMatches_unnumbered hv, map_not_eq_true]

/-- A value is `null`, a number or neither. -/
lemma numbered_cases (v : Json) : v = .null ∨ (∃ n, v = .num n) ∨ Unnumbered v := by
  by_cases hnull : v = .null
  · exact .inl hnull
  · by_cases hnum : ∃ n, v = .num n
    · exact .inr (.inl hnum)
    · exact .inr (.inr ⟨hnull, fun n hn => hnum ⟨n, hn⟩⟩)

/-- A bound is met by a number that reaches it, and by a value that is no number and not below it. -/
lemma boundMatches_iff {cfg : Config} {bound : Rat} {actual : Option Json} :
    boundMatches cfg (some bound) actual = .ok true ↔
      (∃ n, actual = some (.num n) ∧ bound ≤ n) ∨
        ∃ value, actual = some value ∧ Unnumbered value ∧ cfg.lessThan value bound = .ok false := by
  cases actual with
  | none => simp [boundMatches]
  | some v =>
    obtain rfl | ⟨n, rfl⟩ | hv := numbered_cases v
    · simp [boundMatches, Unnumbered]
    · rw [boundMatches_number]
      simp [Unnumbered]
    · rw [boundMatches_passes hv]
      constructor
      · exact fun h => .inr ⟨v, rfl, hv, h⟩
      · rintro (⟨n, heq, _⟩ | ⟨w, heq, _, hless⟩)
        · exact absurd (Option.some.inj heq) (hv.2 n)
        · obtain rfl := Option.some.inj heq
          exact hless

/-- The check of a bound throws exactly where its comparison does. -/
lemma boundMatches_error {cfg : Config} {bound : Option Rat} {actual : Option Json} :
    (∃ e, boundMatches cfg bound actual = .error e) ↔ Incomparable bound actual := by
  have hnot {v : Json} (hv : v.isConvertible = true) : ¬ Incomparable bound (some v) := by
    rintro ⟨-, w, hw, hfalse⟩
    obtain rfl := Option.some.inj hw
    cases hv.symm.trans hfalse
  -- only a bound against a value that is there compares anything
  cases bound with
  | none => exact iff_of_false (by simp [boundMatches]) (fun h => Bool.noConfusion h.bounded)
  | some b =>
    cases actual with
    | none => exact iff_of_false (by simp [boundMatches]) (fun ⟨_, _, hw, _⟩ => by cases hw)
    | some v =>
      obtain rfl | ⟨n, rfl⟩ | hv := numbered_cases v
      · exact iff_of_false (by simp [boundMatches]) (hnot isConvertible_null)
      · exact iff_of_false (by simp [boundMatches]) (hnot (isConvertible_num n))
      · rw [boundMatches_unnumbered hv]
        constructor
        · rintro ⟨e, he⟩
          refine ⟨rfl, v, rfl, (lessThan_error cfg v b).1 ⟨e, ?_⟩⟩
          cases hless : cfg.lessThan v b with
          | error e' =>
            rw [hless] at he
            exact he
          | ok b =>
            rw [hless] at he
            cases he
        · rintro ⟨-, w, hw, hfalse⟩
          obtain rfl := Option.some.inj hw
          obtain ⟨e, he⟩ := (lessThan_error cfg v b).2 hfalse
          exact ⟨e, by rw [he]; rfl⟩

/-- A list includes a name if one of its elements is the name. -/
lemma includesAny_arr {xs : List Json} {names : List String} :
    includesAny (.arr xs) names = .ok true ↔ ∃ name ∈ names, .str name ∈ xs := by
  have hstr (x : Json) (name : String) : x.asString = some name ↔ x = .str name := by
    cases x <;> simp [Json.asString]
  simp only [includesAny, Except.ok.injEq, List.any_eq_true, decide_eq_true_eq, hstr,
    exists_eq_right]

/-- The check of a field condition, except on a value it cannot read. -/
lemma fieldsMatch_iff {names : List String} {actual : Option Json} (hnames : names ≠ []) :
    fieldsMatch (some names) actual = .ok true ↔
      (∃ fields, actual = some (.arr fields) ∧ ∃ name ∈ names, .str name ∈ fields) ∨
        ∃ s, s ≠ "" ∧ actual = some (.str s) ∧ includesAny (.str s) names = .ok true := by
  obtain ⟨name, rest, rfl⟩ := List.exists_cons_of_ne_nil hnames
  cases actual with
  | none => simp [fieldsMatch]
  | some v =>
    have hread : fieldsMatch (some (name :: rest)) (some v) =
        if !Json.truthy (some v) || lengthIsZero v then .ok false
        else includesAny v (name :: rest) := rfl
    rw [hread]
    cases v with
    | arr xs =>
      cases xs with
      | nil => simp [Json.truthy, lengthIsZero]
      | cons x xs => simp [Json.truthy, lengthIsZero, includesAny_arr]
    | str s =>
      rcases eq_or_ne s "" with rfl | hs
      · simp [Json.truthy]
      · simp [Json.truthy, lengthIsZero, hs]
    | null => simp [Json.truthy]
    | bool b => cases b <;> simp [Json.truthy, lengthIsZero, includesAny]
    | num n =>
      rcases eq_or_ne n 0 with rfl | hn
      · simp [Json.truthy]
      · simp [Json.truthy, lengthIsZero, includesAny, hn]
    | obj fields =>
      simp only [includesAny]
      split <;> simp

/-! ## Amounts -/

/-- What the property `amount` may be: zero, another number, no amount at all, or a value that is no
number. -/
lemma amount_cases (amount : Option Json) :
    amount = some (.num 0) ∨ (∃ n, n ≠ 0 ∧ amount = some (.num n)) ∨
      (Json.truthy amount = false ∧ amount ≠ some (.num 0) ∧ amount.bind Json.asNumber = none) ∨
      ∃ v, amount = some v ∧ Json.truthy (some v) = true ∧ Unnumbered v ∧ v.asNumber = none := by
  cases amount with
  | none => exact .inr (.inr (.inl ⟨rfl, nofun, rfl⟩))
  | some v =>
    cases v with
    | null => exact .inr (.inr (.inl ⟨rfl, nofun, rfl⟩))
    | num n =>
      rcases eq_or_ne n 0 with rfl | hn
      · exact .inl rfl
      · exact .inr (.inl ⟨n, hn, rfl⟩)
    | bool b =>
      cases b with
      | false => exact .inr (.inr (.inl ⟨rfl, nofun, rfl⟩))
      | true => exact .inr (.inr (.inr ⟨_, rfl, rfl, ⟨nofun, nofun⟩, rfl⟩))
    | str s =>
      rcases eq_or_ne s "" with rfl | hs
      · exact .inr (.inr (.inl ⟨rfl, by simp, rfl⟩))
      · exact .inr (.inr (.inr ⟨_, rfl, by simpa [Json.truthy] using hs, ⟨nofun, nofun⟩, rfl⟩))
    | arr xs => exact .inr (.inr (.inr ⟨_, rfl, rfl, ⟨nofun, nofun⟩, rfl⟩))
    | obj fields => exact .inr (.inr (.inr ⟨_, rfl, rfl, ⟨nofun, nofun⟩, rfl⟩))

/-- A number is read as itself. -/
lemma asNumber_eq {v : Json} {n : Rat} : v.asNumber = some n ↔ v = .num n := by
  cases v <;> simp [Json.asNumber]

/-- A member that is a number. -/
lemma bind_asNumber {value : Option Json} {n : Rat} :
    value.bind Json.asNumber = some n ↔ value = some (.num n) := by
  simp [Option.bind_eq_some_iff, asNumber_eq]

section amounts
variable {cfg : Config} {bound : Rat} {input : Json}

/-- A truthy value is taken. -/
lemma orElse_truthy {a b : Option Json} (h : Json.truthy a = true) : Json.orElse a b = a := by
  simp [Json.orElse, h]

/-- A falsy value gives way to the next. -/
lemma orElse_falsy {a b : Option Json} (h : Json.truthy a = false) : Json.orElse a b = b := by
  simp [Json.orElse, h]

/-- Zero is falsy. -/
lemma truthy_zero : Json.truthy (some (.num 0)) = false := by
  simp [Json.truthy]

/-- An amount that is a number is supplied. -/
lemma supplied_number {n : Rat} (h : input.get? "amount" = some (.num n)) :
    suppliedAmount input = some n := by
  simp [suppliedAmount, h, Json.asNumber]

/-- Otherwise the value is. -/
lemma supplied_alias (h : (input.get? "amount").bind Json.asNumber = none) :
    suppliedAmount input = (input.get? "value").bind Json.asNumber := by
  simp [suppliedAmount, h]

/-- What is no number is not read as one. -/
lemma Unnumbered.asNumber {v : Json} (h : Unnumbered v) : v.asNumber = none :=
  Option.eq_none_iff_forall_ne_some.2 fun n hn => h.2 n (asNumber_eq.1 hn)

/-- An amount that is no number gives way to the value. -/
lemma supplied_unnumbered {v : Json} (h : input.get? "amount" = some v) (hv : Unnumbered v) :
    suppliedAmount input = (input.get? "value").bind Json.asNumber :=
  supplied_alias (by rw [h]; exact hv.asNumber)

/-- Where the reading is slack no amount reaches the bound. -/
lemma slackAmount_misses (h : SlackAmount cfg bound input) :
    ¬ ∃ n, suppliedAmount input = some n ∧ bound ≤ n := by
  rintro ⟨n, hsupplied, hn⟩
  cases h with
  | zero hamount hbound hvalue =>
    obtain rfl := Option.some.inj ((supplied_number hamount).symm.trans hsupplied)
    exact absurd hn (Rat.not_le.2 hbound)
  | @amount v hamount htruthy hnumber hless hvalue =>
    have hnum := bind_asNumber.1 ((supplied_unnumbered hamount hnumber).symm.trans hsupplied)
    exact absurd hn (Rat.not_le.2 (hvalue n hnum))
  | @value v hamount hzero hvalue hnumber hless =>
    have hnone : (input.get? "amount").bind Json.asNumber = none := by
      obtain hread | ⟨m, hm, hread⟩ | ⟨_, _, hnone⟩ | ⟨w, _, _, _, hnone⟩ :=
        amount_cases (input.get? "amount")
      · exact absurd hread hzero
      · rw [hread] at hamount
        simp [Json.truthy, hm] at hamount
      · exact hnone
      · simp_all
    have hnum := bind_asNumber.1 ((supplied_alias hnone).symm.trans hsupplied)
    exact hnumber.2 n (Option.some.inj (hvalue.symm.trans hnum))

/-- Where the reading is strict an amount reaches the bound. -/
lemma strictAmount_reaches (h : StrictAmount cfg bound input) :
    ∃ n, suppliedAmount input = some n ∧ bound ≤ n := by
  cases h with
  | zero hamount hbound hvalue => exact ⟨0, supplied_number hamount, hbound⟩
  | @amount v n hamount htruthy hnumber hless hvalue hbound =>
    refine ⟨n, ?_, hbound⟩
    rw [supplied_unnumbered hamount hnumber, hvalue]
    rfl

/-- A bound on the value that the engine reads as the amount, against one on the number supplied. The
cases are those of the property `amount`. -/
lemma amount_passes :
    boundMatches cfg (some bound)
        (Json.orElse (input.get? "amount") (input.get? "value")) = .ok true ↔
      ((∃ n, suppliedAmount input = some n ∧ bound ≤ n) ∧ ¬ StrictAmount cfg bound input) ∨
        SlackAmount cfg bound input := by
  obtain hread | ⟨m, hm, hread⟩ | ⟨hfalsy, hzero, hnone⟩ | ⟨v, hread, htruthy, hnumber, hnone⟩ :=
    amount_cases (input.get? "amount")
  -- a zero falls through to the alias, and is missed
  · have halias := orElse_falsy (b := input.get? "value") (hread ▸ truthy_zero)
    rw [halias, supplied_number hread]
    constructor
    · intro h
      by_cases hle : bound ≤ 0
      · refine .inl ⟨⟨0, rfl, hle⟩, fun hstrict => ?_⟩
        cases hstrict with
        | zero _ _ hfails => exact hfails h
        | amount hv _ hw => exact hw.2 0 (Option.some.inj (hv.symm.trans hread))
      · exact .inr (.zero hread (Rat.not_le.1 hle) h)
    · rintro (⟨⟨n, heq, hn⟩, hstrict⟩ | hslack)
      · obtain rfl := Option.some.inj heq
        exact Classical.not_not.1 fun hfails => hstrict (.zero hread hn hfails)
      · cases hslack with
        | zero _ _ hvalue => exact hvalue
        | amount hv _ hw => exact absurd (Option.some.inj (hv.symm.trans hread)) (hw.2 0)
        | value _ hz => exact absurd hread hz
  · have htruthy : Json.truthy (input.get? "amount") = true := by
      rw [hread]
      simpa [Json.truthy] using hm
    rw [orElse_truthy htruthy, hread, boundMatches_number, supplied_number hread]
    constructor
    · intro h
      refine .inl ⟨⟨m, rfl, h⟩, fun hstrict => ?_⟩
      cases hstrict with
      | zero hz => exact hm (Json.num.inj (Option.some.inj (hread.symm.trans hz)))
      | amount hv _ hw => exact hw.2 m (Option.some.inj (hv.symm.trans hread))
    · rintro (⟨⟨n, heq, hn⟩, _⟩ | hslack)
      · obtain rfl := Option.some.inj heq
        exact hn
      · cases hslack with
        | zero hz => exact absurd (Json.num.inj (Option.some.inj (hread.symm.trans hz))) hm
        | amount hv _ hw => exact absurd (Option.some.inj (hv.symm.trans hread)) (hw.2 m)
        | value hfalsy => exact absurd (htruthy.symm.trans hfalsy) (by simp)
  · rw [orElse_falsy hfalsy, supplied_alias hnone, boundMatches_iff]
    have hstrict : ¬ StrictAmount cfg bound input := by
      intro hstrict
      cases hstrict with
      | zero hz => exact hzero hz
      | amount hv ht => exact absurd (ht.symm.trans (hv ▸ hfalsy)) (by simp)
    constructor
    · rintro (⟨n, heq, hn⟩ | ⟨v, heq, hv, hless⟩)
      · exact .inl ⟨⟨n, bind_asNumber.2 heq, hn⟩, hstrict⟩
      · exact .inr (.value hfalsy hzero heq hv hless)
    · rintro (⟨⟨n, heq, hn⟩, _⟩ | hslack)
      · exact .inl ⟨n, bind_asNumber.1 heq, hn⟩
      · cases hslack with
        | zero hz => exact absurd hz hzero
        | amount hv ht => exact absurd (ht.symm.trans (hv ▸ hfalsy)) (by simp)
        | @value v _ _ hvalue hv hless => exact .inr ⟨v, hvalue, hv, hless⟩
  · rw [orElse_truthy (hread ▸ htruthy), hread, boundMatches_passes hnumber,
      supplied_unnumbered hread hnumber]
    constructor
    · intro hless
      by_cases hreach : ∃ n, (input.get? "value").bind Json.asNumber = some n ∧ bound ≤ n
      · refine .inl ⟨hreach, fun hstrict => ?_⟩
        cases hstrict with
        | zero hz => exact hnumber.2 0 (Option.some.inj (hread.symm.trans hz))
        | amount hv _ _ hlt =>
          obtain rfl := Option.some.inj (hread.symm.trans hv)
          exact hlt hless
      · refine .inr (.amount hread htruthy hnumber hless fun n hn => Rat.not_le.1 fun hle => ?_)
        exact hreach ⟨n, bind_asNumber.2 hn, hle⟩
    · rintro (⟨⟨n, heq, hn⟩, hstrict⟩ | hslack)
      · refine Classical.not_not.1 fun hless => ?_
        exact hstrict (.amount hread htruthy hnumber hless (bind_asNumber.1 heq) hn)
      · cases hslack with
        | zero hz => exact absurd (Option.some.inj (hread.symm.trans hz)) (hnumber.2 0)
        | amount hv _ _ hless =>
          obtain rfl := Option.some.inj (hread.symm.trans hv)
          exact hless
        | value hfalsy => exact absurd (htruthy.symm.trans (hread ▸ hfalsy)) (by simp)

end amounts

/-! ## Names -/

/-- What a property read for a name may be: a name, no value to the source, or a value that is no
name. -/
lemma name_cases (value : Option Json) :
    (∃ name, name ≠ "" ∧ value = some (.str name)) ∨
      (Json.truthy value = false ∧ value.bind Json.asName = none) ∨
      ∃ v, value = some v ∧ Unnamed v := by
  cases value with
  | none => exact .inr (.inl ⟨rfl, rfl⟩)
  | some v =>
    cases hv : v.asName with
    | some name =>
      cases v with
      | str s =>
        rcases eq_or_ne s "" with rfl | hs
        · cases hv
        · exact .inl ⟨s, hs, rfl⟩
      | _ => cases hv
    | none =>
      cases htruthy : Json.truthy (some v) with
      | false => exact .inr (.inl ⟨rfl, hv⟩)
      | true => exact .inr (.inr ⟨v, rfl, htruthy, hv⟩)

/-- A text that is not empty is a name. -/
lemma asName_str {name : String} (h : name ≠ "") : (Json.str name).asName = some name :=
  if_neg h

/-- A name is truthy. -/
lemma truthy_name {name : String} (h : name ≠ "") : Json.truthy (some (.str name)) = true := by
  simpa [Json.truthy] using h

/-- A value that is read as a name. -/
lemma asName_eq {v : Json} {name : String} :
    v.asName = some name ↔ name ≠ "" ∧ v = .str name := by
  cases v with
  | str s =>
    rcases eq_or_ne s "" with rfl | hs
    · simp [Json.asName]
    · rw [asName_str hs]
      constructor
      · rintro h
        obtain rfl := Option.some.inj h
        exact ⟨hs, rfl⟩
      · rintro ⟨_, h⟩
        exact congrArg some (Json.str.inj h)
  | _ => simp [Json.asName]

/-- A member that is read as a name. -/
lemma bind_asName {value : Option Json} {name : String} :
    value.bind Json.asName = some name ↔ name ≠ "" ∧ value = some (.str name) := by
  simp only [Option.bind_eq_some_iff, asName_eq]
  constructor
  · rintro ⟨v, rfl, hname, rfl⟩
    exact ⟨hname, rfl⟩
  · rintro ⟨hname, rfl⟩
    exact ⟨_, rfl, hname, rfl⟩

section names
variable {a b : Option Json} {name tool : String}

/-- `a || b` is a name that is asked for: `a` is, or `a` is nothing to the source and `b` is. Against
that, the first of the two that is a name. -/
lemma orElse_name (hname : name ≠ "") :
    Json.orElse a b = some (.str name) ↔
      (a.bind Json.asName).or (b.bind Json.asName) = some name ∧
        ¬ ∃ v, a = some v ∧ Unnamed v ∧ b = some (.str name) := by
  obtain ⟨first, hfirst, rfl⟩ | ⟨hfalsy, hnone⟩ | ⟨v, rfl, hv⟩ := name_cases a
  · rw [orElse_truthy (truthy_name hfirst), Option.bind_some, asName_str hfirst, Option.some_or]
    constructor
    · rintro h
      obtain rfl := Json.str.inj (Option.some.inj h)
      refine ⟨rfl, ?_⟩
      rintro ⟨w, hw, hunnamed, -⟩
      obtain rfl := Option.some.inj hw
      cases (asName_str hfirst).symm.trans hunnamed.2
    · rintro ⟨h, -⟩
      obtain rfl := Option.some.inj h
      rfl
  · rw [orElse_falsy hfalsy, hnone, Option.none_or, bind_asName]
    constructor
    · rintro rfl
      refine ⟨⟨hname, rfl⟩, ?_⟩
      rintro ⟨w, rfl, hunnamed, -⟩
      cases hunnamed.1.symm.trans hfalsy
    · exact fun h => h.1.2
  · rw [orElse_truthy hv.1, Option.bind_some, hv.2, Option.none_or, bind_asName]
    constructor
    · intro h
      rw [Option.some.inj h] at hv
      cases (asName_str hname).symm.trans hv.2
    · rintro ⟨⟨_, hb⟩, hnot⟩
      exact absurd ⟨v, rfl, hv, hb⟩ hnot

/-- The same with the name of a tool for `b`. -/
lemma orElse_tool (hname : name ≠ "") :
    Json.orElse a (some (.str tool)) = some (.str name) ↔
      (a.bind Json.asName).getD tool = name ∧ ¬ ∃ v, name = tool ∧ a = some v ∧ Unnamed v := by
  obtain ⟨first, hfirst, rfl⟩ | ⟨hfalsy, hnone⟩ | ⟨v, rfl, hv⟩ := name_cases a
  · rw [orElse_truthy (truthy_name hfirst), Option.bind_some, asName_str hfirst, Option.getD_some]
    constructor
    · intro h
      refine ⟨Json.str.inj (Option.some.inj h), ?_⟩
      rintro ⟨w, -, hw, hunnamed⟩
      obtain rfl := Option.some.inj hw
      cases (asName_str hfirst).symm.trans hunnamed.2
    · rintro ⟨rfl, -⟩
      rfl
  · rw [orElse_falsy hfalsy, hnone, Option.getD_none]
    constructor
    · intro h
      refine ⟨Json.str.inj (Option.some.inj h), ?_⟩
      rintro ⟨w, -, rfl, hunnamed⟩
      cases hunnamed.1.symm.trans hfalsy
    · rintro ⟨rfl, -⟩
      rfl
  · rw [orElse_truthy hv.1, Option.bind_some, hv.2, Option.getD_none]
    constructor
    · intro h
      rw [Option.some.inj h] at hv
      cases (asName_str hname).symm.trans hv.2
    · rintro ⟨rfl, hnot⟩
      exact absurd ⟨v, rfl, rfl, hv⟩ hnot

end names

/-! ## Fields -/

section fields
variable {names : List String} {input : Json}

/-- The list of the keys of an object or of another value. -/
lemma meets_keys {keys : List String} :
    (∃ fields, some (Json.arr (keys.map .str)) = some (.arr fields) ∧
      ∃ name ∈ names, Json.str name ∈ fields) ↔ ∃ name ∈ names, name ∈ keys := by
  simp only [Option.some.injEq, Json.arr.injEq, exists_eq_left', List.mem_map, Json.str.injEq,
    exists_eq_right]

/-- The texts among some values. -/
lemma mem_asString {xs : List Json} {name : String} :
    name ∈ xs.filterMap Json.asString ↔ .str name ∈ xs := by
  rw [List.mem_filterMap]
  constructor
  · rintro ⟨x, hx, hname⟩
    cases x with
    | str s =>
      obtain rfl := Option.some.inj hname
      exact hx
    | _ => cases hname
  · exact fun h => ⟨_, h, rfl⟩

/-- What the property `fields` may be: an object, another value that has keys to read, or nothing to
the source. -/
lemma fields_cases (fields : Option Json) :
    (∃ fs, fields = some (.obj fs)) ∨ (∃ v, fields = some v ∧ Unkeyed v) ∨
      (Json.truthy fields = false ∧ ∀ fs, fields ≠ some (.obj fs)) := by
  by_cases hobject : ∃ fs, fields = some (.obj fs)
  · exact .inl hobject
  · cases htruthy : Json.truthy fields with
    | false => exact .inr (.inr ⟨rfl, fun fs h => hobject ⟨fs, h⟩⟩)
    | true =>
      cases fields with
      | none => cases htruthy
      | some v => exact .inr (.inl ⟨v, rfl, htruthy, fun fs h => hobject ⟨fs, congrArg some h⟩⟩)

/-- Fields that are no object are the listed ones. -/
lemma describedFields_unkeyed (h : ∀ fs, input.get? "fields" ≠ some (.obj fs)) :
    describedFields input = listedFields input := by
  unfold describedFields
  split
  · next fs hfs => exact absurd hfs (h fs)
  · rfl

/-- The texts in a list are the fields that it lists; another value lists none. -/
lemma meets_listed :
    (∃ fields, input.get? "fieldApiNames" = some (.arr fields) ∧
      ∃ name ∈ names, Json.str name ∈ fields) ↔ ∃ name ∈ names, name ∈ listedFields input := by
  unfold listedFields
  constructor
  · rintro ⟨xs, hxs, name, hname, hmem⟩
    rw [hxs]
    exact ⟨name, hname, mem_asString.2 hmem⟩
  · rintro ⟨name, hname, hmem⟩
    split at hmem
    · next xs hxs => exact ⟨xs, hxs, name, hname, mem_asString.1 hmem⟩
    · cases hmem

/-- A field check passes where a field described is asked for, but for the misreadings. The cases are
those of the property `fields`. -/
lemma fields_pass (toolName : String) (hnames : names ≠ []) :
    fieldsMatch (some names) (extractOperation toolName input).fieldApiNames = .ok true ↔
      ((∃ name ∈ names, name ∈ describedFields input) ∧ ¬ ∃ v, StrictFields names input v) ∨
        SlackFields names input := by
  rw [fieldsMatch_iff hnames]
  have hread : (extractOperation toolName input).fieldApiNames =
      if Json.truthy (input.get? "fields") then
        (input.get? "fields").map fun v => .arr (v.keys.map .str)
      else input.get? "fieldApiNames" := rfl
  rw [hread]
  obtain ⟨fs, hfs⟩ | ⟨v, hv, hunkeyed⟩ | ⟨hfalsy, hobject⟩ := fields_cases (input.get? "fields")
  · have hkeys : describedFields input = fs.map Prod.fst := by
      unfold describedFields
      rw [hfs]
    have htruthy : Json.truthy (some (.obj fs)) = true := rfl
    rw [hkeys, hfs, if_pos htruthy, Option.map_some, meets_keys]
    -- an object that is listed as the fields is read by its keys
    constructor
    · rintro (h | ⟨s, -, htext, -⟩)
      · refine .inl ⟨h, ?_⟩
        rintro ⟨v, hstrict⟩
        exact hstrict.unkeyed.2 fs (Option.some.inj (hstrict.fields.symm.trans hfs))
      · cases htext
    · rintro (⟨h, -⟩ | hslack)
      · exact .inl h
      · cases hslack with
        | text hnone =>
          rw [hfs] at hnone
          cases hnone
        | keys hw hunkeyed => exact absurd (Option.some.inj (hw.symm.trans hfs)) (hunkeyed.2 fs)
  · rw [hv, if_pos hunkeyed.1, Option.map_some, meets_keys]
    constructor
    · rintro (h | ⟨s, -, htext, -⟩)
      · by_cases hmeets : ∃ name ∈ names, name ∈ describedFields input
        · refine .inl ⟨hmeets, ?_⟩
          rintro ⟨w, hstrict⟩
          obtain rfl := Option.some.inj (hv.symm.trans hstrict.fields)
          obtain ⟨name, hname, hkey⟩ := h
          exact hstrict.keys name hname hkey
        · exact .inr (.keys hv hunkeyed h fun name hname hmem => hmeets ⟨name, hname, hmem⟩)
      · cases htext
    · rintro (⟨hlisted, hstrict⟩ | hslack)
      · refine .inl (Classical.not_not.1 fun hnone => hstrict ⟨v, hv, hunkeyed, ?_, hlisted⟩)
        exact fun name hname hkey => hnone ⟨name, hname, hkey⟩
      · cases hslack with
        | text hnone =>
          rw [hv] at hnone
          cases hunkeyed.1.symm.trans hnone
        | keys hw _ hkeys =>
          obtain rfl := Option.some.inj (hv.symm.trans hw)
          exact .inl hkeys
  · rw [if_neg (by simp [hfalsy]), describedFields_unkeyed hobject, meets_listed]
    have hstrict : ¬ ∃ v, StrictFields names input v := by
      rintro ⟨v, hstrict⟩
      rw [hstrict.fields] at hfalsy
      cases hstrict.unkeyed.1.symm.trans hfalsy
    constructor
    · rintro (h | ⟨s, hs, htext, hsearch⟩)
      · exact .inl ⟨h, hstrict⟩
      · exact .inr (.text hfalsy hs htext hsearch)
    · rintro (⟨h, -⟩ | hslack)
      · exact .inl h
      · cases hslack with
        | text _ hs htext hsearch => exact .inr ⟨_, hs, htext, hsearch⟩
        | keys hw hunkeyed =>
          rw [hw] at hfalsy
          cases hunkeyed.1.symm.trans hfalsy

/-- Where the reading is slack no described field is named. -/
lemma SlackFields.misses (h : SlackFields names input) :
    ¬ ∃ name ∈ names, name ∈ describedFields input := by
  rintro ⟨name, hname, hmem⟩
  cases h with
  | text hfalsy _ htext =>
    have hobject : ∀ fs, input.get? "fields" ≠ some (.obj fs) := by
      intro fs hfs
      rw [hfs] at hfalsy
      cases hfalsy
    rw [describedFields_unkeyed hobject, listedFields, htext] at hmem
    cases hmem
  | keys _ _ _ hmiss => exact hmiss name hname hmem

end fields

/-! ## Checks and conditions -/

section keys
variable {cfg : Config} {cond : RuleConditions} {toolName : String} {input : Json} {key : Key}

/-- The number of records, or else the number given for it. -/
lemma batch_reaches {bound : Rat} :
    (∃ n, (extractOperation toolName input).batchSize = some (.num n) ∧ bound ≤ n) ↔
      ∃ n, describedBatch input = some n ∧ bound ≤ n := by
  unfold extractOperation describedBatch
  dsimp only
  cases hrecords : input.get? "records" with
  | none => simp only [bind_asNumber]
  | some records =>
    cases records with
    | arr xs => simp
    | _ => simp only [bind_asNumber]

/-- A batch size that is no number is the one given. -/
lemma batch_unnumbered {value : Json} (hvalue : Unnumbered value) :
    (extractOperation toolName input).batchSize = some value ↔
      (∀ xs, input.get? "records" ≠ some (.arr xs)) ∧ input.get? "batchSize" = some value := by
  unfold extractOperation
  dsimp only
  split
  · next xs hxs =>
    constructor
    · intro h
      exact absurd (Option.some.inj h).symm (hvalue.2 _)
    · exact fun h => absurd hxs (h.1 xs)
  · next hnot => exact ⟨fun h => ⟨fun xs hxs => hnot xs hxs, h⟩, fun h => h.2⟩

/-- A condition whose check passes by a misreading does not hold. -/
lemma Slack.not_holds (h : Slack cfg cond toolName input key) : ¬ Holds cond toolName input key := by
  intro hholds
  cases key with
  | objectApiName =>
    have hnamed : (input.get? "objectApiName").bind Json.asName = some "" ∨
        (input.get? "object").bind Json.asName = some "" := by
      have hor := hholds "" h
      unfold describedObject at hor
      exact (Option.or_eq_some_iff.1 hor).imp id fun h => h.2
    obtain hname | hname := hnamed
    · exact (bind_asName.1 hname).1 rfl
    · exact (bind_asName.1 hname).1 rfl
  | operation => exact h.2 (hholds "" h.1)
  | fieldApiNames =>
    obtain ⟨names, hnames, rfl | hslack⟩ := h
    · obtain ⟨name, hname, _⟩ := hholds [] hnames
      cases hname
    · exact hslack.misses (hholds names hnames)
  | amountThreshold =>
    obtain ⟨bound, hbound, hslack⟩ := h
    exact slackAmount_misses hslack (hholds bound hbound)
  | batchSize =>
    obtain ⟨bound, value, hbound, hrecords, hvalue, hnumber, _⟩ := h
    obtain ⟨n, hn, _⟩ := batch_reaches.2 (hholds bound hbound)
    have hread : (extractOperation toolName input).batchSize = some value :=
      (batch_unnumbered hnumber).2 ⟨hrecords, hvalue⟩
    exact hnumber.2 n (Option.some.inj (hread.symm.trans hn))

/-- A condition whose check fails by a misreading holds. -/
lemma Strict.holds (h : Strict cfg cond toolName input key) : Holds cond toolName input key := by
  cases key with
  | objectApiName =>
    obtain ⟨name, v, hcond, hname, hread, hunnamed, halias⟩ := h
    intro name' hname'
    obtain rfl := Option.some.inj (hcond.symm.trans hname')
    unfold describedObject
    rw [hread, Option.bind_some, hunnamed.2, Option.none_or]
    exact bind_asName.2 ⟨hname, halias⟩
  | operation =>
    obtain ⟨v, hcond, _, hread, hunnamed⟩ := h
    intro name' hname'
    obtain rfl := Option.some.inj (hcond.symm.trans hname')
    unfold describedOperation
    rw [hread, Option.bind_some, hunnamed.2, Option.getD_none]
  | fieldApiNames =>
    obtain ⟨names, v, hcond, hstrict⟩ := h
    intro names' hnames'
    obtain rfl := Option.some.inj (hcond.symm.trans hnames')
    exact hstrict.listed
  | amountThreshold =>
    obtain ⟨bound, hbound, hstrict⟩ := h
    intro bound' hbound'
    obtain rfl := Option.some.inj (hbound.symm.trans hbound')
    exact strictAmount_reaches hstrict
  | batchSize => exact h.elim

/-- What a check lets through, key by key. -/
lemma passes_iff :
    Passes cfg cond (extractOperation toolName input) key ↔
      (Holds cond toolName input key ∧ ¬ Strict cfg cond toolName input key) ∨
        Slack cfg cond toolName input key := by
  -- one case for each condition; one that is not given passes
  cases key with
  | objectApiName =>
    have hread : (extractOperation toolName input).objectApiName =
        Json.orElse (input.get? "objectApiName") (input.get? "object") := rfl
    simp only [Passes, Holds, Slack, Strict, nameMatches_iff]
    cases cond.objectApiName with
    | none => simp
    | some name =>
      rcases eq_or_ne name "" with rfl | hname
      · simp
      · rw [hread]
        simp [hname, orElse_name hname, describedObject]
  | operation =>
    have hread : (extractOperation toolName input).operation =
        Json.orElse (input.get? "operation") (some (.str toolName)) := rfl
    simp only [Passes, Holds, Slack, Strict, nameMatches_iff]
    cases cond.operation with
    | none => simp
    | some name =>
      rcases eq_or_ne name "" with rfl | hname
      · by_cases hempty : describedOperation toolName input = ""
        · simp +contextual [hempty]
        · simp [hempty]
      · rw [hread]
        simp only [reduceCtorEq, Option.some.injEq, hname, false_or, exists_eq_left', ne_eq,
          not_false_eq_true, true_and, forall_eq', false_and, or_false, orElse_tool hname,
          describedOperation]
        refine and_congr_right fun _ => not_congr ⟨?_, ?_⟩
        · rintro ⟨v, rfl, hv, hunnamed⟩
          exact ⟨v, rfl, hname, hv, hunnamed⟩
        · rintro ⟨v, rfl, _, hv, hunnamed⟩
          exact ⟨v, rfl, hv, hunnamed⟩
  | fieldApiNames =>
    simp only [Passes, Holds, Slack, Strict]
    cases hcond : cond.fieldApiNames with
    | none => simp [fieldsMatch]
    | some names =>
      rcases eq_or_ne names [] with rfl | hnames
      · simp [fieldsMatch]
      · rw [fields_pass toolName hnames]
        simp [hnames]
  | amountThreshold =>
    simp only [Passes, Holds, Strict, Slack]
    cases cond.amountThreshold with
    | none => simp [boundMatches]
    | some bound =>
      have hread : (extractOperation toolName input).amount =
          Json.orElse (input.get? "amount") (input.get? "value") := rfl
      rw [hread, amount_passes]
      simp
  | batchSize =>
    simp only [Passes, Holds, Slack, Strict]
    cases cond.batchSize with
    | none => simp [boundMatches]
    | some bound =>
      rw [boundMatches_iff, batch_reaches]
      simp only [Option.some.injEq, forall_eq', not_false_eq_true, and_true, exists_and_left,
        exists_eq_left']
      refine or_congr Iff.rfl ⟨?_, ?_⟩
      · rintro ⟨value, hvalue, hnumber, hless⟩
        obtain ⟨hrecords, hread⟩ := (batch_unnumbered hnumber).1 hvalue
        exact ⟨hrecords, value, hread, hnumber, hless⟩
      · rintro ⟨hrecords, value, hread, hnumber, hless⟩
        exact ⟨value, (batch_unnumbered hnumber).2 ⟨hrecords, hread⟩, hnumber, hless⟩

end keys

end Governance.RuleMatching
end NexusClaw
