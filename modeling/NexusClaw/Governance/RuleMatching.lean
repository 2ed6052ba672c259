import NexusClaw.Governance.RuleReading

/-!
# Rules match what their conditions describe

The matcher checks the conditions of a rule one after the other (`matchRule_inTurn`).
`matchRule_exact` turns the misreadings of the single conditions into the exact condition under which
a rule matches the operations that all its conditions describe.
-/

namespace NexusClaw
namespace Governance.RuleMatching

/-- An empty list of fields is the only condition. -/
structure OnlyEmptyFields (cond : RuleConditions) : Prop where
  fieldApiNames : cond.fieldApiNames = some []
  objectApiName : cond.objectApiName = none
  operation : cond.operation = none
  amountThreshold : cond.amountThreshold = none
  batchSize : cond.batchSize = none

/-- No misreading decides whether the rule matches. -/
structure ReadRight (cfg : Config) (cond : RuleConditions) (toolName : String) (input : Json) :
    Prop where
  readable : ¬ Unreadable cfg cond (extractOperation toolName input)
  slack : ∀ key, Slack cfg cond toolName input key → OnlyEmptyFields cond ∨
    ∃ other, Strict cfg cond toolName input other ∨
      (¬ Holds cond toolName input other ∧ ¬ Slack cfg cond toolName input other)
  strict : ∀ key, Strict cfg cond toolName input key → ∃ other, ¬ Holds cond toolName input other

/-- The second list of conditions has those of the first and perhaps more. -/
structure Extends (cond cond' : RuleConditions) : Prop where
  objectApiName : cond.objectApiName = none ∨ cond'.objectApiName = cond.objectApiName
  operation : cond.operation = none ∨ cond'.operation = cond.operation
  fieldApiNames : cond.fieldApiNames = none ∨ cond'.fieldApiNames = cond.fieldApiNames
  amountThreshold : cond.amountThreshold = none ∨ cond'.amountThreshold = cond.amountThreshold
  batchSize : cond.batchSize = none ∨ cond'.batchSize = cond.batchSize

/-! ## The matcher -/

section matcher
variable {cfg : Config} {cond : RuleConditions} {op : ToolCallOperation} {rule : GuardrailRule}

/-- When the fields cannot be matched. -/
lemma fieldsMatch_error {expected : Option (List String)} {actual : Option Json} :
    (∃ e, fieldsMatch expected actual = .error e) ↔
      (∃ name names, expected = some (name :: names)) ∧
        ∃ value, actual = some value ∧ HeadlessFields value := by
  cases expected with
  | none => simp [fieldsMatch]
  | some names =>
    cases names with
    | nil => simp [fieldsMatch]
    | cons name rest =>
      cases actual with
      | none => simp [fieldsMatch]
      | some v =>
        have hread : fieldsMatch (some (name :: rest)) (some v) =
            if !Json.truthy (some v) || lengthIsZero v then .ok false
            else includesAny v (name :: rest) := rfl
        rw [hread]
        cases htruthy : Json.truthy (some v) with
        | false => simp [HeadlessFields, htruthy]
        | true =>
          cases hlength : lengthIsZero v with
          | true => simp [HeadlessFields, hlength]
          | false =>
            cases v <;> simp [HeadlessFields, includesAny, htruthy, hlength]

/-- Checks in a row, of which the first that fails or throws decides. -/
def inTurn : List (Except String Bool) → Except String Bool
  | [] => .ok true
  | .ok true :: checks => inTurn checks
  | .ok false :: _ => .ok false
  | .error e :: _ => .error e

/-- Checks in a row pass if all pass. -/
lemma inTurn_true {checks : List (Except String Bool)} :
    inTurn checks = .ok true ↔ ∀ check ∈ checks, check = .ok true := by
  induction checks with
  | nil => simp [inTurn]
  | cons check checks ih =>
    cases check with
    | error e => simp [inTurn]
    | ok b =>
      cases b with
      | false => simp [inTurn]
      | true => simp [inTurn, ih]

/-- Checks in a row throw if one throws before which all pass. -/
lemma inTurn_error {check : Except String Bool} {checks : List (Except String Bool)} :
    (∃ e, inTurn (check :: checks) = .error e) ↔
      (∃ e, check = .error e) ∨ check = .ok true ∧ ∃ e, inTurn checks = .error e := by
  cases check with
  | error e => simp [inTurn]
  | ok b =>
    cases b with
    | false => simp [inTurn]
    | true => simp [inTurn]

/-- A rule that has a condition to check is checked condition by condition. -/
lemma matchRule_inTurn (hcond : rule.conditions = some cond)
    (hexec : cond.hasExecutableCondition = true) :
    matchRule cfg op rule =
      inTurn [.ok (nameMatches cond.objectApiName op.objectApiName),
        .ok (nameMatches cond.operation op.operation),
        fieldsMatch cond.fieldApiNames op.fieldApiNames,
        boundMatches cfg cond.amountThreshold op.amount,
        boundMatches cfg cond.batchSize op.batchSize] := by
  have hfull : ¬ cond.isEmpty = true := by
    intro hempty
    simp only [RuleConditions.isEmpty, Bool.and_eq_true, Option.isNone_iff_eq_none] at hempty
    obtain ⟨⟨⟨⟨⟨hobject, hoperation⟩, hfields⟩, hamount⟩, hbatch⟩, _⟩ := hempty
    simp [RuleConditions.hasExecutableCondition, hobject, hoperation, hfields, hamount, hbatch]
      at hexec
  unfold matchRule
  rw [hcond]
  dsimp only
  rw [if_neg hfull, if_neg (by simp [hexec])]
  -- the first check that fails ends the matcher
  cases nameMatches cond.objectApiName op.objectApiName with
  | false => rfl
  | true =>
    cases nameMatches cond.operation op.operation with
    | false => rfl
    | true =>
      cases fieldsMatch cond.fieldApiNames op.fieldApiNames with
      | error e => rfl
      | ok fields =>
        cases fields with
        | false => rfl
        | true =>
          cases boundMatches cfg cond.amountThreshold op.amount with
          | error e => rfl
          | ok amount =>
            cases amount with
            | false => rfl
            | true =>
              cases boundMatches cfg cond.batchSize op.batchSize with
              | error e => rfl
              | ok batch => cases batch <;> rfl

/-- A rule without a condition to check is decided at once. -/
lemma matchRule_idle (hcond : rule.conditions = some cond)
    (hexec : ¬ cond.hasExecutableCondition = true) :
    matchRule cfg op rule = .ok cond.isEmpty := by
  unfold matchRule
  rw [hcond]
  dsimp only
  cases cond.isEmpty with
  | true => rfl
  | false =>
    rw [if_neg Bool.false_ne_true, if_pos]
    simpa using hexec

/-- What the matcher cannot read is asked for by a condition. -/
lemma Unreadable.executable (h : Unreadable cfg cond op) : cond.hasExecutableCondition = true := by
  unfold RuleConditions.hasExecutableCondition
  cases h with
  | fields asked =>
    obtain ⟨name, names, hnames⟩ := asked
    simp [hnames]
  | amount _ _ _ value => simp [value.bounded]
  | batch _ _ _ _ value => simp [value.bounded]

/-- The matcher throws exactly when it comes to a condition on a value it cannot read. -/
lemma matchRule_error (hcond : rule.conditions = some cond) :
    (∃ e, matchRule cfg op rule = .error e) ↔ Unreadable cfg cond op := by
  by_cases hexec : cond.hasExecutableCondition = true
  · rw [matchRule_inTurn hcond hexec]
    simp only [inTurn_error, fieldsMatch_error, boundMatches_error, Except.ok.injEq, reduceCtorEq,
      exists_const, false_or, inTurn, and_false, or_false]
    constructor
    · rintro ⟨hobject, hoperation, ⟨hasked, hvalue⟩ | ⟨hfields, hvalue | ⟨hamount, hvalue⟩⟩⟩
      · exact .fields hasked hobject hoperation hvalue
      · exact .amount hobject hoperation hfields hvalue
      · exact .batch hobject hoperation hfields hamount hvalue
    · intro h
      cases h with
      | fields hasked hobject hoperation hvalue =>
        exact ⟨hobject, hoperation, .inl ⟨hasked, hvalue⟩⟩
      | amount hobject hoperation hfields hvalue =>
        exact ⟨hobject, hoperation, .inr ⟨hfields, .inl hvalue⟩⟩
      | batch hobject hoperation hfields hamount hvalue =>
        exact ⟨hobject, hoperation, .inr ⟨hfields, .inr ⟨hamount, hvalue⟩⟩⟩
  · rw [matchRule_idle hcond hexec]
    constructor
    · rintro ⟨e, he⟩
      cases he
    · exact fun h => absurd h.executable hexec

/-- Where the matcher returns, a rule matches when every check passes, unless an empty list of fields
is its only condition. -/
lemma matchRule_true (hcond : rule.conditions = some cond) (htyped : cond.otherKeys = false) :
    matchRule cfg op rule = .ok true ↔ ¬ OnlyEmptyFields cond ∧ ∀ key, Passes cfg cond op key := by
  -- without a condition that can be checked a rule matches nothing, unless none is given at all
  by_cases hexec : cond.hasExecutableCondition = true
  · have hnot : ¬ OnlyEmptyFields cond := fun h => by
      simp [RuleConditions.hasExecutableCondition, h.fieldApiNames, h.objectApiName, h.operation,
        h.amountThreshold, h.batchSize] at hexec
    rw [matchRule_inTurn hcond hexec, inTurn_true]
    simp only [List.forall_mem_cons, Except.ok.injEq, List.not_mem_nil, false_implies,
      implies_true, and_true, hnot, not_false_eq_true, true_and]
    constructor
    · intro ⟨hobject, hoperation, hfields, hamount, hbatch⟩ key
      cases key with
      | objectApiName => exact hobject
      | operation => exact hoperation
      | fieldApiNames => exact hfields
      | amountThreshold => exact hamount
      | batchSize => exact hbatch
    · exact fun h => ⟨h .objectApiName, h .operation, h .fieldApiNames, h .amountThreshold,
        h .batchSize⟩
  · rw [matchRule_idle hcond hexec]
    simp only [RuleConditions.hasExecutableCondition, Bool.or_eq_true, not_or,
      Bool.not_eq_true, Option.isSome_eq_false_iff, Option.isNone_iff_eq_none,
      decide_eq_false_iff_not, Nat.not_lt, Nat.le_zero] at hexec
    obtain ⟨⟨⟨⟨hobject, hoperation⟩, hfields⟩, hamount⟩, hbatch⟩ := hexec
    have hempty : cond.isEmpty = cond.fieldApiNames.isNone := by
      simp [RuleConditions.isEmpty, hobject, hoperation, hamount, hbatch, htyped]
    rw [hempty]
    cases hnames : cond.fieldApiNames with
    | none =>
      have hnot : ¬ OnlyEmptyFields cond := fun h => by simpa [hnames] using h.fieldApiNames
      refine iff_of_true rfl ⟨hnot, fun key => ?_⟩
      cases key with
      | objectApiName => simp [Passes, hobject, nameMatches]
      | operation => simp [Passes, hoperation, nameMatches]
      | fieldApiNames => simp [Passes, hnames, fieldsMatch]
      | amountThreshold => simp [Passes, hamount, boundMatches]
      | batchSize => simp [Passes, hbatch, boundMatches]
    | some names =>
      rw [hnames] at hfields
      have honly : OnlyEmptyFields cond :=
        ⟨hnames.trans (congrArg some (List.eq_nil_of_length_eq_zero hfields)), hobject, hoperation,
          hamount, hbatch⟩
      exact iff_of_false (by simp) fun h => h.1 honly

/-- No fields are ever named. -/
lemma OnlyEmptyFields.not_holds {toolName : String} {input : Json} (h : OnlyEmptyFields cond) :
    ¬ Holds cond toolName input .fieldApiNames := by
  intro hholds
  obtain ⟨name, hname, _⟩ := hholds [] h.fieldApiNames
  cases hname

/-- A check that passes for more conditions passes for fewer. -/
lemma Extends.passes {cond' : RuleConditions} (h : Extends cond cond') {key : Key}
    (hkey : Passes cfg cond' op key) : Passes cfg cond op key := by
  -- one case for each condition: it was given up, or is the same
  cases key with
  | objectApiName =>
    rcases h.objectApiName with hnone | hsame
    · simp [Passes, hnone, nameMatches]
    · show nameMatches cond.objectApiName op.objectApiName = true
      rw [← hsame]
      exact hkey
  | operation =>
    rcases h.operation with hnone | hsame
    · simp [Passes, hnone, nameMatches]
    · show nameMatches cond.operation op.operation = true
      rw [← hsame]
      exact hkey
  | fieldApiNames =>
    rcases h.fieldApiNames with hnone | hsame
    · simp [Passes, hnone, fieldsMatch]
    · show fieldsMatch cond.fieldApiNames op.fieldApiNames = .ok true
      rw [← hsame]
      exact hkey
  | amountThreshold =>
    rcases h.amountThreshold with hnone | hsame
    · simp [Passes, hnone, boundMatches]
    · show boundMatches cfg cond.amountThreshold op.amount = .ok true
      rw [← hsame]
      exact hkey
  | batchSize =>
    rcases h.batchSize with hnone | hsame
    · simp [Passes, hnone, boundMatches]
    · show boundMatches cfg cond.batchSize op.batchSize = .ok true
      rw [← hsame]
      exact hkey

end matcher

/-! ## Rules match what their conditions describe -/

/-- The matcher returns, and it returns whether every condition holds. -/
def MatchesDescribed (cfg : Config) (toolName : String) (input : Json) (rule : GuardrailRule)
    (cond : RuleConditions) : Prop :=
  ∃ b, matchRule cfg (extractOperation toolName input) rule = .ok b ∧
    (b = true ↔ ∀ key, Holds cond toolName input key)

/-- When a rule holds of what is described. -/
lemma matchesDescribed_iff {cfg : Config} {toolName : String} {input : Json}
    {rule : GuardrailRule} {cond : RuleConditions} (hcond : rule.conditions = some cond)
    (htyped : cond.otherKeys = false) :
    MatchesDescribed cfg toolName input rule cond ↔ ReadRight cfg cond toolName input := by
  have htrue := @matchRule_true cfg cond (extractOperation toolName input) rule hcond htyped
  constructor
  · intro ⟨b, hb, hiff⟩
    have hwhole : matchRule cfg (extractOperation toolName input) rule = .ok true ↔
        ∀ key, Holds cond toolName input key := by
      rw [← hiff, hb, Except.ok.injEq]
    refine ⟨fun hunread => ?_, fun key hslack => ?_, fun key hstrict => ?_⟩
    · obtain ⟨e, he⟩ := (matchRule_error hcond).2 hunread
      cases hb.symm.trans he
    · -- the misread condition does not hold, so some check must have failed
      by_contra hnone
      obtain ⟨honly, hothers⟩ := not_or.1 hnone
      refine hslack.not_holds (hwhole.1 (htrue.2 ⟨honly, fun other => ?_⟩) key)
      rw [passes_iff]
      by_contra hfails
      obtain ⟨hleft, hright⟩ := not_or.1 hfails
      refine hothers ⟨other, ?_⟩
      by_cases hother : Strict cfg cond toolName input other
      · exact .inl hother
      · exact .inr ⟨fun hholds => hleft ⟨hholds, hother⟩, hright⟩
    · by_contra hnone
      have hall : ∀ other, Holds cond toolName input other := fun other =>
        Classical.not_not.1 fun hother => hnone ⟨other, hother⟩
      rcases passes_iff.1 ((htrue.1 (hwhole.2 hall)).2 key) with ⟨_, hnot⟩ | hslack
      · exact hnot hstrict
      · exact hslack.not_holds (hall key)
  · intro h
    cases hb : matchRule cfg (extractOperation toolName input) rule with
    | error e => exact absurd ((matchRule_error hcond).1 ⟨e, hb⟩) h.readable
    | ok b =>
      refine ⟨b, hb, ?_⟩
      rw [hb, Except.ok.injEq] at htrue
      rw [htrue]
      constructor
      · intro ⟨honly, hpasses⟩ key
        rcases passes_iff.1 (hpasses key) with ⟨hholds, _⟩ | hslack
        · exact hholds
        · rcases h.slack key hslack with honly' | ⟨other, hother⟩
          · exact absurd honly' honly
          · rcases passes_iff.1 (hpasses other) with ⟨hholds, hnot⟩ | hslack'
            · rcases hother with hstrict | ⟨hfails, _⟩
              · exact absurd hstrict hnot
              · exact absurd hholds hfails
            · rcases hother with hstrict | ⟨_, hfails⟩
              · exact absurd hstrict.holds hslack'.not_holds
              · exact absurd hslack' hfails
      · intro hall
        refine ⟨fun honly => honly.not_holds (hall .fieldApiNames), fun key => ?_⟩
        refine passes_iff.2 (.inl ⟨hall key, fun hstrict => ?_⟩)
        obtain ⟨other, hother⟩ := h.strict key hstrict
        exact hother (hall other)

/-- A rule matches exactly the operations that its conditions describe if and only if none of the
misreadings decides; and a rule that matches still matches with fewer conditions, unless all that is
left is an empty list of fields. -/
theorem matchRule_exact (cfg : Config) (toolName : String) (input : Json) (rule : GuardrailRule)
    (cond : RuleConditions) (htyped : cond.otherKeys = false) :
    (MatchesDescribed cfg toolName input { rule with conditions := some cond } cond ↔
      ReadRight cfg cond toolName input) ∧
    ∀ cond', cond'.otherKeys = false → Extends cond cond' →
      matchRule cfg (extractOperation toolName input) { rule with conditions := some cond' } =
        .ok true →
      (matchRule cfg (extractOperation toolName input) { rule with conditions := some cond } =
        .ok true ↔ ¬ OnlyEmptyFields cond) := by
  refine ⟨matchesDescribed_iff rfl htyped, fun cond' htyped' hextends hmatch => ?_⟩
  rw [matchRule_true rfl htyped]
  rw [matchRule_true rfl htyped'] at hmatch
  exact and_iff_left fun key => hextends.passes (hmatch.2 key)

/-- A rule on amounts of at least zero. -/
def amountRule : RuleConditions :=
  { amountThreshold := some 0 }

def anyRule : GuardrailRule where
  id := "large-amounts"
  workspaceId := 1
  name := "large amounts"
  isActive := true
  priority := 100
  conditions := some amountRule
  riskLevel := "L4"

/-- A deployment without rules or tools, whose values that are no numbers are below no bound. -/
def bareConfig : Config where
  rules := []
  tools := []
  maxIterations := 1
  workspaceId := 1
  agentId := 1
  ws := 1
  allowedTools := []
  aggregated := []
  stringify := Json.render
  parse := fun _ => none
  below := fun _ _ => false
  toText := Json.render
  idOf := fun _ => none

/-- An amount of zero is no amount to the matcher. -/
theorem zero_amount_missed : ¬ MatchesDescribed bareConfig "invoice.pay"
    (.obj [("amount", .num 0)]) anyRule amountRule := by
  rintro ⟨b, hb, hiff⟩
  have hmissed : matchRule bareConfig
      (extractOperation "invoice.pay" (.obj [("amount", .num 0)])) anyRule = .ok false := by
    decide +kernel
  obtain rfl := Except.ok.inj (hmissed.symm.trans hb)
  refine absurd (hiff.2 fun key => ?_) (by simp)
  cases key with
  | amountThreshold =>
    intro bound hbound
    obtain rfl := Option.some.inj hbound
    exact ⟨0, rfl, Rat.le_refl⟩
  | _ => exact nofun

/-- A rule on invoices of at least a hundred. -/
def invoiceRule : RuleConditions :=
  { objectApiName := some "Invoice", amountThreshold := some 100 }

/-- An invoice of two hundred and fifty, beside an alias of the amount that is not read. -/
def invoiceInput : Json :=
  .obj [("objectApiName", .str "Invoice"), ("amount", .num 250), ("value", .obj [])]

/-- The rule on invoices is read as it is described. -/
lemma invoice_readRight : ReadRight bareConfig invoiceRule "invoice.pay" invoiceInput := by
  have hsupplied : ∃ n, suppliedAmount invoiceInput = some n ∧ (100 : Rat) ≤ n :=
    ⟨250, rfl, by decide⟩
  have hread : (extractOperation "invoice.pay" invoiceInput).amount = some (.num 250) :=
    orElse_truthy (a := some (.num 250)) (b := some (.obj [])) (by decide +kernel)
  refine ⟨?_, ?_, ?_⟩
  · intro h
    -- no way to misread a condition applies to this rule
    cases h with
    | fields asked =>
      obtain ⟨_, _, hasked⟩ := asked
      cases hasked
    | amount _ _ _ hvalue =>
      obtain ⟨v, hv, hfalse⟩ := hvalue.unconvertible
      obtain rfl := Option.some.inj (hread.symm.trans hv)
      cases (isConvertible_num 250).symm.trans hfalse
    | batch _ _ _ _ hvalue => cases hvalue.bounded
  · intro key hslack
    cases key with
    | objectApiName => exact absurd (Option.some.inj hslack) (show "Invoice" ≠ "" by decide)
    | operation => cases hslack.1
    | fieldApiNames =>
      obtain ⟨_, hasked, _⟩ := hslack
      cases hasked
    | amountThreshold =>
      obtain ⟨bound, hbound, hamount⟩ := hslack
      obtain rfl := Option.some.inj hbound
      exact absurd hsupplied (slackAmount_misses hamount)
    | batchSize =>
      obtain ⟨_, _, hbound, _⟩ := hslack
      cases hbound
  · intro key hstrict
    cases key with
    | objectApiName =>
      obtain ⟨_, v, _, _, hread, hunnamed, _⟩ := hstrict
      obtain rfl := Option.some.inj hread
      cases hunnamed.2
    | operation =>
      obtain ⟨_, hasked, _⟩ := hstrict
      cases hasked
    | fieldApiNames =>
      obtain ⟨_, _, hasked, _⟩ := hstrict
      cases hasked
    | amountThreshold =>
      obtain ⟨bound, _, hamount⟩ := hstrict
      cases hamount with
      | zero hzero => exact absurd (Json.num.inj (Option.some.inj hzero)) (by decide)
      | amount hread _ hnumber => exact absurd (Option.some.inj hread).symm (hnumber.2 250)
    | batchSize => exact hstrict.elim

/-- An amount above the threshold on the object asked for is described and matched, by the rule itself
and by the rule that asks for the operation too. -/
theorem invoice_amount_matched :
    MatchesDescribed bareConfig "invoice.pay" invoiceInput
        { anyRule with conditions := some invoiceRule } invoiceRule ∧
      (matchRule bareConfig (extractOperation "invoice.pay" invoiceInput)
        { anyRule with conditions := some invoiceRule } = .ok true ↔ ¬ OnlyEmptyFields invoiceRule) := by
  have hexact := matchRule_exact bareConfig "invoice.pay" invoiceInput anyRule invoiceRule rfl
  exact ⟨hexact.1.2 invoice_readRight,
    hexact.2 { invoiceRule with operation := some "invoice.pay" } rfl
      ⟨.inr rfl, .inl rfl, .inl rfl, .inr rfl, .inl rfl⟩ (by decide +kernel)⟩

end Governance.RuleMatching
end NexusClaw
