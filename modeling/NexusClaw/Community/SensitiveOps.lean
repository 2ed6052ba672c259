import NexusClaw.Community.AgentConfig

/-!
# Sensitive operations

What a list of rules says about a tool call, apart from how `checkSensitiveOps` looks it up: a rule
applies where its tool pattern stands for the tool name, or its object and operation do, and the
strictest rule that applies is the one to report. The engine reports the first rule that it reads as
the call, and reads a pattern with stars as the regular expression that it makes of it.
-/

namespace NexusClaw.Community.SensitiveOps
open AgentRuntime

/-! ## What a rule says -/

/-- A text that a pattern stands for: each star stands for any text and every other character for
itself. -/
inductive GlobMatches : List Char → List Char → Prop where
  | nil : GlobMatches [] []
  | literal {c : Char} {pattern text : List Char} : c ≠ '*' → GlobMatches pattern text →
    GlobMatches (c :: pattern) (c :: text)
  | star (skipped : List Char) {pattern text : List Char} : GlobMatches pattern text →
    GlobMatches ('*' :: pattern) (skipped ++ text)

/-- A text matches itself. -/
lemma GlobMatches.self (text : List Char) : GlobMatches text text := by
  induction text with
  | nil => exact .nil
  | cons c text ih =>
    by_cases hc : c = '*'
    · rw [hc]
      exact .star ['*'] ih
    · exact .literal hc ih

/-- A pattern without a star matches itself alone. -/
lemma GlobMatches.eq {pattern text : List Char} (h : GlobMatches pattern text)
    (hstar : '*' ∉ pattern) : pattern = text := by
  induction h with
  | nil => rfl
  | literal _ _ ih => rw [ih fun h => hstar (List.mem_cons_of_mem _ h)]
  | star _ _ _ => exact absurd (List.mem_cons_self ..) hstar

/-- The tool pattern of a rule. -/
def pattern (rule : SensitiveOpRule) : String :=
  rule.textOf "toolPattern"

/-- The place of a rule's level among the levels. -/
def rank (rule : SensitiveOpRule) : Nat :=
  riskLevels.idxOf (rule.textOf "riskLevel")

/-- The input is about the object that a rule names. -/
def About (toolInput : Option Json) (object : Json) : Prop :=
  object = .str "*" ∨ ∃ given, objectOf toolInput = some given ∧ Json.strictEq given object = true

/-- The rule names no object, every object or the one of the input. -/
def Within (toolInput : Option Json) (rule : SensitiveOpRule) : Prop :=
  ∀ object, rule.get? "objectApiName" = some object → Json.truthy (some object) = true →
    About toolInput object

/-- The rule names the object of the input and the operation in the tool's name. -/
def ByOperation (toolName : String) (toolInput : Option Json) (rule : SensitiveOpRule) : Prop :=
  ∃ object, rule.get? "objectApiName" = some object ∧ Json.truthy (some object) = true ∧
    About toolInput object ∧
    ((toolName.splitOn ".")[1]? = some (rule.textOf "operation") ∨ rule.textOf "operation" = "*")

/-- A call that a rule is about: by its tool pattern, within its object, or by its object and
operation. -/
def Applies (toolName : String) (toolInput : Option Json) (rule : SensitiveOpRule) : Prop :=
  GlobMatches (pattern rule).toList toolName.toList ∧ Within toolInput rule ∨
    ByOperation toolName toolInput rule

/-- The lookup answers with a strictest rule that applies, and with none where none does. -/
def Exact (cfg : Config) (toolName : String) (toolInput : Option Json)
    (rules : List SensitiveOpRule) : Prop :=
  ∃ result, checkSensitiveOps cfg toolName toolInput rules = .ok result ∧
    (result = none ↔ ∀ rule ∈ rules, ¬ Applies toolName toolInput rule) ∧
    ∀ rule, result = some rule → rule ∈ rules ∧ Applies toolName toolInput rule ∧
      ∀ other ∈ rules, Applies toolName toolInput other → rank other ≤ rank rule

/-- The level that the lookup reports, counted from one; zero where it reports none. -/
def reported (cfg : Config) (toolName : String) (toolInput : Option Json)
    (rules : List SensitiveOpRule) : Nat :=
  match checkSensitiveOps cfg toolName toolInput rules with
  | .ok (some rule) => rank rule + 1
  | _ => 0

/-! ## How a rule is read -/

/-- The pattern needs no regular expression, or the one that is made of it compiles. -/
def Compiles (cfg : Config) (toolName : String) (rule : SensitiveOpRule) : Prop :=
  pattern rule = toolName ∨ '*' ∉ (pattern rule).toList ∨
    ∃ accepts, cfg.regexTest (globPattern (pattern rule)) toolName = .ok accepts

/-- The rule reads as the call: its pattern is the name of the tool or, with a star in it, makes a
regular expression that accepts the name, within its object; or its object and operation are named. -/
def ReadsAs (cfg : Config) (toolName : String) (toolInput : Option Json) (rule : SensitiveOpRule) :
    Prop :=
  (pattern rule = toolName ∨ '*' ∈ (pattern rule).toList ∧
      cfg.regexTest (globPattern (pattern rule)) toolName = .ok true) ∧ Within toolInput rule ∨
    ByOperation toolName toolInput rule

/-- Every pattern up to the first rule that reads as the call compiles; that rule applies literally,
and no rule that applies literally is stricter. Where no rule reads as the call, none applies. -/
inductive StrictestFirst (cfg : Config) (toolName : String) (toolInput : Option Json) :
    List SensitiveOpRule → Prop where
  | none {rules : List SensitiveOpRule} :
    (∀ rule ∈ rules, Compiles cfg toolName rule ∧ ¬ ReadsAs cfg toolName toolInput rule) →
    (∀ rule ∈ rules, ¬ Applies toolName toolInput rule) →
    StrictestFirst cfg toolName toolInput rules
  | first {before after : List SensitiveOpRule} {rule : SensitiveOpRule} :
    (∀ earlier ∈ before, Compiles cfg toolName earlier ∧
      ¬ ReadsAs cfg toolName toolInput earlier) →
    Compiles cfg toolName rule → ReadsAs cfg toolName toolInput rule →
    Applies toolName toolInput rule →
    (∀ other ∈ before ++ rule :: after, Applies toolName toolInput other →
      rank other ≤ rank rule) →
    StrictestFirst cfg toolName toolInput (before ++ rule :: after)

section
variable {cfg : Config} {toolName : String} {toolInput : Option Json}
  {rules rules' : List SensitiveOpRule} {rule : SensitiveOpRule}

/-! ### Rules that pass their check -/

/-- A text of a row. -/
lemma textOf_eq_some {row : Json} {field text : String} (h : textOf row field = some text) :
    row.get? field = some (.str text) ∧ text ≠ "" := by
  obtain ⟨hsome, hne⟩ := Option.filter_eq_some_iff.1 h
  obtain ⟨v, hv, hstr⟩ := Option.bind_eq_some_iff.1 hsome
  cases v with
  | str s =>
    cases hstr
    exact ⟨hv, by simpa using hne⟩
  | _ => cases hstr

/-- A rule that passes its check has a pattern and an operation. -/
lemma validated (h : validateSensitiveOp rule = .ok ()) :
    (rule.get? "toolPattern" = some (.str (pattern rule)) ∧ pattern rule ≠ "") ∧
      rule.get? "operation" = some (.str (rule.textOf "operation")) ∧
      rule.textOf "operation" ≠ "" := by
  have htext {field text : String} (hsome : textOf rule field = some text) :
      rule.get? field = some (.str (rule.textOf field)) ∧ rule.textOf field ≠ "" := by
    obtain ⟨hget, hne⟩ := textOf_eq_some hsome
    have heq : rule.textOf field = text := by
      unfold SensitiveOpRule.textOf
      rw [hget]
      rfl
    rw [heq]
    exact ⟨hget, hne⟩
  cases rule with
  | obj fields =>
    unfold validateSensitiveOp at h
    dsimp only at h
    split at h
    · cases h
    · rename_i operation hoperation
      split_ifs at h with hpattern
      obtain ⟨p, hp⟩ := Option.ne_none_iff_exists'.1 (by simpa using hpattern)
      exact ⟨htext hp, htext hoperation⟩
  | _ => cases h

/-- A list passes its check when every rule of it does. -/
lemma validateSensitiveOps_iff :
    validateSensitiveOps (.arr rules) = .ok () ↔ ∀ rule ∈ rules, validateSensitiveOp rule = .ok () := by
  show rules.forM validateSensitiveOp = .ok () ↔ _
  induction rules with
  | nil => simp [pure, Except.pure]
  | cons rule rules ih =>
    rw [List.forall_mem_cons, ← ih, List.forM_eq_forM, List.forM_cons]
    cases validateSensitiveOp rule with
    | error e => exact ⟨fun h => (by cases h), fun h => (by cases h.1)⟩
    | ok u => exact ⟨fun h => ⟨rfl, h⟩, fun h => h.2⟩

/-! ### Reading one rule -/

/-- When a rule is about the object of a call. -/
lemma about_iff (object : Json) : (decide (object = .str "*") ||
    (objectOf toolInput).any (Json.strictEq · object)) = true ↔ About toolInput object := by
  unfold About
  rw [Bool.or_eq_true, decide_eq_true_eq, Option.any_eq_true]

/-- When a call is within the bounds of a rule. -/
lemma admits_iff : admits rule toolInput = true ↔ Within toolInput rule := by
  unfold admits Within
  cases rule.get? "objectApiName" with
  | none => simp
  | some object =>
    dsimp only
    rw [Bool.or_assoc, Bool.or_eq_true, about_iff, Bool.not_eq_true', ← Bool.not_eq_true,
      ← imp_iff_not_or]
    exact ⟨fun h object' hobject => (Option.some.inj hobject) ▸ h, fun h => h object rfl⟩

/-- When a rule is about the operation of a call. -/
lemma operationMatches_iff (h : validateSensitiveOp rule = .ok ()) :
    operationMatches rule toolName toolInput = true ↔ ByOperation toolName toolInput rule := by
  obtain ⟨-, hget, hne⟩ := validated h
  unfold operationMatches ByOperation
  rw [hget]
  cases rule.get? "objectApiName" with
  | none => simp
  | some object =>
    dsimp only
    rw [Bool.and_eq_true, about_iff]
    have hop : Json.truthy (some (.str (rule.textOf "operation"))) = true := by
      simpa [Json.truthy] using hne
    have htool : ((toolName.splitOn ".")[1]?.any fun toolOp =>
        decide (rule.textOf "operation" = toolOp)) = true ↔
          (toolName.splitOn ".")[1]? = some (rule.textOf "operation") := by
      cases (toolName.splitOn ".")[1]? with
      | none => simp
      | some toolOp => simp [eq_comm]
    simp only [hop, Bool.and_true, Bool.and_eq_true, Bool.or_eq_true, decide_eq_true_eq,
      Json.str.injEq, htool, Option.some.injEq, exists_eq_left']
    tauto

/-- What the pattern of a rule says of the name. -/
lemma patternTest_iff (accepts : Bool) :
    patternTest cfg (pattern rule) toolName = .ok accepts ↔
      Compiles cfg toolName rule ∧ (accepts = true ↔ pattern rule = toolName ∨
        '*' ∈ (pattern rule).toList ∧
          cfg.regexTest (globPattern (pattern rule)) toolName = .ok true) := by
  unfold patternTest Compiles
  by_cases heq : pattern rule = toolName
  · rw [if_pos heq]
    simp [heq, eq_comm]
  · rw [if_neg heq]
    by_cases hstar : '*' ∈ (pattern rule).toList
    · rw [if_pos (List.contains_iff_mem.2 hstar)]
      cases cfg.regexTest (globPattern (pattern rule)) toolName with
      | error e => simp [heq, hstar]
      | ok b => cases b <;> cases accepts <;> simp [heq, hstar]
    · rw [if_neg fun h => hstar (List.contains_iff_mem.1 h)]
      cases accepts <;> simp [heq, hstar]

/-- The test of a rule that passed its check: it throws where the pattern does not compile, and else
says whether the rule reads as the call. -/
lemma ruleMatches_iff (h : validateSensitiveOp rule = .ok ()) (accepts : Bool) :
    ruleMatches cfg toolName toolInput rule = .ok accepts ↔
      Compiles cfg toolName rule ∧ (accepts = true ↔ ReadsAs cfg toolName toolInput rule) := by
  obtain ⟨⟨hget, hne⟩, -⟩ := validated h
  have heq : ruleMatches cfg toolName toolInput rule =
      (patternTest cfg (pattern rule) toolName >>= fun named =>
        .ok ((named && admits rule toolInput) || operationMatches rule toolName toolInput)) := by
    have hmatches : patternMatches cfg rule toolName toolInput =
        (patternTest cfg (pattern rule) toolName >>= fun named =>
          .ok (named && admits rule toolInput)) := by
      unfold patternMatches
      rw [hget]
      split
      · rename_i hempty
        exact absurd (Json.str.inj (Option.some.inj hempty)) hne
      · rename_i hsome
        rw [Json.str.inj (Option.some.inj hsome)]
      · rename_i harr
        cases harr
      · rename_i hstr _
        exact absurd rfl (hstr _)
    unfold ruleMatches
    cases rule with
    | null => cases hget
    | _ =>
      dsimp only
      rw [hmatches]
      cases patternTest cfg _ toolName <;> rfl
  rw [heq]
  -- the pattern is compiled before anything of the rule is looked at
  cases htest : patternTest cfg (pattern rule) toolName with
  | error e =>
    refine ⟨fun h => (by cases h), fun ⟨hcompiles, _⟩ => ?_⟩
    classical
    have hok : patternTest cfg (pattern rule) toolName = .ok (decide (pattern rule = toolName ∨
        '*' ∈ (pattern rule).toList ∧
          cfg.regexTest (globPattern (pattern rule)) toolName = .ok true)) :=
      (patternTest_iff _).2 ⟨hcompiles, decide_eq_true_iff⟩
    cases htest.symm.trans hok
  | ok named =>
    obtain ⟨hcompiles, hnamed⟩ := (patternTest_iff named).1 htest
    have hreads : ((named && admits rule toolInput) ||
        operationMatches rule toolName toolInput) = true ↔
          ReadsAs cfg toolName toolInput rule := by
      rw [Bool.or_eq_true, Bool.and_eq_true, hnamed, admits_iff, operationMatches_iff h]
      rfl
    rw [← hreads, and_iff_right hcompiles]
    show Except.ok _ = Except.ok accepts ↔ _
    rw [Except.ok.injEq, Bool.eq_iff_iff]
    exact iff_comm

/-- When a valid rule does not match. -/
lemma ruleMatches_refused (h : validateSensitiveOp rule = .ok ()) :
    ruleMatches cfg toolName toolInput rule = .ok false ↔
      Compiles cfg toolName rule ∧ ¬ ReadsAs cfg toolName toolInput rule := by
  rw [ruleMatches_iff h]
  simp

/-- When a valid rule matches. -/
lemma ruleMatches_accepted (h : validateSensitiveOp rule = .ok ()) :
    ruleMatches cfg toolName toolInput rule = .ok true ↔
      Compiles cfg toolName rule ∧ ReadsAs cfg toolName toolInput rule := by
  rw [ruleMatches_iff h]
  simp

/-! ### The lookup -/

/-- The rules are checked one after the other. -/
lemma checkSensitiveOps_cons : checkSensitiveOps cfg toolName toolInput (rule :: rules) =
    (ruleMatches cfg toolName toolInput rule >>= fun accepts =>
      if accepts = true then .ok (some rule) else checkSensitiveOps cfg toolName toolInput rules) :=
  rfl

/-- Rules that are refused are passed over. -/
lemma checkSensitiveOps_append {before : List SensitiveOpRule}
    (h : ∀ earlier ∈ before, ruleMatches cfg toolName toolInput earlier = .ok false) :
    checkSensitiveOps cfg toolName toolInput (before ++ rules) =
      checkSensitiveOps cfg toolName toolInput rules := by
  induction before with
  | nil => rfl
  | cons first before ih =>
    rw [List.cons_append, checkSensitiveOps_cons, h first (List.mem_cons_self ..)]
    exact ih fun earlier hmem => h earlier (List.mem_cons_of_mem _ hmem)

/-- A lookup that ends has refused every rule, or all before the one that it accepts. -/
lemma checkSensitiveOps_ok {result : Option SensitiveOpRule}
    (h : checkSensitiveOps cfg toolName toolInput rules = .ok result) :
    (result = none ∧ ∀ rule ∈ rules, ruleMatches cfg toolName toolInput rule = .ok false) ∨
      ∃ before rule after, rules = before ++ rule :: after ∧ result = some rule ∧
        (∀ earlier ∈ before, ruleMatches cfg toolName toolInput earlier = .ok false) ∧
        ruleMatches cfg toolName toolInput rule = .ok true := by
  induction rules with
  | nil => exact .inl ⟨(Except.ok.inj h).symm, fun rule hrule => by cases hrule⟩
  | cons first rules ih =>
    rw [checkSensitiveOps_cons] at h
    cases hfirst : ruleMatches cfg toolName toolInput first with
    | error e =>
      rw [hfirst] at h
      cases h
    | ok accepts =>
      rw [hfirst] at h
      cases accepts with
      | true =>
        exact .inr ⟨[], first, rules, rfl, (Except.ok.inj h).symm, fun _ hmem => (by cases hmem),
          hfirst⟩
      | false =>
        rcases ih h with ⟨hnone, hall⟩ | ⟨before, rule, after, rfl, hsome, hbefore, hrule⟩
        · exact .inl ⟨hnone, List.forall_mem_cons.2 ⟨hfirst, hall⟩⟩
        · exact .inr ⟨first :: before, rule, after, rfl, hsome,
            List.forall_mem_cons.2 ⟨hfirst, hbefore⟩, hrule⟩

/-- The lookup of rules that passed their check is exact just when the first one read as the call is a
strictest. -/
lemma exact_iff (h : ∀ rule ∈ rules, validateSensitiveOp rule = .ok ()) :
    Exact cfg toolName toolInput rules ↔ StrictestFirst cfg toolName toolInput rules := by
  constructor
  · intro ⟨result, hresult, hnone, hsome⟩
    -- the code finds the first rule that reads as the call
    rcases checkSensitiveOps_ok hresult with
      ⟨rfl, hall⟩ | ⟨before, rule, after, rfl, rfl, hbefore, hrule⟩
    · exact .none (fun rule hrule => (ruleMatches_refused (h rule hrule)).1 (hall rule hrule))
        (hnone.1 rfl)
    · obtain ⟨hmem, happlies, hstrictest⟩ := hsome rule rfl
      obtain ⟨hcompiles, hreads⟩ := (ruleMatches_accepted (h rule hmem)).1 hrule
      refine .first (fun earlier hearlier => ?_) hcompiles hreads happlies hstrictest
      exact (ruleMatches_refused (h earlier (List.mem_append_left _ hearlier))).1
        (hbefore earlier hearlier)
  · intro hstrict
    cases hstrict with
    | none hrefused happlies =>
      refine ⟨none, ?_, ⟨fun _ => happlies, fun _ => rfl⟩, fun rule hsome => by cases hsome⟩
      rw [← List.append_nil rules, checkSensitiveOps_append fun rule hrule =>
        (ruleMatches_refused (h rule hrule)).2 (hrefused rule hrule)]
      rfl
    | @first before after rule hrefused hcompiles hreads happlies hstrictest =>
      -- what stands before the first rule does not apply
      have hmem : rule ∈ before ++ rule :: after :=
        List.mem_append_right _ (List.mem_cons_self ..)
      refine ⟨some rule, ?_, ⟨fun hnone => (by cases hnone), fun hnone => ?_⟩, fun other hother => ?_⟩
      · rw [checkSensitiveOps_append fun earlier hearlier =>
          (ruleMatches_refused (h earlier (List.mem_append_left _ hearlier))).2
            (hrefused earlier hearlier), checkSensitiveOps_cons,
          (ruleMatches_accepted (h rule hmem)).2 ⟨hcompiles, hreads⟩]
        rfl
      · exact absurd happlies (hnone rule hmem)
      · cases hother
        exact ⟨hmem, happlies, hstrictest⟩

/-- Two exact lookups report no lower a level for more rules, in whatever order. -/
lemma Exact.reported_le (h : Exact cfg toolName toolInput rules)
    (h' : Exact cfg toolName toolInput rules') (hsub : rules ⊆ rules') :
    reported cfg toolName toolInput rules ≤ reported cfg toolName toolInput rules' := by
  obtain ⟨result, hresult, _, hsome⟩ := h
  obtain ⟨result', hresult', hnone', hsome'⟩ := h'
  unfold reported
  rw [hresult, hresult']
  cases result with
  | none => exact Nat.zero_le _
  | some rule =>
    obtain ⟨hmem, happlies, _⟩ := hsome rule rfl
    cases result' with
    | none => exact absurd happlies (hnone'.1 rfl rule (hsub hmem))
    | some rule' =>
      exact Nat.succ_le_succ ((hsome' rule' rfl).2.2 rule (hsub hmem) happlies)

end

/-- The lookup of rules that passed their check is exact if and only if the first rule that reads as
the call, whose pattern and those before it must compile, applies literally and no rule that applies
is stricter. What it reports of such rules depends on which rules there are and never falls with one
more. -/
theorem sensitive_ops_exact_iff (cfg : Config) (toolName : String) (toolInput : Option Json)
    (rules : List SensitiveOpRule) (hrules : validateSensitiveOps (.arr rules) = .ok ()) :
    (Exact cfg toolName toolInput rules ↔ StrictestFirst cfg toolName toolInput rules) ∧
      ∀ rules', validateSensitiveOps (.arr rules') = .ok () →
        StrictestFirst cfg toolName toolInput rules →
        StrictestFirst cfg toolName toolInput rules' → rules ⊆ rules' →
        reported cfg toolName toolInput rules ≤ reported cfg toolName toolInput rules' := by
  have hexact : Exact cfg toolName toolInput rules ↔ StrictestFirst cfg toolName toolInput rules :=
    exact_iff (validateSensitiveOps_iff.1 hrules)
  refine ⟨hexact, fun rules' hrules' hstrict hstrict' hsub => ?_⟩
  exact (hexact.2 hstrict).reported_le
    ((exact_iff (validateSensitiveOps_iff.1 hrules')).2 hstrict') hsub

/-- A rule about updates of records, as the mutation accepts it. -/
def updateRule (riskLevel : String) : Json :=
  .obj [("operation", .str "update"), ("toolPattern", .str "record.update"),
    ("riskLevel", .str riskLevel), ("action", .str "approve")]

/-- A rule about every tool for records. -/
def recordRule : Json :=
  .obj [("objectApiName", .str "Lead"), ("operation", .str "*"), ("toolPattern", .str "record.*"),
    ("riskLevel", .str "L2"), ("action", .str "confirm")]

/-- A regular expression of characters, dots and dots with a star, up to its end. -/
def lineTest : List Char → List Char → Bool
  | ['$'], text => text.isEmpty
  | '.' :: '*' :: cs, text => text.tails.any (lineTest cs)
  | c :: cs, t :: text => (c = '.' || c = t) && lineTest cs text
  | _, _ => false

/-- An engine with such regular expressions. -/
def lines : Config :=
  { Config.small greeting with
    regexTest := fun regex text => .ok (lineTest (regex.toList.drop 1) text.toList) }

/-- The input of a call about cases. -/
def caseInput : Option Json :=
  some (.obj [("objectApiName", .str "Case")])

/-- The rule about leads is none about cases. -/
lemma recordRule_outside : ¬ About caseInput (.str "Lead") := by
  rintro (hstar | ⟨given, hgiven, heq⟩)
  · exact absurd hstar (by decide)
  · cases hgiven
    exact absurd heq (by decide)

/-- A rule with a star that is passed over, then the strictest of the two that apply; the level is no
lower than that of the other one alone. -/
theorem strict_rule_first :
    Exact lines "record.update" caseInput [recordRule, updateRule "L4", updateRule "L1"] ∧
      reported lines "record.update" caseInput [updateRule "L1"] ≤
        reported lines "record.update" caseInput [recordRule, updateRule "L4", updateRule "L1"] := by
  have happlies (level : String) : Applies "record.update" caseInput (updateRule level) :=
    .inl ⟨.self _, fun object hobject => by cases hobject⟩
  have hreads (level : String) : ReadsAs lines "record.update" caseInput (updateRule level) :=
    .inl ⟨.inl rfl, fun object hobject => by cases hobject⟩
  have hoperation : ¬ ByOperation "record.update" caseInput recordRule := by
    intro ⟨object, hobject, _, habout, _⟩
    cases hobject
    exact recordRule_outside habout
  have hwithin : ¬ Within caseInput recordRule := fun h =>
    recordRule_outside (h (.str "Lead") rfl rfl)
  have hfirst : StrictestFirst lines "record.update" caseInput
      [recordRule, updateRule "L4", updateRule "L1"] := by
    refine @StrictestFirst.first _ _ _ [recordRule] [updateRule "L1"] (updateRule "L4")
      (List.forall_mem_singleton.2 ⟨?_, ?_⟩) (.inl rfl) (hreads "L4") (happlies "L4")
      fun other hother _ => ?_
    · exact .inr (.inr ⟨_, rfl⟩)
    · exact fun h => h.elim (fun h => hwithin h.2) hoperation
    · simp only [List.singleton_append, List.mem_cons, List.not_mem_nil, or_false] at hother
      rcases hother with rfl | rfl | rfl
      · decide
      · decide
      · decide
  have halone : StrictestFirst lines "record.update" caseInput [updateRule "L1"] := by
    refine @StrictestFirst.first _ _ _ [] [] (updateRule "L1") (fun earlier hmem => (by cases hmem))
      (.inl rfl) (hreads "L1") (happlies "L1") fun other hother _ => ?_
    rw [List.mem_singleton.1 hother]
  have hchecked := sensitive_ops_exact_iff lines "record.update" caseInput
    [recordRule, updateRule "L4", updateRule "L1"] rfl
  refine ⟨hchecked.1.2 hfirst, ?_⟩
  exact (sensitive_ops_exact_iff lines "record.update" caseInput [updateRule "L1"] rfl).2 _ rfl
    halone hfirst (by simp)

/-- Of two rules for one tool, the first is reported whatever the second one's level is. -/
theorem weaker_rule_first :
    validateSensitiveOps (.arr [updateRule "L1", updateRule "L4"]) = .ok () ∧
      ¬ Exact (.small greeting) "record.update" none [updateRule "L1", updateRule "L4"] := by
  have hfirst : checkSensitiveOps (.small greeting) "record.update" none
      [updateRule "L1", updateRule "L4"] = .ok (some (updateRule "L1")) := rfl
  refine ⟨rfl, fun ⟨result, hresult, _, hsome⟩ => ?_⟩
  obtain rfl := Except.ok.inj (hfirst.symm.trans hresult)
  have happlies : Applies "record.update" none (updateRule "L4") :=
    .inl ⟨.self _, fun object hobject => by cases hobject⟩
  have hrank := (hsome _ rfl).2.2 (updateRule "L4") (by simp) happlies
  exact absurd hrank (by decide)

/-! ## Patterns without syntax -/

/-- A character that stands for itself in a regular expression. -/
def IsLiteral (c : Char) : Prop :=
  c ∉ ['^', '$', '\\', '.', '*', '+', '?', '(', ')', '[', ']', '{', '}', '|']

/-- A regular expression made from a pattern of stars and literal characters accepts the texts of one
line that the pattern stands for. -/
def ReadsGlobs (cfg : Config) : Prop :=
  ∀ pattern text : String, (∀ c ∈ pattern.toList, c = '*' ∨ IsLiteral c) →
    (∀ c ∈ text.toList, c ∉ ['\n', '\r', Char.ofNat 0x2028, Char.ofNat 0x2029]) →
    ∃ accepts, cfg.regexTest (globPattern pattern) text = .ok accepts ∧
      (accepts = true ↔ GlobMatches pattern.toList text.toList)

section
variable {cfg : Config} {toolName : String} {toolInput : Option Json}
  {rules : List SensitiveOpRule} {rule : SensitiveOpRule}

/-- A rule without syntax compiles, and it reads as a call just when it applies to it. -/
lemma reads_plain (hcfg : ReadsGlobs cfg)
    (hline : ∀ c ∈ toolName.toList, c ∉ ['\n', '\r', Char.ofNat 0x2028, Char.ofNat 0x2029])
    (hplain : ∀ c ∈ (pattern rule).toList, c = '*' ∨ IsLiteral c) :
    Compiles cfg toolName rule ∧
      (ReadsAs cfg toolName toolInput rule ↔ Applies toolName toolInput rule) := by
  obtain ⟨accepts, htest, hglob⟩ := hcfg (pattern rule) toolName hplain hline
  have hnamed : (pattern rule = toolName ∨ '*' ∈ (pattern rule).toList ∧
      cfg.regexTest (globPattern (pattern rule)) toolName = .ok true) ↔
        GlobMatches (pattern rule).toList toolName.toList := by
    rw [htest, Except.ok.injEq, hglob]
    constructor
    · rintro (heq | ⟨_, hmatches⟩)
      · rw [heq]
        exact .self _
      · exact hmatches
    · intro hmatches
      by_cases hstar : '*' ∈ (pattern rule).toList
      · exact .inr ⟨hstar, hmatches⟩
      · exact .inl (String.toList_inj.1 (hmatches.eq hstar))
  refine ⟨.inr (.inr ⟨accepts, htest⟩), ?_⟩
  unfold ReadsAs Applies
  rw [hnamed]

/-- Rules without syntax are looked up exactly just when the first that applies is a strictest. -/
theorem plain_rules_exact_iff (hcfg : ReadsGlobs cfg)
    (hline : ∀ c ∈ toolName.toList, c ∉ ['\n', '\r', Char.ofNat 0x2028, Char.ofNat 0x2029])
    (hvalid : ∀ rule ∈ rules, validateSensitiveOp rule = .ok ())
    (hplain : ∀ rule ∈ rules, ∀ c ∈ (pattern rule).toList, c = '*' ∨ IsLiteral c) :
    Exact cfg toolName toolInput rules ↔
      ∀ before rule after, rules = before ++ rule :: after →
        (∀ earlier ∈ before, ¬ Applies toolName toolInput earlier) →
        Applies toolName toolInput rule →
        ∀ later ∈ after, Applies toolName toolInput later → rank later ≤ rank rule := by
  have hread {rule : SensitiveOpRule} (h : rule ∈ rules) : Compiles cfg toolName rule ∧
      (ReadsAs cfg toolName toolInput rule ↔ Applies toolName toolInput rule) :=
    reads_plain hcfg hline (hplain rule h)
  constructor
  · rintro ⟨result, hresult, _, hsome⟩ before rule after rfl hearlier happlies later hlater
    have hrule := hread (List.mem_append_right before (List.mem_cons_self ..))
    rw [checkSensitiveOps_append fun earlier hmem =>
        (ruleMatches_refused (hvalid earlier (List.mem_append_left _ hmem))).2
          ⟨(hread (List.mem_append_left _ hmem)).1,
            (hread (List.mem_append_left _ hmem)).2.not.2 (hearlier earlier hmem)⟩,
      checkSensitiveOps_cons, (ruleMatches_accepted (hvalid rule (by simp))).2
        ⟨hrule.1, hrule.2.2 happlies⟩] at hresult
    exact (hsome rule (Except.ok.inj hresult).symm).2.2 later (by simp [hlater])
  · intro h
    classical
    refine (exact_iff hvalid).2 ?_
    -- the lookup stops at the first rule that applies
    cases hfind : rules.find? fun rule => decide (Applies toolName toolInput rule) with
    | none =>
      have hnone : ∀ rule ∈ rules, ¬ Applies toolName toolInput rule := by
        simpa using List.find?_eq_none.1 hfind
      exact .none (fun rule hrule => ⟨(hread hrule).1, (hread hrule).2.not.2 (hnone rule hrule)⟩)
        hnone
    | some first =>
      obtain ⟨hfirst, before, after, rfl, hbefore⟩ := List.find?_eq_some_iff_append.1 hfind
      have hearlier : ∀ earlier ∈ before, ¬ Applies toolName toolInput earlier := by
        simpa using hbefore
      have happlies : Applies toolName toolInput first := of_decide_eq_true hfirst
      have hmem : first ∈ before ++ first :: after :=
        List.mem_append_right _ (List.mem_cons_self ..)
      refine .first (fun earlier hmem' => ?_) (hread hmem).1 ((hread hmem).2.2 happlies) happlies
        fun other hother hother' => ?_
      · have hin := List.mem_append_left (first :: after) hmem'
        exact ⟨(hread hin).1, (hread hin).2.not.2 (hearlier earlier hmem')⟩
      · rcases List.mem_append.1 hother with hother | hother
        · exact absurd hother' (hearlier other hother)
        · rcases List.mem_cons.1 hother with rfl | hother
          · exact Nat.le_refl _
          · exact h before first after rfl hearlier happlies other hother hother'

end

end NexusClaw.Community.SensitiveOps
