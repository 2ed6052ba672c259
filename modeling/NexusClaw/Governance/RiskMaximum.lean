import NexusClaw.Governance.RuleMatching
import NexusClaw.Governance.ToolNameRules

/-!
# Evaluation reports a maximum

`GuardrailEngineService.evaluate` loads the active rules in scope, filters those that match and folds
them with the reducer of `risk-assessor.ts`. `Reports` states the outcome without the fold: a matching
rule above all others, in the order `Below` of levels and then priorities. Whatever order the rules
are in, that is what `evaluate` reports (`evaluate_maximum`), unless matching a rule in scope throws:
it reads fields that have no method `includes`, or compares a value that cannot be converted.
-/

namespace NexusClaw.Governance.RiskMaximum
open RuleMatching

/-! ## Folds that pick -/

section picks
variable {α : Type} {le : α → α → Prop} {pick : α → α → α}

/-- A fold that picks one of two picks one of all. -/
lemma foldl_pick_mem (hpick : ∀ a b, pick a b = a ∨ pick a b = b) (l : List α) (a : α) :
    l.foldl pick a ∈ a :: l := by
  induction l generalizing a with
  | nil => exact List.mem_cons_self ..
  | cons b l ih =>
    have hrest := ih (pick a b)
    rcases List.mem_cons.1 hrest with heq | hmem
    · rw [List.foldl_cons, heq]
      rcases hpick a b with h | h
      · rw [h]
        exact List.mem_cons_self ..
      · rw [h]
        exact List.mem_cons_of_mem _ (List.mem_cons_self ..)
    · exact List.mem_cons_of_mem _ (List.mem_cons_of_mem _ hmem)

/-- A fold that keeps an upper bound of the two it compares ends in an upper bound of all. -/
lemma foldl_pick_le (hrefl : ∀ a, le a a) (htrans : ∀ a b c, le a b → le b c → le a c)
    (hleft : ∀ a b, le a (pick a b)) (hright : ∀ a b, le b (pick a b)) (l : List α) (a : α) :
    ∀ b ∈ a :: l, le b (l.foldl pick a) := by
  induction l generalizing a with
  | nil =>
    intro b hb
    obtain rfl := List.mem_singleton.1 hb
    exact hrefl b
  | cons c l ih =>
    intro b hb
    have hpicked := ih (pick a c) (pick a c) (List.mem_cons_self ..)
    rcases List.mem_cons.1 hb with rfl | hb
    · exact htrans _ _ _ (hleft b c) hpicked
    · rcases List.mem_cons.1 hb with rfl | hb
      · exact htrans _ _ _ (hright a b) hpicked
      · exact ih (pick a c) b (List.mem_cons_of_mem _ hb)

end picks

/-! ## The order of rules -/

/-- The second rule is reported before the first: its level is higher, or it is the same and its
priority number is no larger. -/
def Below (a b : GuardrailRule) : Prop :=
  riskOrder a.riskLevel < riskOrder b.riskLevel ∨
    (riskOrder a.riskLevel = riskOrder b.riskLevel ∧ b.priority ≤ a.priority)

/-- A rule is below itself. -/
lemma Below.refl (a : GuardrailRule) : Below a a :=
  .inr ⟨rfl, Int.le_refl _⟩

/-- The order of the rules is transitive. -/
lemma Below.trans {a b c : GuardrailRule} (h : Below a b) (h' : Below b c) : Below a c := by
  unfold Below at *
  omega

/-- A rule below has no higher level. -/
lemma Below.level {a b : GuardrailRule} (h : Below a b) :
    riskOrder a.riskLevel ≤ riskOrder b.riskLevel := by
  unfold Below at h
  omega

/-- Rules below each other have one level. -/
lemma Below.antisymm {a b : GuardrailRule} (h : Below a b) (h' : Below b a) :
    riskOrder a.riskLevel = riskOrder b.riskLevel ∧ a.priority = b.priority := by
  unfold Below at *
  omega

/-- The higher of two is one of them. -/
lemma higherRisk_pick (a b : GuardrailRule) : higherRisk a b = a ∨ higherRisk a b = b := by
  unfold higherRisk
  dsimp only
  split
  · exact .inr rfl
  · split
    · exact .inr rfl
    · exact .inl rfl

/-- The higher of two is above both. -/
lemma higherRisk_above (a b : GuardrailRule) :
    Below a (higherRisk a b) ∧ Below b (higherRisk a b) := by
  unfold higherRisk Below
  dsimp only
  split
  · omega
  · split <;> omega

/-- The rule that the assessor selects is one of those it is given and is above all of them. -/
lemma assessRisk_top {rules : List GuardrailRule} {top : GuardrailRule}
    (h : assessRisk rules = some top) : top ∈ rules ∧ ∀ rule ∈ rules, Below rule top := by
  cases rules with
  | nil => cases h
  | cons first rest =>
    obtain rfl := Option.some.inj h
    refine ⟨foldl_pick_mem higherRisk_pick rest first, ?_⟩
    exact foldl_pick_le Below.refl (fun _ _ _ => Below.trans)
      (fun a b => (higherRisk_above a b).1) (fun a b => (higherRisk_above a b).2) rest first

/-- Only no rules have no risk. -/
lemma assessRisk_none {rules : List GuardrailRule} (h : assessRisk rules = none) : rules = [] := by
  cases rules with
  | nil => rfl
  | cons first rest => cases h

/-! ## Levels and actions -/

/-- The levels that the entity declares. -/
def levels : List String :=
  ["L0", "L1", "L2", "L3", "L4"]

/-- The action type of a level's rank. -/
def kindOf : Nat → ActionKind
  | 1 => .audit
  | 2 => .confirm
  | 3 => .approve
  | 4 => .block
  | _ => .allow

/-- The action of a rule is that of its level. -/
lemma mapRiskToAction_type (rule : GuardrailRule) :
    (mapRiskToAction rule).type = kindOf (riskOrder rule.riskLevel) := by
  unfold mapRiskToAction riskOrder
  dsimp only
  split
  · next h =>
    rw [h]
    rfl
  · split
    · rfl
    · split
      · rfl
      · split
        · rfl
        · split <;> rfl

/-- Two levels of one order are the same. -/
lemma level_eq {a b : String} (ha : a ∈ levels) (hb : b ∈ levels)
    (h : riskOrder a = riskOrder b) : a = b := by
  revert h
  simp only [levels, List.mem_cons, List.not_mem_nil, or_false] at ha hb
  rcases ha with rfl | rfl | rfl | rfl | rfl <;>
    rcases hb with rfl | rfl | rfl | rfl | rfl <;> decide

/-! ## The rules in scope -/

/-- An active rule of the workspace that the filter lets through. -/
structure InScope (cfg : Config) (workspaceId : Id) (ruleIds : List String)
    (rule : GuardrailRule) : Prop where
  listed : rule ∈ cfg.rules
  workspace : rule.workspaceId = workspaceId
  active : rule.isActive = true
  bound : ruleIds = [] ∨ rule.id ∈ ruleIds

/-- Matching the rule throws. -/
def Unread (cfg : Config) (op : ToolCallOperation) (rule : GuardrailRule) : Prop :=
  ∃ cond, rule.conditions = some cond ∧ Unreadable cfg cond op

section scope
variable {cfg : Config} {workspaceId : Id} {ruleIds : List String} {op : ToolCallOperation}
  {rule : GuardrailRule}

/-- The rules in scope. -/
lemma mem_scope : rule ∈ loadRules cfg workspaceId ruleIds ↔
    InScope cfg workspaceId ruleIds rule := by
  have hall : rule ∈ loadRules cfg workspaceId ruleIds ↔
      (rule ∈ cfg.rules ∧ rule.workspaceId = workspaceId ∧ rule.isActive = true) ∧
        (ruleIds = [] ∨ rule.id ∈ ruleIds) := by
    unfold loadRules
    rw [List.mem_insertionSort]
    cases ruleIds with
    | nil => simp
    | cons id ids =>
      simp only [List.isEmpty_cons, Bool.false_eq_true, if_false, List.mem_filter,
        Bool.and_eq_true, decide_eq_true_eq, List.contains_iff_mem, reduceCtorEq, false_or]
  rw [hall]
  exact ⟨fun h => ⟨h.1.1, h.1.2.1, h.1.2.2, h.2⟩,
    fun h => ⟨⟨h.listed, h.workspace, h.active⟩, h.bound⟩⟩

/-- A rule is matched unless it cannot be read. -/
lemma matchRule_returns : (∃ b, matchRule cfg op rule = .ok b) ↔ ¬ Unread cfg op rule := by
  constructor
  · rintro ⟨b, hb⟩ ⟨cond, hcond, hunread⟩
    obtain ⟨e, he⟩ := (matchRule_error hcond).2 hunread
    cases hb.symm.trans he
  · intro h
    cases hb : matchRule cfg op rule with
    | ok b => exact ⟨b, rfl⟩
    | error e =>
      refine absurd ?_ h
      cases hcond : rule.conditions with
      | none =>
        unfold matchRule at hb
        rw [hcond] at hb
        cases hb
      | some cond => exact ⟨cond, hcond, (matchRule_error hcond).1 ⟨e, hb⟩⟩

/-- Which other rules there are does not matter to the matching of one. -/
lemma unread_rules {rules : List GuardrailRule} :
    Unread { cfg with rules } op rule ↔ Unread cfg op rule := by
  have hsame : matchRule { cfg with rules } op rule = matchRule cfg op rule := rfl
  rw [← not_iff_not, ← matchRule_returns, ← matchRule_returns, hsame]

end scope

section filters
variable {α ε : Type} {p : α → Except ε Bool}

/-- A filter that returns has tested every element. -/
lemma filterAuxM_each {l acc out : List α} (h : l.filterAuxM p acc = .ok out) :
    ∀ a ∈ l, ∃ b, p a = .ok b := by
  induction l generalizing acc with
  | nil => exact fun a ha => absurd ha List.not_mem_nil
  | cons b l ih =>
    simp only [List.filterAuxM] at h
    cases hb : p b with
    | error e =>
      rw [hb] at h
      cases h
    | ok keep =>
      rw [hb] at h
      intro a ha
      rcases List.mem_cons.1 ha with rfl | ha
      · exact ⟨keep, hb⟩
      · exact ih h a ha

/-- A filter that does not throw has tested every element. -/
lemma filterM_each {l out : List α} (h : l.filterM p = .ok out) : ∀ a ∈ l, ∃ b, p a = .ok b := by
  unfold List.filterM at h
  cases haux : l.filterAuxM p [] with
  | error e =>
    rw [haux] at h
    cases h
  | ok kept => exact filterAuxM_each haux

end filters

/-! ## What an evaluation reports -/

/-- The evaluation when nothing matches. -/
def unmatched : GuardrailEvaluation where
  matched := false
  riskLevel := "L0"
  action := { type := .allow, blocked := false, escalated := false }

/-- The evaluation that names a rule. -/
def named (rule : GuardrailRule) : GuardrailEvaluation where
  matched := true
  ruleId := some rule.id
  ruleName := some rule.name
  riskLevel := rule.riskLevel
  action := mapRiskToAction rule

/-- An outcome, with the priority of the rule it names: that of a rule in scope that matches and has
the highest level of those, and among them the lowest priority; or none, where no rule in scope
matches. -/
inductive Reports (cfg : Config) (workspaceId : Id) (ruleIds : List String)
    (op : ToolCallOperation) : GuardrailEvaluation → Option Int → Prop where
  | unmatched (hnone : ∀ rule, InScope cfg workspaceId ruleIds rule →
      matchRule cfg op rule = .ok false) : Reports cfg workspaceId ruleIds op unmatched none
  | named {rule : GuardrailRule} (hscope : InScope cfg workspaceId ruleIds rule)
      (hmatch : matchRule cfg op rule = .ok true)
      (htop : ∀ other, InScope cfg workspaceId ruleIds other →
        matchRule cfg op other = .ok true → Below other rule) :
      Reports cfg workspaceId ruleIds op (named rule) (some rule.priority)

/-- `evaluate` returns an evaluation, and it is the one to report. -/
def Evaluates (cfg : Config) (workspaceId : Id) (toolName : String) (toolInput : Json)
    (ruleIds : List String) (r : GuardrailEvaluation) (priority : Option Int) : Prop :=
  evaluate cfg workspaceId toolName toolInput ruleIds = .ok r ∧
    Reports cfg workspaceId ruleIds (extractOperation toolName toolInput) r priority

section evaluations
variable {cfg : Config} {workspaceId : Id} {toolName : String} {toolInput : Json}
  {ruleIds : List String} {op : ToolCallOperation}

/-- An evaluation that returns has matched every rule. -/
lemma evaluate_ok {matched : List GuardrailRule}
    (h : matchRules cfg (extractOperation toolName toolInput)
      (loadRules cfg workspaceId ruleIds) = .ok matched) :
    evaluate cfg workspaceId toolName toolInput ruleIds =
      .ok (((assessRisk matched).map named).getD unmatched) := by
  unfold evaluate
  dsimp only
  rw [h]
  cases htop : assessRisk matched with
  | none =>
    simp only [bind, Except.bind, htop]
    rfl
  | some top =>
    simp only [bind, Except.bind, htop]
    rfl

/-- An evaluation reports exactly when no rule in scope is unread. -/
lemma evaluates_iff : (∃ r p, Evaluates cfg workspaceId toolName toolInput ruleIds r p) ↔
    ∀ rule, InScope cfg workspaceId ruleIds rule →
      ¬ Unread cfg (extractOperation toolName toolInput) rule := by
  constructor
  · rintro ⟨r, p, h, _⟩ rule hrule
    unfold evaluate at h
    dsimp only at h
    -- a rule that cannot be read fails the whole evaluation
    cases hmatched : matchRules cfg (extractOperation toolName toolInput)
        (loadRules cfg workspaceId ruleIds) with
    | error e =>
      rw [hmatched] at h
      cases h
    | ok matched =>
      exact matchRule_returns.1 (filterM_each hmatched rule (mem_scope.2 hrule))
  · intro h
    obtain ⟨matched, hmatched⟩ := filterM_returns
      (l := loadRules cfg workspaceId ruleIds)
      (p := matchRule cfg (extractOperation toolName toolInput)) fun rule hrule =>
        matchRule_returns.2 (h rule (mem_scope.1 hrule))
    have hmem (rule : GuardrailRule) : rule ∈ matched ↔
        InScope cfg workspaceId ruleIds rule ∧
          matchRule cfg (extractOperation toolName toolInput) rule = .ok true := by
      rw [mem_filterM hmatched, mem_scope]
    have hresult := evaluate_ok hmatched
    cases htop : assessRisk matched with
    | none =>
      rw [htop] at hresult
      refine ⟨_, none, hresult, .unmatched fun rule hrule => ?_⟩
      obtain ⟨b, hb⟩ := matchRule_returns.2 (h rule hrule)
      cases b with
      | false => exact hb
      | true =>
        have hin := (hmem rule).2 ⟨hrule, hb⟩
        rw [assessRisk_none htop] at hin
        cases hin
    | some top =>
      rw [htop] at hresult
      obtain ⟨hin, habove⟩ := assessRisk_top htop
      obtain ⟨hscope, hmatch⟩ := (hmem top).1 hin
      exact ⟨_, _, hresult, .named hscope hmatch fun other hother hyes =>
        habove other ((hmem other).2 ⟨hother, hyes⟩)⟩

/-- Fewer rules in scope, all of them in the wider scope too, are reported no higher. -/
lemma Reports.level_le {cfg' : Config} {ids ids' : List String}
    {r r' : GuardrailEvaluation} {p p' : Option Int}
    (hscope : ∀ rule, InScope cfg workspaceId ids rule → InScope cfg' workspaceId ids' rule)
    (hmatch : ∀ rule, matchRule cfg' op rule = matchRule cfg op rule)
    (h : Reports cfg workspaceId ids op r p) (h' : Reports cfg' workspaceId ids' op r' p') :
    riskOrder r.riskLevel ≤ riskOrder r'.riskLevel := by
  cases h with
  | unmatched => exact Nat.zero_le _
  | @named rule hrule hyes =>
    have hyes' := (hmatch rule).trans hyes
    cases h' with
    | unmatched hnone => cases hyes'.symm.trans (hnone rule (hscope rule hrule))
    | named _ _ htop => exact (htop rule (hscope rule hrule) hyes').level

/-- The same rules in another order are reported alike. -/
lemma Reports.alike {cfg' : Config} {r r' : GuardrailEvaluation} {p p' : Option Int}
    (hscope : ∀ rule, InScope cfg' workspaceId ruleIds rule ↔ InScope cfg workspaceId ruleIds rule)
    (hmatch : ∀ rule, matchRule cfg' op rule = matchRule cfg op rule)
    (h : Reports cfg workspaceId ruleIds op r p)
    (h' : Reports cfg' workspaceId ruleIds op r' p') :
    riskOrder r'.riskLevel = riskOrder r.riskLevel ∧ p' = p ∧ r'.action.type = r.action.type ∧
      ((∀ rule ∈ cfg.rules, rule.riskLevel ∈ levels) → r'.riskLevel = r.riskLevel) := by
  cases h with
  | unmatched hnone =>
    cases h' with
    | unmatched => exact ⟨rfl, rfl, rfl, fun _ => rfl⟩
    | @named rule hrule hyes =>
      cases ((hmatch rule).symm.trans hyes).symm.trans (hnone rule ((hscope rule).1 hrule))
  | @named rule hrule hyes htop =>
    cases h' with
    | unmatched hnone =>
      cases ((hmatch rule).trans hyes).symm.trans (hnone rule ((hscope rule).2 hrule))
    | @named rule' hrule' hyes' htop' =>
      have hbelow := htop rule' ((hscope rule').1 hrule') ((hmatch rule').symm.trans hyes')
      have habove := htop' rule ((hscope rule).2 hrule) ((hmatch rule).trans hyes)
      obtain ⟨hlevel, hpriority⟩ := hbelow.antisymm habove
      refine ⟨hlevel, congrArg some hpriority, ?_, fun hlevels => ?_⟩
      · show (mapRiskToAction rule').type = (mapRiskToAction rule).type
        rw [mapRiskToAction_type, mapRiskToAction_type, hlevel]
      · exact level_eq (hlevels rule' ((hscope rule').1 hrule').listed)
          (hlevels rule hrule.listed) hlevel

/-- The scope does not depend on the order. -/
lemma InScope.permuted {rules : List GuardrailRule} (hperm : rules.Perm cfg.rules)
    (rule : GuardrailRule) :
    InScope { cfg with rules } workspaceId ruleIds rule ↔
      InScope cfg workspaceId ruleIds rule :=
  ⟨fun h => ⟨hperm.mem_iff.1 h.listed, h.workspace, h.active, h.bound⟩,
    fun h => ⟨hperm.mem_iff.2 h.listed, h.workspace, h.active, h.bound⟩⟩

end evaluations

/-! ## The maximum, whatever the order -/

/-- What a call of `evaluate` reports is the maximum, the order of the rules does not matter, a
further active rule does not lower it and a filter does not raise it. -/
structure EvaluatesMaximum (cfg : Config) (workspaceId : Id) (toolName : String) (toolInput : Json)
    (ruleIds : List String) : Prop where
  reports : ∃ r p, Evaluates cfg workspaceId toolName toolInput ruleIds r p
  permuted : ∀ r p, Evaluates cfg workspaceId toolName toolInput ruleIds r p →
    ∀ rules, rules.Perm cfg.rules → ∃ r' p',
      Evaluates { cfg with rules } workspaceId toolName toolInput ruleIds r' p' ∧
        riskOrder r'.riskLevel = riskOrder r.riskLevel ∧ p' = p ∧
        r'.action.type = r.action.type ∧
        ((∀ rule ∈ cfg.rules, rule.riskLevel ∈ levels) → r'.riskLevel = r.riskLevel)
  added : ∀ r p, Evaluates cfg workspaceId toolName toolInput ruleIds r p →
    ∀ rule rules, rule.isActive = true → rules.Perm (rule :: cfg.rules) →
      (InScope { cfg with rules } workspaceId ruleIds rule →
        ¬ Unread cfg (extractOperation toolName toolInput) rule) →
      ∃ r' p', Evaluates { cfg with rules } workspaceId toolName toolInput ruleIds r' p' ∧
        riskOrder r.riskLevel ≤ riskOrder r'.riskLevel
  restricted : ∀ r p, Evaluates cfg workspaceId toolName toolInput ruleIds r p →
    ∀ ids, ids ≠ [] → (ruleIds = [] ∨ ids ⊆ ruleIds) →
      ∃ r' p', Evaluates cfg workspaceId toolName toolInput ids r' p' ∧
        riskOrder r'.riskLevel ≤ riskOrder r.riskLevel

/-- For every list of rules, workspace, call and filter: `evaluate` reports the maximum if and only
if no active rule in scope looks for fields in a value that has none to look in, or compares a value
that JavaScript cannot convert to a primitive one. -/
theorem evaluate_maximum (cfg : Config) (workspaceId : Id) (toolName : String) (toolInput : Json)
    (ruleIds : List String) :
    EvaluatesMaximum cfg workspaceId toolName toolInput ruleIds ↔
      ∀ rule, InScope cfg workspaceId ruleIds rule →
        ¬ Unread cfg (extractOperation toolName toolInput) rule := by
  refine ⟨fun h => evaluates_iff.1 h.reports, fun hread => ⟨evaluates_iff.2 hread, ?_, ?_, ?_⟩⟩
  · intro r p h rules hperm
    have hreturns : ∃ r' p',
        Evaluates { cfg with rules } workspaceId toolName toolInput ruleIds r' p' :=
      evaluates_iff.2 fun rule hrule hunread =>
        hread rule ((InScope.permuted hperm rule).1 hrule) (unread_rules.1 hunread)
    obtain ⟨r', p', h'⟩ := hreturns
    exact ⟨r', p', h', h.2.alike (InScope.permuted hperm) (fun _ => rfl) h'.2⟩
  · intro r p h rule rules _ hperm hnew
    have hreturns : ∃ r' p',
        Evaluates { cfg with rules } workspaceId toolName toolInput ruleIds r' p' := by
      refine evaluates_iff.2 fun other hother hunread => ?_
      -- the rules of the two orders are the same
      rcases List.mem_cons.1 (hperm.mem_iff.1 hother.listed) with rfl | hold
      · exact hnew hother (unread_rules.1 hunread)
      · exact hread other ⟨hold, hother.workspace, hother.active, hother.bound⟩
          (unread_rules.1 hunread)
    have hscope (other : GuardrailRule) (hother : InScope cfg workspaceId ruleIds other) :
        InScope { cfg with rules } workspaceId ruleIds other :=
      ⟨hperm.mem_iff.2 (List.mem_cons_of_mem _ hother.listed), hother.workspace, hother.active,
        hother.bound⟩
    obtain ⟨r', p', h'⟩ := hreturns
    exact ⟨r', p', h', h.2.level_le hscope (fun _ => rfl) h'.2⟩
  · intro r p h ids hids hfilter
    have hscope (rule : GuardrailRule) (hrule : InScope cfg workspaceId ids rule) :
        InScope cfg workspaceId ruleIds rule := by
      refine ⟨hrule.listed, hrule.workspace, hrule.active, ?_⟩
      rcases hfilter with hall | hsub
      · exact .inl hall
      · exact .inr (hsub (hrule.bound.resolve_left hids))
    obtain ⟨r', p', h'⟩ := evaluates_iff.2 fun rule hrule => hread rule (hscope rule hrule)
    exact ⟨r', p', h', h'.2.level_le hscope (fun _ => rfl) h.2⟩

/-- A rule on the field `email`. -/
def emailRule : GuardrailRule :=
  { anyRule with conditions := some { fieldApiNames := some ["email"] } }

/-- A number given for the field names is called as a list. -/
theorem numbered_fields_throw : ¬ EvaluatesMaximum { bareConfig with rules := [emailRule] } 1
    "record.update" (.obj [("fieldApiNames", .num 5)]) [] := by
  intro h
  obtain ⟨r, p, hr, _⟩ := h.reports
  have hthrows : evaluate { bareConfig with rules := [emailRule] } 1 "record.update"
      (.obj [("fieldApiNames", .num 5)]) [] =
        .error "op.fieldApiNames.includes is not a function" := by
    decide +kernel
  cases hthrows.symm.trans hr

end NexusClaw.Governance.RiskMaximum
