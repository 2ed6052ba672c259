import NexusClaw.Concurrent.ReadThrough
import NexusClaw.JsonText
import NexusClaw.AgentRuntime.Release
import NexusClaw.Governance.PausedCall

/-!
# The cache of the guardrail rules

`guardrail-engine.service.ts` of the backend and `rule-provider-typeorm.ts` of the guardrail package:
the active rules of a workspace, or those that are bound to an agent, are read through Redis. Rules
are edited, time passes, Redis forgets entries and every statement may fail while any number of
evaluations run. An evaluation judges a call as the engine without a cache would have judged it on the
rules of an earlier moment, at most the lifetime of an entry before it asked Redis, apart from the
time that a lookup itself takes (`evaluation_fresh`).
-/

namespace NexusClaw.Governance
open Concurrent

/-! ## Rows as JSON -/

/-- The members of an object that are there. -/
def present (members : List (String × Option Json)) : List (String × Json) :=
  members.filterMap fun m => m.2.map fun v => (m.1, v)

def conditionMembers (cond : RuleConditions) : List (String × Option Json) :=
  [("objectApiName", cond.objectApiName.map .str), ("operation", cond.operation.map .str),
    ("fieldApiNames", cond.fieldApiNames.map fun names => .arr (names.map .str)),
    ("amountThreshold", cond.amountThreshold.map .num), ("batchSize", cond.batchSize.map .num),
    ("comment", if cond.otherKeys then some .null else none)]

def conditionsJson (cond : RuleConditions) : Json :=
  .obj (present (conditionMembers cond))

def actionMembers (action : RuleAction) : List (String × Option Json) :=
  [("approverRule", action.approverRule.map .str),
    ("timeoutMinutes", action.timeoutMinutes.map fun minutes : Nat => .num minutes)]

def actionJson (action : RuleAction) : Json :=
  .obj (present (actionMembers action))

/-- How a row key is spelt, and read. -/
structure Spelling where
  text : Id → String
  idOf : String → Option Id
  idOf_text : ∀ id, idOf (text id) = some id
  plain : ∀ id, ':' ∉ (text id).toList

def ruleMembers (spelling : Spelling) (rule : GuardrailRule) : List (String × Option Json) :=
  [("id", some (.str rule.id)), ("workspaceId", some (.str (spelling.text rule.workspaceId))),
    ("name", some (.str rule.name)), ("isActive", some (.bool rule.isActive)),
    ("priority", some (.num rule.priority)),
    ("conditions", some ((rule.conditions.map conditionsJson).getD .null)),
    ("riskLevel", some (.str rule.riskLevel)),
    ("action", some ((rule.action.map actionJson).getD .null))]

def ruleJson (spelling : Spelling) (rule : GuardrailRule) : Json :=
  .obj (present (ruleMembers spelling rule))

/-- `JSON.stringify(rules)` -/
def rulesText (fmt : Json.NumberFormat) (spelling : Spelling) (rules : List GuardrailRule) :
    List Char :=
  Json.text fmt (.arr (rules.map (ruleJson spelling)))

/-- A number, where the value is one. -/
def numberOf : Json → Option Rat
  | .num n => some n
  | _ => none

def textsOf : Json → Option (List String)
  | .arr vs => vs.mapM Json.asString
  | _ => none

/-- The conditions that the matcher reads. -/
def conditionKeys : List String :=
  ["objectApiName", "operation", "fieldApiNames", "amountThreshold", "batchSize"]

/-- The `conditions` column as the matcher reads it. -/
def readConditions : Json → Option RuleConditions
  | .obj fields =>
    some
      { objectApiName := (fields.lookup "objectApiName").bind Json.asString
        operation := (fields.lookup "operation").bind Json.asString
        fieldApiNames := (fields.lookup "fieldApiNames").bind textsOf
        amountThreshold := (fields.lookup "amountThreshold").bind numberOf
        batchSize := (fields.lookup "batchSize").bind numberOf
        otherKeys := fields.any fun f => !conditionKeys.contains f.1 }
  | _ => none

def readAction : Json → Option RuleAction
  | .obj fields =>
    some
      { approverRule := (fields.lookup "approverRule").bind Json.asString
        timeoutMinutes := ((fields.lookup "timeoutMinutes").bind numberOf).map fun n => n.num.toNat }
  | _ => none

def boolOf : Json → Option Bool
  | .bool b => some b
  | _ => none

/-- A cached rule as the engine reads it. -/
def readRule (spelling : Spelling) (v : Json) : Option GuardrailRule := do
  let id ← (v.get? "id").bind Json.asString
  let workspaceId ← ((v.get? "workspaceId").bind Json.asString).bind spelling.idOf
  let name ← (v.get? "name").bind Json.asString
  let isActive ← (v.get? "isActive").bind boolOf
  let priority ← (v.get? "priority").bind numberOf
  let riskLevel ← (v.get? "riskLevel").bind Json.asString
  some
    { id, workspaceId, name, isActive
      priority := priority.num
      conditions := (v.get? "conditions").bind readConditions
      riskLevel
      action := (v.get? "action").bind readAction }

/-- `JSON.parse(cached)`; an empty text is not read. -/
def readRules (fmt : Json.NumberFormat) (spelling : Spelling) (text : List Char) :
    Option (List GuardrailRule) :=
  match Json.parse fmt text with
  | some (.arr vs) => vs.mapM (readRule spelling)
  | _ => none

/-- The numbers of a rule are numbers of the language. -/
structure GuardrailRule.Finite (fmt : Json.NumberFormat) (rule : GuardrailRule) : Prop where
  priority : fmt.finite rule.priority
  amountThreshold : ∀ cond, rule.conditions = some cond → ∀ n, cond.amountThreshold = some n →
    fmt.finite n
  batchSize : ∀ cond, rule.conditions = some cond → ∀ n, cond.batchSize = some n → fmt.finite n
  timeoutMinutes : ∀ action, rule.action = some action → ∀ n, action.timeoutMinutes = some n →
    fmt.finite (n : Rat)

section codec
variable {members : List (String × Option Json)} {name : String} {v : Option Json}

/-- The present members are those with a value. -/
lemma mem_present {f : String × Json} : f ∈ present members ↔ (f.1, some f.2) ∈ members := by
  unfold present
  rw [List.mem_filterMap]
  constructor
  · rintro ⟨m, hm, hf⟩
    obtain ⟨value, hvalue, rfl⟩ := Option.map_eq_some_iff.1 hf
    rw [← hvalue]
    exact hm
  · intro hf
    exact ⟨_, hf, rfl⟩

/-- Their keys are among the keys. -/
lemma keys_present : ((present members).map Prod.fst).Sublist (members.map Prod.fst) := by
  induction members with
  | nil => exact List.Sublist.slnil
  | cons m ms ih =>
    obtain ⟨name, value⟩ := m
    cases value with
    | none => exact ih.cons _
    | some value => exact ih.cons_cons _

/-- A present member is found. -/
lemma lookup_present (hdistinct : (members.map Prod.fst).Nodup) (hmem : (name, v) ∈ members) :
    (present members).lookup name = v := by
  induction members with
  | nil => cases hmem
  | cons m ms ih =>
    obtain ⟨hout, hrest⟩ := List.nodup_cons.1 hdistinct
    obtain ⟨key, value⟩ := m
    rcases List.mem_cons.1 hmem with hhead | htail
    · cases hhead
      cases v with
      | some value =>
        show List.lookup name ((name, value) :: present ms) = _
        rw [List.lookup_cons, beq_self_eq_true]
      | none =>
        show List.lookup name (present ms) = none
        rw [List.lookup_eq_none_iff]
        intro f hf
        have hkey : f.1 ∈ ms.map Prod.fst := List.mem_map.2 ⟨_, mem_present.1 hf, rfl⟩
        exact bne_iff_ne.2 fun heq => hout (heq ▸ hkey)
    · have hne : name ≠ key := by
        rintro rfl
        exact hout (List.mem_map.2 ⟨_, htail, rfl⟩)
      cases value with
      | none => exact ih hrest htail
      | some value =>
        show List.lookup name ((key, value) :: present ms) = _
        rw [List.lookup_cons, beq_eq_false_iff_ne.2 hne]
        exact ih hrest htail

/-! ### The round trip -/

/-- A number is read back. -/
lemma numberOf_map (n : Option Rat) : (n.map Json.num).bind numberOf = n := by
  cases n with
  | none => rfl
  | some n => rfl

/-- A text is read back. -/
lemma asString_map (text : Option String) : (text.map Json.str).bind Json.asString = text := by
  cases text with
  | none => rfl
  | some text => rfl

/-- A list of texts is read back. -/
lemma textsOf_map (names : Option (List String)) :
    (names.map fun names => Json.arr (names.map .str)).bind textsOf = names := by
  cases names with
  | none => rfl
  | some names =>
    show (names.map Json.str).mapM Json.asString = some names
    rw [List.mapM_map]
    induction names with
    | nil => rfl
    | cons name names ih => rw [List.mapM_cons, ih]; rfl

/-- Conditions are read back. -/
lemma readConditions_members (cond : RuleConditions) :
    readConditions (conditionsJson cond) = some cond := by
  have hdistinct : ((conditionMembers cond).map Prod.fst).Nodup := by
    show ["objectApiName", "operation", "fieldApiNames", "amountThreshold", "batchSize",
      "comment"].Nodup
    decide
  have hother : ((present (conditionMembers cond)).any fun f => !conditionKeys.contains f.1) =
      cond.otherKeys := by
    rw [Bool.eq_iff_iff, List.any_eq_true]
    -- a key that is none of the five is the one for other keys
    constructor
    · rintro ⟨f, hf, hname⟩
      have hmem := mem_present.1 hf
      simp only [conditionMembers, List.mem_cons, List.not_mem_nil, or_false, Prod.mk.injEq] at hmem
      rcases hmem with h | h | h | h | h | ⟨-, h⟩
      all_goals try (rw [h.1] at hname; exact absurd hname (by decide))
      cases hkeys : cond.otherKeys with
      | true => rfl
      | false =>
        rw [hkeys] at h
        cases h
    · intro hkeys
      refine ⟨("comment", .null), mem_present.2 ?_, by decide⟩
      simp [conditionMembers, hkeys]
  simp only [conditionsJson, readConditions]
  rw [hother,
    lookup_present hdistinct (v := cond.objectApiName.map .str) (by simp [conditionMembers]),
    lookup_present hdistinct (v := cond.operation.map .str) (by simp [conditionMembers]),
    lookup_present hdistinct (v := cond.fieldApiNames.map fun names => .arr (names.map .str))
      (by simp [conditionMembers]),
    lookup_present hdistinct (v := cond.amountThreshold.map .num) (by simp [conditionMembers]),
    lookup_present hdistinct (v := cond.batchSize.map .num) (by simp [conditionMembers]),
    asString_map, asString_map, textsOf_map, numberOf_map, numberOf_map]

/-- An action is read back. -/
lemma readAction_members (action : RuleAction) :
    readAction (actionJson action) = some action := by
  have hdistinct : ((actionMembers action).map Prod.fst).Nodup := by
    show ["approverRule", "timeoutMinutes"].Nodup
    decide
  have hminutes :
      ((action.timeoutMinutes.map fun minutes : Nat => Json.num minutes).bind numberOf).map
        (fun n => n.num.toNat) = action.timeoutMinutes := by
    cases action.timeoutMinutes with
    | none => rfl
    | some minutes => rfl
  simp only [actionJson, readAction]
  rw [lookup_present hdistinct (v := action.approverRule.map .str) (by simp [actionMembers]),
    lookup_present hdistinct (v := action.timeoutMinutes.map fun minutes : Nat => .num minutes)
      (by simp [actionMembers]), asString_map, hminutes]

/-- A column that may be null. -/
lemma bind_orNull {β : Type} (encode : β → Json) (read : Json → Option β)
    (hnull : read .null = none) (hread : ∀ b, read (encode b) = some b) (value : Option β) :
    read ((value.map encode).getD .null) = value := by
  cases value with
  | none => exact hnull
  | some b => exact hread b

/-- No key of a rule comes twice. -/
lemma keys_ruleMembers (spelling : Spelling) (rule : GuardrailRule) :
    ((ruleMembers spelling rule).map Prod.fst).Nodup := by
  show ["id", "workspaceId", "name", "isActive", "priority", "conditions", "riskLevel",
    "action"].Nodup
  decide

/-- A rule is read back. -/
lemma readRule_ruleJson (spelling : Spelling) (rule : GuardrailRule) :
    readRule spelling (ruleJson spelling rule) = some rule := by
  have hget (name : String) {v : Json} (hmem : (name, some v) ∈ ruleMembers spelling rule) :
      (ruleJson spelling rule).get? name = some v :=
    lookup_present (keys_ruleMembers spelling rule) hmem
  have hconditions := bind_orNull conditionsJson readConditions rfl readConditions_members
    rule.conditions
  have haction := bind_orNull actionJson readAction rfl readAction_members rule.action
  unfold readRule
  rw [hget "id" (.head _), hget "workspaceId" (.tail _ (.head _)),
    hget "name" (.tail _ (.tail _ (.head _))),
    hget "isActive" (.tail _ (.tail _ (.tail _ (.head _)))),
    hget "priority" (.tail _ (.tail _ (.tail _ (.tail _ (.head _))))),
    hget "conditions" (.tail _ (.tail _ (.tail _ (.tail _ (.tail _ (.head _)))))),
    hget "riskLevel" (.tail _ (.tail _ (.tail _ (.tail _ (.tail _ (.tail _ (.head _))))))),
    hget "action"
      (.tail _ (.tail _ (.tail _ (.tail _ (.tail _ (.tail _ (.tail _ (.head _))))))))]
  simp only [Option.bind_some, hconditions, haction]
  show (spelling.idOf (spelling.text rule.workspaceId)).bind _ = _
  rw [spelling.idOf_text]
  rfl

/-! ### The texts -/

variable {fmt : Json.NumberFormat}

/-- A list of well-formed values. -/
lemma wellFormed_arr {vs : List Json} (h : ∀ v ∈ vs, v.WellFormed fmt) :
    (Json.arr vs).WellFormed fmt := by
  show Json.WellFormedAll fmt vs
  induction vs with
  | nil => trivial
  | cons v vs ih => exact ⟨h v (.head _), ih fun v hv => h v (.tail _ hv)⟩

/-- Members with well-formed values. -/
lemma wellFormed_fields {fields : List (String × Json)} (h : ∀ f ∈ fields, f.2.WellFormed fmt) :
    Json.WellFormedFields fmt fields := by
  induction fields with
  | nil => trivial
  | cons f fs ih =>
    obtain ⟨name, v⟩ := f
    exact ⟨h (name, v) (.head _), ih fun f hf => h f (.tail _ hf)⟩

/-- An object of present members. -/
lemma wellFormed_present (hdistinct : (members.map Prod.fst).Nodup)
    (h : ∀ name v, (name, some v) ∈ members → v.WellFormed fmt) :
    (Json.obj (present members)).WellFormed fmt :=
  ⟨hdistinct.sublist keys_present, wellFormed_fields fun f hf => h f.1 f.2 (mem_present.1 hf)⟩

/-- A value that may be null. -/
lemma wellFormed_orNull {β : Type} {encode : β → Json} {value : Option β}
    (h : ∀ b, value = some b → (encode b).WellFormed fmt) :
    ((value.map encode).getD .null).WellFormed fmt := by
  cases value with
  | none => trivial
  | some b => exact h b rfl

/-- The members of a column that may be missing. -/
lemma wellFormed_map {β : Type} {encode : β → Json} {value : Option β} {v : Json}
    (hv : some v = value.map encode) (h : ∀ b, value = some b → (encode b).WellFormed fmt) :
    v.WellFormed fmt := by
  obtain ⟨b, hb, rfl⟩ := Option.map_eq_some_iff.1 hv.symm
  exact h b hb

/-- Conditions with finite numbers are well-formed. -/
lemma wellFormed_conditions (cond : RuleConditions)
    (hamount : ∀ n, cond.amountThreshold = some n → fmt.finite n)
    (hbatch : ∀ n, cond.batchSize = some n → fmt.finite n) :
    (conditionsJson cond).WellFormed fmt := by
  apply wellFormed_present
  · show ["objectApiName", "operation", "fieldApiNames", "amountThreshold", "batchSize",
      "comment"].Nodup
    decide
  · intro name v hmem
    simp only [conditionMembers, List.mem_cons, List.not_mem_nil, or_false, Prod.mk.injEq] at hmem
    rcases hmem with ⟨-, h⟩ | ⟨-, h⟩ | ⟨-, h⟩ | ⟨-, h⟩ | ⟨-, h⟩ | ⟨-, h⟩
    · exact wellFormed_map h fun _ _ => trivial
    · exact wellFormed_map h fun _ _ => trivial
    · refine wellFormed_map h fun names _ => wellFormed_arr fun v hv => ?_
      obtain ⟨name, -, rfl⟩ := List.mem_map.1 hv
      trivial
    · exact wellFormed_map h hamount
    · exact wellFormed_map h hbatch
    · split at h
      · cases h
        trivial
      · cases h

/-- So is an action. -/
lemma wellFormed_action (action : RuleAction)
    (hminutes : ∀ n : Nat, action.timeoutMinutes = some n → fmt.finite n) :
    (actionJson action).WellFormed fmt := by
  apply wellFormed_present
  · show ["approverRule", "timeoutMinutes"].Nodup
    decide
  · intro name v hmem
    simp only [actionMembers, List.mem_cons, List.not_mem_nil, or_false, Prod.mk.injEq] at hmem
    rcases hmem with ⟨-, h⟩ | ⟨-, h⟩
    · exact wellFormed_map h fun _ _ => trivial
    · exact wellFormed_map h hminutes

/-- So is a rule. -/
lemma wellFormed_rule (spelling : Spelling) {rule : GuardrailRule} (h : rule.Finite fmt) :
    (ruleJson spelling rule).WellFormed fmt := by
  apply wellFormed_present (keys_ruleMembers spelling rule)
  intro name v hmem
  simp only [ruleMembers, List.mem_cons, List.not_mem_nil, or_false, Prod.mk.injEq,
    Option.some.injEq] at hmem
  rcases hmem with ⟨-, rfl⟩ | ⟨-, rfl⟩ | ⟨-, rfl⟩ | ⟨-, rfl⟩ | ⟨-, rfl⟩ | ⟨-, rfl⟩ | ⟨-, rfl⟩ | ⟨-, rfl⟩
  · trivial
  · trivial
  · trivial
  · trivial
  · exact h.priority
  · exact wellFormed_orNull fun cond hcond =>
      wellFormed_conditions cond (h.amountThreshold cond hcond) (h.batchSize cond hcond)
  · trivial
  · exact wellFormed_orNull fun action haction =>
      wellFormed_action action (h.timeoutMinutes action haction)

/-- The rules are read back as they were stored. -/
lemma readRules_rulesText (spelling : Spelling) {rules : List GuardrailRule}
    (h : ∀ rule ∈ rules, rule.Finite fmt) :
    readRules fmt spelling (rulesText fmt spelling rules) = some rules := by
  have hwell : (Json.arr (rules.map (ruleJson spelling))).WellFormed fmt := by
    apply wellFormed_arr
    intro v hv
    obtain ⟨rule, hrule, rfl⟩ := List.mem_map.1 hv
    exact wellFormed_rule spelling (h rule hrule)
  unfold readRules rulesText
  rw [Json.parse_text hwell]
  show (rules.map (ruleJson spelling)).mapM (readRule spelling) = some rules
  rw [List.mapM_map]
  clear hwell h
  induction rules with
  | nil => rfl
  | cons rule rules ih =>
    rw [List.mapM_cons, Function.comp_apply, readRule_ruleJson, ih]
    rfl

end codec

/-! ## Engines -/

/-- Whose rules are loaded; without ids it is the whole workspace. -/
structure RuleScope where
  workspaceId : Id
  ruleIds : List String

/-- The table `guardrail_rules`. -/
structure RuleTable (fmt : Json.NumberFormat) where
  rules : List GuardrailRule
  finite : ∀ rule ∈ rules, rule.Finite fmt

/-- `ruleRepo.find({ where, order: { priority: 'ASC' } })` -/
def findRules (rules : List GuardrailRule) (scope : RuleScope) : List GuardrailRule :=
  let candidates := rules.filter fun rule => rule.workspaceId = scope.workspaceId && rule.isActive
  let candidates :=
    if scope.ruleIds.isEmpty then candidates
    else candidates.filter fun rule => scope.ruleIds.contains rule.id
  candidates.insertionSort (fun a b => a.priority ≤ b.priority)

/-- ``ruleIds.length > 0 ? `:agent:${ruleIds.slice().sort().join(',')}` : ''`` -/
def scopeSuffix (ruleIds : List String) : List Char :=
  if ruleIds.isEmpty then []
  else ":agent:".toList ++
    [','].intercalate ((AgentRuntime.sortTexts ruleIds).map String.toList)

/-- ``guardrail_rules:${workspaceId}${scopeSuffix}`` -/
def cacheKey (spelling : Spelling) (scope : RuleScope) : String :=
  String.ofList ("guardrail_rules:".toList ++
    ((spelling.text scope.workspaceId).toList ++ scopeSuffix scope.ruleIds))

/-- The table behind Redis. -/
def ruleSource (fmt : Json.NumberFormat) (spelling : Spelling) :
    ReadThrough.Source RuleScope String (List GuardrailRule) (List Char) (RuleTable fmt) where
  answer table scope := findRules table.rules scope
  key := cacheKey spelling
  encode := rulesText fmt spelling
  decode := readRules fmt spelling
  decode_encode table scope := by
    apply readRules_rulesText
    intro rule hrule
    have hmem : rule ∈ table.rules := by
      have hsorted := (List.perm_insertionSort _ _).mem_iff.1 hrule
      split at hsorted
      · exact List.mem_of_mem_filter hsorted
      · exact List.mem_of_mem_filter (List.mem_of_mem_filter hsorted)
    exact table.finite rule hmem

/-- `RULE_CACHE_TTL` -/
def ruleCacheTtl : Nat :=
  300

/-- What `evaluate` makes of the rules that it has loaded. -/
def judge (cfg : Config) (toolName : String) (toolInput : Json) (rules : List GuardrailRule) :
    Except String GuardrailEvaluation := do
  let operation := extractOperation toolName toolInput
  let matched ← matchRules cfg operation rules
  match assessRisk matched with
  | none =>
    pure
      { matched := false
        riskLevel := "L0"
        action := { type := .allow, blocked := false, escalated := false } }
  | some topRule =>
    pure
      { matched := true
        ruleId := some topRule.id
        ruleName := some topRule.name
        riskLevel := topRule.riskLevel
        action := mapRiskToAction topRule }

/-- Programs over the table and Redis. -/
abbrev RuleRequest (fmt : Json.NumberFormat) : Type :=
  ReadThrough.Request RuleScope String (List GuardrailRule) (List Char) (RuleTable fmt)
    GuardrailEvaluation

/-- `GuardrailEngineService.evaluate`; the provider of the package may do without Redis. -/
def evaluation {fmt : Json.NumberFormat} (cfg : Config) (redis : Bool) (scope : RuleScope)
    (toolName : String) (toolInput : Json) : RuleRequest fmt :=
  .lookup redis scope (judge cfg toolName toolInput)

/-- The engine that loads its rules from memory judges like this. -/
lemma judge_findRules (cfg : Config) (rules : List GuardrailRule) (scope : RuleScope)
    (toolName : String) (toolInput : Json) :
    judge cfg toolName toolInput (findRules rules scope) =
      evaluate { cfg with rules } scope.workspaceId toolName toolInput scope.ruleIds :=
  rfl

/-! ## Keys -/

/-- The ids have no comma, as the ids of the rows. -/
def RuleScope.Plain (scope : RuleScope) : Prop :=
  ∀ id ∈ scope.ruleIds, ',' ∉ id.toList

section keys
variable {scope scope' : RuleScope} {spelling : Spelling}

/-- The order of the ids does not matter to the table. -/
lemma findRules_perm (rules : List GuardrailRule)
    (hworkspace : scope.workspaceId = scope'.workspaceId)
    (hids : scope.ruleIds.Perm scope'.ruleIds) : findRules rules scope = findRules rules scope' := by
  have hempty : scope.ruleIds.isEmpty = scope'.ruleIds.isEmpty := by
    rw [Bool.eq_iff_iff, List.isEmpty_iff, List.isEmpty_iff]
    exact ⟨fun h => (h ▸ hids).nil_eq.symm, fun h => (h ▸ hids).eq_nil⟩
  have hcontains (id : String) : scope.ruleIds.contains id = scope'.ruleIds.contains id := by
    rw [Bool.eq_iff_iff, List.contains_iff_mem, List.contains_iff_mem]
    exact hids.mem_iff
  unfold findRules
  simp only [hworkspace, hempty, hcontains]

/-- Two texts without the character that the rests may begin with. -/
lemma eq_of_append_eq {c : Char} {xs ys rest rest' : List Char} (hxs : c ∉ xs) (hys : c ∉ ys)
    (hrest : ∀ d ∈ rest.head?, d = c) (hrest' : ∀ d ∈ rest'.head?, d = c)
    (h : xs ++ rest = ys ++ rest') : xs = ys := by
  induction xs generalizing ys with
  | nil =>
    cases ys with
    | nil => rfl
    | cons y ys =>
      have hy : y = c := hrest y (by rw [show rest = _ from h]; rfl)
      exact absurd (hy ▸ List.mem_cons_self ..) hys
  | cons x xs ih =>
    cases ys with
    | nil =>
      have hx : x = c := hrest' x (by rw [show rest' = _ from h.symm]; rfl)
      exact absurd (hx ▸ List.mem_cons_self ..) hxs
    | cons y ys =>
      obtain ⟨rfl, htail⟩ := List.cons.inj h
      rw [ih (fun hc => hxs (.tail _ hc)) (fun hc => hys (.tail _ hc)) htail]

/-- A suffix begins with its separator. -/
lemma head_scopeSuffix (ruleIds : List String) : ∀ d ∈ (scopeSuffix ruleIds).head?, d = ':' := by
  intro d hd
  unfold scopeSuffix at hd
  split at hd
  · cases hd
  · exact (Option.some.inj hd).symm

/-- Two plain scopes with one suffix name the same ids. -/
lemma perm_of_scopeSuffix (hplain : scope.Plain) (hplain' : scope'.Plain)
    (h : scopeSuffix scope.ruleIds = scopeSuffix scope'.ruleIds) :
    scope.ruleIds.Perm scope'.ruleIds := by
  have hsorted (ids : List String) : (AgentRuntime.sortTexts ids).Perm ids :=
    List.perm_insertionSort _ _
  have hsplit {scope : RuleScope} (hplain : scope.Plain) (hids : scope.ruleIds ≠ []) :
      ([','].intercalate ((AgentRuntime.sortTexts scope.ruleIds).map String.toList)).splitOn ',' =
        (AgentRuntime.sortTexts scope.ruleIds).map String.toList := by
    apply List.splitOn_intercalate
    · intro text htext
      obtain ⟨id, hid, rfl⟩ := List.mem_map.1 htext
      exact hplain id ((hsorted _).mem_iff.1 hid)
    · intro hnil
      have hnone := (hsorted scope.ruleIds).symm
      rw [List.map_eq_nil_iff.1 hnil] at hnone
      exact hids hnone.eq_nil
  unfold scopeSuffix at h
  split at h
  · rename_i hids
    split at h
    · rename_i hids'
      rw [List.isEmpty_iff.1 hids, List.isEmpty_iff.1 hids']
    · cases h
  · rename_i hids
    split at h
    · cases h
    · rename_i hids'
      have hjoined := congrArg (List.splitOn ',') (List.append_cancel_left h)
      rw [hsplit hplain (mt List.isEmpty_iff.2 hids), hsplit hplain' (mt List.isEmpty_iff.2 hids')]
        at hjoined
      have hlist := List.map_injective_iff.2 (fun _ _ => String.toList_inj.1) hjoined
      exact (hsorted _).symm.trans (hlist ▸ hsorted _)

/-- Workspaces and sets of rules have keys of their own. -/
lemma cacheKey_eq (hplain : scope.Plain) (hplain' : scope'.Plain)
    (h : cacheKey spelling scope = cacheKey spelling scope') :
    scope.workspaceId = scope'.workspaceId ∧ scope.ruleIds.Perm scope'.ruleIds := by
  have hrests := List.append_cancel_left (String.ofList_inj.1 h)
  have hworkspace := eq_of_append_eq (spelling.plain _) (spelling.plain _) (head_scopeSuffix _)
    (head_scopeSuffix _) hrests
  have hid : some scope.workspaceId = some scope'.workspaceId := by
    rw [← spelling.idOf_text, ← spelling.idOf_text, String.toList_inj.1 hworkspace]
  refine ⟨Option.some.inj hid, perm_of_scopeSuffix hplain hplain' ?_⟩
  rw [hworkspace] at hrests
  exact List.append_cancel_left hrests

end keys

/-! ## Runs -/

section runs
variable {ι : Type} [DecidableEq ι] {fmt : Json.NumberFormat}

/-- Whatever edits the rules, drops entries of the cache and fails in between: an evaluation that has
ended has judged the call as the engine without a cache would have judged it on the rules of an
earlier moment, which was no more than `ruleCacheTtl + d` seconds before the evaluation learnt the
rules; or its own query of the rules has failed. -/
theorem evaluation_fresh (cfg : Config) (spelling : Spelling) (table : RuleTable fmt)
    (faults : Nat → Option ReadThrough.Fault) (requests : ι → RuleRequest fmt) (d : Nat)
    (sched : List ι)
    (hprompt : ReadThrough.Prompt (ruleSource fmt spelling) ruleCacheTtl (.start table faults)
      requests d sched)
    (hplain : ∀ i scope, (requests i).Asks scope → scope.Plain) {i : ι} {redis : Bool}
    {scope : RuleScope} {toolName : String} {toolInput : Json}
    (hi : requests i = evaluation cfg redis scope toolName toolInput)
    {r : Except String GuardrailEvaluation}
    (h : (ReadThrough.played (ruleSource fmt spelling) ruleCacheTtl (.start table faults) requests
      sched).thread i = ReadThrough.finish r) :
    let worldAt := ReadThrough.worldAt (ruleSource fmt spelling) ruleCacheTtl (.start table faults)
      requests
    (∃ before learnt, before <+: learnt ∧ learnt ++ [i] <+: sched ∧
      (worldAt learnt).now ≤ (worldAt before).now + ruleCacheTtl + d ∧
      evaluate { cfg with rules := (worldAt before).data.rules } scope.workspaceId toolName toolInput
        scope.ruleIds = r) ∨
    ∃ e, (⟨.find scope, .error e⟩ : Sigma (ReadThrough.Answer (List GuardrailRule))) ∈
      (ReadThrough.played (ruleSource fmt spelling) ruleCacheTtl (.start table faults) requests
        sched).seen i ∧ r = .error e := by
  intro worldAt
  rcases ReadThrough.lookup_served (fun _ => rfl) hprompt hi h with
    ⟨rules, ⟨before, learnt, hserved⟩, hjudged⟩ | hfailed
  · obtain ⟨j, scope', hasks, hkey, rfl⟩ := hserved.source
    obtain ⟨hworkspace, hids⟩ := cacheKey_eq (hplain j scope' hasks)
      (hplain i scope ⟨redis, _, hi⟩) hkey
    refine .inl ⟨before, learnt, hserved.earlier, hserved.within, hserved.fresh, ?_⟩
    rw [← judge_findRules, ← hjudged, ← findRules_perm _ hworkspace hids]
    rfl
  · exact .inr hfailed

end runs

/-- The table with the rule of the small deployment. -/
def smallTable : RuleTable digits where
  rules := Config.small.rules
  finite := by
    intro rule hrule
    obtain rfl := List.mem_singleton.1 hrule
    refine ⟨⟨0, by decide, rfl⟩, ?_, ?_, ?_⟩
    · intro cond hcond n hn
      cases hcond
      cases hn
    · intro cond hcond n hn
      cases hcond
      cases hn
    · intro action haction
      cases haction

def noRules : RuleTable digits where
  rules := []
  finite := fun rule hrule => by cases hrule

/-- Ids are spelt in decimal digits. -/
def decimals : Spelling where
  text id := String.ofList (Nat.toDigits 10 id)
  idOf text := some (Nat.ofDigitChars 10 text.toList 0)
  idOf_text id := by
    rw [String.toList_ofList, Nat.ofDigitChars_ten_toDigits]
  plain id h := by
    rw [String.toList_ofList] at h
    have hdigit : ':'.isDigit = true := Nat.isDigit_of_mem_toDigits (by decide) (by decide) h
    cases hdigit

/-- Two evaluations, and an administrator who deletes all the rules. -/
def deletion (i : Fin 3) : RuleRequest digits :=
  if i = 2 then
    .other (.stmt (.change fun _ => noRules) fun _ => .throw "") ⟨trivial, fun _ => trivial⟩
  else evaluation .small true ⟨1, []⟩ "mail__send" .empty

/-- The scope of the deletion is plain. -/
lemma deletion_plain (i : Fin 3) (scope : RuleScope) (h : (deletion i).Asks scope) :
    scope.Plain := by
  obtain ⟨cached, use, h⟩ := h
  unfold deletion at h
  split at h
  · cases h
  · cases h
    intro id hid
    cases hid

/-- The rules are deleted after the first evaluation, and before the second one. -/
def deletedRun : List (Fin 3) :=
  [0, 0, 0, 2, 1]

def deletedAt : List (Fin 3) → ReadThrough.World String (List Char) (RuleTable digits) :=
  ReadThrough.worldAt (ruleSource digits decimals) ruleCacheTtl (.start smallTable fun _ => none)
    deletion

set_option maxRecDepth 20000 in
/-- The second evaluation still finds the rule. -/
theorem deleted_rule_held :
    (∃ before learnt, before <+: learnt ∧ learnt ++ [1] <+: deletedRun ∧
      (deletedAt learnt).now ≤
        (deletedAt before).now + ruleCacheTtl + (deletedAt deletedRun).now ∧
      evaluate { Config.small with rules := (deletedAt before).data.rules } 1 "mail__send" .empty [] =
        judge .small "mail__send" .empty Config.small.rules) ∨
    ∃ e, (⟨.find ⟨1, []⟩, .error e⟩ : Sigma (ReadThrough.Answer (List GuardrailRule))) ∈
      (ReadThrough.played (ruleSource digits decimals) ruleCacheTtl
        (.start smallTable fun _ => none) deletion deletedRun).seen 1 ∧
      judge .small "mail__send" .empty Config.small.rules = .error e :=
  evaluation_fresh .small decimals smallTable (fun _ => none) deletion (deletedAt deletedRun).now
    deletedRun (ReadThrough.prompt_now deletedRun) deletion_plain (i := 1) rfl rfl

end NexusClaw.Governance
