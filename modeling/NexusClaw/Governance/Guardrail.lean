import Mathlib.Data.List.Sort
import NexusClaw.Governance.Store

/-!
# Guardrail engine and tool access

The `guardrail` package (`guardrail-engine.ts`, `rule-matcher.ts`, `risk-assessor.ts`,
`rule-provider.ts`) and `permission/src/tool-access.ts`. Rules come from `InMemoryRuleProvider`, as
in the sidecar runtime. A tool input is an untyped record, so every property read from it is a JSON
value; matching throws where the source would call a method that the value does not have.

`Config` collects what a deployment fixes: the rules, the registered tools, the gate's grant list,
the upstream tools, the workspace of the runtime and the one the HTTP server names (`ws`). It also
carries the JavaScript primitives whose results the kernel only passes on: `JSON.stringify`,
`JSON.parse`, `String(value)` of a value that is no string, `<` between a value that is no number
and a number, where it does not throw; and the row key that a text spells, if it spells one.
-/

namespace NexusClaw.Governance

/-! ## Rules -/

/-- The `conditions` column; `otherKeys` records a property outside the five that are read. -/
structure RuleConditions where
  objectApiName : Option String := none
  operation : Option String := none
  fieldApiNames : Option (List String) := none
  amountThreshold : Option Rat := none
  batchSize : Option Rat := none
  otherKeys : Bool := false

/-- The `action` column. -/
structure RuleAction where
  approverRule : Option String
  timeoutMinutes : Option Nat
deriving DecidableEq, Repr

/-- A row of `guardrail_rules`; `riskLevel` is a free `varchar(5)`, and `conditions` is absent when
the column holds no object. -/
structure GuardrailRule where
  id : String
  workspaceId : Id
  name : String
  isActive : Bool
  priority : Int
  conditions : Option RuleConditions
  riskLevel : String
  action : Option RuleAction := none

structure Config where
  rules : List GuardrailRule
  tools : List String
  maxIterations : Nat
  workspaceId : Id
  agentId : Id
  ws : Id
  allowedTools : List String
  aggregated : List AggregatedTool
  stringify : Json → String
  parse : String → Option Json
  below : Json → Rat → Bool
  toText : Json → String
  idOf : String → Option Id

/-- `String(value)` -/
def Config.text (cfg : Config) : Json → String
  | .str s => s
  | v => cfg.toText v

/-- `value < bound` for a value that is no number. -/
def Config.lessThan (cfg : Config) (value : Json) (bound : Rat) : Except String Bool :=
  if value.isConvertible then .ok (cfg.below value bound)
  else .error "Cannot convert object to primitive value"

/-- `InMemoryRuleProvider.loadRules` -/
def loadRules (cfg : Config) (workspaceId : Id) (ruleIds : List String) : List GuardrailRule :=
  let candidates := cfg.rules.filter fun rule => rule.workspaceId = workspaceId && rule.isActive
  let candidates :=
    if ruleIds.isEmpty then candidates
    else candidates.filter fun rule => ruleIds.contains rule.id
  candidates.insertionSort (fun a b => a.priority ≤ b.priority)

/-! ## Matching -/

structure ToolCallOperation where
  objectApiName : Option Json
  operation : Option Json
  fieldApiNames : Option Json
  amount : Option Json
  batchSize : Option Json

/-- `extractOperation` -/
def extractOperation (toolName : String) (input : Json) : ToolCallOperation where
  objectApiName := Json.orElse (input.get? "objectApiName") (input.get? "object")
  operation := Json.orElse (input.get? "operation") (some (.str toolName))
  fieldApiNames :=
    if Json.truthy (input.get? "fields") then
      (input.get? "fields").map fun v => .arr (v.keys.map .str)
    else input.get? "fieldApiNames"
  amount := Json.orElse (input.get? "amount") (input.get? "value")
  batchSize :=
    match input.get? "records" with
    | some (.arr xs) => some (.num xs.length)
    | _ => input.get? "batchSize"

/-- `Object.keys(cond).length === 0` -/
def RuleConditions.isEmpty (cond : RuleConditions) : Bool :=
  cond.objectApiName.isNone && cond.operation.isNone && cond.fieldApiNames.isNone &&
    cond.amountThreshold.isNone && cond.batchSize.isNone && !cond.otherKeys

/-- `hasExecutableCondition` -/
def RuleConditions.hasExecutableCondition (cond : RuleConditions) : Bool :=
  cond.objectApiName.isSome || cond.operation.isSome ||
    (cond.fieldApiNames.getD []).length > 0 || cond.amountThreshold.isSome ||
    cond.batchSize.isSome

/-- A condition on a name: an absent or empty one is a wildcard, any other asks for an equal
string. -/
def nameMatches (expected : Option String) (actual : Option Json) : Bool :=
  match expected with
  | none => true
  | some "" => true
  | some name => Json.truthy actual && (actual.bind Json.asString) = some name

/-- `value.length === 0` -/
def lengthIsZero : Json → Bool
  | .arr xs => xs.isEmpty
  | .str s => s = ""
  | .obj fields =>
    match fields.lookup "length" with
    | some (.num n) => n = 0
    | _ => false
  | _ => false

/-- `fields.filter(f => value.includes(f)).length > 0`: strings have a method `includes` too, other
values have none. -/
def includesAny (value : Json) (fields : List String) : Except String Bool :=
  match value with
  | .arr xs => .ok (fields.any fun f => xs.any fun x => x.asString = some f)
  | .str s => .ok (fields.any fun f => s.toList.tails.any fun t => f.toList.isPrefixOf t)
  | _ => .error "op.fieldApiNames.includes is not a function"

def fieldsMatch (expected : Option (List String)) (actual : Option Json) : Except String Bool :=
  match expected with
  | none => .ok true
  | some [] => .ok true
  | some fields =>
    match actual with
    | none => .ok false
    | some value =>
      if !Json.truthy actual || lengthIsZero value then .ok false else includesAny value fields

/-- A lower bound: absent is a wildcard; a missing value fails it, and so does one below it. The
comparison with a value that is no number may throw. -/
def boundMatches (cfg : Config) (bound : Option Rat) (actual : Option Json) : Except String Bool :=
  match bound with
  | none => .ok true
  | some b =>
    match actual with
    | none => .ok false
    | some .null => .ok false
    | some (.num n) => .ok (!decide (n < b))
    | some v => do return !(← cfg.lessThan v b)

/-- `RuleMatcherService.matchRule` -/
def matchRule (cfg : Config) (op : ToolCallOperation) (rule : GuardrailRule) :
    Except String Bool :=
  match rule.conditions with
  | none => .ok false
  | some cond =>
    if cond.isEmpty then .ok true
    else if !cond.hasExecutableCondition then .ok false
    else if !nameMatches cond.objectApiName op.objectApiName then .ok false
    else if !nameMatches cond.operation op.operation then .ok false
    else do
      let fields ← fieldsMatch cond.fieldApiNames op.fieldApiNames
      if !fields then return false
      let amount ← boundMatches cfg cond.amountThreshold op.amount
      if !amount then return false
      boundMatches cfg cond.batchSize op.batchSize

/-- `RuleMatcherService.matchRules` -/
def matchRules (cfg : Config) (op : ToolCallOperation) (rules : List GuardrailRule) :
    Except String (List GuardrailRule) :=
  rules.filterM (matchRule cfg op)

/-! ## Risk -/

/-- `RISK_ORDER[level] ?? 0` -/
def riskOrder (level : String) : Nat :=
  if level = "L1" then 1
  else if level = "L2" then 2
  else if level = "L3" then 3
  else if level = "L4" then 4
  else 0

/-- The reducer of `RiskAssessorService.assessRisk`. -/
def higherRisk (highest current : GuardrailRule) : GuardrailRule :=
  let hLevel := riskOrder highest.riskLevel
  let cLevel := riskOrder current.riskLevel
  if cLevel > hLevel then current
  else if cLevel = hLevel ∧ current.priority < highest.priority then current
  else highest

/-- `RiskAssessorService.assessRisk` -/
def assessRisk : List GuardrailRule → Option GuardrailRule
  | [] => none
  | rule :: rules => some (rules.foldl higherRisk rule)

inductive ActionKind where
  | allow
  | audit
  | confirm
  | approve
  | block
deriving DecidableEq, Repr

structure GuardrailActionResult where
  type : ActionKind
  blocked : Bool
  escalated : Bool
  approverRule : Option String := none
  timeoutMinutes : Option Nat := none
deriving DecidableEq, Repr

/-- `mapRiskToAction` -/
def mapRiskToAction (rule : GuardrailRule) : GuardrailActionResult :=
  let approverRule := rule.action.bind (·.approverRule)
  let timeoutMinutes := rule.action.bind (·.timeoutMinutes)
  if rule.riskLevel = "L0" then { type := .allow, blocked := false, escalated := false }
  else if rule.riskLevel = "L1" then { type := .audit, blocked := false, escalated := false }
  else if rule.riskLevel = "L2" then
    { type := .confirm, blocked := false, escalated := true, approverRule, timeoutMinutes }
  else if rule.riskLevel = "L3" then
    { type := .approve, blocked := false, escalated := true, approverRule, timeoutMinutes }
  else if rule.riskLevel = "L4" then { type := .block, blocked := true, escalated := false }
  else { type := .allow, blocked := false, escalated := false }

structure GuardrailEvaluation where
  matched : Bool
  ruleId : Option String := none
  ruleName : Option String := none
  riskLevel : String
  action : GuardrailActionResult
deriving DecidableEq, Repr

/-- `GuardrailEngineService.evaluate` -/
def evaluate (cfg : Config) (workspaceId : Id) (toolName : String) (toolInput : Json)
    (ruleIds : List String) : Except String GuardrailEvaluation := do
  let rules := loadRules cfg workspaceId ruleIds
  let operation := extractOperation toolName toolInput
  let matched ← matchRules cfg operation rules
  match assessRisk matched with
  | none =>
    pure
      { matched := false
        riskLevel := "L0"
        action := { type := .allow, blocked := false, escalated := false } }
  | some topRule =>
    pure
      { matched := true
        ruleId := some topRule.id
        ruleName := some topRule.name
        riskLevel := topRule.riskLevel
        action := mapRiskToAction topRule }

/-! ## Tool access -/

/-- `ToolAccessService.checkToolAccess` with its default options. -/
def checkToolAccess (toolName : String) (allowedTools blockedTools : List String) : Bool :=
  if blockedTools.contains toolName then false
  else if allowedTools.isEmpty then false
  else allowedTools.contains toolName

/-- When a tool may be used. -/
lemma checkToolAccess_iff {toolName : String} {allowedTools blockedTools : List String} :
    checkToolAccess toolName allowedTools blockedTools = true ↔
      toolName ∈ allowedTools ∧ toolName ∉ blockedTools := by
  unfold checkToolAccess
  by_cases hb : toolName ∈ blockedTools
  · simp [hb]
  · cases allowedTools with
    | nil => simp [hb]
    | cons t ts => simp [hb]

end NexusClaw.Governance
