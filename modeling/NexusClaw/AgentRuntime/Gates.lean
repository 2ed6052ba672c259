import NexusClaw.AgentRuntime.Store

/-!
# Deployment and gates of the loop

`Config` is what a deployment fixes: the registered tools, the rules of the guardrail engine where
that optional service is provided, and the functions of the language and of the repository that the
engine only passes values through. The second part is `checkSensitiveOps` and the call of
`GuardrailEngineService.evaluate`, which is the guardrail package's text.
-/

namespace NexusClaw.AgentRuntime
open Concurrent
open Governance (Id)

/-- What a text of the model was read as, before its action is checked. -/
structure ParsedReply where
  thought : Thought
  type : Option Json
  toolName : Option Json
  toolInput : Option Json
  generatePrompt : Option Json

/-- `readReply` is the first of `tryParseAsJson`, `tryParseMarkerFormat` and
`tryExtractEmbeddedJson` that reads the text, `chatMessages` the text of `buildChatMessages` under an
active constitution, `recompose` is `recomposeDroppingNormalSections`, `digest` is
`canonicalJsonDigest`, `regexTest` is `new RegExp(pattern).test(text)`, `schemaError` the first error
of Ajv, `lowerCase` is `text.toLocaleLowerCase('en-US')`, and `toText` is
the text of a value in a template or by `toString()`, which throws on an object with a property of
that name. -/
structure Config where
  fmt : Json.NumberFormat
  tools : List AgentTool
  guardrailEngine : Option Governance.Config
  readReply : String → Option ParsedReply
  chatMessages : Option String → ExecutionContext → List ReActStepData → String → Option String →
    List ChatMessage
  recompose : String → Option String
  digest : Json → String
  regexTest : String → String → Except String Bool
  schemaError : Json → Json → Option String
  lowerCase : String → String
  toText : Governance.JsOutput → Except String String

/-! ## Sensitive operations -/

/-- A text that is there and not empty. -/
def nonEmpty (text : Option String) : Option String :=
  text.filter (· ≠ "")

/-- `toolInput?.objectApiName` -/
def objectOf (toolInput : Option Json) : Option Json :=
  toolInput.bind (·.get? "objectApiName")

/-- ``'^' + pattern.replace(/\*/g, '.*') + '$'`` -/
def globPattern (pattern : String) : String :=
  "^" ++ String.ofList (pattern.toList.flatMap fun c => if c = '*' then ['.', '*'] else [c]) ++ "$"

/-- A pattern against the name of a tool: the name itself, or a regular expression for one with a
star. -/
def patternTest (cfg : Config) (pattern toolName : String) : Except String Bool :=
  if pattern = toolName then .ok true
  else if pattern.toList.contains '*' then cfg.regexTest (globPattern pattern) toolName
  else .ok false

/-- `rule.objectApiName` is empty, a star or the object of the input. -/
def admits (rule : SensitiveOpRule) (toolInput : Option Json) : Bool :=
  match rule.get? "objectApiName" with
  | none => true
  | some object =>
    !Json.truthy (some object) || object = .str "*" ||
      (objectOf toolInput).any (Json.strictEq · object)

/-- The match of a rule by its tool pattern; `includes` is a method of texts and lists only, and
`replace` one of texts. -/
def patternMatches (cfg : Config) (rule : SensitiveOpRule) (toolName : String)
    (toolInput : Option Json) : Except String Bool :=
  match rule.get? "toolPattern" with
  | some (.str "") => .ok false
  | some (.str pattern) => do
    let named ← patternTest cfg pattern toolName
    -- a rule for one object does not match the same tool on another
    .ok (named && admits rule toolInput)
  | some (.arr parts) =>
    if parts.any (· = .str "*") then .error "rule.toolPattern.replace is not a function"
    else .ok false
  | pattern =>
    if Json.truthy pattern then .error "rule.toolPattern.includes is not a function" else .ok false

/-- The match of a rule by its object and operation. -/
def operationMatches (rule : SensitiveOpRule) (toolName : String) (toolInput : Option Json) : Bool :=
  match rule.get? "objectApiName", rule.get? "operation" with
  | some object, some operation =>
    Json.truthy (some object) && Json.truthy (some operation) &&
      (((toolName.splitOn ".")[1]?.any fun toolOp => operation = .str toolOp) ||
        operation = .str "*") &&
      (object = .str "*" || (objectOf toolInput).any (Json.strictEq · object))
  | _, _ => false

def ruleMatches (cfg : Config) (toolName : String) (toolInput : Option Json)
    (rule : SensitiveOpRule) : Except String Bool :=
  match rule with
  | .null => .error "Cannot read properties of null (reading 'toolPattern')"
  | _ => do
    let matched ← patternMatches cfg rule toolName toolInput
    .ok (matched || operationMatches rule toolName toolInput)

/-- `checkSensitiveOps`: the first rule that matches. -/
def checkSensitiveOps (cfg : Config) (toolName : String) (toolInput : Option Json) :
    List SensitiveOpRule → Except String (Option SensitiveOpRule)
  | [] => .ok none
  | rule :: rules => do
    if ← ruleMatches cfg toolName toolInput rule then .ok (some rule)
    else checkSensitiveOps cfg toolName toolInput rules

/-- What the loop asks an approval for: `rule.description || rule.operation`. -/
def SensitiveOpRule.label (rule : SensitiveOpRule) : String :=
  (nonEmpty (some (rule.textOf "description"))).getD (rule.textOf "operation")

/-! ## Guardrail engine -/

/-- The rules that the engine evaluates, and their ids: it runs where it is provided and the agent
is bound to at least one rule. -/
def boundRules (cfg : Config) (guardrailRuleIds : Option (List String)) :
    Option (Governance.Config × List String) :=
  match cfg.guardrailEngine, guardrailRuleIds with
  | some rules, some (id :: ids) => some (rules, id :: ids)
  | _, _ => none

/-- `evaluate` reads the rules first and may throw there or on a condition it cannot apply; the loop
goes on without an evaluation then. -/
def evaluateBoundRules (cfg : Config) (workspaceId : Id) (toolName : String) (toolInput : Json)
    (guardrailRuleIds : Option (List String)) : Act (Option Governance.GuardrailEvaluation) :=
  match boundRules cfg guardrailRuleIds with
  | none => .ret none
  | some (rules, ruleIds) => do
    match ← (await (.loadRules workspaceId ruleIds)).attempt with
    | .error _ => .ret none
    | .ok _ =>
      .ret (Governance.evaluate rules workspaceId toolName toolInput ruleIds).toOption

/-- What the engine makes of a proposed call when it can read the rules. -/
def verdict (cfg : Config) (proposal : Proposal) : Option Governance.GuardrailEvaluation :=
  (boundRules cfg proposal.guardrailRuleIds).bind fun bound =>
    (Governance.evaluate bound.1 proposal.workspaceId proposal.toolName proposal.toolInput
      bound.2).toOption

/-- The engine blocks the call. -/
def blocks (cfg : Config) (proposal : Proposal) : Bool :=
  (verdict cfg proposal).any fun evaluation =>
    evaluation.matched && evaluation.action.type = .block

/-- `evaluation.ruleName ?? evaluation.ruleId ?? 'unknown'` -/
def ruleLabel (evaluation : Governance.GuardrailEvaluation) : String :=
  (evaluation.ruleName.orElse fun _ => evaluation.ruleId).getD "unknown"

end NexusClaw.AgentRuntime
