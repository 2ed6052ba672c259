import NexusClaw.AgentRuntime.StaticRuns

/-!
# The outcome of a static call

What the outcome of a call is to be, by its grants, the level of its tool and its input, and that the
checks of the call come to it.
-/

namespace NexusClaw.AgentRuntime.StaticCalls
open Concurrent
open Governance (Id ToolCallStatus PermissionCheck GuardrailCheck JsOutput riskOrder)
open AuditChain

/-! ## Outcomes -/

/-- The entry that decides on an object: the first with its name or, where none has it, the only one
with its name in another case. -/
inductive Decides (cfg : Config) (permissions : List ObjectPermission) (name : String)
    (permission : ObjectPermission) : Prop where
  | exact (earlier later : List ObjectPermission) (split : permissions = earlier ++ permission :: later)
      (named : permission.objectApiName = name) (first : ∀ p ∈ earlier, p.objectApiName ≠ name)
  | folded (none : ∀ p ∈ permissions, p.objectApiName ≠ name) (earlier later : List ObjectPermission)
      (split : permissions = earlier ++ permission :: later)
      (named : cfg.lowerCase permission.objectApiName = cfg.lowerCase name)
      (only : ∀ p ∈ earlier ++ later, cfg.lowerCase p.objectApiName ≠ cfg.lowerCase name)

section outcomes
variable (cfg : Config) (host : Host) (tool : AgentTool) (input : Json) (context : StaticContext)

/-- An operation on an object needs the entry that decides on the object to allow it. -/
def ObjectGranted : Prop :=
  ∀ operation object, nonEmpty tool.operation = some operation →
    requiredObject tool input = some object →
    ∃ name permission, object.asString = some name ∧
      Decides cfg context.security.objectPermissions name permission ∧
      permission.grants operation = true

/-- The schema of the tool compiles and has no objection. -/
def ValidInput : Prop :=
  Json.truthy (some tool.inputSchema) = true →
    host.compileError tool.inputSchema = none ∧ cfg.schemaError tool.inputSchema input = none

/-- The schema of the tool compiles and objects. -/
def InvalidInput : Prop :=
  Json.truthy (some tool.inputSchema) = true ∧ host.compileError tool.inputSchema = none ∧
    cfg.schemaError tool.inputSchema input ≠ none

/-- The status in which a call is refused: for the tool, for its input, for the object, for its risk,
in this order. -/
inductive Refused : ToolCallStatus → Prop where
  | tool (missing : tool.name ∉ context.constraints.allowedTools) : Refused .denied
  | input (allowed : tool.name ∈ context.constraints.allowedTools)
      (invalid : InvalidInput cfg host tool input) : Refused .failed
  | object (allowed : tool.name ∈ context.constraints.allowedTools)
      (valid : ValidInput cfg host tool input)
      (missing : ¬ ObjectGranted cfg tool input context) : Refused .denied
  | risk (allowed : tool.name ∈ context.constraints.allowedTools)
      (valid : ValidInput cfg host tool input) (granted : ObjectGranted cfg tool input context)
      (level : tool.riskLevel = "L4") : Refused .blocked

/-- The record `id` after a call is as the outcome says: as its refusal, as waiting where the call asks
for an approval, and otherwise as the answer of the tool. -/
structure EndsAsItsOutcome (id : Id) (r : Except String StaticResult × World) : Prop where
  noConflict : ∀ e, r.1 = .error e → ¬ IsConflict e
  refused : ∀ status, Refused cfg host tool input context status → statusOf r.2 id = some status
  waiting : ∀ result, r.1 = .ok result → result.requiresApproval = true →
    statusOf r.2 id = some .requiresApproval
  answered : (∀ status, ¬ Refused cfg host tool input context status) →
    (∀ result, r.1 = .ok result → result.requiresApproval = false) →
    statusOf r.2 id = some (answerStatus host.execute)

/-- The answer of the tool can be recorded as it is: a successful output has a preview, and no answer
with a preview asks for an approval itself. -/
def Recordable : Prop :=
  ∀ result, host.execute = .ok result →
    if previewed host.platform result.output = true then result.requiresApproval = false
    else result.success = false

/-- The exit that the call leaves by expects the status that the record is in, and nothing throws
before the body. -/
inductive ExitFits (status : ToolCallStatus) : Prop where
  | tool (missing : tool.name ∉ context.constraints.allowedTools) (fits : status ≠ .running)
  | input (allowed : tool.name ∈ context.constraints.allowedTools)
      (invalid : InvalidInput cfg host tool input) (fits : status ≠ .requiresApproval)
  | object (allowed : tool.name ∈ context.constraints.allowedTools)
      (valid : ValidInput cfg host tool input) (missing : ¬ ObjectGranted cfg tool input context)
      (silent : ∀ e, permissionRefusal cfg tool input context.toExecutionContext ≠ .error e)
      (fits : status = .started)
  | risk (allowed : tool.name ∈ context.constraints.allowedTools)
      (valid : ValidInput cfg host tool input) (granted : ObjectGranted cfg tool input context)
      (level : tool.riskLevel = "L4") (fits : status = .started)
  | approval (allowed : tool.name ∈ context.constraints.allowedTools)
      (valid : ValidInput cfg host tool input) (granted : ObjectGranted cfg tool input context)
      (level : tool.riskLevel = "L3") (unapproved : StaticCalls.granted tool.name context = false)
      (fits : tool.preparesApproval = true → host.prepareApproval = .ok ())
  | body (allowed : tool.name ∈ context.constraints.allowedTools)
      (valid : ValidInput cfg host tool input) (granted : ObjectGranted cfg tool input context)
      (level : tool.riskLevel ≠ "L4")
      (approved : tool.riskLevel = "L3" → StaticCalls.granted tool.name context = true)
      (fits : Recordable host)

end outcomes

/-! ## Verdicts -/

/-- What a verdict says of the grants, the input and the risk of a call. -/
inductive Says (cfg : Config) (host : Host) (tool : AgentTool) (input : Json)
    (context : StaticContext) : Except String Verdict → Prop where
  | tool (missing : tool.name ∉ context.constraints.allowedTools) :
      Says cfg host tool input context (.ok .notAllowed)
  | schema (allowed : tool.name ∈ context.constraints.allowedTools)
      (truthy : Json.truthy (some tool.inputSchema) = true)
      (throws : host.compileError tool.inputSchema ≠ none) (error : String) :
      Says cfg host tool input context (.error error)
  | input (allowed : tool.name ∈ context.constraints.allowedTools)
      (invalid : InvalidInput cfg host tool input) (error : String) :
      Says cfg host tool input context (.ok (.invalid error))
  | permission (allowed : tool.name ∈ context.constraints.allowedTools)
      (valid : ValidInput cfg host tool input) (error : String)
      (throws : permissionRefusal cfg tool input context.toExecutionContext = .error error) :
      Says cfg host tool input context (.error error)
  | object (allowed : tool.name ∈ context.constraints.allowedTools)
      (valid : ValidInput cfg host tool input) (missing : ¬ ObjectGranted cfg tool input context)
      (reason errorCode : String)
      (refuses : permissionRefusal cfg tool input context.toExecutionContext =
        .ok (some (reason, errorCode))) :
      Says cfg host tool input context (.ok (.denied reason errorCode))
  | risk (allowed : tool.name ∈ context.constraints.allowedTools)
      (valid : ValidInput cfg host tool input) (granted : ObjectGranted cfg tool input context)
      (level : tool.riskLevel = "L4") :
      Says cfg host tool input context (.ok .blocked)
  | approval (allowed : tool.name ∈ context.constraints.allowedTools)
      (valid : ValidInput cfg host tool input) (granted : ObjectGranted cfg tool input context)
      (level : tool.riskLevel = "L3") (unapproved : StaticCalls.granted tool.name context = false) :
      Says cfg host tool input context (.ok .escalated)
  | body (allowed : tool.name ∈ context.constraints.allowedTools)
      (valid : ValidInput cfg host tool input) (granted : ObjectGranted cfg tool input context)
      (level : tool.riskLevel ≠ "L4")
      (approved : tool.riskLevel = "L3" → StaticCalls.granted tool.name context = true) :
      Says cfg host tool input context (.ok .admitted)

section verdicts
variable {cfg : Config} {host : Host} {tool : AgentTool} {input : Json} {context : StaticContext}

/-- The lookup finds the entry that decides. -/
lemma permissionOf_iff {permissions : List ObjectPermission} {object : Json}
    {permission : ObjectPermission} :
    permissionOf cfg permissions object = .ok (some permission) ↔
      ∃ name, object.asString = some name ∧ Decides cfg permissions name permission := by
  unfold permissionOf
  cases object.asString with
  | none =>
    refine iff_of_false (fun h => ?_) fun ⟨_, h, _⟩ => (by cases h)
    dsimp only at h
    split_ifs at h
    cases h
  | some name =>
    dsimp only
    -- the first exact entry decides, and only without one the single folded one
    cases hexact : permissions.find? (·.objectApiName = name) with
    | some found =>
      obtain ⟨hname, earlier, later, hsplit, hfirst⟩ := List.find?_eq_some_iff_append.1 hexact
      have hfound := List.mem_of_find?_eq_some hexact
      constructor
      · intro h
        cases h
        refine ⟨name, rfl, .exact earlier later hsplit (of_decide_eq_true hname) fun p hp => ?_⟩
        simpa using hfirst p hp
      · rintro ⟨_, ⟨⟩, hdecides⟩
        cases hdecides with
        | exact earlier' later' split named first =>
          have hexact' : permissions.find? (·.objectApiName = name) = some permission :=
            List.find?_eq_some_iff_append.2
              ⟨decide_eq_true named, earlier', later', split, fun p hp => by simpa using first p hp⟩
          rw [hexact] at hexact'
          cases hexact'
          rfl
        | folded none => exact absurd (of_decide_eq_true hname) (none found hfound)
    | none =>
      have hnone : ∀ p ∈ permissions, p.objectApiName ≠ name := by
        intro p hp
        simpa using List.find?_eq_none.1 hexact p hp
      dsimp only
      constructor
      · intro h
        split at h
        next found hfolded =>
          cases h
          obtain ⟨earlier, later, hsplit, hearlier, hname, hlater⟩ :=
            List.filter_eq_cons_iff.1 hfolded
          refine ⟨name, rfl, .folded hnone earlier later hsplit (by simpa using hname) ?_⟩
          intro p hp
          rcases List.mem_append.1 hp with hp | hp
          · simpa using hearlier p hp
          · simpa using List.filter_eq_nil_iff.1 hlater p hp
        next => cases h
      · rintro ⟨_, ⟨⟩, hdecides⟩
        cases hdecides with
        | exact earlier later split named =>
          have hmem := split ▸ List.mem_append_right earlier (List.mem_cons_self (l := later))
          exact absurd named (hnone permission hmem)
        | folded _ earlier later split named only =>
          have hfolded : permissions.filter
              (fun p => cfg.lowerCase p.objectApiName = cfg.lowerCase name) = [permission] := by
            refine List.filter_eq_cons_iff.2 ⟨earlier, later, split, fun p hp => ?_, ?_, ?_⟩
            · simpa using only p (List.mem_append_left _ hp)
            · exact decide_eq_true named
            · refine List.filter_eq_nil_iff.2 fun p hp => ?_
              simpa using only p (List.mem_append_right _ hp)
          rw [hfolded]

/-- The permission step lets a call pass exactly with its grant. -/
lemma permissionRefusal_none_iff :
    permissionRefusal cfg tool input context.toExecutionContext = .ok none ↔
      ObjectGranted cfg tool input context := by
  unfold permissionRefusal ObjectGranted
  cases hoperation : nonEmpty tool.operation with
  | none => exact iff_of_true rfl nofun
  | some operation =>
    cases hobject : requiredObject tool input with
    | none => exact iff_of_true rfl nofun
    | some object =>
      dsimp only
      have hgrant : (∀ operation' object', some operation = some operation' →
          some object = some object' → ∃ name permission, object'.asString = some name ∧
            Decides cfg context.security.objectPermissions name permission ∧
            permission.grants operation' = true) ↔
          ∃ permission, permissionOf cfg context.security.objectPermissions object =
            .ok (some permission) ∧ permission.grants operation = true := by
        constructor
        · intro h
          obtain ⟨name, permission, hname, hdecides, hgrants⟩ := h operation object rfl rfl
          exact ⟨permission, permissionOf_iff.2 ⟨name, hname, hdecides⟩, hgrants⟩
        · rintro ⟨permission, hfound, hgrants⟩ _ _ ⟨⟩ ⟨⟩
          obtain ⟨name, hname, hdecides⟩ := permissionOf_iff.1 hfound
          exact ⟨name, permission, hname, hdecides, hgrants⟩
      -- the text of the object is needed for a refusal only, which is no grant in either case
      rw [hgrant]
      cases hfound : permissionOf cfg context.security.objectPermissions object with
      | error e => exact iff_of_false (fun h => (by cases h)) fun ⟨_, h, _⟩ => (by cases h)
      | ok found =>
        cases found with
        | none =>
          refine iff_of_false (fun h => ?_) fun ⟨_, h, _⟩ => (by cases h)
          cases htext : cfg.toText (.json object) with
          | error e =>
            simp only [bind, Except.bind, htext] at h
            cases h
          | ok text =>
            simp only [bind, Except.bind, htext] at h
            cases h
        | some permission =>
          constructor
          · intro h
            refine ⟨permission, rfl, ?_⟩
            by_contra hgrants
            cases htext : cfg.toText (.json object) with
            | error e =>
              simp only [bind, Except.bind, htext, hgrants] at h
              cases h
            | ok text =>
              simp only [bind, Except.bind, htext, hgrants] at h
              cases h
          · rintro ⟨_, ⟨⟩, hgrants⟩
            exact if_pos hgrants

/-- The risk step in terms of the levels. -/
lemma riskVerdict_says (allowed : tool.name ∈ context.constraints.allowedTools)
    (valid : ValidInput cfg host tool input) (granted : ObjectGranted cfg tool input context) :
    Says cfg host tool input context (.ok (riskVerdict tool context)) := by
  unfold riskVerdict
  have hmem := tool.riskLevel_mem
  simp only [riskLevels, List.mem_cons, List.not_mem_nil, or_false] at hmem
  have hbody (hlevel : tool.riskLevel ≠ "L4") (hthree : tool.riskLevel ≠ "L3") :
      Says cfg host tool input context (.ok .admitted) :=
    .body allowed valid granted hlevel fun h => absurd h hthree
  -- levels below three pass, three needs a grant, four is blocked
  rcases hmem with hlevel | hlevel | hlevel | hlevel | hlevel
  · have horder : riskOrder tool.riskLevel = 0 := by rw [hlevel]; decide
    rw [if_neg (by omega), if_neg (by omega)]
    exact hbody (by rw [hlevel]; decide) (by rw [hlevel]; decide)
  · have horder : riskOrder tool.riskLevel = 1 := by rw [hlevel]; decide
    rw [if_neg (by omega), if_neg (by omega)]
    exact hbody (by rw [hlevel]; decide) (by rw [hlevel]; decide)
  · have horder : riskOrder tool.riskLevel = 2 := by rw [hlevel]; decide
    rw [if_neg (by omega), if_neg (by omega)]
    exact hbody (by rw [hlevel]; decide) (by rw [hlevel]; decide)
  · have horder : riskOrder tool.riskLevel = 3 := by rw [hlevel]; decide
    rw [if_neg (by omega)]
    cases happroved : StaticCalls.granted tool.name context with
    | false =>
      rw [if_pos ⟨by omega, rfl⟩]
      exact .approval allowed valid granted hlevel happroved
    | true =>
      rw [if_neg (by simp)]
      exact .body allowed valid granted (by rw [hlevel]; decide) fun _ => happroved
  · have horder : riskOrder tool.riskLevel = 4 := by rw [hlevel]; decide
    rw [if_pos (by omega)]
    exact .risk allowed valid granted hlevel

/-- The check of the schema throws where the schema does not compile. -/
lemma schemaRefusal_error {e : String} (h : schemaRefusal cfg host tool input = .error e) :
    Json.truthy (some tool.inputSchema) = true ∧ host.compileError tool.inputSchema ≠ none := by
  unfold schemaRefusal at h
  split at h
  · rename_i htruthy
    refine ⟨htruthy, fun hnone => ?_⟩
    rw [hnone] at h
    cases h
  · cases h

/-- It refuses invalid inputs. -/
lemma schemaRefusal_some {error : String} (h : schemaRefusal cfg host tool input = .ok (some error)) :
    InvalidInput cfg host tool input := by
  unfold schemaRefusal at h
  split at h
  · rename_i htruthy
    cases hcompile : host.compileError tool.inputSchema with
    | some e =>
      rw [hcompile] at h
      cases h
    | none =>
      rw [hcompile] at h
      refine ⟨htruthy, hcompile, fun hnone => ?_⟩
      rw [hnone] at h
      cases h
  · cases h

/-- What it lets through is valid. -/
lemma schemaRefusal_none (h : schemaRefusal cfg host tool input = .ok none) :
    ValidInput cfg host tool input := by
  intro htruthy
  unfold schemaRefusal at h
  rw [if_pos htruthy] at h
  cases hcompile : host.compileError tool.inputSchema with
  | some e =>
    rw [hcompile] at h
    cases h
  | none =>
    rw [hcompile] at h
    exact ⟨rfl, Except.ok.inj h⟩

/-- What each verdict says of the grants, the input and the level. -/
lemma verdict_says (cfg : Config) (host : Host) (tool : AgentTool) (input : Json)
    (context : StaticContext) :
    Says cfg host tool input context (verdict cfg host tool input context) := by
  unfold verdict
  by_cases hallowed : tool.name ∈ context.constraints.allowedTools
  · rw [if_neg (not_not.2 hallowed)]
    -- the checks in their order, each behind those that passed
    cases hschema : schemaRefusal cfg host tool input with
    | error e =>
      obtain ⟨htruthy, hthrows⟩ := schemaRefusal_error hschema
      exact .schema hallowed htruthy hthrows e
    | ok refusal =>
      cases refusal with
      | some error => exact .input hallowed (schemaRefusal_some hschema) error
      | none =>
        have hvalid := schemaRefusal_none hschema
        cases hpermission : permissionRefusal cfg tool input context.toExecutionContext with
        | error e =>
          exact .permission hallowed hvalid e hpermission
        | ok refusal =>
          cases refusal with
          | none => exact riskVerdict_says hallowed hvalid (permissionRefusal_none_iff.1 hpermission)
          | some refusal =>
            obtain ⟨reason, errorCode⟩ := refusal
            refine .object hallowed hvalid (fun hgranted => ?_) reason errorCode hpermission
            rw [permissionRefusal_none_iff.2 hgranted] at hpermission
            cases hpermission
  · rw [if_pos hallowed]
    exact .tool hallowed

end verdicts

end NexusClaw.AgentRuntime.StaticCalls
