import NexusClaw.AgentRuntime.Closing
import NexusClaw.Community.Resolver

/-!
# Configuration of an agent

`communityUpdateAgentConfig` and `communityCreateAgent` with the checks of their input. An update
reads the row, merges the input into the rules in memory and writes the whole rules back with the
next version, and nothing compares the row with the one it read. The main result says what any
number of updates leave behind when each writes to the row it read.
-/

namespace NexusClaw.Community
open Concurrent AgentRuntime
open Governance (Id)

/-! ## Checks of the input -/

/-- A property that is a non-empty string. -/
def textOf (row : Json) (field : String) : Option String :=
  nonEmpty ((row.get? field).bind Json.asString)

/-- A property that is one of the given strings. -/
def oneOf (row : Json) (field : String) (values : List String) : Option String :=
  ((row.get? field).bind Json.asString).filter values.contains

/-- `RULE_ACTIONS` -/
def ruleActions : List String :=
  ["allow", "audit", "confirm", "approve", "block"]

/-- The checks of `validateSensitiveOps` on one row. -/
def validateSensitiveOp : Json → Except String Unit
  | .obj fields =>
    let row : Json := .obj fields
    match textOf row "operation" with
    | none => .error "Each rule needs a non-empty operation"
    | some operation =>
      let rule := "Rule \"" ++ operation ++ "\": "
      if (textOf row "toolPattern").isNone then
        .error (rule ++ "toolPattern must be a non-empty string")
      else if (oneOf row "riskLevel" riskLevels).isNone then
        .error (rule ++ "riskLevel must be one of L0–L4")
      else if (oneOf row "action" ruleActions).isNone then
        .error (rule ++ "action must be allow|audit|confirm|approve|block")
      else
        match row.get? "description" with
        | none => .ok ()
        | some .null => .ok ()
        | some (.str _) => .ok ()
        | some _ => .error (rule ++ "description must be a string")
  | _ => .error "Each sensitive-op rule must be an object"

/-- `validateSensitiveOps` -/
def validateSensitiveOps : Json → Except String Unit
  | .arr rows => rows.forM validateSensitiveOp
  | _ => .error "sensitiveOps must be an array of rules"

/-- The check of `allowedTools`. -/
def validateAllowedTools (tools : List String) : Except String (List String) :=
  if tools.contains "" then .error "allowedTools must be a list of non-empty tool names"
  else .ok tools

/-- One constraint of `resolveExecutionConstraints`. -/
def resolveConstraint (input : Option Int) (base : Option Rat) (least greatest : Int)
    (message : String) : Except String (Option Rat) :=
  match input with
  | none => .ok base
  | some value =>
    if value < least ∨ greatest < value then .error message else .ok (some value)

/-- `resolveExecutionConstraints` -/
def resolveExecutionConstraints (input : ExecutionConstraintsInput) (base : ExecutionRules) :
    Except String ExecutionRules := do
  let maxReActIterations ← resolveConstraint input.maxReActIterations base.maxReActIterations 1 50
    "maxReActIterations must be an integer between 1 and 50"
  let timeoutMs ← resolveConstraint input.timeoutMs base.timeoutMs 1000 600000
    "timeoutMs must be between 1000 and 600000"
  .ok { maxReActIterations, timeoutMs }

/-- The value of an input that is given, else the one that is there. -/
def resolve {α β : Type} (input : Option α) (base : β) (check : α → Except String β) :
    Except String β :=
  match input with
  | none => .ok base
  | some value => check value

/-- The rules as an input leaves them. -/
def configure (rules : GuardrailRules) (input : UpdateAgentConfigInput) :
    Except String GuardrailRules := do
  let allowedTools ← resolve input.allowedTools rules.allowedTools validateAllowedTools
  let sensitiveOps ← resolve input.sensitiveOps rules.sensitiveOps fun rows => do
    validateSensitiveOps rows
    .ok (some rows)
  let execution ← resolve input.execution rules.execution fun execution =>
    resolveExecutionConstraints execution rules.execution
  .ok { rules with allowedTools, sensitiveOps, execution }

def changedFields (input : UpdateAgentConfigInput) : List String :=
  (if input.prompt.isSome then ["prompt"] else []) ++
    (if input.allowedTools.isSome then ["allowedTools"] else []) ++
    (if input.sensitiveOps.isSome then ["sensitiveOps"] else []) ++
    (if input.execution.isSome then ["execution"] else [])

/-! ## The mutations -/

structure CommunityUpdateAgentConfigResult where
  id : Id
  version : Nat
deriving DecidableEq, Repr

/-- The columns that an update sets in the row it read. -/
def updateRow (agent : Agent) (rules : GuardrailRules) (input : UpdateAgentConfigInput) :
    AgentPatch where
  prompt := input.prompt
  guardrailRules := rules
  version := agent.version + 1

/-- The event of an update. -/
def configEvent (agent : Agent) (input : UpdateAgentConfigInput) (principal : CommunityPrincipal) :
    OutboxEvent where
  workspaceId := principal.defaultWorkspaceId
  eventType := .agentConfigUpdated
  aggregateId := agent.id
  version := some (agent.version + 1)
  changedFields := changedFields input
  principalId := some principal.id

/-- `communityUpdateAgentConfig` -/
def updateAgentConfig (agentId : Id) (input : UpdateAgentConfigInput)
    (principal : CommunityPrincipal) : Act CommunityUpdateAgentConfigResult := do
  match ← await (.findAgent agentId (some principal.defaultWorkspaceId)) with
  | none => .throw "Agent not found"
  | some agent =>
    let rules ← Act.ofExcept (configure agent.guardrailRules input)
    await (.updateAgent agent.id (updateRow agent rules input) (configEvent agent input principal)
      input)
    let refreshed ← await (.findAgent agent.id (some principal.defaultWorkspaceId))
    .ret { id := agent.id, version := (refreshed.map (·.version)).getD (agent.version + 1) }

/-- `CommunityCreateAgentInput` -/
structure CommunityCreateAgentInput where
  name : String
  apiName : String
  config : UpdateAgentConfigInput

/-- `communityCreateAgent`; the result is the id of the agent. -/
def createAgent (input : CommunityCreateAgentInput) (principal : CommunityPrincipal) : Act Id := do
  let name := trim input.name
  let apiName := trim input.apiName
  if name = "" then .throw "name must not be empty"
  else if apiName = "" then .throw "apiName must not be empty"
  else
    match ← await (.findAgentNamed principal.defaultWorkspaceId apiName) with
    | some _ => .throw ("AGENT_API_NAME_TAKEN:" ++ apiName)
    | none =>
      let guardrailRules ← Act.ofExcept
        (configure { sensitiveOps := some (.arr []) } input.config)
      let agent ← await (.createAgent
        { workspaceId := principal.defaultWorkspaceId
          name
          apiName
          version := 1
          prompt := nonEmpty input.config.prompt
          guardrailRules }
        { workspaceId := principal.defaultWorkspaceId
          eventType := .agentCreated
          aggregateId := 0
          principalId := some principal.id })
      .ret agent.id

/-! ## What the edits of an agent leave -/

/-- The inputs of the edits of an agent that were committed, in the order of their commits. -/
def committedEdits (id : Id) (trace : List Effect) : List UpdateAgentConfigInput :=
  trace.filterMap fun
    | .configured agentId input => if agentId = id then some input else none
    | _ => none

/-- The versions that the events of the edits of an agent carry. -/
def eventVersions (id : Id) (outbox : List OutboxEvent) : List (Option Nat) :=
  (outbox.filter fun event => event.eventType = .agentConfigUpdated && event.aggregateId = id).map
    (·.version)

/-- The value of the last input that gives one, or the initial one. -/
def lastSet {α : Type} (field : UpdateAgentConfigInput → Option α) (initial : α)
    (inputs : List UpdateAgentConfigInput) : α :=
  inputs.foldl (fun value input => (field input).getD value) initial

/-- The last edit that sets a field. -/
lemma lastSet_concat {α : Type} (field : UpdateAgentConfigInput → Option α) (initial : α)
    (inputs : List UpdateAgentConfigInput) (input : UpdateAgentConfigInput) :
    lastSet field initial (inputs ++ [input]) =
      (field input).getD (lastSet field initial inputs) :=
  List.foldl_append

/-- The row is the initial one with the edits applied in their order, each to what the others left. -/
structure Edited (initial : Agent) (inputs : List UpdateAgentConfigInput) (row : Agent) : Prop where
  version : row.version = initial.version + inputs.length
  prompt : row.prompt = lastSet (fun input => input.prompt.map some) initial.prompt inputs
  allowedTools : row.guardrailRules.allowedTools =
    lastSet (·.allowedTools) initial.guardrailRules.allowedTools inputs
  sensitiveOps : row.guardrailRules.sensitiveOps =
    lastSet (fun input => input.sensitiveOps.map some) initial.guardrailRules.sensitiveOps inputs
  maxReActIterations : row.guardrailRules.execution.maxReActIterations =
    lastSet (fun input => (input.execution.bind (·.maxReActIterations)).map fun n => some (n : Rat))
      initial.guardrailRules.execution.maxReActIterations inputs
  timeoutMs : row.guardrailRules.execution.timeoutMs =
    lastSet (fun input => (input.execution.bind (·.timeoutMs)).map fun n => some (n : Rat))
      initial.guardrailRules.execution.timeoutMs inputs

/-- What a number of edits promises about the agent `initial`, from the world `before` on. -/
structure EditsKept (before : World) (initial : Agent) (w : World) : Prop where
  row : ∃ row, w.agents.find? (·.id = initial.id) = some row ∧
    Edited initial (committedEdits initial.id (w.trace.drop before.trace.length)) row
  versions : (eventVersions initial.id (w.outbox.drop before.outbox.length)).Nodup

/-! ## One edit -/

/-- A sequence that returns. -/
lemma except_bind_ok {α β : Type} {x : Except String α} {f : α → Except String β} {b : β}
    (h : (x >>= f) = .ok b) : ∃ a, x = .ok a ∧ f a = .ok b := by
  cases x with
  | error e => cases h
  | ok a => exact ⟨a, rfl, h⟩

/-- A field that is resolved is checked or the one before. -/
lemma resolve_ok {α β : Type} {input : Option α} {base result : β} {check : α → Except String β}
    (h : resolve input base check = .ok result) :
    (input = none ∧ result = base) ∨ ∃ value, input = some value ∧ check value = .ok result := by
  cases input with
  | none =>
    cases h
    exact .inl ⟨rfl, rfl⟩
  | some value => exact .inr ⟨value, rfl, h⟩

/-- A checked execution constraint is the given one, or the one that was there. -/
lemma resolveConstraint_ok {input : Option Int} {base result : Option Rat} {least greatest : Int}
    {message : String} (h : resolveConstraint input base least greatest message = .ok result) :
    result = (input.map fun n => some (n : Rat)).getD base := by
  cases input with
  | none =>
    cases h
    rfl
  | some value =>
    unfold resolveConstraint at h
    dsimp only at h
    split_ifs at h
    cases h
    rfl

/-- The rules field by field behind an input that passed its checks. -/
lemma configure_ok {rules rules' : GuardrailRules} {input : UpdateAgentConfigInput}
    (h : configure rules input = .ok rules') :
    rules'.allowedTools = input.allowedTools.getD rules.allowedTools ∧
      rules'.sensitiveOps = (input.sensitiveOps.map some).getD rules.sensitiveOps ∧
      rules'.execution.maxReActIterations = ((input.execution.bind (·.maxReActIterations)).map
        fun n => some (n : Rat)).getD rules.execution.maxReActIterations ∧
      rules'.execution.timeoutMs = ((input.execution.bind (·.timeoutMs)).map
        fun n => some (n : Rat)).getD rules.execution.timeoutMs := by
  unfold configure at h
  obtain ⟨allowedTools, htools, h⟩ := except_bind_ok h
  obtain ⟨sensitiveOps, hops, h⟩ := except_bind_ok h
  obtain ⟨execution, hexecution, h⟩ := except_bind_ok h
  cases h
  refine ⟨?_, ?_, ?_⟩
  -- each part of the input is absent, or was checked
  · rcases resolve_ok htools with ⟨hnone, rfl⟩ | ⟨tools, hsome, hcheck⟩
    · rw [hnone]
      rfl
    · rw [hsome]
      unfold validateAllowedTools at hcheck
      split_ifs at hcheck
      cases hcheck
      rfl
  · rcases resolve_ok hops with ⟨hnone, rfl⟩ | ⟨rows, hsome, hcheck⟩
    · rw [hnone]
      rfl
    · rw [hsome]
      obtain ⟨_, _, hrows⟩ := except_bind_ok hcheck
      cases hrows
      rfl
  · rcases resolve_ok hexecution with ⟨hnone, rfl⟩ | ⟨given, hsome, hcheck⟩
    · rw [hnone]
      exact ⟨rfl, rfl⟩
    · rw [hsome]
      unfold resolveExecutionConstraints at hcheck
      obtain ⟨steps, hsteps, hcheck⟩ := except_bind_ok hcheck
      obtain ⟨timeout, htimeout, hcheck⟩ := except_bind_ok hcheck
      cases hcheck
      exact ⟨resolveConstraint_ok hsteps, resolveConstraint_ok htimeout⟩

/-- An edit that is committed to the row it read. -/
lemma Edited.edit {initial row : Agent} {inputs : List UpdateAgentConfigInput}
    {input : UpdateAgentConfigInput} {rules : GuardrailRules} (h : Edited initial inputs row)
    (hrules : configure row.guardrailRules input = .ok rules) :
    Edited initial (inputs ++ [input]) (row.patch (updateRow row rules input)) := by
  obtain ⟨htools, hops, hsteps, htimeout⟩ := configure_ok hrules
  constructor
  · show row.version + 1 = _
    rw [h.version, List.length_append, List.length_singleton]
    omega
  · rw [lastSet_concat, ← h.prompt]
    show input.prompt.orElse _ = _
    cases input.prompt <;> rfl
  · rw [lastSet_concat, ← h.allowedTools]
    exact htools
  · rw [lastSet_concat, ← h.sensitiveOps]
    exact hops
  · rw [lastSet_concat, ← h.maxReActIterations]
    exact hsteps
  · rw [lastSet_concat, ← h.timeoutMs]
    exact htimeout

/-! ## Edits at work together -/

/-- The row that a request has read last. -/
def noteRead (m : Option Agent) : (s : Stmt) → s.Resp → Option Agent
  | .findAgent _ _, .ok (some row) => some row
  | _, _ => m

/-- The row that a history has read last. -/
def lastRead (h : History Stmt Stmt.Resp) : Option Agent :=
  bookkeeping noteRead none h

/-- What an edit issues: reads, and one update that is computed from the row it read. -/
def EditLaw (m : Option Agent) : Stmt → Prop
  | .findAgent _ _ => True
  | .updateAgent id patch event input =>
    ∃ row rules, m = some row ∧ id = row.id ∧ configure row.guardrailRules input = .ok rules ∧
      patch = updateRow row rules input ∧ event.eventType = .agentConfigUpdated ∧
      event.aggregateId = row.id ∧ event.version = some (row.version + 1)
  | _ => False

/-- The rule of an edit. -/
lemma updateAgentConfig_tracked (agentId : Id) (input : UpdateAgentConfigInput)
    (principal : CommunityPrincipal) :
    Tracked noteRead EditLaw (fun _ _ => True) none
      (updateAgentConfig agentId input principal) := by
  refine tracked_await_bind.2 ⟨trivial, fun agent => ?_, fun _ => trivial⟩
  cases agent with
  | none => trivial
  | some agent =>
    refine tracked_ofExcept_bind (fun rules hrules => ?_) fun _ _ => trivial
    refine tracked_await_bind.2 ⟨⟨agent, rules, rfl, rfl, hrules, rfl, rfl, rfl, rfl⟩, fun _ => ?_,
      fun _ => trivial⟩
    exact tracked_await_bind.2 ⟨trivial, fun _ => trivial, fun _ => trivial⟩

/-- The condition on a step: an edit is committed to the row it read. -/
def OnRowRead (w : World) (read : Option Agent) : Stmt → Prop
  | .updateAgent id _ _ _ => w.agents.find? (·.id = id) = read
  | _ => True

/-- What the edits so far have left of the agent `initial`; the events carry the versions in order. -/
structure EditedFrom (before : World) (initial : Agent) (w : World) : Prop where
  row : ∃ row, w.agents.find? (·.id = initial.id) = some row ∧
    Edited initial (committedEdits initial.id (w.trace.drop before.trace.length)) row
  trace : before.trace.length ≤ w.trace.length
  outbox : before.outbox.length ≤ w.outbox.length
  versions : eventVersions initial.id (w.outbox.drop before.outbox.length) =
    (List.range' (initial.version + 1)
      (committedEdits initial.id (w.trace.drop before.trace.length)).length).map some

section pool
variable {before w : World} {initial : Agent}

/-- The edits with one more. -/
lemma committedEdits_concat (id agentId : Id) (trace : List Effect)
    (input : UpdateAgentConfigInput) :
    committedEdits id (trace ++ [.configured agentId input]) =
      committedEdits id trace ++ if agentId = id then [input] else [] := by
  unfold committedEdits
  rw [List.filterMap_append]
  by_cases h : agentId = id
  · simp [h]
  · simp [h]

/-- The versions with one more event. -/
lemma eventVersions_concat (id : Id) (outbox : List OutboxEvent) {event : OutboxEvent}
    (htype : event.eventType = .agentConfigUpdated) :
    eventVersions id (outbox ++ [event]) =
      eventVersions id outbox ++ if event.aggregateId = id then [event.version] else [] := by
  unfold eventVersions
  rw [List.filter_append, List.map_append]
  by_cases h : event.aggregateId = id
  · simp [h, htype]
  · simp [h, htype]

/-- A change of the rows with one id leaves the others. -/
lemma find?_update (agents : List Agent) (id target : Id) (patch : AgentPatch) :
    (agents.map fun row => if row.id = target then row.patch patch else row).find? (·.id = id) =
      (agents.find? (·.id = id)).map fun row =>
        if row.id = target then row.patch patch else row := by
  rw [List.find?_map]
  have hid : ((fun row : Agent => decide (row.id = id)) ∘
      fun row => if row.id = target then row.patch patch else row) =
      fun row => decide (row.id = id) := by
    funext row
    show decide ((if row.id = target then row.patch patch else row).id = id) = _
    split_ifs
    · rfl
    · rfl
  rw [hid]

/-- What one statement keeps. -/
lemma editedFrom_step {ans : Answers} {read : Option Agent} {s : Stmt}
    (h : EditedFrom before initial w) (hlaw : EditLaw read s) (hfresh : OnRowRead w read s) :
    EditedFrom before initial (exec ans s w).1 := by
  cases s with
  | findAgent id workspaceId =>
    have hworld : (exec ans (.findAgent id workspaceId) w).1 = w.tick := by
      show settle _ _ w = _
      unfold settle
      cases answer ans (.findAgent id workspaceId) w <;> rfl
    rw [hworld]
    exact ⟨h.row, h.trace, h.outbox, h.versions⟩
  | updateAgent id patch event input =>
    obtain ⟨row, rules, rfl, rfl, hrules, rfl, htype, haggregate, hversion⟩ := hlaw
    show EditedFrom before initial (settle _ (answer ans _ w) w)
    cases answer ans (.updateAgent row.id (updateRow row rules input) event input) w with
    | error e => exact ⟨h.row, h.trace, h.outbox, h.versions⟩
    | ok _ =>
      obtain ⟨current, hcurrent, hedited⟩ := h.row
      have htrace : (w.trace ++ [Effect.configured row.id input]).drop before.trace.length =
          w.trace.drop before.trace.length ++ [.configured row.id input] :=
        List.drop_append_of_le_length h.trace
      have houtbox : ∀ e : OutboxEvent, (w.outbox ++ [e]).drop before.outbox.length =
          w.outbox.drop before.outbox.length ++ [e] :=
        fun _ => List.drop_append_of_le_length h.outbox
      have hlength : before.trace.length ≤ (w.trace ++ [Effect.configured row.id input]).length :=
        h.trace.trans (by simp)
      have hout : ∀ e : OutboxEvent, before.outbox.length ≤ (w.outbox ++ [e]).length :=
        fun _ => h.outbox.trans (by simp)
      have hevent : eventVersions initial.id
          (w.outbox.drop before.outbox.length ++ [{ event with id := w.clock }]) =
          eventVersions initial.id (w.outbox.drop before.outbox.length) ++
            if event.aggregateId = initial.id then [event.version] else [] :=
        eventVersions_concat initial.id (w.outbox.drop before.outbox.length) htype
      by_cases hsame : row.id = initial.id
      · -- the row that the edit read is still the current one
        have hread : w.agents.find? (·.id = row.id) = some row := hfresh
        have hcurrentEq : current = row := by
          rw [hsame, hcurrent] at hread
          exact Option.some.inj hread
        subst hcurrentEq
        refine ⟨⟨current.patch (updateRow current rules input), ?_, ?_⟩, hlength, hout _, ?_⟩
        · show (w.agents.map _).find? _ = _
          rw [find?_update, hcurrent, Option.map_some, if_pos rfl]
        · show Edited initial (committedEdits initial.id ((w.trace ++ _).drop _)) _
          rw [htrace, committedEdits_concat, if_pos hsame]
          exact hedited.edit hrules
        · show eventVersions initial.id ((w.outbox ++ _).drop _) =
            (List.range' _ (committedEdits initial.id ((w.trace ++ _).drop _)).length).map some
          rw [houtbox, hevent, htrace, committedEdits_concat,
            if_pos (haggregate.trans hsame), if_pos hsame, h.versions, List.length_append,
            List.length_singleton, List.range'_1_concat, List.map_append]
          show _ ++ [event.version] = _
          rw [hversion, hedited.version]
          show _ = _ ++ [some _]
          rw [Nat.add_right_comm]
      · have hother : ¬ event.aggregateId = initial.id := haggregate ▸ hsame
        refine ⟨⟨current, ?_, ?_⟩, hlength, hout _, ?_⟩
        · have hid : current.id = initial.id := by
            have hfound := List.find?_some hcurrent
            exact of_decide_eq_true hfound
          show (w.agents.map _).find? _ = _
          rw [find?_update, hcurrent, Option.map_some, if_neg fun heq => hsame (heq.symm.trans hid)]
        · show Edited initial (committedEdits initial.id ((w.trace ++ _).drop _)) _
          rw [htrace, committedEdits_concat, if_neg hsame, List.append_nil]
          exact hedited
        · show eventVersions initial.id ((w.outbox ++ _).drop _) =
            (List.range' _ (committedEdits initial.id ((w.trace ++ _).drop _)).length).map some
          rw [houtbox, hevent, htrace, committedEdits_concat,
            if_neg hother, if_neg hsame, List.append_nil, List.append_nil]
          exact h.versions
  | _ => exact hlaw.elim

end pool

/-- In every interleaving of any number of updates, of any agents by any principals: if each update
is committed to the row it read, the edits of an agent are all counted and none is lost. -/
theorem edits_kept {ι : Type} [DecidableEq ι] (ans : Answers) (w : World) (agentId : ι → Id)
    (input : ι → UpdateAgentConfigInput) (principal : ι → CommunityPrincipal) (sched : List ι)
    (initial : Agent) (hinitial : w.agents.find? (·.id = initial.id) = some initial)
    (hG : Pool.Guarded (exec ans) (fun w H i s => OnRowRead w (lastRead (H i)) s)
      (Pool.start w fun i => updateAgentConfig (agentId i) (input i) (principal i)) sched) :
    EditsKept w initial ((Pool.start w fun i =>
      updateAgentConfig (agentId i) (input i) (principal i)).play (exec ans) sched).world := by
  have hstart : EditedFrom w initial w := by
    refine ⟨⟨initial, hinitial, ?_⟩, le_rfl, le_rfl, ?_⟩
    · rw [List.drop_length]
      exact ⟨rfl, rfl, rfl, rfl, rfl, rfl⟩
    · rw [List.drop_length, List.drop_length]
      rfl
  have hplay := Tracked.play (J := fun w' _ => EditedFrom w initial w')
    (G := fun w M i s => OnRowRead w (M i) s)
    (fun i => updateAgentConfig_tracked (agentId i) (input i) (principal i)) hstart
    (fun _ _ _ _ h hlaw hfresh => editedFrom_step h hlaw hfresh) hG
  refine ⟨hplay.1.row, ?_⟩
  have hnodup : ∀ n, (List.range' (initial.version + 1) n).Nodup := fun _ => List.nodup_range'
  rw [hplay.1.versions]
  exact (hnodup _).map (Option.some_injective _)

/-! ### Two edits of one agent -/

/-- An agent as it is created. -/
def assistant : Agent where
  id := 1
  workspaceId := 1
  version := 1

def administrator : CommunityPrincipal where
  id := 5
  roleId := 6
  defaultWorkspaceId := 1
  orgNodeId := none

/-- The rule that messages wait for an approval. -/
def approvalRule : Json :=
  .arr
    [.obj
      [("operation", .str "send"), ("toolPattern", .str "message.send"), ("riskLevel", .str "L3"),
        ("action", .str "approve")]]

/-- One edit adds the rule, the other changes the prompt. -/
def twoEdits : Bool → UpdateAgentConfigInput
  | true => { sensitiveOps := some approvalRule }
  | false => { prompt := some "Be brief" }

/-- The world after the edits in the order of the schedule. -/
def editedBy (sched : List Bool) : World :=
  ((Pool.start (World.fresh [assistant] [] []) fun i =>
    updateAgentConfig 1 (twoEdits i) administrator).play
      (exec (Answers.smooth fun _ => 0)) sched).world

/-- One edit after the other loses nothing. -/
theorem edits_in_turn_kept :
    EditsKept (World.fresh [assistant] [] []) assistant
      (editedBy [true, true, true, false, false, false]) :=
  edits_kept (Answers.smooth fun _ => 0) (World.fresh [assistant] [] []) (fun _ => 1) twoEdits
    (fun _ => administrator) [true, true, true, false, false, false] assistant rfl
    ⟨trivial, rfl, trivial, trivial, rfl, trivial, trivial⟩

/-- Two edits that both read the row first: both are committed with version 2, and the rule that the
first one added is gone. -/
theorem edits_together_lost :
    ¬ EditsKept (World.fresh [assistant] [] []) assistant (editedBy [true, false, true, false]) ∧
      ((editedBy [true, false, true, false]).agents.map (·.guardrailRules.sensitiveOps)) = [none] := by
  have hversion : ((editedBy [true, false, true, false]).agents.find? (·.id = 1)).map (·.version) =
      some 2 := by decide +kernel
  have hedits : (committedEdits 1 (editedBy [true, false, true, false]).trace).length = 2 := by
    decide +kernel
  refine ⟨fun h => ?_, by decide +kernel⟩
  obtain ⟨row, hrow, hedited⟩ := h.row
  have hrowVersion : row.version = 1 + 2 := hedits ▸ hedited.version
  rw [show ((editedBy [true, false, true, false]).agents.find? (·.id = 1)) = some row from hrow,
    Option.map_some, hrowVersion] at hversion
  cases hversion

end NexusClaw.Community
