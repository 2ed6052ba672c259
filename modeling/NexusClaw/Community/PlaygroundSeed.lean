import NexusClaw.Community.AgentConfig
import NexusClaw.Community.DemoSeed
import NexusClaw.Community.Isolation

/-!
# The seed of a playground session

What `createSession` inserts of the agent of a session, what of an agent is policy, and the requests
of a visitor that leave it: an update is harmless where it names another agent, fails its checks or
gives nothing but what the seed has, and a creation where it fails its checks or its name is taken.
-/

namespace NexusClaw.Community
open Concurrent AgentRuntime
open Governance (Id)

/-! ## The seed -/

/-- The ids that `createSession` generates for a session, as far as the runtime reads them. -/
structure PlaygroundSession where
  workspaceId : Id
  roleId : Id
  userId : Id
  objectMetadataId : Id
  agentId : Id
  short : String

/-- `AGENT_PROMPT` -/
def agentPrompt : String :=
  "You are a governed demo digital employee. Look up the customer first, then draft the follow-up " ++
    "email and request human approval before sending."

/-- The rules that a session starts with. -/
def seedRules : GuardrailRules where
  allowedTools := [DemoSeed.toolLookup, DemoSeed.toolSendEmail]
  sensitiveOps :=
    some
      (.arr
        [.obj
          [("objectApiName", .str "*"), ("operation", .str "customer_lookup"),
            ("riskLevel", .str "L1"), ("action", .str "audit"),
            ("toolPattern", .str DemoSeed.toolLookup),
            ("description", .str "Read-only customer lookup — audited, allowed to proceed")],
          .obj
            [("objectApiName", .str "*"), ("operation", .str "send_followup_email"),
              ("riskLevel", .str "L3"), ("action", .str "approve"),
              ("toolPattern", .str DemoSeed.toolSendEmail),
              ("description", .str "Outbound follow-up email — requires human approval")]])

/-- The agent that `createSession` inserts. -/
def PlaygroundSession.agent (session : PlaygroundSession) : Agent where
  id := session.agentId
  workspaceId := session.workspaceId
  name := "Follow-up Assistant"
  apiName := "pg_followup_" ++ session.short
  version := 1
  prompt := some agentPrompt
  roleId := some session.roleId
  serviceUserId := some session.userId
  guardrailRules := seedRules

/-- What `createSession` inserts into the tables that the runtime reads. -/
def PlaygroundSession.create (session : PlaygroundSession) (w : World) : World :=
  { w with
    metadata := w.metadata ++
      [{ id := session.objectMetadataId
         workspaceId := session.workspaceId
         nameSingular := "Contact" }]
    grants := w.grants ++
      [{ roleId := session.roleId
         objectMetadataId := session.objectMetadataId
         canRead := true
         canCreate := true
         canEdit := true
         canDelete := true }]
    agents := w.agents ++ [session.agent] }

/-! ## The policy -/

/-- What of an agent is policy, as its columns give it back. -/
structure AgentPolicy where
  agentId : Id
  prompt : Option String
  roleId : Option Id
  serviceUserId : Option Id
  allowedTools : List String
  sensitiveOps : Option Json
  execution : ExecutionRules
  ruleIds : Option (List String)

def policyOf (agent : Agent) : AgentPolicy where
  agentId := agent.id
  prompt := agent.prompt
  roleId := agent.roleId
  serviceUserId := agent.serviceUserId
  allowedTools := agent.guardrailRules.allowedTools
  sensitiveOps := agent.guardrailRules.sensitiveOps.map Json.jsonb
  execution := agent.guardrailRules.execution
  ruleIds := agent.guardrailRules.ruleIds

/-- The policies of the agents of a workspace. -/
def policiesOf (w : World) (workspaceId : Id) : List AgentPolicy :=
  (w.agents.filter (·.workspaceId = workspaceId)).map policyOf

/-- The sessions of the registry: the one agent of each workspace is the one that was seeded. -/
def SessionsSeeded (sessions : List PlaygroundSession) (w : World) : Prop :=
  ∀ session ∈ sessions, w.agents.filter (·.workspaceId = session.workspaceId) = [session.agent]

/-- A session that is created beside others. -/
lemma SessionsSeeded.create {sessions : List PlaygroundSession} {w : World} (h : SessionsSeeded sessions w)
    {session : PlaygroundSession} (hnew : ∀ row ∈ w.agents, row.workspaceId ≠ session.workspaceId)
    (hothers : ∀ other ∈ sessions, other.workspaceId ≠ session.workspaceId) :
    SessionsSeeded (session :: sessions) (session.create w) := by
  have hagents : ∀ v, (session.create w).agents.filter (·.workspaceId = v) =
      w.agents.filter (·.workspaceId = v) ++ [session.agent].filter (·.workspaceId = v) :=
    fun v => List.filter_append ..
  refine List.forall_mem_cons.2 ⟨?_, fun other hother => ?_⟩
  · have hnone : w.agents.filter (·.workspaceId = session.workspaceId) = [] :=
      List.filter_eq_nil_iff.2 fun row hrow => by simpa using hnew row hrow
    rw [hagents, hnone, List.nil_append]
    exact List.filter_cons_of_pos (decide_eq_true rfl)
  · have hskip : [session.agent].filter (·.workspaceId = other.workspaceId) = [] :=
      List.filter_cons_of_neg fun heq =>
        hothers other hother (of_decide_eq_true heq).symm
    rw [hagents, hskip, List.append_nil]
    exact h other hother

/-! ## Requests that leave the policy -/

/-- The check of an input fails. -/
def InputRefused (input : UpdateAgentConfigInput) : Prop :=
  ∃ e, configure {} input = .error e

/-- An input that gives nothing but what the seed has; the seed has no `execution`. -/
structure AsSeeded (input : UpdateAgentConfigInput) : Prop where
  prompt : ∀ prompt ∈ input.prompt, prompt = agentPrompt
  allowedTools : ∀ tools ∈ input.allowedTools, tools = seedRules.allowedTools
  sensitiveOps : ∀ ops ∈ input.sensitiveOps, some ops.jsonb = seedRules.sensitiveOps.map Json.jsonb
  execution : input.execution = none

/-- A request of a visitor of the session that changes no policy: it is no mutation of an agent, or one
that is refused, or an update with what the seed has. -/
def Operation.Harmless (session : PlaygroundSession) : Operation → Prop
  | .request _ => True
  | .updateAgentConfig agentId input _ =>
    agentId ≠ session.agentId ∨ InputRefused input ∨ AsSeeded input
  | .createAgent input _ =>
    trim input.name = "" ∨ trim input.apiName = "" ∨ trim input.apiName = session.agent.apiName ∨
      InputRefused input.config

section configure
variable {rules rules' : GuardrailRules} {input : UpdateAgentConfigInput}

/-- Whether a constraint passes does not depend on the one before. -/
lemma resolveConstraint_base {value : Option Int} {base result : Option Rat} {least greatest : Int}
    {message : String} (h : resolveConstraint value base least greatest message = .ok result)
    (base' : Option Rat) :
    ∃ result', resolveConstraint value base' least greatest message = .ok result' := by
  cases value with
  | none => exact ⟨base', rfl⟩
  | some n =>
    unfold resolveConstraint at h ⊢
    dsimp only at h ⊢
    split_ifs at h ⊢
    exact ⟨_, rfl⟩

/-- Whether an input passes its checks does not depend on the rules before. -/
lemma configure_base (h : configure rules input = .ok rules') (base : GuardrailRules) :
    ∃ rules', configure base input = .ok rules' := by
  unfold configure at h ⊢
  obtain ⟨allowedTools, htools, h⟩ := except_bind_ok h
  obtain ⟨sensitiveOps, hops, h⟩ := except_bind_ok h
  obtain ⟨execution, hexecution, -⟩ := except_bind_ok h
  have htools' : ∃ r, resolve input.allowedTools base.allowedTools validateAllowedTools = .ok r := by
    rcases resolve_ok htools with ⟨hnone, -⟩ | ⟨tools, hsome, hcheck⟩
    · exact ⟨_, by rw [hnone]; rfl⟩
    · exact ⟨_, by rw [hsome]; exact hcheck⟩
  have hops' : ∃ r, (resolve input.sensitiveOps base.sensitiveOps fun rows => do
      validateSensitiveOps rows
      .ok (some rows)) = .ok r := by
    rcases resolve_ok hops with ⟨hnone, -⟩ | ⟨rows, hsome, hcheck⟩
    · exact ⟨_, by rw [hnone]; rfl⟩
    · exact ⟨_, by rw [hsome]; exact hcheck⟩
  have hexecution' : ∃ r, (resolve input.execution base.execution fun execution =>
      resolveExecutionConstraints execution base.execution) = .ok r := by
    rcases resolve_ok hexecution with ⟨hnone, -⟩ | ⟨given, hsome, hcheck⟩
    · exact ⟨_, by rw [hnone]; rfl⟩
    · unfold resolveExecutionConstraints at hcheck
      obtain ⟨steps, hsteps, hcheck⟩ := except_bind_ok hcheck
      obtain ⟨timeout, htimeout, -⟩ := except_bind_ok hcheck
      obtain ⟨steps', hsteps'⟩ := resolveConstraint_base hsteps base.execution.maxReActIterations
      obtain ⟨timeout', htimeout'⟩ := resolveConstraint_base htimeout base.execution.timeoutMs
      refine ⟨{ maxReActIterations := steps', timeoutMs := timeout' }, ?_⟩
      rw [hsome]
      unfold resolve resolveExecutionConstraints
      dsimp only
      rw [hsteps', htimeout']
      rfl
  obtain ⟨_, htools'⟩ := htools'
  obtain ⟨_, hops'⟩ := hops'
  obtain ⟨_, hexecution'⟩ := hexecution'
  rw [htools', hops', hexecution']
  exact ⟨_, rfl⟩

/-- So an input that is refused is refused by every agent. -/
lemma InputRefused.not_ok (h : InputRefused input) : configure rules input ≠ .ok rules' := by
  obtain ⟨e, he⟩ := h
  intro hok
  obtain ⟨r, hr⟩ := configure_base hok {}
  rw [he] at hr
  cases hr

/-- The bound rules stay. -/
lemma configure_ruleIds (h : configure rules input = .ok rules') : rules'.ruleIds = rules.ruleIds := by
  unfold configure at h
  obtain ⟨_, _, h⟩ := except_bind_ok h
  obtain ⟨_, _, h⟩ := except_bind_ok h
  obtain ⟨_, _, h⟩ := except_bind_ok h
  cases h
  rfl

/-- An update with what the seed has, of a row with the seeded policy. -/
lemma AsSeeded.policy {session : PlaygroundSession} {row found : Agent} (h : AsSeeded input)
    (hrow : policyOf row = policyOf session.agent)
    (hfound : policyOf found = policyOf session.agent)
    (hrules : configure found.guardrailRules input = .ok rules) :
    policyOf (row.patch (updateRow found rules input)) = policyOf session.agent := by
  obtain ⟨htools, hops, hsteps, htimeout⟩ := configure_ok hrules
  have hids := configure_ruleIds hrules
  -- each column is the one given, which is the seed's, or the one that was read, which is too
  have hprompt : (row.patch (updateRow found rules input)).prompt = some agentPrompt := by
    show (input.prompt.orElse fun _ => row.prompt) = _
    cases hp : input.prompt with
    | none => exact congrArg AgentPolicy.prompt hrow
    | some prompt => exact congrArg some (h.prompt prompt hp)
  have htools' : rules.allowedTools = seedRules.allowedTools := by
    rw [htools]
    cases ht : input.allowedTools with
    | none => exact congrArg AgentPolicy.allowedTools hfound
    | some tools => exact h.allowedTools tools ht
  have hops' : rules.sensitiveOps.map Json.jsonb = seedRules.sensitiveOps.map Json.jsonb := by
    rw [hops]
    cases ho : input.sensitiveOps with
    | none => exact congrArg AgentPolicy.sensitiveOps hfound
    | some ops => exact h.sensitiveOps ops ho
  have hexecution : rules.execution = seedRules.execution := by
    rw [h.execution] at hsteps htimeout
    have hbefore := congrArg AgentPolicy.execution hfound
    have heq : ∀ execution : ExecutionRules,
        execution.maxReActIterations = found.guardrailRules.execution.maxReActIterations →
        execution.timeoutMs = found.guardrailRules.execution.timeoutMs →
        execution = found.guardrailRules.execution := by
      rintro ⟨_, _⟩ rfl rfl
      rfl
    exact (heq _ hsteps htimeout).trans hbefore
  have hid := congrArg AgentPolicy.agentId hrow
  have hrole := congrArg AgentPolicy.roleId hrow
  have huser := congrArg AgentPolicy.serviceUserId hrow
  have hids' : rules.ruleIds = seedRules.ruleIds := hids.trans (congrArg AgentPolicy.ruleIds hfound)
  unfold policyOf
  congr 1

end configure

end NexusClaw.Community
