import Mathlib.Data.Fintype.Fin
import Mathlib.Tactic.FinCases
import NexusClaw.Community.AgentLookups
import NexusClaw.Community.PlaygroundSeed

/-!
# The policy of a playground session

A visitor of a session is an ordinary principal of its workspace, and the resolver asks the registry
of the sessions for limits only. So the policy of the session's agent stays as it was seeded as long
as the visitors make harmless requests; whatever they ask for, nobody reads or writes a row of another
workspace.
-/

namespace NexusClaw.Community
open Concurrent AgentRuntime
open Governance (Id)

/-! ## What the queries read -/

/-- A read of the queries of the resolver, of which `communityAgents` makes three and
`communityModelSource` none; every agent that an operation inserts is active. -/
inductive QueryRead where
  | execution (id : Id)
  | activeAgents
  | executionsOf (agentIds : List Id)
  | approvals
  | executions
  | pendingApprovals
  | executionEvents (executionId : Id)
  | recentEvents
  | decidedApprovals

/-- A row of one of the tables. -/
inductive ReadRow where
  | agent (row : Agent)
  | execution (row : AgentExecution)
  | approval (row : ApprovalInstance)
  | step (row : ReactStep)
  | toolCall (row : ToolCallRecord)
  | event (row : OutboxEvent)

/-- The rows that the `where` and the `relations` of a read select in a workspace; `order` and `take`
choose among these. -/
def QueryRead.Selects (w : World) (workspaceId : Id) : QueryRead → ReadRow → Prop
  | .execution id, .execution row => w.executions id = some row ∧ row.workspaceId = workspaceId
  | .execution id, .step row => w.ExecutionOf workspaceId id ∧ row ∈ w.steps ∧ row.executionId = id
  | .execution id, .toolCall row =>
    w.ExecutionOf workspaceId id ∧ row ∈ w.toolCalls ∧ row.executionId = id
  | .activeAgents, .agent row => row ∈ w.agents ∧ row.workspaceId = workspaceId
  | .executionsOf agentIds, .execution row =>
    w.executions row.id = some row ∧ row.workspaceId = workspaceId ∧ row.agentId ∈ agentIds
  | .approvals, .approval row =>
    w.approvals row.id = some row ∧ row.workspaceId = workspaceId ∧
      row.objectName = "AgentExecution"
  | .executions, .execution row =>
    w.executions row.id = some row ∧ row.workspaceId = workspaceId
  | .pendingApprovals, .approval row =>
    w.approvals row.id = some row ∧ row.workspaceId = workspaceId ∧ row.status = .pending ∧
      row.objectName = "AgentExecution"
  | .executionEvents executionId, .event row =>
    row ∈ w.outbox ∧ row.workspaceId = workspaceId ∧ row.aggregateId = executionId
  | .recentEvents, .event row => row ∈ w.outbox ∧ row.workspaceId = workspaceId
  | .decidedApprovals, .approval row =>
    w.approvals row.id = some row ∧ row.workspaceId = workspaceId ∧
      (row.status = .approved ∨ row.status = .rejected) ∧ row.objectName = "AgentExecution"
  | _, _ => False

/-- The row is one of the workspace; a step and a record are of the workspace of their execution. -/
def ReadRow.Of (w : World) (workspaceId : Id) : ReadRow → Prop
  | .agent row => row.workspaceId = workspaceId
  | .execution row => row.workspaceId = workspaceId
  | .approval row => row.workspaceId = workspaceId
  | .step row => w.ExecutionOf workspaceId row.executionId
  | .toolCall row => w.ExecutionOf workspaceId row.executionId
  | .event row => row.workspaceId = workspaceId

/-- A query reads rows of its workspace. -/
lemma QueryRead.Selects.of {w : World} {workspaceId : Id} {find : QueryRead} {row : ReadRow}
    (h : find.Selects w workspaceId row) : row.Of w workspaceId := by
  cases find with
  | execution id =>
    cases row with
    | execution row => exact h.2
    | step row | toolCall row =>
      obtain ⟨hof, -, rfl⟩ := h
      exact hof
    | _ => exact h.elim
  | _ =>
    cases row <;> first
      | exact h.elim
      | exact h.2
      | exact h.2.1

/-! ## The invariant -/

/-- The row is the agent of the session, but for its version. -/
structure SeededAgent (session : PlaygroundSession) (row : Agent) : Prop where
  policy : policyOf row = policyOf session.agent
  workspaceId : row.workspaceId = session.workspaceId
  apiName : row.apiName = session.agent.apiName

/-- The session has its one agent. -/
def HasItsAgent (session : PlaygroundSession) (w : World) : Prop :=
  ∃ row, w.agents.filter (·.workspaceId = session.workspaceId) = [row] ∧ SeededAgent session row

/-- What an operation of the session has looked up: the agent of the session, and no free name that is
this agent's; its contexts are for the role of the session. -/
structure Desk.Of (session : PlaygroundSession) (hand : Hand) (m : Desk) : Prop where
  found : ∀ entry ∈ m.found, entry.1 = session.agentId ∧ SeededAgent session entry.2
  free : ∀ entry ∈ m.free, entry.1 = session.workspaceId → entry.2 ≠ session.agent.apiName
  contexts : ∀ c ∈ hand.contexts, c.security.roleId = session.roleId

section agent
variable {session : PlaygroundSession} {w w' : World} {row : Agent}

/-- An agent of the session's workspace is the one of the session. -/
lemma HasItsAgent.seeded (h : HasItsAgent session w) (hrow : row ∈ w.agents)
    (hws : row.workspaceId = session.workspaceId) : SeededAgent session row := by
  obtain ⟨only, heq, hseeded⟩ := h
  have hmem : row ∈ w.agents.filter (·.workspaceId = session.workspaceId) :=
    List.mem_filter.2 ⟨hrow, decide_eq_true hws⟩
  rw [heq, List.mem_singleton] at hmem
  exact hmem ▸ hseeded

/-- The name of the session's agent is taken. -/
lemma HasItsAgent.taken (h : HasItsAgent session w) {apiName : String}
    (hfind : (w.agents.find? fun row =>
      row.workspaceId = session.workspaceId && row.apiName = apiName) = none) :
    apiName ≠ session.agent.apiName := by
  rintro rfl
  obtain ⟨only, heq, hseeded⟩ := h
  have hmem : only ∈ w.agents.filter (·.workspaceId = session.workspaceId) :=
    heq ▸ List.mem_singleton_self only
  refine List.find?_eq_none.1 hfind only (List.mem_filter.1 hmem).1 ?_
  simp [hseeded.workspaceId, hseeded.apiName]

/-- A statement that leaves the agents of the workspace. -/
lemma HasItsAgent.of_agents (h : HasItsAgent session w)
    (heq : w'.agents.filter (·.workspaceId = session.workspaceId) =
      w.agents.filter (·.workspaceId = session.workspaceId)) : HasItsAgent session w' := by
  obtain ⟨only, honly, hseeded⟩ := h
  exact ⟨only, heq.trans honly, hseeded⟩

/-- A context for the agent of the session has the role of the session. -/
lemma SeededAgent.role (h : SeededAgent session row) {workspaceId executionId : Id} {caller : Option Caller}
    {grants : List ObjectGrant} {metadata : List ObjectMetadata} {context : ExecutionContext}
    (hbuilt : buildContext row workspaceId executionId caller grants metadata = .ok context) :
    context.security.roleId = session.roleId := by
  have hidentity : row.identity = some (session.userId, session.roleId) := by
    unfold Agent.identity
    rw [show row.serviceUserId = some session.userId from congrArg AgentPolicy.serviceUserId h.policy,
      show row.roleId = some session.roleId from congrArg AgentPolicy.roleId h.policy]
  unfold buildContext at hbuilt
  split_ifs at hbuilt
  rw [hidentity] at hbuilt
  cases hbuilt
  rfl

end agent

section steps
variable {ι : Type} [DecidableEq ι] {ops : ι → Operation} {w : World} {M : ι → Hand × Desk}
  {sessions : List PlaygroundSession} {session : PlaygroundSession}

/-- An update of the agents maps the rows of a workspace. -/
lemma filter_map_workspace (agents : List Agent) (id : Id) (patch : AgentPatch) (v : Id) :
    (agents.map fun row => if row.id = id then row.patch patch else row).filter
        (·.workspaceId = v) =
      (agents.filter (·.workspaceId = v)).map fun row =>
        if row.id = id then row.patch patch else row := by
  rw [List.filter_map]
  congr 1
  refine List.filter_congr fun row _ => ?_
  dsimp only [Function.comp]
  split_ifs <;> rfl

/-- What a statement of a harmless operation does to the agents of its session. -/
lemma agent_effect {op : Operation} {hand : Hand} {m : Desk} {s : Stmt} {a : s.Out}
    (h : HasItsAgent session w) (hws : op.workspaceId = session.workspaceId)
    (hharmless : op.Harmless session) (hdesk : m.Of session hand) (hlaw : m.Allows op s) :
    HasItsAgent session (effect s a w).tick := by
  cases s with
  | updateAgent id patch event input =>
    obtain ⟨agentId, input', principal, found, rules, rfl, hfound, rfl, hrules, rfl⟩ := hlaw
    obtain ⟨hid, hseeded⟩ := hdesk.found _ hfound
    obtain ⟨only, honly, hold⟩ := h
    rcases hharmless with hother | hrefused | hsame
    · exact absurd hid hother
    · exact absurd hrules hrefused.not_ok
    · refine ⟨if only.id = found.id then only.patch (updateRow found rules input') else only,
        ?_, ?_⟩
      · refine (filter_map_workspace ..).trans ?_
        rw [honly]
        rfl
      · split_ifs
        · exact ⟨hsame.policy hold.policy hseeded.policy hrules, hold.workspaceId, hold.apiName⟩
        · exact hold
  | createAgent row event =>
    obtain ⟨input, principal, base, rules, rfl, hname, hapiName, hfree, hrules⟩ := hlaw
    have hother := hdesk.free _ hfree hws
    rcases hharmless with h' | h' | h' | h'
    · exact absurd h' hname
    · exact absurd h' hapiName
    · exact absurd h' hother
    · exact absurd hrules h'.not_ok
  | _ => exact h

/-- What it looks up is its session's. -/
lemma desk_effect {hand : Hand} {m : Desk} {s : Stmt} {a : s.Out} {ans : Answers}
    (h : HasItsAgent session w) (hsound : w.Sound) (hown : hand.Own session.workspaceId w)
    (hdesk : m.Of session hand) (hhand : hand.Allows session.workspaceId s) {op : Operation}
    (hlaw : m.Allows op s) (hr : reply ans s w = .ok a) :
    (m.note s (.ok a)).Of session (hand.note s (.ok a)) := by
  cases s with
  | findAgent id ws =>
    cases a with
    | none => exact ⟨hdesk.found, hdesk.free, hdesk.contexts⟩
    | some row =>
      have hfind := Except.ok.inj hr
      obtain ⟨hid, hrowWs, -⟩ := find_agent hsound hown hhand hfind
      have hseeded := h.seeded (List.mem_of_find?_eq_some hfind) hrowWs
      have hagent : id = session.agentId :=
        hid.symm.trans (congrArg AgentPolicy.agentId hseeded.policy)
      exact ⟨List.forall_mem_cons.2 ⟨⟨hagent, hseeded⟩, hdesk.found⟩, hdesk.free, hdesk.contexts⟩
  | findAgentNamed ws apiName =>
    cases a with
    | none =>
      have hfind := Except.ok.inj hr
      have hentry : ws = session.workspaceId → apiName ≠ session.agent.apiName := by
        rintro rfl
        exact h.taken hfind
      exact ⟨hdesk.found, List.forall_mem_cons.2 ⟨hentry, hdesk.free⟩, hdesk.contexts⟩
    | some row => exact ⟨hdesk.found, hdesk.free, hdesk.contexts⟩
  | buildContext agent ws id caller =>
    obtain ⟨agentId, hfound⟩ := hlaw
    have hrole := (hdesk.found _ hfound).2.role hr
    exact ⟨hdesk.found, hdesk.free, List.forall_mem_cons.2 ⟨hrole, hdesk.contexts⟩⟩
  | findExecution id ws => cases a <;> exact ⟨hdesk.found, hdesk.free, hdesk.contexts⟩
  | findApproval id ws => cases a <;> exact ⟨hdesk.found, hdesk.free, hdesk.contexts⟩
  | _ => exact ⟨hdesk.found, hdesk.free, hdesk.contexts⟩

/-- A statement that throws looks up nothing. -/
lemma desk_error {hand : Hand} {m : Desk} {s : Stmt} (hdesk : m.Of session hand) (e : String) :
    (m.note s (.error e)).Of session (hand.note s (.error e)) := by
  cases s <;> exact ⟨hdesk.found, hdesk.free, hdesk.contexts⟩

/-- The invariant: the workspaces are apart, every session has its one agent, and every operation of a
session has looked up this agent only. -/
structure Sheltered (sessions : List PlaygroundSession) (ops : ι → Operation) (w : World)
    (M : ι → Hand × Desk) : Prop where
  apart : Apart ops w fun i => (M i).1
  agents : ∀ session ∈ sessions, HasItsAgent session w
  desks : ∀ session ∈ sessions, ∀ i, (ops i).workspaceId = session.workspaceId →
    (M i).2.Of session (M i).1

/-- What one step preserves. -/
lemma Sheltered.step (ans : Answers) (h : Sheltered sessions ops w M) {i : ι} {s : Stmt}
    (hharmless : ∀ session ∈ sessions, (ops i).workspaceId = session.workspaceId →
      (ops i).Harmless session)
    (hlaw : (M i).1.Allows (ops i).workspaceId s ∧ (M i).2.Allows (ops i) s) :
    Sheltered sessions ops (exec ans s w).1
      (Function.update M i (sideBySide Hand.note Desk.note (M i) s (exec ans s w).2)) := by
  have hupdate : (fun j => (Function.update M i
      (sideBySide Hand.note Desk.note (M i) s (exec ans s w).2) j).1) =
      Function.update (fun j => (M j).1) i ((M i).1.note s (exec ans s w).2) := by
    funext j
    by_cases hj : j = i
    · subst hj
      rw [Function.update_self, Function.update_self]
      rfl
    · rw [Function.update_of_ne hj, Function.update_of_ne hj]
  have hmoves := (exec_lawful ans h.apart.sound (h.apart.own i) hlaw.1).1
  refine ⟨hupdate ▸ h.apart.step ans hlaw.1, fun session hsession => ?_,
    fun session hsession j hj => ?_⟩
  · by_cases hws : (ops i).workspaceId = session.workspaceId
    · rcases exec_cases ans s w with ⟨e, he⟩ | ⟨a, -, ha⟩
      · rw [he]
        exact h.agents session hsession
      · rw [ha]
        exact agent_effect (h.agents session hsession) hws (hharmless session hsession hws)
          (h.desks session hsession i hws) hlaw.2
    -- a step of another workspace leaves the agents of this one
    · exact (h.agents session hsession).of_agents (hmoves.otherAgents _ fun heq => hws heq.symm)
  · by_cases hji : j = i
    · subst hji
      rw [Function.update_self]
      have hdesk := h.desks session hsession j hj
      rcases exec_cases ans s w with ⟨e, he⟩ | ⟨a, hr, ha⟩
      · rw [he]
        exact desk_error hdesk e
      · rw [ha]
        exact desk_effect (h.agents session hsession) h.apart.sound (hj ▸ h.apart.own j) hdesk
          (hj ▸ hlaw.1) hlaw.2 hr
    · rw [Function.update_of_ne hji]
      exact h.desks session hsession j hj

/-- What a whole run preserves. -/
lemma sheltered_play (cfg : Config) (ans : Answers) (hsound : w.Sound)
    (hseeded : SessionsSeeded sessions w)
    (hharmless : ∀ i, ∀ session ∈ sessions, (ops i).workspaceId = session.workspaceId →
      (ops i).Harmless session) (sched : List ι) :
    let c := (Pool.start w fun i => (ops i).serve cfg).play (exec ans) sched
    Sheltered sessions ops c.world fun i =>
      bookkeeping (sideBySide Hand.note Desk.note) ({}, {}) (c.seen i) := by
  have hstart : Sheltered sessions ops w fun _ => ({}, {}) :=
    { apart := apart_start hsound
      agents := fun session hsession => ⟨session.agent, hseeded session hsession, rfl, rfl, rfl⟩
      desks := fun _ _ _ _ =>
        ⟨List.forall_mem_nil _, List.forall_mem_nil _, List.forall_mem_nil _⟩ }
  exact (Tracked.play (J := Sheltered sessions ops) (G := fun _ _ _ _ => True)
    (fun i => Tracked.both (serve_keeps (ops i)) serve_prudent) hstart
    (fun _ _ i _ h hlaw _ => h.step ans (hharmless i) hlaw)
    (Pool.guarded_of_forall (exec ans) (fun _ _ _ _ => trivial) _ sched)).1

end steps

/-! ## The policy stays -/

/-- The policies of the sessions are the seeded ones, and what the operations and the queries of a
session read is of its workspace and its role. -/
structure PolicyKept {ι : Type} (sessions : List PlaygroundSession) (ops : ι → Operation)
    (c : Pool Stmt Stmt.Resp String Outcome World ι) : Prop where
  policies : ∀ session ∈ sessions,
    policiesOf c.world session.workspaceId = [policyOf session.agent]
  reads : ∀ i, (handOf (c.seen i)).Own (ops i).workspaceId c.world
  roles : ∀ session ∈ sessions, ∀ i, (ops i).workspaceId = session.workspaceId →
    ∀ context ∈ (handOf (c.seen i)).contexts, context.security.roleId = session.roleId
  queries : ∀ session ∈ sessions, ∀ find row, QueryRead.Selects c.world session.workspaceId find row →
    row.Of c.world session.workspaceId

/-- In every interleaving of operations in which the visitors of the sessions make harmless ones only,
whatever other principals do: the policies stay as they were seeded, and nobody reads or writes a row
of another workspace. -/
theorem playground_policy_kept {ι : Type} [DecidableEq ι] (cfg : Config) (ans : Answers) (w : World)
    (sessions : List PlaygroundSession) (hsound : w.Sound) (hseeded : SessionsSeeded sessions w)
    (ops : ι → Operation)
    (hharmless : ∀ i, ∀ session ∈ sessions, (ops i).workspaceId = session.workspaceId →
      (ops i).Harmless session) (sched : List ι) :
    let start : Pool Stmt Stmt.Resp String Outcome World ι :=
      Pool.start w fun i => (ops i).serve cfg
    PolicyKept sessions ops (start.play (exec ans) sched) ∧
      ∀ i u, u ≠ (ops i).workspaceId →
        (start.play (exec ans) (sched ++ [i])).world.share u =
          (start.play (exec ans) sched).world.share u := by
  intro start
  have hsheltered := sheltered_play (w := w) cfg ans hsound hseeded hharmless sched
  dsimp only at hsheltered
  refine ⟨⟨fun session hsession => ?_, (apart_play cfg ans ops hsound sched).own,
    fun session hsession i hi context hcontext => ?_, fun session _ find row h => h.of⟩,
    fun i u hu => share_play cfg ans ops hsound sched hu⟩
  · obtain ⟨row, hrow, hrowSeeded⟩ := hsheltered.agents session hsession
    unfold policiesOf
    rw [hrow, List.map_singleton, hrowSeeded.policy]
  · have hdesk := hsheltered.desks session hsession i hi
    rw [bookkeeping_sideBySide] at hdesk
    exact hdesk.contexts context hcontext

/-! ### Two sessions side by side -/

def sessionOne : PlaygroundSession where
  workspaceId := 1
  roleId := 2
  userId := 3
  objectMetadataId := 4
  agentId := 5
  short := "0a1b2c3d4e"

def sessionTwo : PlaygroundSession where
  workspaceId := 6
  roleId := 7
  userId := 8
  objectMetadataId := 9
  agentId := 10
  short := "5f6a7b8c9d"

/-- The visitor of a session. -/
def PlaygroundSession.visitor (session : PlaygroundSession) : CommunityPrincipal where
  id := session.userId
  roleId := session.roleId
  defaultWorkspaceId := session.workspaceId
  orgNodeId := none

/-- The run of the first session that waits for the approval of the email. -/
def waitingRun : AgentExecution where
  id := 11
  workspaceId := 1
  agentId := 5
  triggerSource := "community_api"
  triggeredBy := some 3
  triggerPayload := none
  rawInput := "Follow up"
  status := .guardrailPending

/-- The approval it waits for. -/
def emailApproval : ApprovalInstance where
  id := 12
  workspaceId := 1
  recordId := 11
  objectName := "AgentExecution"
  status := .pending
  currentStepIndex := 0
  history :=
    [{ stepIndex := 0
       action := .submitted
       actorId := none
       comments := some ("__pausedToolCall__:\x7b\"toolName\":\"demo.send_followup_email\"," ++
         "\"toolInput\":\x7b\x7d,\"riskLevel\":\"L3\"\x7d") }]
  request :=
    { workspaceId := 1
      agentExecutionId := 11
      toolName := DemoSeed.toolSendEmail
      toolInput := .empty
      riskLevel := "L3"
      description := "Outbound follow-up email — requires human approval"
      call := 0 }

/-- A deployment with the two sessions, in the first of which an email waits. -/
def twoSessions : World :=
  { sessionTwo.create (sessionOne.create (World.fresh [] [] [])) with
    clock := 13
    executions := fun id => if id = 11 then some waitingRun else none
    approvals := fun id => if id = 12 then some emailApproval else none }

/-- The tool that sends the email. -/
def emailTool : AgentTool where
  name := DemoSeed.toolSendEmail
  category := "external"
  inputSchema := .empty
  objectApiName := none
  operation := none
  riskLevel := "L2"
  preparesApproval := false
  riskLevel_mem := List.mem_cons_of_mem _ (List.mem_cons_of_mem _ List.mem_cons_self)

/-- The first visitor approves the email, has the agent greet and saves the prompt that the agent has;
the second one tries the agent of the first and a name that is taken. -/
def visits : Fin 5 → Operation
  | 0 => .request (.decideApproval 12 "APPROVED" none sessionOne.visitor)
  | 1 => .request (.executeAgent 5 "Greet me" sessionOne.visitor)
  | 2 => .updateAgentConfig 5 { prompt := some agentPrompt } sessionOne.visitor
  | 3 => .updateAgentConfig 5 { sensitiveOps := some (.arr []) } sessionTwo.visitor
  | 4 => .createAgent { name := "Clerk", apiName := " pg_followup_5f6a7b8c9d ", config := {} }
      sessionTwo.visitor

def visiting (visits : Fin 5 → Operation) (sched : List (Fin 5)) :
    Pool Stmt Stmt.Resp String Outcome World (Fin 5) :=
  (Pool.start twoSessions fun i =>
    (visits i).serve { Config.small greeting with tools := [emailTool] }).play
      (exec (Answers.smooth fun _ => 0)) sched

/-- The update reads before the email is approved and writes after it was sent. -/
def visitOrder : List (Fin 5) :=
  [0, 1, 2, 3, 1] ++ List.replicate 12 0 ++ [2, 2, 4] ++ List.replicate 20 0 ++ List.replicate 20 1

/-- Both sessions keep their policy and the first never shows in the second, while the email is sent
once and the first agent gets its second version. -/
theorem visits_keep_policy :
    PolicyKept [sessionOne, sessionTwo] visits (visiting visits visitOrder) ∧
      (visiting visits (visitOrder ++ [1])).world.share 6 =
        (visiting visits visitOrder).world.share 6 ∧
      (handOf ((visiting visits visitOrder).seen 0)).ran.length = 1 ∧
      (visiting visits visitOrder).world.agents.map (·.version) = [2, 1] := by
  have hsound : twoSessions.Sound :=
    { executions := by
        intro id row h
        obtain ⟨rfl, hrow⟩ := Option.ite_none_right_eq_some.1 h
        cases hrow
        exact ⟨rfl, by decide, by decide, by decide⟩
      approvals := by
        intro id row h
        obtain ⟨rfl, hrow⟩ := Option.ite_none_right_eq_some.1 h
        cases hrow
        exact ⟨rfl, by decide⟩
      agents := by decide
      agentIds := by decide
      toolCalls := List.forall_mem_nil _ }
  have hseeded : SessionsSeeded [sessionOne, sessionTwo] twoSessions :=
    List.forall_mem_cons.2 ⟨rfl, List.forall_mem_singleton.2 rfl⟩
  have hharmless : ∀ i, ∀ session ∈ [sessionOne, sessionTwo],
      (visits i).workspaceId = session.workspaceId → (visits i).Harmless session := by
    intro i session hsession hws
    rcases List.mem_cons.1 hsession with rfl | hsession
    · fin_cases i
      · trivial
      · trivial
      · exact .inr (.inr ⟨fun _ h => (Option.some.inj h).symm, fun _ h => (by cases h),
          fun _ h => (by cases h), rfl⟩)
      · exact absurd hws (by decide)
      · exact absurd hws (by decide)
    · obtain rfl := List.mem_singleton.1 hsession
      fin_cases i
      · trivial
      · trivial
      · exact absurd hws (by decide)
      · exact .inl (by decide)
      · exact .inr (.inr (.inl (by decide +kernel)))
  have hkept := playground_policy_kept { Config.small greeting with tools := [emailTool] }
    (Answers.smooth fun _ => 0) twoSessions [sessionOne, sessionTwo] hsound hseeded visits hharmless
    visitOrder
  exact ⟨hkept.1, hkept.2 1 6 (by decide), by decide +kernel, by decide +kernel⟩

/-- A visitor takes the approval of the email out of the rules of its agent, and another one adds an
agent. -/
theorem visitor_changes_policy :
    policiesOf (visiting (fun _ => .updateAgentConfig 5 { sensitiveOps := some (.arr []) }
        sessionOne.visitor) [0, 0, 0]).world 1 ≠ [policyOf sessionOne.agent] ∧
      (policiesOf (visiting (fun _ => .createAgent
        { name := "Clerk", apiName := "clerk", config := {} } sessionTwo.visitor)
          [0, 0]).world 6).length = 2 := by
  refine ⟨fun h => ?_, by decide +kernel⟩
  have hrules : (policiesOf (visiting (fun _ => .updateAgentConfig 5
      { sensitiveOps := some (.arr []) } sessionOne.visitor) [0, 0, 0]).world 1).map
        (·.sensitiveOps) = [some (.arr [])] := by decide +kernel
  rw [h] at hrules
  revert hrules
  decide +kernel

end NexusClaw.Community
