import NexusClaw.Community.Isolation

/-!
# What a mutation rests on

The agents that an operation has looked up and the names that it has found free, and the law that
every operation obeys: an agent is changed only as it was found, one is created only under a name that
was found free, and a run builds its context for the agent that it found.
-/

namespace NexusClaw.Community
open Concurrent AgentRuntime
open Governance (Id)

/-- The agents that an operation has found, with the ids it asked for, and the names it found free. -/
structure Desk where
  found : List (Id × Agent) := []
  free : List (Id × String) := []

/-- What a statement adds. -/
def Desk.note (m : Desk) : (s : Stmt) → s.Resp → Desk
  | .findAgent id _, .ok (some row) => { m with found := (id, row) :: m.found }
  | .findAgentNamed workspaceId apiName, .ok none =>
    { m with free := (workspaceId, apiName) :: m.free }
  | _, _ => m

/-- An agent is changed, created or acted for only after it, or its name, was looked up. -/
def Desk.Allows (op : Operation) (m : Desk) : Stmt → Prop
  | .buildContext agent _ _ _ => ∃ id, (id, agent) ∈ m.found
  | .updateAgent id patch _ _ =>
    ∃ agentId input principal row rules, op = .updateAgentConfig agentId input principal ∧
      (agentId, row) ∈ m.found ∧ id = row.id ∧
      configure row.guardrailRules input = .ok rules ∧ patch = updateRow row rules input
  | .createAgent _ _ =>
    ∃ input principal base rules, op = .createAgent input principal ∧ trim input.name ≠ "" ∧
      trim input.apiName ≠ "" ∧ (principal.defaultWorkspaceId, trim input.apiName) ∈ m.free ∧
      configure base input.config = .ok rules
  | _ => True

/-- A program that obeys this law, whatever it ends with. -/
abbrev Prudent {α : Type} (op : Operation) (m : Desk) (p : Act α) : Prop :=
  Tracked Desk.note (Desk.Allows op) (fun _ _ => True) m p

/-- A statement that neither reads nor writes an agent. -/
def Stmt.Aside : Stmt → Prop
  | .buildContext _ _ _ _ => False
  | .updateAgent _ _ _ _ => False
  | .createAgent _ _ => False
  | _ => True

section prudent
variable {cfg : Config} {op : Operation} {m : Desk} {principal : CommunityPrincipal}

/-- A stretch that leaves the agents alone. -/
lemma careful_of_uses {α : Type} {p : Act α} (h : p.Uses Stmt.Aside) : Prudent op m p := by
  refine Tracked.of_uses (J := fun _ => True) h trivial (fun m s hs _ => ?_)
    (fun _ _ _ _ _ => trivial) fun _ _ _ => trivial
  cases s <;> first | exact hs.elim | trivial

/-- The loop leaves them alone. -/
lemma ofLoop_aside {execution : AgentExecution} {s : Stmt} (h : s.OfLoop execution) :
    Stmt.Aside s := by
  cases s <;> first | exact h.elim | trivial

/-- What follows the context of a run leaves them alone. -/
lemma afterContext_aside {execution : AgentExecution} {resume : Option ResumeContext}
    {context : ExecutionContext} {agent : Agent} {tier : Option Nat} :
    (do
      bindPrincipal execution context
      let initialSteps ← resumedSteps cfg execution context resume
      let prompt ← effectivePrompt agent execution.rawInput
      let s ← runReActLoop cfg execution context prompt tier initialSteps
      closeOut cfg execution s : Act ExecutionResult).Uses Stmt.Aside := by
  have hprincipal : (bindPrincipal execution context).Uses Stmt.Aside := by
    unfold bindPrincipal
    cases context.dataAccessContext with
    | none => trivial
    | some dac => exact await_uses trivial
  have hresumed : (resumedSteps cfg execution context resume).Uses Stmt.Aside := by
    cases resume with
    | none => trivial
    | some resume =>
      have hsteps : (rebuildHistorySteps execution.id).Uses Stmt.Aside :=
        Prog.Uses.bind (await_uses trivial) fun _ => trivial
      refine hsteps.bind fun rebuiltSteps => ?_
      have happroved : (executeApprovedToolCall cfg execution context resume rebuiltSteps).Uses
          (Stmt.OfLoop execution) :=
        (executeTool_uses ..).bind fun _ => (persistStep_uses ..).bind fun _ => trivial
      exact (happroved.mono fun _ => ofLoop_aside).bind fun _ => trivial
  have hprompt : (effectivePrompt agent execution.rawInput).Uses Stmt.Aside := by
    unfold effectivePrompt
    rw [Prog.uses_ite]
    refine ⟨fun _ => ?_, fun _ => trivial⟩
    have hplan : (generatePlan execution.rawInput agent.prompt).Uses Stmt.Aside :=
      Prog.Uses.bind (await_uses trivial) fun _ => trivial
    refine hplan.attempt.bind fun plan => ?_
    rcases plan with e | plan
    · trivial
    · cases plan <;> trivial
  refine hprincipal.bind fun _ => hresumed.bind fun steps => hprompt.bind fun prompt => ?_
  have hloop : (runReActLoop cfg execution context prompt tier steps).Uses
      (Stmt.OfLoop execution) := runReActLoop_uses ..
  refine (hloop.mono fun _ => ofLoop_aside).bind fun s => ?_
  refine (ofExcept_uses _).bind fun finalOutput => ?_
  dsimp only
  split_ifs
  all_goals exact Prog.Uses.bind (await_uses trivial) fun _ => trivial

/-- A run builds its context of the agent it found. -/
lemma executeBody_prudent {execution : AgentExecution} {resume : Option ResumeContext}
    {caller : Option Caller} : Prudent op m (executeBody cfg execution resume caller) := by
  refine tracked_await_bind.2 ⟨trivial, fun agent => ?_, fun _ => trivial⟩
  cases agent with
  | none => trivial
  | some agent =>
    refine tracked_await_bind.2 ⟨trivial, fun _ => ?_, fun _ => trivial⟩
    refine tracked_await_bind.2 ⟨trivial, fun decision => ?_, fun _ => trivial⟩
    have htier : Tracked Desk.note (Desk.Allows op)
        (fun m' _ => (execution.agentId, agent) ∈ m'.found)
        (m.note (.findAgent execution.agentId none) (.ok (some agent))) (forcedTier decision) := by
      cases decision <;> exact List.mem_cons_self
    refine htier.bind (fun m' tier hfound => ?_) fun _ _ _ => trivial
    refine tracked_await_bind.2 ⟨⟨_, hfound⟩, fun context => ?_, fun _ => trivial⟩
    exact careful_of_uses afterContext_aside

/-- So does every run. -/
lemma execute_prudent {execution : AgentExecution} {resume : Option ResumeContext}
    {caller : Option Caller} : Prudent op m (execute cfg execution resume caller) := by
  refine tracked_attempt_bind executeBody_prudent fun m' r _ => ?_
  cases r with
  | ok result => trivial
  | error message => exact tracked_await_bind.2 ⟨trivial, fun _ => trivial, fun _ => trivial⟩

/-- The execution of an agent. -/
lemma executeAgent_prudent {agentId : Id} {input : String} :
    Prudent op m (executeAgent cfg agentId input principal) := by
  unfold executeAgent
  apply tracked_ite.2
  refine ⟨fun _ => trivial, fun _ => ?_⟩
  refine tracked_await_bind.2 ⟨trivial, fun _ => ?_, fun _ => trivial⟩
  have hsync : ∀ (m : Desk) (run : RunInput), Prudent op m (runSync cfg run) := by
    intro m run
    refine tracked_await_bind.2 ⟨trivial, fun _ => ?_, fun _ => trivial⟩
    refine tracked_await_bind.2 ⟨trivial, fun agent => ?_, fun _ => trivial⟩
    cases agent with
    | none => trivial
    | some agent =>
      refine tracked_await_bind.2 ⟨trivial, fun saved => ?_, fun _ => trivial⟩
      exact execute_prudent.bind (fun _ _ _ => trivial) fun _ _ _ => trivial
  refine (hsync _ _).bind (fun m' id _ => ?_) fun _ _ _ => trivial
  refine tracked_await_bind.2 ⟨trivial, fun row => ?_, fun _ => trivial⟩
  cases row <;> trivial

/-- A decision. -/
lemma decideApproval_prudent {instanceId : Id} {decision : String} {comment : Option String} :
    Prudent op m (decideApproval cfg instanceId decision comment principal) := by
  unfold decideApproval
  cases Decision.ofText decision with
  | none => trivial
  | some decision =>
    have hpaused : (readPaused cfg instanceId principal.defaultWorkspaceId).Uses Stmt.Aside := by
      refine Prog.Uses.bind (await_uses trivial) fun row => ?_
      cases row.filter (·.objectName = "AgentExecution") with
      | none => trivial
      | some row =>
        dsimp only
        rw [Prog.uses_ite]
        refine ⟨fun _ => trivial, fun _ => ?_⟩
        cases parsePausedToolCall cfg row.history with
        | none => trivial
        | some paused =>
          refine Prog.Uses.bind (await_uses trivial) fun execution => ?_
          cases execution with
          | none => trivial
          | some execution =>
            dsimp only
            rw [Prog.uses_ite]
            exact ⟨fun _ => trivial, fun _ => trivial⟩
    refine (careful_of_uses hpaused).bind (fun m' found _ => ?_) fun _ _ _ => trivial
    obtain ⟨row, execution, paused⟩ := found
    refine tracked_await_bind.2 ⟨trivial, fun _ => ?_, fun _ => trivial⟩
    cases decision with
    | rejected => exact tracked_await_bind.2 ⟨trivial, fun _ => trivial, fun _ => trivial⟩
    | approved =>
      refine tracked_ofExcept_bind (fun status _ => ?_) fun _ _ => trivial
      refine tracked_await_bind.2 ⟨trivial, fun _ => ?_, fun _ => trivial⟩
      refine execute_prudent.bind (fun m' _ _ => ?_) fun _ _ _ => trivial
      exact tracked_await_bind.2 ⟨trivial, fun _ => trivial, fun _ => trivial⟩

/-- A request changes no agent. -/
lemma request_prudent (request : Request) : Prudent op m (request.serve cfg) := by
  cases request with
  | executeAgent agentId input principal =>
    have hagent := @executeAgent_prudent cfg op m principal agentId input
    exact hagent.bind (fun _ _ _ => trivial) fun _ _ _ => trivial
  | decideApproval instanceId decision comment principal =>
    have hdecide := @decideApproval_prudent cfg op m principal instanceId decision comment
    exact hdecide.bind (fun _ _ _ => trivial) fun _ _ _ => trivial
  | pendingApprovals principal =>
    have hpending : Prudent op m (pendingApprovals cfg principal) :=
      tracked_await_bind.2 ⟨trivial, fun _ => trivial, fun _ => trivial⟩
    exact hpending.bind (fun _ _ _ => trivial) fun _ _ _ => trivial

/-- An update rests on the row that it found. -/
lemma updateAgentConfig_prudent {agentId : Id} {input : UpdateAgentConfigInput}
    (hop : op = .updateAgentConfig agentId input principal) :
    Prudent op m (updateAgentConfig agentId input principal) := by
  refine tracked_await_bind.2 ⟨trivial, fun agent => ?_, fun _ => trivial⟩
  cases agent with
  | none => trivial
  | some agent =>
    refine tracked_ofExcept_bind (fun rules hrules => ?_) fun _ _ => trivial
    apply tracked_await_bind.2
    refine ⟨⟨agentId, input, principal, agent, rules, hop, List.mem_cons_self, rfl, hrules, rfl⟩,
      fun _ => ?_, fun _ => trivial⟩
    exact tracked_await_bind.2 ⟨trivial, fun _ => trivial, fun _ => trivial⟩

/-- A creation rests on the name that it found free. -/
lemma createAgent_prudent {input : CommunityCreateAgentInput}
    (hop : op = .createAgent input principal) : Prudent op m (createAgent input principal) := by
  unfold createAgent
  apply tracked_ite.2
  refine ⟨fun _ => trivial, fun hname => ?_⟩
  apply tracked_ite.2
  refine ⟨fun _ => trivial, fun hapiName => ?_⟩
  refine tracked_await_bind.2 ⟨trivial, fun taken => ?_, fun _ => trivial⟩
  cases taken with
  | some agent => trivial
  | none =>
    refine tracked_ofExcept_bind (fun rules hrules => ?_) fun _ _ => trivial
    apply tracked_await_bind.2
    exact ⟨⟨input, principal, _, rules, hop, hname, hapiName, List.mem_cons_self, hrules⟩,
      fun _ => trivial, fun _ => trivial⟩

/-- Every operation obeys the law. -/
theorem serve_prudent : Prudent op m (op.serve cfg) := by
  cases op with
  | request r =>
    have hrequest := @request_prudent cfg (.request r) m r
    exact hrequest.bind (fun _ _ _ => trivial) fun _ _ _ => trivial
  | updateAgentConfig agentId input principal =>
    have hupdate := @updateAgentConfig_prudent (.updateAgentConfig agentId input principal) m
      principal agentId input rfl
    exact hupdate.bind (fun _ _ _ => trivial) fun _ _ _ => trivial
  | createAgent input principal =>
    have hcreate := @createAgent_prudent (.createAgent input principal) m principal input rfl
    exact hcreate.bind (fun _ _ _ => trivial) fun _ _ _ => trivial

end prudent

end NexusClaw.Community
