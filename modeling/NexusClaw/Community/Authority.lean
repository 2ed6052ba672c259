import NexusClaw.AgentRuntime.Retries
import NexusClaw.Community.Requests

/-!
# The authority of a resumed run

A run builds its context for a caller. `communityExecuteAgent` names the principal that made the
request, and `communityDecideApproval` resumes the run for nobody: an agent without an identity of its
own gets no context at all then, and one with an identity a context without the caller's access.
-/

namespace NexusClaw.Community
open Concurrent AgentRuntime
open Governance (Id)

/-! ## Contexts that were built -/

/-- The contexts that a history has built, with the executions they are for. -/
def builtContexts (h : History Stmt Stmt.Resp) : List (Id × Except String ExecutionContext) :=
  h.filterMap fun
    | ⟨.buildContext _ _ executionId _, r⟩ => some (executionId, r)
    | _ => none

/-- A context that was built. -/
lemma mem_builtContexts {h : History Stmt Stmt.Resp} {id : Id}
    {r : Except String ExecutionContext} (hmem : (id, r) ∈ builtContexts h) :
    ∃ agent workspaceId caller, ⟨.buildContext agent workspaceId id caller, r⟩ ∈ h := by
  obtain ⟨⟨s, r'⟩, hin, heq⟩ := List.mem_filterMap.1 hmem
  cases s with
  | buildContext agent workspaceId executionId caller =>
    cases heq
    exact ⟨agent, workspaceId, caller, hin⟩
  | _ => cases heq

/-- The resumed run has a context, with the authority of the paused one. -/
def SameAuthority (paused : ExecutionContext) (resumed : Except String ExecutionContext) : Prop :=
  ∃ context, resumed = .ok context ∧ context.security = paused.security ∧
    context.constraints = paused.constraints ∧ context.actorType = paused.actorType ∧
    context.actorId = paused.actorId ∧ context.dataAccessContext = paused.dataAccessContext

section contexts
variable {agent : Agent} {workspaceId executionId : Id} {caller : Option Caller}
  {grants : List ObjectGrant} {metadata : List ObjectMetadata} {context : ExecutionContext}

/-- A context gives access to the data of the caller it was built for. -/
lemma buildContext_dataAccessContext
    (h : buildContext agent workspaceId executionId caller grants metadata = .ok context) :
    context.dataAccessContext = caller := by
  unfold buildContext at h
  split_ifs at h
  cases hidentity : agent.identity with
  | some identity =>
    rw [hidentity] at h
    cases h
    rfl
  | none =>
    rw [hidentity] at h
    cases caller with
    | none => cases h
    | some caller =>
      dsimp only at h
      split_ifs at h
      cases h
      rfl

/-- Nobody's run of an agent without an identity has no context. -/
theorem buildContext_nobody (h : agent.identity = none) (hworkspace : agent.workspaceId = workspaceId) :
    buildContext agent workspaceId executionId none grants metadata =
      .error "COMMUNITY_EXECUTION_PRINCIPAL_REQUIRED" := by
  unfold buildContext
  rw [if_neg (not_not.2 hworkspace), h]

/-- An agent with an identity keeps its own part of the authority for whatever caller, the scope of
an agent without an organisation node apart. -/
theorem buildContext_identity {serviceUserId roleId orgNodeId : Id} {context' : ExecutionContext}
    (hidentity : agent.identity = some (serviceUserId, roleId))
    (hnode : agent.orgNodeId = some orgNodeId)
    (h : buildContext agent workspaceId executionId caller grants metadata = .ok context)
    (h' : buildContext agent workspaceId executionId none grants metadata = .ok context') :
    context'.security = context.security ∧ context'.constraints = context.constraints ∧
      context'.actorType = context.actorType ∧ context'.actorId = context.actorId := by
  unfold buildContext at h h'
  split_ifs at h with hworkspace
  rw [if_neg hworkspace] at h'
  rw [hidentity] at h h'
  dsimp only at h h'
  rw [hnode] at h h'
  cases h
  cases h'
  exact ⟨rfl, rfl, rfl, rfl⟩

end contexts

/-! ## For whom the contexts are built -/

/-- The statement builds a context for the caller, if any. -/
def BuildsFor (caller : Option Caller) (s : Stmt) : Prop :=
  ∀ agent workspaceId executionId named,
    s = .buildContext agent workspaceId executionId named → named = caller

/-- A run builds contexts for its caller. -/
lemma ofRun_buildsFor {execution : AgentExecution} {caller : Option Caller} {s : Stmt}
    (h : s.OfRun execution caller) : BuildsFor caller s := by
  intro agent workspaceId executionId named heq
  subst heq
  exact h.2.2

/-- Any other statement builds no context. -/
lemma buildsFor_other {caller : Option Caller} {s : Stmt}
    (h : ∀ agent workspaceId executionId named,
      s ≠ .buildContext agent workspaceId executionId named) : BuildsFor caller s :=
  fun agent workspaceId executionId named heq => absurd heq (h agent workspaceId executionId named)

section requests
variable {cfg : Config} {request : Request} {principal : CommunityPrincipal}

/-- So does the execution of an agent. -/
lemma executeAgent_buildsFor {agentId : Id} {input : String}
    (hrequest : request = .executeAgent agentId input principal) :
    (request.serve cfg).Uses (BuildsFor (some principal.caller)) := by
  subst hrequest
  have hagent := @executeAgent_uses cfg (BuildsFor (some principal.caller)) agentId input principal
    (fun _ => buildsFor_other fun _ _ _ _ => by simp)
    (fun _ _ => buildsFor_other fun _ _ _ _ => by simp)
    (fun _ => buildsFor_other fun _ _ _ _ => by simp)
    (fun _ _ => buildsFor_other fun _ _ _ _ => by simp) fun _ _ h => ofRun_buildsFor h
  rw [serve_executeAgent]
  generalize executeAgent cfg agentId input principal = p at hagent ⊢
  exact hagent.bind fun _ => trivial

/-- So does a decision. -/
lemma decideApproval_buildsFor {instanceId : Id} {decision : String} {comment : Option String}
    (hrequest : request = .decideApproval instanceId decision comment principal) :
    (request.serve cfg).Uses (BuildsFor none) := by
  subst hrequest
  have hdecide := @decideApproval_uses cfg (BuildsFor none) instanceId decision comment principal
    (fun _ _ => buildsFor_other fun _ _ _ _ => by simp)
    (fun _ _ => buildsFor_other fun _ _ _ _ => by simp)
    (fun _ => buildsFor_other fun _ _ _ _ => by simp)
    (fun _ _ => buildsFor_other fun _ _ _ _ => by simp)
    (fun _ _ => buildsFor_other fun _ _ _ _ => by simp) fun _ _ h => ofRun_buildsFor h
  rw [serve_decideApproval]
  generalize decideApproval cfg instanceId decision comment principal = p at hdecide ⊢
  exact hdecide.bind fun _ => trivial

end requests

/-- What a request that builds contexts for a caller has built gives access to that caller's data. -/
lemma built_for {ι : Type} [DecidableEq ι] {cfg : Config} {ans : Answers} {w : World}
    {requests : ι → Request} {i : ι} {caller : Option Caller} {sched : List ι} {id : Id}
    {context : ExecutionContext} (huses : ((requests i).serve cfg).Uses (BuildsFor caller))
    (hbuilt : (id, .ok context) ∈ builtContexts ((serving cfg ans w requests sched).seen i)) :
    context.dataAccessContext = caller := by
  obtain ⟨agent, workspaceId, named, hin⟩ := mem_builtContexts hbuilt
  have hnamed : named = caller :=
    Pool.seen_of_uses (exec ans) huses (fun o ho => (by cases ho)) sched _ hin _ _ _ _ rfl
  obtain ⟨w', hanswer⟩ := Pool.seen_answered (exec ans) w (fun i => (requests i).serve cfg) i sched
    _ hin
  have hok : answer ans (.buildContext agent workspaceId id named) w' = .ok context := hanswer.symm
  have hfallible : (Stmt.buildContext agent workspaceId id named).fallible = true := rfl
  unfold answer at hok
  rw [if_pos hfallible] at hok
  cases hfails : ans.fails w'.clock with
  | some e =>
    rw [hfails] at hok
    cases hok
  | none =>
    rw [hfails] at hok
    exact (buildContext_dataAccessContext hok).trans hnamed

/-! ## A resumed run never has the authority it was paused with -/

/-- In every interleaving of requests: a context that a decision built does not have the authority
of one that the request to execute the agent built, whatever the agent and the approver. -/
theorem authority_never_kept {ι : Type} [DecidableEq ι] (cfg : Config) (ans : Answers) (w : World)
    (requests : ι → Request) (sched : List ι) (i j : ι) (agentId instanceId : Id)
    (input decision : String) (comment : Option String) (caller approver : CommunityPrincipal)
    (hi : requests i = .executeAgent agentId input caller)
    (hj : requests j = .decideApproval instanceId decision comment approver) (executionId : Id)
    (paused : ExecutionContext) (resumed : Except String ExecutionContext)
    (hpaused : (executionId, .ok paused) ∈
      builtContexts ((serving cfg ans w requests sched).seen i))
    (hresumed : (executionId, resumed) ∈
      builtContexts ((serving cfg ans w requests sched).seen j)) :
    ¬ SameAuthority paused resumed := by
  have hfor : paused.dataAccessContext = some caller.caller :=
    built_for (executeAgent_buildsFor hi) hpaused
  rintro ⟨context, rfl, _, _, _, _, hsame⟩
  have hnone : context.dataAccessContext = none :=
    built_for (decideApproval_buildsFor hj) hresumed
  rw [hfor, hnone] at hsame
  cases hsame

/-! ### A message that waits for its approval -/

/-- A reply that calls the messaging tool. -/
def messaging : ParsedReply where
  thought := { reasoning := "", plan := "", confidence := 1 }
  type := some (.str "tool_call")
  toolName := some (.str "message.send")
  toolInput := some .empty
  generatePrompt := none

/-- An agent whose messages wait for an approval. -/
def watched (serviceUserId roleId : Option Id) : Agent where
  id := 1
  workspaceId := 1
  serviceUserId
  roleId
  guardrailRules :=
    { allowedTools := ["message.send"]
      sensitiveOps :=
        some
          (.arr
            [.obj
              [("operation", .str "*"), ("toolPattern", .str "message.send"),
                ("riskLevel", .str "L2"), ("action", .str "approve")]]) }

def alice : CommunityPrincipal where
  id := 5
  roleId := 6
  defaultWorkspaceId := 1
  orgNodeId := none

/-- Alice has the agent send a message and approves the call. -/
def approving : Bool → Request
  | false => .executeAgent 1 "Send it" alice
  | true => .decideApproval 17 "APPROVED" none alice

/-- The run of the agent, then the decision on the approval it waits for. -/
def approvedRun (agent : Agent) : Pool Stmt Stmt.Resp String Response World Bool :=
  serving { Config.small messaging with tools := [notifier] } (Answers.smooth fun _ => 0)
    (World.fresh [agent] [] []) approving (List.replicate 23 false ++ List.replicate 30 true)

/-- The context of the run that pauses. -/
def pausedContext : ExecutionContext :=
  contextFor (watched (some 2) (some 3)) 1 3 3 (.agent, 2) (.own none) (some alice.caller) [] []

/-- The context of the run that goes on. -/
def resumedContext : ExecutionContext :=
  contextFor (watched (some 2) (some 3)) 1 3 3 (.agent, 2) (.own none) none [] []

/-- An agent with an identity goes on without the access of the caller. -/
theorem approved_run_loses_caller : ¬ SameAuthority pausedContext (.ok resumedContext) := by
  have hplay : serving { Config.small messaging with tools := [notifier] }
      (Answers.smooth fun _ => 0) (World.fresh [watched (some 2) (some 3)] [] []) approving
      (List.replicate 23 false ++ List.replicate 30 true) =
        approvedRun (watched (some 2) (some 3)) := rfl
  have hbuilt : (3, .ok pausedContext) ∈
        builtContexts ((approvedRun (watched (some 2) (some 3))).seen false) ∧
      (3, .ok resumedContext) ∈
        builtContexts ((approvedRun (watched (some 2) (some 3))).seen true) := by
    decide +kernel
  have hlost := authority_never_kept { Config.small messaging with tools := [notifier] }
    (Answers.smooth fun _ => 0) (World.fresh [watched (some 2) (some 3)] [] []) approving
    (List.replicate 23 false ++ List.replicate 30 true) false true 1 17 "Send it" "APPROVED" none
    alice alice rfl rfl 3 pausedContext (.ok resumedContext)
  rw [hplay] at hlost
  exact hlost hbuilt.1 hbuilt.2

/-- An agent without one cannot go on: its approved run fails for want of a principal. -/
theorem approved_run_fails :
    (∃ paused, builtContexts ((approvedRun (watched none none)).seen false) = [(3, .ok paused)] ∧
      ∀ resumed ∈ builtContexts ((approvedRun (watched none none)).seen true),
        ¬ SameAuthority paused resumed.2) ∧
      builtContexts ((approvedRun (watched none none)).seen true) =
        [(3, .error "COMMUNITY_EXECUTION_PRINCIPAL_REQUIRED")] ∧
      ((approvedRun (watched none none)).world.executions 3).map (·.status) = some .failed := by
  have hrun : builtContexts ((approvedRun (watched none none)).seen false) =
        [(3, .ok (contextFor (watched none none) 1 3 6 (.user, 5) (.own none) (some alice.caller)
          [] []))] ∧
      builtContexts ((approvedRun (watched none none)).seen true) =
        [(3, .error "COMMUNITY_EXECUTION_PRINCIPAL_REQUIRED")] ∧
      ((approvedRun (watched none none)).world.executions 3).map (·.status) = some .failed := by
    decide +kernel
  obtain ⟨hpaused, hresumed, hstatus⟩ := hrun
  refine ⟨⟨_, hpaused, fun resumed hin => ?_⟩, hresumed, hstatus⟩
  rw [hresumed, List.mem_singleton] at hin
  subst hin
  rintro ⟨context, hok, _⟩
  cases hok

end NexusClaw.Community
