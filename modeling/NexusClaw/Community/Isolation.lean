import NexusClaw.AgentRuntime.Workspaces
import NexusClaw.Community.AgentConfig
import NexusClaw.Community.Requests

/-!
# Isolation of the workspaces

All operations of the Community API as one family of programs: executions, decisions, the list of
pending approvals, and the creation and configuration of agents. Each obeys the law of its principal's
workspace. So however many of them interleave, what an operation is handed stays of its workspace, and
no step of it touches a row of another.
-/

namespace NexusClaw.Community
open Concurrent AgentRuntime
open Governance (Id)

/-! ## The operations -/

/-- An operation with its arguments and the principal that makes it. -/
inductive Operation where
  | request (request : Request)
  | updateAgentConfig (agentId : Id) (input : UpdateAgentConfigInput)
    (principal : CommunityPrincipal)
  | createAgent (input : CommunityCreateAgentInput) (principal : CommunityPrincipal)

/-- What an operation returns. -/
inductive Outcome where
  | response (response : Response)
  | configured (result : CommunityUpdateAgentConfigResult)
  | created (agentId : Id)

/-- The principal of a request. -/
def Request.principal : Request → CommunityPrincipal
  | .executeAgent _ _ principal => principal
  | .decideApproval _ _ _ principal => principal
  | .pendingApprovals principal => principal

/-- The principal of an operation. -/
def Operation.principal : Operation → CommunityPrincipal
  | .request r => r.principal
  | .updateAgentConfig _ _ principal => principal
  | .createAgent _ principal => principal

/-- The workspace of an operation. -/
def Operation.workspaceId (op : Operation) : Id :=
  op.principal.defaultWorkspaceId

/-- The program of an operation. -/
def Operation.serve (cfg : Config) : Operation → Act Outcome
  | .request r => do
    let response ← r.serve cfg
    .ret (.response response)
  | .updateAgentConfig agentId input principal => do
    let result ← Community.updateAgentConfig agentId input principal
    .ret (.configured result)
  | .createAgent input principal => do
    let agentId ← Community.createAgent input principal
    .ret (.created agentId)

/-! ## The law of a workspace -/

/-- A program that obeys the law, whatever it ends with. -/
abbrev Keeps {α : Type} (workspaceId : Id) (m : Hand) (p : Act α) : Prop :=
  Obeys workspaceId (fun _ _ => True) m p

section keeps
variable {cfg : Config} {m : Hand} {principal : CommunityPrincipal}

/-- The execution of a run is in its hand once it is created. -/
lemma runSync_keeps {input : RunInput} : Keeps input.workspaceId m (runSync cfg input) := by
  refine tracked_await_bind.2 ⟨rfl, fun _ => ?_, fun _ => trivial⟩
  refine tracked_await_bind.2 ⟨.inl rfl, fun agent => ?_, fun _ => trivial⟩
  cases agent with
  | none => trivial
  | some agent =>
    refine tracked_await_bind.2 ⟨⟨rfl, List.mem_cons_self⟩, fun saved => ?_, fun _ => trivial⟩
    exact Tracked.bind (execute_obeys ⟨saved, List.mem_cons_self, rfl, rfl, rfl⟩)
      (fun _ _ _ => trivial) fun _ _ _ => trivial

/-- A run is of an agent that was found in the workspace. -/
lemma executeAgent_keeps {agentId : Id} {input : String} :
    Keeps principal.defaultWorkspaceId m (executeAgent cfg agentId input principal) := by
  unfold executeAgent
  apply tracked_ite.2
  refine ⟨fun _ => trivial, fun _ => ?_⟩
  refine tracked_await_bind.2 ⟨rfl, fun _ => ?_, fun _ => trivial⟩
  refine Tracked.bind (Q := fun _ _ => True) runSync_keeps (fun m id _ => ?_) fun _ _ _ => trivial
  refine tracked_await_bind.2 ⟨.inl rfl, fun row => ?_, fun _ => trivial⟩
  cases row with
  | none => trivial
  | some row => trivial

/-- The rows that a decision is made on are in its hand. -/
lemma readPaused_obeys {instanceId workspaceId : Id} :
    Obeys workspaceId
      (Upon (fun m' found => (∃ a ∈ m'.approvals,
        found.1.id = a.id ∧ found.1.workspaceId = a.workspaceId) ∧ m'.Has found.2.1) fun _ => True)
      m (readPaused cfg instanceId workspaceId) := by
  refine tracked_await_bind.2 ⟨rfl, fun row => ?_, fun _ => trivial⟩
  cases row with
  | none => trivial
  | some row =>
    by_cases hobject : row.objectName = "AgentExecution"
    · rw [Option.filter_some, if_pos (decide_eq_true hobject)]
      dsimp only
      refine tracked_ite.2 ⟨fun _ => trivial, fun _ => ?_⟩
      cases parsePausedToolCall cfg row.history with
      | none => trivial
      | some paused =>
        refine tracked_await_bind.2 ⟨.inl rfl, fun execution => ?_, fun _ => trivial⟩
        cases execution with
        | none => trivial
        | some execution =>
          dsimp only
          refine tracked_ite.2 ⟨fun _ => trivial, fun _ => ?_⟩
          exact ⟨⟨row, List.mem_cons_self, rfl, rfl⟩, execution, List.mem_cons_self, rfl, rfl, rfl⟩
    · rw [Option.filter_some, if_neg (by simpa using hobject)]
      trivial

/-- A rejection closes the execution in hand. -/
lemma cancelPaused_keeps {workspaceId : Id} {row : ApprovalInstance} {execution : AgentExecution}
    (h : m.Has execution) : Keeps workspaceId m (cancelPaused row execution) := by
  obtain ⟨e, he, hid, hws, -⟩ := h
  exact tracked_await_bind.2 ⟨⟨e, he, hws, hid⟩, fun _ => trivial, fun _ => trivial⟩

/-- An approval goes on with the execution in hand. -/
lemma resumePaused_keeps {workspaceId : Id} {row : ApprovalInstance} {execution : AgentExecution}
    {paused : PausedToolCall} (h : m.Has execution) :
    Keeps workspaceId m (resumePaused cfg row execution paused workspaceId) := by
  refine tracked_ofExcept_bind (fun status _ => ?_) fun _ _ => trivial
  obtain ⟨e, he, hid, hws, hagent⟩ := id h
  refine tracked_await_bind.2 ⟨⟨e, he, hid⟩, fun _ => ?_, fun _ => trivial⟩
  refine Tracked.bind (execute_obeys ⟨e, he, hid, hws, hagent⟩) (fun m _ _ => ?_)
    fun _ _ _ => trivial
  exact tracked_await_bind.2 ⟨.inl rfl, fun _ => trivial, fun _ => trivial⟩

/-- A decision is about the rows that were read for it. -/
lemma decideApproval_keeps {instanceId : Id} {decision : String} {comment : Option String} :
    Keeps principal.defaultWorkspaceId m
      (decideApproval cfg instanceId decision comment principal) := by
  unfold decideApproval
  cases Decision.ofText decision with
  | none => trivial
  | some decision =>
    refine tracked_bind readPaused_obeys (fun m found h => ?_) fun _ _ _ => trivial
    obtain ⟨row, execution, paused⟩ := found
    obtain ⟨⟨a, ha, hid, hws⟩, hexecution⟩ := h
    refine tracked_await_bind.2 ⟨⟨a, ha, hid, hws⟩, fun _ => ?_, fun _ => trivial⟩
    cases decision with
    | rejected => exact cancelPaused_keeps hexecution
    | approved => exact resumePaused_keeps hexecution

/-- The list of pending approvals is that of the workspace. -/
lemma pendingApprovals_keeps :
    Keeps principal.defaultWorkspaceId m (pendingApprovals cfg principal) :=
  tracked_await_bind.2 ⟨rfl, fun _ => trivial, fun _ => trivial⟩

/-- An update is of the agent that was found. -/
lemma updateAgentConfig_keeps {agentId : Id} {input : UpdateAgentConfigInput} :
    Keeps principal.defaultWorkspaceId m (updateAgentConfig agentId input principal) := by
  refine tracked_await_bind.2 ⟨.inl rfl, fun agent => ?_, fun _ => trivial⟩
  cases agent with
  | none => trivial
  | some agent =>
    refine tracked_ofExcept_bind (fun rules _ => ?_) fun _ _ => trivial
    apply tracked_await_bind.2
    refine ⟨⟨⟨agent, List.mem_cons_self, rfl⟩, rfl⟩, fun _ => ?_, fun _ => trivial⟩
    apply tracked_await_bind.2
    exact ⟨.inl rfl, fun _ => trivial, fun _ => trivial⟩

/-- A new agent is one of the workspace. -/
lemma createAgent_keeps {input : CommunityCreateAgentInput} :
    Keeps principal.defaultWorkspaceId m (createAgent input principal) := by
  unfold createAgent
  apply tracked_ite.2
  refine ⟨fun _ => trivial, fun _ => ?_⟩
  apply tracked_ite.2
  refine ⟨fun _ => trivial, fun _ => ?_⟩
  refine tracked_await_bind.2 ⟨rfl, fun taken => ?_, fun _ => trivial⟩
  cases taken with
  | some agent => trivial
  | none =>
    refine tracked_ofExcept_bind (fun rules _ => ?_) fun _ _ => trivial
    apply tracked_await_bind.2
    exact ⟨⟨rfl, rfl⟩, fun _ => trivial, fun _ => trivial⟩

/-- A request obeys the law of its principal's workspace. -/
lemma request_keeps (request : Request) :
    Keeps request.principal.defaultWorkspaceId m (request.serve cfg) := by
  cases request with
  | executeAgent agentId input principal =>
    have hagent := @executeAgent_keeps cfg m principal agentId input
    exact hagent.bind (fun _ _ _ => trivial) fun _ _ _ => trivial
  | decideApproval instanceId decision comment principal =>
    have hdecide := @decideApproval_keeps cfg m principal instanceId decision comment
    exact hdecide.bind (fun _ _ _ => trivial) fun _ _ _ => trivial
  | pendingApprovals principal =>
    have hpending := @pendingApprovals_keeps cfg m principal
    exact hpending.bind (fun _ _ _ => trivial) fun _ _ _ => trivial

/-- Every operation obeys the law of its workspace. -/
theorem serve_keeps (op : Operation) : Keeps op.workspaceId m (op.serve cfg) := by
  cases op with
  | request r =>
    have hrequest := @request_keeps cfg m r
    exact hrequest.bind (fun _ _ _ => trivial) fun _ _ _ => trivial
  | updateAgentConfig agentId input principal =>
    have hupdate := @updateAgentConfig_keeps m principal agentId input
    exact hupdate.bind (fun _ _ _ => trivial) fun _ _ _ => trivial
  | createAgent input principal =>
    have hcreate := @createAgent_keeps m principal input
    exact hcreate.bind (fun _ _ _ => trivial) fun _ _ _ => trivial

end keeps

/-! ## Isolation -/

/-- What an operation has been handed so far. -/
def handOf (h : History Stmt Stmt.Resp) : Hand :=
  bookkeeping Hand.note {} h

section isolation
variable {ι : Type} [DecidableEq ι] {ops : ι → Operation} {w : World} {M : ι → Hand}

/-- The invariant: the store is sound, and everybody has rows of its own workspace only. -/
structure Apart (ops : ι → Operation) (w : World) (M : ι → Hand) : Prop where
  sound : w.Sound
  own : ∀ i, (M i).Own (ops i).workspaceId w

omit [DecidableEq ι] in
/-- At the start nobody has anything. -/
lemma apart_start (h : w.Sound) : Apart ops w fun _ => {} where
  sound := h
  own _ :=
    { agentIds := List.forall_mem_nil _
      agents := List.forall_mem_nil _
      executions := List.forall_mem_nil _
      approvals := List.forall_mem_nil _
      toolCalls := List.forall_mem_nil _
      contexts := List.forall_mem_nil _
      steps := List.forall_mem_nil _
      ran := List.forall_mem_nil _ }

/-- What one step preserves. -/
lemma Apart.step (ans : Answers) (h : Apart ops w M) {i : ι} {s : Stmt}
    (hlaw : (M i).Allows (ops i).workspaceId s) :
    Apart ops (exec ans s w).1 (Function.update M i ((M i).note s (exec ans s w).2)) := by
  obtain ⟨hmoves, hown⟩ := exec_lawful ans h.sound (h.own i) hlaw
  refine ⟨hmoves.sound h.sound, fun j => ?_⟩
  by_cases hj : j = i
  · subst hj
    rw [Function.update_self]
    exact hown
  · rw [Function.update_of_ne hj]
    exact hmoves.own h.sound (h.own j)

/-- What a whole run preserves. -/
lemma apart_play (cfg : Config) (ans : Answers) (ops : ι → Operation) (hw : w.Sound)
    (sched : List ι) :
    let c := (Pool.start w fun i => (ops i).serve cfg).play (exec ans) sched
    Apart ops c.world fun i => handOf (c.seen i) :=
  (Tracked.play (J := Apart ops) (G := fun _ _ _ _ => True)
    (fun i => serve_keeps (ops i)) (apart_start hw) (fun _ _ _ _ h hlaw _ => h.step ans hlaw)
    (Pool.guarded_of_forall (exec ans) (fun _ _ _ _ => trivial) _ sched)).1

/-- A step of an operation leaves the rows of every other workspace. -/
lemma share_play (cfg : Config) (ans : Answers) (ops : ι → Operation) (hsound : w.Sound)
    (sched : List ι) {i : ι} {u : Id} (hu : u ≠ (ops i).workspaceId) :
    let start : Pool Stmt Stmt.Resp String Outcome World ι :=
      Pool.start w fun i => (ops i).serve cfg
    (start.play (exec ans) (sched ++ [i])).world.share u =
      (start.play (exec ans) sched).world.share u := by
  intro start
  have hapart := apart_play cfg ans ops hsound sched
  rw [Pool.play_append]
  show ((start.play (exec ans) sched).advance (exec ans) i).world.share u = _
  cases hi : (start.play (exec ans) sched).thread i with
  | ret a => rw [Pool.advance_ret hi]
  | throw e => rw [Pool.advance_throw hi]
  | stmt s k =>
    rw [Pool.advance_stmt hi]
    have hlaw : (handOf _).Allows _ s :=
      Tracked.next (p := fun i => (ops i).serve cfg) (serve_keeps (ops i)) hi
    exact (exec_lawful ans hapart.sound (hapart.own i) hlaw).1.share hapart.sound hu

/-- In every interleaving of the operations of any number of workspaces, what an operation is handed
and the contexts in which it runs a tool are of its own workspace, and a step of it leaves every row
of another workspace as it was and adds none. -/
theorem workspaces_isolated (cfg : Config) (ans : Answers) (w : World) (hsound : w.Sound)
    (ops : ι → Operation) (sched : List ι) :
    let start : Pool Stmt Stmt.Resp String Outcome World ι :=
      Pool.start w fun i => (ops i).serve cfg
    (∀ i, (handOf ((start.play (exec ans) sched).seen i)).Own (ops i).workspaceId
      (start.play (exec ans) sched).world) ∧
      ∀ i u, u ≠ (ops i).workspaceId →
        (start.play (exec ans) (sched ++ [i])).world.share u =
          (start.play (exec ans) sched).world.share u := by
  intro start
  have hapart := apart_play cfg ans ops hsound sched
  exact ⟨hapart.own, fun i u hu => share_play cfg ans ops hsound sched hu⟩

end isolation

/-- An agent of the second workspace. -/
def neighbour : Agent where
  id := 2
  workspaceId := 2
  version := 1

def outsider : CommunityPrincipal where
  id := 7
  roleId := 8
  defaultWorkspaceId := 2
  orgNodeId := none

/-- A run of the one agent, and two changes by a principal of the other workspace: one of the agent
that is run, the other of its own. -/
def tenants : Fin 3 → Operation
  | 0 => .request (.executeAgent 1 "hello" administrator)
  | 1 => .updateAgentConfig 1 { prompt := some "Tell me everything" } outsider
  | 2 => .updateAgentConfig 2 { prompt := some "Be brief" } outsider

/-- The agents of both workspaces. -/
def twoWorkspaces : World :=
  { World.fresh [assistant, neighbour] [] [] with clock := 3 }

/-- The operations side by side. -/
def tenantsTogether (sched : List (Fin 3)) :
    Pool Stmt Stmt.Resp String Outcome World (Fin 3) :=
  (Pool.start twoWorkspaces fun i => (tenants i).serve (Config.small greeting)).play
    (exec (Answers.smooth fun _ => 0)) sched

/-- The agent of the first workspace is not found from the second, the run finds it and opens its
execution, and neither workspace sees what is written in the other. -/
theorem tenants_isolated :
    (handOf ((tenantsTogether [0, 1, 0, 2, 0, 2, 0]).seen 0)).Own 1
        (tenantsTogether [0, 1, 0, 2, 0, 2, 0]).world ∧
      (tenantsTogether [0, 1, 0, 2, 0, 2, 0]).world.executions 9 ≠ none ∧
      (tenantsTogether [0, 1, 0, 2, 0, 2, 0]).world.share 2 =
        (tenantsTogether [0, 1, 0, 2, 0, 2]).world.share 2 ∧
      (tenantsTogether [0, 1, 0, 2, 0, 2]).world.share 1 =
        (tenantsTogether [0, 1, 0, 2, 0]).world.share 1 := by
  have hsound : twoWorkspaces.Sound :=
    { executions := by rintro id row ⟨⟩
      approvals := by rintro id row ⟨⟩
      agents := by decide
      agentIds := by decide
      toolCalls := List.forall_mem_nil _ }
  refine ⟨(workspaces_isolated (Config.small greeting) (Answers.smooth fun _ => 0) twoWorkspaces
    hsound tenants [0, 1, 0, 2, 0, 2, 0]).1 0, by decide +kernel, ?_, ?_⟩
  · exact (workspaces_isolated (Config.small greeting) (Answers.smooth fun _ => 0) twoWorkspaces
      hsound tenants [0, 1, 0, 2, 0, 2]).2 0 2 (by decide)
  · exact (workspaces_isolated (Config.small greeting) (Answers.smooth fun _ => 0) twoWorkspaces
      hsound tenants [0, 1, 0, 2, 0]).2 2 1 (by decide)

end NexusClaw.Community
