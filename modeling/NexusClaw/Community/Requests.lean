import NexusClaw.AgentRuntime.Footprint
import NexusClaw.Community.Resolver

/-!
# Requests of the Community runtime

The three operations of the resolver as one family of programs, which is what interleaves, and the
statements that each can issue.
-/

namespace NexusClaw.Community
open Concurrent AgentRuntime
open Governance (Id)

/-- A request with its arguments and the principal that makes it. -/
inductive Request where
  | executeAgent (agentId : Id) (input : String) (principal : CommunityPrincipal)
  | decideApproval (instanceId : Id) (decision : String) (comment : Option String)
    (principal : CommunityPrincipal)
  | pendingApprovals (principal : CommunityPrincipal)

inductive Response where
  | execution (row : AgentExecution)
  | decision (result : CommunityApprovalDecisionResult)
  | pendingApprovals (rows : List CommunityPendingApproval)

/-- The program of a request. -/
def Request.serve (cfg : Config) : Request → Act Response
  | .executeAgent agentId input principal => do
    let row ← Community.executeAgent cfg agentId input principal
    .ret (.execution row)
  | .decideApproval instanceId decision comment principal => do
    let result ← Community.decideApproval cfg instanceId decision comment principal
    .ret (.decision result)
  | .pendingApprovals principal => do
    let rows ← Community.pendingApprovals cfg principal
    .ret (.pendingApprovals rows)

section serve
variable {cfg : Config}

/-- The execution of an agent is a request. -/
lemma serve_executeAgent {agentId : Id} {input : String} {principal : CommunityPrincipal} :
    (Request.executeAgent agentId input principal).serve cfg =
      executeAgent cfg agentId input principal >>= fun row => .ret (.execution row) := rfl

/-- So is a decision. -/
lemma serve_decideApproval {instanceId : Id} {decision : String} {comment : Option String}
    {principal : CommunityPrincipal} :
    (Request.decideApproval instanceId decision comment principal).serve cfg =
      decideApproval cfg instanceId decision comment principal >>= fun result =>
        .ret (.decision result) := rfl

end serve

/-- Requests at work on one deployment, after a schedule. -/
def serving {ι : Type} [DecidableEq ι] (cfg : Config) (ans : Answers) (w : World)
    (requests : ι → Request) (sched : List ι) : Pool Stmt Stmt.Resp String Response World ι :=
  (Pool.start w fun i => (requests i).serve cfg).play (exec ans) sched

section uses
variable {cfg : Config} {ψ : Stmt → Prop}

/-- The statements of `communityExecuteAgent`: its own, and those of one run for its caller. -/
lemma executeAgent_uses {agentId : Id} {input : String} {principal : CommunityPrincipal}
    (hallowed : ∀ id, ψ (.assertExecutionAllowed id)) (hfind : ∀ id ws, ψ (.findAgent id ws))
    (hcreate : ∀ row, ψ (.createExecution row)) (hread : ∀ id ws, ψ (.findExecution id ws))
    (hrun : ∀ execution s, Stmt.OfRun execution (some principal.caller) s → ψ s) :
    (executeAgent cfg agentId input principal).Uses ψ := by
  unfold executeAgent
  dsimp only
  rw [Prog.uses_ite]
  refine ⟨fun _ => trivial, fun _ => ?_⟩
  refine Prog.Uses.bind (await_uses (hallowed _)) fun _ => ?_
  have hsync : ∀ run : RunInput, run.authenticatedCaller = some principal.caller →
      (runSync cfg run).Uses ψ := by
    intro run hcaller
    refine Prog.Uses.bind (await_uses (hallowed _)) fun _ =>
      Prog.Uses.bind (await_uses (hfind _ _)) fun agent => ?_
    cases agent with
    | none => trivial
    | some agent =>
      refine Prog.Uses.bind (await_uses (hcreate _)) fun saved => ?_
      rw [hcaller]
      exact (execute_uses.mono (hrun saved)).bind fun _ => trivial
  refine (hsync _ rfl).bind fun id => Prog.Uses.bind (await_uses (hread _ _)) fun row => ?_
  cases row <;> trivial

/-- The statements of `communityDecideApproval`: its own, and those of one run for no caller. -/
lemma decideApproval_uses {instanceId : Id} {decision : String} {comment : Option String}
    {principal : CommunityPrincipal} (happroval : ∀ id ws, ψ (.findApproval id ws))
    (hread : ∀ id ws, ψ (.findExecution id ws)) (hsave : ∀ row, ψ (.saveApproval row))
    (hupdate : ∀ id status, ψ (.updateExecution id status))
    (hcancel : ∀ event patch, ψ (.transaction event patch))
    (hrun : ∀ execution s, Stmt.OfRun execution none s → ψ s) :
    (decideApproval cfg instanceId decision comment principal).Uses ψ := by
  have hpaused : (readPaused cfg instanceId principal.defaultWorkspaceId).Uses ψ := by
    refine Prog.Uses.bind (await_uses (happroval _ _)) fun row => ?_
    -- an approval of another object, or without a paused call, ends the request
    cases row.filter (·.objectName = "AgentExecution") with
    | none => trivial
    | some row =>
      dsimp only
      rw [Prog.uses_ite]
      refine ⟨fun _ => trivial, fun _ => ?_⟩
      cases parsePausedToolCall cfg row.history with
      | none => trivial
      | some paused =>
        refine Prog.Uses.bind (await_uses (hread _ _)) fun execution => ?_
        cases execution with
        | none => trivial
        | some execution =>
          dsimp only
          rw [Prog.uses_ite]
          exact ⟨fun _ => trivial, fun _ => trivial⟩
  unfold decideApproval
  cases Decision.ofText decision with
  | none => trivial
  | some decision =>
    refine hpaused.bind fun ⟨row, execution, paused⟩ =>
      Prog.Uses.bind (await_uses (hsave _)) fun _ => ?_
    cases decision with
    | rejected => exact Prog.Uses.bind (await_uses (hcancel _ _)) fun _ => trivial
    | approved =>
      refine Prog.Uses.bind (ofExcept_uses _) fun status =>
        Prog.Uses.bind (await_uses (hupdate _ _)) fun _ => ?_
      refine (execute_uses.mono (hrun _)).bind fun _ =>
        Prog.Uses.bind (await_uses (hread _ _)) fun _ => trivial

end uses

end NexusClaw.Community
