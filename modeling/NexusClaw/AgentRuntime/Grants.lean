import NexusClaw.AgentRuntime.Closing

/-!
# Grants of a static tool

What has to be in place when the registry runs the body of a static tool, in every interleaving of a
call with other programs. The permission step compares the tool's operation with the permission for
the object of the call, and a call without an object leaves it: that is the one way past the gates.
-/

namespace NexusClaw.AgentRuntime
open Concurrent
open Governance (Id riskOrder)

/-! ## Gates -/

/-- The gates of a call other than the permission step. -/
structure PassesGates (cfg : Config) (toolName : String) (input : Json) (context : ExecutionContext)
    (tool : AgentTool) : Prop where
  registered : cfg.tools.find? (·.name = toolName) = some tool
  allowed : toolName ∈ context.constraints.allowedTools
  schema : cfg.schemaError tool.inputSchema input = none
  risk : tool.riskLevel ∈ ["L0", "L1", "L2"] ∨
    tool.riskLevel = "L3" ∧ ∃ grant, context.approvalGrant = some grant ∧ grant.toolName = toolName

/-- The entry is for the object: it has its name, or no entry has and this one has it in another
case. -/
def ObjectPermission.Names (cfg : Config) (permissions : List ObjectPermission)
    (permission : ObjectPermission) (object : Json) : Prop :=
  ∃ name, object.asString = some name ∧
    (permission.objectApiName = name ∨
      (∀ other ∈ permissions, other.objectApiName ≠ name) ∧
        cfg.lowerCase permission.objectApiName = cfg.lowerCase name)

/-- The context has an entry for the object of the call that grants the operation. -/
def HasGrant (cfg : Config) (input : Json) (context : ExecutionContext) (tool : AgentTool)
    (operation : String) : Prop :=
  ∃ object, requiredObject tool input = some object ∧
    ∃ permission ∈ context.security.objectPermissions,
      permission.Names cfg context.security.objectPermissions object ∧
        permission.grants operation = true

/-- Every grant that a call of the tool needs is in place. -/
def Granted (cfg : Config) (toolName : String) (input : Json) (context : ExecutionContext)
    (tool : AgentTool) : Prop :=
  PassesGates cfg toolName input context tool ∧
    ∀ operation, nonEmpty tool.operation = some operation →
      HasGrant cfg input context tool operation

section gates
variable {cfg : Config} {toolName : String} {input : Json} {context : ExecutionContext}
  {tool : AgentTool}

/-- The risk gate in terms of the levels. -/
lemma riskLevel_cases (tool : AgentTool) (h : riskOrder tool.riskLevel < 4) :
    (tool.riskLevel ∈ ["L0", "L1", "L2"] ∧ riskOrder tool.riskLevel < 3) ∨
      (tool.riskLevel = "L3" ∧ riskOrder tool.riskLevel = 3) := by
  have hmem := tool.riskLevel_mem
  simp only [riskLevels, List.mem_cons, List.not_mem_nil, or_false] at hmem
  rcases hmem with e | e | e | e | e <;> rw [e] at h ⊢
  · exact .inl (by decide)
  · exact .inl (by decide)
  · exact .inl (by decide)
  · exact .inr (by decide)
  · exact absurd h (by decide)

/-- A registered tool has its name. -/
lemma registered_name (h : cfg.tools.find? (·.name = toolName) = some tool) :
    tool.name = toolName := by
  have hname := List.find?_some h
  exact of_decide_eq_true hname

/-- An entry that the lookup finds is an entry of the context and for the object. -/
lemma permissionOf_some {permissions : List ObjectPermission} {object : Json}
    {permission : ObjectPermission} (h : permissionOf cfg permissions object = .ok (some permission)) :
    permission ∈ permissions ∧ permission.Names cfg permissions object := by
  unfold permissionOf at h
  cases hobject : object.asString with
  | none =>
    rw [hobject] at h
    dsimp only at h
    split_ifs at h
    cases h
  | some name =>
    rw [hobject] at h
    dsimp only at h
    -- an exact entry decides before the folded names are compared
    cases hexact : permissions.find? (·.objectApiName = name) with
    | some found =>
      rw [hexact] at h
      cases h
      have hname := List.find?_some hexact
      exact ⟨List.mem_of_find?_eq_some hexact, name, hobject, .inl (of_decide_eq_true hname)⟩
    | none =>
      rw [hexact] at h
      dsimp only at h
      -- without one, a single entry of the folded name counts, and two are an error
      split at h
      next found hfolded =>
        cases h
        have hmem : permission ∈ permissions.filter
            fun p => cfg.lowerCase p.objectApiName = cfg.lowerCase name := by
          rw [hfolded]
          exact List.mem_singleton.2 rfl
        obtain ⟨hin, hname⟩ := List.mem_filter.1 hmem
        refine ⟨hin, name, hobject, .inr ⟨fun other hother heq => ?_, of_decide_eq_true hname⟩⟩
        exact List.find?_eq_none.1 hexact other hother (decide_eq_true heq)
      next => cases h

/-- The permission step lets a call pass that has its grant or no object. -/
lemma permission_passed (h : permissionRefusal cfg tool input context = .ok none)
    {operation : String} (hop : nonEmpty tool.operation = some operation) :
    requiredObject tool input = none ∨ HasGrant cfg input context tool operation := by
  unfold permissionRefusal at h
  rw [hop] at h
  cases hobject : requiredObject tool input with
  | none => exact .inl rfl
  | some object =>
    rw [hobject] at h
    dsimp only at h
    -- an object that no permission names is refused, with its text in the message
    cases hfound : permissionOf cfg context.security.objectPermissions object with
    | error e =>
      rw [hfound] at h
      cases h
    | ok found =>
      rw [hfound] at h
      cases found with
      | none =>
        cases htext : cfg.toText (.json object) with
        | error e =>
          simp only [bind, Except.bind, htext] at h
          cases h
        | ok text =>
          simp only [bind, Except.bind, htext] at h
          cases h
      | some permission =>
        obtain ⟨hmem, hnames⟩ := permissionOf_some hfound
        by_cases hgrants : permission.grants operation = true
        · exact .inr ⟨object, hobject, permission, hmem, hnames, hgrants⟩
        · cases htext : cfg.toText (.json object) with
          | error e =>
            simp only [bind, Except.bind, htext, hgrants] at h
            cases h
          | ok text =>
            simp only [bind, Except.bind, htext, hgrants] at h
            cases h

/-- A cleared call has passed the gates. -/
lemma Cleared.gates (h : Cleared cfg toolName input context tool) :
    PassesGates cfg toolName input context tool := by
  have hname := registered_name h.registered
  refine ⟨h.registered, hname ▸ h.allowed, h.schema, ?_⟩
  rcases riskLevel_cases tool h.below with ⟨hlevel, _⟩ | ⟨hlevel, horder⟩
  · exact .inl hlevel
  · have hgranted := h.granted (by omega)
    obtain ⟨grant, hgrant, heq⟩ := (Option.any_eq_true _ _).1 hgranted
    exact .inr ⟨hlevel, grant, hgrant, (of_decide_eq_true heq).trans hname⟩

end gates

/-! ## Runs of the body -/

/-- The statement is no run of a body, or one for which every grant is in place. -/
def Stmt.WithGrants (cfg : Config) (toolName : String) (input : Json) (context : ExecutionContext)
    (s : Stmt) : Prop :=
  ∀ invocation name bodyInput bodyContext, s = .runTool invocation name bodyInput bodyContext →
    name = toolName ∧ bodyInput = input ∧ bodyContext = context ∧
      ∃ tool, Granted cfg toolName input context tool

/-- In every interleaving with other programs the call runs the body with every grant in place. -/
def RunsWithGrants (cfg : Config) (invocation : Invocation) (toolName : String) (input : Json)
    (context : ExecutionContext) : Prop :=
  ∀ (ι : Type) [DecidableEq ι] (ans : Answers) (w : World) (p : ι → Act ToolCallResult) (i : ι)
    (sched : List ι), p i = executeTool cfg invocation toolName input context →
    ∀ o ∈ ((Pool.start w p).play (exec ans) sched).seen i,
      Stmt.WithGrants cfg toolName input context o.1

/-- The tool requires an operation, and neither its descriptor nor the input names an object that
the operation could be checked against; the other gates let the call pass, and its record takes the
input. -/
def Unchecked (cfg : Config) (toolName : String) (input : Json) (context : ExecutionContext) :
    Prop :=
  ∃ tool operation, PassesGates cfg toolName input context tool ∧
    nonEmpty tool.operation = some operation ∧ requiredObject tool input = none ∧
    isJsonValue input = true

section calls
variable {cfg : Config} {invocation : Invocation} {toolName : String} {input : Json}
  {context : ExecutionContext} {tool : AgentTool}

/-- Where a cleared call has every grant, the statements of the registry are bounded by it. -/
lemma executeTool_withGrants (h : ¬ Unchecked cfg toolName input context)
    (hinput : isJsonValue input = true) :
    (executeTool cfg invocation toolName input context).Uses
      (Stmt.WithGrants cfg toolName input context) := by
  have hregistry : ∀ s : Stmt, s.OfRegistry → Stmt.WithGrants cfg toolName input context s := by
    intro s hs invocation name bodyInput bodyContext heq
    subst heq
    exact hs.elim
  have hreg : RegistryCall (fun m _ _ => m) (fun _ s => Stmt.WithGrants cfg toolName input context s)
      cfg invocation toolName input context (fun _ : Unit => True) (fun _ => True) := by
    refine ⟨fun _ s hs _ => hregistry s hs, fun _ _ _ _ _ => trivial, fun _ _ _ _ _ => trivial,
      fun _ tool _ hcleared => ?_, fun _ _ _ _ => trivial⟩
    intro _ name bodyInput bodyContext heq
    cases heq
    have hgates := hcleared.gates
    refine ⟨registered_name hgates.registered, rfl, rfl, tool, hgates, fun operation hop => ?_⟩
    rcases permission_passed hcleared.permission hop with hnone | hgrant
    · exact absurd ⟨tool, operation, hgates, hop, hnone, hinput⟩ h
    · exact hgrant
  exact (hreg.executeTool (m := ()) trivial).uses

/-- A call whose input its record does not take runs nothing. -/
lemma executeTool_notJson (hinput : ¬ isJsonValue input = true) :
    (executeTool cfg invocation toolName input context).Uses
      (Stmt.WithGrants cfg toolName input context) := by
  unfold executeTool
  cases cfg.tools.find? (·.name = toolName) with
  | none => trivial
  | some tool =>
    dsimp only
    rw [Prog.uses_ite]
    refine ⟨fun _ => trivial, fun _ => ?_⟩
    unfold beginCall
    rw [if_neg hinput]
    trivial

/-- The permission step is left where there is no object. -/
lemma permissionRefusal_unchecked (h : requiredObject tool input = none) :
    permissionRefusal cfg tool input context = .ok none := by
  unfold permissionRefusal
  rw [h]
  cases nonEmpty tool.operation <;> rfl

/-- A call that passes the gates without an object runs the body when no statement fails. -/
lemma unchecked_runs {ans : Answers} (hans : ∀ n, ans.fails n = none)
    (h : PassesGates cfg toolName input context tool) {operation : String}
    (hop : nonEmpty tool.operation = some operation) (hobject : requiredObject tool input = none)
    (hinput : isJsonValue input = true) :
    ∃ n, ∃ o ∈ (executeTool cfg invocation toolName input context).observed (exec ans) n
      (World.fresh [] [] []), o.1 = .runTool invocation tool.name input context := by
  have hname := registered_name h.registered
  have hdurable : needsDurableApproval tool input context = false := by
    unfold needsDurableApproval
    rw [hop]
    simp
  have hallowed : tool.name ∈ context.constraints.allowedTools := hname ▸ h.allowed
  have hprog : executeTool cfg invocation toolName input context =
      (beginCall toolName input context >>= fun call =>
        riskGate invocation tool input context call) := by
    unfold executeTool executeRecorded
    rw [h.registered]
    simp only [hdurable, hallowed, not_true_eq_false, if_false, h.schema,
      permissionRefusal_unchecked hobject, Bool.false_eq_true]
  -- the record is opened, then taken to RUNNING, behind the log entry of a used grant
  rcases h.risk with hlow | ⟨hl3, grant, hgrant, hgrantName⟩
  · have horder : riskOrder tool.riskLevel < 3 := by
      simp only [List.mem_cons, List.not_mem_nil, or_false] at hlow
      rcases hlow with e | e | e <;> rw [e] <;> decide
    have hgate : ∀ call, riskGate invocation tool input context call =
        runStaticTool invocation tool input context call := by
      intro call
      unfold riskGate
      rw [if_neg (by omega), if_neg (by omega)]
    refine ⟨3, ?_⟩
    rw [hprog]
    simp only [hgate, beginCall, hinput, if_true]
    simp [Prog.observed, runStaticTool, transition, await, exec, answer, hans, reply,
      settle, effect, World.fresh, World.tick, Stmt.fallible, Act.ofExcept, ToolCallRecord.selected]
  · have hgate : ∀ call, riskGate invocation tool input context call =
        (logGovernanceEvent context tool tool.riskLevel "allow" >>= fun _ =>
          runStaticTool invocation tool input context call) := by
      intro call
      have horder : riskOrder tool.riskLevel = 3 := by
        rw [hl3]
        decide
      unfold riskGate
      rw [if_neg (by omega), if_pos (by omega), if_pos (by simp [hgrant, hgrantName, hname])]
    refine ⟨4, ?_⟩
    rw [hprog]
    simp only [hgate, beginCall, hinput, if_true]
    simp [Prog.observed, logGovernanceEvent, runStaticTool, transition, await, exec,
      answer, hans, reply, settle, effect, World.fresh, World.tick, Stmt.fallible, Act.ofExcept,
      ToolCallRecord.selected]

/-- A call that is unchecked has a run of the body without its grant. -/
lemma not_runsWithGrants (h : Unchecked cfg toolName input context) :
    ¬ RunsWithGrants cfg invocation toolName input context := by
  obtain ⟨tool, operation, hgates, hop, hobject, hinput⟩ := h
  intro hruns
  let quiet := Answers.smooth fun _ => 0
  have hquiet : ∀ n, quiet.fails n = none := fun _ => rfl
  obtain ⟨n, o, ho, hbody⟩ := unchecked_runs hquiet hgates hop hobject hinput
  have hseen := Pool.seen_solo (exec quiet) n
    (Pool.start (World.fresh [] [] []) fun _ => executeTool cfg invocation toolName input context)
  have hwith := hruns Unit quiet (World.fresh [] [] []) _ () (List.replicate n ()) rfl o
    (hseen ▸ List.mem_append_right _ ho)
  obtain ⟨_, _, _, other, hother, hpermission⟩ := hwith _ _ _ _ hbody
  have hsame : other = tool := by
    have hregistered := hother.registered.symm.trans hgates.registered
    exact Option.some.inj hregistered
  subst hsame
  obtain ⟨object, hsome, _⟩ := hpermission operation hop
  rw [hobject] at hsome
  cases hsome

end calls

/-- The registry runs a body only with every grant in place, for each call that has an object to
check its operation against and for no other that passes the gates. -/
theorem runs_with_grants_iff (cfg : Config) (invocation : Invocation) (toolName : String)
    (input : Json) (context : ExecutionContext) :
    RunsWithGrants cfg invocation toolName input context ↔
      ¬ Unchecked cfg toolName input context := by
  constructor
  · intro hruns hunchecked
    exact not_runsWithGrants hunchecked hruns
  · intro h ι _ ans w p i sched hp o ho
    have huses : (p i).Uses (Stmt.WithGrants cfg toolName input context) := by
      rw [hp]
      by_cases hinput : isJsonValue input = true
      · exact executeTool_withGrants h hinput
      · exact executeTool_notJson hinput
    have hstart : ∀ o ∈ (Pool.start w p).seen i, Stmt.WithGrants cfg toolName input context o.1 :=
      fun _ hnil => by cases hnil
    exact Pool.seen_of_uses (exec ans) huses hstart sched o ho

/-! ### A tool for any object -/

/-- A tool that deletes records of the object that its input names. -/
def purge : AgentTool where
  name := "record.purge"
  category := "crm"
  inputSchema := .empty
  objectApiName := none
  operation := some "delete"
  riskLevel := "L1"
  preparesApproval := false

/-- A deployment with that tool, in which every input is valid. -/
def Config.purging : Config :=
  { Config.small greeting with tools := [purge] }

/-- The context of an agent that may call the tool and has no permission for any object. -/
def purger : ExecutionContext :=
  contextFor
    { id := 1
      workspaceId := 1
      guardrailRules := { allowedTools := ["record.purge"] } }
    1 7 3 (.agent, 2) (.own none) none [] []

/-- Without an object in its input the tool runs although no permission grants its operation. -/
theorem purge_runs_unchecked :
    ¬ RunsWithGrants Config.purging { call := 0, approval := none } "record.purge" .empty purger :=
  not_runsWithGrants
    ⟨purge, "delete", ⟨rfl, by decide, rfl, .inl (by decide)⟩, rfl, rfl, by decide +kernel⟩

end NexusClaw.AgentRuntime
