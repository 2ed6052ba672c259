import NexusClaw.Concurrent.Outline
import NexusClaw.Community.Playground
import Mathlib.Data.Fintype.Basic

/-!
# Recycling a playground session

`recycleWorkspace` and `sweepOrphans` of `community-playground-session.service.ts`: awaited statements
on eleven tables without a transaction, between statements of anybody else. A call of the reaper is a
`recycleWorkspace` after another, so any family of calls is covered by any family of programs.
-/

namespace NexusClaw.Community.Playground

open Concurrent

/-! ## The database -/

inductive TableName where
  | workspaces
  | roles
  | users
  | workspaceMembers
  | objectMetadata
  | objectPermissions
  | agents
  | agentExecutions
  | approvalInstances
  | guardrailLogs
  | outboxEvents
deriving DecidableEq, Repr

inductive Column where
  | id
  | workspaceId
  | defaultWorkspaceId
  | roleId
  | agentId
deriving DecidableEq, Repr

/-- A row, with the columns that the statements read; a column that a table does not have is null. -/
structure Row where
  table : TableName
  id : String
  workspaceId : Option String := none
  defaultWorkspaceId : Option String := none
  roleId : Option String := none
  agentId : Option String := none
  displayName : Option String := none
deriving DecidableEq, Repr

def Row.get (row : Row) : Column → Option String
  | .id => some row.id
  | .workspaceId => row.workspaceId
  | .defaultWorkspaceId => row.defaultWorkspaceId
  | .roleId => row.roleId
  | .agentId => row.agentId

/-- The rows that `delete({ column: value })` finds in a table. -/
def Row.Hit (table : TableName) (column : Column) (value : String) (row : Row) : Prop :=
  row.table = table ∧ row.get column = some value

instance (table : TableName) (column : Column) (value : String) :
    DecidablePred (Row.Hit table column value) :=
  fun _ => inferInstanceAs (Decidable (_ ∧ _))

/-- `ON DELETE CASCADE`: an execution goes with its agent, a permission with its role. -/
def Row.Follows (row parent : Row) : Prop :=
  (row.table = .agentExecutions ∧ parent.table = .agents ∧ row.agentId = some parent.id) ∨
    (row.table = .objectPermissions ∧ parent.table = .roles ∧ row.roleId = some parent.id)

instance (row parent : Row) : Decidable (row.Follows parent) :=
  inferInstanceAs (Decidable (_ ∨ _))

/-- The rows after `delete({ column: value })` on a table. -/
def deleteRows (rows : List Row) (table : TableName) (column : Column) (value : String) : List Row :=
  rows.filter fun row =>
    ¬ (row.Hit table column value ∨
      ∃ parent ∈ rows, parent.Hit table column value ∧ row.Follows parent)

/-- `save` or `insert` of a row. -/
def putRow (rows : List Row) (row : Row) : List Row :=
  row :: rows.filter fun other => ¬ (other.table = row.table ∧ other.id = row.id)

/-- The columns of `workspaces` in the baseline migration, up to those that hold settings. -/
def workspaceColumns : List String :=
  ["id", "displayName", "logo", "logoDocumentId", "inviteHash", "allowImpersonation",
    "environmentType", "language", "dateFormat", "timeFormat", "numberFormat", "currencyPosition",
    "timezone", "businessHoursSchedule", "isGoogleAuthEnabled", "isMicrosoftAuthEnabled",
    "isPasswordAuthEnabled", "isPublicInviteLinkEnabled", "isTwoFactorAuthenticationEnforced",
    "trashRetentionDays", "editableProfileFields", "hasValidEnterpriseKey",
    "isGoogleAuthBypassEnabled", "isMicrosoftAuthBypassEnabled", "isPasswordAuthBypassEnabled",
    "sessionTimeoutMinutes", "isJitProvisioningEnabled", "fiscalYearStartMonth", "homeDashboardId",
    "homePageDefinitionId", "fastModel", "smartModel"]

/-- `w."column" LIKE 'start%'` over the workspaces, where the column is one of names; a column that
the table does not have is an error of the database. -/
def workspacesLike (rows : List Row) (column start : String) : Except String (List Row) :=
  if column ∈ workspaceColumns then
    .ok (rows.filter fun row => row.table = .workspaces ∧ column = "displayName" ∧
      (row.displayName.any fun name => start.toList.isPrefixOf name.toList))
  else .error ("column w." ++ column ++ " does not exist")

/-! ## Statements -/

inductive PlaygroundStatement where
  | findOne (table : TableName) (column : Column) (value : String)
  | workspacesLike (column start : String)
  | delete (table : TableName) (column : Column) (value : String)
  | put (row : Row)
  | forget (workspaceId : String)
  | clear
deriving DecidableEq, Repr

/-- The response of a statement. -/
abbrev Answer : PlaygroundStatement → Type
  | .findOne _ _ _ => Except String (Option Row)
  | .workspacesLike _ _ => Except String (List Row)
  | .delete _ _ _ => Except String Unit
  | .put _ => Except String Unit
  | .forget _ => Unit
  | .clear => Unit

/-- The database and the registry; the statement with number `n` fails if `fails n`, be it by a
constraint or by the connection. -/
structure PlaygroundWorld where
  rows : List Row
  registry : PlaygroundSessionRegistry
  fails : Nat → Bool
  issued : Nat

namespace PlaygroundWorld

def next (w : PlaygroundWorld) : PlaygroundWorld :=
  { w with issued := w.issued + 1 }

/-- The message of a statement that failed. -/
def failed : String :=
  "QueryFailedError"

def exec : (s : PlaygroundStatement) → PlaygroundWorld → PlaygroundWorld × Answer s
  | .findOne table column value, w =>
    if w.fails w.issued then (w.next, .error failed)
    else (w.next, .ok (w.rows.find? fun row => row.Hit table column value))
  | .workspacesLike column start, w =>
    if w.fails w.issued then (w.next, .error failed)
    else (w.next, Playground.workspacesLike w.rows column start)
  | .delete table column value, w =>
    if w.fails w.issued then (w.next, .error failed)
    else ({ w.next with rows := deleteRows w.rows table column value }, .ok ())
  | .put row, w =>
    if w.fails w.issued then (w.next, .error failed)
    else ({ w.next with rows := putRow w.rows row }, .ok ())
  | .forget workspaceId, w => ({ w with registry := w.registry.forget workspaceId }, ())
  | .clear, w => ({ w with registry := w.registry.clear }, ())

end PlaygroundWorld

/-! ## The service -/

abbrev PlaygroundProg (α : Type) : Type :=
  Prog PlaygroundStatement Answer String α

/-- `await` of a response that may be an error. -/
def awaited {α β : Type} (k : α → PlaygroundProg β) : Except String α → PlaygroundProg β
  | .ok a => k a
  | .error e => .throw e

def findOne (table : TableName) (column : Column) (value : String) :
    PlaygroundProg (Option Row) :=
  .stmt (.findOne table column value) (awaited .ret)

def delete (table : TableName) (column : Column) (value : String) : PlaygroundProg Unit :=
  .stmt (.delete table column value) (awaited .ret)

def forget (workspaceId : String) : PlaygroundProg Unit :=
  .stmt (.forget workspaceId) .ret

/-- `if (id) await f(id)` -/
def whenSome (id : Option String) (f : String → PlaygroundProg Unit) : PlaygroundProg Unit :=
  match id with
  | some id => f id
  | none => .ret ()

def recycleWorkspace (workspaceId : String) (roleId : Option String) : PlaygroundProg Unit := do
  let user ← findOne .users .defaultWorkspaceId workspaceId
  let effectiveRoleId := roleId <|> user.bind (·.roleId)
  delete .approvalInstances .workspaceId workspaceId
  delete .agentExecutions .workspaceId workspaceId
  delete .guardrailLogs .workspaceId workspaceId
  delete .outboxEvents .workspaceId workspaceId
  delete .agents .workspaceId workspaceId
  delete .workspaceMembers .workspaceId workspaceId
  whenSome effectiveRoleId fun roleId => delete .objectPermissions .roleId roleId
  whenSome (user.map (·.id)) fun userId => delete .users .id userId
  whenSome effectiveRoleId fun roleId => delete .roles .id roleId
  delete .objectMetadata .workspaceId workspaceId
  delete .workspaces .id workspaceId
  forget workspaceId

/-- The loop of `sweepOrphans`. -/
def sweepRows : List Row → Nat → PlaygroundProg Nat
  | [], swept => .ret swept
  | row :: rows, swept => do
    let user ← findOne .users .defaultWorkspaceId row.id
    recycleWorkspace row.id (user.bind (·.roleId))
    sweepRows rows (swept + 1)

/-- `.catch(() => [])` -/
def orEmpty : Except String (List Row) → List Row
  | .ok rows => rows
  | .error _ => []

def sweepOrphans : PlaygroundProg Nat := do
  let found ← Prog.call (.workspacesLike "display_name" "Playground ")
  let swept ← sweepRows (orEmpty found) 0
  let _ ← Prog.call PlaygroundStatement.clear
  return swept

/-- `onApplicationBootstrap`; the number is logged. -/
def bootstrap : PlaygroundProg Unit := do
  let _ ← sweepOrphans
  return ()

/-! ## Whose rows -/

/-- The workspace that the identifier of a role or of a user belongs to. -/
structure Ownership where
  role : String → Option String
  user : String → Option String

def Row.owner (own : Ownership) (row : Row) : Option String :=
  match row.table with
  | .workspaces => some row.id
  | .users => row.defaultWorkspaceId
  | .objectPermissions => row.roleId.bind own.role
  | _ => row.workspaceId

/-- No two workspaces use one identifier for a role or for a user. -/
def Row.Settled (own : Ownership) (row : Row) : Prop :=
  (row.table = .roles → own.role row.id = row.workspaceId) ∧
    (row.table = .users → own.user row.id = row.defaultWorkspaceId)

/-- The tables that are to be empty of a workspace. -/
def recycledTables : List TableName :=
  [.agentExecutions, .approvalInstances, .guardrailLogs, .outboxEvents, .agents, .workspaceMembers,
    .users, .roles]

/-- Those of them that are emptied by the identifier of the workspace. -/
def clearedTables : List TableName :=
  [.approvalInstances, .guardrailLogs, .outboxEvents, .agents, .workspaceMembers]

/-! ## Parties -/

/-- Who runs a program. -/
inductive Party where
  | recycles (workspaceId : String)
  | sweeps
  | other
deriving DecidableEq, Repr

/-- The program of a party; the others run what they like. -/
def Party.Runs : Party → PlaygroundProg Unit → Prop
  | .recycles workspaceId, p => p = recycleWorkspace workspaceId none
  | .sweeps, p => p = bootstrap
  | .other, _ => True

/-- The observation after which a table is not to receive a row of a workspace any more. -/
def Passes (workspaceId : String) (table : TableName) : Sigma Answer → Prop
  | ⟨.delete t column value, answer⟩ =>
    column = .workspaceId ∧ value = workspaceId ∧ answer = .ok () ∧
      (t = table ∧ table ∈ clearedTables ∨ t = .agents ∧ table = .agentExecutions)
  | ⟨.findOne t column value, answer⟩ =>
    t = .users ∧ column = .defaultWorkspaceId ∧ value = workspaceId ∧
      (Except.toOption answer).isSome ∧ (table = .users ∨ table = .roles)
  | ⟨.workspacesLike _ _, _⟩ | ⟨.put _, _⟩ | ⟨.forget _, _⟩ | ⟨.clear, _⟩ => False

instance (workspaceId : String) (table : TableName) : DecidablePred (Passes workspaceId table)
  | ⟨.delete _ _ _, .ok _⟩ => inferInstanceAs (Decidable (_ ∧ _ ∧ _ = Except.ok () ∧ _))
  | ⟨.delete _ _ _, .error _⟩ => isFalse fun h => nomatch h.2.2.1
  | ⟨.findOne _ _ _, _⟩ => inferInstanceAs (Decidable (_ ∧ _))
  | ⟨.workspacesLike _ _, _⟩ | ⟨.put _, _⟩ | ⟨.forget _, _⟩ | ⟨.clear, _⟩ => instDecidableFalse

/-- The user that `findOne` finds. -/
def userOf (rows : List Row) (workspaceId : String) : Option Row :=
  rows.find? fun row => row.Hit .users .defaultWorkspaceId workspaceId

/-- A workspace has one user at most, every role of the workspace is that user's, and that user's role
belongs to the workspace. -/
structure Sole (own : Ownership) (rows : List Row) (workspaceId : String) : Prop where
  users : ∀ row ∈ rows, row.Hit .users .defaultWorkspaceId workspaceId →
    (userOf rows workspaceId).map (·.id) = some row.id
  roles : ∀ row ∈ rows, row.Hit .roles .workspaceId workspaceId →
    (userOf rows workspaceId).bind (·.roleId) = some row.id
  role : ∀ id ∈ (userOf rows workspaceId).bind (·.roleId), own.role id = some workspaceId

instance (own : Ownership) (rows : List Row) (workspaceId : String) :
    Decidable (Sole own rows workspaceId) :=
  decidable_of_iff (_ ∧ _ ∧ _) ⟨fun h => ⟨h.1, h.2.1, h.2.2⟩, fun h => ⟨h.users, h.roles, h.role⟩⟩

/-- The executions of a workspace are those of its agents. -/
def AgentsOwned (rows : List Row) (workspaceId : String) : Prop :=
  ∀ row ∈ rows, row.table = .agentExecutions →
    (row.workspaceId = some workspaceId ↔
      ∃ agent ∈ rows, agent.Hit .agents .workspaceId workspaceId ∧ row.Follows agent)

/-- The condition on a step. A row goes into a table of a workspace only before a recycling of the
workspace is past that table; a recycling finds one user with the one role of the workspace; and it
deletes the agents when the executions of the workspace are those of its agents. -/
def Orderly {ι : Type} (own : Ownership) (party : ι → Party) (w : PlaygroundWorld)
    (H : ι → History PlaygroundStatement Answer) (i : ι) : PlaygroundStatement → Prop
  | .put row => row.Settled own ∧ ∀ v ∈ row.owner own, ∀ j, party j = .recycles v →
      ¬ Did (Passes v row.table) (H j)
  | .findOne table column v => table = .users → column = .defaultWorkspaceId →
      party i = .recycles v → Sole own w.rows v
  | .delete table column v => table = .agents → column = .workspaceId → party i = .recycles v →
      AgentsOwned w.rows v
  | .workspacesLike _ _ | .forget _ | .clear => True

instance (rows : List Row) (workspaceId : String) : Decidable (AgentsOwned rows workspaceId) :=
  inferInstanceAs (Decidable (∀ row ∈ rows, _ → (_ ↔ ∃ agent ∈ rows, _)))

instance (own : Ownership) (row : Row) : Decidable (row.Settled own) :=
  inferInstanceAs (Decidable (_ ∧ _))

instance {ι : Type} [Fintype ι] (own : Ownership) (party : ι → Party) (w : PlaygroundWorld)
    (H : ι → History PlaygroundStatement Answer) (i : ι) : DecidablePred (Orderly own party w H i)
  | .put row => inferInstanceAs (Decidable (row.Settled own ∧ ∀ v ∈ row.owner own, ∀ j,
      party j = .recycles v → ¬ ∃ o ∈ H j, Passes v row.table o))
  | .findOne table column v => inferInstanceAs (Decidable (table = .users →
      column = .defaultWorkspaceId → party i = .recycles v → Sole own w.rows v))
  | .delete table column v => inferInstanceAs (Decidable (table = .agents →
      column = .workspaceId → party i = .recycles v → AgentsOwned w.rows v))
  | .workspacesLike _ _ | .forget _ | .clear => instDecidableTrue

/-! ## What recycling is to do -/

/-- A delete statement for a workspace. -/
def RecycledBy (h : History PlaygroundStatement Answer) (workspaceId : String) : Prop :=
  ∃ o ∈ h, ∃ table column, o.1 = .delete table column workspaceId

/-- A run: the steps of a recycling delete nothing of other workspaces, a sweep recycles only
workspaces that `createSession` created and deletes nothing else, and what has been recycled is gone
once every operation of the workspace has ended. -/
structure Recycled {ι : Type} [DecidableEq ι] (own : Ownership) (party : ι → Party)
    (session : String → Prop) (owned : ι → String → Prop)
    (c : Pool PlaygroundStatement Answer String Unit PlaygroundWorld ι) (sched : List ι) : Prop where
  alone : ∀ before i after v, sched = before ++ i :: after → party i = .recycles v →
    ∀ row ∈ (c.play PlaygroundWorld.exec before).world.rows, row.owner own ≠ some v →
      row ∈ (c.play PlaygroundWorld.exec (before ++ [i])).world.rows
  orphans : ∀ i v, party i = .sweeps → RecycledBy ((c.play PlaygroundWorld.exec sched).seen i) v →
    session v
  sweptAlone : ∀ before i after, sched = before ++ i :: after → party i = .sweeps →
    ∀ row ∈ (c.play PlaygroundWorld.exec before).world.rows,
      (∀ v, row.owner own = some v → ¬ session v) →
        row ∈ (c.play PlaygroundWorld.exec (before ++ [i])).world.rows
  whole : ∀ i v, party i = .recycles v → (c.play PlaygroundWorld.exec sched).thread i = .ret () →
    (∀ j, owned j v → ((c.play PlaygroundWorld.exec sched).thread j).next? = none) →
      ∀ row ∈ (c.play PlaygroundWorld.exec sched).world.rows, row.table ∈ recycledTables →
        row.owner own ≠ some v

/-! ## Single statements -/

section statements
variable {w : PlaygroundWorld} {rows : List Row} {row : Row} {table : TableName} {column : Column}
  {value : String}

/-- A row is left if neither it nor its parent is deleted. -/
lemma mem_deleteRows : row ∈ deleteRows rows table column value ↔
    row ∈ rows ∧ ¬ (row.Hit table column value ∨
      ∃ parent ∈ rows, parent.Hit table column value ∧ row.Follows parent) := by
  simp only [deleteRows, List.mem_filter, decide_eq_true_eq]

/-- Where rows come from. -/
lemma exec_rows {s : PlaygroundStatement} (h : row ∈ (PlaygroundWorld.exec s w).1.rows) :
    row ∈ w.rows ∨ s = .put row := by
  cases s with
  | put new =>
    simp only [PlaygroundWorld.exec] at h
    split at h
    · exact .inl h
    · rcases List.mem_cons.mp h with rfl | h
      · exact .inr rfl
      · exact .inl (List.mem_of_mem_filter h)
  | delete table column value =>
    simp only [PlaygroundWorld.exec] at h
    split at h
    · exact .inl h
    · exact .inl (mem_deleteRows.mp h).1
  | findOne | workspacesLike =>
    simp only [PlaygroundWorld.exec] at h
    split at h <;> exact .inl h
  | forget | clear => exact .inl h

/-- Which rows a statement of no program but a `delete` or a `put` removes: none. -/
lemma exec_keeps {s : PlaygroundStatement} (hdelete : ∀ t c v, s ≠ .delete t c v)
    (hput : ∀ new, s ≠ .put new) (h : row ∈ w.rows) : row ∈ (PlaygroundWorld.exec s w).1.rows := by
  cases s with
  | put new => exact absurd rfl (hput new)
  | delete t c v => exact absurd rfl (hdelete t c v)
  | findOne | workspacesLike =>
    simp only [PlaygroundWorld.exec]
    split <;> exact h
  | forget | clear => exact h

/-- A deletion that succeeded. -/
lemma exec_delete_ok (h : (PlaygroundWorld.exec (.delete table column value) w).2 = .ok ()) :
    (PlaygroundWorld.exec (.delete table column value) w).1.rows =
      deleteRows w.rows table column value := by
  simp only [PlaygroundWorld.exec] at h ⊢
  split at h
  · cases h
  · next hfails =>
    rw [if_neg hfails]

/-- A row that is not hit stays. -/
lemma exec_delete_keeps (h : row ∈ w.rows)
    (hkeep : row ∈ deleteRows w.rows table column value) :
    row ∈ (PlaygroundWorld.exec (.delete table column value) w).1.rows := by
  simp only [PlaygroundWorld.exec]
  split
  · exact h
  · exact hkeep

/-- A lookup that succeeded. -/
lemma exec_findOne_ok {found : Option Row}
    (h : (PlaygroundWorld.exec (.findOne table column value) w).2 = .ok found) :
    found = w.rows.find? fun row => row.Hit table column value := by
  simp only [PlaygroundWorld.exec] at h
  split at h
  · cases h
  · exact (Except.ok.inj h).symm

/-- The table of the workspaces has no column `display_name`. -/
lemma exec_orphans {start : String} {found : List Row} :
    (PlaygroundWorld.exec (.workspacesLike "display_name" start) w).2 ≠ .ok found := by
  have hcolumn : "display_name" ∉ workspaceColumns := by decide +kernel
  simp only [PlaygroundWorld.exec, workspacesLike, if_neg hcolumn]
  split <;> exact nofun

end statements

/-! ## Along the programs -/

/-- What a recycling has found out about the user of the workspace. -/
def Found (workspaceId : String) (h : History PlaygroundStatement Answer) (user : Option Row) :
    Prop :=
  (⟨.findOne .users .defaultWorkspaceId workspaceId, .ok user⟩ : Sigma Answer) ∈ h

/-- A statement that was executed without an error. -/
def Deleted (table : TableName) (column : Column) (value : String)
    (h : History PlaygroundStatement Answer) : Prop :=
  (⟨.delete table column value, .ok ()⟩ : Sigma Answer) ∈ h

/-- The statements of a recycling, after what it has observed. -/
inductive Recycling (v : String) (h : History PlaygroundStatement Answer) :
    PlaygroundStatement → Prop where
  | find : Recycling v h (.findOne .users .defaultWorkspaceId v)
  | cleared {table} (ht : table ∈ clearedTables) : Recycling v h (.delete table .workspaceId v)
  | executions : Recycling v h (.delete .agentExecutions .workspaceId v)
  | objects : Recycling v h (.delete .objectMetadata .workspaceId v)
  | permissions {u id} (hfound : Found v h (some u)) (hid : u.roleId = some id) :
    Recycling v h (.delete .objectPermissions .roleId id)
  | user {u} (hfound : Found v h (some u)) : Recycling v h (.delete .users .id u.id)
  | role {u id} (hfound : Found v h (some u)) (hid : u.roleId = some id) :
    Recycling v h (.delete .roles .id id)
  | workspace : Recycling v h (.delete .workspaces .id v)
  | forget : Recycling v h (.forget v)

/-- A longer history. -/
lemma Recycling.mono {v : String} {h h' : History PlaygroundStatement Answer}
    {s : PlaygroundStatement} (hs : Recycling v h s) (hsubset : h ⊆ h') : Recycling v h' s := by
  cases hs with
  | find => exact .find
  | cleared ht => exact .cleared ht
  | executions => exact .executions
  | objects => exact .objects
  | permissions hfound hid => exact .permissions (hsubset hfound) hid
  | user hfound => exact .user (hsubset hfound)
  | role hfound hid => exact .role (hsubset hfound) hid
  | workspace => exact .workspace
  | forget => exact .forget

/-- What a recycling has done when it ends. -/
structure Done (v : String) (h : History PlaygroundStatement Answer) : Prop where
  cleared : ∀ table ∈ clearedTables, Deleted table .workspaceId v h
  user : ∃ user, Found v h user ∧ (∀ row ∈ user, Deleted .users .id row.id h) ∧
    ∀ id ∈ user.bind (·.roleId), Deleted .roles .id id h

section along
variable {α : Type} {φ : History PlaygroundStatement Answer → PlaygroundStatement → Prop}
  {Q : History PlaygroundStatement Answer → α → Prop} {h : History PlaygroundStatement Answer}
  {table : TableName} {column : Column} {value : String}

/-- A deletion in front of the rest. -/
lemma along_delete {f : Unit → PlaygroundProg α} (hs : φ h (.delete table column value))
    (hf : Along φ Q (h ++ [⟨.delete table column value, .ok ()⟩]) (f ())) :
    Along φ Q h (delete table column value >>= f) := by
  refine ⟨hs, fun r => ?_⟩
  cases r with
  | error e => trivial
  | ok r => exact hf

/-- A lookup in front of the rest. -/
lemma along_findOne {f : Option Row → PlaygroundProg α} (hs : φ h (.findOne table column value))
    (hf : ∀ row, Along φ Q (h ++ [⟨.findOne table column value, .ok row⟩]) (f row)) :
    Along φ Q h (findOne table column value >>= f) := by
  refine ⟨hs, fun r => ?_⟩
  cases r with
  | error e => trivial
  | ok row => exact hf row

end along

/-- A recycling that returns is done. -/
lemma recycleWorkspace_along (v : String) :
    Along (Recycling v) (fun h _ => Done v h) [] (recycleWorkspace v none) := by
  apply along_findOne .find
  intro user
  refine along_delete (.cleared (by decide)) (along_delete .executions
    (along_delete (.cleared (by decide)) (along_delete (.cleared (by decide))
      (along_delete (.cleared (by decide)) (along_delete (.cleared (by decide)) ?_)))))
  -- without a user, or one without a role, there is less to delete
  cases user with
  | none =>
    refine along_delete .objects (along_delete .workspace ⟨.forget, fun _ => ⟨?_, none, ?_⟩⟩)
    · simp [clearedTables, Deleted]
    · simp [Found]
  | some user =>
    cases hrole : user.roleId with
    | none =>
      simp only [Option.bind_some, hrole, Option.map_some]
      refine along_delete (.user (u := user) ?_) (along_delete .objects
        (along_delete .workspace ⟨.forget, fun _ => ⟨?_, some user, ?_⟩⟩))
      · simp [Found]
      · simp [clearedTables, Deleted]
      · simp [Found, Deleted, hrole]
    | some id =>
      simp only [Option.bind_some, hrole, Option.map_some]
      refine along_delete (.permissions (u := user) ?_ hrole) (along_delete (.user (u := user) ?_)
        (along_delete (.role (u := user) ?_ hrole) (along_delete .objects
          (along_delete .workspace ⟨.forget, fun _ => ⟨?_, some user, ?_⟩⟩))))
      · simp [Found]
      · simp [Found]
      · simp [Found]
      · simp [clearedTables, Deleted]
      · simp [Found, Deleted, hrole]

/-- Every program uses some statements. -/
lemma uses_true {α : Type} (p : PlaygroundProg α) : p.Uses fun _ => True := by
  induction p with
  | ret a => trivial
  | throw e => trivial
  | stmt s k ih => exact ⟨trivial, ih⟩

/-- A sweep has found workspaces. -/
def FoundOrphans (h : History PlaygroundStatement Answer) : Prop :=
  ∃ start rows, (⟨.workspacesLike "display_name" start, .ok rows⟩ : Sigma Answer) ∈ h

/-- The statements of a sweep, until it finds workspaces. -/
def Sweeping (h : History PlaygroundStatement Answer) (s : PlaygroundStatement) : Prop :=
  FoundOrphans h ∨ s = .workspacesLike "display_name" "Playground " ∨ s = .clear

/-- The sweep issues what a sweep may. -/
lemma bootstrap_along : Along Sweeping (fun _ _ => True) [] bootstrap := by
  refine ⟨.inr (.inl rfl), fun found => ?_⟩
  cases found with
  | error e => exact ⟨.inr (.inr rfl), fun _ => trivial⟩
  | ok rows =>
    -- nothing is claimed of the statements that come after a response with rows
    have hfound : FoundOrphans ([] ++ [⟨.workspacesLike "display_name" "Playground ", .ok rows⟩]) :=
      ⟨_, _, List.mem_cons_self⟩
    exact (Along.of_uses (uses_true _) hfound (fun h s _ hrows => .inl hrows)
      fun h s r _ hrows => hrows.imp fun start => Exists.imp fun rows hmem =>
        List.mem_append_left _ hmem).mono (fun _ _ hs => hs) fun _ _ _ => trivial

/-- What is known of the statements of a party. -/
def Party.Issues : Party → History PlaygroundStatement Answer → PlaygroundStatement → Prop
  | .recycles v, h, s => Recycling v h s
  | .sweeps, h, s => Sweeping h s
  | .other, _, _ => True

/-! ## The invariant -/

/-- What the rows have to do with what has been observed. -/
structure Held {ι : Type} (own : Ownership) (party : ι → Party) (rows : List Row)
    (H : ι → History PlaygroundStatement Answer) : Prop where
  settled : ∀ row ∈ rows, row.Settled own
  cleared : ∀ j v table, party j = .recycles v → table ∈ .agentExecutions :: clearedTables →
    Did (Passes v table) (H j) → ∀ row ∈ rows, row.table = table → row.workspaceId ≠ some v
  users : ∀ j v user, party j = .recycles v → Found v (H j) user → ∀ row ∈ rows,
    row.Hit .users .defaultWorkspaceId v → user.map (·.id) = some row.id
  roles : ∀ j v user, party j = .recycles v → Found v (H j) user → ∀ row ∈ rows,
    row.Hit .roles .workspaceId v → user.bind (·.roleId) = some row.id
  role : ∀ j v user, party j = .recycles v → Found v (H j) user →
    ∀ id ∈ user.bind (·.roleId), own.role id = some v
  user : ∀ j v user, party j = .recycles v → Found v (H j) user →
    ∀ row ∈ user, own.user row.id = some v
  deleted : ∀ j v table id, party j = .recycles v → table = .users ∨ table = .roles →
    Deleted table .id id (H j) → ∀ row ∈ rows, row.table = table → row.id ≠ id
  traced : ∀ j v table id, party j = .recycles v → Deleted table .id id (H j) →
    Recycling v (H j) (.delete table .id id)
  orphans : ∀ j, ¬ FoundOrphans (H j)
  swept : ∀ j, party j = .sweeps → ∀ o ∈ H j, ∀ table column value,
    o.1 ≠ .delete table column value

section step
variable {ι : Type} [DecidableEq ι] {own : Ownership} {party : ι → Party} {w : PlaygroundWorld}
  {H : ι → History PlaygroundStatement Answer} {i : ι} {s : PlaygroundStatement}

/-- A new observation of `Found` is the response of the database. -/
lemma found_observe {j : ι} {v : String} {user : Option Row}
    (h : Found v (observe H i s (PlaygroundWorld.exec s w).2 j) user) :
    Found v (H j) user ∨
      j = i ∧ s = .findOne .users .defaultWorkspaceId v ∧ user = userOf w.rows v := by
  rcases (mem_observe_iff H i j s _ _).mp h with hold | ⟨rfl, hnew⟩
  · exact .inl hold
  · obtain ⟨rfl, hresponse⟩ := Sigma.mk.inj hnew
    exact .inr ⟨rfl, rfl, exec_findOne_ok (eq_of_heq hresponse).symm⟩

/-- A table that is deleted from stays so. -/
lemma deleted_observe {j : ι} {table : TableName} {column : Column} {value : String}
    (h : Deleted table column value (observe H i s (PlaygroundWorld.exec s w).2 j)) :
    Deleted table column value (H j) ∨ j = i ∧ s = .delete table column value ∧
      (PlaygroundWorld.exec s w).1.rows = deleteRows w.rows table column value := by
  rcases (mem_observe_iff H i j s _ _).mp h with hold | ⟨rfl, hnew⟩
  · exact .inl hold
  · obtain ⟨rfl, hresponse⟩ := Sigma.mk.inj hnew
    exact .inr ⟨rfl, rfl, exec_delete_ok (eq_of_heq hresponse).symm⟩

/-- What passes a table is one of three deletions. -/
lemma passes_cases {v : String} {table : TableName} {o : Sigma Answer} (h : Passes v table o) :
    (∃ t, o = ⟨.delete t .workspaceId v, .ok ()⟩ ∧
        (t = table ∧ table ∈ clearedTables ∨ t = .agents ∧ table = .agentExecutions)) ∨
      ∃ user, o = ⟨.findOne .users .defaultWorkspaceId v, .ok user⟩ ∧
        (table = .users ∨ table = .roles) := by
  obtain ⟨s, answer⟩ := o
  cases s with
  | delete t column value =>
    obtain ⟨rfl, rfl, rfl, htable⟩ := h
    exact .inl ⟨t, rfl, htable⟩
  | findOne t column value =>
    obtain ⟨rfl, rfl, rfl, hanswer, htable⟩ := h
    cases answer with
    | error e => cases hanswer
    | ok user => exact .inr ⟨user, rfl, htable⟩
  | workspacesLike | put | forget | clear => exact h.elim

/-- A new passage is that of a delete by the identifier of the workspace. -/
lemma passes_observe {j : ι} {v : String} {table : TableName}
    (htable : table ∈ .agentExecutions :: clearedTables)
    (h : Did (Passes v table) (observe H i s (PlaygroundWorld.exec s w).2 j)) :
    Did (Passes v table) (H j) ∨ j = i ∧ ∃ t, s = .delete t .workspaceId v ∧
      (PlaygroundWorld.exec s w).1.rows = deleteRows w.rows t .workspaceId v ∧
        (t = table ∨ t = .agents ∧ table = .agentExecutions) := by
  rcases (did_observe _ H i j s _).mp h with hold | ⟨rfl, hnew⟩
  · exact .inl hold
  · rcases passes_cases hnew with ⟨t, ho, hpassed⟩ | ⟨user, ho, hpassed⟩
    · obtain ⟨rfl, hresponse⟩ := Sigma.mk.inj ho
      exact .inr ⟨rfl, t, rfl, exec_delete_ok (eq_of_heq hresponse), hpassed.imp And.left id⟩
    · rcases hpassed with rfl | rfl <;> exact absurd htable (by decide)

/-- The owner of a row of a cleared table. -/
lemma owner_of_cleared {row : Row} (h : row.table ∈ .agentExecutions :: clearedTables) :
    row.owner own = row.workspaceId := by
  unfold Row.owner
  split
  · next htable => exact absurd h (by rw [htable]; decide)
  · next htable => exact absurd h (by rw [htable]; decide)
  · next htable => exact absurd h (by rw [htable]; decide)
  · rfl

/-- What one statement of a party keeps. -/
lemma held_step (h : Held own party w.rows H) (hissues : (party i).Issues (H i) s)
    (horderly : Orderly own party w H i s) :
    Held own party (PlaygroundWorld.exec s w).1.rows (observe H i s (PlaygroundWorld.exec s w).2) where
  settled row hrow := by
    rcases exec_rows hrow with hold | rfl
    · exact h.settled row hold
    · exact horderly.1
  cleared j v table hparty htable hdid row hrow hrowtable howner := by
    rcases passes_observe htable hdid with hbefore | ⟨rfl, t, rfl, hrows, hpassed⟩
    · rcases exec_rows hrow with hold | rfl
      · exact h.cleared j v table hparty htable hbefore row hold hrowtable howner
      · have howner' : row.owner own = some v :=
          (owner_of_cleared (hrowtable ▸ htable)).trans howner
        exact horderly.2 v howner' j hparty (hrowtable ▸ hbefore)
    · rw [hrows] at hrow
      obtain ⟨hmem, hkept⟩ := mem_deleteRows.mp hrow
      rcases hpassed with rfl | ⟨rfl, rfl⟩
      · exact hkept (.inl ⟨hrowtable, howner⟩)
      · -- an execution of the workspace goes with its agent
        have howned : AgentsOwned w.rows v := horderly rfl rfl hparty
        obtain ⟨agent, hagent, hhit, hfollows⟩ := (howned row hmem hrowtable).mp howner
        exact hkept (.inr ⟨agent, hagent, hhit, hfollows⟩)
  users j v user hparty hfound row hrow hhit := by
    rcases found_observe hfound with hbefore | ⟨rfl, rfl, rfl⟩
    · rcases exec_rows hrow with hold | rfl
      · exact h.users j v user hparty hbefore row hold hhit
      · have howner : row.owner own = some v := by
          simp only [Row.owner, hhit.1]
          exact hhit.2
        have hpassed : Passes v row.table ⟨.findOne .users .defaultWorkspaceId v, .ok user⟩ :=
          ⟨rfl, rfl, rfl, rfl, .inl hhit.1⟩
        exact absurd ⟨_, hbefore, hpassed⟩ (horderly.2 v howner j hparty)
    · have hsole : Sole own w.rows v := horderly rfl rfl hparty
      rcases exec_rows hrow with hold | hput
      · exact hsole.users row hold hhit
      · cases hput
  roles j v user hparty hfound row hrow hhit := by
    rcases found_observe hfound with hbefore | ⟨rfl, rfl, rfl⟩
    · rcases exec_rows hrow with hold | rfl
      · exact h.roles j v user hparty hbefore row hold hhit
      · have howner : row.owner own = some v := by
          simp only [Row.owner, hhit.1]
          exact hhit.2
        have hpassed : Passes v row.table ⟨.findOne .users .defaultWorkspaceId v, .ok user⟩ :=
          ⟨rfl, rfl, rfl, rfl, .inr hhit.1⟩
        exact absurd ⟨_, hbefore, hpassed⟩ (horderly.2 v howner j hparty)
    · have hsole : Sole own w.rows v := horderly rfl rfl hparty
      rcases exec_rows hrow with hold | hput
      · exact hsole.roles row hold hhit
      · cases hput
  role j v user hparty hfound id hid := by
    rcases found_observe hfound with hbefore | ⟨rfl, rfl, rfl⟩
    · exact h.role j v user hparty hbefore id hid
    · have hsole : Sole own w.rows v := horderly rfl rfl hparty
      exact hsole.role id hid
  user j v user hparty hfound row hrow := by
    rcases found_observe hfound with hbefore | ⟨rfl, rfl, rfl⟩
    · exact h.user j v user hparty hbefore row hrow
    · have hmem := List.mem_of_find?_eq_some hrow
      have hhit : row.Hit .users .defaultWorkspaceId v := by
        simpa using List.find?_some hrow
      exact ((h.settled row hmem).2 hhit.1).trans hhit.2
  deleted j v table id hparty htable hdeleted row hrow hrowtable hid := by
    rcases deleted_observe hdeleted with hbefore | ⟨rfl, rfl, hrows⟩
    · rcases exec_rows hrow with hold | rfl
      · exact h.deleted j v table id hparty htable hbefore row hold hrowtable hid
      · -- the row would come back under an identifier of the workspace
        have hissued := h.traced j v table id hparty hbefore
        rcases htable with rfl | rfl
        · cases hissued with
          | user hfound =>
            have howner : row.owner own = some v := by
              simp only [Row.owner, hrowtable]
              rw [← horderly.1.2 hrowtable, hid]
              exact h.user j v _ hparty hfound _ rfl
            exact horderly.2 v howner j hparty ⟨_, hfound, rfl, rfl, rfl, rfl, .inl hrowtable⟩
        · cases hissued with
          | role hfound hrole =>
            have howner : row.owner own = some v := by
              simp only [Row.owner, hrowtable]
              rw [← horderly.1.1 hrowtable, hid]
              exact h.role j v _ hparty hfound _ hrole
            exact horderly.2 v howner j hparty ⟨_, hfound, rfl, rfl, rfl, rfl, .inr hrowtable⟩
    · rw [hrows] at hrow
      exact (mem_deleteRows.mp hrow).2 (.inl ⟨hrowtable, congrArg some hid⟩)
  traced j v table id hparty hdeleted := by
    have hsubset : H j ⊆ observe H i s (PlaygroundWorld.exec s w).2 j :=
      fun o ho => mem_observe H i j s _ ho
    rcases deleted_observe hdeleted with hbefore | ⟨rfl, rfl, -⟩
    · exact (h.traced j v table id hparty hbefore).mono hsubset
    · rw [hparty] at hissues
      exact Recycling.mono hissues hsubset
  orphans j hfound := by
    obtain ⟨start, rows, hmem⟩ := hfound
    rcases (mem_observe_iff H i j s _ _).mp hmem with hold | ⟨-, hnew⟩
    · exact h.orphans j ⟨start, rows, hold⟩
    · obtain ⟨rfl, hresponse⟩ := Sigma.mk.inj hnew
      exact exec_orphans (eq_of_heq hresponse).symm
  swept j hparty o ho table column value hdelete := by
    rcases (mem_observe_iff H i j s _ _).mp ho with hold | ⟨rfl, rfl⟩
    · exact h.swept j hparty o hold table column value hdelete
    · rw [hparty] at hissues
      subst hdelete
      rcases hissues with hfound | hlike | hclear
      · exact h.orphans j hfound
      · cases hlike
      · cases hclear

end step

/-! ## Whole runs -/

section runs
variable {ι : Type} [DecidableEq ι] {own : Ownership} {party : ι → Party} {w : PlaygroundWorld}
  {p : ι → PlaygroundProg Unit} {sched : List ι}

omit [DecidableEq ι] in
/-- Every party keeps to its statements. -/
lemma party_along {i : ι} (h : (party i).Runs (p i)) :
    Along (party i).Issues
      (fun h _ => ∀ v, party i = .recycles v → Done v h) [] (p i) := by
  cases hparty : party i with
  | recycles v =>
    rw [hparty] at h
    rw [show p i = recycleWorkspace v none from h]
    refine (recycleWorkspace_along v).mono (fun _ _ hs => hs) fun h _ hdone v' hv => ?_
    cases hv
    exact hdone
  | sweeps =>
    rw [hparty] at h
    rw [show p i = bootstrap from h]
    refine bootstrap_along.mono (fun _ _ hs => hs) fun _ _ _ _ hv => ?_
    cases hv
  | other =>
    have hall : Along (fun _ _ => True) (fun _ _ => True) [] (p i) :=
      Along.of_uses (J := fun _ => True) (uses_true (p i)) trivial (fun _ _ _ _ => trivial)
        fun _ _ _ _ _ => trivial
    refine hall.mono (fun _ _ hs => hs) fun _ _ _ _ hv => ?_
    cases hv

omit [DecidableEq ι] in
/-- Before anything is observed there is little to hold. -/
lemma held_start (hsettled : ∀ row ∈ w.rows, row.Settled own) :
    Held own party w.rows fun _ : ι => [] where
  settled := hsettled
  cleared _ _ _ _ _ hdid := absurd hdid (did_nil _)
  users _ _ _ _ hfound := absurd hfound List.not_mem_nil
  roles _ _ _ _ hfound := absurd hfound List.not_mem_nil
  role _ _ _ _ hfound := absurd hfound List.not_mem_nil
  user _ _ _ _ hfound := absurd hfound List.not_mem_nil
  deleted _ _ _ _ _ _ hdeleted := absurd hdeleted List.not_mem_nil
  traced _ _ _ _ _ hdeleted := absurd hdeleted List.not_mem_nil
  orphans _ hfound := by
    obtain ⟨start, rows, hmem⟩ := hfound
    exact absurd hmem List.not_mem_nil
  swept _ _ o ho := absurd ho List.not_mem_nil

/-- The invariant along the program of a party. -/
lemma party_outline {i : ι} (h : (party i).Runs (p i)) :
    Outline PlaygroundWorld.exec (fun w H => Held own party w.rows H) (Orderly own party)
      (fun _ _ => True) i [] (p i) :=
  Outline.of_along (party_along h)
    (fun _ _ _ hissues hheld horderly => held_step hheld hissues horderly)
    (fun _ _ _ => trivial) fun _ _ => trivial

/-- The invariant after a run. -/
lemma held_play (hruns : ∀ i, (party i).Runs (p i)) (hsettled : ∀ row ∈ w.rows, row.Settled own)
    (hguarded : Pool.Guarded PlaygroundWorld.exec (Orderly own party) (Pool.start w p) sched) :
    Held own party ((Pool.start w p).play PlaygroundWorld.exec sched).world.rows
      ((Pool.start w p).play PlaygroundWorld.exec sched).seen :=
  (Outline.play (I := fun w H => Held own party w.rows H) (held_start hsettled)
    (fun i => party_outline (hruns i)) hguarded).1

/-- So it does in every run. -/
lemma along_play (hruns : ∀ i, (party i).Runs (p i)) (sched : List ι) (i : ι) :
    Along (party i).Issues (fun h _ => ∀ v, party i = .recycles v → Done v h)
      (((Pool.start w p).play PlaygroundWorld.exec sched).seen i)
      (((Pool.start w p).play PlaygroundWorld.exec sched).thread i) :=
  Along.play (fun i => party_along (hruns i)) sched i

/-- A row stays when the statement that a program may issue keeps it. -/
lemma step_keeps {c : Pool PlaygroundStatement Answer String Unit PlaygroundWorld ι} {i : ι}
    {G : PlaygroundWorld → (ι → History PlaygroundStatement Answer) → ι → PlaygroundStatement → Prop}
    {φ : History PlaygroundStatement Answer → PlaygroundStatement → Prop}
    {Q : History PlaygroundStatement Answer → Unit → Prop} {row : Row} (hrow : row ∈ c.world.rows)
    (hstep : Pool.StepOk G c i) (halong : Along φ Q (c.seen i) (c.thread i))
    (hkeeps : ∀ s, φ (c.seen i) s → G c.world c.seen i s →
      row ∈ (PlaygroundWorld.exec s c.world).1.rows) :
    row ∈ (c.advance PlaygroundWorld.exec i).world.rows := by
  cases hi : c.thread i with
  | ret a => rwa [Pool.advance_ret hi]
  | throw e => rwa [Pool.advance_throw hi]
  | stmt s k =>
    rw [hi] at halong
    have horderly : G c.world c.seen i s := by simpa only [Pool.StepOk, hi] using hstep
    rw [Pool.advance_stmt hi]
    exact hkeeps s halong.1 horderly

/-- A delete that finds and takes along only rows of one workspace keeps all others. -/
lemma delete_alone {c : PlaygroundWorld} {v : String} {table : TableName} {column : Column}
    {value : String} {row : Row} (hrow : row ∈ c.rows) (hother : row.owner own ≠ some v)
    (hhit : row.Hit table column value → row.owner own = some v)
    (hfollows : ∀ parent ∈ c.rows, parent.Hit table column value → row.Follows parent →
      row.owner own = some v) :
    row ∈ (PlaygroundWorld.exec (.delete table column value) c).1.rows := by
  apply exec_delete_keeps hrow
  refine mem_deleteRows.mpr ⟨hrow, ?_⟩
  rintro (hit | ⟨parent, hparent, hit, hfollow⟩)
  · exact hother (hhit hit)
  · exact hother (hfollows parent hparent hit hfollow)

/-- A row follows its agent or its role alone. -/
lemma not_follows {row parent : Row} (hagents : parent.table ≠ .agents)
    (hroles : parent.table ≠ .roles) : ¬ row.Follows parent := by
  rintro (⟨-, htable, -⟩ | ⟨-, htable, -⟩)
  · exact hagents htable
  · exact hroles htable

/-- A delete by the identifier of the workspace. -/
lemma whole_alone {c : PlaygroundWorld} {v : String} {table : TableName} {row : Row}
    (hrow : row ∈ c.rows) (hother : row.owner own ≠ some v)
    (howner : ∀ row : Row, row.table = table → row.owner own = row.workspaceId)
    (hagents : table = .agents → AgentsOwned c.rows v) (hroles : table ≠ .roles) :
    row ∈ (PlaygroundWorld.exec (.delete table .workspaceId v) c).1.rows := by
  apply delete_alone hrow hother
  · intro hhit
    exact (howner row hhit.1).trans hhit.2
  · intro parent hparent hhit hfollow
    by_cases htable : table = .agents
    · have hexecution : row.table = .agentExecutions := by
        rcases hfollow with ⟨hexecution, -, -⟩ | ⟨-, hrole, -⟩
        · exact hexecution
        · exact absurd (hhit.1.symm.trans hrole) hroles
      have howned := (hagents htable row hrow hexecution).mpr
        ⟨parent, hparent, htable ▸ hhit, hfollow⟩
      have htables : row.table ∈ .agentExecutions :: clearedTables := by
        rw [hexecution]
        exact List.mem_cons_self
      exact (owner_of_cleared htables).trans howned
    · exact absurd hfollow (not_follows (hhit.1 ▸ htable) (hhit.1 ▸ hroles))

omit [DecidableEq ι] in
/-- A statement of a recycling deletes nothing of other workspaces. -/
lemma recycling_alone {c : PlaygroundWorld} {H : ι → History PlaygroundStatement Answer} {i : ι}
    {v : String} {s : PlaygroundStatement} (hheld : Held own party c.rows H)
    (hparty : party i = .recycles v) (hissued : Recycling v (H i) s)
    (horderly : Orderly own party c H i s) {row : Row} (hrow : row ∈ c.rows)
    (hother : row.owner own ≠ some v) : row ∈ (PlaygroundWorld.exec s c).1.rows := by
  -- one case for each statement that a recycling may issue
  cases hissued with
  | find => exact exec_keeps (fun _ _ _ h => by cases h) (fun _ h => by cases h) hrow
  | forget => exact exec_keeps (fun _ _ _ h => by cases h) (fun _ h => by cases h) hrow
  | cleared ht =>
    apply whole_alone hrow hother
    · intro row htable
      exact owner_of_cleared (htable ▸ List.mem_cons_of_mem _ ht)
    · intro htable
      subst htable
      exact horderly rfl rfl hparty
    · intro htable
      subst htable
      exact absurd ht (by decide)
  | executions =>
    refine whole_alone hrow hother (fun row htable => ?_) nofun nofun
    exact owner_of_cleared (htable ▸ List.mem_cons_self)
  | objects =>
    refine whole_alone hrow hother (fun row htable => ?_) nofun nofun
    simp only [Row.owner, htable]
  | @permissions u id hfound hid =>
    apply delete_alone hrow hother
    · intro hhit
      have hrole : row.roleId = some id := hhit.2
      simp only [Row.owner, hhit.1, hrole, Option.bind_some]
      exact hheld.role i v (some u) hparty hfound id hid
    · intro parent _ hhit hfollow
      exact absurd hfollow
        (not_follows (hhit.1.trans_ne (by decide)) (hhit.1.trans_ne (by decide)))
  | @user u hfound =>
    apply delete_alone hrow hother
    · intro hhit
      have hid : row.id = u.id := Option.some.inj hhit.2
      simp only [Row.owner, hhit.1]
      rw [← (hheld.settled row hrow).2 hhit.1, hid]
      exact hheld.user i v (some u) hparty hfound u rfl
    · intro parent _ hhit hfollow
      exact absurd hfollow
        (not_follows (hhit.1.trans_ne (by decide)) (hhit.1.trans_ne (by decide)))
  | @role u id hfound hrole =>
    have howned := hheld.role i v (some u) hparty hfound id hrole
    apply delete_alone hrow hother
    · intro hhit
      have hid : row.id = id := Option.some.inj hhit.2
      simp only [Row.owner, hhit.1]
      rw [← (hheld.settled row hrow).1 hhit.1, hid]
      exact howned
    · intro parent _ hhit hfollow
      rcases hfollow with ⟨-, hagents, -⟩ | ⟨htable, -, hfollow⟩
      · exact absurd (hhit.1.symm.trans hagents) nofun
      · have hid : parent.id = id := Option.some.inj hhit.2
        simp only [Row.owner, htable, hfollow, hid, Option.bind_some]
        exact howned
  | workspace =>
    apply delete_alone hrow hother
    · intro hhit
      simp only [Row.owner, hhit.1]
      exact hhit.2
    · intro parent _ hhit hfollow
      exact absurd hfollow
        (not_follows (hhit.1.trans_ne (by decide)) (hhit.1.trans_ne (by decide)))

omit [DecidableEq ι] in
/-- What is gone when a recycling has ended. -/
lemma done_whole {c : PlaygroundWorld} {H : ι → History PlaygroundStatement Answer} {i : ι}
    {v : String} (hheld : Held own party c.rows H) (hparty : party i = .recycles v)
    (hdone : Done v (H i)) {row : Row} (hrow : row ∈ c.rows) (htable : row.table ∈ recycledTables) :
    row.owner own ≠ some v := by
  intro howner
  obtain ⟨user, hfound, husers, hroles⟩ := hdone.user
  by_cases husertable : row.table = .users
  · have hhit : row.Hit .users .defaultWorkspaceId v := by
      refine ⟨husertable, ?_⟩
      simpa only [Row.owner, husertable, Row.get] using howner
    obtain ⟨u, rfl, hid⟩ := Option.map_eq_some_iff.mp
      (hheld.users i v user hparty hfound row hrow hhit)
    exact hheld.deleted i v .users u.id hparty (.inl rfl) (husers u rfl) row hrow husertable hid.symm
  by_cases hroletable : row.table = .roles
  · have hhit : row.Hit .roles .workspaceId v := by
      refine ⟨hroletable, ?_⟩
      simpa only [Row.owner, hroletable, Row.get] using howner
    have hid := hheld.roles i v user hparty hfound row hrow hhit
    exact hheld.deleted i v .roles row.id hparty (.inr rfl) (hroles row.id hid) row hrow hroletable rfl
  have hcleared : row.table ∈ .agentExecutions :: clearedTables := by
    revert htable husertable hroletable
    cases row.table <;> decide
  have hdid : Did (Passes v row.table) (H i) := by
    rcases List.mem_cons.mp hcleared with hexecutions | hmem
    · exact ⟨_, hdone.cleared .agents (by decide), rfl, rfl, rfl, .inr ⟨rfl, hexecutions⟩⟩
    · exact ⟨_, hdone.cleared row.table hmem, rfl, rfl, rfl, .inl ⟨rfl, hmem⟩⟩
  exact hheld.cleared i v row.table hparty hcleared hdid row hrow rfl
    ((owner_of_cleared hcleared).symm.trans howner)

/-- Recycling under the condition on the steps: in a database in which no identifier of a role or of
a user is shared, with any number of recyclings, sweeps and other programs. -/
theorem recycled_whole (own : Ownership) (party : ι → Party) (session : String → Prop)
    (owned : ι → String → Prop) (w : PlaygroundWorld) (p : ι → PlaygroundProg Unit) (sched : List ι)
    (hruns : ∀ i, (party i).Runs (p i)) (hsettled : ∀ row ∈ w.rows, row.Settled own)
    (hguarded : Pool.Guarded PlaygroundWorld.exec (Orderly own party) (Pool.start w p) sched) :
    Recycled own party session owned (Pool.start w p) sched where
  alone before i after v hsched hparty row hrow hother := by
    subst hsched
    obtain ⟨hbefore, hstep, -⟩ := (Pool.guarded_append _).mp hguarded
    have hheld := held_play hruns hsettled hbefore
    rw [Pool.play_append, Pool.play_cons, Pool.play_nil]
    refine step_keeps hrow hstep (along_play hruns before i) fun s hissues horderly => ?_
    rw [hparty] at hissues
    exact recycling_alone hheld hparty hissues horderly hrow hother
  orphans i v hparty hrecycled := by
    obtain ⟨o, ho, table, column, hdelete⟩ := hrecycled
    exact absurd hdelete ((held_play hruns hsettled hguarded).swept i hparty o ho table column v)
  sweptAlone before i after hsched hparty row hrow _ := by
    subst hsched
    obtain ⟨hbefore, hstep, -⟩ := (Pool.guarded_append _).mp hguarded
    have hheld := held_play hruns hsettled hbefore
    rw [Pool.play_append, Pool.play_cons, Pool.play_nil]
    refine step_keeps hrow hstep (along_play hruns before i) fun s hissues _ => ?_
    rw [hparty] at hissues
    rcases hissues with hfound | rfl | rfl
    · exact absurd hfound (hheld.orphans i)
    · exact exec_keeps (fun _ _ _ h => by cases h) (fun _ h => by cases h) hrow
    · exact exec_keeps (fun _ _ _ h => by cases h) (fun _ h => by cases h) hrow
  whole i v hparty hended _ row hrow htable := by
    have halong := along_play (w := w) hruns sched i
    rw [hended] at halong
    exact done_whole (held_play hruns hsettled hguarded) hparty (halong v hparty) hrow htable

end runs

/-! ## An execution in flight -/

/-- The rows that a session `n` begins with. -/
def seedOf (n : String) : List Row :=
  [{ table := .workspaces, id := "workspace " ++ n, displayName := some ("Playground " ++ n) },
    { table := .roles, id := "role " ++ n, workspaceId := some ("workspace " ++ n) },
    { table := .users, id := "user " ++ n, defaultWorkspaceId := some ("workspace " ++ n),
      roleId := some ("role " ++ n) },
    { table := .workspaceMembers, id := "member " ++ n, workspaceId := some ("workspace " ++ n) },
    { table := .objectMetadata, id := "object " ++ n, workspaceId := some ("workspace " ++ n) },
    { table := .objectPermissions, id := "permission " ++ n, roleId := some ("role " ++ n) },
    { table := .agents, id := "agent " ++ n, workspaceId := some ("workspace " ++ n) },
    { table := .agentExecutions, id := "execution " ++ n, workspaceId := some ("workspace " ++ n),
      agentId := some ("agent " ++ n) }]

/-- Two sessions, and a database that refuses nothing. -/
def twoSessions : PlaygroundWorld where
  rows := seedOf "1" ++ seedOf "2"
  registry := .empty
  fails := fun _ => false
  issued := 0

def twoOwners : Ownership where
  role := fun id => if id = "role 1" then some "workspace 1" else
    if id = "role 2" then some "workspace 2" else none
  user := fun id => if id = "user 1" then some "workspace 1" else
    if id = "user 2" then some "workspace 2" else none

/-- An execution of the first session that is about to write a guardrail log. -/
def inFlight : PlaygroundProg Unit :=
  .stmt (.put { table := .guardrailLogs, id := "log 1", workspaceId := some "workspace 1" })
    (awaited .ret)

/-- The first session is recycled beside its execution. -/
def partyOf : Bool → Party
  | true => .recycles "workspace 1"
  | false => .other

def programOf : Bool → PlaygroundProg Unit
  | true => recycleWorkspace "workspace 1" none
  | false => inFlight

/-- The two programs are of their parties. -/
lemma programOf_runs (i : Bool) : (partyOf i).Runs (programOf i) := by
  cases i with
  | true => rfl
  | false => trivial

/-- The execution writes before the recycling begins. -/
theorem quiet_recycled :
    Recycled twoOwners partyOf (fun v => v = "workspace 1" ∨ v = "workspace 2")
      (fun j v => j = false ∧ v = "workspace 1") (Pool.start twoSessions programOf)
      (false :: List.replicate 13 true) :=
  recycled_whole _ _ _ _ _ _ _ programOf_runs (by decide +kernel) (by decide +kernel)

/-- The execution writes after the recycling has ended. -/
theorem late_log_remains :
    ¬ Recycled twoOwners partyOf (fun v => v = "workspace 1" ∨ v = "workspace 2")
      (fun j v => j = false ∧ v = "workspace 1") (Pool.start twoSessions programOf)
      (List.replicate 13 true ++ [false]) := by
  intro h
  have hended : ((Pool.start twoSessions programOf).play PlaygroundWorld.exec
      (List.replicate 13 true ++ [false])).thread true = .ret () := rfl
  have hwhole := h.whole true "workspace 1" rfl hended (fun j hj => by rw [hj.1]; rfl)
  exact absurd (hwhole { table := .guardrailLogs, id := "log 1", workspaceId := some "workspace 1" }
    (by decide +kernel) (by decide)) (by decide)

end NexusClaw.Community.Playground
