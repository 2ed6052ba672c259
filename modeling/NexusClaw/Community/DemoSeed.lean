import NexusClaw.Concurrent.Outline
import NexusClaw.Concurrent.Table
import NexusClaw.Json

/-!
# The seed of the demo

`closed-loop/community-demo-seed.service.ts`: at its start a service inserts the rows of the demo that
are missing, each under its fixed id. It awaits a lookup and an insertion for one row after another
without a transaction, so that any number of services may start at once and any of the statements may
fail. A row that is there is never written again, and the service that reports the seed as ready has
found or inserted every row (`seeded_once`).
-/

namespace NexusClaw.Community.DemoSeed
open Concurrent

/-! ## The database -/

inductive TableName where
  | workspaces
  | roles
  | users
  | members
  | objects
  | objectPermissions
  | agents
  | executions
  | approvals
deriving DecidableEq, Repr

/-- A row with its other columns; a date is the number of its milliseconds. -/
structure Row where
  id : String
  columns : List (String × Json)

/-- The id of a row and its table. -/
abbrev Key : Type :=
  TableName × String

/-- The statements of the seed, and those by which other programs write. -/
inductive SeedStatement where
  | findOne (table : TableName) (id : String)
  | insert (table : TableName) (row : Row)
  | update (table : TableName) (id : String) (columns : List (String × Json))
  | delete (table : TableName) (id : String)

/-- The response of a statement. -/
abbrev Answer : SeedStatement → Type
  | .findOne _ _ => Except String (Option Row)
  | .insert _ _ => Except String Unit
  | .update _ _ _ => Except String Unit
  | .delete _ _ => Except String Unit

/-- How a statement fails: before the database has done it, or with its answer lost. -/
inductive Fault where
  | refused
  | answerLost
deriving DecidableEq, Repr

/-- The tables; `conflict` are the constraints other than the primary keys, and the statement with
number `n` meets the fault `faults n`. -/
structure SeedWorld where
  rows : TableName → Table String Row
  conflict : (TableName → Table String Row) → TableName → Row → Bool
  faults : Nat → Option Fault
  issued : Nat

namespace SeedWorld

/-- The message of a statement that failed. -/
def failed : String :=
  "QueryFailedError"

def write (w : SeedWorld) (table : TableName) (rows : Table String Row) : SeedWorld :=
  { w with rows := Function.update w.rows table rows }

/-- What a statement does without a fault. -/
def perform : (s : SeedStatement) → SeedWorld → SeedWorld × Answer s
  | .findOne table id, w => (w, .ok (w.rows table id))
  | .insert table row, w =>
    if (w.rows table row.id).isSome || w.conflict w.rows table row then (w, .error failed)
    else (w.write table ((w.rows table).put row.id row), .ok ())
  | .update table id columns, w =>
    (w.write table ((w.rows table).modify id fun row => { row with columns }), .ok ())
  | .delete table id, w =>
    (w.write table (Function.update (w.rows table) id none), .ok ())

/-- The response of a statement that failed. -/
def failure : (s : SeedStatement) → Answer s
  | .findOne _ _ => .error failed
  | .insert _ _ => .error failed
  | .update _ _ _ => .error failed
  | .delete _ _ => .error failed

def next (w : SeedWorld) : SeedWorld :=
  { w with issued := w.issued + 1 }

def exec (s : SeedStatement) (w : SeedWorld) : SeedWorld × Answer s :=
  match w.faults w.issued with
  | none => perform s w.next
  | some .refused => (w.next, failure s)
  | some .answerLost => ((perform s w.next).1, failure s)

end SeedWorld

/-! ## The rows -/

/-- What a service starts with: its variable of the environment, the clock, the hash of the password
and the functions of the language that format the texts. -/
structure Boot where
  seedEnv : Option String
  now : Int
  passwordHash : String
  isoString : Int → String
  stringify : Json → String

/-- `COMMUNITY_DEMO_WORKSPACE_ID` -/
def workspaceId : String := "9e100000-0000-4000-8000-000000000001"

/-- `COMMUNITY_DEMO_ROLE_ID` -/
def roleId : String := "9e100000-0000-4000-8000-000000000002"

/-- `COMMUNITY_DEMO_USER_ID` -/
def userId : String := "9e100000-0000-4000-8000-000000000003"

/-- `COMMUNITY_DEMO_MEMBER_ID` -/
def memberId : String := "9e100000-0000-4000-8000-000000000004"

/-- `COMMUNITY_DEMO_OBJECT_METADATA_ID` -/
def objectMetadataId : String := "9e100000-0000-4000-8000-000000000005"

/-- `COMMUNITY_DEMO_OBJECT_PERMISSION_ID` -/
def objectPermissionId : String := "9e100000-0000-4000-8000-000000000006"

/-- `COMMUNITY_DEMO_AGENT_ID` -/
def agentId : String := "9e100000-0000-4000-8000-000000000007"

/-- `COMMUNITY_DEMO_GROWTH_EXEC_APPROVED_ID` -/
def execApprovedId : String := "9e200000-0000-4000-8000-000000000001"

/-- `COMMUNITY_DEMO_GROWTH_EXEC_REJECTED_ID` -/
def execRejectedId : String := "9e200000-0000-4000-8000-000000000002"

/-- `COMMUNITY_DEMO_GROWTH_APPR_APPROVED_ID` -/
def apprApprovedId : String := "9e200000-0000-4000-8000-000000000003"

/-- `COMMUNITY_DEMO_GROWTH_APPR_REJECTED_ID` -/
def apprRejectedId : String := "9e200000-0000-4000-8000-000000000004"

/-- `COMMUNITY_DEMO_GROWTH_PROCESS_APPROVED_ID` -/
def processApprovedId : String := "9e200000-0000-4000-8000-000000000005"

/-- `COMMUNITY_DEMO_GROWTH_PROCESS_REJECTED_ID` -/
def processRejectedId : String := "9e200000-0000-4000-8000-000000000006"

/-- `COMMUNITY_DEMO_TOOL_LOOKUP` -/
def toolLookup : String := "demo.customer_lookup"

/-- `COMMUNITY_DEMO_TOOL_SEND_EMAIL` -/
def toolSendEmail : String := "demo.send_followup_email"

def workspaceRow : Row where
  id := workspaceId
  columns := [("displayName", .str "NexusClaw Demo Workspace")]

def roleRow : Row where
  id := roleId
  columns := [("workspaceId", .str workspaceId), ("label", .str "Demo Operator"),
    ("apiName", .str "demo_operator"), ("name", .str "DemoOperator"), ("isActive", .bool true)]

def userRow (boot : Boot) : Row where
  id := userId
  columns := [("username", .str "demo"), ("email", .str "demo@example.com"),
    ("passwordHash", .str boot.passwordHash), ("firstName", .str "Demo"),
    ("lastName", .str "Operator"), ("hasPasswordSet", .bool true), ("isActive", .bool true),
    ("defaultWorkspaceId", .str workspaceId), ("roleId", .str roleId)]

def memberRow : Row where
  id := memberId
  columns := [("workspaceId", .str workspaceId), ("userId", .str userId),
    ("firstName", .str "Demo"), ("lastName", .str "Operator")]

def objectRow : Row where
  id := objectMetadataId
  columns := [("workspaceId", .str workspaceId), ("nameSingular", .str "Contact"),
    ("namePlural", .str "Contacts"), ("labelSingular", .str "Contact"),
    ("labelPlural", .str "Contacts")]

def objectPermissionRow : Row where
  id := objectPermissionId
  columns := [("roleId", .str roleId), ("objectMetadataId", .str objectMetadataId),
    ("canRead", .bool true), ("canCreate", .bool true), ("canEdit", .bool true),
    ("canDelete", .bool true)]

def sensitiveOps : Json :=
  .arr [
    .obj [("objectApiName", .str "*"), ("operation", .str "customer_lookup"),
      ("riskLevel", .str "L1"), ("action", .str "audit"), ("toolPattern", .str toolLookup),
      ("description", .str "Read-only customer lookup — audited, allowed to proceed")],
    .obj [("objectApiName", .str "*"), ("operation", .str "send_followup_email"),
      ("riskLevel", .str "L3"), ("action", .str "approve"), ("toolPattern", .str toolSendEmail),
      ("description",
        .str "Outbound follow-up email to a customer — requires human approval")]]

def agentRow : Row where
  id := agentId
  columns := [("workspaceId", .str workspaceId), ("name", .str "Follow-up Assistant"),
    ("apiName", .str "demo_followup_assistant"),
    ("description", .str ("Demo digital employee: looks up a customer, then asks a human to " ++
      "approve an outbound follow-up email.")),
    ("prompt", .str ("You are a governed demo digital employee. Look up the customer first, then " ++
      "draft the follow-up email and request human approval before sending.")),
    ("type", .str "custom"), ("status", .str "active"), ("isActive", .bool true),
    ("version", .num 1), ("roleId", .str roleId), ("serviceUserId", .str userId),
    ("guardrailRules", .obj [("allowedTools", .arr [.str toolLookup, .str toolSendEmail]),
      ("sensitiveOps", sensitiveOps)])]

/-- A past execution of the demo agent. -/
def executionRow (id status rawInput outputSummary : String) (inputTokens outputTokens : Rat)
    (createdAt durationMs : Int) : Row where
  id := id
  columns := [("workspaceId", .str workspaceId), ("agentId", .str agentId),
    ("triggerType", .str "manual"), ("triggerSource", .str "web"), ("status", .str status),
    ("rawInput", .str rawInput), ("outputSummary", .str outputSummary),
    ("totalInputTokens", .num inputTokens), ("totalOutputTokens", .num outputTokens),
    ("createdAt", .num createdAt), ("completedAt", .num (createdAt + durationMs : Int)),
    ("durationMs", .num durationMs)]

/-- A past approval of the demo agent: the submission with the paused call and the decision. -/
def approvalRow (boot : Boot) (id processId recordId status subject comments : String)
    (submittedAt decidedAt : Int) : Row where
  id := id
  columns := [("workspaceId", .str workspaceId), ("processId", .str processId),
    ("recordId", .str recordId), ("submittedBy", .str userId),
    ("objectName", .str "AgentExecution"), ("status", .str status),
    ("submittedAt", .num submittedAt), ("completedAt", .num decidedAt),
    ("history", .arr [
      .obj [("stepIndex", .num 0), ("stepName", .str "Agent Sensitive Operation"),
        ("action", .str "SUBMITTED"), ("actorId", .str userId), ("actorName", .str "executor"),
        ("comments", .str ("__pausedToolCall__:" ++ boot.stringify (.obj [
          ("toolName", .str toolSendEmail),
          ("toolInput", .obj [("customerId", .str "C-1001"), ("subject", .str subject)]),
          ("riskLevel", .str "L3"),
          ("description",
            .str "Outbound follow-up email to a customer — requires human approval")]))),
        ("timestamp", .str (boot.isoString submittedAt))],
      .obj [("stepIndex", .num 1), ("stepName", .str "Agent Sensitive Operation"),
        ("action", .str status), ("actorId", .str userId), ("actorName", .str "Demo Operator"),
        ("comments", .str comments), ("timestamp", .str (boot.isoString decidedAt))]])]

/-- `now - 2 * day` -/
def Boot.approvedAt (boot : Boot) : Int :=
  boot.now - 2 * 86400000

/-- `now - 1 * day` -/
def Boot.rejectedAt (boot : Boot) : Int :=
  boot.now - 1 * 86400000

def approvedExecution (boot : Boot) : Row :=
  executionRow execApprovedId "done" "查询客户 C-1001 并发送跟进邮件。"
    ("Customer C-1001 looked up (L1, audited); follow-up email approved by reviewer and " ++
      "sent (L3).") 96 128 boot.approvedAt 4200

def approvedApproval (boot : Boot) : Row :=
  approvalRow boot apprApprovedId processApprovedId execApprovedId "APPROVED"
    "Follow-up: service check-in" "内容准确、语气得体，批准发送。" (boot.approvedAt + 3000)
    (boot.approvedAt + 3800)

def rejectedExecution (boot : Boot) : Row :=
  executionRow execRejectedId "cancelled" "马上给客户发一封限时折扣邮件。"
    "Follow-up email rejected by reviewer — execution cancelled at the L3 gate." 64 88
    boot.rejectedAt 3100

def rejectedApproval (boot : Boot) : Row :=
  approvalRow boot apprRejectedId processRejectedId execRejectedId "REJECTED"
    "Limited-time discount — act now" "语气过于急切——先确认客户预算，再谈折扣方案。"
    (boot.rejectedAt + 2400) (boot.rejectedAt + 3100)

/-! ## The service -/

abbrev SeedProg (α : Type) : Type :=
  Prog SeedStatement Answer String α

/-- `await` of a response that may be an error. -/
def awaited {α : Type} : Except String α → SeedProg α
  | .ok a => .ret a
  | .error message => .throw message

/-- `if (!(await table.findOne({ where: { id } }))) await table.insert(row)` -/
def insertMissing (table : TableName) (row : Row) : SeedProg Unit := do
  let found ← Prog.call (.findOne table row.id) >>= awaited
  if found.isNone then Prog.call (.insert table row) >>= awaited else pure ()

def seedGrowthHistory (boot : Boot) : SeedProg Unit := do
  insertMissing .executions (approvedExecution boot)
  insertMissing .approvals (approvedApproval boot)
  insertMissing .executions (rejectedExecution boot)
  insertMissing .approvals (rejectedApproval boot)

/-- The log of a seed that went through. -/
def seedReady : String :=
  "Community demo seed ready (demo/nexusclaw-demo)"

def seed (boot : Boot) : SeedProg String := do
  insertMissing .workspaces workspaceRow
  insertMissing .roles roleRow
  insertMissing .users (userRow boot)
  insertMissing .members memberRow
  insertMissing .objects objectRow
  insertMissing .objectPermissions objectPermissionRow
  insertMissing .agents agentRow
  seedGrowthHistory boot
  pure seedReady

/-- `(process.env[COMMUNITY_DEMO_SEED_ENV] ?? 'true').toLowerCase() === 'false'` -/
def Boot.disabled (boot : Boot) : Bool :=
  (boot.seedEnv.getD "true").toList.map Char.toLower = "false".toList

/-- What is logged of a seed. -/
def logged : Except String String → String
  | .ok message => message
  | .error message => "Community demo seed failed: " ++ message

/-- The start of a service, with what it logs. -/
def onApplicationBootstrap (boot : Boot) : SeedProg String :=
  if boot.disabled then pure "Community demo seed disabled by env"
  else do
    let result ← (seed boot).attempt
    pure (logged result)

/-! ## The rows in their order -/

def demoRows (boot : Boot) : List (TableName × Row) :=
  [(.workspaces, workspaceRow), (.roles, roleRow), (.users, userRow boot), (.members, memberRow),
    (.objects, objectRow), (.objectPermissions, objectPermissionRow), (.agents, agentRow),
    (.executions, approvedExecution boot), (.approvals, approvedApproval boot),
    (.executions, rejectedExecution boot), (.approvals, rejectedApproval boot)]

/-- The fixed ids. -/
def demoKeys : List Key :=
  [(.workspaces, workspaceId), (.roles, roleId), (.users, userId), (.members, memberId),
    (.objects, objectMetadataId), (.objectPermissions, objectPermissionId), (.agents, agentId),
    (.executions, execApprovedId), (.approvals, apprApprovedId), (.executions, execRejectedId),
    (.approvals, apprRejectedId)]

/-- The keys of the demo do not depend on the boot. -/
lemma demoRows_keys (boot : Boot) :
    (demoRows boot).map (fun row => (row.1, row.2.id)) = demoKeys := rfl

def insertAll : List (TableName × Row) → SeedProg Unit
  | [] => pure ()
  | row :: rows => do
    insertMissing row.1 row.2
    insertAll rows

/-- The seed inserts the rows one after the other. -/
lemma seed_eq (boot : Boot) : seed boot = (do insertAll (demoRows boot); pure seedReady) := by
  unfold seed seedGrowthHistory demoRows
  simp only [insertAll, Prog.bind_assoc, Prog.pure_eq, Prog.ret_bind]

/-! ## What a statement does to a row -/

def SeedWorld.get (w : SeedWorld) (key : Key) : Option Row :=
  w.rows key.1 key.2

/-- The statement changes no row under the key that is there. -/
def SeedStatement.Spares (key : Key) : SeedStatement → Prop
  | .findOne _ _ => True
  | .insert _ _ => True
  | .update table id _ => (table, id) ≠ key
  | .delete table id => (table, id) ≠ key

/-- The statement writes nothing under the key. -/
def SeedStatement.Elsewhere (key : Key) : SeedStatement → Prop
  | .findOne _ _ => True
  | .insert table row => (table, row.id) ≠ key
  | .update table id _ => (table, id) ≠ key
  | .delete table id => (table, id) ≠ key

/-- The response says that there is a row under the key. -/
def Settles (key : Key) : (Σ s, Answer s) → Prop
  | ⟨.findOne table id, r⟩ => (table, id) = key ∧ ∃ row, r = .ok (some row)
  | ⟨.insert table row, r⟩ => (table, row.id) = key ∧ r = .ok ()
  | ⟨.update _ _ _, _⟩ => False
  | ⟨.delete _ _, _⟩ => False

namespace SeedWorld
variable {w : SeedWorld} {s : SeedStatement} {key : Key} {row : Row}

/-- A table that is written is read. -/
lemma get_write (w : SeedWorld) (table : TableName) (rows : Table String Row) (key : Key) :
    (w.write table rows).get key = if key.1 = table then rows key.2 else w.get key := by
  unfold get write
  dsimp only
  rw [Function.update_apply]
  split
  · rfl
  · rfl

/-- The world is left as it is or what the statement does without a fault. -/
lemma exec_cases (s : SeedStatement) (w : SeedWorld) :
    (exec s w).1 = w.next ∨ (exec s w).1 = (perform s w.next).1 := by
  unfold exec
  split
  · exact .inr rfl
  · exact .inl rfl
  · exact .inr rfl

/-- A row is inserted unless its id is taken. -/
lemma perform_insert (table : TableName) (row : Row) (w : SeedWorld) :
    perform (.insert table row) w =
      if (w.rows table row.id).isSome || w.conflict w.rows table row then (w, .error failed)
      else (w.write table ((w.rows table).put row.id row), .ok ()) := rfl

/-- A statement leaves what is under a key, or inserts a row where none was, or is an update or a
deletion of just this key. -/
lemma perform_get (s : SeedStatement) (w : SeedWorld) (key : Key) :
    (perform s w).1.get key = w.get key ∨
      (∃ row, s = .insert key.1 row ∧ row.id = key.2 ∧ w.get key = none ∧
        (perform s w).1.get key = some row) ∨
      ¬ s.Spares key ∧ (w.get key = none → (perform s w).1.get key = none) := by
  -- a statement that throws has written nothing
  cases s with
  | findOne table id => exact .inl rfl
  | insert table row =>
    rw [perform_insert]
    split
    · exact .inl rfl
    · rename_i hfree
      have habsent : w.rows table row.id = none := by
        cases hrow : w.rows table row.id with
        | none => rfl
        | some old =>
          rw [hrow] at hfree
          exact absurd rfl hfree
      rw [get_write]
      by_cases hkey : key = (table, row.id)
      · rw [hkey]
        exact .inr (.inl ⟨row, rfl, rfl, habsent, by rw [if_pos rfl, Table.put_apply, if_pos rfl]⟩)
      · refine .inl ?_
        split
        · rename_i htable
          have hid : key.2 ≠ row.id := fun hid => hkey (Prod.ext htable hid)
          rw [Table.put_of_ne _ _ hid, ← htable]
          rfl
        · rfl
  | update table id columns =>
    by_cases hkey : (table, id) = key
    · refine .inr (.inr ⟨not_not.2 hkey, fun hnone => ?_⟩)
      obtain rfl := hkey
      have hmodify : (w.rows table).modify id (fun row => { row with columns }) id = none := by
        rw [Table.modify_apply, if_pos rfl, show w.rows table id = none from hnone]
        rfl
      exact (get_write _ _ _ _).trans (by rw [if_pos rfl, hmodify])
    · refine .inl ((get_write _ _ _ _).trans ?_)
      split
      · rename_i htable
        have hid : key.2 ≠ id := fun hid => hkey (Prod.ext htable.symm hid.symm)
        rw [Table.modify_of_ne _ _ hid, ← htable]
        rfl
      · rfl
  | delete table id =>
    by_cases hkey : (table, id) = key
    · refine .inr (.inr ⟨not_not.2 hkey, fun _ => ?_⟩)
      obtain rfl := hkey
      exact (get_write _ _ _ _).trans (by rw [if_pos rfl, Function.update_self])
    · refine .inl ((get_write _ _ _ _).trans ?_)
      split
      · rename_i htable
        have hid : key.2 ≠ id := fun hid => hkey (Prod.ext htable.symm hid.symm)
        rw [Function.update_of_ne hid, ← htable]
        rfl
      · rfl

/-- A row that is there stays. -/
lemma exec_spares (hs : s.Spares key) (h : w.get key = some row) :
    (exec s w).1.get key = some row := by
  rcases exec_cases s w with hnext | hnext
  · rw [hnext]
    exact h
  · rw [hnext]
    rcases perform_get s w.next key with hsame | ⟨_, _, _, hnone, _⟩ | ⟨hwrites, _⟩
    · exact hsame.trans h
    · exact absurd (hnone.symm.trans h) (Option.some_ne_none row).symm
    · exact absurd hs hwrites

/-- A new row is one that the statement inserts. -/
lemma exec_new (h : w.get key = none) (hnew : (exec s w).1.get key = some row) :
    s = .insert key.1 row ∧ row.id = key.2 := by
  rcases exec_cases s w with hnext | hnext
  · rw [hnext] at hnew
    exact absurd (h.symm.trans hnew) (Option.some_ne_none row).symm
  · rw [hnext] at hnew
    rcases perform_get s w.next key with hsame | ⟨other, hs, hid, _, hother⟩ | ⟨_, hkept⟩
    · exact absurd (h.symm.trans (hsame.symm.trans hnew)) (Option.some_ne_none row).symm
    · obtain rfl := Option.some.inj (hother.symm.trans hnew)
      exact ⟨hs, hid⟩
    · exact absurd ((hkept h).symm.trans hnew) (Option.some_ne_none row).symm

/-- A statement that settles a row is performed. -/
lemma exec_answer (h : ∀ r, Settles key ⟨s, r⟩ → r ≠ failure s) (hs : Settles key ⟨s, (exec s w).2⟩) :
    exec s w = perform s w.next := by
  cases hfault : w.faults w.issued with
  | none =>
    unfold exec
    rw [hfault]
  | some fault =>
    refine absurd ?_ (h _ hs)
    unfold exec
    rw [hfault]
    cases fault <;> rfl

/-- The row of which a response speaks is there. -/
lemma exec_settles (hs : Settles key ⟨s, (exec s w).2⟩) : ((exec s w).1.get key).isSome := by
  cases s with
  | findOne table id =>
    have hexec : exec (.findOne table id) w = perform (.findOne table id) w.next := by
      refine exec_answer (fun r hr hfailed => ?_) hs
      obtain ⟨-, row, hrow⟩ := hr
      cases hfailed.symm.trans hrow
    rw [hexec] at hs ⊢
    obtain ⟨rfl, row, hrow⟩ := hs
    exact Option.isSome_iff_exists.2 ⟨row, Except.ok.inj hrow⟩
  | insert table row =>
    have hexec : exec (.insert table row) w = perform (.insert table row) w.next := by
      refine exec_answer (fun r hr hfailed => ?_) hs
      obtain ⟨-, hok⟩ := hr
      cases hfailed.symm.trans hok
    rw [hexec] at hs ⊢
    obtain ⟨rfl, hok⟩ := hs
    rw [perform_insert] at hok ⊢
    split at hok
    · cases hok
    · rename_i hfree
      rw [if_neg hfree, get_write, if_pos rfl, Table.put_apply, if_pos rfl]
      rfl
  | update table id columns => exact hs.elim
  | delete table id => exact hs.elim

end SeedWorld

/-! ## What a service has done -/

section along
variable {boot : Boot} {table : TableName} {row : Row} {h : History SeedStatement Answer}

/-- The statements of a seed. -/
def SeedStatement.SeedsOf (boot : Boot) : SeedStatement → Prop
  | .findOne _ _ => True
  | .insert table row => (table, row) ∈ demoRows boot
  | .update _ _ _ => False
  | .delete _ _ => False

/-- An awaited response that is no error. -/
lemma along_awaited {α : Type} {φ : History SeedStatement Answer → SeedStatement → Prop}
    {Q : History SeedStatement Answer → α → Prop} {r : Except String α}
    (hr : ∀ a, r = .ok a → Q h a) : Along φ Q h (awaited r : SeedProg α) := by
  cases r with
  | ok a => exact hr a rfl
  | error message => trivial

/-- After `insertMissing` a response has said that the row is there. -/
lemma insertMissing_along (hrow : (table, row) ∈ demoRows boot) :
    Along (fun _ s => s.SeedsOf boot) (fun h _ => Did (Settles (table, row.id)) h) h
      (insertMissing table row) := by
  have hlookup : Along (fun _ s => s.SeedsOf boot)
      (fun h found => found ≠ none → Did (Settles (table, row.id)) h) h
      (Prog.call (.findOne table row.id) >>= awaited : SeedProg (Option Row)) := by
    refine Along.call trivial fun r => along_awaited fun found hfound hne => ?_
    obtain ⟨old, hold⟩ := Option.ne_none_iff_exists'.1 hne
    rw [did_concat]
    exact .inr ⟨rfl, old, hfound.trans (congrArg _ hold)⟩
  apply Along.bind hlookup
  intro h found hfound
  rw [along_ite]
  constructor
  · intro _
    refine Along.call hrow fun r => along_awaited fun _ hok => ?_
    rw [did_concat]
    exact .inr ⟨rfl, hok⟩
  · intro hsome
    apply hfound
    intro hnone
    exact hsome (by rw [hnone]; rfl)

/-- After `insertAll` this is so for every row. -/
lemma insertAll_along (rows : List (TableName × Row)) (hrows : rows ⊆ demoRows boot) :
    Along (fun _ s => s.SeedsOf boot)
      (fun h _ => ∀ row ∈ rows, Did (Settles (row.1, row.2.id)) h) h (insertAll rows) := by
  induction rows generalizing h with
  | nil => exact fun _ hrow => absurd hrow List.not_mem_nil
  | cons row rows ih =>
    obtain ⟨hrow, hrows⟩ := List.cons_subset.1 hrows
    apply Along.bind (insertMissing_along hrow)
    intro h _ hdone
    have hrest := (ih hrows (h := h)).past hdone fun h o hdid => (did_concat _ h o).2 (.inl hdid)
    refine hrest.mono (fun _ _ hs => hs) fun h _ hall => ?_
    exact List.forall_mem_cons.2 ⟨hall.2, hall.1⟩

/-- What holds of every row holds of every key. -/
lemma forall_demoKeys {P : Key → Prop} (boot : Boot)
    (h : ∀ row ∈ demoRows boot, P (row.1, row.2.id)) : ∀ key ∈ demoKeys, P key := by
  rw [← demoRows_keys boot]
  intro key hkey
  obtain ⟨row, hrow, rfl⟩ := List.mem_map.1 hkey
  exact h row hrow

/-- After the seed every key is settled. -/
lemma seed_along (boot : Boot) : Along (fun _ s => s.SeedsOf boot)
    (fun h _ => ∀ key ∈ demoKeys, Did (Settles key) h) h (seed boot) := by
  rw [seed_eq]
  apply Along.bind (insertAll_along _ (List.Subset.refl _))
  intro h _ hall
  exact forall_demoKeys boot hall

/-- A failed seed does not report the seed as ready. -/
lemma failed_ne_ready (message : String) : logged (.error message) ≠ seedReady := by
  intro heq
  have hstart := congrArg (fun s => s.toList.take 22) heq
  have htext : (logged (.error message)).toList =
      "Community demo seed failed: ".toList ++ message.toList := String.toList_append
  rw [htext, List.take_append_of_le_length (by decide)] at hstart
  exact absurd hstart (by decide)

/-- After a start that says so every key is settled. -/
lemma onApplicationBootstrap_along (boot : Boot) : Along (fun _ s => s.SeedsOf boot)
    (fun h message => message = seedReady → ∀ key ∈ demoKeys, Did (Settles key) h) h
    (onApplicationBootstrap boot) := by
  rw [onApplicationBootstrap, along_ite]
  constructor
  · intro _ hready
    exact absurd hready (by decide)
  · intro _
    apply Along.bind (seed_along boot).attempt
    intro h result hresult hready
    cases result with
    | ok message => exact hresult message rfl
    | error message => exact absurd hready (failed_ne_ready message)

end along

/-! ## Services that start at any time -/

section pool
variable {ι : Type} [DecidableEq ι]

/-- A service that starts, or any other program of the database. -/
abbrev Party : Type :=
  Boot ⊕ SeedProg String

def Party.program : Party → SeedProg String
  | .inl boot => onApplicationBootstrap boot
  | .inr program => program

/-- A statement of the parties: only a start inserts a row of the demo, and none is changed. -/
def Allowed (parties : ι → Party) (s : SeedStatement) : Prop :=
  ∀ key ∈ demoKeys, s.Spares key ∧ ∀ row, s = .insert key.1 row → row.id = key.2 →
    ∃ i boot, parties i = .inl boot ∧ (key.1, row) ∈ demoRows boot

/-- The rows of the demo after some steps from the world `w`. -/
structure Seeded (parties : ι → Party) (w : SeedWorld)
    (c : Pool SeedStatement Answer String String SeedWorld ι) : Prop where
  allowed : ∀ i, (c.thread i).Uses (Allowed parties)
  kept : ∀ key ∈ demoKeys, ∀ row, w.get key = some row → c.world.get key = some row
  whole : ∀ key ∈ demoKeys, ∀ row, c.world.get key = some row →
    w.get key = some row ∨ ∃ i boot, parties i = .inl boot ∧ (key.1, row) ∈ demoRows boot
  settled : ∀ key ∈ demoKeys, ∀ i, Did (Settles key) (c.seen i) → (c.world.get key).isSome

variable {parties : ι → Party} {w : SeedWorld}
  {c : Pool SeedStatement Answer String String SeedWorld ι}

/-- A step keeps what is seeded. -/
lemma seeded_advance (hc : Seeded parties w c) (i : ι) :
    Seeded parties w (c.advance SeedWorld.exec i) := by
  cases hi : c.thread i with
  | ret a =>
    rw [Pool.advance_ret hi]
    exact hc
  | throw e =>
    rw [Pool.advance_throw hi]
    exact hc
  -- what the program of the step claims comes from its own history, what others claim is kept
  | stmt s k =>
    have huses := hc.allowed i
    rw [hi] at huses
    rw [Pool.advance_stmt hi]
    refine ⟨fun j => ?_, fun key hkey row hrow => ?_, fun key hkey row hrow => ?_,
      fun key hkey j hdid => ?_⟩
    · by_cases hj : j = i
      · rw [hj]
        dsimp only
        rw [Function.update_self]
        exact huses.2 _
      · dsimp only
        rw [Function.update_of_ne hj]
        exact hc.allowed j
    · exact SeedWorld.exec_spares (huses.1 key hkey).1 (hc.kept key hkey row hrow)
    · cases hold : c.world.get key with
      | some old =>
        have hsame := SeedWorld.exec_spares (huses.1 key hkey).1 hold
        obtain rfl := Option.some.inj (hsame.symm.trans hrow)
        exact hc.whole key hkey _ hold
      | none =>
        obtain ⟨hs, hid⟩ := SeedWorld.exec_new hold hrow
        exact .inr ((huses.1 key hkey).2 row hs hid)
    · have hobserve := (did_observe (Settles key) c.seen i j s _).1 hdid
      rcases hobserve with hbefore | ⟨_, hnow⟩
      · obtain ⟨row, hrow⟩ := Option.isSome_iff_exists.1 (hc.settled key hkey j hbefore)
        exact Option.isSome_iff_exists.2
          ⟨row, SeedWorld.exec_spares (huses.1 key hkey).1 hrow⟩
      · exact SeedWorld.exec_settles hnow

omit [DecidableEq ι] in
/-- At the start nothing is claimed to be seeded. -/
lemma seeded_start (hothers : ∀ i program, parties i = .inr program →
    program.Uses fun s => ∀ key ∈ demoKeys, s.Elsewhere key) :
    Seeded parties w (Pool.start w fun i => (parties i).program) := by
  refine ⟨fun i => ?_, fun key _ row hrow => hrow, fun key _ row hrow => .inl hrow,
    fun key _ i hdid => absurd hdid (did_nil _)⟩
  show ((parties i).program).Uses _
  cases hparty : parties i with
  | inl boot =>
    apply (onApplicationBootstrap_along boot (h := [])).uses
    intro _ s hs key _
    cases s with
    | findOne table id => exact ⟨trivial, fun row hrow => by cases hrow⟩
    | insert table row =>
      refine ⟨trivial, fun other hother _ => ⟨i, boot, hparty, ?_⟩⟩
      cases hother
      exact hs
    | update table id columns => exact hs.elim
    | delete table id => exact hs.elim
  | inr program =>
    apply (hothers i program hparty).mono
    intro s hs key hkey
    have helse := hs key hkey
    cases s with
    | findOne table id => exact ⟨trivial, fun row hrow => by cases hrow⟩
    | insert table row =>
      refine ⟨trivial, fun other hother hid => absurd ?_ helse⟩
      cases hother
      rw [hid]
    | update table id columns => exact ⟨helse, fun row hrow => by cases hrow⟩
    | delete table id => exact ⟨helse, fun row hrow => by cases hrow⟩

/-- What is seeded stays so in every run. -/
lemma seeded_play (hothers : ∀ i program, parties i = .inr program →
    program.Uses fun s => ∀ key ∈ demoKeys, s.Elsewhere key) (sched : List ι) :
    Seeded parties w ((Pool.start w fun i => (parties i).program).play SeedWorld.exec sched) :=
  Pool.play_invariant SeedWorld.exec (I := Seeded parties w) (fun _ i hc => seeded_advance hc i)
    (seeded_start hothers) sched

/-- What a service that has reported the seed as ready has been told. -/
lemma ready_settled {sched : List ι} {i : ι} {boot : Boot} (hboot : parties i = .inl boot)
    (hready : ((Pool.start w fun i => (parties i).program).play SeedWorld.exec sched).thread i =
      .ret seedReady) :
    ∀ key ∈ demoKeys, Did (Settles key)
      (((Pool.start w fun i => (parties i).program).play SeedWorld.exec sched).seen i) := by
  have halong (j : ι) : Along (fun _ _ => True) (fun h message => ∀ boot, parties j = .inl boot →
      message = seedReady → ∀ key ∈ demoKeys, Did (Settles key) h) [] (parties j).program := by
    cases hparty : parties j with
    | inl boot =>
      refine (onApplicationBootstrap_along boot).mono (fun _ _ _ => trivial) fun h message hm => ?_
      intro _ _
      exact hm
    | inr program =>
      refine (along_true _ program).mono (fun _ _ _ => trivial) fun h message _ => ?_
      intro boot hboot
      cases hboot
  have hall : Along (fun _ _ => True) (fun h message => ∀ boot, parties i = .inl boot →
      message = seedReady → ∀ key ∈ demoKeys, Did (Settles key) h)
      (((Pool.start w fun i => (parties i).program).play SeedWorld.exec sched).seen i)
      (((Pool.start w fun i => (parties i).program).play SeedWorld.exec sched).thread i) :=
    Along.play halong sched i
  rw [hready] at hall
  exact hall boot hboot rfl

end pool

/-- Any number of services start at any time, and their statements and those of other programs come in
any order, fail or lose their answers. Then a row of the demo that is there stays as it is, a new one is
the whole row of one of the services, and after a service has reported the seed as ready every row of
the demo is there. -/
theorem seeded_once {ι : Type} [DecidableEq ι] (parties : ι → Party) (w : SeedWorld)
    (hothers : ∀ i program, parties i = .inr program →
      program.Uses fun s => ∀ key ∈ demoKeys, s.Elsewhere key) (sched : List ι) :
    let c := (Pool.start w fun i => (parties i).program).play SeedWorld.exec sched
    ∀ key ∈ demoKeys,
      (∀ row, w.get key = some row → c.world.get key = some row) ∧
      (∀ row, c.world.get key = some row → w.get key = some row ∨
        ∃ i boot, parties i = .inl boot ∧ (key.1, row) ∈ demoRows boot) ∧
      ∀ i boot, parties i = .inl boot → c.thread i = .ret seedReady →
        (c.world.get key).isSome := by
  intro c key hkey
  have hseeded : Seeded parties w c := seeded_play hothers sched
  refine ⟨hseeded.kept key hkey, hseeded.whole key hkey, fun i boot hboot hready => ?_⟩
  exact hseeded.settled key hkey i (ready_settled hboot hready key hkey)

/-- A database without rows that refuses nothing. -/
def emptyWorld : SeedWorld where
  rows := fun _ _ => none
  conflict := fun _ _ _ => false
  faults := fun _ => none
  issued := 0

def firstBoot : Boot where
  seedEnv := none
  now := 0
  passwordHash := ""
  isoString := fun _ => ""
  stringify := fun _ => ""

/-- Two services start at once, beside a program that only reads. -/
def twoStarts : Fin 3 → Party
  | 0 => .inl firstBoot
  | 1 => .inl { firstBoot with now := 1 }
  | 2 => .inr (.stmt (.findOne .agents agentId) fun _ => .ret "")

/-- The reader writes nothing. -/
lemma twoStarts_reader {i : Fin 3} {program : SeedProg String} (h : twoStarts i = .inr program) :
    program.Uses fun s => ∀ key ∈ demoKeys, s.Elsewhere key := by
  match i, h with
  | 0, h => cases h
  | 1, h => cases h
  | 2, h =>
    cases h
    exact ⟨fun _ _ => trivial, fun _ => trivial⟩

set_option maxRecDepth 20000 in
/-- Two starts at once, one of which fails at the rows of the other. -/
theorem starts_race :
    (((Pool.start emptyWorld fun i => (twoStarts i).program).play SeedWorld.exec
      (List.replicate 40 0 ++ [1])).world.get (.agents, agentId)).isSome = true := by
  have hkey : (TableName.agents, agentId) ∈ demoKeys := by decide
  have hready : (((Pool.start emptyWorld fun i => (twoStarts i).program).play SeedWorld.exec
      (List.replicate 40 0 ++ [1])).thread 0).result? = some seedReady := by decide
  exact (seeded_once twoStarts emptyWorld (fun _ _ h => twoStarts_reader h) _ _ hkey).2.2
    0 firstBoot rfl (Prog.result?_eq_some hready)

/-! ## A service alone -/

/-- No statement fails but for a row that is there. -/
structure SeedWorld.Calm (w : SeedWorld) : Prop where
  faults : ∀ n, w.faults n = none
  conflict : ∀ rows table row, w.conflict rows table row = false

section alone
variable {w : SeedWorld} {table : TableName} {row : Row}

/-- In a calm store every statement is performed. -/
lemma SeedWorld.Calm.exec (hw : w.Calm) (s : SeedStatement) : w.exec s = w.next.perform s := by
  unfold SeedWorld.exec
  rw [hw.faults]

/-- A lookup in a calm store. -/
lemma lookup_run (hw : w.Calm) (table : TableName) (id : String) :
    (Prog.call (.findOne table id) >>= awaited : SeedProg (Option Row)).run SeedWorld.exec w =
      (.ok (w.get (table, id)), w.next) := by
  rw [Prog.call_bind, Prog.run_stmt, hw.exec]
  rfl

/-- An insertion in a calm store. -/
lemma insert_run (hw : w.Calm) (habsent : w.get (table, row.id) = none) :
    (Prog.call (.insert table row) >>= awaited : SeedProg Unit).run SeedWorld.exec w =
      (.ok (), w.next.write table ((w.rows table).put row.id row)) := by
  have hfree : ¬ ((w.next.rows table row.id).isSome ||
      w.next.conflict w.next.rows table row) = true := by
    have hnone : w.next.rows table row.id = none := habsent
    rw [hnone, show w.next.conflict w.next.rows table row = false from hw.conflict _ _ _]
    exact Bool.false_ne_true
  rw [Prog.call_bind, Prog.run_stmt, hw.exec, SeedWorld.perform_insert, if_neg hfree]
  rfl

/-- The row is there after `insertMissing`, and is inserted only if it was missing. -/
lemma insertMissing_run (hw : w.Calm) (table : TableName) (row : Row) :
    ∃ w', (insertMissing table row).run SeedWorld.exec w = (.ok (), w') ∧ w'.Calm ∧
      (w'.get (table, row.id)).isSome ∧
      (∀ key old, w.get key = some old → w'.get key = some old) ∧
      ((w.get (table, row.id)).isSome → w'.rows = w.rows) := by
  unfold insertMissing
  rw [Prog.run_bind_ok _ (lookup_run hw table row.id)]
  -- a row that is there is left alone
  cases hfound : w.get (table, row.id) with
  | some old =>
    rw [if_neg (by exact Bool.false_ne_true)]
    refine ⟨w.next, rfl, ⟨hw.faults, hw.conflict⟩, ?_, fun _ _ h => h, fun _ => rfl⟩
    exact Option.isSome_iff_exists.2 ⟨old, hfound⟩
  | none =>
    have hnext : w.next.Calm := ⟨hw.faults, hw.conflict⟩
    have hinsert : (Prog.call (.insert table row) >>= awaited : SeedProg Unit).run SeedWorld.exec
        w.next = (.ok (), w.next.next.write table ((w.next.rows table).put row.id row)) :=
      insert_run hnext hfound
    have hget (key : Key) := w.next.next.get_write table ((w.next.rows table).put row.id row) key
    rw [if_pos Option.isNone_none]
    refine ⟨_, hinsert, ⟨hw.faults, hw.conflict⟩, ?_, fun key old hold => ?_, fun h => by cases h⟩
    · rw [hget, if_pos rfl, Table.put_apply, if_pos rfl]
      rfl
    · rw [hget]
      split
      · rename_i htable
        have hid : key.2 ≠ row.id := by
          intro hid
          rw [show key = (table, row.id) from Prod.ext htable hid] at hold
          exact absurd (hfound.symm.trans hold) (Option.some_ne_none old).symm
        rw [Table.put_of_ne _ _ hid, ← htable]
        exact hold
      · exact hold

/-- All insertions in a calm store, by induction on the rows. -/
lemma insertAll_run (rows : List (TableName × Row)) (hw : w.Calm) :
    ∃ w', (insertAll rows).run SeedWorld.exec w = (.ok (), w') ∧ w'.Calm ∧
      (∀ row ∈ rows, (w'.get (row.1, row.2.id)).isSome) ∧
      (∀ key old, w.get key = some old → w'.get key = some old) ∧
      ((∀ row ∈ rows, (w.get (row.1, row.2.id)).isSome) → w'.rows = w.rows) := by
  induction rows generalizing w with
  | nil => exact ⟨w, rfl, hw, nofun, fun _ _ h => h, fun _ => rfl⟩
  | cons row rows ih =>
    obtain ⟨w₁, hrun, hcalm, hhead, hkept, hidle⟩ := insertMissing_run hw row.1 row.2
    obtain ⟨w₂, hrun', hcalm', hall, hkept', hidle'⟩ := ih hcalm
    have hstays (key : Key) (h : (w₁.get key).isSome) : (w₂.get key).isSome := by
      obtain ⟨old, hold⟩ := Option.isSome_iff_exists.1 h
      exact Option.isSome_iff_exists.2 ⟨old, hkept' key old hold⟩
    refine ⟨w₂, (Prog.run_bind_ok _ hrun).trans hrun', hcalm',
      List.forall_mem_cons.2 ⟨hstays _ hhead, hall⟩,
      fun key old hold => hkept' key old (hkept key old hold), fun hthere => ?_⟩
    obtain ⟨hfirst, hothers⟩ := List.forall_mem_cons.1 hthere
    have hsame := hidle hfirst
    rw [← hsame]
    apply hidle'
    intro other hother
    obtain ⟨old, hold⟩ := Option.isSome_iff_exists.1 (hothers other hother)
    exact Option.isSome_iff_exists.2 ⟨old, hkept _ old hold⟩

/-- A start of a service that is not disabled. -/
lemma onApplicationBootstrap_run (hw : w.Calm) {boot : Boot} (hboot : boot.disabled = false) :
    ∃ w', (onApplicationBootstrap boot).run SeedWorld.exec w = (.ok seedReady, w') ∧ w'.Calm ∧
      (∀ key ∈ demoKeys, (w'.get key).isSome) ∧
      (∀ key old, w.get key = some old → w'.get key = some old) ∧
      ((∀ key ∈ demoKeys, (w.get key).isSome) → w'.rows = w.rows) := by
  obtain ⟨w', hrun, hcalm, hall, hkept, hidle⟩ := insertAll_run (demoRows boot) hw
  have hseed : (seed boot).run SeedWorld.exec w = (.ok seedReady, w') := by
    rw [seed_eq, Prog.run_bind_ok _ hrun]
    rfl
  have hattempt : (seed boot).attempt.run SeedWorld.exec w = (.ok (.ok seedReady), w') := by
    rw [Prog.run_attempt, hseed]
  refine ⟨w', ?_, hcalm, forall_demoKeys boot hall, hkept, fun hthere => hidle fun row hrow => ?_⟩
  · rw [onApplicationBootstrap, if_neg (by rw [hboot]; exact Bool.false_ne_true),
      Prog.run_bind_ok _ hattempt]
    rfl
  · rw [← demoRows_keys boot] at hthere
    exact hthere _ (List.mem_map_of_mem hrow)

end alone

/-- A service that starts alone on a database that refuses nothing reports the seed as ready, keeps
every row and leaves every row of the demo; the next one that starts writes nothing. -/
theorem restart_writes_nothing {w : SeedWorld} (hw : w.Calm) {boot boot' : Boot}
    (hboot : boot.disabled = false) (hboot' : boot'.disabled = false) :
    ∃ w', (onApplicationBootstrap boot).run SeedWorld.exec w = (.ok seedReady, w') ∧
      (∀ key ∈ demoKeys, (w'.get key).isSome) ∧
      (∀ key old, w.get key = some old → w'.get key = some old) ∧
      ∃ w'', (onApplicationBootstrap boot').run SeedWorld.exec w' = (.ok seedReady, w'') ∧
        w''.rows = w'.rows := by
  obtain ⟨w', hrun, hcalm, hall, hkept, -⟩ := onApplicationBootstrap_run hw hboot
  obtain ⟨w'', hrun', -, -, -, hidle⟩ := onApplicationBootstrap_run hcalm hboot'
  exact ⟨w', hrun, hall, hkept, w'', hrun', hidle hall⟩

/-- The first start seeds, and the next finds the rows. -/
theorem first_restart :
    ∃ w', (onApplicationBootstrap firstBoot).run SeedWorld.exec emptyWorld = (.ok seedReady, w') ∧
      (∀ key ∈ demoKeys, (w'.get key).isSome) ∧
      (∀ key old, emptyWorld.get key = some old → w'.get key = some old) ∧
      ∃ w'', (onApplicationBootstrap { firstBoot with now := 1 }).run SeedWorld.exec w' =
        (.ok seedReady, w'') ∧ w''.rows = w'.rows :=
  restart_writes_nothing ⟨fun _ => rfl, fun _ _ _ => rfl⟩ (by decide) (by decide)

end NexusClaw.Community.DemoSeed
