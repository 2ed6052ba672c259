import Mathlib.Algebra.BigOperators.Group.List.Basic
import Mathlib.Algebra.Order.BigOperators.Group.List
import Mathlib.Data.List.Sort
import NexusClaw.AgentRuntime.ModelReply
import NexusClaw.Double
import NexusClaw.Governance.PausedCall

/-!
# Agent insights

`community-agent-insights.service.ts` and the derivations of `community-agent-growth.derivation.ts`:
the card wall derives the statistics of an agent from all of its executions, the detail view from the
fifty newest ones.
-/

namespace NexusClaw.Community.Insights
open Governance (Id afterMarker digits)

/-! ## Rows -/

/-- A column of type `int`. -/
abbrev Int4 : Type :=
  { n : Int // n.natAbs ≤ 2 ^ 31 }

structure Agent where
  id : Id
  workspaceId : Id
  isActive : Bool
  createdAt : Int
  updatedAt : Option Int
  name : String
  status : String
  apiName : Option String
  type : Option String
  version : Option Int4
  description : Option String
  prompt : Option String
  guardrailRules : Option Json

structure AgentExecution where
  id : Id
  workspaceId : Id
  agentId : Id
  status : String
  createdAt : Int
  completedAt : Option Int
  durationMs : Option Int4

structure ApprovalHistoryEntry where
  action : String
  actorName : Option String
  comments : Option String
  timestamp : String

structure ApprovalInstance where
  workspaceId : Id
  objectName : String
  recordId : Id
  status : String
  submittedAt : Int
  history : Option (List ApprovalHistoryEntry)

/-- The rows of the three tables. A statement without an order gives its rows in whatever order it
comes across them, which `scanned` fixes for each statement. -/
structure Database where
  agents : List Agent
  executions : List AgentExecution
  approvals : List ApprovalInstance
  scanned : {α : Type} → String → List α → List α
  scanned_perm : ∀ {α : Type} (statement : String) (rows : List α),
    (scanned statement rows).Perm rows

def Database.find {α : Type} (db : Database) (statement : String) (rows : List α)
    (condition : α → Bool) : List α :=
  db.scanned statement (rows.filter condition)

/-! ## Derivations -/

/-- The arithmetic and the clock of the language: `dateOf` is `new Date(text).getTime()`, or nothing
for an invalid date. -/
structure Platform where
  arithmetic : WholeRounding
  fmt : Json.NumberFormat
  dateOf : String → Option Int
  isoString : Int → String

structure GrowthExecutionInput where
  id : Id
  status : String
  createdAt : Int
  completedAt : Option Int
  durationMs : Option Int4

structure GrowthApprovalInput where
  recordId : Id
  status : String
  submittedAt : Int
  history : List ApprovalHistoryEntry
  pausedToolName : Option String
  pausedRiskLevel : Option String

structure AgentStats where
  totalExecutions : Nat
  successRate : Option Double
  approvalRate : Option Double
  l3EscalationCount : Nat
  avgDurationMs : Option Double

/-- `part / total`, where there is a sample. -/
def rate (p : Platform) (part total : Nat) : Option Double :=
  if 0 < total then some (p.arithmetic.round ((part : Rat) / total)) else none

/-- `durations.reduce((sum, value) => sum + value, 0)` -/
def sumDurations (p : Platform) (durations : List Int4) : Double :=
  durations.foldl (fun sum value => p.arithmetic.add sum (.finite value.1)) (.finite 0)

/-- `sum / count` -/
def divide (p : Platform) (sum : Double) (count : Nat) : Double :=
  match sum with
  | .finite q => p.arithmetic.round (q / count)
  | other => other

def deriveAgentStats (p : Platform) (executions : List GrowthExecutionInput)
    (approvals : List GrowthApprovalInput) : AgentStats :=
  let durations := executions.filterMap (·.durationMs)
  let decided := approvals.filter fun row => row.status = "APPROVED" || row.status = "REJECTED"
  { totalExecutions := executions.length
    successRate := rate p (executions.filter (·.status = "done")).length executions.length
    approvalRate := rate p (decided.filter (·.status = "APPROVED")).length decided.length
    l3EscalationCount := approvals.length
    avgDurationMs :=
      if 0 < durations.length then some (divide p (sumDurations p durations) durations.length)
      else none }

inductive GrowthKind where
  | coaching
  | escalation
  | milestone

structure GrowthEntry where
  kind : GrowthKind
  decision : Option String := none
  comment : Option String := none
  toolName : Option String := none
  riskLevel : Option String := none
  executionId : Id
  time : Option Int
  actorName : Option String := none
  status : Option String := none

/-- `entry.comments.trim() || null`, where there are comments. -/
def trimmedComment (comments : Option String) : Option String :=
  (comments.map AgentRuntime.trim).filter (· ≠ "")

/-- The notes of an approval's history. -/
def coachingEntry (p : Platform) (approval : GrowthApprovalInput) (entry : ApprovalHistoryEntry) :
    Option GrowthEntry :=
  if entry.action = "APPROVED" ∨ entry.action = "REJECTED" then
    some
      { kind := .coaching
        decision := some entry.action
        comment := trimmedComment entry.comments
        toolName := approval.pausedToolName
        riskLevel := approval.pausedRiskLevel
        executionId := approval.recordId
        time := p.dateOf entry.timestamp
        actorName := entry.actorName }
  else none

/-- `b.at.getTime() - a.at.getTime() <= 0`; a comparison with an invalid date gives zero. -/
def notLater (a b : GrowthEntry) : Prop :=
  ∀ s ∈ a.time, ∀ t ∈ b.time, t ≤ s

instance (a b : GrowthEntry) : Decidable (notLater a b) :=
  inferInstanceAs (Decidable (∀ s ∈ a.time, ∀ t ∈ b.time, t ≤ s))

def deriveGrowthTimeline (p : Platform) (executions : List GrowthExecutionInput)
    (approvals : List GrowthApprovalInput) : List GrowthEntry :=
  let milestones := executions.map fun execution : GrowthExecutionInput =>
    { kind := .milestone
      executionId := execution.id
      time := some (execution.completedAt.getD execution.createdAt)
      status := some execution.status }
  let escalations := approvals.flatMap fun approval =>
    { kind := .escalation
      executionId := approval.recordId
      toolName := approval.pausedToolName
      riskLevel := approval.pausedRiskLevel
      time := some approval.submittedAt } :: approval.history.filterMap (coachingEntry p approval)
  (milestones ++ escalations).insertionSort notLater

/-- `parsePausedToolSnapshot`: the first marker that is followed by an object. -/
def parsePausedToolSnapshot (fmt : Json.NumberFormat) :
    List ApprovalHistoryEntry → Option String × Option String
  | [] => (none, none)
  | entry :: history =>
    match (afterMarker (entry.comments.getD "")).bind fun text => Json.parse fmt text.toList with
    | some (.obj fields) =>
      (((Json.obj fields).get? "toolName").bind Json.asString,
        ((Json.obj fields).get? "riskLevel").bind Json.asString)
    | some (.arr _) => (none, none)
    | _ => parsePausedToolSnapshot fmt history

/-! ## Views -/

/-- `APPROVAL_OBJECT` -/
def approvalObject : String :=
  "AgentExecution"

def executionInput (row : AgentExecution) : GrowthExecutionInput where
  id := row.id
  status := row.status
  createdAt := row.createdAt
  completedAt := row.completedAt
  durationMs := row.durationMs

def approvalInput (p : Platform) (row : ApprovalInstance) : GrowthApprovalInput :=
  let paused := parsePausedToolSnapshot p.fmt (row.history.getD [])
  { recordId := row.recordId
    status := row.status
    submittedAt := row.submittedAt
    history := row.history.getD []
    pausedToolName := paused.1
    pausedRiskLevel := paused.2 }

def approvalsFor (approvals : List ApprovalInstance) (executions : List AgentExecution) :
    List ApprovalInstance :=
  approvals.filter fun approval => approval.recordId ∈ executions.map (·.id)

/-- The statistics of rows. -/
def statsOf (p : Platform) (executions : List AgentExecution) (approvals : List ApprovalInstance) :
    AgentStats :=
  deriveAgentStats p (executions.map executionInput) (approvals.map (approvalInput p))

structure AgentSummary where
  id : Id
  name : String
  status : String
  description : Option String
  stats : AgentStats

def summaries (p : Platform) (db : Database) (workspaceId : Id) : List AgentSummary :=
  let rows := (db.find "agents.active" db.agents fun row =>
    row.workspaceId = workspaceId && row.isActive).insertionSort fun a b => a.createdAt ≤ b.createdAt
  if rows = [] then []
  else
    let executions := db.find "executions.workspace" db.executions fun row =>
      row.workspaceId = workspaceId && row.agentId ∈ rows.map (·.id)
    let approvals := db.find "approvals" db.approvals fun row =>
      row.workspaceId = workspaceId && row.objectName = approvalObject
    rows.map fun row =>
      let own := executions.filter (·.agentId = row.id)
      { id := row.id
        name := row.name
        status := row.status
        description := row.description
        stats := statsOf p own (approvalsFor approvals own) }

structure AgentDetail where
  id : Id
  name : String
  status : String
  apiName : Option String
  agentType : Option String
  version : Option Int4
  updatedAt : Option String
  description : Option String
  prompt : Option String
  guardrailRules : Option Json
  recentExecutions : List AgentExecution
  growthTimeline : List GrowthEntry
  stats : AgentStats

def detail (p : Platform) (db : Database) (workspaceId agentId : Id) : Option AgentDetail :=
  match (db.find "agents.one" db.agents fun row =>
    row.id = agentId && row.workspaceId = workspaceId).head? with
  | none => none
  | some agent =>
    let executions := ((db.find "executions.agent" db.executions fun row =>
      row.workspaceId = workspaceId && row.agentId = agentId).insertionSort fun a b =>
        b.createdAt ≤ a.createdAt).take 50
    let approvals := db.find "approvals" db.approvals fun row =>
      row.workspaceId = workspaceId && row.objectName = approvalObject
    let related := approvalsFor approvals executions
    some
      { id := agent.id
        name := agent.name
        status := agent.status
        apiName := agent.apiName
        agentType := agent.type
        version := agent.version
        updatedAt := agent.updatedAt.map p.isoString
        description := agent.description
        prompt := agent.prompt
        guardrailRules := agent.guardrailRules
        recentExecutions := executions.take 10
        growthTimeline := deriveGrowthTimeline p (executions.map executionInput)
          (related.map (approvalInput p))
        stats := statsOf p executions related }

/-! ## The statistics of an agent -/

/-- All executions of an agent. -/
def Database.executionsOf (db : Database) (agent : Agent) : List AgentExecution :=
  db.executions.filter fun row => row.workspaceId = agent.workspaceId && row.agentId = agent.id

/-- The approvals that ask about one of the executions. -/
def Database.approvalsOf (db : Database) (agent : Agent) : List ApprovalInstance :=
  approvalsFor
    (db.approvals.filter fun row =>
      row.workspaceId = agent.workspaceId && row.objectName = approvalObject)
    (db.executionsOf agent)

/-- Both views give an agent the statistics of all of its rows; an agent that is not active is on no
card. -/
structure StatsAgree (p : Platform) (db : Database) (agent : Agent) : Prop where
  summary : ∀ s ∈ summaries p db agent.workspaceId, s.id = agent.id →
    s.stats = statsOf p (db.executionsOf agent) (db.approvalsOf agent)
  listed : agent.isActive = true → ∃ s ∈ summaries p db agent.workspaceId, s.id = agent.id
  detail : ∃ d, Insights.detail p db agent.workspaceId agent.id = some d ∧ d.id = agent.id ∧
    d.stats = statsOf p (db.executionsOf agent) (db.approvalsOf agent)

section
variable {p : Platform} {db : Database}

/-- The database may return the rows in any order. -/
lemma Database.find_perm (statement : String) {α : Type} (rows : List α) (condition : α → Bool) :
    (db.find statement rows condition).Perm (rows.filter condition) :=
  db.scanned_perm statement _

/-- The sum of at most 2^22 durations is exact. -/
lemma sumDurations_eq {durations : List Int4} (hroom : durations.length * 2 ^ 31 ≤ 2 ^ 53) :
    sumDurations p durations = .finite (((durations.map Subtype.val).sum : Int) : Rat) := by
  have hbound : ∀ n ∈ durations.map Subtype.val, n.natAbs ≤ 2 ^ 31 := by
    intro n hn
    obtain ⟨m, _, rfl⟩ := List.mem_map.1 hn
    exact m.2
  have hsum := p.arithmetic.foldl_add hbound (s := 0) (by simpa using hroom)
  rw [List.foldl_map, Int.zero_add] at hsum
  exact hsum

/-- The order of the rows does not matter to the statistics. -/
lemma statsOf_perm {executions executions' : List AgentExecution}
    {approvals approvals' : List ApprovalInstance} (he : executions.Perm executions')
    (ha : approvals.Perm approvals') (hroom : executions.length * 2 ^ 31 ≤ 2 ^ 53) :
    statsOf p executions approvals = statsOf p executions' approvals' := by
  have hinputs := he.map executionInput
  have hasked := ha.map (approvalInput p)
  have hdurations := hinputs.filterMap (·.durationMs)
  have hshort : ((executions.map executionInput).filterMap (·.durationMs)).length * 2 ^ 31 ≤
      2 ^ 53 := by
    refine le_trans (Nat.mul_le_mul_right _ ?_) hroom
    exact (List.length_filterMap_le _ _).trans (List.length_map _).le
  have hsum : sumDurations p ((executions.map executionInput).filterMap (·.durationMs)) =
      sumDurations p ((executions'.map executionInput).filterMap (·.durationMs)) := by
    rw [sumDurations_eq hshort, sumDurations_eq (hdurations.length_eq ▸ hshort),
      (hdurations.map Subtype.val).sum_eq]
  unfold statsOf deriveAgentStats
  simp only [hinputs.length_eq, hasked.length_eq, (hinputs.filter _).length_eq,
    (hasked.filter _).length_eq, ((hasked.filter _).filter _).length_eq, hdurations.length_eq, hsum]

/-- The approvals do not depend on the order. -/
lemma approvalsFor_perm {approvals approvals' : List ApprovalInstance}
    {executions executions' : List AgentExecution} (ha : approvals.Perm approvals')
    (he : executions.Perm executions') :
    (approvalsFor approvals executions).Perm (approvalsFor approvals' executions') := by
  have hids (approval : ApprovalInstance) : approval.recordId ∈ executions.map (·.id) ↔
      approval.recordId ∈ executions'.map (·.id) := (he.map _).mem_iff
  unfold approvalsFor
  simp only [hids]
  exact ha.filter _

/-- The views of the rows that an agent is shown with. -/
lemma statsOf_views {agent : Agent} {executions : List AgentExecution}
    (he : executions.Perm (db.executionsOf agent))
    (hroom : (db.executionsOf agent).length ≤ 50) :
    statsOf p executions (approvalsFor (db.find "approvals" db.approvals fun row =>
        row.workspaceId = agent.workspaceId && row.objectName = approvalObject) executions) =
      statsOf p (db.executionsOf agent) (db.approvalsOf agent) := by
  refine statsOf_perm he (approvalsFor_perm (db.find_perm "approvals" _ _) he) ?_
  rw [he.length_eq]
  omega

/-- The active agents of a workspace. -/
lemma mem_active {agent row : Agent} :
    row ∈ (db.find "agents.active" db.agents fun row =>
      row.workspaceId = agent.workspaceId && row.isActive).insertionSort
        (fun a b => a.createdAt ≤ b.createdAt) ↔
      row ∈ db.agents ∧ row.workspaceId = agent.workspaceId ∧ row.isActive = true := by
  rw [(List.perm_insertionSort _ _).mem_iff, (db.find_perm "agents.active" _ _).mem_iff,
    List.mem_filter, Bool.and_eq_true, decide_eq_true_iff]

/-- A card stands for an active agent and shows the rows that the statement over the whole workspace
has for it. -/
lemma mem_summaries {agent : Agent} {s : AgentSummary}
    (h : s ∈ summaries p db agent.workspaceId) (hid : s.id = agent.id) :
    ∃ executions : List AgentExecution, executions.Perm (db.executionsOf agent) ∧
      s.stats = statsOf p executions (approvalsFor (db.find "approvals" db.approvals fun row =>
        row.workspaceId = agent.workspaceId && row.objectName = approvalObject) executions) := by
  unfold summaries at h
  simp only at h
  split at h
  · cases h
  · obtain ⟨row, hrow, rfl⟩ := List.mem_map.1 h
    refine ⟨_, ?_, rfl⟩
    refine ((db.find_perm "executions.workspace" _ _).filter _).trans (List.Perm.of_eq ?_)
    unfold Database.executionsOf
    rw [List.filter_filter]
    refine List.filter_congr fun execution _ => ?_
    have hrowid : row.id = agent.id := hid
    have hmem := List.mem_map_of_mem (f := fun row : Agent => row.id) hrow
    by_cases hown : execution.agentId = agent.id
    · rw [hrowid] at hmem ⊢
      simp [hown, hmem]
    · rw [hrowid]
      simp [hown]

/-- An active agent has a summary. -/
lemma summaries_listed {agent : Agent} (h : agent ∈ db.agents) (hactive : agent.isActive = true) :
    ∃ s ∈ summaries p db agent.workspaceId, s.id = agent.id := by
  have hrow := mem_active.2 ⟨h, rfl, hactive⟩
  unfold summaries
  simp only [if_neg (List.ne_nil_of_mem hrow)]
  exact ⟨_, List.mem_map_of_mem hrow, rfl⟩

/-- The detail view is there and shows the fifty newest executions. -/
lemma detail_eq {agent : Agent} (h : agent ∈ db.agents) :
    ∃ (d : AgentDetail) (executions : List AgentExecution),
      detail p db agent.workspaceId agent.id = some d ∧ d.id = agent.id ∧
      executions.Perm (db.executionsOf agent) ∧
      d.stats = statsOf p (executions.take 50) (approvalsFor
        (db.find "approvals" db.approvals fun row =>
          row.workspaceId = agent.workspaceId && row.objectName = approvalObject)
        (executions.take 50)) := by
  have hfound : agent ∈ db.find "agents.one" db.agents fun row =>
      row.id = agent.id && row.workspaceId = agent.workspaceId := by
    rw [(db.find_perm "agents.one" _ _).mem_iff, List.mem_filter]
    exact ⟨h, by simp⟩
  obtain ⟨row, hrow⟩ : ∃ row, (db.find "agents.one" db.agents fun row =>
      row.id = agent.id && row.workspaceId = agent.workspaceId).head? = some row :=
    ⟨_, List.head?_eq_some_head (List.ne_nil_of_mem hfound)⟩
  have hid : row.id = agent.id := by
    have hmem := (db.find_perm "agents.one" _ _).mem_iff.1 (List.mem_of_head? hrow)
    exact (by simpa using (List.mem_filter.1 hmem).2 :
      row.id = agent.id ∧ row.workspaceId = agent.workspaceId).1
  unfold detail
  rw [hrow]
  exact ⟨_, _, rfl, hid,
    (List.perm_insertionSort _ _).trans (db.find_perm "executions.agent" _ _), rfl⟩

end

/-- The detail view counts no more than fifty executions. -/
lemma few_of_agree {p : Platform} {db : Database} {agent : Agent} (h : agent ∈ db.agents)
    (hagree : StatsAgree p db agent) : (db.executionsOf agent).length ≤ 50 := by
  obtain ⟨d, executions, hd, _, _, hstats⟩ := detail_eq (p := p) h
  obtain ⟨d', hd', _, hstats'⟩ := hagree.detail
  obtain rfl := Option.some.inj (hd.symm.trans hd')
  have htotal := congrArg AgentStats.totalExecutions (hstats.symm.trans hstats')
  have hcounts : (executions.take 50).length = (db.executionsOf agent).length := by
    simpa [statsOf, deriveAgentStats] using htotal
  rw [← hcounts]
  exact List.length_take_le _ _

/-- The views agree on exactly the agents with at most fifty executions. -/
theorem stats_agree_iff (p : Platform) (db : Database) (agent : Agent) (h : agent ∈ db.agents) :
    StatsAgree p db agent ↔ (db.executionsOf agent).length ≤ 50 := by
  constructor
  · exact few_of_agree h
  · intro hfew
    obtain ⟨d, executions, hd, hid, hperm, hstats⟩ := detail_eq (p := p) h
    have hall : executions.take 50 = executions :=
      List.take_of_length_le (by rw [hperm.length_eq]; exact hfew)
    rw [hall, statsOf_views hperm hfew] at hstats
    refine ⟨fun s hs hsid => ?_, summaries_listed h, d, hd, hid, hstats⟩
    obtain ⟨own, hown, hs⟩ := mem_summaries hs hsid
    rw [hs, statsOf_views hown hfew]

def plainPlatform : Platform where
  arithmetic := .exact
  fmt := digits
  dateOf := fun _ => none
  isoString := fun _ => ""

def clerk : Agent where
  id := 1
  workspaceId := 1
  isActive := true
  createdAt := 0
  updatedAt := none
  name := "clerk"
  status := "active"
  apiName := none
  type := none
  version := none
  description := none
  prompt := none
  guardrailRules := none

/-- One agent with so many executions, the newest one last. -/
def busyClerk (count : Nat) : Database where
  agents := [clerk]
  executions := (List.range count).map fun n =>
    { id := n
      workspaceId := 1
      agentId := 1
      status := "done"
      createdAt := n
      completedAt := none
      durationMs := none }
  approvals := []
  scanned := fun _ rows => rows
  scanned_perm := fun _ _ => .refl _

/-- The statistics agree on fifty executions. -/
theorem stats_agree_fifty : StatsAgree plainPlatform (busyClerk 50) clerk :=
  (stats_agree_iff plainPlatform (busyClerk 50) clerk (List.mem_singleton_self _)).2 (by decide)

/-- With one execution more, the card shows 51 of them and the detail view 50. -/
theorem stats_differ_beyond_fifty : ¬ StatsAgree plainPlatform (busyClerk 51) clerk := by
  intro h
  have hfew := few_of_agree (List.mem_singleton_self _) h
  exact absurd hfew (by decide)

end NexusClaw.Community.Insights
