import NexusClaw.Concurrent.Transaction
import NexusClaw.Governance.Executor

/-!
# Closeout

The transaction at the end of `ExecutorEngine.run`, with `outbox.service.ts` below it: the statements
of `runInTransaction` one by one, the connection that each of them uses, and every place where one
can fail. The event goes through the manager of the transaction; the update of the execution goes
through the repository of the engine.
-/

namespace NexusClaw.Governance
open Concurrent

/-! ## Outbox service -/

structure OutboxTraceContext where
  traceId : String
  correlationId : String
  executionId : Option String := none
deriving DecidableEq, Repr

structure OutboxEventInput where
  workspaceId : Id
  topic : String
  eventType : String
  aggregateType : String
  aggregateId : Id
  payload : OutboxPayload
  idempotencyKey : Option String := none
deriving DecidableEq, Repr

/-- A row of `outbox_events` as `enqueueInTransaction` writes it. -/
structure OutboxRow extends OutboxEventInput where
  id : Id
  traceContext : OutboxTraceContext
  createdAt : Nat
  publishedAt : Option Nat := none
  attemptCount : Nat := 0
  lastError : Option String := none
deriving DecidableEq, Repr

inductive OutboxError where
  | requestContextMissing
  | payloadInvalid (issues : List String)
  | query (message : String)
deriving DecidableEq, Repr

/-- A row of `agent_executions` with the time in its column `completed_at`. -/
structure TimedExecution extends AgentExecution where
  completedTime : Option Nat := none

/-- `{ status: finalStatus, completedAt: new Date() }` -/
structure ClosingPatch where
  status : ExecutionStatus
  completedAt : Nat

def TimedExecution.patch (row : TimedExecution) (p : ClosingPatch) : TimedExecution where
  toAgentExecution := row.toAgentExecution.patch { status := some p.status, completedAt := true }
  completedTime := some p.completedAt

/-- The statements of a closeout. -/
inductive CloseoutStmt where
  | updateExecution (id : Id) (patch : ClosingPatch)
  | saveEvent (row : OutboxRow)
  | notify (topic : String)

/-- The tables that a closeout writes. -/
structure Stores where
  executions : Table Id TimedExecution
  outbox : List OutboxRow

def CloseoutStmt.apply : CloseoutStmt → Stores → Stores
  | .updateExecution id patch, w =>
    { w with executions := w.executions.modify id (·.patch patch) }
  | .saveEvent row, w => { w with outbox := w.outbox ++ [row] }
  | .notify _, w => w

/-- A service in its surroundings: the bound trace context, the next id, the time, and which of the
statements fail. -/
structure OutboxService where
  getTraceContext : Option OutboxTraceContext
  generateId : Id
  now : Nat
  fails : Issued CloseoutStmt → Option OutboxError
  commitFails : Option OutboxError

def OutboxService.database (service : OutboxService) :
    Txn.Database CloseoutStmt OutboxError Stores where
  apply := CloseoutStmt.apply
  fails := service.fails
  commitFails := service.commitFails

/-- `z.string().min(1)` at a path. -/
def minOne (path : String) (text : String) : List String :=
  if text = "" then [path] else []

/-- `z.string().min(1).optional()` at a path. -/
def minOneOptional (path : String) (text : Option String) : List String :=
  (text.map (minOne path)).getD []

/-- The paths of the issues that `outboxEventSchema` finds. Identifiers are never empty, a payload is
an object and a count is no less than zero, so those fields have no issue. -/
def outboxEventSchema (row : OutboxRow) : List String :=
  minOne "topic" row.topic ++ minOne "eventType" row.eventType ++
    minOne "aggregateType" row.aggregateType ++
    minOne "traceContext.traceId" row.traceContext.traceId ++
    minOne "traceContext.correlationId" row.traceContext.correlationId ++
    minOneOptional "traceContext.executionId" row.traceContext.executionId ++
    minOneOptional "idempotencyKey" row.idempotencyKey ++
    minOneOptional "lastError" row.lastError

/-- The row of an event. -/
def OutboxService.row (service : OutboxService) (event : OutboxEventInput)
    (ctx : OutboxTraceContext) : OutboxRow :=
  { event with
    id := service.generateId
    traceContext := ctx
    createdAt := service.now }

/-- `enqueueInTransaction` -/
def OutboxService.enqueueInTransaction (service : OutboxService) (event : OutboxEventInput) :
    Txn CloseoutStmt OutboxError Id :=
  match service.getTraceContext with
  | none => .throw .requestContextMissing
  | some ctx =>
    let row := service.row event ctx
    if outboxEventSchema row ≠ [] then .throw (.payloadInvalid (outboxEventSchema row))
    else do
      Txn.issue .manager (.saveEvent row)
      pure row.id

/-- A callback of `runInTransaction`; the state is the set of the topics that were enqueued. -/
abbrev Callback (α : Type) : Type :=
  StateT (List String) (Txn CloseoutStmt OutboxError) α

/-- `handle.enqueue` -/
def OutboxService.enqueue (service : OutboxService) (event : OutboxEventInput) : Callback Id := do
  let id ← StateT.lift (service.enqueueInTransaction event)
  modify fun topics => topics.insert event.topic
  pure id

/-- One NOTIFY for each topic. -/
def notifyTopics : List String → Txn CloseoutStmt OutboxError Unit
  | [] => pure ()
  | topic :: topics => do
    Txn.issue .manager (.notify topic)
    notifyTopics topics

/-- The body of the transaction of `runInTransaction`. -/
def withNotify {α : Type} (cb : Callback α) : Txn CloseoutStmt OutboxError α := do
  let (result, topics) ← cb.run []
  notifyTopics topics
  pure result

/-- `runInTransaction` -/
def OutboxService.runInTransaction {α : Type} (service : OutboxService) (cb : Callback α)
    (w : Stores) : Except OutboxError α × Stores :=
  service.database.transaction (withNotify cb) w

/-! ## The end of a run -/

/-- The text of the column. -/
def EventType.text : EventType → String
  | .executionStarted => "agent.execution.started"
  | .executionPaused => "agent.execution.paused"
  | .executionCompleted => "agent.execution.completed"
  | .executionFailed => "agent.execution.failed"

/-- An event of the engine on `OutboxTopic.AGENT_EVENTS`. -/
def agentEvent (event : OutboxEvent) : OutboxEventInput where
  workspaceId := event.workspaceId
  topic := "agent_events"
  eventType := event.eventType.text
  aggregateType := "AgentExecution"
  aggregateId := event.aggregateId
  payload := event.payload

/-- The callback of the closeout at the time `completedAt`. -/
def closeout (service : OutboxService) (input : ExecutorInput) (executionId : Id)
    (finalStatus : ExecutionStatus) (completedAt stepCount : Nat) : Callback Unit := do
  StateT.lift (Txn.issue .pool (.updateExecution executionId ⟨finalStatus, completedAt⟩))
  let _ ← service.enqueue (agentEvent (runFinished input executionId finalStatus stepCount))

/-! ## What can fail -/

/-- The event of a transaction that nothing interrupts after the update: it has a trace context, it
passes the schema, and neither its statements nor the commit fail. -/
structure OutboxService.Sends (service : OutboxService) (event : OutboxEventInput)
    (ctx : OutboxTraceContext) : Prop where
  context : service.getTraceContext = some ctx
  valid : outboxEventSchema (service.row event ctx) = []
  insert : service.fails ⟨.manager, .saveEvent (service.row event ctx)⟩ = none
  notify : service.fails ⟨.manager, .notify event.topic⟩ = none
  commit : service.commitFails = none

/-- Both the terminal update and its event are stored, or neither is and the execution is as it
was. -/
def ClosesAtomically (service : OutboxService) (input : ExecutorInput) (executionId : Id)
    (finalStatus : ExecutionStatus) (completedAt stepCount : Nat) (w : Stores) : Prop :=
  let event := agentEvent (runFinished input executionId finalStatus stepCount)
  let w' := (service.runInTransaction
    (closeout service input executionId finalStatus completedAt stepCount) w).2
  (w'.executions = w.executions.modify executionId (·.patch ⟨finalStatus, completedAt⟩) ∧
      ∃ ctx, w'.outbox = w.outbox ++ [service.row event ctx]) ∨
    (w'.executions executionId = w.executions executionId ∧ w'.outbox = w.outbox)

section closeout
variable {service : OutboxService} {event : OutboxEventInput}

/-- The transaction after the update of the execution. -/
def announce (service : OutboxService) (event : OutboxEventInput) :
    Txn CloseoutStmt OutboxError Unit := do
  let _ ← service.enqueueInTransaction event
  Txn.issue .manager (.notify event.topic)

/-- An event goes through the manager. -/
lemma managed_enqueueInTransaction (service : OutboxService) (event : OutboxEventInput) :
    Txn.Managed (service.enqueueInTransaction event) := by
  unfold OutboxService.enqueueInTransaction
  cases service.getTraceContext with
  | none => trivial
  | some ctx =>
    dsimp only
    split_ifs
    · trivial
    · exact (Txn.managed_issue _).bind fun _ => trivial

/-- So does an announcement. -/
lemma managed_announce (service : OutboxService) (event : OutboxEventInput) :
    Txn.Managed (announce service event) :=
  (managed_enqueueInTransaction service event).bind fun _ => Txn.managed_issue _

/-- The announcement of an event that has a trace context and passes the schema. -/
lemma announce_valid {ctx : OutboxTraceContext} (hcontext : service.getTraceContext = some ctx)
    (hvalid : outboxEventSchema (service.row event ctx) = []) :
    announce service event = (do
      Txn.issue .manager (.saveEvent (service.row event ctx))
      Txn.issue .manager (.notify event.topic)) := by
  unfold announce OutboxService.enqueueInTransaction
  rw [hcontext]
  dsimp only
  rw [if_neg (not_not.2 hvalid), Prog.bind_assoc]
  rfl

/-- The event is stored with its transaction. -/
lemma OutboxService.Sends.announced {ctx : OutboxTraceContext} (h : service.Sends event ctx)
    (w : Stores) : service.database.transaction (announce service event) w =
      (.ok (), { w with outbox := w.outbox ++ [service.row event ctx] }) := by
  have hinsert : service.database.fails ⟨.manager, .saveEvent (service.row event ctx)⟩ = none :=
    h.insert
  have hnotify : service.database.fails ⟨.manager, .notify event.topic⟩ = none := h.notify
  have hcommit : service.database.commitFails = none := h.commit
  rw [announce_valid h.context h.valid, Txn.transaction_of_ok
    ((Prog.run_bind_ok _ (Txn.issue_run_ok hinsert _)).trans (Txn.issue_run_ok hnotify _))]
  unfold Txn.Database.commit Txn.Database.exec
  rw [hcommit, hinsert, hnotify]
  rfl

/-- Otherwise the transaction fails. -/
lemma announce_fails (h : ¬ ∃ ctx, service.Sends event ctx) (w : Stores) :
    ∃ e, (service.database.transaction (announce service event) w).1 = .error e := by
  -- in the order of the statements: context, schema, insert, notification, commit
  cases hcontext : service.getTraceContext with
  | none =>
    have hrun : (announce service event).run service.database.exec { stored := w, pending := [] } =
        (.error .requestContextMissing, { stored := w, pending := [] }) := by
      unfold announce OutboxService.enqueueInTransaction
      rw [hcontext]
      rfl
    rw [Txn.transaction_of_error hrun]
    exact ⟨_, rfl⟩
  | some ctx =>
    by_cases hvalid : outboxEventSchema (service.row event ctx) = []
    · rw [announce_valid hcontext hvalid]
      cases hinsert : service.database.fails ⟨.manager, .saveEvent (service.row event ctx)⟩ with
      | some e =>
        rw [Txn.transaction_of_error (Prog.run_bind_error _ (Txn.issue_run_error hinsert _))]
        exact ⟨e, rfl⟩
      | none =>
        cases hnotify : service.database.fails ⟨.manager, .notify event.topic⟩ with
        | some e =>
          rw [Txn.transaction_of_error ((Prog.run_bind_ok _ (Txn.issue_run_ok hinsert _)).trans
            (Txn.issue_run_error hnotify _))]
          exact ⟨e, rfl⟩
        | none =>
          rw [Txn.transaction_of_ok ((Prog.run_bind_ok _ (Txn.issue_run_ok hinsert _)).trans
            (Txn.issue_run_ok hnotify _))]
          cases hcommit : service.database.commitFails with
          | some e =>
            unfold Txn.Database.commit
            rw [hcommit]
            exact ⟨e, rfl⟩
          | none => exact absurd ⟨ctx, hcontext, hvalid, hinsert, hnotify, hcommit⟩ h
    · have hrun : (announce service event).run service.database.exec
          { stored := w, pending := [] } =
          (.error (.payloadInvalid (outboxEventSchema (service.row event ctx))),
            { stored := w, pending := [] }) := by
        unfold announce OutboxService.enqueueInTransaction
        rw [hcontext]
        dsimp only
        rw [if_pos hvalid]
        rfl
      rw [Txn.transaction_of_error hrun]
      exact ⟨_, rfl⟩

/-- A statement within a callback. -/
lemma callback_lift {α : Type} (p : Txn CloseoutStmt OutboxError α) (topics : List String) :
    (StateT.lift p : Callback α).run topics = (p >>= fun a => .ret (a, topics)) := rfl

/-- The update runs on a connection of its own, before everything else. -/
lemma withNotify_closeout (service : OutboxService) (input : ExecutorInput) (executionId : Id)
    (finalStatus : ExecutionStatus) (completedAt stepCount : Nat) :
    withNotify (closeout service input executionId finalStatus completedAt stepCount) =
      (Txn.issue .pool (.updateExecution executionId ⟨finalStatus, completedAt⟩) >>= fun _ =>
        announce service (agentEvent (runFinished input executionId finalStatus stepCount))) := by
  let event := agentEvent (runFinished input executionId finalStatus stepCount)
  have hrun : (closeout service input executionId finalStatus completedAt stepCount).run [] =
      (Txn.issue .pool (.updateExecution executionId ⟨finalStatus, completedAt⟩) >>= fun _ =>
        service.enqueueInTransaction event >>= fun _ => .ret ((), [event.topic])) := by
    unfold closeout OutboxService.enqueue
    simp only [StateT.run_bind, callback_lift, Prog.bind_assoc, Prog.ret_bind]
    rfl
  unfold withNotify announce
  rw [hrun, Prog.bind_assoc]
  refine congrArg _ (funext fun _ => ?_)
  rw [Prog.bind_assoc]
  refine congrArg _ (funext fun _ => ?_)
  unfold notifyTopics notifyTopics
  exact (Prog.bind_assoc ..).trans (Prog.bind_ret _)

end closeout

/-- A closeout is atomic if and only if the update of the execution fails, or nothing fails after it,
or the update leaves the execution as it was: there is no such row, or it has that status and that
time of completion already. -/
theorem closeout_atomic_iff (service : OutboxService) (input : ExecutorInput) (executionId : Id)
    (finalStatus : ExecutionStatus) (completedAt stepCount : Nat) (w : Stores) :
    ClosesAtomically service input executionId finalStatus completedAt stepCount w ↔
      (service.fails ⟨.pool, .updateExecution executionId ⟨finalStatus, completedAt⟩⟩).isSome ∨
        (∃ ctx, service.Sends
          (agentEvent (runFinished input executionId finalStatus stepCount)) ctx) ∨
        (w.executions executionId).map (·.patch ⟨finalStatus, completedAt⟩) =
          w.executions executionId := by
  let event := agentEvent (runFinished input executionId finalStatus stepCount)
  let update := CloseoutStmt.updateExecution executionId ⟨finalStatus, completedAt⟩
  unfold ClosesAtomically OutboxService.runInTransaction
  rw [withNotify_closeout]
  cases hupdate : service.fails ⟨.pool, update⟩ with
  | some e =>
    have hfails : service.database.fails ⟨.pool, update⟩ = some e := hupdate
    rw [Txn.transaction_pool_error hfails]
    exact iff_of_true (.inr ⟨rfl, rfl⟩) (.inl rfl)
  | none =>
    have hfails : service.database.fails ⟨.pool, update⟩ = none := hupdate
    rw [Txn.transaction_pool_ok hfails]
    by_cases hsends : ∃ ctx, service.Sends event ctx
    · obtain ⟨ctx, hctx⟩ := hsends
      rw [hctx.announced]
      exact iff_of_true (.inl ⟨rfl, ctx, rfl⟩) (.inr (.inl ⟨ctx, hctx⟩))
    · obtain ⟨e, he⟩ := announce_fails hsends (service.database.apply update w)
      rw [Txn.transaction_atomic (managed_announce service event) he]
      -- what is left is the update alone
      constructor
      · rintro (⟨-, ctx, houtbox⟩ | ⟨hrow, -⟩)
        · have hlength := congrArg List.length houtbox
          rw [List.length_append] at hlength
          exact absurd hlength (Nat.ne_of_lt (Nat.lt_succ_self _))
        · refine .inr (.inr ?_)
          rw [← Table.modify_self]
          exact hrow
      · rintro (hfailed | hsent | hsame)
        · cases hfailed
        · exact absurd hsent hsends
        · refine .inr ⟨?_, rfl⟩
          exact (Table.modify_self ..).trans hsame

/-- A service with a bound context over a database that loses its connection at the commit. -/
def losingService : OutboxService where
  getTraceContext := some { traceId := "t", correlationId := "c" }
  generateId := 9
  now := 1
  fails := fun _ => none
  commitFails := some (.query "Connection terminated unexpectedly")

/-- A run that was allowed to end. -/
def runningStores : Stores where
  executions := fun id =>
    if id = 4 then
      some
        { id := 4
          workspaceId := 1
          agentId := 2
          triggerSource := .api
          triggerPayload := none
          rawInput := "go"
          status := .running }
    else none
  outbox := []

/-- The execution is done and no event says so. -/
theorem losing_closeout_torn :
    ¬ ClosesAtomically losingService { workspaceId := 1, agentId := 2, rawInput := "go" } 4 .done 7
      3 runningStores := by
  rintro (⟨-, ctx, houtbox⟩ | ⟨hrow, -⟩)
  · cases houtbox
  · have hstatus := congrArg (Option.map fun row => row.status) hrow
    cases hstatus

end NexusClaw.Governance
