import NexusClaw.Concurrent.Session
import NexusClaw.Governance.Closeout

/-!
# Transactional outbox

`outbox.service.ts` for any number of callers at once: `runInTransaction` with `enqueueInTransaction`
and `notifyTopic` below it, over a database in which any statement can fail. A callback may catch what
its own statements throw, as a caller of the service may.
-/

namespace NexusClaw.Governance.TransactionalOutbox
open Concurrent Session

variable {ι π β α : Type}

/-! ## Service -/

/-- The payload is a record of any values. -/
structure OutboxEventInput (π : Type) where
  workspaceId : String
  topic : String
  eventType : String
  aggregateType : String
  aggregateId : String
  payload : π
  idempotencyKey : Option String := none
deriving DecidableEq

/-- A row of `outbox_events`. -/
structure OutboxRow (π : Type) extends OutboxEventInput π where
  id : Id
  traceContext : OutboxTraceContext
  createdAt : Nat
  publishedAt : Option Nat := none
  attemptCount : Nat := 0
  lastError : Option String := none
deriving DecidableEq

/-- The paths of the issues that `outboxEventSchema` finds; an id is a UUID, which is not empty. -/
def outboxEventSchema (row : OutboxRow π) : List String :=
  minOne "workspaceId" row.workspaceId ++ minOne "topic" row.topic ++
    minOne "eventType" row.eventType ++ minOne "aggregateType" row.aggregateType ++
    minOne "aggregateId" row.aggregateId ++
    minOne "traceContext.traceId" row.traceContext.traceId ++
    minOne "traceContext.correlationId" row.traceContext.correlationId ++
    minOneOptional "traceContext.executionId" row.traceContext.executionId ++
    minOneOptional "idempotencyKey" row.idempotencyKey ++
    minOneOptional "lastError" row.lastError

/-- What a transaction of the service does to the database: an event, a wake-up, or a statement of the
caller. -/
inductive Write (π β : Type) where
  | save (row : OutboxRow π)
  | notify (topic : String)
  | query (q : β)
deriving DecidableEq

abbrev OutboxProg (ι π β α : Type) : Type :=
  SessionProg ι OutboxError (Write π β) α

/-- The end of `enqueueInTransaction`: the schema and the insertion. -/
def saveRow (i : ι) (row : OutboxRow π) : OutboxProg ι π β Id :=
  if outboxEventSchema row ≠ [] then .throw (.payloadInvalid (outboxEventSchema row))
  else do
    Session.write i (.save row)
    .ret row.id

/-- `enqueueInTransaction`; `ctx` is what `getTraceContext` finds. -/
def enqueueInTransaction (i : ι) (ctx : Option OutboxTraceContext) (event : OutboxEventInput π) :
    OutboxProg ι π β Id :=
  match ctx with
  | none => .throw .requestContextMissing
  | some traceContext => do
    let id ← Prog.call .tick
    let now ← Prog.call .tick
    saveRow i { event with id, traceContext, createdAt := now }

/-- What a callback awaits: `handle.enqueue` and the statements of its own. -/
inductive Request (π β : Type) where
  | enqueue (ctx : Option OutboxTraceContext) (event : OutboxEventInput π)
  | query (q : β)

abbrev Response : Request π β → Type
  | .enqueue _ _ => Except OutboxError Id
  | .query _ => Except OutboxError Unit

abbrev Callback (π β α : Type) : Type :=
  Prog (Request π β) Response OutboxError α

/-- `enqueuedTopics.add` -/
def addTopic (topics : List String) (topic : String) : List String :=
  if topic ∈ topics then topics else topics ++ [topic]

/-- `handle.enqueue` adds the topic once the event is enqueued. -/
def noteTopic (topics : List String) (topic : String) : Except OutboxError Id → List String
  | .ok _ => addTopic topics topic
  | .error _ => topics

/-- A callback with the handle; the topics are `enqueuedTopics`. -/
def runCallback (i : ι) : List String → Callback π β α → OutboxProg ι π β (α × List String)
  | topics, .ret a => .ret (a, topics)
  | _, .throw e => .throw e
  | topics, .stmt (.enqueue ctx event) k => do
    let r ← (enqueueInTransaction i ctx event).attempt
    runCallback i (noteTopic topics event.topic r) (k r)
  | topics, .stmt (.query q) k => do
    let r ← Prog.call (.write i (.query q))
    runCallback i topics (k r)

/-- `notifyTopic`, once for each topic. -/
def notifyTopics (i : ι) : List String → OutboxProg ι π β Unit
  | [] => .ret ()
  | topic :: topics => do
    Session.write i (.notify topic)
    notifyTopics i topics

/-- What `runInTransaction` does inside its transaction. -/
def inTransaction (i : ι) (cb : Callback π β α) : OutboxProg ι π β α := do
  let (result, enqueuedTopics) ← runCallback i [] cb
  notifyTopics i enqueuedTopics
  .ret result

def runInTransaction (i : ι) (cb : Callback π β α) : OutboxProg ι π β α :=
  transaction i (inTransaction i cb)

/-- What PostgreSQL says to a statement of an aborted transaction. -/
def inFailedTransaction : OutboxError :=
  .query "current transaction is aborted, commands ignored until end of transaction block"

/-! ## What a transaction has written -/

def Write.row? : Write π β → Option (OutboxRow π)
  | .save row => some row
  | _ => none

def Write.topic? : Write π β → Option String
  | .notify topic => some topic
  | _ => none

def Write.query? : Write π β → Option β
  | .query q => some q
  | _ => none

def rows (ws : List (Write π β)) : List (OutboxRow π) :=
  ws.filterMap Write.row?

/-- The statements of the caller. -/
def queries (ws : List (Write π β)) : List β :=
  ws.filterMap Write.query?

/-- The topics of the rows, each once, in the order in which they came up. -/
def topicsOf (rows : List (OutboxRow π)) : List String :=
  (rows.map (·.topic)).foldl addTopic []

/-- The events passed the schema, and behind everything else stands one wake-up for each topic of
them. -/
structure Published (ws : List (Write π β)) : Prop where
  valid : ∀ row ∈ rows ws, outboxEventSchema row = []
  notified : ∃ before, ws = before ++ (topicsOf (rows ws)).map .notify ∧
    ∀ x ∈ before, x.topic? = none

/-! ## What a callback has been told -/

/-- An `enqueue` that resolved. -/
def resolved : Sigma (Response (π := π) (β := β)) → Bool
  | ⟨.enqueue _ _, .ok _⟩ => true
  | _ => false

/-- A statement of the caller that was executed. -/
def executed : Sigma (Response (π := π) (β := β)) → Option β
  | ⟨.query q, .ok ()⟩ => some q
  | _ => none

/-- The row has the event, the trace context and the id of an `enqueue` that resolved. -/
def RowOf (row : OutboxRow π) : Sigma (Response (π := π) (β := β)) → Prop
  | ⟨.enqueue ctx event, .ok id⟩ =>
    row.toOutboxEventInput = event ∧ some row.traceContext = ctx ∧ row.id = id
  | _ => False

/-- The statements `h` of the session `i` made the requests of its callback and gave them the answers
that stand in `g`: an `enqueue` what `enqueueInTransaction` makes of the answers of its statements, a
statement of the caller the answer of the database. -/
inductive Told (i : ι) : History (Statement ι (Write π β)) (Answer OutboxError) →
    History (Request π β) Response → Prop where
  | start : Told i [⟨.begin i, .ok ()⟩] []
  | enqueue {h g ctx event h'} {r : Except OutboxError Id} (told : Told i h g)
      (answers : Leads (enqueueInTransaction i ctx event).attempt h' (.ret r)) :
      Told i (h ++ h') (g ++ [⟨.enqueue ctx event, r⟩])
  | query {h g q} (r : Except OutboxError Unit) (told : Told i h g) :
      Told i (h ++ [⟨.write i (.query q), r⟩]) (g ++ [⟨.query q, r⟩])

/-! ## Along a callback -/

/-- The writes are what the answers `g` speak of. -/
structure Tells (ws : List (Write π β)) (g : History (Request π β) Response) : Prop where
  rows : List.Forall₂ RowOf (rows ws) (g.filter resolved)
  queries : queries ws = g.filterMap executed

section callback
variable {cb q : Callback π β α} {h h' : History (Statement ι (Write π β)) (Answer OutboxError)}
variable {topics : List String} {ctx : Option OutboxTraceContext} {event : OutboxEventInput π} {i : ι}

/-- The rows so far are those of the `enqueue`s that resolved. -/
structure Progress (i : ι) (cb : Callback π β α)
    (h : History (Statement ι (Write π β)) (Answer OutboxError)) (topics : List String)
    (q : Callback π β α) : Prop where
  told : ∃ g, Leads cb g q ∧ Told i h g ∧ Tells (written h) g
  topics : topics = topicsOf (rows (written h))
  valid : ∀ row ∈ rows (written h), outboxEventSchema row = []
  silent : ∀ x ∈ written h, x.topic? = none

/-- The topics of one more row. -/
lemma topicsOf_concat (rs : List (OutboxRow π)) (row : OutboxRow π) :
    topicsOf (rs ++ [row]) = addTopic (topicsOf rs) row.topic := by
  unfold topicsOf
  rw [List.map_append, List.foldl_append]
  rfl

/-- The rows among two lists of writes. -/
lemma rows_append (ws ws' : List (Write π β)) : rows (ws ++ ws') = rows ws ++ rows ws' :=
  List.filterMap_append ..

/-- The queries among two lists of writes. -/
lemma queries_append (ws ws' : List (Write π β)) : queries (ws ++ ws') = queries ws ++ queries ws' :=
  List.filterMap_append ..

/-- A saved row makes progress. -/
lemma Progress.saved {k : Except OutboxError Id → Callback π β α} {id : Id} {row : OutboxRow π}
    (hp : Progress i cb h topics (.stmt (.enqueue ctx event) k))
    (hanswers : Leads (enqueueInTransaction i ctx event).attempt h' (.ret (.ok id)))
    (hw : written (h ++ h') = written h ++ [.save row])
    (hrow : RowOf row (⟨.enqueue ctx event, .ok id⟩ : Sigma (Response (π := π) (β := β))))
    (hvalid : outboxEventSchema row = []) :
    Progress i cb (h ++ h') (addTopic topics event.topic) (k (.ok id)) := by
  have hrows : rows (written (h ++ h')) = rows (written h) ++ [row] := by
    rw [hw, rows_append]
    rfl
  obtain ⟨g, hleads, htold, hg⟩ := hp.told
  refine ⟨⟨_, hleads.answered (Except.ok id : Except OutboxError Id), htold.enqueue hanswers, ?_, ?_⟩,
    ?_, ?_, ?_⟩
  · rw [hrows, List.filter_append]
    exact List.rel_append hg.rows (.cons hrow .nil)
  · rw [hw, queries_append, List.filterMap_append, hg.queries]
    rfl
  · rw [hrows, topicsOf_concat, ← hp.topics, ← hrow.1]
  · intro r hr
    rw [hrows] at hr
    rcases List.mem_append.1 hr with hr | hr
    · exact hp.valid r hr
    · rw [List.mem_singleton.1 hr]
      exact hvalid
  · intro x hx
    rw [hw] at hx
    rcases List.mem_append.1 hx with hx | hx
    · exact hp.silent x hx
    · rw [List.mem_singleton.1 hx]
      rfl

/-- A refused event makes progress. -/
lemma Progress.refused {k : Except OutboxError Id → Callback π β α} {e : OutboxError}
    (hp : Progress i cb h topics (.stmt (.enqueue ctx event) k))
    (hanswers : Leads (enqueueInTransaction i ctx event).attempt h' (.ret (.error e)))
    (hw : written (h ++ h') = written h) : Progress i cb (h ++ h') topics (k (.error e)) := by
  obtain ⟨g, hleads, htold, hg⟩ := hp.told
  refine ⟨⟨_, hleads.answered (Except.error e : Except OutboxError Id), htold.enqueue hanswers, ?_, ?_⟩,
    ?_, ?_, ?_⟩
  · rw [hw, List.filter_append]
    exact (List.append_nil _).symm ▸ hg.rows
  · rw [hw, List.filterMap_append]
    exact (List.append_nil _).symm ▸ hg.queries
  · rw [hw]
    exact hp.topics
  · rw [hw]
    exact hp.valid
  · rw [hw]
    exact hp.silent

/-- A query makes progress. -/
lemma Progress.queried {x : β} {k : Except OutboxError Unit → Callback π β α}
    (hp : Progress i cb h topics (.stmt (.query x) k)) (r : Except OutboxError Unit) :
    Progress i cb (h ++ [⟨.write i (.query x), r⟩]) topics (k r) := by
  have hrows : rows (written (h ++ [⟨.write i (.query x), r⟩])) = rows (written h) := by
    rw [written_concat, rows_append]
    cases r with
    | ok u => exact List.append_nil _
    | error e => exact List.append_nil _
  obtain ⟨g, hleads, htold, hg⟩ := hp.told
  refine ⟨⟨_, hleads.answered r, htold.query r, ?_, ?_⟩, ?_, ?_, ?_⟩
  · rw [hrows, List.filter_append]
    exact (List.append_nil _).symm ▸ hg.rows
  · rw [written_concat, queries_append, List.filterMap_append, hg.queries]
    cases r with
    | ok u => rfl
    | error e => rfl
  · rw [hrows]
    exact hp.topics
  · rw [hrows]
    exact hp.valid
  · intro y hy
    rw [written_concat] at hy
    rcases List.mem_append.1 hy with hy | hy
    · exact hp.silent y hy
    · cases r with
      | ok u =>
        obtain rfl := List.mem_singleton.1 hy
        rfl
      | error e => cases hy

/-- What an `enqueue` has done between `h` and `h'`: it has saved one row, with the id that it resolves
with, or it has saved nothing and rejects. -/
def Enqueued (ctx : Option OutboxTraceContext) (event : OutboxEventInput π)
    (h h' : History (Statement ι (Write π β)) (Answer OutboxError)) : Except OutboxError Id → Prop
  | .ok id => ∃ row, written h' = written h ++ [.save row] ∧
    RowOf row (⟨.enqueue ctx event, .ok id⟩ : Sigma (Response (π := π) (β := β))) ∧ outboxEventSchema row = []
  | .error _ => written h' = written h

/-- A saved row is one write. -/
lemma along_saveRow (i : ι) (row : OutboxRow π)
    (h : History (Statement ι (Write π β)) (Answer OutboxError)) :
    Along (fun _ s => s.Inner i)
      (Enqueued (some row.traceContext) row.toOutboxEventInput h) h (saveRow i row).attempt := by
  unfold saveRow
  split_ifs with hvalid
  · rfl
  · refine ⟨rfl, fun r => ?_⟩
    cases r with
    | ok u => exact ⟨row, written_concat, ⟨rfl, rfl, rfl⟩, not_not.1 hvalid⟩
    | error e => exact written_concat.trans (List.append_nil _)

/-- An event is one write or a refusal. -/
lemma along_enqueue (i : ι) (ctx : Option OutboxTraceContext) (event : OutboxEventInput π)
    (h : History (Statement ι (Write π β)) (Answer OutboxError)) :
    Along (fun _ s => s.Inner i) (Enqueued ctx event h) h
      (enqueueInTransaction i ctx event).attempt := by
  cases ctx with
  | none => exact rfl
  | some traceContext =>
    refine ⟨trivial, fun id => ⟨trivial, fun now => ?_⟩⟩
    have htick : written (h ++ [⟨.tick, id⟩] ++ [⟨.tick, now⟩]) = written h := by
      rw [written_concat, written_concat]
      exact (List.append_nil _).trans (List.append_nil _)
    refine (along_saveRow i { event with id, traceContext, createdAt := now } _).mono
      (fun _ _ hs => hs) fun h' r hr => ?_
    cases r with
    | ok id =>
      obtain ⟨row, hw, hrow, hvalid⟩ := hr
      exact ⟨row, hw.trans (congrArg (· ++ [.save row]) htick), hrow, hvalid⟩
    | error e => exact Eq.trans hr htick

/-- The rule for a callback, by its text. -/
lemma along_runCallback (i : ι) {h : History (Statement ι (Write π β)) (Answer OutboxError)}
    (hp : Progress i cb h topics q) :
    Along (fun _ s => s.Inner i) (fun h' r => Progress i cb h' r.2 (.ret r.1)) h
      (runCallback i topics q) := by
  induction q generalizing h topics with
  | ret a => exact hp
  | throw e => trivial
  | stmt s k ih =>
    cases s with
    | enqueue ctx event =>
      rw [runCallback]
      refine (along_enqueue i ctx event h).traced.bind fun h' r hr => ?_
      obtain ⟨hr, h', rfl, hanswers⟩ := hr
      cases r with
      | ok id =>
        obtain ⟨row, hw, hrow, hvalid⟩ := hr
        exact ih _ (hp.saved hanswers hw hrow hvalid)
      | error e => exact ih _ (hp.refused hanswers hr)
    | query x => exact ⟨rfl, fun r => ih r (hp.queried r)⟩

/-- The topics are notified one after the other. -/
lemma along_notifyTopics (i : ι) (topics : List String)
    (h : History (Statement ι (Write π β)) (Answer OutboxError)) :
    Along (fun _ s => s.Inner i)
      (fun h' _ => h' = h ++ topics.map fun topic => ⟨.write i (.notify topic), .ok ()⟩) h
      (notifyTopics i topics) := by
  induction topics generalizing h with
  | nil => exact (List.append_nil h).symm
  | cons topic topics ih =>
    refine (along_write i (.notify topic) h).bind fun h' _ hh' => ?_
    refine (ih h').mono (fun _ _ hs => hs) fun h'' _ hh'' => ?_
    rw [hh'', hh', List.map_cons, List.append_assoc]
    rfl

/-- The statements of `notifyTopics`, none of which failed. -/
def notifications (i : ι) (topics : List String) :
    History (Statement ι (Write π β)) (Answer OutboxError) :=
  topics.map fun topic => ⟨.write i (.notify topic), .ok ()⟩

/-- What holds at the commit of a transaction whose callback has returned `a`. -/
structure Completed (i : ι) (cb : Callback π β α)
    (h : History (Statement ι (Write π β)) (Answer OutboxError)) (a : α) : Prop where
  told : ∃ g before topics, h = before ++ notifications i topics ∧ Told i before g ∧
    Leads cb g (.ret a) ∧ Tells (written h) g
  published : Published (written h)
  last : rows (written h) ≠ [] → ∃ before topic, h = before ++ [⟨.write i (.notify topic), .ok ()⟩]

/-- What the notifications write. -/
lemma written_notified (i : ι) (topics : List String)
    (h : History (Statement ι (Write π β)) (Answer OutboxError)) :
    written (h ++ topics.map fun topic => ⟨.write i (.notify topic), .ok ()⟩) =
      written h ++ topics.map .notify := by
  unfold written
  rw [List.filterMap_append, List.filterMap_map]
  exact congrArg _ (congrFun List.filterMap_eq_map topics)

/-- They write no row. -/
lemma rows_notified (topics : List String) : rows (topics.map (.notify (π := π) (β := β))) = [] := by
  induction topics with
  | nil => rfl
  | cons topic topics ih => exact ih

/-- They write no query. -/
lemma queries_notified (topics : List String) : queries (topics.map (.notify (π := π) (β := β))) = [] := by
  induction topics with
  | nil => rfl
  | cons topic topics ih => exact ih

/-- Some rows have some topic. -/
lemma topicsOf_ne_nil {rs : List (OutboxRow π)} (h : rs ≠ []) : topicsOf rs ≠ [] := by
  obtain ⟨init, row, rfl⟩ := rs.eq_nil_or_concat.resolve_left h
  rw [List.concat_eq_append, topicsOf_concat]
  unfold addTopic
  split_ifs with hmem
  · exact List.ne_nil_of_mem hmem
  · simp

/-- A callback that returned is completed by the notifications. -/
lemma Progress.completed {a : α} (hp : Progress i cb h topics (.ret a)) :
    Completed i cb (h ++ topics.map fun topic => ⟨.write i (.notify topic), .ok ()⟩) a := by
  have hwritten := written_notified i topics h
  have hrows : rows (written (h ++ topics.map fun topic => ⟨.write i (.notify topic), .ok ()⟩)) =
      rows (written h) := by
    rw [hwritten, rows_append, rows_notified, List.append_nil]
  obtain ⟨g, hleads, htold, hg⟩ := hp.told
  have hqueries : queries (written (h ++ topics.map fun topic =>
      ⟨.write i (.notify topic), .ok ()⟩)) = queries (written h) := by
    rw [hwritten, queries_append, queries_notified, List.append_nil]
  refine ⟨⟨g, h, topics, rfl, htold, hleads, hrows ▸ hg.rows, hqueries ▸ hg.queries⟩,
    ⟨hrows ▸ hp.valid, written h, ?_, hp.silent⟩, fun hne => ?_⟩
  · rw [hrows, ← hp.topics]
    exact hwritten
  · rw [hrows] at hne
    have htopics : topics ≠ [] := hp.topics ▸ topicsOf_ne_nil hne
    obtain ⟨init, topic, rfl⟩ := topics.eq_nil_or_concat.resolve_left htopics
    refine ⟨h ++ init.map fun topic => ⟨.write i (.notify topic), .ok ()⟩, topic, ?_⟩
    rw [List.concat_eq_append, List.map_append, List.append_assoc]
    rfl

/-- The body of a transaction completes its callback. -/
lemma along_inTransaction (i : ι) (cb : Callback π β α) :
    Along (fun _ s => s.Inner i) (Completed i cb) [⟨.begin i, .ok ()⟩] (inTransaction i cb) := by
  have hempty : written [(⟨.begin i, .ok ()⟩ : Sigma (Answer (ι := ι) (W := Write π β) OutboxError))] =
      [] := rfl
  have hp : Progress i cb [⟨.begin i, .ok ()⟩] [] cb := by
    refine ⟨⟨[], .start, .start, ?_, ?_⟩, ?_, ?_, ?_⟩
    · rw [hempty]
      exact .nil
    · rw [hempty]
      rfl
    · rw [hempty]
      rfl
    · rw [hempty]
      intro row hrow
      cases hrow
    · rw [hempty]
      intro x hx
      cases hx
  refine (along_runCallback i hp).bind fun h' r hr => ?_
  refine (along_notifyTopics i r.2 h').bind fun h'' _ hh'' => ?_
  rw [hh'']
  exact hr.completed

end callback

/-! ## Runs -/

section runs
variable [DecidableEq ι]

/-- Any number of callers run transactions at once, any statement fails, before or after it has had its
effect, and the callbacks do what they like with the failures. Then a transaction has stored nothing,
or all that it has written, with one wake-up for each topic of its events behind them. Whenever
`runInTransaction` resolves, its statements are those that gave its callback the answers `g`, then the
wake-ups and a commit; if an `enqueue` among `g` resolved, the events of all those that did are stored,
with their ids and trace contexts, and so are the caller's own statements. Whenever it rejects, nothing
is stored, unless it is the commit that was answered with an error. -/
theorem resolved_events_stored (cb : ι → Callback π β α) (fault : Nat → Option (Fault OutboxError))
    (sched : List ι) (i : ι) :
    let c := (Pool.start (Session.World.start fault) fun i => runInTransaction i (cb i)).play
      (Session.exec inFailedTransaction) sched
    (c.world.stored i = [] ∨ ∃ ws, c.world.stored i = [ws] ∧ Published ws) ∧
    (∀ a, c.thread i = .ret a → ∃ g h topics,
      c.seen i = h ++ notifications i topics ++ [⟨.commit i, .ok ()⟩] ∧ Told i h g ∧
      Leads (cb i) g (.ret a) ∧
      (g.filter resolved ≠ [] → ∃ ws, c.world.stored i = [ws] ∧ Tells ws g)) ∧
    ∀ e, c.thread i = .throw e →
      c.world.stored i = [] ∨ ∃ e', ⟨Statement.commit i, .error e'⟩ ∈ c.seen i := by
  intro c
  obtain ⟨hstored, hreturned, hthrew⟩ := transaction_stored inFailedTransaction
    (fun i => along_inTransaction i (cb i)) fault sched i
  refine ⟨hstored.imp_right ?_, fun a ha => ?_, hthrew⟩
  · rintro ⟨h, a, hcompleted, hs⟩
    exact ⟨written h, hs, hcompleted.published⟩
  · obtain ⟨h, hseen, hcompleted, hsound, hs⟩ := hreturned a ha
    obtain ⟨g, before, topics, hnotified, htold, hleads, hg⟩ := hcompleted.told
    refine ⟨g, before, topics, hnotified ▸ hseen, htold, hleads, fun hne => ⟨written h, hs ?_, hg⟩⟩
    have hrows : rows (written h) ≠ [] := by
      intro hnil
      have hnone := hg.rows
      rw [hnil] at hnone
      exact hne (List.forall₂_nil_left_iff.1 hnone)
    obtain ⟨before, topic, rfl⟩ := hcompleted.last hrows
    exact hsound.not_fails rfl

end runs

end NexusClaw.Governance.TransactionalOutbox
