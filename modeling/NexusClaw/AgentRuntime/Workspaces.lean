import NexusClaw.AgentRuntime.Ownership

/-!
# Workspaces

The rows of a workspace, and what a lawful statement of a program of the workspace does to the store:
it moves rows of this workspace only, and what it hands to the program is of this workspace too.
-/

namespace NexusClaw.AgentRuntime
open Concurrent
open Governance (Id ToolCallStatus)

/-! ## Rows of a workspace -/

namespace World

def ExecutionOf (w : World) (v id : Id) : Prop :=
  ∃ row, w.executions id = some row ∧ row.workspaceId = v

def ApprovalOf (w : World) (v id : Id) : Prop :=
  ∃ row, w.approvals id = some row ∧ row.workspaceId = v

/-- An id that was given out, and to no agent of another workspace. -/
def AgentOf (w : World) (v id : Id) : Prop :=
  id < w.clock ∧ ∀ a ∈ w.agents, a.id = id → a.workspaceId = v

/-- An id that was given out, and to no record of a call for another workspace. -/
def ToolCallOf (w : World) (v id : Id) : Prop :=
  id < w.clock ∧ ∀ t ∈ w.toolCalls, t.id = id → w.ExecutionOf v t.executionId

/-- Ids are unique and were given out before now, and an execution is of an agent of its workspace. -/
structure Sound (w : World) : Prop where
  executions : ∀ id row, w.executions id = some row →
    row.id = id ∧ id < w.clock ∧ w.AgentOf row.workspaceId row.agentId
  approvals : ∀ id row, w.approvals id = some row → row.id = id ∧ id < w.clock
  agents : ∀ a ∈ w.agents, a.id < w.clock
  agentIds : (w.agents.map (·.id)).Nodup
  toolCalls : ∀ t ∈ w.toolCalls, t.id < w.clock

/-- The execution is one of the workspace. -/
def ofWorkspace (w : World) (v id : Id) : Bool :=
  (w.executions id).any (·.workspaceId = v)

/-- An execution of one workspace is none of another's. -/
lemma ExecutionOf.ofWorkspace {w : World} {u v id : Id} (h : w.ExecutionOf v id) (hu : u ≠ v) :
    w.ofWorkspace u id = false := by
  obtain ⟨row, hrow, rfl⟩ := h
  unfold World.ofWorkspace
  rw [hrow]
  exact decide_eq_false hu.symm

/-- The rows of a workspace; the steps, the records and the logs of its executions are among them. -/
structure Share where
  agents : List Agent
  executions : Table Id AgentExecution
  approvals : Table Id ApprovalInstance
  steps : List ReactStep
  toolCalls : List ToolCallRecord
  outbox : List OutboxEvent
  guardrailLogs : List GuardrailLog

def share (w : World) (v : Id) : Share where
  agents := w.agents.filter (·.workspaceId = v)
  executions := fun id => (w.executions id).filter (·.workspaceId = v)
  approvals := fun id => (w.approvals id).filter (·.workspaceId = v)
  steps := w.steps.filter fun row => w.ofWorkspace v row.executionId
  toolCalls := w.toolCalls.filter fun row => w.ofWorkspace v row.executionId
  outbox := w.outbox.filter (·.workspaceId = v)
  guardrailLogs := w.guardrailLogs.filter fun entry => w.ofWorkspace v entry.executionId

end World

/-- The rows in a hand are of the workspace. -/
structure Hand.Own (m : Hand) (v : Id) (w : World) : Prop where
  agentIds : ∀ id ∈ m.agentIds, w.AgentOf v id
  agents : ∀ a ∈ m.agents, a.workspaceId = v ∧ w.AgentOf v a.id
  executions : ∀ e ∈ m.executions,
    e.workspaceId = v ∧ w.ExecutionOf v e.id ∧ w.AgentOf v e.agentId
  approvals : ∀ a ∈ m.approvals, a.workspaceId = v ∧ w.ApprovalOf v a.id
  toolCalls : ∀ t ∈ m.toolCalls, w.ToolCallOf v t.id
  contexts : ∀ c ∈ m.contexts, c.workspaceId = v ∧ w.ExecutionOf v c.executionId
  steps : ∀ row ∈ m.steps, w.ExecutionOf v row.executionId
  ran : ∀ c ∈ m.ran, c.workspaceId = v ∧ w.ExecutionOf v c.executionId

/-- A statement that moves rows of the workspace only: a row that differs is new, or was one of the
workspace before. -/
structure Moves (v : Id) (w w' : World) : Prop where
  clock : w'.clock = w.clock + 1
  executions : ∀ id, w'.executions id = w.executions id ∨
    ∃ row, w'.executions id = some row ∧ row.id = id ∧ row.workspaceId = v ∧
      w.AgentOf v row.agentId ∧ (id = w.clock ∨ w.ExecutionOf v id)
  approvals : ∀ id, w'.approvals id = w.approvals id ∨
    ∃ row, w'.approvals id = some row ∧ row.id = id ∧ row.workspaceId = v ∧
      (id = w.clock ∨ w.ApprovalOf v id)
  agents : ∀ a ∈ w'.agents, (a.id = w.clock ∧ a.workspaceId = v) ∨
    ∃ b ∈ w.agents, b.id = a.id ∧ b.workspaceId = a.workspaceId
  agentIds : (w'.agents.map (·.id)).Nodup
  otherAgents : ∀ u, u ≠ v → w'.agents.filter (·.workspaceId = u) = w.agents.filter (·.workspaceId = u)
  steps : ∃ new, w'.steps = w.steps ++ new ∧ ∀ row ∈ new, w.ExecutionOf v row.executionId
  toolCalls : ∀ t ∈ w'.toolCalls, (t.id = w.clock ∧ w.ExecutionOf v t.executionId) ∨
    ∃ t' ∈ w.toolCalls, t'.id = t.id ∧ t'.executionId = t.executionId
  otherToolCalls : ∀ u, u ≠ v →
    (w'.toolCalls.filter fun row => w.ofWorkspace u row.executionId) =
      w.toolCalls.filter fun row => w.ofWorkspace u row.executionId
  outbox : ∃ new, w'.outbox = w.outbox ++ new ∧ ∀ event ∈ new, event.workspaceId = v
  guardrailLogs : ∃ new, w'.guardrailLogs = w.guardrailLogs ++ new ∧
    ∀ entry ∈ new, w.ExecutionOf v entry.executionId

section lists
variable {α : Type} {p : α → Bool} {l : List α}

/-- New rows that are filtered out. -/
lemma filter_append_of_not {new : List α} (h : ∀ a ∈ new, p a = false) :
    (l ++ new).filter p = l.filter p := by
  have hnew : new.filter p = [] := List.filter_eq_nil_iff.2 fun a ha => by simp [h a ha]
  rw [List.filter_append, hnew, List.append_nil]

/-- A function that changes only what the filter leaves out, before and after. -/
lemma filter_map_of_not {f : α → α} (h : ∀ a ∈ l, f a = a ∨ (p a = false ∧ p (f a) = false)) :
    (l.map f).filter p = l.filter p := by
  induction l with
  | nil => rfl
  | cons a l ih =>
    have htail := ih fun b hb => h b (List.mem_cons_of_mem a hb)
    rw [List.map_cons]
    rcases h a List.mem_cons_self with heq | ⟨hold, hnew⟩
    · rw [heq, List.filter_cons, List.filter_cons, htail]
    · rw [List.filter_cons_of_neg (by simp [hnew]), List.filter_cons_of_neg (by simp [hold]), htail]

end lists

section moves
variable {v : Id} {w w' : World}

/-- No stored execution has the next id. -/
lemma World.Sound.executionId_ne (hs : w.Sound) {id : Id} {row : AgentExecution}
    (h : w.executions id = some row) : id ≠ w.clock :=
  Nat.ne_of_lt (hs.executions id row h).2.1

/-- No stored approval has the next id. -/
lemma World.Sound.approvalId_ne (hs : w.Sound) {id : Id} {row : ApprovalInstance}
    (h : w.approvals id = some row) : id ≠ w.clock :=
  Nat.ne_of_lt (hs.approvals id row h).2

namespace Moves

/-- An id that is taken stays so. -/
lemma later (hm : Moves v w w') {id : Id} (h : id < w.clock) : id < w'.clock :=
  hm.clock ▸ Nat.lt_succ_of_lt h

/-- The next id is taken afterwards. -/
lemma latest (hm : Moves v w w') {id : Id} (h : id = w.clock) : id < w'.clock :=
  hm.clock ▸ h ▸ Nat.lt_succ_self _

/-- An execution stays in its workspace. -/
lemma executionOf (hm : Moves v w w') (hs : w.Sound) {u id : Id} (h : w.ExecutionOf u id) :
    w'.ExecutionOf u id := by
  obtain ⟨row, hrow, rfl⟩ := h
  rcases hm.executions id with heq | ⟨row', hrow', -, hws, -, hid | ⟨old, hold, hv⟩⟩
  · exact ⟨row, heq.trans hrow, rfl⟩
  · exact absurd hid (hs.executionId_ne hrow)
  · rw [hrow] at hold
    cases hold
    exact ⟨row', hrow', hws.trans hv.symm⟩

/-- So does an approval. -/
lemma approvalOf (hm : Moves v w w') (hs : w.Sound) {u id : Id} (h : w.ApprovalOf u id) :
    w'.ApprovalOf u id := by
  obtain ⟨row, hrow, rfl⟩ := h
  rcases hm.approvals id with heq | ⟨row', hrow', -, hws, hid | ⟨old, hold, hv⟩⟩
  · exact ⟨row, heq.trans hrow, rfl⟩
  · exact absurd hid (hs.approvalId_ne hrow)
  · rw [hrow] at hold
    cases hold
    exact ⟨row', hrow', hws.trans hv.symm⟩

/-- So does an agent. -/
lemma agentOf (hm : Moves v w w') {u id : Id} (h : w.AgentOf u id) : w'.AgentOf u id := by
  refine ⟨hm.later h.1, fun a ha hid => ?_⟩
  rcases hm.agents a ha with ⟨hnew, -⟩ | ⟨b, hb, hbid, hbws⟩
  · exact absurd (hid.symm.trans hnew) (Nat.ne_of_lt h.1)
  · rw [← hbws]
    exact h.2 b hb (hbid.trans hid)

/-- So does a tool call. -/
lemma toolCallOf (hm : Moves v w w') (hs : w.Sound) {u id : Id} (h : w.ToolCallOf u id) :
    w'.ToolCallOf u id := by
  refine ⟨hm.later h.1, fun t ht hid => ?_⟩
  rcases hm.toolCalls t ht with ⟨hnew, -⟩ | ⟨t', ht', htid, hexec⟩
  · exact absurd (hid.symm.trans hnew) (Nat.ne_of_lt h.1)
  · rw [← hexec]
    exact hm.executionOf hs (h.2 t' ht' (htid.trans hid))

/-- A move keeps the store sound. -/
lemma sound (hm : Moves v w w') (hs : w.Sound) : w'.Sound where
  -- a row is as it was, or new under the clock, or an old row of the workspace
  executions := by
    intro id row hrow
    rcases hm.executions id with heq | ⟨row', hrow', hid, hws, hagent, hbefore⟩
    · obtain ⟨hid, hlt, hagent⟩ := hs.executions id row (heq.symm.trans hrow)
      exact ⟨hid, hm.later hlt, hm.agentOf hagent⟩
    · rw [hrow] at hrow'
      cases hrow'
      refine ⟨hid, ?_, hws ▸ hm.agentOf hagent⟩
      rcases hbefore with hnew | ⟨old, hold, -⟩
      · exact hm.latest hnew
      · exact hm.later (hs.executions id old hold).2.1
  approvals := by
    intro id row hrow
    rcases hm.approvals id with heq | ⟨row', hrow', hid, -, hbefore⟩
    · obtain ⟨hid, hlt⟩ := hs.approvals id row (heq.symm.trans hrow)
      exact ⟨hid, hm.later hlt⟩
    · rw [hrow] at hrow'
      cases hrow'
      refine ⟨hid, ?_⟩
      rcases hbefore with hnew | ⟨old, hold, -⟩
      · exact hm.latest hnew
      · exact hm.later (hs.approvals id old hold).2
  agents := by
    intro a ha
    rcases hm.agents a ha with ⟨hnew, -⟩ | ⟨b, hb, hid, -⟩
    · exact hm.latest hnew
    · exact hid ▸ hm.later (hs.agents b hb)
  agentIds := hm.agentIds
  toolCalls := by
    intro t ht
    rcases hm.toolCalls t ht with ⟨hnew, -⟩ | ⟨t', ht', hid, -⟩
    · exact hm.latest hnew
    · exact hid ▸ hm.later (hs.toolCalls t' ht')

/-- Rows in hand stay rows of the workspace, whichever workspace moves. -/
lemma own {m : Hand} {u : Id} (hm : Moves v w w') (hs : w.Sound) (h : m.Own u w) : m.Own u w' where
  agentIds id hid := hm.agentOf (h.agentIds id hid)
  agents a ha := ⟨(h.agents a ha).1, hm.agentOf (h.agents a ha).2⟩
  executions e he :=
    ⟨(h.executions e he).1, hm.executionOf hs (h.executions e he).2.1,
      hm.agentOf (h.executions e he).2.2⟩
  approvals a ha := ⟨(h.approvals a ha).1, hm.approvalOf hs (h.approvals a ha).2⟩
  toolCalls t ht := hm.toolCallOf hs (h.toolCalls t ht)
  contexts c hc := ⟨(h.contexts c hc).1, hm.executionOf hs (h.contexts c hc).2⟩
  steps row hrow := hm.executionOf hs (h.steps row hrow)
  ran c hc := ⟨(h.ran c hc).1, hm.executionOf hs (h.ran c hc).2⟩

/-! ### What another workspace sees of it -/

/-- A move leaves the executions of the other workspaces. -/
lemma otherExecutions (hm : Moves v w w') (hs : w.Sound) {u : Id} (hu : u ≠ v) (id : Id) :
    (w'.executions id).filter (·.workspaceId = u) = (w.executions id).filter (·.workspaceId = u) := by
  rcases hm.executions id with heq | ⟨row', hrow', -, hws, -, hbefore⟩
  · rw [heq]
  · have hnew : (w'.executions id).filter (·.workspaceId = u) = none := by
      rw [hrow']
      exact Option.filter_eq_none_iff.2 fun row hrow => by
        cases hrow
        simpa using fun heq : row'.workspaceId = u => hu (heq.symm.trans hws)
    have hold : (w.executions id).filter (·.workspaceId = u) = none := by
      refine Option.filter_eq_none_iff.2 fun row hrow => ?_
      rcases hbefore with hid | ⟨old, hold, hv⟩
      · exact absurd hid (hs.executionId_ne hrow)
      · rw [show w.executions id = some row from hrow] at hold
        cases hold
        simpa using fun heq : row.workspaceId = u => hu (heq.symm.trans hv)
    rw [hnew, hold]

/-- It leaves their approvals. -/
lemma otherApprovals (hm : Moves v w w') (hs : w.Sound) {u : Id} (hu : u ≠ v) (id : Id) :
    (w'.approvals id).filter (·.workspaceId = u) = (w.approvals id).filter (·.workspaceId = u) := by
  rcases hm.approvals id with heq | ⟨row', hrow', -, hws, hbefore⟩
  · rw [heq]
  · have hnew : (w'.approvals id).filter (·.workspaceId = u) = none := by
      rw [hrow']
      exact Option.filter_eq_none_iff.2 fun row hrow => by
        cases hrow
        simpa using fun heq : row'.workspaceId = u => hu (heq.symm.trans hws)
    have hold : (w.approvals id).filter (·.workspaceId = u) = none := by
      refine Option.filter_eq_none_iff.2 fun row hrow => ?_
      rcases hbefore with hid | ⟨old, hold, hv⟩
      · exact absurd hid (hs.approvalId_ne hrow)
      · rw [show w.approvals id = some row from hrow] at hold
        cases hold
        simpa using fun heq : row.workspaceId = u => hu (heq.symm.trans hv)
    rw [hnew, hold]

/-- It leaves which executions are theirs. -/
lemma ofWorkspace_eq (hm : Moves v w w') (hs : w.Sound) {u : Id} (hu : u ≠ v) :
    w'.ofWorkspace u = w.ofWorkspace u := by
  funext id
  have hfilter := hm.otherExecutions hs hu id
  unfold World.ofWorkspace
  rw [← Option.isSome_filter, ← Option.isSome_filter, hfilter]

/-- Another workspace keeps all its rows and gets none. -/
lemma share (hm : Moves v w w') (hs : w.Sound) {u : Id} (hu : u ≠ v) : w'.share u = w.share u := by
  have hof := hm.ofWorkspace_eq hs hu
  obtain ⟨steps, hsteps, hstepsOf⟩ := hm.steps
  obtain ⟨events, hevents, heventsOf⟩ := hm.outbox
  obtain ⟨logs, hlogs, hlogsOf⟩ := hm.guardrailLogs
  unfold World.share
  congr 1
  · exact hm.otherAgents u hu
  · exact funext (hm.otherExecutions hs hu)
  · exact funext (hm.otherApprovals hs hu)
  · rw [hof, hsteps]
    exact filter_append_of_not fun row hrow => (hstepsOf row hrow).ofWorkspace hu
  · rw [hof]
    exact hm.otherToolCalls u hu
  · rw [hevents]
    refine filter_append_of_not fun event hevent => decide_eq_false ?_
    rw [heventsOf event hevent]
    exact hu.symm
  · rw [hof, hlogs]
    exact filter_append_of_not fun entry hentry => (hlogsOf entry hentry).ofWorkspace hu

end Moves

end moves

/-! ## A lawful statement -/

/-- A statement either throws, and then nothing but the clock moves, or does what it answers. -/
lemma exec_cases (ans : Answers) (s : Stmt) (w : World) :
    (∃ e, exec ans s w = (w.tick, .error e)) ∨
      ∃ a, reply ans s w = .ok a ∧ exec ans s w = ((effect s a w).tick, .ok a) := by
  have hanswer : (∃ e, answer ans s w = .error e) ∨ answer ans s w = reply ans s w := by
    unfold answer
    split_ifs with hs
    · cases ans.fails w.clock with
      | none => exact .inr rfl
      | some e => exact .inl ⟨e, rfl⟩
    · exact .inr rfl
  unfold exec
  rcases hanswer with ⟨e, he⟩ | hr
  · rw [he]
    exact .inl ⟨e, rfl⟩
  · rw [hr]
    cases reply ans s w with
    | error e => exact .inl ⟨e, rfl⟩
    | ok a => exact .inr ⟨a, rfl, rfl⟩

section lawful
variable {v : Id} {w : World} {m : Hand}

/-- Whatever is done outside the store. -/
lemma moves_trace (hs : w.Sound) (trace : List Effect) :
    Moves v w { w with trace }.tick where
  clock := rfl
  executions _ := .inl rfl
  approvals _ := .inl rfl
  agents a ha := .inr ⟨a, ha, rfl, rfl⟩
  agentIds := hs.agentIds
  otherAgents _ _ := rfl
  steps := ⟨[], (List.append_nil _).symm, fun _ h => by cases h⟩
  toolCalls t ht := .inr ⟨t, ht, rfl, rfl⟩
  otherToolCalls _ _ := rfl
  outbox := ⟨[], (List.append_nil _).symm, fun _ h => by cases h⟩
  guardrailLogs := ⟨[], (List.append_nil _).symm, fun _ h => by cases h⟩

/-- Time that passes is a move. -/
lemma moves_tick (hs : w.Sound) : Moves v w w.tick :=
  moves_trace hs w.trace

/-- So is a new execution of the workspace. -/
lemma moves_putExecution (hs : w.Sound) {row : AgentExecution} (hid : row.id = w.clock)
    (hws : row.workspaceId = v) (hagent : w.AgentOf v row.agentId) :
    Moves v w { w with executions := w.executions.put row.id row }.tick :=
  { moves_tick hs with
    executions := fun id => by
      by_cases h : id = row.id
      · subst h
        exact .inr ⟨row, Table.put_self .., rfl, hws, hagent, .inl hid⟩
      · exact .inl (Table.put_of_ne _ row h) }

/-- An update by key of an execution of the workspace. -/
lemma modify_execution (hs : w.Sound) {target : Id} (htarget : w.ExecutionOf v target)
    (patch : ExecutionPatch) (id : Id) :
    w.executions.modify target (·.patch patch) id = w.executions id ∨
      ∃ row, w.executions.modify target (·.patch patch) id = some row ∧ row.id = id ∧
        row.workspaceId = v ∧ w.AgentOf v row.agentId ∧ (id = w.clock ∨ w.ExecutionOf v id) := by
  by_cases h : id = target
  · subst h
    obtain ⟨row, hrow, rfl⟩ := htarget
    obtain ⟨hid, -, hagent⟩ := hs.executions _ row hrow
    exact .inr ⟨row.patch patch, Table.modify_some _ hrow, hid, rfl, hagent, .inr ⟨row, hrow, rfl⟩⟩
  · exact .inl (Table.modify_of_ne _ _ h)

/-- So is the update of an execution of the workspace. -/
lemma moves_updateExecution (hs : w.Sound) {target : Id} (htarget : w.ExecutionOf v target)
    (patch : ExecutionPatch) :
    Moves v w { w with executions := w.executions.modify target (·.patch patch) }.tick :=
  { moves_tick hs with executions := modify_execution hs htarget patch }

/-- So is a transaction for one of its executions. -/
lemma moves_transaction (hs : w.Sound) {event : OutboxEvent} (hws : event.workspaceId = v)
    (htarget : w.ExecutionOf v event.aggregateId) (patch : Option ExecutionPatch) :
    Moves v w (effect (.transaction event patch) () w).tick := by
  have hevent : ∀ e ∈ [{ event with id := w.clock }], e.workspaceId = v := by simpa using hws
  cases patch with
  | none => exact { moves_tick hs with outbox := ⟨_, rfl, hevent⟩ }
  | some patch =>
    exact
      { moves_tick hs with
        executions := modify_execution hs htarget patch
        outbox := ⟨_, rfl, hevent⟩ }

/-- So is a new or a saved approval of the workspace. -/
lemma moves_putApproval (hs : w.Sound) (row : ApprovalInstance) (hws : row.workspaceId = v)
    (hid : row.id = w.clock ∨ w.ApprovalOf v row.id) :
    Moves v w { w with approvals := w.approvals.put row.id row }.tick :=
  { moves_tick hs with
    approvals := fun id => by
      by_cases h : id = row.id
      · subst h
        exact .inr ⟨row, Table.put_self .., rfl, hws, hid⟩
      · exact .inl (Table.put_of_ne _ row h) }

/-- So is a new tool call of one of its executions. -/
lemma moves_createToolCall (hs : w.Sound) (row : ToolCallRecord) (hid : row.id = w.clock)
    (hexec : w.ExecutionOf v row.executionId) :
    Moves v w { w with toolCalls := w.toolCalls ++ [row] }.tick :=
  { moves_tick hs with
    toolCalls := fun t ht => by
      rcases List.mem_append.1 ht with ht | ht
      · exact .inr ⟨t, ht, rfl, rfl⟩
      · rw [List.mem_singleton.1 ht]
        exact .inl ⟨hid, hexec⟩
    otherToolCalls := fun u hu => filter_append_of_not fun t ht => by
      rw [List.mem_singleton.1 ht]
      exact hexec.ofWorkspace hu }

/-- So is a transition of one of its tool calls. -/
lemma moves_transitionToolCall (hs : w.Sound) {target : Id} (htarget : w.ToolCallOf v target)
    (expected : List ToolCallStatus) (patch : ToolCallPatch) :
    Moves v w (effect (.transitionToolCall target expected patch) 0 w).tick :=
  { moves_tick hs with
    toolCalls := fun t ht => by
      obtain ⟨old, hold, rfl⟩ := List.mem_map.1 ht
      refine .inr ⟨old, hold, ?_⟩
      split_ifs <;> exact ⟨rfl, rfl⟩
    otherToolCalls := fun u hu => filter_map_of_not fun t ht => by
      split_ifs with hselected
      · have hid : t.id = target := by
          unfold ToolCallRecord.selected at hselected
          simp only [Bool.and_eq_true, decide_eq_true_eq] at hselected
          exact hselected.1
        have hother := (htarget.2 t ht hid).ofWorkspace hu
        exact .inr ⟨hother, hother⟩
      · exact .inl rfl }

/-- So is the update of one of its agents. -/
lemma moves_updateAgent (hs : w.Sound) {target : Id} (htarget : w.AgentOf v target)
    {event : OutboxEvent} (hws : event.workspaceId = v) (patch : AgentPatch)
    (input : UpdateAgentConfigInput) :
    Moves v w (effect (.updateAgent target patch event input) () w).tick :=
  { moves_tick hs with
    agents := fun a ha => by
      obtain ⟨old, hold, rfl⟩ := List.mem_map.1 ha
      refine .inr ⟨old, hold, ?_⟩
      split_ifs <;> exact ⟨rfl, rfl⟩
    agentIds := by
      have hids : (w.agents.map fun row => if row.id = target then row.patch patch else row).map
          (·.id) = w.agents.map (·.id) := by
        rw [List.map_map]
        refine List.map_congr_left fun row _ => ?_
        dsimp only [Function.comp_apply]
        split_ifs <;> rfl
      exact hids.symm ▸ hs.agentIds
    otherAgents := fun u hu => filter_map_of_not fun row hrow => by
      split_ifs with hid
      · have hother : decide (row.workspaceId = u) = false :=
          decide_eq_false fun h => hu (h.symm.trans (htarget.2 row hrow hid))
        exact .inr ⟨hother, hother⟩
      · exact .inl rfl
    outbox := ⟨_, rfl, by simpa using hws⟩ }

/-- So is a new agent of the workspace. -/
lemma moves_createAgent (hs : w.Sound) (row : Agent) (hid : row.id = w.clock)
    (hws : row.workspaceId = v) {event : OutboxEvent} (hevent : event.workspaceId = v) :
    Moves v w
      { w with
          agents := w.agents ++ [row]
          outbox := w.outbox ++ [event] }.tick :=
  { moves_tick hs with
    agents := fun a ha => by
      rcases List.mem_append.1 ha with ha | ha
      · exact .inr ⟨a, ha, rfl, rfl⟩
      · rw [List.mem_singleton.1 ha]
        exact .inl ⟨hid, hws⟩
    agentIds := by
      show ((w.agents ++ [row]).map (·.id)).Nodup
      rw [List.map_append, List.nodup_append]
      refine ⟨hs.agentIds, List.nodup_singleton _, fun id hold id' hnew => ?_⟩
      obtain ⟨a, ha, rfl⟩ := List.mem_map.1 hold
      rw [List.mem_singleton.1 hnew]
      exact fun heq => Nat.ne_of_lt (hs.agents a ha) (heq.trans hid)
    otherAgents := fun u hu => filter_append_of_not fun a ha => decide_eq_false fun h => by
      rw [List.mem_singleton.1 ha] at h
      exact hu (h.symm.trans hws)
    outbox := ⟨_, rfl, by simpa using hevent⟩ }

/-- What a lawful statement does is a move of the workspace. -/
lemma moves_effect (hs : w.Sound) (hm : m.Own v w) {ans : Answers} {s : Stmt} {a : s.Out}
    (hlaw : m.Allows v s) (hr : reply ans s w = .ok a) : Moves v w (effect s a w).tick := by
  -- each write names a row that the program was handed
  cases s with
  | createExecution row =>
    cases hr
    exact moves_putExecution hs rfl hlaw.1 (hm.agentIds _ hlaw.2)
  | updateExecution target status =>
    obtain ⟨e, he, rfl⟩ := hlaw
    exact moves_updateExecution hs (hm.executions e he).2.1 _
  | transaction event patch =>
    obtain ⟨e, he, hws, hid⟩ := hlaw
    obtain ⟨heWs, heOf, -⟩ := hm.executions e he
    exact moves_transaction hs (hws.trans heWs) (hid ▸ heOf) patch
  | createApproval row =>
    cases hr
    obtain ⟨e, he, hws, -⟩ := hlaw
    exact moves_putApproval hs { row with id := w.clock }
      (hws.trans (hm.executions e he).1) (.inl rfl)
  | saveApproval row =>
    obtain ⟨old, hold, hid, hws⟩ := hlaw
    obtain ⟨holdWs, holdOf⟩ := hm.approvals old hold
    exact moves_putApproval hs row (hws.trans holdWs) (.inr (hid ▸ holdOf))
  | logGuardrailEvent entry =>
    have hentry : w.ExecutionOf v entry.executionId := by
      rcases hlaw with ⟨e, he, hid⟩ | ⟨c, hc, hid⟩
      · exact hid ▸ (hm.executions e he).2.1
      · exact hid ▸ (hm.contexts c hc).2
    exact { moves_tick hs with guardrailLogs := ⟨[entry], rfl, by simpa using hentry⟩ }
  | createStep row =>
    obtain ⟨e, he, hid⟩ := hlaw
    have hrow : w.ExecutionOf v row.executionId := hid ▸ (hm.executions e he).2.1
    exact { moves_tick hs with steps := ⟨_, rfl, by simpa using hrow⟩ }
  | createToolCall row =>
    cases hr
    obtain ⟨c, hc, hid⟩ := hlaw
    have hrow : w.ExecutionOf v row.executionId := hid ▸ (hm.contexts c hc).2
    exact moves_createToolCall hs { row with id := w.clock } rfl hrow
  | transitionToolCall target expected patch =>
    obtain ⟨t, ht, rfl⟩ := hlaw
    exact moves_transitionToolCall hs (hm.toolCalls t ht) expected patch
  | updateAgent target patch event input =>
    obtain ⟨⟨b, hb, rfl⟩, hws⟩ := hlaw
    exact moves_updateAgent hs (hm.agents b hb).2 hws patch input
  | createAgent row event =>
    cases hr
    exact moves_createAgent hs { row with id := w.clock } rfl hlaw.1 hlaw.2
  | enterAgentRequestContext principal executionId => exact moves_trace hs _
  | runTool invocation name input context => exact moves_trace hs _
  | propose proposal => exact moves_trace hs _
  | _ => exact moves_tick hs

/-- A stored agent belongs to the workspace of its row. -/
lemma World.Sound.agentOf (hs : w.Sound) {row : Agent} (hrow : row ∈ w.agents) :
    w.AgentOf row.workspaceId row.id :=
  ⟨hs.agents row hrow, fun _ ha hid =>
    congrArg _ (List.inj_on_of_nodup_map hs.agentIds ha hrow hid)⟩

/-- An agent that a lawful read finds. -/
lemma find_agent (hs : w.Sound) (hm : m.Own v w) {id : Id} {ws : Option Id} {row : Agent}
    (hlaw : m.Allows v (.findAgent id ws))
    (hr : (w.agents.find? fun row => row.id = id && inWorkspace ws row.workspaceId) = some row) :
    row.id = id ∧ row.workspaceId = v ∧ w.AgentOf v row.id := by
  have hmem := List.mem_of_find?_eq_some hr
  have hp := List.find?_some hr
  simp only [Bool.and_eq_true, decide_eq_true_eq] at hp
  obtain ⟨hid, hws⟩ := hp
  have hrow : row.workspaceId = v := by
    rcases hlaw with rfl | ⟨e, he, rfl⟩
    · simpa [inWorkspace, eq_comm] using hws
    · exact (hm.executions e he).2.2.2 row hmem hid
  exact ⟨hid, hrow, hrow ▸ hs.agentOf hmem⟩

/-- An execution that a lawful read finds. -/
lemma find_execution (hs : w.Sound) (hm : m.Own v w) {id : Id} {ws : Option Id}
    {row : AgentExecution} (hlaw : m.Allows v (.findExecution id ws))
    (hr : ((w.executions id).filter fun row => inWorkspace ws row.workspaceId) = some row) :
    row.workspaceId = v ∧ w.ExecutionOf v row.id ∧ w.AgentOf v row.agentId := by
  obtain ⟨hrow, hws⟩ := Option.filter_eq_some_iff.1 hr
  obtain ⟨hid, -, hagent⟩ := hs.executions id row hrow
  have hv : row.workspaceId = v := by
    rcases hlaw with rfl | ⟨e, he, rfl⟩
    · simpa [inWorkspace, eq_comm] using hws
    · obtain ⟨old, hold, hv⟩ := (hm.executions e he).2.1
      rw [hrow] at hold
      cases hold
      exact hv
  exact ⟨hv, ⟨row, hid.symm ▸ hrow, hv⟩, hv ▸ hagent⟩

/-- A stored approval belongs to the workspace of its row. -/
lemma World.Sound.approvalOf (hs : w.Sound) {id : Id} {row : ApprovalInstance}
    (hrow : w.approvals id = some row) : w.ApprovalOf row.workspaceId row.id :=
  ⟨row, (hs.approvals id row hrow).1.symm ▸ hrow, rfl⟩

/-- A context is one of the workspace and the execution that it was asked for. -/
lemma buildContext_ok {agent : Agent} {workspaceId executionId : Id} {caller : Option Caller}
    {grants : List ObjectGrant} {metadata : List ObjectMetadata} {context : ExecutionContext}
    (h : buildContext agent workspaceId executionId caller grants metadata = .ok context) :
    context.workspaceId = workspaceId ∧ context.executionId = executionId := by
  unfold buildContext at h
  split_ifs at h
  cases hidentity : agent.identity with
  | some identity =>
    rw [hidentity] at h
    cases h
    exact ⟨rfl, rfl⟩
  | none =>
    rw [hidentity] at h
    cases caller with
    | none => cases h
    | some caller =>
      dsimp only at h
      split_ifs at h
      cases h
      exact ⟨rfl, rfl⟩

/-- What a lawful statement hands to its program is of the workspace. -/
lemma own_effect (hs : w.Sound) (hm : m.Own v w) {ans : Answers} {s : Stmt} {a : s.Out}
    (hlaw : m.Allows v s) (hr : reply ans s w = .ok a) :
    (m.note s (.ok a)).Own v (effect s a w).tick := by
  have hmove := moves_effect hs hm hlaw hr
  have hold := hmove.own hs hm
  -- only the statements that read or insert hand out anything
  cases s with
  | findAgent id ws =>
    cases a with
    | none => exact hold
    | some row =>
      obtain ⟨hid, hws, hof⟩ := find_agent hs hm hlaw (Except.ok.inj hr)
      have hof := hmove.agentOf hof
      exact
        { hold with
          agentIds := List.forall_mem_cons.2 ⟨hid ▸ hof, hold.agentIds⟩
          agents := List.forall_mem_cons.2 ⟨⟨hws, hof⟩, hold.agents⟩ }
  | findAgentNamed ws apiName =>
    cases a with
    | none => exact hold
    | some row =>
      have hfind := Except.ok.inj hr
      have hp := List.find?_some hfind
      simp only [Bool.and_eq_true, decide_eq_true_eq] at hp
      have hws : row.workspaceId = v := hp.1.trans hlaw
      have hof := hmove.agentOf (hs.agentOf (List.mem_of_find?_eq_some hfind))
      exact { hold with agents := List.forall_mem_cons.2 ⟨⟨hws, hws ▸ hof⟩, hold.agents⟩ }
  | createExecution row =>
    cases hr
    have hagent := hmove.agentOf (hm.agentIds _ hlaw.2)
    have hof : (effect (.createExecution row) { row with id := w.clock } w).tick.ExecutionOf v
        w.clock := ⟨_, Table.put_self .., hlaw.1⟩
    exact { hold with executions := List.forall_mem_cons.2 ⟨⟨hlaw.1, hof, hagent⟩, hold.executions⟩ }
  | findExecution id ws =>
    cases a with
    | none => exact hold
    | some row =>
      obtain ⟨hws, hof, hagent⟩ := find_execution hs hm hlaw (Except.ok.inj hr)
      exact
        { hold with
          executions := List.forall_mem_cons.2
            ⟨⟨hws, hmove.executionOf hs hof, hmove.agentOf hagent⟩, hold.executions⟩ }
  | findApproval id ws =>
    cases a with
    | none => exact hold
    | some row =>
      obtain ⟨hrow, hws⟩ := Option.filter_eq_some_iff.1 (Except.ok.inj hr)
      have hws : row.workspaceId = v := (of_decide_eq_true hws).trans hlaw
      have hof := hmove.approvalOf hs (hs.approvalOf hrow)
      exact { hold with approvals := List.forall_mem_cons.2 ⟨⟨hws, hws ▸ hof⟩, hold.approvals⟩ }
  | findPendingApprovals ws =>
    cases hr
    refine { hold with approvals := fun row hrow => ?_ }
    rcases List.mem_append.1 hrow with hrow | hrow
    · obtain ⟨hrow, hp⟩ := List.mem_filter.1 hrow
      obtain ⟨id, -, hrow⟩ := List.mem_filterMap.1 hrow
      simp only [Bool.and_eq_true, decide_eq_true_eq] at hp
      have hws : row.workspaceId = v := hp.1.1.trans hlaw
      exact ⟨hws, hws ▸ hmove.approvalOf hs (hs.approvalOf hrow)⟩
    · exact hold.approvals row hrow
  | createToolCall row =>
    cases hr
    obtain ⟨c, hc, hid⟩ := hlaw
    have hexec := hmove.executionOf hs (hm.contexts c hc).2
    refine
      { hold with
        toolCalls := List.forall_mem_cons.2 ⟨⟨hmove.latest rfl, fun t ht htid => ?_⟩, hold.toolCalls⟩ }
    rcases List.mem_append.1 ht with ht | ht
    · exact absurd htid (Nat.ne_of_lt (hs.toolCalls t ht))
    · rw [List.mem_singleton.1 ht]
      exact hid ▸ hexec
  | buildContext agent ws id caller =>
    obtain ⟨e, he, rfl, rfl⟩ := hlaw
    obtain ⟨hws, hid⟩ := buildContext_ok hr
    obtain ⟨heWs, heOf, -⟩ := hold.executions e he
    exact
      { hold with
        contexts := List.forall_mem_cons.2 ⟨⟨hws.trans heWs, hid ▸ heOf⟩, hold.contexts⟩ }
  | findSteps id =>
    cases hr
    obtain ⟨e, he, rfl⟩ := hlaw
    refine { hold with steps := fun row hrow => ?_ }
    rcases List.mem_append.1 hrow with hrow | hrow
    · obtain ⟨stored, hstored, rfl⟩ := List.mem_map.1 hrow
      have hmem := (List.mem_insertionSort _).1 hstored
      have hid := of_decide_eq_true (List.mem_filter.1 hmem).2
      exact hid ▸ (hold.executions e he).2.1
    · exact hold.steps row hrow
  | runTool invocation name input context =>
    obtain ⟨c, hc, hid, hws⟩ := hlaw
    obtain ⟨hcWs, hcOf⟩ := hold.contexts c hc
    exact { hold with ran := List.forall_mem_cons.2 ⟨⟨hws.trans hcWs, hid ▸ hcOf⟩, hold.ran⟩ }
  | _ => exact hold

/-- A statement that throws hands out nothing, but the body of a tool has been run. -/
lemma own_error (hs : w.Sound) (hm : m.Own v w) {s : Stmt} (hlaw : m.Allows v s) (e : String) :
    (m.note s (.error e)).Own v w.tick := by
  have hold := (moves_tick (v := v) hs).own hs hm
  cases s with
  | runTool invocation name input context =>
    obtain ⟨c, hc, hid, hws⟩ := hlaw
    obtain ⟨hcWs, hcOf⟩ := hold.contexts c hc
    exact { hold with ran := List.forall_mem_cons.2 ⟨⟨hws.trans hcWs, hid ▸ hcOf⟩, hold.ran⟩ }
  | _ => exact hold

/-- The step: a lawful statement moves rows of the workspace, and what is in hand stays its own. -/
theorem exec_lawful (ans : Answers) (hs : w.Sound) (hm : m.Own v w) {s : Stmt}
    (hlaw : m.Allows v s) :
    Moves v w (exec ans s w).1 ∧ (m.note s (exec ans s w).2).Own v (exec ans s w).1 := by
  rcases exec_cases ans s w with ⟨e, he⟩ | ⟨a, hr, ha⟩
  · rw [he]
    exact ⟨moves_tick hs, own_error hs hm hlaw e⟩
  · rw [ha]
    exact ⟨moves_effect hs hm hlaw hr, own_effect hs hm hlaw hr⟩

end lawful

end NexusClaw.AgentRuntime
