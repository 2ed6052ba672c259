import NexusClaw.Governance.Footprint

/-!
# Rows keep their identity

Every row is stored under its own key, keys come from the clock, and nothing an operation does
removes a row or changes what a row is about: an approval keeps the execution and the workspace it
was created for, an execution keeps its source and its policy. `World.Keyed` and `World.Grows` say
this, for a statement, for an operation and for a sequence of operations.
-/

namespace NexusClaw.Governance
open Concurrent

/-- The rows are stored under their own keys, which the clock has passed. -/
structure World.Keyed (w : World) : Prop where
  executions : ∀ k row, w.executions k = some row → row.id = k ∧ k < w.clock
  approvals : ∀ k row, w.approvals k = some row → row.id = k ∧ k < w.clock
  toolCalls : ∀ row ∈ w.toolCalls, row.id < w.clock

/-- The columns of an execution that no update sets. -/
structure AgentExecution.SameRun (row row' : AgentExecution) : Prop where
  id : row'.id = row.id
  workspaceId : row'.workspaceId = row.workspaceId
  triggerSource : row'.triggerSource = row.triggerSource
  triggerPayload : row'.triggerPayload = row.triggerPayload

/-- A row is of its own run. -/
lemma AgentExecution.SameRun.refl (row : AgentExecution) : row.SameRun row :=
  ⟨rfl, rfl, rfl, rfl⟩

/-- Of one run over two steps. -/
lemma AgentExecution.SameRun.trans {a b c : AgentExecution} (h : a.SameRun b) (h' : b.SameRun c) :
    a.SameRun c where
  id := h'.id.trans h.id
  workspaceId := h'.workspaceId.trans h.workspaceId
  triggerSource := h'.triggerSource.trans h.triggerSource
  triggerPayload := h'.triggerPayload.trans h.triggerPayload

/-- An update stays within the run. -/
lemma AgentExecution.sameRun_patch (row : AgentExecution) (p : ExecutionPatch) :
    row.SameRun (row.patch p) :=
  ⟨rfl, rfl, rfl, rfl⟩

/-- The columns of an approval that no update sets. -/
structure ApprovalInstance.SameCase (row row' : ApprovalInstance) : Prop where
  id : row'.id = row.id
  workspaceId : row'.workspaceId = row.workspaceId
  recordId : row'.recordId = row.recordId

/-- A row is of its own case. -/
lemma ApprovalInstance.SameCase.refl (row : ApprovalInstance) : row.SameCase row :=
  ⟨rfl, rfl, rfl⟩

/-- Of one case over two steps. -/
lemma ApprovalInstance.SameCase.trans {a b c : ApprovalInstance} (h : a.SameCase b)
    (h' : b.SameCase c) : a.SameCase c where
  id := h'.id.trans h.id
  workspaceId := h'.workspaceId.trans h.workspaceId
  recordId := h'.recordId.trans h.recordId

/-- An update stays within the case. -/
lemma ApprovalInstance.sameCase_patch (row : ApprovalInstance) (p : ApprovalPatch) :
    row.SameCase (row.patch p) :=
  ⟨rfl, rfl, rfl⟩

/-- Every row of `w` is still there in `w'` and is about the same. -/
structure World.Grows (w w' : World) : Prop where
  clock : w.clock ≤ w'.clock
  executions : ∀ k row, w.executions k = some row →
    ∃ row', w'.executions k = some row' ∧ row.SameRun row'
  approvals : ∀ k row, w.approvals k = some row →
    ∃ row', w'.approvals k = some row' ∧ row.SameCase row'

/-- A store grows from itself. -/
lemma World.Grows.refl (w : World) : w.Grows w where
  clock := Nat.le_refl _
  executions := fun _ row h => ⟨row, h, .refl row⟩
  approvals := fun _ row h => ⟨row, h, .refl row⟩

/-- A store grows over two steps. -/
lemma World.Grows.trans {a b c : World} (h : a.Grows b) (h' : b.Grows c) : a.Grows c where
  clock := h.clock.trans h'.clock
  executions := by
    intro k row hrow
    obtain ⟨row', hrow', hs⟩ := h.executions k row hrow
    obtain ⟨row'', hrow'', hs'⟩ := h'.executions k row' hrow'
    exact ⟨row'', hrow'', hs.trans hs'⟩
  approvals := by
    intro k row hrow
    obtain ⟨row', hrow', hs⟩ := h.approvals k row hrow
    obtain ⟨row'', hrow'', hs'⟩ := h'.approvals k row' hrow'
    exact ⟨row'', hrow'', hs.trans hs'⟩

/-! ## Statements -/

/-- Not the whole-row save of a timeout, which no operation issues. -/
def Stmt.noSave : Stmt → Prop
  | .saveApproval _ => False
  | _ => True

/-- What works for an execution saves no row whole. -/
lemma Stmt.worksFor.noSave {e : Id} {s : Stmt} (h : s.worksFor cfg e) : s.noSave := by
  cases s with
  | saveApproval row => exact h
  | _ => trivial

/-- Rows put under the key that the clock assigns, beside rows stored under their own keys. -/
lemma keyed_put {ρ : Type} {t : Table Id ρ} {g : ρ → Id} {clock : Nat} {row : ρ}
    (ht : ∀ k row, t k = some row → g row = k ∧ k < clock) (hid : g row = clock) (k : Id)
    (row' : ρ) (h : t.put clock row k = some row') : g row' = k ∧ k < clock + 1 := by
  rw [Table.put_apply] at h
  by_cases e : k = clock
  · rw [if_pos e] at h
    obtain rfl := Option.some.inj h
    exact ⟨hid.trans e.symm, e ▸ Nat.lt_succ_self clock⟩
  · rw [if_neg e] at h
    obtain ⟨h1, h2⟩ := ht k row' h
    exact ⟨h1, Nat.lt_succ_of_lt h2⟩

/-- An update under a key keeps the table keyed. -/
lemma keyed_update {ρ : Type} {t : Table Id ρ} {g : ρ → Id} {clock : Nat} {key : Id} {f : ρ → ρ}
    (ht : ∀ k row, t k = some row → g row = k ∧ k < clock) (hid : ∀ row, g (f row) = g row)
    (k : Id) (row' : ρ) (h : t.modify key f k = some row') : g row' = k ∧ k < clock := by
  obtain ⟨row, hrow, rfl⟩ := Table.modify_eq_some h
  obtain ⟨h1, h2⟩ := ht k row hrow
  refine ⟨?_, h2⟩
  by_cases e : k = key
  · rw [if_pos e, hid, h1]
  · rw [if_neg e, h1]

/-- The key that the clock assigns is new, so what is there stays. -/
lemma kept_put {ρ : Type} {t : Table Id ρ} {g : ρ → Id} {clock : Nat} {r : ρ}
    (ht : ∀ k row, t k = some row → g row = k ∧ k < clock) {k : Id} {row : ρ}
    (h : t k = some row) : t.put clock r k = some row := by
  have hk := (ht k row h).2
  rw [Table.put_of_ne _ _ (Nat.ne_of_lt hk), h]

/-- A change of a row that keeps what it should. -/
lemma kept_modify {ρ : Type} {t : Table Id ρ} {key : Id} {f : ρ → ρ} {Same : ρ → ρ → Prop}
    (hf : ∀ row, Same row (f row)) (refl : ∀ row, Same row row) {k : Id} {row : ρ}
    (h : t k = some row) : ∃ row', t.modify key f k = some row' ∧ Same row row' := by
  rw [Table.modify_apply]
  by_cases e : k = key
  · rw [if_pos e, h]
    exact ⟨f row, rfl, hf row⟩
  · rw [if_neg e, h]
    exact ⟨row, rfl, refl row⟩

variable {ans : Answers} {s : Stmt} {w : World}

/-- The same tables are keyed later. -/
lemma World.Keyed.later (hk : w.Keyed) {w' : World} (he : w'.executions = w.executions)
    (ha : w'.approvals = w.approvals) (ht : ∀ row ∈ w'.toolCalls, row.id < w'.clock)
    (hc : w.clock ≤ w'.clock) : w'.Keyed where
  executions := by
    intro k row h
    obtain ⟨h1, h2⟩ := hk.executions k row (he ▸ h)
    exact ⟨h1, Nat.lt_of_lt_of_le h2 hc⟩
  approvals := by
    intro k row h
    obtain ⟨h1, h2⟩ := hk.approvals k row (ha ▸ h)
    exact ⟨h1, Nat.lt_of_lt_of_le h2 hc⟩
  toolCalls := ht

/-- A statement keeps the tables keyed. -/
lemma exec_keyed (hs : s.noSave) (hk : w.Keyed) : (exec ans s w).1.Keyed := by
  have hlater : ∀ row ∈ w.toolCalls, row.id < w.clock + 1 :=
    fun row hrow => Nat.lt_succ_of_lt (hk.toolCalls row hrow)
  -- a new row gets the identifier of the clock, and a patch keeps the one there is
  cases s with
  | createExecution row =>
    refine ⟨keyed_put (g := AgentExecution.id) hk.executions rfl, fun k row h => ?_, hlater⟩
    obtain ⟨h1, h2⟩ := hk.approvals k row h
    exact ⟨h1, Nat.lt_succ_of_lt h2⟩
  | createApproval row =>
    refine ⟨fun k row h => ?_, keyed_put (g := ApprovalInstance.id) hk.approvals rfl, hlater⟩
    obtain ⟨h1, h2⟩ := hk.executions k row h
    exact ⟨h1, Nat.lt_succ_of_lt h2⟩
  | updateExecution id patch =>
    exact ⟨keyed_update (g := AgentExecution.id) hk.executions fun _ => rfl, hk.approvals,
      hk.toolCalls⟩
  | updateApproval id patch =>
    exact ⟨hk.executions, keyed_update (g := ApprovalInstance.id) hk.approvals fun _ => rfl,
      hk.toolCalls⟩
  | updatePendingApproval id workspaceId stepIndex patch =>
    refine ⟨hk.executions, keyed_update (g := ApprovalInstance.id) hk.approvals fun row => ?_,
      hk.toolCalls⟩
    split <;> rfl
  | saveApproval row => exact absurd hs id
  | createToolCall row =>
    refine hk.later rfl rfl (fun row' hrow => ?_) (Nat.le_succ _)
    obtain hold | hnew := List.mem_append.mp hrow
    · exact hlater row' hold
    · rw [List.mem_singleton.mp hnew]
      exact Nat.lt_succ_self _
  | transitionToolCall id expected patch =>
    refine hk.later rfl rfl (fun row' hrow => ?_) (Nat.le_refl _)
    obtain ⟨row, hold, rfl⟩ := List.mem_map.mp hrow
    split <;> exact hk.toolCalls row hold
  | findExecution id => exact hk
  | findApproval id => exact hk
  | findApprovalSteps processId => exact hk
  | findToolCalls e => exact hk
  | findSteps e => exact hk
  | emit event => exact hk.later rfl rfl hk.toolCalls (Nat.le_refl _)
  | audit entry => exact hk.later rfl rfl hk.toolCalls (Nat.le_refl _)
  | _ => exact hk.later rfl rfl hlater (Nat.le_succ _)

/-- The same tables have grown. -/
lemma World.Grows.later {w' : World} (he : w'.executions = w.executions)
    (ha : w'.approvals = w.approvals) (hc : w.clock ≤ w'.clock) : w.Grows w' where
  clock := hc
  executions := fun _ row h => ⟨row, he ▸ h, .refl row⟩
  approvals := fun _ row h => ⟨row, ha ▸ h, .refl row⟩

/-- A statement lets the store grow. -/
lemma exec_grows (hs : s.noSave) (hk : w.Keyed) : w.Grows (exec ans s w).1 := by
  cases s with
  | createExecution row =>
    exact ⟨Nat.le_succ _, fun k row h => ⟨row, kept_put (g := AgentExecution.id) hk.executions h, .refl row⟩,
      fun k row h => ⟨row, h, .refl row⟩⟩
  | createApproval row =>
    exact ⟨Nat.le_succ _, fun k row h => ⟨row, h, .refl row⟩,
      fun k row h => ⟨row, kept_put (g := ApprovalInstance.id) hk.approvals h, .refl row⟩⟩
  | updateExecution id patch =>
    exact ⟨Nat.le_refl _, fun k row h => kept_modify (fun row => row.sameRun_patch patch) .refl h,
      fun k row h => ⟨row, h, .refl row⟩⟩
  | updateApproval id patch =>
    exact ⟨Nat.le_refl _, fun k row h => ⟨row, h, .refl row⟩,
      fun k row h => kept_modify (fun row => row.sameCase_patch patch) .refl h⟩
  | updatePendingApproval id workspaceId stepIndex patch =>
    refine ⟨Nat.le_refl _, fun k row h => ⟨row, h, .refl row⟩,
      fun k row h => kept_modify (fun row => ?_) .refl h⟩
    split
    · exact row.sameCase_patch patch
    · exact .refl row
  | saveApproval row => exact absurd hs id
  | _ => exact .later rfl rfl (by simp only [exec]; omega)

/-! ## Operations -/

/-- No request saves a row whole. -/
lemma program_noSave (cfg : Config) (op : Operation) : (op.program cfg).Uses Stmt.noSave :=
  program_uses (fun _ _ h => h.noSave) (fun _ _ => trivial) (fun _ _ _ => trivial)
    (fun _ => trivial) (fun _ => trivial) op

/-- A program that saves no whole row keeps the keys and lets the tables grow. -/
lemma run_grows (ans : Answers) {α : Type} {p : Act α} (hp : p.Uses Stmt.noSave) (hk : w.Keyed) :
    (p.run (exec ans) w).2.Keyed ∧ w.Grows (p.run (exec ans) w).2 :=
  hp.run (I := fun w' => w'.Keyed ∧ w.Grows w')
    (fun _ _ hs hw => ⟨exec_keyed hs hw.1, hw.2.trans (exec_grows hs hw.1)⟩) ⟨hk, .refl w⟩

/-- A run of requests lets the store grow. -/
theorem serveAll_grows (cfg : Config) (ans : Answers) (ops : List Operation) (w : World)
    (hk : w.Keyed) : (serveAll cfg ans w ops).Keyed ∧ w.Grows (serveAll cfg ans w ops) := by
  induction ops generalizing w with
  | nil => exact ⟨hk, .refl w⟩
  | cons op ops ih =>
    obtain ⟨hk', hg⟩ := run_grows ans (program_noSave cfg op) hk
    obtain ⟨hk'', hg'⟩ := ih (serve cfg ans w op) hk'
    exact ⟨hk'', hg.trans hg'⟩

/-- The empty store is keyed. -/
lemma empty_keyed : World.empty.Keyed :=
  ⟨(fun _ _ h => nomatch h), (fun _ _ h => nomatch h), (fun _ h => nomatch h)⟩

/-- So is the store with a paused call. -/
lemma pausedWorld_keyed : pausedWorld.Keyed :=
  (serveAll_grows .small .small [.gate "mail__send" .empty] .empty empty_keyed).1

end NexusClaw.Governance
