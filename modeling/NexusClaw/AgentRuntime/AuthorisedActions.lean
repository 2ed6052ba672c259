import NexusClaw.AgentRuntime.ActionLaw

/-!
# Authorised code actions

The records under any number of calls at once, and what stands behind every code action that is
executed (`executed_authorised`).
-/

namespace NexusClaw.AgentRuntime.CodeActions
open Concurrent
open Governance (Id ToolCallStatus PermissionCheck GuardrailCheck JsOutput riskOrder)
open AuditChain

/-! ## The records of all programs -/

/-- A record that has not run and may still run. -/
def waiting (row : StaticBinding.ToolCallRecord) : Bool :=
  row.status = .started || row.status = .requiresApproval

/-- Storing a snapshot keeps the status. -/
lemma storeSnapshot_status {p : StaticBinding.Platform}
    {input : StaticBinding.StaticConnectorBindingSnapshot}
    {store : StaticBinding.ToolCallRecord → StaticBinding.ToolCallRecord}
    (hstore : StaticBinding.storeSnapshot p input = .ok store) (row : StaticBinding.ToolCallRecord) :
    (store row).status = row.status := by
  unfold StaticBinding.storeSnapshot at hstore
  cases hrevision : p.uuid input.revisionId with
  | error e =>
    rw [hrevision] at hstore
    cases hstore
  | ok revisionId =>
    cases hgeneration : p.bigint input.generation with
    | error e =>
      rw [hrevision, hgeneration] at hstore
      cases hstore
    | ok generation =>
      rw [hrevision, hgeneration] at hstore
      cases hstore
      rfl

/-- A row that keeps its status waits as before. -/
lemma latch_waiting_of_status {row row' : StaticBinding.ToolCallRecord}
    (h : row'.status = row.status) : Latch (· = true) (waiting row) (waiting row') := by
  unfold waiting
  rw [h]
  exact Latch.refl _

/-- A transition of the service never makes a record wait again. -/
lemma latch_waiting_of_downhill {expected : List ToolCallStatus} {status : ToolCallStatus}
    (hd : Downhill expected status) (patch : StaticBinding.ToolCallPatch)
    {row : StaticBinding.ToolCallRecord} (hrow : expected.contains row.status = true) :
    Latch (· = true) (waiting row) (waiting (row.patch status patch)) := by
  have hmem : row.status ∈ expected := by simpa using hrow
  by_cases hstatus : status = .requiresApproval
  · have hwaiting : waiting row = true := by
      rcases hd.2 hstatus _ hmem with hs | hs
      · simp [waiting, hs]
      · simp [waiting, hs]
    have hstill : waiting (row.patch status patch) = true := by
      simp [waiting, StaticBinding.ToolCallRecord.patch, hstatus]
    exact .inl (hstill.trans hwaiting.symm)
  · have hdone : waiting (row.patch status patch) = false := by
      simp [waiting, StaticBinding.ToolCallRecord.patch, hstatus, hd.1]
    cases hwaiting : waiting row with
    | true => exact .inr ⟨rfl, by simp [hdone]⟩
    | false => exact .inl hdone

/-- A lawful statement never makes a record wait again. -/
lemma record_waiting (p : StaticBinding.Platform) {tool : ResolvedTool} {s : StaticBinding.Stmt}
    (hs : Lawful (.record tool s)) (w : StaticBinding.World) :
    Latched waiting (· = true) w (StaticBinding.exec p s w).1 := by
  cases s with
  | findOne condition => exact Latched.refl w
  | bindSnapshot input =>
    cases hstore : StaticBinding.storeSnapshot p input with
    | error e =>
      simp only [StaticBinding.exec, hstore]
      exact Latched.refl w
    | ok store =>
      simp only [StaticBinding.exec, hstore]
      apply StaticBinding.updateWhere_latched
      exact fun row _ => latch_waiting_of_status (storeSnapshot_status hstore row)
  | allocate toolCallId requestDigest =>
    apply StaticBinding.updateWhere_latched
    exact fun row _ => latch_waiting_of_status rfl
  | update id expected status patch =>
    apply StaticBinding.updateWhere_latched
    exact fun row hrow => latch_waiting_of_downhill hs patch hrow
  | heartbeat id now =>
    apply StaticBinding.updateWhere_latched
    exact fun row _ => latch_waiting_of_status rfl

/-- An update finds nothing where nothing is stored. -/
lemma updateWhere_none {w : StaticBinding.World} {id n : Id}
    {condition : StaticBinding.ToolCallRecord → Bool}
    {f : StaticBinding.ToolCallRecord → StaticBinding.ToolCallRecord} (h : w n = none) :
    (StaticBinding.updateWhere w id condition f).1 n = none := by
  unfold StaticBinding.updateWhere
  cases hrow : w id with
  | none => exact h
  | some row =>
    dsimp only
    split_ifs
    · have hne : n ≠ id := by
        rintro rfl
        rw [h] at hrow
        cases hrow
      exact (Table.put_of_ne w _ hne).trans h
    · exact h

/-- No statement of the service makes a record where there is none. -/
lemma record_none (p : StaticBinding.Platform) (s : StaticBinding.Stmt) {w : StaticBinding.World}
    {n : Id} (h : w n = none) : (StaticBinding.exec p s w).1 n = none := by
  cases s with
  | findOne condition => exact h
  | bindSnapshot input =>
    cases hstore : StaticBinding.storeSnapshot p input with
    | error e =>
      simp only [StaticBinding.exec, hstore]
      exact h
    | ok store =>
      simp only [StaticBinding.exec, hstore]
      exact updateWhere_none h
  | allocate toolCallId requestDigest => exact updateWhere_none h
  | update id expected status patch => exact updateWhere_none h
  | heartbeat id now => exact updateWhere_none h

/-- The row that an update has affected, before and after. -/
lemma updateWhere_one {w : StaticBinding.World} {id : Id}
    {condition : StaticBinding.ToolCallRecord → Bool}
    {f : StaticBinding.ToolCallRecord → StaticBinding.ToolCallRecord}
    (h : (StaticBinding.updateWhere w id condition f).2 = 1) :
    ∃ row, w id = some row ∧ condition row = true ∧
      (StaticBinding.updateWhere w id condition f).1 id = some (f row) := by
  unfold StaticBinding.updateWhere at h ⊢
  cases hrow : w id with
  | none =>
    rw [hrow] at h
    cases h
  | some row =>
    rw [hrow] at h
    dsimp only at h ⊢
    split_ifs at h ⊢ with hcondition
    exact ⟨row, rfl, hcondition, Table.put_self ..⟩

/-- A row with one of the expected statuses waits. -/
lemma waiting_of_expected {expected : List ToolCallStatus} {row : StaticBinding.ToolCallRecord}
    (hexpected : ∀ e ∈ expected, e = .started ∨ e = .requiresApproval)
    (hrow : expected.contains row.status = true) : waiting row = true := by
  rcases hexpected row.status (by simpa using hrow) with hs | hs
  · simp [waiting, hs]
  · simp [waiting, hs]

/-- The record that a statement starts was waiting, and no longer is. -/
lemma starts_record {p : StaticBinding.Platform} {tool : ResolvedTool} {s : StaticBinding.Stmt}
    {w : StaticBinding.World} {id : Id}
    (hs : Starts id ⟨.record tool s, (StaticBinding.exec p s w).2⟩) :
    (∃ row, w id = some row ∧ waiting row = true) ∧
      ∃ row, (StaticBinding.exec p s w).1 id = some row ∧ ¬ waiting row = true := by
  cases s with
  | update n expected status patch =>
    obtain ⟨rfl, rfl, haffected, hexpected⟩ := hs
    obtain ⟨row, hrow, hcondition, hnew⟩ := updateWhere_one haffected
    refine ⟨⟨row, hrow, waiting_of_expected hexpected hcondition⟩, _, hnew, ?_⟩
    simp [waiting, StaticBinding.ToolCallRecord.patch]
  | findOne condition => cases hs
  | bindSnapshot input => cases hs
  | allocate toolCallId requestDigest => cases hs
  | heartbeat n now => cases hs

/-- A record that a read has found has the binding that it shows. -/
lemma findApproved_bound {w : World} {id n workspaceId : Id} {binding : Binding}
    (h : Shows id binding ⟨.findApproved n workspaceId, w.findApproved n workspaceId⟩) :
    w.bound id = some binding := by
  unfold World.findApproved at h
  cases hrow : w.calls n with
  | none =>
    rw [hrow] at h
    cases h
  | some row =>
    cases hbound : w.bound n with
    | none =>
      rw [hrow, hbound] at h
      cases h
    | some held =>
      rw [hrow, hbound] at h
      dsimp only [Option.bind_eq_bind, Option.bind_some] at h
      split_ifs at h with hfound
      · obtain ⟨rfl, rfl⟩ := h
        exact hbound
      · cases h

/-- No record has an id that was not given out yet. -/
def World.Issued (w : World) : Prop :=
  ∀ id, w.nextId ≤ id → w.calls id = none ∧ w.bound id = none

section kept
variable {ι : Type} [DecidableEq ι] {host : Host}

/-- The records against what the programs have observed: bindings stay, a record that was started no
longer waits, and only one program has started it. -/
structure Kept (w : World) (H : ι → History Stmt Resp) : Prop where
  issued : w.Issued
  bound : ∀ i id binding, Did (Shows id binding) (H i) → w.bound id = some binding
  moved : ∀ i id, Did (Starts id) (H i) → ∃ row, w.calls id = some row ∧ ¬ waiting row = true
  alone : ∀ i j id, Did (Starts id) (H i) → Did (Starts id) (H j) → i = j

variable {w : World} {H : ι → History Stmt Resp}

/-- A statement that starts nothing and shows only what is there. -/
lemma Kept.frame (hk : Kept w H) {w' : World} (i : ι) {s : Stmt} (r : Resp s)
    (hissued : w'.Issued)
    (hbound : ∀ id binding, w.bound id = some binding → w'.bound id = some binding)
    (hcalls : Latched waiting (· = true) w.calls w'.calls)
    (hshows : ∀ id binding, Shows id binding ⟨s, r⟩ → w'.bound id = some binding)
    (hstarts : ∀ id, ¬ Starts id ⟨s, r⟩) : Kept w' (observe H i s r) where
  issued := hissued
  bound := by
    intro j id binding hdid
    rcases (did_observe (Shows id binding) H i j s r).1 hdid with hold | ⟨-, hnow⟩
    · exact hbound id binding (hk.bound j id binding hold)
    · exact hshows id binding hnow
  moved := by
    intro j id hdid
    obtain ⟨row, hrow, hdone⟩ := hk.moved j id ((did_observe_of_not (hstarts id) j).1 hdid)
    obtain ⟨row', hrow', hlatch⟩ := hcalls id row hrow
    exact ⟨row', hrow', by rwa [hlatch.kept hdone]⟩
  alone := fun j k id hj hk' => hk.alone j k id ((did_observe_of_not (hstarts id) j).1 hj)
    ((did_observe_of_not (hstarts id) k).1 hk')

/-- A new record has an id that nothing was observed of. -/
lemma Kept.insert (hk : Kept w H) (i : ι) (row : StaticBinding.ToolCallRecord) (binding : Binding)
    (now : Nat) :
    Kept { w.insert row binding with now } (observe H i (.insert row binding) w.nextId) := by
  have hnew : w.bound w.nextId = none := (hk.issued _ (Nat.le_refl _)).2
  refine hk.frame i _ ?_ ?_ ?_ ?_ ?_
  · intro id hid
    have hne : id ≠ w.nextId := Nat.ne_of_gt hid
    have hold := hk.issued id (Nat.le_of_succ_le hid)
    exact ⟨(Table.put_of_ne _ _ hne).trans hold.1, (Table.put_of_ne _ _ hne).trans hold.2⟩
  · intro id other hother
    have hne : id ≠ w.nextId := by
      rintro rfl
      rw [hnew] at hother
      cases hother
    exact (Table.put_of_ne _ _ hne).trans hother
  · intro id old hold
    have hne : id ≠ w.nextId := by
      rintro rfl
      rw [(hk.issued _ (Nat.le_refl _)).1] at hold
      cases hold
    exact ⟨old, (Table.put_of_ne _ _ hne).trans hold, Latch.refl _⟩
  · rintro id other ⟨rfl, rfl⟩
    exact Table.put_self ..
  · rintro id ⟨⟩

/-- A statement of the service of the records. -/
lemma Kept.record (hk : Kept w H) (i : ι) {tool : ResolvedTool} {s : StaticBinding.Stmt}
    (hs : Lawful (.record tool s)) (now : Nat) :
    Kept { w with
        calls := (StaticBinding.exec (host.platform tool) s w.calls).1
        now }
      (observe H i (.record tool s) (StaticBinding.exec (host.platform tool) s w.calls).2) where
  issued := fun id hid => ⟨record_none _ s (hk.issued id hid).1, (hk.issued id hid).2⟩
  bound := by
    intro j id binding hdid
    refine hk.bound j id binding ((did_observe_of_not ?_ j).1 hdid)
    rintro ⟨⟩
  moved := by
    intro j id hdid
    rcases (did_observe (Starts id) H i j _ _).1 hdid with hold | ⟨-, hnow⟩
    · obtain ⟨row, hrow, hdone⟩ := hk.moved j id hold
      obtain ⟨row', hrow', hlatch⟩ := record_waiting (host.platform tool) hs w.calls id row hrow
      exact ⟨row', hrow', by rwa [hlatch.kept hdone]⟩
    · exact (starts_record hnow).2
  alone := by
    -- A record that a program starts was waiting, so that no other has started it before.
    have hfirst (j : ι) (id : Id) (hnow : Starts id ⟨.record tool s,
        (StaticBinding.exec (host.platform tool) s w.calls).2⟩) : ¬ Did (Starts id) (H j) := by
      intro hold
      obtain ⟨row, hrow, hdone⟩ := hk.moved j id hold
      obtain ⟨⟨row', hrow', hwaiting⟩, -⟩ := starts_record hnow
      rw [hrow] at hrow'
      cases hrow'
      exact hdone hwaiting
    intro j k id hj hk'
    rcases (did_observe (Starts id) H i j _ _).1 hj with hbefore | ⟨rfl, hnow⟩
    · rcases (did_observe (Starts id) H i k _ _).1 hk' with hother | ⟨rfl, hnow⟩
      · exact hk.alone j k id hbefore hother
      · exact absurd hbefore (hfirst j id hnow)
    · rcases (did_observe (Starts id) H j k _ _).1 hk' with hother | ⟨rfl, -⟩
      · exact absurd hother (hfirst k id hnow)
      · rfl

/-- Any statement of the programs. -/
lemma Kept.step (hk : Kept w H) (i : ι) {s : Stmt} (hs : Lawful s) :
    Kept (exec host s w).1 (observe H i s (exec host s w).2) := by
  -- only an insert and the writes to a record touch what the invariant speaks of
  cases s with
  | insert row binding => exact hk.insert i row binding _
  | record tool s => exact hk.record i hs _
  | findApproved id workspaceId =>
    refine hk.frame i _ hk.issued (fun _ _ hb => hb) (Latched.refl _) ?_ ?_
    · exact fun id' binding hshows => findApproved_bound hshows
    · rintro id' ⟨⟩
  | resolveTool key name =>
    refine hk.frame i _ hk.issued (fun _ _ hb => hb) (Latched.refl _) ?_ ?_
    · rintro id binding ⟨⟩
    · rintro id ⟨⟩
  | now =>
    refine hk.frame i _ hk.issued (fun _ _ hb => hb) (Latched.refl _) ?_ ?_
    · rintro id binding ⟨⟩
    · rintro id ⟨⟩
  | submitToolSubject tool input =>
    refine hk.frame i _ hk.issued (fun _ _ hb => hb) (Latched.refl _) ?_ ?_
    · rintro id binding ⟨⟩
    · rintro id ⟨⟩
  | executeResolvedTool id tool input =>
    refine hk.frame i _ hk.issued (fun _ _ hb => hb) (Latched.refl _) ?_ ?_
    · rintro id binding ⟨⟩
    · rintro id ⟨⟩

end kept

/-! ## Any number of calls -/

/-- A call of `executeTool`, or another program that writes records. -/
abbrev Party : Type :=
  Request ⊕ Act ActionResult

def Party.program (host : Host) : Party → Act ActionResult
  | .inl request => executeTool host request
  | .inr program => program

/-- What is known of a statement of a party when it comes to it. -/
def Party.Does (host : Host) : Party → History Stmt Resp → Stmt → Prop
  | .inl request => CodeActions.Does host request
  | .inr _ => fun _ => Beside

section pool
variable {ι : Type} [DecidableEq ι] {host : Host} {parties : ι → Party} {w : World}

/-- What a request issues is lawful. -/
lemma Does.lawful {request : Request} {h : History Stmt Resp} {s : Stmt}
    (hs : Does host request h s) : Lawful s := by
  cases s with
  | executeResolvedTool id tool input => trivial
  | resolveTool key name => trivial
  | now => trivial
  | insert row binding => trivial
  | record tool s => exact hs
  | findApproved id workspaceId => trivial
  | submitToolSubject tool input => trivial

/-- What the others issue is lawful. -/
lemma Beside.lawful {s : Stmt} (hs : Beside s) : Lawful s := by
  cases s with
  | executeResolvedTool id tool input => trivial
  | resolveTool key name => trivial
  | now => trivial
  | insert row binding => trivial
  | record tool s => exact hs
  | findApproved id workspaceId => trivial
  | submitToolSubject tool input => trivial

/-- What any party issues is lawful. -/
lemma Party.Does.lawful {party : Party} {h : History Stmt Resp} {s : Stmt}
    (hs : party.Does host h s) : Lawful s := by
  cases party with
  | inl request => exact CodeActions.Does.lawful hs
  | inr program => exact Beside.lawful hs

omit [DecidableEq ι] in
/-- A party keeps to its statements. -/
lemma along_party (hothers : ∀ i program, parties i = .inr program → program.Uses Beside) (i : ι) :
    Along ((parties i).Does host) (fun _ _ => True) [] ((parties i).program host) := by
  cases hparty : parties i with
  | inl request => exact along_executeTool host request
  | inr program =>
    exact Along.of_uses (J := fun _ => True) (hothers i program hparty) trivial
      (fun _ _ hs _ => hs) fun _ _ _ _ _ => trivial

/-- What holds in every state of a run. -/
lemma kept_play (hw : w.Issued)
    (hothers : ∀ i program, parties i = .inr program → program.Uses Beside) (sched : List ι) :
    let c := (Pool.start w fun i => (parties i).program host).play (exec host) sched
    Kept c.world c.seen := by
  refine (Outline.play (I := Kept) (G := fun _ _ _ _ => True) (Q := fun _ _ _ => True) ?_
    (fun i => ?_) (Pool.guarded_of_forall _ (fun _ _ _ _ => trivial) _ _)).1
  · refine ⟨hw, fun i id binding hdid => ?_, fun i id hdid => ?_, fun i j id hdid => ?_⟩
    · exact absurd hdid (did_nil _)
    · exact absurd hdid (did_nil _)
    · exact absurd hdid (did_nil _)
  · exact Outline.of_along (along_party hothers i)
      (fun s w H hs hk _ => hk.step i hs.lawful) (fun _ _ _ => trivial) fun _ _ => trivial

/-- A party that has come to an execution is a call of `executeTool`. -/
lemma Party.Does.executes {party : Party} {h : History Stmt Resp} {id : Id} {tool : ResolvedTool}
    {input : Json} (hs : party.Does host h (.executeResolvedTool id tool input)) :
    ∃ request, party = .inl request ∧ Authorised host request h id tool input := by
  cases party with
  | inl request => exact ⟨request, rfl, hs⟩
  | inr program => exact hs.elim

end pool

/-- Any number of calls run at once beside programs that only write records, and the providers may
answer differently at every moment. Whenever a code action is executed, it was allowed, it was the only
tool of its name that the providers gave, its record was made or found with exactly this tool, input
and release and still has that binding, an L3 action had a grant for this record, and the record was
started by this call or found running under such a grant. Of two calls that execute one record, at least
one has found it running. -/
theorem executed_authorised {ι : Type} [DecidableEq ι] (host : Host) (parties : ι → Party)
    (w : World) (hw : w.Issued)
    (hothers : ∀ i program, parties i = .inr program → program.Uses Beside) (sched : List ι) :
    let c := (Pool.start w fun i => (parties i).program host).play (exec host) sched
    ∀ i before id tool input answer,
      before ++ [⟨.executeResolvedTool id tool input, answer⟩] <+: c.seen i →
      ∃ request, parties i = .inl request ∧ Authorised host request before id tool input ∧
        c.world.bound id =
          some (bindingOf host request.toolName request.input request.context.release tool) ∧
        ∀ j before' tool' input' answer', j ≠ i →
          before' ++ [⟨.executeResolvedTool id tool' input', answer'⟩] <+: c.seen j →
          Did (FindsRunning id) before ∨ Did (FindsRunning id) before' := by
  intro c i before id tool input answer hexecuted
  have hkept : Kept c.world c.seen := kept_play hw hothers sched
  have hdoes : (parties i).Does host before (.executeResolvedTool id tool input) :=
    Along.observed (along_party hothers) sched i hexecuted
  obtain ⟨request, hparty, hauthorised⟩ := hdoes.executes
  have hbefore : before ⊆ c.seen i := ((List.prefix_append _ _).trans hexecuted).subset
  refine ⟨request, hparty, hauthorised, hkept.bound i id _ (hauthorised.recorded.mono hbefore), ?_⟩
  intro j before' tool' input' answer' hne hexecuted'
  have hdoes' : (parties j).Does host before' (.executeResolvedTool id tool' input') :=
    Along.observed (along_party hothers) sched j hexecuted'
  obtain ⟨request', -, hauthorised'⟩ := hdoes'.executes
  have hbefore' : before' ⊆ c.seen j := ((List.prefix_append _ _).trans hexecuted').subset
  rcases hauthorised.started with hstarted | ⟨hrunning, -⟩
  · rcases hauthorised'.started with hstarted' | ⟨hrunning', -⟩
    · -- Both have started the record, and only one program can.
      exact absurd (hkept.alone j i id (hstarted'.mono hbefore') (hstarted.mono hbefore)) hne
    · exact .inr hrunning'
  · exact .inl hrunning

/-- A tool of the risk L1, of a provider that executes it at once. -/
def refundTool : ResolvedTool where
  toolName := "refund"
  declaredRiskLevel := "L1"
  timeoutMs := 1000
  functionRevisionId := "revision"
  descriptorHash := "descriptor"
  publishedChecksum := "checksum"
  runtimeProviderId := "runtime"

def refundHost : Host where
  tools := []
  providers := ["serverless-action"]
  supportsContextualExecution := true
  approvalSubjects := false
  inputDigest := fun _ => "digest"
  inputError := fun _ _ => none
  platform := fun _ => { uuid := .ok, bigint := .ok, buildPreview := fun _ => .error "" }
  resolveTool := fun _ _ _ => .ok (some refundTool)
  submitToolSubject := fun _ => .error ""
  executeResolvedTool := fun _ => .ok {
    success := true
    output := .undefined
    error := none
    permissionCheck := .passed
    guardrailCheck := .passed }

/-- A call of the tool, with or without a grant for the first record. -/
def refundRequest (granted : Bool) : Request where
  toolName := "refund"
  input := .null
  context := {
    release := { executionWorkspaceId := 1, sourceWorkspaceId := 1, releaseSetId := "release" }
    allowedTools := ["refund"]
    timeoutMs := 1000
    approvalGrant := if granted then some {
      toolName := "refund"
      approvalInstanceId := "approval"
      toolCallId := some 0
      inputDigest := some "digest"
      releaseSetId := some "release"
      publishedChecksum := some "checksum" } else none }

def noRecords : World where
  calls := fun _ => none
  bound := fun _ => none
  nextId := 0
  now := 0

/-- The first call starts its record, the second finds it running and executes it, then the first
executes it. -/
def refundRun : Pool Stmt Resp String ActionResult World Bool :=
  (Pool.start noRecords fun i => Party.program refundHost (.inl (refundRequest i))).play
    (exec refundHost) [false, false, false, false, false, true, true, true, true, false]

/-- Two requests hold one call, and one of them runs it. -/
theorem refund_executed :
    Authorised refundHost (refundRequest false) ((refundRun.seen false).take 5) 0 refundTool .null ∧
      (Did (FindsRunning 0) ((refundRun.seen false).take 5) ∨
        Did (FindsRunning 0) ((refundRun.seen true).take 3)) := by
  have hexecuted (i : Bool) (n : Nat) (hn : (refundRun.seen i)[n]? =
      some ⟨.executeResolvedTool 0 refundTool .null, refundHost.executeResolvedTool 0⟩) :
      (refundRun.seen i).take n ++
        [⟨.executeResolvedTool 0 refundTool .null, refundHost.executeResolvedTool 0⟩] <+:
          refundRun.seen i := by
    obtain ⟨hlt, hget⟩ := List.getElem?_eq_some_iff.1 hn
    rw [← hget, ← List.take_succ_eq_append_getElem hlt]
    exact List.take_prefix _ _
  obtain ⟨request, hrequest, hauthorised, -, hother⟩ := executed_authorised refundHost
    (fun i => .inl (refundRequest i)) noRecords (fun _ _ => ⟨rfl, rfl⟩) (fun _ _ h => by cases h)
    [false, false, false, false, false, true, true, true, true, false] false _ 0 refundTool .null _
    (hexecuted false 5 rfl)
  cases hrequest
  exact ⟨hauthorised, hother true _ refundTool .null _ (by decide) (hexecuted true 3 rfl)⟩

end NexusClaw.AgentRuntime.CodeActions
