import NexusClaw.Governance.TerminalStates

/-!
# Decisions on gated calls

The gateway's decision writes both rows, the approval and the execution; the console's decision on an
approval of the gate writes one of them. `ByGateway` is the condition that no approval of the gate is
decided in the console. Under it the two rows of a gated call stay coherent (`Ledger.Coherent`), a
decision is final, and a rejected call is never found running.
-/

namespace NexusClaw.Governance
open Concurrent

/-- What the status of an approval allows its gated execution to be. -/
def CoherentWith : ApprovalStatus → ExecutionStatus → Prop
  | .pending, status => status = .guardrailPending
  | .approved, status => status = .running ∨ status = .done ∨ status = .failed
  | .rejected, status => status = .cancelled
  | .recalled, _ => False
  | .expired, _ => False

/-- Every approval names an execution; an execution of the gate has at most one approval, and the two
are coherent. -/
structure Ledger.Coherent (l : Ledger) : Prop where
  recorded : ∀ a inst, l.approvals a = some inst → ∃ row, l.executions inst.recordId = some row
  coherent : ∀ a inst row, l.approvals a = some inst → l.executions inst.recordId = some row →
    row.triggerSource = .governanceGate → CoherentWith inst.status row.status
  single : ∀ a b inst inst' row, l.approvals a = some inst → l.approvals b = some inst' →
    inst.recordId = inst'.recordId → l.executions inst.recordId = some row →
    row.triggerSource = .governanceGate → a = b

/-! ## Entries of a coherent ledger -/

namespace Ledger.Coherent
variable {l : Ledger} {e : Id} {row : AgentExecution} {p : ExecutionPatch}

/-- A new execution keeps the ledger coherent. -/
lemma enter (h : l.Coherent) (hfresh : l.executions e = none) : (l.enter e row).Coherent := by
  have hold : ∀ a inst, l.approvals a = some inst →
      (l.enter e row).executions inst.recordId = l.executions inst.recordId := by
    intro a inst ha
    obtain ⟨row', hrow'⟩ := h.recorded a inst ha
    refine l.enter_of_ne row ?_
    rintro rfl
    exact nomatch hfresh.symm.trans hrow'
  constructor
  · intro a inst ha
    rw [hold a inst ha]
    exact h.recorded a inst ha
  · intro a inst row' ha hrow'
    rw [hold a inst ha] at hrow'
    exact h.coherent a inst row' ha hrow'
  · intro a b inst inst' row' ha hb he hrow'
    rw [hold a inst ha] at hrow'
    exact h.single a b inst inst' row' ha hb he hrow'

/-- An update of an execution under which its approvals stay coherent. -/
lemma patch (h : l.Coherent)
    (hp : ∀ a inst row, l.approvals a = some inst → inst.recordId = e →
      l.executions e = some row → row.triggerSource = .governanceGate →
      CoherentWith inst.status (row.patch p).status) : (l.patch e p).Coherent := by
  have hback : ∀ k row', (l.patch e p).executions k = some row' →
      ∃ row, l.executions k = some row ∧ row' = if k = e then row.patch p else row := by
    intro k row' hk
    obtain ⟨row, hrow, heq⟩ := Table.modify_eq_some hk
    exact ⟨row, hrow, heq⟩
  constructor
  · intro a inst ha
    obtain ⟨row, hrow⟩ := h.recorded a inst ha
    by_cases hk : inst.recordId = e
    · refine ⟨row.patch p, ?_⟩
      rw [hk] at hrow ⊢
      rw [Ledger.patch_self, hrow, Option.map_some]
    · exact ⟨row, (l.patch_of_ne p hk).trans hrow⟩
  · intro a inst row' ha hrow' hgate
    obtain ⟨row, hrow, rfl⟩ := hback _ _ hrow'
    by_cases hk : inst.recordId = e
    · rw [if_pos hk] at hgate ⊢
      exact hp a inst row ha hk (hk ▸ hrow) hgate
    · rw [if_neg hk] at hgate ⊢
      exact h.coherent a inst row ha hrow hgate
  · intro a b inst inst' row' ha hb heq hrow' hgate
    obtain ⟨row, hrow, rfl⟩ := hback _ _ hrow'
    refine h.single a b inst inst' row ha hb heq hrow ?_
    by_cases hk : inst.recordId = e
    · rw [if_pos hk] at hgate
      exact hgate
    · rw [if_neg hk] at hgate
      exact hgate

/-- An update of an execution of the loop. -/
lemma patch_loop (h : l.Coherent) (hrow : l.executions e = some row)
    (hloop : row.triggerSource ≠ .governanceGate) : (l.patch e p).Coherent := by
  refine h.patch fun a inst row' _ _ hrow' hgate => ?_
  obtain rfl := Option.some.inj (hrow.symm.trans hrow')
  exact absurd hgate hloop

/-- So does a terminal event. -/
lemma close (h : l.Coherent) (event : EventType) : (l.close e event).Coherent :=
  ⟨h.recorded, h.coherent, h.single⟩

/-- An execution pauses for a new approval; if it is one of the gate, it has no other. -/
lemma pause (a : Id) (inst : ApprovalInstance) (h : l.Coherent)
    (hrow : l.executions e = some row) (ha : l.approvals a = none) (hrecord : inst.recordId = e)
    (hpending : inst.status = .pending)
    (hnone : row.triggerSource = .governanceGate →
      ∀ b inst', l.approvals b = some inst' → inst'.recordId ≠ e) :
    ((l.ask a inst).patch e { status := some .guardrailPending }).Coherent := by
  have happrovals : ∀ b inst', (l.ask a inst).approvals b = some inst' →
      (b = a ∧ inst' = inst) ∨ (b ≠ a ∧ l.approvals b = some inst') := by
    intro b inst' hb
    by_cases hba : b = a
    · rw [hba] at hb
      exact .inl ⟨hba, (Option.some.inj ((Table.put_self ..).symm.trans hb)).symm⟩
    · exact .inr ⟨hba, (Table.put_of_ne _ _ hba).symm.trans hb⟩
  have hpaused : (l.patch e { status := some .guardrailPending }).executions e =
      some (row.patch { status := some .guardrailPending }) := l.patch_found hrow
  have hold : (l.patch e { status := some .guardrailPending }).Coherent := by
    refine h.patch fun b inst' row' hb hbe hrow' hgate => ?_
    obtain rfl := Option.some.inj (hrow.symm.trans hrow')
    exact absurd hbe (hnone hgate b inst' hb)
  constructor
  · intro b inst' hb
    obtain ⟨-, rfl⟩ | ⟨-, hb'⟩ := happrovals b inst' hb
    · exact ⟨_, (congrArg (l.patch e _).executions hrecord).trans hpaused⟩
    · exact hold.recorded b inst' hb'
  · intro b inst' row' hb hrow' hgate
    obtain ⟨-, rfl⟩ | ⟨-, hb'⟩ := happrovals b inst' hb
    · have heq := hpaused.symm.trans (hrecord ▸ hrow')
      obtain rfl := Option.some.inj heq
      rw [hpending]
      rfl
    · exact hold.coherent b inst' row' hb' hrow' hgate
  · intro b c inst₁ inst₂ row' hb hc heq hrow' hgate
    -- Two approvals of one gated execution, one of them new: the old one contradicts `hnone`.
    have hnew : ∀ d inst', l.approvals d = some inst' → inst'.recordId = e →
        inst₁.recordId = e → False := by
      intro d inst' hd hde hbe
      have heq' := hpaused.symm.trans (hbe ▸ hrow')
      obtain rfl := Option.some.inj heq'
      exact hnone hgate d inst' hd hde
    obtain ⟨rfl, rfl⟩ | ⟨-, hb'⟩ := happrovals b inst₁ hb
    · obtain ⟨rfl, rfl⟩ | ⟨-, hc'⟩ := happrovals c inst₂ hc
      · rfl
      · exact (hnew c inst₂ hc' (heq.symm.trans hrecord) hrecord).elim
    · obtain ⟨rfl, rfl⟩ | ⟨-, hc'⟩ := happrovals c inst₂ hc
      · exact (hnew b inst₁ hb' (heq.trans hrecord) (heq.trans hrecord)).elim
      · exact hold.single b c inst₁ inst₂ row' hb' hc' heq hrow' hgate

/-- A decision on a pending approval that writes both rows coherently, or on one of the loop. -/
lemma decide {a : Id} {inst : ApprovalInstance} {q : ApprovalPatch} (h : l.Coherent)
    (ha : l.approvals a = some inst)
    (hp : ∀ row, l.executions inst.recordId = some row → row.triggerSource = .governanceGate →
      CoherentWith (inst.patch q).status (row.patch p).status) :
    ((l.decide a q).patch inst.recordId p).Coherent := by
  have hback : ∀ b inst', (l.decide a q).approvals b = some inst' →
      ∃ inst₀, l.approvals b = some inst₀ ∧ inst' = if b = a then inst₀.patch q else inst₀ := by
    intro b inst' hb
    obtain ⟨inst₀, h₀, heq⟩ := Table.modify_eq_some hb
    exact ⟨inst₀, h₀, heq⟩
  have hrecord : ∀ (b : Id) (inst₀ : ApprovalInstance),
      (if b = a then inst₀.patch q else inst₀).recordId = inst₀.recordId := by
    intro b inst₀
    split <;> rfl
  have hexec : ∀ k row', ((l.decide a q).patch inst.recordId p).executions k = some row' →
      ∃ row, l.executions k = some row ∧
        row' = if k = inst.recordId then row.patch p else row := by
    intro k row' hk
    obtain ⟨row, hrow, heq⟩ := Table.modify_eq_some hk
    exact ⟨row, hrow, heq⟩
  have hsource : ∀ (k : Id) (row : AgentExecution),
      (if k = inst.recordId then row.patch p else row).triggerSource = row.triggerSource := by
    intro k row
    split <;> rfl
  constructor
  · intro b inst' hb
    obtain ⟨inst₀, h₀, rfl⟩ := hback b inst' hb
    obtain ⟨row, hrow⟩ := h.recorded b inst₀ h₀
    rw [hrecord b inst₀]
    by_cases hk : inst₀.recordId = inst.recordId
    · refine ⟨row.patch p, ?_⟩
      rw [hk] at hrow ⊢
      rw [Ledger.patch_self]
      exact congrArg (Option.map (·.patch p)) hrow
    · exact ⟨row, (Ledger.patch_of_ne _ _ hk).trans hrow⟩
  · intro b inst' row' hb hrow' hgate
    obtain ⟨inst₀, h₀, rfl⟩ := hback b inst' hb
    rw [hrecord b inst₀] at hrow'
    obtain ⟨row, hrow, rfl⟩ := hexec _ _ hrow'
    rw [hsource] at hgate
    by_cases hk : inst₀.recordId = inst.recordId
    · -- The execution of the decision: it has no other approval.
      obtain rfl := h.single b a inst₀ inst row h₀ ha hk hrow hgate
      obtain rfl := Option.some.inj (ha.symm.trans h₀)
      rw [if_pos rfl, if_pos rfl]
      exact hp row hrow hgate
    · have hne : b ≠ a := by
        rintro rfl
        exact hk (congrArg _ (Option.some.inj (h₀.symm.trans ha)))
      rw [if_neg hne, if_neg hk]
      exact h.coherent b inst₀ row h₀ hrow hgate
  · intro b c inst₁ inst₂ row' hb hc heq hrow' hgate
    obtain ⟨inst₃, h₃, rfl⟩ := hback b inst₁ hb
    obtain ⟨inst₄, h₄, rfl⟩ := hback c inst₂ hc
    rw [hrecord b inst₃, hrecord c inst₄] at heq
    rw [hrecord b inst₃] at hrow'
    obtain ⟨row, hrow, rfl⟩ := hexec _ _ hrow'
    rw [hsource] at hgate
    exact h.single b c inst₃ inst₄ row h₃ h₄ heq hrow hgate

end Ledger.Coherent

/-! ## Entries -/

section entries
variable {cfg : Config} {w w' : World}

/-- No approval has an id of the future. -/
lemma World.Keyed.unasked (hk : w.Keyed) {a : Id} (ha : w.clock ≤ a) : w.approvals a = none := by
  cases h : w.approvals a with
  | none => rfl
  | some inst => exact absurd (hk.approvals _ _ h).2 (Nat.not_lt_of_le ha)

/-- A run keeps the ledger coherent. -/
lemma RunEntry.coherent {input : ExecutorInput} (h : RunEntry cfg input w w') (hk : w.Keyed)
    (hw : w.ledger.Coherent) : w'.ledger.Coherent := by
  have henter : (w.ledger.enter w.clock (input.row.at w.clock)).Coherent := hw.enter hk.fresh
  have hloop : (input.row.at w.clock).triggerSource ≠ .governanceGate := fun h => nomatch h
  cases h with
  | stopped entry =>
    rw [entry]
    exact henter
  | ended final entry =>
    rw [entry]
    exact (henter.patch_loop (Ledger.enter_self ..) hloop).close _
  | @parked id inst fresh asks escalates entry =>
    rw [entry]
    have hpaused := Ledger.Coherent.pause id inst henter (Ledger.enter_self ..)
      (hk.unasked (Nat.le_of_lt fresh)) asks.recordId asks.status (fun hgate => absurd hgate hloop)
    exact (hpaused.patch_loop (Ledger.patch_found (Ledger.enter_self ..)) hloop).close _

/-- So does a gate. -/
lemma GateEntry.coherent {toolName : String} {toolInput : Json} {r : Except String GateResult}
    (h : GateEntry cfg toolName toolInput w w' r) (hk : w.Keyed) (hw : w.ledger.Coherent) :
    w'.ledger.Coherent := by
  have henter : (w.ledger.enter w.clock ((gateExecution cfg toolName).at w.clock)).Coherent :=
    hw.enter hk.fresh
  have hnone : ∀ a inst, w.approvals a = some inst → inst.recordId ≠ w.clock := by
    intro a inst ha he
    obtain ⟨row, hrow⟩ := hw.recorded a inst ha
    have hfresh := hk.fresh
    rw [← he] at hfresh
    exact nomatch hfresh.symm.trans hrow
  cases h with
  | threw entry =>
    rw [entry]
    exact henter
  | allowed entry =>
    rw [entry]
    exact henter
  | refused refuses entry =>
    rw [entry]
    exact henter.patch fun a inst _ ha he _ _ => absurd he (hnone a inst ha)
  | paused inst fresh asks entry =>
    rw [entry]
    exact henter.pause _ _ (Ledger.enter_self ..) (hk.unasked (Nat.le_of_lt fresh)) asks.recordId
      asks.status (fun _ => hnone)

/-- The execution that is completed runs, so its call was approved if it needed to be. -/
lemma CompleteEntry.coherent {e : Id} {outcome : GateOutcome} (h : CompleteEntry e outcome w w')
    (hw : w.ledger.Coherent) : w'.ledger.Coherent := by
  -- one case for each entry that a completion can leave
  cases h with
  | refused same =>
    rw [same]
    exact hw
  | @closed row found runs entry =>
    rw [entry]
    refine (hw.patch fun a inst row' ha he hrow' hgate => ?_).close _
    have hcoherent := hw.coherent a inst row' ha (he ▸ hrow') hgate
    obtain rfl := Option.some.inj (found.symm.trans hrow')
    rw [runs] at hcoherent
    have happroved : inst.status = .approved := by
      cases hs : inst.status with
      | approved => rfl
      | pending =>
        rw [hs] at hcoherent
        exact nomatch hcoherent
      | rejected =>
        rw [hs] at hcoherent
        exact nomatch hcoherent
      | recalled =>
        rw [hs] at hcoherent
        exact hcoherent.elim
      | expired =>
        rw [hs] at hcoherent
        exact hcoherent.elim
    rw [happroved]
    show outcome.executionStatus = .running ∨ outcome.executionStatus = .done ∨
      outcome.executionStatus = .failed
    unfold GateOutcome.executionStatus
    split
    · exact .inr (.inl rfl)
    · exact .inr (.inr rfl)

/-- So does a decision. -/
lemma DecideEntry.coherent {a : Id} {decision : Decision} {r : Except String Unit}
    (h : DecideEntry a decision w w' r) (hw : w.ledger.Coherent) : w'.ledger.Coherent := by
  cases h with
  | refused closed same =>
    rw [same]
    exact hw
  | @decided inst actor found waits entry =>
    rw [entry]
    refine hw.decide found fun row _ _ => ?_
    cases decision with
    | approved => exact .inl rfl
    | rejected => rfl

/-- So does a resumption of a run. -/
lemma ResumeEntry.coherent {input : ResumeInput} (h : ResumeEntry cfg input w w')
    (hloop : ∀ row, w.executions input.executionId = some row →
      row.triggerSource ≠ .governanceGate) (hk : w.Keyed) (hw : w.ledger.Coherent) :
    w'.ledger.Coherent := by
  cases h with
  | refused same =>
    rw [same]
    exact hw
  | stopped found waits entry =>
    rw [entry]
    exact hw.patch_loop found (hloop _ found)
  | @ended row status found waits final entry =>
    have hsource := hloop row found
    have hrunning := hw.patch_loop (p := { status := some .running }) found hsource
    rw [entry]
    exact hrunning.patch_loop (Ledger.patch_found found) hsource
  | @parked row id inst found waits fresh asks entry =>
    have hsource := hloop row found
    have hrow := w.ledger.patch_found (p := { status := some .running }) found
    have hrunning := hw.patch_loop (p := { status := some .running }) found hsource
    have hpaused := hrunning.pause id inst hrow (hk.unasked fresh) asks.recordId asks.status
      (fun hgate => absurd hgate hsource)
    rw [entry]
    exact hpaused.patch_loop (Ledger.patch_found hrow) hsource

/-- A lookup repairs and cancels only what is not coherent, so nothing of the gate. -/
lemma LookupEntry.coherent {inst : ApprovalInstance} {execution : AgentExecution} {a : Id}
    (h : LookupEntry inst execution w w') (ha : w.approvals a = some inst) (hid : inst.id = a)
    (hexec : w.executions inst.recordId = some execution) (hw : w.ledger.Coherent) :
    w'.ledger.Coherent := by
  have hcoherent := hw.coherent a inst execution ha hexec
  -- one case for each entry that a lookup can leave
  cases h with
  | idle notRejected same =>
    rw [same]
    exact hw
  | kept rejected cancelled same =>
    rw [same]
    exact hw
  | cancels rejected differs entry =>
    rw [entry]
    refine hw.patch_loop hexec fun hgate => differs ?_
    have h := hcoherent hgate
    rw [rejected] at h
    exact h
  | @repairs w₁ outcome waits runs first rest =>
    have hloop : execution.triggerSource ≠ .governanceGate := by
      intro hgate
      have h := hcoherent hgate
      rw [waits, runs] at h
      exact nomatch h
    have hfirst : w₁.ledger.Coherent := by
      rw [first, hid]
      have hdecided := hw.decide (q := { status := some .approved, completedAt := true })
        (p := {}) ha fun row hrow hgate => by
          obtain rfl := Option.some.inj (hexec.symm.trans hrow)
          exact absurd hgate hloop
      have hsame : (w.ledger.decide a { status := some .approved, completedAt := true }).patch
          inst.recordId {} = w.ledger.decide a { status := some .approved, completedAt := true } :=
        Ledger.patch_nothing ..
      rwa [hsame] at hdecided
    obtain hrest | hrest := rest
    · exact hrest.coherent hfirst
    · rw [hrest]
      exact hfirst
  | executes decided notRejected first rest => exact rest.coherent (first ▸ hw)

/-- So does a tool call. -/
lemma GatedEntry.coherent {name : String} {args : Json} (h : GatedEntry cfg name args w w')
    (hk : w.Keyed) (hw : w.ledger.Coherent) : w'.ledger.Coherent := by
  cases h with
  | stopped gate same =>
    rw [same]
    exact gate.coherent hk hw
  | executed gate same rest => exact rest.coherent (same ▸ gate.coherent hk hw)
  | decided outcome gate same decide same' rest =>
    have htwo := same ▸ gate.coherent hk hw
    have hfour := same' ▸ decide.coherent htwo
    obtain hlast | hlast := rest
    · rw [hlast]
      exact hfour
    · exact hlast.coherent hfour

/-! ## A decision is kept -/

/-- An approval that is not pending any more keeps its status. -/
def DecisionsKept (l l' : Ledger) : Prop :=
  ∀ a inst, l.approvals a = some inst → inst.status ≠ .pending →
    ∃ inst', l'.approvals a = some inst' ∧ inst'.status = inst.status

/-- The same approvals hold the same decisions. -/
lemma DecisionsKept.of_eq {l l' : Ledger} (h : l'.approvals = l.approvals) : DecisionsKept l l' :=
  fun _ inst ha _ => ⟨inst, h ▸ ha, rfl⟩

/-- A ledger keeps its own decisions. -/
lemma DecisionsKept.same {l l' : Ledger} (h : l' = l) : DecisionsKept l l' :=
  .of_eq (congrArg Ledger.approvals h)

/-- Decisions are kept over two steps. -/
lemma DecisionsKept.trans {a b c : Ledger} (h : DecisionsKept a b) (h' : DecisionsKept b c) :
    DecisionsKept a c := by
  intro k inst hk hs
  obtain ⟨inst', hk', hs'⟩ := h k inst hk hs
  obtain ⟨inst'', hk'', hs''⟩ := h' k inst' hk' (hs' ▸ hs)
  exact ⟨inst'', hk'', hs''.trans hs'⟩

/-- A new approval keeps the decisions. -/
lemma decisionsKept_ask {l : Ledger} {a : Id} (inst : ApprovalInstance)
    (ha : l.approvals a = none) : DecisionsKept l (l.ask a inst) := by
  intro k inst' hk _
  have hne : k ≠ a := by
    rintro rfl
    exact nomatch ha.symm.trans hk
  exact ⟨inst', (Table.put_of_ne _ _ hne).trans hk, rfl⟩

/-- The update of a pending approval keeps the decisions. -/
lemma decisionsKept_decide {l : Ledger} {a : Id} {inst : ApprovalInstance} (q : ApprovalPatch)
    (ha : l.approvals a = some inst) (hp : inst.status = .pending) :
    DecisionsKept l (l.decide a q) := by
  intro k inst' hk hs
  have hne : k ≠ a := by
    rintro rfl
    obtain rfl := Option.some.inj (ha.symm.trans hk)
    exact hs hp
  exact ⟨inst', (Table.modify_of_ne _ _ hne).trans hk, rfl⟩

/-- A run keeps the decisions. -/
lemma RunEntry.decisionsKept {input : ExecutorInput} (h : RunEntry cfg input w w')
    (hk : w.Keyed) : DecisionsKept w.ledger w'.ledger := by
  cases h with
  | stopped entry =>
    rw [entry]
    exact .of_eq rfl
  | ended final entry =>
    rw [entry]
    exact .of_eq rfl
  | parked inst fresh asks escalates entry =>
    rw [entry]
    exact decisionsKept_ask inst (hk.unasked (Nat.le_of_lt fresh))

/-- So does a resumption. -/
lemma ResumeEntry.decisionsKept {input : ResumeInput} (h : ResumeEntry cfg input w w')
    (hk : w.Keyed) : DecisionsKept w.ledger w'.ledger := by
  cases h with
  | refused same =>
    exact .same same
  | stopped found waits entry =>
    rw [entry]
    exact .of_eq rfl
  | ended found waits final entry =>
    rw [entry]
    exact .of_eq rfl
  | parked inst found waits fresh asks entry =>
    rw [entry]
    exact decisionsKept_ask inst (hk.unasked fresh)

/-- So does a gate. -/
lemma GateEntry.decisionsKept {toolName : String} {toolInput : Json}
    {r : Except String GateResult} (h : GateEntry cfg toolName toolInput w w' r) (hk : w.Keyed) :
    DecisionsKept w.ledger w'.ledger := by
  cases h with
  | threw entry =>
    rw [entry]
    exact .of_eq rfl
  | allowed entry =>
    rw [entry]
    exact .of_eq rfl
  | refused refuses entry =>
    rw [entry]
    exact .of_eq rfl
  | paused inst fresh asks entry =>
    rw [entry]
    exact decisionsKept_ask inst (hk.unasked (Nat.le_of_lt fresh))

/-- So does a completion. -/
lemma CompleteEntry.decisionsKept {e : Id} {outcome : GateOutcome}
    (h : CompleteEntry e outcome w w') : DecisionsKept w.ledger w'.ledger := by
  cases h with
  | refused same =>
    exact .same same
  | closed found runs entry =>
    rw [entry]
    exact .of_eq rfl

/-- So does a decision, which is made on a pending approval. -/
lemma DecideEntry.decisionsKept {a : Id} {decision : Decision} {r : Except String Unit}
    (h : DecideEntry a decision w w' r) : DecisionsKept w.ledger w'.ledger := by
  cases h with
  | refused closed same =>
    exact .same same
  | decided actor found waits entry =>
    rw [entry]
    exact decisionsKept_decide _ found waits

/-- So does a lookup. -/
lemma LookupEntry.decisionsKept {inst : ApprovalInstance} {execution : AgentExecution} {a : Id}
    (h : LookupEntry inst execution w w') (ha : w.approvals a = some inst) (hid : inst.id = a) :
    DecisionsKept w.ledger w'.ledger := by
  cases h with
  | idle notRejected same =>
    exact .same same
  | kept rejected cancelled same =>
    exact .same same
  | cancels rejected differs entry =>
    rw [entry]
    exact .of_eq rfl
  | @repairs w₁ outcome waits runs first rest =>
    have hfirst : DecisionsKept w.ledger w₁.ledger := by
      rw [first, hid]
      exact decisionsKept_decide _ ha waits
    obtain hrest | hrest := rest
    · exact hfirst.trans hrest.decisionsKept
    · exact hfirst.trans (.same hrest)
  | executes decided notRejected first rest =>
    exact (DecisionsKept.same first).trans rest.decisionsKept

/-- So does a tool call. -/
lemma GatedEntry.decisionsKept {name : String} {args : Json} (h : GatedEntry cfg name args w w')
    (hk : w.Keyed) : DecisionsKept w.ledger w'.ledger := by
  cases h with
  | stopped gate same => exact (gate.decisionsKept hk).trans (.same same)
  | executed gate same rest =>
    exact ((gate.decisionsKept hk).trans (.same same)).trans rest.decisionsKept
  | decided outcome gate same decide same' rest =>
    have htwo := (gate.decisionsKept hk).trans (.same same)
    have hfour := (htwo.trans decide.decisionsKept).trans (.same same')
    obtain hlast | hlast := rest
    · exact hfour.trans (.same hlast)
    · exact hfour.trans hlast.decisionsKept

end entries

/-! ## Operations -/

/-- The calls that the sidecar serves; the executor's resumption is reached through the console. -/
def Operation.OfSidecar : Operation → Prop
  | .resumePaused _ => False
  | _ => True

/-- The approval is one that the gate asked for. -/
def GateSourced (w : World) (a : Id) : Prop :=
  ∃ inst row, w.approvals a = some inst ∧ w.executions inst.recordId = some row ∧
    row.triggerSource = .governanceGate

/-- The operation is a decision on the approval, and it is accepted. -/
def Accepts (cfg : Config) (w : World) (a : Id) (d : Decision) : Operation → Prop
  | .postDecide a' text _ => a' = a ∧ ∃ inst, ConsoleAccepts cfg w a text d inst
  | .decideApproval a' d' _ =>
    a' = a ∧ d' = d ∧ ∃ inst, w.approvals a = some inst ∧ inst.status = .pending
  | _ => False

/-- No decision on an approval of the gate is made in the console. -/
def ByGateway (cfg : Config) (w : World) : Operation → Prop
  | .postDecide a text _ => GateSourced w a → ∀ d inst, ¬ ConsoleAccepts cfg w a text d inst
  | _ => True

/-- The condition on an operation of a run. -/
def DecidesByGateway (cfg : Config) (w : World) (op : Operation) : Prop :=
  op.OfSidecar ∧ ByGateway cfg w op

section operations
variable {cfg : Config} {ans : Answers} {w : World}

/-- A decision over HTTP keeps both. -/
lemma postDecide_coherent {a : Id} {text comment : Option String} (hk : w.Keyed)
    (hw : w.ledger.Coherent) (hby : ByGateway cfg w (.postDecide a text comment)) :
    ((postDecide cfg a text comment).run (exec ans) w).2.ledger.Coherent ∧
      DecisionsKept w.ledger ((postDecide cfg a text comment).run (exec ans) w).2.ledger := by
  obtain ⟨same, -⟩ | ⟨decision, inst, haccepts, hentry⟩ := postDecide_entry cfg ans a text comment hk
  · rw [same]
    exact ⟨hw, .of_eq rfl⟩
  · obtain ⟨row, hrow⟩ := hw.recorded a inst haccepts.found
    have hloop : row.triggerSource ≠ .governanceGate := fun hgate =>
      hby ⟨inst, row, haccepts.found, hrow, hgate⟩ decision inst haccepts
    have hdecide : ∀ q, (w.ledger.decide a q).Coherent := by
      intro q
      have h := hw.decide (q := q) (p := {}) haccepts.found fun row' hrow' hgate => by
        obtain rfl := Option.some.inj (hrow.symm.trans hrow')
        exact absurd hgate hloop
      rwa [Ledger.patch_nothing] at h
    cases hentry with
    | rejected hd entry =>
      rw [entry]
      exact ⟨hdecide _, decisionsKept_decide _ haccepts.found haccepts.waits⟩
    | @released execution hd found gate entry =>
      obtain rfl := Option.some.inj (hrow.symm.trans found)
      exact absurd gate hloop
    | resumed w₁ comment' call hd loop keyed first rest =>
      have hexec : w₁.executions = w.executions := congrArg Ledger.executions first
      refine ⟨rest.coherent (fun row' hrow' => ?_) keyed (first ▸ hdecide _), ?_⟩
      · rw [hexec] at hrow'
        exact loop row' hrow'
      · have hfirst : DecisionsKept w.ledger w₁.ledger := by
          rw [first]
          exact decisionsKept_decide _ haccepts.found haccepts.waits
        exact hfirst.trans (rest.decisionsKept keyed)

/-- An operation that meets the condition keeps the rows coherent and the decisions made. -/
lemma serve_coherent (op : Operation) (hk : w.Keyed) (hw : w.ledger.Coherent)
    (hop : DecidesByGateway cfg w op) :
    (serve cfg ans w op).ledger.Coherent ∧ DecisionsKept w.ledger (serve cfg ans w op).ledger := by
  obtain ⟨hside, hby⟩ := hop
  -- one case for each operation, by the entry that it leaves
  cases op with
  | run input =>
    simp only [serve, Operation.program, Prog.pure_eq, Prog.run_bind_ret]
    have hentry := run_entry cfg ans input w
    exact ⟨hentry.coherent hk hw, hentry.decisionsKept hk⟩
  | resumePaused input => exact hside.elim
  | gate toolName toolInput =>
    simp only [serve, Operation.program, Prog.pure_eq, Prog.run_bind_ret]
    have hentry := gate_entry cfg ans toolName toolInput hk
    exact ⟨hentry.coherent hk hw, hentry.decisionsKept hk⟩
  | complete e outcome =>
    have hentry := complete_entry cfg ans e outcome w
    exact ⟨hentry.coherent hw, hentry.decisionsKept⟩
  | postDecide a text comment =>
    simp only [serve, Operation.program, Prog.pure_eq, Prog.run_bind_ret]
    exact postDecide_coherent hk hw hby
  | decideApproval a decision actor =>
    have hentry := decideApproval_entry ans a decision actor hk
    exact ⟨hentry.coherent hw, hentry.decisionsKept⟩
  | toolsCall elicitation name args =>
    simp only [serve, Operation.program, Prog.pure_eq, Prog.run_bind_ret]
    cases toolsCall_entry cfg ans elicitation name args hk with
    | idle same lookups gates =>
      rw [same]
      exact ⟨hw, .of_eq rfl⟩
    | @lookup a row execution looks target found runs entry =>
      have hid := (hk.approvals a row found).1
      exact ⟨entry.coherent found hid runs hw, entry.decisionsKept found hid⟩
    | gated gates known entry => exact ⟨entry.coherent hk hw, entry.decisionsKept hk⟩

end operations

/-! ## Runs -/

/-- The approval carries the decision and its execution follows it. -/
def BothWritten (w : World) (a : Id) (d : Decision) : Prop :=
  ∃ inst row, w.approvals a = some inst ∧ w.executions inst.recordId = some row ∧
    inst.status = d.status ∧
    row.status = match d with
      | .approved => .running
      | .rejected => .cancelled

/-- The invariant of a run. -/
structure Orderly (w : World) : Prop where
  keyed : w.Keyed
  coherent : w.ledger.Coherent

/-- An empty store is orderly. -/
lemma empty_orderly : Orderly .empty :=
  ⟨empty_keyed, (fun _ _ h => nomatch h), (fun _ _ _ h => nomatch h),
    fun _ _ _ _ _ h => nomatch h⟩

section runs
variable {cfg : Config} {ans : Answers}

/-- A request leaves the store orderly. -/
lemma Orderly.serve {w : World} {op : Operation} (hw : Orderly w)
    (hop : DecidesByGateway cfg w op) : Orderly (serve cfg ans w op) :=
  ⟨serve_keyed cfg ans op hw.keyed, (serve_coherent op hw.keyed hw.coherent hop).1⟩

/-- A decision that the gateway accepts reaches both rows. -/
lemma Orderly.bothWritten {w : World} {op : Operation} {a : Id} {d : Decision} (hw : Orderly w)
    (hop : DecidesByGateway cfg w op) (hgate : GateSourced w a) (ha : Accepts cfg w a d op) :
    BothWritten (Governance.serve cfg ans w op) a d := by
  cases op with
  | postDecide a' text comment =>
    obtain ⟨rfl, inst, haccepts⟩ := ha
    exact absurd haccepts (hop.2 hgate d inst)
  | decideApproval a' d' actor =>
    obtain ⟨rfl, rfl, inst, hinst, hpending⟩ := ha
    have hentry := decideApproval_entry ans a' d' actor hw.keyed
    show BothWritten ((decideApproval a' d' actor).run (exec ans) w).2 a' d'
    generalize (decideApproval a' d' actor).run (exec ans) w = out at hentry
    obtain ⟨r, w'⟩ := out
    -- one case for each entry that the decision can leave
    cases hentry with
    | refused closed same => exact absurd hpending (closed inst hinst)
    | @decided inst' actor found waits entry =>
      obtain rfl := Option.some.inj (hinst.symm.trans found)
      obtain ⟨row, hrow⟩ := hw.coherent.recorded a' inst hinst
      have happroval := congrFun (congrArg Ledger.approvals entry) a'
      have hexecution := congrFun (congrArg Ledger.executions entry) inst.recordId
      rw [Ledger.patch_approvals] at happroval
      have hdecided := happroval.trans (Table.modify_some _ hinst)
      rw [Ledger.patch_found (l := w.ledger.decide a' _) hrow] at hexecution
      refine ⟨_, _, hdecided, hexecution, rfl, ?_⟩
      cases d' <;> rfl
  | run input => exact ha.elim
  | resumePaused input => exact ha.elim
  | gate toolName toolInput => exact ha.elim
  | complete e outcome => exact ha.elim
  | toolsCall elicitation name args => exact ha.elim

/-- A decision is accepted on a pending approval. -/
lemma Accepts.pending {w : World} {op : Operation} {a : Id} {d : Decision}
    (h : Accepts cfg w a d op) : ∃ inst, w.approvals a = some inst ∧ inst.status = .pending := by
  cases op with
  | postDecide a' text comment =>
    obtain ⟨-, inst, haccepts⟩ := h
    exact ⟨inst, haccepts.found, haccepts.waits⟩
  | decideApproval a' d' actor => exact h.2.2
  | run input => exact h.elim
  | resumePaused input => exact h.elim
  | gate toolName toolInput => exact h.elim
  | complete e outcome => exact h.elim
  | toolsCall elicitation name args => exact h.elim

/-- A run of requests keeps the decisions. -/
lemma decisionsKept_run {w : World} {ops : List Operation} (hw : Orderly w)
    (h : Meets (serve cfg ans) (DecidesByGateway cfg) w ops) :
    DecisionsKept w.ledger (serveAll cfg ans w ops).ledger :=
  h.follows (I := Orderly) (T := fun a b => DecisionsKept a.ledger b.ledger)
    (fun _ => .of_eq rfl) (fun _ _ _ => .trans) (fun _ _ hw hop => hw.serve hop)
    (fun _ op hw hop => (serve_coherent op hw.keyed hw.coherent hop).2) hw

/-- A run of requests leaves the store orderly. -/
lemma orderly_run {w : World} {ops : List Operation} (hw : Orderly w)
    (h : Meets (serve cfg ans) (DecidesByGateway cfg) w ops) : Orderly (serveAll cfg ans w ops) :=
  h.inv (fun _ _ hw hop => hw.serve hop) hw

end runs

/-- Decisions on the gate's approvals, in a run that makes them through the gateway: an accepted one
reaches both rows, no later one on the same approval is accepted, and the execution of a rejected
approval is never found running. -/
theorem decisions_final (cfg : Config) (ans : Answers) (ops : List Operation)
    (h : Meets (serve cfg ans) (DecidesByGateway cfg) .empty ops) (a : Id) :
    (∀ before op after d, ops = before ++ op :: after →
      GateSourced (serveAll cfg ans .empty before) a →
      Accepts cfg (serveAll cfg ans .empty before) a d op →
      BothWritten (serveAll cfg ans .empty (before ++ [op])) a d ∧
        ∀ stretch op' rest d', after = stretch ++ op' :: rest →
          ¬ Accepts cfg (serveAll cfg ans .empty (before ++ op :: stretch)) a d' op') ∧
    ∀ before stretch after inst inst' row, ops = before ++ stretch ++ after →
      (serveAll cfg ans .empty before).approvals a = some inst → inst.status = .rejected →
      (serveAll cfg ans .empty (before ++ stretch)).approvals a = some inst' →
      (serveAll cfg ans .empty (before ++ stretch)).executions inst'.recordId = some row →
      row.triggerSource = .governanceGate → row.status = .cancelled := by
  constructor
  · rintro before op after d rfl hgate haccepts
    obtain ⟨hbefore, hop, hafter⟩ := meets_append.mp h
    have hw : Orderly (serveAll cfg ans .empty before) := orderly_run empty_orderly hbefore
    have hboth : BothWritten (serve cfg ans (serveAll cfg ans .empty before) op) a d :=
      hw.bothWritten hop hgate haccepts
    refine ⟨by rw [serveAll_append]; exact hboth, ?_⟩
    rintro stretch op' rest d' rfl haccepts'
    -- The decision is on the row, and the row keeps it up to the second decision.
    obtain ⟨inst, row, hinst, -, hstatus, -⟩ := hboth
    have hkept := decisionsKept_run (hw.serve hop) (meets_append.mp hafter).1
    have hdecided : inst.status ≠ .pending := by
      rw [hstatus]
      cases d <;> decide
    obtain ⟨inst', hinst', hsame⟩ := hkept a inst hinst hdecided
    obtain ⟨inst'', hinst'', hpending⟩ := haccepts'.pending
    rw [serveAll_append, serveAll_cons] at hinst''
    obtain rfl := Option.some.inj (hinst'.symm.trans hinst'')
    exact hdecided (hsame.symm.trans hpending)
  · rintro before stretch after inst inst' row rfl hinst hrejected hinst' hrow hgate
    have hmeets := (meets_append.mp h).1
    have hkept := decisionsKept_run (orderly_run empty_orderly (meets_append.mp hmeets).1)
      (meets_append.mp hmeets).2
    have hlater := orderly_run empty_orderly hmeets
    obtain ⟨inst'', hinst'', hsame⟩ := hkept a inst hinst (by rw [hrejected]; decide)
    rw [serveAll_append] at hinst'
    obtain rfl := Option.some.inj (hinst''.symm.trans hinst')
    rw [← serveAll_append] at hinst'
    have hcoherent := hlater.coherent.coherent a inst'' row hinst' hrow hgate
    rw [hsame, hrejected] at hcoherent
    exact hcoherent

/-- The console writes one of the two rows: the execution on an approval, the approval row on a
rejection. -/
lemma console_writes_one {cfg : Config} {ans : Answers} {w : World} {a : Id} {d : Decision}
    {text : Option String} {inst : ApprovalInstance} (comment : Option String) (hw : Orderly w)
    (hgate : GateSourced w a) (haccepts : ConsoleAccepts cfg w a text d inst) :
    ¬ BothWritten (serve cfg ans w (.postDecide a text comment)) a d := by
  simp only [serve, Operation.program, Prog.pure_eq, Prog.run_bind_ret]
  rintro ⟨inst', row', hinst', hrow', hstatus, hexec⟩
  obtain ⟨inst₀, row, hinst₀, hrow, hsource⟩ := hgate
  obtain rfl := Option.some.inj (haccepts.found.symm.trans hinst₀)
  obtain ⟨-, hrefused⟩ | ⟨decision, inst₁, haccepts', hentry⟩ :=
    postDecide_entry cfg ans a text comment hw.keyed
  · exact hrefused d inst haccepts
  · obtain rfl := Option.some.inj (haccepts.normal.symm.trans haccepts'.normal)
    obtain rfl := Option.some.inj (haccepts.found.symm.trans haccepts'.found)
    generalize ((postDecide cfg a text comment).run (exec ans) w).2 = w' at hentry hinst' hrow'
    change w'.ledger.approvals a = some inst' at hinst'
    change w'.ledger.executions inst'.recordId = some row' at hrow'
    cases hentry with
    | rejected hd entry =>
      rw [entry] at hinst' hrow'
      obtain rfl := Option.some.inj ((Table.modify_some _ haccepts.found).symm.trans hinst')
      obtain rfl := Option.some.inj (hrow.symm.trans hrow')
      have hcoherent := hw.coherent.coherent a inst row haccepts.found hrow hsource
      rw [haccepts.waits] at hcoherent
      rw [hd] at hexec
      cases hexec.symm.trans hcoherent
    | released hd found gate entry =>
      rw [entry] at hinst'
      obtain rfl := Option.some.inj (haccepts.found.symm.trans hinst')
      rw [hd, haccepts.waits] at hstatus
      cases hstatus
    | resumed w₁ comment' call hd loop keyed first rest => exact absurd hsource (loop row hrow)

/-- The approval of `pausedWorld`: the gate asked for it, and its text can be decoded. -/
lemma pausedWorld_waits : ∃ inst row, pausedWorld.approvals 3 = some inst ∧
    pausedWorld.executions inst.recordId = some row ∧ row.triggerSource = .governanceGate ∧
    inst.status = .pending ∧ ∃ call, decideResumeCall .small inst = .ok call := by
  have hsource : ((pausedWorld.approvals 3).bind fun inst =>
      (pausedWorld.executions inst.recordId).map (·.triggerSource)) = some .governanceGate := by
    decide +kernel
  have hpending : (pausedWorld.approvals 3).map (fun inst =>
      (inst.status, (decideResumeCall .small inst).toOption.isSome)) = some (.pending, true) := by
    decide +kernel
  obtain ⟨inst, hinst, hsource⟩ := Option.bind_eq_some_iff.mp hsource
  obtain ⟨row, hrow, hsource⟩ := Option.map_eq_some_iff.mp hsource
  rw [hinst, Option.map_some, Option.some.injEq, Prod.mk.injEq] at hpending
  refine ⟨inst, row, hinst, hrow, hsource, hpending.1, ?_⟩
  cases hcall : decideResumeCall .small inst with
  | ok call => exact ⟨call, rfl⟩
  | error e =>
    rw [hcall] at hpending
    exact nomatch hpending.2

/-- A gated call that the gateway approves. -/
theorem gateway_approval_written :
    BothWritten (serveAll .small .small .empty
      [.gate "mail__send" .empty, .decideApproval 3 .approved "alice"]) 3 .approved := by
  obtain ⟨inst, row, hinst, hrow, hsource, hpending, -⟩ := pausedWorld_waits
  have hfinal := decisions_final .small .small
    [.gate "mail__send" .empty, .decideApproval 3 .approved "alice"]
    ⟨⟨trivial, trivial⟩, ⟨trivial, trivial⟩, trivial⟩ 3
  exact (hfinal.1 [.gate "mail__send" .empty] (.decideApproval 3 .approved "alice") [] .approved rfl
    ⟨inst, row, hinst, hrow, hsource⟩ ⟨rfl, rfl, inst, hinst, hpending⟩).1

/-- A gated call that the console approves: its approval is still pending afterwards. -/
theorem console_approval_pending :
    ¬ ∀ a d op, GateSourced pausedWorld a → Accepts .small pausedWorld a d op →
      BothWritten (serve .small .small pausedWorld op) a d := by
  intro h
  have hw : Orderly (serve .small .small .empty (.gate "mail__send" .empty)) :=
    empty_orderly.serve ⟨trivial, trivial⟩
  obtain ⟨inst, row, hinst, hrow, hsource, hpending, hdecodes⟩ := pausedWorld_waits
  have hgate : GateSourced pausedWorld 3 := ⟨inst, row, hinst, hrow, hsource⟩
  have haccepts : ConsoleAccepts .small pausedWorld 3 (some "APPROVED") .approved inst :=
    ⟨by decide +kernel, hinst, hpending, hdecodes⟩
  exact console_writes_one none hw hgate haccepts
    (h 3 .approved (.postDecide 3 (some "APPROVED") none) hgate ⟨rfl, inst, haccepts⟩)

end NexusClaw.Governance
