import NexusClaw.Concurrent.Exclusive
import NexusClaw.Governance.Growth

/-!
# Resuming a paused execution

Any number of approve requests for one approval, through the console or straight to `resumePaused`,
interleaved statement by statement. `resumePaused` reads the status of the execution, and only its
next statement writes `running`; the results here are about the runs in which that write still finds
the execution waiting for this approval.

The argument: a request has the right to resume once it wrote `running`. From then on the execution
is no longer pending, or it is pending because the loop created a newer approval; so no second
request gets the right, and the one that has it runs the tool and persists the step once.
-/

namespace NexusClaw.Governance
open Concurrent

/-! ## What is counted -/

/-- How often the registry ran a tool on behalf of the approval `a`. -/
def resumedCalls (a : Id) (w : World) : Nat :=
  w.trace.countP fun
    | .toolBody (.resume b) _ _ => b = a
    | _ => false

/-- How many "approved resume" steps were persisted for the approval `a`. -/
def resumedSteps (a : Id) (w : World) : Nat :=
  w.steps.countP fun row => row.origin = .resume a

def runsTool (a : Id) : Sigma Stmt.Resp → Prop
  | ⟨.runTool origin _ _, _⟩ => origin = .resume a
  | _ => False

def persists (a : Id) : Sigma Stmt.Resp → Prop
  | ⟨.createStep row, _⟩ => row.origin = .resume a
  | _ => False

/-! ## Approve requests -/

/-- A decision on the approval `a` in the console, or a resume of the execution `e` for it. -/
def Operation.Approves (a e : Id) : Operation → Prop
  | .postDecide approvalId _ _ => approvalId = a
  | .resumePaused input => input.approvalInstanceId = a ∧ input.executionId = e
  | _ => False

/-- The request updated an approval by its key. -/
def decides : Sigma Stmt.Resp → Prop
  | ⟨.updateApproval _ _, _⟩ => True
  | _ => False

/-- The request set the execution `e` to running. -/
def starts (e : Id) : Sigma Stmt.Resp → Prop
  | ⟨.updateExecution id patch, _⟩ => id = e ∧ patch.status = some .running
  | _ => False

/-- The request is a resume, or a console decision that got past the update of the approval, so
that its next step is the resume. -/
def Operation.Resuming (op : Operation) (h : History Stmt Stmt.Resp) : Prop :=
  match op with
  | .resumePaused _ => True
  | .postDecide _ _ _ => Did decides h
  | _ => False

/-- The resume of the request is under way. -/
def Operation.Resumed (e : Id) (op : Operation) (h : History Stmt Stmt.Resp) : Prop :=
  op.Resuming h ∧ Did (starts e) h

/-- A resumption stays one in a longer history. -/
lemma Operation.Resuming.mono {op : Operation} {h h' : History Stmt Stmt.Resp}
    (hr : op.Resuming h) (hs : h ⊆ h') : op.Resuming h' := by
  cases op with
  | postDecide a decision comment => exact Did.mono hr hs
  | _ => exact hr

/-- So does one that is over. -/
lemma Operation.Resumed.mono {e : Id} {op : Operation} {h h' : History Stmt Stmt.Resp}
    (hr : op.Resumed e h) (hs : h ⊆ h') : op.Resumed e h' :=
  ⟨hr.1.mono hs, hr.2.mono hs⟩

/-- Only the two updates can make a request one that resumes. -/
lemma Operation.Resumed.before {e : Id} {op : Operation} {h : History Stmt Stmt.Resp} {s : Stmt}
    {r : s.Resp} (hr : op.Resumed e (h ++ [⟨s, r⟩])) (hd : ¬ decides ⟨s, r⟩)
    (hs : ¬ starts e ⟨s, r⟩) : op.Resumed e h := by
  obtain ⟨hop, hstart⟩ := hr
  refine ⟨?_, ((did_concat ..).mp hstart).resolve_right hs⟩
  cases op with
  | postDecide a decision comment => exact ((did_concat ..).mp hop).resolve_right hd
  | _ => exact hop

/-- The loop went on to a newer approval for the execution. -/
def Reasked (a e : Id) (w : World) : Prop :=
  ∃ b row, a < b ∧ w.approvals b = some row ∧ row.recordId = e

/-- An approval that was asked for again stays so. -/
lemma Reasked.grows {a e : Id} {w w' : World} (h : Reasked a e w) (hg : w.Grows w') :
    Reasked a e w' := by
  obtain ⟨b, row, hab, hrow, he⟩ := h
  obtain ⟨row', hrow', hsame⟩ := hg.approvals b row hrow
  exact ⟨b, row', hab, hrow', hsame.recordId.trans he⟩

/-- The execution is not pending. -/
def Underway (e : Id) (w : World) : Prop :=
  ∀ row, w.executions e = some row → row.status ≠ .guardrailPending

/-- The execution `e` is paused and the approval `a` is the one it waits for. -/
def Awaits (a e : Id) (w : World) : Prop :=
  ¬ Underway e w ∧ ¬ Reasked a e w

section run
variable {ι : Type} [DecidableEq ι]

/-- A resume writes `running` only while the execution still waits for the approval. -/
def ResumesAwaiting (a e : Id) (ops : ι → Operation) (w : World)
    (H : ι → History Stmt Stmt.Resp) (i : ι) (s : Stmt) : Prop :=
  ∀ patch, s = .updateExecution e patch → patch.status = some .running →
    (ops i).Resuming (H i) → Awaits a e w

/-- What holds of the approval `a`, the execution `e` and the histories of all requests. -/
structure ResumeInv (a e : Id) (ops : ι → Operation) (w₀ w : World)
    (H : ι → History Stmt Stmt.Resp) : Prop where
  keyed : w.Keyed
  approval : ∃ row, w.approvals a = some row ∧ row.recordId = e
  reasked : ∀ i, Did (Asked e) (H i) → Reasked a e w
  passed : ∀ i, (ops i).Resumed e (H i) → Reasked a e w ∨ Underway e w
  calls : Exclusive (fun i => (ops i).Resumed e) (runsTool a) (resumedCalls a) (resumedCalls a w₀) w H
  steps : Exclusive (fun i => (ops i).Resumed e) (persists a) (resumedSteps a) (resumedSteps a w₀) w H

variable {a e : Id} {cfg : Config} {ans : Answers} {ops : ι → Operation} {w₀ w : World}
  {H : ι → History Stmt Stmt.Resp} {i : ι} {h : History Stmt Stmt.Resp}

/-! ## What a step keeps -/

/-- A step that keeps the two counts exclusive and leaves an execution that was resumed underway. -/
lemma ResumeInv.next {s : Stmt} (hI : ResumeInv a e ops w₀ w H) (hs : s.noSave)
    (hpassed : ∀ j, (ops j).Resumed e (observe H i s (exec ans s w).2 j) →
      Reasked a e w ∨ Underway e (exec ans s w).1)
    (hcalls : Exclusive (fun i => (ops i).Resumed e) (runsTool a) (resumedCalls a)
      (resumedCalls a w₀) (exec ans s w).1 (observe H i s (exec ans s w).2))
    (hsteps : Exclusive (fun i => (ops i).Resumed e) (persists a) (resumedSteps a)
      (resumedSteps a w₀) (exec ans s w).1 (observe H i s (exec ans s w).2)) :
    ResumeInv a e ops w₀ (exec ans s w).1 (observe H i s (exec ans s w).2) := by
  have hg : w.Grows (exec ans s w).1 := exec_grows hs hI.keyed
  obtain ⟨row, hrow, hrec⟩ := hI.approval
  constructor
  case keyed => exact exec_keyed hs hI.keyed
  case approval =>
    obtain ⟨row', hrow', hsame⟩ := hg.approvals a row hrow
    exact ⟨row', hrow', hsame.recordId.trans hrec⟩
  case reasked =>
    intro j hj
    obtain hj | ⟨rfl, hnew⟩ := (did_observe ..).mp hj
    · exact (hI.reasked j hj).grows hg
    -- the approval is a stored one, so that no statement creates it
    · cases s with
      | createApproval r =>
        have ha : a < w.clock := (hI.keyed.approvals a row hrow).2
        exact ⟨w.clock, _, ha, Table.put_self .., hnew⟩
      | _ => exact absurd hnew id
  case passed =>
    intro j hj
    obtain hr | hu := hpassed j hj
    · exact .inl (hr.grows hg)
    · exact .inr hu
  case calls => exact hcalls
  case steps => exact hsteps

/-- The statements of an approve request `op` besides its two updates: the execution leaves
`running` only for a final status or for an approval that was asked for, and what is done on behalf
of the approval `a` is done by right and for the first time. -/
def Stmt.resumes (a e : Id) (op : Operation) (h : History Stmt Stmt.Resp) : Stmt → Prop
  | .updateExecution id patch =>
    id = e ∧ ∃ status, patch.status = some status ∧ status ≠ .running ∧
      (status = .guardrailPending → Did (Asked e) h)
  | .createStep row => row.origin = .resume a → op.Resumed e h ∧ ¬ Did (persists a) h
  | .runTool origin _ _ => origin = .resume a → op.Resumed e h ∧ ¬ Did (runsTool a) h
  | .createExecution _ => False
  | .updateApproval _ _ => False
  | .saveApproval _ => False
  | _ => True

/-- A resumption saves no row whole. -/
lemma Stmt.resumes.noSave {op : Operation} {s : Stmt} (hs : s.resumes a e op h) : s.noSave := by
  cases s with
  | saveApproval row => exact hs
  | _ => trivial

/-- A statement of a resumption is no decision. -/
lemma Stmt.resumes.not_decides {op : Operation} {s : Stmt} (hs : s.resumes a e op h)
    (r : s.Resp) : ¬ decides ⟨s, r⟩ := by
  cases s with
  | updateApproval id patch => exact fun _ => hs
  | _ => exact id

/-- It starts nothing. -/
lemma Stmt.resumes.not_starts {op : Operation} {s : Stmt} (hs : s.resumes a e op h)
    (r : s.Resp) : ¬ starts e ⟨s, r⟩ := by
  cases s with
  | updateExecution id patch =>
    rintro ⟨-, hrun⟩
    obtain ⟨-, status, hstatus, hne, -⟩ := hs
    rw [hrun] at hstatus
    exact hne (Option.some.inj hstatus).symm
  | _ => exact id

omit [DecidableEq ι] in
/-- Such a statement leaves an execution that is underway so, unless a newer approval exists. -/
lemma Stmt.resumes.underway {op : Operation} {s : Stmt} (hs : s.resumes a e op (H i))
    (hI : ResumeInv a e ops w₀ w H) (hu : Underway e w) :
    Reasked a e w ∨ Underway e (exec ans s w).1 := by
  cases s with
  | updateExecution id patch =>
    obtain ⟨rfl, status, hstatus, -, hasked⟩ := hs
    by_cases hp : status = .guardrailPending
    · exact .inl (hI.reasked i (hasked hp))
    · refine .inr fun row hrow => ?_
      obtain ⟨old, -, rfl⟩ := Table.modify_eq_some hrow
      rw [if_pos rfl, AgentExecution.patch_status, hstatus]
      exact hp
  | createExecution row => exact absurd hs id
  | _ => exact .inr hu

/-- A statement that runs no tool leaves the calls. -/
lemma resumedCalls_exec {s : Stmt} (hs : ∀ r, ¬ runsTool a ⟨s, r⟩) :
    resumedCalls a (exec ans s w).1 = resumedCalls a w := by
  cases s with
  | runTool origin name input =>
    have ho : ¬ origin = .resume a := hs (ans.toolBody w.clock name input)
    cases origin with
    | loop => simp [resumedCalls, exec]
    | resume b =>
      have hb : b ≠ a := fun hb => ho (congrArg _ hb)
      simp [resumedCalls, exec, hb]
  | chat messages => simp [resumedCalls, exec]
  | callTool approvalId tool args => simp [resumedCalls, exec]
  | _ => rfl

/-- A statement that stores no step leaves the steps. -/
lemma resumedSteps_exec {s : Stmt} (hs : ∀ r, ¬ persists a ⟨s, r⟩) :
    resumedSteps a (exec ans s w).1 = resumedSteps a w := by
  cases s with
  | createStep row =>
    have ho : ¬ row.origin = .resume a := hs ()
    simp [resumedSteps, exec, ho]
  | _ => rfl

/-- The step rule for these statements. -/
lemma ResumeInv.step {s : Stmt} (hI : ResumeInv a e ops w₀ w H)
    (hs : s.resumes a e (ops i) (H i)) :
    ResumeInv a e ops w₀ (exec ans s w).1 (observe H i s (exec ans s w).2) := by
  have hmono : (ops i).Resumed e (H i) → (ops i).Resumed e (H i ++ [⟨s, (exec ans s w).2⟩]) :=
    fun hr => hr.mono (List.subset_append_left ..)
  have hback : (ops i).Resumed e (H i ++ [⟨s, (exec ans s w).2⟩]) → (ops i).Resumed e (H i) :=
    fun hr => hr.before (hs.not_decides _) (hs.not_starts _)
  refine hI.next hs.noSave ?_ ?_ ?_
  · intro j hj
    have hold : (ops j).Resumed e (H j) := by
      by_cases ej : j = i
      · subst ej
        rw [observe_self] at hj
        exact hback hj
      · rwa [observe_of_ne H _ _ ej] at hj
    obtain hr | hu := hI.passed j hold
    · exact .inl hr
    · exact hs.underway hI hu
  -- a step that is no tool call on this approval leaves the count of calls as it is
  · by_cases hd : ∃ r, runsTool a ⟨s, r⟩
    · obtain ⟨r, hd⟩ := hd
      cases s with
      | runTool origin name input =>
        have ho : origin = .resume a := hd
        obtain ⟨hr, hnot⟩ := hs ho
        refine hI.calls.perform hd hr hnot hmono ?_
        simp [resumedCalls, exec, ho]
      | _ => exact absurd hd id
    · have hd := not_exists.mp hd
      exact hI.calls.keep (hd _) hmono (fun hr => .inl (hback hr)) (resumedCalls_exec hd)
  · by_cases hd : ∃ r, persists a ⟨s, r⟩
    · obtain ⟨r, hd⟩ := hd
      cases s with
      | createStep row =>
        have ho : row.origin = .resume a := hd
        obtain ⟨hr, hnot⟩ := hs ho
        refine hI.steps.perform hd hr hnot hmono ?_
        simp [resumedSteps, exec, ho]
      | _ => exact absurd hd id
    · have hd := not_exists.mp hd
      exact hI.steps.keep (hd _) hmono (fun hr => .inl (hback hr)) (resumedSteps_exec hd)

/-- The step that sets the execution to running: a resume does it only while the execution waits for
the approval, so nobody else has resumed. -/
lemma ResumeInv.release {patch : ExecutionPatch} (hI : ResumeInv a e ops w₀ w H)
    (hp : patch.status = some .running) (hG : (ops i).Resuming (H i) → Awaits a e w) :
    ResumeInv a e ops w₀ (exec ans (.updateExecution e patch) w).1
      (observe H i (.updateExecution e patch) ()) := by
  have hmono : (ops i).Resumed e (H i) →
      (ops i).Resumed e (H i ++ [⟨.updateExecution e patch, ()⟩]) :=
    fun hr => hr.mono (List.subset_append_left ..)
  have halone : (ops i).Resumed e (H i ++ [⟨.updateExecution e patch, ()⟩]) →
      ∀ j, j ≠ i → ¬ (ops j).Resumed e (H j) := by
    rintro ⟨hop, -⟩ j - hj
    have hres : (ops i).Resuming (H i) := by
      cases hopi : ops i with
      | postDecide b decision comment =>
        rw [hopi] at hop
        exact ((did_concat ..).mp hop).resolve_right id
      | _ =>
        rw [hopi] at hop
        exact hop
    obtain ⟨hu, hr⟩ := hG hres
    exact (hI.passed j hj).elim hr hu
  refine hI.next trivial (fun j _ => .inr fun row hrow => ?_) ?_ ?_
  · obtain ⟨old, -, rfl⟩ := Table.modify_eq_some hrow
    rw [if_pos rfl, AgentExecution.patch_status, hp]
    exact nofun
  · exact hI.calls.keep id hmono (fun hr => .inr (halone hr)) rfl
  · exact hI.steps.keep id hmono (fun hr => .inr (halone hr)) rfl

/-- The update of the approval, before the request touched the execution. -/
lemma ResumeInv.decide {id : Id} {patch : ApprovalPatch} (hI : ResumeInv a e ops w₀ w H)
    (hnot : ¬ Did (starts e) (H i)) :
    ResumeInv a e ops w₀ (exec ans (.updateApproval id patch) w).1
      (observe H i (.updateApproval id patch) ()) := by
  have hno : ¬ (ops i).Resumed e (H i ++ [⟨.updateApproval id patch, ()⟩]) := by
    rintro ⟨-, hs⟩
    exact ((did_concat ..).mp hs).elim hnot (fun hs => hs)
  have hmono : (ops i).Resumed e (H i) →
      (ops i).Resumed e (H i ++ [⟨.updateApproval id patch, ()⟩]) :=
    fun hr => absurd hr.2 hnot
  refine hI.next trivial ?_ ?_ ?_
  · intro j hj
    by_cases ej : j = i
    · subst ej
      rw [observe_self] at hj
      exact absurd hj hno
    · rw [observe_of_ne H _ _ ej] at hj
      exact hI.passed j hj
  · exact hI.calls.keep (fun hd => hd) hmono (fun hr => absurd hr hno) rfl
  · exact hI.steps.keep (fun hd => hd) hmono (fun hr => absurd hr hno) rfl

/-! ## The outlines -/

/-- The loop after the resume does nothing on behalf of the approval. -/
lemma Stmt.loopsFor.resumes {op : Operation} {s : Stmt} (hs : s.loopsFor cfg e .loop h) :
    s.resumes a e op h := by
  cases s with
  | updateExecution id patch =>
    obtain ⟨hid, hstatus, -, hasked⟩ := hs
    exact ⟨hid, .guardrailPending, hstatus, nofun, fun _ => hasked⟩
  | createStep row => exact fun ho => nomatch hs.2.symm.trans ho
  | runTool origin name input => exact fun ho => nomatch hs.symm.trans ho
  | createExecution row => exact absurd hs id
  | updateApproval id patch => exact hs.elim
  | saveApproval row => exact absurd hs id
  | _ => trivial

/-- The tool call and the step of the resume, each done for the first time. -/
lemma resumeApproved_resumes {op : Operation} (context : LoopContext) (call : PausedToolCall)
    (hr : op.Resumed e h) (htool : ¬ Did (runsTool a) h) (hstep : ¬ Did (persists a) h) :
    Along (Stmt.resumes a e op) (fun _ context' => context.Continues context') h
      (resumeApproved cfg a context call) := by
  have hregistry : ∀ h name input allowed, op.Resumed e h → ¬ Did (runsTool a) h →
      ¬ Did (persists a) h → Along (Stmt.resumes a e op)
        (fun h' _ => op.Resumed e h' ∧ ¬ Did (persists a) h') h
        (registryExecute cfg (.resume a) name input allowed) := by
    intro h name input allowed hr htool hstep
    refine along_ite.mpr ⟨fun _ => ⟨hr, hstep⟩, fun _ => along_ite.mpr ⟨fun _ => ⟨hr, hstep⟩, fun _ => ?_⟩⟩
    refine Along.call (fun _ => ⟨hr, htool⟩) fun result => ?_
    have hr' := hr.mono (List.subset_append_left h [⟨.runTool (.resume a) name input, result⟩])
    cases result with
    | ok value => exact ⟨hr', by simp [hstep, persists]⟩
    | error error => exact ⟨hr', by simp [hstep, persists]⟩
  have hfinalize : ∀ h id input, op.Resumed e h → ¬ Did (persists a) h → Along (Stmt.resumes a e op)
      (fun h' _ => op.Resumed e h' ∧ ¬ Did (persists a) h') h (finalize id input) := by
    intro h id input hr hstep
    refine Along.of_uses (F := fun s => ∃ id expected patch, s = .transitionToolCall id expected patch)
      ?_ ⟨hr, hstep⟩ ?_ ?_
    · exact uses_finalize fun patch => ⟨_, _, _, rfl⟩
    · rintro _ _ ⟨id, expected, patch, rfl⟩ _
      trivial
    · rintro _ _ _ ⟨id, expected, patch, rfl⟩ ⟨h1, h2⟩
      exact ⟨h1.mono (List.subset_append_left ..), by simp [h2, persists]⟩
  refine Along.bind (Q := fun h' _ => op.Resumed e h' ∧ ¬ Did (persists a) h') ?_ ?_
  · have hunnamed : ∀ name, Along (Stmt.resumes a e op)
        (fun h' _ => op.Resumed e h' ∧ ¬ Did (persists a) h') h
        (executeUnnamedTool cfg context name) := by
      refine fun name => Along.call trivial fun call => ?_
      refine Along.bind (hfinalize _ _ _ (hr.mono (List.subset_append_left ..)) ?_) fun _ _ hJ => hJ
      simp [hstep, persists]
    -- only a call that names a tool comes to the registry
    cases call.toolName with
    | none => trivial
    | some name =>
      cases name with
      | null => trivial
      | str name =>
        refine Along.call trivial fun call => ?_
        refine Along.bind (hregistry _ _ _ _ (hr.mono (List.subset_append_left ..)) ?_ ?_) ?_
        · simp [htool, runsTool]
        · simp [hstep, persists]
        · intro h' result hpost
          exact Along.bind (hfinalize _ _ _ hpost.1 hpost.2) fun _ _ hJ => hJ
      | _ => exact hunnamed _
  · intro h' result hpost
    exact Along.call (fun _ => hpost) fun _ => ⟨rfl, rfl⟩

/-- The outline of request `i`. -/
abbrev ResumeOutline (a e : Id) (ans : Answers) (ops : ι → Operation) (w₀ : World) (i : ι)
    {α : Type} (h : History Stmt Stmt.Resp) (p : Act α) : Prop :=
  Outline (exec ans) (ResumeInv a e ops w₀) (ResumesAwaiting a e ops) (fun _ _ => True) i h p

/-- A computed result in front of the rest. -/
lemma outline_ofExcept {α β : Type} {x : Except String α} {f : α → Act β}
    (hf : ∀ v, x = .ok v → ResumeOutline a e ans ops w₀ i h (f v)) :
    ResumeOutline a e ans ops w₀ i h (Act.ofExcept x >>= f) := by
  cases x with
  | ok v => exact hf v rfl
  | error error => trivial

/-- `resumePaused` from the state check on. -/
lemma resumePaused_outline {input : ResumeInput} (ha : input.approvalInstanceId = a)
    (he : input.executionId = e) (hop : (ops i).Resuming h) (htool : ¬ Did (runsTool a) h)
    (hstep : ¬ Did (persists a) h) :
    ResumeOutline a e ans ops w₀ i h (resumePaused cfg input) := by
  unfold resumePaused
  cases input.pausedToolCall with
  | none => trivial
  | some call =>
    subst ha he
    refine outline_findExecutionOrFail (fun _ _ => trivial) fun w H hI _ _ =>
      ⟨hI.step trivial, fun execution hrow => ?_⟩
    have hid : execution.id = input.executionId := (hI.keyed.executions _ _ hrow).1
    by_cases hp : execution.status = .guardrailPending
    · rw [if_neg (not_not_intro hp)]
      refine outline_ofExcept fun validated hv => ?_
      obtain ⟨rfl, -⟩ := handleStateTransition_ok hv
      rw [hid]
      have hop' := hop.mono (List.subset_append_left h
        [⟨.findExecution input.executionId, some execution⟩])
      refine Outline.call fun w H hI hH hG =>
        ⟨hI.release rfl (hG _ rfl rfl), ?_⟩
      -- From here on the request has resumed; what it still does is known along its history.
      refine Outline.of_along (F := Stmt.resumes input.approvalInstanceId input.executionId (ops i))
        (P := fun _ _ => True) ?_ (fun s w H hs hI _ => hI.step hs) (fun _ _ _ => trivial)
        (fun _ _ => trivial)
      refine Along.call trivial fun persisted => ?_
      refine Along.bind (resumeApproved_resumes _ call ⟨hop'.mono ?_, ?_⟩ ?_ ?_) ?_
      · exact fun o ho => List.mem_append_left _ (List.mem_append_left _ ho)
      · simp [starts, exec]
      · simp [htool, runsTool]
      · simp [hstep, persists]
      · intro h context hc
        have hcid : context.execution.id = input.executionId := hc.1
        have hloop := runLoop_along (h := h) cfg context
        rw [hcid] at hloop
        refine Along.bind (hloop.mono (fun _ _ hs => hs.resumes) fun _ _ hr => hr) ?_
        rintro h ⟨finalStatus, context'⟩ hr
        refine Along.call ⟨rfl, finalStatus, rfl, ?_, ?_⟩ fun _ => ?_
        · obtain rfl | rfl | rfl := hr.final finalStatus rfl <;> decide
        · rintro rfl
          exact hcid ▸ hr.asked rfl
        · exact Along.call trivial fun found => by cases found <;> trivial
    · rw [if_pos hp]
      trivial

/-- A console decision on the approval `a`. -/
lemma postDecide_outline {decision comment : Option String}
    (hop : ops i = .postDecide a decision comment) :
    ResumeOutline a e ans ops w₀ i [] (postDecide cfg a decision comment) := by
  unfold postDecide
  -- the decision is checked before the row is looked at
  cases normalizeDecision decision with
  | none => trivial
  | some normalized =>
    refine outline_findApprovalOrFail (fun _ _ => trivial) fun w H hI _ _ =>
      ⟨hI.step trivial, fun row hrow => ?_⟩
    have hid : row.id = a := (hI.keyed.approvals a row hrow).1
    have hrec : row.recordId = e := by
      obtain ⟨row', hrow', hrec⟩ := hI.approval
      rw [hrow] at hrow'
      obtain rfl := Option.some.inj hrow'
      exact hrec
    by_cases hp : row.status = .pending
    · rw [if_neg (not_not_intro hp)]
      refine outline_ofExcept fun call _ => ?_
      cases normalized with
      | rejected =>
        refine Outline.call fun w H hI hH _ => ⟨hI.decide ?_, trivial⟩
        rw [hH]
        simp [starts]
      | approved =>
        refine Outline.call fun w H hI _ _ => ⟨hI.step trivial, ?_⟩
        generalize (exec ans (.findExecution row.recordId) w).2 = found
        by_cases hg : found.map (·.triggerSource) = some .governanceGate
        · rw [if_pos hg, consoleRelease, hrec]
          refine Outline.call fun w H hI hH _ => ⟨hI.release rfl fun hres => ?_, trivial⟩
          rw [hop, hH] at hres
          exact absurd hres (by simp [Operation.Resuming, decides])
        · rw [if_neg hg]
          refine Outline.call fun w H hI hH _ => ⟨hI.decide ?_, ?_⟩
          · rw [hH]
            simp [starts]
          · refine Outline.bind (resumePaused_outline hid hrec ?_ ?_ ?_) (fun _ _ _ => trivial)
              fun _ _ _ => trivial
            · rw [hop]
              simp [Operation.Resuming, decides]
            · simp [runsTool]
            · simp [persists]
    · rw [if_pos hp]
      trivial

/-- The outline of an approval over HTTP. -/
lemma approve_outline (cfg : Config) (ans : Answers) {ops : ι → Operation} (w₀ : World)
    (hops : (ops i).Approves a e) :
    ResumeOutline a e ans ops w₀ i [] ((ops i).program cfg) := by
  cases hop : ops i with
  | postDecide b decision comment =>
    obtain rfl : b = a := by rwa [hop] at hops
    exact Outline.bind (postDecide_outline hop) (fun _ _ _ => trivial) fun _ _ _ => trivial
  | resumePaused input =>
    obtain ⟨ha, he⟩ : input.approvalInstanceId = a ∧ input.executionId = e := by rwa [hop] at hops
    refine Outline.bind (resumePaused_outline ha he ?_ (did_nil _) (did_nil _))
      (fun _ _ _ => trivial) fun _ _ _ => trivial
    rw [hop]
    trivial
  | _ =>
    rw [hop] at hops
    exact hops.elim

/-! ## The result -/

omit [DecidableEq ι] in
/-- The invariant holds while the approval is pending. -/
lemma resumeInv_start {inst : ApprovalInstance} (hk : w.Keyed) (hinst : w.approvals a = some inst)
    (hrec : inst.recordId = e) : ResumeInv a e ops w w fun _ => [] where
  keyed := hk
  approval := ⟨inst, hinst, hrec⟩
  reasked := fun _ hd => absurd hd (did_nil _)
  passed := fun _ hr => absurd hr.2 (did_nil _)
  calls := .start fun _ hr => absurd hr.2 (did_nil _)
  steps := .start fun _ hr => absurd hr.2 (did_nil _)

/-- Any number of approve requests for the approval `a` of the execution `e`, in any interleaving in
which a resume writes `running` only while the execution still waits for the approval: the tool is
run and the "approved resume" step persisted at most once. -/
theorem resumed_at_most_once (cfg : Config) (ans : Answers) (ops : ι → Operation) (w : World)
    (sched : List ι) (a e : Id) (inst : ApprovalInstance) (hk : w.Keyed)
    (hinst : w.approvals a = some inst) (hrec : inst.recordId = e)
    (hops : ∀ i, (ops i).Approves a e)
    (hG : Pool.Guarded (exec ans) (ResumesAwaiting a e ops)
      (Pool.start w fun i => (ops i).program cfg) sched) :
    let c := (Pool.start w fun i => (ops i).program cfg).play (exec ans) sched
    resumedCalls a c.world ≤ resumedCalls a w + 1 ∧
      resumedSteps a c.world ≤ resumedSteps a w + 1 := by
  obtain ⟨hI, -⟩ := Outline.play (resumeInv_start hk hinst hrec)
    (fun i => approve_outline cfg ans w (hops i)) hG
  exact ⟨hI.calls.bound, hI.steps.bound⟩

end run

/-! ## Requests together -/

/-- `Awaits` as a test of the rows that were given out. -/
def awaitsNow (a e : Id) (w : World) : Bool :=
  (w.executions e).any (·.status = .guardrailPending) &&
    (List.range w.clock).all fun b => b ≤ a || (w.approvals b).all (·.recordId ≠ e)

/-- The test of a paused execution. -/
lemma awaits_of_now {a e : Id} {w : World} (hk : w.Keyed) (h : awaitsNow a e w = true) :
    Awaits a e w := by
  unfold awaitsNow at h
  rw [Bool.and_eq_true, List.all_eq_true] at h
  obtain ⟨hwaits, hnewest⟩ := h
  constructor
  · intro hu
    obtain ⟨row, hrow, hp⟩ := Option.any_eq_true .. |>.mp hwaits
    exact hu row hrow (of_decide_eq_true hp)
  · rintro ⟨b, row, hab, hrow, hrec⟩
    have hb := hnewest b (List.mem_range.mpr (hk.approvals b row hrow).2)
    rw [hrow, Bool.or_eq_true, decide_eq_true_eq] at hb
    obtain hle | hne := hb
    · exact absurd hab (Nat.not_lt.mpr hle)
    · exact absurd hrec (of_decide_eq_true hne)

/-- The condition of a step as a test. -/
def resumesNow (a e : Id) (w : World) : Stmt → Bool
  | .updateExecution id patch =>
    !decide (id = e ∧ patch.status = some .running) || awaitsNow a e w
  | _ => true

/-- The test along a schedule gives the condition. -/
lemma guarded_of_now {ι : Type} [DecidableEq ι] {cfg : Config} {ans : Answers}
    {ops : ι → Operation} {w : World} {sched : List ι} (a e : Id) (hk : w.Keyed)
    (h : Pool.Guarded (exec ans) (fun w _ _ s => resumesNow a e w s = true)
      (Pool.start w fun i => (ops i).program cfg) sched) :
    Pool.Guarded (exec ans) (ResumesAwaiting a e ops)
      (Pool.start w fun i => (ops i).program cfg) sched := by
  refine Pool.Guarded.imp_of_uses (exec ans) (fun s w hs hk => exec_keyed hs hk) ?_ hk
    (fun i => program_noSave cfg (ops i)) h
  rintro w H i s hk htest patch rfl hrun -
  unfold resumesNow at htest
  simp only [hrun, true_and, decide_true, Bool.not_true, Bool.false_or] at htest
  exact awaits_of_now hk htest

/-- Two decisions of the console on one approval, and a resume that comes on its own. -/
def approvedThrice : Nat → Operation
  | 0 => .postDecide 3 (some "approved") none
  | 1 => .postDecide 3 (some "APPROVED") none
  | _ => .resumePaused ⟨0, 1, 3, some ⟨some (.str "mail__send"), some .empty⟩⟩

/-- The store with the paused run is keyed. -/
lemma pausedRun_keyed : pausedRun.Keyed :=
  (run_grows .proposing (program_noSave .small _) empty_keyed).1

/-- Two decisions that both read the approval as pending, the first of which then runs to its end: the
tool is run and its step persisted once, and the others find the execution on its way. -/
theorem resumed_once_together :
    let c := (Pool.start pausedRun fun i => (approvedThrice i).program .small).play (exec .proposing)
      ([0, 1] ++ List.replicate 13 0 ++ [2] ++ List.replicate 3 1)
    (∀ i < 3, (c.thread i).next?.isNone = true) ∧ resumedCalls 3 c.world = 1 ∧ resumedSteps 3 c.world = 1 := by
  have happroval : (pausedRun.approvals 3).map (·.recordId) = some 0 := by decide +kernel
  obtain ⟨inst, hinst, hrec⟩ := Option.map_eq_some_iff.mp happroval
  have hops : ∀ i, (approvedThrice i).Approves 3 0 := by
    intro i
    rcases i with _ | _ | i
    · exact rfl
    · exact rfl
    · exact ⟨rfl, rfl⟩
  have honce := resumed_at_most_once .small .proposing approvedThrice pausedRun
    ([0, 1] ++ List.replicate 13 0 ++ [2] ++ List.replicate 3 1) 3 0 inst pausedRun_keyed hinst hrec
    hops (guarded_of_now 3 0 pausedRun_keyed (by decide +kernel))
  refine ⟨by decide +kernel, Nat.le_antisymm (honce.1.trans ?_) ?_,
    Nat.le_antisymm (honce.2.trans ?_) ?_⟩
  all_goals decide +kernel

/-- Two approvals of one paused run that both read the execution before either writes it: both
resume, the tool runs twice and two steps are persisted. -/
theorem resumed_twice :
    ¬ ∀ sched : List Bool,
      let c := (Pool.start pausedRun fun _ : Bool =>
        (Operation.postDecide 3 (some "approved") none).program .small).play (exec .proposing) sched
      resumedCalls 3 c.world ≤ 1 ∧ resumedSteps 3 c.world ≤ 1 := by
  intro h
  have h2 := h ([false, true] ++ List.replicate 3 false ++ List.replicate 3 true ++
    List.replicate 10 false ++ List.replicate 10 true)
  revert h2
  decide +kernel

end NexusClaw.Governance
