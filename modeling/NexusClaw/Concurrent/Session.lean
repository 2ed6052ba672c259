import NexusClaw.Concurrent.Outline

/-!
# Transactions side by side

A database that serves any number of sessions. The writes `W` of a session are kept with its
transaction and join the log at the commit, all together. A statement that fails aborts the
transaction of its session: the writes after it are refused, and the commit of an aborted transaction
is answered like any other and stores nothing. Any statement can fail, before or after it has had its
effect.

* `transaction` begins, runs a body, and commits or rolls back.
* `Kept` is what the world and the histories agree on; `Kept.exec` is its step.
* `transaction_stored` says what the log has of each program after every schedule.
-/

namespace Concurrent

section attempt
variable {S : Type} {R : S → Type} {ε α β σ ι : Type} [DecidableEq ι]
variable {exec : (s : S) → σ → σ × R s} {I : σ → (ι → History S R) → Prop}
variable {G : σ → (ι → History S R) → ι → S → Prop} {Q : History S R → Except ε β → Prop}
variable {i : ι} {h : History S R}

/-- The rule for a body whose exceptions are caught: `J` is what its histories keep. -/
lemma Outline.catching {F : History S R → S → Prop} {P : History S R → α → Prop}
    {J : History S R → Prop} {body : Prog S R ε α} {f : Except ε α → Prog S R ε β}
    (hbody : Along F P h body) (hJ : J h)
    (keep : ∀ h s r, F h s → J h → J (h ++ [⟨s, r⟩]))
    (step : ∀ s w H, F (H i) s → J (H i) → I w H → I (exec s w).1 (observe H i s (exec s w).2))
    (returned : ∀ h a, J h → P h a → Outline exec I G Q i h (f (.ok a)))
    (threw : ∀ h e, J h → Outline exec I G Q i h (f (.error e))) :
    Outline exec I G Q i h (body.attempt >>= f) := by
  induction body generalizing h with
  | ret a => exact returned h a hJ hbody
  | throw e => exact threw h e hJ
  | stmt s k ih =>
    intro w H hI hH hG
    exact ⟨step s w H (hH ▸ hbody.1) (hH ▸ hJ) hI, ih _ (hbody.2 _) (keep _ _ _ hbody.1 hJ)⟩

end attempt

namespace Session

variable {ι ε W α : Type}

inductive Statement (ι W : Type) where
  | begin (i : ι)
  | write (i : ι) (x : W)
  | commit (i : ι)
  | rollback (i : ι)
  | tick

/-- A tick is answered with a number that no other tick is answered with. -/
abbrev Answer (ε : Type) : Statement ι W → Type
  | .begin _ => Except ε Unit
  | .write _ _ => Except ε Unit
  | .commit _ => Except ε Unit
  | .rollback _ => Except ε Unit
  | .tick => Nat

/-! ## Database -/

/-- An open transaction. -/
structure Transaction (W : Type) where
  writes : List W := []
  aborted : Bool := false

structure Committed (ι W : Type) where
  owner : ι
  writes : List W

/-- A statement that fails has had its effect or not. -/
inductive Fault (ε : Type) where
  | refused (e : ε)
  | answerLost (e : ε)

structure World (ι ε W : Type) where
  session : ι → Option (Transaction W)
  log : List (Committed ι W)
  fault : Nat → Option (Fault ε)
  clock : Nat

def World.start (fault : Nat → Option (Fault ε)) : World ι ε W where
  session := fun _ => none
  log := []
  fault := fault
  clock := 0

/-- The transactions of `i` in the log. -/
def World.stored [DecidableEq ι] (w : World ι ε W) (i : ι) : List (List W) :=
  (w.log.filter (·.owner = i)).map (·.writes)

def World.append (w : World ι ε W) (i : ι) (writes : List W) : World ι ε W :=
  { w with log := w.log ++ [{ owner := i, writes }] }

def World.next (w : World ι ε W) : World ι ε W :=
  { w with clock := w.clock + 1 }

section exec
variable [DecidableEq ι]

def World.setSession (w : World ι ε W) (i : ι) (t : Option (Transaction W)) : World ι ε W :=
  { w with session := Function.update w.session i t }

/-- A write of a session; outside a transaction it commits by itself. -/
def World.write (aborted : ε) (i : ι) (x : W) (w : World ι ε W) :
    Option (Transaction W) → World ι ε W × Except ε Unit
  | none => (w.append i [x], .ok ())
  | some t =>
    if t.aborted then (w, .error aborted)
    else (w.setSession i (some { t with writes := t.writes ++ [x] }), .ok ())

def World.commit (i : ι) (w : World ι ε W) : Option (Transaction W) → World ι ε W
  | none => w
  | some t => (if t.aborted then w else w.append i t.writes).setSession i none

/-- A statement that does not fail by itself. -/
def perform (aborted : ε) : (s : Statement ι W) → World ι ε W → World ι ε W × Answer ε s
  | .begin i, w => (w.setSession i (some {}), .ok ())
  | .write i x, w => w.write aborted i x (w.session i)
  | .commit i, w => (w.commit i (w.session i), .ok ())
  | .rollback i, w => (w.setSession i none, .ok ())
  | .tick, w => (w, w.clock)

/-- What a failure does to the session. -/
def breaks : Statement ι W → World ι ε W → World ι ε W
  | .begin i, w => w.setSession i none
  | .write i _, w => w.setSession i ((w.session i).map fun t => { t with aborted := true })
  | .commit i, w => w.setSession i none
  | .rollback i, w => w.setSession i none
  | .tick, w => w

def failure (e : ε) (w : World ι ε W) : (s : Statement ι W) → Answer ε s
  | .begin _ => .error e
  | .write _ _ => .error e
  | .commit _ => .error e
  | .rollback _ => .error e
  | .tick => w.clock

def exec (aborted : ε) (s : Statement ι W) (w : World ι ε W) : World ι ε W × Answer ε s :=
  match w.fault w.clock with
  | none => ((perform aborted s w).1.next, (perform aborted s w).2)
  | some (.refused e) => ((breaks s w).next, failure e w s)
  | some (.answerLost e) => ((breaks s (perform aborted s w).1).next, failure e w s)

end exec

/-! ## Programs -/

abbrev SessionProg (ι ε W α : Type) : Type :=
  Prog (Statement ι W) (Answer ε) ε α

/-- A write that throws its failure. -/
def write (i : ι) (x : W) : SessionProg ι ε W Unit :=
  .stmt (.write i x) fun
    | .ok () => .ret ()
    | .error e => .throw e

/-- What follows the body. -/
def conclude (i : ι) : Except ε α → SessionProg ι ε W α
  | .error e => .stmt (.rollback i) fun _ => .throw e
  | .ok a => .stmt (.commit i) fun
    | .ok () => .ret a
    | .error e => .stmt (.rollback i) fun _ => .throw e

def transaction (i : ι) (body : SessionProg ι ε W α) : SessionProg ι ε W α :=
  .stmt (.begin i) fun
    | .error e => .throw e
    | .ok () => body.attempt >>= conclude i


/-! ## Histories -/

/-- The write that a statement has made, as far as its program knows. -/
def accepted : Sigma (Answer (ι := ι) (W := W) ε) → Option W
  | ⟨.write _ x, .ok ()⟩ => some x
  | _ => none

/-- The writes that were answered without an error. -/
def written (h : History (Statement ι W) (Answer ε)) : List W :=
  h.filterMap accepted

def Begins : Sigma (Answer (ι := ι) (W := W) ε) → Prop
  | ⟨.begin _, .ok ()⟩ => True
  | _ => False

def Fails : Sigma (Answer (ι := ι) (W := W) ε) → Prop
  | ⟨.write _ _, .error _⟩ => True
  | _ => False

def AsksCommit : Sigma (Answer (ι := ι) (W := W) ε) → Prop
  | ⟨.commit _, _⟩ => True
  | _ => False

def Commits : Sigma (Answer (ι := ι) (W := W) ε) → Prop
  | ⟨.commit _, .ok ()⟩ => True
  | _ => False

def Closes : Sigma (Answer (ι := ι) (W := W) ε) → Prop
  | ⟨.commit _, _⟩ => True
  | ⟨.rollback _, _⟩ => True
  | _ => False

/-- The program has begun its transaction and not ended it. -/
def Open (h : History (Statement ι W) (Answer ε)) : Prop :=
  Did Begins h ∧ ¬ Did Closes h

/-- What the program of session `i` does: its writes stand between the beginning and the end. -/
def Orderly (i : ι) (h : History (Statement ι W) (Answer ε)) : Statement ι W → Prop
  | .begin j => j = i ∧ h = []
  | .write j _ => j = i ∧ Open h
  | .commit j => j = i ∧ Open h
  | .rollback j => j = i
  | .tick => True

/-- The session that a statement is of. -/
def Statement.Of (i : ι) : Statement ι W → Prop
  | .begin j => j = i
  | .write j _ => j = i
  | .commit j => j = i
  | .rollback j => j = i
  | .tick => True

/-- What a body does: writes of its session. -/
def Statement.Inner (i : ι) : Statement ι W → Prop
  | .write j _ => j = i
  | .tick => True
  | _ => False

/-- A write that succeeds has no failed write before it. -/
def Sound (h : History (Statement ι W) (Answer ε)) : Prop :=
  ∀ before o after, h = before ++ o :: after → (accepted o).isSome → ¬ Did Fails before

/-- What the world and a history of session `i` agree on. -/
structure KeptAt [DecidableEq ι] (w : World ι ε W) (i : ι)
    (h : History (Statement ι W) (Answer ε)) : Prop where
  session : Open h → ∃ t, w.session i = some t ∧ (t.aborted = true ↔ Did Fails h) ∧
    (t.aborted = false → t.writes = written h)
  sound : Sound h
  unstored : ¬ Did AsksCommit h → w.stored i = []
  stored : w.stored i = [] ∨ w.stored i = [written h] ∧ ¬ Did Fails h
  committed : Did Commits h → ¬ Did Fails h → w.stored i = [written h]

def Kept [DecidableEq ι] (w : World ι ε W) (H : ι → History (Statement ι W) (Answer ε)) : Prop :=
  ∀ i, KeptAt w i (H i)

section histories
variable {i : ι} {h : History (Statement ι W) (Answer ε)}
variable {o : Sigma (Answer (ι := ι) (W := W) ε)}

/-- A commit ends the transaction. -/
lemma AsksCommit.closes (ho : AsksCommit o) : Closes o := by
  obtain ⟨s, r⟩ := o
  cases s with
  | commit j => trivial
  | begin j => cases ho
  | write j x => cases ho
  | rollback j => cases ho
  | tick => cases ho

/-- A commit that took effect was asked for. -/
lemma Commits.asks (ho : Commits o) : AsksCommit o := by
  obtain ⟨s, r⟩ := o
  cases s with
  | commit j => trivial
  | begin j => cases ho
  | write j x => cases ho
  | rollback j => cases ho
  | tick => cases ho

/-- An open transaction has asked for no commit. -/
lemma Open.not_asks (ho : Open h) : ¬ Did AsksCommit h :=
  fun ⟨o, hmem, hasks⟩ => ho.2 ⟨o, hmem, hasks.closes⟩

/-- An orderly statement is one of its session. -/
lemma Orderly.of {s : Statement ι W} (hs : Orderly i h s) : s.Of i := by
  cases s with
  | begin j => exact hs.1
  | write j x => exact hs.1
  | commit j => exact hs.1
  | rollback j => exact hs
  | tick => trivial

/-- A statement within the transaction is orderly while it is open. -/
lemma Statement.Inner.orderly {s : Statement ι W} (hs : s.Inner i) (ho : Open h) :
    Orderly i h s := by
  cases s with
  | write j x => exact ⟨hs, ho⟩
  | tick => trivial
  | begin j => cases hs
  | commit j => cases hs
  | rollback j => cases hs

/-- A statement within the transaction leaves it open. -/
lemma Open.inner {s : Statement ι W} (r : Answer ε s) (hs : s.Inner i) (ho : Open h) :
    Open (h ++ [⟨s, r⟩]) := by
  refine ⟨(did_concat ..).2 (.inl ho.1), fun hd => ?_⟩
  rcases (did_concat ..).1 hd with hd | hd
  · exact ho.2 hd
  · cases s with
    | write j x => cases hd
    | tick => cases hd
    | begin j => cases hs
    | commit j => cases hs
    | rollback j => cases hs

/-- What is written is what was accepted, one statement after the other. -/
lemma written_concat : written (h ++ [o]) = written h ++ (accepted o).toList := by
  unfold written
  rw [List.filterMap_append]
  cases ho : accepted o with
  | none => simp [ho]
  | some x => simp [ho]

/-- A history stays sound if nothing is accepted after a failure. -/
lemma Sound.concat (hs : Sound h) (ho : (accepted o).isSome → ¬ Did Fails h) :
    Sound (h ++ [o]) := by
  intro before o' after heq hsome
  rcases after.eq_nil_or_concat with rfl | ⟨init, last, rfl⟩
  · obtain ⟨rfl, hlast⟩ := List.append_inj' heq rfl
    obtain rfl : o = o' := List.head_eq_of_cons_eq hlast
    exact ho hsome
  · have heq' : h ++ [o] = (before ++ o' :: init) ++ [last] := by simpa using heq
    exact hs before o' init (List.append_inj' heq' rfl).1 hsome

/-- A sound history was sound before its last statement. -/
lemma Sound.early (hs : Sound (h ++ [o])) : Sound h := by
  intro before o' after heq
  apply hs before o' (after ++ [o])
  rw [heq]
  simp

/-- A write is one statement within the transaction. -/
lemma along_write (i : ι) (x : W) (h : History (Statement ι W) (Answer ε)) :
    Along (fun _ s => s.Inner i) (fun h' _ => h' = h ++ [⟨.write i x, .ok ()⟩]) h
      (write i x : SessionProg ι ε W Unit) := by
  refine ⟨rfl, fun r => ?_⟩
  cases r with
  | ok u => rfl
  | error e => trivial

/-- If the last write has succeeded, no write has failed. -/
lemma Sound.not_fails {s : Statement ι W} {r : Answer ε s} (hs : Sound (h ++ [⟨s, r⟩]))
    (ho : (accepted ⟨s, r⟩).isSome) : ¬ Did Fails (h ++ [⟨s, r⟩]) := by
  rw [did_concat]
  rintro (hd | hf)
  · exact hs h ⟨s, r⟩ [] rfl ho hd
  · cases s with
    | write j x =>
      cases r with
      | ok u => cases hf
      | error e => cases ho
    | begin j => cases hf
    | commit j => cases hf
    | rollback j => cases hf
    | tick => cases hf

end histories

section kept
variable [DecidableEq ι] {aborted : ε} {w : World ι ε W} {H : ι → History (Statement ι W) (Answer ε)}
variable {i j : ι} {t : Transaction W}

/-- A session that is set. -/
lemma session_setSession (t : Option (Transaction W)) : (w.setSession i t).session i = t :=
  Function.update_self ..

/-- The others stay. -/
lemma session_setSession_of_ne (t : Option (Transaction W)) (h : j ≠ i) :
    (w.setSession i t).session j = w.session j :=
  Function.update_of_ne h ..

/-- What is appended for a session is stored. -/
lemma stored_append (xs : List W) : (w.append i xs).stored i = w.stored i ++ [xs] := by
  unfold World.stored World.append
  rw [List.filter_append, List.map_append]
  simp

/-- Nothing is stored for the others. -/
lemma stored_append_of_ne (xs : List W) (h : j ≠ i) : (w.append i xs).stored j = w.stored j := by
  unfold World.stored World.append
  rw [List.filter_append, List.map_append]
  simp [h.symm]

/-- A statement leaves the other sessions and what they have stored as they were. -/
lemma perform_other (aborted : ε) (w : World ι ε W) {s : Statement ι W} (hs : s.Of i) (h : j ≠ i) :
    (perform aborted s w).1.session j = w.session j ∧
      (perform aborted s w).1.stored j = w.stored j := by
  -- each statement writes the transaction of its own session
  cases s with
  | begin k =>
    obtain rfl : k = i := hs
    exact ⟨session_setSession_of_ne _ h, rfl⟩
  | write k x =>
    obtain rfl : k = i := hs
    dsimp only [perform]
    cases w.session k with
    | none => exact ⟨rfl, stored_append_of_ne _ h⟩
    | some t =>
      dsimp only [World.write]
      split_ifs
      · exact ⟨rfl, rfl⟩
      · exact ⟨session_setSession_of_ne _ h, rfl⟩
  | commit k =>
    obtain rfl : k = i := hs
    dsimp only [perform]
    cases w.session k with
    | none => exact ⟨rfl, rfl⟩
    | some t =>
      dsimp only [World.commit]
      split_ifs
      · exact ⟨session_setSession_of_ne _ h, rfl⟩
      · exact ⟨session_setSession_of_ne _ h, stored_append_of_ne _ h⟩
  | rollback k =>
    obtain rfl : k = i := hs
    exact ⟨session_setSession_of_ne _ h, rfl⟩
  | tick => exact ⟨rfl, rfl⟩

/-- A fault breaks the session of its statement alone. -/
lemma breaks_other (w : World ι ε W) {s : Statement ι W} (hs : s.Of i) (h : j ≠ i) :
    (breaks s w).session j = w.session j ∧ (breaks s w).stored j = w.stored j := by
  cases s with
  | begin k =>
    obtain rfl : k = i := hs
    exact ⟨session_setSession_of_ne _ h, rfl⟩
  | write k x =>
    obtain rfl : k = i := hs
    exact ⟨session_setSession_of_ne _ h, rfl⟩
  | commit k =>
    obtain rfl : k = i := hs
    exact ⟨session_setSession_of_ne _ h, rfl⟩
  | rollback k =>
    obtain rfl : k = i := hs
    exact ⟨session_setSession_of_ne _ h, rfl⟩
  | tick => exact ⟨rfl, rfl⟩

/-- A statement leaves the other sessions. -/
lemma exec_other (aborted : ε) (w : World ι ε W) {s : Statement ι W} (hs : s.Of i) (h : j ≠ i) :
    (exec aborted s w).1.session j = w.session j ∧
      (exec aborted s w).1.stored j = w.stored j := by
  unfold exec
  cases w.fault w.clock with
  | none => exact perform_other aborted w hs h
  | some f =>
    cases f with
    | refused e => exact breaks_other w hs h
    | answerLost e =>
      obtain ⟨hsession, hstored⟩ := breaks_other (perform aborted s w).1 hs h
      obtain ⟨hsession', hstored'⟩ := perform_other aborted w hs h
      exact ⟨hsession.trans hsession', hstored.trans hstored'⟩

/-- Only commits store the writes of an open transaction. -/
lemma exec_unstored (w : World ι ε W) {s : Statement ι W} (hs : s.Of i)
    (hcommit : s ≠ .commit i) (hopen : (∃ x, s = .write i x) → (w.session i).isSome) :
    (exec aborted s w).1.stored i = w.stored i := by
  have hperform : (perform aborted s w).1.stored i = w.stored i := by
    cases s with
    | begin k => rfl
    | write k x =>
      obtain rfl : k = i := hs
      obtain ⟨t, ht⟩ := Option.isSome_iff_exists.1 (hopen ⟨x, rfl⟩)
      dsimp only [perform]
      rw [ht]
      dsimp only [World.write]
      split_ifs
      · rfl
      · rfl
    | commit k => exact absurd (congrArg _ hs) hcommit
    | rollback k => rfl
    | tick => rfl
  have hbreaks (w : World ι ε W) : (breaks s w).stored i = w.stored i := by
    cases s with
    | begin k => rfl
    | write k x => rfl
    | commit k => rfl
    | rollback k => rfl
    | tick => rfl
  unfold exec
  cases w.fault w.clock with
  | none => exact hperform
  | some f =>
    cases f with
    | refused e => exact hbreaks w
    | answerLost e => exact (hbreaks _).trans hperform

/-- A write of an open transaction joins it, or fails and aborts it. -/
lemma exec_write (aborted : ε) (x : W) (ht : w.session i = some t) :
    (t.aborted = false ∧ (exec aborted (.write i x) w).2 = .ok () ∧
      (exec aborted (.write i x) w).1.session i = some { t with writes := t.writes ++ [x] }) ∨
    ((∃ e, (exec aborted (.write i x) w).2 = .error e) ∧
      ∃ t', (exec aborted (.write i x) w).1.session i = some t' ∧ t'.aborted = true) := by
  unfold exec
  -- the fault of this moment decides: none, a statement that is refused, or an answer that is lost
  cases w.fault w.clock with
  | none =>
    dsimp only [perform]
    rw [ht]
    dsimp only [World.write]
    split_ifs with hab
    · exact .inr ⟨⟨_, rfl⟩, t, ht, hab⟩
    · exact .inl ⟨eq_false_of_ne_true hab, rfl, session_setSession _⟩
  | some f =>
    cases f with
    | refused e =>
      refine .inr ⟨⟨e, rfl⟩, { t with aborted := true }, ?_, rfl⟩
      have hs : (breaks (.write i x) w).session i = (w.session i).map fun t =>
          { t with aborted := true } := session_setSession _
      rw [ht] at hs
      exact hs
    | answerLost e =>
      have hs : (breaks (.write i x) (perform aborted (.write i x) w).1).session i =
          ((perform aborted (.write i x) w).1.session i).map fun t =>
            { t with aborted := true } := session_setSession _
      have ht' : ((perform aborted (.write i x) w).1.session i).isSome := by
        dsimp only [perform]
        rw [ht]
        dsimp only [World.write]
        split_ifs
        · exact Option.isSome_iff_exists.2 ⟨t, ht⟩
        · exact Option.isSome_iff_exists.2 ⟨_, session_setSession _⟩
      obtain ⟨t', ht'⟩ := Option.isSome_iff_exists.1 ht'
      rw [ht'] at hs
      exact .inr ⟨⟨e, rfl⟩, _, hs, rfl⟩

/-- A commit that is answered with success stores a transaction that is not aborted; one that is
answered with an error may have stored it. -/
lemma exec_commit (aborted : ε) (ht : w.session i = some t) :
    ((exec aborted (.commit i) w).1.stored i = w.stored i ∧
        ((exec aborted (.commit i) w).2 = .ok () → t.aborted = true)) ∨
      (t.aborted = false ∧ (exec aborted (.commit i) w).1.stored i = w.stored i ++ [t.writes]) := by
  have hperform : ((perform aborted (.commit i) w).1.stored i = w.stored i ∧ t.aborted = true) ∨
      (t.aborted = false ∧
        (perform aborted (.commit i) w).1.stored i = w.stored i ++ [t.writes]) := by
    dsimp only [perform]
    rw [ht]
    dsimp only [World.commit]
    split_ifs with hab
    · exact .inl ⟨rfl, hab⟩
    · exact .inr ⟨eq_false_of_ne_true hab, stored_append _⟩
  unfold exec
  cases w.fault w.clock with
  | none => exact hperform.imp_left fun h => ⟨h.1, fun _ => h.2⟩
  | some f =>
    cases f with
    | refused e => exact .inl ⟨rfl, by rintro ⟨⟩⟩
    | answerLost e => exact hperform.imp_left fun h => ⟨h.1, fun _ => h.2⟩

/-- A transaction that begins has written nothing. -/
lemma exec_begin (h : (exec aborted (.begin i) w).2 = .ok ()) :
    (exec aborted (.begin i) w).1.session i = some {} := by
  unfold exec at h ⊢
  cases hf : w.fault w.clock with
  | none => exact session_setSession _
  | some f =>
    rw [hf] at h
    cases f with
    | refused e => cases h
    | answerLost e => cases h
/-! ## Steps -/

variable {h : History (Statement ι W) (Answer ε)} {o : Sigma (Answer (ι := ι) (W := W) ε)}

/-- A step of another session keeps what holds of this one. -/
lemma KeptAt.other {w' : World ι ε W} (hk : KeptAt w i h)
    (hsession : w'.session i = w.session i) (hstored : w'.stored i = w.stored i) :
    KeptAt w' i h where
  session := by rw [hsession]; exact hk.session
  sound := hk.sound
  unstored := by rw [hstored]; exact hk.unstored
  stored := by rw [hstored]; exact hk.stored
  committed := by rw [hstored]; exact hk.committed

/-- A statement that stores nothing and does not write. -/
lemma KeptAt.quiet {w' : World ι ε W} (hk : KeptAt w i h) (ha : accepted o = none)
    (hf : ¬ Fails o) (hc : ¬ AsksCommit o) (hstored : w'.stored i = w.stored i)
    (hsession : Open (h ++ [o]) → ∃ t, w'.session i = some t ∧
      (t.aborted = true ↔ Did Fails h) ∧ (t.aborted = false → t.writes = written h)) :
    KeptAt w' i (h ++ [o]) := by
  have hwritten : written (h ++ [o]) = written h := by simp [written_concat, ha]
  have hfails : Did Fails (h ++ [o]) ↔ Did Fails h := by simp [hf]
  have hasks : Did AsksCommit (h ++ [o]) ↔ Did AsksCommit h := by simp [hc]
  have hcommits : Did Commits (h ++ [o]) ↔ Did Commits h := by
    rw [did_concat]
    exact or_iff_left fun ho => hc ho.asks
  refine ⟨?_, hk.sound.concat fun hs => ?_, ?_, ?_, ?_⟩
  · rw [hfails, hwritten]
    exact hsession
  · rw [ha] at hs
    cases hs
  · rw [hasks, hstored]
    exact hk.unstored
  · rw [hfails, hwritten, hstored]
    exact hk.stored
  · rw [hcommits, hfails, hwritten, hstored]
    exact hk.committed

/-- The begin of a transaction keeps the invariant. -/
lemma KeptAt.begin (hk : KeptAt w i []) :
    KeptAt (exec aborted (.begin i) w).1 i [⟨.begin i, (exec aborted (.begin i) w).2⟩] := by
  refine KeptAt.quiet (h := []) hk rfl id id ?_ ?_
  · exact exec_unstored w rfl (by rintro ⟨⟩) (by rintro ⟨x, ⟨⟩⟩)
  · rintro ⟨hbegins, -⟩
    have hok : (exec aborted (.begin i) w).2 = .ok () := by
      obtain ⟨o, ho, hbegins⟩ := hbegins
      obtain rfl := List.mem_singleton.1 ho
      cases hr : (exec aborted (.begin i) w).2 with
      | ok u => rfl
      | error e =>
        rw [hr] at hbegins
        cases hbegins
    exact ⟨{}, exec_begin hok, by simp, fun _ => rfl⟩

/-- So does a write. -/
lemma KeptAt.write (hk : KeptAt w i h) (ho : Open h) (x : W) :
    KeptAt (exec aborted (.write i x) w).1 i
      (h ++ [⟨.write i x, (exec aborted (.write i x) w).2⟩]) := by
  obtain ⟨t, ht, hab, hwrites⟩ := hk.session ho
  have hstored : (exec aborted (.write i x) w).1.stored i = w.stored i :=
    exec_unstored w rfl (by rintro ⟨⟩) fun _ => Option.isSome_iff_exists.2 ⟨t, ht⟩
  have hnone : w.stored i = [] := hk.unstored ho.not_asks
  have hcommits : ¬ Did Commits (h ++ [⟨.write i x, (exec aborted (.write i x) w).2⟩]) := by
    rw [did_concat]
    rintro (⟨o', hmem, hcommits⟩ | hcommits)
    · exact ho.not_asks ⟨o', hmem, hcommits.asks⟩
    · cases hcommits
  refine ⟨fun _ => ?_, hk.sound.concat fun hs => ?_, fun _ => hstored.trans hnone,
    .inl (hstored.trans hnone), fun h => absurd h hcommits⟩
  -- the write joins the transaction, or the transaction is aborted
  · rcases exec_write aborted x ht with ⟨hfine, hok, hsession⟩ |
      ⟨⟨e, herror⟩, t', ht', hab'⟩
    · refine ⟨_, hsession, ?_, fun _ => ?_⟩
      · rw [did_concat, hok]
        exact hab.trans (or_iff_left id).symm
      · rw [written_concat, hok, hwrites hfine]
        rfl
    · refine ⟨t', ht', ?_, fun h => ?_⟩
      · rw [did_concat, herror]
        exact iff_of_true hab' (.inr trivial)
      · rw [hab'] at h
        cases h
  · rcases exec_write aborted x ht with ⟨hfine, hok, -⟩ | ⟨⟨e, herror⟩, -⟩
    · rw [← hab, hfine]
      exact Bool.false_ne_true
    · rw [herror] at hs
      cases hs

/-- So does a commit. -/
lemma KeptAt.commit (hk : KeptAt w i h) (ho : Open h) :
    KeptAt (exec aborted (.commit i) w).1 i
      (h ++ [⟨.commit i, (exec aborted (.commit i) w).2⟩]) := by
  obtain ⟨t, ht, hab, hwrites⟩ := hk.session ho
  have hnone : w.stored i = [] := hk.unstored ho.not_asks
  have hwritten : written (h ++ [⟨.commit i, (exec aborted (.commit i) w).2⟩]) = written h := by
    rw [written_concat]
    exact List.append_nil _
  have hfails : Did Fails (h ++ [⟨.commit i, (exec aborted (.commit i) w).2⟩]) ↔ Did Fails h := by
    rw [did_concat]
    exact or_iff_left id
  have hclosed : Did Closes (h ++ [⟨.commit i, (exec aborted (.commit i) w).2⟩]) := by
    rw [did_concat]
    exact .inr trivial
  have hasks : Did AsksCommit (h ++ [⟨.commit i, (exec aborted (.commit i) w).2⟩]) := by
    rw [did_concat]
    exact .inr trivial
  refine ⟨fun hopen => absurd hclosed hopen.2, hk.sound.concat fun hs => absurd hs Bool.false_ne_true,
    fun h => absurd hasks h, ?_, ?_⟩
  · rw [hwritten, hfails]
    rcases exec_commit aborted ht with ⟨hsame, -⟩ | ⟨hfine, hjoined⟩
    · exact .inl (hsame.trans hnone)
    · rw [hjoined, hnone, hwrites hfine, ← hab, hfine]
      exact .inr ⟨rfl, Bool.false_ne_true⟩
  · rw [hwritten, hfails]
    intro hcommits hnot
    have hok : (exec aborted (.commit i) w).2 = .ok () := by
      rcases (did_concat ..).1 hcommits with ⟨o', hmem, hcommits⟩ | hcommits
      · exact absurd ⟨o', hmem, hcommits.asks⟩ ho.not_asks
      · cases hr : (exec aborted (.commit i) w).2 with
        | ok u => rfl
        | error e =>
          rw [hr] at hcommits
          cases hcommits
    rcases exec_commit aborted ht with ⟨-, haborted⟩ | ⟨hfine, hjoined⟩
    · exact absurd (hab.1 (haborted hok)) hnot
    · rw [hjoined, hnone, hwrites hfine]
      rfl

/-- So does a rollback. -/
lemma KeptAt.rollback (hk : KeptAt w i h) :
    KeptAt (exec aborted (.rollback i) w).1 i
      (h ++ [⟨.rollback i, (exec aborted (.rollback i) w).2⟩]) := by
  refine hk.quiet rfl id id ?_ fun hopen => ?_
  · exact exec_unstored w rfl (by rintro ⟨⟩) (by rintro ⟨x, ⟨⟩⟩)
  · refine absurd ?_ hopen.2
    rw [did_concat]
    exact .inr trivial

/-- So does the time that passes. -/
lemma KeptAt.tick (hk : KeptAt w i h) :
    KeptAt (exec aborted .tick w).1 i (h ++ [⟨.tick, (exec aborted .tick w).2⟩]) := by
  have hsession : (exec aborted .tick w).1.session i = w.session i := by
    unfold exec
    cases w.fault w.clock with
    | none => rfl
    | some f =>
      cases f with
      | refused e => rfl
      | answerLost e => rfl
  refine hk.quiet rfl id id ?_ fun hopen => ?_
  · exact exec_unstored w trivial (by rintro ⟨⟩) (by rintro ⟨x, ⟨⟩⟩)
  · rw [hsession]
    refine hk.session ⟨?_, fun hd => hopen.2 ?_⟩
    · exact ((did_concat ..).1 hopen.1).resolve_right id
    · rw [did_concat]
      exact .inl hd

/-- The step of an orderly program. -/
lemma Kept.exec {s : Statement ι W} (hs : Orderly i (H i) s) (hk : Kept w H) :
    Kept (exec aborted s w).1 (observe H i s (exec aborted s w).2) := by
  intro j
  by_cases hji : j = i
  · subst hji
    rw [observe_self]
    cases s with
    | begin k =>
      obtain ⟨rfl, hempty⟩ := hs
      have hkj := hk k
      rw [hempty] at hkj ⊢
      exact hkj.begin
    | write k x =>
      obtain ⟨rfl, hopen⟩ := hs
      exact (hk k).write hopen x
    | commit k =>
      obtain ⟨rfl, hopen⟩ := hs
      exact (hk k).commit hopen
    | rollback k =>
      obtain rfl : k = j := hs
      exact (hk k).rollback
    | tick => exact (hk j).tick
  · rw [observe_of_ne _ _ _ hji]
    obtain ⟨hsession, hstored⟩ := exec_other aborted w hs.of hji
    exact (hk j).other hsession hstored

/-- The invariant holds before anything is issued. -/
lemma kept_start (fault : Nat → Option (Fault ε)) :
    Kept (World.start fault : World ι ε W) fun _ => [] := by
  intro i
  refine ⟨?_, ?_, fun _ => rfl, .inl rfl, ?_⟩
  · rintro ⟨⟨o, hmem, -⟩, -⟩
    cases hmem
  · intro before o after heq
    cases before with
    | nil => cases heq
    | cons o before => cases heq
  · rintro ⟨o, hmem, -⟩
    cases hmem

end kept

/-! ## Runs -/

section runs
variable [DecidableEq ι] {aborted : ε} {w : World ι ε W} {H : ι → History (Statement ι W) (Answer ε)}
variable {body : ι → SessionProg ι ε W α} {P : ι → History (Statement ι W) (Answer ε) → α → Prop}
variable {i : ι} {h : History (Statement ι W) (Answer ε)} {a : α}

/-- The world is kept, and a program that has asked for its commit had completed its body. -/
structure Run (P : ι → History (Statement ι W) (Answer ε) → α → Prop) (w : World ι ε W)
    (H : ι → History (Statement ι W) (Answer ε)) : Prop where
  kept : Kept w H
  completed : ∀ i, Did AsksCommit (H i) → ∃ h a, P i h a ∧ written (H i) = written h

/-- An orderly statement keeps the invariant of the run. -/
lemma Run.exec {s : Statement ι W} (hr : Run P w H) (hs : Orderly i (H i) s)
    (hc : (∃ j, s = .commit j) → ∃ a, P i (H i) a) :
    Run P (exec aborted s w).1 (observe H i s (exec aborted s w).2) := by
  refine ⟨hr.kept.exec hs, fun j hasks => ?_⟩
  -- the session of the statement and the others
  by_cases hji : j = i
  · subst hji
    rw [observe_self] at hasks ⊢
    rw [written_concat]
    cases s with
    | begin k =>
      have hold : Did AsksCommit (H j) := ((did_concat ..).1 hasks).resolve_right id
      obtain ⟨h, a, hP, hw⟩ := hr.completed j hold
      exact ⟨h, a, hP, (List.append_nil _).trans hw⟩
    | write k x =>
      have hold : Did AsksCommit (H j) := ((did_concat ..).1 hasks).resolve_right id
      exact absurd hold hs.2.not_asks
    | commit k =>
      obtain ⟨a, hP⟩ := hc ⟨k, rfl⟩
      exact ⟨H j, a, hP, List.append_nil _⟩
    | rollback k =>
      have hold : Did AsksCommit (H j) := ((did_concat ..).1 hasks).resolve_right id
      obtain ⟨h, a, hP, hw⟩ := hr.completed j hold
      exact ⟨h, a, hP, (List.append_nil _).trans hw⟩
    | tick =>
      have hold : Did AsksCommit (H j) := ((did_concat ..).1 hasks).resolve_right id
      obtain ⟨h, a, hP, hw⟩ := hr.completed j hold
      exact ⟨h, a, hP, (List.append_nil _).trans hw⟩
  · rw [observe_of_ne _ _ _ hji] at hasks ⊢
    exact hr.completed j hasks

/-- How a transaction ends. -/
def Outcome (P : ι → History (Statement ι W) (Answer ε) → α → Prop) (i : ι)
    (h : History (Statement ι W) (Answer ε)) : Except ε α → Prop
  | .ok a => ∃ h', h = h' ++ [⟨.commit i, .ok ()⟩] ∧ P i h' a
  | .error _ => ¬ Did AsksCommit h ∨ ∃ e, ⟨.commit i, .error e⟩ ∈ h

/-- A body that returned is committed. -/
lemma conclude_returned (hP : P i h a) (ho : Open h) :
    Outline (exec aborted) (Run P) (fun _ _ _ _ => True) (Outcome P i) i h
      (conclude i (.ok a)) := by
  intro w H hr hH _
  refine ⟨hr.exec ⟨rfl, hH ▸ ho⟩ fun _ => ⟨a, hH ▸ hP⟩, ?_⟩
  cases (Session.exec aborted (.commit i) w).2 with
  | ok u => exact ⟨h, rfl, hP⟩
  | error e =>
    intro w' H' hr' _ _
    refine ⟨hr'.exec rfl (by rintro ⟨j, ⟨⟩⟩), .inr ⟨e, ?_⟩⟩
    simp

/-- A body that threw is rolled back. -/
lemma conclude_threw {e : ε} (ho : Open h) :
    Outline (exec aborted) (Run P) (fun _ _ _ _ => True) (Outcome P i) i h
      (conclude i (.error e)) := by
  intro w H hr _ _
  refine ⟨hr.exec rfl (by rintro ⟨j, ⟨⟩⟩), .inl fun hd => ?_⟩
  exact ho.not_asks (((did_concat ..).1 hd).resolve_right id)

/-- The outline of a transaction around its body. -/
lemma transaction_outline (hbody : Along (fun _ s => s.Inner i) (P i) [⟨.begin i, .ok ()⟩] (body i)) :
    Outline (exec aborted) (Run P) (fun _ _ _ _ => True) (Outcome P i) i []
      (transaction i (body i)) := by
  intro w H hr hH _
  refine ⟨hr.exec ⟨rfl, hH⟩ (by rintro ⟨j, ⟨⟩⟩), ?_⟩
  cases (Session.exec aborted (.begin i) w).2 with
  | error e =>
    refine .inl ?_
    rintro ⟨o, hmem, hasks⟩
    obtain rfl := List.mem_singleton.1 hmem
    cases hasks
  | ok u =>
    have hopen : Open ([⟨.begin i, .ok ()⟩] : History (Statement ι W) (Answer ε)) :=
      ⟨⟨_, List.mem_singleton_self _, trivial⟩, by
        rintro ⟨o, hmem, hcloses⟩
        obtain rfl := List.mem_singleton.1 hmem
        cases hcloses⟩
    refine Outline.catching (J := Open) hbody hopen (fun h s r hs ho => ho.inner r hs) ?_ ?_ ?_
    · intro s w H hs ho hr
      refine hr.exec (hs.orderly ho) ?_
      rintro ⟨j, rfl⟩
      cases hs
    · exact fun h a ho hP => conclude_returned hP ho
    · exact fun h e ho => conclude_threw ho

/-- The programs of all sessions side by side. -/
def played (aborted : ε) (body : ι → SessionProg ι ε W α) (fault : Nat → Option (Fault ε))
    (sched : List ι) : Pool (Statement ι W) (Answer ε) ε α (World ι ε W) ι :=
  (Pool.start (World.start fault) fun i => transaction i (body i)).play (exec aborted) sched

/-- Whatever fails and in whatever order the statements come: a session stores nothing, or all the
writes of a body that has completed and none of whose writes has failed. A program that returns has
stored them, unless one has failed; one that throws has stored nothing, unless its commit has failed. -/
lemma transaction_stored (aborted : ε)
    (hbody : ∀ i, Along (fun _ s => s.Inner i) (P i) [⟨.begin i, .ok ()⟩] (body i))
    (fault : Nat → Option (Fault ε)) (sched : List ι) (i : ι) :
    let c := played aborted body fault sched
    (c.world.stored i = [] ∨ ∃ h a, P i h a ∧ c.world.stored i = [written h]) ∧
    (∀ a, c.thread i = .ret a → ∃ h, c.seen i = h ++ [⟨.commit i, .ok ()⟩] ∧ P i h a ∧ Sound h ∧
      (¬ Did Fails h → c.world.stored i = [written h])) ∧
    ∀ e, c.thread i = .throw e →
      c.world.stored i = [] ∨ ∃ e', ⟨.commit i, .error e'⟩ ∈ c.seen i := by
  intro c
  have hplay : Run P c.world c.seen ∧ ∀ i, Outline (exec aborted) (Run P) (fun _ _ _ _ => True)
      (Outcome P i) i (c.seen i) (c.thread i) :=
    Outline.play ⟨kept_start fault, fun i ⟨o, hmem, _⟩ => by cases hmem⟩
      (fun i => transaction_outline (hbody i))
      (Pool.guarded_of_forall _ (fun _ _ _ _ => trivial) _ _)
  obtain ⟨hr, hout⟩ := hplay
  have hkept : KeptAt c.world i (c.seen i) := hr.kept i
  have hends : Outline (exec aborted) (Run P) (fun _ _ _ _ => True) (Outcome P i) i (c.seen i)
      (c.thread i) := hout i
  refine ⟨?_, fun a ha => ?_, fun e he => ?_⟩
  -- a session that never asked for its commit has stored nothing
  · by_cases hasks : Did AsksCommit (c.seen i)
    · obtain ⟨h, a, hP, hw⟩ := hr.completed i hasks
      refine hkept.stored.imp_right fun hs => ⟨h, a, hP, ?_⟩
      rw [← hw]
      exact hs.1
    · exact .inl (hkept.unstored hasks)
  · rw [ha] at hends
    obtain ⟨h, hseen, hP⟩ := hends
    rw [hseen] at hkept
    refine ⟨h, hseen, hP, hkept.sound.early, fun hfine => ?_⟩
    have hstored := hkept.committed ((did_concat ..).2 (.inr trivial)) fun hd => hfine
      (((did_concat ..).1 hd).resolve_right id)
    rw [written_concat] at hstored
    exact hstored.trans (congrArg (fun ws => [ws]) (List.append_nil _))
  · rw [he] at hends
    exact hends.imp_left hkept.unstored

end runs
end Session
end Concurrent
