import NexusClaw.Concurrent.Outline

/-!
# Programs with a bookkeeping state

A ghost state `μ` keeps what the statements executed so far say about a program: `δ m s r` is the
bookkeeping after statement `s` was answered `r`. `Tracked δ φ Q m p` says that `p`, entered with the
bookkeeping `m`, issues only statements that the law `φ` allows at that point, and ends with a result
that `Q` allows. It speaks about the text of one program and not about a world, so it is proved once
for each program (`Tracked.call`, `Tracked.bind`, `Tracked.attempt`, `Tracked.of_uses`).

`Tracked.play` is what it is for: an invariant of the world and of everybody's bookkeeping that each
lawful statement keeps holds after every schedule.
-/

namespace Concurrent

variable {S : Type} {R : S → Type} {ε α β σ ι μ : Type}

section tracked
variable (δ : μ → (s : S) → R s → μ) (φ : μ → S → Prop)

/-- The bookkeeping after a history. -/
def bookkeeping (m : μ) (h : History S R) : μ :=
  h.foldl (fun m o => δ m o.1 o.2) m

/-- `p` obeys the law `φ` from the bookkeeping `m` on and ends in `Q`. -/
def Tracked (Q : μ → Except ε α → Prop) : μ → Prog S R ε α → Prop
  | m, .ret a => Q m (.ok a)
  | m, .throw e => Q m (.error e)
  | m, .stmt s k => φ m s ∧ ∀ r, Tracked Q (δ m s r) (k r)

end tracked

section rules
variable {δ : μ → (s : S) → R s → μ} {φ ψ : μ → S → Prop} {m : μ}
variable {Q Q' : μ → Except ε α → Prop} {P : μ → Except ε β → Prop}

/-- The books before the start. -/
@[simp] lemma bookkeeping_nil : bookkeeping δ m ([] : History S R) = m := rfl

/-- The books over two histories. -/
lemma bookkeeping_append (h h' : History S R) :
    bookkeeping δ m (h ++ h') = bookkeeping δ (bookkeeping δ m h) h' :=
  List.foldl_append

/-- The books after one more statement. -/
@[simp] lemma bookkeeping_concat (h : History S R) (s : S) (r : R s) :
    bookkeeping δ m (h ++ [⟨s, r⟩]) = δ (bookkeeping δ m h) s r :=
  bookkeeping_append h [⟨s, r⟩]

/-- A result needs its condition. -/
@[simp] lemma tracked_ret {a : α} :
    Tracked δ φ Q m (.ret a : Prog S R ε α) ↔ Q m (.ok a) := Iff.rfl

/-- A failure needs its condition. -/
@[simp] lemma tracked_throw {e : ε} :
    Tracked δ φ Q m (.throw e : Prog S R ε α) ↔ Q m (.error e) := Iff.rfl

/-- The rule for a statement. -/
lemma Tracked.call {s : S} {f : R s → Prog S R ε α} (hs : φ m s)
    (hf : ∀ r, Tracked δ φ Q (δ m s r) (f r)) : Tracked δ φ Q m (Prog.call s >>= f) :=
  ⟨hs, hf⟩

/-- The rule of consequence. -/
lemma Tracked.mono {p : Prog S R ε α} (hp : Tracked δ φ Q m p) (hφ : ∀ m s, φ m s → ψ m s)
    (hQ : ∀ m r, Q m r → Q' m r) : Tracked δ ψ Q' m p := by
  induction p generalizing m with
  | ret a => exact hQ _ _ hp
  | throw e => exact hQ _ _ hp
  | stmt s k ih => exact ⟨hφ _ _ hp.1, fun r => ih r (hp.2 r)⟩

/-- A weaker condition at the end. -/
lemma Tracked.post {p : Prog S R ε α} (hp : Tracked δ φ Q m p)
    (hQ : ∀ m r, Q m r → Q' m r) : Tracked δ φ Q' m p :=
  hp.mono (fun _ _ h => h) hQ

/-- The rule of sequencing. -/
lemma Tracked.bind {p : Prog S R ε α} {f : α → Prog S R ε β} (hp : Tracked δ φ Q m p)
    (hf : ∀ m a, Q m (.ok a) → Tracked δ φ P m (f a))
    (he : ∀ m e, Q m (.error e) → P m (.error e)) : Tracked δ φ P m (p >>= f) := by
  induction p generalizing m with
  | ret a => exact hf _ _ hp
  | throw e => exact he _ _ hp
  | stmt s k ih => exact ⟨hp.1, fun r => ih r (hp.2 r)⟩

/-- The rule of `try`: whatever the program ends with becomes a result. -/
lemma Tracked.attempt {P : μ → Except ε (Except ε α) → Prop} {p : Prog S R ε α}
    (hp : Tracked δ φ Q m p) (hQ : ∀ m r, Q m r → P m (.ok r)) :
    Tracked δ φ P m p.attempt := by
  induction p generalizing m with
  | ret a => exact hQ _ _ hp
  | throw e => exact hQ _ _ hp
  | stmt s k ih => exact ⟨hp.1, fun r => ih r (hp.2 r)⟩

/-- A branch needs what the side taken needs. -/
lemma tracked_ite {c : Prop} [Decidable c] {p q : Prog S R ε α} :
    Tracked δ φ Q m (if c then p else q) ↔
      (c → Tracked δ φ Q m p) ∧ (¬c → Tracked δ φ Q m q) := by
  by_cases h : c
  · simp [h]
  · simp [h]

/-- A law that does not look at the bookkeeping bounds the statements of the program. -/
lemma Tracked.uses {F : S → Prop} {p : Prog S R ε α} (hp : Tracked δ (fun _ => F) Q m p) :
    p.Uses F := by
  induction p generalizing m with
  | ret a => trivial
  | throw e => trivial
  | stmt s k ih => exact ⟨hp.1, fun r => ih r (hp.2 r)⟩

/-- A stretch of statements that are lawful wherever `J` holds of the bookkeeping, and keep `J`. -/
lemma Tracked.of_uses {F : S → Prop} {J : μ → Prop} {p : Prog S R ε α} (hp : p.Uses F) (hJ : J m)
    (hφ : ∀ m s, F s → J m → φ m s) (step : ∀ m s r, F s → J m → J (δ m s r))
    (post : ∀ m r, J m → Q m r) : Tracked δ φ Q m p := by
  induction p generalizing m with
  | ret a => exact post _ _ hJ
  | throw e => exact post _ _ hJ
  | stmt s k ih => exact ⟨hφ m s hp.1 hJ, fun r => ih r (hp.2 r) (step m s r hp.1 hJ)⟩

/-- Where a lawful program stands after a history and with what it ends. -/
lemma Tracked.run {exec : (s : S) → σ → σ × R s} {p : Prog S R ε α} (hp : Tracked δ φ Q m p)
    {I : σ → μ → Prop} (step : ∀ w m s, I w m → φ m s → I (exec s w).1 (δ m s (exec s w).2)) {w : σ}
    (hw : I w m) : ∃ m', I (p.run exec w).2 m' ∧ Q m' (p.run exec w).1 := by
  induction p generalizing m w with
  | ret a => exact ⟨m, hw, hp⟩
  | throw e => exact ⟨m, hw, hp⟩
  | stmt s k ih => exact ih _ (hp.2 _) (step w m s hw hp.1)

end rules

/-- Every statement of the history was lawful where it was issued. -/
def Lawful (δ : μ → (s : S) → R s → μ) (φ : μ → S → Prop) (m : μ) (h : History S R) : Prop :=
  ∀ before o after, h = before ++ o :: after → φ (bookkeeping δ m before) o.1

/-- A lawful history with one more lawful statement. -/
lemma Lawful.concat {δ : μ → (s : S) → R s → μ} {φ : μ → S → Prop} {m : μ} {h : History S R}
    (hh : Lawful δ φ m h) {s : S} (hs : φ (bookkeeping δ m h) s) (r : R s) :
    Lawful δ φ m (h ++ [⟨s, r⟩]) := by
  intro before o after heq
  rcases List.eq_nil_or_concat after with rfl | ⟨init, last, rfl⟩
  · have hinj := List.append_inj' heq rfl
    obtain ⟨rfl, ho⟩ := hinj
    rw [List.cons.injEq] at ho
    exact ho.1 ▸ hs
  · rw [List.concat_eq_append, ← List.cons_append, ← List.append_assoc] at heq
    exact hh before o init (List.append_inj' heq rfl).1

/-- The rest of a lawful history is lawful. -/
lemma Lawful.tail {δ : μ → (s : S) → R s → μ} {φ : μ → S → Prop} {m : μ} {o : Sigma R}
    {h : History S R} (hh : Lawful δ φ m (o :: h)) : Lawful δ φ (δ m o.1 o.2) h :=
  fun before o' after heq => hh (o :: before) o' after (by rw [heq]; rfl)

/-- What every lawful statement keeps of the bookkeeping holds after a lawful history. -/
lemma Lawful.inv {δ : μ → (s : S) → R s → μ} {φ : μ → S → Prop} {I : μ → Prop} {m : μ}
    {h : History S R} (hh : Lawful δ φ m h) (hm : I m)
    (step : ∀ m s r, I m → φ m s → I (δ m s r)) : I (bookkeeping δ m h) := by
  induction h generalizing m with
  | nil => exact hm
  | cons o h ih => exact ih hh.tail (step m o.1 o.2 hm (hh [] o h rfl))

section product
variable {ν : Type} {δ : μ → (s : S) → R s → μ} {φ : μ → S → Prop} {δ' : ν → (s : S) → R s → ν}
  {φ' : ν → S → Prop} {m : μ} {n : ν}

/-- Two bookkeepings side by side. -/
def sideBySide (δ : μ → (s : S) → R s → μ) (δ' : ν → (s : S) → R s → ν) (m : μ × ν) (s : S)
    (r : R s) : μ × ν :=
  (δ m.1 s r, δ' m.2 s r)

/-- Each of the two is kept as it would be alone. -/
lemma bookkeeping_sideBySide (h : History S R) :
    bookkeeping (sideBySide δ δ') (m, n) h = (bookkeeping δ m h, bookkeeping δ' n h) := by
  induction h generalizing m n with
  | nil => rfl
  | cons o h ih => exact ih

/-- A program that obeys two laws, each about its own bookkeeping. -/
lemma Tracked.both {Q : μ → Except ε α → Prop} {Q' : ν → Except ε α → Prop} {p : Prog S R ε α}
    (hp : Tracked δ φ Q m p) (hp' : Tracked δ' φ' Q' n p) :
    Tracked (sideBySide δ δ') (fun m s => φ m.1 s ∧ φ' m.2 s) (fun m r => Q m.1 r ∧ Q' m.2 r) (m, n)
      p := by
  induction p generalizing m n with
  | ret a => exact ⟨hp, hp'⟩
  | throw e => exact ⟨hp, hp'⟩
  | stmt s k ih => exact ⟨⟨hp.1, hp'.1⟩, fun r => ih r (hp.2 r) (hp'.2 r)⟩

end product

section pool
variable [DecidableEq ι] {exec : (s : S) → σ → σ × R s}
variable {δ : μ → (s : S) → R s → μ} {φ : μ → S → Prop}

/-- The books of all requests after one more statement. -/
lemma bookkeeping_observe (m : μ) (H : ι → History S R) (i : ι) (s : S) (r : R s) :
    (fun j => bookkeeping δ m (observe H i s r j)) =
      Function.update (fun j => bookkeeping δ m (H j)) i (δ (bookkeeping δ m (H i)) s r) := by
  funext j
  by_cases e : j = i
  · subst e
    rw [observe_self, bookkeeping_concat, Function.update_self]
  · rw [observe_of_ne H s r e, Function.update_of_ne e]

/-- An outline from a tracked program: the invariant is about the world and everybody's
bookkeeping. -/
lemma Tracked.outline {J : σ → (ι → μ) → Prop} {G : σ → (ι → μ) → ι → S → Prop} {m₀ : μ}
    {Q : μ → Except ε α → Prop} {i : ι} {h : History S R} {p : Prog S R ε α}
    (hp : Tracked δ φ Q (bookkeeping δ m₀ h) p)
    (step : ∀ w M s, J w M → φ (M i) s → G w M i s →
      J (exec s w).1 (Function.update M i (δ (M i) s (exec s w).2))) :
    Outline exec (fun w H => J w fun j => bookkeeping δ m₀ (H j))
      (fun w H i s => G w (fun j => bookkeeping δ m₀ (H j)) i s)
      (fun h r => Q (bookkeeping δ m₀ h) r) i h p := by
  induction p generalizing h with
  | ret a => exact hp
  | throw e => exact hp
  | stmt s k ih =>
    intro w H hI hH hG
    refine ⟨?_, ih _ ?_⟩
    · have hlaw : φ (bookkeeping δ m₀ (H i)) s := hH ▸ hp.1
      have hnext := step w _ s hI hlaw hG
      show J _ fun j => bookkeeping δ m₀ (observe H i s (exec s w).2 j)
      rw [bookkeeping_observe]
      exact hnext
    · rw [bookkeeping_concat]
      exact hp.2 _

/-- Soundness: an invariant that every lawful statement keeps holds after every schedule that meets
the condition, and every program is still lawful from where it stands. Each program has its own
law. -/
theorem Tracked.play {φ : ι → μ → S → Prop} {J : σ → (ι → μ) → Prop}
    {G : σ → (ι → μ) → ι → S → Prop} {m₀ : μ} {Q : ι → μ → Except ε α → Prop}
    {p : ι → Prog S R ε α} {w : σ}
    (hp : ∀ i, Tracked δ (φ i) (Q i) m₀ (p i)) (hJ : J w fun _ => m₀)
    (step : ∀ w M i s, J w M → φ i (M i) s → G w M i s →
      J (exec s w).1 (Function.update M i (δ (M i) s (exec s w).2))) {sched : List ι}
    (hG : Pool.Guarded exec (fun w H i s => G w (fun j => bookkeeping δ m₀ (H j)) i s)
      (Pool.start w p) sched) :
    let c := (Pool.start w p).play exec sched
    J c.world (fun i => bookkeeping δ m₀ (c.seen i)) ∧
      (∀ i a, c.thread i = .ret a → Q i (bookkeeping δ m₀ (c.seen i)) (.ok a)) ∧
      ∀ i e, c.thread i = .throw e → Q i (bookkeeping δ m₀ (c.seen i)) (.error e) := by
  have hplay := Outline.play (I := fun w H => J w fun j => bookkeeping δ m₀ (H j))
    (Q := fun i h r => Q i (bookkeeping δ m₀ h) r) hJ
    (fun i => Tracked.outline (h := []) (hp i) fun w M s => step w M i s) hG
  obtain ⟨hinv, hthreads⟩ := hplay
  refine ⟨hinv, fun i a hi => ?_, fun i e hi => ?_⟩
  · have hthread := hthreads i
    rw [hi] at hthread
    exact hthread
  · have hthread := hthreads i
    rw [hi] at hthread
    exact hthread

/-- A program that obeys a law obeys it from where it stands after every schedule, and its history is
lawful, whatever the others do. -/
theorem Tracked.standing {m : μ} {Q : μ → Except ε α → Prop} {p : ι → Prog S R ε α} {i : ι}
    (hp : Tracked δ φ Q m (p i)) (w : σ) (sched : List ι) :
    let c := (Pool.start w p).play exec sched
    Tracked δ φ Q (bookkeeping δ m (c.seen i)) (c.thread i) ∧ Lawful δ φ m (c.seen i) := by
  refine Pool.play_invariant exec (c := Pool.start w p)
    (I := fun c => Tracked δ φ Q (bookkeeping δ m (c.seen i)) (c.thread i) ∧
      Lawful δ φ m (c.seen i)) (fun c j hc => ?_) ⟨hp, fun before o after h => ?_⟩ sched
  · obtain ⟨htracked, hlawful⟩ := hc
    cases hj : c.thread j with
    | ret a => rw [Pool.advance_ret hj]; exact ⟨htracked, hlawful⟩
    | throw e => rw [Pool.advance_throw hj]; exact ⟨htracked, hlawful⟩
    | stmt s k =>
      rw [Pool.advance_stmt hj]
      by_cases e : i = j
      · subst e
        rw [hj] at htracked
        simp only [Function.update_self, bookkeeping_concat]
        exact ⟨htracked.2 _, hlawful.concat htracked.1 _⟩
      · simpa only [Function.update_of_ne e] using ⟨htracked, hlawful⟩
  · have hnil : ([] : History S R) = before ++ o :: after := h
    simp at hnil

/-- What a tracked program does is lawful in every interleaving. -/
theorem Tracked.lawful {m : μ} {Q : μ → Except ε α → Prop} {p : ι → Prog S R ε α} {i : ι}
    (hp : Tracked δ φ Q m (p i)) (w : σ) (sched : List ι) :
    Lawful δ φ m (((Pool.start w p).play exec sched).seen i) :=
  (Tracked.standing hp w sched).2

/-- The statement that a lawful program is about to issue is lawful. -/
lemma Tracked.next {m : μ} {Q : μ → Except ε α → Prop} {p : ι → Prog S R ε α} {i : ι}
    (hp : Tracked δ φ Q m (p i)) {w : σ} {sched : List ι} {s : S} {k : R s → Prog S R ε α}
    (hi : ((Pool.start w p).play exec sched).thread i = .stmt s k) :
    φ (bookkeeping δ m (((Pool.start w p).play exec sched).seen i)) s := by
  have hstanding : Tracked δ φ Q _ (((Pool.start w p).play exec sched).thread i) :=
    (Tracked.standing hp w sched).1
  rw [hi] at hstanding
  exact hstanding.1

/-- What a lawful program has returned meets its postcondition. -/
lemma Tracked.returned {m : μ} {Q : μ → Except ε α → Prop} {p : ι → Prog S R ε α} {i : ι}
    (hp : Tracked δ φ Q m (p i)) {w : σ} {sched : List ι} {a : α}
    (hi : ((Pool.start w p).play exec sched).thread i = .ret a) :
    Q (bookkeeping δ m (((Pool.start w p).play exec sched).seen i)) (.ok a) := by
  have hstanding : Tracked δ φ Q _ (((Pool.start w p).play exec sched).thread i) :=
    (Tracked.standing hp w sched).1
  rw [hi] at hstanding
  exact hstanding

/-- A program whose statements are free ends in its postcondition after every schedule. -/
theorem Tracked.ends_ret {m₀ : μ} {Q : ι → μ → Except ε α → Prop} {p : ι → Prog S R ε α}
    (hp : ∀ i, Tracked δ (fun _ _ => True) (Q i) m₀ (p i)) (w : σ) (sched : List ι) {i : ι} {a : α}
    (hi : ((Pool.start w p).play exec sched).thread i = .ret a) :
    Q i (bookkeeping δ m₀ (((Pool.start w p).play exec sched).seen i)) (.ok a) := by
  have hplay := Tracked.play (J := fun _ _ => True) (G := fun _ _ _ _ => True) hp trivial
    (fun _ _ _ _ _ _ _ => trivial)
    (Pool.guarded_of_forall exec (fun _ _ _ _ => trivial) (Pool.start w p) sched)
  exact hplay.2.1 i a hi

end pool

end Concurrent
