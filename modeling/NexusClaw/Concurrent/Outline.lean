import NexusClaw.Concurrent.Pool

/-!
# Proof outlines for interleaved programs

The reasoning rule for pools. `I w H` is an invariant of the world and the histories of all
programs; `Outline exec I G Q i h p` says that program `i`, having observed `h` and about to
continue with `p`, keeps `I` at each of its statements from every state in which `I` holds,
whatever the other programs did since its last statement, and that it can only end with a result
that satisfies `Q`. A condition `G` may be assumed of each step it takes.

`Outline.play` is soundness: if every program has an outline from the empty history, the invariant
holds after every schedule that meets the condition, and every program that has ended satisfies
its postcondition. The outline of a program is built along its text with `outline_stmt`,
`Outline.bind` and `Outline.of_uses`.
-/

namespace Concurrent

variable {S : Type} {R : S → Type} {ε α β σ ι : Type} [DecidableEq ι]

/-- The history of program `i` extended by one executed statement. -/
def observe (H : ι → History S R) (i : ι) (s : S) (r : R s) : ι → History S R :=
  Function.update H i (H i ++ [⟨s, r⟩])

/-- A request sees its own statements. -/
@[simp] lemma observe_self (H : ι → History S R) (i : ι) (s : S) (r : R s) :
    observe H i s r i = H i ++ [⟨s, r⟩] :=
  Function.update_self ..

/-- And no others. -/
lemma observe_of_ne (H : ι → History S R) {i j : ι} (s : S) (r : R s) (h : j ≠ i) :
    observe H i s r j = H j :=
  Function.update_of_ne h ..

/-- An old observation is still there after a step. -/
lemma mem_observe (H : ι → History S R) (i j : ι) (s : S) (r : R s) {o : Sigma R}
    (h : o ∈ H j) : o ∈ observe H i s r j := by
  by_cases e : j = i
  · subst e; simp [h]
  · rwa [observe_of_ne H s r e]

/-- A new observation is the step's own or an old one. -/
lemma mem_observe_iff (H : ι → History S R) (i j : ι) (s : S) (r : R s) (o : Sigma R) :
    o ∈ observe H i s r j ↔ o ∈ H j ∨ (j = i ∧ o = ⟨s, r⟩) := by
  by_cases e : j = i
  · subst e; simp
  · rw [observe_of_ne H s r e]; simp [e]

/-- Something in the history satisfies `f`. -/
def Did (f : Sigma R → Prop) (h : History S R) : Prop :=
  ∃ o ∈ h, f o

/-- Nothing was done before the start. -/
@[simp] lemma did_nil (f : Sigma R → Prop) : ¬ Did f ([] : History S R) := by
  rintro ⟨o, ho, _⟩
  cases ho

/-- What was done first or later. -/
@[simp] lemma did_cons (f : Sigma R → Prop) (o : Sigma R) (h : History S R) :
    Did f (o :: h) ↔ f o ∨ Did f h := by
  simp [Did]

/-- What was done in one of two parts. -/
@[simp] lemma did_append (f : Sigma R → Prop) (h h' : History S R) :
    Did f (h ++ h') ↔ Did f h ∨ Did f h' := by
  simp [Did, or_and_right, exists_or]

/-- What was done before or last. -/
lemma did_concat (f : Sigma R → Prop) (h : History S R) (o : Sigma R) :
    Did f (h ++ [o]) ↔ Did f h ∨ f o := by
  simp

/-- What a request did, after one more statement. -/
lemma did_observe (f : Sigma R → Prop) (H : ι → History S R) (i j : ι) (s : S) (r : R s) :
    Did f (observe H i s r j) ↔ Did f (H j) ∨ (j = i ∧ f ⟨s, r⟩) := by
  by_cases e : j = i
  · subst e; simp
  · simp [observe_of_ne H s r e, e]

/-- A step that does not satisfy `f` leaves what has been done as it was. -/
lemma did_observe_of_not {f : Sigma R → Prop} {H : ι → History S R} {i : ι} {s : S} {r : R s}
    (h : ¬ f ⟨s, r⟩) (j : ι) : Did f (observe H i s r j) ↔ Did f (H j) := by
  simp [did_observe, h]

/-- What was done stays done. -/
lemma Did.mono {f : Sigma R → Prop} {h h' : History S R} (hd : Did f h) (hs : h ⊆ h') :
    Did f h' := by
  obtain ⟨o, ho, hf⟩ := hd
  exact ⟨o, hs ho, hf⟩

/-- Something in the history satisfies `f`, and something after it `g`. -/
def DidThen (f g : Sigma R → Prop) : History S R → Prop
  | [] => False
  | o :: h => f o ∧ Did g h ∨ DidThen f g h

/-- What was done after something else. -/
lemma didThen_concat (f g : Sigma R → Prop) (h : History S R) (o : Sigma R) :
    DidThen f g (h ++ [o]) ↔ DidThen f g h ∨ Did f h ∧ g o := by
  induction h with
  | nil => simp [DidThen]
  | cons a h ih =>
    rw [List.cons_append, DidThen, DidThen, ih, did_concat, did_cons]
    constructor
    · rintro (⟨hf, hg | hg⟩ | h | ⟨hf, hg⟩)
      · exact .inl (.inl ⟨hf, hg⟩)
      · exact .inr ⟨.inl hf, hg⟩
      · exact .inl (.inr h)
      · exact .inr ⟨.inr hf, hg⟩
    · rintro ((⟨hf, hg⟩ | h) | ⟨hf | hf, hg⟩)
      · exact .inl ⟨hf, .inl hg⟩
      · exact .inr (.inl h)
      · exact .inl ⟨hf, .inr hg⟩
      · exact .inr (.inr ⟨hf, hg⟩)

section decide
variable (f g : Sigma R → Prop) [DecidablePred f] [DecidablePred g]

instance (h : History S R) : Decidable (Did f h) :=
  inferInstanceAs (Decidable (∃ o ∈ h, f o))

def decideDidThen : (h : History S R) → Decidable (DidThen f g h)
  | [] => isFalse id
  | o :: h =>
    have := decideDidThen h
    inferInstanceAs (Decidable (f o ∧ Did g h ∨ DidThen f g h))

instance (h : History S R) : Decidable (DidThen f g h) :=
  decideDidThen f g h

end decide

/-! ## Programs along their histories -/

/-- Every statement `s` that the program issues after a history `h` satisfies `φ h s`, and every
result `a` it returns satisfies `Q h a`; what the statements do and are answered is left open. -/
def Along (φ : History S R → S → Prop) (Q : History S R → α → Prop) :
    History S R → Prog S R ε α → Prop
  | h, .ret a => Q h a
  | _, .throw _ => True
  | h, .stmt s k => φ h s ∧ ∀ r, Along φ Q (h ++ [⟨s, r⟩]) (k r)

/-- The program `p` has been given the answers of `h` and continues with `q`. -/
inductive Leads (p : Prog S R ε α) : History S R → Prog S R ε α → Prop where
  | start : Leads p [] p
  | answered {h s k} (r : R s) : Leads p h (.stmt s k) → Leads p (h ++ [⟨s, r⟩]) (k r)

section along
variable {φ ψ : History S R → S → Prop} {Q Q' : History S R → α → Prop} {h : History S R}

/-- A result needs its condition. -/
@[simp] lemma along_ret {a : α} : Along φ Q h (.ret a : Prog S R ε α) ↔ Q h a := Iff.rfl

/-- A failure needs nothing. -/
@[simp] lemma along_throw {e : ε} : Along φ Q h (.throw e : Prog S R ε α) := trivial

/-- A single statement in front of the rest. -/
lemma Along.call {s : S} {f : R s → Prog S R ε α} (hs : φ h s)
    (hf : ∀ r, Along φ Q (h ++ [⟨s, r⟩]) (f r)) : Along φ Q h (Prog.call s >>= f) :=
  ⟨hs, hf⟩

/-- A sequence, from what its first part leaves. -/
lemma Along.bind {P : History S R → β → Prop} {p : Prog S R ε α} {f : α → Prog S R ε β}
    (hp : Along φ Q h p) (hf : ∀ h a, Q h a → Along φ P h (f a)) : Along φ P h (p >>= f) := by
  induction p generalizing h with
  | ret a => exact hf h a hp
  | throw e => trivial
  | stmt s k ih => exact ⟨hp.1, fun r => ih r (hp.2 r)⟩

/-- A branch needs what the side taken needs. -/
lemma along_ite {c : Prop} [Decidable c] {p q : Prog S R ε α} :
    Along φ Q h (if c then p else q) ↔ (c → Along φ Q h p) ∧ (¬c → Along φ Q h q) := by
  by_cases hc : c
  · simp [hc]
  · simp [hc]

/-- Weaker conditions. -/
lemma Along.mono {p : Prog S R ε α} (hp : Along φ Q h p) (hφ : ∀ h s, φ h s → ψ h s)
    (hQ : ∀ h a, Q h a → Q' h a) : Along ψ Q' h p := by
  induction p generalizing h with
  | ret a => exact hQ _ _ hp
  | throw e => trivial
  | stmt s k ih => exact ⟨hφ h s hp.1, fun r => ih r (hp.2 r)⟩

/-- A stretch of statements that all behave alike, under a property `J` of the history. -/
lemma Along.of_uses {p : Prog S R ε α} {F : S → Prop} {J : History S R → Prop} (hp : p.Uses F)
    (hJ : J h) (hφ : ∀ h s, F s → J h → φ h s)
    (step : ∀ h s r, F s → J h → J (h ++ [⟨s, r⟩])) : Along φ (fun h _ => J h) h p := by
  induction p generalizing h with
  | ret a => exact hJ
  | throw e => trivial
  | stmt s k ih => exact ⟨hφ h s hp.1 hJ, fun r => ih r (hp.2 r) (step h s r hp.1 hJ)⟩

/-- What holds of every longer history still holds when the program returns. -/
lemma Along.past {p : Prog S R ε α} {J : History S R → Prop} (hp : Along φ Q h p) (hJ : J h)
    (step : ∀ h o, J h → J (h ++ [o])) : Along φ (fun h a => Q h a ∧ J h) h p := by
  induction p generalizing h with
  | ret a => exact ⟨hp, hJ⟩
  | throw e => trivial
  | stmt s k ih => exact ⟨hp.1, fun r => ih r (hp.2 r) (step h ⟨s, r⟩ hJ)⟩

/-- The history behind `h` has the answers that led the program to its result. -/
lemma Along.traced {p : Prog S R ε α} (hp : Along φ Q h p) :
    Along φ (fun h' a => Q h' a ∧ ∃ g, h' = h ++ g ∧ Leads p g (.ret a)) h p := by
  have hrest (q : Prog S R ε α) (g : History S R) (hq : Along φ Q (h ++ g) q) (hg : Leads p g q) :
      Along φ (fun h' a => Q h' a ∧ ∃ g, h' = h ++ g ∧ Leads p g (.ret a)) (h ++ g) q := by
    induction q generalizing g with
    | ret a => exact ⟨hq, g, rfl, hg⟩
    | throw e => trivial
    | stmt s k ih =>
      refine ⟨hq.1, fun r => ?_⟩
      have hnext := hq.2 r
      rw [List.append_assoc] at hnext ⊢
      exact ih r (g ++ [⟨s, r⟩]) hnext (hg.answered r)
  have hstart := hrest p []
  rw [List.append_nil] at hstart
  exact hstart hp .start

/-- An attempt, from what the program leaves. -/
lemma Along.attempt {p : Prog S R ε α} (hp : Along φ Q h p) :
    Along φ (fun h r => ∀ a, r = .ok a → Q h a) h p.attempt := by
  induction p generalizing h with
  | ret a =>
    intro b hb
    obtain rfl := Except.ok.inj hb
    exact hp
  | throw e =>
    intro b hb
    cases hb
  | stmt s k ih => exact ⟨hp.1, fun r => ih r (hp.2 r)⟩

/-- Every program meets the trivial conditions. -/
lemma along_true (h : History S R) (p : Prog S R ε α) :
    Along (fun _ _ => True) (fun _ _ => True) h p := by
  induction p generalizing h with
  | ret a => trivial
  | throw e => trivial
  | stmt s k ih => exact ⟨trivial, fun r => ih r _⟩

/-- The statements, without the history. -/
lemma Along.uses {p : Prog S R ε α} {χ : S → Prop} (hp : Along φ Q h p)
    (hφ : ∀ h s, φ h s → χ s) : p.Uses χ := by
  induction p generalizing h with
  | ret a => trivial
  | throw e => trivial
  | stmt s k ih => exact ⟨hφ h s hp.1, fun r => ih r (hp.2 r)⟩

/-- The result, without the history. -/
lemma Along.ends {p : Prog S R ε α} {P : α → Prop} (hp : Along φ Q h p)
    (hQ : ∀ h a, Q h a → P a) : p.Ends P := by
  induction p generalizing h with
  | ret a => exact hQ h a hp
  | throw e => trivial
  | stmt s k ih => exact fun r => ih r (hp.2 r)

/-- Programs in a pool stay along their histories, whatever the others do. -/
lemma Along.play {exec : (s : S) → σ → σ × R s} {φ : ι → History S R → S → Prop}
    {Q : ι → History S R → α → Prop} {p : ι → Prog S R ε α} {w : σ}
    (hp : ∀ i, Along (φ i) (Q i) [] (p i)) (sched : List ι) (i : ι) :
    Along (φ i) (Q i) (((Pool.start w p).play exec sched).seen i)
      (((Pool.start w p).play exec sched).thread i) := by
  refine Pool.play_invariant exec (I := fun c => ∀ i, Along (φ i) (Q i) (c.seen i) (c.thread i))
    ?_ hp sched i
  intro c j hc i
  cases hj : c.thread j with
  | ret a => rw [Pool.advance_ret hj]; exact hc i
  | throw e => rw [Pool.advance_throw hj]; exact hc i
  | stmt s k =>
    have halong := hc j
    rw [hj] at halong
    rw [Pool.advance_stmt hj]
    by_cases e : i = j
    · subst e
      simpa using halong.2 _
    · simpa [Function.update_of_ne e] using hc i

/-- What was known of each statement that a program of the pool has executed, when it came to it. -/
lemma Along.observed {exec : (s : S) → σ → σ × R s} {φ : ι → History S R → S → Prop}
    {Q : ι → History S R → α → Prop} {p : ι → Prog S R ε α} {w : σ}
    (hp : ∀ i, Along (φ i) (Q i) [] (p i)) (sched : List ι) (i : ι) {h : History S R}
    {o : Sigma R} (ho : h ++ [o] <+: ((Pool.start w p).play exec sched).seen i) : φ i h o.1 := by
  have hplay := Pool.play_invariant exec (c := Pool.start w p)
    (I := fun c => ∀ i, Along (φ i) (Q i) (c.seen i) (c.thread i) ∧
      ∀ h o, h ++ [o] <+: c.seen i → φ i h o.1) (fun c j hc i => ?_)
    (fun i => ⟨hp i, fun h o ho => ?_⟩) sched i
  · exact hplay.2 h o ho
  · cases hj : c.thread j with
    | ret a => rw [Pool.advance_ret hj]; exact hc i
    | throw e => rw [Pool.advance_throw hj]; exact hc i
    | stmt s k =>
      rw [Pool.advance_stmt hj]
      by_cases e : i = j
      · subst e
        obtain ⟨halong, hbefore⟩ := hc i
        rw [hj] at halong
        simp only [Function.update_self]
        refine ⟨halong.2 _, fun h o ho => ?_⟩
        -- The last statement is the one of this step, the others were there before.
        rcases List.prefix_concat_iff.1 ho with heq | hold
        · obtain ⟨rfl, hlast⟩ := List.append_inj' heq rfl
          obtain rfl := List.singleton_inj.1 hlast
          exact halong.1
        · exact hbefore h o hold
      · simpa only [Function.update_of_ne e] using hc i
  · exact absurd (List.prefix_nil.1 ho) (by simp)

end along

section outline
variable (exec : (s : S) → σ → σ × R s)
variable (I : σ → (ι → History S R) → Prop)
variable (G : σ → (ι → History S R) → ι → S → Prop)
variable (Q : History S R → Except ε α → Prop)

/-- Program `i`, having observed `h`, keeps `I` along `p` and ends in `Q`. -/
def Outline (i : ι) : History S R → Prog S R ε α → Prop
  | h, .ret a => Q h (.ok a)
  | h, .throw e => Q h (.error e)
  | h, .stmt s k => ∀ w H, I w H → H i = h → G w H i s →
      I (exec s w).1 (observe H i s (exec s w).2) ∧
        Outline i (h ++ [⟨s, (exec s w).2⟩]) (k (exec s w).2)

end outline

section rules
variable {exec : (s : S) → σ → σ × R s}
variable {I : σ → (ι → History S R) → Prop}
variable {G : σ → (ι → History S R) → ι → S → Prop}
variable {Q : History S R → Except ε α → Prop}
variable {i : ι} {h : History S R}

/-- A result needs its condition. -/
@[simp] lemma outline_ret {a : α} :
    Outline exec I G Q i h (.ret a) ↔ Q h (.ok a) := Iff.rfl

/-- A failure needs its condition. -/
@[simp] lemma outline_throw {e : ε} :
    Outline exec I G Q i h (.throw e : Prog S R ε α) ↔ Q h (.error e) := Iff.rfl

/-- The rule for a statement: the invariant and the history are those before it. -/
lemma Outline.call {s : S} {f : R s → Prog S R ε α}
    (hf : ∀ w H, I w H → H i = h → G w H i s →
      I (exec s w).1 (observe H i s (exec s w).2) ∧
        Outline exec I G Q i (h ++ [⟨s, (exec s w).2⟩]) (f (exec s w).2)) :
    Outline exec I G Q i h (Prog.call s >>= f) :=
  hf

/-- The rule of consequence. -/
lemma Outline.mono {Q' : History S R → Except ε α → Prop} {p : Prog S R ε α}
    (hp : Outline exec I G Q i h p) (hQ : ∀ h r, Q h r → Q' h r) :
    Outline exec I G Q' i h p := by
  induction p generalizing h with
  | ret a => exact hQ _ _ hp
  | throw e => exact hQ _ _ hp
  | stmt s k ih =>
    intro w H hI hH hG
    obtain ⟨hI', hk⟩ := hp w H hI hH hG
    exact ⟨hI', ih _ hk⟩

/-- The rule of sequencing. -/
lemma Outline.bind {Q' : History S R → Except ε β → Prop} {p : Prog S R ε α}
    {f : α → Prog S R ε β} (hp : Outline exec I G Q i h p)
    (hf : ∀ h a, Q h (.ok a) → Outline exec I G Q' i h (f a))
    (he : ∀ h e, Q h (.error e) → Q' h (.error e)) :
    Outline exec I G Q' i h (p >>= f) := by
  induction p generalizing h with
  | ret a => exact hf _ _ hp
  | throw e => exact he _ _ hp
  | stmt s k ih =>
    intro w H hI hH hG
    obtain ⟨hI', hk⟩ := hp w H hI hH hG
    exact ⟨hI', ih _ hk⟩

/-- The rule for a stretch of statements that all behave alike: each keeps the invariant and a
property `J` of the program's own history. -/
lemma Outline.of_uses {φ : S → Prop} {J : History S R → Prop} {p : Prog S R ε α}
    (hp : p.Uses φ) (hJ : J h)
    (step : ∀ s w H, φ s → I w H → J (H i) → G w H i s →
      I (exec s w).1 (observe H i s (exec s w).2) ∧ J (H i ++ [⟨s, (exec s w).2⟩]))
    (post : ∀ h r, J h → Q h r) :
    Outline exec I G Q i h p := by
  induction p generalizing h with
  | ret a => exact post _ _ hJ
  | throw e => exact post _ _ hJ
  | stmt s k ih =>
    intro w H hI hH hG
    obtain ⟨hI', hJ'⟩ := step s w H hp.1 hI (hH ▸ hJ) hG
    exact ⟨hI', ih _ (hp.2 _) (hH ▸ hJ')⟩

/-- The rule for a program whose statements are known along its histories. -/
lemma Outline.of_along {F : History S R → S → Prop} {P : History S R → α → Prop}
    {p : Prog S R ε α} (hp : Along F P h p)
    (step : ∀ s w H, F (H i) s → I w H → G w H i s →
      I (exec s w).1 (observe H i s (exec s w).2))
    (post : ∀ h a, P h a → Q h (.ok a)) (fail : ∀ h e, Q h (.error e)) :
    Outline exec I G Q i h p := by
  induction p generalizing h with
  | ret a => exact post h a hp
  | throw e => exact fail h e
  | stmt s k ih =>
    intro w H hI hH hG
    exact ⟨step s w H (hH ▸ hp.1) hI hG, ih _ (hp.2 _)⟩

/-- Soundness: a pool of programs with outlines keeps the invariant over every schedule that meets
the condition. -/
theorem Outline.play {Q : ι → History S R → Except ε α → Prop} {p : ι → Prog S R ε α} {w : σ}
    (hI : I w fun _ => []) (hp : ∀ i, Outline exec I G (Q i) i [] (p i)) {sched : List ι}
    (hG : Pool.Guarded exec G (Pool.start w p) sched) :
    let c := (Pool.start w p).play exec sched
    I c.world c.seen ∧ ∀ i, Outline exec I G (Q i) i (c.seen i) (c.thread i) := by
  -- stated for every pool, so that the induction can go to the next one
  suffices key : ∀ c : Pool S R ε α σ ι, I c.world c.seen →
      (∀ i, Outline exec I G (Q i) i (c.seen i) (c.thread i)) →
      Pool.Guarded exec G c sched →
      I (c.play exec sched).world (c.play exec sched).seen ∧
        ∀ i, Outline exec I G (Q i) i ((c.play exec sched).seen i)
          ((c.play exec sched).thread i) from
    key (Pool.start w p) hI hp hG
  clear hG hI hp
  induction sched with
  | nil => exact fun c hI hO _ => ⟨hI, hO⟩
  | cons j sched ih =>
    intro c hI hO hG
    obtain ⟨hstep, hG⟩ := hG
    rw [Pool.play_cons]
    cases hj : c.thread j with
    | ret a => rw [Pool.advance_ret hj] at hG ⊢; exact ih c hI hO hG
    | throw e => rw [Pool.advance_throw hj] at hG ⊢; exact ih c hI hO hG
    | stmt s k =>
      have hs : G c.world c.seen j s := by simpa only [Pool.StepOk, hj] using hstep
      have hOj := hO j
      rw [hj] at hOj
      obtain ⟨hI', hk⟩ := hOj c.world c.seen hI rfl hs
      refine ih _ ?_ ?_ hG
      · rw [Pool.advance_stmt hj]; exact hI'
      · intro i
        rw [Pool.advance_stmt hj]
        by_cases e : i = j
        · subst e; simpa using hk
        · simpa [Function.update_of_ne e] using hO i

end rules

end Concurrent
