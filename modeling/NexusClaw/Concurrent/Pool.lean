import NexusClaw.Concurrent.Program

/-!
# Interleavings

A `Pool` is a world shared by a family of programs, one for each index in `ι`. `Pool.advance c i`
lets program `i` execute its next statement atomically; a schedule is the list of the indices in
the order they are let in, so a statement about every schedule is a statement about every
interleaving, and a family over an infinite `ι` covers any number of requests.

`seen i` is what program `i` has observed so far: its executed statements with their responses.
It determines where the program is, and it is what conditions on a step (`Pool.Guarded`) can speak
about besides the world.
-/

namespace Concurrent

/-- The executed statements of one program, oldest first, each with its response. -/
abbrev History (S : Type) (R : S → Type) : Type :=
  List (Sigma R)

/-- The first `n` statements of a solo run with their responses. -/
def Prog.observed {S : Type} {R : S → Type} {ε α σ : Type} (exec : (s : S) → σ → σ × R s) :
    Nat → Prog S R ε α → σ → History S R
  | n + 1, .stmt s k, w =>
    ⟨s, (exec s w).2⟩ :: (k (exec s w).2).observed exec n (exec s w).1
  | _, _, _ => []

/-- A world shared by programs that wait to be advanced. -/
structure Pool (S : Type) (R : S → Type) (ε α σ ι : Type) where
  world : σ
  thread : ι → Prog S R ε α
  seen : ι → History S R

namespace Pool

variable {S : Type} {R : S → Type} {ε α σ ι : Type}

/-- The pool in which no program has executed a statement yet. -/
def start (w : σ) (p : ι → Prog S R ε α) : Pool S R ε α σ ι :=
  ⟨w, p, fun _ => []⟩

variable [DecidableEq ι] (exec : (s : S) → σ → σ × R s)

/-- Program `i` executes its next statement; a program that has ended stays as it is. -/
def advance (c : Pool S R ε α σ ι) (i : ι) : Pool S R ε α σ ι :=
  match c.thread i with
  | .ret _ => c
  | .throw _ => c
  | .stmt s k =>
    { world := (exec s c.world).1
      thread := Function.update c.thread i (k (exec s c.world).2)
      seen := Function.update c.seen i (c.seen i ++ [⟨s, (exec s c.world).2⟩]) }

/-- The pool after a schedule. -/
def play (c : Pool S R ε α σ ι) (sched : List ι) : Pool S R ε α σ ι :=
  sched.foldl (advance exec) c

/-- Nothing is played. -/
@[simp] lemma play_nil (c : Pool S R ε α σ ι) : c.play exec [] = c := rfl

/-- A schedule is played from its first step. -/
@[simp] lemma play_cons (c : Pool S R ε α σ ι) (i : ι) (sched : List ι) :
    c.play exec (i :: sched) = (c.advance exec i).play exec sched := rfl

/-- Two schedules are played one after the other. -/
lemma play_append (c : Pool S R ε α σ ι) (s t : List ι) :
    c.play exec (s ++ t) = (c.play exec s).play exec t :=
  List.foldl_append

variable {exec} in
/-- A program that returned stays. -/
lemma advance_ret {c : Pool S R ε α σ ι} {i : ι} {a : α} (h : c.thread i = .ret a) :
    c.advance exec i = c := by
  unfold advance; rw [h]

variable {exec} in
/-- So does one that failed. -/
lemma advance_throw {c : Pool S R ε α σ ι} {i : ι} {e : ε} (h : c.thread i = .throw e) :
    c.advance exec i = c := by
  unfold advance; rw [h]

variable {exec} in
/-- A program at a statement issues it. -/
lemma advance_stmt {c : Pool S R ε α σ ι} {i : ι} {s : S} {k : R s → Prog S R ε α}
    (h : c.thread i = .stmt s k) :
    c.advance exec i =
      { world := (exec s c.world).1
        thread := Function.update c.thread i (k (exec s c.world).2)
        seen := Function.update c.seen i (c.seen i ++ [⟨s, (exec s c.world).2⟩]) } := by
  unfold advance; rw [h]

/-- What a single step keeps, every schedule keeps. -/
lemma play_invariant {I : Pool S R ε α σ ι → Prop}
    (step : ∀ c i, I c → I (c.advance exec i)) {c : Pool S R ε α σ ι} (hc : I c)
    (sched : List ι) : I (c.play exec sched) := by
  induction sched generalizing c with
  | nil => exact hc
  | cons i sched ih => exact ih (step c i hc)

/-- Observations are never forgotten. -/
lemma seen_subset_play (c : Pool S R ε α σ ι) (i : ι) (sched : List ι) :
    c.seen i ⊆ (c.play exec sched).seen i := by
  refine play_invariant exec (I := fun c' => c.seen i ⊆ c'.seen i) ?_ (List.Subset.refl _) sched
  intro c' j hc'
  cases hj : c'.thread j with
  | ret a => rwa [advance_ret hj]
  | throw e => rwa [advance_throw hj]
  | stmt s k =>
    rw [advance_stmt hj]
    by_cases e : i = j
    · subst e
      simpa using List.Subset.trans hc' (List.subset_append_left ..)
    · simpa [Function.update_of_ne e] using hc'

/-- A reflexive and transitive relation that every statement the programs can issue respects
relates the worlds before and after a schedule. -/
lemma play_rel {φ : S → Prop} {T : σ → σ → Prop} (refl : ∀ w, T w w)
    (trans : ∀ a b c, T a b → T b c → T a c) (step : ∀ s w, φ s → T w (exec s w).1)
    {c : Pool S R ε α σ ι} (hc : ∀ i, (c.thread i).Uses φ) (sched : List ι) :
    T c.world (c.play exec sched).world ∧ ∀ i, ((c.play exec sched).thread i).Uses φ := by
  refine play_invariant exec (I := fun c' => T c.world c'.world ∧ ∀ i, (c'.thread i).Uses φ)
    ?_ ⟨refl _, hc⟩ sched
  intro c' j ⟨hT, hu⟩
  cases hj : c'.thread j with
  | ret a => rw [advance_ret hj]; exact ⟨hT, hu⟩
  | throw e => rw [advance_throw hj]; exact ⟨hT, hu⟩
  | stmt s k =>
    have huj := hu j
    rw [hj] at huj
    rw [advance_stmt hj]
    refine ⟨trans _ _ _ hT (step s c'.world huj.1), fun i => ?_⟩
    by_cases e : i = j
    · subst e
      simpa using huj.2 _
    · simpa [Function.update_of_ne e] using hu i

/-- What a program that is known by the statements it can issue has done. -/
lemma seen_of_uses {φ : S → Prop} {c : Pool S R ε α σ ι} {i : ι} (hu : (c.thread i).Uses φ)
    (hs : ∀ o ∈ c.seen i, φ o.1) (sched : List ι) : ∀ o ∈ (c.play exec sched).seen i, φ o.1 := by
  have hplay := play_invariant exec
    (I := fun c' => (c'.thread i).Uses φ ∧ ∀ o ∈ c'.seen i, φ o.1) (fun c' j hc' => ?_) ⟨hu, hs⟩ sched
  · exact hplay.2
  · obtain ⟨hu, hs⟩ := hc'
    cases hj : c'.thread j with
    | ret a => rw [advance_ret hj]; exact ⟨hu, hs⟩
    | throw e => rw [advance_throw hj]; exact ⟨hu, hs⟩
    | stmt s k =>
      rw [advance_stmt hj]
      by_cases e : i = j
      · subst e
        rw [hj] at hu
        refine ⟨by simpa using hu.2 _, fun o ho => ?_⟩
        simp only [Function.update_self, List.mem_append, List.mem_singleton] at ho
        rcases ho with ho | rfl
        · exact hs o ho
        · exact hu.1
      · simpa [Function.update_of_ne e] using ⟨hu, hs⟩

/-- What a program has observed was answered in some world. -/
lemma seen_answered (w : σ) (p : ι → Prog S R ε α) (i : ι) (sched : List ι) :
    ∀ o ∈ ((start w p).play exec sched).seen i, ∃ w, o.2 = (exec o.1 w).2 := by
  refine play_invariant exec (c := start w p)
    (I := fun c => ∀ o ∈ c.seen i, ∃ w, o.2 = (exec o.1 w).2) (fun c j hc => ?_)
    (fun o ho => by cases ho) sched
  cases hj : c.thread j with
  | ret a => rw [advance_ret hj]; exact hc
  | throw e => rw [advance_throw hj]; exact hc
  | stmt s k =>
    rw [advance_stmt hj]
    by_cases e : i = j
    · subst e
      intro o ho
      simp only [Function.update_self, List.mem_append, List.mem_singleton] at ho
      rcases ho with ho | rfl
      · exact hc o ho
      · exact ⟨c.world, rfl⟩
    · simpa only [Function.update_of_ne e] using hc

/-- A program alone in its pool observes its solo run. -/
lemma seen_solo (exec : (s : S) → σ → σ × R s) (n : Nat) (c : Pool S R ε α σ Unit) :
    (c.play exec (List.replicate n ())).seen () =
      c.seen () ++ (c.thread ()).observed exec n c.world := by
  induction n generalizing c with
  | zero => exact (List.append_nil _).symm
  | succ n ih =>
    rw [List.replicate_succ, play_cons, ih]
    cases hc : c.thread () with
    | ret a => rw [advance_ret hc, hc]; cases n <;> rfl
    | throw e => rw [advance_throw hc, hc]; cases n <;> rfl
    | stmt s k =>
      rw [advance_stmt hc]
      simp only [Function.update_self, List.append_assoc]
      rfl

/-! ## Conditions on the steps of a schedule -/

/-- The next statement of program `i`, if it has one, satisfies the condition `G` in the state
before the step. -/
def StepOk (G : σ → (ι → History S R) → ι → S → Prop) (c : Pool S R ε α σ ι) (i : ι) : Prop :=
  match c.thread i with
  | .stmt s _ => G c.world c.seen i s
  | _ => True

/-- Every step of the schedule satisfies the condition `G` in the state before it. -/
def Guarded (G : σ → (ι → History S R) → ι → S → Prop) :
    Pool S R ε α σ ι → List ι → Prop
  | _, [] => True
  | c, i :: sched => StepOk G c i ∧ Guarded G (c.advance exec i) sched

variable {G : σ → (ι → History S R) → ι → S → Prop}

/-- No step meets the condition. -/
@[simp] lemma guarded_nil (c : Pool S R ε α σ ι) : Guarded exec G c [] := trivial

/-- The first step and the rest. -/
@[simp] lemma guarded_cons {c : Pool S R ε α σ ι} {i : ι} {sched : List ι} :
    Guarded exec G c (i :: sched) ↔ StepOk G c i ∧ Guarded exec G (c.advance exec i) sched :=
  Iff.rfl

/-- The steps of two schedules. -/
lemma guarded_append {c : Pool S R ε α σ ι} {s t : List ι} :
    Guarded exec G c (s ++ t) ↔ Guarded exec G c s ∧ Guarded exec G (c.play exec s) t := by
  induction s generalizing c with
  | nil => simp
  | cons i s ih => rw [List.cons_append, guarded_cons, guarded_cons, ih, play_cons, and_assoc]

/-- Under a condition that always holds every schedule is admitted. -/
lemma guarded_of_forall (h : ∀ w H i s, G w H i s) (c : Pool S R ε α σ ι) (sched : List ι) :
    Guarded exec G c sched := by
  induction sched generalizing c with
  | nil => trivial
  | cons i sched ih =>
    refine ⟨?_, ih _⟩
    unfold StepOk
    cases c.thread i with
    | ret a => trivial
    | throw e => trivial
    | stmt s k => exact h _ _ _ _

/-- A weaker condition. -/
lemma Guarded.imp {G' : σ → (ι → History S R) → ι → S → Prop} {c : Pool S R ε α σ ι}
    {sched : List ι} (h : Guarded exec G c sched)
    (himp : ∀ w H i s, G w H i s → G' w H i s) : Guarded exec G' c sched := by
  induction sched generalizing c with
  | nil => trivial
  | cons i sched ih =>
    refine ⟨?_, ih h.2⟩
    have hstep := h.1
    unfold StepOk at *
    cases hi : c.thread i with
    | ret a => trivial
    | throw e => trivial
    | stmt s k =>
      rw [hi] at hstep
      exact himp _ _ _ _ hstep

/-- A condition that is weaker wherever an invariant of the world holds, which the statements of the
programs keep. -/
lemma Guarded.imp_of_uses {G' : σ → (ι → History S R) → ι → S → Prop} {φ : S → Prop} {I : σ → Prop}
    (step : ∀ s w, φ s → I w → I (exec s w).1)
    (himp : ∀ w H i s, I w → G w H i s → G' w H i s) {c : Pool S R ε α σ ι} (hw : I c.world)
    (hu : ∀ i, (c.thread i).Uses φ) {sched : List ι} (h : Guarded exec G c sched) :
    Guarded exec G' c sched := by
  -- induction on the schedule
  induction sched generalizing c with
  | nil => trivial
  | cons i sched ih =>
    have hstep := h.1
    have huses := hu i
    unfold Guarded StepOk
    unfold StepOk at hstep
    cases hi : c.thread i with
    | ret a =>
      refine ⟨trivial, ?_⟩
      have hrest := h.2
      rw [advance_ret hi] at hrest ⊢
      exact ih hw hu hrest
    | throw e =>
      refine ⟨trivial, ?_⟩
      have hrest := h.2
      rw [advance_throw hi] at hrest ⊢
      exact ih hw hu hrest
    | stmt s k =>
      rw [hi] at hstep huses
      refine ⟨himp _ _ _ _ hw hstep, ih ?_ (fun j => ?_) h.2⟩
      · rw [advance_stmt hi]
        exact step s _ huses.1 hw
      · rw [advance_stmt hi]
        by_cases e : j = i
        · subst e
          simpa using huses.2 _
        · simpa [Function.update_of_ne e] using hu j

/-- Two conditions at a time. -/
lemma Guarded.and {G' : σ → (ι → History S R) → ι → S → Prop} {c : Pool S R ε α σ ι}
    {sched : List ι} (h : Guarded exec G c sched) (h' : Guarded exec G' c sched) :
    Guarded exec (fun w H i s => G w H i s ∧ G' w H i s) c sched := by
  induction sched generalizing c with
  | nil => trivial
  | cons i sched ih =>
    refine ⟨?_, ih h.2 h'.2⟩
    have hstep := h.1
    have hstep' := h'.1
    unfold StepOk at *
    cases hi : c.thread i with
    | ret a => trivial
    | throw e => trivial
    | stmt s k =>
      rw [hi] at hstep hstep'
      exact ⟨hstep, hstep'⟩

/-! ## Checking a condition along a schedule -/

section decide
variable [∀ w H i s, Decidable (G w H i s)]

/-- A condition on the next statement of a program, if it has one. -/
def decideNext (w : σ) (H : ι → History S R) (i : ι) :
    (p : Prog S R ε α) → Decidable (match p with
      | .stmt s _ => G w H i s
      | _ => True)
  | .ret _ => isTrue trivial
  | .throw _ => isTrue trivial
  | .stmt s _ => inferInstanceAs (Decidable (G w H i s))

instance (c : Pool S R ε α σ ι) (i : ι) : Decidable (StepOk G c i) :=
  decideNext c.world c.seen i (c.thread i)

def decideGuarded : (c : Pool S R ε α σ ι) → (sched : List ι) → Decidable (Guarded exec G c sched)
  | _, [] => isTrue trivial
  | c, i :: sched =>
    have := decideGuarded (c.advance exec i) sched
    inferInstanceAs (Decidable (StepOk G c i ∧ Guarded exec G (c.advance exec i) sched))

instance (c : Pool S R ε α σ ι) (sched : List ι) : Decidable (Guarded exec G c sched) :=
  decideGuarded exec c sched

end decide

end Pool

end Concurrent
