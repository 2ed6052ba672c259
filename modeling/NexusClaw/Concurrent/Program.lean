import Mathlib.Tactic.Common
import Mathlib.Logic.Function.Basic

/-!
# Programs of atomic statements

A request handler is a sequence of awaited statements with local computation between them. `Prog`
is that sequence as a tree: `stmt s k` issues the statement `s` and continues with `k` on the
response, `ret` and `throw` end the handler. The statements `S`, the family `R` of their responses
and their meaning `exec` on a world `σ` are parameters, so nothing here depends on what the
statements are.

* `Prog.run` executes a program alone, from its first statement to its end.
* `Prog.Uses` bounds the statements a program can issue, whatever the responses are, and
  `Prog.Ends` the results it can end with; `Prog.Uses.run` turns a bound on the statements into a
  fact about every solo run.
-/

namespace Concurrent

/-- Programs over the statements `S` with responses `R`, exceptions `ε` and results `α`. -/
inductive Prog (S : Type) (R : S → Type) (ε α : Type) : Type where
  | ret (a : α)
  | throw (e : ε)
  | stmt (s : S) (k : R s → Prog S R ε α)

namespace Prog

variable {S : Type} {R : S → Type} {ε α β γ σ : Type}

/-- Sequencing: the continuation runs on the result, an exception skips it. -/
protected def bind : Prog S R ε α → (α → Prog S R ε β) → Prog S R ε β
  | .ret a, f => f a
  | .throw e, _ => .throw e
  | .stmt s k, f => .stmt s (fun r => (k r).bind f)

instance : Monad (Prog S R ε) where
  pure := .ret
  bind := Prog.bind

/-- The program that issues one statement and returns its response. -/
def call (s : S) : Prog S R ε (R s) :=
  .stmt s .ret

/-- `try`/`catch` with the exception handed to the caller as a value. -/
def attempt : Prog S R ε α → Prog S R ε (Except ε α)
  | .ret a => .ret (.ok a)
  | .throw e => .ret (.error e)
  | .stmt s k => .stmt s (fun r => (k r).attempt)

/-- The result of a program that has ended with one. -/
def result? : Prog S R ε α → Option α
  | .ret a => some a
  | _ => none

/-- A program with a result has returned. -/
lemma result?_eq_some {p : Prog S R ε α} {a : α} (h : p.result? = some a) : p = .ret a := by
  cases p with
  | ret b => exact congrArg Prog.ret (Option.some.inj h)
  | throw e => cases h
  | stmt s k => cases h

/-- The statement that a program is about to issue. -/
def next? : Prog S R ε α → Option S
  | .stmt s _ => some s
  | _ => none

/-- A program with a next statement is at it. -/
lemma next?_eq_some {p : Prog S R ε α} {s : S} (h : p.next? = some s) : ∃ k, p = .stmt s k := by
  cases p with
  | ret b => cases h
  | throw e => cases h
  | stmt s' k =>
    cases h
    exact ⟨k, rfl⟩

/-- `pure` returns. -/
@[simp] lemma pure_eq (a : α) : (pure a : Prog S R ε α) = .ret a := rfl

/-- What follows a result. -/
@[simp] lemma ret_bind (a : α) (f : α → Prog S R ε β) : (Prog.ret a >>= f) = f a := rfl

/-- Nothing follows a failure. -/
@[simp] lemma throw_bind (e : ε) (f : α → Prog S R ε β) :
    (Prog.throw e >>= f) = .throw e := rfl

/-- What follows a statement. -/
@[simp] lemma stmt_bind (s : S) (k : R s → Prog S R ε α) (f : α → Prog S R ε β) :
    (Prog.stmt s k >>= f) = .stmt s (fun r => k r >>= f) := rfl

/-- What follows a single statement. -/
@[simp] lemma call_bind (s : S) (f : R s → Prog S R ε β) :
    (Prog.call s >>= f) = .stmt s f := rfl

/-- What follows a branch follows both of its sides. -/
@[simp] lemma ite_bind (c : Prop) [Decidable c] (p q : Prog S R ε α) (f : α → Prog S R ε β) :
    ((if c then p else q) >>= f) = if c then p >>= f else q >>= f := by
  by_cases h : c
  · rw [if_pos h, if_pos h]
  · rw [if_neg h, if_neg h]

/-- Returning the result changes nothing. -/
lemma bind_ret (p : Prog S R ε α) : (p >>= Prog.ret) = p := by
  induction p with
  | ret a => rfl
  | throw e => rfl
  | stmt s k ih => rw [stmt_bind]; exact congrArg _ (funext ih)

/-- Sequences associate. -/
lemma bind_assoc (p : Prog S R ε α) (f : α → Prog S R ε β) (g : β → Prog S R ε γ) :
    (p >>= f >>= g) = (p >>= fun a => f a >>= g) := by
  induction p with
  | ret a => rfl
  | throw e => rfl
  | stmt s k ih => simp only [stmt_bind]; exact congrArg _ (funext ih)

/-! ## Solo runs -/

/-- The program executed alone: every statement on the world the previous one left. -/
def run (exec : (s : S) → σ → σ × R s) : Prog S R ε α → σ → Except ε α × σ
  | .ret a, w => (.ok a, w)
  | .throw e, w => (.error e, w)
  | .stmt s k, w => (k (exec s w).2).run exec (exec s w).1

section run
variable (exec : (s : S) → σ → σ × R s)

/-- A result leaves the state. -/
@[simp] lemma run_ret (a : α) (w : σ) :
    (Prog.ret a : Prog S R ε α).run exec w = (.ok a, w) := rfl

/-- So does a failure. -/
@[simp] lemma run_throw (e : ε) (w : σ) :
    (Prog.throw e : Prog S R ε α).run exec w = (.error e, w) := rfl

/-- A statement runs in front of the rest. -/
@[simp] lemma run_stmt (s : S) (k : R s → Prog S R ε α) (w : σ) :
    (Prog.stmt s k).run exec w = (k (exec s w).2).run exec (exec s w).1 := rfl

/-- A single statement. -/
@[simp] lemma run_call (s : S) (w : σ) :
    (Prog.call s : Prog S R ε (R s)).run exec w = (.ok (exec s w).2, (exec s w).1) := rfl

/-- A sequence runs its first part, then the continuation where the first part stopped. -/
lemma run_bind (p : Prog S R ε α) (f : α → Prog S R ε β) (w : σ) :
    (p >>= f).run exec w =
      match p.run exec w with
      | (.ok a, w') => (f a).run exec w'
      | (.error e, w') => (.error e, w') := by
  induction p generalizing w with
  | ret a => rfl
  | throw e => rfl
  | stmt s k ih => exact ih _ _

/-- A sequence whose first part returns. -/
lemma run_bind_ok {p : Prog S R ε α} {f : α → Prog S R ε β} {w w' : σ} {a : α}
    (h : p.run exec w = (.ok a, w')) : (p >>= f).run exec w = (f a).run exec w' := by
  rw [run_bind, h]

/-- A sequence whose first part fails. -/
lemma run_bind_error {p : Prog S R ε α} {f : α → Prog S R ε β} {w w' : σ} {e : ε}
    (h : p.run exec w = (.error e, w')) : (p >>= f).run exec w = (.error e, w') := by
  rw [run_bind, h]

/-- A last step that only computes the result leaves the world as it is. -/
@[simp] lemma run_bind_ret (p : Prog S R ε α) (g : α → β) (w : σ) :
    ((p >>= fun a => .ret (g a)).run exec w).2 = (p.run exec w).2 := by
  rw [run_bind]
  rcases p.run exec w with ⟨r, w'⟩
  cases r <;> rfl

/-- An attempt returns what the program ends with. -/
lemma run_attempt (p : Prog S R ε α) (w : σ) :
    (p.attempt).run exec w = (.ok (p.run exec w).1, (p.run exec w).2) := by
  induction p generalizing w with
  | ret a => rfl
  | throw e => rfl
  | stmt s k ih => exact ih _ _

end run

/-! ## The statements a program can issue -/

/-- Every statement of `p`, under every response, satisfies `φ`. -/
def Uses (φ : S → Prop) : Prog S R ε α → Prop
  | .ret _ => True
  | .throw _ => True
  | .stmt s k => φ s ∧ ∀ r, (k r).Uses φ

section uses
variable {φ ψ : S → Prop}

/-- A result issues nothing. -/
@[simp] lemma uses_ret (a : α) : (Prog.ret a : Prog S R ε α).Uses φ := trivial

/-- Nor does a failure. -/
@[simp] lemma uses_throw (e : ε) : (Prog.throw e : Prog S R ε α).Uses φ := trivial

/-- A statement is issued, whatever it is answered. -/
@[simp] lemma uses_stmt {s : S} {k : R s → Prog S R ε α} :
    (Prog.stmt s k).Uses φ ↔ φ s ∧ ∀ r, (k r).Uses φ := Iff.rfl

/-- A single statement is issued. -/
@[simp] lemma uses_call {s : S} : (Prog.call s : Prog S R ε (R s)).Uses φ ↔ φ s :=
  ⟨fun h => h.1, fun h => ⟨h, fun _ => trivial⟩⟩

/-- A branch issues what the side taken issues. -/
@[simp] lemma uses_ite {c : Prop} [Decidable c] {p q : Prog S R ε α} :
    (if c then p else q).Uses φ ↔ (c → p.Uses φ) ∧ (¬c → q.Uses φ) := by
  by_cases h : c
  · simp [h]
  · simp [h]

/-- A sequence issues what its parts issue. -/
lemma Uses.bind {p : Prog S R ε α} {f : α → Prog S R ε β}
    (hp : p.Uses φ) (hf : ∀ a, (f a).Uses φ) : (p >>= f).Uses φ := by
  induction p with
  | ret a => exact hf a
  | throw e => trivial
  | stmt s k ih => exact ⟨hp.1, fun r => ih r (hp.2 r)⟩

/-- `Uses` along the text of a program. -/
lemma Uses.call_bind {s : S} {f : R s → Prog S R ε β} (hs : φ s) (hf : ∀ r, (f r).Uses φ) :
    (Prog.call s >>= f).Uses φ :=
  ⟨hs, hf⟩

/-- A weaker condition on the statements. -/
lemma Uses.mono {p : Prog S R ε α} (hp : p.Uses φ) (h : ∀ s, φ s → ψ s) : p.Uses ψ := by
  induction p with
  | ret a => trivial
  | throw e => trivial
  | stmt s k ih => exact ⟨h s hp.1, fun r => ih r (hp.2 r)⟩

/-- An attempt issues what the program issues. -/
lemma Uses.attempt {p : Prog S R ε α} (hp : p.Uses φ) : p.attempt.Uses φ := by
  induction p with
  | ret a => trivial
  | throw e => trivial
  | stmt s k ih => exact ⟨hp.1, fun r => ih r (hp.2 r)⟩

/-- What every admitted statement keeps, a solo run keeps. -/
lemma Uses.run {exec : (s : S) → σ → σ × R s} {I : σ → Prop} {p : Prog S R ε α}
    (hp : p.Uses φ) (step : ∀ s w, φ s → I w → I (exec s w).1) {w : σ} (hw : I w) :
    I (p.run exec w).2 := by
  induction p generalizing w with
  | ret a => exact hw
  | throw e => exact hw
  | stmt s k ih => exact ih _ (hp.2 _) (step s w hp.1 hw)

/-- A reflexive and transitive relation that every admitted statement respects relates the worlds
before and after a solo run. -/
lemma Uses.run_rel {exec : (s : S) → σ → σ × R s} {T : σ → σ → Prop} {p : Prog S R ε α}
    (hp : p.Uses φ) (refl : ∀ w, T w w) (trans : ∀ a b c, T a b → T b c → T a c)
    (step : ∀ s w, φ s → T w (exec s w).1) (w : σ) : T w (p.run exec w).2 :=
  hp.run (I := fun w' => T w w')
    (fun s w' hs hw' => trans _ _ _ hw' (step s w' hs)) (refl w)

end uses

/-! ## The results a program can end with -/

/-- Every result of `p`, under every response, satisfies `Q`. -/
def Ends (Q : α → Prop) : Prog S R ε α → Prop
  | .ret a => Q a
  | .throw _ => True
  | .stmt _ k => ∀ r, (k r).Ends Q

section ends
variable {Q : α → Prop} {Q' : β → Prop}

/-- A program that returns. -/
@[simp] lemma ends_ret {a : α} : (Prog.ret a : Prog S R ε α).Ends Q ↔ Q a := Iff.rfl

/-- A program that fails returns nothing. -/
@[simp] lemma ends_throw {e : ε} : (Prog.throw e : Prog S R ε α).Ends Q := trivial

/-- A statement ends as the rest does, whatever it is answered. -/
@[simp] lemma ends_stmt {s : S} {k : R s → Prog S R ε α} :
    (Prog.stmt s k).Ends Q ↔ ∀ r, (k r).Ends Q := Iff.rfl

/-- A branch ends as the side taken ends. -/
@[simp] lemma ends_ite {c : Prop} [Decidable c] {p q : Prog S R ε α} :
    (if c then p else q).Ends Q ↔ (c → p.Ends Q) ∧ (¬c → q.Ends Q) := by
  by_cases h : c
  · simp [h]
  · simp [h]

/-- Nothing is said about the result. -/
lemma ends_true (p : Prog S R ε α) : p.Ends fun _ => True := by
  induction p with
  | ret a => trivial
  | throw e => trivial
  | stmt s k ih => exact ih

/-- A sequence ends as its second part does. -/
lemma Ends.bind {p : Prog S R ε α} {f : α → Prog S R ε β} (hp : p.Ends Q)
    (hf : ∀ a, Q a → (f a).Ends Q') : (p >>= f).Ends Q' := by
  induction p with
  | ret a => exact hf a hp
  | throw e => trivial
  | stmt s k ih => exact fun r => ih r (hp r)

/-- The rule of sequencing for `Uses` that knows the results of the first part. -/
lemma Uses.bind_ends {φ : S → Prop} {p : Prog S R ε α} {f : α → Prog S R ε β} (hp : p.Uses φ)
    (he : p.Ends Q) (hf : ∀ a, Q a → (f a).Uses φ) : (p >>= f).Uses φ := by
  induction p with
  | ret a => exact hf a he
  | throw e => trivial
  | stmt s k ih => exact ⟨hp.1, fun r => ih r (hp.2 r) (he r)⟩

/-- A run ends as the program does. -/
lemma Ends.run {exec : (s : S) → σ → σ × R s} {p : Prog S R ε α} (hp : p.Ends Q) {w w' : σ}
    {a : α} (h : p.run exec w = (.ok a, w')) : Q a := by
  induction p generalizing w with
  | ret b =>
    cases h
    exact hp
  | throw e => cases h
  | stmt s k ih => exact ih _ (hp _) h

end ends

end Prog

end Concurrent
