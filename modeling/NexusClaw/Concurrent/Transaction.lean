import NexusClaw.Concurrent.Program

/-!
# Transactions

A transaction hands its body a manager. A statement issued through the manager takes effect at the
commit; one issued on another connection of the pool takes effect at once, and a rollback does not
undo it. The statements `S`, their effect on a world `σ` and what fails are parameters.

* `Txn.transaction` runs a body and commits or rolls back.
* `Txn.stored_of_managed` is the rule for bodies that use the manager only.
-/

namespace Concurrent

/-- The connection that a statement runs on. -/
inductive Via where
  | manager
  | pool
deriving DecidableEq, Repr

/-- A statement on its way to the database. -/
structure Issued (S : Type) where
  via : Via
  stmt : S

/-- A body of a transaction. A statement that fails throws. -/
abbrev Txn (S ε α : Type) : Type :=
  Prog (Issued S) (fun _ => Except ε Unit) ε α

namespace Txn

variable {S ε σ α β : Type}

/-- The program that issues one statement. -/
def issue (via : Via) (s : S) : Txn S ε Unit :=
  .stmt ⟨via, s⟩ fun
    | .ok () => .ret ()
    | .error e => .throw e

/-- What statements do, and which of them fail, the commit included. -/
structure Database (S ε σ : Type) where
  apply : S → σ → σ
  fails : Issued S → Option ε
  commitFails : Option ε

/-- The database while a transaction is open. -/
structure Session (S σ : Type) where
  stored : σ
  pending : List S

variable (db : Database S ε σ)

def Database.exec (s : Issued S) (w : Session S σ) : Session S σ × Except ε Unit :=
  match db.fails s with
  | some e => (w, .error e)
  | none =>
    match s.via with
    | .manager => ({ w with pending := w.pending ++ [s.stmt] }, .ok ())
    | .pool => ({ w with stored := db.apply s.stmt w.stored }, .ok ())

/-- The statements of a commit, in the order in which they were issued. -/
def Database.applyAll (pending : List S) (w : σ) : σ :=
  pending.foldl (fun w s => db.apply s w) w

/-- The end of a body that did not throw; a commit that fails rolls back. -/
def Database.commit (a : α) (session : Session S σ) : Except ε α × σ :=
  match db.commitFails with
  | some e => (.error e, session.stored)
  | none => (.ok a, db.applyAll session.pending session.stored)

/-- `dataSource.transaction` -/
def Database.transaction (body : Txn S ε α) (w : σ) : Except ε α × σ :=
  match body.run db.exec { stored := w, pending := [] } with
  | (.error e, session) => (.error e, session.stored)
  | (.ok a, session) => db.commit a session

/-- The body uses the manager only. -/
def Managed (body : Txn S ε α) : Prop :=
  body.Uses fun s => s.via = .manager

variable {db}

/-- A statement that does not fail. -/
lemma issue_run_ok {via : Via} {s : S} (h : db.fails ⟨via, s⟩ = none) (w : Session S σ) :
    (issue via s : Txn S ε Unit).run db.exec w = (.ok (), (db.exec ⟨via, s⟩ w).1) := by
  unfold issue
  rw [Prog.run_stmt]
  unfold Database.exec
  rw [h]
  cases via with
  | manager => rfl
  | pool => rfl

/-- A statement that fails. -/
lemma issue_run_error {via : Via} {s : S} {e : ε} (h : db.fails ⟨via, s⟩ = some e)
    (w : Session S σ) : (issue via s : Txn S ε Unit).run db.exec w = (.error e, w) := by
  unfold issue
  rw [Prog.run_stmt]
  unfold Database.exec
  rw [h]
  rfl

/-- A statement through the manager is managed. -/
lemma managed_issue (s : S) : Managed (issue .manager s : Txn S ε Unit) := by
  refine ⟨rfl, fun r => ?_⟩
  cases r with
  | ok _ => trivial
  | error e => trivial

/-- A sequence of managed parts is managed. -/
lemma Managed.bind {body : Txn S ε α} {f : α → Txn S ε β} (hbody : Managed body)
    (hf : ∀ a, Managed (f a)) : Managed (body >>= f) :=
  Prog.Uses.bind hbody hf

/-- Before the commit nothing of a managed body is stored. -/
lemma stored_of_managed (db : Database S ε σ) {body : Txn S ε α} (hbody : Managed body)
    (w : Session S σ) : (body.run db.exec w).2.stored = w.stored := by
  refine hbody.run (I := fun w' : Session S σ => w'.stored = w.stored) (fun s w' hs hw' => ?_) rfl
  unfold Database.exec
  cases db.fails s with
  | some e => exact hw'
  | none =>
    rw [hs]
    exact hw'

/-- A body that fails leaves what was stored. -/
lemma transaction_of_error {body : Txn S ε α} {w : σ} {e : ε} {session : Session S σ}
    (h : body.run db.exec { stored := w, pending := [] } = (.error e, session)) :
    db.transaction body w = (.error e, session.stored) := by
  unfold Database.transaction
  rw [h]

/-- A body that returns is committed. -/
lemma transaction_of_ok {body : Txn S ε α} {w : σ} {a : α} {session : Session S σ}
    (h : body.run db.exec { stored := w, pending := [] } = (.ok a, session)) :
    db.transaction body w = db.commit a session := by
  unfold Database.transaction
  rw [h]

/-- A transaction that uses the manager only leaves nothing behind when it fails. -/
lemma transaction_atomic {body : Txn S ε α} (hbody : Managed body) {w : σ} {e : ε}
    (h : (db.transaction body w).1 = .error e) : (db.transaction body w).2 = w := by
  have hstored := stored_of_managed db hbody { stored := w, pending := [] }
  rcases hrun : body.run db.exec { stored := w, pending := [] } with ⟨r, session⟩
  rw [hrun] at hstored
  cases r with
  | error e => rw [transaction_of_error hrun]; exact hstored
  | ok a =>
    rw [transaction_of_ok hrun] at h ⊢
    unfold Database.commit at h ⊢
    cases hcommit : db.commitFails with
    | some e => exact hstored
    | none =>
      rw [hcommit] at h
      cases h

/-- A statement on another connection is as if it came before the transaction. -/
lemma transaction_pool_ok {s : S} (h : db.fails ⟨.pool, s⟩ = none) (rest : Unit → Txn S ε α)
    (w : σ) : db.transaction (issue .pool s >>= rest) w = db.transaction (rest ()) (db.apply s w) := by
  unfold Database.transaction
  rw [Prog.run_bind_ok _ (issue_run_ok h _)]
  unfold Database.exec
  rw [h]

/-- A statement of the pool that fails before the rest. -/
lemma transaction_pool_error {s : S} {e : ε} (h : db.fails ⟨.pool, s⟩ = some e)
    (rest : Unit → Txn S ε α) (w : σ) :
    db.transaction (issue .pool s >>= rest) w = (.error e, w) :=
  transaction_of_error (Prog.run_bind_error _ (issue_run_error h _))

end Txn

end Concurrent
