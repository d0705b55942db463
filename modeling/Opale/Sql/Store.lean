import Mathlib.Logic.Function.Basic
import Mathlib.Tactic.Common

namespace Opale.Sql

/-- What a statement does when it succeeds: its answer, the changes it makes to rows, and
the locks it takes besides those of these changes. -/
structure Outcome (Change Lock α : Type) where
  answer : α
  changes : List Change
  locks : List Lock

/-- The statements and the tables of an application. A draw stands for what the server is
free to choose (generated keys, the time, the order of rows); a statement that gives
nothing on a draw fails. Changes under different locks do not depend on their order. -/
structure Schema {Stmt : Type} (Ans : Stmt → Type) (Db Change Lock Draw : Type) where
  run : (s : Stmt) → Draw → Db → Option (Outcome Change Lock (Ans s))
  apply : Change → Db → Db
  locks : Change → List Lock
  commute : ∀ c d db, (∀ k ∈ locks c, k ∉ locks d) → apply c (apply d db) = apply d (apply c db)

/-- An open transaction: what it has written, and whether one of its statements failed. -/
structure Session (Change : Type) where
  changes : List Change
  failed : Bool
  deriving DecidableEq

/-- A server in READ COMMITTED: what is committed, the open transaction of each
connection, and the owner of each lock. -/
structure Store (Db Change Lock : Type) where
  committed : Db
  session : Nat → Option (Session Change)
  owner : Lock → Option Nat

/-- `query` is one statement by itself, `within` one of the open transaction. -/
inductive SqlOp (Stmt : Type) where
  | query (s : Stmt)
  | begin
  | within (s : Stmt)
  | commit
  | rollback
  deriving DecidableEq

/-- No answer, or `false`, is an error raised by the driver. -/
abbrev SqlOp.Res {Stmt : Type} (Ans : Stmt → Type) : SqlOp Stmt → Type
  | .query s | .within s => Option (Ans s)
  | .begin | .commit => Bool
  | .rollback => Unit

variable {Stmt : Type} {Ans : Stmt → Type} {Db Change Lock Draw : Type}

namespace Store

def start (db : Db) : Store Db Change Lock := ⟨db, fun _ => none, fun _ => none⟩

/-- The locks are free for `t`: nobody, or `t` itself, owns them. -/
def Free (st : Store Db Change Lock) (t : Option Nat) (ks : List Lock) : Prop :=
  ∀ k ∈ ks, st.owner k = none ∨ st.owner k = t

def openTx (st : Store Db Change Lock) (t : Nat) : Store Db Change Lock :=
  match st.session t with
  | none => { st with session := Function.update st.session t (some ⟨[], false⟩) }
  | some _ => st

def fail (st : Store Db Change Lock) (t : Nat) : Store Db Change Lock :=
  { st with session := Function.update st.session t ((st.session t).map fun s => { s with failed := true }) }

/-- The transaction of `t` is over, its locks are free again. -/
def close (st : Store Db Change Lock) (t : Nat) : Store Db Change Lock where
  committed := st.committed
  session := Function.update st.session t none
  owner k := if st.owner k = some t then none else st.owner k

def write [DecidableEq Lock] (st : Store Db Change Lock) (t : Nat) (changes : List Change) (ks : List Lock) :
    Store Db Change Lock where
  committed := st.committed
  session := Function.update st.session t
    ((st.session t).map fun s => { s with changes := s.changes ++ changes })
  owner k := if k ∈ ks then some t else st.owner k

end Store

namespace Schema

variable (schema : Schema Ans Db Change Lock Draw)

def applyAll (changes : List Change) (db : Db) : Db := changes.foldl (fun db c => schema.apply c db) db

/-- All the locks that a statement takes. -/
def needs {α : Type} (out : Outcome Change Lock α) : List Lock :=
  out.locks ++ out.changes.flatMap schema.locks

def publish (changes : List Change) (st : Store Db Change Lock) : Store Db Change Lock :=
  { st with committed := schema.applyAll changes st.committed }

/-- What the transaction of `t` sees: what is committed, and its own changes. -/
def view (st : Store Db Change Lock) (t : Nat) : Db :=
  schema.applyAll (((st.session t).map (·.changes)).getD []) st.committed

/-- What an operation of the connection `t` may answer and change. A statement waits for
its locks, so it only succeeds when they are free; it may fail at any time. After a
failure every later statement of the transaction fails, and COMMIT rolls back without
raising. A COMMIT that raises may have been carried out, its answer lost. -/
def exec [DecidableEq Lock] (t : Nat) : (o : SqlOp Stmt) → Store Db Change Lock → o.Res Ans →
    Store Db Change Lock → Prop
  | .query s, st, answer, st₁ =>
    (∃ draw out, schema.run s draw st.committed = some out ∧ st.Free none (schema.needs out) ∧
      answer = some out.answer ∧ st₁ = schema.publish out.changes st) ∨ answer = none ∧ st₁ = st
  | .begin, st, ok, st₁ => ok = true ∧ st₁ = st.openTx t ∨ ok = false ∧ st₁ = st
  | .within s, st, answer, st₁ =>
    match st.session t with
    | some ⟨_, false⟩ =>
      (∃ draw out, schema.run s draw (schema.view st t) = some out ∧ st.Free (some t) (schema.needs out) ∧
        answer = some out.answer ∧ st₁ = st.write t out.changes (schema.needs out)) ∨
      answer = none ∧ st₁ = st.fail t
    | _ => answer = none ∧ st₁ = st
  | .commit, st, ok, st₁ =>
    match st.session t with
    | some ⟨changes, false⟩ =>
      st₁ = (schema.publish changes st).close t ∨ ok = false ∧ st₁ = st.close t
    | _ => st₁ = st.close t
  | .rollback, st, _, st₁ => st₁ = st.close t

end Schema

end Opale.Sql
