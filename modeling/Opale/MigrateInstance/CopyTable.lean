import Opale.Effects.Safety
import Opale.Relations.Keyset
import Mathlib.Data.List.Lex
import Mathlib.Order.WithBot

namespace Opale.MigrateInstance

open Relations

abbrev Column := String

/-- A value of a column; `⊤` is NULL, which comes last in an ascending order. -/
abbrev Cell (V : Type) := WithTop V

abbrev Row (V : Type) := Column → Cell V

inductive Mode where
  | skip | update
  deriving DecidableEq

structure TableConfig where
  name : String
  conflictTarget : List Column
  mode : Mode
  selfRefColumn : Option Column

inductive Fault where
  | transient | lasting
  deriving DecidableEq

inductive Side where
  | source | target
  deriving DecidableEq

variable {V α : Type}

def keyOf (pk : List Column) (row : Row V) : List (Cell V) := pk.map row

/-- `parseInt` may have given no number for the size of a batch. -/
inductive CopyOp (V : Type) where
  | tableExists (side : Side)
  | getColumns (side : Side)
  | getPrimaryKey
  | connect | begin
  | select (columns pk : List Column) (cursor : Option (List (Cell V))) (limit : Option Nat)
  | insert (columns : List Column) (rows : List (Row V))
  | selectRefs (pk : List Column) (selfRef : Column)
  | update (selfRef : Column) (value : Cell V) (pk : List Column) (key : List (Cell V))
  | commit | rollback

abbrev CopyOp.Answer : CopyOp V → Type
  | .tableExists _ => Bool
  | .getColumns _ | .getPrimaryKey => List Column
  | .select .. | .selectRefs .. => List (Row V)
  | .insert .. | .update .. => Nat
  | .connect | .begin | .commit | .rollback => Unit

abbrev CopyOp.Res (o : CopyOp V) : Type := Except Fault o.Answer

abbrev Copying (V α : Type) := Program (CopyOp.Res (V := V)) α

open Program

/-- `/^[a-z_][a-z0-9_]*$/i` -/
def quotable (ident : String) : Bool :=
  match ident.toList with
  | [] => false
  | c :: rest => (c.isAlpha || c = '_') && rest.all fun d => d.isAlphanum || d = '_'

/-- A statement whose text quotes these identifiers; `quoteIdent` throws on another one. -/
def quoting (idents : List String) (program : Copying V (Except Fault α)) : Copying V (Except Fault α) :=
  if idents.all quotable then program else pure (.error .lasting)

/-- The attempts of `withRetry` after the one that failed with `lastErr`. -/
def retrying (o : CopyOp V) (lastErr : Fault) : Nat → Copying V o.Res
  | 0 => pure (.error lastErr)
  | left + 1 => do
    match ← perform o with
    | .ok answer => pure (.ok answer)
    | .error .lasting => pure (.error .lasting)
    | .error .transient => retrying o .transient left

def withRetry (o : CopyOp V) : Copying V o.Res := retrying o .lasting 5

def tableExists (side : Side) : Copying V (Except Fault Bool) := perform (CopyOp.tableExists side)

def getColumns (side : Side) : Copying V (Except Fault (List Column)) := perform (CopyOp.getColumns side)

def getPrimaryKey : Copying V (Except Fault (List Column)) := perform CopyOp.getPrimaryKey

/-- What `copyTable` has worked out before it reads a row. -/
structure Plan where
  cfg : TableConfig
  columns : List Column
  pk : List Column
  batchSize : Option Nat

def Plan.insertColumns (plan : Plan) : List Column :=
  match plan.cfg.selfRefColumn with
  | none => plan.columns
  | some selfRef => plan.columns.filter (· ≠ selfRef)

/-- At most 65000 parameters a statement, `batch` the option of the command line. -/
def batchSize (batch : Option Int) (insertColumns : List Column) : Option Nat :=
  let maxByParams : Int := 65000 / max 1 insertColumns.length
  batch.map fun batch => (max 1 (min batch maxByParams)).toNat

structure Progress where
  total : Nat
  inserted : Nat

/-- The loop over the pages of the source, `fuel` the turns it may take. -/
def copyRows (plan : Plan) : Nat → Option (List (Cell V)) → Progress → Copying V (Option (Except Fault Progress))
  | 0, _, _ => pure none
  | fuel + 1, cursor, progress => do
    match ← quoting (plan.cfg.name :: plan.columns ++ plan.pk) (withRetry (.select plan.columns plan.pk cursor plan.batchSize)) with
    | .error fault => pure (some (.error fault))
    | .ok rows =>
      match rows.getLast? with
      | none => pure (some (.ok progress))
      | some last =>
        match ← quoting (plan.cfg.name :: plan.insertColumns ++ plan.cfg.conflictTarget) (withRetry (.insert plan.insertColumns rows)) with
        | .error fault => pure (some (.error fault))
        | .ok count =>
          let progress : Progress := ⟨progress.total + rows.length, progress.inserted + count⟩
          if plan.batchSize.any (rows.length < ·) then pure (some (.ok progress))
          else copyRows plan fuel (some (keyOf plan.pk last)) progress

/-- The updates of the second pass. -/
def setRefs (plan : Plan) (selfRef : Column) : List (Row V) → Copying V (Except Fault Unit)
  | [] => pure (.ok ())
  | row :: rest => do
    match ← quoting (plan.cfg.name :: selfRef :: plan.pk) (perform (.update selfRef (row selfRef) plan.pk (keyOf plan.pk row))) with
    | .error fault => pure (.error fault)
    | .ok _ => setRefs plan selfRef rest

def secondPass (plan : Plan) (progress : Progress) : Copying V (Except Fault Unit) :=
  match plan.cfg.selfRefColumn with
  | none => pure (.ok ())
  | some selfRef =>
    if progress.total = 0 then pure (.ok ())
    else do
      match ← quoting (plan.cfg.name :: selfRef :: plan.pk) (perform (.selectRefs plan.pk selfRef)) with
      | .error fault => pure (.error fault)
      | .ok rows => setRefs plan selfRef rows

/-- What the `try` of `copyTable` holds. -/
def inTransaction (plan : Plan) (fuel : Nat) : Copying V (Option (Except Fault Progress)) := do
  match ← perform .begin with
  | .error fault => pure (some (.error fault))
  | .ok _ =>
    match ← copyRows plan fuel none ⟨0, 0⟩ with
    | none => pure none
    | some (.error fault) => pure (some (.error fault))
    | some (.ok progress) =>
      match ← secondPass plan progress with
      | .error fault => pure (some (.error fault))
      | .ok _ =>
        match ← perform .commit with
        | .error fault => pure (some (.error fault))
        | .ok _ => pure (some (.ok progress))

structure Copied where
  copied : Nat
  total : Nat
  skipped : Bool

/-- How a copy ends; `unfinished` is only the end of its fuel. -/
inductive Ending where
  | done (copied : Copied)
  | thrown (fault : Fault)
  | unfinished

def transferred (plan : Plan) (fuel : Nat) : Copying V Ending := do
  match ← perform .connect with
  | .error fault => pure (.thrown fault)
  | .ok _ =>
    match ← inTransaction plan fuel with
    | none => pure .unfinished
    | some (.ok progress) => pure (.done ⟨progress.inserted, progress.total, false⟩)
    | some (.error fault) => do
      let _ ← perform .rollback
      pure (.thrown fault)

/-- The queries on the schemas, then the rows. -/
def copyTable (cfg : TableConfig) (batch : Option Int) (fuel : Nat) : Copying V Ending := do
  match ← tableExists .source with
  | .error fault => pure (.thrown fault)
  | .ok false => pure (.done ⟨0, 0, true⟩)
  | .ok true =>
  match ← tableExists .target with
  | .error fault => pure (.thrown fault)
  | .ok false => pure (.thrown .lasting)
  | .ok true =>
  match ← getColumns .source with
  | .error fault => pure (.thrown fault)
  | .ok srcCols =>
  match ← getColumns .target with
  | .error fault => pure (.thrown fault)
  | .ok dstCols =>
  match ← getPrimaryKey with
  | .error fault => pure (.thrown fault)
  | .ok pk =>
    let columns := srcCols.filter (dstCols.contains ·)
    let plan : Plan := ⟨cfg, columns, pk, none⟩
    if pk = [] then pure (.thrown .lasting)
    else transferred { plan with batchSize := batchSize batch plan.insertColumns } fuel

/-- A table, its rows in no order that means anything. -/
structure Table (V : Type) where
  columns : List Column
  primaryKey : List Column
  rows : List (Row V)

/-- The transaction on the target: the rows as it sees them, until a statement has failed. -/
inductive Block (V : Type) where
  | idle
  | opened (rows : List (Row V))
  | aborted

/-- The two databases; `read` is the history of the rows that the pages held. -/
structure CopyWorld (V : Type) where
  source : Option (Table V)
  target : Option (Table V)
  block : Block V
  read : List (Row V)

/-- What the copy meets outside of its own text: the values that the driver makes of the values it reads,
and the default values of the columns of the target. -/
structure Driver (V : Type) where
  carry : Column → Cell V → Cell V
  defaults : Column → Cell V → Prop

def Driver.carried (driver : Driver V) (row : Row V) : Row V := fun c => driver.carry c (row c)

/-- Two rows that collide on the columns of `ON CONFLICT`; NULL collides with nothing. -/
def Conflicts (target : List Column) (a b : Row V) : Prop := target ≠ [] ∧ ∀ c ∈ target, a c = b c ∧ a c ≠ ⊤

/-- `SET c = EXCLUDED.c` -/
def overwritten (columns : List Column) (old row : Row V) : Row V := fun c => if c ∈ columns then row c else old c

/-- The row that an INSERT proposes for one of its rows. -/
structure Proposed (driver : Driver V) (columns : List Column) (row new : Row V) : Prop where
  given : ∀ c ∈ columns, new c = row c
  default : ∀ c ∉ columns, driver.defaults c (new c)

/-- One row of an `INSERT … ON CONFLICT`, with the number it adds to `rowCount`. -/
inductive InsertsRow (driver : Driver V) (cfg : TableConfig) (columns : List Column) (row : Row V) :
    List (Row V) → List (Row V) → Nat → Prop
  | fresh {rows new} : Proposed driver columns row new → (∀ old ∈ rows, ¬Conflicts cfg.conflictTarget old new) →
      InsertsRow driver cfg columns row rows (rows ++ [new]) 1
  | nothing {rows old new} : Proposed driver columns row new → old ∈ rows → Conflicts cfg.conflictTarget old new →
      (cfg.mode = .skip ∨ columns.filter (· ∉ cfg.conflictTarget) = []) → InsertsRow driver cfg columns row rows rows 0
  | updated {before old after new} : Proposed driver columns row new → Conflicts cfg.conflictTarget old new →
      cfg.mode = .update → columns.filter (· ∉ cfg.conflictTarget) ≠ [] →
      InsertsRow driver cfg columns row (before ++ old :: after)
        (before ++ overwritten (columns.filter (· ∉ cfg.conflictTarget)) old new :: after) 1

inductive Inserts (driver : Driver V) (cfg : TableConfig) (columns : List Column) :
    List (Row V) → List (Row V) → List (Row V) → Nat → Prop
  | nil {rows} : Inserts driver cfg columns [] rows rows 0
  | cons {row rest rows rows₁ rows₂ n m} : InsertsRow driver cfg columns row rows rows₁ n →
      Inserts driver cfg columns rest rows₁ rows₂ m → Inserts driver cfg columns (row :: rest) rows rows₂ (n + m)

section

variable [LinearOrder V]

/-- `UPDATE … SET selfRef = value WHERE pk = key` -/
def referred (selfRef : Column) (value : Cell V) (pk : List Column) (key : List (Cell V)) (rows : List (Row V)) : List (Row V) :=
  rows.map fun row => if keyOf pk row = key then Function.update row selfRef value else row

def CopyWorld.table (w : CopyWorld V) : Side → Option (Table V)
  | .source => w.source
  | .target => w.target

def CopyOp.onTarget : CopyOp V → Bool
  | .insert .. | .update .. | .commit => true
  | _ => false

/-- What a failed operation leaves: a failed statement aborts the transaction that it is in, and a failed
COMMIT may have been carried out. -/
inductive Fails : CopyOp V → CopyWorld V → CopyWorld V → Prop
  | harmless {o w} : Fails o w w
  | aborted {o w} : o.onTarget = true → Fails o w { w with block := .aborted }
  | committed {w table rows} : w.target = some table → w.block = .opened rows →
      Fails .commit w { w with target := some { table with rows := rows }, block := .idle }

/-- What the operations of a copy answer, and what they do to the databases. A page is read from the source
as it stands; the rows that come of an INSERT have to satisfy the primary key of the target. -/
inductive Answers (driver : Driver V) (cfg : TableConfig) :
    (o : CopyOp V) → CopyWorld V → o.Answer → CopyWorld V → Prop
  | tableExists {side w} : Answers driver cfg (.tableExists side) w (w.table side).isSome w
  | getColumns {side w table} : w.table side = some table → Answers driver cfg (.getColumns side) w table.columns w
  | getPrimaryKey {w table} : w.target = some table → Answers driver cfg .getPrimaryKey w table.primaryKey w
  | connect {w} : Answers driver cfg .connect w () w
  | begin {w table} : w.block = .idle → w.target = some table →
      Answers driver cfg .begin w () { w with block := .opened table.rows }
  | select {columns pk cursor limit w table page} : w.source = some table → (∀ c ∈ columns ++ pk, c ∈ table.columns) →
      Page (keyOf pk) table.rows cursor limit page →
      Answers driver cfg (.select columns pk cursor (some limit)) w (page.map driver.carried) { w with read := w.read ++ page }
  | insert {columns rows w table before after count} : w.block = .opened before → w.target = some table →
      Inserts driver cfg columns rows before after count →
      (cfg.mode = .update → rows.Pairwise fun a b => ¬Conflicts cfg.conflictTarget a b) →
      Keyed (keyOf table.primaryKey) after →
      Answers driver cfg (.insert columns rows) w count { w with block := .opened after }
  | selectRefs {pk selfRef w table} {refs : List (Row V)} : w.source = some table → (∀ c ∈ selfRef :: pk, c ∈ table.columns) →
      refs.Perm (table.rows.filter fun row => row selfRef ≠ ⊤) →
      Answers driver cfg (.selectRefs pk selfRef) w (refs.map driver.carried) w
  | update {selfRef value pk key w rows} : w.block = .opened rows →
      Answers driver cfg (.update selfRef value pk key) w (rows.countP fun row => keyOf pk row = key)
        { w with block := .opened (referred selfRef value pk key rows) }
  | commit {w table rows} : w.target = some table → w.block = .opened rows →
      Answers driver cfg .commit w () { w with target := some { table with rows := rows }, block := .idle }
  | commitAborted {w} : w.block = .aborted → Answers driver cfg .commit w () { w with block := .idle }
  | rollback {w} : Answers driver cfg .rollback w () { w with block := .idle }

inductive copyExec (driver : Driver V) (cfg : TableConfig) :
    (o : CopyOp V) → CopyWorld V → o.Res → CopyWorld V → Prop
  | ok {o w answer w₁} : Answers driver cfg o w answer w₁ → copyExec driver cfg o w (.ok answer) w₁
  | error {o w fault w₁} : Fails o w w₁ → copyExec driver cfg o w (.error fault) w₁

end

end Opale.MigrateInstance
