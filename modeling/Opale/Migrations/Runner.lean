import Opale.Effects.Threads
import Opale.Js.Values
import Opale.Migrations.Control
import Mathlib.Data.List.Sort

namespace Opale.Migrations

open Sql Js

structure MigrationFile where
  name : Units
  sql : List Char
  checksum : Units
  transactional : Bool
  deriving DecidableEq

/-- `/^\d+_.*\.sql$/` -/
def FILE_RE (name : Units) : Bool :=
  let digit (u : UInt16) : Bool := 48 ≤ u && u ≤ 57
  let rest := name.dropWhile digit
  let body := rest.drop 1
  name.head?.any digit && rest.head? = some 95 && (ascii ".sql").isSuffixOf body &&
    (body.dropLast.dropLast.dropLast.dropLast).all fun u => !(u = 10 || u = 13 || u = 0x2028 || u = 0x2029)

/-- `/^--\s*opale:no-transaction$/` -/
def directive (line : List Char) : Bool :=
  "--".toList.isPrefixOf line && (line.drop 2).dropWhile isSpaceChar = "opale:no-transaction".toList

/-- The loop of `isNoTransaction` on the lines. -/
def announced : List (List Char) → Bool
  | [] => false
  | raw :: rest =>
    let line := trim raw
    if line = [] then announced rest
    else if !"--".toList.isPrefixOf line then false
    else directive line || announced rest

def isNoTransaction (sql : List Char) : Bool := announced (sql.splitOn '\n')

/-- The texts of a directory, under their names in UTF-16. -/
structure Directory where
  entries : List (Units × List Char)
  distinct : (entries.map Prod.fst).Nodup

/-- `sha256` is the digest of a text. -/
def listMigrationFiles (sha256 : List Char → Units) (dir : Directory) : List MigrationFile :=
  ((dir.entries.filter fun e => FILE_RE e.1).insertionSort fun a b => a.1 ≤ b.1).map fun (name, sql) =>
    ⟨name, sql, sha256 sql, !isNoTransaction sql⟩

/-- The operations of a runner; no answer, or `false`, is an error. `state` asks whether the tables of the application
are there, `hasData` whether they have rows: what the log says depends on that. -/
inductive RunnerOp where
  | connect | set | acquire | release | close
  | state | hasData | createHistory | history
  | begin | script (file : MigrationFile) | record (file : MigrationFile) | commit | rollback

abbrev RunnerOp.Res : RunnerOp → Type
  | .state => Option Bool
  | .history => Option (List (Units × Units))
  | .release | .close | .rollback => Unit
  | _ => Bool

abbrev Running := Program RunnerOp.Res

inductive MigrationsResult where
  | applied (names : List Units) (total : Nat)
  | refused (name : Units) (stmt : List Char)
  | failed (name : Units)
  | threw
  deriving DecidableEq

abbrev perform (o : RunnerOp) : Running o.Res := Program.perform o

/-- A transactional file, up to its COMMIT. -/
def inTransaction (file : MigrationFile) : Running Bool := do
  if ← perform .begin then
    if ← perform (.script file) then
      if ← perform (.record file) then perform .commit else return false
    else return false
  else return false

/-- One turn of the loop; `false` when it throws. -/
def applyFile (file : MigrationFile) : Running Bool := do
  if file.transactional then
    if ← inTransaction file then return true
    else
      let _ ← perform .rollback
      return false
  else if ← perform (.script file) then perform (.record file)
  else return false

/-- The loop; it gives the file that has thrown. -/
def applyAll : List MigrationFile → Running (Option MigrationFile)
  | [] => return none
  | file :: rest => do if ← applyFile file then applyAll rest else return some file

/-- The first file that is refused, with the order that it is refused for. -/
def refusal (pending : List MigrationFile) : Option (MigrationFile × List Char) :=
  pending.findSome? fun file => (findTransactionControl file.sql).map (file, ·)

/-- Whether the tables have rows, when they are there; no answer when it throws. -/
def readState : Running Bool := do
  match ← perform .state with
  | none => return false
  | some false => return true
  | some true => perform .hasData

/-- The files that the history does not have. -/
def applyFiles (files pending : List MigrationFile) : Running MigrationsResult :=
  match refusal pending with
  | some (file, stmt) => return .refused file.name stmt
  | none => do
    match ← applyAll pending with
    | some file => return .failed file.name
    | none => return .applied (pending.map (·.name)) files.length

def applyPending (files : List MigrationFile) : Running MigrationsResult := do
  if ← readState then
    if ← perform .createHistory then
      match ← perform .history with
      | none => return .threw
      | some applied => applyFiles files (files.filter fun file => !(applied.map Prod.fst).contains file.name)
    else return .threw
  else return .threw

/-- Under the lock. -/
def held (files : List MigrationFile) : Running MigrationsResult := do
  if ← perform .set then applyPending files else return .threw

def locked (files : List MigrationFile) : Running MigrationsResult := do
  let result ← held files
  let _ ← perform .release
  return result

def connected (files : List MigrationFile) : Running MigrationsResult := do
  if ← perform .set then
    if ← perform .set then
      if ← perform .set then
        if ← perform .acquire then locked files else return .threw
      else return .threw
    else return .threw
  else return .threw

def runMigrations (files : List MigrationFile) : Running MigrationsResult := do
  if ← perform .connect then
    let result ← connected files
    let _ ← perform .close
    return result
  else return .threw

/-! What PostgreSQL does. -/

abbrev Statement := List Token

/-- What a statement does to the transaction that it stands in. -/
inductive Kind where
  | effect | begin | commit | rollback | other
  deriving DecidableEq

/-- A COMMIT or ROLLBACK with more words is `other`: it may end the transaction or not. -/
def kind (s : Statement) : Kind :=
  if opens ["BEGIN".toList] s || opens ["START".toList, "TRANSACTION".toList] s then .begin
  else if s.length = 1 && (opens ["COMMIT".toList] s || opens ["END".toList] s) then .commit
  else if s.length = 1 && (opens ["ROLLBACK".toList] s || opens ["ABORT".toList] s) then .rollback
  else if opens ["COMMIT".toList] s || opens ["END".toList] s || opens ["ROLLBACK".toList] s || opens ["ABORT".toList] s ||
      opens ["PREPARE".toList, "TRANSACTION".toList] s then .other
  else .effect

/-- The statements of a text; none when it is no SQL. -/
def statementsOf (sql : List Char) : Option (List Statement) :=
  (tokens sql).map fun ts => (statements ⟨[], 0, 0⟩ (ts.filter Token.visible)).filter (· ≠ [])

/-- What is written: an effect of a file, or its row in `schema_migrations`. -/
inductive Write where
  | effect (name : Units) (s : Statement)
  | recorded (name checksum : Units)
  deriving DecidableEq

def Write.name : Write → Units
  | .effect name _ | .recorded name _ => name

/-- The writes that are committed, in their order, and the block of a text that is run: whether BEGIN has opened it, and
its writes so far. -/
structure Place where
  log : List Write
  explicit : Bool
  pending : List Write

/-- A statement of a text. -/
inductive Turn (name : Units) : Place → Statement → Place → Prop
  | effect {log explicit pending s} : kind s = .effect →
      Turn name ⟨log, explicit, pending⟩ s ⟨log, explicit, pending ++ [.effect name s]⟩
  | begin {log explicit pending s} : kind s = .begin → Turn name ⟨log, explicit, pending⟩ s ⟨log, true, pending⟩
  | commit {log explicit pending s} : kind s = .commit →
      Turn name ⟨log, explicit, pending⟩ s ⟨log ++ pending, false, []⟩
  | rollback {log explicit pending s} : kind s = .rollback → Turn name ⟨log, explicit, pending⟩ s ⟨log, false, []⟩
  | other {log explicit pending s published explicit₁ pending₁} : kind s = .other → published <+: pending →
      Turn name ⟨log, explicit, pending⟩ s ⟨log ++ published, explicit₁, pending₁⟩

/-- A text, up to its end or up to an error. -/
inductive Turns (name : Units) : Place → List Statement → Bool → Place → Prop
  | done {p} : Turns name p [] true p
  | error {p s rest} : Turns name p (s :: rest) false p
  | turn {p p₁ p₂ s rest ok} : Turn name p s p₁ → Turns name p₁ rest ok p₂ → Turns name p (s :: rest) ok p₂

/-- The open transaction of a connection. -/
structure Block where
  pending : List Write
  failed : Bool

/-- The database: whether `schema_migrations` is there, what is committed, who has the advisory lock. -/
structure RunnerWorld where
  created : Bool
  log : List Write
  owner : Option Nat
  block : Nat → Option Block

def history (log : List Write) : List (Units × Units) :=
  log.filterMap fun
    | .effect .. => none
    | .recorded name checksum => some (name, checksum)

namespace RunnerWorld

def setBlock (w : RunnerWorld) (t : Nat) (b : Option Block) : RunnerWorld :=
  { w with block := Function.update w.block t b }

/-- The connection of `t` is over. -/
def leave (t : Nat) (w : RunnerWorld) : RunnerWorld :=
  { w.setBlock t none with owner := if w.owner = some t then none else w.owner }

end RunnerWorld

/-- Outside a transaction a text is one by itself; one that may not be in a transaction may fail by half. -/
def scriptExec (t : Nat) (name : Units) (ss : List Statement) (w : RunnerWorld) (ok : Bool) (w₁ : RunnerWorld) : Prop :=
  match w.block t with
  | some ⟨_, true⟩ => ok = false ∧ w₁ = w
  | some ⟨pending, false⟩ => ∃ p, Turns name ⟨w.log, true, pending⟩ ss ok p ∧
      w₁ = { w with log := p.log }.setBlock t (if p.explicit then some ⟨p.pending, !ok⟩ else none)
  | none => ∃ p, Turns name ⟨w.log, false, []⟩ ss ok p ∧
      if p.explicit then w₁ = { w with log := p.log }.setBlock t (some ⟨p.pending, !ok⟩)
      else ∃ kept, kept <+: p.pending ∧ (ok = true → kept = p.pending) ∧ w₁ = { w with log := p.log ++ kept }

/-- What an operation of the connection `t` may answer and change. Any may fail, and an answer may be lost. A text with a
statement that `meddles` with the lock or with `schema_migrations` may do anything. -/
def runnerExec (meddles : Statement → Bool) (t : Nat) : (o : RunnerOp) → RunnerWorld → o.Res → RunnerWorld → Prop
  | .connect, w, _, w₁ | .set, w, _, w₁ | .hasData, w, _, w₁ | .state, w, _, w₁ => w₁ = w
  | .acquire, w, ok, w₁ =>
    (w.owner = none ∨ w.owner = some t) ∧ w₁ = { w with owner := some t } ∨ ok = false ∧ w₁ = w
  | .release, w, _, w₁ => w₁ = { w with owner := if w.owner = some t then none else w.owner } ∨ w₁ = w
  | .close, w, _, w₁ => w₁ = w.leave t
  | .createHistory, w, ok, w₁ => w₁ = { w with created := true } ∨ ok = false ∧ w₁ = w
  | .history, w, answer, w₁ => w₁ = w ∧ (w.created = true ∧ answer = some (history w.log) ∨ answer = none)
  | .begin, w, ok, w₁ =>
    w₁ = (if w.block t = none then w.setBlock t (some ⟨[], false⟩) else w) ∨ ok = false ∧ w₁ = w
  | .script file, w, ok, w₁ =>
    match statementsOf file.sql with
    | none => ok = false ∧ w₁ = w.setBlock t ((w.block t).map fun b => { b with failed := true })
    | some ss => ss.any meddles = true ∨ ∃ done, scriptExec t file.name ss w done w₁ ∧ (ok = true → done = true)
  | .record file, w, ok, w₁ =>
    ok = false ∧ w₁ = w.setBlock t ((w.block t).map fun b => { b with failed := true }) ∨
    w.created = true ∧ file.name ∉ (history w.log).map Prod.fst ∧
      match w.block t with
      | some ⟨_, true⟩ => False
      | some ⟨pending, false⟩ => w₁ = w.setBlock t (some ⟨pending ++ [.recorded file.name file.checksum], false⟩)
      | none => w₁ = { w with log := w.log ++ [.recorded file.name file.checksum] }
  | .commit, w, ok, w₁ =>
    match w.block t with
    | some ⟨pending, false⟩ =>
      w₁ = { w with log := w.log ++ pending }.setBlock t none ∨ ok = false ∧ w₁ = w.setBlock t none
    | _ => w₁ = w.setBlock t none
  | .rollback, w, _, w₁ => w₁ = w.setBlock t none

/-- Any number of API processes, that may die at any time. -/
def runners (meddles : Statement → Bool) (files : List MigrationFile) : Threads RunnerOp.Res RunnerWorld where
  exec := runnerExec meddles
  env _ _ := False
  entry program := program = (runMigrations files).bind fun _ => .ret ()
  drop := RunnerWorld.leave

end Opale.Migrations
