import Opale.Effects.Threads
import Opale.Linux.Tables

namespace Opale.Linux.Escrow

open Sql

inductive RecoveryKind where
  | luks_recovery | tpm_owner
  deriving Repr, DecidableEq

/-- A row of `device_recovery_keys`. -/
structure RecoveryKey where
  deviceId : Nat
  kind : RecoveryKind
  label : Text
  ciphertext : List UInt8
  keyId : Text
  createdAt : Int
  supersededAt : Option Int
  deriving DecidableEq

/-- A row of `device_admin_credentials`, whose key is the device. -/
structure AdminCredential where
  username : Text
  encryptedPassword : List UInt8
  passwordChangedAt : Int
  rotationRequestedAt : Option Int
  deriving DecidableEq

/-- `agent.laps_recovery_username` and `linux.escrow_backup_confirmed` -/
structure EscrowSettings where
  recoveryUsername : Option Text
  backupConfirmed : Option Text
  deriving DecidableEq

structure EscrowDb where
  recoveryKeys : Table RecoveryKey
  credentials : Table AdminCredential
  settings : EscrowSettings

inductive EscrowChange where
  | recoveryKey (id : Nat) (row : Option RecoveryKey)
  | credential (deviceId : Nat) (row : Option AdminCredential)
  | settings (settings : EscrowSettings)

inductive EscrowLock where
  | recoveryKey (id : Nat)
  | credential (deviceId : Nat)
  | settings
  deriving DecidableEq

def EscrowChange.apply : EscrowChange → EscrowDb → EscrowDb
  | .recoveryKey id row, db => { db with recoveryKeys := db.recoveryKeys.put id row }
  | .credential deviceId row, db => { db with credentials := db.credentials.put deviceId row }
  | .settings values, db => { db with settings := values }

def EscrowChange.locks : EscrowChange → List EscrowLock
  | .recoveryKey id _ => [.recoveryKey id]
  | .credential deviceId _ => [.credential deviceId]
  | .settings _ => [.settings]

theorem EscrowChange.commute (c d : EscrowChange) (db : EscrowDb) (apart : ∀ k ∈ c.locks, k ∉ d.locks) :
    c.apply (d.apply db) = d.apply (c.apply db) := by
  have other : ∀ {i j : Nat} {k : Nat → EscrowLock}, c.locks = [k i] → d.locks = [k j] → i ≠ j := by
    rintro i j k left right rfl
    rw [left, right] at apart
    exact apart _ List.mem_cons_self List.mem_cons_self
  cases c <;> cases d
  case recoveryKey.recoveryKey i a j b => simp only [apply, Table.put_comm db.recoveryKeys (other rfl rfl)]
  case credential.credential i a j b => simp only [apply, Table.put_comm db.credentials (other rfl rfl)]
  case settings.settings => exact absurd List.mem_cons_self (apart _ List.mem_cons_self)
  all_goals rfl

/-- The statements of `escrowSecret`. The UPDATE that supersedes the old keys of a label is
two of them: `currentKeys` is the rows that it finds when it starts, `supersede` what it does
to those that still match when it has their locks. -/
inductive EscrowStmt where
  | settings
  | upsertCredential (deviceId : Nat) (username : Text) (ciphertext : List UInt8) (rotatedAt : Int)
  | insertRecoveryKey (deviceId : Nat) (label : Text) (ciphertext : List UInt8) (keyId : Text)
  | currentKeys (deviceId : Nat) (label : Text) (own : Nat)
  | supersede (deviceId : Nat) (label : Text) (own : Nat) (found : List Nat)
  deriving DecidableEq

abbrev EscrowStmt.Ans : EscrowStmt → Type
  | .settings => EscrowSettings
  | .upsertCredential .. => Option Int
  | .insertRecoveryKey .. => Nat × Int
  | .currentKeys .. => List Nat
  | .supersede .. => Unit

/-- `gen_random_uuid()` and `now()` -/
structure EscrowDraw where
  id : Nat
  now : Int

/-- The current key of a device and a label. -/
def RecoveryKey.isCurrent (deviceId : Nat) (label : Text) (r : RecoveryKey) : Bool :=
  r.deviceId = deviceId && r.kind = .luks_recovery && r.label = label && r.supersededAt = none

def EscrowStmt.run : (s : EscrowStmt) → EscrowDraw → EscrowDb → Option (Outcome EscrowChange EscrowLock s.Ans)
  | .settings, _, db => some ⟨db.settings, [], []⟩
  | .upsertCredential deviceId username ciphertext rotatedAt, _, db =>
    let row : AdminCredential := ⟨username, ciphertext, rotatedAt, none⟩
    match db.credentials[deviceId]? with
    | some stored =>
      if rotatedAt > stored.passwordChangedAt then
        some ⟨some rotatedAt, [.credential deviceId (some row)], []⟩
      else some ⟨none, [], [.credential deviceId]⟩
    | none => some ⟨some rotatedAt, [.credential deviceId (some row)], []⟩
  | .insertRecoveryKey deviceId label ciphertext keyId, draw, db =>
    if db.recoveryKeys.contains draw.id then none
    else some ⟨(draw.id, draw.now),
      [.recoveryKey draw.id (some ⟨deviceId, .luks_recovery, label, ciphertext, keyId, draw.now, none⟩)], []⟩
  | .currentKeys deviceId label own, _, db =>
    some ⟨(db.recoveryKeys.select fun id r => r.isCurrent deviceId label && id ≠ own).map Prod.fst, [], []⟩
  | .supersede deviceId label own found, draw, db =>
    some ⟨(), (db.recoveryKeys.update
        (fun id r => found.contains id && r.isCurrent deviceId label && id ≠ own)
        fun r => { r with supersededAt := some draw.now }).map fun e => .recoveryKey e.1 (some e.2), []⟩

def escrowSchema : Schema EscrowStmt.Ans EscrowDb EscrowChange EscrowLock EscrowDraw where
  run := EscrowStmt.run
  apply := EscrowChange.apply
  locks := EscrowChange.locks
  commute := EscrowChange.commute

inductive EscrowAudit where
  | laps_rotated (byUser : Text) (deviceId : Nat) (username : Text)
  | linux_recovery_key_escrowed (byUser : Text) (deviceId : Nat) (label keyId : Text)
  deriving DecidableEq

/-- `commitKey` is the COMMIT of the recovery key that it names. -/
inductive EscrowOp where
  | sql (o : SqlOp EscrowStmt)
  | commitKey (deviceId : Nat) (label : Text) (id : Nat)
  | now
  | logAudit (entry : EscrowAudit)

abbrev EscrowOp.Res : EscrowOp → Type
  | .sql o => o.Res EscrowStmt.Ans
  | .commitKey .. => Bool
  | .now => Int
  | .logAudit _ => Unit

/-- The database; besides, for each device and label the open transaction whose UPDATE has
started, and the key of the escrow that has committed last. -/
structure EscrowWorld where
  store : Store EscrowDb EscrowChange EscrowLock
  updating : Nat × Text → Option Nat
  last : Nat × Text → Option Nat

/-- The transaction of `t` is over, or cannot commit any more. -/
def release (t : Nat) (updating : Nat × Text → Option Nat) (p : Nat × Text) : Option Nat :=
  if updating p = some t then none else updating p

def updatingAfter (t : Nat) : (o : SqlOp EscrowStmt) → o.Res EscrowStmt.Ans → (Nat × Text → Option Nat) →
    Nat × Text → Option Nat
  | .within (.currentKeys deviceId label _), some _, updating => Function.update updating (deviceId, label) (some t)
  | .within _, none, updating | .rollback, _, updating => release t updating
  | _, _, updating => updating

/-- What an operation of the request `t` may answer, and what it makes of the world. -/
def escrowExec (t : Nat) : (o : EscrowOp) → EscrowWorld → o.Res → EscrowWorld → Prop
  | .sql o, w, answer, w₁ => ∃ store, escrowSchema.exec t o w.store answer store ∧
      w₁ = { w with
        store := store
        updating := updatingAfter t o answer w.updating }
  | .commitKey deviceId label id, w, ok, w₁ =>
    let ended : EscrowWorld := { w with
      store := w.store.close t
      updating := release t w.updating }
    match w.store.session t with
    | some ⟨changes, false⟩ =>
      w₁ = { ended with
        store := (escrowSchema.publish changes w.store).close t
        last := Function.update w.last (deviceId, label) (some id) } ∨ ok = false ∧ w₁ = ended
    | _ => w₁ = ended
  | .now, w, _, w₁ | .logAudit _, w, _, w₁ => w₁ = w

abbrev Escrowing := Program EscrowOp.Res

abbrev perform (o : EscrowOp) : Escrowing o.Res := Program.perform o

/-- `db.query`: no answer when it throws. -/
abbrev query (s : EscrowStmt) : Escrowing (Option s.Ans) := perform (.sql (.query s))

/-- `client.query` -/
abbrev within (s : EscrowStmt) : Escrowing (Option s.Ans) := perform (.sql (.within s))

def CIPHERTEXT_MIN : Nat := 200
def CIPHERTEXT_MAX : Nat := 1024
def ROTATED_AT_MAX_SKEW_MS : Int := 5 * 60000

inductive EscrowCode where
  | ESCROW_UNAVAILABLE | ESCROW_KEY_MISMATCH | CIPHERTEXT_SIZE | ROTATED_AT_IN_FUTURE | USERNAME_MISMATCH
  | ESCROW_STALE | ESCROW_BACKUP_UNCONFIRMED
  deriving Repr, DecidableEq

inductive EscrowReply where
  | threw
  | refusal (status : Nat) (code : EscrowCode)
  | localAdmin (keyId : Text) (storedAt : Int)
  | luksRecovery (id : Nat) (keyId : Text) (storedAt : Int)
  deriving DecidableEq

/-- `Buffer.from(base64, 'base64')`, the `key_id` that `parseBackupConfirmation` reads, `Date.parse` in
milliseconds, none for NaN, and the cast of PostgreSQL to a timestamp in microseconds, which may fail. -/
structure EscrowFns where
  fromBase64 : Text → List UInt8
  backupKeyId : Text → Option Text
  dateParse : Text → Option Int
  timestamptz : Text → Option Int

/-- The key of the server: no identifier when it cannot be read. -/
structure EscrowInfo where
  keyId : Option Text

inductive EscrowKind where
  | local_admin (username rotatedAt : Text)
  | luks_recovery (label : Text)
  deriving DecidableEq

structure EscrowRequest where
  kind : EscrowKind
  escrowKeyId : Text
  ciphertext : Text
  deriving DecidableEq

/-- The approved key of the device that has signed the request. -/
structure EscrowDevice where
  deviceId : Nat
  keyFingerprint : Text
  deriving DecidableEq

variable (fns : EscrowFns)

def decodeCiphertext (base64 : Text) : Option (List UInt8) :=
  let buffer := fns.fromBase64 base64
  if CIPHERTEXT_MIN ≤ buffer.length ∧ buffer.length ≤ CIPHERTEXT_MAX then some buffer else none

/-- The key of the server and the ciphertext, or the reply that refuses them. -/
def checkEscrowRequest (body : EscrowRequest) (escrowInfo : EscrowInfo) :
    Except EscrowReply (Text × List UInt8) :=
  match escrowInfo.keyId with
  | none => .error (.refusal 503 .ESCROW_UNAVAILABLE)
  | some keyId =>
    if body.escrowKeyId ≠ keyId then .error (.refusal 409 .ESCROW_KEY_MISMATCH)
    else match decodeCiphertext fns body.ciphertext with
      | none => .error (.refusal 400 .CIPHERTEXT_SIZE)
      | some ciphertext => .ok (keyId, ciphertext)

def byUser (key : EscrowDevice) : Text := "device:".toList ++ key.keyFingerprint.take 12

/-- The upsert keeps the newest rotation. -/
def escrowLocalAdmin (key : EscrowDevice) (keyId : Text) (ciphertext : List UInt8) (username rotatedAt : Text) :
    Escrowing EscrowReply := do
  match ← query .settings with
  | none => return .threw
  | some settings =>
    let expected := (settings.recoveryUsername.filter (· ≠ [])).getD "opale-recovery".toList
    if username ≠ expected then return .refusal 400 .USERNAME_MISMATCH
    else
      match fns.timestamptz rotatedAt with
      | none => return .threw
      | some changedAt =>
        match ← query (.upsertCredential key.deviceId username ciphertext changedAt) with
        | none => return .threw
        | some none => return .refusal 409 .ESCROW_STALE
        | some (some storedAt) =>
          perform (.logAudit (.laps_rotated (byUser key) key.deviceId username))
          return .localAdmin keyId storedAt

/-- `catch`: ROLLBACK, and the error is thrown on. -/
def abort : Escrowing EscrowReply := do
  let _ ← perform (.sql .rollback)
  return .threw

/-- The new key and the end of the old ones, in one transaction. -/
def storeRecoveryKey (key : EscrowDevice) (keyId : Text) (ciphertext : List UInt8) (label : Text) :
    Escrowing EscrowReply := do
  if ← perform (.sql .begin) then
    match ← within (.insertRecoveryKey key.deviceId label ciphertext keyId) with
    | none => abort
    | some (id, createdAt) =>
      match ← within (.currentKeys key.deviceId label id) with
      | none => abort
      | some found =>
        match ← within (.supersede key.deviceId label id found) with
        | none => abort
        | some () =>
          if ← perform (.commitKey key.deviceId label id) then
            perform (.logAudit (.linux_recovery_key_escrowed (byUser key) key.deviceId label keyId))
            return .luksRecovery id keyId createdAt
          else abort
  else abort

def escrowLuks (key : EscrowDevice) (keyId : Text) (ciphertext : List UInt8) (label : Text) : Escrowing EscrowReply := do
  match ← query .settings with
  | none => return .threw
  | some settings =>
    if settings.backupConfirmed.bind fns.backupKeyId ≠ some keyId then
      return .refusal 409 .ESCROW_BACKUP_UNCONFIRMED
    else storeRecoveryKey key keyId ciphertext label

def escrowSecret (key : EscrowDevice) (body : EscrowRequest) (escrowInfo : EscrowInfo) : Escrowing EscrowReply :=
  match checkEscrowRequest fns body escrowInfo with
  | .error reply => return reply
  | .ok (keyId, ciphertext) =>
    match body.kind with
    | .local_admin username rotatedAt => do
      let now ← perform .now
      if (fns.dateParse rotatedAt).any (· > now + ROTATED_AT_MAX_SKEW_MS) then
        return .refusal 400 .ROTATED_AT_IN_FUTURE
      else escrowLocalAdmin fns key keyId ciphertext username rotatedAt
    | .luks_recovery label => escrowLuks fns key keyId ciphertext label

def request (program : Escrowing EscrowReply) : Escrowing Unit := program.bind fun _ => .ret ()

/-- Any number of escrows at once; an admin changes the settings at any time. -/
def escrows : Threads EscrowOp.Res EscrowWorld where
  exec := escrowExec
  env w w₁ := ∃ settings, w.store.owner .settings = none ∧
    w₁ = { w with store := escrowSchema.publish [.settings settings] w.store }
  entry program := ∃ key body escrowInfo, program = request (escrowSecret fns key body escrowInfo)
  drop t w := { w with
    store := w.store.close t
    updating := release t w.updating }

/-- Any database, and no escrow yet. -/
def EscrowStart (w : EscrowWorld) : Prop := ∃ db, w = ⟨.start db, fun _ => none, fun _ => none⟩

/-- No other transaction that has started its UPDATE on the device and label, and may still
commit, is open when an UPDATE starts. -/
def UpdatesAlone : Nat → (o : EscrowOp) → EscrowWorld → o.Res → EscrowWorld → Prop
  | _, .sql (.within (.currentKeys deviceId label _)), w, _, _ => w.updating (deviceId, label) = none
  | _, _, _, _, _ => True

end Opale.Linux.Escrow
