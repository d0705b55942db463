import Opale.Linux.Tables
import Opale.Effects.Program

namespace Opale.Linux

open Sql

/-- The text functions of JavaScript and of PostgreSQL, with what the code relies on: a
text trimmed and put in upper case stays as it is, and is not empty unless it was. -/
structure TextFns where
  trim : Text → Text
  toLowerCase : Text → Text
  toUpperCase : Text → Text
  UPPER : Text → Text
  LOWER : Text → Text
  BTRIM : Text → Text
  trim_upper : ∀ t, trim (toUpperCase (trim t)) = toUpperCase (trim t)
  upper_upper : ∀ t, toUpperCase (toUpperCase t) = toUpperCase t
  upper_nil : ∀ t, toUpperCase t = [] → t = []

abbrev KeyRow := Nat × LinuxKey

abbrev DeviceRow := Nat × LinuxDevice

abbrev PreregistrationRow := Nat × Preregistration

/-- An approved key with the serial of the device that it is joined to. -/
structure ApprovedKey where
  id : Nat
  key : LinuxKey
  deviceSerial : Option Text
  deriving DecidableEq

/-- The columns that an enrollment sets. -/
structure EnrollFacts where
  fingerprint : Text
  publicKeyRaw : List UInt8
  keyBacking : KeyBacking
  serial : Option Text
  hostnameClaimed : Option Text
  osVersion : Option Text
  agentVersion : Option Text
  deriving DecidableEq

structure NewDevice where
  hostname : Text
  serial : Option Text
  profile : Text
  ring : Ring
  assignedUserId : Option Text
  deriving DecidableEq

structure AuditEntry where
  action : AuditAction
  byUser : Text
  target : Option Nat
  keyId : Option Nat
  deriving DecidableEq

/-- A report as `sanitizeReport` leaves it. -/
structure Report where
  revision : Option Text
  status : ApplyStatus
  startedAt : Option Int
  finishedAt : Option Int
  errorSummary : Option Text
  logTail : Option Text
  agentVersion : Option Text
  deriving DecidableEq

def Report.row (r : Report) (deviceId : Nat) (now : Int) : ApplyReport :=
  ⟨deviceId, r.revision, r.status, r.startedAt, r.finishedAt, r.errorSummary, r.logTail, r.agentVersion, now⟩

/-- What a report changes of its device. -/
def Report.applied (r : Report) (d : LinuxDevice) : LinuxDevice :=
  { d with
    lastRevisionApplied := r.revision
    lastApplyStatus := some r.status
    lastApplyAt := r.finishedAt
    lastSuccessfulRevision := if r.status = .success then r.revision else d.lastSuccessfulRevision }

/-- The statements of the enrollment, the check-in and the reports of Linux devices. -/
inductive LinuxStmt where
  | advisoryLock
  | keyByFingerprint (fingerprint : Text)
  | countPending
  | upsertKey (facts : EnrollFacts)
  | recentMismatch (keyId : Nat)
  | insertAudit (entry : AuditEntry)
  | selectDevice (id : Option Nat)
  | deviceBySerial (serial : Text)
  | approvedKeyBySerial (serial fingerprint : Text)
  | openPreregistration (serial : Text)
  | activeToken (deviceId : Nat)
  | setConflict (keyId : Nat) (conflict : Option Conflict)
  | hostnames (lower : List Text)
  | createPullDevice (device : NewDevice)
  | bindKey (keyId deviceId : Nat) (actor : Text) (preregistrationId : Option Nat)
  | consumePreregistration (id keyId : Nat)
  | keyForUpdate (id : Nat)
  | deviceForUpdate (id : Nat)
  | activeKeyForUpdate (deviceId : Nat)
  | supersede (keyId : Nat) (actor : Text)
  | deleteFacts (table : FactTable) (deviceId : Nat)
  | clearWindowsColumns (deviceId : Nat)
  | revokeTokens (deviceId : Nat)
  | userExists (entraId : Text)
  | updateDevice (id : Nat) (hostname profile : Text) (ring : Ring) (assignedUserId : Option Text)
  | selectKeys (ids : List Nat)
  | rejectKey (keyId : Nat) (actor : Text)
  | pullDeviceForUpdate (id : Nat)
  | revokeKeyOf (deviceId : Nat) (actor reason : Text)
  | lookupKey (fingerprint : Text)
  | touchKey (id : Nat) (agentVersion osVersion : Option Text) (luksRoot : Option Bool) (serial : Option Text)
  | touchDevice (id : Option Nat) (osVersion : Option Text) (diskUsedPct : Option Int)
  | insertReport (deviceId : Nat) (report : Report)
  | recordApply (deviceId : Nat) (report : Report)
  deriving DecidableEq

abbrev LinuxStmt.Ans : LinuxStmt → Type
  | .advisoryLock | .insertAudit _ | .consumePreregistration .. | .supersede .. | .clearWindowsColumns _
  | .touchKey .. | .recordApply .. => Unit
  | .keyByFingerprint _ | .setConflict .. | .bindKey .. | .keyForUpdate _ | .activeKeyForUpdate _ | .rejectKey ..
  | .revokeKeyOf .. => Option KeyRow
  | .countPending | .deleteFacts .. | .revokeTokens _ => Nat
  | .upsertKey _ => KeyRow
  | .recentMismatch _ | .userExists _ => Bool
  | .selectDevice _ | .deviceBySerial _ | .deviceForUpdate _ | .updateDevice .. | .pullDeviceForUpdate _
  | .touchDevice .. => Option DeviceRow
  | .createPullDevice _ => DeviceRow
  | .approvedKeyBySerial .. => Option ApprovedKey
  | .openPreregistration _ => Option PreregistrationRow
  | .activeToken _ => Option Nat
  | .hostnames _ => List (Nat × Text)
  | .selectKeys _ => List KeyRow
  | .lookupKey _ => Option DeviceKey
  | .insertReport .. => Nat × Int

/-- `now()`, a generated key, and the row that a LIMIT without an order picks. -/
structure LinuxDraw where
  now : Int
  fresh : Nat
  pick : Nat
  deriving DecidableEq

abbrev LinuxOutcome := Outcome LinuxChange LinuxLock

/-- The statement reads; it locks the row that it answers, when `lock` says how. -/
def readRow {Row : Type} (row : Option (Nat × Row)) (lock : Nat → Option LinuxLock) :
    LinuxOutcome (Option (Nat × Row)) :=
  ⟨row, [], (row.bind fun (id, _) => lock id).toList⟩

def findRow {Row : Type} (table : Table Row) (id : Nat) : Option (Nat × Row) := table[id]?.map fun row => (id, row)

/-- An UPDATE of the keys that satisfy `p`, RETURNING the first. -/
def updateKeys (db : LinuxDb) (p : Nat → LinuxKey → Bool) (set : LinuxKey → LinuxKey) :
    LinuxOutcome (Option KeyRow) :=
  let rows := db.keys.update p set
  ⟨rows.head?, rows.map fun (id, row) => .key id row, []⟩

def updateDevices (db : LinuxDb) (p : Nat → LinuxDevice → Bool) (set : LinuxDevice → LinuxDevice) :
    LinuxOutcome (Option DeviceRow) :=
  let rows := db.devices.update p set
  ⟨rows.head?, rows.map fun (id, row) => .device id row, []⟩

/-- The row that `createPullDevice` inserts. -/
def NewDevice.row (new : NewDevice) : LinuxDevice :=
  ⟨new.hostname, new.serial, some .linux, some .pull, some new.profile, some new.ring, new.assignedUserId, none, none,
    none, none, none, none, none, none⟩

/-- The unique index `ux_linux_device_keys_approved`. -/
def approvedElsewhere (db : LinuxDb) (deviceId keyId : Nat) : Bool :=
  db.keys.toList.any fun (id, k) => id ≠ keyId && k.status = .approved && k.deviceId = some deviceId

/-- The unique index on `devices.hostname`. -/
def hostnameElsewhere (db : LinuxDb) (hostname : Text) (deviceId : Nat) : Bool :=
  db.devices.toList.any fun (id, d) => id ≠ deviceId && d.hostname = hostname

/-- The constraint `devices_serial_unique`, which NULL never meets. -/
def serialElsewhere (db : LinuxDb) (serial : Option Text) (deviceId : Nat) : Bool :=
  serial.isSome && db.devices.toList.any fun (id, d) => id ≠ deviceId && d.serial = serial

/-- The row of a key that enrolls for the first time. -/
def EnrollFacts.insert (facts : EnrollFacts) (now : Int) : LinuxKey :=
  ⟨none, facts.fingerprint, facts.publicKeyRaw, facts.keyBacking, facts.serial, facts.hostnameClaimed,
    facts.osVersion, facts.agentVersion, .pending, .manual, none, now, now, 1, none, none, none, none, none, none,
    none, none⟩

/-- An approved key keeps its serial, unless it has none yet. -/
def EnrollFacts.update (facts : EnrollFacts) (now : Int) (k : LinuxKey) : LinuxKey :=
  { k with
    enrollAttempts := k.enrollAttempts + 1
    lastSeenAt := now
    keyBacking := facts.keyBacking
    serialClaimed := if k.status = .approved ∧ k.serialClaimed ≠ none then k.serialClaimed else facts.serial
    hostnameClaimed := facts.hostnameClaimed
    osVersion := facts.osVersion
    agentVersion := facts.agentVersion }

/-- INSERT … ON CONFLICT (key_fingerprint) DO UPDATE -/
def upsertKeyRow (facts : EnrollFacts) (draw : LinuxDraw) (db : LinuxDb) : Option (LinuxOutcome KeyRow) :=
  match (db.keys.select fun _ k => k.keyFingerprint = facts.fingerprint).head? with
  | some (id, k) => some ⟨(id, facts.update draw.now k), [.key id (facts.update draw.now k)], []⟩
  | none =>
    if db.keys.contains draw.fresh then none
    else some ⟨(draw.fresh, facts.insert draw.now), [.key draw.fresh (facts.insert draw.now)], []⟩

def LinuxKey.bind (deviceId : Nat) (actor : Text) (preregistrationId : Option Nat) (now : Int) (k : LinuxKey) :
    LinuxKey :=
  { k with
    status := .approved
    deviceId := some deviceId
    approvedAt := some now
    approvedBy := some actor
    conflict := none
    source := if preregistrationId = none then .manual else .preregistration }

def LinuxKey.revoke (actor reason : Text) (now : Int) (k : LinuxKey) : LinuxKey :=
  { k with status := .revoked, revokedAt := some now, revokedBy := some actor, revokeReason := some reason }

def LinuxKey.reject (actor : Text) (now : Int) (k : LinuxKey) : LinuxKey :=
  { k with status := .rejected, rejectedAt := some now, rejectedBy := some actor, conflict := none }

def HOUR : Int := 3600000

def LinuxStmt.run (text : TextFns) : (s : LinuxStmt) → LinuxDraw → LinuxDb → Option (LinuxOutcome s.Ans)
  | .advisoryLock, _, _ => some ⟨(), [], [.enrollment]⟩
  | .keyByFingerprint fingerprint, _, db =>
    some (readRow (db.keys.select fun _ k => k.keyFingerprint = fingerprint).head? fun id => some (.key id))
  | .countPending, _, db => some ⟨(db.keys.select fun _ k => k.status = .pending).length, [], []⟩
  | .upsertKey facts, draw, db => upsertKeyRow facts draw db
  | .recentMismatch keyId, draw, db =>
    some ⟨db.audits.toList.any fun (_, a) => a.action = .linux_key_serial_mismatch && a.keyId = some keyId &&
      draw.now - HOUR < a.createdAt, [], []⟩
  | .insertAudit entry, draw, db =>
    if db.audits.contains draw.fresh then none
    else some ⟨(), [.audit draw.fresh ⟨entry.action, entry.byUser, entry.target, entry.keyId, draw.now⟩], []⟩
  | .selectDevice id, _, db => some (readRow (id.bind (findRow db.devices)) fun _ => none)
  | .deviceBySerial serial, _, db =>
    some (readRow (db.devices.select fun _ d => d.serial.map (fun s => text.UPPER (text.BTRIM s)) = some serial).head?
      fun _ => none)
  | .approvedKeyBySerial serial fingerprint, _, db =>
    let rows := db.keys.select fun _ k =>
      k.status = .approved && k.serialClaimed = some serial && k.keyFingerprint ≠ fingerprint
    some ⟨rows.head?.map fun (id, k) => ⟨id, k, (k.deviceId.bind fun d => db.devices[d]?).bind (·.serial)⟩, [], []⟩
  | .openPreregistration serial, _, db =>
    some (readRow (db.preregistrations.select fun _ p => p.serial = serial && p.consumedAt = none).head? fun _ => none)
  | .activeToken deviceId, draw, db =>
    let rows := db.tokens.select fun _ a => a.deviceId = some deviceId && !a.isBootstrap && a.revokedAt = none &&
      (a.expiresAt.all fun expires => draw.now < expires) &&
      (a.lastUsedAt ≠ none || a.createdBy = some "agent-rotation".toList)
    if rows.isEmpty then some ⟨none, [], []⟩
    else (rows.find? (·.1 = draw.pick)).map fun (id, _) => ⟨some id, [], []⟩
  | .setConflict keyId conflict, _, db =>
    some (updateKeys db (fun id _ => id = keyId) fun k => { k with conflict := conflict })
  | .hostnames lower, _, db =>
    some ⟨(db.devices.select fun _ d => lower.contains (text.LOWER d.hostname)).map fun (id, d) => (id, d.hostname),
      [], []⟩
  | .createPullDevice new, draw, db =>
    if db.devices.contains draw.fresh || hostnameElsewhere db new.hostname draw.fresh ||
        serialElsewhere db new.serial draw.fresh then none
    else some ⟨(draw.fresh, new.row), [.device draw.fresh new.row], []⟩
  | .bindKey keyId deviceId actor preregistrationId, draw, db =>
    if approvedElsewhere db deviceId keyId then none
    else some (updateKeys db (fun id _ => id = keyId) (LinuxKey.bind deviceId actor preregistrationId draw.now))
  | .consumePreregistration target keyId, draw, db =>
    some ⟨(), (db.preregistrations.update (fun id p => id = target && p.consumedAt = none) fun p => { p with
      consumedAt := some draw.now
      consumedByKeyId := some keyId }).map fun (id, p) => .preregistration id p, []⟩
  | .keyForUpdate id, _, db => some (readRow (findRow db.keys id) fun id => some (.key id))
  | .deviceForUpdate id, _, db => some (readRow (findRow db.devices id) fun id => some (.device id))
  | .activeKeyForUpdate deviceId, _, db =>
    some (readRow (db.keys.select fun _ k => k.deviceId = some deviceId && k.status = .approved).head?
      fun id => some (.key id))
  | .supersede keyId actor, draw, db =>
    let out := updateKeys db (fun id _ => id = keyId) (LinuxKey.revoke actor "superseded".toList draw.now)
    some ⟨(), out.changes, out.locks⟩
  | .deleteFacts table deviceId, _, db =>
    let rows := db.facts.select fun _ f => f.table = table && f.deviceId = deviceId
    some ⟨rows.length, rows.map fun (id, _) => .dropFact id, []⟩
  | .clearWindowsColumns deviceId, _, db =>
    let out := updateDevices db (fun id _ => id = deviceId) fun d => { d with windowsFacts := none }
    some ⟨(), out.changes, out.locks⟩
  | .revokeTokens deviceId, draw, db =>
    let rows := db.tokens.update (fun _ a => a.deviceId = some deviceId && a.revokedAt = none) fun a =>
      { a with revokedAt := some draw.now }
    some ⟨rows.length, rows.map fun (id, a) => .token id a, []⟩
  | .userExists entraId, _, db => some ⟨db.users.toList.any fun (_, user) => user = entraId, [], []⟩
  | .updateDevice target hostname profile ring assignedUserId, _, db =>
    if hostnameElsewhere db hostname target then none
    else some (updateDevices db (fun id _ => id = target) fun d => { d with
      platform := some .linux
      managedBy := some .pull
      hostname := hostname
      profile := some profile
      ring := some ring
      assignedUserId := assignedUserId })
  | .selectKeys ids, _, db => some ⟨db.keys.select fun id _ => ids.contains id, [], []⟩
  | .rejectKey keyId actor, draw, db =>
    some (updateKeys db (fun id _ => id = keyId) (LinuxKey.reject actor draw.now))
  | .pullDeviceForUpdate id, _, db =>
    some (readRow ((findRow db.devices id).filter fun (_, d) => d.managedBy = some .pull) fun id => some (.device id))
  | .revokeKeyOf deviceId actor reason, draw, db =>
    some (updateKeys db (fun _ k => k.deviceId = some deviceId && k.status = .approved)
      (LinuxKey.revoke actor reason draw.now))
  | .lookupKey fingerprint, _, db =>
    some ⟨(db.keys.select fun _ k => k.keyFingerprint = fingerprint).head?.map fun (id, k) =>
      ⟨id, k.deviceId, k.keyFingerprint, k.publicKey, k.status, k.serialClaimed⟩, [], []⟩
  | .touchKey id agentVersion osVersion luksRoot serial, draw, _ =>
    some ⟨(), [.touchKey id ⟨draw.now, agentVersion, osVersion, luksRoot, serial⟩], []⟩
  | .touchDevice id osVersion diskUsedPct, draw, db =>
    match (id.bind (findRow db.devices)).filter fun (_, d) => d.managedBy = some .pull with
    | none => some ⟨none, [], []⟩
    | some (id, d) =>
      let touch : DeviceTouch := ⟨draw.now, osVersion, diskUsedPct⟩
      some ⟨some (id, touch.apply d), [.touchDevice id touch], []⟩
  | .insertReport deviceId r, draw, db =>
    if db.reports.contains draw.fresh then none
    else some ⟨(draw.fresh, draw.now), [.report draw.fresh (r.row deviceId draw.now)], []⟩
  | .recordApply target r, _, db =>
    let out := updateDevices db (fun id _ => id = target) r.applied
    some ⟨(), out.changes, out.locks⟩

/-- The statements with the tables they run on. -/
def linuxSchema (text : TextFns) : Schema LinuxStmt.Ans LinuxDb LinuxChange LinuxLock LinuxDraw where
  run := LinuxStmt.run text
  apply := LinuxChange.apply
  locks c := [c.lock]
  commute := LinuxChange.commute

abbrev LinuxStore := Store LinuxDb LinuxChange LinuxLock

/-- Operations of a request: SQL, the constraint that the error thrown last names when its
code is 23505, `Date.now()`, and whether the throttle of mismatch audits lets a key pass. -/
inductive LinuxOp where
  | sql (o : SqlOp LinuxStmt)
  | violated
  | dateNow
  | mismatchThrottle (keyId : Nat)
  deriving DecidableEq

abbrev LinuxOp.Res : LinuxOp → Type
  | .sql o => o.Res LinuxStmt.Ans
  | .violated => Option Text
  | .dateNow => Int
  | .mismatchThrottle _ => Bool

/-- What an operation of the connection `t` may answer and change. -/
def linuxExec (text : TextFns) (t : Nat) : (o : LinuxOp) → LinuxStore → o.Res → LinuxStore → Prop
  | .sql o, st, answer, st₁ => (linuxSchema text).exec t o st answer st₁
  | .violated, st, _, st₁ | .dateNow, st, _, st₁ | .mismatchThrottle _, st, _, st₁ => st₁ = st

abbrev Fleet := Program LinuxOp.Res

/-- The callback of a transaction: the rest is skipped when a statement throws. -/
abbrev Tx := OptionT Fleet

namespace Fleet

abbrev perform (o : LinuxOp) : Fleet o.Res := Program.perform o

/-- `db.query`: no answer when it throws. -/
abbrev query (s : LinuxStmt) : OptionT Fleet s.Ans := OptionT.mk (perform (.sql (.query s)))

/-- `client.query` -/
abbrev within (s : LinuxStmt) : Tx s.Ans := OptionT.mk (perform (.sql (.within s)))

/-- `logAudit` on the client of a transaction: an INSERT that fails is only logged. -/
def logAudit (entry : AuditEntry) : Tx Unit := OptionT.mk do
  let _ ← perform (.sql (.within (.insertAudit entry)))
  return some ()

/-- `logAudit` on the pool. -/
def logAuditAlone (entry : AuditEntry) : OptionT Fleet Unit := OptionT.mk do
  let _ ← perform (.sql (.query (.insertAudit entry)))
  return some ()

def rollback {α : Type} : Fleet (Option α) := do
  let _ ← perform (.sql .rollback)
  return none

end Fleet

end Opale.Linux
