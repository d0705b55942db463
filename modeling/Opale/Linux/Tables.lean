import Opale.Linux.DeviceAuth
import Opale.Sql.Interference
import Opale.Sql.Table

namespace Opale.Linux

open Sql

inductive KeyBacking where
  | software | tpm
  deriving Repr, DecidableEq

inductive KeySource where
  | manual | preregistration
  deriving Repr, DecidableEq

inductive EnrollmentKind where
  | new | existing_device | reimage | clone | preregistered
  deriving Repr, DecidableEq

inductive Platform where
  | windows | linux | macos
  deriving Repr, DecidableEq

/-- The only value that `managed_by` may have besides NULL. -/
inductive ManagedBy where
  | pull
  deriving Repr, DecidableEq

inductive Ring where
  | pilot | stable
  deriving Repr, DecidableEq

inductive ApplyStatus where
  | success | failed | partial_ | skipped
  deriving Repr, DecidableEq

/-- What the column `conflict` of a pending key shows to the admin. -/
structure Conflict where
  kind : EnrollmentKind
  deviceId : Option Nat
  hostname : Option Text
  managedBy : Option ManagedBy
  platform : Option Platform
  lastSeen : Option Int
  keyId : Option Nat
  hasActiveToken : Bool
  deriving DecidableEq

/-- A row of `linux_device_keys`. -/
structure LinuxKey where
  deviceId : Option Nat
  keyFingerprint : Text
  publicKey : List UInt8
  keyBacking : KeyBacking
  serialClaimed : Option Text
  hostnameClaimed : Option Text
  osVersion : Option Text
  agentVersion : Option Text
  status : KeyStatus
  source : KeySource
  conflict : Option Conflict
  firstSeenAt : Int
  lastSeenAt : Int
  enrollAttempts : Nat
  approvedAt : Option Int
  approvedBy : Option Text
  rejectedAt : Option Int
  rejectedBy : Option Text
  revokedAt : Option Int
  revokedBy : Option Text
  revokeReason : Option Text
  luksRoot : Option Bool
  deriving DecidableEq

/-- A row of `devices`. `windowsFacts` stands for the columns that a conversion clears. -/
structure LinuxDevice where
  hostname : Text
  serial : Option Text
  platform : Option Platform
  managedBy : Option ManagedBy
  profile : Option Text
  ring : Option Ring
  assignedUserId : Option Text
  os : Option Text
  diskUsedPct : Option Int
  lastSeen : Option Int
  windowsFacts : Option Text
  lastRevisionApplied : Option Text
  lastSuccessfulRevision : Option Text
  lastApplyStatus : Option ApplyStatus
  lastApplyAt : Option Int
  deriving DecidableEq

/-- A row of `linux_preregistrations`. -/
structure Preregistration where
  serial : Text
  hostname : Option Text
  profile : Text
  ring : Ring
  assignedUserId : Option Text
  consumedAt : Option Int
  consumedByKeyId : Option Nat
  deriving DecidableEq

inductive AuditAction where
  | linux_enroll_flood | linux_key_serial_mismatch | linux_enroll_serial_conflict | linux_device_enrolled
  | linux_device_converted | linux_device_reenrolled | linux_device_approved | linux_device_rejected
  | linux_device_revoked | linux_apply_failed | linux_apply_recovered
  deriving Repr, DecidableEq

/-- A row of `audit_logs`; of its details only the key is ever read back. -/
structure AuditLog where
  action : AuditAction
  byUser : Text
  target : Option Nat
  keyId : Option Nat
  createdAt : Int
  deriving DecidableEq

/-- A row of `agent_tokens`. -/
structure AgentToken where
  deviceId : Option Nat
  isBootstrap : Bool
  revokedAt : Option Int
  expiresAt : Option Int
  lastUsedAt : Option Int
  createdBy : Option Text
  deriving DecidableEq

/-- The tables of facts that an agent of Windows reports. -/
inductive FactTable where
  | compliance_results | disks | network_interfaces | device_software
  deriving Repr, DecidableEq

structure DeviceFact where
  table : FactTable
  deviceId : Nat
  deriving DecidableEq

/-- A row of `linux_apply_reports`. -/
structure ApplyReport where
  deviceId : Nat
  revision : Option Text
  status : ApplyStatus
  startedAt : Option Int
  finishedAt : Option Int
  errorSummary : Option Text
  logTail : Option Text
  agentVersion : Option Text
  receivedAt : Int
  deriving DecidableEq

structure LinuxDb where
  keys : Table LinuxKey
  devices : Table LinuxDevice
  preregistrations : Table Preregistration
  audits : Table AuditLog
  tokens : Table AgentToken
  facts : Table DeviceFact
  users : Table Text
  reports : Table ApplyReport

/-- The columns of a key that a check-in sets; a serial only where there is none yet. -/
structure KeyTouch where
  now : Int
  agentVersion : Option Text
  osVersion : Option Text
  luksRoot : Option Bool
  serial : Option Text
  deriving DecidableEq

def KeyTouch.apply (touch : KeyTouch) (key : LinuxKey) : LinuxKey :=
  { key with
    lastSeenAt := touch.now
    agentVersion := touch.agentVersion
    osVersion := touch.osVersion
    luksRoot := touch.luksRoot
    serialClaimed := key.serialClaimed.or touch.serial }

/-- The columns of a device that a check-in sets. -/
structure DeviceTouch where
  now : Int
  os : Option Text
  diskUsedPct : Option Int
  deriving DecidableEq

def DeviceTouch.apply (touch : DeviceTouch) (device : LinuxDevice) : LinuxDevice :=
  { device with lastSeen := some touch.now, os := touch.os, diskUsedPct := touch.diskUsedPct }

/-- A row written whole or deleted; a check-in only touches columns. -/
inductive LinuxChange where
  | key (id : Nat) (row : LinuxKey)
  | touchKey (id : Nat) (touch : KeyTouch)
  | device (id : Nat) (row : LinuxDevice)
  | touchDevice (id : Nat) (touch : DeviceTouch)
  | preregistration (id : Nat) (row : Preregistration)
  | audit (id : Nat) (row : AuditLog)
  | token (id : Nat) (row : AgentToken)
  | dropFact (id : Nat)
  | report (id : Nat) (row : ApplyReport)

/-- The locks of rows, and the advisory lock `linux-enrollment`. -/
inductive LinuxLock where
  | enrollment
  | key (id : Nat)
  | device (id : Nat)
  | preregistration (id : Nat)
  | audit (id : Nat)
  | token (id : Nat)
  | fact (id : Nat)
  | report (id : Nat)
  deriving DecidableEq

def LinuxChange.apply : LinuxChange → LinuxDb → LinuxDb
  | .key id row, db => { db with keys := db.keys.put id (some row) }
  | .touchKey id touch, db => { db with keys := db.keys.put id (db.keys[id]?.map touch.apply) }
  | .device id row, db => { db with devices := db.devices.put id (some row) }
  | .touchDevice id touch, db => { db with devices := db.devices.put id (db.devices[id]?.map touch.apply) }
  | .preregistration id row, db => { db with preregistrations := db.preregistrations.put id (some row) }
  | .audit id row, db => { db with audits := db.audits.put id (some row) }
  | .token id row, db => { db with tokens := db.tokens.put id (some row) }
  | .dropFact id, db => { db with facts := db.facts.put id none }
  | .report id row, db => { db with reports := db.reports.put id (some row) }

def LinuxChange.lock : LinuxChange → LinuxLock
  | .key id _ | .touchKey id _ => .key id
  | .device id _ | .touchDevice id _ => .device id
  | .preregistration id _ => .preregistration id
  | .audit id _ => .audit id
  | .token id _ => .token id
  | .dropFact id => .fact id
  | .report id _ => .report id

theorem LinuxChange.commute (c d : LinuxChange) (db : LinuxDb) (apart : ∀ k ∈ [c.lock], k ∉ [d.lock]) :
    c.apply (d.apply db) = d.apply (c.apply db) := by
  have differ : c.lock ≠ d.lock := by
    intro same
    exact apart _ List.mem_cons_self (same ▸ List.mem_cons_self)
  have other : ∀ {i j : Nat} {k : Nat → LinuxLock}, c.lock = k i → d.lock = k j → i ≠ j := by
    rintro i j k left right rfl
    exact differ (left.trans right.symm)
  cases c <;> cases d
  case key.key i a j b => simp only [apply, Table.put_comm db.keys (other rfl rfl)]
  case device.device i a j b => simp only [apply, Table.put_comm db.devices (other rfl rfl)]
  case preregistration.preregistration i a j b =>
    simp only [apply, Table.put_comm db.preregistrations (other rfl rfl)]
  case audit.audit i a j b => simp only [apply, Table.put_comm db.audits (other rfl rfl)]
  case token.token i a j b => simp only [apply, Table.put_comm db.tokens (other rfl rfl)]
  case dropFact.dropFact i j => simp only [apply, Table.put_comm db.facts (other rfl rfl)]
  case report.report i a j b => simp only [apply, Table.put_comm db.reports (other rfl rfl)]
  case key.touchKey i a j b =>
    have apart : i ≠ j := other rfl rfl
    simp only [apply, Table.put_comm db.keys apart, Table.getElem?_put_of_ne db.keys apart.symm]
  case touchKey.key i a j b =>
    have apart : i ≠ j := other rfl rfl
    simp only [apply, Table.put_comm db.keys apart, Table.getElem?_put_of_ne db.keys apart]
  case touchKey.touchKey i a j b =>
    have apart : i ≠ j := other rfl rfl
    simp only [apply, Table.put_comm db.keys apart, Table.getElem?_put_of_ne db.keys apart,
      Table.getElem?_put_of_ne db.keys apart.symm]
  case device.touchDevice i a j b =>
    have apart : i ≠ j := other rfl rfl
    simp only [apply, Table.put_comm db.devices apart, Table.getElem?_put_of_ne db.devices apart.symm]
  case touchDevice.device i a j b =>
    have apart : i ≠ j := other rfl rfl
    simp only [apply, Table.put_comm db.devices apart, Table.getElem?_put_of_ne db.devices apart]
  case touchDevice.touchDevice i a j b =>
    have apart : i ≠ j := other rfl rfl
    simp only [apply, Table.put_comm db.devices apart, Table.getElem?_put_of_ne db.devices apart,
      Table.getElem?_put_of_ne db.devices apart.symm]
  all_goals rfl

end Opale.Linux
