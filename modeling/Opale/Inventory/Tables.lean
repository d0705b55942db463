import Opale.Sql.Interference
import Opale.Sql.Table

namespace Opale.Inventory

open Sql

inductive DeploymentStatus where
  | pending | running | success | failed | cancelled
  deriving Repr, DecidableEq

/-- A row of `deployments`; times are microseconds since the epoch. -/
structure Deployment where
  packageId : Nat
  deviceId : Nat
  status : DeploymentStatus
  exitCode : Option Int
  output : Option String
  queuedAt : Nat
  startedAt : Option Nat
  completedAt : Option Nat
  deriving DecidableEq

/-- What is sent to a device: a row of `deployment_snapshots`, copied from the package. -/
structure Snapshot where
  name : String
  type : String
  wingetId : Option String
  installScript : Option String
  postInstallScript : Option String
  detectionScript : Option String
  deriving DecidableEq

inductive PackageStatus where
  | draft | approved
  deriving Repr, DecidableEq

structure Package where
  content : Snapshot
  status : PackageStatus
  deriving DecidableEq

inductive ScriptMode where
  | agent | ssh
  deriving Repr, DecidableEq

inductive ScriptStatus where
  | pending | running | success | error
  deriving Repr, DecidableEq

/-- A row of `script_executions`. -/
structure ScriptExecution where
  deviceId : Nat
  scriptName : String
  scriptContent : String
  mode : ScriptMode
  status : ScriptStatus
  queuedAt : Nat
  startedAt : Option Nat
  deriving DecidableEq

structure Device where
  managedBy : Option String
  deriving DecidableEq

structure InventoryDb where
  deployments : Table Deployment
  snapshots : Table Snapshot
  packages : Table Package
  devices : Table Device
  scripts : Table ScriptExecution

/-- A row written whole, or deleted. -/
inductive InventoryChange where
  | deployment (id : Nat) (row : Option Deployment)
  | snapshot (id : Nat) (row : Option Snapshot)
  | package (id : Nat) (row : Option Package)
  | device (id : Nat) (row : Option Device)
  | script (id : Nat) (row : Option ScriptExecution)

inductive InventoryLock where
  | deployment (id : Nat)
  | snapshot (id : Nat)
  | package (id : Nat)
  | device (id : Nat)
  | script (id : Nat)
  deriving DecidableEq

def InventoryChange.apply : InventoryChange → InventoryDb → InventoryDb
  | .deployment id row, db => { db with deployments := db.deployments.put id row }
  | .snapshot id row, db => { db with snapshots := db.snapshots.put id row }
  | .package id row, db => { db with packages := db.packages.put id row }
  | .device id row, db => { db with devices := db.devices.put id row }
  | .script id row, db => { db with scripts := db.scripts.put id row }

def InventoryChange.locks : InventoryChange → List InventoryLock
  | .deployment id _ => [.deployment id]
  | .snapshot id _ => [.snapshot id]
  | .package id _ => [.package id]
  | .device id _ => [.device id]
  | .script id _ => [.script id]

theorem InventoryChange.commute (c d : InventoryChange) (db : InventoryDb) (apart : ∀ k ∈ c.locks, k ∉ d.locks) :
    c.apply (d.apply db) = d.apply (c.apply db) := by
  have other : ∀ {i j : Nat} {k : Nat → InventoryLock}, c.locks = [k i] → d.locks = [k j] → i ≠ j := by
    rintro i j k left right rfl
    rw [left, right] at apart
    exact apart _ List.mem_cons_self List.mem_cons_self
  cases c <;> cases d
  case deployment.deployment i a j b => simp only [apply, Table.put_comm db.deployments (other rfl rfl)]
  case snapshot.snapshot i a j b => simp only [apply, Table.put_comm db.snapshots (other rfl rfl)]
  case package.package i a j b => simp only [apply, Table.put_comm db.packages (other rfl rfl)]
  case device.device i a j b => simp only [apply, Table.put_comm db.devices (other rfl rfl)]
  case script.script i a j b => simp only [apply, Table.put_comm db.scripts (other rfl rfl)]
  all_goals rfl

end Opale.Inventory
