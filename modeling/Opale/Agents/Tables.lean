import Opale.Linux.Tables
import Opale.Sql.Cells

namespace Opale.Agents

open Sql
open Linux (Text ManagedBy)

/-- A row of `agent_tokens`. `issuer` is not a column: the bootstrap code that the token was
issued from. -/
structure AgentToken where
  deviceId : Option Nat
  tokenHash : Text
  label : Option Text
  createdBy : Option Text
  isBootstrap : Bool
  revokedAt : Option Int
  expiresAt : Option Int
  lastUsedAt : Option Int
  replacedBy : Option Nat
  bootstrapMaxRedeems : Option Nat
  bootstrapRedeemedCount : Nat
  bootstrapRedeemedAt : Option Int
  issuer : Option Nat
  deriving DecidableEq

/-- The columns of `devices` that the routes of the agent decide by. -/
structure AgentDevice where
  hostname : Text
  serial : Option Text
  managedBy : Option ManagedBy
  deriving DecidableEq

/-- The tables, and the clock of the server. -/
structure AgentDb where
  tokens : Table AgentToken
  devices : Table AgentDevice
  clock : Int

inductive AgentChange where
  | token (id : Nat) (row : AgentToken)
  | device (id : Nat) (row : AgentDevice)
  | clock (now : Int)

/-- Rows, and the entries of unique indexes. -/
inductive AgentLock where
  | token (id : Nat)
  | device (id : Nat)
  | clock
  | tokenHash (hash : Text)
  | hostname (hostname : Text)
  | serial (serial : Text)
  deriving DecidableEq

def AgentChange.apply : AgentChange → AgentDb → AgentDb
  | .token id row, db => { db with tokens := db.tokens.put id (some row) }
  | .device id row, db => { db with devices := db.devices.put id (some row) }
  | .clock now, db => { db with clock := now }

def AgentChange.locks : AgentChange → List AgentLock
  | .token id _ => [.token id]
  | .device id _ => [.device id]
  | .clock _ => [.clock]

theorem AgentChange.commute (c d : AgentChange) (db : AgentDb) (apart : ∀ k ∈ c.locks, k ∉ d.locks) :
    c.apply (d.apply db) = d.apply (c.apply db) := by
  have other : ∀ {i j : Nat} {k : Nat → AgentLock}, c.locks = [k i] → d.locks = [k j] → i ≠ j := by
    rintro i j k left right rfl
    rw [left, right] at apart
    exact apart _ List.mem_cons_self List.mem_cons_self
  cases c <;> cases d
  case token.token i a j b => simp only [apply, Table.put_comm db.tokens (other rfl rfl)]
  case device.device i a j b => simp only [apply, Table.put_comm db.devices (other rfl rfl)]
  case clock.clock => exact absurd List.mem_cons_self (apart _ List.mem_cons_self)
  all_goals rfl

end Opale.Agents
