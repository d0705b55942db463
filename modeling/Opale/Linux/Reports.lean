import Opale.Linux.Enrollment

namespace Opale.Linux

open Sql Fleet

def isFailing (status : ApplyStatus) : Bool := status = .failed || status = .partial_

inductive ApplyTransition where
  | failed | recovered
  deriving Repr, DecidableEq

/-- Only the passages between failing and sound count; no report yet is sound. -/
def applyTransition (previous : Option ApplyStatus) (status : ApplyStatus) : Option ApplyTransition :=
  let wasFailing := previous.any isFailing
  let failing := isFailing status
  if failing && !wasFailing then some .failed
  else if !failing && wasFailing then some .recovered
  else none

def ApplyTransition.action : ApplyTransition → AuditAction
  | .failed => .linux_apply_failed
  | .recovered => .linux_apply_recovered

structure ReportReply where
  id : Nat
  receivedAt : Int
  transition : Option ApplyTransition
  deviceId : Nat
  hostname : Text
  revision : Option Text
  errorSummary : Option Text
  deriving DecidableEq

def auditTransition (deviceId : Nat) (fingerprint : Text) : Option ApplyTransition → Tx Unit
  | some transition => logAudit ⟨transition.action, deviceUser fingerprint, some deviceId, none⟩
  | none => return ()

/-- The statements of a report, between BEGIN and COMMIT. -/
def reportBody (deviceId : Nat) (fingerprint : Text) (report : Report) : Tx ReportReply := do
  let device ← within (.pullDeviceForUpdate deviceId)
  match device with
  | none => failure
  | some device =>
    let transition := applyTransition device.2.lastApplyStatus report.status
    let row ← within (.insertReport deviceId report)
    within (.recordApply deviceId report)
    auditTransition deviceId fingerprint transition
    return ⟨row.1, row.2, transition, deviceId, device.2.hostname, report.revision, report.errorSummary⟩

/-- One transaction for each report; the previous state is read under a lock. -/
def recordReport (deviceId : Nat) (fingerprint : Text) (report : Report) : Fleet (Option ReportReply) := do
  if ← perform (.sql .begin) then
    match ← (reportBody deviceId fingerprint report).run with
    | none => rollback
    | some reply => if ← perform (.sql .commit) then return some reply else rollback
  else rollback

end Opale.Linux
