import Opale.Codec.Base64
import Opale.Effects.Process
import Opale.Laps.Account

namespace Opale.Laps

/-- Go's `time.Time`, in nanoseconds since its zero value. -/
abbrev Time := Int

def minute : Int := 60 * 1000000000
def hour : Int := 60 * minute

def LAPSRotationInterval : Int := 30 * 24 * hour
def lapsBackoffBase : Int := 15 * minute
def lapsBackoffMax : Int := 24 * hour

/-- Phase of the stash `PendingAdminCred`; `legacy` is the empty phase of agents ≤ 2.14. -/
inductive LapsPhase where
  | legacy | prepared | escrowed
  deriving Repr, DecidableEq

/-- Ciphertext of a rotation in progress. -/
structure PendingAdminCred where
  username : String
  encB64 : String
  stashedAt : Time
  phase : LapsPhase
  deriving Repr, DecidableEq

/-- Ciphertext of a password that was applied and escrowed. -/
structure AdminCredRecord where
  username : String
  encB64 : String
  at_ : Time
  deriving Repr, DecidableEq

/-- The fields of `state.json` that the rotation reads and writes. -/
structure State where
  lastAdminRotation : Time
  pendingAdminCred : Option PendingAdminCred
  currentAdminCred : Option AdminCredRecord
  lapsManagedSIDs : List String
  lapsFailures : Int
  lapsRetryAfter : Time
  deriving Repr, DecidableEq

inductive LapsSetOutcome where
  | ok | unchanged | changedPartial | uncertain
  deriving Repr, DecidableEq

structure LapsApplyResult where
  outcome : LapsSetOutcome
  sid : String
  deriving Repr, DecidableEq

/-- Error of an escrow POST: a status of the server, or anything else. -/
inductive EscrowError where
  | http (status : Nat) | other
  deriving Repr, DecidableEq

/-- The three places that POST to `/api/agent/admin-credential`. -/
inductive EscrowSite where
  | flushLegacyStash | restoreCurrentEscrow | rotate
  deriving Repr, DecidableEq

/-- The dependencies injected in `lapsRotator`, one operation for each call. -/
inductive LapsOp where
  | now
  | username
  | lookup (username : String)
  | genPassword
  | encrypt (plain : String)
  | save (st : State)
  | escrow (site : EscrowSite) (username : String) (encrypted : List UInt8)
  | apply (username password : String) (acct : LapsAccount)
  deriving DecidableEq

abbrev LapsOp.Res : LapsOp → Type
  | .now => Time
  | .username => String
  | .lookup _ => Except Unit LapsAccount
  | .genPassword => Option String
  | .encrypt _ => Option (List UInt8)
  | .save _ => Bool
  | .escrow .. => Except EscrowError Unit
  | .apply .. => LapsApplyResult

abbrev Rotator := Program LapsOp.Res

abbrev perform (o : LapsOp) : Rotator o.Res := Program.perform o

/-- The doubling loop of `lapsBackoff`, `n` rounds of it from the delay `d`. -/
def lapsBackoffLoop : Nat → Int → Int
  | 0, d => d
  | n + 1, d => if 2 * d ≥ lapsBackoffMax then lapsBackoffMax else lapsBackoffLoop n (2 * d)

/-- 15 min, 30 min, 1 h, … capped at 24 h. -/
def lapsBackoff (failures : Int) : Int := lapsBackoffLoop (failures - 1).toNat lapsBackoffBase

def fail (st : State) (now : Time) : State :=
  { st with
    lapsFailures := st.lapsFailures + 1
    lapsRetryAfter := now + lapsBackoff (st.lapsFailures + 1) }

def resetBackoff (st : State) : State := { st with lapsFailures := 0, lapsRetryAfter := 0 }

def recordLAPSManagedSID (st : State) (sid : String) : State :=
  if sid = "" then st
  else if st.lapsManagedSIDs.any (equalFold · sid) then st
  else { st with lapsManagedSIDs := st.lapsManagedSIDs ++ [sid] }

/-- The server refuses this content for good: 4xx except 401, 408 and 429. -/
def isPermanentEscrowRejection : EscrowError → Bool
  | .http status =>
    if status = 401 ∨ status = 408 ∨ status = 429 then false
    else decide (400 ≤ status ∧ status < 500)
  | .other => false

/-- `_ = r.save()`, the state kept in memory whatever the outcome. -/
def saveState (st : State) : Rotator State := do
  let _ ← perform (.save st)
  return st

/-- Re-escrow of the last password known to be in place; true if the server took it. -/
def restoreCurrentEscrow (st : State) : Rotator Bool :=
  match st.currentAdminCred with
  | none => return false
  | some cur =>
    match Base64.decode cur.encB64 with
    | none => return false
    | some enc => do
      match ← perform (.escrow .restoreCurrentEscrow cur.username enc) with
      | .error _ => return false
      | .ok () => return true

/-- Sends a stash of an agent ≤ 2.14, or drops it. The flag is true when the stash was
dropped although its password is likely in place. -/
def flushLegacyStash (st : State) (p : PendingAdminCred) (now : Time) : Rotator (State × Bool) :=
  if st.lastAdminRotation ≠ 0 ∧ st.lastAdminRotation > p.stashedAt then do
    let st ← saveState { st with pendingAdminCred := none }
    return (st, false)
  else
    match Base64.decode p.encB64, p.username with
    | none, _ | some _, "" => do
      let st ← saveState { st with pendingAdminCred := none }
      return (st, true)
    | some enc, _ => do
      match ← perform (.escrow .flushLegacyStash p.username enc) with
      | .error err =>
        if isPermanentEscrowRejection err then
          let st ← saveState { st with pendingAdminCred := none }
          return (st, true)
        else
          let st ← saveState (fail st now)
          return (st, false)
      | .ok () =>
        let st ← saveState (resetBackoff { st with
          currentAdminCred := some ⟨p.username, p.encB64, now⟩
          lastAdminRotation := now
          pendingAdminCred := none })
        return (st, false)

/-- Steps 5 and 6 of a rotation: the local change, then what its outcome settles. -/
def applyRotation (st : State) (now : Time) (username password encB64 : String)
    (acct : LapsAccount) : Rotator State := do
  let res ← perform (.apply username password acct)
  let sid := if res.sid = "" then acct.sid else res.sid
  match res.outcome with
  | .ok =>
    saveState (resetBackoff { recordLAPSManagedSID st sid with
      currentAdminCred := some ⟨username, encB64, now⟩
      lastAdminRotation := now
      pendingAdminCred := none })
  | .changedPartial =>
    saveState (fail { recordLAPSManagedSID st sid with
      currentAdminCred := some ⟨username, encB64, now⟩
      pendingAdminCred := none } now)
  | .unchanged =>
    if ← restoreCurrentEscrow st then
      saveState (fail { st with pendingAdminCred := none } now)
    else saveState (fail st now)
  | .uncertain => saveState (fail st now)

/-- Steps 2 to 4 of a rotation: stash on disk, escrow, phase "escrowed" on disk. -/
def escrowRotation (st : State) (now : Time) (username password : String) (encrypted : List UInt8)
    (acct : LapsAccount) : Rotator State := do
  let encB64 := Base64.encode encrypted
  let previous := st.pendingAdminCred
  let stash (phase : LapsPhase) : Option PendingAdminCred := some ⟨username, encB64, now, phase⟩
  if ← perform (.save { st with pendingAdminCred := stash .prepared }) then
    match ← perform (.escrow .rotate username encrypted) with
    | .error _ => saveState (fail { st with pendingAdminCred := stash .prepared } now)
    | .ok () =>
      if ← perform (.save { st with pendingAdminCred := stash .escrowed }) then
        applyRotation { st with pendingAdminCred := stash .escrowed } now username password encB64 acct
      else
        -- nothing was applied: the memory goes back to "prepared", like the disk
        if ← restoreCurrentEscrow { st with pendingAdminCred := stash .prepared } then
          saveState (fail { st with pendingAdminCred := none } now)
        else saveState (fail { st with pendingAdminCred := stash .prepared } now)
  else return fail { st with pendingAdminCred := previous } now

def rotate (st : State) (now : Time) : Rotator State := do
  let username ← perform .username
  if username = "" then
    saveState (fail st now)
  else
    match ← perform (.lookup username) with
    | .error _ => saveState (fail st now)
    | .ok acct =>
      match checkLAPSAccountManageable username acct st.lapsManagedSIDs with
      | .error _ => saveState (fail st now)
      | .ok () =>
        match ← perform .genPassword with
        | none => saveState (fail st now)
        | some password =>
          match ← perform (.encrypt password) with
          | none => saveState (fail st now)
          | some encrypted => escrowRotation st now username password encrypted acct

/-- The second half of `run`: interrupted or due rotation. `accounts` is false where
the platform manages no local account. -/
def rollForward (accounts : Bool) (st : State) (now : Time) (force : Bool) : Rotator State :=
  if !accounts then return st
  else
    let due := force || decide (st.lastAdminRotation = 0) ||
      decide (now - st.lastAdminRotation ≥ LAPSRotationInterval)
    match st.pendingAdminCred with
    | none => if due then rotate st now else return st
    | some pending =>
      if pending.phase = .prepared then do
        if ← restoreCurrentEscrow st then
          let st ← saveState { st with pendingAdminCred := none }
          rotate st now
        else rotate st now
      else rotate st now

def run (accounts : Bool) (st : State) : Rotator State := do
  let now ← perform .now
  let wait := st.lapsRetryAfter - now
  if wait > 0 ∧ wait ≤ lapsBackoffMax then return st
  else
    match st.pendingAdminCred with
    | some ⟨username, encB64, stashedAt, .legacy⟩ =>
      let (st, abandoned) ← flushLegacyStash st ⟨username, encB64, stashedAt, .legacy⟩ now
      if abandoned then rollForward accounts st now true else return st
    | _ => rollForward accounts st now false

end Opale.Laps
