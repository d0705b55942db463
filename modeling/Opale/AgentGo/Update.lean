import Opale.AgentGo.Strings
import Opale.AgentGo.Versions
import Opale.Codec.Base64
import Opale.Effects.Process

namespace Opale.AgentGo.Update

/-- What a file holds. -/
abbrev Bytes := List UInt8

/-- `time.Time` in nanoseconds, 0 for the zero value. -/
abbrev Time := Int

def rolledBackRetryAfter : Int := 24 * 60 * 60 * 1000000000

def MaxFailedSinceUpdate : Int := 2

/-- The fields of state.json that the updates read and write. -/
structure State where
  lastUpdateAt : Time := 0
  lastUpdateVersion : List Char := []
  failedSinceUpdate : Int := 0
  rolledBackVersion : List Char := []
  rolledBackAt : Time := 0
  binarySHA256 : List Char := []
  binaryUpdatedAt : Time := 0
deriving DecidableEq

structure AgentUpdate where
  latestVersion : List Char
  sha256 : List Char
  signature : String
deriving DecidableEq

/-- The watch over a new binary: `!st.LastUpdateAt.IsZero()` -/
def State.armed (st : State) : Bool := st.lastUpdateAt ≠ 0

/-! Package hex and the two functions of package strings that the hash goes through. -/

def hexDigits : List Char := "0123456789abcdef".toList

def hexDigit (n : Nat) : Char := hexDigits.getD n '0'

def encodeToString : Bytes → List Char
  | [] => []
  | b :: rest => hexDigit (b.toNat / 16) :: hexDigit (b.toNat % 16) :: encodeToString rest

/-- Of a text in lower case. -/
def decodeString : List Char → Option Bytes
  | [] => some []
  | x :: y :: rest => do
    let high ← hexDigits.idxOf? x
    let low ← hexDigits.idxOf? y
    let tail ← decodeString rest
    some (UInt8.ofNat (high * 16 + low) :: tail)
  | _ => none

/-- strings.ToLower on ASCII; no other character has a digit for its lower case. -/
def toLower (s : List Char) : List Char := s.map Char.toLower

/-- binaryPath(), backupPath(), newBinPath() and the path of a binary that failed -/
inductive Path where
  | binary | backup | new | failed
deriving DecidableEq

/-- The two functions that exchange the binary: atomicReplace and rollback. -/
inductive Exchange where
  | update | rollback
deriving DecidableEq

/-- Where the binary comes from that is put in place. -/
def Exchange.next : Exchange → Path
  | .update => .new
  | .rollback => .backup

/-- Where the binary goes that was in place. -/
def Exchange.spare : Exchange → Path
  | .update => .backup
  | .rollback => .failed

/-- The three calls to os.Rename, the last one when the second has failed. -/
inductive Stage where
  | aside | forward | back
deriving DecidableEq

def Exchange.source (x : Exchange) : Stage → Path
  | .aside => .binary
  | .forward => x.next
  | .back => x.spare

def Exchange.target (x : Exchange) : Stage → Path
  | .aside => x.spare
  | .forward | .back => .binary

/-- The calls that reach the disk, the server, the clock or the service manager. -/
inductive Op where
  | load
  | version
  | ownSHA256
  | restoredSHA256
  | save (st : State)
  | now
  | checkin
  | jobs
  | download
  | createNew
  | writeNew (bin : Bytes)
  | remove (path : Path)
  | statBackup
  | rename (x : Exchange) (stage : Stage)
  | restart

abbrev Op.Res : Op → Type
  | .load => Option State
  | .version => List Char
  | .ownSHA256 | .restoredSHA256 => Option (List Char)
  | .save _ | .createNew | .writeNew _ | .statBackup | .rename .. => Bool
  | .now => Time
  | .checkin => Option (Option AgentUpdate)
  | .jobs => Nat
  | .download => Option Bytes
  | .remove _ | .restart => Unit

abbrev Updater := Program Op.Res

abbrev perform (o : Op) : Updater o.Res := Program.perform o

/-- A running agent: its state in memory, the version it was built with and `swappedVersion`. -/
structure Running where
  st : State
  version : List Char
  swappedVersion : List Char
deriving DecidableEq

inductive Memory where
  | stopped
  | running (agent : Running)
deriving DecidableEq

/-- `st.Save()`, its error logged. -/
def saveState (st : State) : Updater Unit := do
  let _ ← perform (.save st)
  return ()

/-- Another hash than the one recorded is reported, and left. -/
def CheckBinaryIntegrity (st : State) : Updater State := do
  match ← perform .ownSHA256 with
  | none => return st
  | some current =>
    if st.binarySHA256 = [] then
      let now ← perform .now
      let st := { st with binarySHA256 := current, binaryUpdatedAt := now }
      saveState st
      return st
    else return st

def exchange (x : Exchange) : Updater Bool := do
  if ← perform (.rename x .aside) then
    if ← perform (.rename x .forward) then return true
    else
      let _ ← perform (.rename x .back)
      return false
  else return false

def atomicReplace : Updater Bool := do
  perform (.remove .backup)
  exchange .update

def rollback : Updater Bool := do
  if ← perform .statBackup then
    perform (.remove .failed)
    exchange .rollback
  else return false

def unwatched (st : State) : State := { st with lastUpdateAt := 0, lastUpdateVersion := [], failedSinceUpdate := 0 }

def saveAndRestart (agent : Running) : Updater Running := do
  saveState agent.st
  perform .restart
  return agent

/-- The end of CheckRollback, once the previous binary is back. -/
def recordRollback (agent : Running) : Updater Running := do
  let now ← perform .now
  let st := { agent.st with rolledBackVersion := agent.st.lastUpdateVersion, rolledBackAt := now }
  match ← perform .restoredSHA256 with
  | some sum =>
    let now ← perform .now
    saveAndRestart { agent with st := unwatched { st with binarySHA256 := sum, binaryUpdatedAt := now } }
  | none => saveAndRestart { agent with st := unwatched st }

def CheckRollback (agent : Running) (checkedIn : Bool) : Updater Running := do
  let st := agent.st
  if st.lastUpdateAt = 0 then return agent
  else if agent.swappedVersion ≠ [] then return agent
  else if checkedIn then
    saveState (unwatched st)
    return { agent with st := unwatched st }
  else
    let st := { st with failedSinceUpdate := st.failedSinceUpdate + 1 }
    saveState st
    if st.failedSinceUpdate < MaxFailedSinceUpdate then return { agent with st }
    else if ← rollback then recordRollback { agent with st }
    else return { agent with st }

section
variable (sha256 : Bytes → Bytes) (verifyBinarySignature : Bytes → Bytes → Bool)

/-- Steps 2 and 3: what was downloaded is what the update says, and signed. -/
def verified (upd : AgentUpdate) (bin : Bytes) : Bool :=
  decodeString (toLower (trimSpace upd.sha256)) = some (sha256 bin) &&
    (Base64.decode upd.signature).any (verifyBinarySignature bin)

/-- Steps 4 to 7. -/
def install (agent : Running) (upd : AgentUpdate) (bin : Bytes) : Updater Running := do
  if ← perform .createNew then
    if ← perform (.writeNew bin) then
      if ← atomicReplace then
        let now ← perform .now
        saveAndRestart { agent with
          st := { agent.st with
            lastUpdateAt := now
            lastUpdateVersion := upd.latestVersion
            failedSinceUpdate := 0
            binarySHA256 := toLower upd.sha256
            binaryUpdatedAt := now }
          swappedVersion := upd.latestVersion }
      else
        perform (.remove .new)
        return agent
    else return agent
  else return agent

def HandleAgentUpdate (agent : Running) (upd : AgentUpdate) : Updater Running := do
  if agent.swappedVersion ≠ [] then
    perform .restart
    return agent
  else if upd.latestVersion = [] ∨ upd.sha256 = [] ∨ upd.signature = "" then return agent
  else if semverGT upd.latestVersion agent.version then
    let now ← perform .now
    if agent.st.rolledBackVersion ≠ [] ∧ upd.latestVersion = agent.st.rolledBackVersion ∧
        now - agent.st.rolledBackAt < rolledBackRetryAfter then return agent
    else
      match ← perform .download with
      | none => return agent
      | some bin =>
        if verified sha256 verifyBinarySignature upd bin then install agent upd bin
        else return agent
  else return agent

def saves (st : State) : Nat → Updater Unit
  | 0 => return ()
  | n + 1 => do
    saveState st
    saves st n

/-- A cycle: a check-in, then what it gave to do, each part of which may save the state, and last
the update that it offered. -/
def runCheckin (agent : Running) : Updater Running := do
  match ← perform .checkin with
  | none => CheckRollback agent false
  | some offered =>
    let agent ← CheckRollback agent true
    saveState agent.st
    let n ← perform .jobs
    saves agent.st n
    match offered with
    | none => return agent
    | some upd => HandleAgentUpdate sha256 verifyBinarySignature agent upd

def boot : Updater Running := do
  let loaded ← perform .load
  let version ← perform .version
  let st ← CheckBinaryIntegrity (loaded.getD {})
  return ⟨st, version, []⟩

def cycle : Memory → Updater Memory
  | .stopped => do
    let agent ← boot
    return .running agent
  | .running agent => do
    let agent ← runCheckin sha256 verifyBinarySignature agent
    return .running agent

/-- The computer: its files, state.json, and what has become of the last update. `away` says that
the binary has been taken from its path, `unsaved` that another was put there and no state saved
since, `trial` that this is a new one whose confirmation is not on disk, `fresh` that the process
was started from it and `validated` that a check-in of this process succeeded. -/
structure Host where
  files : Path → Option Bytes
  state : State
  away : Bool
  unsaved : Bool
  trial : Bool
  fresh : Bool
  validated : Bool

namespace Host

def put (host : Host) (path : Path) (content : Option Bytes) : Host :=
  { host with files := Function.update host.files path content }

def saved (host : Host) (st : State) : Host :=
  { host with state := st, unsaved := false, trial := host.trial && !host.validated }

def move (host : Host) (source target : Path) : Host :=
  { host with files := Function.update (Function.update host.files target (host.files source)) source none }

/-- What a rename that succeeded makes of the last update. -/
def marked (host : Host) (x : Exchange) : Stage → Host
  | .aside => { host with away := true }
  | .forward => { host with away := false, unsaved := true, trial := x = .update, fresh := false, validated := false }
  | .back => { host with away := false }

end Host

/-- What each operation may answer and change. Any of them may fail, and a write that fails
leaves any beginning of the file. -/
def exec : (o : Op) → Host → o.Res → Host → Prop
  | .load, host, loaded, after =>
    (loaded = some host.state ∨ loaded = none) ∧ after = { host with fresh := true, validated := false }
  | .version, host, _, after | .jobs, host, _, after | .download, host, _, after | .restart, host, _, after => after = host
  | .ownSHA256, host, sum, after | .restoredSHA256, host, sum, after =>
    after = host ∧ ∀ s ∈ sum, ∃ bin, host.files .binary = some bin ∧ s = encodeToString (sha256 bin)
  | .save st, host, done, after => done = true ∧ after = host.saved st ∨ done = false ∧ after = host
  | .now, host, now, after => after = host ∧ 0 < now
  | .checkin, host, response, after =>
    after = { host with validated := host.validated || (response.isSome && host.fresh && host.trial) }
  | .createNew, host, done, after => done = true ∧ after = host.put .new (some []) ∨ done = false ∧ after = host
  | .writeNew bin, host, done, after =>
    done = true ∧ after = host.put .new (some bin) ∨
      done = false ∧ ∃ part, part <+: bin ∧ after = host.put .new (some part)
  | .remove path, host, _, after => after = host.put path none ∨ after = host
  | .statBackup, host, found, after => after = host ∧ (found = true → host.files .backup ≠ none)
  | .rename x stage, host, done, after =>
    done = true ∧ host.files (x.source stage) ≠ none ∧ after = (host.move (x.source stage) (x.target stage)).marked x stage ∨
      done = false ∧ after = host

/-- The agent on its computer. It may stop at any point; it then starts from what is on disk. -/
def agent : Process Op.Res Host Memory where
  exec := exec sha256
  env := fun _ _ => False
  main := cycle sha256 verifyBinarySignature
  recover := fun _ => .stopped

/-- One complete binary at its path, the recorded hash that of this binary once the start has
reconciled them, and the watch armed when this is a new one that is not confirmed. -/
def Consistent (host : Host) : Prop :=
  ∃ bin, host.files .binary = some bin ∧ (∃ signature, verifyBinarySignature bin signature = true) ∧
    (host.state.binarySHA256 = [] ∨ host.state.binarySHA256 = encodeToString (sha256 bin)) ∧
    (host.state.armed = true ↔ host.trial = true)

/-- No change of binary is under way. -/
def Settled (host : Host) : Prop := host.away = false ∧ host.unsaved = false

end

end Opale.AgentGo.Update
