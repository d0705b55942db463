import Opale.Agents.Tables
import Opale.Effects.Program

namespace Opale.Agents

open Sql
open Linux (Text)

abbrev TokenRow := Nat × AgentToken

abbrev DeviceRow := Nat × AgentDevice

/-- The statements of the routes of the agent. `elsewhere` stands for those on other tables;
`insertIssued` is given the code that the token is issued from. -/
inductive AgentStmt where
  | authToken (hash : Text)
  | insertRotated (deviceId : Option Nat) (hash label : Text)
  | replaceToken (expiresAt : Int) (newId id : Nat)
  | bootstrapForUpdate (hash : Text)
  | deviceByHostnameForUpdate (hostname : Text)
  | deviceForUpdate (id : Nat)
  | activeToken (deviceId : Nat) (excludeTokenId : Option Nat)
  | revokeUnused (deviceId : Nat) (keep : Option Nat)
  | insertDevice (hostname : Text) (serial : Option Text)
  | insertIssued (label hash : Text) (deviceId : Nat) (createdBy : Text) (issuer : Nat)
  | redeem (id : Nat)
  | deviceBySerial (serial : Text)
  | deviceByHostname (hostname : Text)
  | claimToken (deviceId id : Nat)
  | updateDevice (id : Nat) (hostname : Text)
  | elsewhere
  | bindToken (deviceId id : Nat)
  | revokeToken (id : Nat)
  | insertToken (label hash createdBy : Text)
  deriving DecidableEq

abbrev AgentStmt.Ans : AgentStmt → Type
  | .authToken _ => Option TokenRow
  | .insertRotated .. | .insertDevice .. | .insertIssued .. | .insertToken .. => Nat
  | .replaceToken .. | .redeem _ | .updateDevice .. | .elsewhere | .bindToken .. => Unit
  | .bootstrapForUpdate _ | .revokeToken _ => Option (Nat × Option Text)
  | .deviceByHostnameForUpdate _ | .deviceForUpdate _ | .deviceBySerial _ | .deviceByHostname _ => Option DeviceRow
  | .activeToken .. => Option Nat
  | .revokeUnused .. => List Nat
  | .claimToken .. => Nat

/-- `now()` of a transaction, and `gen_random_uuid()`. -/
structure AgentDraw where
  now : Int
  fresh : Nat

abbrev AgentOutcome := Outcome AgentChange AgentLock

/-- `expires_at IS NULL OR expires_at > now()` -/
def AgentToken.unexpired (row : AgentToken) (now : Int) : Bool := row.expiresAt.all fun expires => now < expires

/-- The device of the token is managed by its desired state. -/
def AgentToken.pulled (row : AgentToken) (db : AgentDb) : Bool :=
  (row.deviceId.bind fun d => db.devices[d]?).any fun d => d.managedBy = some .pull

/-- What the query of `authToken` asks of a token, its hash apart. -/
def AgentToken.accepted (row : AgentToken) (db : AgentDb) : Bool :=
  !row.isBootstrap && row.revokedAt = none && row.unexpired db.clock && !row.pulled db

def ROTATION : Text := "agent-rotation".toList

def AgentToken.rotated (deviceId : Option Nat) (hash label : Text) : AgentToken :=
  ⟨deviceId, hash, some label, some ROTATION, false, none, none, none, none, none, 0, none, none⟩

def AgentToken.issued (label hash : Text) (deviceId : Nat) (createdBy : Text) (issuer : Nat) : AgentToken :=
  ⟨some deviceId, hash, some label, some createdBy, false, none, none, none, none, none, 0, none, some issuer⟩

def AgentToken.created (label hash createdBy : Text) : AgentToken :=
  ⟨none, hash, some label, some createdBy, false, none, none, none, none, none, 0, none, none⟩

def AgentToken.replace (expiresAt : Int) (newId : Nat) (row : AgentToken) : AgentToken :=
  { row with expiresAt := some expiresAt, replacedBy := some newId }

def AgentToken.revoke (now : Int) (row : AgentToken) : AgentToken := { row with revokedAt := some now }

def AgentToken.redeem (now : Int) (row : AgentToken) : AgentToken :=
  { row with bootstrapRedeemedCount := row.bootstrapRedeemedCount + 1, bootstrapRedeemedAt := some now }

def AgentToken.bind (deviceId : Nat) (now : Int) (row : AgentToken) : AgentToken :=
  { row with deviceId := some deviceId, lastUsedAt := some now }

/-- A token of the device that has never been used, and that no rotation has issued. -/
def AgentToken.unused (deviceId : Nat) (row : AgentToken) : Bool :=
  row.deviceId = some deviceId && !row.isBootstrap && row.revokedAt = none && row.lastUsedAt = none &&
    row.createdBy ≠ some ROTATION

/-- An INSERT into `agent_tokens`, whose hashes are unique. -/
def insertTokenRow (db : AgentDb) (draw : AgentDraw) (row : AgentToken) : Option (AgentOutcome Nat) :=
  if db.tokens.contains draw.fresh || db.tokens.toList.any (fun (_, other) => other.tokenHash = row.tokenHash) then none
  else some ⟨draw.fresh, [.token draw.fresh row], [.tokenHash row.tokenHash]⟩

/-- An UPDATE of the tokens that satisfy `p`: the keys of its rows. -/
def updateTokens (db : AgentDb) (p : Nat → AgentToken → Bool) (set : AgentToken → AgentToken) : AgentOutcome (List Nat) :=
  let rows := db.tokens.update p set
  ⟨rows.map Prod.fst, rows.map fun (id, row) => .token id row, []⟩

def answering {α β : Type} (f : α → β) (out : AgentOutcome α) : AgentOutcome β := ⟨f out.answer, out.changes, out.locks⟩

/-- A row that is read FOR UPDATE. -/
def readDevice (row : Option DeviceRow) : AgentOutcome (Option DeviceRow) :=
  ⟨row, [], (row.map fun (id, _) => .device id).toList⟩

def findDevice (db : AgentDb) (id : Nat) : Option DeviceRow := db.devices[id]?.map fun row => (id, row)

/-- The unique index on `devices.hostname`. -/
def hostnameElsewhere (db : AgentDb) (hostname : Text) (deviceId : Nat) : Bool :=
  db.devices.toList.any fun (id, d) => id ≠ deviceId && d.hostname = hostname

/-- The constraint `devices_serial_unique`, which NULL never meets. -/
def serialElsewhere (db : AgentDb) (serial : Option Text) (deviceId : Nat) : Bool :=
  serial.isSome && db.devices.toList.any fun (id, d) => id ≠ deviceId && d.serial = serial

/-- A statement by itself takes its time from the clock, one of a transaction from its start. -/
def AgentStmt.run : (s : AgentStmt) → AgentDraw → AgentDb → Option (AgentOutcome s.Ans)
  | .authToken hash, _, db =>
    some ⟨(db.tokens.select fun _ row => row.tokenHash = hash && row.accepted db).head?, [], []⟩
  | .insertRotated deviceId hash label, draw, db => insertTokenRow db draw (.rotated deviceId hash label)
  | .replaceToken expiresAt newId target, _, db =>
    some (answering (fun _ => ()) (updateTokens db (fun id _ => id = target) (.replace expiresAt newId)))
  | .bootstrapForUpdate hash, draw, db =>
    let row := (db.tokens.select fun _ row => row.tokenHash = hash && row.isBootstrap && row.revokedAt = none &&
      row.unexpired draw.now && (row.bootstrapMaxRedeems.all fun most => row.bootstrapRedeemedCount < most)).head?
    some ⟨row.map fun (id, row) => (id, row.label), [], (row.map fun (id, _) => .token id).toList⟩
  | .deviceByHostnameForUpdate hostname, _, db =>
    some (readDevice (db.devices.select fun _ d => d.hostname = hostname).head?)
  | .deviceForUpdate id, _, db => some (readDevice (findDevice db id))
  | .activeToken deviceId excludeTokenId, draw, db =>
    some ⟨((db.tokens.select fun id row => row.deviceId = some deviceId && !row.isBootstrap && row.revokedAt = none &&
      row.unexpired draw.now && (row.lastUsedAt ≠ none || row.createdBy = some ROTATION) &&
      excludeTokenId ≠ some id).head?).map Prod.fst, [], []⟩
  | .revokeUnused deviceId keep, draw, db =>
    some (updateTokens db (fun id row => row.unused deviceId && keep ≠ some id) (.revoke draw.now))
  | .insertDevice hostname serial, draw, db =>
    if db.devices.contains draw.fresh || hostnameElsewhere db hostname draw.fresh ||
        serialElsewhere db serial draw.fresh then none
    else some ⟨draw.fresh, [.device draw.fresh ⟨hostname, serial, none⟩], .hostname hostname :: (serial.map .serial).toList⟩
  | .insertIssued label hash deviceId createdBy issuer, draw, db =>
    insertTokenRow db draw (.issued label hash deviceId createdBy issuer)
  | .redeem target, draw, db =>
    some (answering (fun _ => ()) (updateTokens db (fun id _ => id = target) (.redeem draw.now)))
  | .deviceBySerial serial, _, db => some ⟨(db.devices.select fun _ d => d.serial = some serial).head?, [], []⟩
  | .deviceByHostname hostname, _, db => some ⟨(db.devices.select fun _ d => d.hostname = hostname).head?, [], []⟩
  | .claimToken deviceId target, draw, db =>
    some (answering List.length (updateTokens db
      (fun id row => id = target && (row.deviceId = none || row.deviceId = some deviceId)) (.bind deviceId draw.now)))
  | .updateDevice target hostname, _, db =>
    if hostnameElsewhere db hostname target then none
    else some ⟨(), (db.devices.update (fun id _ => id = target) fun d => { d with hostname := hostname }).map
      fun (id, row) => .device id row, [.hostname hostname]⟩
  | .elsewhere, _, _ => some ⟨(), [], []⟩
  | .bindToken deviceId target, _, db =>
    some (answering (fun _ => ()) (updateTokens db (fun id _ => id = target) (.bind deviceId db.clock)))
  | .revokeToken target, _, db =>
    let row := db.tokens[target]?.filter fun row => row.revokedAt = none
    some (answering (fun _ => row.map fun row => (target, row.label))
      (updateTokens db (fun id row => id = target && row.revokedAt = none) (.revoke db.clock)))
  | .insertToken label hash createdBy, draw, db => insertTokenRow db draw (.created label hash createdBy)

/-- The statements with the tables they run on. -/
def agentSchema : Schema AgentStmt.Ans AgentDb AgentChange AgentLock AgentDraw where
  run := AgentStmt.run
  apply := AgentChange.apply
  locks := AgentChange.locks
  commute := AgentChange.commute

/-- What an UPDATE makes of a token that satisfies its WHERE clause. -/
inductive Sets : AgentStmt → Nat → AgentToken → AgentToken → Prop
  | replaceToken {expiresAt newId id row} : Sets (.replaceToken expiresAt newId id) id row (row.replace expiresAt newId)
  | revokeUnused {deviceId keep id row now} : row.unused deviceId = true →
      Sets (.revokeUnused deviceId keep) id row (row.revoke now)
  | redeem {id row now} : Sets (.redeem id) id row (row.redeem now)
  | claimToken {deviceId id row now} : row.deviceId = none ∨ row.deviceId = some deviceId →
      Sets (.claimToken deviceId id) id row (row.bind deviceId now)
  | bindToken {deviceId id row now} : Sets (.bindToken deviceId id) id row (row.bind deviceId now)
  | revokeToken {id row now} : row.revokedAt = none → Sets (.revokeToken id) id row (row.revoke now)

inductive Inserts : AgentStmt → AgentToken → Prop
  | insertRotated {deviceId hash label} : Inserts (.insertRotated deviceId hash label) (.rotated deviceId hash label)
  | insertIssued {label hash deviceId createdBy issuer} :
      Inserts (.insertIssued label hash deviceId createdBy issuer) (.issued label hash deviceId createdBy issuer)
  | insertToken {label hash createdBy} : Inserts (.insertToken label hash createdBy) (.created label hash createdBy)

/-- A row of `agent_tokens` before and after a statement. -/
inductive TokenStep (s : AgentStmt) (id : Nat) : Option AgentToken → Option AgentToken → Prop
  | same {row} : TokenStep s id row row
  | set {before after} : Sets s id before after → TokenStep s id (some before) (some after)
  | insert {row} : Inserts s row → TokenStep s id none (some row)

variable {s : AgentStmt} {draw : AgentDraw} {db : AgentDb} {id : Nat}

theorem step_insertTokenRow {row : AgentToken} {out : AgentOutcome Nat} (ran : insertTokenRow db draw row = some out)
    (inserts : Inserts s row) : TokenStep s id db.tokens[id]? (agentSchema.applyAll out.changes db).tokens[id]? := by
  unfold insertTokenRow at ran
  split at ran
  case isTrue => cases ran
  case isFalse new =>
    cases ran
    change TokenStep s id _ (db.tokens.put draw.fresh (some row))[id]?
    by_cases fresh : id = draw.fresh
    · subst fresh
      have absent : db.tokens[draw.fresh]? = none := by
        refine Std.ExtTreeMap.getElem?_eq_none fun member => new ?_
        rw [Bool.or_eq_true]
        exact .inl (Std.ExtTreeMap.mem_iff_contains.mp member)
      rw [absent, Table.getElem?_put_self]
      exact .insert inserts
    · rw [Table.getElem?_put_of_ne _ fresh]
      exact .same

theorem tokens_updateTokens (db : AgentDb) (p : Nat → AgentToken → Bool) (set : AgentToken → AgentToken) (id : Nat) :
    (agentSchema.applyAll (updateTokens db p set).changes db).tokens[id]? =
      db.tokens[id]?.map fun row => if p id row then set row else row := by
  have write : ∀ (rows : List TokenRow) (db : AgentDb),
      (agentSchema.applyAll (rows.map fun (id, row) => .token id row) db).tokens = Table.write rows db.tokens := by
    intro rows
    induction rows with
    | nil => exact fun _ => rfl
    | cons e rows ih => exact fun db => ih _
  have changed := write (db.tokens.update p set) db
  exact (congrArg (·[id]?) changed).trans (Table.getElem?_write_update _ _ _ _)

theorem step_updateTokens {p : Nat → AgentToken → Bool} {set : AgentToken → AgentToken}
    (sets : ∀ row, p id row = true → Sets s id row (set row)) :
    TokenStep s id db.tokens[id]? (agentSchema.applyAll (updateTokens db p set).changes db).tokens[id]? := by
  rw [tokens_updateTokens]
  cases db.tokens[id]? with
  | none => exact .same
  | some row =>
    rw [Option.map_some]
    split
    case isTrue satisfied => exact .set (sets row satisfied)
    case isFalse => exact .same

theorem tokens_devices (rows : List DeviceRow) (db : AgentDb) :
    (agentSchema.applyAll (rows.map fun (id, row) => .device id row) db).tokens = db.tokens := by
  induction rows generalizing db with
  | nil => rfl
  | cons e rows ih => exact ih _

/-- What every statement can do to a row of `agent_tokens`. -/
theorem run_token {out : AgentOutcome s.Ans} (ran : s.run draw db = some out) (id : Nat) :
    TokenStep s id db.tokens[id]? (agentSchema.applyAll out.changes db).tokens[id]? := by
  cases s with
  | insertRotated deviceId hash label => exact step_insertTokenRow ran .insertRotated
  | insertIssued label hash deviceId createdBy issuer => exact step_insertTokenRow ran .insertIssued
  | insertToken label hash createdBy => exact step_insertTokenRow ran .insertToken
  | authToken _ | bootstrapForUpdate _ | deviceByHostnameForUpdate _ | deviceForUpdate _ | activeToken _ _
  | deviceBySerial _ | deviceByHostname _ | elsewhere =>
    cases ran
    exact .same
  | replaceToken expiresAt newId target =>
    cases ran
    refine step_updateTokens fun row satisfied => ?_
    cases of_decide_eq_true satisfied
    exact .replaceToken
  | redeem target =>
    cases ran
    refine step_updateTokens fun row satisfied => ?_
    cases of_decide_eq_true satisfied
    exact .redeem
  | bindToken deviceId target =>
    cases ran
    refine step_updateTokens fun row satisfied => ?_
    cases of_decide_eq_true satisfied
    exact .bindToken
  | revokeUnused deviceId keep =>
    cases ran
    refine step_updateTokens fun row satisfied => ?_
    rw [Bool.and_eq_true] at satisfied
    exact .revokeUnused satisfied.1
  | claimToken deviceId target =>
    cases ran
    refine step_updateTokens fun row satisfied => ?_
    simp only [Bool.and_eq_true, Bool.or_eq_true, decide_eq_true_eq] at satisfied
    obtain ⟨rfl, free⟩ := satisfied
    exact .claimToken free
  | revokeToken target =>
    cases ran
    refine step_updateTokens fun row satisfied => ?_
    simp only [Bool.and_eq_true, decide_eq_true_eq] at satisfied
    obtain ⟨rfl, unrevoked⟩ := satisfied
    exact .revokeToken unrevoked
  | insertDevice hostname serial =>
    simp only [AgentStmt.run] at ran
    split at ran
    · cases ran
    · cases ran
      exact .same
  | updateDevice target hostname =>
    simp only [AgentStmt.run] at ran
    split at ran
    · cases ran
    · cases ran
      rw [tokens_devices]
      exact .same

theorem clock_tokens (rows : List TokenRow) (db : AgentDb) :
    (agentSchema.applyAll (rows.map fun (id, row) => .token id row) db).clock = db.clock := by
  induction rows generalizing db with
  | nil => rfl
  | cons e rows ih => exact ih _

theorem clock_devices (rows : List DeviceRow) (db : AgentDb) :
    (agentSchema.applyAll (rows.map fun (id, row) => .device id row) db).clock = db.clock := by
  induction rows generalizing db with
  | nil => rfl
  | cons e rows ih => exact ih _

/-- No statement sets the clock. -/
theorem run_clock {out : AgentOutcome s.Ans} (ran : s.run draw db = some out) :
    (agentSchema.applyAll out.changes db).clock = db.clock := by
  cases s with
  | insertRotated _ _ _ | insertIssued _ _ _ _ _ | insertToken _ _ _ =>
    simp only [AgentStmt.run, insertTokenRow] at ran
    split at ran <;> cases ran
    rfl
  | insertDevice _ _ =>
    simp only [AgentStmt.run] at ran
    split at ran <;> cases ran
    rfl
  | updateDevice _ _ =>
    simp only [AgentStmt.run] at ran
    split at ran <;> cases ran
    exact clock_devices _ _
  | replaceToken _ _ _ | redeem _ | bindToken _ _ | revokeUnused _ _ | claimToken _ _ | revokeToken _ =>
    cases ran
    exact clock_tokens _ _
  | authToken _ | bootstrapForUpdate _ | deviceByHostnameForUpdate _ | deviceForUpdate _ | activeToken _ _
  | deviceBySerial _ | deviceByHostname _ | elsewhere =>
    cases ran
    rfl

end Opale.Agents
