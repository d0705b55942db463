import Opale.Agents.Statements
import Opale.Effects.Threads
import Opale.Linux.Enrollment

namespace Opale.Agents

open Sql
open Linux (Text TextFns ClaimRefusal normalizeSerial)

/-- What a COMMIT makes durable: a successor of a token, a token issued from a code, the claim
of a device, the inventory of a check-in. -/
inductive Work where
  | rotation (id newId : Nat)
  | exchange (bootstrap newId : Nat)
  | claim
  | inventory
  deriving DecidableEq

inductive AgentAudit where
  | token_rotated (deviceId : Option Nat) (oldTokenId : Nat) (expiresAt : Int)
  | agent_bootstrap_exchange (hostname : Text) (deviceId : Nat) (bootstrapLabel serial : Option Text) (revoked : Nat)
  | agent_bootstrap_exchange_refused (hostname : Text) (deviceId : Nat) (reason : ClaimRefusal)
      (bootstrapLabel serial : Option Text)
  | agent_token_bound (hostname : Text) (deviceId tokenId : Nat) (serial : Option Text) (revoked : Nat)
  | agent_token_bind_refused (hostname : Text) (deviceId tokenId : Nat) (reason : ClaimRefusal) (serial : Option Text)
  | token_created (byUser label : Text)
  | token_revoked (byUser : Text) (label : Option Text)
  deriving DecidableEq

inductive AgentReply where
  | threw
  | refusal (status : Nat) (error : String)
  | ok
  | rotated (token : Text) (expiresAtOld : Int)
  | exchanged (token : Text) (deviceId : Nat) (hostname : Text)
  | checkedIn (deviceId : Nat)
  | created (id : Nat) (token : Text)
  deriving DecidableEq

/-- Operations of a request. `commit` is the COMMIT of the work that it names, `send` the
reply, after which the request is over. -/
inductive AgentOp where
  | sql (o : SqlOp AgentStmt)
  | commit (work : Work)
  | dateNow
  | randomToken
  | evictTokens (ids : List Nat)
  | logAudit (entry : AgentAudit)
  | send (reply : AgentReply)

abbrev AgentOp.Res : AgentOp → Type
  | .sql o => o.Res AgentStmt.Ans
  | .commit _ => Bool
  | .dateNow => Int
  | .randomToken => Text
  | .evictTokens _ | .logAudit _ | .send _ => Unit

/-- A token issued from a code, and whether the answer of the COMMIT has arrived. -/
structure Redemption where
  bootstrap : Nat
  token : Nat
  answered : Bool
  deriving DecidableEq

/-- What has happened: the query of `authToken` has found a token, a rotation has committed, an
admin has revoked a token, a request is over, with what its exchange has committed. -/
inductive AgentEvent where
  | authenticated (t token : Nat) (now : Int)
  | rotated (t token successor : Nat) (now : Int)
  | revoked (token : Nat)
  | replied (t : Nat) (reply : AgentReply) (spent : Option Redemption)
  deriving DecidableEq

abbrev AgentStore := Store AgentDb AgentChange AgentLock

/-- The database; besides, the newest event first, for each token the devices it has been bound
to, and for each request the device it has inserted and the redemption it has committed. -/
structure AgentWorld where
  store : AgentStore
  history : List AgentEvent
  bindings : Nat → List Nat
  inserted : Nat → Option Nat
  spent : Nat → Option Redemption

def AgentDb.deviceOf (db : AgentDb) (token : Nat) : Option Nat := db.tokens[token]?.bind (·.deviceId)

/-- The store has moved: the bindings that are committed now are noted. -/
def AgentWorld.move (w : AgentWorld) (store : AgentStore) : AgentWorld :=
  { w with
    store := store
    bindings := fun token => (store.committed.deviceOf token).toList ++ w.bindings token }

/-- What is noted of an operation on the database, its answer given. -/
def AgentWorld.note (t : Nat) : (o : SqlOp AgentStmt) → o.Res AgentStmt.Ans → AgentWorld → AgentWorld
  | .query (.authToken _), answer, w =>
    { w with
      history := ((answer.getD none).map fun row => .authenticated t row.1 w.store.committed.clock).toList ++ w.history
      inserted := Function.update w.inserted t none }
  | .query (.revokeToken _), answer, w =>
    { w with history := ((answer.getD none).map fun row => AgentEvent.revoked row.1).toList ++ w.history }
  | .within (.insertDevice ..), answer, w => { w with inserted := Function.update w.inserted t answer }
  | _, _, w => w

/-- What is noted of a COMMIT that has been carried out. -/
def AgentWorld.done (t : Nat) (ok : Bool) : Work → AgentWorld → AgentWorld
  | .rotation id newId, w => { w with history := .rotated t id newId w.store.committed.clock :: w.history }
  | .exchange bootstrap newId, w => { w with spent := Function.update w.spent t (some ⟨bootstrap, newId, ok⟩) }
  | .claim, w | .inventory, w => w

/-- What an operation of the request `t` may answer, and what it makes of the world. A COMMIT
that raises may have been carried out, its answer lost. -/
def agentExec (t : Nat) : (o : AgentOp) → AgentWorld → o.Res → AgentWorld → Prop
  | .sql o, w, answer, w₁ => ∃ store, agentSchema.exec t o w.store answer store ∧ w₁ = (w.note t o answer).move store
  | .commit work, w, ok, w₁ =>
    (∃ changes, w.store.session t = some ⟨changes, false⟩ ∧
      w₁ = (w.done t ok work).move ((agentSchema.publish changes w.store).close t)) ∨
    ((∀ changes, w.store.session t = some ⟨changes, false⟩ → ok = false) ∧ w₁ = w.move (w.store.close t))
  | .dateNow, w, now, w₁ => now = w.store.committed.clock ∧ w₁ = w
  | .randomToken, w, _, w₁ | .evictTokens _, w, _, w₁ | .logAudit _, w, _, w₁ => w₁ = w
  | .send reply, w, _, w₁ => w₁ = { w with
      history := .replied t reply (w.spent t) :: w.history
      spent := Function.update w.spent t none }

abbrev Agent := Program AgentOp.Res

abbrev perform (o : AgentOp) : Agent o.Res := Program.perform o

/-- `db.query`: no answer when it throws. -/
abbrev query (s : AgentStmt) : Agent (Option s.Ans) := perform (.sql (.query s))

/-- `client.query` -/
abbrev within (s : AgentStmt) : Agent (Option s.Ans) := perform (.sql (.within s))

/-- `hashToken`, the day of a date, and the text functions. -/
structure AgentFns where
  text : TextFns
  hashToken : Text → Text
  isoDay : Int → Text

variable (fns : AgentFns)

def INVALID_TOKEN : AgentReply := .refusal 401 "Token invalide ou révoqué"

/-- The token of the request, whose header is `Bearer` and `plain`. -/
def authToken (plain : Option Text) : Agent (Option (Option TokenRow)) :=
  match plain with
  | none => return some none
  | some plain => query (.authToken (fns.hashToken plain))

/-- The routes that only authenticate before they answer. -/
def authenticatedRoute (plain : Option Text) : Agent AgentReply := do
  match ← authToken fns plain with
  | none => return .threw
  | some none => return INVALID_TOKEN
  | some (some _) => return .ok

/-- `catch`: ROLLBACK, and the error is thrown on, or answered. -/
def abort (reply : AgentReply) : Agent AgentReply := do
  let _ ← perform (.sql .rollback)
  return reply

def GRACE_MS : Int := 24 * 60 * 60 * 1000

/-- The successor of the token, which is accepted for 24 hours more. -/
def rotate (t : TokenRow) (newToken : Text) (expiresAt : Int) : Agent AgentReply := do
  if ← perform (.sql .begin) then
    match ← within (.insertRotated t.2.deviceId (fns.hashToken newToken)
      (((t.2.label.filter (· ≠ [])).getD "agent".toList) ++ " (rotated)".toList)) with
    | none => abort .threw
    | some newId =>
      match ← within (.replaceToken expiresAt newId t.1) with
      | none => abort .threw
      | some () =>
        if ← perform (.commit (.rotation t.1 newId)) then
          perform (.logAudit (.token_rotated t.2.deviceId t.1 expiresAt))
          return .rotated newToken expiresAt
        else abort .threw
  else abort .threw

def rotateToken (plain : Option Text) : Agent AgentReply := do
  match ← authToken fns plain with
  | none => return .threw
  | some none => return INVALID_TOKEN
  | some (some t) =>
    let newToken ← perform .randomToken
    let now ← perform .dateNow
    rotate fns t newToken (now + GRACE_MS)

/-- The serial does not let the device be claimed. -/
def serialRefusal (device : AgentDevice) (serial : Option Text) : Option ClaimRefusal :=
  if device.managedBy = some .pull then some .pull_managed
  else match normalizeSerial fns.text device.serial with
    | none => none
    | some deviceSerial =>
      match normalizeSerial fns.text serial with
      | none => some .serial_missing
      | some sent => if sent ≠ deviceSerial then some .serial_mismatch else none

/-- No answer when the query throws, else the reason to refuse the claim. -/
def checkDeviceClaim (device : DeviceRow) (serial : Option Text) (excludeTokenId : Option Nat) :
    Agent (Option (Option ClaimRefusal)) :=
  match serialRefusal fns device.2 serial with
  | some refusal => return some (some refusal)
  | none => do
    match ← within (.activeToken device.1 excludeTokenId) with
    | none => return none
    | some token => return some (token.map .active_token)

def CLAIM_REFUSAL_MESSAGES : ClaimRefusal → String
  | .pull_managed => "Poste géré par état désiré (Linux) : enrôlement legacy refusé"
  | .serial_missing => "Poste déjà connu avec un numéro de série : série absente de la requête — enrôlement refusé"
  | .serial_mismatch => "Poste déjà connu avec un autre numéro de série — enrôlement refusé"
  | .active_token _ => "Poste déjà enrôlé (token actif) — un admin doit révoquer l'ancien token avant réenrôlement"

def claimReply (refusal : ClaimRefusal) : AgentReply :=
  .refusal (match refusal with | .active_token _ => 409 | _ => 403) (CLAIM_REFUSAL_MESSAGES refusal)

def INTERNAL_ERROR : AgentReply := .refusal 500 "Erreur interne"

/-- What an exchange has checked and done before the token is inserted. -/
structure Exchange where
  bootstrap : Nat × Option Text
  hostname : Text
  serial : Option Text

/-- The new token, and the code redeemed. -/
def issueToken (x : Exchange) (deviceId : Nat) (revokedUnused : List Nat) : Agent AgentReply := do
  let newToken ← perform .randomToken
  let now ← perform .dateNow
  match ← within (.insertIssued ("auto-".toList ++ x.hostname ++ "-".toList ++ fns.isoDay now) (fns.hashToken newToken)
    deviceId ("bootstrap:".toList ++ x.bootstrap.2.getD "null".toList) x.bootstrap.1) with
  | none => abort INTERNAL_ERROR
  | some newId =>
    match ← within (.redeem x.bootstrap.1) with
    | none => abort INTERNAL_ERROR
    | some () =>
      if ← perform (.commit (.exchange x.bootstrap.1 newId)) then
        perform (.evictTokens revokedUnused)
        perform (.logAudit (.agent_bootstrap_exchange x.hostname deviceId x.bootstrap.2 x.serial revokedUnused.length))
        return .exchanged newToken deviceId x.hostname
      else abort INTERNAL_ERROR

/-- The claim is refused: no token, and the code is not redeemed. -/
def refuseExchange (x : Exchange) (deviceId : Nat) (refusal : ClaimRefusal) : Agent AgentReply := do
  let _ ← perform (.sql .rollback)
  perform (.logAudit (.agent_bootstrap_exchange_refused x.hostname deviceId refusal x.bootstrap.2 x.serial))
  return claimReply refusal

/-- The device of the exchange: one that may be claimed, or a new one. -/
def exchangeDevice (x : Exchange) : Agent AgentReply := do
  match ← within (.deviceByHostnameForUpdate x.hostname) with
  | none => abort INTERNAL_ERROR
  | some (some dev) =>
    match ← checkDeviceClaim fns dev x.serial none with
    | none => abort INTERNAL_ERROR
    | some (some refusal) => refuseExchange x dev.1 refusal
    | some none =>
      match ← within (.revokeUnused dev.1 none) with
      | none => abort INTERNAL_ERROR
      | some revokedUnused => issueToken fns x dev.1 revokedUnused
  | some none =>
    match ← within (.insertDevice x.hostname x.serial) with
    | none => abort INTERNAL_ERROR
    | some deviceId => issueToken fns x deviceId []

/-- `String(… || '').trim()` -/
def trimmed (value : Option Text) : Text := fns.text.trim (value.getD [])

def BOOTSTRAP_INVALID : AgentReply := .refusal 401 "Bootstrap invalide, expiré, révoqué ou quota atteint"

def exchangeToken (plain hostname serial : Option Text) : Agent AgentReply :=
  match plain with
  | none => return .refusal 401 "Bootstrap token manquant"
  | some plain => do
    if trimmed fns hostname = [] then return .refusal 400 "hostname requis"
    else if ← perform (.sql .begin) then
      match ← within (.bootstrapForUpdate (fns.hashToken plain)) with
      | none => abort INTERNAL_ERROR
      | some none => abort BOOTSTRAP_INVALID
      | some (some bootstrap) =>
        exchangeDevice fns ⟨bootstrap, trimmed fns hostname, (some (trimmed fns serial)).filter (· ≠ [])⟩
    else abort INTERNAL_ERROR

/-- The part of a check-in that its token and its device decide by. -/
structure Checkin where
  token : TokenRow
  hostname : Text
  serial : Option Text

def OTHER_DEVICE : AgentReply := .refusal 403 "Token lié à un autre device"

/-- The device with the serial, else the one with the hostname. -/
def lookup (c : Checkin) : Agent (Option (Option DeviceRow)) :=
  match c.serial with
  | none => query (.deviceByHostname c.hostname)
  | some serial => do
    match ← query (.deviceBySerial serial) with
    | none => return none
    | some (some device) => return some (some device)
    | some none => query (.deviceByHostname c.hostname)

/-- The row of the device, new or known. -/
def inventoryDevice (c : Checkin) : Option DeviceRow → Agent (Option Nat)
  | some device => do
    let done ← within (.updateDevice device.1 c.hostname)
    return done.map fun _ => device.1
  | none => within (.insertDevice c.hostname c.serial)

/-- What follows the inventory: the token is bound to the device. -/
def finishCheckin (c : Checkin) (deviceId : Nat) : Agent AgentReply := do
  match ← query .elsewhere with
  | none => return .threw
  | some () =>
    match ← query (.bindToken deviceId c.token.1) with
    | none => return .threw
    | some () =>
      match ← query .elsewhere with
      | none => return .threw
      | some () => return .checkedIn deviceId

/-- The facts of the device, all of them or none. -/
def inventory (c : Checkin) (known : Option DeviceRow) : Agent AgentReply := do
  if ← perform (.sql .begin) then
    match ← inventoryDevice c known with
    | none => abort .threw
    | some deviceId =>
      match ← within .elsewhere with
      | none => abort .threw
      | some () => if ← perform (.commit .inventory) then finishCheckin c deviceId else abort .threw
  else abort .threw

/-- The claim is refused; its transaction has changed nothing. -/
def refuseClaim (c : Checkin) (device : DeviceRow) (refusal : ClaimRefusal) : Agent AgentReply := do
  if ← perform (.commit .claim) then
    perform (.logAudit (.agent_token_bind_refused c.hostname device.1 c.token.1 refusal c.serial))
    return claimReply refusal
  else abort .threw

/-- A token that is not bound yet claims the device, and the check-in goes on. -/
def claimDevice (c : Checkin) (device : DeviceRow) : Agent AgentReply := do
  if ← perform (.sql .begin) then
    match ← within (.deviceForUpdate device.1) with
    | none => abort .threw
    | some locked =>
      match ← checkDeviceClaim fns (locked.getD device) c.serial (some c.token.1) with
      | none => abort .threw
      | some (some refusal) => refuseClaim c device refusal
      | some none =>
        match ← within (.claimToken device.1 c.token.1) with
        | none => abort .threw
        | some 0 => abort OTHER_DEVICE
        | some (_ + 1) =>
          match ← within (.revokeUnused device.1 (some c.token.1)) with
          | none => abort .threw
          | some revokedUnused =>
            if ← perform (.commit .claim) then
              perform (.evictTokens revokedUnused)
              perform (.logAudit (.agent_token_bound c.hostname device.1 c.token.1 c.serial revokedUnused.length))
              inventory c (some device)
            else abort .threw
  else abort .threw

def checkinDevice (c : Checkin) : Agent AgentReply := do
  match ← lookup c with
  | none => return .threw
  | some none => inventory c none
  | some (some device) =>
    match c.token.2.deviceId with
    | some bound => if device.1 ≠ bound then return OTHER_DEVICE else inventory c (some device)
    | none => claimDevice fns c device

def checkin (plain hostname serial : Option Text) : Agent AgentReply := do
  match ← authToken fns plain with
  | none => return .threw
  | some none => return INVALID_TOKEN
  | some (some token) =>
    match hostname.filter (· ≠ []) with
    | none => return .refusal 400 "hostname requis"
    | some hostname =>
      match ← query .elsewhere with
      | none => return .threw
      | some () => checkinDevice fns ⟨token, hostname, serial.filter (· ≠ [])⟩

/-- DELETE /tokens/:id -/
def revokeToken (id : Nat) (displayName : Text) : Agent AgentReply := do
  match ← query (.revokeToken id) with
  | none => return .threw
  | some none => return .refusal 404 "Token introuvable ou déjà révoqué"
  | some (some (id, label)) =>
    perform (.evictTokens [id])
    perform (.logAudit (.token_revoked displayName label))
    return .ok

/-- POST /tokens -/
def createToken (label : Option Text) (displayName : Text) : Agent AgentReply :=
  match label.filter (· ≠ []) with
  | none => return .refusal 400 "Label requis"
  | some label => do
    let plain ← perform .randomToken
    match ← query (.insertToken label (fns.hashToken plain) displayName) with
    | none => return .threw
    | some id =>
      perform (.logAudit (.token_created displayName label))
      return .created id plain

inductive Route : Agent AgentReply → Prop
  | authenticated {plain} : Route (authenticatedRoute fns plain)
  | rotate {plain} : Route (rotateToken fns plain)
  | exchange {plain hostname serial} : Route (exchangeToken fns plain hostname serial)
  | checkin {plain hostname serial} : Route (checkin fns plain hostname serial)
  | revoke {id displayName} : Route (revokeToken id displayName)
  | create {label displayName} : Route (createToken fns label displayName)

/-- What the rest of the server does to the database: time passes, devices come and change, a
bootstrap code is created, the tokens of a converted device are revoked. -/
inductive Foreign (db : AgentDb) : AgentChange → Prop
  | clock {now} : db.clock ≤ now → Foreign db (.clock now)
  | device {id row} : Foreign db (.device id row)
  | bootstrap {id row} : db.tokens[id]? = none → row.isBootstrap = true → row.deviceId = none → row.issuer = none →
      row.bootstrapRedeemedCount = 0 → Foreign db (.token id row)
  | conversion {id row now} : db.tokens[id]? = some row → Foreign db (.token id (row.revoke now))

/-- The request sends the reply of its route. -/
def request (route : Agent AgentReply) : Agent Unit := route.bind fun reply => perform (.send reply)

/-- Any number of requests at once. -/
def agents : Threads AgentOp.Res AgentWorld where
  exec := agentExec
  env w w₁ := ∃ change, Foreign w.store.committed change ∧ (∀ k ∈ agentSchema.locks change, w.store.owner k = none) ∧
    w₁ = w.move (agentSchema.publish [change] w.store)
  entry program := ∃ route, Route fns route ∧ program = request route
  drop t w := { w.move (w.store.close t) with spent := Function.update w.spent t none }

/-- Any database, and nothing noted but what is bound. -/
def AgentStart (w : AgentWorld) : Prop :=
  ∃ db : AgentDb, w = ⟨.start db, [], fun token => (db.deviceOf token).toList, fun _ => none, fun _ => none⟩

end Opale.Agents
