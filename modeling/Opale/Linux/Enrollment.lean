import Opale.Linux.Statements

namespace Opale.Linux

open Sql Fleet

def PENDING_CAP : Nat := 500

def FAKE_SERIALS : List Text :=
  ["unknown", "systemserialnumber", "system serial number", "to be filled by o.e.m.", "to be filled", "none", "n/a",
    "default string", "0"].map String.toList

/-- The serial to compare by, none for a placeholder. -/
def normalizeSerial (text : TextFns) (serial : Option Text) : Option Text := do
  let v := text.trim (← serial)
  if v = [] ∨ FAKE_SERIALS.contains (text.toLowerCase v) then none else some (text.toUpperCase v)

/-- Statements run on the pool or on the client of a transaction. -/
abbrev Runner := (s : LinuxStmt) → OptionT Fleet s.Ans

structure Match where
  kind : EnrollmentKind
  device : Option DeviceRow
  approvedKey : Option ApprovedKey
  preregistration : Option PreregistrationRow
  deriving DecidableEq

/-- The approved key that carries the serial is a clone's: it has no device, or a device
with another serial. -/
def isClone (text : TextFns) (serial : Text) (approvedKey : ApprovedKey) : Bool :=
  approvedKey.key.deviceId = none || normalizeSerial text approvedKey.deviceSerial ≠ some serial

def kindOf (text : TextFns) (serial : Text) (device : Option DeviceRow) (approvedKey : Option ApprovedKey)
    (preregistration : Option PreregistrationRow) : EnrollmentKind :=
  if approvedKey.any (isClone text serial) then .clone
  else match device with
    | some (_, d) => if d.managedBy = some .pull then .reimage else .existing_device
    | none => if approvedKey.isSome then .clone else if preregistration.isSome then .preregistered else .new

def classifyEnrollment (text : TextFns) (on : Runner) (fingerprint : Text) (serialNormalized : Option Text) :
    OptionT Fleet Match := do
  match serialNormalized.filter (· ≠ []) with
  | none => return ⟨.new, none, none, none⟩
  | some serial =>
    let device ← on (.deviceBySerial serial)
    let approvedKey ← on (.approvedKeyBySerial serial fingerprint)
    let preregistration ← on (.openPreregistration serial)
    return ⟨kindOf text serial device approvedKey preregistration, device, approvedKey, preregistration⟩

/-- `/^[a-z0-9]([a-z0-9-]{0,61}[a-z0-9])?$/` -/
def isValidHostname (t : Text) : Bool :=
  let alnum (c : Char) : Bool := c.isDigit || 'a' ≤ c && c ≤ 'z'
  t.length ≤ 63 && t.all (fun c => alnum c || c = '-') && t.head?.any alnum && t.getLast?.any alnum

structure HostnameItem where
  explicit : Option Text
  preregistration : Option PreregistrationRow
  existing : Option DeviceRow
  serialNormalized : Option Text
  fingerprint : Text
  deriving DecidableEq

def resolveHostname (text : TextFns) (item : HostnameItem) : Text :=
  match item.explicit with
  | some explicit => explicit
  | none =>
    match (item.preregistration.bind (·.2.hostname)).filter (· ≠ []) with
    | some hostname => hostname
    | none =>
      match (item.existing.map (·.2.hostname)).filter (· ≠ []) with
      | some hostname => hostname
      | none =>
        let candidate := (item.serialNormalized.filter (· ≠ [])).map fun s => "lx-".toList ++ text.toLowerCase s
        (candidate.filter isValidHostname).getD ("lx-".toList ++ item.fingerprint.take 12)

/-- The names of a batch, an error for a name that a device or another row of it has. -/
def resolveHostnamesForBatch (text : TextFns) (on : Runner) (items : List HostnameItem) :
    OptionT Fleet (List (Except Text Text)) := do
  let hostnames := items.map (resolveHostname text)
  let lower := hostnames.map text.toLowerCase
  let rows ← on (.hostnames lower)
  return (items.zip (hostnames.zip lower)).zipIdx.map fun ((item, hostname, name), i) =>
    let taken := rows.any fun (id, other) => text.toLowerCase other = name && item.existing.map (·.1) ≠ some id
    let repeated := lower.zipIdx.any fun (other, j) => j ≠ i && other = name
    if taken || repeated then .error hostname else .ok hostname

inductive ClaimRefusal where
  | pull_managed | serial_missing | serial_mismatch | active_token (tokenId : Nat)
  deriving Repr, DecidableEq

def checkDeviceClaim (text : TextFns) (device : DeviceRow) (serial : Option Text) : Tx (Option ClaimRefusal) := do
  if device.2.managedBy = some .pull then return some .pull_managed
  else
    let sent := normalizeSerial text serial
    match normalizeSerial text device.2.serial with
    | some deviceSerial =>
      if sent = none then return some .serial_missing
      else if sent ≠ some deviceSerial then return some .serial_mismatch
      else
        let token ← within (.activeToken device.1)
        return token.map .active_token
    | none =>
      let token ← within (.activeToken device.1)
      return token.map .active_token

def ClaimRefusal.token : ClaimRefusal → Option Nat
  | .active_token tokenId => some tokenId
  | _ => none

/-- The enrollments run one after the other, under the advisory lock. A refusal rolls back. -/
def transaction {α : Type} (refused : α → Bool) (callback : Tx α) : Fleet (Option α) := do
  if ← perform (.sql .begin) then
    match ← within .advisoryLock with
    | none => rollback
    | some () =>
      match ← callback.run with
      | none => rollback
      | some result =>
        if refused result then
          let _ ← perform (.sql .rollback)
          return some result
        else if ← perform (.sql .commit) then return some result
        else rollback
  else rollback

/-- The key becomes the approved one of the device, and consumes the preregistration. -/
def bindKey (key : KeyRow) (device : DeviceRow) (actor : Text) (preregistration : Option PreregistrationRow) :
    Tx (Option KeyRow) := do
  let updated ← within (.bindKey key.1 device.1 actor (preregistration.map (·.1)))
  match preregistration with
  | none => return updated
  | some (id, _) =>
    within (.consumePreregistration id key.1)
    return updated

inductive EnrollStatus where
  | flood | serial_mismatch | known (status : KeyStatus)
  deriving DecidableEq

structure EnrollReply where
  status : EnrollStatus
  key : Option KeyRow
  device : Option DeviceRow
  retryAfterS : Nat
  deriving DecidableEq

/-- What an agent presents to enroll. -/
structure EnrollInput where
  fingerprint : Text
  publicKeyRaw : List UInt8
  keyBacking : KeyBacking
  serialClaimed : Option Text
  hostnameClaimed : Option Text
  osVersion : Option Text
  agentVersion : Option Text
  deriving DecidableEq

def EnrollInput.facts (input : EnrollInput) (serial : Option Text) : EnrollFacts :=
  ⟨input.fingerprint, input.publicKeyRaw, input.keyBacking, serial, input.hostnameClaimed, input.osVersion,
    input.agentVersion⟩

def deviceUser (fingerprint : Text) : Text := "device:".toList ++ fingerprint.take 12

/-- An unknown key is refused when the queue is full. -/
def flooded (byUser : Text) (known : Option KeyRow) : Tx Bool := do
  if known.isSome then return false
  else
    let pending ← within .countPending
    if PENDING_CAP ≤ pending then
      logAudit ⟨.linux_enroll_flood, byUser, none, none⟩
      return true
    else return false

/-- One audit for each key and hour. -/
def auditMismatch (byUser : Text) (key : KeyRow) : Tx Unit := do
  if ← within (.recentMismatch key.1) then return ()
  else logAudit ⟨.linux_key_serial_mismatch, byUser, key.2.deviceId, some key.1⟩

/-- The claim on the device of a match, unless it is in pull mode. -/
def claimOf (text : TextFns) (device : Option DeviceRow) (serial : Option Text) : Tx (Option ClaimRefusal) := do
  match device with
  | some device => if device.2.managedBy = some .pull then return none else checkDeviceClaim text device serial
  | none => return none

/-- The conflict that a match puts on a pending key, audited when it is another one. -/
def conflictOf (text : TextFns) (byUser : Text) (key : KeyRow) (found : Match) (serial : Option Text) :
    Tx (Option Conflict) := do
  if found.kind = .existing_device ∨ found.kind = .reimage ∨ found.kind = .clone then
    let claim ← claimOf text found.device serial
    let conflict : Conflict := ⟨found.kind, found.device.map (·.1), found.device.map (·.2.hostname),
      found.device.bind (·.2.managedBy), found.device.bind (·.2.platform), found.device.bind (·.2.lastSeen),
      found.approvedKey.map (·.id), (claim.bind ClaimRefusal.token).isSome⟩
    if key.2.conflict.map (·.kind) = some conflict.kind ∧ (key.2.conflict.bind (·.deviceId)) = conflict.deviceId then
      return some conflict
    else
      logAudit ⟨.linux_enroll_serial_conflict, byUser, found.device.map (·.1), none⟩
      return some conflict
  else return none

/-- A preregistered key is approved at once, unless its name has been taken meanwhile. -/
def approvePreregistered (text : TextFns) (byUser fingerprint : Text) (serial : Option Text) (pending : KeyRow)
    (preregistration : PreregistrationRow) (retryAfterS : Nat) : Tx EnrollReply := do
  let p := preregistration.2
  let resolved ← resolveHostnamesForBatch text within [⟨none, some preregistration, none, serial, fingerprint⟩]
  match resolved with
  | [.ok hostname] =>
    let device ← within (.createPullDevice ⟨hostname, serial, p.profile, p.ring, p.assignedUserId⟩)
    let bound ← bindKey pending device byUser (some preregistration)
    logAudit ⟨.linux_device_enrolled, byUser, some device.1, none⟩
    return ⟨.known .approved, bound, some device, retryAfterS⟩
  | _ => return ⟨.known .pending, some pending, none, retryAfterS⟩

/-- The rest of an enrollment, for a key that is pending. -/
def enrollPending (text : TextFns) (byUser fingerprint : Text) (serial : Option Text) (key : KeyRow)
    (retryAfterS : Nat) : Tx EnrollReply := do
  let found ← classifyEnrollment text within fingerprint serial
  let conflict ← conflictOf text byUser key found serial
  let pending ← within (.setConflict key.1 conflict)
  match found.kind, found.preregistration with
  | .preregistered, some preregistration =>
    match pending with
    | some pending => approvePreregistered text byUser fingerprint serial pending preregistration retryAfterS
    | none => failure
  | _, _ => return ⟨.known .pending, pending, none, retryAfterS⟩

def enrollDevice (text : TextFns) (input : EnrollInput) : Fleet (Option EnrollReply) :=
  let serial := normalizeSerial text input.serialClaimed
  let byUser := deviceUser input.fingerprint
  transaction (fun _ => false) do
    let known ← within (.keyByFingerprint input.fingerprint)
    if ← flooded byUser known then return ⟨.flood, none, none, 300⟩
    else
      let mismatch := known.any fun (_, k) =>
        k.status = .approved && k.serialClaimed ≠ none && k.serialClaimed ≠ serial
      let key ← within (.upsertKey (input.facts serial))
      let now ← OptionT.lift (perform .dateNow)
      let retryAfterS := if now - key.2.firstSeenAt < HOUR then 30 else 300
      if mismatch then
        auditMismatch byUser key
        return ⟨.serial_mismatch, some key, none, retryAfterS⟩
      else if key.2.status ≠ .pending then
        let device ← within (.selectDevice key.2.deviceId)
        return ⟨.known key.2.status, some key, device, retryAfterS⟩
      else enrollPending text byUser input.fingerprint serial key retryAfterS

inductive RefusalCode where
  | NOT_FOUND | NOT_PENDING | CONFLICT | SERIAL_MISMATCH | ACTIVE_KEY | ACTIVE_TOKEN | HOSTNAME_TAKEN | UNKNOWN_USER
  | NO_ACTIVE_KEY
  deriving Repr, DecidableEq

inductive RefusalDetails where
  | nothing
  | status (status : KeyStatus)
  | conflict (conflict : Conflict)
  | kind (kind : EnrollmentKind)
  | device (id : Nat)
  | serials (deviceSerial serialClaimed : Option Text)
  | oldKey (id : Nat) (hostname : Text) (lastSeenAt : Int)
  | token (id : Nat) (hostname : Text)
  | hostname (hostname : Text)
  | assignedUser (id : Text)
  | constraint (name : Text)
  deriving DecidableEq

structure Refusal where
  status : Nat
  code : RefusalCode
  details : RefusalDetails
  deriving DecidableEq

def refusal (code : RefusalCode) (details : RefusalDetails) : Refusal := ⟨409, code, details⟩

/-- `key.conflict ?? …` -/
def conflictDetails (key : KeyRow) (otherwise : RefusalDetails) : RefusalDetails :=
  (key.2.conflict.map .conflict).getD otherwise

structure ApproveBody where
  profile : Text
  ring : Ring
  hostname : Option Text
  assignedUserId : Option Text
  convertDeviceId : Option Nat
  revokeActiveToken : Bool
  supersede : Bool
  onlyNew : Bool
  deriving DecidableEq

/-- What a transaction of the admin answers: a refusal, or the result. -/
abbrev AdminReply (α : Type) := Except Refusal α

def AdminReply.refused {α : Type} : AdminReply α → Bool
  | .error _ => true
  | .ok _ => false

structure Approved where
  device : DeviceRow
  key : Option KeyRow
  converted : Bool
  deriving DecidableEq

def isConflictFree (kind : EnrollmentKind) : Bool := kind = .new || kind = .preregistered

/-- Deletes what the Windows agent has reported; the rows deleted in each table, and the
tokens revoked. -/
def clearWindowsFacts (deviceId : Nat) : Tx (List Nat) := do
  let compliance ← within (.deleteFacts .compliance_results deviceId)
  let disks ← within (.deleteFacts .disks deviceId)
  let interfaces ← within (.deleteFacts .network_interfaces deviceId)
  let software ← within (.deleteFacts .device_software deviceId)
  within (.clearWindowsColumns deviceId)
  let tokens ← within (.revokeTokens deviceId)
  return [compliance, disks, interfaces, software, tokens]

/-- A target in pull mode: its active key is superseded, when the admin says so. -/
def supersedeActive (device : DeviceRow) (actor : Text) (body : ApproveBody) : Tx (AdminReply (Option (List Nat))) := do
  let active ← within (.activeKeyForUpdate device.1)
  match active with
  | none => return .ok none
  | some (old, k) =>
    if !body.supersede then return .error (refusal .ACTIVE_KEY (.oldKey old device.2.hostname k.lastSeenAt))
    else
      within (.supersede old actor)
      return .ok none

/-- A target that Windows manages: its facts are cleared, unless its token is active. -/
def convert (text : TextFns) (device : DeviceRow) (serial : Option Text) (body : ApproveBody) :
    Tx (AdminReply (Option (List Nat))) := do
  let claim ← checkDeviceClaim text device serial
  match claim.bind ClaimRefusal.token with
  | some token =>
    if !body.revokeActiveToken then return .error (refusal .ACTIVE_TOKEN (.token token device.2.hostname))
    else
      let cleared ← clearWindowsFacts device.1
      return .ok (some cleared)
  | none =>
    let cleared ← clearWindowsFacts device.1
    return .ok (some cleared)

/-- The device that the key takes over, with what a conversion has cleared. -/
def takeOver (text : TextFns) (actor : Text) (key : KeyRow) (found : Match) (targetId : Nat) (body : ApproveBody) :
    Tx (AdminReply (DeviceRow × Option (List Nat))) := do
  let target ← within (.deviceForUpdate targetId)
  match target with
  | none => return .error ⟨404, .NOT_FOUND, .device targetId⟩
  | some device =>
    if key.2.serialClaimed.filter (· ≠ []) = none ∨ normalizeSerial text device.2.serial ≠ key.2.serialClaimed then
      return .error (refusal .SERIAL_MISMATCH (.serials device.2.serial key.2.serialClaimed))
    else if found.device.any fun d => d.1 ≠ device.1 then
      return .error (refusal .CONFLICT (conflictDetails key .nothing))
    else
      let cleared ← if device.2.managedBy = some .pull then supersedeActive device actor body
        else convert text device key.2.serialClaimed body
      return cleared.map fun cleared => (device, cleared)

/-- The user of the device is known, when there is one. -/
def userKnown (assignedUserId : Option Text) : Tx Bool := do
  match assignedUserId.filter (· ≠ []) with
  | none => return true
  | some entraId => within (.userExists entraId)

/-- The device of the key: the one taken over, renamed, or a new one. -/
def placeDevice (device : Option DeviceRow) (hostname : Text) (serial : Option Text) (body : ApproveBody)
    (assignedUserId : Option Text) : Tx DeviceRow := do
  match device with
  | some (id, _) =>
    let updated ← within (.updateDevice id hostname body.profile body.ring assignedUserId)
    match updated with
    | some row => return row
    | none => failure
  | none => within (.createPullDevice ⟨hostname, serial, body.profile, body.ring, assignedUserId⟩)

/-- From the resolution of the name on. -/
def completeApproval (text : TextFns) (actor : Text) (key : KeyRow) (found : Match)
    (taken : Option (DeviceRow × Option (List Nat))) (body : ApproveBody) : Tx (AdminReply Approved) := do
  let device := taken.map (·.1)
  let cleared := taken.bind (·.2)
  let resolved ← resolveHostnamesForBatch text within
    [⟨body.hostname, found.preregistration, device, key.2.serialClaimed, key.2.keyFingerprint⟩]
  match resolved with
  | [.ok hostname] =>
    let assignedUserId := (body.assignedUserId.or (found.preregistration.bind (·.2.assignedUserId))).or
      (device.bind (·.2.assignedUserId))
    if ← userKnown assignedUserId then
      let placed ← placeDevice device hostname key.2.serialClaimed body assignedUserId
      let approved ← bindKey key placed actor found.preregistration
      let action : AuditAction := if cleared.isSome then .linux_device_converted
        else if device.isSome then .linux_device_reenrolled else .linux_device_approved
      logAudit ⟨action, actor, some placed.1, some key.1⟩
      return .ok ⟨placed, approved, cleared.isSome⟩
    else return .error ⟨400, .UNKNOWN_USER, .assignedUser (assignedUserId.getD [])⟩
  | [.error hostname] => return .error (refusal .HOSTNAME_TAKEN (.hostname hostname))
  | _ => failure

/-- What is done to a key that is pending. -/
def approvePending (text : TextFns) (actor : Text) (key : KeyRow) (body : ApproveBody) : Tx (AdminReply Approved) := do
  let found ← classifyEnrollment text within key.2.keyFingerprint key.2.serialClaimed
  if body.onlyNew && !isConflictFree found.kind then
    return .error (refusal .CONFLICT (conflictDetails key (.kind found.kind)))
  else
    let targetId := body.convertDeviceId.or (if found.kind = .reimage then found.device.map (·.1) else none)
    if found.kind = .clone ∨ targetId = none ∧ found.kind = .existing_device then
      return .error (refusal .CONFLICT (conflictDetails key (.kind found.kind)))
    else
      match targetId with
      | none => completeApproval text actor key found none body
      | some targetId =>
        let taken ← takeOver text actor key found targetId body
        match taken with
        | .error refused => return .error refused
        | .ok taken => completeApproval text actor key found (some taken) body

/-- The unique index refuses with the same answers as the checks. -/
def approveEnrollment (text : TextFns) (actor : Text) (keyId : Nat) (body : ApproveBody) :
    Fleet (Option (AdminReply Approved)) := do
  let result ← transaction AdminReply.refused do
    let key ← within (.keyForUpdate keyId)
    match key with
    | none => return .error ⟨404, .NOT_FOUND, .nothing⟩
    | some key =>
      if key.2.status ≠ .pending then return .error (refusal .NOT_PENDING (.status key.2.status))
      else approvePending text actor key body
  match result with
  | some outcome => return some outcome
  | none =>
    match ← perform .violated with
    | some name =>
      let code : RefusalCode := if name = "ux_linux_device_keys_approved".toList then .ACTIVE_KEY else .HOSTNAME_TAKEN
      return some (.error (refusal code (.constraint name)))
    | none => return none

structure BulkResult where
  ok : Nat
  skipped : Nat
  errors : List (Nat × RefusalCode)
  deriving DecidableEq

/-- The rows of a batch: those that can be approved without a conflict, and the errors. -/
def candidates (text : TextFns) (keys : List KeyRow) :
    List Nat → OptionT Fleet (List (KeyRow × HostnameItem) × List (Nat × RefusalCode))
  | [] => return ([], [])
  | id :: rest => do
    match keys.find? (·.1 = id) with
    | none =>
      let (found, errors) ← candidates text keys rest
      return (found, (id, .NOT_FOUND) :: errors)
    | some key =>
      if key.2.status ≠ .pending then
        let (found, errors) ← candidates text keys rest
        return (found, (id, .NOT_PENDING) :: errors)
      else
        let matched ← classifyEnrollment text query key.2.keyFingerprint key.2.serialClaimed
        let (found, errors) ← candidates text keys rest
        if isConflictFree matched.kind then
          return ((key, ⟨none, matched.preregistration, none, key.2.serialClaimed, key.2.keyFingerprint⟩) :: found,
            errors)
        else return (found, (id, .CONFLICT) :: errors)

/-- Each row of a batch is approved alone. -/
def approveEach (text : TextFns) (actor profile : Text) (ring : Ring) :
    List (KeyRow × Except Text Text) → OptionT Fleet (Nat × List (Nat × RefusalCode))
  | [] => return (0, [])
  | (key, .error _) :: rest => do
    let (ok, errors) ← approveEach text actor profile ring rest
    return (ok, (key.1, .HOSTNAME_TAKEN) :: errors)
  | (key, .ok hostname) :: rest => do
    let outcome ← OptionT.mk (approveEnrollment text actor key.1
      ⟨profile, ring, some hostname, none, none, false, false, true⟩)
    let (ok, errors) ← approveEach text actor profile ring rest
    match outcome with
    | .ok _ => return (ok + 1, errors)
    | .error refused => return (ok, (key.1, refused.code) :: errors)

def approveEnrollments (text : TextFns) (actor : Text) (ids : List Nat) (profile : Text) (ring : Ring) :
    OptionT Fleet BulkResult := do
  let unique := ids.eraseDups
  let keys ← query (.selectKeys unique)
  let (found, errors) ← candidates text keys unique
  let hostnames ← resolveHostnamesForBatch text query (found.map (·.2))
  let (ok, more) ← approveEach text actor profile ring ((found.map (·.1)).zip hostnames)
  return ⟨ok, (errors ++ more).length, errors ++ more⟩

def rejectEnrollment (actor : Text) (keyId : Nat) : Fleet (Option (AdminReply (Option KeyRow))) :=
  transaction AdminReply.refused do
    let key ← within (.keyForUpdate keyId)
    match key with
    | none => return .error ⟨404, .NOT_FOUND, .nothing⟩
    | some key =>
      if key.2.status ≠ .pending then return .error (refusal .NOT_PENDING (.status key.2.status))
      else
        let rejected ← within (.rejectKey keyId actor)
        logAudit ⟨.linux_device_rejected, actor, key.2.deviceId, some keyId⟩
        return .ok rejected

def rejectEach (actor : Text) : List Nat → OptionT Fleet (Nat × List (Nat × RefusalCode))
  | [] => return (0, [])
  | id :: rest => do
    let outcome ← OptionT.mk (rejectEnrollment actor id)
    let (ok, errors) ← rejectEach actor rest
    match outcome with
    | .ok _ => return (ok + 1, errors)
    | .error refused => return (ok, (id, refused.code) :: errors)

def rejectEnrollments (actor : Text) (ids : List Nat) : OptionT Fleet BulkResult := do
  let (ok, errors) ← rejectEach actor ids.eraseDups
  return ⟨ok, errors.length, errors⟩

structure Revoked where
  device : DeviceRow
  key : KeyRow
  deriving DecidableEq

def revokeDeviceKey (actor : Text) (deviceId : Nat) (reason : Text) : Fleet (Option (AdminReply Revoked)) :=
  transaction AdminReply.refused do
    let device ← within (.pullDeviceForUpdate deviceId)
    match device with
    | none => return .error ⟨404, .NOT_FOUND, .nothing⟩
    | some device =>
      let key ← within (.revokeKeyOf deviceId actor reason)
      match key with
      | none => return .error (refusal .NO_ACTIVE_KEY (.hostname device.2.hostname))
      | some key =>
        logAudit ⟨.linux_device_revoked, actor, some deviceId, some key.1⟩
        return .ok ⟨device, key⟩

/-- What an agent presents at a check-in. -/
structure CheckinBody where
  serial : Option Text
  agentVersion : Option Text
  osVersion : Option Text
  luksRoot : Option Bool
  diskRootPct : Option Int
  deriving DecidableEq

inductive CheckinReply where
  | unauthorized | serial_mismatch | ok (device : DeviceRow)
  deriving DecidableEq

/-- Up to the assignment, which only reads; `key` is the row that the signature was
checked with. -/
def checkin (text : TextFns) (key : DeviceKey) (body : CheckinBody) : OptionT Fleet CheckinReply := do
  let serial := normalizeSerial text body.serial
  if key.serialClaimed ≠ none ∧ serial ≠ none ∧ serial ≠ key.serialClaimed then
    let audited ← OptionT.lift (perform (.mismatchThrottle key.id))
    if audited then
      logAuditAlone ⟨.linux_key_serial_mismatch, deviceUser key.keyFingerprint, key.deviceId, some key.id⟩
      return .serial_mismatch
    else return .serial_mismatch
  else
    query (.touchKey key.id body.agentVersion body.osVersion body.luksRoot serial)
    let device ← query (.touchDevice key.deviceId body.osVersion body.diskRootPct)
    match device with
    | none => failure
    | some device => return .ok device

/-- POST /api/linux/agent/checkin, behind the check that the key is approved. -/
def checkinRoute (text : TextFns) (fingerprint : Text) (body : CheckinBody) : OptionT Fleet CheckinReply := do
  let key ← query (.lookupKey fingerprint)
  match key with
  | none => return .unauthorized
  | some key => if key.status = .approved then checkin text key body else return .unauthorized

end Opale.Linux
