import Opale.Sql.Alone
import Opale.Tickets.Statements

namespace Opale.Tickets

open Sql EmailBridge

/-- What the transactions of the routes throw to end. -/
inductive TicketError where
  | SELF_MERGE | SOURCE_NOT_FOUND | SOURCE_ALREADY_MERGED | TARGET_NOT_FOUND | TARGET_ALREADY_MERGED
  | ticketNotFound
  | linkNotFound
  deriving DecidableEq

/-- A transaction that calls nothing but the database. -/
abbrev TicketTx (α : Type) := Body TicketStmt.Ans (Empty.elim : Empty → Type) TicketError α

abbrev within (s : TicketStmt) : TicketTx s.Ans := Body.within s

def syncRequester (ticketId : Nat) (newUserId : Option Nat) : TicketTx Unit := do
  within (.deleteRequester ticketId)
  match newUserId with
  | some userId =>
    within (.insertRequester ticketId userId)
    within (.setUserId ticketId newUserId)
  | none => within (.setUserId ticketId newUserId)

def addInvolvedUser (ticketId userId : Nat) : TicketTx Unit := within (.insertInvolved ticketId userId)

def removeUserFromTicket (ticketId userId : Nat) : TicketTx Bool := do
  match ← within (.deleteUser ticketId userId) with
  | some .requester =>
    within (.setUserId ticketId none)
    return true
  | some .involved => return true
  | none => return false

def addDeviceToTicket (ticketId deviceId : Nat) : TicketTx Unit := do
  within (.insertDevice ticketId deviceId)
  within (.setDeviceId ticketId deviceId)

def removeDeviceFromTicket (ticketId : Nat) (deviceId : Uuid) : TicketTx Bool := do
  if ← within (.deleteDevice ticketId deviceId.id) then
    match ← within (.selectDeviceId ticketId) with
    | some (some primary) =>
      -- `===` on the texts
      if ⟨primary, 0⟩ = deviceId then
        let next ← within (.oldestDevice ticketId)
        within (.replaceDeviceId ticketId next)
        return true
      else return true
    | _ => return true
  else return false

/-- The users of the source, on the target: they are all involved when it has its requester. -/
def mergeUsers (sourceId targetId : Nat) : TicketTx Unit := do
  match ← within (.selectRequesters targetId) with
  | _ :: _ => within (.copyUsers sourceId targetId true)
  | [] =>
    within (.copyUsers sourceId targetId false)
    match ← within (.selectRequesters targetId) with
    | newReq :: _ => within (.inheritUserId targetId newReq)
    | [] => return ()

/-- What follows the checks of `mergeTicketInto`. -/
def moveTicket (sourceId targetId : Nat) (byName : Option String) : TicketTx Unit := do
  let _ ← within (.insertMessage ⟨targetId, .system, (byName.filter (· ≠ "")).getD "Système",
    "Fusion : messages et personnes du ticket " ++ toString sourceId ++ " ajoutés ici", .now, none, none⟩)
  within (.repointMessages sourceId targetId)
  mergeUsers sourceId targetId
  within (.deleteUsers sourceId)
  within (.copyDevices sourceId targetId)
  within (.inheritDeviceId targetId)
  within (.deleteDevices sourceId)
  within (.repointMappings sourceId targetId)
  within (.markMerged sourceId targetId)
  within (.touchTicket targetId)

def mergeTicketInto (sourceId targetId : Uuid) (byName : Option String) : TicketTx Unit := do
  if sourceId = targetId then Body.fail .SELF_MERGE
  else
    match ← within (.ticketForUpdate sourceId.id) with
    | none => Body.fail .SOURCE_NOT_FOUND
    | some source =>
      if source.status = .merged then Body.fail .SOURCE_ALREADY_MERGED
      else
        match ← within (.ticketForUpdate targetId.id) with
        | none => Body.fail .TARGET_NOT_FOUND
        | some target =>
          if target.status = .merged then Body.fail .TARGET_ALREADY_MERGED
          else moveTicket sourceId.id targetId.id byName

/-- The transaction of `POST /api/tickets`. -/
def createTicket (t : NewTicket) (tagIds : List Nat) : TicketTx Unit := do
  let id ← within (.insertTicket t)
  (if tagIds = [] then pure () else within (.insertTags id tagIds) : TicketTx Unit)
  forM t.userId fun userId => syncRequester id (some userId)
  forM t.deviceId fun deviceId => addDeviceToTicket id deviceId

def statusLabel : TicketStatus → String
  | .resolved => "Ticket résolu"
  | .in_progress => "Ticket pris en charge"
  | .open => "Ticket réouvert"
  | .closed => "closed"
  | .merged => "merged"

/-- The transaction of `PATCH /api/tickets/:id`, with at least one column. -/
def patchTicket (id : Nat) (patch : TicketPatch) (displayName : String) : TicketTx Unit := do
  match ← within (.ticketForUpdate id) with
  | none => Body.fail .ticketNotFound
  | some existing =>
    let _ ← within (.patchTicket id patch)
    forM patch.userId fun userId => syncRequester id userId
    forM patch.deviceId.join fun deviceId => addDeviceToTicket id deviceId
    match patch.status with
    | some status =>
      if status = existing.status then return ()
      else
        let _ ← within (.insertMessage ⟨id, .system, displayName, statusLabel status, .null, none, none⟩)
        return ()
    | none => return ()

/-- The transaction of `POST /api/tickets/:id/users`. -/
def addUser (id userId : Nat) (role : UserRole) : TicketTx Unit := do
  match role with
  | .requester => syncRequester id (some userId)
  | .involved => addInvolvedUser id userId
  within (.touchTicket id)

def removeUser (id userId : Nat) : TicketTx Unit := do
  if ← removeUserFromTicket id userId then within (.touchTicket id) else Body.fail .linkNotFound

def addDevice (id deviceId : Nat) : TicketTx Unit := do
  addDeviceToTicket id deviceId
  within (.touchTicket id)

def removeDevice (id : Nat) (deviceId : Uuid) : TicketTx Unit := do
  if ← removeDeviceFromTicket id deviceId then within (.touchTicket id) else Body.fail .linkNotFound

/-- The requests that change the users and the devices of tickets. -/
inductive TicketRequest where
  | create (t : NewTicket) (tagIds : List Nat)
  | patch (id : Nat) (columns : TicketPatch) (displayName : String)
  | addUser (id userId : Nat) (role : UserRole)
  | removeUser (id userId : Nat)
  | addDevice (id deviceId : Nat)
  | removeDevice (id : Nat) (deviceId : Uuid)
  | merge (sourceId targetId : Uuid) (byName : Option String)

def TicketRequest.body : TicketRequest → TicketTx Unit
  | .create t tagIds => createTicket t tagIds
  | .patch id columns displayName => patchTicket id columns displayName
  | .addUser id userId role => Tickets.addUser id userId role
  | .removeUser id userId => Tickets.removeUser id userId
  | .addDevice id deviceId => Tickets.addDevice id deviceId
  | .removeDevice id deviceId => Tickets.removeDevice id deviceId
  | .merge sourceId targetId byName => mergeTicketInto sourceId targetId byName

/-- A request from its BEGIN to its end, with no other at the same time. -/
def Performed (request : TicketRequest) (db db₁ : TicketDb) : Prop :=
  ∃ t result st, Rules.Ends (ticketSchema.app Empty.elim t) (App.transaction request.body) (.start db) result st ∧
    db₁ = st.committed

end Opale.Tickets
