import Opale.Js.Spaces
import Opale.Tickets.Tables
import Mathlib.Data.List.Dedup
import Mathlib.Data.List.Infix

namespace Opale.Tickets

open Sql EmailBridge

/-- `null`, `now()`, or a date. -/
inductive Stamp where
  | null | now | at (time : Int)
  deriving DecidableEq

def Stamp.time (now : Int) : Stamp → Option Int
  | .null => none
  | .now => some now
  | .at time => some time

/-- What is inserted into `ticket_messages`; without `createdAt` it is `now()`. -/
structure NewMessage where
  ticketId : Nat
  type : MessageType
  author : String
  content : String
  emailSentAt : Stamp
  createdAt : Option Int
  fromMail : Option String
  deriving DecidableEq

def NewMessage.row (m : NewMessage) (now : Int) : TicketMessage where
  ticketId := m.ticketId
  type := m.type
  author := m.author
  content := m.content
  createdAt := m.createdAt.getD now
  emailSentAt := m.emailSentAt.time now
  outboundAttempts := 0
  outboundError := none
  outboundFailedAt := none
  fromMail := m.fromMail

/-- What is inserted into `tickets`; the other columns have their defaults. -/
structure NewTicket where
  title : String
  description : Option String
  priority : Priority
  deviceId : Option Nat
  userId : Option Nat
  source : String
  isAuto : Bool
  createdByEntraId : Option Nat
  createdByName : Option String
  assignedToEntraId : Option Nat
  assignedToName : Option String
  deriving DecidableEq

def NewTicket.row (t : NewTicket) (now : Int) : Ticket where
  title := t.title
  description := t.description
  status := .open
  priority := t.priority
  deviceId := t.deviceId
  userId := t.userId
  source := t.source
  isAuto := t.isAuto
  createdByEntraId := t.createdByEntraId
  createdByName := t.createdByName
  assignedToEntraId := t.assignedToEntraId
  assignedToName := t.assignedToName
  mergedInto := none
  createdAt := now
  updatedAt := now
  resolvedAt := none

/-- What is inserted into `email_thread_mapping`. -/
structure NewMapping where
  internetMessageId : String
  conversationId : Option String
  graphMessageId : Option String
  mailbox : String
  direction : Direction
  fromAddress : Option String
  subject : Option String
  receivedAt : Option Int
  raw : GraphMessage
  action : Option MailAction
  ticketId : Option Nat
  deriving DecidableEq

def NewMapping.row (m : NewMapping) (now : Int) : ThreadMapping where
  internetMessageId := m.internetMessageId
  conversationId := m.conversationId
  graphMessageId := m.graphMessageId
  mailbox := m.mailbox
  direction := m.direction
  fromAddress := m.fromAddress
  subject := m.subject
  receivedAt := m.receivedAt
  createdAt := now
  ticketId := m.ticketId
  proposalId := none
  action := m.action
  errorMessage := none
  raw := m.raw

/-- The columns that a PATCH sets, each if it is given. -/
structure TicketPatch where
  status : Option TicketStatus
  priority : Option Priority
  title : Option String
  description : Option (Option String)
  assignedToEntraId : Option (Option Nat)
  assignedToName : Option (Option String)
  userId : Option (Option Nat)
  deviceId : Option (Option Nat)
  deriving DecidableEq

def TicketPatch.apply (p : TicketPatch) (now : Int) (t : Ticket) : Ticket :=
  { t with
    status := p.status.getD t.status
    priority := p.priority.getD t.priority
    title := p.title.getD t.title
    description := p.description.getD t.description
    assignedToEntraId := p.assignedToEntraId.getD t.assignedToEntraId
    assignedToName := p.assignedToName.getD t.assignedToName
    userId := p.userId.getD t.userId
    deviceId := p.deviceId.getD t.deviceId
    resolvedAt := if p.status = some .resolved then some now else t.resolvedAt
    updatedAt := now }

/-- What `matchSender` finds. -/
structure Sender where
  userId : Option Nat
  userName : Option String
  deviceId : Option Nat
  deriving DecidableEq

/-- The columns by which `matchThread` follows a mapping. -/
structure MappingLink where
  internetMessageId : String
  ticketId : Option Nat
  proposalId : Option Nat
  deriving DecidableEq

structure SiblingQuery where
  mappingId : Nat
  conversationId : Option String
  refIds : List String
  ownIds : List String
  deriving DecidableEq

inductive TicketStmt where
  | ticketForUpdate (id : Nat)
  | insertTicket (t : NewTicket)
  | patchTicket (id : Nat) (patch : TicketPatch)
  | touchTicket (id : Nat)
  | reopenTicket (id : Nat)
  | markMerged (source target : Nat)
  | deleteTicket (id : Nat)
  | setUserId (id : Nat) (userId : Option Nat)
  | inheritUserId (id userId : Nat)
  | setDeviceId (id deviceId : Nat)
  | inheritDeviceId (id : Nat)
  | replaceDeviceId (id : Nat) (deviceId : Option Nat)
  | selectDeviceId (id : Nat)
  | insertMessage (m : NewMessage)
  | repointMessages (source target : Nat)
  | sameContent (ticketId : Nat) (content : String)
  | selectRequesters (ticketId : Nat)
  | deleteRequester (ticketId : Nat)
  | insertRequester (ticketId userId : Nat)
  | insertInvolved (ticketId userId : Nat)
  | copyUsers (source target : Nat) (demote : Bool)
  | deleteUsers (ticketId : Nat)
  | deleteUser (ticketId userId : Nat)
  | insertDevice (ticketId deviceId : Nat)
  | copyDevices (source target : Nat)
  | deleteDevices (ticketId : Nat)
  | deleteDevice (ticketId deviceId : Nat)
  | oldestDevice (ticketId : Nat)
  | insertTags (ticketId : Nat) (tagIds : List Nat)
  | matchSender (address : Option String)
  | knownMappings (keys : List String)
  | mappingsByMessageIds (keys : List String)
  | mappingByConversation (conversationId : String)
  | selectMapping (id : Nat)
  | mappingForUpdate (id : Nat)
  | threadSiblings (q : SiblingQuery) (forUpdate : Bool)
  | insertMapping (m : NewMapping)
  | finishMapping (id : Nat) (ticketId proposalId : Option Nat) (action : MailAction) (errorMessage : Option String)
  | linkMapping (id ticketId : Nat)
  | repointMappings (source target : Nat)
  | repointProposalMappings (proposalId ticketId : Nat)
  | dismissMappings (ids : List Nat)
  | payloadForUpdate (proposalId : Nat)
  | setPayload (proposalId : Nat) (payload : SourcePayload)
  | proposalForUpdate (id : Nat)
  | acceptProposal (id ticketId : Nat) (entraId : Nat) (name : String)
  | rejectProposal (id : Nat) (reason : Option String) (entraId : Nat) (name : String)
  deriving DecidableEq

abbrev TicketStmt.Ans : TicketStmt → Type
  | .ticketForUpdate _ | .patchTicket .. => Option Ticket
  | .insertTicket _ | .insertMessage _ => Nat
  | .sameContent .. => Bool
  | .selectRequesters _ => List Nat
  | .selectDeviceId _ => Option (Option Nat)
  | .deleteUser .. => Option UserRole
  | .deleteDevice .. => Bool
  | .oldestDevice _ => Option Nat
  | .matchSender _ => Sender
  | .knownMappings _ => List String
  | .mappingsByMessageIds _ => List MappingLink
  | .mappingByConversation _ => Option MappingLink
  | .selectMapping _ | .mappingForUpdate _ => Option ThreadMapping
  | .threadSiblings .. => List (Nat × ThreadMapping)
  | .insertMapping _ => Option Nat
  | .linkMapping .. => Bool
  | .payloadForUpdate _ => Option (Option SourcePayload)
  | .proposalForUpdate _ => Option TicketProposal
  | .rejectProposal .. => Bool
  | _ => Unit

/-- `now()`, a generated key, an order of rows, and what the tables of users and devices hold. -/
structure TicketDraw where
  now : Int
  id : Nat
  order : List Nat
  sender : Sender

abbrev TicketOutcome := Outcome TicketChange TicketLock

/-- An INSERT, UPDATE or DELETE of rows of one table. -/
def written {α : Type} (n : TableName) (rows : List (Nat × Option n.Row)) (answer : α) : TicketOutcome α :=
  ⟨answer, writes n rows, []⟩

/-- A SELECT; the rows of a FOR UPDATE are locked. -/
def selected {α : Type} (n : TableName) (rows : List Nat) (answer : α) : TicketOutcome α :=
  ⟨answer, [], rows.map (.row n)⟩

def readOnly {α : Type} (answer : α) : TicketOutcome α := ⟨answer, [], []⟩

def updateTicket (db : TicketDb) (id : Nat) (p : Ticket → Bool) (set : Ticket → Ticket) : TicketOutcome Unit :=
  written .tickets ((db .tickets).updated (fun key t => key = id && p t) set) ()

/-- A foreign key that is not NULL refers to a row. -/
def refers (db : TicketDb) (n : TableName) (id : Option Nat) : Bool := id.all fun key => (db n).contains key

/-- `email_thread_mapping_internet_message_id_key` has an entry. -/
def known (db : TicketDb) (stored : String) : Bool :=
  (db .mappings).toList.any fun (_, m) => m.internetMessageId = stored

def requesters (db : TicketDb) (ticketId : Nat) : List Nat :=
  ((db (.users ticketId)).select fun _ u => u.role = .requester).map Prod.fst

/-- `INSERT … SELECT … ON CONFLICT DO NOTHING`: rows of the source under keys that the target
does not have. -/
def absent {Row : Type} (source target : Table Row) (row : Row → Row) : List (Nat × Option Row) :=
  (source.select fun key _ => !target.contains key).map fun e => (e.1, some (row e.2))

def descNullsLast : Option Int → Option Int → Bool
  | _, none => true
  | none, some _ => false
  | some a, some b => b ≤ a

def ascNullsLast : Option Int → Option Int → Bool
  | _, none => true
  | none, some _ => false
  | some a, some b => a ≤ b

def link (m : ThreadMapping) : MappingLink := ⟨m.internetMessageId, m.ticketId, m.proposalId⟩

def linked (m : ThreadMapping) : Bool := m.ticketId.isSome || m.proposalId.isSome

/-- `position(own IN value) > 0` -/
def occurs (own value : String) : Bool := own.toList <:+: value.toList

/-- The WHERE clause of `findThreadSiblings`. -/
def isSibling (q : SiblingQuery) (id : Nat) (m : ThreadMapping) : Bool :=
  id ≠ q.mappingId && m.ticketId = none && m.proposalId = none &&
    (m.action = some .pending_review || m.action = some .skipped_other || m.action = none) &&
    ((q.conversationId.isSome && m.conversationId = q.conversationId) ||
      q.refIds.contains m.internetMessageId ||
      m.raw.internetMessageHeaders.any fun (name, value) =>
        (name.toLower = "in-reply-to" || name.toLower = "references") && q.ownIds.any fun own => occurs own value)

/-- Every run of blanks made one, and none at the ends. -/
def normalizeContent (s : String) : List Char :=
  [' '].intercalate ((s.toList.splitOnP Js.isSpaceChar).filter (· ≠ []))

def TicketStmt.run : (s : TicketStmt) → TicketDraw → TicketDb → Option (TicketOutcome s.Ans)
  | .ticketForUpdate id, _, db =>
    some (selected .tickets (if (db .tickets).contains id then [id] else []) (db .tickets)[id]?)
  | .insertTicket t, draw, db =>
    if (db .tickets).contains draw.id then none
    else some (written .tickets [(draw.id, some (t.row draw.now))] draw.id)
  | .patchTicket id patch, draw, db =>
    some (written .tickets ((db .tickets).updated (fun key _ => key = id) (patch.apply draw.now))
      ((db .tickets)[id]?.map (patch.apply draw.now)))
  | .touchTicket id, draw, db =>
    some (updateTicket db id (fun _ => true) fun t => { t with updatedAt := draw.now })
  | .reopenTicket id, draw, db =>
    some (updateTicket db id (fun _ => true) fun t =>
      { t with status := .open, resolvedAt := none, updatedAt := draw.now })
  | .markMerged source target, draw, db =>
    if (db .tickets).contains target then
      some (updateTicket db source (fun _ => true) fun t =>
        { t with status := .merged, mergedInto := some target, updatedAt := draw.now })
    else none
  | .deleteTicket id, _, db =>
    some ⟨(), writes .tickets ((db .tickets).updated (fun _ t => t.mergedInto = some id) fun t =>
          { t with mergedInto := none }) ++
        writes .tickets [(id, none)] ++
        writes .messages ((db .messages).deleted fun _ m => m.ticketId = id) ++
        writes .attachments ((db .attachments).deleted fun _ a => a.ticketId = id) ++
        writes (.users id) ((db (.users id)).deleted fun _ _ => true) ++
        writes (.devices id) ((db (.devices id)).deleted fun _ _ => true) ++
        writes (.tags id) ((db (.tags id)).deleted fun _ _ => true) ++
        writes .mappings ((db .mappings).updated (fun _ m => m.ticketId = some id) fun m =>
          { m with ticketId := none }) ++
        writes .proposals ((db .proposals).updated (fun _ p => p.ticketId = some id) fun p =>
          { p with ticketId := none }), []⟩
  | .setUserId id userId, _, db => some (updateTicket db id (fun _ => true) fun t => { t with userId := userId })
  | .inheritUserId id userId, _, db =>
    some (updateTicket db id (fun t => t.userId = none) fun t => { t with userId := some userId })
  | .setDeviceId id deviceId, _, db =>
    some (updateTicket db id (fun t => t.deviceId = none) fun t => { t with deviceId := some deviceId })
  | .inheritDeviceId id, draw, db => do
    let sorted ← Table.orderBy (db (.devices id)).toList (fun a b => a.addedAt ≤ b.addedAt) draw.order
    some (updateTicket db id (fun t => t.deviceId = none) fun t => { t with deviceId := sorted.head?.map Prod.fst })
  | .replaceDeviceId id deviceId, _, db => some (updateTicket db id (fun _ => true) fun t => { t with deviceId := deviceId })
  | .selectDeviceId id, _, db => some (readOnly ((db .tickets)[id]?.map (·.deviceId)))
  | .insertMessage m, draw, db =>
    if (db .tickets).contains m.ticketId && !(db .messages).contains draw.id then
      some (written .messages [(draw.id, some (m.row draw.now))] draw.id)
    else none
  | .repointMessages source target, _, db =>
    let rows := (db .messages).updated (fun _ m => m.ticketId = source) fun m => { m with ticketId := target }
    if rows.isEmpty || (db .tickets).contains target then some (written .messages rows ()) else none
  | .sameContent ticketId content, _, db =>
    some (readOnly ((db .messages).toList.any fun (_, m) =>
      m.ticketId = ticketId && normalizeContent m.content = normalizeContent content))
  | .selectRequesters ticketId, _, db => some (readOnly (requesters db ticketId))
  | .deleteRequester ticketId, _, db =>
    some (written (.users ticketId) ((db (.users ticketId)).deleted fun _ u => u.role = .requester) ())
  | .insertRequester ticketId userId, draw, db =>
    let row : TicketUser := ((db (.users ticketId))[userId]?.map fun u => { u with role := .requester }).getD
      ⟨.requester, draw.now⟩
    if (db .tickets).contains ticketId && (requesters db ticketId).all (· = userId) then
      some (written (.users ticketId) [(userId, some row)] ())
    else none
  | .insertInvolved ticketId userId, draw, db =>
    if (db .tickets).contains ticketId then
      some (written (.users ticketId)
        (if (db (.users ticketId)).contains userId then [] else [(userId, some ⟨.involved, draw.now⟩)]) ())
    else none
  | .copyUsers source target demote, draw, db =>
    let rows := absent (db (.users source)) (db (.users target)) fun u =>
      ⟨if demote then .involved else u.role, draw.now⟩
    let roles := rows.filter fun e => e.2.any fun u => u.role = .requester
    if (db .tickets).contains target && (requesters db target).length + roles.length ≤ 1 then
      some (written (.users target) rows ())
    else none
  | .deleteUsers ticketId, _, db =>
    some (written (.users ticketId) ((db (.users ticketId)).deleted fun _ _ => true) ())
  | .deleteUser ticketId userId, _, db =>
    some (written (.users ticketId) ((db (.users ticketId)).deleted fun key _ => key = userId)
      ((db (.users ticketId))[userId]?.map (·.role)))
  | .insertDevice ticketId deviceId, draw, db =>
    if (db .tickets).contains ticketId then
      some (written (.devices ticketId)
        (if (db (.devices ticketId)).contains deviceId then [] else [(deviceId, some ⟨draw.now⟩)]) ())
    else none
  | .copyDevices source target, draw, db =>
    if (db .tickets).contains target then
      some (written (.devices target) (absent (db (.devices source)) (db (.devices target)) fun _ => ⟨draw.now⟩) ())
    else none
  | .deleteDevices ticketId, _, db =>
    some (written (.devices ticketId) ((db (.devices ticketId)).deleted fun _ _ => true) ())
  | .deleteDevice ticketId deviceId, _, db =>
    some (written (.devices ticketId) ((db (.devices ticketId)).deleted fun key _ => key = deviceId)
      ((db (.devices ticketId)).contains deviceId))
  | .oldestDevice ticketId, draw, db => do
    let sorted ← Table.orderBy (db (.devices ticketId)).toList (fun a b => a.addedAt ≤ b.addedAt) draw.order
    some (readOnly (sorted.head?.map Prod.fst))
  | .insertTags ticketId tagIds, draw, db =>
    if (db .tickets).contains ticketId then
      some (written (.tags ticketId)
        ((tagIds.dedup.filter fun tag => !(db (.tags ticketId)).contains tag).map fun tag => (tag, some ⟨draw.now⟩)) ())
    else none
  | .matchSender _, draw, _ => some (readOnly draw.sender)
  | .knownMappings keys, _, db =>
    some (readOnly (((db .mappings).select fun _ m => keys.contains m.internetMessageId).map (·.2.internetMessageId)))
  | .mappingsByMessageIds keys, draw, db => do
    let rows := (db .mappings).select fun _ m => keys.contains m.internetMessageId && linked m
    let found ← Table.orderBy rows (fun _ _ => true) draw.order
    some (readOnly (found.map fun e => link e.2))
  | .mappingByConversation conversationId, draw, db => do
    let rows := (db .mappings).select fun _ m => m.conversationId = some conversationId && linked m
    let sorted ← Table.orderBy rows (fun a b => descNullsLast a.receivedAt b.receivedAt) draw.order
    some (readOnly (sorted.head?.map fun e => link e.2))
  | .selectMapping id, _, db => some (readOnly (db .mappings)[id]?)
  | .mappingForUpdate id, _, db =>
    some (selected .mappings (if (db .mappings).contains id then [id] else []) (db .mappings)[id]?)
  | .threadSiblings q forUpdate, draw, db => do
    let rows := (db .mappings).select (isSibling q)
    let sorted ← Table.orderBy rows (fun a b =>
      if a.receivedAt = b.receivedAt then a.createdAt ≤ b.createdAt else ascNullsLast a.receivedAt b.receivedAt) draw.order
    some (selected .mappings (if forUpdate then sorted.map Prod.fst else []) sorted)
  | .insertMapping m, draw, db =>
    if known db m.internetMessageId then some (readOnly none)
    else if refers db .tickets m.ticketId && !(db .mappings).contains draw.id then
      some (written .mappings [(draw.id, some (m.row draw.now))] (some draw.id))
    else none
  | .finishMapping id ticketId proposalId action errorMessage, _, db =>
    if refers db .tickets ticketId && refers db .proposals proposalId then
      some (written .mappings ((db .mappings).updated (fun key _ => key = id) fun m =>
        { m with ticketId := ticketId, proposalId := proposalId, action := some action, errorMessage := errorMessage }) ())
    else none
  | .linkMapping id ticketId, _, db =>
    let rows := (db .mappings).updated (fun key m => key = id && m.ticketId = none) fun m =>
      { m with ticketId := some ticketId, action := some .message_appended, errorMessage := none }
    if refers db .tickets (some ticketId) then some (written .mappings rows (!rows.isEmpty)) else none
  | .repointMappings source target, _, db =>
    let rows := (db .mappings).updated (fun _ m => m.ticketId = some source) fun m => { m with ticketId := some target }
    if rows.isEmpty || (db .tickets).contains target then some (written .mappings rows ()) else none
  | .repointProposalMappings proposalId ticketId, _, db =>
    let rows := (db .mappings).updated (fun _ m => m.proposalId = some proposalId) fun m =>
      { m with ticketId := some ticketId }
    if rows.isEmpty || (db .tickets).contains ticketId then some (written .mappings rows ()) else none
  | .dismissMappings ids, _, db =>
    some (written .mappings ((db .mappings).updated (fun key _ => ids.contains key) fun m =>
      { m with action := some .skipped_other }) ())
  | .payloadForUpdate proposalId, _, db =>
    some (selected .proposals (if (db .proposals).contains proposalId then [proposalId] else [])
      ((db .proposals)[proposalId]?.map (·.sourcePayload)))
  | .setPayload proposalId payload, _, db =>
    some (written .proposals ((db .proposals).updated (fun key _ => key = proposalId) fun p =>
      { p with sourcePayload := some payload }) ())
  | .proposalForUpdate id, _, db =>
    some (selected .proposals (if (db .proposals).contains id then [id] else []) (db .proposals)[id]?)
  | .acceptProposal id ticketId entraId name, draw, db =>
    if refers db .tickets (some ticketId) then
      some (written .proposals ((db .proposals).updated (fun key _ => key = id) fun p =>
        { p with
          status := .accepted
          ticketId := some ticketId
          reviewedByEntraId := some entraId
          reviewedByName := some name
          reviewedAt := some draw.now }) ())
    else none
  | .rejectProposal id reason entraId name, draw, db =>
    let rows := (db .proposals).updated (fun key p => key = id && p.status = .pending) fun p =>
      { p with
        status := .rejected
        rejectedReason := reason
        reviewedByEntraId := some entraId
        reviewedByName := some name
        reviewedAt := some draw.now
        dismissed := (p.sourcePayload.bind (·.replies)).getD [] }
    some (written .proposals rows (!rows.isEmpty))

def ticketSchema : Schema TicketStmt.Ans TicketDb TicketChange TicketLock TicketDraw :=
  relational indexEntries TicketStmt.run

end Opale.Tickets
