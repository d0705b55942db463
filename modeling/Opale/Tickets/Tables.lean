import Opale.EmailBridge.Tables
import Opale.Sql.Relational

namespace Opale.Tickets

open Sql EmailBridge

/-- `STATUSES` -/
inductive TicketStatus where
  | «open» | in_progress | resolved | closed | merged
  deriving Repr, DecidableEq

/-- `PRIORITIES` -/
inductive Priority where
  | low | normal | high | critical
  deriving Repr, DecidableEq

/-- `USER_ROLES` -/
inductive UserRole where
  | requester | involved
  deriving Repr, DecidableEq

/-- A row of `tickets`. Users and devices go by number, like everything that has an identifier. -/
structure Ticket where
  title : String
  description : Option String
  status : TicketStatus
  priority : Priority
  deviceId : Option Nat
  userId : Option Nat
  source : String
  isAuto : Bool
  createdByEntraId : Option Nat
  createdByName : Option String
  assignedToEntraId : Option Nat
  assignedToName : Option String
  mergedInto : Option Nat
  createdAt : Int
  updatedAt : Int
  resolvedAt : Option Int
  deriving DecidableEq

/-- A row of `ticket_users`, under the number of the user. -/
structure TicketUser where
  role : UserRole
  addedAt : Int
  deriving DecidableEq

/-- A row of `ticket_devices`, under the number of the device. -/
structure TicketDevice where
  addedAt : Int
  deriving DecidableEq

/-- A row of `ticket_tags`, under the number of the tag. -/
structure TicketTag where
  createdAt : Int
  deriving DecidableEq

structure TicketAttachment where
  ticketId : Nat
  filename : String
  storagePath : String
  deriving DecidableEq

/-- A mail as Graph gives it. -/
structure GraphMessage where
  id : Option String
  internetMessageId : Option String
  conversationId : Option String
  fromAddress : Option String
  fromName : Option String
  subject : Option String
  receivedDateTime : Option Int
  sentDateTime : Option Int
  bodyPreview : Option String
  parentFolderId : Option String
  internetMessageHeaders : List (String × String)
  deriving DecidableEq

/-- A row of `email_thread_mapping`, with the mail in `raw`. -/
structure ThreadMapping extends EmailThreadMapping where
  raw : GraphMessage
  deriving DecidableEq

inductive ProposalStatus where
  | pending | accepted | rejected
  deriving Repr, DecidableEq

/-- An element of `source_payload.replies`. -/
structure ProposalReply where
  internetMessageId : Option String
  fromAddress : Option String
  fromName : Option String
  subject : Option String
  receivedAt : Option Int
  bodyText : Option String
  bodyPreview : String
  deriving DecidableEq

/-- `source_payload`; no `replies` when these are not an array. -/
structure SourcePayload where
  fromAddress : Option String
  fromName : Option String
  receivedAt : Option Int
  bodyText : Option String
  replies : Option (List ProposalReply)
  deriving DecidableEq

/-- A row of `ticket_proposals`. `dismissed` is history, no column: the replies that it
had when it was rejected. -/
structure TicketProposal where
  source : String
  sourcePayload : Option SourcePayload
  suggestedTitle : String
  suggestedDescription : Option String
  suggestedPriority : Priority
  suggestedDeviceId : Option Nat
  suggestedUserId : Option Nat
  status : ProposalStatus
  ticketId : Option Nat
  rejectedReason : Option String
  reviewedByEntraId : Option Nat
  reviewedByName : Option String
  reviewedAt : Option Int
  dismissed : List ProposalReply
  deriving DecidableEq

/-- The tables. The three link tables have their key of two columns: one table for each ticket. -/
inductive TableName where
  | tickets
  | messages
  | mappings
  | proposals
  | attachments
  | users (ticketId : Nat)
  | devices (ticketId : Nat)
  | tags (ticketId : Nat)
  deriving Repr, DecidableEq

abbrev TableName.Row : TableName → Type
  | .tickets => Ticket
  | .messages => TicketMessage
  | .mappings => ThreadMapping
  | .proposals => TicketProposal
  | .attachments => TicketAttachment
  | .users _ => TicketUser
  | .devices _ => TicketDevice
  | .tags _ => TicketTag

abbrev TicketDb := Tables TableName.Row

/-- The entries of the two unique indexes. -/
inductive IndexEntry where
  | internetMessageId (stored : String)
  | oneRequester (ticketId : Nat)
  deriving DecidableEq

abbrev TicketChange := RowChange TableName.Row

abbrev TicketLock := RowLock TableName IndexEntry

/-- What a row has in `email_thread_mapping_internet_message_id_key` and in
`ux_ticket_users_one_requester`. -/
def indexEntries : (n : TableName) → n.Row → List IndexEntry
  | .mappings, m => [.internetMessageId m.internetMessageId]
  | .users ticketId, u => if u.role = .requester then [.oneRequester ticketId] else []
  | _, _ => []

end Opale.Tickets
