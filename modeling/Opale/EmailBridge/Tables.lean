import Opale.Sql.Interference
import Opale.Sql.Table

namespace Opale.EmailBridge

open Sql

inductive MessageType where
  | comment | internal_note | system | resolution | ai_suggestion
  deriving Repr, DecidableEq

/-- A row of `ticket_messages`. `fromMail` is history, no column: the stored identifier of
the mail that the row was created from. -/
structure TicketMessage where
  ticketId : Nat
  type : MessageType
  author : String
  content : String
  createdAt : Int
  emailSentAt : Option Int
  outboundAttempts : Int
  outboundError : Option (List Char)
  outboundFailedAt : Option Int
  fromMail : Option String
  deriving DecidableEq

inductive Direction where
  | inbound | outbound
  deriving Repr, DecidableEq

inductive MailAction where
  | message_appended | reply_appended_to_proposal | pending_review | skipped_error | skipped_other
  deriving Repr, DecidableEq

/-- A row of `email_thread_mapping`. -/
structure EmailThreadMapping where
  internetMessageId : String
  conversationId : Option String
  graphMessageId : Option String
  mailbox : String
  direction : Direction
  fromAddress : Option String
  subject : Option String
  receivedAt : Option Int
  createdAt : Int
  ticketId : Option Nat
  proposalId : Option Nat
  action : Option MailAction
  errorMessage : Option String
  deriving DecidableEq

structure Ticket where
  title : String
  updatedAt : Int
  deriving DecidableEq

structure MailDb where
  messages : Table TicketMessage
  mappings : Table EmailThreadMapping
  tickets : Table Ticket

/-- A row written whole, under a new key or in place of the row it was read from. -/
inductive MailChange where
  | message (id : Nat) (row : TicketMessage)
  | mapping (id : Nat) (row : EmailThreadMapping)
  | ticket (id : Nat) (row : Ticket)

/-- The lock of a row, and the one that the unique index takes on a stored identifier. -/
inductive MailLock where
  | message (id : Nat)
  | mapping (id : Nat)
  | internetMessageId (stored : String)
  | ticket (id : Nat)
  deriving DecidableEq

def MailChange.apply : MailChange → MailDb → MailDb
  | .message id row, db => { db with messages := db.messages.insert id row }
  | .mapping id row, db => { db with mappings := db.mappings.insert id row }
  | .ticket id row, db => { db with tickets := db.tickets.insert id row }

def MailChange.locks : MailChange → List MailLock
  | .message id _ => [.message id]
  | .mapping id row => [.mapping id, .internetMessageId row.internetMessageId]
  | .ticket id _ => [.ticket id]

theorem MailChange.commute (c d : MailChange) (db : MailDb) (apart : ∀ k ∈ c.locks, k ∉ d.locks) :
    c.apply (d.apply db) = d.apply (c.apply db) := by
  cases c with
  | message i a =>
    cases d with
    | message j b =>
      have other : i ≠ j := by
        rintro rfl
        exact apart _ List.mem_cons_self List.mem_cons_self
      simp only [apply, Table.insert_comm db.messages other]
    | mapping j b => rfl
    | ticket j b => rfl
  | mapping i a =>
    cases d with
    | message j b => rfl
    | mapping j b =>
      have other : i ≠ j := by
        rintro rfl
        exact apart _ List.mem_cons_self List.mem_cons_self
      simp only [apply, Table.insert_comm db.mappings other]
    | ticket j b => rfl
  | ticket i a =>
    cases d with
    | message j b => rfl
    | mapping j b => rfl
    | ticket j b =>
      have other : i ≠ j := by
        rintro rfl
        exact apart _ List.mem_cons_self List.mem_cons_self
      simp only [apply, Table.insert_comm db.tickets other]

end Opale.EmailBridge
