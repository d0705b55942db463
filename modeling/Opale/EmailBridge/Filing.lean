import Opale.EmailBridge.Inbox
import Opale.Sql.Rows
import Opale.Tickets.Frames

namespace Opale.EmailBridge.Mailroom

open Js Sql Tickets

/-- Where a mapping says that its mail is. -/
structure Filing where
  action : Option MailAction
  ticket : Option Nat
  proposal : Option Nat
  deriving DecidableEq

/-- What there is of one mail: its mappings and the messages made from it, under their keys. -/
@[ext] structure Mail where
  mappings : Set (Nat × Filing)
  messages : Set (Nat × Nat)

/-- A mail in a ticket has a message there, another has none. A mail that is no reply to a proposal waits for review, or
was dismissed, or is in a ticket. -/
def Filing.Fits (f : Filing) (messages : Set (Nat × Nat)) : Prop :=
  if f.action = some .message_appended then
    ∃ e ∈ messages, ∃ ticket, f.ticket = some ticket ∧ (f.proposal = none → e.2 = ticket)
  else messages = ∅ ∧
    (f.proposal = none → f.ticket = none ∧ (f.action = some .pending_review ∨ f.action = some .skipped_other))

/-- At most one mapping, at most one message, and these two agree. -/
structure Mail.Filed (m : Mail) : Prop where
  mapping : m.mappings.Subsingleton
  message : m.messages.Subsingleton
  known : m.messages.Nonempty → m.mappings.Nonempty
  fits : ∀ e ∈ m.mappings, e.2.Fits m.messages

section

variable (merges : Bool)

/-- A ticket, as far as one is told from another: where tickets are merged, not at all. -/
def place (ticketId : Nat) : Nat := if merges then 0 else ticketId

def filing (r : ThreadMapping) : Filing := ⟨r.action, r.ticketId.map (place merges), r.proposalId⟩

/-- The mail with the stored identifier `id`. -/
def mailIn (db : TicketDb) (id : String) : Mail where
  mappings := {e | ∃ r : ThreadMapping, (db .mappings)[e.1]? = some r ∧ r.internetMessageId = id ∧ e.2 = filing merges r}
  messages := {e | ∃ m : TicketMessage, (db .messages)[e.1]? = some m ∧ m.fromMail = some id ∧ e.2 = place merges m.ticketId}

/-- Every mail is filed as it should be. -/
def Ledger (db : TicketDb) : Prop := ∀ id, (mailIn merges db id).Filed

/-- How far a transaction is with a mail: it has read only, or what it wrote is in order, or there is a new mapping that is not
finished, with its message or still without, or a mail in a ticket with no message yet. -/
inductive Phase where
  | reading
  | settled
  | ingested (mappingId : Nat) (id : String)
  | delivered (mappingId : Nat) (id : String) (ticketId : Nat)
  | linked (id : String) (ticketId : Nat)

/-- A transaction: the mappings that it has locked, as it read them, and its phase. -/
structure Stage where
  rows : List (Nat × ThreadMapping)
  phase : Phase

/-- Nothing is owed. -/
def Phase.Free (p : Phase) : Prop := p = .reading ∨ p = .settled

/-- The mail that something is owed for. -/
def Phase.owes : Phase → Option String
  | .reading | .settled => none
  | .ingested _ id | .delivered _ id _ | .linked id _ => some id

/-- What is there of the mail that something is owed for. -/
def Phase.Owed : Phase → Mail → Prop
  | .reading, _ | .settled, _ => True
  | .ingested mappingId _, m => m = ⟨{(mappingId, ⟨none, none, none⟩)}, ∅⟩
  | .delivered mappingId _ ticketId, m => ∃ key, m = ⟨{(mappingId, ⟨none, none, none⟩)}, {(key, place merges ticketId)}⟩
  | .linked _ ticketId, m => ∃ e, m = ⟨{e}, ∅⟩ ∧ e.2.action = some .message_appended ∧ e.2.ticket = some (place merges ticketId)

/-- What a transaction sees of a mail. -/
def Phase.At (p : Phase) (id : String) (m : Mail) : Prop := if p.owes = some id then p.Owed merges m else m.Filed

/-- A message from a mail is due. -/
def Phase.Expects (id : String) (ticketId : Nat) : Phase → Prop
  | .ingested _ id₁ => id₁ = id
  | .linked id₁ ticketId₁ => id₁ = id ∧ ticketId₁ = ticketId
  | _ => False

/-- How a new mapping ends. -/
def Phase.Finishes (mappingId : Nat) (ticketId proposalId : Option Nat) (action : MailAction) : Phase → Prop
  | .ingested mappingId₁ _ => mappingId₁ = mappingId ∧ action ≠ .message_appended ∧
      (proposalId = none → ticketId = none ∧ (action = .pending_review ∨ action = .skipped_other))
  | .delivered mappingId₁ _ ticketId₁ => mappingId₁ = mappingId ∧ action = .message_appended ∧ ticketId = some ticketId₁
  | _ => False

/-- Identifiers that were read of one mapping. -/
def Stage.Same (s : Stage) (id₁ id : String) : Prop :=
  id₁ = id ∨ ∃ mappingId r₁ r, (mappingId, r₁) ∈ s.rows ∧ (mappingId, r) ∈ s.rows ∧ r₁.internetMessageId = id₁ ∧
    r.internetMessageId = id

def Stage.Allowed (s : Stage) : TicketStmt → Prop
  | .insertMapping m => s.phase.Free ∧
      (m.action = none ∧ m.ticketId = none ∨ m.action = some .message_appended ∧ m.ticketId ≠ none)
  | .insertMessage m => ∀ id, m.fromMail = some id → ∃ id₁, s.Same id₁ id ∧ s.phase.Expects id₁ m.ticketId
  | .linkMapping mappingId _ => s.phase.Free ∧ ∃ row, (mappingId, row) ∈ s.rows
  | .finishMapping mappingId ticketId proposalId action _ => s.phase.Finishes mappingId ticketId proposalId action
  | .dismissMappings ids => s.phase = .reading ∧
      ∀ mappingId ∈ ids, ∃ row, (mappingId, row) ∈ s.rows ∧ row.action = some .pending_review
  | .repointMessages .. | .repointMappings .. => s.phase.Free ∧ merges = true
  | .repointProposalMappings .. => s.phase.Free
  | .deleteTicket _ => False
  | _ => True

def Phase.sent (ticketId : Nat) : Phase → Phase
  | .ingested mappingId id => .delivered mappingId id ticketId
  | .linked .. => .settled
  | p => p

def Phase.created (m : NewMapping) (mappingId : Nat) : Phase :=
  match m.ticketId with
  | none => .ingested mappingId m.internetMessageId
  | some ticketId => .linked m.internetMessageId ticketId

def Stage.next (s : Stage) : (q : TicketStmt) → q.Ans → Stage
  | .mappingForUpdate mappingId, some row => ⟨(mappingId, row) :: s.rows, s.phase⟩
  | .threadSiblings _ true, found => ⟨found ++ s.rows, s.phase⟩
  | .insertMapping m, some mappingId => ⟨s.rows, .created m mappingId⟩
  | .insertMessage m, _ => ⟨s.rows, if m.fromMail.isSome then s.phase.sent m.ticketId else s.phase⟩
  | .linkMapping mappingId ticketId, true =>
    match s.rows.find? fun e => e.1 = mappingId with
    | some e => ⟨s.rows, .linked e.2.internetMessageId ticketId⟩
    | none => s
  | .finishMapping .., _ | .dismissMappings _, _ | .repointMessages .., _ | .repointMappings .., _
  | .repointProposalMappings .., _ => ⟨s.rows, .settled⟩
  | _, _ => s

/-- The lock that a new mapping of the mail would need. -/
def entryOf (id : String) : TicketLock := .entry (.internetMessageId id)

/-- A mail that the transaction has not locked is as it is committed; the locked mappings are those that it has read, and the
same as long as it has written none. -/
structure Stage.Holds (s : Stage) (owned : Set TicketLock) (committed view : TicketDb) : Prop where
  unlocked : ∀ id, entryOf id ∉ owned → mailIn merges view id = mailIn merges committed id
  locked : ∀ id, entryOf id ∈ owned → s.phase.At merges id (mailIn merges view id)
  read : ∀ e ∈ s.rows, .row .mappings e.1 ∈ owned ∧ ∃ r : ThreadMapping, (view .mappings)[e.1]? = some r ∧
    r.internetMessageId = e.2.internetMessageId ∧ (s.phase = .reading → r = e.2)
  owes : ∀ id, s.phase.owes = some id → entryOf id ∈ owned

/-- What other requests do: they file no mail. Tickets are merged only where that is said. -/
def Elsewhere : TicketStmt → Prop
  | .insertMapping _ | .finishMapping .. | .linkMapping .. | .dismissMappings _ | .deleteTicket _ => False
  | .insertMessage m => m.fromMail = none
  | .repointMessages .. | .repointMappings .. => merges = true
  | _ => True

def mailContract : Contract ticketSchema Stage where
  inv := Ledger merges
  guard k db db₁ := ∀ id, k = entryOf id → mailIn merges db id = mailIn merges db₁ id
  start := ⟨[], .reading⟩
  allowed := Stage.Allowed merges
  next := Stage.next
  closes s := s.phase.Free
  queried := Elsewhere merges
  holds := Stage.Holds merges

end

end Opale.EmailBridge.Mailroom
