import Opale.EmailBridge.MessageKeys
import Opale.Sql.Pool
import Opale.Tickets.Relations

namespace Opale.EmailBridge.Mailroom

open Js Sql Tickets

/-- What Graph lists of a conversation. -/
structure ConversationPage where
  value : List GraphMessage
  sentFolderId : Option String

/-- What is called besides the database. A text of a mail is that of its whole body, without its quotes unless they
are kept; there is none when a call fails. A classifier that throws gives `false`. -/
inductive MailCall where
  | classify
  | bodyText (mailbox : String) (mail : GraphMessage) (keepQuoted : Bool)
  | conversation (mailbox conversationId : String)
  | now

abbrev MailCall.Reply : MailCall → Type
  | .classify => Bool
  | .bodyText .. => Option String
  | .conversation .. => Option ConversationPage
  | .now => Int

/-- What the transactions throw to end. -/
inductive MailError where
  | alreadyIngested
  | MAPPING_NOT_FOUND | ALREADY_LINKED | TICKET_NOT_FOUND | TICKET_MERGED | NOT_PENDING
  | ticket (e : TicketError)
  deriving DecidableEq

abbrev MailApp := App TicketStmt.Ans MailCall.Reply

abbrev MailTx (α : Type) := Body TicketStmt.Ans MailCall.Reply MailError α

abbrev run (s : TicketStmt) : MailTx s.Ans := Body.within s

abbrev ask (c : MailCall) : MailTx (MailCall.Reply c) := Body.call c

/-- The functions of JavaScript that stand outside: the digest, the text of a piece of HTML, lower case, the date of a
message to sort by (`Date.parse(receivedAt || 0)`), and a date as it is written in French. -/
structure MailFns where
  sha256 : List UInt8 → Units
  htmlToText : String → String
  toLowerCase : String → String
  dateParse : Option Int → Int
  formatDateFr : Int → String

/-- The code units of a text. -/
def units (s : String) : Units :=
  s.toList.flatMap fun c =>
    if c.toNat < 0x10000 then [c.toNat.toUInt16]
    else [(0xD800 + (c.toNat - 0x10000) / 0x400).toUInt16, (0xDC00 + (c.toNat - 0x10000) % 0x400).toUInt16]

def text (s : Units) : String := String.ofList (scalars s)

/-- A text that is not falsy. -/
def given (s : Option String) : Option String := s.filter (· ≠ "")

def stripNul (s : String) : String := String.ofList (s.toList.filter (· ≠ '\x00'))

/-- `stripNul` of a mail -/
def stripped (mail : GraphMessage) : GraphMessage where
  id := mail.id.map stripNul
  internetMessageId := mail.internetMessageId.map stripNul
  conversationId := mail.conversationId.map stripNul
  fromAddress := mail.fromAddress.map stripNul
  fromName := mail.fromName.map stripNul
  subject := mail.subject.map stripNul
  receivedDateTime := mail.receivedDateTime
  sentDateTime := mail.sentDateTime
  bodyPreview := mail.bodyPreview.map stripNul
  parentFolderId := mail.parentFolderId.map stripNul
  internetMessageHeaders := mail.internetMessageHeaders.map fun (name, value) => (stripNul name, stripNul value)

section

variable (fns : MailFns)

def stored (id : String) : String := text (storedMessageId (digest fns.sha256) (units id))

def lookupKeys (id : String) : List String := (messageIdLookupKeys (digest fns.sha256) (units id)).map text

/-- `indexHeaders(mail)[name]`: of two headers of one name the later counts. -/
def header (mail : GraphMessage) (name : String) : Option String :=
  (mail.internetMessageHeaders.reverse.find? fun h => h.1 ≠ "" && fns.toLowerCase h.1 = name).map Prod.snd

def safeBodyPreview (mail : GraphMessage) : String := text ((units (fns.htmlToText (mail.bodyPreview.getD ""))).take 1000)

/-- A row that `matchThread` reads. -/
def threadRow (link : MappingLink) : ThreadRow := ⟨units link.internetMessageId, none, link.ticketId, link.proposalId, none⟩

/-- The queries of `matchThread`. -/
def consult {α : Type} : Threading α → MailTx α
  | .ret value => pure value
  | .op (.byMessageIds keys) rest => do
    let links ← run (.mappingsByMessageIds (keys.map text))
    consult (rest (links.map threadRow))
  | .op (.byConversation conversationId) rest => do
    let link ← run (.mappingByConversation (text conversationId))
    consult (rest (link.toList.map threadRow))

def threadOf (mail : GraphMessage) : MailTx (Option ThreadMatch) :=
  consult (matchThread (digest fns.sha256)
    ⟨(header fns mail "in-reply-to").map units, (header fns mail "references").map units, mail.conversationId.map units⟩)

/-- Without an address no user is looked for. -/
def matchSender (address : Option String) : MailTx Sender :=
  if ((address.map units).map trimUnits).getD [] = [] then pure ⟨none, none, none⟩ else run (.matchSender address)

inductive IngestAction where
  | message_appended | reply_appended_to_proposal | pending_review | already_ingested | skipped_error
  | skipped_no_match | skipped_duplicate
  deriving DecidableEq

/-- What the result of an ingestion says of an error. -/
inductive IngestError where
  | noInternetMessageId
  | proposalGone (proposalId : Nat)
  /-- The error of a statement. -/
  | transaction
  deriving DecidableEq

def IngestError.message : IngestError → Option String
  | .noInternetMessageId => some "no internetMessageId"
  | .proposalGone proposalId => some ("proposal " ++ toString proposalId ++ " introuvable au moment de l'append")
  | .transaction => none

structure Ingested where
  action : IngestAction
  ticketId : Option Nat
  proposalId : Option Nat
  error : Option IngestError
  retryable : Bool
  committed : Bool

def alreadyIngested : Ingested := ⟨.already_ingested, none, none, none, false, false⟩

def withoutId : Ingested := ⟨.skipped_error, none, none, some .noInternetMessageId, false, false⟩

def failedIngestion : Ingested := ⟨.skipped_error, none, none, some .transaction, true, false⟩

/-- The mail was written, or another tick was first, or nothing was. -/
def outcome : Except (Thrown MailError) Ingested → Ingested
  | .ok done => done
  | .error (.error .alreadyIngested) => alreadyIngested
  | .error _ => failedIngestion

def authorOf (sender : Sender) (fromAddress : Option String) : String :=
  (given sender.userName).getD ((given fromAddress).getD "Email")

/-- `bodyText || safeBodyPreview(mail) || '(corps vide)'` -/
def contentOf (mail : GraphMessage) (bodyText : Option String) : String :=
  (given bodyText).getD ((given (some (safeBodyPreview fns mail))).getD "(corps vide)")

/-- A message that comes from the mail with the stored identifier `id`. -/
def appendMessageToTicket (ticketId : Nat) (authorName content id : String) : MailTx Unit := do
  let _ ← run (.insertMessage ⟨ticketId, .comment, authorName, content, .now, none, some id⟩)
  run (.touchTicket ticketId)

def appendReplyToProposal (proposalId : Nat) (mail : GraphMessage) (sender : Sender) (bodyText : Option String) :
    MailTx Bool := do
  match ← run (.payloadForUpdate proposalId) with
  | none => return false
  | some found =>
    let payload := found.getD ⟨none, none, none, none, none⟩
    let reply : ProposalReply := ⟨given mail.internetMessageId, given mail.fromAddress, (given mail.fromName).or (given sender.userName),
      given mail.subject, mail.receivedDateTime, given bodyText, safeBodyPreview fns mail⟩
    run (.setPayload proposalId { payload with replies := some (payload.replies.getD [] ++ [reply]) })
    return true

/-- What a mail does where its thread leads, and how its mapping ends. -/
def applyMatch (mail : GraphMessage) (id : String) (sender : Sender) (threadMatch : Option ThreadMatch)
    (bodyText : Option String) : MailTx (MailAction × Option IngestError) := do
  match threadMatch.bind (·.ticketId), threadMatch.bind (·.proposalId) with
  | some ticketId, _ =>
    appendMessageToTicket ticketId (authorOf sender mail.fromAddress) (contentOf fns mail bodyText) id
    return (.message_appended, none)
  | none, some proposalId =>
    if ← appendReplyToProposal fns proposalId mail sender bodyText then return (.reply_appended_to_proposal, none)
    else return (.skipped_error, some (.proposalGone proposalId))
  | none, none => return (.pending_review, none)

def MailAction.ingested : MailAction → IngestAction
  | .message_appended => .message_appended
  | .reply_appended_to_proposal => .reply_appended_to_proposal
  | .pending_review => .pending_review
  | .skipped_error | .skipped_other => .skipped_error

/-- The mapping of a mail. -/
def mappingOf (mail : GraphMessage) (id mailbox : String) (direction : Direction) (receivedAt : Option Int)
    (action : Option MailAction) (ticketId : Option Nat) : NewMapping :=
  ⟨id, given mail.conversationId, given mail.id, mailbox, direction, given mail.fromAddress, given mail.subject, receivedAt, mail,
    action, ticketId⟩

/-- The transaction of `processOne`. -/
def ingest (mail : GraphMessage) (id mailbox : String) (sender : Sender) (threadMatch : Option ThreadMatch)
    (bodyText : Option String) : MailTx Ingested := do
  match ← run (.insertMapping (mappingOf mail id mailbox .inbound mail.receivedDateTime none none)) with
  | none => Body.fail .alreadyIngested
  | some mappingId =>
    let (action, error) ← applyMatch fns mail id sender threadMatch bodyText
    let ticketId := threadMatch.bind (·.ticketId)
    let proposalId := threadMatch.bind (·.proposalId)
    run (.finishMapping mappingId ticketId proposalId action (error.bind IngestError.message))
    return ⟨MailAction.ingested action, ticketId, proposalId, error, false, true⟩

/-- The text of a mail, where its thread is known. -/
def textOf (mailbox : String) (mail : GraphMessage) : MailTx (Option String) := do
  let full ← ask (.bodyText mailbox mail false)
  return full.map stripNul

/-- What `processOne` finds out before its transaction. -/
def lookedUp (mail : GraphMessage) (mailbox : String) (classified : Bool) :
    MailTx (Bool × Sender × Option ThreadMatch × Option String) := do
  let sender ← matchSender mail.fromAddress
  let threadMatch ← threadOf fns mail
  if threadMatch.any fun m => m.ticketId.isSome || m.proposalId.isSome then
    let bodyText ← textOf mailbox mail
    return (true, sender, threadMatch, bodyText)
  else if classified then return (true, sender, threadMatch, none)
  else
    let answered ← ask .classify
    return (answered, sender, threadMatch, none)

/-- Nothing is returned where it throws. `classified` when there is a result of an earlier attempt. -/
def processOne (rawMessage : GraphMessage) (mailbox : String) (classified : Bool) : MailApp (Option Ingested) := do
  let mail := stripped rawMessage
  match given mail.internetMessageId with
  | none => return some withoutId
  | some messageId =>
    match ← App.query (TicketStmt.knownMappings (lookupKeys fns messageId)) with
    | none => return none
    | some (_ :: _) => return some alreadyIngested
    | some [] =>
      match ← App.onPool (lookedUp fns mail mailbox classified) with
      | .ok (true, sender, threadMatch, bodyText) =>
        let result ← App.transaction (ingest fns mail (stored fns messageId) mailbox sender threadMatch bodyText)
        return some (outcome result)
      | _ => return none

def appendSentMessageToTicket (ticketId : Nat) (authorName content : String) («when» : Int) (id : String) : MailTx Unit := do
  let _ ← run (.insertMessage ⟨ticketId, .comment, authorName, content, .at «when», some «when», some id⟩)
  run (.touchTicket ticketId)

/-- The transaction of `processSentOne`. -/
def ingestSent (mail : GraphMessage) (id mailbox : String) (ticketId : Nat) (authorName content : String) («when» : Int) :
    MailTx Ingested := do
  match ← run (.insertMapping (mappingOf mail id mailbox .outbound (some «when») (some .message_appended) (some ticketId))) with
  | none => Body.fail .alreadyIngested
  | some _ =>
    appendSentMessageToTicket ticketId authorName content «when» id
    return ⟨.message_appended, some ticketId, none, none, false, true⟩

/-- `sentDateTime || receivedDateTime || new Date()` -/
def sentAt (mail : GraphMessage) : MailTx Int := do
  match mail.sentDateTime.or mail.receivedDateTime with
  | some time => return time
  | none => ask .now

/-- The ticket of a mail that was sent, if its thread has one, with what would be written there; no text when the same
is there already. -/
def sentTo (mail : GraphMessage) (mailbox : String) : MailTx (Option (Nat × Option (String × String × Int))) := do
  let threadMatch ← threadOf fns mail
  match threadMatch.bind (·.ticketId) with
  | none => return none
  | some ticketId =>
    let bodyText ← textOf mailbox mail
    let sender ← matchSender mail.fromAddress
    let content := contentOf fns mail bodyText
    let «when» ← sentAt mail
    if ← run (.sameContent ticketId content) then return some (ticketId, none)
    else return some (ticketId, some (authorOf sender mail.fromAddress, content, «when»))

def processSentOne (rawMessage : GraphMessage) (mailbox : String) (dryRun : Bool) : MailApp (Option Ingested) := do
  let mail := stripped rawMessage
  match given mail.internetMessageId with
  | none => return some withoutId
  | some messageId =>
    match ← App.query (TicketStmt.knownMappings (lookupKeys fns messageId)) with
    | none => return none
    | some (_ :: _) => return some alreadyIngested
    | some [] =>
      match ← App.onPool (sentTo fns mail mailbox) with
      | .error _ => return none
      | .ok none => return some ⟨.skipped_no_match, none, none, none, false, false⟩
      | .ok (some (ticketId, none)) => return some ⟨.skipped_duplicate, some ticketId, none, none, false, false⟩
      | .ok (some (ticketId, some (authorName, content, «when»))) =>
        if dryRun then return some ⟨.message_appended, some ticketId, none, none, false, false⟩
        else
          let result ← App.transaction (ingestSent mail (stored fns messageId) mailbox ticketId authorName content «when»)
          return some (outcome result)

end

end Opale.EmailBridge.Mailroom
