import Opale.EmailBridge.Tables
import Opale.Effects.Program

namespace Opale.EmailBridge

open Sql

def MAX_BATCH : Nat := 20

def MAX_ATTEMPTS : Int := 5

structure OutboundConfig where
  enabled : Bool
  sender : String
  senderDisplay : String
  deriving DecidableEq

/-- A row of `pickPending`. -/
structure PendingMessage where
  messageId : Nat
  ticketId : Nat
  author : String
  content : String
  createdAt : Int
  outboundAttempts : Int
  ticketTitle : String
  deriving DecidableEq

/-- The statements of the outbound worker and of the two admin routes. -/
inductive OutboxStmt where
  | getConfig
  | pickPending (limit : Nat)
  | loadTicketMappings (ticketId : Nat)
  | claimForSend (messageId : Nat) (sentAt : Int)
  | releaseClaim (messageId : Nat)
  | markFailure (messageId : Nat) (attempts : Int) (error : List Char) (failedAt : Option Int)
  | selectMessage (msgId ticketId : Nat)
  | inboundMapping (ticketId : Nat)
  | convertToComment (msgId : Nat)
  | retrySend (msgId ticketId : Nat)
  | touchTicket (ticketId : Nat)
  deriving DecidableEq

abbrev OutboxStmt.Ans : OutboxStmt → Type
  | .getConfig => OutboundConfig
  | .pickPending _ => List PendingMessage
  | .loadTicketMappings _ => List EmailThreadMapping
  | .claimForSend .. => Option Int
  | .releaseClaim _ | .markFailure .. | .touchTicket _ => Unit
  | .selectMessage .. | .convertToComment _ | .retrySend .. => Option TicketMessage
  | .inboundMapping _ => Bool

/-- The settings at the time of a statement, `now()`, and an order of the rows. -/
structure OutboxDraw where
  config : OutboundConfig
  now : Int
  order : List Nat

def hasInbound (db : MailDb) (ticketId : Nat) : Bool :=
  db.mappings.toList.any fun (_, m) => m.ticketId = some ticketId && m.direction = .inbound

/-- The WHERE clause of `pickPending`; an inner join drops a message without ticket. -/
def isPending (db : MailDb) (m : TicketMessage) : Bool :=
  m.emailSentAt = none && m.outboundFailedAt = none && m.type = .comment &&
    db.tickets.contains m.ticketId && hasInbound db m.ticketId

def pendingMessage (db : MailDb) (id : Nat) (m : TicketMessage) : PendingMessage where
  messageId := id
  ticketId := m.ticketId
  author := m.author
  content := m.content
  createdAt := m.createdAt
  outboundAttempts := m.outboundAttempts
  ticketTitle := (db.tickets[m.ticketId]?.map (·.title)).getD ""

/-- An UPDATE of one message: nothing to answer when no row satisfies `p`. -/
def updateMessage {α : Type} (db : MailDb) (id : Nat) (p : TicketMessage → Bool)
    (set : TicketMessage → TicketMessage) (answer : Option TicketMessage → α) : Outcome MailChange MailLock α :=
  match db.messages[id]? with
  | some m => if p m then ⟨answer (some (set m)), [.message id (set m)], []⟩ else ⟨answer none, [], []⟩
  | none => ⟨answer none, [], []⟩

def OutboxStmt.run : (s : OutboxStmt) → OutboxDraw → MailDb → Option (Outcome MailChange MailLock s.Ans)
  | .getConfig, draw, _ => some ⟨draw.config, [], []⟩
  | .pickPending limit, draw, db => do
    let rows := db.messages.select fun _ m => isPending db m
    let sorted ← Table.orderBy rows (fun a b => a.createdAt ≤ b.createdAt) draw.order
    some ⟨(sorted.map fun (id, m) => pendingMessage db id m).take limit, [], []⟩
  | .loadTicketMappings ticketId, draw, db => do
    let rows := db.mappings.select fun _ m => m.ticketId = some ticketId
    let sorted ← Table.orderBy rows (fun a b =>
      if a.receivedAt = b.receivedAt then a.createdAt ≤ b.createdAt
      else Table.nullsFirst a.receivedAt b.receivedAt) draw.order
    some ⟨sorted.map (·.2), [], []⟩
  | .claimForSend id sentAt, _, db =>
    some (updateMessage db id (fun m => m.emailSentAt = none && m.outboundFailedAt = none)
      (fun m => { m with emailSentAt := some sentAt }) (·.map (·.outboundAttempts)))
  | .releaseClaim id, _, db =>
    some (updateMessage db id (fun m => m.outboundFailedAt = none)
      (fun m => { m with emailSentAt := none }) fun _ => ())
  | .markFailure id attempts error failedAt, _, db =>
    some (updateMessage db id (fun _ => true)
      (fun m => { m with
        emailSentAt := none
        outboundAttempts := attempts
        outboundError := some error
        outboundFailedAt := failedAt }) fun _ => ())
  | .selectMessage id ticketId, _, db =>
    some ⟨db.messages[id]?.filter (·.ticketId = ticketId), [], []⟩
  | .inboundMapping ticketId, _, db => some ⟨hasInbound db ticketId, [], []⟩
  | .convertToComment id, _, db =>
    some (updateMessage db id (fun _ => true)
      (fun m => { m with type := .comment, emailSentAt := none }) fun row => row)
  | .retrySend id ticketId, _, db =>
    some (updateMessage db id (fun m => m.ticketId = ticketId && m.outboundFailedAt ≠ none)
      (fun m => { m with
        outboundFailedAt := none
        outboundAttempts := 0
        outboundError := none
        emailSentAt := none }) fun row => row)
  | .touchTicket ticketId, draw, db =>
    match db.tickets[ticketId]? with
    | some ticket => some ⟨(), [.ticket ticketId { ticket with updatedAt := draw.now }], []⟩
    | none => some ⟨(), [], []⟩

def outboxSchema : Schema OutboxStmt.Ans MailDb MailChange MailLock OutboxDraw where
  run := OutboxStmt.run
  apply := MailChange.apply
  locks := MailChange.locks
  commute := MailChange.commute

/-- An error thrown by a call to Graph. -/
structure GraphError where
  message : List Char
  /-- `err.code === GRAPH_RETRY_ABORTED` -/
  retryAborted : Bool
  deriving DecidableEq

/-- Operations of the worker and of the routes. The two sends carry the message they send,
besides what Graph receives; `buildSubject` formats the subject and the ticket of `sendMail`. -/
inductive OutboxOp where
  | sql (o : SqlOp OutboxStmt)
  | newDate
  | stopRequested
  | checkTicketAccess (ticketId : Nat)
  | sendReply (message : PendingMessage) (mailbox graphMessageId : String)
  | sendMail (message : PendingMessage) (sender recipient subject : String)

abbrev OutboxOp.Res : OutboxOp → Type
  | .sql o => o.Res OutboxStmt.Ans
  | .newDate => Int
  | .stopRequested | .checkTicketAccess _ => Bool
  | .sendReply .. | .sendMail .. => Except GraphError Unit

abbrev Outbox := Program OutboxOp.Res

namespace Outbox

abbrev perform (o : OutboxOp) : Outbox o.Res := Program.perform o

/-- `db.query`: no answer when it throws. -/
abbrev query (s : OutboxStmt) : Outbox (Option s.Ans) := perform (.sql (.query s))

end Outbox

open Outbox

inductive SendResult where
  | sent | skipped_no_recipient | skipped_claimed | aborted | dead_letter | error
  deriving Repr, DecidableEq

/-- A column that the code tests for truth: not NULL and not empty. -/
def truthy (column : Option String) : Option String := column.filter (· ≠ "")

/-- The last inbound sender. -/
def pickRecipient (mappings : List EmailThreadMapping) : Option String :=
  (mappings.filter (·.direction = .inbound)).reverse.findSome? fun m => truthy m.fromAddress

/-- The last inbound mail that Graph can answer to. -/
def pickReplyTarget (mappings : List EmailThreadMapping) : Option (String × String) :=
  (mappings.filter (·.direction = .inbound)).reverse.findSome? fun m =>
    match truthy m.graphMessageId, truthy (some m.mailbox) with
    | some graphMessageId, some mailbox => some (mailbox, graphMessageId)
    | _, _ => none

def pickSubject (mappings : List EmailThreadMapping) (ticketTitle : String) : String :=
  (((mappings.filter (·.direction = .inbound)).reverse.findSome? fun m => truthy m.subject).or
    (truthy (some ticketTitle))).getD "(sans sujet)"

def occursIn (pattern : List Char) : List Char → Bool
  | [] => pattern.isEmpty
  | c :: rest => pattern.isPrefixOf (c :: rest) || occursIn pattern rest

/-- `/createReply: 404/.test(err.message)` -/
def isCreateReply404 (err : GraphError) : Bool := occursIn "createReply: 404".toList err.message

/-- `deadLetter ? new Date() : null` -/
def failureDate (deadLetter : Bool) : Outbox (Option Int) := do
  if deadLetter then
    let date ← perform .newDate
    return some date
  else return none

/-- Counts a failure and takes the mark of the claim off; true for a dead letter. -/
def markFailure (messageId : Nat) (attemptsBefore : Int) (errMsg : List Char) : Outbox (Option Bool) := do
  let attempts := attemptsBefore + 1
  let deadLetter : Bool := attempts ≥ MAX_ATTEMPTS
  let failedAt ← failureDate deadLetter
  match ← query (.markFailure messageId attempts (errMsg.take 500) failedAt) with
  | none => return none
  | some () => return some deadLetter

def releaseClaim (messageId : Nat) : Outbox (Option Unit) := query (.releaseClaim messageId)

/-- The outer `catch`: an interrupted wait gives the claim back, any other error counts. -/
def sendFailed (message : PendingMessage) (attemptsBefore : Int) (err : GraphError) :
    Outbox (Option SendResult) := do
  if err.retryAborted then
    match ← releaseClaim message.messageId with
    | none => return none
    | some () => return some .aborted
  else
    match ← markFailure message.messageId attemptsBefore err.message with
    | none => return none
    | some deadLetter => return some (if deadLetter then .dead_letter else .error)

/-- The fresh mail of the fallback. -/
def sendNew (mappings : List EmailThreadMapping) (message : PendingMessage) (sender recipient : String) :
    Outbox (Except GraphError Unit) :=
  perform
    (.sendMail message sender recipient (pickSubject mappings message.ticketTitle))

/-- The attempt to send, threaded when there is a target, with its fallback on a 404. -/
def attemptSend (mappings : List EmailThreadMapping) (message : PendingMessage) (sender recipient : String) :
    Outbox (Except GraphError Unit) := do
  match pickReplyTarget mappings with
  | some (mailbox, graphMessageId) =>
    match ← perform (.sendReply message mailbox graphMessageId) with
    | .ok () => return .ok ()
    | .error err => if isCreateReply404 err then sendNew mappings message sender recipient else return .error err
  | none => sendNew mappings message sender recipient

/-- No answer when a query throws. -/
def sendOne (message : PendingMessage) (sender : String) : Outbox (Option SendResult) := do
  match ← query (.loadTicketMappings message.ticketId) with
  | none => return none
  | some mappings =>
    match pickRecipient mappings with
    | none => return some .skipped_no_recipient
    | some recipient =>
      let sentAt ← perform .newDate
      match ← query (.claimForSend message.messageId sentAt) with
      | none => return none
      | some none => return some .skipped_claimed
      | some (some attemptsBefore) =>
        match ← attemptSend mappings message sender recipient with
        | .ok () => return some .sent
        | .error err => sendFailed message attemptsBefore err

/-- The loop over the batch, with the results of the messages tried; a `sendOne` that
throws counts as an error. -/
def flushPending (sender : String) : List PendingMessage → Outbox (List SendResult)
  | [] => return []
  | message :: rest => do
    if ← perform .stopRequested then return []
    else
      let result ← sendOne message sender
      let results ← flushPending sender rest
      return result.getD .error :: results

inductive FlushResult where
  | threw | disabled | noSenderConfigured | stats (results : List SendResult)
  deriving DecidableEq

/-- One tick of the outbox. -/
def flushOutbox : Outbox FlushResult := do
  match ← query .getConfig with
  | none => return .threw
  | some cfg =>
    if !cfg.enabled then return .disabled
    else if cfg.sender = "" then return .noSenderConfigured
    else
      match ← query (.pickPending MAX_BATCH) with
      | none => return .threw
      | some pending => return .stats (← flushPending cfg.sender pending)

/-- Answers of the two admin routes; an error 500 when a query throws. -/
inductive RouteReply where
  | forbidden | message (row : Option TicketMessage) | error (code : Nat) (text : String) | threw
  deriving DecidableEq

/-- `UPDATE tickets SET updated_at`, then the reply. -/
def touchAndReply (ticketId : Nat) (row : Option TicketMessage) : Outbox RouteReply := do
  match ← query (.touchTicket ticketId) with
  | none => return .threw
  | some () => return .message row

/-- POST /:id/messages/:msgId/send-by-mail -/
def sendByMail (ticketId msgId : Nat) : Outbox RouteReply := do
  if ← perform (.checkTicketAccess ticketId) then
    match ← query (.selectMessage msgId ticketId) with
    | none => return .threw
    | some none => return .error 404 "Message introuvable"
    | some (some row) =>
      if row.type ≠ .internal_note then return .message (some row)
      else
        match ← query (.inboundMapping ticketId) with
        | none => return .threw
        | some false => return .error 409 "Ticket sans origine mail, envoi impossible"
        | some true =>
          match ← query (.convertToComment msgId) with
          | none => return .threw
          | some row => touchAndReply ticketId row
  else return .forbidden

/-- POST /:id/messages/:msgId/retry-send -/
def retrySendRoute (ticketId msgId : Nat) : Outbox RouteReply := do
  if ← perform (.checkTicketAccess ticketId) then
    match ← query (.retrySend msgId ticketId) with
    | none => return .threw
    | some none => return .error 404 "Message non en échec ou introuvable"
    | some (some row) => touchAndReply ticketId (some row)
  else return .forbidden

end Opale.EmailBridge
