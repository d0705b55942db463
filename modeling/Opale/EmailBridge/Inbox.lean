import Opale.EmailBridge.Ingestion
import Opale.EmailBridge.Subjects

namespace Opale.EmailBridge.Mailroom

open Js Sql Tickets

def GRAPH_THREAD_MAX : Nat := 20

/-- One of these words with `\s*:\s*`, whichever the case: what follows. -/
def afterMark (words : List String) (s : Units) : Option Units :=
  (words.map ascii).findSome? fun word => do
    let s ← afterWord word s
    let s ← afterUnit 58 (s.dropWhile isSpace)
    some (s.dropWhile isSpace)

/-- As many marks as there are; each takes a unit at least. -/
def afterMarks (words : List String) : Nat → Units → Units
  | 0, s => s
  | fuel + 1, s =>
    match afterMark words s with
    | some rest => afterMarks words fuel rest
    | none => s

/-- `/^\s*(?:(?:re|aw)\s*:\s*)*(?:tr|fw|fwd|wg)\s*:/i` -/
def isForwardedSubject (subject : Option String) : Bool :=
  let s := (units (subject.getD "")).dropWhile isSpace
  (afterMark ["tr", "fw", "fwd", "wg"] (afterMarks ["re", "aw"] s.length s)).isSome

def subjectMarks : List String := ["re", "tr", "fwd", "fw", "aw", "wg"]

/-- Without `^\s*(?:(?:re|tr|fwd|fw|aw|wg)\s*:\s*)+` -/
def withoutMarks (s : Units) : Units :=
  match afterMark subjectMarks (s.dropWhile isSpace) with
  | some rest => afterMarks subjectMarks s.length rest
  | none => s

/-- Without `^\s*\[[^\]]+\]\s*` -/
def withoutBrackets (s : Units) : Units :=
  match s.dropWhile isSpace with
  | 91 :: inside =>
    match inside.takeWhile (· ≠ 93), inside.dropWhile (· ≠ 93) with
    | _ :: _, 93 :: rest => rest.dropWhile isSpace
    | _, _ => s
  | _ => s

def cleanSubject (subject : Option String) : Units :=
  match trimUnits (withoutBrackets (withoutMarks (units ((given subject).getD "(sans sujet)")))) with
  | [] => units "(sans sujet)"
  | s => s

example : cleanSubject (some "RE: Fw : [Opale #1] Écran noir ") = units "Écran noir" := by decide

/-- A mail of the conversation that no mapping knows. -/
abbrev Extra := GraphMessage × Direction

/-- A message of the ticket to come. `stored` is its stored identifier. -/
structure ThreadItem where
  mappingId : Option Nat
  stored : String
  graphMessage : GraphMessage
  direction : Direction
  mailbox : String
  graphMessageId : Option String
  fromAddress : Option String
  fromName : String
  subject : Option String
  receivedAt : Option Int

inductive BodyKey where
  | mapping (id : Nat)
  | graph (id : Option String)
  deriving DecidableEq

/-- What `prepareThread` hands over. -/
structure Prepared where
  mappingId : Nat
  extras : List Extra
  bodies : List (BodyKey × String)

def bodyKey (it : ThreadItem) : BodyKey :=
  match it.mappingId with
  | some id => .mapping id
  | none => .graph it.graphMessageId

def itemOfMapping (id : Nat) (r : ThreadMapping) : ThreadItem where
  mappingId := some id
  stored := r.internetMessageId
  graphMessage := r.raw
  direction := r.direction
  mailbox := r.mailbox
  graphMessageId := r.graphMessageId
  fromAddress := (given r.fromAddress).or (given r.raw.fromAddress)
  fromName := ((given r.raw.fromName).or (given r.fromAddress)).getD "expéditeur inconnu"
  subject := (given r.subject).or (given r.raw.subject)
  receivedAt := r.receivedAt.or r.raw.receivedDateTime

section

variable (fns : MailFns)

def itemOfExtra (m : ThreadMapping) (e : Extra) : ThreadItem where
  mappingId := none
  stored := stored fns (e.1.internetMessageId.getD "")
  graphMessage := e.1
  direction := e.2
  mailbox := m.mailbox
  graphMessageId := e.1.id
  fromAddress := given e.1.fromAddress
  fromName := ((given e.1.fromName).or (given e.1.fromAddress)).getD "expéditeur inconnu"
  subject := given e.1.subject
  receivedAt := e.1.receivedDateTime.or e.1.sentDateTime

/-- The items in the order of their dates. -/
def buildItems (mappingId : Nat) (m : ThreadMapping) (siblings : List (Nat × ThreadMapping)) (extras : List Extra) :
    List ThreadItem :=
  ((itemOfMapping mappingId m :: siblings.map fun e => itemOfMapping e.1 e.2) ++ extras.map (itemOfExtra fns m)).mergeSort
    fun a b => fns.dateParse a.receivedAt ≤ fns.dateParse b.receivedAt

/-- `.replace(/^<|>$/g, '')` -/
def withoutAngles (id : String) : String :=
  let opened := match units id with
    | 60 :: rest => rest
    | s => s
  text (if opened.getLast? = some 62 then opened.dropLast else opened)

def referencedIds (mail : GraphMessage) : List String :=
  ((parseMessageIdList ((header fns mail "in-reply-to").map units) ++
    parseMessageIdList ((header fns mail "references").map units)).foldl pushNew []).map text

def siblingQuery (mappingId : Nat) (m : ThreadMapping) : SiblingQuery :=
  let ownId := (given m.raw.internetMessageId).getD m.internetMessageId
  ⟨mappingId, given m.conversationId, (referencedIds fns m.raw).flatMap (lookupKeys fns), (lookupKeys fns ownId).map withoutAngles⟩

def findThreadSiblings (mappingId : Nat) (m : ThreadMapping) (forUpdate : Bool) : MailTx (List (Nat × ThreadMapping)) :=
  run (.threadSiblings (siblingQuery fns mappingId m) forUpdate)

def isCandidate (knownIds : List String) (mail : GraphMessage) : Bool :=
  match given mail.internetMessageId with
  | none => false
  | some id => !knownIds.contains (stored fns id) && !knownIds.contains id

def keysOf (mail : GraphMessage) : List String := lookupKeys fns (mail.internetMessageId.getD "")

def unknownGraphMessages {α : Type} (mailOf : α → GraphMessage) (found : List α) (knownIds : List String) : MailTx (List α) := do
  match found.filter fun e => isCandidate fns knownIds (mailOf e) with
  | [] => return []
  | e :: cand =>
    let inDb ← run (.knownMappings ((e :: cand).flatMap fun e => keysOf fns (mailOf e)).eraseDups)
    return (e :: cand).filter fun e => !(keysOf fns (mailOf e)).any inDb.contains

/-- Where a mail of the conversation went. -/
def directionOf (sentFolderId : Option String) (mailbox : String) (mail : GraphMessage) : Direction :=
  let fromAddr := fns.toLowerCase (mail.fromAddress.getD "")
  if (given sentFolderId).isSome && mail.parentFolderId = sentFolderId || fromAddr ≠ "" && fromAddr = fns.toLowerCase mailbox then
    .outbound
  else .inbound

def fetchMissingConversationMessages (m : ThreadMapping) (knownIds : List String) : MailTx (List Extra) := do
  match given (some m.mailbox), given m.conversationId with
  | some mailbox, some conversationId =>
    match ← ask (.conversation mailbox conversationId) with
    | none => return []
    | some page =>
      let fresh ← unknownGraphMessages fns id page.value knownIds
      return (fresh.take GRAPH_THREAD_MAX).map fun g => (stripped g, directionOf fns page.sentFolderId mailbox g)
  | _, _ => return []

def previewText (mail : GraphMessage) : String := stripNul (fns.htmlToText (mail.bodyPreview.getD ""))

def fetchBodyText (it : ThreadItem) : MailTx String := do
  match given (some it.mailbox), given it.graphMessageId with
  | some mailbox, some _ =>
    let full ← ask (.bodyText mailbox it.graphMessage (isForwardedSubject it.graphMessage.subject))
    return (given (full.map stripNul)).getD (previewText fns it.graphMessage)
  | _, _ => return previewText fns it.graphMessage

def knownIdsOf (rows : List ThreadMapping) : List String :=
  rows.flatMap fun r => r.internetMessageId :: (given r.raw.internetMessageId).toList

/-- The items with their texts; those in the cache are not loaded again. -/
def fillBodies (cache : List (BodyKey × String)) : List ThreadItem → MailTx (List (ThreadItem × String))
  | [] => return []
  | it :: items => do
    match cache.reverse.find? fun e => e.1 = bodyKey it with
    | some e =>
      let rest ← fillBodies cache items
      return (it, e.2) :: rest
    | none =>
      let body ← fetchBodyText fns it
      let rest ← fillBodies cache items
      return (it, body) :: rest

/-- Before the transaction, on the pool. -/
def prepareThread (mappingId : Nat) : MailTx Prepared := do
  match ← run (.selectMapping mappingId) with
  | none => Body.fail .MAPPING_NOT_FOUND
  | some m =>
    if m.ticketId.isSome then Body.fail .ALREADY_LINKED
    else
      let siblings ← findThreadSiblings fns mappingId m false
      let extras ← fetchMissingConversationMessages fns m (knownIdsOf (m :: siblings.map Prod.snd))
      let items ← fillBodies fns [] (buildItems fns mappingId m siblings extras)
      return ⟨mappingId, extras, items.map fun e => (bodyKey e.1, e.2)⟩

/-- The mails of the conversation that are not filed yet: of those prepared, the ones that still are not. -/
def extrasOf (mappingId : Nat) (m : ThreadMapping) (knownIds : List String) (prepared : Option Prepared) : MailTx (List Extra) :=
  match prepared with
  | some p =>
    if p.mappingId = mappingId then unknownGraphMessages fns Prod.fst p.extras knownIds
    else fetchMissingConversationMessages fns m knownIds
  | none => fetchMissingConversationMessages fns m knownIds

def assembleThread (mappingId : Nat) (m : ThreadMapping) (prepared : Option Prepared) : MailTx (List (ThreadItem × String)) := do
  let siblings ← findThreadSiblings fns mappingId m true
  let extras ← extrasOf fns mappingId m (knownIdsOf (m :: siblings.map Prod.snd)) prepared
  fillBodies fns ((prepared.map (·.bodies)).getD []) (buildItems fns mappingId m siblings extras)

/-- The mapping of an item, pointed at the ticket or created there; `false` when the mail is filed already. -/
def fileItem (ticketId : Nat) (it : ThreadItem) : MailTx Bool :=
  match it.mappingId with
  | some id => run (.linkMapping id ticketId)
  | none => do
    let g := it.graphMessage
    let created ← run (.insertMapping ⟨it.stored, given g.conversationId, given g.id, it.mailbox, it.direction, it.fromAddress,
      it.subject, it.receivedAt, g, some .message_appended, some ticketId⟩)
    return created.isSome

/-- The loop of `appendThreadToTicket`, after `appended` messages. -/
def appendItems (ticketId : Nat) (appended : Nat) : List (ThreadItem × String) → MailTx Nat
  | [] => return appended
  | (it, body) :: items => do
    if ← fileItem ticketId it then
      let _ ← run (.insertMessage ⟨ticketId, .comment, it.fromName, (given (some body)).getD "(corps vide)", .now, it.receivedAt,
        some it.stored⟩)
      appendItems ticketId (appended + 1) items
    else appendItems ticketId appended items

def appendThreadToTicket (ticketId : Nat) (items : List (ThreadItem × String)) : MailTx Nat := do
  let appended ← appendItems ticketId 0 items
  run (.touchTicket ticketId)
  return appended

/-- A sender that is a user, with the address. -/
abbrev ThreadSender := String × Sender

/-- The error of a look-up is caught. -/
def lookUpSender (address : String) : MailTx Sender :=
  if trimUnits (units address) = [] then pure ⟨none, none, none⟩
  else do
    let found ← Body.attempt (TicketStmt.matchSender (some address))
    return found.getD ⟨none, none, none⟩

/-- The loop of `matchThreadSenders`, after the addresses `seen`. -/
def matchSenders (box : String) (seen : List String) : List ThreadItem → MailTx (List ThreadSender)
  | [] => return []
  | it :: items => do
    let addr := fns.toLowerCase (it.fromAddress.getD "")
    if addr = "" ∨ addr = box ∨ addr ∈ seen ∨ it.direction = .outbound then matchSenders box seen items
    else
      let s ← lookUpSender addr
      let rest ← matchSenders box (addr :: seen) items
      return if s.userId.isSome then (addr, s) :: rest else rest

def matchThreadSenders (items : List ThreadItem) (mailbox : String) : MailTx (List ThreadSender) :=
  matchSenders fns (fns.toLowerCase mailbox) [] items

def lockMapping (mappingId : Nat) : MailTx ThreadMapping := do
  match ← run (.mappingForUpdate mappingId) with
  | none => Body.fail .MAPPING_NOT_FOUND
  | some m => if m.ticketId.isSome then Body.fail .ALREADY_LINKED else return m

/-- The line that stands for the thread in the ticket. -/
def describe (m : ThreadMapping) (items : List ThreadItem) : String :=
  let date (it : Option ThreadItem) := (it.bind (·.receivedAt)).map fns.formatDateFr
  match items with
  | first :: _ :: _ =>
    "Fil de " ++ toString items.length ++ " mails — premier mail de " ++ first.fromName ++
      ((date (some first)).map (" le " ++ ·)).getD "" ++ ((date items.getLast?).map (", dernier le " ++ ·)).getD ""
  | _ =>
    let fromName := ((items.head?.bind fun it => given (some it.fromName)).or (given m.fromAddress)).getD "expéditeur inconnu"
    "Mail de " ++ fromName ++ ((date items.head?).map (" reçu le " ++ ·)).getD ""

def relation {α : Type} (body : TicketTx α) : MailTx α := Body.lift .ticket body

/-- `addInvolvedUser` for each of the senders -/
def addSenders (ticketId : Nat) : List ThreadSender → MailTx Unit
  | [] => return ()
  | (_, s) :: senders => do
    relation (forM s.userId fun userId => addInvolvedUser ticketId userId)
    addSenders ticketId senders

/-- The sender of the mail that was clicked, or the first one known. The others are `involved`. -/
def requesterOf (clicked : String) (senders : List ThreadSender) : Option ThreadSender :=
  (senders.find? fun s => s.1 = clicked).or senders.head?

def createTicketFromMapping (mappingId : Nat) (byEntraId : Option Nat) (byName : Option String) (prepared : Option Prepared) :
    MailTx (Nat × Nat) := do
  let m ← lockMapping mappingId
  let items ← assembleThread fns mappingId m prepared
  let senders ← matchThreadSenders fns (items.map Prod.fst) m.mailbox
  let requester := requesterOf (fns.toLowerCase (m.fromAddress.getD "")) senders
  let userId := requester.bind (·.2.userId)
  let deviceId := requester.bind (·.2.deviceId)
  let ticketId ← run (.insertTicket ⟨text ((cleanSubject m.subject).take 200), some (describe fns m (items.map Prod.fst)), .normal,
    deviceId, userId, "email", true, byEntraId, byName, none, none⟩)
  let appended ← appendThreadToTicket ticketId items
  relation (forM userId fun userId => syncRequester ticketId (some userId))
  relation (forM deviceId fun deviceId => addDeviceToTicket ticketId deviceId)
  -- an address is in the list once
  addSenders ticketId (senders.filter fun s => some s.1 ≠ requester.map Prod.fst)
  return (ticketId, appended)

/-- A ticket that is over is open again. -/
def reopen (ticketId : Nat) (status : TicketStatus) : MailTx Unit := do
  if status = .resolved ∨ status = .closed then
    run (.reopenTicket ticketId)
    let _ ← run (.insertMessage ⟨ticketId, .system, "Opale", "Ticket rouvert : nouveau mail rattaché", .null, none, none⟩)
    return ()
  else return ()

def attachMappingToTicket (mappingId ticketId : Nat) (prepared : Option Prepared) : MailTx Nat := do
  let m ← lockMapping mappingId
  match ← run (.ticketForUpdate ticketId) with
  | none => Body.fail .TICKET_NOT_FOUND
  | some ticket =>
    if ticket.status = .merged then Body.fail .TICKET_MERGED
    else
      let items ← assembleThread fns mappingId m prepared
      let appended ← appendThreadToTicket ticketId items
      reopen ticketId ticket.status
      let senders ← matchThreadSenders fns (items.map Prod.fst) m.mailbox
      addSenders ticketId senders
      return appended

/-- The mails of the thread that wait for their review. -/
def waiting (siblings : List (Nat × ThreadMapping)) : List Nat :=
  (siblings.filter fun s => s.2.action = some .pending_review).map Prod.fst

def dismissInboxMapping (mappingId : Nat) (wholeThread : Bool) : MailTx Bool := do
  match ← run (.mappingForUpdate mappingId) with
  | none => Body.fail .MAPPING_NOT_FOUND
  | some m =>
    if m.action = some .skipped_other then return false
    else if m.action ≠ some .pending_review then Body.fail .NOT_PENDING
    else if wholeThread then
      let siblings ← findThreadSiblings fns mappingId m true
      run (.dismissMappings (mappingId :: waiting siblings))
      return true
    else
      run (.dismissMappings [mappingId])
      return true

/-- The answers of the routes of the inbox; a statement that failed gives 409 or 500. -/
inductive InboxReply where
  | created (ticketId absorbed : Nat)
  | attached (ticketId appended : Nat)
  | dismissed
  | notFoundMail
  | ticketNotFound
  | conflict (error : String)
  | failed

def InboxReply.thrown : Thrown MailError → InboxReply
  | .error .MAPPING_NOT_FOUND => .notFoundMail
  | .error .ALREADY_LINKED => .conflict "Mail déjà lié à un ticket"
  | .error .TICKET_NOT_FOUND => .ticketNotFound
  | .error .TICKET_MERGED => .conflict "Ticket fusionné — choisir le ticket final"
  | .error .NOT_PENDING => .conflict "Mail déjà traité"
  | _ => .failed

/-- `POST /inbox/:id/to-ticket` -/
def toTicket (mappingId : Nat) (byEntraId : Option Nat) (byName : Option String) : MailApp InboxReply := do
  match ← App.onPool (prepareThread fns mappingId) with
  | .error e => return .thrown e
  | .ok prepared =>
    match ← App.transaction (createTicketFromMapping fns mappingId byEntraId byName (some prepared)) with
    | .error e => return .thrown e
    | .ok (ticketId, absorbed) => return .created ticketId absorbed

/-- `POST /inbox/:id/attach` -/
def attach (mappingId ticketId : Nat) : MailApp InboxReply := do
  match ← App.onPool (prepareThread fns mappingId) with
  | .error e => return .thrown e
  | .ok prepared =>
    match ← App.transaction (attachMappingToTicket fns mappingId ticketId (some prepared)) with
    | .error e => return .thrown e
    | .ok appended => return .attached ticketId appended

/-- `POST /inbox/:id/dismiss` -/
def dismiss (mappingId : Nat) (wholeThread : Bool) : MailApp InboxReply := do
  match ← App.transaction (dismissInboxMapping fns mappingId wholeThread) with
  | .error e => return .thrown e
  | .ok _ => return .dismissed

end

end Opale.EmailBridge.Mailroom
