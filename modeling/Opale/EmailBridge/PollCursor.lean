import Mathlib.Data.Finset.Card
import Opale.Effects.Loops
import Opale.Js.Values

namespace Opale.EmailBridge.PollCursor

open Js

def PAGE_SIZE : Nat := 50
def MAX_PAGES : Nat := 5
def MAX_SKIP_PAGES : Nat := 40
def VALVE_COUNT_PAGES : Nat := 10
def MAX_INGEST_ATTEMPTS : Int := 5
def MIN_POISON_AGE_MS : Int := 30 * 60000
def SUSPECT_ALERT_MS : Int := 2 * 3600000

/-- Graph ids are texts that are only compared; dates are in milliseconds, which the ISO text of a
date names one to one. -/
abbrev MailId := Nat

/-- A mail of a page; `toProcess` tells whether it is in `value`, and not in `scanned` only. -/
structure Message where
  id : MailId
  internetMessageId : Option Units
  date : Int
  toProcess : Bool
  deriving DecidableEq

/-- A mailbox in the order of the listing: the date, then an order of its own. -/
structure Mailbox where
  mails : List Message
  sorted : mails.Pairwise fun m m₁ => m.date ≤ m₁.date
  unique : (mails.map (·.id)).Nodup

/-- `@odata.nextLink`, or the text of a date that stands in its place after a jump. -/
inductive Link where
  | page (since : Int) (skip : Nat)
  | date (listFrom : Int)

structure Page where
  scanned : List Message
  nextLink : Option Link

/-- `$filter=… ge since` -/
def Mailbox.since (mailbox : Mailbox) (since : Int) : List Message := mailbox.mails.filter fun m => since ≤ m.date

def Mailbox.page (mailbox : Mailbox) (since : Int) (skip : Nat) : Page :=
  let rest := (mailbox.since since).drop skip
  ⟨rest.take PAGE_SIZE, if PAGE_SIZE < rest.length then some (.page since (skip + PAGE_SIZE)) else none⟩

/-- What `handle` answers. -/
inductive Answer where
  | retry (error : Option Units) (memo : Option Units)
  | settled (wrote : Bool)

/-- What a tick meets: at its n-th listing the mailbox as it then is, or a failure; at its n-th call of
`handle` an answer; at its n-th look at the clock a date. -/
structure Environment where
  mailbox : Nat → Option Mailbox
  handle : Nat → Message → Option Units → Answer
  now : Nat → Int

/-- A link that is not one of Graph is refused. -/
def Environment.list (env : Environment) (n : Nat) (listFrom : Int) (nextLink : Option Link) : Option Page :=
  match nextLink with
  | none => (env.mailbox n).map (·.page listFrom 0)
  | some (.page since skip) => (env.mailbox n).map (·.page since skip)
  | some (.date _) => none

/-- The date of the last mail treated, with the mails treated that have this date. -/
structure Position where
  atDate : Int
  done : Finset MailId
  deriving DecidableEq

structure Alerted where
  waiting : Bool
  systemic : Bool
  deriving DecidableEq

structure Retry where
  id : MailId
  internetMessageId : Option Units
  attempts : Int
  error : Units
  firstAt : Int
  memo : Option Units
  alerted : Alerted
  deriving DecidableEq

structure Scan where
  id : MailId
  position : Position
  since : Int
  deriving DecidableEq

/-- The JSON of the setting `stateKey`. -/
structure SavedState where
  position : Position
  retry : Option Retry
  scan : Option Scan
  deriving DecidableEq

/-- The two settings; a state that is absent or unreadable is `none`. -/
structure Saved where
  cursor : Int
  state : Option SavedState
  deriving DecidableEq

def parseState (raw : Option SavedState) (cursor : Int) : Finset MailId × Option Retry × Option Scan :=
  match raw with
  | none => (∅, none, none)
  | some s =>
    if s.position.atDate = cursor then
      (s.position.done, s.retry, s.scan.filter fun scan => s.retry.any fun retry => scan.id = retry.id)
    else (∅, none, none)

/-- A mail passed over until the next one decides; the rollback is the position before it. -/
structure Suspect where
  message : Message
  since : Int
  rollback : Position
  record : Retry
  jumped : Bool

inductive Reason where
  | waiting | systemic
  deriving DecidableEq

inductive Audit where
  | blocked (reason : Reason) (message : Message) (record : Retry) (nextError : Option Units)
  | abandoned (message : Message) (attempts : Int) (error : Units)
  | secondSkipped (cursor nextCursor : Int) (alreadyHandled notIngested : Nat) (exhaustive : Bool)
  deriving DecidableEq

/-- A page as the loop reads it, with what was done by then. -/
structure Read where
  mails : List Message
  done : Finset MailId

/-- The variables of the tick. The last five record what it has asked, been answered and written. -/
structure Walk where
  position : Position
  retry : Option Retry
  scan : Option Scan
  suspect : Option Suspect
  jumpTo : Option Position
  keepScan : Option Scan
  errors : Nat
  abandoned : Nat
  pages : Nat
  skipPages : Nat
  processed : Nat
  progressed : Bool
  blocked : Bool
  skipOnly : Bool
  listFrom : Int
  nextLink : Option Link
  graphNext : Option Link
  listings : Nat
  answers : List Answer
  clock : Nat
  reads : List Read
  audits : List Audit

def Walk.start (s : Saved) : Walk :=
  let (done, retry, scan) := parseState s.state s.cursor
  ⟨⟨s.cursor, done⟩, retry, scan, none, none, none, 0, 0, 0, 0, 0, false, false, true, s.cursor, none, none, 0, [], 0, [], []⟩

/-- The mail is treated, left out or abandoned: the cursor moves up to it. -/
def advance (m : Message) (w : Walk) : Walk :=
  { w with
    position :=
      if w.position.atDate < m.date then ⟨m.date, {m.id}⟩ else ⟨w.position.atDate, insert m.id w.position.done⟩
    retry := w.retry.filter (·.id ≠ m.id)
    progressed := true }

def errorText (error : Option Units) : Units :=
  (((error.filter (· ≠ [])).getD (ascii "erreur inconnue")).take 500)

/-- The mail fails after a suspect: back to just before the suspect, which blocks. -/
def systemic (suspect : Suspect) (error : Option Units) (w : Walk) : Walk :=
  let w := { w with
    keepScan := some ⟨suspect.message.id, w.position, suspect.since⟩
    position := suspect.rollback
    retry := some suspect.record
    suspect := none
    blocked := true }
  if suspect.record.alerted.systemic then w
  else { w with
    retry := some { suspect.record with alerted := { suspect.record.alerted with systemic := true } }
    audits := w.audits ++ [.blocked .systemic suspect.message suspect.record (some (errorText error))] }

/-- The mail has failed too often and for too long. -/
def suspected (env : Environment) (m : Message) (record : Retry) (w : Walk) : ForInStep Walk :=
  let resumed := w.scan.filter (·.id = m.id)
  let since := resumed.elim (env.now w.clock) (·.since)
  let w := { w with
    suspect := some ⟨m, since, w.position, record, resumed.isSome⟩
    scan := none
    clock := w.clock + resumed.isNone.toNat }
  match resumed with
  | some scan => .done { w with jumpTo := some scan.position }
  | none => .yield (advance m w)

/-- The mail fails and no other is under suspicion. -/
def failed (env : Environment) (m : Message) (error memo : Option Units) (w : Walk) : ForInStep Walk :=
  let same := w.retry.filter (·.id = m.id)
  let attempts := same.elim 0 (·.attempts) + 1
  let firstAt := same.elim (env.now w.clock) (·.firstAt)
  let w := { w with clock := w.clock + same.isNone.toNat }
  let record : Retry :=
    ⟨m.id, m.internetMessageId, attempts, errorText error, firstAt, memo <|> same.bind (·.memo),
      same.elim ⟨false, false⟩ (·.alerted)⟩
  if attempts < MAX_INGEST_ATTEMPTS then .done { w with retry := some record, blocked := true }
  else
    let now := env.now w.clock
    let w := { w with clock := w.clock + 1 }
    if now - firstAt < MIN_POISON_AGE_MS then .done { w with retry := some record, blocked := true }
    else suspected env m record w

/-- Just after the suspect, from where the mails that the search had passed are read again. -/
def Suspect.back (suspect : Suspect) : Position :=
  let back := if suspect.rollback.atDate < suspect.message.date then ⟨suspect.message.date, ∅⟩ else suspect.rollback
  ⟨back.atDate, insert suspect.message.id back.done⟩

/-- A later mail has written: the suspect alone is at fault. -/
def verdict (suspect : Suspect) (m : Message) (w : Walk) : ForInStep Walk :=
  let w := { w with
    audits := w.audits ++ [.abandoned suspect.message suspect.record.attempts suspect.record.error]
    abandoned := w.abandoned + 1
    suspect := none }
  if suspect.jumped then .done { w with jumpTo := some suspect.back, retry := none }
  else .yield (advance m w)

def readMail (env : Environment) (m : Message) (w : Walk) : ForInStep Walk :=
  if m.date ≤ w.position.atDate ∧ m.id ∈ w.position.done then .yield w
  else
    let w := { w with skipOnly := false }
    if m.toProcess then
      let answer := env.handle w.answers.length m ((w.retry.filter (·.id = m.id)).bind (·.memo))
      let w := { w with answers := w.answers ++ [answer] }
      match answer, w.suspect with
      | .retry error _, some suspect => .done (systemic suspect error { w with processed := w.processed + 1 })
      | .retry error memo, none => failed env m error memo { w with processed := w.processed + 1 }
      | .settled true, some suspect => verdict suspect m { w with processed := w.processed + 1 }
      | .settled false, some _ => .yield (advance m w)
      | .settled _, none => .yield (advance m { w with processed := w.processed + 1 })
    else .yield (advance m w)

/-- One turn of the loop over the pages. -/
def readPage (env : Environment) (w : Walk) : ForInStep Walk :=
  match env.list w.listings w.listFrom w.nextLink with
  | none => .done { w with listings := w.listings + 1, errors := w.errors + 1 }
  | some page =>
    let atBefore := w.position.atDate
    let w := forOf (readMail env) page.scanned { w with
      listings := w.listings + 1
      reads := w.reads ++ [⟨page.scanned, w.position.done⟩]
      skipOnly := true }
    let w := if w.skipOnly then { w with skipPages := w.skipPages + 1 } else { w with pages := w.pages + 1 }
    if w.blocked then .done w
    else match w.jumpTo with
      | some position => .yield { w with
          position
          listFrom := position.atDate
          nextLink := none
          graphNext := some (.date position.atDate)
          jumpTo := none }
      | none =>
        if atBefore < w.position.atDate then
          .yield { w with graphNext := page.nextLink, nextLink := none, listFrom := w.position.atDate }
        else .yield { w with graphNext := page.nextLink, nextLink := page.nextLink }

def Walk.again (w : Walk) : Bool :=
  w.graphNext.isSome && w.pages < MAX_PAGES && w.skipPages < MAX_SKIP_PAGES && w.processed < PAGE_SIZE

/-- What the loop over the mails of a page does not write. -/
structure Walk.Frame (w w₁ : Walk) : Prop where
  errors : w₁.errors = w.errors
  pages : w₁.pages = w.pages
  skipPages : w₁.skipPages = w.skipPages
  listFrom : w₁.listFrom = w.listFrom
  listings : w₁.listings = w.listings
  reads : w₁.reads = w.reads

theorem Walk.Frame.trans {w w₁ w₂ : Walk} (first : w.Frame w₁) (second : w₁.Frame w₂) : w.Frame w₂ where
  errors := second.errors.trans first.errors
  pages := second.pages.trans first.pages
  skipPages := second.skipPages.trans first.skipPages
  listFrom := second.listFrom.trans first.listFrom
  listings := second.listings.trans first.listings
  reads := second.reads.trans first.reads

theorem frame_failed (env : Environment) (m : Message) (error memo : Option Units) (w : Walk) :
    w.Frame (failed env m error memo w).value := by
  unfold failed
  dsimp only
  split_ifs
  · constructor <;> rfl
  · constructor <;> rfl
  · unfold suspected
    dsimp only
    split <;> constructor <;> rfl

theorem frame_systemic (suspect : Suspect) (error : Option Units) (w : Walk) : w.Frame (systemic suspect error w) := by
  unfold systemic
  split_ifs <;> constructor <;> rfl

theorem frame_verdict (suspect : Suspect) (m : Message) (w : Walk) : w.Frame (verdict suspect m w).value := by
  unfold verdict
  split_ifs <;> constructor <;> rfl

theorem frame_readMail (env : Environment) (m : Message) (w : Walk) : w.Frame (readMail env m w).value := by
  unfold readMail
  dsimp only
  split_ifs
  · constructor <;> rfl
  · split
    · exact .trans (by constructor <;> rfl) (frame_systemic _ _ _)
    · exact .trans (by constructor <;> rfl) (frame_failed env m _ _ _)
    · exact .trans (by constructor <;> rfl) (frame_verdict _ m _)
    · constructor <;> rfl
    · constructor <;> rfl
  · constructor <;> rfl

theorem frame_readMails (env : Environment) (mails : List Message) (w : Walk) : w.Frame (forOf (readMail env) mails w) :=
  forOf_keeps (fun m _ _ frame => frame.trans (frame_readMail env m _)) w (by constructor <;> rfl)

/-- Every page that is followed by another one counts. -/
theorem counts_readPage {env : Environment} {w w₁ : Walk} (turn : readPage env w = .yield w₁) :
    w₁.pages + w₁.skipPages = w.pages + w.skipPages + 1 := by
  unfold readPage at turn
  split at turn
  · cases turn
  next page _ =>
    dsimp only at turn
    have frame := frame_readMails env page.scanned { w with
      listings := w.listings + 1
      reads := w.reads ++ [⟨page.scanned, w.position.done⟩]
      skipOnly := true }
    generalize forOf (readMail env) page.scanned _ = w₂ at turn frame
    have pages := frame.pages
    have skipPages := frame.skipPages
    dsimp only at pages skipPages
    split_ifs at turn <;> first | cases turn | (split at turn <;> (cases turn; dsimp only; omega))

/-- The loop over the pages of a tick. -/
def pageLoop (env : Environment) : DoWhile Walk where
  body := readPage env
  again := Walk.again
  left w := MAX_PAGES + MAX_SKIP_PAGES - (w.pages + w.skipPages)
  spends := by
    intro w w₁ turn again
    have counts := counts_readPage turn
    simp only [Walk.again, Bool.and_eq_true, decide_eq_true_eq] at again
    omega

/-- The mails of the second that will not be read, by at most VALVE_COUNT_PAGES pages more. -/
def countRestOfSecond (env : Environment) (listFrom : Int) (done : Finset MailId) (nextSecond : Int) :
    Nat → Nat → Option Link → Nat → Nat × Bool
  | 0, _, _, count => (count, false)
  | _ + 1, _, none, count => (count, false)
  | left + 1, listings, some link, count =>
    match env.list listings listFrom (some link) with
    | none => (count, false)
    | some page =>
      let inSecond := page.scanned.takeWhile fun m => m.date < nextSecond
      let count := count + (inSecond.filter fun m => m.toProcess && decide (m.id ∉ done)).length
      if inSecond.length < page.scanned.length then (count, true)
      else if page.nextLink.isNone then (count, true)
      else countRestOfSecond env listFrom done nextSecond left (listings + 1) page.nextLink count

/-- No later mail has written in this tick: the position reached is kept, and the suspect blocks. -/
def closeSearch (env : Environment) (w : Walk) : Walk :=
  match w.suspect with
  | none => w
  | some suspect =>
    let w := { w with
      keepScan := some ⟨suspect.message.id, w.position, suspect.since⟩
      position := suspect.rollback
      retry := some suspect.record
      suspect := none
      blocked := true }
    if suspect.record.alerted.waiting = false ∧ SUSPECT_ALERT_MS ≤ env.now w.clock - suspect.since then
      { w with
        retry := some { suspect.record with alerted := { suspect.record.alerted with waiting := true } }
        audits := w.audits ++ [.blocked .waiting suspect.message suspect.record none] }
    else w

/-- The mail in failure has been passed or is no longer there. -/
def clearRetry (w : Walk) : Walk :=
  if w.blocked = false ∧ 0 < w.pages + w.skipPages then { w with retry := none } else w

/-- The second is left when the pages of treated mails fill the tick. -/
def valve (env : Environment) (cursor : Int) (w : Walk) : Walk :=
  if w.progressed = false ∧ w.blocked = false ∧ w.graphNext.isSome ∧ MAX_SKIP_PAGES ≤ w.skipPages then
    let nextSecond := w.position.atDate / 1000 * 1000 + 1000
    let (count, exhaustive) :=
      countRestOfSecond env w.listFrom w.position.done nextSecond VALVE_COUNT_PAGES w.listings w.graphNext 0
    { w with
      audits := w.audits ++ [.secondSkipped cursor nextSecond w.position.done.card count exhaustive]
      position := ⟨nextSecond, ∅⟩ }
  else w

def pollMailboxCursor (env : Environment) (s : Saved) : Walk :=
  valve env s.cursor (clearRetry (closeSearch env ((pageLoop env).run (.start s))))

/-- `newCursor` and `newState` -/
def Walk.saved (w : Walk) : Saved :=
  ⟨w.position.atDate, some ⟨w.position, w.retry, w.keepScan.filter fun scan => w.retry.any fun retry => scan.id = retry.id⟩⟩

end Opale.EmailBridge.PollCursor
