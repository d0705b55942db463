import Opale.EmailBridge.Outbox
import Opale.Effects.Ledger
import Opale.Effects.Threads

namespace Opale.EmailBridge

open Sql Outbox

/-- The database, and the history of the messages: the tick that owns the claim of each,
and those that Graph has accepted. -/
structure OutboxWorld where
  store : Store MailDb MailChange MailLock
  accepted : Ledger Nat

/-- A claim that found its row is owned by the tick, until it gives it back. -/
def settle (t : Nat) : (o : SqlOp OutboxStmt) → o.Res OutboxStmt.Ans → Ledger Nat → Ledger Nat
  | .query (.claimForSend id _), some (some _), ledger => ledger.take t id
  | .query (.releaseClaim id), some (), ledger => ledger.letGo id
  | .query (.markFailure id ..), some (), ledger => ledger.letGo id
  | _, _, ledger => ledger

/-- A send either accepts the message or throws without accepting it. -/
def accept (message : PendingMessage) (w : OutboxWorld) : Except GraphError Unit → OutboxWorld → Prop
  | .ok (), w₁ => w₁ = { w with accepted := w.accepted.use message.messageId }
  | .error _, w₁ => w₁ = w

def outboxExec (t : Nat) : (o : OutboxOp) → OutboxWorld → o.Res → OutboxWorld → Prop
  | .sql o, w, answer, w₁ => ∃ store, outboxSchema.exec t o w.store answer store ∧
      w₁ = ⟨store, settle t o answer w.accepted⟩
  | .newDate, w, _, w₁ | .stopRequested, w, _, w₁ | .checkTicketAccess _, w, _, w₁ => w₁ = w
  | .sendReply message .., w, answer, w₁ | .sendMail message .., w, answer, w₁ => accept message w answer w₁

def runs {α : Type} (program : Outbox α) : Outbox Unit := program.bind fun _ => .ret ()

/-- Ticks of any number of worker instances and requests to the two routes. The rest of
the application adds messages and changes tickets and mappings as it likes. -/
def outbox : Threads OutboxOp.Res OutboxWorld where
  exec := outboxExec
  env w w₁ := ∃ db : MailDb, w₁ = { w with store := { w.store with committed := db } } ∧
    ∀ (id : Nat) (m : TicketMessage), w.store.committed.messages[id]? = some m → db.messages[id]? = some m
  entry program := program = runs flushOutbox ∨
    (∃ ticketId msgId, program = runs (sendByMail ticketId msgId)) ∨
    ∃ ticketId msgId, program = runs (retrySendRoute ticketId msgId)
  drop t w := ⟨w.store.close t, w.accepted.drop t⟩

def OutboxStart (w : OutboxWorld) : Prop := w.accepted = .empty

/-- The message is no internal note (any more). -/
def Public (db : MailDb) (id : Nat) : Prop := ∃ m, db.messages[id]? = some m ∧ m.type ≠ .internal_note

/-- The message is claimed by a tick, or sent. -/
def Claimed (db : MailDb) (id : Nat) : Prop :=
  ∃ m, db.messages[id]? = some m ∧ m.type ≠ .internal_note ∧ m.emailSentAt ≠ none ∧ m.outboundFailedAt = none

/-- The UPDATE of send-by-mail does not meet a message that is already a comment and that
a tick has claimed. -/
def ConvertsUnclaimed : Nat → (o : OutboxOp) → OutboxWorld → o.Res → OutboxWorld → Prop
  | _, .sql (.query (.convertToComment id)), w, _, _ => ¬Claimed w.store.committed id
  | _, _, _, _, _ => True

def outboxTeam : Threads.Team OutboxOp.Res OutboxWorld where
  exec t o w answer w₁ := outboxExec t o w answer w₁ ∧ ConvertsUnclaimed t o w answer w₁
  inv w := w.accepted.Valid (Claimed w.store.committed)
  rely t w w₁ := Ledger.Keeps t w.accepted w₁.accepted ∧
    ∀ id, Public w.store.committed id → Public w₁.store.committed id
  guarantee _ _ _ _ _ := True
  idle _ _ := True
  rely_refl t _ := ⟨.refl t _, fun _ shown => shown⟩
  rely_trans _ _ _ _ first second :=
    ⟨first.1.trans second.1, fun id shown => second.2 id (first.2 id shown)⟩

variable {db : MailDb} {t : Nat} {w w₁ : OutboxWorld}

theorem updateMessage_spec {α : Type} (db : MailDb) (id : Nat) (p : TicketMessage → Bool)
    (set : TicketMessage → TicketMessage) (answer : Option TicketMessage → α) :
    ((updateMessage db id p set answer).changes = [] ∧ (updateMessage db id p set answer).answer = answer none) ∨
    ∃ m, db.messages[id]? = some m ∧ p m = true ∧
      (updateMessage db id p set answer).changes = [.message id (set m)] ∧
      (updateMessage db id p set answer).answer = answer (some (set m)) := by
  unfold updateMessage
  split
  · rename_i m found
    split
    · rename_i satisfied
      exact .inr ⟨m, found, satisfied, rfl, rfl⟩
    · exact .inl ⟨rfl, rfl⟩
  · exact .inl ⟨rfl, rfl⟩

def MailDb.setMessage (db : MailDb) (id : Nat) (m : TicketMessage) : MailDb :=
  { db with messages := db.messages.insert id m }

theorem public_setMessage {id other : Nat} {m before : TicketMessage} (found : db.messages[id]? = some before)
    (keeps : before.type ≠ .internal_note → m.type ≠ .internal_note) (shown : Public db other) :
    Public (db.setMessage id m) other := by
  obtain ⟨row, here, type⟩ := shown
  by_cases same : other = id
  · subst same
    cases found.symm.trans here
    exact ⟨m, Table.getElem?_insert_self .., keeps type⟩
  · exact ⟨row, (Table.getElem?_insert_of_ne _ same m).trans here, type⟩

theorem claimed_setMessage {id other : Nat} {m : TicketMessage} (apart : other ≠ id) :
    Claimed (db.setMessage id m) other ↔ Claimed db other := by
  unfold Claimed MailDb.setMessage
  rw [Table.getElem?_insert_of_ne _ apart]

theorem claimed_setMessage_self {id : Nat} {m : TicketMessage} (type : m.type ≠ .internal_note)
    (sent : m.emailSentAt ≠ none) (failed : m.outboundFailedAt = none) : Claimed (db.setMessage id m) id :=
  ⟨m, Table.getElem?_insert_self .., type, sent, failed⟩

theorem claimed_iff {id : Nat} {m : TicketMessage} (found : db.messages[id]? = some m) :
    Claimed db id ↔ m.type ≠ .internal_note ∧ m.emailSentAt ≠ none ∧ m.outboundFailedAt = none := by
  constructor
  · rintro ⟨row, here, claimed⟩
    cases found.symm.trans here
    exact claimed
  · exact fun claimed => ⟨m, found, claimed⟩

/-- The message whose claim a statement may end. -/
def OutboxStmt.frees : OutboxStmt → Option Nat
  | .releaseClaim id | .markFailure id .. | .convertToComment id => some id
  | _ => none

/-- What a statement writes is one row of a message, or no message at all. -/
theorem run_messages {s : OutboxStmt} {draw : OutboxDraw} {out : Outcome MailChange MailLock s.Ans}
    (run : s.run draw db = some out) :
    (outboxSchema.applyAll out.changes db).messages = db.messages ∨
    ∃ id m before, db.messages[id]? = some before ∧
      outboxSchema.applyAll out.changes db = db.setMessage id m ∧
      (before.type ≠ .internal_note → m.type ≠ .internal_note) ∧
      (s.frees = some id ∨ (Claimed db id → Claimed (db.setMessage id m) id)) := by
  have update : ∀ {α : Type} (target : Nat) (p : TicketMessage → Bool) (set : TicketMessage → TicketMessage)
      (answer : Option TicketMessage → α),
      (∀ m, p m = true → db.messages[target]? = some m →
        (m.type ≠ .internal_note → (set m).type ≠ .internal_note) ∧
        (s.frees = some target ∨ ¬Claimed db target)) →
      (outboxSchema.applyAll (updateMessage db target p set answer).changes db).messages = db.messages ∨
      ∃ id m before, db.messages[id]? = some before ∧
        outboxSchema.applyAll (updateMessage db target p set answer).changes db = db.setMessage id m ∧
        (before.type ≠ .internal_note → m.type ≠ .internal_note) ∧
        (s.frees = some id ∨ (Claimed db id → Claimed (db.setMessage id m) id)) := by
    intro α target p set answer kind
    rcases updateMessage_spec db target p set answer with ⟨nothing, -⟩ | ⟨m, found, satisfied, changes, -⟩
    · rw [nothing]
      exact .inl rfl
    · rw [changes]
      obtain ⟨type, free⟩ := kind m satisfied found
      exact .inr ⟨target, set m, m, found, rfl, type, free.imp_right fun free claimed => absurd claimed free⟩
  cases s with
  | getConfig => cases run; exact .inl rfl
  | pickPending limit =>
    obtain ⟨sorted, -, read⟩ := Option.bind_eq_some_iff.mp run
    cases read
    exact .inl rfl
  | loadTicketMappings ticketId =>
    obtain ⟨sorted, -, read⟩ := Option.bind_eq_some_iff.mp run
    cases read
    exact .inl rfl
  | claimForSend id sentAt =>
    cases run
    refine update id _ _ _ fun m satisfied found => ⟨fun type => type, .inr ?_⟩
    rw [claimed_iff found]
    rintro ⟨-, sent, -⟩
    simp only [Bool.and_eq_true, decide_eq_true_eq] at satisfied
    exact sent satisfied.1
  | releaseClaim id =>
    cases run
    exact update id _ _ _ fun m _ _ => ⟨fun type => type, .inl rfl⟩
  | markFailure id attempts error failedAt =>
    cases run
    exact update id _ _ _ fun m _ _ => ⟨fun type => type, .inl rfl⟩
  | selectMessage id ticketId => cases run; exact .inl rfl
  | inboundMapping ticketId => cases run; exact .inl rfl
  | convertToComment id =>
    cases run
    exact update id _ _ _ fun m _ _ => ⟨fun _ => nofun, .inl rfl⟩
  | retrySend id ticketId =>
    cases run
    refine update id _ _ _ fun m satisfied found => ⟨fun type => type, .inr ?_⟩
    rw [claimed_iff found]
    rintro ⟨-, -, failed⟩
    simp only [Bool.and_eq_true, decide_eq_true_eq] at satisfied
    exact satisfied.2 failed
  | touchTicket ticketId =>
    simp only [OutboxStmt.run] at run
    split at run
    · cases run
      exact .inl rfl
    · cases run
      exact .inl rfl

theorem public_run {s : OutboxStmt} {draw : OutboxDraw} {out : Outcome MailChange MailLock s.Ans}
    (run : s.run draw db = some out) {other : Nat} (shown : Public db other) :
    Public (outboxSchema.applyAll out.changes db) other := by
  rcases run_messages run with same | ⟨id, m, before, found, write, type, -⟩
  · unfold Public
    rw [same]
    exact shown
  · rw [write]
    exact public_setMessage found type shown

/-- No statement ends the claim of another message than the one it frees. -/
theorem claimed_run {s : OutboxStmt} {draw : OutboxDraw} {out : Outcome MailChange MailLock s.Ans}
    (run : s.run draw db = some out) {other : Nat} (apart : s.frees ≠ some other) (claimed : Claimed db other) :
    Claimed (outboxSchema.applyAll out.changes db) other := by
  rcases run_messages run with same | ⟨id, m, before, found, write, -, kind⟩
  · unfold Claimed
    rw [same]
    exact claimed
  · rw [write]
    by_cases here : other = id
    · subst here
      rcases kind with frees | keeps
      · exact absurd frees apart
      · exact keeps claimed
    · exact (claimed_setMessage here).mpr claimed

/-- A claim that finds its row meets a message that nothing had claimed. -/
theorem claim_run {id : Nat} {sentAt n : Int} (draw : OutboxDraw) {out : Outcome MailChange MailLock (Option Int)}
    (run : (OutboxStmt.claimForSend id sentAt).run draw db = some out) (answer : out.answer = some n)
    (shown : Public db id) : ¬Claimed db id ∧ Claimed (outboxSchema.applyAll out.changes db) id := by
  cases run
  rcases updateMessage_spec db id (fun m => m.emailSentAt = none && m.outboundFailedAt = none)
    (fun m => { m with emailSentAt := some sentAt }) (·.map (·.outboundAttempts)) with
    ⟨-, nothing⟩ | ⟨m, found, satisfied, changes, -⟩
  · rw [nothing] at answer
    cases answer
  · simp only [Bool.and_eq_true, decide_eq_true_eq] at satisfied
    obtain ⟨row, here, type⟩ := shown
    cases found.symm.trans here
    rw [changes]
    refine ⟨fun claimed => ?_, claimed_setMessage_self type nofun satisfied.2⟩
    rw [claimed_iff found] at claimed
    exact claimed.2.1 satisfied.1

/-- What a tick must know of a message to claim it, or to give its claim back. -/
def Fit (t : Nat) (w : OutboxWorld) : OutboxStmt → Prop
  | .claimForSend id _ => Public w.store.committed id
  | .releaseClaim id | .markFailure id .. => w.accepted.owner id = some t
  | _ => True

/-- One statement of a tick or of a route: nobody but the one who holds a claim ends it. -/
theorem query_kept {s : OutboxStmt} {answer : Option s.Ans} (kept : outboxTeam.inv w) (fit : Fit t w s)
    (run : outboxTeam.exec t (.sql (.query s)) w answer w₁) :
    outboxTeam.inv w₁ ∧ (∀ u, u ≠ t → outboxTeam.rely u w w₁) ∧
      ∀ id, Public w.store.committed id → Public w₁.store.committed id := by
  obtain ⟨⟨store, ⟨draw, out, ran, -, rfl, rfl⟩ | ⟨rfl, rfl⟩, rfl⟩, unclaimed⟩ := run
  case inr =>
    have same : settle t (.query s) none w.accepted = w.accepted := by cases s <;> rfl
    rw [same]
    exact ⟨kept, fun u _ => outboxTeam.rely_refl u w, fun _ shown => shown⟩
  case inl =>
    have shown : ∀ id, Public w.store.committed id →
        Public (outboxSchema.applyAll out.changes w.store.committed) id := fun id => public_run ran
    suffices step : outboxTeam.inv ⟨outboxSchema.publish out.changes w.store,
          settle t (.query s) (some out.answer) w.accepted⟩ ∧ ∀ u, u ≠ t →
        Ledger.Keeps u w.accepted (settle t (.query s) (some out.answer) w.accepted) from
      ⟨step.1, fun u other => ⟨step.2 u other, shown⟩, shown⟩
    have others : ∀ id, s.frees ≠ some id → Claimed w.store.committed id →
        Claimed (outboxSchema.applyAll out.changes w.store.committed) id :=
      fun id apart => claimed_run ran apart
    -- the statements that the history of the claims ignores
    have plain : (∀ id, s.frees = some id → ¬Claimed w.store.committed id) →
        settle t (.query s) (some out.answer) w.accepted = w.accepted →
        outboxTeam.inv ⟨outboxSchema.publish out.changes w.store, settle t (.query s) (some out.answer) w.accepted⟩ ∧
        ∀ u, u ≠ t → Ledger.Keeps u w.accepted (settle t (.query s) (some out.answer) w.accepted) := by
      intro free same
      rw [same]
      refine ⟨kept.mono fun id claimed => others id (fun frees => free id frees claimed) claimed, ?_⟩
      exact fun u _ => .refl u _
    have giveBack : ∀ id, s.frees = some id → w.accepted.owner id = some t →
        settle t (.query s) (some out.answer) w.accepted = w.accepted.letGo id →
        outboxTeam.inv ⟨outboxSchema.publish out.changes w.store, settle t (.query s) (some out.answer) w.accepted⟩ ∧
        ∀ u, u ≠ t → Ledger.Keeps u w.accepted (settle t (.query s) (some out.answer) w.accepted) := by
      intro id frees owns same
      rw [same]
      refine ⟨kept.letGo (kept.owned id t owns).2 fun other claimed apart => ?_, fun u other => ?_⟩
      · refine others other (fun here => ?_) claimed
        rw [frees, Option.some.injEq] at here
        exact apart here.symm
      · refine Ledger.keeps_letGo ?_
        rw [owns]
        exact fun here => other (Option.some.inj here).symm
    cases s with
    | claimForSend id sentAt =>
      cases claim : out.answer with
      | none =>
        rw [claim] at plain
        exact plain nofun rfl
      | some n =>
        obtain ⟨free, claimed⟩ := claim_run draw ran claim fit
        exact ⟨kept.take free (fun other => others other nofun) claimed,
          fun u _ => Ledger.keeps_take (kept.free free)⟩
    | releaseClaim id => exact giveBack id rfl fit rfl
    | markFailure id => exact giveBack id rfl fit rfl
    | convertToComment id =>
      refine plain (fun other frees => ?_) rfl
      cases frees
      exact unclaimed
    | _ => exact plain nofun rfl

theorem claim_owned {id : Nat} {sentAt n : Int}
    (run : outboxTeam.exec t (.sql (.query (.claimForSend id sentAt))) w (some (some n)) w₁) :
    w₁.accepted.owner id = some t := by
  obtain ⟨⟨store, -, rfl⟩, -⟩ := run
  exact Ledger.owner_take_self

theorem picked_public {limit : Nat} {draw : OutboxDraw} {out : Outcome MailChange MailLock (List PendingMessage)}
    (run : (OutboxStmt.pickPending limit).run draw db = some out) {message : PendingMessage}
    (member : message ∈ out.answer) : Public db message.messageId := by
  obtain ⟨sorted, picked, read⟩ := Option.bind_eq_some_iff.mp run
  cases read
  obtain ⟨⟨id, m⟩, inside, rfl⟩ := List.mem_map.mp (List.mem_of_mem_take member)
  obtain ⟨found, pending⟩ := Table.mem_select.mp (Table.mem_orderBy picked inside)
  simp only [isPending, Bool.and_eq_true, decide_eq_true_eq] at pending
  refine ⟨m, found, ?_⟩
  rw [pending.1.1.2]
  exact nofun

/-- Messages that are no internal notes, as the tick has read them. -/
def Shown (ids : List Nat) (w : OutboxWorld) : Prop := ∀ id ∈ ids, Public w.store.committed id

theorem Shown.rely {ids : List Nat} (shown : Shown ids w) (moves : outboxTeam.rely t w w₁) : Shown ids w₁ :=
  fun id member => moves.2 id (shown id member)

section
variable {α : Type} {post : α → OutboxWorld → Prop} {ids : List Nat}

theorem safe_query {s : OutboxStmt} {next : Option s.Ans → Outbox α} (shown : Shown ids w)
    (fit : ∀ w₁, outboxTeam.rely t w w₁ → Fit t w₁ s)
    (later : ∀ w₁ answer w₂, outboxTeam.exec t (.sql (.query s)) w₁ answer w₂ → outboxTeam.inv w₂ →
      Shown ids w₂ → (outboxTeam.rules t).Safe post (next answer) w₂) :
    (outboxTeam.rules t).Safe post (query s >>= next) w := by
  refine Rules.Safe.perform ?_
  intro w₁ moves kept answer w₂ run
  obtain ⟨kept₂, others, still⟩ := query_kept kept (fit w₁ moves) run
  refine ⟨kept₂, ⟨others, trivial⟩, later w₁ answer w₂ run kept₂ fun id member => ?_⟩
  exact still id (shown.rely moves id member)

/-- An operation that changes nothing. -/
theorem safe_read {o : OutboxOp} {next : o.Res → Outbox α}
    (quiet : ∀ w answer w₁, outboxExec t o w answer w₁ → w₁ = w)
    (later : ∀ answer w₁, outboxTeam.rely t w w₁ → (outboxTeam.rules t).Safe post (next answer) w₁) :
    (outboxTeam.rules t).Safe post (perform o >>= next) w := by
  refine Rules.Safe.perform ?_
  intro w₁ moves kept answer w₂ run
  have same := quiet w₁ answer w₂ run.1
  subst same
  exact ⟨kept, ⟨fun u _ => outboxTeam.rely_refl u w₂, trivial⟩, later answer w₂ moves⟩

theorem safe_shown (shown : Shown ids w) (value : α) :
    (outboxTeam.rules t).Safe (fun _ => Shown ids) (.ret value) w :=
  fun _ moves _ => shown.rely moves

end

/-- What a tick knows while it sends: it owns the claim as long as Graph has not accepted. -/
def Sending (t : Nat) (ids : List Nat) (message : PendingMessage) (result : Except GraphError Unit)
    (w : OutboxWorld) : Prop :=
  Shown ids w ∧ ∀ err, result = .error err → w.accepted.owner message.messageId = some t

/-- One call to Graph for a message whose claim the tick owns. -/
theorem accept_kept {message : PendingMessage} {answer : Except GraphError Unit} (kept : outboxTeam.inv w)
    (owns : w.accepted.owner message.messageId = some t) (sent : accept message w answer w₁) :
    outboxTeam.inv w₁ ∧ (∀ u, u ≠ t → outboxTeam.rely u w w₁) ∧ w₁.store = w.store ∧
      ∀ err, answer = .error err → w₁ = w := by
  cases answer with
  | ok =>
    cases sent
    refine ⟨kept.use owns, fun u other => ⟨Ledger.keeps_use ?_, fun _ shown => shown⟩, rfl, nofun⟩
    rw [owns]
    exact fun here => other (Option.some.inj here).symm
  | error err =>
    cases sent
    exact ⟨kept, fun u _ => outboxTeam.rely_refl u w, rfl, fun _ _ => rfl⟩

theorem safe_attemptSend {ids : List Nat} {mappings : List EmailThreadMapping} {message : PendingMessage}
    {sender recipient : String} (shown : Shown ids w) (owns : w.accepted.owner message.messageId = some t) :
    (outboxTeam.rules t).Safe (Sending t ids message) (attemptSend mappings message sender recipient) w := by
  have fresh : ∀ w, Shown ids w → w.accepted.owner message.messageId = some t →
      (outboxTeam.rules t).Safe (Sending t ids message) (sendNew mappings message sender recipient) w := by
    intro w shown owns w₁ moves kept answer w₂ run
    obtain ⟨kept₂, others, store, same⟩ := accept_kept kept (moves.1 _ owns) run.1
    refine ⟨kept₂, ⟨others, trivial⟩, fun w₃ moves₃ _ => ⟨?_, fun err failed => ?_⟩⟩
    · refine Shown.rely (fun id member => ?_) moves₃
      rw [store]
      exact shown.rely moves id member
    · cases same err failed
      exact moves₃.1 _ (moves.1 _ owns)
  unfold attemptSend
  split
  · refine Rules.Safe.perform ?_
    intro w₁ moves kept answer w₂ run
    obtain ⟨kept₂, others, store, same⟩ := accept_kept kept (moves.1 _ owns) run.1
    refine ⟨kept₂, ⟨others, trivial⟩, ?_⟩
    have shown₂ : Shown ids w₂ := by
      intro id member
      rw [store]
      exact shown.rely moves id member
    cases answer with
    | ok => exact fun w₃ moves₃ _ => ⟨shown₂.rely moves₃, nofun⟩
    | error err =>
      cases same err rfl
      dsimp only
      split
      · exact fresh w₁ shown₂ (moves.1 _ owns)
      · exact fun w₃ moves₃ _ => ⟨shown₂.rely moves₃, fun _ _ => moves₃.1 _ (moves.1 _ owns)⟩
  · exact fresh w shown owns

theorem safe_markFailure {ids : List Nat} {messageId : Nat} {attempts : Int} {errMsg : List Char}
    (kept : outboxTeam.inv w) (shown : Shown ids w) (owns : w.accepted.owner messageId = some t) :
    (outboxTeam.rules t).Safe (fun _ => Shown ids) (markFailure messageId attempts errMsg) w := by
  have dated : ∀ deadLetter, (outboxTeam.rules t).Safe
      (fun _ w₁ => Shown ids w₁ ∧ w₁.accepted.owner messageId = some t) (failureDate deadLetter) w := by
    intro deadLetter
    unfold failureDate
    split
    · refine safe_read (fun _ _ _ same => same) fun date w₁ moves w₂ moves₂ _ => ?_
      exact ⟨(shown.rely moves).rely moves₂, moves₂.1 _ (moves.1 _ owns)⟩
    · exact fun w₁ moves _ => ⟨shown.rely moves, moves.1 _ owns⟩
  unfold markFailure
  refine (dated _).bind kept fun failedAt w₁ _ known => ?_
  refine safe_query known.1 (fun w₂ moves => moves.1 _ known.2) fun _ answer w₂ _ _ shown₂ => ?_
  cases answer <;> exact safe_shown shown₂ _

theorem safe_sendFailed {ids : List Nat} {message : PendingMessage} {attempts : Int} {err : GraphError}
    (kept : outboxTeam.inv w) (shown : Shown ids w) (owns : w.accepted.owner message.messageId = some t) :
    (outboxTeam.rules t).Safe (fun _ => Shown ids) (sendFailed message attempts err) w := by
  unfold sendFailed
  split
  · refine safe_query shown (fun _ moves => moves.1 _ owns) fun _ answer w₁ _ _ shown₁ => ?_
    cases answer <;> exact safe_shown shown₁ _
  · refine (safe_markFailure kept shown owns).bind kept fun deadLetter w₁ _ shown₁ => ?_
    cases deadLetter <;> exact safe_shown shown₁ _

theorem safe_sendOne {ids : List Nat} {message : PendingMessage} {sender : String} (shown : Shown ids w)
    (listed : message.messageId ∈ ids) :
    (outboxTeam.rules t).Safe (fun _ => Shown ids) (sendOne message sender) w := by
  unfold sendOne
  refine safe_query shown (fun _ _ => trivial) fun _ mappings w₁ _ _ shown₁ => ?_
  cases mappings with
  | none => exact safe_shown shown₁ _
  | some mappings =>
    dsimp only
    split
    · exact safe_shown shown₁ _
    refine safe_read (fun _ _ _ same => same) fun sentAt w₂ moves₂ => ?_
    have shown₂ := shown₁.rely moves₂
    refine safe_query shown₂ (fun _ moves₃ => shown₂.rely moves₃ _ listed) fun _ claim w₃ run kept₃ shown₃ => ?_
    match claim with
    | none => exact safe_shown shown₃ _
    | some none => exact safe_shown shown₃ _
    | some (some attempts) =>
      refine (safe_attemptSend shown₃ (claim_owned run)).bind kept₃ fun result w₄ kept₄ sending => ?_
      cases result with
      | ok => exact safe_shown sending.1 _
      | error err => exact safe_sendFailed kept₄ sending.1 (sending.2 err rfl)

theorem safe_flushPending {ids : List Nat} {sender : String} (pending : List PendingMessage)
    (kept : outboxTeam.inv w) (shown : Shown ids w) (listed : ∀ message ∈ pending, message.messageId ∈ ids) :
    (outboxTeam.rules t).Safe (fun _ => Shown ids) (flushPending sender pending) w := by
  induction pending generalizing w with
  | nil => exact safe_shown shown _
  | cons message rest ih =>
    refine Rules.Safe.perform ?_
    rintro w₁ moves kept₁ stop _ ⟨rfl, -⟩
    refine ⟨kept₁, ⟨fun u _ => outboxTeam.rely_refl u _, trivial⟩, ?_⟩
    have shown₁ := shown.rely moves
    split
    · exact safe_shown shown₁ _
    · refine (safe_sendOne shown₁ (listed _ List.mem_cons_self)).bind kept₁ fun result w₂ kept₂ shown₂ => ?_
      refine (ih kept₂ shown₂ fun m member => listed m (List.mem_cons_of_mem _ member)).bind kept₂ ?_
      exact fun _ _ _ shown₃ => safe_shown shown₃ _

theorem safe_flushOutbox : (outboxTeam.rules t).Safe (fun _ => Shown []) flushOutbox w := by
  have nothing : ∀ w, Shown [] w := fun _ _ member => absurd member List.not_mem_nil
  unfold flushOutbox
  refine safe_query (nothing w) (fun _ _ => trivial) fun _ cfg w₁ _ _ _ => ?_
  cases cfg with
  | none => exact safe_shown (nothing _) _
  | some cfg =>
    dsimp only
    split
    · exact safe_shown (nothing _) _
    split
    · exact safe_shown (nothing _) _
    refine safe_query (nothing _) (fun _ _ => trivial) fun w₂ pending w₃ run kept₃ _ => ?_
    cases pending with
    | none => exact safe_shown (nothing _) _
    | some pending =>
      obtain ⟨⟨store, ⟨draw, out, ran, -, answer, published⟩ | ⟨none_, -⟩, rfl⟩, -⟩ := run
      case inr => cases none_
      cases answer
      have picked : Shown (out.answer.map (·.messageId)) ⟨store, w₂.accepted⟩ := by
        intro id member
        obtain ⟨message, inside, rfl⟩ := List.mem_map.mp member
        subst published
        exact @public_run _ (.pickPending MAX_BATCH) draw out ran _ (picked_public ran inside)
      refine (safe_flushPending out.answer kept₃ picked fun m member => List.mem_map_of_mem member).bind kept₃ ?_
      exact fun _ _ _ _ => safe_shown (nothing _) _

theorem safe_touchAndReply {ticketId : Nat} {row : Option TicketMessage} :
    (outboxTeam.rules t).Safe (fun _ => Shown []) (touchAndReply ticketId row) w := by
  refine safe_query (fun _ member => absurd member List.not_mem_nil) (fun _ _ => trivial) ?_
  intro _ answer w₁ _ _ shown
  cases answer <;> exact safe_shown shown _

theorem safe_sendByMail {ticketId msgId : Nat} :
    (outboxTeam.rules t).Safe (fun _ => Shown []) (sendByMail ticketId msgId) w := by
  have nothing : ∀ w, Shown [] w := fun _ _ member => absurd member List.not_mem_nil
  unfold sendByMail
  refine safe_read (fun _ _ _ same => same) fun acl w₁ _ => ?_
  split
  · refine safe_query (nothing _) (fun _ _ => trivial) fun _ found w₂ _ _ _ => ?_
    match found with
    | none => exact safe_shown (nothing _) _
    | some none => exact safe_shown (nothing _) _
    | some (some row) =>
      dsimp only
      split
      · exact safe_shown (nothing _) _
      refine safe_query (nothing _) (fun _ _ => trivial) fun _ origin w₃ _ _ _ => ?_
      match origin with
      | none => exact safe_shown (nothing _) _
      | some false => exact safe_shown (nothing _) _
      | some true =>
        refine safe_query (nothing _) (fun _ _ => trivial) fun _ converted w₄ _ _ _ => ?_
        cases converted with
        | none => exact safe_shown (nothing _) _
        | some row => exact safe_touchAndReply
  · exact safe_shown (nothing _) _

theorem safe_retrySendRoute {ticketId msgId : Nat} :
    (outboxTeam.rules t).Safe (fun _ => Shown []) (retrySendRoute ticketId msgId) w := by
  have nothing : ∀ w, Shown [] w := fun _ _ member => absurd member List.not_mem_nil
  unfold retrySendRoute
  refine safe_read (fun _ _ _ same => same) fun acl w₁ _ => ?_
  split
  · refine safe_query (nothing _) (fun _ _ => trivial) fun _ found w₂ _ _ _ => ?_
    match found with
    | none => exact safe_shown (nothing _) _
    | some none => exact safe_shown (nothing _) _
    | some (some row) => exact safe_touchAndReply
  · exact safe_shown (nothing _) _

theorem safe_runs {α : Type} {program : Outbox α} (kept : outboxTeam.inv w)
    (safe : (outboxTeam.rules t).Safe (fun _ => Shown []) program w) : outboxTeam.Safe t (runs program) w :=
  safe.bind kept fun _ _ _ _ _ _ _ => trivial

theorem outbox_verified : (outbox.restrict ConvertsUnclaimed).Verified outboxTeam where
  exec run := run
  env := by
    rintro w _ kept ⟨db, rfl, same⟩
    refine ⟨kept.mono ?_, fun t => ⟨.refl t _, ?_⟩⟩
    · rintro id ⟨m, found, claimed⟩
      exact ⟨m, same id m found, claimed⟩
    · rintro id ⟨m, found, type⟩
      exact ⟨m, same id m found, type⟩
  entry := by
    rintro _ t w (rfl | ⟨ticketId, msgId, rfl⟩ | ⟨ticketId, msgId, rfl⟩) kept _
    · exact safe_runs kept safe_flushOutbox
    · exact safe_runs kept safe_sendByMail
    · exact safe_runs kept safe_retrySendRoute
  drop {t w} kept :=
    ⟨kept.drop t, fun _ _ _ => trivial, fun u other => ⟨Ledger.keeps_drop other, fun _ shown => shown⟩⟩

theorem outboxStart_inv (w : OutboxWorld) (start : OutboxStart w) :
    outboxTeam.inv w ∧ ∀ t w₁, outboxTeam.rely t w w₁ → outboxTeam.inv w₁ → outboxTeam.idle t w₁ := by
  refine ⟨?_, fun _ _ _ _ => trivial⟩
  unfold OutboxStart at start
  change w.accepted.Valid _
  rw [start]
  exact Ledger.valid_empty

/-- However the ticks and the two routes interleave, Graph accepts a message at most once,
as long as send-by-mail does not take a claimed comment for the internal note it was. -/
theorem sent_once {c : Threads.Config OutboxOp.Res OutboxWorld}
    (reach : (outbox.restrict ConvertsUnclaimed).Reach OutboxStart c) : c.world.accepted.used.Nodup :=
  (reach.inv outbox_verified outboxStart_inv).once

/-! A ticket opened by mail, with one internal note. -/

def demoNote : TicketMessage := ⟨1, .internal_note, "Admin", "Bonjour", 10, some 10, 0, none, none, none⟩

def demoMapping : EmailThreadMapping :=
  ⟨"<a@x>", none, some "AAMk", "it@x", .inbound, some "u@x", some "Panne", some 5, 5, some 1, none, none, none⟩

/-- The database with this row as the only message. -/
def demoMail (m : TicketMessage) : MailDb :=
  ⟨(∅ : Table _).insert 7 m, (∅ : Table _).insert 3 demoMapping, (∅ : Table _).insert 1 ⟨"Panne", 20⟩⟩

def demoComment : TicketMessage := { demoNote with type := .comment, emailSentAt := none }

def demoOutbox (m : TicketMessage) (accepted : Ledger Nat) : OutboxWorld := ⟨.start (demoMail m), accepted⟩

def demoDraw (order : List Nat) : OutboxDraw := ⟨⟨true, "it@x", ""⟩, 20, order⟩

variable {cond : Nat → (o : OutboxOp) → OutboxWorld → o.Res → OutboxWorld → Prop}

/-- Two clicks have read the internal note, and the first has converted it. -/
theorem demo_clicked
    (meets : ∀ t o w answer w₁, (∀ id, o ≠ .sql (.query (.convertToComment id))) → cond t o w answer w₁)
    (converts : ∀ answer w₁, cond 0 (.sql (.query (.convertToComment 7))) (demoOutbox demoNote .empty) answer w₁) :
    ∃ runs rest, runs 2 = .ret () ∧ runs 1 = .op (.sql (.query (.convertToComment 7))) rest ∧
      (outbox.restrict cond).Reach OutboxStart ⟨demoOutbox demoComment .empty, runs⟩ := by
  have r := (show (outbox.restrict cond).Reach OutboxStart ⟨demoOutbox demoNote .empty, fun _ => .ret ()⟩ from
    .init rfl)
  have r := r.begins 0 (runs (sendByMail 1 7)) rfl (.inr (.inl ⟨_, _, rfl⟩))
  have r := r.begins 1 (runs (sendByMail 1 7)) rfl (.inr (.inl ⟨_, _, rfl⟩))
  have r := r.perform 0 rfl true (demoOutbox demoNote .empty) ⟨rfl, meets _ _ _ _ _ nofun⟩
  have r := r.perform 1 rfl true (demoOutbox demoNote .empty) ⟨rfl, meets _ _ _ _ _ nofun⟩
  have r := r.perform 0 rfl (some (some demoNote)) (demoOutbox demoNote .empty)
    ⟨⟨_, .inl ⟨demoDraw [], _, rfl, fun _ _ => .inl rfl, rfl, rfl⟩, rfl⟩, meets _ _ _ _ _ nofun⟩
  have r := r.perform 1 rfl (some (some demoNote)) (demoOutbox demoNote .empty)
    ⟨⟨_, .inl ⟨demoDraw [], _, rfl, fun _ _ => .inl rfl, rfl, rfl⟩, rfl⟩, meets _ _ _ _ _ nofun⟩
  have r := r.perform 0 rfl (some true) (demoOutbox demoNote .empty)
    ⟨⟨_, .inl ⟨demoDraw [], _, rfl, fun _ _ => .inl rfl, rfl, rfl⟩, rfl⟩, meets _ _ _ _ _ nofun⟩
  have r := r.perform 1 rfl (some true) (demoOutbox demoNote .empty)
    ⟨⟨_, .inl ⟨demoDraw [], _, rfl, fun _ _ => .inl rfl, rfl, rfl⟩, rfl⟩, meets _ _ _ _ _ nofun⟩
  have r := r.perform 0 rfl (some (some demoComment)) (demoOutbox demoComment .empty)
    ⟨⟨_, .inl ⟨demoDraw [], _, rfl, fun _ _ => .inl rfl, rfl, rfl⟩, rfl⟩, converts _ _⟩
  have r := r.perform 0 rfl (some ()) (demoOutbox demoComment .empty)
    ⟨⟨_, .inl ⟨demoDraw [], _, rfl, fun _ _ => .inl rfl, rfl, rfl⟩, rfl⟩, meets _ _ _ _ _ nofun⟩
  exact ⟨_, _, rfl, rfl, r⟩

/-- A tick that sends the comment. -/
theorem demo_flushed {runs : Nat → Outbox Unit} {accepted : Ledger Nat}
    (meets : ∀ t o w answer w₁, (∀ id, o ≠ .sql (.query (.convertToComment id))) → cond t o w answer w₁)
    (idle : runs 2 = .ret ())
    (reach : (outbox.restrict cond).Reach OutboxStart ⟨demoOutbox demoComment accepted, runs⟩) :
    ∃ runs₁, runs₁ 1 = runs 1 ∧ runs₁ 2 = .ret () ∧ (outbox.restrict cond).Reach OutboxStart
      ⟨demoOutbox { demoComment with emailSentAt := some 30 } ((accepted.take 2 7).use 7), runs₁⟩ := by
  have r := reach.begins 2 (EmailBridge.runs flushOutbox) idle (.inl rfl)
  have r := r.perform 2 rfl (some ⟨true, "it@x", ""⟩) (demoOutbox demoComment accepted)
    ⟨⟨_, .inl ⟨demoDraw [], _, rfl, fun _ _ => .inl rfl, rfl, rfl⟩, rfl⟩, meets _ _ _ _ _ nofun⟩
  have r := r.perform 2 rfl (some [⟨7, 1, "Admin", "Bonjour", 10, 0, "Panne"⟩]) (demoOutbox demoComment accepted)
    ⟨⟨_, .inl ⟨demoDraw [7], _, rfl, fun _ _ => .inl rfl, rfl, rfl⟩, rfl⟩, meets _ _ _ _ _ nofun⟩
  have r := r.perform 2 rfl false (demoOutbox demoComment accepted) ⟨rfl, meets _ _ _ _ _ nofun⟩
  have r := r.perform 2 rfl (some [demoMapping]) (demoOutbox demoComment accepted)
    ⟨⟨_, .inl ⟨demoDraw [3], _, rfl, fun _ _ => .inl rfl, rfl, rfl⟩, rfl⟩, meets _ _ _ _ _ nofun⟩
  have r := r.perform 2 rfl (30 : Int) (demoOutbox demoComment accepted) ⟨rfl, meets _ _ _ _ _ nofun⟩
  have r := r.perform 2 rfl (some (some 0))
    (demoOutbox { demoComment with emailSentAt := some 30 } (accepted.take 2 7))
    ⟨⟨_, .inl ⟨demoDraw [], _, rfl, fun _ _ => .inl rfl, rfl, rfl⟩, rfl⟩, meets _ _ _ _ _ nofun⟩
  have r := r.perform 2 rfl (.ok ())
    (demoOutbox { demoComment with emailSentAt := some 30 } ((accepted.take 2 7).use 7))
    ⟨rfl, meets _ _ _ _ _ nofun⟩
  exact ⟨_, by rfl, by rfl, r⟩

/-- A note converted once and sent once. -/
theorem sent_once_note : ∃ c : Threads.Config OutboxOp.Res OutboxWorld,
    c.world.accepted.used = [7] ∧ c.world.accepted.used.Nodup := by
  have meets : ∀ t o w answer w₁, (∀ id, o ≠ .sql (.query (.convertToComment id))) →
      ConvertsUnclaimed t o w answer w₁ := by
    intro t o w answer w₁ other
    unfold ConvertsUnclaimed
    split
    · exact absurd rfl (other _)
    · trivial
  have unclaimed : ¬Claimed (demoMail demoNote) 7 := by
    rintro ⟨m, found, type, -⟩
    cases (show some demoNote = some m from found)
    exact type rfl
  obtain ⟨runs, rest, idle, -, r⟩ := demo_clicked meets fun _ _ => unclaimed
  obtain ⟨runs₁, -, -, r⟩ := demo_flushed meets idle r
  exact ⟨_, rfl, sent_once r⟩

/-- The second click converts the message again although it has been sent meanwhile. -/
theorem sent_twice : ¬∀ c : Threads.Config OutboxOp.Res OutboxWorld,
    outbox.Reach OutboxStart c → c.world.accepted.used.Nodup := by
  intro once
  obtain ⟨runs, rest, idle, second, r⟩ :=
    @demo_clicked (fun _ _ _ _ _ => True) (fun _ _ _ _ _ _ => trivial) fun _ _ => trivial
  obtain ⟨runs₁, same, idle, r⟩ := demo_flushed (fun _ _ _ _ _ _ => trivial) idle r
  have r := r.perform 1 (same.trans second) (some (some demoComment))
    (demoOutbox demoComment ((Ledger.empty.take 2 7).use 7))
    ⟨⟨_, .inl ⟨demoDraw [], _, rfl, fun _ _ => .inl rfl, rfl, rfl⟩, rfl⟩, trivial⟩
  obtain ⟨runs₂, -, -, r⟩ := demo_flushed (fun _ _ _ _ _ _ => trivial)
    ((Function.update_of_ne (by decide) ..).trans idle) r
  have twice : [7, 7].Nodup := once _ r.of_restrict
  exact absurd twice (by decide)

end Opale.EmailBridge
