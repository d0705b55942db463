import Opale.EmailBridge.SentOnce

namespace Opale.EmailBridge

open Sql Outbox

/-- The history of a message: the tick that holds its claim, how many of its sends have failed since its last
reset, whether the tick has yet to record the last one, and how many nobody will record any more, because the
statement that had to do it has thrown or the process has died. -/
structure SendHistory where
  holder : Option Nat
  failures : Nat
  unrecorded : Bool
  lost : Nat

def SendHistory.fresh : SendHistory := ⟨none, 0, false, 0⟩

def SendHistory.claimed (t : Nat) (h : SendHistory) : SendHistory := { h with holder := some t }

def SendHistory.released (h : SendHistory) : SendHistory := { h with holder := none }

def SendHistory.failed (h : SendHistory) : SendHistory := { h with failures := h.failures + 1, unrecorded := true }

def SendHistory.recorded (h : SendHistory) : SendHistory := { h with holder := none, unrecorded := false }

/-- The tick will not come back to the message. -/
def SendHistory.abandoned (h : SendHistory) : SendHistory :=
  ⟨none, h.failures, false, h.lost + h.unrecorded.toNat⟩

structure AccountWorld where
  store : Store MailDb MailChange MailLock
  history : Nat → SendHistory

def AccountWorld.message (w : AccountWorld) (id : Nat) : Option TicketMessage := w.store.committed.messages[id]?

/-- What a statement adds to the history of its message. -/
def account (t : Nat) : (s : OutboxStmt) → Option s.Ans → (Nat → SendHistory) → Nat → SendHistory
  | .claimForSend id _, some (some _), history => Function.update history id (history id |>.claimed t)
  | .releaseClaim id, some (), history => Function.update history id (history id).released
  | .markFailure id .., some (), history => Function.update history id (history id).recorded
  | .markFailure id .., none, history => Function.update history id (history id).abandoned
  | .retrySend id _, some (some _), history => Function.update history id .fresh
  | _, _, history => history

/-- A send that fails, unless the stop of the API has interrupted it before Graph accepted anything, or a fresh
mail takes its place. -/
def failedSend (message : PendingMessage) (fallback : GraphError → Bool) (history : Nat → SendHistory) :
    Except GraphError Unit → Nat → SendHistory
  | .ok () => history
  | .error err =>
    if fallback err || err.retryAborted then history
    else Function.update history message.messageId (history message.messageId).failed

def accountExec (t : Nat) : (o : OutboxOp) → AccountWorld → o.Res → AccountWorld → Prop
  | .sql (.query s), w, answer, w₁ => ∃ store, outboxSchema.exec t (.query s) w.store answer store ∧
      w₁ = ⟨store, account t s answer w.history⟩
  | .sql o, w, answer, w₁ => ∃ store, outboxSchema.exec t o w.store answer store ∧ w₁ = ⟨store, w.history⟩
  | .newDate, w, _, w₁ | .stopRequested, w, _, w₁ | .checkTicketAccess _, w, _, w₁ => w₁ = w
  | .sendReply message .., w, answer, w₁ => w₁ = { w with history := failedSend message isCreateReply404 w.history answer }
  | .sendMail message .., w, answer, w₁ => w₁ = { w with history := failedSend message (fun _ => false) w.history answer }

/-- The rest of the application adds messages, with the defaults of the columns of the outbox, and leaves these
columns of the others. -/
structure LeavesOutbox (db db₁ : MailDb) : Prop where
  kept : ∀ (id : Nat) (m : TicketMessage), db.messages[id]? = some m → ∃ m₁ : TicketMessage, db₁.messages[id]? = some m₁ ∧
    m₁.emailSentAt = m.emailSentAt ∧ m₁.outboundAttempts = m.outboundAttempts ∧ m₁.outboundFailedAt = m.outboundFailedAt
  added : ∀ (id : Nat) (m : TicketMessage), db.messages[id]? = none → db₁.messages[id]? = some m →
    m.outboundAttempts = 0 ∧ m.outboundFailedAt = none

/-- Ticks of any number of worker instances and retry-send requests. -/
def accounts : Threads OutboxOp.Res AccountWorld where
  exec := accountExec
  env w w₁ := ∃ db, w₁ = { w with store := { w.store with committed := db } } ∧ LeavesOutbox w.store.committed db
  entry program := program = runs flushOutbox ∨ ∃ ticketId msgId, program = runs (retrySendRoute ticketId msgId)
  drop t w := ⟨w.store.close t, fun id => if (w.history id).holder = some t then (w.history id).abandoned else w.history id⟩

/-- No message has been tried yet. -/
def AccountStart (w : AccountWorld) : Prop :=
  w.history = (fun _ => .fresh) ∧ ∀ id m, w.message id = some m → m.outboundAttempts = 0 ∧ m.outboundFailedAt = none

/-- The counter of a message beside its history. -/
structure Counted (m : TicketMessage) (h : SendHistory) : Prop where
  counter : m.outboundAttempts + h.unrecorded.toNat + h.lost = h.failures
  bound : m.outboundAttempts ≤ MAX_ATTEMPTS
  dead : m.outboundFailedAt ≠ none ↔ m.outboundAttempts = MAX_ATTEMPTS
  claimed : h.holder ≠ none ∨ h.unrecorded = true ∨ h.lost ≠ 0 → m.emailSentAt ≠ none ∧ m.outboundFailedAt = none
  held : h.unrecorded = true → h.holder ≠ none
  whole : h.holder ≠ none → h.lost = 0

def Accounted (w : AccountWorld) : Prop :=
  ∀ id, match w.message id with
    | some m => Counted m (w.history id)
    | none => w.history id = .fresh

/-- The operation picks the message for a send, claims it or sends it. -/
def Picks : (o : OutboxOp) → o.Res → Nat → Prop
  | .sql (.query (.pickPending _)), some pending, id => ∃ message ∈ pending, message.messageId = id
  | .sql (.query (.claimForSend claimed _)), some (some _), id => claimed = id
  | .sendReply message .., _, id | .sendMail message .., _, id => message.messageId = id
  | _, _, _ => False

/-- A dead letter is not picked, and stays one unless retry-send resets it; no statement but the record of a
failure and retry-send changes a counter. -/
structure Stays (o : OutboxOp) (w : AccountWorld) (answer : o.Res) (w₁ : AccountWorld) : Prop where
  unpicked : ∀ id m, w.message id = some m → m.outboundFailedAt ≠ none → ¬Picks o answer id
  dead : ∀ id m, w.message id = some m → m.outboundFailedAt ≠ none →
    (∀ ticketId, o ≠ .sql (.query (.retrySend id ticketId))) → w₁.message id = some m
  counter : ∀ id m, w.message id = some m → (∀ ticketId, o ≠ .sql (.query (.retrySend id ticketId))) →
    (∀ attempts error failedAt, o ≠ .sql (.query (.markFailure id attempts error failedAt))) →
    ∃ m₁, w₁.message id = some m₁ ∧ m₁.outboundAttempts = m.outboundAttempts ∧ m₁.outboundFailedAt = m.outboundFailedAt

/-- The tick has recorded the failed sends of all the messages it holds, but perhaps of one. -/
def RecordedBut (t : Nat) (but : Option Nat) (w : AccountWorld) : Prop :=
  ∀ id, some id ≠ but → (w.history id).holder = some t → (w.history id).unrecorded = false

def accountTeam : Threads.Team OutboxOp.Res AccountWorld where
  exec := accountExec
  inv := Accounted
  rely t w w₁ := ∀ id, ((w.history id).holder = some t ∨ (w₁.history id).holder = some t → w₁.history id = w.history id) ∧
    ((w.history id).holder = some t → ∀ m, w.message id = some m →
      ∃ m₁, w₁.message id = some m₁ ∧ m₁.outboundAttempts = m.outboundAttempts)
  guarantee _ o w answer w₁ := Stays o w answer w₁
  idle t w := RecordedBut t none w
  rely_refl _ _ _ := ⟨fun _ => rfl, fun _ m found => ⟨m, found, rfl⟩⟩
  rely_trans t a b c first second id := by
    constructor
    · rintro (holds | holds)
      · have same := (first id).1 (.inl holds)
        exact ((second id).1 (.inl (same ▸ holds))).trans same
      · have same := (second id).1 (.inr holds)
        exact same.trans ((first id).1 (.inr (same ▸ holds)))
    · intro holds m found
      obtain ⟨m₁, found₁, attempts₁⟩ := (first id).2 holds m found
      obtain ⟨m₂, found₂, attempts₂⟩ := (second id).2 ((first id).1 (.inl holds) ▸ holds) m₁ found₁
      exact ⟨m₂, found₂, attempts₂.trans attempts₁⟩

section Rows

variable {db : MailDb} {draw : OutboxDraw}

/-- An UPDATE of one message finds no row, or writes the one it finds. -/
theorem updateMessage_cases {α : Type} (db : MailDb) (id : Nat) (p : TicketMessage → Bool)
    (set : TicketMessage → TicketMessage) (answer : Option TicketMessage → α) :
    ((∀ m, db.messages[id]? = some m → p m = false) ∧ (updateMessage db id p set answer).answer = answer none ∧
      outboxSchema.applyAll (updateMessage db id p set answer).changes db = db) ∨
    ∃ m, db.messages[id]? = some m ∧ p m = true ∧ (updateMessage db id p set answer).answer = answer (some (set m)) ∧
      outboxSchema.applyAll (updateMessage db id p set answer).changes db = db.setMessage id (set m) := by
  unfold updateMessage
  cases found : db.messages[id]? with
  | none => exact .inl ⟨nofun, rfl, rfl⟩
  | some m =>
    by_cases satisfied : p m = true
    · simp only [if_pos satisfied]
      exact .inr ⟨m, rfl, satisfied, rfl, rfl⟩
    · simp only [if_neg satisfied]
      refine .inl ⟨fun other same => ?_, trivial, rfl⟩
      cases same
      exact Bool.eq_false_iff.mpr satisfied

/-- The message that a statement writes. -/
def OutboxStmt.writes : OutboxStmt → Option Nat
  | .claimForSend id _ | .releaseClaim id | .markFailure id .. | .retrySend id _ | .convertToComment id => some id
  | _ => none

theorem rows_of_run {s : OutboxStmt} {out : Outcome MailChange MailLock s.Ans} (run : s.run draw db = some out)
    {other : Nat} (apart : s.writes ≠ some other) :
    (outboxSchema.applyAll out.changes db).messages[other]? = db.messages[other]? := by
  have update {α : Type} {target : Nat} (p : TicketMessage → Bool) (set : TicketMessage → TicketMessage)
      (answer : Option TicketMessage → α) (apart : some target ≠ some other) :
      (outboxSchema.applyAll (updateMessage db target p set answer).changes db).messages[other]? =
        db.messages[other]? := by
    obtain ⟨-, -, same⟩ | ⟨m, -, -, -, same⟩ := updateMessage_cases db target p set answer
    · rw [same]
    · rw [same]
      exact Table.getElem?_insert_of_ne _ (fun here => apart (congrArg some here.symm)) _
  cases s with
  | getConfig | selectMessage | inboundMapping =>
    cases run
    rfl
  | pickPending | loadTicketMappings =>
    obtain ⟨sorted, -, read⟩ := Option.bind_eq_some_iff.mp run
    cases read
    rfl
  | claimForSend | releaseClaim | markFailure | convertToComment | retrySend =>
    cases run
    exact update _ _ _ apart
  | touchTicket ticketId =>
    simp only [OutboxStmt.run] at run
    split at run
    · cases run
      rfl
    · cases run
      rfl

end Rows

variable {t : Nat} {w w₁ : AccountWorld}

def AccountedAt (w : AccountWorld) (id : Nat) : Prop :=
  match w.message id with
  | some m => Counted m (w.history id)
  | none => w.history id = .fresh

theorem AccountedAt.counted {id : Nat} {m : TicketMessage} (kept : AccountedAt w id) (found : w.message id = some m) :
    Counted m (w.history id) := by
  rw [AccountedAt, found] at kept
  exact kept

theorem AccountedAt.exists_message {id : Nat} (kept : AccountedAt w id) (some_ : w.history id ≠ .fresh) :
    ∃ m, w.message id = some m ∧ Counted m (w.history id) := by
  unfold AccountedAt at kept
  split at kept
  next m found => exact ⟨m, found, kept⟩
  next => exact absurd kept some_

theorem AccountedAt.exists_held {id : Nat} (kept : AccountedAt w id) (holds : (w.history id).holder = some t) :
    ∃ m, w.message id = some m ∧ Counted m (w.history id) := by
  refine kept.exists_message fun fresh => ?_
  rw [fresh] at holds
  cases holds

theorem AccountedAt.of_counted {id : Nat} {m : TicketMessage} (found : w.message id = some m)
    (counted : Counted m (w.history id)) : AccountedAt w id := by
  rw [AccountedAt, found]
  exact counted

/-- The step is about the message `id` only, and the tick `t` has it, or takes it, or leaves it. -/
structure OneMessage (t id : Nat) (w w₁ : AccountWorld) : Prop where
  message : ∀ other, other ≠ id → w₁.message other = w.message other
  history : ∀ other, other ≠ id → w₁.history other = w.history other
  before : ∀ u, u ≠ t → (w.history id).holder ≠ some u
  after : ∀ u, u ≠ t → (w₁.history id).holder ≠ some u

theorem OneMessage.accounted {id : Nat} (one : OneMessage t id w w₁) (kept : Accounted w) (here : AccountedAt w₁ id) :
    Accounted w₁ := by
  intro other
  by_cases same : other = id
  · rw [same]
    exact here
  · have there := kept other
    rw [one.message other same, one.history other same]
    exact there

theorem OneMessage.rely {id u : Nat} (one : OneMessage t id w w₁) (other : u ≠ t) : accountTeam.rely u w w₁ := by
  intro i
  by_cases same : i = id
  · subst same
    refine ⟨?_, fun holds => absurd holds (one.before u other)⟩
    rintro (holds | holds)
    · exact absurd holds (one.before u other)
    · exact absurd holds (one.after u other)
  · refine ⟨fun _ => one.history i same, fun _ m found => ⟨m, ?_, rfl⟩⟩
    rw [one.message i same, found]

theorem OneMessage.stays {id : Nat} {o : OutboxOp} {answer : o.Res} (one : OneMessage t id w w₁)
    (unpicked : ∀ id m, w.message id = some m → m.outboundFailedAt ≠ none → ¬Picks o answer id)
    (here : ∀ m, w.message id = some m → (∀ ticketId, o ≠ .sql (.query (.retrySend id ticketId))) →
      (m.outboundFailedAt ≠ none → w₁.message id = some m) ∧
      ((∀ attempts error failedAt, o ≠ .sql (.query (.markFailure id attempts error failedAt))) →
        ∃ m₁, w₁.message id = some m₁ ∧ m₁.outboundAttempts = m.outboundAttempts ∧
          m₁.outboundFailedAt = m.outboundFailedAt)) : Stays o w answer w₁ where
  unpicked := unpicked
  dead other m found failed notReset := by
    by_cases same : other = id
    · subst same
      exact (here m found notReset).1 failed
    · rw [one.message other same, found]
  counter other m found notReset notRecorded := by
    by_cases same : other = id
    · subst same
      exact (here m found notReset).2 notRecorded
    · exact ⟨m, by rw [one.message other same, found], rfl, rfl⟩

/-- A step that changes no message and no history. -/
theorem quiet_step {o : OutboxOp} {answer : o.Res} (kept : Accounted w) (message : w₁.message = w.message)
    (history : w₁.history = w.history)
    (unpicked : ∀ id m, w.message id = some m → m.outboundFailedAt ≠ none → ¬Picks o answer id) :
    Accounted w₁ ∧ (∀ u, u ≠ t → accountTeam.rely u w w₁) ∧ Stays o w answer w₁ := by
  refine ⟨fun id => ?_, fun u _ id => ?_, unpicked, fun id m found _ _ => ?_, fun id m found _ _ => ⟨m, ?_, rfl, rfl⟩⟩
  · rw [message, history]
    exact kept id
  · rw [message, history]
    exact ⟨fun _ => rfl, fun _ m found => ⟨m, found, rfl⟩⟩
  · rw [message, found]
  · rw [message, found]

/-- What a tick has to know of a message when it gives the claim back or records a failure. -/
def Prepared (t : Nat) (w : AccountWorld) : OutboxStmt → Prop
  | .releaseClaim id => (w.history id).holder = some t ∧ (w.history id).unrecorded = false
  | .markFailure id attempts _ failedAt => (w.history id).holder = some t ∧ (w.history id).unrecorded = true ∧
      (∀ m, w.message id = some m → m.outboundAttempts + 1 = attempts) ∧ (failedAt ≠ none ↔ MAX_ATTEMPTS ≤ attempts)
  | .convertToComment _ => False
  | _ => True

theorem picked_alive {db : MailDb} {draw : OutboxDraw} {limit : Nat} {out : Outcome MailChange MailLock (List PendingMessage)}
    (run : (OutboxStmt.pickPending limit).run draw db = some out) {message : PendingMessage} (member : message ∈ out.answer) :
    ∃ m : TicketMessage, db.messages[message.messageId]? = some m ∧ m.outboundFailedAt = none := by
  obtain ⟨sorted, picked, read⟩ := Option.bind_eq_some_iff.mp run
  cases read
  obtain ⟨⟨id, m⟩, inside, rfl⟩ := List.mem_map.mp (List.mem_of_mem_take member)
  obtain ⟨found, pending⟩ := Table.mem_select.mp (Table.mem_orderBy picked inside)
  simp only [isPending, Bool.and_eq_true, decide_eq_true_eq] at pending
  exact ⟨m, found, pending.1.1.1.2⟩

/-- What is shown of every operation: it keeps the accounts, the others accept it, and dead letters stay. -/
def Sound (t : Nat) (o : OutboxOp) (w : AccountWorld) (answer : o.Res) (w₁ : AccountWorld) : Prop :=
  Accounted w₁ ∧ (∀ u, u ≠ t → accountTeam.rely u w w₁) ∧ Stays o w answer w₁

/-- Nobody has anything to do with a message that is neither claimed nor sent. -/
theorem Counted.unclaimed {m : TicketMessage} {h : SendHistory} (counted : Counted m h)
    (free : m.emailSentAt = none ∨ m.outboundFailedAt ≠ none) : h.holder = none ∧ h.unrecorded = false ∧ h.lost = 0 := by
  have not_ : ¬(h.holder ≠ none ∨ h.unrecorded = true ∨ h.lost ≠ 0) := by
    intro some_
    obtain ⟨sent, alive⟩ := counted.claimed some_
    obtain free | free := free
    · exact sent free
    · exact free alive
  push Not at not_
  exact ⟨not_.1, by simpa using not_.2.1, not_.2.2⟩

section

variable {id : Nat} {m before : TicketMessage} {h : SendHistory}

/-- One message is written, and its history. -/
def AccountWorld.put (w : AccountWorld) (id : Nat) (m : TicketMessage) (h : SendHistory) : AccountWorld :=
  ⟨{ w.store with committed := w.store.committed.setMessage id m }, Function.update w.history id h⟩

theorem message_put : (w.put id m h).message id = some m := Table.getElem?_insert_self ..

theorem history_put : (w.put id m h).history id = h := Function.update_self ..

theorem oneMessage_put (before : ∀ u, u ≠ t → (w.history id).holder ≠ some u) (after : ∀ u, u ≠ t → h.holder ≠ some u) :
    OneMessage t id w (w.put id m h) where
  message other apart := Table.getElem?_insert_of_ne _ apart _
  history other apart := Function.update_of_ne apart ..
  before := before
  after := by
    rw [history_put]
    exact after

/-- A statement that writes one message. -/
theorem sound_put {m₁ : TicketMessage} {o : OutboxOp} {answer : o.Res} (kept : Accounted w) (found : w.message id = some m)
    (holder : ∀ u, u ≠ t → (w.history id).holder ≠ some u ∧ h.holder ≠ some u) (here : Counted m₁ h)
    (unpicked : ∀ other, Picks o answer other → other = id ∧ m.outboundFailedAt = none)
    (dead : m.outboundFailedAt ≠ none → ∃ ticketId, o = .sql (.query (.retrySend id ticketId)))
    (counter : (∃ ticketId, o = .sql (.query (.retrySend id ticketId))) ∨
      (∃ attempts error failedAt, o = .sql (.query (.markFailure id attempts error failedAt))) ∨
      m₁.outboundAttempts = m.outboundAttempts ∧ m₁.outboundFailedAt = m.outboundFailedAt) :
    Sound t o w answer (w.put id m₁ h) := by
  have one : OneMessage t id w (w.put id m₁ h) :=
    oneMessage_put (fun u other => (holder u other).1) fun u other => (holder u other).2
  have accounted : AccountedAt (w.put id m₁ h) id := .of_counted message_put (by rwa [history_put])
  refine ⟨one.accounted kept accounted, fun u => one.rely, one.stays ?_ ?_⟩
  · intro other m₂ there failed picks
    obtain ⟨rfl, alive⟩ := unpicked other picks
    rw [found] at there
    cases there
    exact failed alive
  · intro m₂ there notReset
    rw [found] at there
    cases there
    refine ⟨fun failed => ?_, fun notRecorded => ?_⟩
    · obtain ⟨ticketId, same⟩ := dead failed
      exact absurd same (notReset ticketId)
    · obtain ⟨ticketId, same⟩ | ⟨attempts, error, failedAt, same⟩ | ⟨attempts, failed⟩ := counter
      · exact absurd same (notReset ticketId)
      · exact absurd same (notRecorded attempts error failedAt)
      · exact ⟨m₁, message_put, attempts, failed⟩

variable (draw : OutboxDraw)

theorem sound_claim {sentAt : Int} {out : Outcome MailChange MailLock (Option Int)} (kept : Accounted w)
    (run : (OutboxStmt.claimForSend id sentAt).run draw w.store.committed = some out) :
    Sound t (.sql (.query (.claimForSend id sentAt))) w (some out.answer)
      ⟨outboxSchema.publish out.changes w.store, account t (.claimForSend id sentAt) (some out.answer) w.history⟩ := by
  cases run
  unfold Schema.publish
  obtain ⟨-, answered, same⟩ | ⟨m, found, satisfied, answered, same⟩ := updateMessage_cases w.store.committed id
    (fun m => m.emailSentAt = none && m.outboundFailedAt = none) (fun m => { m with emailSentAt := some sentAt })
    (·.map (·.outboundAttempts))
  · rw [answered, same]
    exact quiet_step kept rfl rfl fun _ _ _ _ => nofun
  · rw [answered, same]
    simp only [Bool.and_eq_true, decide_eq_true_eq] at satisfied
    have counted := AccountedAt.counted (kept id) found
    obtain ⟨holder, unrecorded, lost⟩ := counted.unclaimed (.inl satisfied.1)
    have here : Counted { m with emailSentAt := some sentAt } ((w.history id).claimed t) :=
      ⟨counted.counter, counted.bound, counted.dead, fun _ => ⟨nofun, satisfied.2⟩, fun _ => nofun, fun _ => lost⟩
    refine sound_put kept found (fun u other => ⟨?_, fun same => other (Option.some.inj same).symm⟩) here
      (fun other picks => ⟨Eq.symm picks, satisfied.2⟩) (fun dead => absurd satisfied.2 dead) (.inr (.inr ⟨rfl, rfl⟩))
    rw [holder]
    exact nofun

theorem others_of_holder {h : SendHistory} (holds : h.holder = some t) : ∀ u, u ≠ t → h.holder ≠ some u := by
  intro u other
  rw [holds]
  exact fun same => other (Option.some.inj same).symm

/-- The claim that is given back leaves the counter. -/
theorem sound_release {out : Outcome MailChange MailLock Unit} (kept : Accounted w)
    (prepared : Prepared t w (.releaseClaim id)) (run : (OutboxStmt.releaseClaim id).run draw w.store.committed = some out) :
    Sound t (.sql (.query (.releaseClaim id))) w (some out.answer)
      ⟨outboxSchema.publish out.changes w.store, account t (.releaseClaim id) (some out.answer) w.history⟩ := by
  obtain ⟨holds, recorded⟩ := prepared
  obtain ⟨m, found, counted⟩ := AccountedAt.exists_held (kept id) holds
  have some_ : (w.history id).holder ≠ none := by
    rw [holds]
    exact nofun
  obtain ⟨-, alive⟩ := counted.claimed (.inl some_)
  cases run
  unfold Schema.publish
  obtain ⟨unmet, -⟩ | ⟨m₁, found₁, -, -, same⟩ := updateMessage_cases w.store.committed id
    (fun m => m.outboundFailedAt = none) (fun m => { m with emailSentAt := none }) fun _ => ()
  · have fails := unmet m found
    simp [alive] at fails
  · cases (show w.message id = some m₁ from found₁).symm.trans found
    rw [same]
    have here : Counted { m with emailSentAt := none } (w.history id).released := by
      refine ⟨counted.counter, counted.bound, counted.dead, ?_, fun unrecorded => ?_, fun _ => counted.whole some_⟩
      · rintro (holder | unrecorded | lost)
        · exact absurd rfl holder
        · exact absurd (recorded.symm.trans unrecorded) Bool.false_ne_true
        · exact absurd (counted.whole some_) lost
      · exact absurd (recorded.symm.trans unrecorded) Bool.false_ne_true
    exact sound_put kept found (fun u other => ⟨others_of_holder holds u other, nofun⟩) here (fun _ => nofun)
      (fun dead => absurd alive dead) (.inr (.inr ⟨rfl, rfl⟩))

/-- The record of a failure: the fifth one makes a dead letter. -/
theorem sound_markFailure {attempts : Int} {error : List Char} {failedAt : Option Int}
    {out : Outcome MailChange MailLock Unit} (kept : Accounted w)
    (prepared : Prepared t w (.markFailure id attempts error failedAt))
    (run : (OutboxStmt.markFailure id attempts error failedAt).run draw w.store.committed = some out) :
    Sound t (.sql (.query (.markFailure id attempts error failedAt))) w (some out.answer)
      ⟨outboxSchema.publish out.changes w.store,
        account t (.markFailure id attempts error failedAt) (some out.answer) w.history⟩ := by
  obtain ⟨holds, unrecorded, next, fifth⟩ := prepared
  obtain ⟨m, found, counted⟩ := AccountedAt.exists_held (kept id) holds
  have some_ : (w.history id).holder ≠ none := by
    rw [holds]
    exact nofun
  obtain ⟨-, alive⟩ := counted.claimed (.inl some_)
  have below : m.outboundAttempts < MAX_ATTEMPTS := by
    have other : m.outboundAttempts ≠ MAX_ATTEMPTS := fun same => counted.dead.mpr same alive
    have bound := counted.bound
    omega
  cases run
  unfold Schema.publish
  obtain ⟨unmet, -⟩ | ⟨m₁, found₁, -, -, same⟩ := updateMessage_cases w.store.committed id (fun _ => true)
    (fun m => { m with
      emailSentAt := none
      outboundAttempts := attempts
      outboundError := some error
      outboundFailedAt := failedAt }) fun _ => ()
  · cases unmet m found
  · cases (show w.message id = some m₁ from found₁).symm.trans found
    rw [same]
    have counter := counted.counter
    have lost := counted.whole some_
    have one_more := next m found
    rw [unrecorded, Bool.toNat_true] at counter
    have here : Counted { m with
        emailSentAt := none
        outboundAttempts := attempts
        outboundError := some error
        outboundFailedAt := failedAt } (w.history id).recorded := by
      refine ⟨?_, ?_, ?_, ?_, nofun, fun holder => absurd rfl holder⟩
      · show attempts + (0 : Nat) + (w.history id).lost = (w.history id).failures
        omega
      · show attempts ≤ MAX_ATTEMPTS
        omega
      · show failedAt ≠ none ↔ attempts = MAX_ATTEMPTS
        rw [fifth]
        omega
      · rintro (holder | unrecorded | some_)
        · exact absurd rfl holder
        · cases unrecorded
        · exact absurd lost some_
    exact sound_put kept found (fun u other => ⟨others_of_holder holds u other, nofun⟩) here (fun _ => nofun)
      (fun dead => absurd alive dead) (.inr (.inl ⟨_, _, _, rfl⟩))

theorem sound_retrySend {ticketId : Nat} {out : Outcome MailChange MailLock (Option TicketMessage)} (kept : Accounted w)
    (run : (OutboxStmt.retrySend id ticketId).run draw w.store.committed = some out) :
    Sound t (.sql (.query (.retrySend id ticketId))) w (some out.answer)
      ⟨outboxSchema.publish out.changes w.store, account t (.retrySend id ticketId) (some out.answer) w.history⟩ := by
  cases run
  unfold Schema.publish
  obtain ⟨-, answered, same⟩ | ⟨m, found, satisfied, answered, same⟩ := updateMessage_cases w.store.committed id
    (fun m => m.ticketId = ticketId && m.outboundFailedAt ≠ none)
    (fun m => { m with
      outboundFailedAt := none
      outboundAttempts := 0
      outboundError := none
      emailSentAt := none }) fun row => row
  · rw [answered, same]
    exact quiet_step kept rfl rfl fun _ _ _ _ => nofun
  · rw [answered, same]
    simp only [Bool.and_eq_true, decide_eq_true_eq] at satisfied
    have counted := AccountedAt.counted (kept id) found
    obtain ⟨holder, -, -⟩ := counted.unclaimed (.inr satisfied.2)
    have here : Counted { m with
        outboundFailedAt := none
        outboundAttempts := 0
        outboundError := none
        emailSentAt := none } .fresh := by
      refine ⟨rfl, ?_, ?_, ?_, nofun, fun _ => rfl⟩
      · show (0 : Int) ≤ MAX_ATTEMPTS
        decide
      · show (none : Option Int) ≠ none ↔ (0 : Int) = MAX_ATTEMPTS
        decide
      · simp [SendHistory.fresh]
    refine sound_put kept found (fun u other => ⟨?_, nofun⟩) here (fun _ => nofun) (fun _ => ⟨ticketId, rfl⟩)
      (.inl ⟨ticketId, rfl⟩)
    rw [holder]
    exact nofun

/-- A step that changes the history of a message that the tick holds, and no row. -/
theorem sound_history {o : OutboxOp} {answer : o.Res} (kept : Accounted w) (holds : (w.history id).holder = some t)
    (after : ∀ u, u ≠ t → h.holder ≠ some u) (here : ∀ m, Counted m (w.history id) → Counted m h)
    (unpicked : ∀ id m, w.message id = some m → m.outboundFailedAt ≠ none → ¬Picks o answer id) :
    Sound t o w answer { w with history := Function.update w.history id h } := by
  obtain ⟨m, found, counted⟩ := AccountedAt.exists_held (kept id) holds
  have one : OneMessage t id w { w with history := Function.update w.history id h } := by
    refine ⟨fun _ _ => rfl, fun other apart => Function.update_of_ne apart .., others_of_holder holds, fun u other => ?_⟩
    show (Function.update w.history id h id).holder ≠ some u
    rw [Function.update_self]
    exact after u other
  refine ⟨one.accounted kept (.of_counted found ?_), fun u => one.rely,
    unpicked, fun _ _ found _ _ => found, fun _ m found _ _ => ⟨m, found, rfl, rfl⟩⟩
  show Counted m (Function.update w.history id h id)
  rw [Function.update_self]
  exact here m counted

/-- The failure that could not be recorded. -/
theorem sound_abandoned {attempts : Int} {error : List Char} {failedAt : Option Int} (kept : Accounted w)
    (holds : (w.history id).holder = some t) :
    Sound t (.sql (.query (.markFailure id attempts error failedAt))) w none
      ⟨w.store, account t (.markFailure id attempts error failedAt) none w.history⟩ := by
  have some_ : (w.history id).holder ≠ none := by
    rw [holds]
    exact nofun
  refine sound_history kept holds (fun _ _ => nofun) (fun m counted => ?_) fun _ _ _ _ => nofun
  refine ⟨?_, counted.bound, counted.dead, fun _ => counted.claimed (.inl some_), nofun, fun holder => absurd rfl holder⟩
  have counter := counted.counter
  show m.outboundAttempts + (0 : Nat) + ((w.history id).lost + (w.history id).unrecorded.toNat : Nat) =
    (w.history id).failures
  omega

/-- One statement of a tick or of retry-send. -/
theorem sound_query {s : OutboxStmt} {answer : Option s.Ans} (kept : Accounted w) (prepared : Prepared t w s)
    (run : accountExec t (.sql (.query s)) w answer w₁) : Sound t (.sql (.query s)) w answer w₁ := by
  obtain ⟨store, ⟨draw, out, ran, -, rfl, rfl⟩ | ⟨rfl, rfl⟩, rfl⟩ := run
  case inr =>
    cases s with
    | markFailure id attempts error failedAt => exact sound_abandoned kept prepared.1
    | getConfig | pickPending | loadTicketMappings | claimForSend | releaseClaim | selectMessage | inboundMapping
    | convertToComment | retrySend | touchTicket => exact quiet_step kept rfl rfl fun _ _ _ _ => nofun
  case inl =>
    have read (reads : s.writes = none) :
        AccountWorld.message ⟨outboxSchema.publish out.changes w.store, account t s (some out.answer) w.history⟩ =
          w.message := by
      funext other
      exact rows_of_run ran (by rw [reads]; exact nofun)
    cases s with
    | claimForSend id sentAt => exact sound_claim draw kept ran
    | releaseClaim id => exact sound_release draw kept prepared ran
    | markFailure id attempts error failedAt => exact sound_markFailure draw kept prepared ran
    | retrySend id ticketId => exact sound_retrySend draw kept ran
    | convertToComment id => exact prepared.elim
    | pickPending limit =>
      refine quiet_step kept (read rfl) rfl ?_
      rintro id m found dead ⟨message, member, rfl⟩
      obtain ⟨m₁, found₁, alive⟩ := picked_alive ran member
      cases (show w.message message.messageId = some m₁ from found₁).symm.trans found
      exact dead alive
    | getConfig | loadTicketMappings | selectMessage | inboundMapping | touchTicket =>
      exact quiet_step kept (read rfl) rfl fun _ _ _ _ => nofun

/-- A call to Graph for a message that the tick holds. -/
theorem sound_send {message : PendingMessage} (o : OutboxOp) (answer : o.Res) (fallback : GraphError → Bool)
    (result : Except GraphError Unit) (kept : Accounted w) (holds : (w.history message.messageId).holder = some t)
    (recorded : (w.history message.messageId).unrecorded = false)
    (picks : ∀ id, Picks o answer id → id = message.messageId) :
    Sound t o w answer { w with history := failedSend message fallback w.history result } := by
  have some_ : (w.history message.messageId).holder ≠ none := by
    rw [holds]
    exact nofun
  have unpicked : ∀ id m, w.message id = some m → m.outboundFailedAt ≠ none → ¬Picks o answer id := by
    intro id m found dead picked
    obtain rfl := picks id picked
    exact dead (((show AccountedAt w _ from kept _).counted found).claimed (.inl some_)).2
  cases result with
  | ok => exact quiet_step kept rfl rfl unpicked
  | error err =>
    unfold failedSend
    by_cases uncounted : (fallback err || err.retryAborted) = true
    · simp only [if_pos uncounted]
      exact quiet_step kept rfl rfl unpicked
    · simp only [if_neg uncounted]
      refine sound_history kept holds (others_of_holder holds) (fun m counted => ?_) unpicked
      refine ⟨?_, counted.bound, counted.dead, fun _ => counted.claimed (.inl some_), fun _ => some_, counted.whole⟩
      have counter := counted.counter
      rw [recorded, Bool.toNat_false] at counter
      show m.outboundAttempts + (1 : Nat) + (w.history message.messageId).lost =
        ((w.history message.messageId).failures + 1 : Nat)
      omega

end

/-- The tick holds the claim of a message whose counter is `n`. -/
structure Holding (t id : Nat) (n : Int) (unrecorded : Bool) (w : AccountWorld) : Prop where
  holds : (w.history id).holder = some t
  unrecorded : (w.history id).unrecorded = unrecorded
  counter : ∃ m, w.message id = some m ∧ m.outboundAttempts = n

theorem Holding.rely {id : Nat} {n : Int} {unrecorded : Bool} (holding : Holding t id n unrecorded w)
    (moves : accountTeam.rely t w w₁) : Holding t id n unrecorded w₁ := by
  have same := (moves id).1 (.inl holding.holds)
  obtain ⟨m, found, counter⟩ := holding.counter
  obtain ⟨m₁, found₁, attempts⟩ := (moves id).2 holding.holds m found
  exact ⟨same ▸ holding.holds, same ▸ holding.unrecorded, m₁, found₁, attempts.trans counter⟩

theorem RecordedBut.rely {but : Option Nat} (recorded : RecordedBut t but w) (moves : accountTeam.rely t w w₁) :
    RecordedBut t but w₁ := by
  intro id other holds
  have same := (moves id).1 (.inr holds)
  rw [same] at holds ⊢
  exact recorded id other holds

theorem RecordedBut.update {but : Option Nat} {id : Nat} {h : SendHistory} (store : Store MailDb MailChange MailLock)
    (recorded : RecordedBut t but w) (here : h.holder = some t → h.unrecorded = false)
    (only : ∀ other, but = some other → other = id) : RecordedBut t none ⟨store, Function.update w.history id h⟩ := by
  intro other _ holds
  by_cases same : other = id
  · subst same
    simp only [Function.update_self] at holds ⊢
    exact here holds
  · simp only [Function.update_of_ne same] at holds ⊢
    exact recorded other (fun here => same (only other here.symm)) holds

/-- A claim that finds its row. -/
theorem claim_holding {id : Nat} {sentAt n : Int} (kept : Accounted w) (recorded : RecordedBut t none w)
    (run : accountExec t (.sql (.query (.claimForSend id sentAt))) w (some (some n)) w₁) :
    Holding t id n false w₁ ∧ RecordedBut t none w₁ := by
  obtain ⟨store, ⟨draw, out, ran, -, answer, rfl⟩ | ⟨none_, -⟩, rfl⟩ := run
  case inr => cases none_
  cases ran
  obtain ⟨-, answered, -⟩ | ⟨m, found, satisfied, answered, same⟩ := updateMessage_cases w.store.committed id
    (fun m => m.emailSentAt = none && m.outboundFailedAt = none) (fun m => { m with emailSentAt := some sentAt })
    (·.map (·.outboundAttempts))
  · rw [answered] at answer
    cases answer
  · rw [answered] at answer
    cases answer
    simp only [Bool.and_eq_true, decide_eq_true_eq] at satisfied
    obtain ⟨-, unrecorded, -⟩ := (AccountedAt.counted (kept id) found).unclaimed (.inl satisfied.1)
    refine ⟨⟨?_, ?_, { m with emailSentAt := some sentAt }, ?_, rfl⟩, ?_⟩
    · show (Function.update w.history id ((w.history id).claimed t) id).holder = some t
      rw [Function.update_self]
      rfl
    · show (Function.update w.history id ((w.history id).claimed t) id).unrecorded = false
      rw [Function.update_self]
      exact unrecorded
    · unfold Schema.publish
      rw [same]
      exact Table.getElem?_insert_self ..
    · exact recorded.update _ (fun _ => unrecorded) nofun

section

variable {α : Type} {post : α → AccountWorld → Prop}

theorem safe_statement {s : OutboxStmt} {next : Option s.Ans → Outbox α}
    (prepared : ∀ w₁, accountTeam.rely t w w₁ → Prepared t w₁ s)
    (later : ∀ w₁ answer w₂, accountTeam.rely t w w₁ → Accounted w₁ → accountExec t (.sql (.query s)) w₁ answer w₂ →
      Accounted w₂ → (accountTeam.rules t).Safe post (next answer) w₂) :
    (accountTeam.rules t).Safe post (query s >>= next) w := by
  refine Rules.Safe.perform fun w₁ moves kept answer w₂ run => ?_
  obtain ⟨kept₂, others, stays⟩ := sound_query kept (prepared w₁ moves) run
  exact ⟨kept₂, ⟨others, stays⟩, later w₁ answer w₂ moves kept run kept₂⟩

/-- An operation that changes nothing and picks nothing. -/
theorem safe_quiet {o : OutboxOp} {next : o.Res → Outbox α} (quiet : ∀ w answer w₁, accountExec t o w answer w₁ → w₁ = w)
    (unpicked : ∀ answer id, ¬Picks o answer id)
    (later : ∀ answer w₁, accountTeam.rely t w w₁ → Accounted w₁ → (accountTeam.rules t).Safe post (next answer) w₁) :
    (accountTeam.rules t).Safe post (perform o >>= next) w := by
  refine Rules.Safe.perform fun w₁ moves kept answer w₂ run => ?_
  obtain rfl := quiet w₁ answer w₂ run
  obtain ⟨kept₂, others, stays⟩ := quiet_step (t := t) (o := o) kept rfl rfl
    fun id _ _ _ => unpicked answer id
  exact ⟨kept₂, ⟨others, stays⟩, later answer w₂ moves kept⟩

/-- A statement that is about no claim. -/
theorem safe_other {s : OutboxStmt} {next : Option s.Ans → Outbox α} (recorded : RecordedBut t none w)
    (prepared : ∀ w, Prepared t w s) (same : ∀ answer history, account t s answer history = history)
    (later : ∀ answer w₁, RecordedBut t none w₁ → (accountTeam.rules t).Safe post (next answer) w₁) :
    (accountTeam.rules t).Safe post (query s >>= next) w := by
  refine safe_statement (fun w₁ _ => prepared w₁) fun w₁ answer w₂ moves _ run _ => later answer w₂ ?_
  obtain ⟨store, -, rfl⟩ := run
  have recorded₁ := recorded.rely moves
  intro id other holds
  simp only [same] at holds ⊢
  exact recorded₁ id other holds

theorem safe_recorded (recorded : RecordedBut t none w) (value : α) :
    (accountTeam.rules t).Safe (fun _ => RecordedBut t none) (.ret value) w :=
  fun _ moves _ => recorded.rely moves

/-- What a tick knows after its attempt to send: a failure that is no interruption waits for its record. -/
def Attempted (t id : Nat) (n : Int) (result : Except GraphError Unit) (w : AccountWorld) : Prop :=
  match result with
  | .ok () => RecordedBut t none w
  | .error err => RecordedBut t (some id) w ∧ Holding t id n (!err.retryAborted) w

theorem Attempted.rely {id : Nat} {n : Int} {result : Except GraphError Unit} (attempted : Attempted t id n result w)
    (moves : accountTeam.rely t w w₁) : Attempted t id n result w₁ := by
  cases result with
  | ok => exact RecordedBut.rely attempted moves
  | error err => exact ⟨attempted.1.rely moves, attempted.2.rely moves⟩

/-- The failed send of a message that the tick holds. -/
theorem attempted_failedSend {message : PendingMessage} {n : Int} {fallback : GraphError → Bool} {err : GraphError}
    (recorded : RecordedBut t none w) (holding : Holding t message.messageId n false w) (counts : fallback err = false) :
    Attempted t message.messageId n (.error err)
      { w with history := failedSend message fallback w.history (.error err) } := by
  have but : RecordedBut t (some message.messageId) w := fun id _ holds => recorded id nofun holds
  simp only [failedSend, Attempted, counts, Bool.false_or]
  cases aborted : err.retryAborted with
  | true => exact ⟨but, holding⟩
  | false =>
    obtain ⟨holds, -, m, found, counter⟩ := holding
    refine ⟨fun id other mine => ?_, ?_, ?_, m, found, counter⟩
    · have apart : id ≠ message.messageId := fun same => other (congrArg some same)
      simp only [Bool.false_eq_true, ↓reduceIte, Function.update_of_ne apart] at mine ⊢
      exact recorded id nofun mine
    · simp only [Bool.false_eq_true, ↓reduceIte, Function.update_self]
      exact holds
    · simp only [Bool.false_eq_true, ↓reduceIte, Function.update_self]
      rfl

variable {message : PendingMessage} {n : Int} {sender recipient : String} {mappings : List EmailThreadMapping}

theorem safe_sendFresh (recorded : RecordedBut t none w) (holding : Holding t message.messageId n false w) :
    (accountTeam.rules t).Safe (Attempted t message.messageId n) (sendNew mappings message sender recipient) w := by
  intro w₁ moves kept answer w₂ run
  obtain rfl := run
  have holding₁ := holding.rely moves
  obtain ⟨kept₂, others, stays⟩ := sound_send (.sendMail message sender recipient
    (pickSubject mappings message.ticketTitle)) answer (fun _ => false) answer kept holding₁.holds holding₁.unrecorded
    fun _ => Eq.symm
  refine ⟨kept₂, ⟨others, stays⟩, fun w₂ later _ => Attempted.rely ?_ later⟩
  cases answer with
  | ok => exact recorded.rely moves
  | error err => exact attempted_failedSend (recorded.rely moves) holding₁ rfl

theorem safe_attempt (recorded : RecordedBut t none w) (holding : Holding t message.messageId n false w) :
    (accountTeam.rules t).Safe (Attempted t message.messageId n) (attemptSend mappings message sender recipient) w := by
  unfold attemptSend
  split
  next mailbox graphMessageId _ =>
    refine Rules.Safe.perform fun w₁ moves kept answer w₂ run => ?_
    obtain rfl := run
    have holding₁ := holding.rely moves
    have recorded₁ := recorded.rely moves
    obtain ⟨kept₂, others, stays⟩ := sound_send (.sendReply message mailbox graphMessageId) answer
      isCreateReply404 answer kept holding₁.holds holding₁.unrecorded fun _ => Eq.symm
    refine ⟨kept₂, ⟨others, stays⟩, ?_⟩
    cases answer with
    | ok => exact fun w₂ later _ => RecordedBut.rely recorded₁ later
    | error err =>
      dsimp only
      split
      next again =>
        have same : failedSend message isCreateReply404 w₁.history (.error err) = w₁.history := by
          rw [failedSend, again, Bool.true_or, if_pos rfl]
        rw [same]
        exact safe_sendFresh recorded₁ holding₁
      next counts =>
        exact fun w₂ later _ =>
          (attempted_failedSend recorded₁ holding₁ (Bool.eq_false_iff.mpr counts)).rely later
  next => exact safe_sendFresh recorded holding

theorem safe_recordFailure {errMsg : List Char} (kept : Accounted w) (recorded : RecordedBut t (some message.messageId) w)
    (holding : Holding t message.messageId n true w) :
    (accountTeam.rules t).Safe (fun _ => RecordedBut t none) (markFailure message.messageId n errMsg) w := by
  have dated (deadLetter : Bool) : (accountTeam.rules t).Safe
      (fun date w₁ => (date ≠ none ↔ deadLetter = true) ∧ RecordedBut t (some message.messageId) w₁ ∧
        Holding t message.messageId n true w₁) (failureDate deadLetter) w := by
    unfold failureDate
    split
    next dead =>
      refine safe_quiet (fun _ _ _ same => same) (fun _ _ => nofun) fun date w₁ moves _ w₂ moves₂ _ => ?_
      exact ⟨by simp [dead], (recorded.rely moves).rely moves₂, (holding.rely moves).rely moves₂⟩
    next alive =>
      exact fun w₁ moves _ => ⟨by simp [Bool.eq_false_iff.mpr alive], recorded.rely moves, holding.rely moves⟩
  unfold markFailure
  refine (dated _).bind kept fun failedAt w₁ _ known => ?_
  obtain ⟨date, recorded₁, holding₁⟩ := known
  rw [decide_eq_true_eq] at date
  refine safe_statement (fun w₂ moves => ?_) fun w₂ answer w₃ moves _ run _ => ?_
  · have holding₂ := holding₁.rely moves
    refine ⟨holding₂.holds, holding₂.unrecorded, fun m found => ?_, date⟩
    obtain ⟨m₁, found₁, counter⟩ := holding₂.counter
    rw [found₁] at found
    cases found
    rw [counter]
  · have recorded₃ : RecordedBut t none w₃ := by
      obtain ⟨store, -, rfl⟩ := run
      have recorded₂ := recorded₁.rely moves
      cases answer with
      | none => exact recorded₂.update store nofun fun other same => (Option.some.inj same).symm
      | some done => exact recorded₂.update store nofun fun other same => (Option.some.inj same).symm
    cases answer with
    | none => exact safe_recorded recorded₃ _
    | some done => exact safe_recorded recorded₃ _

theorem safe_failed {err : GraphError} (kept : Accounted w) (attempted : Attempted t message.messageId n (.error err) w) :
    (accountTeam.rules t).Safe (fun _ => RecordedBut t none) (sendFailed message n err) w := by
  obtain ⟨recorded, holding⟩ := attempted
  unfold sendFailed
  split
  next aborted =>
    rw [aborted] at holding
    have clean : RecordedBut t none w := by
      intro id _ holds
      by_cases same : id = message.messageId
      · rw [same]
        exact holding.unrecorded
      · exact recorded id (fun here => same (Option.some.inj here)) holds
    refine safe_statement (fun w₁ moves => ?_) fun w₁ answer w₂ moves _ run _ => ?_
    · exact ⟨(holding.rely moves).holds, (holding.rely moves).unrecorded⟩
    · have recorded₂ : RecordedBut t none w₂ := by
        obtain ⟨store, -, rfl⟩ := run
        have clean₁ := clean.rely moves
        cases answer with
        | none => exact clean₁
        | some done => exact clean₁.update store nofun nofun
      cases answer with
      | none => exact safe_recorded recorded₂ _
      | some done => exact safe_recorded recorded₂ _
  next going =>
    rw [Bool.eq_false_iff.mpr going] at holding
    refine (safe_recordFailure kept recorded holding).bind kept fun deadLetter w₁ _ recorded₁ => ?_
    cases deadLetter with
    | none => exact safe_recorded recorded₁ _
    | some deadLetter => exact safe_recorded recorded₁ _

theorem safe_one (recorded : RecordedBut t none w) :
    (accountTeam.rules t).Safe (fun _ => RecordedBut t none) (sendOne message sender) w := by
  unfold sendOne
  refine safe_other recorded (fun _ => trivial) (fun _ _ => rfl) fun mappings w₁ recorded₁ => ?_
  cases mappings with
  | none => exact safe_recorded recorded₁ _
  | some mappings =>
    dsimp only
    split
    · exact safe_recorded recorded₁ _
    refine safe_quiet (fun _ _ _ same => same) (fun _ _ => nofun) fun sentAt w₂ moves _ => ?_
    have recorded₂ := recorded₁.rely moves
    refine safe_statement (fun _ _ => trivial) fun w₃ claim w₄ moves₃ kept₃ run kept₄ => ?_
    have recorded₃ := recorded₂.rely moves₃
    have unclaimed (nothing : claim = none ∨ claim = some none) : RecordedBut t none w₄ := by
      obtain ⟨store, -, rfl⟩ := run
      obtain rfl | rfl := nothing
      · exact recorded₃
      · exact recorded₃
    match claim with
    | none => exact safe_recorded (unclaimed (.inl rfl)) _
    | some none => exact safe_recorded (unclaimed (.inr rfl)) _
    | some (some attempts) =>
      obtain ⟨holding, recorded₄⟩ := claim_holding kept₃ recorded₃ run
      refine (safe_attempt recorded₄ holding).bind kept₄ fun result w₅ kept₅ attempted => ?_
      cases result with
      | ok => exact safe_recorded attempted _
      | error err => exact safe_failed kept₅ attempted

theorem safe_batch (pending : List PendingMessage) (kept : Accounted w) (recorded : RecordedBut t none w) :
    (accountTeam.rules t).Safe (fun _ => RecordedBut t none) (flushPending sender pending) w := by
  induction pending generalizing w with
  | nil => exact safe_recorded recorded _
  | cons message rest ih =>
    refine safe_quiet (fun _ _ _ same => same) (fun _ _ => nofun) fun stop w₁ moves kept₁ => ?_
    have recorded₁ := recorded.rely moves
    split
    · exact safe_recorded recorded₁ _
    · refine (safe_one recorded₁).bind kept₁ fun result w₂ kept₂ recorded₂ => ?_
      refine (ih kept₂ recorded₂).bind kept₂ fun results w₃ _ recorded₃ => ?_
      exact safe_recorded recorded₃ _

theorem safe_tick (recorded : RecordedBut t none w) :
    (accountTeam.rules t).Safe (fun _ => RecordedBut t none) flushOutbox w := by
  unfold flushOutbox
  refine safe_other recorded (fun _ => trivial) (fun _ _ => rfl) fun cfg w₁ recorded₁ => ?_
  cases cfg with
  | none => exact safe_recorded recorded₁ _
  | some cfg =>
    dsimp only
    split
    · exact safe_recorded recorded₁ _
    split
    · exact safe_recorded recorded₁ _
    refine safe_statement (fun _ _ => trivial) fun w₂ pending w₃ moves _ run kept₃ => ?_
    have recorded₃ : RecordedBut t none w₃ := by
      obtain ⟨store, -, rfl⟩ := run
      have recorded₂ := recorded₁.rely moves
      exact recorded₂
    cases pending with
    | none => exact safe_recorded recorded₃ _
    | some pending =>
      refine (safe_batch pending kept₃ recorded₃).bind kept₃ fun results w₄ _ recorded₄ => ?_
      exact safe_recorded recorded₄ _

theorem safe_retry {ticketId msgId : Nat} (recorded : RecordedBut t none w) :
    (accountTeam.rules t).Safe (fun _ => RecordedBut t none) (retrySendRoute ticketId msgId) w := by
  unfold retrySendRoute
  refine safe_quiet (fun _ _ _ same => same) (fun _ _ => nofun) fun acl w₁ moves _ => ?_
  have recorded₁ := recorded.rely moves
  split
  · refine safe_statement (fun _ _ => trivial) fun w₂ found w₃ moves₂ _ run _ => ?_
    have recorded₃ : RecordedBut t none w₃ := by
      obtain ⟨store, -, rfl⟩ := run
      have recorded₂ := recorded₁.rely moves₂
      match found with
      | none => exact recorded₂
      | some none => exact recorded₂
      | some (some row) => exact recorded₂.update store nofun nofun
    match found with
    | none => exact safe_recorded recorded₃ _
    | some none => exact safe_recorded recorded₃ _
    | some (some row) =>
      refine safe_other recorded₃ (fun _ => trivial) (fun _ _ => rfl) fun touched w₄ recorded₄ => ?_
      cases touched with
      | none => exact safe_recorded recorded₄ _
      | some done => exact safe_recorded recorded₄ _
  · exact safe_recorded recorded₁ _

end

theorem accounted_env {db : MailDb} (kept : Accounted w) (leaves : LeavesOutbox w.store.committed db) :
    Accounted { w with store := { w.store with committed := db } } ∧
      ∀ t, accountTeam.rely t w { w with store := { w.store with committed := db } } := by
  constructor
  · intro id
    have here : AccountedAt w id := kept id
    cases old : w.message id with
    | some m =>
      obtain ⟨m₁, found, sent, attempts, failed⟩ := leaves.kept id m old
      have counted := here.counted old
      refine AccountedAt.of_counted found ⟨?_, ?_, ?_, ?_, counted.held, counted.whole⟩
      · rw [attempts]
        exact counted.counter
      · rw [attempts]
        exact counted.bound
      · rw [attempts, failed]
        exact counted.dead
      · rw [sent, failed]
        exact counted.claimed
    | none =>
      unfold AccountedAt at here
      rw [old] at here
      cases new : db.messages[id]? with
      | none =>
        rw [show AccountWorld.message { w with store := { w.store with committed := db } } id = none from new]
        exact here
      | some m =>
        obtain ⟨attempts, failed⟩ := leaves.added id m old new
        refine AccountedAt.of_counted new ?_
        show Counted m (w.history id)
        rw [here]
        refine ⟨?_, ?_, ?_, by simp [SendHistory.fresh], nofun, fun _ => rfl⟩
        · rw [attempts]
          rfl
        · rw [attempts]
          decide
        · rw [attempts, failed]
          decide
  · intro t id
    refine ⟨fun _ => rfl, fun _ m found => ?_⟩
    obtain ⟨m₁, found₁, -, attempts, -⟩ := leaves.kept id m found
    exact ⟨m₁, found₁, attempts⟩

/-- A tick that dies leaves what it had to record. -/
theorem accounted_drop (kept : Accounted w) :
    Accounted (accounts.drop t w) ∧ RecordedBut t none (accounts.drop t w) ∧
      ∀ u, u ≠ t → accountTeam.rely u w (accounts.drop t w) := by
  refine ⟨fun id => ?_, fun id _ holds => ?_, fun u other id => ⟨?_, fun _ m found => ⟨m, found, rfl⟩⟩⟩
  · have here : AccountedAt w id := kept id
    by_cases mine : (w.history id).holder = some t
    · obtain ⟨m, found, counted⟩ := here.exists_held mine
      refine AccountedAt.of_counted found ?_
      show Counted m (if (w.history id).holder = some t then (w.history id).abandoned else w.history id)
      rw [if_pos mine]
      have some_ : (w.history id).holder ≠ none := by
        rw [mine]
        exact nofun
      refine ⟨?_, counted.bound, counted.dead, fun _ => counted.claimed (.inl some_), nofun,
        fun holder => absurd rfl holder⟩
      have counter := counted.counter
      show m.outboundAttempts + (0 : Nat) + ((w.history id).lost + (w.history id).unrecorded.toNat : Nat) =
        (w.history id).failures
      omega
    · have same : (accounts.drop t w).history id = w.history id := if_neg mine
      show AccountedAt _ id
      unfold AccountedAt at here ⊢
      rw [same]
      exact here
  · have gone : ((accounts.drop t w).history id).holder ≠ some t := by
      show (if (w.history id).holder = some t then (w.history id).abandoned else w.history id).holder ≠ some t
      split
      · exact nofun
      next other => exact other
    exact absurd holds gone
  · have same (mine : (w.history id).holder ≠ some t) : (accounts.drop t w).history id = w.history id := if_neg mine
    rintro (holds | holds)
    · exact same fun mine => other (Option.some.inj (holds.symm.trans mine))
    · by_cases mine : (w.history id).holder = some t
      · rw [show (accounts.drop t w).history id = (w.history id).abandoned from if_pos mine] at holds
        cases holds
      · exact same mine

theorem accounts_verified : accounts.Verified accountTeam where
  exec run := run
  env := by
    rintro w _ kept ⟨db, rfl, leaves⟩
    exact accounted_env kept leaves
  entry := by
    rintro _ t w (rfl | ⟨ticketId, msgId, rfl⟩) kept recorded
    · exact (safe_tick recorded).bind kept fun _ _ _ recorded₁ _ moves _ => recorded₁.rely moves
    · exact (safe_retry recorded).bind kept fun _ _ _ recorded₁ _ moves _ => recorded₁.rely moves
  drop {t w} kept := by
    obtain ⟨kept₁, recorded, others⟩ := accounted_drop (t := t) kept
    exact ⟨kept₁, fun w₁ moves _ => recorded.rely moves, others⟩

theorem accountStart_inv (w : AccountWorld) (start : AccountStart w) :
    accountTeam.inv w ∧ ∀ t w₁, accountTeam.rely t w w₁ → accountTeam.inv w₁ → accountTeam.idle t w₁ := by
  obtain ⟨fresh, untried⟩ := start
  refine ⟨fun id => ?_, fun t w₁ moves _ => RecordedBut.rely (fun id _ holds => ?_) moves⟩
  · split
    next m found =>
      obtain ⟨attempts, failed⟩ := untried id m found
      rw [fresh]
      refine ⟨?_, ?_, ?_, by simp [SendHistory.fresh], nofun, fun _ => rfl⟩
      · rw [attempts]
        rfl
      · rw [attempts]
        decide
      · rw [attempts, failed]
        decide
    next => rw [fresh]
  · rw [fresh] at holds
    cases holds

/-- However the ticks and retry-send interleave: the counter of a message is the number of its failed sends since its
last reset, less the one that a running tick has yet to record and those that nobody could record; the fifth makes a
dead letter, which is left alone until retry-send resets it. -/
theorem failures_accounted {c : Threads.Config OutboxOp.Res AccountWorld} (reach : accounts.Reach AccountStart c) :
    Accounted c.world ∧ (∀ t, c.runs t = .ret () → RecordedBut t none c.world) ∧
      ∀ t o rest answer w₁, c.runs t = .op o rest → accountExec t o c.world answer w₁ → Stays o c.world answer w₁ := by
  obtain ⟨kept, safe⟩ := reach.safe accounts_verified accountStart_inv
  refine ⟨kept, fun t ended => ?_, fun t o rest answer w₁ next run => ?_⟩
  · have idle := safe t
    rw [ended] at idle
    exact idle c.world (accountTeam.rely_refl t _) kept
  · have running := safe t
    rw [next] at running
    exact (running c.world (accountTeam.rely_refl t _) kept answer w₁ run).2.1.2

/-! A comment that Graph refuses once. -/

def demoAccount (m : TicketMessage) (h : SendHistory) : AccountWorld :=
  ⟨.start (demoMail m), Function.update (fun _ => .fresh) 7 h⟩

def demoRefused : GraphError := ⟨"503".toList, false⟩

theorem accountStart_demo : AccountStart (demoAccount demoComment .fresh) := by
  refine ⟨funext fun id => ?_, fun id m found => ?_⟩
  · show Function.update (fun _ => SendHistory.fresh) 7 .fresh id = .fresh
    rw [Function.update_eq_self_iff.mpr rfl]
  · by_cases here : id = 7
    · subst here
      cases (show some demoComment = some m from found)
      exact ⟨rfl, rfl⟩
    · have none_ : (demoAccount demoComment .fresh).message id = none := by
        refine (Table.getElem?_insert_of_ne _ here _).trans ?_
        simp
      rw [none_] at found
      cases found

/-- The failure is counted once. -/
theorem failures_accounted_refused : ∃ c : Threads.Config OutboxOp.Res AccountWorld,
    (c.world.message 7).map (·.outboundAttempts) = some 1 ∧ (c.world.history 7).failures = 1 ∧ Accounted c.world := by
  have r := (show accounts.Reach AccountStart ⟨demoAccount demoComment .fresh, fun _ => .ret ()⟩ from
    .init accountStart_demo)
  have r := r.begins 2 (runs flushOutbox) rfl (.inl rfl)
  have r := r.perform 2 rfl (some ⟨true, "it@x", ""⟩) (demoAccount demoComment .fresh)
    ⟨_, .inl ⟨demoDraw [], _, rfl, fun _ _ => .inl rfl, rfl, rfl⟩, rfl⟩
  have r := r.perform 2 rfl (some [⟨7, 1, "Admin", "Bonjour", 10, 0, "Panne"⟩]) (demoAccount demoComment .fresh)
    ⟨_, .inl ⟨demoDraw [7], _, rfl, fun _ _ => .inl rfl, rfl, rfl⟩, rfl⟩
  have r := r.perform 2 rfl false (demoAccount demoComment .fresh) rfl
  have r := r.perform 2 rfl (some [demoMapping]) (demoAccount demoComment .fresh)
    ⟨_, .inl ⟨demoDraw [3], _, rfl, fun _ _ => .inl rfl, rfl, rfl⟩, rfl⟩
  have r := r.perform 2 rfl (30 : Int) (demoAccount demoComment .fresh) rfl
  have r := r.perform 2 rfl (some (some 0)) _
    ⟨_, .inl ⟨demoDraw [], _, rfl, fun _ _ => .inl rfl, rfl, rfl⟩, rfl⟩
  have r := r.perform 2 rfl (.error demoRefused) _ rfl
  have r := r.perform 2 rfl (some ()) _ ⟨_, .inl ⟨demoDraw [], _, rfl, fun _ _ => .inl rfl, rfl, rfl⟩, rfl⟩
  exact ⟨_, rfl, rfl, (failures_accounted r).1⟩

end Opale.EmailBridge
