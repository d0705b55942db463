import Opale.EmailBridge.FilingSteps

namespace Opale.EmailBridge.Mailroom

open Js Sql Tickets

variable {merges : Bool} {s s₁ : Stage} {fns : MailFns} {mail : GraphMessage} {mailbox : String}

section Pool

variable {α : Type}

theorem only_consult (threading : Threading α) : (consult threading).Only (Elsewhere merges) := by
  induction threading with
  | ret value => exact .ret
  | op o rest ih =>
    cases o with
    | byMessageIds keys => exact .bind (.within trivial) fun links => ih _
    | byConversation conversationId => exact .bind (.within trivial) fun found => ih _

theorem only_threadOf : (threadOf fns mail).Only (Elsewhere merges) := only_consult _

theorem only_matchSender (address : Option String) : (matchSender address).Only (Elsewhere merges) := by
  unfold matchSender
  split
  · exact .ret
  · exact .within trivial

theorem only_textOf : (textOf mailbox mail).Only (Elsewhere merges) := .bind .call fun _ => .ret

theorem only_lookedUp {classified : Bool} : (lookedUp fns mail mailbox classified).Only (Elsewhere merges) := by
  refine .bind (only_matchSender _) fun sender => .bind only_threadOf fun threadMatch => ?_
  split
  · exact .bind only_textOf fun _ => .ret
  · split
    · exact .ret
    · exact .bind .call fun _ => .ret

theorem only_sentTo : (sentTo fns mail mailbox).Only (Elsewhere merges) := by
  refine .bind only_threadOf fun threadMatch => ?_
  split
  · exact .ret
  · refine .bind only_textOf fun bodyText => .bind (only_matchSender _) fun sender => .bind ?_ fun time => ?_
    · unfold sentAt
      split
      · exact .ret
      · exact .call
    · refine .bind (.within trivial) fun same => ?_
      split
      · exact .ret
      · exact .ret

theorem only_unknownGraphMessages {mailOf : α → GraphMessage} {found : List α} {knownIds : List String} :
    (unknownGraphMessages fns mailOf found knownIds).Only (Elsewhere merges) := by
  unfold unknownGraphMessages
  split
  · exact .ret
  · exact .bind (.within trivial) fun _ => .ret

theorem only_fetchMissingConversationMessages {m : ThreadMapping} {knownIds : List String} :
    (fetchMissingConversationMessages fns m knownIds).Only (Elsewhere merges) := by
  unfold fetchMissingConversationMessages
  split
  · refine .bind .call fun page => ?_
    cases page with
    | none => exact .ret
    | some page => exact .bind only_unknownGraphMessages fun _ => .ret
  · exact .ret

theorem only_fetchBodyText {it : ThreadItem} : (fetchBodyText fns it).Only (Elsewhere merges) := by
  unfold fetchBodyText
  split
  · exact .bind .call fun _ => .ret
  · exact .ret

theorem only_fillBodies {cache : List (BodyKey × String)} (items : List ThreadItem) :
    (fillBodies fns cache items).Only (Elsewhere merges) := by
  induction items with
  | nil => exact .ret
  | cons it items ih =>
    unfold fillBodies
    split
    · exact .bind ih fun _ => .ret
    · exact .bind only_fetchBodyText fun _ => .bind ih fun _ => .ret

theorem only_prepareThread {mappingId : Nat} : (prepareThread fns mappingId).Only (Elsewhere merges) := by
  refine .bind (.within trivial) fun found => ?_
  cases found with
  | none => exact .fail
  | some m =>
    dsimp only
    split
    · exact .fail
    · exact .bind (.within trivial) fun siblings => .bind only_fetchMissingConversationMessages fun extras =>
        .bind (only_fillBodies _) fun items => .ret

theorem only_extrasOf {mappingId : Nat} {m : ThreadMapping} {knownIds : List String} {prepared : Option Prepared} :
    (extrasOf fns mappingId m knownIds prepared).Only (Elsewhere merges) := by
  unfold extrasOf
  split
  · split
    · exact only_unknownGraphMessages
    · exact only_fetchMissingConversationMessages
  · exact only_fetchMissingConversationMessages

theorem only_lookUpSender {address : String} : (lookUpSender address).Only (Elsewhere merges) := by
  unfold lookUpSender
  split
  · exact .ret
  · exact .bind (.attempt trivial) fun _ => .ret

theorem only_matchSenders {box : String} {seen : List String} (items : List ThreadItem) :
    (matchSenders fns box seen items).Only (Elsewhere merges) := by
  induction items generalizing seen with
  | nil => exact .ret
  | cons it items ih =>
    unfold matchSenders
    dsimp only
    split
    · exact ih
    · refine .bind only_lookUpSender fun s => .bind ih fun rest => ?_
      exact .ret

theorem only_syncRequester {ticketId : Nat} (newUserId : Option Nat) :
    (relation (syncRequester ticketId newUserId)).Only (Elsewhere merges) := by
  refine .lift (.bind (.within trivial) fun _ => ?_)
  cases newUserId with
  | none => exact .within trivial
  | some userId => exact .bind (.within trivial) fun _ => .within trivial

theorem only_addSenders {ticketId : Nat} (senders : List ThreadSender) : (addSenders ticketId senders).Only (Elsewhere merges) := by
  induction senders with
  | nil => exact .ret
  | cons sender senders ih =>
    obtain ⟨address, userId, userName, deviceId⟩ := sender
    refine .bind (.lift ?_) fun _ => ih
    cases userId with
    | none => exact .ret
    | some userId => exact .within trivial

theorem only_requester {ticketId : Nat} (userId : Option Nat) :
    (relation (forM userId fun userId => syncRequester ticketId (some userId))).Only (Elsewhere merges) := by
  cases userId with
  | none => exact .lift .ret
  | some userId => exact only_syncRequester (some userId)

theorem only_device {ticketId : Nat} (deviceId : Option Nat) :
    (relation (forM deviceId fun deviceId => addDeviceToTicket ticketId deviceId)).Only (Elsewhere merges) := by
  cases deviceId with
  | none => exact .lift .ret
  | some deviceId => exact .lift (.bind (.within trivial) fun _ => .within trivial)

theorem only_reopen {ticketId : Nat} {status : TicketStatus} : (reopen ticketId status).Only (Elsewhere merges) := by
  unfold reopen
  split
  · exact .bind (.within trivial) fun _ => .bind (.within rfl) fun _ => .ret
  · exact .ret

end Pool

section Transactions

variable {α : Type}

/-- A part of a transaction that files nothing: it goes on to know the mappings that it has read. -/
theorem follows_elsewhere {body : MailTx α} (only : body.Only (Elsewhere merges)) (free : s.phase.Free) :
    (mailContract merges).Follows (fun _ s₁ => s₁.phase.Free ∧ s.rows ⊆ s₁.rows) s body := by
  refine Contract.Follows.only only ⟨free, List.Subset.refl _⟩ fun s₁ q stays elsewhere => ?_
  refine ⟨allowed_elsewhere elsewhere stays.1, fun answer => ?_⟩
  obtain ⟨free₁, rows⟩ := next_elsewhere elsewhere stays.1 answer
  exact ⟨free₁, List.Subset.trans stays.2 rows⟩

theorem follows_appendMessageToTicket {ticketId : Nat} {authorName content id : String}
    (due : ∃ id₁, s.Same id₁ id ∧ s.phase.Expects id₁ ticketId) : (mailContract merges).Follows
      (fun _ s₁ => s₁ = ⟨s.rows, s.phase.sent ticketId⟩) s (appendMessageToTicket ticketId authorName content id) := by
  refine .within (fun id₁ from_ => ?_) fun key => .last trivial fun _ => rfl
  cases from_
  exact due

/-- A new mapping finishes as its thread has it. -/
theorem follows_applyMatch {id : String} {sender : Sender} {threadMatch : Option ThreadMatch} {bodyText : Option String}
    {rows : List (Nat × ThreadMapping)} (mappingId : Nat) : (mailContract merges).Follows (fun ended s₁ =>
      s₁.phase.Finishes mappingId (threadMatch.bind (·.ticketId)) (threadMatch.bind (·.proposalId)) ended.1)
      ⟨rows, .ingested mappingId id⟩ (applyMatch fns mail id sender threadMatch bodyText) := by
  unfold applyMatch
  split
  case h_1 ticketId ticket =>
    rw [ticket]
    have due : ∃ id₁, Stage.Same ⟨rows, .ingested mappingId id⟩ id₁ id ∧ (Phase.ingested mappingId id).Expects id₁ ticketId :=
      ⟨id, .inl rfl, rfl⟩
    refine (follows_appendMessageToTicket due).bind fun _ s₁ sent => .ret ?_
    rw [sent]
    exact ⟨rfl, rfl, rfl⟩
  case h_2 proposalId ticket proposal =>
    rw [ticket, proposal]
    refine .within trivial fun payload => ?_
    cases payload with
    | none => exact .ret ⟨rfl, nofun, nofun⟩
    | some payload => exact .within trivial fun _ => .ret ⟨rfl, nofun, nofun⟩
  case h_3 ticket proposal =>
    rw [ticket, proposal]
    exact .ret ⟨rfl, nofun, fun _ => ⟨rfl, .inl rfl⟩⟩

theorem closes_ingest {id : String} {sender : Sender} {threadMatch : Option ThreadMatch} {bodyText : Option String} :
    (mailContract merges).Closes (ingest fns mail id mailbox sender threadMatch bodyText) := by
  refine .within ⟨.inl rfl, .inl ⟨rfl, rfl⟩⟩ fun created => ?_
  cases created with
  | none => exact .fail
  | some mappingId => exact (follows_applyMatch mappingId).bind fun ended s₁ finishes => .within finishes fun _ => .ret (.inr rfl)

theorem closes_ingestSent {id : String} {ticketId : Nat} {authorName content : String} {time : Int} :
    (mailContract merges).Closes (ingestSent mail id mailbox ticketId authorName content time) := by
  refine .within ⟨.inl rfl, .inr ⟨rfl, nofun⟩⟩ fun created => ?_
  cases created with
  | none => exact .fail
  | some mappingId =>
    refine .within (fun id₁ from_ => ?_) fun key => .within trivial fun _ => .ret (.inr rfl)
    cases from_
    exact ⟨id, .inl rfl, rfl, rfl⟩

/-- The transaction has read the mappings of the items. -/
def Stage.Knows (s : Stage) (items : List ThreadItem) : Prop :=
  ∀ it ∈ items, ∀ mappingId, it.mappingId = some mappingId → ∃ row, (mappingId, row) ∈ s.rows ∧ row.internetMessageId = it.stored

theorem Stage.Knows.mono {items : List ThreadItem} (knows : s.Knows items) (rows : s.rows ⊆ s₁.rows) : s₁.Knows items := by
  intro it member mappingId mapped
  obtain ⟨row, read, same⟩ := knows it member mappingId mapped
  exact ⟨row, rows read, same⟩

/-- The mappings that were read, and the mails that have none. -/
theorem knows_buildItems {mappingId : Nat} {m : ThreadMapping} {siblings : List (Nat × ThreadMapping)} {extras : List Extra}
    (read : ∀ e ∈ (mappingId, m) :: siblings, e ∈ s.rows) : s.Knows (buildItems fns mappingId m siblings extras) := by
  intro it member key mapped
  rcases List.mem_append.mp (List.mem_mergeSort.mp member) with mapping | extra
  · have from_ : it ∈ ((mappingId, m) :: siblings).map fun e => itemOfMapping e.1 e.2 := mapping
    obtain ⟨⟨id, row⟩, inside, rfl⟩ := List.mem_map.mp from_
    cases mapped
    exact ⟨row, read _ inside, rfl⟩
  · obtain ⟨e, -, rfl⟩ := List.mem_map.mp extra
    cases mapped

theorem follows_fillBodies {cache : List (BodyKey × String)} (items : List ThreadItem) : (mailContract merges).Follows
    (fun filled s₁ => s₁ = s ∧ filled.map Prod.fst = items) s (fillBodies fns cache items) := by
  induction items with
  | nil => exact .ret ⟨rfl, rfl⟩
  | cons it items ih =>
    have fetched : (mailContract merges).Follows (fun _ s₁ => s₁ = s) s (fetchBodyText fns it) := by
      unfold fetchBodyText
      split
      · exact .call fun _ => .ret rfl
      · exact .ret rfl
    unfold fillBodies
    split
    · refine ih.bind ?_
      rintro rest s₁ ⟨rfl, filled⟩
      exact .ret ⟨rfl, congrArg (it :: ·) filled⟩
    · refine fetched.bind ?_
      rintro body s₁ rfl
      refine ih.bind ?_
      rintro rest s₂ ⟨rfl, filled⟩
      exact .ret ⟨rfl, congrArg (it :: ·) filled⟩

theorem follows_assembleThread {mappingId : Nat} {m : ThreadMapping} {prepared : Option Prepared} (free : s.phase.Free)
    (read : (mappingId, m) ∈ s.rows) : (mailContract merges).Follows
      (fun items s₁ => s₁.phase.Free ∧ s₁.Knows (items.map Prod.fst)) s (assembleThread fns mappingId m prepared) := by
  refine .within trivial fun siblings => ?_
  refine (follows_elsewhere (s := ⟨siblings ++ s.rows, s.phase⟩) only_extrasOf free).bind ?_
  rintro extras s₁ ⟨free₁, rows⟩
  refine (follows_fillBodies _).weaken ?_
  rintro items s₂ ⟨rfl, filled⟩
  rw [filled]
  refine ⟨free₁, knows_buildItems fun e member => rows ?_⟩
  rcases List.mem_cons.mp member with rfl | sibling
  · exact List.mem_append_right _ read
  · exact List.mem_append_left _ sibling

/-- The item is filed, and its message is due, or nothing was done. -/
theorem follows_fileItem {ticketId : Nat} {it : ThreadItem} (free : s.phase.Free) (knows : s.Knows [it]) :
    (mailContract merges).Follows (fun filed s₁ => s₁.rows = s.rows ∧ if filed = true then ∃ id₁, s₁.Same id₁ it.stored ∧
      s₁.phase = .linked id₁ ticketId else s₁.phase.Free) s (fileItem ticketId it) := by
  unfold fileItem
  cases mapped : it.mappingId with
  | some mappingId =>
    obtain ⟨row, read, same⟩ := knows it List.mem_cons_self mappingId mapped
    refine .last ⟨free, row, read⟩ fun filed => ?_
    cases filed with
    | false => exact ⟨rfl, free⟩
    | true =>
      have some_ : (s.rows.find? fun e => e.1 = mappingId).isSome :=
        List.find?_isSome.mpr ⟨_, read, decide_eq_true rfl⟩
      obtain ⟨e, first⟩ := Option.isSome_iff_exists.mp some_
      have next : (mailContract merges).next s (.linkMapping mappingId ticketId) true =
          ⟨s.rows, .linked e.2.internetMessageId ticketId⟩ := by
        change s.next (.linkMapping mappingId ticketId) true = _
        simp only [Stage.next, first]
      have key : e.1 = mappingId := by simpa using List.find?_some first
      have there : (mappingId, e.2) ∈ s.rows := key ▸ List.mem_of_find?_eq_some first
      rw [next]
      exact ⟨rfl, e.2.internetMessageId, .inr ⟨mappingId, e.2, row, there, read, rfl, same⟩, rfl⟩
  | none =>
    refine .within ⟨free, .inr ⟨rfl, Option.some_ne_none ticketId⟩⟩ fun created => .ret ?_
    cases created with
    | none => exact ⟨rfl, free⟩
    | some key => exact ⟨rfl, it.stored, .inl rfl, rfl⟩

/-- Each round files a mail with its message, or leaves it. -/
theorem follows_appendItems {ticketId appended : Nat} (items : List (ThreadItem × String)) (free : s.phase.Free)
    (knows : s.Knows (items.map Prod.fst)) :
    (mailContract merges).Follows (fun _ s₁ => s₁.phase.Free) s (appendItems ticketId appended items) := by
  induction items generalizing s appended with
  | nil => exact .ret free
  | cons e items ih =>
    obtain ⟨it, body⟩ := e
    have others : s.Knows (items.map Prod.fst) := fun it₁ member => knows it₁ (List.mem_cons_of_mem _ member)
    have here : s.Knows [it] := fun it₁ member => knows it₁ (List.mem_singleton.mp member ▸ List.mem_cons_self)
    refine (follows_fileItem free here).bind ?_
    rintro filed s₁ ⟨rows, ends⟩
    have others₁ : s₁.Knows (items.map Prod.fst) := others.mono (rows ▸ List.Subset.refl _)
    cases filed with
    | false => exact ih ends others₁
    | true =>
      obtain ⟨id₁, same, linked⟩ := ends
      refine .within (fun id from_ => ?_) fun key => ih ?_ others₁
      · cases from_
        rw [linked]
        exact ⟨id₁, same, rfl, rfl⟩
      · change (s₁.phase.sent ticketId).Free
        rw [linked]
        exact .inr rfl

theorem follows_appendThreadToTicket {ticketId : Nat} {items : List (ThreadItem × String)} (free : s.phase.Free)
    (knows : s.Knows (items.map Prod.fst)) :
    (mailContract merges).Follows (fun _ s₁ => s₁.phase.Free) s (appendThreadToTicket ticketId items) :=
  (follows_appendItems items free knows).bind fun _ _ free₁ => .within trivial fun _ => .ret free₁

/-- The mapping is locked and read. -/
theorem follows_lockMapping {mappingId : Nat} (free : s.phase.Free) : (mailContract merges).Follows
    (fun m s₁ => s₁.phase.Free ∧ (mappingId, m) ∈ s₁.rows) s (lockMapping mappingId) := by
  refine .within trivial fun found => ?_
  cases found with
  | none => exact .fail
  | some m =>
    dsimp only
    split
    · exact .fail
    · exact .ret ⟨free, List.mem_cons_self⟩

theorem closes_createTicketFromMapping {mappingId : Nat} {byEntraId : Option Nat} {byName : Option String}
    {prepared : Option Prepared} :
    (mailContract merges).Closes (createTicketFromMapping fns mappingId byEntraId byName prepared) := by
  refine (follows_lockMapping (.inl rfl)).bind ?_
  rintro m s₁ ⟨free₁, read⟩
  refine (follows_assembleThread free₁ read).bind ?_
  rintro items s₂ ⟨free₂, knows⟩
  refine (follows_elsewhere (only_matchSenders _) free₂).bind ?_
  rintro senders s₃ ⟨free₃, rows⟩
  refine .within trivial fun ticketId => ?_
  refine (follows_appendThreadToTicket free₃ (knows.mono rows)).bind fun appended s₄ free₄ => ?_
  refine (follows_elsewhere (only_requester _) free₄).bind ?_
  rintro _ s₅ ⟨free₅, -⟩
  refine (follows_elsewhere (only_device _) free₅).bind ?_
  rintro _ s₆ ⟨free₆, -⟩
  refine (follows_elsewhere (only_addSenders _) free₆).bind ?_
  rintro _ s₇ ⟨free₇, -⟩
  exact .ret free₇

theorem closes_attachMappingToTicket {mappingId ticketId : Nat} {prepared : Option Prepared} :
    (mailContract merges).Closes (attachMappingToTicket fns mappingId ticketId prepared) := by
  refine (follows_lockMapping (.inl rfl)).bind ?_
  rintro m s₁ ⟨free₁, read⟩
  refine .within trivial fun ticket => ?_
  cases ticket with
  | none => exact .fail
  | some ticket =>
    dsimp only
    split
    · exact .fail
    · refine (follows_assembleThread free₁ read).bind ?_
      rintro items s₂ ⟨free₂, knows⟩
      refine (follows_appendThreadToTicket free₂ knows).bind fun appended s₃ free₃ => ?_
      refine (follows_elsewhere only_reopen free₃).bind ?_
      rintro _ s₄ ⟨free₄, -⟩
      refine (follows_elsewhere (only_matchSenders _) free₄).bind ?_
      rintro senders s₅ ⟨free₅, -⟩
      refine (follows_elsewhere (only_addSenders _) free₅).bind ?_
      rintro _ s₆ ⟨free₆, -⟩
      exact .ret free₆

/-- Only mails that wait for their review are dismissed. -/
theorem closes_dismissInboxMapping {mappingId : Nat} {wholeThread : Bool} :
    (mailContract merges).Closes (dismissInboxMapping fns mappingId wholeThread) := by
  refine .within trivial fun found => ?_
  cases found with
  | none => exact .fail
  | some m =>
    dsimp only
    split
    · exact .ret (.inl rfl)
    · split
      · exact .fail
      case isFalse waits =>
        have pending : m.action = some .pending_review := not_not.mp waits
        split
        · refine .within trivial fun siblings => .within ⟨rfl, fun id member => ?_⟩ fun _ => .ret (.inr rfl)
          rcases List.mem_cons.mp member with rfl | sibling
          · exact ⟨m, List.mem_append_right _ List.mem_cons_self, pending⟩
          · obtain ⟨⟨_, row⟩, kept, rfl⟩ := List.mem_map.mp sibling
            obtain ⟨inside, waiting⟩ := List.mem_filter.mp kept
            exact ⟨row, List.mem_append_left _ inside, of_decide_eq_true waiting⟩
        · refine .within ⟨rfl, fun id member => ?_⟩ fun _ => .ret (.inr rfl)
          obtain rfl := List.mem_singleton.mp member
          exact ⟨m, List.mem_cons_self, pending⟩

end Transactions

section Routes

variable {α : Type}

/-- A program that keeps to the contract, whatever the tables hold. -/
abbrev Keeps (merges : Bool) (program : MailApp α) : Prop := (mailContract merges).Kept (fun _ _ => True) program

theorem keeps_processOne (rawMessage : GraphMessage) (mailbox : String) (classified : Bool) :
    Keeps merges (processOne fns rawMessage mailbox classified) := by
  unfold processOne
  dsimp only
  split
  · exact .ret _
  · refine Contract.Kept.bind (.query trivial) fun known => ?_
    split
    · exact .ret _
    · exact .ret _
    · refine Contract.Kept.bind (.onPool only_lookedUp) fun found => ?_
      split
      · exact Contract.Kept.bind (.transaction closes_ingest) fun _ => .ret _
      · exact .ret _

theorem keeps_processSentOne (rawMessage : GraphMessage) (mailbox : String) (dryRun : Bool) :
    Keeps merges (processSentOne fns rawMessage mailbox dryRun) := by
  unfold processSentOne
  dsimp only
  split
  · exact .ret _
  · refine Contract.Kept.bind (.query trivial) fun known => ?_
    split
    · exact .ret _
    · exact .ret _
    · refine Contract.Kept.bind (.onPool only_sentTo) fun found => ?_
      split
      · exact .ret _
      · exact .ret _
      · exact .ret _
      · split
        · exact .ret _
        · exact Contract.Kept.bind (.transaction closes_ingestSent) fun _ => .ret _

theorem keeps_toTicket (mappingId : Nat) (byEntraId : Option Nat) (byName : Option String) :
    Keeps merges (toTicket fns mappingId byEntraId byName) := by
  refine Contract.Kept.bind (.onPool only_prepareThread) fun prepared => ?_
  cases prepared with
  | error e => exact .ret _
  | ok prepared =>
    refine Contract.Kept.bind (.transaction closes_createTicketFromMapping) fun created => ?_
    cases created with
    | error e => exact .ret _
    | ok created => exact .ret _

theorem keeps_attach (mappingId ticketId : Nat) : Keeps merges (attach fns mappingId ticketId) := by
  refine Contract.Kept.bind (.onPool only_prepareThread) fun prepared => ?_
  cases prepared with
  | error e => exact .ret _
  | ok prepared =>
    refine Contract.Kept.bind (.transaction closes_attachMappingToTicket) fun appended => ?_
    cases appended with
    | error e => exact .ret _
    | ok appended => exact .ret _

theorem keeps_dismiss (mappingId : Nat) (wholeThread : Bool) : Keeps merges (dismiss fns mappingId wholeThread) := by
  refine Contract.Kept.bind (.transaction closes_dismissInboxMapping) fun done => ?_
  cases done with
  | error e => exact .ret _
  | ok done => exact .ret _

end Routes

/-- What a process does: mails are taken in, routes are called, and there are other requests, in any order, as the
answers have it. The other requests file no mail and delete no ticket. -/
inductive Work (fns : MailFns) (merges : Bool) : MailApp Unit → Prop
  | done : Work fns merges (.ret ())
  | received {rest} rawMessage mailbox classified : (∀ r, Work fns merges (rest r)) →
      Work fns merges (processOne fns rawMessage mailbox classified >>= rest)
  | sent {rest} rawMessage mailbox dryRun : (∀ r, Work fns merges (rest r)) →
      Work fns merges (processSentOne fns rawMessage mailbox dryRun >>= rest)
  | toTicket {rest} mappingId byEntraId byName : (∀ r, Work fns merges (rest r)) →
      Work fns merges (Mailroom.toTicket fns mappingId byEntraId byName >>= rest)
  | attach {rest} mappingId ticketId : (∀ r, Work fns merges (rest r)) →
      Work fns merges (Mailroom.attach fns mappingId ticketId >>= rest)
  | dismiss {rest} mappingId wholeThread : (∀ r, Work fns merges (rest r)) →
      Work fns merges (Mailroom.dismiss fns mappingId wholeThread >>= rest)
  | query {q rest} : Elsewhere merges q → (∀ r, Work fns merges (rest r)) → Work fns merges (App.query q >>= rest)
  | transaction {body : MailTx Unit} {rest} : body.Only (Elsewhere merges) → (∀ r, Work fns merges (rest r)) →
      Work fns merges (App.transaction body >>= rest)

theorem Work.keeps {program : MailApp Unit} (work : Work fns merges program) : Keeps merges program := by
  induction work with
  | done => exact .ret ()
  | received rawMessage mailbox classified _ ih => exact (keeps_processOne rawMessage mailbox classified).bind ih
  | sent rawMessage mailbox dryRun _ ih => exact (keeps_processSentOne rawMessage mailbox dryRun).bind ih
  | toTicket mappingId byEntraId byName _ ih => exact (keeps_toTicket mappingId byEntraId byName).bind ih
  | attach mappingId ticketId _ ih => exact (keeps_attach mappingId ticketId).bind ih
  | dismiss mappingId wholeThread _ ih => exact (keeps_dismiss mappingId wholeThread).bind ih
  | query elsewhere _ ih => exact Contract.Kept.bind (.query elsewhere) ih
  | transaction only _ ih =>
    exact Contract.Kept.bind (.transaction ((follows_elsewhere only (.inl rfl)).weaken fun _ _ ends => ends.1)) ih

abbrev TicketStore := Store TicketDb TicketChange TicketLock

/-- Any number of processes. -/
def mailThreads (fns : MailFns) (merges : Bool) : Threads (AppOp.Res TicketStmt.Ans MailCall.Reply) TicketStore :=
  ticketSchema.threads (Work fns merges)

/-- Whatever is received, sent and sorted at the same time, wherever a process dies: a mail has one mapping at most and one
message at most, a mail that is in a ticket has its message there, and one without a message is in none. -/
theorem mails_filed {c : Threads.Config (AppOp.Res TicketStmt.Ans MailCall.Reply) TicketStore}
    (reach : (mailThreads fns merges).Reach (fun st => ∃ db, Ledger merges db ∧ st = .start db) c) :
    ∀ id, (mailIn merges c.world.committed id).Filed := by
  have always (t : Nat) (o : AppOp TicketStmt MailCall) (st : TicketStore) : ticketSchema.Meets (fun _ _ => True) t o st := by
    cases o with
    | call c => trivial
    | sql o => cases o <;> trivial
  have everywhere := reach.restrict fun t o st _ _ => always t o st
  exact mail_sound.kept (fun _ work => work.keeps) (fun _ start => start) everywhere

def plainFns : MailFns := ⟨fun _ => [], fun s => s, fun s => s, fun t => t.getD 0, fun _ => ""⟩

def bareMail (id : String) : GraphMessage := ⟨none, some id, some "c", none, none, none, none, none, none, none, []⟩

def firstMapping : ThreadMapping :=
  NewMapping.row (mappingOf (bareMail "a") "a" "b" .inbound none (some .message_appended) (some 1)) 0

def firstMessage : TicketMessage := NewMessage.row ⟨1, .comment, "Ana", "PC lent", .now, none, some "a"⟩ 0

/-- A ticket with its first mail. -/
def oneThread : TicketDb
  | .tickets => (∅ : Table Tickets.Ticket).insert 1
    (NewTicket.row ⟨"PC lent", none, .normal, none, none, "email", true, none, none, none, none⟩ 0)
  | .mappings => (∅ : Table ThreadMapping).insert 1 firstMapping
  | .messages => (∅ : Table TicketMessage).insert 1 firstMessage
  | _ => ∅

theorem only_inserted {α : Type} {k : Nat} {row found : α} (here : ((∅ : Table α).insert 1 row)[k]? = some found) :
    k = 1 ∧ found = row := by
  by_cases same : k = 1
  · subst same
    exact ⟨rfl, (Option.some.inj ((Table.getElem?_insert_self _ _ _).symm.trans here)).symm⟩
  · cases (Table.getElem?_insert_of_ne _ same _).symm.trans here

theorem ledger_oneThread : Ledger false oneThread := by
  intro id
  refine ⟨?_, ?_, ?_, ?_⟩
  · rintro ⟨k, f⟩ ⟨r, found, -, is⟩ ⟨k₁, f₁⟩ ⟨r₁, found₁, -, is₁⟩
    obtain ⟨rfl, rfl⟩ := only_inserted found
    obtain ⟨rfl, rfl⟩ := only_inserted found₁
    rw [Prod.mk.injEq]
    exact ⟨rfl, is.trans is₁.symm⟩
  · rintro ⟨k, f⟩ ⟨r, found, -, is⟩ ⟨k₁, f₁⟩ ⟨r₁, found₁, -, is₁⟩
    obtain ⟨rfl, rfl⟩ := only_inserted found
    obtain ⟨rfl, rfl⟩ := only_inserted found₁
    rw [Prod.mk.injEq]
    exact ⟨rfl, is.trans is₁.symm⟩
  · rintro ⟨e, m, found, from_, -⟩
    obtain ⟨-, rfl⟩ := only_inserted found
    cases from_
    exact ⟨(1, filing false firstMapping), firstMapping, Table.getElem?_insert_self _ 1 _, rfl, rfl⟩
  · rintro ⟨k, f⟩ ⟨r, found, from_, is⟩
    obtain ⟨-, rfl⟩ := only_inserted found
    cases from_
    change f = _ at is
    rw [is]
    refine (if_pos rfl).mpr ⟨(1, 1), ⟨firstMessage, Table.getElem?_insert_self _ 1 _, rfl, rfl⟩, 1, rfl, fun _ => rfl⟩

/-- A reply arrives in the thread. -/
theorem mails_filed_reply : ∃ c, (mailThreads plainFns false).Reach (fun st => ∃ db, Ledger false db ∧ st = .start db) c ∧
    ((c.world.committed .mappings)[2]?.map fun r => (r.action, r.ticketId)) = some (some .message_appended, some 1) ∧
      ((c.world.committed .messages)[3]?.map fun m => (m.fromMail, m.ticketId)) = some (some "r", 1) ∧
      ∀ id, (mailIn false c.world.committed id).Filed := by
  have r : (mailThreads plainFns false).Reach (fun st => ∃ db, Ledger false db ∧ st = .start db) _ :=
    .init ⟨oneThread, ledger_oneThread, rfl⟩
  have r := r.begins 0 _ rfl (.received (bareMail "r") "b" true fun _ => .done)
  have r := r.perform 0 rfl (some []) _ (.inl ⟨⟨0, 0, [], ⟨none, none, none⟩⟩, _, rfl, nofun, rfl, rfl⟩)
  have r := r.perform 0 rfl (some (some ⟨"a", some 1, none⟩)) _ (.inl ⟨⟨0, 0, [1], ⟨none, none, none⟩⟩, _, rfl, nofun, rfl, rfl⟩)
  have r := r.perform 0 rfl (some "Toujours lent") _ rfl
  have r := r.perform 0 rfl true _ (.inl ⟨rfl, rfl⟩)
  have r := r.perform 0 rfl (some (some 2)) _ (.inl ⟨⟨0, 2, [], ⟨none, none, none⟩⟩, _, rfl, fun _ _ => .inl rfl, rfl, rfl⟩)
  have r := r.perform 0 rfl (some 3) _
    (.inl ⟨⟨0, 3, [], ⟨none, none, none⟩⟩, _, rfl, Schema.free_write (fun _ _ _ => .inl rfl) _ _ _, rfl, rfl⟩)
  have r := r.perform 0 rfl (some ()) _ (.inl ⟨⟨0, 4, [], ⟨none, none, none⟩⟩, _, rfl,
    Schema.free_write (Schema.free_write (fun _ _ _ => .inl rfl) _ _) _ _ _, rfl, rfl⟩)
  have r := r.perform 0 rfl (some ()) _ (.inl ⟨⟨0, 5, [], ⟨none, none, none⟩⟩, _, rfl,
    Schema.free_write (Schema.free_write (Schema.free_write (fun _ _ _ => .inl rfl) _ _) _ _) _ _ _, rfl, rfl⟩)
  have r := r.perform 0 rfl true _ (.inl rfl)
  exact ⟨_, r, rfl, rfl, mails_filed r⟩

end Opale.EmailBridge.Mailroom
