import Opale.Tickets.Merged

namespace Opale.Tickets

open Sql EmailBridge

def movedMessage (source target : Nat) (m : TicketMessage) : TicketMessage :=
  if m.ticketId = source then { m with ticketId := target } else m

def movedMapping (source target : Nat) (m : ThreadMapping) : ThreadMapping :=
  if m.ticketId = some source then { m with ticketId := some target } else m

/-- Everything that the two tickets have is on the target, as the messages, the mails and the rows of the related
tables go; `note` is the message that tells of the merge. -/
structure Moved (db db₁ : TicketDb) (source target : Nat) : Prop where
  messages : ∃ note : Nat, (db .messages)[note]? = none ∧
    ∀ id : Nat, id ≠ note → (db₁ .messages)[id]? = (db .messages)[id]?.map (movedMessage source target)
  mappings (id : Nat) : (db₁ .mappings)[id]? = (db .mappings)[id]?.map (movedMapping source target)
  attachments (id : Nat) (a : TicketAttachment) : (db .attachments)[id]? = some a → a.ticketId = source ∨ a.ticketId = target →
    (db₁ .attachments)[id]? = some { a with ticketId := target }
  tags (tag : Nat) : (db (.tags source))[tag]? ≠ none ∨ (db (.tags target))[tag]? ≠ none → (db₁ (.tags target))[tag]? ≠ none
  users userId : (relations db₁ target).users userId = none ↔
    (relations db source).users userId = none ∧ (relations db target).users userId = none
  devices deviceId : (relations db₁ target).devices deviceId = none ↔
    (relations db source).devices deviceId = none ∧ (relations db target).devices deviceId = none
  kept userId : (relations db target).users userId = some .requester → (relations db₁ target).users userId = some .requester
  requester : (∀ userId, (relations db target).users userId ≠ some .requester) →
    ∀ userId, (relations db source).users userId = some .requester → (relations db₁ target).users userId = some .requester

/-- What a merge moves: tickets without attachments or other tags, and a requester that is not involved already; a
ticket merged into itself has neither users nor devices. -/
def Movable (db : TicketDb) (source target : Nat) : Prop :=
  if source = target then (∀ userId, (relations db source).users userId = none) ∧ ∀ deviceId, (relations db source).devices deviceId = none
  else (∀ (id : Nat) (a : TicketAttachment), (db .attachments)[id]? = some a → a.ticketId ≠ source) ∧
    (∀ tag : Nat, (db (.tags source))[tag]? ≠ none → (db (.tags target))[tag]? ≠ none) ∧
    ∀ userId, (∀ other, (relations db target).users other ≠ some .requester) →
      (relations db source).users userId = some .requester → (relations db target).users userId ≠ some .involved

/-- The tables that a merge writes. -/
def Rewritten (n : TableName) : Prop :=
  n = .tickets ∨ n = .messages ∨ n = .mappings ∨ (∃ id, n = .users id) ∨ ∃ id, n = .devices id

variable {db db₁ : TicketDb} {sourceId targetId : Nat} {byName : Option String} {n : TableName}

theorem mergeUsers_keeps {value : Unit} (ends : (mergeUsers sourceId targetId).Ends ticketSchema (some db) (.ok value) (some db₁))
    (tickets : n ≠ .tickets) (users : n ≠ .users targetId) : db₁ n = db n := by
  have only : (mergeUsers sourceId targetId).Only fun s => ¬s.Writes n := by
    refine .bind (.within id) fun requesters => ?_
    cases requesters with
    | cons => exact .within users
    | nil =>
      refine .bind (.within users) fun _ => .bind (.within id) fun found => ?_
      cases found with
      | nil => exact .ret
      | cons => exact .within tickets
  exact only.keeps (fun db => db n) (fun _ _ _ _ outside ran => kept_run ran outside) ends

theorem messages_insert {m : NewMessage} {draw : TicketDraw} {out : TicketOutcome Nat}
    (ran : (TicketStmt.insertMessage m).run draw db = some out) : (db .messages)[draw.id]? = none ∧
      ∀ id : Nat, id ≠ draw.id → (ticketSchema.applyAll out.changes db .messages)[id]? = (db .messages)[id]? := by
  obtain ⟨allowed, same⟩ := Option.ite_none_right_eq_some.mp ran
  cases same
  have table : ticketSchema.applyAll (written .messages [(draw.id, some (m.row draw.now))] draw.id).changes db .messages =
      Table.putAll [(draw.id, some (m.row draw.now))] (db .messages) := applyAll_writes_self ..
  refine ⟨?_, fun id apart => ?_⟩
  · have absent := (Bool.and_eq_true_iff.mp allowed).2
    rw [Bool.not_eq_true', Std.ExtTreeMap.contains_eq_isSome_getElem?, Option.isSome_eq_false_iff] at absent
    exact Option.isNone_iff_eq_none.mp absent
  · rw [table, Table.getElem?_putAll_singleton, if_neg apart]

theorem messages_repoint {draw : TicketDraw} {out : TicketOutcome Unit}
    (ran : (TicketStmt.repointMessages sourceId targetId).run draw db = some out) (id : Nat) :
    (ticketSchema.applyAll out.changes db .messages)[id]? = (db .messages)[id]?.map (movedMessage sourceId targetId) := by
  obtain ⟨_, same⟩ := Option.ite_none_right_eq_some.mp ran
  cases same
  have table : ticketSchema.applyAll (written .messages ((db .messages).updated (fun _ m => m.ticketId = sourceId) fun m =>
      { m with ticketId := targetId }) ()).changes db .messages = Table.putAll _ (db .messages) := applyAll_writes_self ..
  rw [table, Table.getElem?_putAll_updated]
  unfold movedMessage
  simp only [decide_eq_true_eq]

theorem mappings_repoint {draw : TicketDraw} {out : TicketOutcome Unit}
    (ran : (TicketStmt.repointMappings sourceId targetId).run draw db = some out) (id : Nat) :
    (ticketSchema.applyAll out.changes db .mappings)[id]? = (db .mappings)[id]?.map (movedMapping sourceId targetId) := by
  obtain ⟨_, same⟩ := Option.ite_none_right_eq_some.mp ran
  cases same
  have table : ticketSchema.applyAll (written .mappings ((db .mappings).updated (fun _ m => m.ticketId = some sourceId) fun m =>
      { m with ticketId := some targetId }) ()).changes db .mappings = Table.putAll _ (db .mappings) := applyAll_writes_self ..
  rw [table, Table.getElem?_putAll_updated]
  unfold movedMapping
  simp only [decide_eq_true_eq]

/-- The tables after a merge, but for the tickets, their users and their devices. -/
theorem moveTicket_tables {value : Unit}
    (ends : (moveTicket sourceId targetId byName).Ends ticketSchema (some db) (.ok value) (some db₁)) :
    (∀ n, ¬Rewritten n → db₁ n = db n) ∧
      (∃ note : Nat, (db .messages)[note]? = none ∧
        ∀ id : Nat, id ≠ note → (db₁ .messages)[id]? = (db .messages)[id]?.map (movedMessage sourceId targetId)) ∧
      ∀ id : Nat, (db₁ .mappings)[id]? = (db .mappings)[id]?.map (movedMapping sourceId targetId) := by
  obtain ⟨draw, _, ran₁, later⟩ := TicketTx.within ends
  obtain ⟨_, _, ran₂, later⟩ := TicketTx.within later
  obtain ⟨_, between, users_, later⟩ := later.bind
  obtain ⟨-, _, -, db₃, rfl, -⟩ := mergeUsers_ends users_
  obtain ⟨_, _, ran₄, later⟩ := TicketTx.within later
  obtain ⟨_, _, ran₅, later⟩ := TicketTx.within later
  obtain ⟨_, _, ran₆, later⟩ := TicketTx.within later
  obtain ⟨_, _, ran₇, later⟩ := TicketTx.within later
  obtain ⟨_, _, ran₈, later⟩ := TicketTx.within later
  obtain ⟨_, _, ran₉, later⟩ := TicketTx.within later
  obtain ⟨_, _, ran₀, -, same⟩ := TicketTx.last later
  cases same
  -- the statements between those of the messages and of the mails, and the last two
  have middle (n : TableName) (tickets : n ≠ .tickets) (users : ∀ id, n ≠ .users id) (devices : ∀ id, n ≠ .devices id) :=
    (kept_run ran₇ (devices sourceId)).trans ((kept_run ran₆ tickets).trans ((kept_run ran₅ (devices targetId)).trans
      ((kept_run ran₄ (users sourceId)).trans (mergeUsers_keeps users_ tickets (users targetId)))))
  have last (n : TableName) (tickets : n ≠ .tickets) := (kept_run ran₀ tickets).trans (kept_run ran₉ tickets)
  refine ⟨fun n other => ?_, ?_, fun id => ?_⟩
  · obtain ⟨tickets, messages, mappings, users, devices⟩ : n ≠ .tickets ∧ n ≠ .messages ∧ n ≠ .mappings ∧
        (∀ id, n ≠ .users id) ∧ ∀ id, n ≠ .devices id := by
      simpa [Rewritten, not_or] using other
    exact (last n tickets).trans ((kept_run ran₈ mappings).trans ((middle n tickets users devices).trans
      ((kept_run ran₂ messages).trans (kept_run ran₁ messages))))
  · obtain ⟨new, others⟩ := messages_insert ran₁
    refine ⟨draw.id, new, fun id apart => ?_⟩
    rw [last .messages nofun, kept_run ran₈ (n := .messages) nofun, middle .messages nofun nofun nofun, messages_repoint ran₂,
      others id apart]
  · rw [last .mappings nofun, mappings_repoint ran₈, middle .mappings nofun nofun nofun, kept_run ran₂ (n := .mappings) nofun,
      kept_run ran₁ (n := .mappings) nofun]

section

variable {source target merged : Relations}

theorem mergedUsers_none (shape : MergedUsers source target merged) (userId : Nat) :
    merged.users userId = none ↔ source.users userId = none ∧ target.users userId = none := by
  rcases shape with ⟨-, rfl⟩ | ⟨-, newReq, rfl, -⟩
  · change (target.users userId).or ((source.users userId).map _) = none ↔ _
    rw [Option.or_eq_none_iff, Option.map_eq_none_iff]
    exact and_comm
  · change (target.users userId).or (source.users userId) = none ↔ _
    rw [Option.or_eq_none_iff]
    exact and_comm

theorem mergedUsers_kept (shape : MergedUsers source target merged) {userId : Nat} (requester : target.users userId = some .requester) :
    merged.users userId = some .requester := by
  rcases shape with ⟨-, rfl⟩ | ⟨nobody, -⟩
  · change (target.users userId).or _ = _
    rw [requester]
    rfl
  · exact absurd requester (nobody userId)

/-- The requester of the source is inherited unless it is involved in the target. -/
theorem mergedUsers_requester (shape : MergedUsers source target merged) (nobody : ∀ userId, target.users userId ≠ some .requester)
    {userId : Nat} (requester : source.users userId = some .requester) :
    merged.users userId = some .requester ↔ target.users userId ≠ some .involved := by
  rcases shape with ⟨⟨other, here⟩, -⟩ | ⟨-, newReq, rfl, -⟩
  · exact absurd here (nobody other)
  · change (target.users userId).or (source.users userId) = _ ↔ _
    rw [requester]
    cases role : target.users userId with
    | none => exact iff_of_true rfl nofun
    | some role₁ =>
      cases role₁ with
      | requester => exact absurd role (nobody userId)
      | involved => exact iff_of_false nofun fun other => other rfl

theorem mergedUsers_devices (shape : MergedUsers source target merged) : merged.devices = target.devices := by
  rcases shape with ⟨-, rfl⟩ | ⟨-, newReq, rfl, -⟩
  · rfl
  · rfl

end

/-- A merge that is accepted moves everything exactly when there is nothing that it leaves. -/
theorem moved_iff {value : Unit} (ends : (moveTicket sourceId targetId byName).Ends ticketSchema (some db) (.ok value) (some db₁)) :
    Moved db db₁ sourceId targetId ↔ Movable db sourceId targetId := by
  obtain ⟨kept, messages, mappings⟩ := moveTicket_tables ends
  have attachments : db₁ .attachments = db .attachments := kept _ (by simp [Rewritten])
  have tags (id : Nat) : db₁ (.tags id) = db (.tags id) := kept _ (by simp [Rewritten])
  unfold Movable
  split
  case isTrue same =>
    subst same
    obtain ⟨r, users, devices, ⟨_, ⟨⟩, after⟩, -⟩ := moveTicket_self ends
    have users (userId : Nat) : (relations db₁ sourceId).users userId = none := by rw [after, Function.update_self, users]
    have devices (deviceId : Nat) : (relations db₁ sourceId).devices deviceId = none := by rw [after, Function.update_self, devices]
    constructor
    · intro moved
      exact ⟨fun userId => ((moved.users userId).mp (users userId)).1, fun deviceId => ((moved.devices deviceId).mp (devices deviceId)).1⟩
    · intro ⟨nobody, nothing⟩
      refine ⟨messages, mappings, ?_, ?_, ?_, ?_, ?_, ?_⟩
      · intro id a found here
        have same : a.ticketId = sourceId := or_self_iff.mp here
        rw [attachments, found, ← same]
      · intro tag found
        rw [tags]
        exact or_self_iff.mp found
      · exact fun userId => iff_of_true (users userId) ⟨nobody userId, nobody userId⟩
      · exact fun deviceId => iff_of_true (devices deviceId) ⟨nothing deviceId, nothing deviceId⟩
      · intro userId requester
        cases (nobody userId).symm.trans requester
      · intro _ userId requester
        cases (nobody userId).symm.trans requester
  case isFalse apart =>
    obtain ⟨exists_, merged, now, next, shape, first, ⟨_, ⟨⟩, after⟩⟩ := moveTicket_ends apart ends
    have target : relations db₁ targetId = (relations db sourceId).gathered merged now next := by
      rw [after, Function.update_of_ne (Ne.symm apart), Function.update_self]
    have users (userId : Nat) : (relations db₁ targetId).users userId = merged.users userId := by
      rw [target]
      rfl
    constructor
    · intro moved
      refine ⟨fun id a found here => ?_, fun tag found => ?_, fun userId nobody requester involved => ?_⟩
      · have same := moved.attachments id a found (.inl here)
        rw [attachments, found] at same
        have ticket := congrArg TicketAttachment.ticketId (Option.some.inj same)
        exact apart (here.symm.trans ticket)
      · have there := moved.tags tag (.inl found)
        rw [tags] at there
        exact there
      · have inherited := moved.requester nobody userId requester
        rw [users] at inherited
        exact (mergedUsers_requester shape nobody requester).mp inherited involved
    · intro ⟨nothing, tagged, free⟩
      refine ⟨messages, mappings, ?_, ?_, ?_, ?_, ?_, ?_⟩
      · intro id a found here
        have same : a.ticketId = targetId := here.resolve_left (nothing id a found)
        rw [attachments, found, ← same]
      · intro tag found
        rw [tags]
        exact found.elim (tagged tag) id
      · intro userId
        rw [users]
        exact mergedUsers_none shape userId
      · intro deviceId
        rw [target]
        change (merged.devices deviceId).or (((relations db sourceId).devices deviceId).map _) = none ↔ _
        rw [Option.or_eq_none_iff, Option.map_eq_none_iff, mergedUsers_devices shape]
        exact and_comm
      · intro userId requester
        rw [users]
        exact mergedUsers_kept shape requester
      · intro nobody userId requester
        rw [users]
        exact (mergedUsers_requester shape nobody requester).mpr (free userId nobody requester)

/-- A merge, with no other request at the same time: either it fails and changes nothing, or it is accepted, and moves
everything exactly when there is nothing that it leaves. -/
theorem merge_moves {t : Nat} {source target : Uuid} {result : Except (Thrown TicketError) Unit}
    {st : Store TicketDb TicketChange TicketLock}
    (ends : Rules.Ends (ticketSchema.app Empty.elim t) (App.transaction (mergeTicketInto source target byName)) (.start db) result st) :
    (∃ e, result = .error e) ∧ st.committed = db ∨
      Accepted db source target ∧ (Moved db st.committed source.id target.id ↔ Movable db source.id target.id) := by
  obtain ⟨value, seen, body, committed, -⟩ | failed := ends_transaction ends
  · obtain ⟨accepted, moved⟩ := mergeTicketInto_ends body
    obtain ⟨-, _, _, _, _, _, _, -, -, -, -, -, db₁, rfl, -⟩ := moveTicket_steps moved
    rw [committed]
    exact .inr ⟨accepted, moved_iff moved⟩
  · exact .inl failed

/-- The first of the two tickets has a message, a requester and a device. -/
def askedFor : TicketDb
  | .messages => (∅ : Table TicketMessage).insert 6 (NewMessage.row ⟨1, .comment, "Ana", "Toujours lent", .null, none, none⟩ 0)
  | .users 1 => (∅ : Table TicketUser).insert 8 ⟨.requester, 0⟩
  | .devices 1 => (∅ : Table TicketDevice).insert 9 ⟨0⟩
  | n => reports (report.row 0) (report.row 0) ∅ n

theorem askedFor_merged : ∃ db, (mergeTicketInto ⟨1, 0⟩ ⟨2, 0⟩ none).Ends ticketSchema (some askedFor) (.ok ()) (some db) :=
  ⟨_,
    Schema.step_sees (drawn 3) rfl <| Schema.step_sees (drawn 3) rfl <| Schema.step_sees (drawn 3) rfl <|
    Schema.step_sees (drawn 3) rfl <| Schema.step_sees (drawn 3) rfl <| Schema.step_sees (drawn 3) rfl <|
    Schema.step_sees (drawn 3) rfl <| Schema.step_sees (drawn 3) rfl <| Schema.step_sees (drawn 3) rfl <|
    Schema.step_sees (drawn 3) rfl <| Schema.step_sees { drawn 3 with order := [9] } rfl <| Schema.step_sees (drawn 3) rfl <|
    Schema.step_sees (drawn 3) rfl <| Schema.step_sees (drawn 3) rfl <| Schema.step_sees (drawn 3) rfl <| .ret⟩

theorem merge_moves_askedFor : ∃ db₁, Accepted askedFor ⟨1, 0⟩ ⟨2, 0⟩ ∧
    (Moved askedFor db₁ 1 2 ↔ Movable askedFor 1 2) ∧ Movable askedFor 1 2 := by
  obtain ⟨db₁, merged⟩ := askedFor_merged
  obtain ⟨st, steps, -⟩ := transaction_ends 0 merged
  have movable : Movable askedFor 1 2 := by
    rw [Movable, if_neg (by decide)]
    refine ⟨fun id a found => ?_, fun tag found => absurd rfl found, fun userId nobody requester involved => ?_⟩
    · cases found
    · cases involved
  rcases merge_moves steps with ⟨⟨e, failed⟩, -⟩ | ⟨accepted, moved⟩
  · cases failed
  · exact ⟨_, accepted, moved, movable⟩

/-- The first of the two tickets has a file. -/
def screenshot : TicketDb
  | .attachments => (∅ : Table TicketAttachment).insert 6 ⟨1, "ecran.png", "tickets/1/ecran.png"⟩
  | n => reports (report.row 0) (report.row 0) ∅ n

theorem screenshot_merged : ∃ db, (mergeTicketInto ⟨1, 0⟩ ⟨2, 0⟩ none).Ends ticketSchema (some screenshot) (.ok ()) (some db) :=
  ⟨_,
    Schema.step_sees (drawn 3) rfl <| Schema.step_sees (drawn 3) rfl <| Schema.step_sees (drawn 3) rfl <|
    Schema.step_sees (drawn 3) rfl <| Schema.step_sees (drawn 3) rfl <| Schema.step_sees (drawn 3) rfl <|
    Schema.step_sees (drawn 3) rfl <| Schema.step_sees (drawn 3) rfl <| Schema.step_sees (drawn 3) rfl <|
    Schema.step_sees (drawn 3) rfl <| Schema.step_sees (drawn 3) rfl <| Schema.step_sees (drawn 3) rfl <|
    Schema.step_sees (drawn 3) rfl <| Schema.step_sees (drawn 3) rfl <| .ret⟩

/-- The attachments of the source stay there. -/
theorem merge_leaves : ¬∀ db t source target byName result (st : Store TicketDb TicketChange TicketLock),
    Rules.Ends (ticketSchema.app Empty.elim t) (App.transaction (mergeTicketInto source target byName)) (.start db) result st →
      (∃ e, result = .error e) ∧ st.committed = db ∨ Moved db st.committed source.id target.id := by
  intro moves
  obtain ⟨db₁, merged⟩ := screenshot_merged
  obtain ⟨st, steps, same⟩ := transaction_ends 0 merged
  rcases moves _ 0 _ _ _ _ st steps with ⟨⟨e, failed⟩, -⟩ | moved
  · cases failed
  · rw [same] at moved
    have movable := (moved_iff (mergeTicketInto_ends merged).2).mp moved
    have nothing := (movable : _ ∧ _).1 6 ⟨1, "ecran.png", "tickets/1/ecran.png"⟩ rfl
    exact nothing rfl

end Opale.Tickets
