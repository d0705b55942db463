import Opale.Tickets.Synced

namespace Opale.Tickets

open Sql EmailBridge

namespace Relations

variable {r : Relations}

/-- A device that the column has already, or takes. -/
theorem deviceSynced_given {deviceId : Nat} {now : Int} (column : ∀ c, r.columns = some c → c.2.or (some deviceId) = some deviceId)
    (first : (∀ other, r.devices other = none) ∨ r.Oldest deviceId) : (r.addDevice deviceId now).DeviceSynced := by
  intro c columns
  obtain ⟨c, before, rfl⟩ := Option.map_eq_some_iff.mp columns
  have here := column c before
  change First _ (c.2.or (some deviceId))
  rw [here]
  refine first_of nofun fun primary some_ => ?_
  cases some_
  rcases first with nothing | ⟨added, found, least⟩
  · refine ⟨(r.devices deviceId).getD now, Function.update_self .., fun other time at_ => ?_⟩
    change Function.update r.devices deviceId _ other = some time at at_
    rw [Function.update_apply] at at_
    split at at_
    case isTrue => exact le_of_eq (Option.some.inj at_)
    case isFalse =>
      rw [nothing other] at at_
      cases at_
  · have unchanged : (r.addDevice deviceId now).devices = r.devices := by
      refine Function.update_eq_self_iff.mpr ?_
      rw [found]
      rfl
    unfold Oldest
    rw [unchanged]
    exact ⟨added, found, least⟩

theorem addDevice_users {deviceId : Nat} {now : Int} (synced : r.UserSynced) : (r.addDevice deviceId now).UserSynced := by
  refine synced.congr ?_ rfl
  unfold addDevice
  rw [Option.map_map]
  rfl

theorem syncRequester_devices {newUserId : Option Nat} (synced : r.DeviceSynced) : (r.syncRequester newUserId).DeviceSynced := by
  refine synced.congr ?_ rfl
  unfold syncRequester
  rw [Option.map_map]
  rfl

end Relations

variable {db : TicketDb} {seen : Option TicketDb} {id userId deviceId : Nat} {value : Unit}

/-- The last statement of the transactions that give the ticket a new date. -/
theorem touchTicket_ends (ends : (within (.touchTicket id)).Ends ticketSchema (some db) (.ok value) seen) :
    Leaves seen (relations db) := by
  obtain ⟨draw, out, ran, -, rfl⟩ := TicketTx.last ends
  exact ⟨_, rfl, relations_touchTicket ran⟩

/-- The relations of one ticket at the end, in the order of the clock. -/
theorem Leaves.holds {r : Relations} (leaves : Leaves seen (Function.update (relations db) id r)) (holds : Holds (relations db))
    (later : ∀ db₁, seen = some db₁ → ∀ id, (relations db id).Later (relations db₁ id))
    (synced : (relations db id).Later r → r.Synced) (attached : r.Attached) : ∃ db₁, seen = some db₁ ∧ Holds (relations db₁) := by
  obtain ⟨db₁, rfl, after⟩ := leaves
  have order := later db₁ rfl id
  rw [after, Function.update_self] at order
  refine ⟨db₁, rfl, ?_⟩
  rw [after]
  exact holds.update (synced order) attached

theorem removeUser_holds (holds : Holds (relations db))
    (ends : (removeUser id userId).Ends ticketSchema (some db) (.ok value) seen)
    (later : ∀ db₁, seen = some db₁ → ∀ id, (relations db id).Later (relations db₁ id)) :
    ∃ db₁, seen = some db₁ ∧ Holds (relations db₁) := by
  obtain ⟨removed, between, first, rest⟩ := Body.Ends.bind ends
  cases removed with
  | false => exact absurd rest Body.not_ends_fail
  | true =>
    obtain ⟨db₂, rfl, after⟩ := removeUserFromTicket_ends first
    have leaves := touchTicket_ends rest
    rw [after] at leaves
    have old := holds id
    refine leaves.holds holds later (fun _ => ⟨Relations.userSynced_remove old.1.1, old.1.2.congr ?_ rfl⟩) fun none_ => ?_
    · unfold Relations.removeUser
      rw [Option.map_map]
      rfl
    · obtain ⟨nobody, nothing⟩ := old.2 (Option.map_eq_none_iff.mp none_)
      refine ⟨fun other => ?_, nothing⟩
      change Function.update (relations db id).users userId none other = none
      rw [Function.update_apply]
      split
      · rfl
      · exact nobody other

theorem addUser_holds {role : UserRole} (holds : Holds (relations db))
    (ends : (addUser id userId role).Ends ticketSchema (some db) (.ok value) seen)
    (later : ∀ db₁, seen = some db₁ → ∀ id, (relations db id).Later (relations db₁ id)) :
    ∃ db₁, seen = some db₁ ∧ Holds (relations db₁) := by
  cases role with
  | requester =>
    obtain ⟨_, between, first, rest⟩ := Body.Ends.bind ends
    obtain ⟨exists_, db₂, rfl, after⟩ := syncRequester_ends first
    have leaves := touchTicket_ends rest
    rw [after] at leaves
    refine leaves.holds holds later (fun _ => ?_) (Relations.attached_of_exists (map_ne_none (exists_ nofun)))
    exact ⟨Relations.userSynced_syncRequester _ _, Relations.syncRequester_devices (holds id).1.2⟩
  | involved =>
    obtain ⟨_, between, first, rest⟩ := Body.Ends.bind ends
    obtain ⟨exists_, db₂, rfl, after⟩ := addInvolvedUser_ends first
    have leaves := touchTicket_ends rest
    rw [after] at leaves
    refine leaves.holds holds later (fun _ => ⟨?_, (holds id).1.2.congr rfl rfl⟩) (Relations.attached_of_exists exists_)
    intro c columns other
    rw [(holds id).1.1 c columns other]
    change _ ↔ Function.update (relations db id).users userId _ other = _
    rw [Function.update_apply]
    by_cases same : other = userId
    · rw [if_pos same, same]
      cases (relations db id).users userId with
      | none => exact iff_of_false nofun nofun
      | some role => rfl
    · rw [if_neg same]

theorem addDevice_holds (holds : Holds (relations db))
    (ends : (addDevice id deviceId).Ends ticketSchema (some db) (.ok value) seen)
    (later : ∀ db₁, seen = some db₁ → ∀ id, (relations db id).Later (relations db₁ id)) :
    ∃ db₁, seen = some db₁ ∧ Holds (relations db₁) := by
  obtain ⟨_, between, first, rest⟩ := Body.Ends.bind ends
  obtain ⟨exists_, now, db₂, rfl, after⟩ := addDeviceToTicket_ends first
  have leaves := touchTicket_ends rest
  rw [after] at leaves
  refine leaves.holds holds later (fun order => ?_) (Relations.attached_of_exists (map_ne_none exists_))
  exact ⟨Relations.addDevice_users (holds id).1.1, Relations.deviceSynced_add (holds id).1.2 order⟩

theorem removeDevice_holds {spelled : Uuid} (holds : Holds (relations db))
    (ends : (removeDevice id spelled).Ends ticketSchema (some db) (.ok value) seen)
    (keeps : (TicketRequest.removeDevice id spelled).Keeps db)
    (later : ∀ db₁, seen = some db₁ → ∀ id, (relations db id).Later (relations db₁ id)) :
    ∃ db₁, seen = some db₁ ∧ Holds (relations db₁) := by
  obtain ⟨removed, between, first, rest⟩ := Body.Ends.bind ends
  cases removed with
  | false => exact absurd rest Body.not_ends_fail
  | true =>
    obtain ⟨deviceId, spelling⟩ := spelled
    have spelling : (⟨deviceId, spelling⟩ : Uuid) = ⟨deviceId, 0⟩ ∨ (⟨deviceId, spelling⟩ : Uuid).id = deviceId ∧
        ∀ c, (relations db id).columns = some c → c.2 ≠ some deviceId := by
      rcases keeps with rfl | other
      · exact .inl rfl
      · exact .inr ⟨rfl, other⟩
    obtain ⟨next, oldest, db₂, rfl, after⟩ := removeDeviceFromTicket_ends first spelling
    have leaves := touchTicket_ends rest
    rw [after] at leaves
    have old := holds id
    refine leaves.holds holds later (fun _ => ⟨old.1.1.congr ?_ rfl, Relations.deviceSynced_remove old.1.2 oldest⟩) fun none_ => ?_
    · unfold Relations.removeDevice
      rw [Option.map_map]
      rfl
    · obtain ⟨nobody, nothing⟩ := old.2 (Option.map_eq_none_iff.mp none_)
      refine ⟨nobody, fun other => ?_⟩
      change Function.update (relations db id).devices deviceId none other = none
      rw [Function.update_apply]
      split
      · rfl
      · exact nothing other

theorem createTicket_holds {t : NewTicket} {tagIds : List Nat} (holds : Holds (relations db))
    (ends : (createTicket t tagIds).Ends ticketSchema (some db) (.ok value) seen)
    (later : ∀ db₁, seen = some db₁ → ∀ id, (relations db id).Later (relations db₁ id)) :
    ∃ db₁, seen = some db₁ ∧ Holds (relations db₁) := by
  obtain ⟨draw, out, ran, rest⟩ := TicketTx.within ends
  obtain ⟨new, inserted⟩ := relations_insertTicket ran
  obtain ⟨nobody, nothing⟩ := (holds out.answer).2 new
  obtain ⟨_, tagged, tags, rest⟩ := Body.Ends.bind rest
  have tagged : Leaves tagged (relations (ticketSchema.applyAll out.changes db)) := by
    split at tags
    case isTrue =>
      obtain ⟨-, rfl⟩ := tags.ret
      exact ⟨_, rfl, rfl⟩
    case isFalse =>
      obtain ⟨draw₁, out₁, ran₁, -, rfl⟩ := TicketTx.last tags
      exact ⟨_, rfl, relations_unrelated ran₁ (.inr (.inr (.inr (.inl ⟨_, _, rfl⟩))))⟩
  obtain ⟨db₁, rfl, same⟩ := tagged
  rw [inserted] at same
  obtain ⟨_, between, users, devices⟩ := Body.Ends.bind rest
  have users : ∃ r, r.UserSynced ∧ r.columns.map Prod.snd = some t.deviceId ∧ (∀ other, r.devices other = none) ∧
      Leaves between (Function.update (relations db) out.answer r) := by
    cases requester : t.userId with
    | none =>
      rw [requester] at users
      obtain ⟨-, rfl⟩ := users.ret
      refine ⟨(relations db out.answer).withColumns (some (t.userId, t.deviceId)), ?_, rfl, nothing, _, rfl, same⟩
      rintro c ⟨⟩ userId
      refine iff_of_false (by rw [requester]; nofun) fun found => ?_
      cases (nobody userId).symm.trans found
    | some userId =>
      rw [requester, Option.forM_some] at users
      obtain ⟨-, db₂, rfl, after⟩ := syncRequester_ends users
      rw [same, Function.update_idem, Function.update_self] at after
      refine ⟨_, Relations.userSynced_syncRequester _ _, ?_, ?_, _, rfl, after⟩
      · rfl
      · exact nothing
  obtain ⟨r, synced, column, alone, db₂, rfl, after⟩ := users
  obtain ⟨c₀, columns, given⟩ := Option.map_eq_some_iff.mp column
  have exists_ : r.columns ≠ none := by
    rw [columns]
    nofun
  cases device : t.deviceId with
  | none =>
    rw [device] at devices given
    obtain ⟨-, rfl⟩ := devices.ret
    refine Leaves.holds ⟨_, rfl, after⟩ holds later (fun _ => ⟨synced, fun c here => ?_⟩) (Relations.attached_of_exists exists_)
    cases columns.symm.trans here
    rw [given]
    exact Relations.first_of (fun _ => alone) nofun
  | some deviceId =>
    rw [device, Option.forM_some] at devices
    rw [device] at given
    obtain ⟨-, now, db₃, rfl, after₁⟩ := addDeviceToTicket_ends devices
    rw [after, Function.update_idem, Function.update_self] at after₁
    refine Leaves.holds ⟨_, rfl, after₁⟩ holds later (fun _ => ⟨Relations.addDevice_users synced, ?_⟩)
      (Relations.attached_of_exists (map_ne_none exists_))
    refine Relations.deviceSynced_given (fun c here => ?_) (.inl alone)
    cases columns.symm.trans here
    rw [given]
    rfl

theorem insertMessage_ends {m : NewMessage} {value : Nat} (ends : (within (.insertMessage m)).Ends ticketSchema (some db) (.ok value) seen) :
    Leaves seen (relations db) := by
  obtain ⟨draw, out, ran, -, rfl⟩ := TicketTx.last ends
  exact ⟨_, rfl, relations_unrelated ran (.inl ⟨_, rfl⟩)⟩

/-- The relations of a ticket when a PATCH has dealt with `user_id`, and only written `device_id`. -/
structure Relations.Patched (patch : TicketPatch) (old r : Relations) : Prop where
  synced : r.UserSynced
  column : r.columns.map Prod.snd = old.columns.map fun c => patch.deviceId.getD c.2
  same : r.devices = old.devices

section

variable {db₁ : TicketDb} {patch : TicketPatch} {r old : Relations}

/-- The requester that the PATCH gives, with its row. -/
theorem patchUser_ends (synced : (relations db id).UserSynced)
    (patched : relations db₁ = Function.update (relations db) id
      ((relations db id).mapColumns fun c => (patch.userId.getD c.1, patch.deviceId.getD c.2)))
    (ends : (forM patch.userId fun userId => syncRequester id userId).Ends ticketSchema (some db₁) (.ok value) seen) :
    ∃ r, Relations.Patched patch (relations db id) r ∧ Leaves seen (Function.update (relations db) id r) := by
  cases user : patch.userId with
  | none =>
    rw [user, Option.forM_none] at ends
    obtain ⟨-, rfl⟩ := ends.ret
    refine ⟨(relations db id).mapColumns fun c => (patch.userId.getD c.1, patch.deviceId.getD c.2),
      ⟨synced.congr ?_ rfl, ?_, rfl⟩, _, rfl, patched⟩
    · unfold Relations.mapColumns
      rw [Option.map_map, user]
      rfl
    · unfold Relations.mapColumns
      rw [Option.map_map]
      rfl
  | some newUserId =>
    rw [user, Option.forM_some] at ends
    obtain ⟨-, db₂, rfl, after⟩ := syncRequester_ends ends
    rw [patched, Function.update_idem, Function.update_self] at after
    refine ⟨_, ⟨Relations.userSynced_syncRequester _ _, ?_, rfl⟩, _, rfl, after⟩
    unfold Relations.syncRequester Relations.mapColumns
    rw [Option.map_map, Option.map_map]
    rfl

/-- The column of the devices, when the PATCH gives one or null. -/
theorem Relations.Patched.given (patched : Relations.Patched patch old r) {device : Option Nat}
    (gives : patch.deviceId = some device) {c : Option Nat × Option Nat} (here : r.columns = some c) : c.2 = device := by
  have column := patched.column
  rw [here, gives] at column
  obtain ⟨c₀, -, same⟩ := Option.map_eq_some_iff.mp column.symm
  exact same.symm

/-- A PATCH without device, or with null for a ticket that has none, leaves the rows in step. -/
theorem Relations.Patched.deviceSynced (patched : Relations.Patched patch old r) (synced : old.DeviceSynced)
    (none_ : patch.deviceId.join = none) (nothing : patch.deviceId = some none → ∀ deviceId, old.devices deviceId = none) :
    r.DeviceSynced := by
  cases device : patch.deviceId with
  | none =>
    refine synced.congr ?_ patched.same
    rw [patched.column, device]
    rfl
  | some device₁ =>
    rw [device] at none_
    obtain rfl : device₁ = none := none_
    intro c here
    rw [patched.given device here]
    refine Relations.first_of (fun _ => ?_) fun _ some_ => by cases some_
    rw [patched.same]
    exact nothing device

/-- The device that the PATCH gives, with its row. -/
theorem patchDevice_ends {displayName : String} (patched : Relations.Patched patch (relations db id) r)
    (exists_ : (relations db id).columns ≠ none) (synced : (relations db id).DeviceSynced)
    (keeps : (TicketRequest.patch id patch displayName).Keeps db) (after : relations db₁ = Function.update (relations db) id r)
    (ends : (forM patch.deviceId.join fun deviceId => addDeviceToTicket id deviceId).Ends ticketSchema (some db₁) (.ok value)
      seen) :
    ∃ r₁, r₁.Synced ∧ r₁.columns ≠ none ∧ Leaves seen (Function.update (relations db) id r₁) := by
  have present : r.columns ≠ none := by
    intro none_
    have column := patched.column
    rw [none_] at column
    exact exists_ (Option.map_eq_none_iff.mp column.symm)
  rcases Option.eq_none_or_eq_some patch.deviceId.join with none_ | ⟨deviceId, some_⟩
  · rw [none_, Option.forM_none] at ends
    obtain ⟨-, rfl⟩ := ends.ret
    refine ⟨r, ⟨patched.synced, patched.deviceSynced synced none_ fun device => ?_⟩, present, _, rfl, after⟩
    rcases keeps none device with nothing | ⟨_, ⟨⟩, -⟩
    exact nothing
  · rw [some_, Option.forM_some] at ends
    have device : patch.deviceId = some (some deviceId) := Option.join_eq_some_iff.mp some_
    obtain ⟨-, now, db₂, rfl, after₁⟩ := addDeviceToTicket_ends ends
    rw [after, Function.update_idem, Function.update_self] at after₁
    refine ⟨_, ⟨Relations.addDevice_users patched.synced, ?_⟩, map_ne_none present, _, rfl, after₁⟩
    refine Relations.deviceSynced_given (fun c here => ?_) ?_
    · rw [patched.given device here]
      rfl
    · unfold Relations.Oldest
      rw [patched.same]
      rcases keeps _ device with nothing | ⟨_, ⟨⟩, oldest⟩
      · exact .inl nothing
      · exact .inr oldest

end

theorem patchTicket_holds {patch : TicketPatch} {displayName : String} (holds : Holds (relations db))
    (ends : (patchTicket id patch displayName).Ends ticketSchema (some db) (.ok value) seen)
    (keeps : (TicketRequest.patch id patch displayName).Keeps db)
    (later : ∀ db₁, seen = some db₁ → ∀ id, (relations db id).Later (relations db₁ id)) :
    ∃ db₁, seen = some db₁ ∧ Holds (relations db₁) := by
  obtain ⟨draw, out, ran, rest⟩ := TicketTx.within ends
  cases ran
  simp only [selected, Schema.applyAll_nil] at rest
  cases found : (db .tickets)[id]? with
  | none =>
    rw [found] at rest
    exact absurd rest Body.not_ends_fail
  | some existing =>
    rw [found] at rest
    obtain ⟨draw₁, out₁, ran₁, rest⟩ := TicketTx.within rest
    obtain ⟨_, between, users, rest⟩ := Body.Ends.bind rest
    obtain ⟨_, between₁, devices, rest⟩ := Body.Ends.bind rest
    have old := (holds id).1
    -- the column `user_id` with its row, then `device_id` with its own
    obtain ⟨r, patched, db₂, rfl, after⟩ := patchUser_ends old.1 (relations_patchTicket ran₁) users
    obtain ⟨r₁, synced, exists_, db₃, rfl, after₁⟩ :=
      patchDevice_ends patched (columns_of_found found) old.2 keeps after devices
    have leaves : Leaves seen (Function.update (relations db) id r₁) := by
      rw [← after₁]
      split at rest
      · split at rest
        · obtain ⟨-, rfl⟩ := rest.ret
          exact ⟨_, rfl, rfl⟩
        · obtain ⟨_, between₂, first, rest⟩ := Body.Ends.bind rest
          obtain ⟨-, rfl⟩ := rest.ret
          exact insertMessage_ends first
      · obtain ⟨-, rfl⟩ := rest.ret
        exact ⟨_, rfl, rfl⟩
    exact leaves.holds holds later (fun _ => synced) (Relations.attached_of_exists exists_)

/-- A request that ends well keeps the columns in step with the rows. -/
theorem request_holds {request : TicketRequest} (holds : Holds (relations db))
    (ends : request.body.Ends ticketSchema (some db) (.ok value) seen) (keeps : request.Keeps db)
    (later : ∀ db₁, seen = some db₁ → ∀ id, (relations db id).Later (relations db₁ id)) :
    ∃ db₁, seen = some db₁ ∧ Holds (relations db₁) := by
  cases request with
  | create t tagIds => exact createTicket_holds holds ends later
  | patch id columns displayName => exact patchTicket_holds holds ends keeps later
  | addUser id userId role => exact addUser_holds holds ends later
  | removeUser id userId => exact removeUser_holds holds ends later
  | addDevice id deviceId => exact addDevice_holds holds ends later
  | removeDevice id deviceId => exact removeDevice_holds holds ends keeps later
  | merge sourceId targetId byName => exact merge_holds holds ends keeps later

/-- The states that the requests reach, one after the other, from a database with no ticket; the
rows of devices follow the clock. -/
inductive Reached (condition : TicketDb → TicketRequest → Prop) : TicketDb → Prop
  | empty : Reached condition fun _ => ∅
  | request {db db₁ : TicketDb} {request : TicketRequest} (before : Reached condition db)
      (performed : Performed request db db₁) (keeps : condition db request)
      (later : ∀ id, (relations db id).Later (relations db₁ id)) : Reached condition db₁

theorem holds_empty : Holds (relations fun _ => ∅) := by
  intro id
  have absent : (relations (fun _ => ∅) id).columns = none := rfl
  refine ⟨⟨fun c here => ?_, fun c here => ?_⟩, fun _ => ⟨fun _ => rfl, fun _ => rfl⟩⟩
  · cases absent.symm.trans here
  · cases absent.symm.trans here

theorem Reached.holds (reached : Reached TicketRequest.Keeps db) : Holds (relations db) := by
  induction reached with
  | empty => exact holds_empty
  | request before performed keeps later ih =>
    obtain ⟨t, result, st, ends, rfl⟩ := performed
    obtain ⟨value, seen, body, committed, -⟩ | ⟨-, same⟩ := ends_transaction ends
    · rw [committed] at later ⊢
      obtain ⟨db₁, rfl, after⟩ := request_holds ih body keeps fun db₁ same => by
        rw [same] at later
        exact later
      exact after
    · rw [same]
      exact ih

/-- The columns `user_id` and `device_id` of every ticket are its requester and its oldest device,
as long as a PATCH gives no other device, the first device is removed under its own spelling, and the
source of a merge has neither. -/
theorem columns_agree (reached : Reached TicketRequest.Keeps db) (id : Nat) : (relations db id).Synced := (reached.holds id).1

theorem performed_of_ends {request : TicketRequest} {db₁ : TicketDb}
    (ends : request.body.Ends ticketSchema (some db) (.ok ()) (some db₁)) : Performed request db db₁ := by
  obtain ⟨st, steps, same⟩ := transaction_ends 0 ends
  exact ⟨0, .ok (), st, steps, same.symm⟩

def slowLaptop : NewTicket where
  title := "PC lent"
  description := none
  priority := .normal
  deviceId := some 7
  userId := some 5
  source := "manual"
  isAuto := false
  createdByEntraId := none
  createdByName := none
  assignedToEntraId := none
  assignedToName := none

def demoDraw : TicketDraw := ⟨0, 1, [], ⟨none, none, none⟩⟩

theorem slowLaptop_created : ∃ db, (createTicket slowLaptop []).Ends ticketSchema (some fun _ => ∅) (.ok ()) (some db) ∧
    (relations db 1).columns = some (some 5, some 7) := by
  refine ⟨_, Schema.step_sees demoDraw rfl (Schema.step_sees demoDraw rfl (Schema.step_sees demoDraw rfl
    (Schema.step_sees demoDraw rfl (Schema.step_sees demoDraw rfl (Schema.step_sees demoDraw rfl .ret))))), ?_⟩
  rfl

theorem later_empty (db : TicketDb) (id : Nat) : (relations (fun _ => ∅) id).Later (relations db id) := by
  intro deviceId added new found other time old
  have nothing : (relations (fun _ => ∅) id).devices other = none := rfl
  cases nothing.symm.trans old

theorem columns_agree_created : ∃ db, (relations db 1).columns = some (some 5, some 7) ∧ (relations db 1).Synced := by
  obtain ⟨db, created, columns⟩ := slowLaptop_created
  have performed : Performed (.create slowLaptop []) (fun _ => ∅) db := performed_of_ends created
  exact ⟨db, columns, columns_agree (.request .empty performed trivial (later_empty db)) 1⟩

def detached : TicketPatch := ⟨none, none, none, none, none, none, none, some none⟩

theorem slowLaptop_detached : ∃ db db₁, (createTicket slowLaptop []).Ends ticketSchema (some fun _ => ∅) (.ok ()) (some db) ∧
    (patchTicket 1 detached "Admin").Ends ticketSchema (some db) (.ok ()) (some db₁) ∧
    (relations db₁ 1).columns = some (some 5, none) ∧ (relations db₁ 1).devices 7 = some 0 ∧
    ∀ id, (relations db id).devices = (relations db₁ id).devices := by
  refine ⟨_, _, Schema.step_sees demoDraw rfl (Schema.step_sees demoDraw rfl (Schema.step_sees demoDraw rfl
    (Schema.step_sees demoDraw rfl (Schema.step_sees demoDraw rfl (Schema.step_sees demoDraw rfl .ret))))),
    Schema.step_sees demoDraw rfl (Schema.step_sees demoDraw rfl .ret), ?columns, ?device, ?same⟩
  case columns => rfl
  case device => rfl
  case same =>
    intro id
    rfl

/-- A PATCH with `device_id` null leaves the row of the device. -/
theorem columns_apart : ¬∀ db, Reached (fun _ _ => True) db → ∀ id, (relations db id).Synced := by
  intro synced
  obtain ⟨db, db₁, created, patched, columns, device, same⟩ := slowLaptop_detached
  have performed : Performed (.create slowLaptop []) (fun _ => ∅) db := performed_of_ends created
  have first : Reached (fun _ _ => True) db := .request .empty performed trivial (later_empty db)
  have second : Reached (fun _ _ => True) db₁ := by
    have performed : Performed (.patch 1 detached "Admin") db db₁ := performed_of_ends patched
    refine .request first performed trivial fun id deviceId added new found => ?_
    rw [same id, found] at new
    cases new
  have nothing := ((synced db₁ second 1).2 _ columns).1.mp rfl 7
  cases nothing.symm.trans device

end Opale.Tickets
