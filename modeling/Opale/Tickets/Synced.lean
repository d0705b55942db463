import Opale.Tickets.Columns

namespace Opale.Tickets

open Sql EmailBridge

namespace Relations

variable {r r₁ : Relations}

/-- `syncRequester`, on what is related to the ticket. -/
def syncRequester (newUserId : Option Nat) (r : Relations) : Relations where
  columns := r.columns.map fun c => (newUserId, c.2)
  users userId := if newUserId = some userId then some .requester else (r.users userId).filter (· ≠ .requester)
  devices := r.devices

/-- `addDeviceToTicket` -/
def addDevice (deviceId : Nat) (now : Int) (r : Relations) : Relations where
  columns := r.columns.map fun c => (c.1, c.2.or (some deviceId))
  users := r.users
  devices := Function.update r.devices deviceId (some ((r.devices deviceId).getD now))

/-- The rows of devices that are new are not older than those before. -/
def Later (r r₁ : Relations) : Prop := ∀ deviceId added, r.devices deviceId = none → r₁.devices deviceId = some added →
  ∀ other time, r.devices other = some time → time ≤ added

theorem userSynced_syncRequester (newUserId : Option Nat) (r : Relations) : (r.syncRequester newUserId).UserSynced := by
  intro c columns userId
  obtain ⟨c, -, rfl⟩ := Option.map_eq_some_iff.mp columns
  change newUserId = some userId ↔ (if newUserId = some userId then some .requester else (r.users userId).filter (· ≠ .requester)) = _
  by_cases same : newUserId = some userId
  · rw [if_pos same]
    exact iff_of_true same rfl
  · rw [if_neg same]
    refine iff_of_false same fun requester => ?_
    have other := (Option.filter_eq_some_iff.mp requester).2
    cases other

theorem DeviceSynced.congr (synced : r.DeviceSynced) (columns : r₁.columns.map Prod.snd = r.columns.map Prod.snd)
    (devices : r₁.devices = r.devices) : r₁.DeviceSynced := by
  intro c here
  rw [here] at columns
  obtain ⟨c₀, before, same⟩ := Option.map_eq_some_iff.mp columns.symm
  have first := synced c₀ before
  unfold First Oldest at first ⊢
  rw [devices, ← same]
  exact first

theorem UserSynced.congr (synced : r.UserSynced) (columns : r₁.columns.map Prod.fst = r.columns.map Prod.fst)
    (users : r₁.users = r.users) : r₁.UserSynced := by
  intro c here userId
  rw [here] at columns
  obtain ⟨c₀, before, same⟩ := Option.map_eq_some_iff.mp columns.symm
  rw [users, ← same]
  exact synced c₀ before userId

/-- A device is added to those of a ticket. -/
theorem deviceSynced_add {deviceId : Nat} {now : Int} (synced : r.DeviceSynced) (later : r.Later (r.addDevice deviceId now)) :
    (r.addDevice deviceId now).DeviceSynced := by
  intro c columns
  obtain ⟨c, before, rfl⟩ := Option.map_eq_some_iff.mp columns
  obtain ⟨nothing, oldest⟩ := synced c before
  have self : (r.addDevice deviceId now).devices deviceId = some ((r.devices deviceId).getD now) := Function.update_self ..
  have others {other : Nat} (apart : other ≠ deviceId) : (r.addDevice deviceId now).devices other = r.devices other :=
    Function.update_of_ne apart ..
  refine first_of (fun none_ => ?_) fun first some_ => ?_
  · cases found : c.2 <;> rw [found] at none_ <;> cases none_
  · cases found : c.2 with
    | none =>
      rw [found] at some_
      cases some_
      refine ⟨_, self, fun other time at_ => ?_⟩
      by_cases same : other = deviceId
      · rw [same, self] at at_
        exact le_of_eq (Option.some.inj at_)
      · cases (nothing.mp found other).symm.trans ((others same).symm.trans at_)
    | some oldestId =>
      rw [found] at some_
      cases some_
      obtain ⟨added, here, least⟩ := oldest first found
      by_cases there : r.devices deviceId = none
      · have apart : first ≠ deviceId := by
          rintro rfl
          cases there.symm.trans here
        refine ⟨added, (others apart).trans here, fun other time at_ => ?_⟩
        by_cases same : other = deviceId
        · subst same
          exact later other time there at_ first added here
        · exact least other time ((others same).symm.trans at_)
      · have unchanged : (r.addDevice deviceId now).devices = r.devices := by
          refine Function.update_eq_self_iff.mpr ?_
          obtain ⟨old, some_⟩ := Option.ne_none_iff_exists'.mp there
          rw [some_]
          rfl
        unfold Oldest
        rw [unchanged]
        exact ⟨added, here, least⟩

/-- `removeUserFromTicket` -/
def removeUser (userId : Nat) (r : Relations) : Relations where
  columns := r.columns.map fun c => (if r.users userId = some .requester then none else c.1, c.2)
  users := Function.update r.users userId none
  devices := r.devices

theorem userSynced_remove {userId : Nat} (synced : r.UserSynced) : (r.removeUser userId).UserSynced := by
  intro c columns other
  obtain ⟨c, before, rfl⟩ := Option.map_eq_some_iff.mp columns
  have here := synced c before
  change (if r.users userId = some .requester then none else c.1) = some other ↔
    Function.update r.users userId none other = some .requester
  rw [Function.update_apply]
  by_cases requester : r.users userId = some .requester
  · rw [if_pos requester]
    refine iff_of_false nofun ?_
    split
    case isTrue => nofun
    case isFalse apart =>
      intro second
      have first := (here userId).mpr requester
      cases first.symm.trans ((here other).mpr second)
      exact apart rfl
  · rw [if_neg requester]
    split
    case isTrue same =>
      subst same
      exact iff_of_false (fun some_ => requester ((here other).mp some_)) nofun
    case isFalse => exact here other

/-- `removeDeviceFromTicket`; `next` takes the place of the device in the column. -/
def removeDevice (deviceId : Nat) (next : Option Nat) (r : Relations) : Relations where
  columns := r.columns.map fun c => (c.1, if c.2 = some deviceId then next else c.2)
  users := r.users
  devices := Function.update r.devices deviceId none

theorem deviceSynced_remove {deviceId : Nat} {next : Option Nat} (synced : r.DeviceSynced)
    (first : ∀ c, r.columns = some c → c.2 = some deviceId → (r.removeDevice deviceId next).First next) :
    (r.removeDevice deviceId next).DeviceSynced := by
  intro c columns
  obtain ⟨c, before, rfl⟩ := Option.map_eq_some_iff.mp columns
  obtain ⟨nothing, oldest⟩ := synced c before
  change First _ (if c.2 = some deviceId then next else c.2)
  by_cases primary : c.2 = some deviceId
  · rw [if_pos primary]
    exact first c before primary
  · rw [if_neg primary]
    have others {other : Nat} (apart : other ≠ deviceId) : (r.removeDevice deviceId next).devices other = r.devices other :=
      Function.update_of_ne apart ..
    have fewer {other : Nat} {time : Int} (found : (r.removeDevice deviceId next).devices other = some time) :
        r.devices other = some time := by
      by_cases same : other = deviceId
      · have gone : (r.removeDevice deviceId next).devices deviceId = none := Function.update_self ..
        rw [same, gone] at found
        cases found
      · exact (others same).symm.trans found
    refine first_of (fun none_ other => ?_) fun old some_ => ?_
    · refine Option.eq_none_iff_forall_ne_some.mpr fun time found => ?_
      cases (nothing.mp none_ other).symm.trans (fewer found)
    · obtain ⟨added, here, least⟩ := oldest old some_
      have apart : old ≠ deviceId := by
        rintro rfl
        exact primary some_
      exact ⟨added, (others apart).trans here, fun other time found => least other time (fewer found)⟩

/-- The users of the target of a merge that has its requester. -/
def demoted (source target : Relations) : Relations where
  columns := target.columns
  users userId := (target.users userId).or ((source.users userId).map fun _ => .involved)
  devices := target.devices

/-- The users of the target of a merge that has none; `newReq` is the requester that it inherits. -/
def inherited (source target : Relations) (newReq : Option Nat) : Relations where
  columns := target.columns.map fun c => (c.1.or newReq, c.2)
  users userId := (target.users userId).or (source.users userId)
  devices := target.devices

/-- The devices of the target of a merge. -/
def gathered (source target : Relations) (now : Int) (next : Option Nat) : Relations where
  columns := target.columns.map fun c => (c.1, c.2.or next)
  users := target.users
  devices deviceId := (target.devices deviceId).or ((source.devices deviceId).map fun _ => now)

/-- What is left of the source of a merge. -/
def emptied (source : Relations) : Relations where
  columns := source.columns
  users _ := none
  devices _ := none

variable {source target : Relations}

theorem userSynced_demoted (synced : target.UserSynced) : (demoted source target).UserSynced := by
  intro c columns userId
  rw [synced c columns userId]
  change _ ↔ (target.users userId).or ((source.users userId).map fun _ => .involved) = _
  cases target.users userId with
  | some role => rfl
  | none => cases source.users userId <;> simp

theorem userSynced_inherited {newReq : Option Nat} (synced : target.UserSynced) (sourceSynced : source.UserSynced)
    (exists_ : source.columns ≠ none) (nobody : ∀ userId, target.users userId ≠ some .requester)
    (found : ∀ userId, newReq = some userId → (inherited source target newReq).users userId = some .requester)
    (missing : newReq = none → ∀ userId, (inherited source target newReq).users userId ≠ some .requester) :
    (inherited source target newReq).UserSynced := by
  intro c columns userId
  obtain ⟨c, before, rfl⟩ := Option.map_eq_some_iff.mp columns
  have none_ : c.1 = none := Option.eq_none_iff_forall_ne_some.mpr fun userId some_ =>
    nobody userId ((synced c before userId).mp some_)
  change c.1.or newReq = some userId ↔ _
  rw [none_, Option.none_or]
  refine ⟨found userId, fun requester => ?_⟩
  obtain ⟨c₁, here⟩ := Option.ne_none_iff_exists'.mp exists_
  have fromSource {key : Nat} (requester : (inherited source target newReq).users key = some .requester) : c₁.1 = some key := by
    rcases Option.or_eq_some_iff.mp requester with old | ⟨-, new⟩
    · exact absurd old (nobody key)
    · exact (sourceSynced c₁ here key).mpr new
  cases some_ : newReq with
  | none => exact absurd requester (missing some_ userId)
  | some other =>
    cases (fromSource requester).symm.trans (fromSource (found other some_))
    rfl

theorem deviceSynced_gathered {now : Int} {next : Option Nat} (synced : target.DeviceSynced)
    (first : (gathered source target now next).First next) (later : target.Later (gathered source target now next)) :
    (gathered source target now next).DeviceSynced := by
  intro c columns
  obtain ⟨c, before, rfl⟩ := Option.map_eq_some_iff.mp columns
  obtain ⟨nothing, oldest⟩ := synced c before
  change First _ (c.2.or next)
  cases device : c.2 with
  | none => exact first
  | some old =>
    obtain ⟨added, here, least⟩ := oldest old device
    have kept {other : Nat} {time : Int} (at_ : target.devices other = some time) :
        (gathered source target now next).devices other = some time := Option.or_eq_some_iff.mpr (.inl at_)
    refine first_of nofun fun primary some_ => ?_
    cases some_
    refine ⟨added, kept here, fun other time at_ => ?_⟩
    rcases Option.or_eq_some_iff.mp at_ with before | ⟨new, -⟩
    · exact least other time before
    · exact later other time new at_ old added here

theorem synced_emptied (synced : source.Synced) (nobody : ∀ userId, source.users userId ≠ some .requester)
    (nothing : ∀ deviceId, source.devices deviceId = none) : source.emptied.Synced := by
  refine ⟨fun c columns userId => ?_, fun c columns => ?_⟩
  · exact iff_of_false (fun some_ => nobody userId ((synced.1 c columns userId).mp some_)) nofun
  · have none_ := (synced.2 c columns).1.mpr nothing
    rw [none_]
    exact first_of (fun _ _ => rfl) nofun

end Relations

variable {db : TicketDb} {seen : Option TicketDb} {id userId deviceId sourceId targetId : Nat}

theorem TicketTx.within {α : Type} {s : TicketStmt} {rest : s.Ans → TicketTx α} {value : α}
    (ends : (Tickets.within s >>= rest).Ends ticketSchema (some db) (.ok value) seen) : ∃ draw out, s.run draw db = some out ∧
      (rest out.answer).Ends ticketSchema (some (ticketSchema.applyAll out.changes db)) (.ok value) seen := by
  obtain ⟨_, draw, out, same, ran, later⟩ := ends.within
  cases same
  exact ⟨draw, out, ran, later⟩

theorem TicketTx.last {s : TicketStmt} {value : s.Ans}
    (ends : (Tickets.within s).Ends ticketSchema (some db) (.ok value) seen) : ∃ draw out, s.run draw db = some out ∧
      value = out.answer ∧ seen = some (ticketSchema.applyAll out.changes db) := by
  obtain ⟨_, draw, out, same, ran, answered, after⟩ := ends.last
  cases same
  exact ⟨draw, out, ran, answered, after⟩

/-- A body that ends well leaves these relations. -/
def Leaves (seen : Option TicketDb) (rs : Nat → Relations) : Prop := ∃ db₁, seen = some db₁ ∧ relations db₁ = rs

theorem syncRequester_ends {newUserId : Option Nat} {value : Unit}
    (ends : (syncRequester id newUserId).Ends ticketSchema (some db) (.ok value) seen) :
    (newUserId ≠ none → (relations db id).columns ≠ none) ∧
      Leaves seen (Function.update (relations db) id ((relations db id).syncRequester newUserId)) := by
  obtain ⟨draw, out, ran, later⟩ := TicketTx.within ends
  have deleted := relations_deleteRequester ran
  cases newUserId with
  | none =>
    obtain ⟨draw₁, out₁, ran₁, -, rfl⟩ := TicketTx.last later
    refine ⟨absurd rfl, _, rfl, ?_⟩
    rw [relations_setUserId ran₁, deleted, Function.update_idem, Function.update_self]
    rfl
  | some userId =>
    obtain ⟨draw₁, out₁, ran₁, later⟩ := TicketTx.within later
    obtain ⟨draw₂, out₂, ran₂, -, rfl⟩ := TicketTx.last later
    obtain ⟨exists_, inserted⟩ := relations_insertRequester ran₁
    rw [deleted, Function.update_self] at exists_
    refine ⟨fun _ => exists_, _, rfl, ?_⟩
    rw [relations_setUserId ran₂, inserted, deleted, Function.update_idem, Function.update_idem,
      Function.update_self, Function.update_self]
    congr 1
    unfold Relations.mapColumns Relations.withUsers Relations.syncRequester
    congr 1
    funext key
    dsimp only
    rw [Function.update_apply]
    by_cases same : key = userId
    · rw [if_pos same, if_pos (congrArg some same.symm)]
    · rw [if_neg same, if_neg fun here => same (Option.some.inj here).symm]

theorem addDeviceToTicket_ends {value : Unit}
    (ends : (addDeviceToTicket id deviceId).Ends ticketSchema (some db) (.ok value) seen) :
    (relations db id).columns ≠ none ∧
      ∃ now, Leaves seen (Function.update (relations db) id ((relations db id).addDevice deviceId now)) := by
  obtain ⟨draw, out, ran, later⟩ := TicketTx.within ends
  obtain ⟨draw₁, out₁, ran₁, -, rfl⟩ := TicketTx.last later
  obtain ⟨exists_, inserted⟩ := relations_insertDevice ran
  refine ⟨exists_, draw.now, _, rfl, ?_⟩
  rw [relations_setDeviceId ran₁, inserted, Function.update_idem, Function.update_self]
  rfl

theorem addInvolvedUser_ends {value : Unit} (ends : (addInvolvedUser id userId).Ends ticketSchema (some db) (.ok value) seen) :
    (relations db id).columns ≠ none ∧ Leaves seen (Function.update (relations db) id ((relations db id).withUsers
      (Function.update (relations db id).users userId (some (((relations db id).users userId).getD .involved))))) := by
  obtain ⟨draw, out, ran, -, rfl⟩ := TicketTx.last ends
  obtain ⟨exists_, inserted⟩ := relations_insertInvolved ran
  exact ⟨exists_, _, rfl, inserted⟩

theorem removeUserFromTicket_ends (ends : (removeUserFromTicket id userId).Ends ticketSchema (some db) (.ok true) seen) :
    Leaves seen (Function.update (relations db) id ((relations db id).removeUser userId)) := by
  obtain ⟨draw, out, ran, later⟩ := TicketTx.within ends
  obtain ⟨deleted, answer⟩ := relations_deleteUser ran
  rw [answer] at later
  cases role : (relations db id).users userId with
  | none =>
    rw [role] at later
    cases later.ret.1
  | some role₁ =>
    rw [role] at later
    cases role₁ with
    | requester =>
      obtain ⟨draw₁, out₁, ran₁, later⟩ := TicketTx.within later
      obtain ⟨-, rfl⟩ := later.ret
      refine ⟨_, rfl, ?_⟩
      rw [relations_setUserId ran₁, deleted, Function.update_idem, Function.update_self]
      unfold Relations.removeUser
      simp only [role, if_true]
      rfl
    | involved =>
      obtain ⟨-, rfl⟩ := later.ret
      refine ⟨_, rfl, ?_⟩
      have keep : (fun c : Option Nat × Option Nat => (if some UserRole.involved = some .requester then none else c.1, c.2)) = fun c => c := rfl
      rw [deleted]
      unfold Relations.removeUser Relations.withUsers
      rw [role, keep, Option.map_id']

theorem removeDeviceFromTicket_ends {spelled : Uuid}
    (ends : (removeDeviceFromTicket id spelled).Ends ticketSchema (some db) (.ok true) seen)
    (spelling : spelled = ⟨deviceId, 0⟩ ∨ spelled.id = deviceId ∧ ∀ c, (relations db id).columns = some c → c.2 ≠ some deviceId) :
    ∃ next, (∀ c, (relations db id).columns = some c → c.2 = some deviceId →
        ((relations db id).removeDevice deviceId next).First next) ∧
      Leaves seen (Function.update (relations db) id ((relations db id).removeDevice deviceId next)) := by
  have same : spelled.id = deviceId := by
    rcases spelling with rfl | ⟨same, -⟩
    · rfl
    · exact same
  obtain ⟨draw, out, ran, later⟩ := TicketTx.within ends
  obtain ⟨deleted, answer⟩ := relations_deleteDevice ran
  rw [same] at deleted answer
  rw [answer] at later
  cases found : (relations db id).devices deviceId with
  | none =>
    rw [found] at later
    cases later.ret.1
  | some added =>
    rw [found] at later
    obtain ⟨draw₁, out₁, ran₁, later⟩ := TicketTx.within later
    cases ran₁
    have column : (relations (ticketSchema.applyAll out.changes db) id).columns = (relations db id).columns := by
      rw [deleted, Function.update_self]
      rfl
    have stored : ((ticketSchema.applyAll out.changes db .tickets)[id]?.map (·.deviceId)) = (relations db id).columns.map (·.2) := by
      rw [← column]
      unfold relations
      rw [Option.map_map]
      rfl
    have kept (other : ∀ c, (relations db id).columns = some c → c.2 ≠ some deviceId)
        (same : seen = some (ticketSchema.applyAll out.changes db)) : ∃ next, (∀ c, (relations db id).columns = some c →
          c.2 = some deviceId → ((relations db id).removeDevice deviceId next).First next) ∧
        Leaves seen (Function.update (relations db) id ((relations db id).removeDevice deviceId next)) := by
      refine ⟨none, fun c here primary => absurd primary (other c here), _, same, ?_⟩
      rw [deleted]
      unfold Relations.removeDevice Relations.withDevices
      congr 2
      cases here : (relations db id).columns with
      | none => rfl
      | some c => rw [Option.map_some, if_neg (other c here)]
    simp only [readOnly, Schema.applyAll_nil, stored] at later
    rcases Option.eq_none_or_eq_some (relations db id).columns with here | ⟨⟨user, device⟩, here⟩
    · rw [here] at later
      exact kept (by rw [here]; nofun) later.ret.2
    · rw [here] at later
      cases device with
      | none => exact kept (by rw [here]; rintro c ⟨⟩; nofun) later.ret.2
      | some primary =>
        simp only [Option.map_some] at later
        split at later
        case isTrue written =>
          obtain ⟨draw₂, out₂, ran₂, later⟩ := TicketTx.within later
          obtain ⟨draw₃, out₃, ran₃, later⟩ := TicketTx.within later
          obtain ⟨-, rfl⟩ := later.ret
          obtain ⟨first, unchanged⟩ := relations_oldestDevice ran₂
          rw [deleted, Function.update_self] at first
          refine ⟨out₂.answer, fun _ _ _ => first, _, rfl, ?_⟩
          rw [relations_replaceDeviceId ran₃, unchanged, deleted, Function.update_idem, Function.update_self]
          unfold Relations.removeDevice Relations.mapColumns Relations.withDevices
          congr 2
          have primary_ : primary = deviceId := (congrArg Uuid.id written).trans same
          rw [here, Option.map_some, Option.map_some, if_pos (congrArg some primary_)]
        case isFalse apart =>
          rcases spelling with rfl | ⟨-, other⟩
          · refine kept ?_ later.ret.2
            rw [here]
            rintro c ⟨⟩ primary_
            exact apart (congrArg (Uuid.mk · 0) (Option.some.inj primary_))
          · exact kept other later.ret.2

theorem mem_requesters {userId : Nat} : userId ∈ requesters db id ↔ (relations db id).users userId = some .requester := by
  unfold requesters relations
  rw [List.mem_map, Option.map_eq_some_iff]
  constructor
  · rintro ⟨⟨key, u⟩, member, rfl⟩
    obtain ⟨found, role⟩ := (Table.mem_select (p := fun _ (u : TicketUser) => u.role = .requester)).mp member
    exact ⟨u, found, of_decide_eq_true role⟩
  · intro ⟨u, found, role⟩
    exact ⟨(userId, u), (Table.mem_select (p := fun _ (u : TicketUser) => u.role = .requester)).mpr ⟨found, decide_eq_true role⟩, rfl⟩

/-- What `mergeUsers` makes of the target. -/
def MergedUsers (source target merged : Relations) : Prop :=
  (∃ userId, target.users userId = some .requester) ∧ merged = source.demoted target ∨
    (∀ userId, target.users userId ≠ some .requester) ∧ ∃ newReq, merged = source.inherited target newReq ∧
      (∀ userId, newReq = some userId → merged.users userId = some .requester) ∧
      (newReq = none → ∀ userId, merged.users userId ≠ some .requester)

theorem mergeUsers_ends {value : Unit} (ends : (mergeUsers sourceId targetId).Ends ticketSchema (some db) (.ok value) seen) :
    (relations db targetId).columns ≠ none ∧ ∃ merged, MergedUsers (relations db sourceId) (relations db targetId) merged ∧
      Leaves seen (Function.update (relations db) targetId merged) := by
  obtain ⟨draw, out, ran, later⟩ := TicketTx.within ends
  cases ran
  simp only [readOnly, Schema.applyAll_nil] at later
  cases listed : requesters db targetId with
  | cons requester others =>
    rw [listed] at later
    obtain ⟨draw₁, out₁, ran₁, -, rfl⟩ := TicketTx.last later
    obtain ⟨exists_, copied⟩ := relations_copyUsers ran₁
    have member : requester ∈ requesters db targetId := listed ▸ List.mem_cons_self
    exact ⟨exists_, _, .inl ⟨⟨requester, mem_requesters.mp member⟩, rfl⟩, _, rfl, copied⟩
  | nil =>
    rw [listed] at later
    obtain ⟨draw₁, out₁, ran₁, later⟩ := TicketTx.within later
    obtain ⟨exists_, copied⟩ := relations_copyUsers ran₁
    have nobody (userId : Nat) : (relations db targetId).users userId ≠ some .requester := by
      intro requester
      have member := mem_requesters.mpr requester
      rw [listed] at member
      exact absurd member List.not_mem_nil
    obtain ⟨draw₂, out₂, ran₂, later⟩ := TicketTx.within later
    cases ran₂
    simp only [readOnly, Schema.applyAll_nil] at later
    have users (userId : Nat) : userId ∈ requesters (ticketSchema.applyAll out₁.changes db) targetId ↔
        ((relations db targetId).users userId).or ((relations db sourceId).users userId) = some .requester := by
      rw [mem_requesters, copied, Function.update_self]
      simp only [Relations.withUsers, Bool.false_eq_true, if_false, Option.map_id']
    cases listed₁ : requesters (ticketSchema.applyAll out₁.changes db) targetId with
    | nil =>
      rw [listed₁] at later
      obtain ⟨-, rfl⟩ := later.ret
      refine ⟨exists_, _, .inr ⟨nobody, none, rfl, nofun, fun _ userId requester => ?_⟩, _, rfl, ?_⟩
      · have member := (users userId).mpr requester
        rw [listed₁] at member
        exact absurd member List.not_mem_nil
      · rw [copied]
        unfold Relations.withUsers Relations.inherited
        simp only [Bool.false_eq_true, if_false, Option.map_id', Option.or_none]
    | cons newReq others =>
      rw [listed₁] at later
      obtain ⟨draw₃, out₃, ran₃, -, rfl⟩ := TicketTx.last later
      have member : newReq ∈ requesters (ticketSchema.applyAll out₁.changes db) targetId := listed₁ ▸ List.mem_cons_self
      refine ⟨exists_, _, .inr ⟨nobody, some newReq, rfl, ?_, nofun⟩, _, rfl, ?_⟩
      · rintro userId ⟨⟩
        exact (users newReq).mp member
      · rw [relations_inheritUserId ran₃, copied, Function.update_idem, Function.update_self]
        unfold Relations.withUsers Relations.inherited Relations.mapColumns
        simp only [Bool.false_eq_true, if_false, Option.map_id']

/-- The statements of a merge, one after the other. -/
theorem moveTicket_steps {byName : Option String} {value : Unit}
    (ends : (moveTicket sourceId targetId byName).Ends ticketSchema (some db) (.ok value) seen) :
    (relations db targetId).columns ≠ none ∧ ∃ merged now next, ∃ rs₁ rs₂ rs₃ : Nat → Relations,
      MergedUsers (relations db sourceId) (relations db targetId) merged ∧
      rs₁ = Function.update (Function.update (relations db) targetId merged) sourceId
        ((Function.update (relations db) targetId merged sourceId).withUsers fun _ => none) ∧
      rs₂ = Function.update rs₁ targetId ((rs₁ targetId).withDevices fun deviceId =>
        ((rs₁ targetId).devices deviceId).or (((rs₁ sourceId).devices deviceId).map fun _ => now)) ∧
      (rs₂ targetId).First next ∧
      rs₃ = Function.update rs₂ targetId ((rs₂ targetId).mapColumns fun c => (c.1, c.2.or next)) ∧
      Leaves seen (Function.update rs₃ sourceId ((rs₃ sourceId).withDevices fun _ => none)) := by
  obtain ⟨draw₁, out₁, ran₁, later⟩ := TicketTx.within ends
  have noted := relations_unrelated ran₁ (.inl ⟨_, rfl⟩)
  obtain ⟨draw₂, out₂, ran₂, later⟩ := TicketTx.within later
  have messages := (relations_unrelated ran₂ (.inr (.inl ⟨_, _, rfl⟩))).trans noted
  obtain ⟨_, between, first, later⟩ := later.bind
  obtain ⟨exists_, merged, shape, db₃, rfl, users⟩ := mergeUsers_ends first
  rw [messages] at exists_ shape users
  obtain ⟨draw₄, out₄, ran₄, later⟩ := TicketTx.within later
  obtain ⟨draw₅, out₅, ran₅, later⟩ := TicketTx.within later
  obtain ⟨draw₆, out₆, ran₆, later⟩ := TicketTx.within later
  obtain ⟨draw₇, out₇, ran₇, later⟩ := TicketTx.within later
  obtain ⟨draw₈, out₈, ran₈, later⟩ := TicketTx.within later
  obtain ⟨draw₉, out₉, ran₉, later⟩ := TicketTx.within later
  obtain ⟨draw₀, out₀, ran₀, -, rfl⟩ := TicketTx.last later
  have emptied := relations_deleteUsers ran₄
  have copied := (relations_copyDevices ran₅).2
  obtain ⟨next, oldest, inherits⟩ := relations_inheritDeviceId ran₆
  have deleted := relations_deleteDevices ran₇
  rw [users] at emptied
  refine ⟨exists_, merged, draw₅.now, next, _, _, _, shape, emptied, copied, oldest, inherits, _, rfl, ?_⟩
  rw [relations_touchTicket ran₀, relations_markMerged ran₉, relations_unrelated ran₈ (.inr (.inr (.inl ⟨_, _, rfl⟩))), deleted]

theorem moveTicket_ends {byName : Option String} {value : Unit} (apart : sourceId ≠ targetId)
    (ends : (moveTicket sourceId targetId byName).Ends ticketSchema (some db) (.ok value) seen) :
    (relations db targetId).columns ≠ none ∧ ∃ merged now next, MergedUsers (relations db sourceId) (relations db targetId) merged ∧
      ((relations db sourceId).gathered merged now next).First next ∧
      Leaves seen (Function.update (Function.update (relations db) targetId ((relations db sourceId).gathered merged now next))
        sourceId (relations db sourceId).emptied) := by
  obtain ⟨exists_, merged, now, next, rs₁, rs₂, rs₃, shape, emptied, copied, oldest, inherits, db₁, rfl, after⟩ := moveTicket_steps ends
  have other := apart.symm
  rw [Function.update_of_ne apart] at emptied
  rw [emptied, Function.update_of_ne other, Function.update_self, Function.update_self] at copied
  rw [copied, Function.update_self] at oldest inherits
  rw [Function.update_idem] at inherits
  rw [inherits, Function.update_of_ne apart, Function.update_self] at after
  refine ⟨exists_, merged, now, next, shape, oldest, db₁, rfl, ?_⟩
  rw [after]
  funext key
  by_cases source : key = sourceId
  · subst source
    rw [Function.update_self, Function.update_self]
    rfl
  · rw [Function.update_of_ne source, Function.update_of_ne source]
    by_cases target : key = targetId
    · subst target
      rw [Function.update_self, Function.update_self]
      rfl
    · rw [Function.update_of_ne target, Function.update_of_ne target, Function.update_of_ne source, Function.update_of_ne target]

/-- A ticket merged into itself, its identifier written in two ways, loses its users and its devices. -/
theorem moveTicket_self {byName : Option String} {value : Unit}
    (ends : (moveTicket id id byName).Ends ticketSchema (some db) (.ok value) seen) :
    ∃ r : Relations, r.users = (fun _ => none) ∧ r.devices = (fun _ => none) ∧ Leaves seen (Function.update (relations db) id r) ∧
      ((∀ userId, (relations db id).users userId ≠ some .requester) → (∀ deviceId, (relations db id).devices deviceId = none) →
        r.columns = (relations db id).columns) := by
  obtain ⟨-, merged, now, next, rs₁, rs₂, rs₃, shape, emptied, copied, oldest, inherits, db₁, rfl, after⟩ := moveTicket_steps ends
  rw [Function.update_self, Function.update_idem] at emptied
  rw [emptied, Function.update_self, Function.update_idem] at copied
  rw [copied, Function.update_self] at oldest inherits
  rw [Function.update_idem] at inherits
  rw [inherits, Function.update_self, Function.update_idem] at after
  refine ⟨_, ?_, ?_, ⟨db₁, rfl, after⟩, fun nobody nothing => ?_⟩
  · rfl
  · rfl
  have users : merged = (relations db id).inherited (relations db id) none := by
    rcases shape with ⟨⟨userId, requester⟩, -⟩ | ⟨-, newReq, rfl, found, -⟩
    · exact absurd requester (nobody userId)
    · cases newReq with
      | none => rfl
      | some userId =>
        have requester : ((relations db id).users userId).or ((relations db id).users userId) = some .requester := found userId rfl
        rw [Option.or_self] at requester
        exact absurd requester (nobody userId)
  have none_ : next = none := by
    refine oldest.1.mpr fun deviceId => ?_
    change (merged.devices deviceId).or ((merged.devices deviceId).map fun _ => now) = none
    have here : merged.devices deviceId = none := by
      rw [users]
      exact nothing deviceId
    rw [here]
    rfl
  have columns : merged.columns = (relations db id).columns := by
    rw [users]
    unfold Relations.inherited
    simp only [Option.or_none, Option.map_id']
  change merged.columns.map (fun c => (c.1, c.2.or next)) = _
  rw [none_, columns]
  simp only [Option.or_none, Option.map_id']

theorem columns_of_found {t : Ticket} (found : (db .tickets)[id]? = some t) : (relations db id).columns ≠ none := by
  unfold relations
  rw [found]
  nofun

/-- The guards of `mergeTicketInto`. -/
def Accepted (db : TicketDb) (source target : Uuid) : Prop :=
  source ≠ target ∧ (∃ t, (db .tickets)[source.id]? = some t ∧ t.status ≠ .merged) ∧
    ∃ t, (db .tickets)[target.id]? = some t ∧ t.status ≠ .merged

theorem mergeTicketInto_ends {source target : Uuid} {byName : Option String} {value : Unit}
    (ends : (mergeTicketInto source target byName).Ends ticketSchema (some db) (.ok value) seen) :
    Accepted db source target ∧ (moveTicket source.id target.id byName).Ends ticketSchema (some db) (.ok value) seen := by
  unfold mergeTicketInto at ends
  split at ends
  case isTrue => exact absurd ends Body.not_ends_fail
  case isFalse apart =>
    obtain ⟨draw, out, ran, later⟩ := TicketTx.within ends
    cases ran
    simp only [selected, Schema.applyAll_nil] at later
    cases found : (db .tickets)[source.id]? with
    | none =>
      rw [found] at later
      exact absurd later Body.not_ends_fail
    | some _ =>
      rw [found] at later
      dsimp only at later
      split at later
      case isTrue => exact absurd later Body.not_ends_fail
      case isFalse status =>
        obtain ⟨draw₁, out₁, ran₁, later⟩ := TicketTx.within later
        cases ran₁
        simp only [selected, Schema.applyAll_nil] at later
        cases found₁ : (db .tickets)[target.id]? with
        | none =>
          rw [found₁] at later
          exact absurd later Body.not_ends_fail
        | some _ =>
          rw [found₁] at later
          dsimp only at later
          split at later
          case isTrue => exact absurd later Body.not_ends_fail
          case isFalse status₁ => exact ⟨⟨apart, ⟨_, found, status⟩, _, found₁, status₁⟩, later⟩

/-- What holds of every ticket. -/
def Holds (rs : Nat → Relations) : Prop := ∀ id, (rs id).Synced ∧ (rs id).Attached

/-- A PATCH gives the device of the oldest row, or there is none; the device of the column is removed under
the spelling of the database; the source of a merge that is accepted has neither a requester nor a device. -/
def TicketRequest.Keeps (db : TicketDb) : TicketRequest → Prop
  | .patch id columns _ => ∀ device, columns.deviceId = some device → (∀ deviceId, (relations db id).devices deviceId = none) ∨
    ∃ deviceId, device = some deviceId ∧ (relations db id).Oldest deviceId
  | .removeDevice id deviceId => deviceId.spelling = 0 ∨ ∀ c, (relations db id).columns = some c → c.2 ≠ some deviceId.id
  | .merge source target _ => Accepted db source target → (∀ userId, (relations db source.id).users userId ≠ some .requester) ∧
    ∀ deviceId, (relations db source.id).devices deviceId = none
  | _ => True

variable {rs : Nat → Relations} {r : Relations}

theorem Holds.update (holds : Holds rs) (synced : r.Synced) (attached : r.Attached) : Holds (Function.update rs id r) := by
  intro key
  by_cases here : key = id
  · subst here
    rw [Function.update_self]
    exact ⟨synced, attached⟩
  · rw [Function.update_of_ne here]
    exact holds key

theorem Relations.attached_of_exists (exists_ : r.columns ≠ none) : r.Attached := fun none_ => absurd none_ exists_

theorem map_ne_none {α β : Type} {o : Option α} {f : α → β} (some_ : o ≠ none) : o.map f ≠ none :=
  fun none_ => some_ (Option.map_eq_none_iff.mp none_)

theorem merge_holds {source target : Uuid} {byName : Option String} {value : Unit} (holds : Holds (relations db))
    (ends : (mergeTicketInto source target byName).Ends ticketSchema (some db) (.ok value) seen)
    (keeps : (TicketRequest.merge source target byName).Keeps db)
    (later : ∀ db₁, seen = some db₁ → ∀ id, (relations db id).Later (relations db₁ id)) : ∃ db₁, seen = some db₁ ∧ Holds (relations db₁) := by
  obtain ⟨accepted, moved⟩ := mergeTicketInto_ends ends
  have alone := keeps accepted
  obtain ⟨-, ⟨_, found, -⟩, -⟩ := accepted
  have sourceExists := columns_of_found found
  obtain ⟨sourceId, spelling⟩ := source
  obtain ⟨targetId, spelling₁⟩ := target
  dsimp only at sourceExists moved alone
  by_cases same : sourceId = targetId
  · subst same
    obtain ⟨r, users, devices, ⟨db₁, rfl, after⟩, columns⟩ := moveTicket_self moved
    have emptied : r = (relations db sourceId).emptied := by
      have columns := columns alone.1 alone.2
      obtain ⟨_, _, _⟩ := r
      cases users
      cases devices
      cases columns
      rfl
    refine ⟨db₁, rfl, ?_⟩
    rw [after, emptied]
    exact holds.update (Relations.synced_emptied (holds sourceId).1 alone.1 alone.2) (Relations.attached_of_exists sourceExists)
  obtain ⟨exists_, merged, now, next, shape, first, db₁, rfl, after⟩ := moveTicket_ends same moved
  refine ⟨db₁, rfl, ?_⟩
  have unmoved : merged.devices = (relations db targetId).devices ∧ merged.columns.map Prod.snd = (relations db targetId).columns.map Prod.snd := by
    rcases shape with ⟨-, rfl⟩ | ⟨-, newReq, rfl, -⟩
    · exact ⟨rfl, rfl⟩
    · refine ⟨rfl, ?_⟩
      unfold Relations.inherited
      rw [Option.map_map]
      rfl
  have users : merged.UserSynced ∧ merged.columns ≠ none := by
    rcases shape with ⟨-, rfl⟩ | ⟨nobody, newReq, rfl, found, missing⟩
    · exact ⟨Relations.userSynced_demoted (holds targetId).1.1, exists_⟩
    · exact ⟨Relations.userSynced_inherited (holds targetId).1.1 (holds sourceId).1.1 sourceExists nobody found missing,
        map_ne_none exists_⟩
  have inOrder : merged.Later ((relations db sourceId).gathered merged now next) := by
    have target := later db₁ rfl targetId
    rw [after, Function.update_of_ne (Ne.symm same), Function.update_self] at target
    unfold Relations.Later at target ⊢
    rw [unmoved.1]
    exact target
  have gathered : ((relations db sourceId).gathered merged now next).Synced := by
    refine ⟨users.1.congr ?_ rfl, Relations.deviceSynced_gathered ((holds targetId).1.2.congr unmoved.2 unmoved.1) first inOrder⟩
    unfold Relations.gathered
    rw [Option.map_map]
    rfl
  rw [after]
  refine (holds.update gathered (Relations.attached_of_exists (map_ne_none users.2))).update ?_ ?_
  · exact Relations.synced_emptied (holds sourceId).1 alone.1 alone.2
  · exact Relations.attached_of_exists sourceExists

end Opale.Tickets
