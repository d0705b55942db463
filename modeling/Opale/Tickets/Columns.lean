import Opale.Tickets.Relations

namespace Opale.Tickets

open Sql EmailBridge

def Ticket.columns (t : Ticket) : Option Nat × Option Nat := (t.userId, t.deviceId)

/-- What is related to a ticket: its columns `user_id` and `device_id`, the roles of its users, and the
devices with the time of their rows. -/
structure Relations where
  columns : Option (Option Nat × Option Nat)
  users : Nat → Option UserRole
  devices : Nat → Option Int

def relations (db : TicketDb) (id : Nat) : Relations where
  columns := (db .tickets)[id]?.map Ticket.columns
  users userId := (db (.users id))[userId]?.map (·.role)
  devices deviceId := (db (.devices id))[deviceId]?.map (·.addedAt)

namespace Relations

/-- No row of a device is older. -/
def Oldest (r : Relations) (deviceId : Nat) : Prop :=
  ∃ added, r.devices deviceId = some added ∧ ∀ other time, r.devices other = some time → added ≤ time

/-- The device of the oldest row, or none when there is no row. -/
def First (r : Relations) (next : Option Nat) : Prop :=
  (next = none ↔ ∀ deviceId, r.devices deviceId = none) ∧ ∀ deviceId, next = some deviceId → r.Oldest deviceId

theorem first_of {r : Relations} {next : Option Nat} (nothing : next = none → ∀ deviceId, r.devices deviceId = none)
    (oldest : ∀ deviceId, next = some deviceId → r.Oldest deviceId) : r.First next := by
  refine ⟨⟨nothing, fun empty => ?_⟩, oldest⟩
  cases next with
  | none => rfl
  | some deviceId =>
    obtain ⟨added, found, -⟩ := oldest deviceId rfl
    cases (empty deviceId).symm.trans found

/-- The first column is the user of the row of the requester. -/
def UserSynced (r : Relations) : Prop :=
  ∀ c, r.columns = some c → ∀ userId, c.1 = some userId ↔ r.users userId = some .requester

def DeviceSynced (r : Relations) : Prop := ∀ c, r.columns = some c → r.First c.2

/-- The columns are those of the requester and of the oldest device. -/
def Synced (r : Relations) : Prop := r.UserSynced ∧ r.DeviceSynced

/-- Nothing is related to a ticket that does not exist. -/
def Attached (r : Relations) : Prop :=
  r.columns = none → (∀ userId, r.users userId = none) ∧ ∀ deviceId, r.devices deviceId = none

def mapColumns (f : Option Nat × Option Nat → Option Nat × Option Nat) (r : Relations) : Relations :=
  { r with columns := r.columns.map f }

def withColumns (columns : Option (Option Nat × Option Nat)) (r : Relations) : Relations := { r with columns := columns }

def withUsers (users : Nat → Option UserRole) (r : Relations) : Relations := { r with users := users }

def withDevices (devices : Nat → Option Int) (r : Relations) : Relations := { r with devices := devices }

end Relations

variable {db db₁ : TicketDb} {id : Nat} {α : Type}

/-- Rows of other tables. -/
theorem relations_written {n : TableName} {rows : List (Nat × Option n.Row)} {answer : α} (tickets : n ≠ .tickets)
    (users : ∀ key, n ≠ .users key) (devices : ∀ key, n ≠ .devices key) :
    relations (ticketSchema.applyAll (written n rows answer).changes db) = relations db := by
  have same {m : TableName} (apart : m ≠ n) : ticketSchema.applyAll (written n rows answer).changes db m = db m :=
    applyAll_writes_of_ne apart rows db
  funext key
  unfold relations
  rw [same tickets.symm, same (users key).symm, same (devices key).symm]

/-- An UPDATE of a ticket. -/
theorem relations_updateTicket {p : Ticket → Bool} {set : Ticket → Ticket} (f : Option Nat × Option Nat → Option Nat × Option Nat)
    (columns : ∀ t, Ticket.columns (if p t then set t else t) = f t.columns) :
    relations (ticketSchema.applyAll (updateTicket db id p set).changes db) =
      Function.update (relations db) id ((relations db id).mapColumns f) := by
  have same {m : TableName} (apart : m ≠ .tickets) : ticketSchema.applyAll (updateTicket db id p set).changes db m = db m :=
    applyAll_writes_of_ne apart _ db
  have tickets : ticketSchema.applyAll (updateTicket db id p set).changes db .tickets =
      Table.putAll ((db .tickets).updated (fun key t => key = id && p t) set) (db .tickets) := applyAll_writes_self ..
  funext key
  have others : relations (ticketSchema.applyAll (updateTicket db id p set).changes db) key =
      (relations db key).withColumns ((Table.putAll ((db .tickets).updated (fun key t => key = id && p t) set)
        (db .tickets))[key]?.map Ticket.columns) := by
    have users := same (m := .users key) nofun
    have devices := same (m := .devices key) nofun
    unfold relations Relations.withColumns
    rw [tickets, users, devices]
  rw [others, Table.getElem?_putAll_updated, Option.map_map]
  by_cases here : key = id
  · subst here
    rw [Function.update_self]
    unfold Relations.mapColumns relations
    rw [Option.map_map]
    have step : Ticket.columns ∘ (fun t => if key = key && p t then set t else t) = f ∘ Ticket.columns := by
      funext t
      rw [Function.comp_apply, decide_eq_true rfl, Bool.true_and]
      exact columns t
    rw [step]
    rfl
  · rw [Function.update_of_ne here]
    have step : Ticket.columns ∘ (fun t => if key = id && p t then set t else t) = Ticket.columns := by
      funext t
      rw [Function.comp_apply, decide_eq_false here, Bool.false_and, if_neg Bool.false_ne_true]
    rw [step]
    rfl

/-- Rows of the users of a ticket. -/
theorem relations_users {rows : List (Nat × Option (TableName.users id).Row)} {answer : α} :
    relations (ticketSchema.applyAll (written (.users id) rows answer).changes db) = Function.update (relations db) id
      ((relations db id).withUsers fun userId => (Table.putAll rows (db (.users id)))[userId]?.map (·.role)) := by
  have same {m : TableName} (apart : m ≠ .users id) :
      ticketSchema.applyAll (written (.users id) rows answer).changes db m = db m := applyAll_writes_of_ne apart rows db
  have self : ticketSchema.applyAll (written (.users id) rows answer).changes db (.users id) =
      Table.putAll rows (db (.users id)) := applyAll_writes_self ..
  funext key
  by_cases here : key = id
  · subst here
    rw [Function.update_self]
    have tickets := same (m := .tickets) nofun
    have others := same (m := .devices key) nofun
    unfold relations Relations.withUsers
    rw [self, tickets, others]
  · rw [Function.update_of_ne here]
    have tickets := same (m := .tickets) nofun
    have others := same (m := .devices key) nofun
    have apart := same (m := .users key) fun other => here (TableName.users.inj other)
    unfold relations
    rw [tickets, others, apart]

/-- Rows of the devices of a ticket. -/
theorem relations_devices {rows : List (Nat × Option (TableName.devices id).Row)} {answer : α} :
    relations (ticketSchema.applyAll (written (.devices id) rows answer).changes db) = Function.update (relations db) id
      ((relations db id).withDevices fun deviceId => (Table.putAll rows (db (.devices id)))[deviceId]?.map (·.addedAt)) := by
  have same {m : TableName} (apart : m ≠ .devices id) :
      ticketSchema.applyAll (written (.devices id) rows answer).changes db m = db m := applyAll_writes_of_ne apart rows db
  have self : ticketSchema.applyAll (written (.devices id) rows answer).changes db (.devices id) =
      Table.putAll rows (db (.devices id)) := applyAll_writes_self ..
  funext key
  by_cases here : key = id
  · subst here
    rw [Function.update_self]
    have tickets := same (m := .tickets) nofun
    have others := same (m := .users key) nofun
    unfold relations Relations.withDevices
    rw [self, tickets, others]
  · rw [Function.update_of_ne here]
    have tickets := same (m := .tickets) nofun
    have others := same (m := .users key) nofun
    have apart := same (m := .devices key) fun other => here (TableName.devices.inj other)
    unfold relations
    rw [tickets, others, apart]

section

variable {draw : TicketDraw} {ticketId sourceId targetId userId deviceId : Nat}

theorem columns_ne_none (exists_ : (db .tickets).contains id = true) : (relations db id).columns ≠ none := by
  intro none_
  have absent : (db .tickets)[id]? = none := Option.map_eq_none_iff.mp none_
  rw [Std.ExtTreeMap.contains_eq_isSome_getElem?, absent] at exists_
  cases exists_

theorem relations_deleteRequester {out : TicketOutcome Unit}
    (ran : (TicketStmt.deleteRequester ticketId).run draw db = some out) :
    relations (ticketSchema.applyAll out.changes db) = Function.update (relations db) ticketId
      ((relations db ticketId).withUsers fun userId => ((relations db ticketId).users userId).filter (· ≠ .requester)) := by
  cases ran
  refine relations_users.trans (congrArg (Function.update _ _) (congrArg (Relations.withUsers · _) (funext fun key => ?_)))
  have before : (relations db ticketId).users key = (db (.users ticketId))[key]?.map (·.role) := rfl
  rw [Table.getElem?_putAll_deleted, before]
  cases (db (.users ticketId))[key]? with
  | none => rfl
  | some u => cases role : u.role <;> simp [Option.filter, role]

theorem relations_insertRequester {out : TicketOutcome Unit}
    (ran : (TicketStmt.insertRequester ticketId userId).run draw db = some out) :
    (relations db ticketId).columns ≠ none ∧ relations (ticketSchema.applyAll out.changes db) = Function.update (relations db) ticketId
      ((relations db ticketId).withUsers (Function.update (relations db ticketId).users userId (some .requester))) := by
  obtain ⟨allowed, same⟩ := Option.ite_none_right_eq_some.mp ran
  cases same
  refine ⟨columns_ne_none (Bool.and_eq_true_iff.mp allowed).1, ?_⟩
  refine relations_users.trans (congrArg (Function.update _ _) (congrArg (Relations.withUsers · _) (funext fun key => ?_)))
  rw [Table.getElem?_putAll_singleton, Function.update_apply]
  split
  · cases (db (.users ticketId))[userId]? <;> rfl
  · rfl

theorem relations_insertInvolved {out : TicketOutcome Unit}
    (ran : (TicketStmt.insertInvolved ticketId userId).run draw db = some out) :
    (relations db ticketId).columns ≠ none ∧ relations (ticketSchema.applyAll out.changes db) = Function.update (relations db) ticketId
      ((relations db ticketId).withUsers (Function.update (relations db ticketId).users userId
        (some (((relations db ticketId).users userId).getD .involved)))) := by
  obtain ⟨exists_, same⟩ := Option.ite_none_right_eq_some.mp ran
  cases same
  refine ⟨columns_ne_none exists_, ?_⟩
  refine relations_users.trans (congrArg (Function.update _ _) (congrArg (Relations.withUsers · _) (funext fun key => ?_)))
  have before : (relations db ticketId).users userId = (db (.users ticketId))[userId]?.map (·.role) := rfl
  rw [Table.getElem?_putAll_unless, Function.update_apply, before]
  split
  · cases (db (.users ticketId))[userId]? <;> rfl
  · rfl

theorem relations_deleteUser {out : TicketOutcome (Option UserRole)}
    (ran : (TicketStmt.deleteUser ticketId userId).run draw db = some out) :
    relations (ticketSchema.applyAll out.changes db) = Function.update (relations db) ticketId
      ((relations db ticketId).withUsers (Function.update (relations db ticketId).users userId none)) ∧
      out.answer = (relations db ticketId).users userId := by
  cases ran
  refine ⟨relations_users.trans (congrArg (Function.update _ _) (congrArg (Relations.withUsers · _) (funext fun key => ?_))), rfl⟩
  rw [Table.getElem?_putAll_deleted_key, Function.update_apply]
  split <;> rfl

theorem relations_insertDevice {out : TicketOutcome Unit}
    (ran : (TicketStmt.insertDevice ticketId deviceId).run draw db = some out) :
    (relations db ticketId).columns ≠ none ∧ relations (ticketSchema.applyAll out.changes db) = Function.update (relations db) ticketId
      ((relations db ticketId).withDevices (Function.update (relations db ticketId).devices deviceId
        (some (((relations db ticketId).devices deviceId).getD draw.now)))) := by
  obtain ⟨exists_, same⟩ := Option.ite_none_right_eq_some.mp ran
  cases same
  refine ⟨columns_ne_none exists_, ?_⟩
  refine relations_devices.trans (congrArg (Function.update _ _) (congrArg (Relations.withDevices · _) (funext fun key => ?_)))
  have before : (relations db ticketId).devices deviceId = (db (.devices ticketId))[deviceId]?.map (·.addedAt) := rfl
  rw [Table.getElem?_putAll_unless, Function.update_apply, before]
  split
  · cases (db (.devices ticketId))[deviceId]? <;> rfl
  · rfl

theorem relations_deleteDevice {out : TicketOutcome Bool}
    (ran : (TicketStmt.deleteDevice ticketId deviceId).run draw db = some out) :
    relations (ticketSchema.applyAll out.changes db) = Function.update (relations db) ticketId
      ((relations db ticketId).withDevices (Function.update (relations db ticketId).devices deviceId none)) ∧
      out.answer = ((relations db ticketId).devices deviceId).isSome := by
  cases ran
  refine ⟨relations_devices.trans (congrArg (Function.update _ _) (congrArg (Relations.withDevices · _) (funext fun key => ?_))), ?_⟩
  · rw [Table.getElem?_putAll_deleted_key, Function.update_apply]
    split <;> rfl
  · have before : (relations db ticketId).devices deviceId = (db (.devices ticketId))[deviceId]?.map (·.addedAt) := rfl
    rw [before, Option.isSome_map]
    exact Std.ExtTreeMap.contains_eq_isSome_getElem?

theorem getElem?_putAll_absent {Row : Type} (source target : Table Row) (row : Row → Row) (key : Nat) :
    (Table.putAll (absent source target row) target)[key]? = target[key]?.or (source[key]?.map row) := by
  have once : ((absent source target row).map Prod.fst).Nodup := by
    unfold absent
    rw [List.map_map]
    exact Table.keys_select source _
  have mem (e : Option Row) : (key, e) ∈ absent source target row ↔
      ∃ r, source[key]? = some r ∧ target[key]? = none ∧ e = some (row r) := by
    unfold absent
    rw [List.mem_map]
    constructor
    · intro ⟨⟨id, r⟩, member, same⟩
      cases same
      obtain ⟨found, new⟩ := Table.mem_select.mp member
      refine ⟨r, found, ?_, rfl⟩
      rw [Std.ExtTreeMap.contains_eq_isSome_getElem?] at new
      change target[id]? = none
      cases there : target[id]? with
      | none => rfl
      | some _ =>
        rw [there] at new
        cases new
    · rintro ⟨r, found, new, rfl⟩
      refine ⟨(key, r), Table.mem_select.mpr ⟨found, ?_⟩, rfl⟩
      rw [Std.ExtTreeMap.contains_eq_isSome_getElem?, new]
      rfl
  cases there : target[key]? with
  | some here =>
    have outside : key ∉ (absent source target row).map Prod.fst := by
      intro inside
      obtain ⟨⟨_, e⟩, member, rfl⟩ := List.mem_map.mp inside
      obtain ⟨_, _, new, _⟩ := (mem e).mp member
      cases there.symm.trans new
    rw [Table.getElem?_putAll_of_notMem outside, there]
    rfl
  | none =>
    cases found : source[key]? with
    | some r => exact Table.getElem?_putAll_of_mem ((mem _).mpr ⟨r, found, there, rfl⟩) once target
    | none =>
      have outside : key ∉ (absent source target row).map Prod.fst := by
        intro inside
        obtain ⟨⟨_, e⟩, member, rfl⟩ := List.mem_map.mp inside
        obtain ⟨_, some_, _⟩ := (mem e).mp member
        cases found.symm.trans some_
      rw [Table.getElem?_putAll_of_notMem outside, there]
      rfl

theorem relations_copyUsers {demote : Bool} {out : TicketOutcome Unit}
    (ran : (TicketStmt.copyUsers sourceId targetId demote).run draw db = some out) :
    (relations db targetId).columns ≠ none ∧ relations (ticketSchema.applyAll out.changes db) = Function.update (relations db) targetId
      ((relations db targetId).withUsers fun userId => ((relations db targetId).users userId).or
        (((relations db sourceId).users userId).map fun role => if demote then .involved else role)) := by
  obtain ⟨allowed, same⟩ := Option.ite_none_right_eq_some.mp ran
  obtain rfl := Option.some.inj same
  refine ⟨columns_ne_none (Bool.and_eq_true_iff.mp allowed).1, ?_⟩
  refine relations_users.trans (congrArg (Function.update _ _) (congrArg (Relations.withUsers · _) (funext fun key => ?_)))
  refine (congrArg _ (getElem?_putAll_absent ..)).trans ?_
  have source : (relations db sourceId).users key = (db (.users sourceId))[key]?.map (·.role) := rfl
  have target : (relations db targetId).users key = (db (.users targetId))[key]?.map (·.role) := rfl
  rw [source, target]
  cases (db (.users targetId))[key]? with
  | some _ => rfl
  | none => cases (db (.users sourceId))[key]? <;> rfl

theorem relations_copyDevices {out : TicketOutcome Unit}
    (ran : (TicketStmt.copyDevices sourceId targetId).run draw db = some out) :
    (relations db targetId).columns ≠ none ∧ relations (ticketSchema.applyAll out.changes db) = Function.update (relations db) targetId
      ((relations db targetId).withDevices fun deviceId => ((relations db targetId).devices deviceId).or
        (((relations db sourceId).devices deviceId).map fun _ => draw.now)) := by
  obtain ⟨exists_, same⟩ := Option.ite_none_right_eq_some.mp ran
  cases same
  refine ⟨columns_ne_none exists_, ?_⟩
  refine relations_devices.trans (congrArg (Function.update _ _) (congrArg (Relations.withDevices · _) (funext fun key => ?_)))
  refine (congrArg _ (getElem?_putAll_absent ..)).trans ?_
  have source : (relations db sourceId).devices key = (db (.devices sourceId))[key]?.map (·.addedAt) := rfl
  have target : (relations db targetId).devices key = (db (.devices targetId))[key]?.map (·.addedAt) := rfl
  rw [source, target]
  cases (db (.devices targetId))[key]? with
  | some _ => rfl
  | none => cases (db (.devices sourceId))[key]? <;> rfl

theorem relations_deleteUsers {out : TicketOutcome Unit} (ran : (TicketStmt.deleteUsers ticketId).run draw db = some out) :
    relations (ticketSchema.applyAll out.changes db) =
      Function.update (relations db) ticketId ((relations db ticketId).withUsers fun _ => none) := by
  cases ran
  refine relations_users.trans (congrArg (Function.update _ _) (congrArg (Relations.withUsers · _) (funext fun key => ?_)))
  rw [Table.getElem?_putAll_deleted]
  cases (db (.users ticketId))[key]? <;> rfl

theorem relations_deleteDevices {out : TicketOutcome Unit} (ran : (TicketStmt.deleteDevices ticketId).run draw db = some out) :
    relations (ticketSchema.applyAll out.changes db) =
      Function.update (relations db) ticketId ((relations db ticketId).withDevices fun _ => none) := by
  cases ran
  refine relations_devices.trans (congrArg (Function.update _ _) (congrArg (Relations.withDevices · _) (funext fun key => ?_)))
  rw [Table.getElem?_putAll_deleted]
  cases (db (.devices ticketId))[key]? <;> rfl

theorem relations_setUserId {user : Option Nat} {out : TicketOutcome Unit}
    (ran : (TicketStmt.setUserId id user).run draw db = some out) :
    relations (ticketSchema.applyAll out.changes db) =
      Function.update (relations db) id ((relations db id).mapColumns fun c => (user, c.2)) := by
  cases ran
  exact relations_updateTicket (fun c => (user, c.2)) fun _ => rfl

theorem relations_inheritUserId {out : TicketOutcome Unit} (ran : (TicketStmt.inheritUserId id userId).run draw db = some out) :
    relations (ticketSchema.applyAll out.changes db) =
      Function.update (relations db) id ((relations db id).mapColumns fun c => (c.1.or (some userId), c.2)) := by
  cases ran
  refine relations_updateTicket (fun c => (c.1.or (some userId), c.2)) fun t => ?_
  cases user : t.userId <;> simp [Ticket.columns, user]

theorem relations_setDeviceId {out : TicketOutcome Unit} (ran : (TicketStmt.setDeviceId id deviceId).run draw db = some out) :
    relations (ticketSchema.applyAll out.changes db) =
      Function.update (relations db) id ((relations db id).mapColumns fun c => (c.1, c.2.or (some deviceId))) := by
  cases ran
  refine relations_updateTicket (fun c => (c.1, c.2.or (some deviceId))) fun t => ?_
  cases device : t.deviceId <;> simp [Ticket.columns, device]

theorem relations_replaceDeviceId {device : Option Nat} {out : TicketOutcome Unit}
    (ran : (TicketStmt.replaceDeviceId id device).run draw db = some out) :
    relations (ticketSchema.applyAll out.changes db) =
      Function.update (relations db) id ((relations db id).mapColumns fun c => (c.1, device)) := by
  cases ran
  exact relations_updateTicket (fun c => (c.1, device)) fun _ => rfl

/-- `ORDER BY added_at ASC LIMIT 1` -/
theorem first_orderBy {sorted : List (Nat × TicketDevice)}
    (picked : Table.orderBy (db (.devices id)).toList (fun a b => a.addedAt ≤ b.addedAt) draw.order = some sorted) :
    (relations db id).First (sorted.head?.map Prod.fst) := by
  have once := Table.keys_toList (db (.devices id))
  have row {key : Nat} {d : TicketDevice} : (key, d) ∈ (db (.devices id)).toList ↔ (db (.devices id))[key]? = some d :=
    Std.ExtTreeMap.mem_toList_iff_getElem?_eq_some
  refine Relations.first_of (fun none_ deviceId => ?_) fun deviceId some_ => ?_
  · have nothing : sorted = [] := List.head?_eq_none_iff.mp (Option.map_eq_none_iff.mp none_)
    refine Option.map_eq_none_iff.mpr (Option.eq_none_iff_forall_ne_some.mpr fun d found => ?_)
    have inside := Table.mem_of_orderBy picked once (row.mpr found)
    rw [nothing] at inside
    exact absurd inside List.not_mem_nil
  · obtain ⟨⟨key, first⟩, head, rfl⟩ := Option.map_eq_some_iff.mp some_
    have inside : (key, first) ∈ sorted := List.mem_of_head? head
    have found := row.mp (Table.mem_orderBy picked inside)
    refine ⟨first.addedAt, congrArg (Option.map _) found, fun other time at_ => ?_⟩
    obtain ⟨d, there, rfl⟩ := Option.map_eq_some_iff.mp at_
    rcases Table.le_head_orderBy picked once head (row.mpr there) with same | later
    · cases same
      exact le_refl _
    · exact of_decide_eq_true later

theorem relations_inheritDeviceId {out : TicketOutcome Unit} (ran : (TicketStmt.inheritDeviceId id).run draw db = some out) :
    ∃ next, (relations db id).First next ∧ relations (ticketSchema.applyAll out.changes db) =
      Function.update (relations db) id ((relations db id).mapColumns fun c => (c.1, c.2.or next)) := by
  obtain ⟨sorted, picked, same⟩ := Option.bind_eq_some_iff.mp ran
  obtain rfl := Option.some.inj same
  refine ⟨_, first_orderBy picked, relations_updateTicket (fun c => (c.1, c.2.or (sorted.head?.map Prod.fst))) fun t => ?_⟩
  cases device : t.deviceId <;> simp [Ticket.columns, device]

theorem relations_oldestDevice {out : TicketOutcome (Option Nat)} (ran : (TicketStmt.oldestDevice id).run draw db = some out) :
    (relations db id).First out.answer ∧ relations (ticketSchema.applyAll out.changes db) = relations db := by
  obtain ⟨sorted, picked, same⟩ := Option.bind_eq_some_iff.mp ran
  obtain rfl := Option.some.inj same
  exact ⟨first_orderBy picked, rfl⟩

theorem patchTicket_changes {patch : TicketPatch} {out : TicketOutcome (Option Ticket)}
    (ran : (TicketStmt.patchTicket id patch).run draw db = some out) :
    out.changes = (updateTicket db id (fun _ => true) (patch.apply draw.now)).changes := by
  cases ran
  unfold updateTicket
  simp only [Bool.and_true]
  rfl

theorem relations_patchTicket {patch : TicketPatch} {out : TicketOutcome (Option Ticket)}
    (ran : (TicketStmt.patchTicket id patch).run draw db = some out) : relations (ticketSchema.applyAll out.changes db) =
      Function.update (relations db) id ((relations db id).mapColumns fun c => (patch.userId.getD c.1, patch.deviceId.getD c.2)) := by
  rw [patchTicket_changes ran]
  exact relations_updateTicket (fun c => (patch.userId.getD c.1, patch.deviceId.getD c.2)) fun _ => rfl

/-- A new ticket. -/
theorem relations_insertTicket {t : NewTicket} {out : TicketOutcome Nat} (ran : (TicketStmt.insertTicket t).run draw db = some out) :
    (relations db out.answer).columns = none ∧ relations (ticketSchema.applyAll out.changes db) =
      Function.update (relations db) out.answer ((relations db out.answer).withColumns (some (t.userId, t.deviceId))) := by
  obtain ⟨fresh, only⟩ := Option.ite_none_left_eq_some.mp ran
  cases only
  have absent : (db .tickets)[draw.id]? = none := Std.ExtTreeMap.getElem?_eq_none fun member =>
    fresh (Std.ExtTreeMap.mem_iff_contains.mp member)
  refine ⟨congrArg (Option.map _) absent, ?_⟩
  have same {m : TableName} (apart : m ≠ .tickets) :
      ticketSchema.applyAll (written .tickets [(draw.id, some (t.row draw.now))] draw.id).changes db m = db m :=
    applyAll_writes_of_ne apart _ db
  have self : ticketSchema.applyAll (written .tickets [(draw.id, some (t.row draw.now))] draw.id).changes db .tickets =
      Table.putAll [(draw.id, some (t.row draw.now))] (db .tickets) := applyAll_writes_self ..
  funext key
  have users := same (m := .users key) nofun
  have devices := same (m := .devices key) nofun
  have after : relations (ticketSchema.applyAll (written .tickets [(draw.id, some (t.row draw.now))] draw.id).changes db) key =
      (relations db key).withColumns ((Table.putAll [(draw.id, some (t.row draw.now))] (db .tickets))[key]?.map Ticket.columns) := by
    unfold relations Relations.withColumns
    rw [self, users, devices]
  rw [after, Table.getElem?_putAll_singleton]
  by_cases here : key = draw.id
  · subst here
    rw [if_pos rfl]
    exact (Function.update_self draw.id ((relations db draw.id).withColumns (some (t.userId, t.deviceId))) (relations db)).symm
  · rw [if_neg here]
    exact (Function.update_of_ne here _ (relations db)).symm

/-- The statements of a merge, and of the other transactions, that relate nothing to a ticket. -/
theorem relations_unrelated {s : TicketStmt} {out : TicketOutcome s.Ans} (ran : s.run draw db = some out)
    (unrelated : (∃ m, s = .insertMessage m) ∨ (∃ source target, s = .repointMessages source target) ∨
      (∃ source target, s = .repointMappings source target) ∨ (∃ id tagIds, s = .insertTags id tagIds) ∨
      ∃ id, s = .ticketForUpdate id) : relations (ticketSchema.applyAll out.changes db) = relations db := by
  rcases unrelated with ⟨m, rfl⟩ | ⟨source, target, rfl⟩ | ⟨source, target, rfl⟩ | ⟨id, tagIds, rfl⟩ | ⟨id, rfl⟩
  · obtain ⟨_, same⟩ := Option.ite_none_right_eq_some.mp ran
    obtain rfl := Option.some.inj same
    exact relations_written nofun nofun nofun
  · obtain ⟨_, same⟩ := Option.ite_none_right_eq_some.mp ran
    obtain rfl := Option.some.inj same
    exact relations_written nofun nofun nofun
  · obtain ⟨_, same⟩ := Option.ite_none_right_eq_some.mp ran
    obtain rfl := Option.some.inj same
    exact relations_written nofun nofun nofun
  · obtain ⟨_, same⟩ := Option.ite_none_right_eq_some.mp ran
    obtain rfl := Option.some.inj same
    exact relations_written nofun nofun nofun
  · cases ran
    rfl

theorem relations_touchTicket {out : TicketOutcome Unit} (ran : (TicketStmt.touchTicket id).run draw db = some out) :
    relations (ticketSchema.applyAll out.changes db) = relations db := by
  cases ran
  refine (relations_updateTicket (fun c => c) fun _ => rfl).trans ?_
  exact Function.update_eq_self_iff.mpr (by unfold Relations.mapColumns; rw [Option.map_id'])

theorem relations_markMerged {out : TicketOutcome Unit}
    (ran : (TicketStmt.markMerged sourceId targetId).run draw db = some out) :
    relations (ticketSchema.applyAll out.changes db) = relations db := by
  obtain ⟨_, same⟩ := Option.ite_none_right_eq_some.mp ran
  obtain rfl := Option.some.inj same
  refine (relations_updateTicket (fun c => c) fun _ => rfl).trans ?_
  exact Function.update_eq_self_iff.mpr (by unfold Relations.mapColumns; rw [Option.map_id'])

end

end Opale.Tickets
