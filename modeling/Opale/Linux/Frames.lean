import Opale.Linux.Reports

namespace Opale.Linux

open Sql

/-- The tables that changes go to. -/
inductive LinuxTable where
  | keys | devices | preregistrations | audits | tokens | facts | reports
  deriving Repr, DecidableEq

def LinuxChange.table : LinuxChange → LinuxTable
  | .key .. | .touchKey .. => .keys
  | .device .. | .touchDevice .. => .devices
  | .preregistration .. => .preregistrations
  | .audit .. => .audits
  | .token .. => .tokens
  | .dropFact _ => .facts
  | .report .. => .reports

/-- The table that a statement writes, if any. -/
def LinuxStmt.table : LinuxStmt → Option LinuxTable
  | .upsertKey _ | .setConflict .. | .bindKey .. | .supersede .. | .rejectKey .. | .revokeKeyOf .. | .touchKey .. =>
    some .keys
  | .createPullDevice _ | .clearWindowsColumns _ | .updateDevice .. | .touchDevice .. | .recordApply .. =>
    some .devices
  | .consumePreregistration .. => some .preregistrations
  | .insertAudit _ => some .audits
  | .revokeTokens _ => some .tokens
  | .deleteFacts .. => some .facts
  | .insertReport .. => some .reports
  | _ => none

variable {text : TextFns} {db : LinuxDb} {draw : LinuxDraw} {cs : List LinuxChange}

/-- A part of the database that only one table's changes move. -/
theorem applyAll_same {α : Type} {part : LinuxDb → α} {table : LinuxTable}
    (kept : ∀ (c : LinuxChange) (db : LinuxDb), c.table ≠ table → part (c.apply db) = part db)
    (other : ∀ c ∈ cs, c.table ≠ table) : part ((linuxSchema text).applyAll cs db) = part db := by
  induction cs generalizing db with
  | nil => rfl
  | cons c cs ih =>
    have later : part ((linuxSchema text).applyAll cs (c.apply db)) = part (c.apply db) :=
      ih fun d member => other d (List.mem_cons_of_mem c member)
    exact later.trans (kept c db (other c List.mem_cons_self))

theorem LinuxChange.keys_apply (c : LinuxChange) (db : LinuxDb) (other : c.table ≠ .keys) :
    (c.apply db).keys = db.keys := by
  cases c <;> first | rfl | exact absurd rfl other

theorem LinuxChange.devices_apply (c : LinuxChange) (db : LinuxDb) (other : c.table ≠ .devices) :
    (c.apply db).devices = db.devices := by
  cases c <;> first | rfl | exact absurd rfl other

theorem LinuxChange.preregistrations_apply (c : LinuxChange) (db : LinuxDb) (other : c.table ≠ .preregistrations) :
    (c.apply db).preregistrations = db.preregistrations := by
  cases c <;> first | rfl | exact absurd rfl other

theorem LinuxChange.reports_apply (c : LinuxChange) (db : LinuxDb) (other : c.table ≠ .reports) :
    (c.apply db).reports = db.reports := by
  cases c <;> first | rfl | exact absurd rfl other

/-- An UPDATE seen as the rows it writes. -/
theorem applyAll_keyRows (rows : List KeyRow) (db : LinuxDb) :
    ((linuxSchema text).applyAll (rows.map fun (id, row) => .key id row) db).keys = Table.write rows db.keys := by
  induction rows generalizing db with
  | nil => rfl
  | cons e rows ih => exact ih _

theorem applyAll_deviceRows (rows : List DeviceRow) (db : LinuxDb) :
    ((linuxSchema text).applyAll (rows.map fun (id, row) => .device id row) db).devices =
      Table.write rows db.devices := by
  induction rows generalizing db with
  | nil => rfl
  | cons e rows ih => exact ih _

theorem applyAll_preregistrationRows (rows : List PreregistrationRow) (db : LinuxDb) :
    ((linuxSchema text).applyAll (rows.map fun (id, row) => .preregistration id row) db).preregistrations =
      Table.write rows db.preregistrations := by
  induction rows generalizing db with
  | nil => rfl
  | cons e rows ih => exact ih _

/-- The keys after an UPDATE. -/
theorem keys_updateKeys (db : LinuxDb) (p : Nat → LinuxKey → Bool) (set : LinuxKey → LinuxKey) (id : Nat) :
    ((linuxSchema text).applyAll (updateKeys db p set).changes db).keys[id]? =
      db.keys[id]?.map fun k => if p id k then set k else k := by
  change ((linuxSchema text).applyAll ((db.keys.update p set).map _) db).keys[id]? = _
  rw [applyAll_keyRows, Table.getElem?_write_update]

theorem devices_updateDevices (db : LinuxDb) (p : Nat → LinuxDevice → Bool) (set : LinuxDevice → LinuxDevice)
    (id : Nat) : ((linuxSchema text).applyAll (updateDevices db p set).changes db).devices[id]? =
      db.devices[id]?.map fun d => if p id d then set d else d := by
  change ((linuxSchema text).applyAll ((db.devices.update p set).map _) db).devices[id]? = _
  rw [applyAll_deviceRows, Table.getElem?_write_update]

/-- What an UPDATE of one row returns. -/
theorem answer_updateKeys (db : LinuxDb) (key : Nat) (set : LinuxKey → LinuxKey) :
    (updateKeys db (fun id _ => id = key) set).answer = db.keys[key]?.map fun k => (key, set k) := by
  change (db.keys.update _ set).head? = _
  rw [Table.update_key]
  cases db.keys[key]? <;> rfl

theorem answer_updateDevices (db : LinuxDb) (key : Nat) (set : LinuxDevice → LinuxDevice) :
    (updateDevices db (fun id _ => id = key) set).answer = db.devices[key]?.map fun d => (key, set d) := by
  change (db.devices.update _ set).head? = _
  rw [Table.update_key]
  cases db.devices[key]? <;> rfl

/-- The row that an UPDATE returns is one that it has found and set. -/
theorem answered_updateKeys {p : Nat → LinuxKey → Bool} {set : LinuxKey → LinuxKey} {id : Nat} {row : LinuxKey}
    (answer : (updateKeys db p set).answer = some (id, row)) :
    ∃ k, db.keys[id]? = some k ∧ p id k = true ∧ set k = row := Table.mem_update.mp (List.mem_of_head? answer)

theorem table_updateKeys {p : Nat → LinuxKey → Bool} {set : LinuxKey → LinuxKey} {c : LinuxChange}
    (member : c ∈ (updateKeys db p set).changes) : c.table = .keys := by
  obtain ⟨e, -, rfl⟩ := List.mem_map.mp member
  rfl

theorem table_updateDevices {p : Nat → LinuxDevice → Bool} {set : LinuxDevice → LinuxDevice} {c : LinuxChange}
    (member : c ∈ (updateDevices db p set).changes) : c.table = .devices := by
  obtain ⟨e, -, rfl⟩ := List.mem_map.mp member
  rfl

/-- A statement only writes its own table. -/
theorem run_table {s : LinuxStmt} {out : LinuxOutcome s.Ans} (ran : s.run text draw db = some out) {c : LinuxChange}
    (member : c ∈ out.changes) : s.table = some c.table := by
  cases s
  case upsertKey facts =>
    simp only [LinuxStmt.run, upsertKeyRow] at ran
    split at ran
    · cases ran
      rw [List.mem_singleton] at member
      rw [member]
      rfl
    · split at ran
      · cases ran
      · cases ran
        rw [List.mem_singleton] at member
        rw [member]
        rfl
  case insertAudit entry =>
    simp only [LinuxStmt.run] at ran
    split at ran
    · cases ran
    · cases ran
      rw [List.mem_singleton] at member
      rw [member]
      rfl
  case createPullDevice new =>
    simp only [LinuxStmt.run] at ran
    split at ran
    · cases ran
    · cases ran
      rw [List.mem_singleton] at member
      rw [member]
      rfl
  case insertReport deviceId r =>
    simp only [LinuxStmt.run] at ran
    split at ran
    · cases ran
    · cases ran
      rw [List.mem_singleton] at member
      rw [member]
      rfl
  case activeToken deviceId =>
    simp only [LinuxStmt.run] at ran
    split at ran
    · cases ran
      exact absurd member List.not_mem_nil
    · obtain ⟨e, -, rfl⟩ := Option.map_eq_some_iff.mp ran
      exact absurd member List.not_mem_nil
  case touchDevice id osVersion diskUsedPct =>
    simp only [LinuxStmt.run] at ran
    split at ran
    · cases ran
      exact absurd member List.not_mem_nil
    · cases ran
      rw [List.mem_singleton] at member
      rw [member]
      rfl
  case touchKey =>
    cases ran
    rw [List.mem_singleton] at member
    rw [member]
    rfl
  case bindKey keyId deviceId actor preregistrationId =>
    simp only [LinuxStmt.run] at ran
    split at ran
    · cases ran
    · cases ran
      rw [table_updateKeys member]
      rfl
  case updateDevice target hostname profile ring assignedUserId =>
    simp only [LinuxStmt.run] at ran
    split at ran
    · cases ran
    · cases ran
      rw [table_updateDevices member]
      rfl
  case consumePreregistration | revokeTokens | deleteFacts =>
    cases ran
    obtain ⟨e, -, rfl⟩ := List.mem_map.mp member
    rfl
  case setConflict | supersede | rejectKey | revokeKeyOf =>
    cases ran
    rw [table_updateKeys member]
    rfl
  case clearWindowsColumns | recordApply =>
    cases ran
    rw [table_updateDevices member]
    rfl
  all_goals
    cases ran
    exact absurd member List.not_mem_nil

/-- What the upsert of a key writes: a row of this fingerprint again, or a new one. -/
theorem run_upsertKey {facts : EnrollFacts} {out : LinuxOutcome KeyRow}
    (ran : (LinuxStmt.upsertKey facts).run text draw db = some out) :
    ∃ id row, out = ⟨(id, row), [.key id row], []⟩ ∧
      ((∃ k, db.keys[id]? = some k ∧ k.keyFingerprint = facts.fingerprint ∧ row = facts.update draw.now k) ∨
        db.keys[id]? = none ∧ (∀ (other : Nat) (k : LinuxKey), db.keys[other]? = some k → k.keyFingerprint ≠ facts.fingerprint) ∧
          row = facts.insert draw.now) := by
  change upsertKeyRow facts draw db = some out at ran
  unfold upsertKeyRow at ran
  split at ran
  case h_1 id k found =>
    cases ran
    obtain ⟨present, same⟩ := Table.mem_select.mp (List.mem_of_head? found)
    exact ⟨id, _, rfl, .inl ⟨k, present, of_decide_eq_true same, rfl⟩⟩
  case h_2 missing =>
    split at ran
    · cases ran
    · rename_i absent
      cases ran
      refine ⟨draw.fresh, _, rfl, .inr ⟨?_, fun other k present same => ?_, rfl⟩⟩
      · rw [Std.ExtTreeMap.contains_eq_isSome_getElem?, Bool.not_eq_true, Option.isSome_eq_false_iff,
          Option.isNone_iff_eq_none] at absent
        exact absent
      · have member : (other, k) ∈ db.keys.select fun _ k => k.keyFingerprint = facts.fingerprint :=
          Table.mem_select.mpr ⟨present, decide_eq_true same⟩
        rw [List.head?_eq_none_iff.mp missing] at member
        exact List.not_mem_nil member

theorem run_createPullDevice {new : NewDevice} {out : LinuxOutcome DeviceRow}
    (ran : (LinuxStmt.createPullDevice new).run text draw db = some out) :
    out = ⟨(draw.fresh, new.row), [.device draw.fresh new.row], []⟩ ∧ db.devices[draw.fresh]? = none := by
  obtain ⟨allowed, same⟩ := Option.ite_none_left_eq_some.mp ran
  cases same
  refine ⟨rfl, ?_⟩
  rw [Bool.or_eq_true, Bool.or_eq_true, not_or, not_or] at allowed
  have absent := allowed.1.1
  rw [Std.ExtTreeMap.contains_eq_isSome_getElem?, Bool.not_eq_true, Option.isSome_eq_false_iff,
    Option.isNone_iff_eq_none] at absent
  exact absent

theorem run_bindKey {keyId deviceId : Nat} {actor : Text} {preregistrationId : Option Nat}
    {out : LinuxOutcome (Option KeyRow)}
    (ran : (LinuxStmt.bindKey keyId deviceId actor preregistrationId).run text draw db = some out) :
    out = updateKeys db (fun id _ => id = keyId) (LinuxKey.bind deviceId actor preregistrationId draw.now) ∧
      ∀ (id : Nat) (k : LinuxKey), db.keys[id]? = some k → id ≠ keyId → k.status = .approved → k.deviceId ≠ some deviceId := by
  obtain ⟨free, same⟩ := Option.ite_none_left_eq_some.mp ran
  cases same
  refine ⟨rfl, fun id k found other approved bound => free ?_⟩
  unfold approvedElsewhere
  rw [List.any_eq_true]
  refine ⟨(id, k), Std.ExtTreeMap.mem_toList_iff_getElem?_eq_some.mpr found, ?_⟩
  rw [Bool.and_eq_true, Bool.and_eq_true]
  exact ⟨⟨decide_eq_true other, decide_eq_true approved⟩, decide_eq_true bound⟩

theorem run_insertReport {deviceId : Nat} {r : Report} {out : LinuxOutcome (Nat × Int)}
    (ran : (LinuxStmt.insertReport deviceId r).run text draw db = some out) :
    out = ⟨(draw.fresh, draw.now), [.report draw.fresh (r.row deviceId draw.now)], []⟩ ∧
      db.reports[draw.fresh]? = none := by
  obtain ⟨absent, same⟩ := Option.ite_none_left_eq_some.mp ran
  cases same
  rw [Std.ExtTreeMap.contains_eq_isSome_getElem?, Bool.not_eq_true, Option.isSome_eq_false_iff,
    Option.isNone_iff_eq_none] at absent
  exact ⟨rfl, absent⟩

section

variable {s : LinuxStmt} {out : LinuxOutcome s.Ans}

/-- A statement that writes another table. -/
theorem run_keys (ran : s.run text draw db = some out) (other : s.table ≠ some .keys) :
    ((linuxSchema text).applyAll out.changes db).keys = db.keys :=
  applyAll_same LinuxChange.keys_apply fun _ member same =>
    other ((run_table ran member).trans (congrArg some same))

theorem run_devices (ran : s.run text draw db = some out) (other : s.table ≠ some .devices) :
    ((linuxSchema text).applyAll out.changes db).devices = db.devices :=
  applyAll_same LinuxChange.devices_apply fun _ member same =>
    other ((run_table ran member).trans (congrArg some same))

theorem run_preregistrations (ran : s.run text draw db = some out) (other : s.table ≠ some .preregistrations) :
    ((linuxSchema text).applyAll out.changes db).preregistrations = db.preregistrations :=
  applyAll_same LinuxChange.preregistrations_apply fun _ member same =>
    other ((run_table ran member).trans (congrArg some same))

theorem run_reports (ran : s.run text draw db = some out) (other : s.table ≠ some .reports) :
    ((linuxSchema text).applyAll out.changes db).reports = db.reports :=
  applyAll_same LinuxChange.reports_apply fun _ member same =>
    other ((run_table ran member).trans (congrArg some same))

end

/-- A statement that only reads. -/
theorem run_reads {s : LinuxStmt} {out : LinuxOutcome s.Ans} (ran : s.run text draw db = some out)
    (nothing : s.table = none) : (linuxSchema text).applyAll out.changes db = db := by
  have none_ : out.changes = [] := by
    refine List.eq_nil_iff_forall_not_mem.mpr fun c member => ?_
    have written := run_table ran member
    rw [nothing] at written
    cases written
  rw [none_]
  rfl

/-- No change deletes a key. -/
theorem LinuxChange.key_apply (c : LinuxChange) (db : LinuxDb) {id : Nat} (present : db.keys[id]? ≠ none) :
    (c.apply db).keys[id]? ≠ none := by
  have put : ∀ {other : Nat} {row : Option LinuxKey}, (id = other → row ≠ none) → (db.keys.put other row)[id]? ≠ none := by
    intro other row written
    by_cases same : id = other
    · subst same
      rw [Table.getElem?_put_self]
      exact written rfl
    · rw [Table.getElem?_put_of_ne _ same]
      exact present
  cases c with
  | key other row => exact put fun _ => Option.some_ne_none row
  | touchKey other touch =>
    refine put fun same none_ => present ?_
    rw [same]
    exact Option.map_eq_none_iff.mp none_
  | _ => exact present

theorem applyAll_key {id : Nat} (present : db.keys[id]? ≠ none) : ((linuxSchema text).applyAll cs db).keys[id]? ≠ none := by
  induction cs generalizing db with
  | nil => exact present
  | cons c cs ih => exact ih (c.key_apply db present)

/-- A program on the client of a transaction that performs `allowed` statements only, and
gives up at the first that fails. -/
def Only (allowed : LinuxStmt → Prop) {α : Type} : Fleet (Option α) → Prop
  | .ret _ => True
  | .op (.sql (.within s)) rest => allowed s ∧ rest none = .ret none ∧ ∀ answer, Only allowed (rest (some answer))
  | .op _ _ => False

section

variable {allowed : LinuxStmt → Prop} {α β : Type}

theorem Only.ret {value : Option α} : Only allowed (.ret value) := trivial

theorem Only.within {s : LinuxStmt} (ok : allowed s) : Only allowed (Fleet.within s).run :=
  ⟨ok, rfl, fun _ => trivial⟩

theorem Only.bind {program : Tx α} {next : α → Tx β} (first : Only allowed program.run)
    (later : ∀ value, Only allowed (next value).run) : Only allowed (program >>= next).run := by
  change Only allowed (Program.bind program.run _)
  generalize program.run = tree at first
  induction tree with
  | ret value =>
    cases value with
    | none => trivial
    | some value => exact later value
  | op o rest ih =>
    rcases o with ⟨o⟩ | _ | _ | _
    case sql =>
      cases o
      case within s =>
        obtain ⟨ok, stops, goes⟩ := first
        exact ⟨ok, congrArg (Program.bind · _) stops, fun answer => ih _ (goes answer)⟩
      all_goals exact first.elim
    all_goals exact first.elim

theorem Only.mono {weaker : LinuxStmt → Prop} {program : Fleet (Option α)} (only : Only allowed program)
    (implies : ∀ s, allowed s → weaker s) : Only weaker program := by
  induction program with
  | ret value => trivial
  | op o rest ih =>
    rcases o with ⟨o⟩ | _ | _ | _
    case sql =>
      cases o
      case within s => exact ⟨implies s only.1, only.2.1, fun answer => ih _ (only.2.2 answer)⟩
      all_goals exact only.elim
    all_goals exact only.elim

end

/-- A program that only reads. -/
abbrev Reads {α : Type} (program : Tx α) : Prop := Only (fun s => s.table = none) program.run

theorem reads_within {s : LinuxStmt} (nothing : s.table = none) : Reads (Fleet.within s) := Only.within nothing

theorem reads_classifyEnrollment {fingerprint : Text} {serial : Option Text} :
    Reads (classifyEnrollment text Fleet.within fingerprint serial) := by
  unfold classifyEnrollment
  split
  · exact Only.ret
  · exact (reads_within rfl).bind fun _ => (reads_within rfl).bind fun _ => (reads_within rfl).bind fun _ => Only.ret

theorem reads_resolveHostnamesForBatch {items : List HostnameItem} :
    Reads (resolveHostnamesForBatch text Fleet.within items) :=
  (reads_within rfl).bind fun _ => Only.ret

theorem reads_checkDeviceClaim {device : DeviceRow} {serial : Option Text} :
    Reads (checkDeviceClaim text device serial) := by
  have token : Reads (do
      let token ← Fleet.within (.activeToken device.1)
      return token.map ClaimRefusal.active_token) := (reads_within rfl).bind fun _ => Only.ret
  unfold checkDeviceClaim
  split
  · exact Only.ret
  split
  · dsimp only
    split
    · exact Only.ret
    split
    · exact Only.ret
    · exact token
  · exact token

theorem reads_claimOf {device : Option DeviceRow} {serial : Option Text} : Reads (claimOf text device serial) := by
  unfold claimOf
  split
  · split
    · exact Only.ret
    · exact reads_checkDeviceClaim
  · exact Only.ret

theorem reads_userKnown {assignedUserId : Option Text} : Reads (userKnown assignedUserId) := by
  unfold userKnown
  split
  · exact Only.ret
  · exact reads_within rfl

/-- The statements of `clearWindowsFacts`. -/
def Clears (deviceId : Nat) (s : LinuxStmt) : Prop :=
  s.table = some .facts ∨ s = .clearWindowsColumns deviceId ∨ s = .revokeTokens deviceId

theorem clears_clearWindowsFacts {deviceId : Nat} : Only (Clears deviceId) (clearWindowsFacts deviceId).run := by
  have deletes : ∀ table, Only (Clears deviceId) (Fleet.within (.deleteFacts table deviceId)).run :=
    fun _ => .within (.inl rfl)
  unfold clearWindowsFacts
  refine (deletes _).bind fun _ => (deletes _).bind fun _ => (deletes _).bind fun _ => (deletes _).bind fun _ => ?_
  exact (Only.within (.inr (.inl rfl))).bind fun _ => (Only.within (.inr (.inr rfl))).bind fun _ => Only.ret

/-- A program that gives up at the first statement that fails. -/
abbrev GivesUp {α : Type} (program : Tx α) : Prop := Only (fun _ => True) program.run

theorem givesUp_supersedeActive {device : DeviceRow} {actor : Text} {body : ApproveBody} :
    GivesUp (supersedeActive device actor body) := by
  refine (Only.within trivial).bind fun active => ?_
  cases active with
  | none => exact Only.ret
  | some active =>
    dsimp only
    split
    · exact Only.ret
    · exact (Only.within trivial).bind fun _ => Only.ret

theorem givesUp_convert {device : DeviceRow} {serial : Option Text} {body : ApproveBody} :
    GivesUp (convert text device serial body) := by
  have cleared : GivesUp (do
      let cleared ← clearWindowsFacts device.1
      return (.ok (some cleared) : AdminReply (Option (List Nat)))) :=
    (clears_clearWindowsFacts.mono fun _ _ => trivial).bind fun _ => Only.ret
  refine (reads_checkDeviceClaim.mono fun _ _ => trivial).bind fun claim => ?_
  split
  · split
    · exact Only.ret
    · exact cleared
  · exact cleared

theorem givesUp_takeOver {actor : Text} {key : KeyRow} {found : Match} {targetId : Nat} {body : ApproveBody} :
    GivesUp (takeOver text actor key found targetId body) := by
  refine (Only.within trivial).bind fun target => ?_
  cases target with
  | none => exact Only.ret
  | some device =>
    dsimp only
    split
    · exact Only.ret
    split
    · exact Only.ret
    split
    · exact givesUp_supersedeActive.bind fun _ => Only.ret
    · exact givesUp_convert.bind fun _ => Only.ret

end Opale.Linux
