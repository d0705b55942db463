import Opale.Linux.Frames
import Opale.Linux.Life
import Opale.Sql.Cells
import Opale.Sql.Serial

namespace Opale.Linux

open Sql

def LinuxKey.life (k : LinuxKey) : KeyLife := ⟨k.status, k.deviceId, k.keyFingerprint⟩

def LinuxDb.life (db : LinuxDb) : Life where
  key id := db.keys[id]?.map LinuxKey.life
  pulled id := db.devices[id]?.bind (·.managedBy) = some .pull
  consumed id := db.preregistrations[id]?.bind fun p => p.consumedAt.map fun _ => p.consumedByKeyId

variable {text : TextFns} {db : LinuxDb} {draw : LinuxDraw} {id keyId deviceId : Nat} {fingerprint : Text}

theorem life_congr {db₁ : LinuxDb} (keys : db₁.keys = db.keys) (devices : db₁.devices = db.devices)
    (preregistrations : db₁.preregistrations = db.preregistrations) : db₁.life = db.life := by
  unfold LinuxDb.life
  rw [keys, devices, preregistrations]

/-! A key, a device and a preregistration live in one row each. -/

def keyCells (text : TextFns) : (linuxSchema text).Cells Nat (Option KeyLife) where
  part id db := db.life.key id
  lock := .key
  frame {id c} outside db := by
    have apart : LinuxLock.key id ≠ c.lock := fun same => outside (List.mem_singleton.mpr same)
    cases c with
    | key other row =>
      refine congrArg (Option.map LinuxKey.life) (Table.getElem?_put_of_ne _ ?_ _)
      rintro rfl
      exact apart rfl
    | touchKey other touch =>
      refine congrArg (Option.map LinuxKey.life) (Table.getElem?_put_of_ne _ ?_ _)
      rintro rfl
      exact apart rfl
    | _ => rfl

def pullCells (text : TextFns) : (linuxSchema text).Cells Nat Prop where
  part id db := db.life.pulled id
  lock := .device
  frame {id c} outside db := by
    have apart : LinuxLock.device id ≠ c.lock := fun same => outside (List.mem_singleton.mpr same)
    have kept {devices : Table LinuxDevice} (same : devices[id]? = db.devices[id]?) :
        (devices[id]?.bind (·.managedBy) = some .pull) = (db.devices[id]?.bind (·.managedBy) = some .pull) := by
      rw [same]
    cases c with
    | device other row =>
      refine kept (Table.getElem?_put_of_ne _ ?_ _)
      rintro rfl
      exact apart rfl
    | touchDevice other touch =>
      refine kept (Table.getElem?_put_of_ne _ ?_ _)
      rintro rfl
      exact apart rfl
    | _ => rfl

def consumedCells (text : TextFns) : (linuxSchema text).Cells Nat (Option (Option Nat)) where
  part id db := db.life.consumed id
  lock := .preregistration
  frame {id c} outside db := by
    have apart : LinuxLock.preregistration id ≠ c.lock := fun same => outside (List.mem_singleton.mpr same)
    cases c with
    | preregistration other row =>
      refine congrArg (fun row => Option.bind row _) (Table.getElem?_put_of_ne _ ?_ _)
      rintro rfl
      exact apart rfl
    | _ => rfl

/-- The advisory lock, and the life of the keys under it. -/
def enrollmentLock (text : TextFns) : Serial (linuxSchema text) Life where
  lock := .enrollment
  take := .advisoryLock
  takes ran := by
    cases ran
    exact ⟨rfl, List.mem_cons_self⟩
  part := LinuxDb.life
  stays locked moves same := by
    have keys := fun id => (keyCells text).view_of_moves (k := id) moves locked (congrArg (Life.key · id) same)
    have pulled := fun id => (pullCells text).view_of_moves (k := id) moves locked (congrArg (Life.pulled · id) same)
    have consumed := fun id =>
      (consumedCells text).view_of_moves (k := id) moves locked (congrArg (Life.consumed · id) same)
    exact Life.ext (funext keys) (funext pulled) (funext consumed)
  good := Life.Good
  step := Life.Step
  step_refl := .refl

abbrev Still (text : TextFns) (s : LinuxStmt) : Prop := (enrollmentLock text).Still s

/-- A statement of another table. -/
theorem still_of_table {s : LinuxStmt} (keys : s.table ≠ some .keys) (devices : s.table ≠ some .devices)
    (preregistrations : s.table ≠ some .preregistrations) : Still text s := fun _ _ _ ran =>
  life_congr (run_keys ran keys) (run_devices ran devices) (run_preregistrations ran preregistrations)

theorem still_of_reads {s : LinuxStmt} (reads : s.table = none) : Still text s := by
  apply still_of_table
  all_goals
    rw [reads]
    exact nofun

/-- The life of the keys after an UPDATE of them. -/
theorem life_updateKeys {p : Nat → LinuxKey → Bool} {set : LinuxKey → LinuxKey} :
    ((linuxSchema text).applyAll (updateKeys db p set).changes db).life =
      { db.life with key := fun id => db.keys[id]?.map fun k => (if p id k then set k else k).life } := by
  have devices : ((linuxSchema text).applyAll (updateKeys db p set).changes db).devices = db.devices :=
    applyAll_same LinuxChange.devices_apply fun c member => by
      rw [table_updateKeys member]
      exact nofun
  have preregistrations : ((linuxSchema text).applyAll (updateKeys db p set).changes db).preregistrations =
      db.preregistrations := applyAll_same LinuxChange.preregistrations_apply fun c member => by
    rw [table_updateKeys member]
    exact nofun
  unfold LinuxDb.life
  rw [devices, preregistrations]
  congr 1
  funext id
  rw [keys_updateKeys, Option.map_map]
  rfl

/-- The life of the keys after an UPDATE of the devices. -/
theorem life_updateDevices {p : Nat → LinuxDevice → Bool} {set : LinuxDevice → LinuxDevice} :
    ((linuxSchema text).applyAll (updateDevices db p set).changes db).life =
      { db.life with
        pulled := fun id => (db.devices[id]?.map fun d => if p id d then set d else d).bind (·.managedBy) = some .pull } := by
  have keys : ((linuxSchema text).applyAll (updateDevices db p set).changes db).keys = db.keys :=
    applyAll_same LinuxChange.keys_apply fun c member => by
      rw [table_updateDevices member]
      exact nofun
  have preregistrations : ((linuxSchema text).applyAll (updateDevices db p set).changes db).preregistrations =
      db.preregistrations := applyAll_same LinuxChange.preregistrations_apply fun c member => by
    rw [table_updateDevices member]
    exact nofun
  unfold LinuxDb.life
  rw [keys, preregistrations]
  congr 1
  funext id
  rw [devices_updateDevices]

/-- An UPDATE of the keys that is not about their life. -/
theorem life_still {p : Nat → LinuxKey → Bool} {set : LinuxKey → LinuxKey} (same : ∀ k, (set k).life = k.life) :
    ((linuxSchema text).applyAll (updateKeys db p set).changes db).life = db.life := by
  rw [life_updateKeys]
  refine Life.ext (funext fun id => ?_) rfl rfl
  refine congrArg (fun f => db.keys[id]?.map f) (funext fun k => ?_)
  split
  · exact same k
  · rfl

/-- An UPDATE of one key. -/
theorem life_updateKey {k : LinuxKey} {set : LinuxKey → LinuxKey} (here : db.keys[keyId]? = some k) :
    ((linuxSchema text).applyAll (updateKeys db (fun id _ => id = keyId) set).changes db).life =
      db.life.setKey keyId (set k).life := by
  rw [life_updateKeys]
  refine Life.ext (funext fun id => ?_) rfl rfl
  by_cases same : id = keyId
  · subst same
    rw [Life.setKey_self]
    change db.keys[id]?.map _ = _
    rw [here]
    simp
  · rw [Life.setKey_of_ne same]
    change db.keys[id]?.map _ = db.keys[id]?.map LinuxKey.life
    simp only [decide_eq_true_eq, if_neg same]

theorem still_setConflict {conflict : Option Conflict} : Still text (.setConflict keyId conflict) := by
  intro _ db out ran
  cases ran
  exact life_still fun _ => rfl

theorem still_clearWindowsColumns : Still text (.clearWindowsColumns deviceId) := by
  intro _ db out ran
  cases ran
  refine life_updateDevices.trans (Life.ext rfl (funext fun id => ?_) rfl)
  change (Option.bind (Option.map _ db.devices[id]?) _ = _) = (Option.bind db.devices[id]? _ = _)
  cases db.devices[id]? with
  | none => rfl
  | some d =>
    dsimp only [Option.map_some, Option.bind_some]
    split <;> rfl

theorem still_touchKey {agentVersion osVersion : Option Text} {luksRoot : Option Bool} {serial : Option Text} :
    Still text (.touchKey keyId agentVersion osVersion luksRoot serial) := by
  intro _ db out ran
  cases ran
  refine Life.ext (funext fun id => ?_) rfl rfl
  by_cases same : id = keyId
  · subst same
    refine (congrArg (Option.map LinuxKey.life) (Table.getElem?_put_self ..)).trans ?_
    rw [Option.map_map]
    rfl
  · exact congrArg (Option.map LinuxKey.life) (Table.getElem?_put_of_ne _ same _)

theorem still_touchDevice {target : Option Nat} {osVersion : Option Text} {diskUsedPct : Option Int} :
    Still text (.touchDevice target osVersion diskUsedPct) := by
  intro draw db out ran
  change LinuxStmt.run text _ draw db = some out at ran
  simp only [LinuxStmt.run] at ran
  split at ran
  · cases ran
    rfl
  · rename_i key d found
    cases ran
    refine Life.ext rfl (funext fun id => ?_) rfl
    change (Option.bind (Table.put db.devices key _)[id]? _ = _) = (Option.bind db.devices[id]? _ = _)
    by_cases same : id = key
    · subst same
      rw [Table.getElem?_put_self]
      cases db.devices[id]? <;> rfl
    · rw [Table.getElem?_put_of_ne _ same]

theorem key_life {k : LinuxKey} (found : db.keys[id]? = some k) : db.life.key id = some k.life :=
  congrArg (Option.map LinuxKey.life) found

/-- The row of a key that has this life. -/
theorem row_of_life {a : KeyLife} (lives : db.life.key id = some a) : ∃ k, db.keys[id]? = some k ∧ k.life = a :=
  Option.map_eq_some_iff.mp lives

theorem life_upsertKey {facts : EnrollFacts} {out : LinuxOutcome KeyRow}
    (ran : (LinuxStmt.upsertKey facts).run text draw db = some out) :
    (((linuxSchema text).applyAll out.changes db).life = db.life ∧ db.life.key out.answer.1 = some out.answer.2.life) ∨
      (∀ j b, db.life.key j = some b → b.fingerprint ≠ facts.fingerprint) ∧ db.life.key out.answer.1 = none ∧
        out.answer.2.life = ⟨.pending, none, facts.fingerprint⟩ ∧
        ((linuxSchema text).applyAll out.changes db).life =
          db.life.setKey out.answer.1 ⟨.pending, none, facts.fingerprint⟩ := by
  obtain ⟨id, row, rfl, known⟩ := run_upsertKey ran
  have after : ((linuxSchema text).applyAll [.key id row] db).life = db.life.setKey id row.life := by
    refine Life.ext (funext fun other => ?_) rfl rfl
    by_cases same : other = id
    · subst same
      rw [Life.setKey_self]
      exact congrArg (Option.map LinuxKey.life) (Table.getElem?_put_self ..)
    · rw [Life.setKey_of_ne same]
      exact congrArg (Option.map LinuxKey.life) (Table.getElem?_put_of_ne _ same _)
  rcases known with ⟨k, found, -, rfl⟩ | ⟨absent, new, rfl⟩
  · have same : (facts.update draw.now k).life = k.life := rfl
    have lives : db.life.key id = some k.life := key_life found
    refine .inl ⟨after.trans (Life.ext (funext fun other => ?_) rfl rfl), lives⟩
    by_cases here : other = id
    · subst here
      rw [Life.setKey_self, same, lives]
    · rw [Life.setKey_of_ne here]
  · refine .inr ⟨fun j b lives => ?_, congrArg (Option.map LinuxKey.life) absent, rfl, after⟩
    obtain ⟨k, found, rfl⟩ := row_of_life lives
    exact new j k found

theorem life_bindKey {actor : Text} {preregistrationId : Option Nat} {out : LinuxOutcome (Option KeyRow)}
    (ran : (LinuxStmt.bindKey keyId deviceId actor preregistrationId).run text draw db = some out)
    (waits : db.life.key keyId = some ⟨.pending, none, fingerprint⟩) :
    ((linuxSchema text).applyAll out.changes db).life = db.life.setKey keyId ⟨.approved, some deviceId, fingerprint⟩ ∧
      ∀ j b, j ≠ keyId → db.life.key j = some b → b.status = .approved → b.deviceId ≠ some deviceId := by
  obtain ⟨rfl, free⟩ := run_bindKey ran
  obtain ⟨k, found, same⟩ := row_of_life waits
  refine ⟨(life_updateKey found).trans (congrArg _ ?_), fun j b other lives => ?_⟩
  · exact congrArg (fun a : KeyLife => (⟨.approved, some deviceId, a.fingerprint⟩ : KeyLife)) same
  · obtain ⟨k₁, there, rfl⟩ := row_of_life lives
    exact free j k₁ there other

theorem life_rejectKey {actor : Text} {out : LinuxOutcome (Option KeyRow)}
    (ran : (LinuxStmt.rejectKey keyId actor).run text draw db = some out)
    (waits : db.life.key keyId = some ⟨.pending, none, fingerprint⟩) :
    ((linuxSchema text).applyAll out.changes db).life = db.life.setKey keyId ⟨.rejected, none, fingerprint⟩ := by
  obtain ⟨k, found, same⟩ := row_of_life waits
  cases ran
  have rejected : (LinuxKey.reject actor draw.now k).life = ⟨.rejected, none, fingerprint⟩ :=
    congrArg (fun a : KeyLife => (⟨.rejected, a.deviceId, a.fingerprint⟩ : KeyLife)) same
  exact (life_updateKey found).trans (congrArg _ rejected)

/-- An UPDATE that revokes approved keys only. -/
theorem revokes_updateKeys {p : Nat → LinuxKey → Bool} {actor reason : Text} {now : Int}
    (approved : ∀ id k, db.keys[id]? = some k → p id k = true → k.status = .approved) :
    db.life.Revokes ((linuxSchema text).applyAll (updateKeys db p (LinuxKey.revoke actor reason now)).changes db).life := by
  rw [life_updateKeys]
  refine ⟨fun id => ?_, rfl, rfl⟩
  change db.keys[id]?.map _ = db.keys[id]?.map LinuxKey.life ∨ ∃ a, db.keys[id]?.map LinuxKey.life = _ ∧ _ ∧ db.keys[id]?.map _ = _
  cases found : db.keys[id]? with
  | none => exact .inl rfl
  | some k =>
    by_cases satisfied : p id k = true
    · refine .inr ⟨k.life, rfl, approved id k found satisfied, ?_⟩
      rw [Option.map_some, if_pos satisfied]
      rfl
    · refine .inl ?_
      rw [Option.map_some, if_neg satisfied]
      rfl

theorem life_supersede {actor : Text} {out : LinuxOutcome Unit}
    (ran : (LinuxStmt.supersede keyId actor).run text draw db = some out) {a : KeyLife}
    (here : db.life.key keyId = some a) (active : a.status = .approved) :
    db.life.Revokes ((linuxSchema text).applyAll out.changes db).life := by
  cases ran
  refine revokes_updateKeys fun id k found same => ?_
  cases of_decide_eq_true same
  cases (key_life found).symm.trans here
  exact active

theorem life_revokeKeyOf {actor reason : Text} {out : LinuxOutcome (Option KeyRow)}
    (ran : (LinuxStmt.revokeKeyOf deviceId actor reason).run text draw db = some out) :
    db.life.Revokes ((linuxSchema text).applyAll out.changes db).life := by
  cases ran
  refine revokes_updateKeys fun id k _ satisfied => ?_
  rw [Bool.and_eq_true] at satisfied
  exact of_decide_eq_true satisfied.2

theorem life_createPullDevice {new : NewDevice} {out : LinuxOutcome DeviceRow}
    (ran : (LinuxStmt.createPullDevice new).run text draw db = some out) :
    ((linuxSchema text).applyAll out.changes db).life = db.life.pull out.answer.1 := by
  obtain ⟨rfl, -⟩ := run_createPullDevice ran
  refine Life.ext rfl (funext fun id => ?_) rfl
  change (Option.bind (Table.put db.devices draw.fresh _)[id]? _ = _) = (id = draw.fresh ∨ _)
  by_cases same : id = draw.fresh
  · subst same
    rw [Table.getElem?_put_self]
    exact propext ⟨fun _ => .inl rfl, fun _ => rfl⟩
  · rw [Table.getElem?_put_of_ne _ same]
    exact propext ⟨.inr, fun either => either.resolve_left same⟩

theorem life_updateDevice {hostname profile : Text} {ring : Ring} {assignedUserId : Option Text}
    {out : LinuxOutcome (Option DeviceRow)} {row : DeviceRow}
    (ran : (LinuxStmt.updateDevice deviceId hostname profile ring assignedUserId).run text draw db = some out)
    (answer : out.answer = some row) :
    ((linuxSchema text).applyAll out.changes db).life = db.life.pull row.1 := by
  simp only [LinuxStmt.run] at ran
  split at ran
  · cases ran
  cases ran
  rw [answer_updateDevices] at answer
  obtain ⟨d, found, rfl⟩ := Option.map_eq_some_iff.mp answer
  refine life_updateDevices.trans (Life.ext rfl (funext fun id => ?_) rfl)
  change (Option.bind (Option.map _ db.devices[id]?) _ = _) = (id = deviceId ∨ _)
  by_cases same : id = deviceId
  · subst same
    rw [found, Option.map_some, if_pos (decide_eq_true rfl)]
    exact propext ⟨fun _ => .inl rfl, fun _ => rfl⟩
  · refine propext ⟨fun pulled => .inr ?_, fun either => ?_⟩
    · cases there : db.devices[id]? with
      | none => simp [there] at pulled
      | some d => simpa [LinuxDb.life, there, same] using pulled
    · have pulled := either.resolve_left same
      cases there : db.devices[id]? with
      | none => simp [LinuxDb.life, there] at pulled
      | some d => simpa [LinuxDb.life, there, same] using pulled

/-- A preregistration that has gone is nobody's any more. -/
theorem life_consumePreregistration {target : Nat} {out : LinuxOutcome Unit}
    (ran : (LinuxStmt.consumePreregistration target keyId).run text draw db = some out) :
    ((linuxSchema text).applyAll out.changes db).life = db.life ∨
      ((linuxSchema text).applyAll out.changes db).life = db.life.consume target keyId := by
  have keys := run_keys ran nofun
  have devices := run_devices ran nofun
  cases ran
  have written := fun rows : List PreregistrationRow =>
    (applyAll_preregistrationRows rows db : ((linuxSchema text).applyAll _ db).preregistrations = _)
  have rows := fun id => (congrArg (·[id]?) (written _)).trans
    (Table.getElem?_write_update db.preregistrations (fun id p => id = target && p.consumedAt = none)
      (fun p => { p with consumedAt := some draw.now, consumedByKeyId := some keyId }) id)
  by_cases open_ : ∃ p, db.preregistrations[target]? = some p ∧ p.consumedAt = none
  · obtain ⟨p, found, free⟩ := open_
    have before : db.life.consumed target = none := by simp [LinuxDb.life, found, free]
    refine .inr (Life.ext ?_ ?_ (funext fun id => ?_))
    · simp only [LinuxDb.life, Life.consume, keys]
    · simp only [LinuxDb.life, Life.consume, devices]
    · change Option.bind _ _ = _
      rw [rows]
      unfold Life.consume
      rw [if_pos before]
      by_cases same : id = target
      · subst same
        simp [found, free]
      · dsimp only
        rw [Function.update_of_ne same]
        cases there : db.preregistrations[id]? <;> simp [LinuxDb.life, there, same]
  · refine .inl (Life.ext ?_ ?_ (funext fun id => ?_))
    · simp only [LinuxDb.life, keys]
    · simp only [LinuxDb.life, devices]
    · change Option.bind _ _ = Option.bind _ _
      rw [rows]
      cases there : db.preregistrations[id]? with
      | none => rfl
      | some p =>
        rw [Option.map_some, if_neg]
        intro satisfied
        rw [Bool.and_eq_true, decide_eq_true_eq, decide_eq_true_eq] at satisfied
        obtain ⟨rfl, free⟩ := satisfied
        exact open_ ⟨p, there, free⟩

end Opale.Linux
