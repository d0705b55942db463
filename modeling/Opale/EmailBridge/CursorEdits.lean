import Opale.Js.Values
import Opale.Sql.Alone

namespace Opale.EmailBridge.CursorEdits

open Js Sql

/-- The two settings of a mailbox. -/
inductive Setting where
  | cursor
  | state
  deriving DecidableEq

/-- Who wrote a row. A tick goes by the cursor that it started from, its statement by the number of
writes of the cursor before its own. -/
inductive Writer where
  | admin
  | tick (started : Units) (statement : Nat)
  deriving DecidableEq

/-- A write of a row; without a value it removes the row. -/
structure Write where
  value : Option Units
  writer : Writer
  deriving DecidableEq

/-- All the writes of a row, the last one first. -/
abbrev Past := List Write

/-- What is read of the row. -/
def Past.value (past : Past) : Option Units := past.head?.bind (·.value)

def Past.writer (past : Past) : Option Writer := past.head?.map (·.writer)

/-- The rows of `settings`, with their pasts. -/
abbrev Settings := Setting → Past

structure SettingChange where
  key : Setting
  write : Write
  deriving DecidableEq

def SettingChange.apply (c : SettingChange) (db : Settings) : Settings := Function.update db c.key (c.write :: db c.key)

/-- The last three are an admin's. -/
inductive SettingStmt where
  | state
  | lockTimeout
  | lockCursor
  | save (started newCursor newState : Units)
  | insert (value : Units)
  | update (value : Units)
  | delete
  deriving DecidableEq

abbrev SettingStmt.Ans : SettingStmt → Type
  | .state | .lockCursor => Option Units
  | .lockTimeout | .save .. | .insert _ | .update _ | .delete => Unit

abbrev SettingOutcome := Outcome SettingChange Setting

/-- A change of the row of the cursor, when there is one. -/
def onRow (db : Settings) (value : Option Units) : List SettingChange :=
  if (db .cursor).value.isSome then [⟨.cursor, value, .admin⟩] else []

/-- FOR UPDATE locks the row that it reads; where there is none it locks nothing. -/
def SettingStmt.run : (s : SettingStmt) → Unit → Settings → Option (SettingOutcome s.Ans)
  | .state, _, db => some ⟨(db .state).value, [], []⟩
  | .lockTimeout, _, _ => some ⟨(), [], []⟩
  | .lockCursor, _, db => some ⟨(db .cursor).value, [], if (db .cursor).value.isSome then [.cursor] else []⟩
  | .save started newCursor newState, _, db =>
    let writer := .tick started (db .cursor).length
    some ⟨(), [⟨.cursor, some newCursor, writer⟩, ⟨.state, some newState, writer⟩], []⟩
  | .insert value, _, _ => some ⟨(), [⟨.cursor, some value, .admin⟩], []⟩
  | .update value, _, db => some ⟨(), onRow db (some value), []⟩
  | .delete, _, db => some ⟨(), onRow db none, []⟩

theorem SettingChange.apply_comm (c d : SettingChange) (db : Settings) (apart : ∀ k ∈ [c.key], k ∉ [d.key]) :
    c.apply (d.apply db) = d.apply (c.apply db) := by
  have other : c.key ≠ d.key := fun same => apart c.key List.mem_cons_self (same ▸ List.mem_cons_self)
  unfold SettingChange.apply
  rw [Function.update_of_ne other, Function.update_of_ne other.symm, Function.update_comm other]

def settingsSchema : Schema SettingStmt.Ans Settings SettingChange Setting Unit where
  run := SettingStmt.run
  apply := SettingChange.apply
  locks c := [c.key]
  commute := SettingChange.apply_comm

/-- The pages of a tick, from its cursor and the state it has read: the cursor and the state that it
would save, or nothing when it throws. -/
inductive PollCall where
  | pages (cursor : Units) (rawState : Option Units)

abbrev PollCall.Reply : PollCall → Type
  | .pages .. => Option (Units × Units)

abbrev SettingsApp := App SettingStmt.Ans PollCall.Reply

/-- The cursor that was found in place of the expected one. -/
structure Modified where
  found : Option Units

abbrev SettingsTx := Body SettingStmt.Ans PollCall.Reply Modified

abbrev within (s : SettingStmt) : SettingsTx s.Ans := Body.within s

/-- `false` is the error `Modified`. -/
def saveCursor (expected newCursor newState : Units) : SettingsApp (Except (Thrown Modified) Unit) :=
  App.transaction do
    within .lockTimeout
    let found ← within .lockCursor
    if found = some expected then within (.save expected newCursor newState)
    else Body.fail ⟨found⟩

/-- A tick. The cursor is what its caller has read. -/
def pollMailboxCursor (cursor : Units) : SettingsApp Unit := do
  match ← App.query .state with
  | none => return ()
  | some rawState =>
    match ← App.call (.pages cursor rawState) with
    | none => return ()
    | some (newCursor, newState) =>
      if newCursor ≠ cursor ∨ some newState ≠ rawState then
        let _ ← saveCursor cursor newCursor newState
        return ()
      else return ()

def SettingStmt.ByAdmin : SettingStmt → Prop
  | .save .. => False
  | _ => True

/-- What an admin does: statements by themselves and whole transactions, as the answers have it. -/
inductive Admin : SettingsApp Unit → Prop
  | done : Admin (.ret ())
  | query {s rest} : s.ByAdmin → (∀ answer, Admin (rest answer)) → Admin (App.query s >>= rest)
  | transaction {body : SettingsTx Unit} {rest} : body.Only SettingStmt.ByAdmin → (∀ result, Admin (rest result)) →
      Admin (App.transaction body >>= rest)

abbrev SettingsStore := Store Settings SettingChange Setting

/-- Any number of ticks and admins at the same time, in any number of processes. -/
def settingsThreads : Threads (AppOp.Res SettingStmt.Ans PollCall.Reply) SettingsStore :=
  settingsSchema.threads fun program => (∃ cursor, program = pollMailboxCursor cursor) ∨ Admin program

/-- What is there at first counts as an admin's. -/
def before (cursor state : Option Units) : Settings
  | .cursor => [⟨cursor, .admin⟩]
  | .state => [⟨state, .admin⟩]

/-- Each write of a tick came right after the value that the tick had started from. -/
def Past.Lawful : Past → Prop
  | [] => True
  | w :: past => (∀ started statement, w.writer = .tick started statement →
      Past.value past = some started ∧ statement = past.length) ∧ Lawful past

/-- The cursor is an admin's, or the same statement wrote its state. -/
def Together (db : Settings) : Prop :=
  ∃ writer, (db .cursor).writer = some writer ∧ (writer = .admin ∨ (db .state).writer = some writer)

/-- How far a transaction is: a tick has found a cursor under the lock, or has saved; an admin has edited. -/
inductive Stage where
  | begun
  | checked (found : Units)
  | saved
  | edited

/-- A save follows the check of its own cursor. -/
def Stage.Allowed : Stage → SettingStmt → Prop
  | s, .save started _ _ => s = .checked started
  | s, .insert _ | s, .update _ | s, .delete => s ≠ .saved
  | _, _ => True

def Stage.next : Stage → (s : SettingStmt) → s.Ans → Stage
  | .begun, .lockCursor, some found => .checked found
  | _, .save .., _ => .saved
  | _, .insert _, _ | _, .update _, _ | _, .delete, _ => .edited
  | s, _, _ => s

/-- What a transaction has locked and written. -/
def Stage.Holds : Stage → Set Setting → Settings → Settings → Prop
  | .begun, _, committed, view => view = committed
  | .checked found, owned, committed, view =>
    view = committed ∧ .cursor ∈ owned ∧ (committed .cursor).value = some found
  | .saved, owned, committed, view => (∀ k, k ∈ owned) ∧ ∃ started writer,
    writer = .tick started (committed .cursor).length ∧ (committed .cursor).value = some started ∧
      ∀ k, ∃ value, view k = ⟨some value, writer⟩ :: committed k
  | .edited, owned, committed, view => view .state = committed .state ∧
    ∃ ws : Past, (∀ w ∈ ws, w.writer = .admin) ∧ view .cursor = ws ++ committed .cursor ∧ (ws ≠ [] → .cursor ∈ owned)

/-- The pasts are lawful, and whatever stands there was written together. -/
def Kept (db : Settings) : Prop := (db .cursor).Lawful ∧ Together db

def settingsContract : Contract settingsSchema Stage where
  inv := Kept
  guard _ _ _ := True
  start := .begun
  allowed := Stage.Allowed
  next := Stage.next
  closes _ := True
  queried := SettingStmt.ByAdmin
  holds := Stage.Holds

variable {db committed view : Settings} {owned : Set Setting} {s : Stage} {ds : List SettingChange} {k : Setting}

/-- The changes of others come on top of a past, whatever it is. -/
theorem applyAll_past (ds : List SettingChange) (k : Setting) :
    ∃ new : Past, ∀ db, settingsSchema.applyAll ds db k = new ++ db k := by
  induction ds with
  | nil => exact ⟨[], fun db => rfl⟩
  | cons d ds ih =>
    obtain ⟨new, past⟩ := ih
    by_cases same : d.key = k
    · subst same
      refine ⟨new ++ [d.write], fun db => ?_⟩
      have here : d.apply db d.key = d.write :: db d.key := Function.update_self ..
      rw [Schema.applyAll_cons, past, List.append_assoc]
      exact congrArg (new ++ ·) here
    · refine ⟨new, fun db => ?_⟩
      have here : d.apply db k = db k := Function.update_of_ne (Ne.symm same) ..
      rw [Schema.applyAll_cons, past]
      exact congrArg (new ++ ·) here

/-- Nobody writes a row that another has locked. -/
theorem applyAll_locked (outside : ∀ d ∈ ds, ∀ k ∈ settingsSchema.locks d, k ∉ owned) (mine : k ∈ owned)
    (db : Settings) : settingsSchema.applyAll ds db k = db k := by
  induction ds generalizing db with
  | nil => rfl
  | cons d ds ih =>
    have other : k ≠ d.key := fun same => outside d List.mem_cons_self d.key List.mem_cons_self (same ▸ mine)
    have here : d.apply db k = db k := Function.update_of_ne other ..
    rw [Schema.applyAll_cons, ih fun e member => outside e (List.mem_cons_of_mem d member)]
    exact here

/-- What the others commit leaves a transaction where it stands. -/
theorem Stage.Holds.stable (holds : s.Holds owned committed view)
    (outside : ∀ d ∈ ds, ∀ k ∈ settingsSchema.locks d, k ∉ owned) :
    s.Holds owned (settingsSchema.applyAll ds committed) (settingsSchema.applyAll ds view) := by
  cases s with
  | begun => exact congrArg _ holds
  | checked found =>
    obtain ⟨same, mine, value⟩ := holds
    refine ⟨congrArg _ same, mine, ?_⟩
    rw [applyAll_locked outside mine]
    exact value
  | saved =>
    obtain ⟨mine, started, writer, by_, value, written⟩ := holds
    have same : settingsSchema.applyAll ds committed = committed := funext fun k => applyAll_locked outside (mine k) _
    have seen : settingsSchema.applyAll ds view = view := funext fun k => applyAll_locked outside (mine k) _
    rw [same, seen]
    exact ⟨mine, started, writer, by_, value, written⟩
  | edited =>
    obtain ⟨state, ws, admins, cursor, mine⟩ := holds
    have state₁ : settingsSchema.applyAll ds view .state = settingsSchema.applyAll ds committed .state := by
      obtain ⟨new, past⟩ := applyAll_past ds .state
      rw [past, past, state]
    refine ⟨state₁, ws, admins, ?_, mine⟩
    by_cases edited : ws = []
    · subst edited
      obtain ⟨new, past⟩ := applyAll_past ds .cursor
      rw [past, past, cursor]
      rfl
    · rw [applyAll_locked outside (mine edited), applyAll_locked outside (mine edited)]
      exact cursor

theorem Stage.Holds.mono (holds : s.Holds owned committed view) {more : Set Setting} (within : owned ⊆ more) :
    s.Holds more committed view := by
  cases s with
  | begun => exact holds
  | checked found => exact ⟨holds.1, within holds.2.1, holds.2.2⟩
  | saved => exact ⟨fun k => within (holds.1 k), holds.2⟩
  | edited =>
    obtain ⟨state, ws, admins, cursor, mine⟩ := holds
    exact ⟨state, ws, admins, cursor, fun edited => within (mine edited)⟩

/-- A transaction that has not saved is one with no edit yet, or with some. -/
theorem Stage.Holds.unsaved (holds : s.Holds owned committed view) (other : s ≠ .saved) :
    Stage.Holds .edited owned committed view := by
  have untouched (same : view = committed) : Stage.Holds .edited owned committed view := by
    rw [same]
    exact ⟨rfl, [], fun _ member => absurd member List.not_mem_nil, rfl, fun edited => absurd rfl edited⟩
  cases s with
  | begun => exact untouched holds
  | checked found => exact untouched holds.1
  | saved => exact absurd rfl other
  | edited => exact holds

/-- One more edit. -/
theorem Stage.Holds.edit (out : SettingOutcome Unit) (holds : s.Holds owned committed view) (other : s ≠ .saved)
    (edits : out.changes = [] ∨ ∃ value, out.changes = [⟨.cursor, value, .admin⟩]) :
    Stage.Holds .edited (owned ∪ {k | k ∈ settingsSchema.needs out}) committed
      (settingsSchema.applyAll out.changes view) := by
  have edited := holds.unsaved other
  obtain nothing | ⟨value, once⟩ := edits
  · rw [nothing]
    exact edited.mono Set.subset_union_left
  · obtain ⟨state, ws, admins, cursor, mine⟩ := edited
    have locked : .cursor ∈ settingsSchema.needs out :=
      Schema.mem_needs (c := ⟨.cursor, value, .admin⟩) (by rw [once]; exact List.mem_cons_self) List.mem_cons_self
    rw [once]
    refine ⟨state, ⟨value, .admin⟩ :: ws, List.forall_mem_cons.mpr ⟨rfl, admins⟩, ?_, fun _ => .inr locked⟩
    exact congrArg (⟨value, .admin⟩ :: ·) cursor

theorem onRow_edits (db : Settings) (value : Option Units) :
    onRow db value = [] ∨ ∃ edit, onRow db value = [⟨.cursor, edit, .admin⟩] := by
  unfold onRow
  split
  · exact .inr ⟨value, rfl⟩
  · exact .inl rfl

/-- What a statement makes of the stage of its transaction. -/
theorem Stage.Holds.within {q : SettingStmt} {out : SettingOutcome q.Ans} (holds : s.Holds owned committed view)
    (allowed : s.Allowed q) (ran : q.run () view = some out) :
    (s.next q out.answer).Holds (owned ∪ {k | k ∈ settingsSchema.needs out}) committed
      (settingsSchema.applyAll out.changes view) := by
  cases q with
  | state =>
    cases ran
    cases s <;> exact holds.mono Set.subset_union_left
  | lockTimeout =>
    cases ran
    cases s <;> exact holds.mono Set.subset_union_left
  | lockCursor =>
    cases ran
    cases s with
    | begun =>
      have same : view = committed := holds
      subst same
      cases found : (view .cursor).value with
      | none => exact rfl
      | some found =>
        refine ⟨rfl, .inr ?_, ‹_›⟩
        simp [Schema.needs]
    | _ => exact holds.mono Set.subset_union_left
  | save started newCursor newState =>
    cases ran
    cases allowed
    obtain ⟨same, -, value⟩ := holds
    subst same
    refine ⟨fun k => .inr ?_, started, _, rfl, value, fun k => ?_⟩
    · cases k <;> simp [Schema.needs, settingsSchema]
    · cases k with
      | cursor => exact ⟨newCursor, rfl⟩
      | state => exact ⟨newState, rfl⟩
  | insert value =>
    cases ran
    have edited := holds.edit ⟨(), [⟨.cursor, some value, .admin⟩], []⟩ allowed (.inr ⟨some value, rfl⟩)
    cases s <;> exact edited
  | update value =>
    cases ran
    have edited := holds.edit ⟨(), onRow view (some value), []⟩ allowed (onRow_edits view (some value))
    cases s <;> exact edited
  | delete =>
    cases ran
    have edited := holds.edit ⟨(), onRow view none, []⟩ allowed (onRow_edits view none)
    cases s <;> exact edited

theorem Past.Lawful.admins {past : Past} (lawful : past.Lawful) {ws : Past} (admins : ∀ w ∈ ws, w.writer = .admin) :
    Past.Lawful (ws ++ past) := by
  induction ws with
  | nil => exact lawful
  | cons w ws ih =>
    refine ⟨fun started statement tick => ?_, ih fun v member => admins v (List.mem_cons_of_mem w member)⟩
    cases (admins w List.mem_cons_self).symm.trans tick

/-- What a transaction commits. -/
theorem Stage.Holds.commit (holds : s.Holds owned committed view) (kept : Kept committed) : Kept view := by
  have edited (holds : Stage.Holds .edited owned committed view) : Kept view := by
    obtain ⟨lawful, writer, last, who⟩ := kept
    obtain ⟨state, ws, admins, cursor, -⟩ := holds
    unfold Kept Together
    rw [cursor, state]
    refine ⟨lawful.admins admins, ?_⟩
    cases ws with
    | nil => exact ⟨writer, last, who⟩
    | cons w ws => exact ⟨.admin, congrArg some (admins w List.mem_cons_self), .inl rfl⟩
  cases s with
  | saved =>
    obtain ⟨-, started, writer, by_, value, written⟩ := holds
    obtain ⟨newCursor, cursor⟩ := written .cursor
    obtain ⟨newState, state⟩ := written .state
    unfold Kept Together
    rw [cursor, state]
    refine ⟨⟨fun other statement tick => ?_, kept.1⟩, writer, rfl, .inr rfl⟩
    cases by_.symm.trans tick
    exact ⟨value, rfl⟩
  | _ => exact edited (holds.unsaved nofun)

theorem allowed_admin {q : SettingStmt} (admin : q.ByAdmin) (unsaved : s ≠ .saved) : s.Allowed q := by
  cases q with
  | save => exact admin.elim
  | insert | update | delete => exact unsaved
  | state | lockTimeout | lockCursor => trivial

theorem next_admin {q : SettingStmt} (admin : q.ByAdmin) (unsaved : s ≠ .saved) (answer : q.Ans) :
    s.next q answer ≠ .saved := by
  cases q with
  | save => exact admin.elim
  | insert | update | delete => cases s <;> nofun
  | state | lockTimeout => cases s <;> exact unsaved
  | lockCursor =>
    cases s with
    | begun => cases answer <;> nofun
    | _ => exact unsaved

theorem settings_sound : settingsContract.Sound fun _ _ => True where
  guard_refl _ _ := trivial
  guard_trans _ _ _ _ _ _ := trivial
  start db _ := rfl
  stable holds _ outside _ _ := holds.stable outside
  within holds _ _ allowed _ ran := holds.within allowed ran
  commit holds _ kept _ := ⟨holds.commit kept, fun _ _ => trivial⟩
  query {q db draw out} admin kept ran := by
    have begun : Stage.Holds .begun ∅ db db := rfl
    exact ⟨(begun.within (allowed_admin admin nofun) ran).commit kept, fun _ _ => trivial⟩

/-- A transaction with the statements of an admin. -/
theorem keeps_admin (program : Program (TxOp.Res SettingStmt.Ans PollCall.Reply) (Except (Thrown Modified) Unit))
    (only : program.Only (TxOp.Runs SettingStmt.ByAdmin)) (unsaved : s ≠ .saved) :
    settingsContract.Keeps (fun result _ => ∀ value, result = .ok value → True) s program := by
  induction program generalizing s with
  | ret result => exact fun _ _ => trivial
  | op o rest ih =>
    cases o with
    | call c => exact fun reply => ih reply (only.2 reply) unsaved
    | within q =>
      refine ⟨allowed_admin only.1 unsaved, fun answer => ih _ (only.2 (some answer)) ?_⟩
      exact next_admin only.1 unsaved answer

theorem kept_saveCursor (expected newCursor newState : Units) :
    settingsContract.Kept (fun _ _ => True) (saveCursor expected newCursor newState) := by
  refine Contract.Kept.transaction (.within trivial fun _ => .within trivial fun found => ?_)
  cases found with
  | none =>
    rw [if_neg nofun]
    exact .fail
  | some found =>
    by_cases same : some found = some expected
    · rw [if_pos same]
      cases same
      exact .within rfl fun _ => .ret trivial
    · rw [if_neg same]
      exact .fail

theorem kept_pollMailboxCursor (cursor : Units) :
    settingsContract.Kept (fun _ _ => True) (pollMailboxCursor cursor) := by
  refine (Contract.Kept.query trivial).bind fun rawState => ?_
  cases rawState with
  | none => exact .ret ()
  | some rawState =>
    refine (Contract.Kept.call _).bind fun saved => ?_
    rcases saved with _ | ⟨newCursor, newState⟩
    · exact .ret ()
    · dsimp only
      split
      · exact Contract.Kept.bind (kept_saveCursor cursor newCursor newState) fun _ => .ret ()
      · exact .ret ()

theorem kept_admin {program : SettingsApp Unit} (admin : Admin program) :
    settingsContract.Kept (fun _ _ => True) program := by
  induction admin with
  | done => exact .ret ()
  | query byAdmin _ ih => exact (Contract.Kept.query byAdmin).bind ih
  | transaction only _ ih => exact (Contract.Kept.transaction (keeps_admin _ only nofun)).bind ih

/-- What a step commits comes on top of the past. -/
theorem past_of_step {c c₁ : Threads.Config (AppOp.Res SettingStmt.Ans PollCall.Reply) SettingsStore}
    (step : settingsThreads.Step c c₁) (k : Setting) : c.world.committed k <:+ c₁.world.committed k := by
  have grows (ds : List SettingChange) (db : Settings) : db k <:+ settingsSchema.applyAll ds db k := by
    obtain ⟨new, past⟩ := applyAll_past ds k
    exact ⟨new, (past db).symm⟩
  cases step with
  | start | die => exact List.suffix_rfl
  | env moves => exact absurd moves id
  | @op st _ o _ answer st₁ t _ ran =>
    have still (same : st₁.committed = st.committed) : st.committed k <:+ st₁.committed k := ⟨[], (congrFun same k).symm⟩
    cases o with
    | call c => exact still (congrArg _ ran)
    | sql o =>
      have run : settingsSchema.exec t o st answer st₁ := ran
      cases o with
      | query s =>
        obtain ⟨draw, out, -, -, -, rfl⟩ | ⟨-, rfl⟩ := run
        · exact grows out.changes st.committed
        · exact List.suffix_rfl
      | begin => exact still (Schema.committed_inside (o := .begin) trivial run)
      | within s => exact still (Schema.committed_inside (o := .within s) trivial run)
      | rollback => exact still (Schema.committed_inside (o := .rollback) trivial run)
      | commit =>
        rcases Schema.committed_commit run with carried | same
        · rw [carried]
          exact grows _ _
        · exact still same

/-- Whatever ticks and admins do, no tick changes a cursor but the one that it started from, and what is
committed is always a cursor with its own state, or an admin's. -/
theorem cursor_edits_kept {cursor state : Option Units}
    {c : Threads.Config (AppOp.Res SettingStmt.Ans PollCall.Reply) SettingsStore}
    (reach : settingsThreads.Reach (fun st => st = .start (before cursor state)) c) :
    (c.world.committed .cursor).Lawful ∧ Together c.world.committed ∧
      ∀ c₁, settingsThreads.Step c c₁ → c.world.committed .cursor <:+ c₁.world.committed .cursor := by
  have programs (program : SettingsApp Unit) (entry : (∃ cursor, program = pollMailboxCursor cursor) ∨ Admin program) :
      settingsContract.Kept (fun _ _ => True) program := by
    obtain ⟨cursor, rfl⟩ | admin := entry
    · exact kept_pollMailboxCursor cursor
    · exact kept_admin admin
  have started : Kept (before cursor state) := ⟨⟨nofun, trivial⟩, .admin, rfl, .inl rfl⟩
  have always (t : Nat) (o : AppOp SettingStmt PollCall) (st : SettingsStore) :
      settingsSchema.Meets (fun _ _ => True) t o st := by
    cases o with
    | call c => trivial
    | sql o => cases o <;> trivial
  have everywhere := reach.restrict fun t o st _ _ => always t o st
  obtain ⟨lawful, together⟩ := settings_sound.kept programs (fun st start => ⟨_, started, start⟩) everywhere
  exact ⟨lawful, together, fun c₁ step => past_of_step step .cursor⟩

/-- A tick from the cursor 1 would save the cursor 2, but an admin has set the cursor 9 meanwhile. -/
theorem cursor_edits_kept_edited : ∃ c, settingsThreads.Reach (fun st => st = .start (before (some [1]) none)) c ∧
    c.runs 0 = .ret () ∧ (c.world.committed .cursor).value = some [9] ∧ (c.world.committed .cursor).Lawful ∧
      Together c.world.committed ∧
      ∀ c₁, settingsThreads.Step c c₁ → c.world.committed .cursor <:+ c₁.world.committed .cursor := by
  have edits : Admin (App.query (.update [9]) >>= fun _ => .ret ()) := .query trivial fun _ => .done
  have r : settingsThreads.Reach (fun st => st = .start (before (some [1]) none)) _ := .init rfl
  have r := r.begins 0 (pollMailboxCursor [1]) rfl (.inl ⟨_, rfl⟩)
  have r := r.perform 0 rfl (some none) _ (.inl ⟨(), _, rfl, nofun, rfl, rfl⟩)
  have r := r.begins 1 _ rfl (.inr edits)
  have r := r.perform 0 rfl (some ([2], [3])) _ rfl
  have r := r.perform 0 rfl true _ (.inl ⟨rfl, rfl⟩)
  have r := r.perform 1 rfl (some ()) _ (.inl ⟨(), _, rfl, fun | .cursor, _ => .inl rfl | .state, _ => .inl rfl, rfl, rfl⟩)
  have r := r.perform 0 rfl (some ()) _ (.inl ⟨(), _, rfl, nofun, rfl, rfl⟩)
  have r := r.perform 0 rfl (some (some [9])) _ (.inl ⟨(), _, rfl, fun k _ => .inl rfl, rfl, rfl⟩)
  have r := r.perform 0 rfl () _ rfl
  exact ⟨_, r, rfl, rfl, cursor_edits_kept r⟩

end Opale.EmailBridge.CursorEdits
