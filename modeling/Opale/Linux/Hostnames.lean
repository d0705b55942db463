import Opale.Effects.Discipline
import Opale.Linux.Committed
import Opale.Sql.Cells
import Opale.Sql.Log

namespace Opale.Linux

open Sql Fleet

/-- The database, with what each enrollment has committed. -/
abbrev Enrollments := Logged LinuxDb LinuxChange LinuxLock

def enrollmentExec (text : TextFns) (t : Nat) : (o : LinuxOp) → Enrollments → o.Res → Enrollments → Prop
  | .sql o, w, answer, w₁ => (linuxSchema text).logged t o w answer w₁
  | _, w, _, w₁ => w₁ = w

def hostnameOf (db : LinuxDb) (id : Nat) : Option Text := db.devices[id]?.map (·.hostname)

inductive EnrollmentCall (text : TextFns) : Fleet Unit → Prop
  | enroll (input : EnrollInput) : EnrollmentCall text (enrollDevice text input >>= fun _ => .ret ())
  | approve (actor : Text) (keyId : Nat) (body : ApproveBody) :
      EnrollmentCall text (approveEnrollment text actor keyId body >>= fun _ => .ret ())
  | approveAll (actor : Text) (ids : List Nat) (profile : Text) (ring : Ring) :
      EnrollmentCall text ((approveEnrollments text actor ids profile ring).run >>= fun _ => .ret ())

/-- Any number of enrollments and approvals at once. What the rest of the application commits in
between leaves the hostnames as they are. -/
def enrollments (text : TextFns) : Threads LinuxOp.Res Enrollments where
  exec := enrollmentExec text
  env w w₁ := ∃ changes : List LinuxChange, (∀ c ∈ changes, w.store.owner c.lock = none) ∧
    (∀ id, hostnameOf ((linuxSchema text).applyAll changes w.store.committed) id = hostnameOf w.store.committed id) ∧
    w₁ = ⟨(linuxSchema text).publish changes w.store, w.log⟩
  entry := EnrollmentCall text
  drop t w := ⟨w.store.close t, w.log⟩

def EnrollmentStart (w : Enrollments) : Prop := ∃ db, w = ⟨.start db, []⟩

/-- When a transaction looks names up, `LOWER` and `toLowerCase` make the same of every stored name
that is one of them up to case. -/
def LowersAlike (text : TextFns) : Nat → (o : LinuxOp) → Enrollments → o.Res → Enrollments → Prop
  | t, .sql (.within (.hostnames lower)), w, _, _ => ∀ id name,
    hostnameOf ((linuxSchema text).view w.store t) id = some name → text.toLowerCase name ∈ lower →
      text.LOWER name = text.toLowerCase name
  | _, _, _, _, _ => True

/-- An enrollment has set the name of the device. -/
def Named (log : List (List LinuxChange)) (id : Nat) : Prop := ∃ batch ∈ log, ∃ row, LinuxChange.device id row ∈ batch

/-- Where the transaction of an enrollment is: outside, waiting for the advisory lock, under it with
the device that it has written and the names that it has looked up, or with a device named. -/
inductive Stage where
  | idle
  | begun
  | enrolling (touched : Option Nat) (seen : Option (List Text × List (Nat × Text)))
  | placed

/-- The names looked up leave this one to the device `own`. -/
def Unused (text : TextFns) (seen : Option (List Text × List (Nat × Text))) (hostname : Text) (own : Option Nat) : Prop :=
  ∃ lower rows, seen = some (lower, rows) ∧ text.toLowerCase hostname ∈ lower ∧
    ∀ row ∈ rows, text.toLowerCase row.2 = text.toLowerCase hostname → own = some row.1

def Enrolls (text : TextFns) (touched : Option Nat) (seen : Option (List Text × List (Nat × Text))) : LinuxStmt → Prop
  | .clearWindowsColumns id => touched = none ∨ touched = some id
  | .createPullDevice new => touched = none ∧ Unused text seen new.hostname none
  | .updateDevice id hostname _ _ _ => (touched = none ∨ touched = some id) ∧ Unused text seen hostname (some id)
  | s => s.table ≠ some .devices

def enrollAllows (text : TextFns) : Stage → LinuxOp → Prop
  | .idle, .sql .begin => True
  | .idle, .sql (.query s) => s.table = none
  | .begun, .sql (.within s) => s = .advisoryLock
  | .enrolling touched seen, .sql (.within s) => Enrolls text touched seen s
  | .enrolling touched _, .sql .commit => touched = none
  | .placed, .sql (.within s) => s.table ≠ some .devices
  | .placed, .sql .commit => True
  | _, .sql .rollback => True
  | _, .sql _ => False
  | _, _ => True

def enrolled (touched : Option Nat) (seen : Option (List Text × List (Nat × Text))) :
    (s : LinuxStmt) → Option s.Ans → Stage
  | .clearWindowsColumns id, _ => .enrolling (some id) seen
  | .createPullDevice _, _ | .updateDevice .., _ => .placed
  | .hostnames lower, some rows => .enrolling touched (some (lower, rows))
  | _, _ => .enrolling touched seen

def enrollHeeds : Stage → (o : LinuxOp) → o.Res → Stage
  | .idle, .sql .begin, ok => if ok then .begun else .idle
  | .begun, .sql (.within _), _ => .enrolling none none
  | .enrolling touched seen, .sql (.within s), answer => enrolled touched seen s answer
  | _, .sql .commit, _ | _, .sql .rollback, _ => .idle
  | s, _, _ => s

variable {text : TextFns} {t u : Nat} {w w₁ w₂ : Enrollments} {touched : Option Nat}
variable {seen : Option (List Text × List (Nat × Text))}

def hostnameCells (text : TextFns) : (linuxSchema text).Cells Nat (Option Text) where
  part id db := hostnameOf db id
  lock := .device
  frame {id c} outside db := by
    have apart : LinuxLock.device id ≠ c.lock := fun same => outside (List.mem_singleton.mpr same)
    unfold hostnameOf
    cases c with
    | device other row =>
      refine congrArg _ (Table.getElem?_put_of_ne _ ?_ _)
      rintro rfl
      exact apart rfl
    | touchDevice other touch =>
      refine congrArg _ (Table.getElem?_put_of_ne _ ?_ _)
      rintro rfl
      exact apart rfl
    | _ => rfl

/-- What an enrollment relies on while it has the advisory lock. -/
structure Leaves (text : TextFns) (t : Nat) (w w₁ : Enrollments) : Prop where
  moves : (linuxSchema text).Moves (fun _ => True) t w.store w₁.store
  names : w.store.owner .enrollment = some t → ∀ id, hostnameOf w₁.store.committed id = hostnameOf w.store.committed id

theorem Leaves.refl (text : TextFns) (t : Nat) (w : Enrollments) : Leaves text t w w := ⟨.refl _ t _, fun _ _ => rfl⟩

theorem Leaves.trans (first : Leaves text t w w₁) (second : Leaves text t w₁ w₂) : Leaves text t w w₂ where
  moves := first.moves.trans second.moves
  names mine id := (second.names (first.moves.owner _ mine) id).trans (first.names mine id)

/-- Only the transaction with the advisory lock has written anything, and a name that an enrollment
has set differs from all the others. -/
structure HostnamesApart (text : TextFns) (w : Enrollments) : Prop where
  locked : (linuxSchema text).Locked w.store
  sole : ∀ t s, w.store.session t = some s → s.changes ≠ [] → w.store.owner .enrollment = some t
  apart : ∀ i j a b, Named w.log i → i ≠ j → hostnameOf w.store.committed i = some a →
    hostnameOf w.store.committed j = some b → text.toLowerCase a ≠ text.toLowerCase b

/-- The transaction cannot commit any more. -/
def Lost (t : Nat) (w : Enrollments) : Prop := ∃ changes, w.store.session t = some ⟨changes, true⟩

/-- Under the lock, the transaction sees the hostnames that are committed, and has looked them up. -/
structure Enrolling (text : TextFns) (t : Nat) (touched : Option Nat) (seen : Option (List Text × List (Nat × Text)))
    (w : Enrollments) : Prop where
  session : ∃ changes, w.store.session t = some ⟨changes, false⟩ ∧ ∀ id row, .device id row ∈ changes → touched = some id
  lock : w.store.owner .enrollment = some t
  same : ∀ id, hostnameOf ((linuxSchema text).view w.store t) id = hostnameOf w.store.committed id
  rows : ∀ lower rows, seen = some (lower, rows) → ∀ id name, hostnameOf w.store.committed id = some name →
    text.toLowerCase name ∈ lower → (id, name) ∈ rows

/-- The transaction has named one device, as no other device is. -/
structure Placed (text : TextFns) (t own : Nat) (w : Enrollments) : Prop where
  session : ∃ changes, w.store.session t = some ⟨changes, false⟩ ∧ ∀ id row, .device id row ∈ changes → id = own
  lock : w.store.owner .enrollment = some t
  same : ∀ id, id ≠ own → hostnameOf ((linuxSchema text).view w.store t) id = hostnameOf w.store.committed id
  apart : ∀ id name other, id ≠ own → hostnameOf ((linuxSchema text).view w.store t) own = some name →
    hostnameOf w.store.committed id = some other → text.toLowerCase name ≠ text.toLowerCase other

def Stage.Holds (text : TextFns) (t : Nat) : Stage → Enrollments → Prop
  | .idle, w => w.store.session t = none
  | .begun, w => w.store.session t = some ⟨[], false⟩
  | .enrolling touched seen, w => Lost t w ∨ Enrolling text t touched seen w
  | .placed, w => Lost t w ∨ ∃ own, Placed text t own w

theorem view_leaves (leaves : Leaves text t w w₁) (inv : HostnamesApart text w) (lock : w.store.owner .enrollment = some t)
    (id : Nat) : hostnameOf ((linuxSchema text).view w₁.store t) id = hostnameOf ((linuxSchema text).view w.store t) id :=
  (hostnameCells text).view_of_moves leaves.moves inv.locked (leaves.names lock id)

theorem Lost.leaves (lost : Lost t w) (leaves : Leaves text t w w₁) : Lost t w₁ := by
  obtain ⟨changes, failed⟩ := lost
  exact ⟨changes, leaves.moves.session.trans failed⟩

theorem Enrolling.leaves (enrolling : Enrolling text t touched seen w) (inv : HostnamesApart text w)
    (leaves : Leaves text t w w₁) : Enrolling text t touched seen w₁ := by
  obtain ⟨⟨changes, opened, only⟩, lock, same, rows⟩ := enrolling
  refine ⟨⟨changes, leaves.moves.session.trans opened, only⟩, leaves.moves.owner _ lock, fun id => ?_,
    fun lower found looked id name stored => ?_⟩
  · rw [view_leaves leaves inv lock, leaves.names lock]
    exact same id
  · rw [leaves.names lock] at stored
    exact rows lower found looked id name stored

theorem Placed.leaves {own : Nat} (placed : Placed text t own w) (inv : HostnamesApart text w)
    (leaves : Leaves text t w w₁) : Placed text t own w₁ := by
  obtain ⟨⟨changes, opened, only⟩, lock, same, apart⟩ := placed
  refine ⟨⟨changes, leaves.moves.session.trans opened, only⟩, leaves.moves.owner _ lock, fun id other => ?_,
    fun id name other differs seen stored => ?_⟩
  · rw [view_leaves leaves inv lock, leaves.names lock]
    exact same id other
  · rw [view_leaves leaves inv lock] at seen
    rw [leaves.names lock] at stored
    exact apart id name other differs seen stored

theorem Stage.Holds.leaves {stage : Stage} (holds : stage.Holds text t w) (inv : HostnamesApart text w)
    (leaves : Leaves text t w w₁) : stage.Holds text t w₁ := by
  cases stage with
  | idle => exact leaves.moves.session.trans holds
  | begun => exact leaves.moves.session.trans holds
  | enrolling touched seen => exact holds.imp (·.leaves leaves) (·.leaves inv leaves)
  | placed =>
    refine holds.imp (·.leaves leaves) ?_
    rintro ⟨own, placed⟩
    exact ⟨own, placed.leaves inv leaves⟩

/-- What an operation has to keep, for the invariant and for the others. -/
theorem HostnamesApart.step {o : SqlOp LinuxStmt} {answer : o.Res LinuxStmt.Ans} (inv : HostnamesApart text w)
    (run : (linuxSchema text).logged t o w answer w₁)
    (mine : ∀ s, w₁.store.session t = some s → s.changes ≠ [] → w₁.store.owner .enrollment = some t)
    (names : ∀ u, u ≠ t → w.store.owner .enrollment = some u →
      ∀ id, hostnameOf w₁.store.committed id = hostnameOf w.store.committed id)
    (apart : ∀ i j a b, Named w₁.log i → i ≠ j → hostnameOf w₁.store.committed i = some a →
      hostnameOf w₁.store.committed j = some b → text.toLowerCase a ≠ text.toLowerCase b) :
    HostnamesApart text w₁ ∧ ∀ u, u ≠ t → Leaves text u w w₁ := by
  obtain ⟨locked, moves⟩ := Schema.exec_moves inv.locked (Schema.logged_exec run)
  refine ⟨⟨locked, fun u s opened written => ?_, apart⟩, fun u other => ⟨moves u other, names u other⟩⟩
  by_cases same : u = t
  · subst same
    exact mine s opened written
  · rw [(moves u same).session] at opened
    exact (moves u same).owner _ (inv.sole u s opened written)

/-- An operation inside a transaction commits nothing. -/
theorem HostnamesApart.inside {o : SqlOp LinuxStmt} {answer : o.Res LinuxStmt.Ans} (inv : HostnamesApart text w)
    (inside : Schema.Inside o) (run : (linuxSchema text).logged t o w answer w₁) (log : w₁.log = w.log)
    (mine : ∀ s, w₁.store.session t = some s → s.changes ≠ [] → w₁.store.owner .enrollment = some t) :
    HostnamesApart text w₁ ∧ ∀ u, u ≠ t → Leaves text u w w₁ := by
  have committed := Schema.committed_inside inside (Schema.logged_exec run)
  refine inv.step run mine (fun _ _ _ id => by rw [committed]) ?_
  rw [committed, log]
  exact inv.apart

/-- An operation that ends the transaction without publishing anything of it. -/
theorem HostnamesApart.closed {o : SqlOp LinuxStmt} {answer : o.Res LinuxStmt.Ans} (inv : HostnamesApart text w)
    (run : (linuxSchema text).logged t o w answer w₁) (closing : w₁ = ⟨w.store.close t, w.log⟩) :
    HostnamesApart text w₁ ∧ (∀ u, u ≠ t → Leaves text u w w₁) ∧ w₁.store.session t = none := by
  have ended : w₁.store.session t = none := by
    rw [closing]
    exact Schema.session_close
  have kept : HostnamesApart text w₁ ∧ ∀ u, u ≠ t → Leaves text u w w₁ := by
    refine inv.step run (fun s opened => ?_) (fun _ _ _ id => by rw [closing]; rfl) ?_
    · rw [ended] at opened
      cases opened
    · rw [closing]
      exact inv.apart
  exact ⟨kept.1, kept.2, ended⟩

theorem named_commit {log : List (List LinuxChange)} {changes : List LinuxChange} {id : Nat}
    (named : Named (log ++ [changes]) id) : Named log id ∨ ∃ row, .device id row ∈ changes := by
  obtain ⟨batch, member, row, written⟩ := named
  rcases List.mem_append.mp member with old | new
  · exact .inl ⟨batch, old, row, written⟩
  · rw [List.mem_singleton.mp new] at written
    exact .inr ⟨row, written⟩

theorem Lost.commit {ok : Bool} (lost : Lost t w) (inv : HostnamesApart text w)
    (run : (linuxSchema text).logged t .commit w ok w₁) :
    HostnamesApart text w₁ ∧ (∀ u, u ≠ t → Leaves text u w w₁) ∧ w₁.store.session t = none := by
  obtain ⟨changes, failed⟩ := lost
  refine inv.closed run ?_
  simp only [Schema.logged, failed] at run
  exact run

/-- A transaction that has named no device leaves the hostnames as they are. -/
theorem Enrolling.commit {ok : Bool} (enrolling : Enrolling text t none seen w) (inv : HostnamesApart text w)
    (run : (linuxSchema text).logged t .commit w ok w₁) :
    HostnamesApart text w₁ ∧ (∀ u, u ≠ t → Leaves text u w w₁) ∧ w₁.store.session t = none := by
  obtain ⟨changes, opened, only⟩ := enrolling.session
  obtain closing | ⟨-, closing⟩ := (Schema.logged_commit opened).mp run
  · have names : ∀ id, hostnameOf w₁.store.committed id = hostnameOf w.store.committed id := by
      intro id
      have seen := enrolling.same id
      rw [Schema.view_of_session opened] at seen
      rw [closing]
      exact seen
    have ended : w₁.store.session t = none := by
      rw [closing]
      exact Schema.session_close
    have kept : HostnamesApart text w₁ ∧ ∀ u, u ≠ t → Leaves text u w w₁ := by
      refine inv.step run (fun s opened => ?_) (fun _ _ _ => names) fun i j a b named other here there => ?_
      · rw [ended] at opened
        cases opened
      · rw [names] at here there
        rw [closing] at named
        rcases named_commit named with old | ⟨row, written⟩
        · exact inv.apart i j a b old other here there
        · cases only i row written
    exact ⟨kept.1, kept.2, ended⟩
  · exact inv.closed run closing

/-- The device that a transaction has named is apart from all the others. -/
theorem Placed.commit {ok : Bool} {own : Nat} (placed : Placed text t own w) (inv : HostnamesApart text w)
    (run : (linuxSchema text).logged t .commit w ok w₁) :
    HostnamesApart text w₁ ∧ (∀ u, u ≠ t → Leaves text u w w₁) ∧ w₁.store.session t = none := by
  obtain ⟨changes, opened, only⟩ := placed.session
  obtain closing | ⟨-, closing⟩ := (Schema.logged_commit opened).mp run
  · have committed : w₁.store.committed = (linuxSchema text).view w.store t := by
      rw [Schema.view_of_session opened, closing]
      rfl
    have ended : w₁.store.session t = none := by
      rw [closing]
      exact Schema.session_close
    have kept : HostnamesApart text w₁ ∧ ∀ u, u ≠ t → Leaves text u w w₁ := by
      refine inv.step run (fun s opened => ?_) (fun u other mine => ?_) fun i j a b named differ here there => ?_
      · rw [ended] at opened
        cases opened
      · rw [placed.lock] at mine
        exact absurd (Option.some.inj mine).symm other
      · rw [committed] at here there
        by_cases first : i = own
        · subst first
          rw [placed.same j (Ne.symm differ)] at there
          exact placed.apart j a b (Ne.symm differ) here there
        · rw [placed.same i first] at here
          by_cases second : j = own
          · subst second
            exact Ne.symm (placed.apart i b a first there here)
          · rw [placed.same j second] at there
            rw [closing] at named
            rcases named_commit named with old | ⟨row, written⟩
            · exact inv.apart i j a b old differ here there
            · exact absurd (only i row written) first
    exact ⟨kept.1, kept.2, ended⟩
  · exact inv.closed run closing

/-- What a statement that answers leaves of a transaction under the lock. -/
theorem within_lock {s : LinuxStmt} {answer : Option s.Ans} {changes : List LinuxChange}
    (opened : w.store.session t = some ⟨changes, false⟩) (lock : w.store.owner .enrollment = some t)
    (inv : HostnamesApart text w) (run : (linuxSchema text).logged t (.within s) w answer w₁) :
    HostnamesApart text w₁ ∧ (∀ u, u ≠ t → Leaves text u w w₁) ∧ (Lost t w₁ ∨ ∃ draw out,
      s.run text draw ((linuxSchema text).view w.store t) = some out ∧ answer = some out.answer ∧
      w₁.store.session t = some ⟨changes ++ out.changes, false⟩ ∧ w₁.store.owner .enrollment = some t ∧
      w₁.store.committed = w.store.committed ∧
      (linuxSchema text).view w₁.store t = (linuxSchema text).applyAll out.changes ((linuxSchema text).view w.store t)) := by
  obtain ⟨ran, log⟩ := run
  obtain ⟨draw, out, done, -, answered, store⟩ | ⟨-, store⟩ := (Schema.exec_within opened).mp ran
  · have held : w₁.store.owner .enrollment = some t := by
      rw [store]
      exact Schema.owner_write (.inl lock)
    obtain ⟨kept, leaves⟩ := inv.inside (o := .within s) trivial ⟨ran, log⟩ log fun _ _ _ => held
    refine ⟨kept, leaves, .inr ⟨draw, out, done, answered, ?_, held, ?_, ?_⟩⟩
    · rw [store]
      exact Schema.session_write opened
    · rw [store]
      rfl
    · rw [store]
      exact Schema.view_write opened
  · obtain ⟨kept, leaves⟩ := inv.inside (o := .within s) trivial ⟨ran, log⟩ log fun _ _ _ => by rw [store]; exact lock
    refine ⟨kept, leaves, .inl ⟨changes, ?_⟩⟩
    rw [store]
    exact Schema.session_fail opened

/-- Every later statement of a transaction that has failed fails. -/
theorem Lost.within {s : LinuxStmt} {answer : Option s.Ans} (lost : Lost t w) (inv : HostnamesApart text w)
    (run : (linuxSchema text).logged t (.within s) w answer w₁) :
    HostnamesApart text w₁ ∧ (∀ u, u ≠ t → Leaves text u w w₁) ∧ Lost t w₁ := by
  obtain ⟨changes, failed⟩ := lost
  obtain ⟨ran, log⟩ := run
  have store : w₁.store = w.store := by
    simp only [Schema.exec, failed] at ran
    exact ran.2
  obtain ⟨kept, leaves⟩ := inv.inside (o := .within s) trivial ⟨ran, log⟩ log fun s opened written => by
    rw [store] at opened ⊢
    exact inv.sole t s opened written
  refine ⟨kept, leaves, changes, ?_⟩
  rw [store]
  exact failed

theorem hostnameOf_congr {db db₁ : LinuxDb} (devices : db₁.devices = db.devices) (id : Nat) :
    hostnameOf db₁ id = hostnameOf db id := by
  unfold hostnameOf
  rw [devices]

/-- An UPDATE of the device `target` leaves the names of the others as they are. -/
theorem hostnameOf_updateDevices {db : LinuxDb} {target : Nat} {set : LinuxDevice → LinuxDevice} (id : Nat) :
    hostnameOf ((linuxSchema text).applyAll (updateDevices db (fun id _ => id = target) set).changes db) id =
      if id = target then db.devices[id]?.map fun d => (set d).hostname else hostnameOf db id := by
  unfold hostnameOf
  rw [devices_updateDevices, Option.map_map]
  by_cases here : id = target
  · rw [if_pos here]
    cases db.devices[id]? <;> simp [here]
  · rw [if_neg here]
    cases db.devices[id]? <;> simp [here]

theorem device_updateDevices {db : LinuxDb} {target id : Nat} {set : LinuxDevice → LinuxDevice} {row : LinuxDevice}
    (written : .device id row ∈ (updateDevices db (fun id _ => id = target) set).changes) : id = target := by
  obtain ⟨⟨other, _⟩, member, same⟩ := List.mem_map.mp written
  cases same
  obtain ⟨_, -, here, -⟩ := Table.mem_update.mp member
  exact of_decide_eq_true here

/-- A statement of another table keeps everything that is known of the hostnames. -/
theorem Enrolling.quiet {s : LinuxStmt} {draw : LinuxDraw} {out : LinuxOutcome s.Ans}
    (enrolling : Enrolling text t touched seen w) {changes : List LinuxChange}
    (opened : w.store.session t = some ⟨changes, false⟩) (elsewhere : s.table ≠ some .devices)
    (ran : s.run text draw ((linuxSchema text).view w.store t) = some out)
    (opened₁ : w₁.store.session t = some ⟨changes ++ out.changes, false⟩) (lock : w₁.store.owner .enrollment = some t)
    (committed : w₁.store.committed = w.store.committed)
    (view : (linuxSchema text).view w₁.store t = (linuxSchema text).applyAll out.changes ((linuxSchema text).view w.store t)) :
    Enrolling text t touched seen w₁ := by
  obtain ⟨⟨changes₀, opened₀, only⟩, -, same, rows⟩ := enrolling
  cases opened₀.symm.trans opened
  refine ⟨⟨_, opened₁, fun id row written => ?_⟩, lock, fun id => ?_, fun lower found looked id name stored => ?_⟩
  · rcases List.mem_append.mp written with old | new
    · exact only id row old
    · exact absurd (run_table ran new) elsewhere
  · rw [view, committed, hostnameOf_congr (run_devices ran elsewhere)]
    exact same id
  · rw [committed] at stored
    exact rows lower found looked id name stored

/-- The names of all the devices that share one with `lower`. -/
theorem Enrolling.looked {lower : List Text} {draw : LinuxDraw} {out : LinuxOutcome (List (Nat × Text))}
    (enrolling : Enrolling text t touched seen w)
    (ran : (LinuxStmt.hostnames lower).run text draw ((linuxSchema text).view w.store t) = some out)
    {answer : Option (List (Nat × Text))} (alike : LowersAlike text t (.sql (.within (.hostnames lower))) w answer w₁)
    (id : Nat) (name : Text) (stored : hostnameOf w.store.committed id = some name)
    (shared : text.toLowerCase name ∈ lower) : (id, name) ∈ out.answer := by
  rw [← enrolling.same] at stored
  have lowered : text.LOWER name = text.toLowerCase name := alike id name stored shared
  obtain ⟨d, here, rfl⟩ := Option.map_eq_some_iff.mp stored
  cases ran
  refine List.mem_map.mpr ⟨(id, d), Table.mem_select.mpr ⟨here, ?_⟩, rfl⟩
  rw [← lowered] at shared
  exact List.contains_iff_mem.mpr shared

/-- A name that the transaction has found unused is no other device's. -/
theorem Enrolling.unused {hostname : Text} {own : Option Nat} (enrolling : Enrolling text t touched seen w)
    (unused : Unused text seen hostname own) (id : Nat) (other : Text)
    (differs : own ≠ some id) (stored : hostnameOf w.store.committed id = some other) :
    text.toLowerCase hostname ≠ text.toLowerCase other := by
  intro shared
  obtain ⟨lower, rows, looked, asked, free⟩ := unused
  have asked : text.toLowerCase other ∈ lower := by
    rw [← shared]
    exact asked
  exact differs (free _ (enrolling.rows lower rows looked id other stored asked) shared.symm)

/-- A statement of an enrollment that answers. -/
theorem Enrolling.answered {s : LinuxStmt} {draw : LinuxDraw} {out : LinuxOutcome s.Ans}
    (enrolling : Enrolling text t touched seen w)
    (alike : LowersAlike text t (.sql (.within s)) w (some out.answer) w₁)
    {changes : List LinuxChange} (opened : w.store.session t = some ⟨changes, false⟩) (allowed : Enrolls text touched seen s)
    (ran : s.run text draw ((linuxSchema text).view w.store t) = some out)
    (opened₁ : w₁.store.session t = some ⟨changes ++ out.changes, false⟩) (lock : w₁.store.owner .enrollment = some t)
    (committed : w₁.store.committed = w.store.committed)
    (view : (linuxSchema text).view w₁.store t = (linuxSchema text).applyAll out.changes ((linuxSchema text).view w.store t)) :
    (enrolled touched seen s (some out.answer)).Holds text t w₁ := by
  have quiet (elsewhere : s.table ≠ some .devices) : Enrolling text t touched seen w₁ :=
    enrolling.quiet opened elsewhere ran opened₁ lock committed view
  obtain ⟨changes₀, opened₀, only⟩ := enrolling.session
  cases opened₀.symm.trans opened
  cases s with
  | hostnames lower =>
    have after := quiet nofun
    refine .inr ⟨after.session, after.lock, after.same, ?_⟩
    rintro lower₁ rows same id name stored shared
    cases same
    rw [committed] at stored
    exact enrolling.looked ran alike id name stored shared
  | clearWindowsColumns target =>
    cases ran
    refine .inr ⟨⟨_, opened₁, fun id row written => ?_⟩, lock, fun id => ?_, fun lower rows looked id name stored => ?_⟩
    · rcases List.mem_append.mp written with old | new
      · rcases allowed with untouched | mine
        · cases untouched.symm.trans (only id row old)
        · exact mine.symm.trans (only id row old)
      · rw [device_updateDevices new]
    · rw [view, committed, hostnameOf_updateDevices, ← enrolling.same]
      split
      · rfl
      · rfl
    · rw [committed] at stored
      exact enrolling.rows lower rows looked id name stored
  | createPullDevice new =>
    obtain ⟨untouched, unused⟩ := allowed
    obtain ⟨rfl, absent⟩ := run_createPullDevice ran
    refine .inr ⟨draw.fresh, ⟨_, opened₁, fun id row written => ?_⟩, lock, fun id other => ?_,
      fun id name other differs named stored => ?_⟩
    · rcases List.mem_append.mp written with old | new
      · cases untouched.symm.trans (only id row old)
      · cases List.mem_singleton.mp new
        rfl
    · rw [view, committed, ← enrolling.same]
      exact congrArg _ (Table.getElem?_put_of_ne _ other _)
    · rw [committed] at stored
      have mine : hostnameOf ((linuxSchema text).view w₁.store t) draw.fresh = some new.hostname := by
        rw [view]
        exact congrArg (Option.map LinuxDevice.hostname) (Table.getElem?_put_self _ draw.fresh (some new.row))
      cases mine.symm.trans named
      exact enrolling.unused unused id other nofun stored
  | updateDevice target hostname profile ring assignedUserId =>
    obtain ⟨untouched, unused⟩ := allowed
    simp only [LinuxStmt.run] at ran
    split at ran
    · cases ran
    cases ran
    refine .inr ⟨target, ⟨_, opened₁, fun id row written => ?_⟩, lock, fun id other => ?_,
      fun id name other differs named stored => ?_⟩
    · rcases List.mem_append.mp written with old | new
      · rcases untouched with untouched | mine
        · cases untouched.symm.trans (only id row old)
        · exact Option.some.inj ((only id row old).symm.trans mine)
      · exact device_updateDevices new
    · rw [view, committed, hostnameOf_updateDevices, if_neg other]
      exact enrolling.same id
    · rw [committed] at stored
      rw [view, hostnameOf_updateDevices, if_pos rfl] at named
      obtain ⟨d, -, rfl⟩ := Option.map_eq_some_iff.mp named
      refine enrolling.unused unused id other ?_ stored
      intro mine
      exact differs (Option.some.inj mine).symm
  | _ => exact .inr (quiet allowed)

/-- A statement after a device has been named. -/
theorem Placed.answered {s : LinuxStmt} {draw : LinuxDraw} {out : LinuxOutcome s.Ans} {own : Nat}
    (placed : Placed text t own w) {changes : List LinuxChange} (opened : w.store.session t = some ⟨changes, false⟩)
    (elsewhere : s.table ≠ some .devices) (ran : s.run text draw ((linuxSchema text).view w.store t) = some out)
    (opened₁ : w₁.store.session t = some ⟨changes ++ out.changes, false⟩) (lock : w₁.store.owner .enrollment = some t)
    (committed : w₁.store.committed = w.store.committed)
    (view : (linuxSchema text).view w₁.store t = (linuxSchema text).applyAll out.changes ((linuxSchema text).view w.store t)) :
    Placed text t own w₁ := by
  obtain ⟨⟨changes₀, opened₀, only⟩, -, same, apart⟩ := placed
  cases opened₀.symm.trans opened
  have names : ∀ id, hostnameOf ((linuxSchema text).view w₁.store t) id =
      hostnameOf ((linuxSchema text).view w.store t) id := by
    rw [view]
    exact hostnameOf_congr (run_devices ran elsewhere)
  refine ⟨⟨_, opened₁, fun id row written => ?_⟩, lock, fun id other => ?_, fun id name other differs named stored => ?_⟩
  · rcases List.mem_append.mp written with old | new
    · exact only id row old
    · exact absurd (run_table ran new) elsewhere
  · rw [names, committed]
    exact same id other
  · rw [names] at named
    rw [committed] at stored
    exact apart id name other differs named stored

/-- A statement by itself only reads. -/
theorem HostnamesApart.query {s : LinuxStmt} {answer : Option s.Ans} (inv : HostnamesApart text w) (reads : s.table = none)
    (idle : w.store.session t = none) (run : (linuxSchema text).logged t (.query s) w answer w₁) :
    HostnamesApart text w₁ ∧ (∀ u, u ≠ t → Leaves text u w w₁) ∧ w₁.store.session t = none := by
  have moved := run
  obtain ⟨draw, out, ran, -, -, closing⟩ | ⟨-, rfl⟩ := run
  · have committed : w₁.store.committed = w.store.committed := by
      rw [closing]
      exact run_reads ran reads
    have ended : w₁.store.session t = none := by
      rw [closing]
      exact idle
    have kept : HostnamesApart text w₁ ∧ ∀ u, u ≠ t → Leaves text u w w₁ := by
      refine inv.step moved (fun s opened => ?_) (fun _ _ _ id => by rw [committed]) fun i j a b named => ?_
      · rw [ended] at opened
        cases opened
      · rw [closing] at named
        rw [committed]
        rcases named_commit named with old | ⟨row, written⟩
        · exact inv.apart i j a b old
        · have table := run_table ran written
          rw [reads] at table
          cases table
    exact ⟨kept.1, kept.2, ended⟩
  · exact ⟨inv, fun u _ => .refl text u w₁, idle⟩

theorem HostnamesApart.begin {ok : Bool} (inv : HostnamesApart text w) (idle : w.store.session t = none)
    (run : (linuxSchema text).logged t .begin w ok w₁) :
    HostnamesApart text w₁ ∧ (∀ u, u ≠ t → Leaves text u w w₁) ∧
      w₁.store.session t = if ok then some ⟨[], false⟩ else none := by
  have session : w₁.store.session t = if ok then some ⟨[], false⟩ else none := by
    obtain ⟨⟨rfl, store⟩ | ⟨rfl, store⟩, -⟩ := run
    · rw [store]
      exact Schema.session_openTx idle
    · rw [store]
      exact idle
  obtain ⟨kept, leaves⟩ := inv.inside (o := .begin) trivial run run.2 fun s opened written => by
    rw [session] at opened
    cases ok with
    | false => cases opened
    | true =>
      cases opened
      exact absurd rfl written
  exact ⟨kept, leaves, session⟩

/-- With the lock, the transaction sees what is committed. -/
theorem HostnamesApart.acquire {answer : Option Unit} (inv : HostnamesApart text w)
    (opened : w.store.session t = some ⟨[], false⟩)
    (run : (linuxSchema text).logged t (.within .advisoryLock) w answer w₁) :
    HostnamesApart text w₁ ∧ (∀ u, u ≠ t → Leaves text u w w₁) ∧ (Lost t w₁ ∨ Enrolling text t none none w₁) := by
  obtain ⟨ran, log⟩ := run
  obtain ⟨draw, out, done, -, answered, store⟩ | ⟨-, store⟩ := (Schema.exec_within opened).mp ran
  · cases done
    have lock : w₁.store.owner .enrollment = some t := by
      rw [store]
      exact Schema.owner_write (.inr List.mem_cons_self)
    have session : w₁.store.session t = some ⟨[], false⟩ := by
      rw [store]
      exact Schema.session_write opened
    obtain ⟨kept, leaves⟩ := inv.inside (o := .within .advisoryLock) trivial ⟨ran, log⟩ log fun _ _ _ => lock
    refine ⟨kept, leaves, .inr ⟨⟨[], session, fun _ _ => nofun⟩, lock, fun id => ?_, fun _ _ => nofun⟩⟩
    rw [Schema.view_of_session session]
    rfl
  · have session : w₁.store.session t = some ⟨[], true⟩ := by
      rw [store]
      exact Schema.session_fail opened
    obtain ⟨kept, leaves⟩ := inv.inside (o := .within .advisoryLock) trivial ⟨ran, log⟩ log fun s opened written => by
      rw [session] at opened
      cases opened
      exact absurd rfl written
    exact ⟨kept, leaves, .inl ⟨[], session⟩⟩

theorem enrolled_lost (lost : Lost t w) (s : LinuxStmt) (answer : Option s.Ans) :
    (enrolled touched seen s answer).Holds text t w := by
  unfold enrolled
  split <;> exact .inl lost

/-- Every operation that the discipline allows. -/
theorem Stage.Holds.exec {stage : Stage} {o : LinuxOp} {answer : o.Res} (alike : LowersAlike text t o w answer w₁)
    (allowed : enrollAllows text stage o) (holds : stage.Holds text t w) (inv : HostnamesApart text w)
    (run : enrollmentExec text t o w answer w₁) :
    HostnamesApart text w₁ ∧ (∀ u, u ≠ t → Leaves text u w w₁) ∧ (enrollHeeds stage o answer).Holds text t w₁ := by
  cases o with
  | violated | dateNow | mismatchThrottle =>
    cases run
    refine ⟨inv, fun u _ => .refl text u w, ?_⟩
    cases stage <;> exact holds
  | sql o =>
    cases o with
    | rollback =>
      have ran : (linuxSchema text).logged t .rollback w answer w₁ := run
      obtain ⟨store, log⟩ := run
      have closing : w₁ = ⟨w.store.close t, w.log⟩ := by
        cases w₁
        cases store
        cases log
        rfl
      obtain ⟨kept, leaves, ended⟩ := inv.closed ran closing
      refine ⟨kept, leaves, ?_⟩
      cases stage <;> exact ended
    | commit =>
      cases stage with
      | idle | begun => exact absurd allowed id
      | enrolling touched seen =>
        cases (allowed : touched = none)
        rcases holds with lost | enrolling
        · exact lost.commit inv run
        · exact enrolling.commit inv run
      | placed =>
        rcases holds with lost | ⟨own, placed⟩
        · exact lost.commit inv run
        · exact placed.commit inv run
    | query s =>
      cases stage with
      | begun | enrolling | placed => exact absurd allowed id
      | idle => exact inv.query allowed holds run
    | begin =>
      cases stage with
      | begun | enrolling | placed => exact absurd allowed id
      | idle =>
        obtain ⟨kept, leaves, session⟩ := inv.begin holds run
        refine ⟨kept, leaves, ?_⟩
        cases answer <;> exact session
    | within s =>
      cases stage with
      | idle => exact absurd allowed id
      | begun =>
        cases (allowed : s = .advisoryLock)
        exact inv.acquire holds run
      | enrolling touched seen =>
        rcases holds with lost | enrolling
        · obtain ⟨kept, leaves, lost⟩ := lost.within inv run
          exact ⟨kept, leaves, enrolled_lost lost s answer⟩
        · obtain ⟨changes, opened, -⟩ := enrolling.session
          obtain ⟨kept, leaves, after⟩ := within_lock opened enrolling.lock inv run
          refine ⟨kept, leaves, ?_⟩
          obtain lost | ⟨draw, out, ran, rfl, opened₁, lock, committed, view⟩ := after
          · exact enrolled_lost lost s answer
          · exact enrolling.answered alike opened allowed ran opened₁ lock committed view
      | placed =>
        rcases holds with lost | ⟨own, placed⟩
        · obtain ⟨kept, leaves, lost⟩ := lost.within inv run
          exact ⟨kept, leaves, .inl lost⟩
        · obtain ⟨changes, opened, -⟩ := placed.session
          obtain ⟨kept, leaves, after⟩ := within_lock opened placed.lock inv run
          refine ⟨kept, leaves, ?_⟩
          obtain lost | ⟨draw, out, ran, rfl, opened₁, lock, committed, view⟩ := after
          · exact .inl lost
          · exact .inr ⟨own, placed.answered opened allowed ran opened₁ lock committed view⟩

/-! What the programs do, in terms of the discipline. -/

section Programs

variable {α β : Type} {final : α → Stage → Prop} {stage : Stage}

abbrev Heeded (text : TextFns) (final : α → Stage → Prop) (stage : Stage) (program : Fleet α) : Prop :=
  program.Heeds (enrollAllows text) enrollHeeds final stage

/-- What a part of a transaction does; when a statement throws, a rollback follows. -/
abbrev HeededTx (text : TextFns) (final : α → Stage → Prop) (stage : Stage) (program : Tx α) : Prop :=
  Heeded text (Program.Given final) stage program.run

theorem heeded_within {s : LinuxStmt} {next : s.Ans → Tx α} (ok : enrollAllows text stage (.sql (.within s)))
    (rest : ∀ answer, HeededTx text final (enrollHeeds stage (.sql (.within s)) (some answer)) (next answer)) :
    HeededTx text final stage (Fleet.within s >>= next) := by
  refine ⟨ok, fun answer => ?_⟩
  cases answer with
  | none => trivial
  | some answer => exact rest answer

theorem heeded_bind {middle : β → Stage → Prop} {program : Tx β} {next : β → Tx α} (first : HeededTx text middle stage program)
    (rest : ∀ value stage₁, middle value stage₁ → HeededTx text final stage₁ (next value)) :
    HeededTx text final stage (program >>= next) := Program.Heeds.bindOption first rest

theorem heeded_weaken {other : α → Stage → Prop} {program : Tx α} (heeded : HeededTx text final stage program)
    (implies : ∀ value s, final value s → other value s) : HeededTx text other stage program := by
  refine Program.Heeds.weaken heeded fun value s ends => ?_
  cases value with
  | none => trivial
  | some value => exact implies value s ends

/-- Under the lock, with nothing more than that known of the names. -/
def Under (touched : Option Nat) (stage : Stage) : Prop := ∃ seen, stage = .enrolling touched seen

theorem heeded_only {program : Tx α} {allowed : LinuxStmt → Prop} (only : Only allowed program.run)
    (stays : ∀ s, allowed s → ∀ seen, Enrolls text touched seen s ∧
      ∀ answer, Under touched (enrolled touched seen s (some answer))) :
    HeededTx text (fun _ => Under touched) (.enrolling touched seen) program := by
  change Program.Heeds _ _ _ _ program.run
  generalize program.run = tree at only
  induction tree generalizing seen with
  | ret value =>
    cases value with
    | none => trivial
    | some value => exact ⟨seen, rfl⟩
  | op o rest ih =>
    rcases o with ⟨o⟩ | _ | _ | _
    case sql =>
      cases o
      case within s =>
        obtain ⟨ok, stops, goes⟩ := only
        refine ⟨(stays s ok seen).1, fun answer => ?_⟩
        cases answer with
        | none =>
          rw [stops]
          trivial
        | some answer =>
          obtain ⟨seen₁, same⟩ := (stays s ok seen).2 answer
          have there : enrollHeeds (.enrolling touched seen) (.sql (.within s)) (some answer) = .enrolling touched seen₁ := same
          rw [there]
          exact ih _ (goes answer)
      all_goals exact only.elim
    all_goals exact only.elim

theorem stays_reads (s : LinuxStmt) (reads : s.table = none) (seen : Option (List Text × List (Nat × Text))) :
    Enrolls text touched seen s ∧ ∀ answer, Under touched (enrolled touched seen s (some answer)) := by
  cases s <;> cases reads
  case hostnames lower => exact ⟨nofun, fun rows => ⟨some (lower, rows), rfl⟩⟩
  all_goals exact ⟨nofun, fun _ => ⟨seen, rfl⟩⟩

theorem heeded_reads {program : Tx α} (reads : Reads program) :
    HeededTx text (fun _ => Under touched) (.enrolling touched seen) program := heeded_only reads stays_reads

/-- A statement of another table, which looks no names up. -/
def Silent (s : LinuxStmt) : Prop := s.table ≠ some .devices ∧ ∀ lower, s ≠ .hostnames lower

theorem Silent.enrolls {s : LinuxStmt} (silent : Silent s) : Enrolls text touched seen s := by
  cases s with
  | createPullDevice | clearWindowsColumns | updateDevice => exact absurd rfl silent.1
  | _ => exact silent.1

theorem Silent.enrolled {s : LinuxStmt} (silent : Silent s) (answer : Option s.Ans) :
    enrolled touched seen s answer = .enrolling touched seen := by
  cases s with
  | createPullDevice | clearWindowsColumns | updateDevice => exact absurd rfl silent.1
  | hostnames lower => exact absurd rfl (silent.2 lower)
  | _ => rfl

theorem heeded_silent {s : LinuxStmt} {next : s.Ans → Tx α} (silent : Silent s)
    (rest : ∀ answer, HeededTx text final (.enrolling touched seen) (next answer)) :
    HeededTx text final (.enrolling touched seen) (Fleet.within s >>= next) := by
  refine heeded_within silent.enrolls fun answer => ?_
  have stays : enrollHeeds (.enrolling touched seen) (.sql (.within s)) (some answer) = .enrolling touched seen :=
    silent.enrolled (some answer)
  rw [stays]
  exact rest answer

theorem heeded_audit {entry : AuditEntry} {next : Unit → Tx α}
    (rest : HeededTx text final (.enrolling touched seen) (next ())) :
    HeededTx text final (.enrolling touched seen) (logAudit entry >>= next) := ⟨nofun, fun _ => rest⟩

theorem heeded_audit_placed {entry : AuditEntry} {next : Unit → Tx α} (rest : HeededTx text final .placed (next ())) :
    HeededTx text final .placed (logAudit entry >>= next) := ⟨nofun, fun _ => rest⟩

theorem heeded_bindKey {key : KeyRow} {device : DeviceRow} {actor : Text} {preregistration : Option PreregistrationRow} :
    HeededTx text (fun _ s => s = .placed) .placed (bindKey key device actor preregistration) := by
  refine heeded_within nofun fun updated => ?_
  cases preregistration with
  | none => exact rfl
  | some preregistration => exact heeded_within nofun fun _ => rfl

/-- The lookup of one name. -/
theorem heeded_resolve {item : HostnameItem} :
    HeededTx text (fun resolved s => ∃ seen, s = .enrolling touched seen ∧
        ∀ hostname, resolved = [.ok hostname] → Unused text seen hostname (item.existing.map (·.1)))
      (.enrolling touched seen) (resolveHostnamesForBatch text Fleet.within [item]) := by
  refine heeded_within nofun fun rows => ⟨_, rfl, fun hostname resolved => ?_⟩
  have one := List.head_eq_of_cons_eq resolved
  dsimp only at one
  split at one
  case isTrue => cases one
  case isFalse free =>
    cases one
    rw [Bool.or_eq_true, not_or] at free
    refine ⟨_, rows, rfl, List.mem_cons_self, fun row member shared => ?_⟩
    by_contra other
    refine free.1 (List.any_eq_true.mpr ⟨row, member, ?_⟩)
    rw [Bool.and_eq_true]
    exact ⟨decide_eq_true shared, decide_eq_true other⟩

theorem heeded_userKnown {assignedUserId : Option Text} :
    HeededTx text (fun _ s => s = .enrolling touched seen) (.enrolling touched seen) (userKnown assignedUserId) := by
  unfold userKnown
  split
  · exact rfl
  · refine ⟨nofun, fun answer => ?_⟩
    cases answer with
    | none => trivial
    | some answer => exact rfl

theorem heeded_placeDevice {device : Option DeviceRow} {hostname : Text} {serial : Option Text} {body : ApproveBody}
    {assignedUserId : Option Text} (mine : touched = none ∨ touched = device.map (·.1))
    (unused : Unused text seen hostname (device.map (·.1))) :
    HeededTx text (fun _ s => s = .placed) (.enrolling touched seen)
      (placeDevice device hostname serial body assignedUserId) := by
  unfold placeDevice
  cases device with
  | none =>
    have untouched : touched = none := mine.elim id id
    refine ⟨⟨untouched, unused⟩, fun answer => ?_⟩
    cases answer with
    | none => trivial
    | some answer => exact rfl
  | some device =>
    refine heeded_within ⟨mine, unused⟩ fun updated => ?_
    cases updated with
    | none => trivial
    | some row => exact rfl

/-- An admin's transaction may commit once it has named a device. -/
def Decided {γ : Type} (reply : AdminReply γ) (stage : Stage) : Prop := reply.refused = true ∨ stage = .placed

theorem heeded_completeApproval {actor : Text} {key : KeyRow} {found : Match}
    {taken : Option (DeviceRow × Option (List Nat))} {body : ApproveBody}
    (mine : touched = none ∨ touched = taken.map (·.1.1)) :
    HeededTx text Decided (.enrolling touched seen) (completeApproval text actor key found taken body) := by
  unfold completeApproval
  refine heeded_bind heeded_resolve fun resolved s₁ looked => ?_
  obtain ⟨seen₁, rfl, unused⟩ := looked
  split
  case h_2 => exact .inl rfl
  case h_3 => trivial
  case h_1 hostname =>
    refine heeded_bind heeded_userKnown fun known s₂ same => ?_
    subst same
    split
    case isFalse => exact .inl rfl
    case isTrue =>
      have mine : touched = none ∨ touched = (taken.map (·.1)).map (·.1) := by
        rw [Option.map_map]
        exact mine
      refine heeded_bind (heeded_placeDevice mine (unused hostname rfl)) fun placed s₃ same => ?_
      subst same
      refine heeded_bind heeded_bindKey fun approved s₄ same => ?_
      subst same
      exact heeded_audit_placed (.inr rfl)

theorem heeded_clearWindowsFacts {deviceId : Nat} :
    HeededTx text (fun _ => Under (some deviceId)) (.enrolling none seen) (clearWindowsFacts deviceId) := by
  have silent : ∀ s : LinuxStmt, s.table ≠ some .devices → (∀ lower, s ≠ .hostnames lower) → Silent s := fun _ => And.intro
  unfold clearWindowsFacts
  refine heeded_silent (silent _ nofun nofun) fun _ => heeded_silent (silent _ nofun nofun) fun _ => ?_
  refine heeded_silent (silent _ nofun nofun) fun _ => heeded_silent (silent _ nofun nofun) fun _ => ?_
  exact heeded_within (.inl rfl) fun _ => heeded_silent (silent _ nofun nofun) fun _ => ⟨seen, rfl⟩

/-- What has been written is the device that is taken over. -/
def Taking (deviceId : Nat) (stage : Stage) : Prop := Under none stage ∨ Under (some deviceId) stage

theorem heeded_convert {device : DeviceRow} {serial : Option Text} {body : ApproveBody} :
    HeededTx text (fun _ => Taking device.1) (.enrolling none seen) (convert text device serial body) := by
  have clear (seen : Option (List Text × List (Nat × Text))) : HeededTx text
      (fun (_ : AdminReply (Option (List Nat))) => Taking device.1) (.enrolling none seen) (do
        let cleared ← clearWindowsFacts device.1
        return .ok (some cleared)) :=
    heeded_bind heeded_clearWindowsFacts fun _ _ under => .inr under
  unfold convert
  refine heeded_bind (heeded_reads reads_checkDeviceClaim) fun claim s₁ under => ?_
  obtain ⟨seen₁, rfl⟩ := under
  split
  · split
    · exact .inl ⟨seen₁, rfl⟩
    · exact clear seen₁
  · exact clear seen₁

theorem heeded_supersedeActive {device : DeviceRow} {actor : Text} {body : ApproveBody} :
    HeededTx text (fun _ => Taking device.1) (.enrolling none seen) (supersedeActive device actor body) := by
  unfold supersedeActive
  refine heeded_silent ⟨nofun, nofun⟩ fun active => ?_
  split
  · exact .inl ⟨seen, rfl⟩
  · split
    · exact .inl ⟨seen, rfl⟩
    · exact heeded_silent ⟨nofun, nofun⟩ fun _ => .inl ⟨seen, rfl⟩

theorem heeded_takeOver {actor : Text} {key : KeyRow} {found : Match} {targetId : Nat} {body : ApproveBody} :
    HeededTx text (fun taken s => ∀ device, taken = .ok device → Taking device.1.1 s) (.enrolling none seen)
      (takeOver text actor key found targetId body) := by
  unfold takeOver
  refine heeded_silent ⟨nofun, nofun⟩ fun target => ?_
  split
  · exact fun _ => nofun
  · rename_i device
    split
    · exact fun _ => nofun
    split
    · exact fun _ => nofun
    have last (cleared : AdminReply (Option (List Nat))) (s₁ : Stage) (taking : Taking device.1 s₁) :
        HeededTx text (fun taken s => ∀ device, taken = .ok device → Taking device.1.1 s) s₁
          (pure (cleared.map fun cleared => (device, cleared))) := by
      cases cleared with
      | error => exact fun _ => nofun
      | ok facts =>
        rintro _ same
        cases same
        exact taking
    dsimp only
    split
    · exact heeded_bind heeded_supersedeActive last
    · exact heeded_bind heeded_convert last

theorem heeded_approvePending {actor : Text} {key : KeyRow} {body : ApproveBody} :
    HeededTx text Decided (.enrolling none seen) (approvePending text actor key body) := by
  unfold approvePending
  refine heeded_bind (heeded_reads reads_classifyEnrollment) fun found s₁ under => ?_
  obtain ⟨seen₁, rfl⟩ := under
  split
  · exact .inl rfl
  dsimp only
  generalize body.convertDeviceId.or (if found.kind = .reimage then found.device.map (·.1) else none) = targetId
  split
  · exact .inl rfl
  split
  · exact heeded_completeApproval (.inl rfl)
  · refine heeded_bind heeded_takeOver fun taken s₂ taking => ?_
    split
    · exact .inl rfl
    · rename_i device
      obtain ⟨seen₂, rfl⟩ | ⟨seen₂, rfl⟩ := taking device rfl
      · exact heeded_completeApproval (.inl rfl)
      · exact heeded_completeApproval (.inr rfl)

/-- A transaction may commit: nothing has been written of the devices, or one has been named. -/
def Committable (stage : Stage) : Prop := Under none stage ∨ stage = .placed

theorem heeded_approvePreregistered {byUser fingerprint : Text} {serial : Option Text} {pending : KeyRow}
    {preregistration : PreregistrationRow} {retryAfterS : Nat} :
    HeededTx text (fun _ => Committable) (.enrolling none seen)
      (approvePreregistered text byUser fingerprint serial pending preregistration retryAfterS) := by
  unfold approvePreregistered
  refine heeded_bind heeded_resolve fun resolved s₁ looked => ?_
  obtain ⟨seen₁, rfl, unused⟩ := looked
  split
  · rename_i hostname
    refine heeded_within ⟨rfl, unused hostname rfl⟩ fun device => ?_
    refine heeded_bind heeded_bindKey fun bound s₂ same => ?_
    subst same
    exact heeded_audit_placed (.inr rfl)
  · exact .inl ⟨seen₁, rfl⟩

theorem heeded_conflictOf {byUser : Text} {key : KeyRow} {found : Match} {serial : Option Text} :
    HeededTx text (fun _ => Under none) (.enrolling none seen) (conflictOf text byUser key found serial) := by
  unfold conflictOf
  split
  · refine heeded_bind (heeded_reads reads_claimOf) fun claim s₁ under => ?_
    obtain ⟨seen₁, rfl⟩ := under
    dsimp only
    split
    · exact ⟨seen₁, rfl⟩
    · exact heeded_audit ⟨seen₁, rfl⟩
  · exact ⟨seen, rfl⟩

theorem heeded_enrollPending {byUser fingerprint : Text} {serial : Option Text} {key : KeyRow} {retryAfterS : Nat} :
    HeededTx text (fun _ => Committable) (.enrolling none seen)
      (enrollPending text byUser fingerprint serial key retryAfterS) := by
  unfold enrollPending
  refine heeded_bind (heeded_reads reads_classifyEnrollment) fun found s₁ under => ?_
  obtain ⟨seen₁, rfl⟩ := under
  refine heeded_bind heeded_conflictOf fun conflict s₂ under => ?_
  obtain ⟨seen₂, rfl⟩ := under
  refine heeded_silent ⟨nofun, nofun⟩ fun pending => ?_
  split
  · split
    · exact heeded_approvePreregistered
    · trivial
  · exact .inl ⟨seen₂, rfl⟩

theorem heeded_flooded {byUser : Text} {known : Option KeyRow} :
    HeededTx text (fun _ => Under none) (.enrolling none seen) (flooded byUser known) := by
  unfold flooded
  split
  · exact ⟨seen, rfl⟩
  · refine heeded_silent ⟨nofun, nofun⟩ fun pending => ?_
    split
    · exact heeded_audit ⟨seen, rfl⟩
    · exact ⟨seen, rfl⟩

theorem heeded_auditMismatch {byUser : Text} {key : KeyRow} :
    HeededTx text (fun _ => Under none) (.enrolling none seen) (auditMismatch byUser key) := by
  unfold auditMismatch
  refine heeded_silent ⟨nofun, nofun⟩ fun recent => ?_
  split
  · exact ⟨seen, rfl⟩
  · exact ⟨nofun, fun _ => ⟨seen, rfl⟩⟩

theorem heeded_rollback : Heeded text (fun _ s => s = .idle) stage (Fleet.rollback (α := α)) := by
  refine ⟨?_, fun _ => ?_⟩
  · cases stage <;> trivial
  · cases stage <;> rfl

theorem heeded_transaction {refused : α → Bool} {callback : Tx α}
    (body : HeededTx text (fun value s => refused value = true ∨ Committable s) (.enrolling none none) callback) :
    Heeded text (fun _ s => s = .idle) .idle (transaction refused callback) := by
  unfold transaction
  refine ⟨trivial, fun begun => ?_⟩
  cases begun with
  | false => exact heeded_rollback
  | true =>
    refine ⟨rfl, fun locked => ?_⟩
    cases locked with
    | none => exact heeded_rollback
    | some _ =>
      change Heeded text _ (.enrolling none none) (Program.bind callback.run _)
      refine Program.Heeds.bind body fun result s₁ ends => ?_
      cases result with
      | none => exact heeded_rollback
      | some value =>
        dsimp only
        split
        case isTrue =>
          refine ⟨?_, fun _ => ?_⟩
          · cases s₁ <;> trivial
          · cases s₁ <;> rfl
        case isFalse accepted =>
          have commits : ∀ s, Committable s → enrollAllows text s (.sql .commit) ∧
              ∀ ok, enrollHeeds s (.sql .commit) ok = .idle := by
            rintro s (⟨seen, rfl⟩ | rfl)
            · exact ⟨rfl, fun _ => rfl⟩
            · exact ⟨trivial, fun _ => rfl⟩
          obtain ⟨may, after⟩ := commits s₁ (ends.resolve_left accepted)
          refine ⟨may, fun ok => ?_⟩
          rw [after]
          cases ok with
          | false => exact heeded_rollback
          | true => exact rfl

theorem heeded_dateNow {next : Int → Tx α} (rest : ∀ now, HeededTx text final (.enrolling touched seen) (next now)) :
    HeededTx text final (.enrolling touched seen) (OptionT.lift (perform .dateNow) >>= next) := ⟨trivial, rest⟩

theorem heeded_enrollDevice {input : EnrollInput} :
    Heeded text (fun _ s => s = .idle) .idle (enrollDevice text input) := by
  unfold enrollDevice
  refine heeded_transaction ?_
  refine heeded_silent ⟨nofun, nofun⟩ fun known => ?_
  refine heeded_bind heeded_flooded fun full s₁ under => ?_
  obtain ⟨seen₁, rfl⟩ := under
  split
  · exact .inr (.inl ⟨seen₁, rfl⟩)
  refine heeded_silent ⟨nofun, nofun⟩ fun key => heeded_dateNow fun now => ?_
  dsimp only
  split
  · exact heeded_bind heeded_auditMismatch fun _ s₂ under => .inr (.inl under)
  split
  · exact heeded_silent ⟨nofun, nofun⟩ fun device => .inr (.inl ⟨seen₁, rfl⟩)
  · exact heeded_weaken heeded_enrollPending fun _ _ => .inr

theorem heeded_approveEnrollment {actor : Text} {keyId : Nat} {body : ApproveBody} :
    Heeded text (fun _ s => s = .idle) .idle (approveEnrollment text actor keyId body) := by
  unfold approveEnrollment
  refine Program.Heeds.bind (heeded_transaction ?decided) fun result s₁ same => ?_
  case decided =>
    refine heeded_silent ⟨nofun, nofun⟩ fun key => ?_
    split
    · exact .inl rfl
    split
    · exact .inl rfl
    · exact heeded_weaken heeded_approvePending fun _ _ decided => decided.imp_right .inr
  subst same
  cases result with
  | some outcome => exact rfl
  | none =>
    refine ⟨trivial, fun name => ?_⟩
    cases name with
    | some name => exact rfl
    | none => exact rfl

/-- A program on the pool leaves the connection idle, whatever it answers. -/
abbrev HeededAlone (text : TextFns) (program : OptionT Fleet α) : Prop :=
  Heeded text (fun _ s => s = .idle) .idle program.run

theorem alone_query {s : LinuxStmt} (reads : s.table = none) : HeededAlone text (Fleet.query s) := ⟨reads, fun _ => rfl⟩

theorem alone_bind {program : OptionT Fleet β} {next : β → OptionT Fleet α} (first : HeededAlone text program)
    (rest : ∀ value, HeededAlone text (next value)) : HeededAlone text (program >>= next) := by
  refine Program.Heeds.bind first fun value s₁ same => ?_
  subst same
  cases value with
  | none => exact rfl
  | some value => exact rest value

theorem alone_classifyEnrollment {fingerprint : Text} {serial : Option Text} :
    HeededAlone text (classifyEnrollment text Fleet.query fingerprint serial) := by
  unfold classifyEnrollment
  split
  · exact rfl
  · refine alone_bind (alone_query rfl) fun _ => alone_bind (alone_query rfl) fun _ => ?_
    exact alone_bind (alone_query rfl) fun _ => rfl

theorem alone_candidates (keys : List KeyRow) (ids : List Nat) : HeededAlone text (candidates text keys ids) := by
  induction ids with
  | nil => exact rfl
  | cons id rest ih =>
    unfold candidates
    split
    · exact alone_bind ih fun _ => rfl
    split
    · exact alone_bind ih fun _ => rfl
    · refine alone_bind alone_classifyEnrollment fun matched => alone_bind ih fun rest => ?_
      dsimp only
      split <;> exact rfl

theorem alone_approveEach {actor profile : Text} {ring : Ring} (rows : List (KeyRow × Except Text Text)) :
    HeededAlone text (approveEach text actor profile ring rows) := by
  induction rows with
  | nil => exact rfl
  | cons row rest ih =>
    obtain ⟨key, resolved⟩ := row
    cases resolved with
    | error hostname => exact alone_bind ih fun _ => rfl
    | ok hostname =>
      refine alone_bind heeded_approveEnrollment fun outcome => alone_bind ih fun rest => ?_
      cases outcome <;> exact rfl

theorem heeded_call {program : Fleet Unit} (call : EnrollmentCall text program) :
    Heeded text (fun _ s => s = .idle) .idle program := by
  cases call with
  | enroll input => exact Program.Heeds.bind heeded_enrollDevice fun _ _ same => same
  | approve actor keyId body => exact Program.Heeds.bind heeded_approveEnrollment fun _ _ same => same
  | approveAll actor ids profile ring =>
    have whole : HeededAlone text (approveEnrollments text actor ids profile ring) := by
      unfold approveEnrollments
      refine alone_bind (alone_query rfl) fun keys => alone_bind (alone_candidates keys _) fun found => ?_
      refine alone_bind (alone_bind (alone_query rfl) fun _ => rfl) fun hostnames => ?_
      exact alone_bind (alone_approveEach _) fun _ => rfl
    exact Program.Heeds.bind whole fun _ _ same => same

end Programs

def enrollmentTeam (text : TextFns) : Threads.Team LinuxOp.Res Enrollments where
  exec t o w answer w₁ := enrollmentExec text t o w answer w₁ ∧ LowersAlike text t o w answer w₁
  inv := HostnamesApart text
  rely := Leaves text
  guarantee _ _ _ _ _ := True
  idle t w := w.store.session t = none
  rely_refl := Leaves.refl text
  rely_trans _ _ _ _ := Leaves.trans

theorem enrollments_verified : ((enrollments text).restrict (LowersAlike text)).Verified (enrollmentTeam text) where
  exec run := run
  env {w w₁} inv moves := by
    obtain ⟨changes, free, names, rfl⟩ := moves
    refine ⟨⟨inv.locked.publish changes, inv.sole, fun i j a b named other here there => ?_⟩, fun u => ⟨?_, fun _ => names⟩⟩
    · exact inv.apart i j a b named other ((names i).symm.trans here) ((names j).symm.trans there)
    · refine Schema.moves_publish (fun _ _ => trivial) fun c member k needed owns => ?_
      rw [List.mem_singleton.mp needed, free c member] at owns
      cases owns
  entry {program t w} call inv idle := by
    refine Rules.Safe.of_heeds (fun stage w => HostnamesApart text w ∧ Stage.Holds text t stage w)
      (fun holds leaves kept => ⟨kept, holds.2.leaves holds.1 leaves⟩) ?_ ?_ (heeded_call call) ⟨inv, idle⟩
    · intro stage o w answer w₁ allowed holds _ run
      obtain ⟨kept, leaves, after⟩ := holds.2.exec run.2 allowed holds.1 run.1
      exact ⟨kept, ⟨leaves, trivial⟩, kept, after⟩
    · rintro _ _ w rfl holds _
      exact holds.2
  drop {t w} inv := by
    have closing : (linuxSchema text).logged t .rollback w () ⟨w.store.close t, w.log⟩ := ⟨rfl, rfl⟩
    obtain ⟨kept, leaves, ended⟩ := inv.closed closing rfl
    exact ⟨kept, fun w₁ leaves _ => leaves.moves.session.trans ended, leaves⟩

theorem hostnamesApart_start (w : Enrollments) (start : EnrollmentStart w) :
    HostnamesApart text w ∧ ∀ t w₁, Leaves text t w w₁ → HostnamesApart text w₁ → w₁.store.session t = none := by
  obtain ⟨db, rfl⟩ := start
  refine ⟨⟨Schema.locked_start db, fun t s opened => ?_, fun i j a b named => ?_⟩, fun t w₁ leaves _ => leaves.moves.session⟩
  · cases opened
  · obtain ⟨batch, member, -⟩ := named
    cases member

section Bulk

variable {exec : (o : LinuxOp) → Enrollments → o.Res → Enrollments → Prop}

/-- A name that another row of the batch has is an error, whatever the devices are. -/
theorem resolved_repeated {on : Runner} {items : List HostnameItem} {hostnames : List (Except Text Text)}
    (ends : Rules.Ends exec (resolveHostnamesForBatch text on items).run w (some hostnames) w₁) {i j : Nat}
    {item other : HostnameItem} (here : items[i]? = some item) (there : items[j]? = some other) (apart : i ≠ j)
    (shared : text.toLowerCase (resolveHostname text item) = text.toLowerCase (resolveHostname text other)) :
    hostnames[i]? = some (.error (resolveHostname text item)) := by
  obtain ⟨rows, w₂, -, ends⟩ := ends.of_bindOption
  cases ends
  have row : (items.zip ((items.map (resolveHostname text)).zip
      ((items.map (resolveHostname text)).map text.toLowerCase))).zipIdx[i]? =
      some ((item, resolveHostname text item, text.toLowerCase (resolveHostname text item)), i) := by
    simp [List.getElem?_zipIdx, List.zip, List.getElem?_zipWith, here]
  have again : (text.toLowerCase (resolveHostname text other), j) ∈
      ((items.map (resolveHostname text)).map text.toLowerCase).zipIdx := by
    simp [List.mk_mem_zipIdx_iff_getElem?, there]
  rw [List.getElem?_map, row, Option.map_some]
  refine congrArg some (if_pos ?_)
  rw [Bool.or_eq_true]
  refine .inr (List.any_eq_true.mpr ⟨_, again, ?_⟩)
  rw [Bool.and_eq_true]
  exact ⟨decide_eq_true (Ne.symm apart), decide_eq_true shared.symm⟩

theorem approveEach_error {actor profile : Text} {ring : Ring} {rows : List (KeyRow × Except Text Text)} {ok : Nat}
    {errors : List (Nat × RefusalCode)} {key : KeyRow} {hostname : Text}
    (ends : Rules.Ends exec (approveEach text actor profile ring rows).run w (some (ok, errors)) w₁)
    (member : (key, .error hostname) ∈ rows) : (key.1, .HOSTNAME_TAKEN) ∈ errors := by
  induction rows generalizing w w₁ ok errors with
  | nil => cases member
  | cons row rest ih =>
    obtain ⟨first, resolved⟩ := row
    cases resolved with
    | error name =>
      obtain ⟨⟨ok₁, errors₁⟩, w₂, later, ends⟩ := ends.of_bindOption
      cases ends
      rcases List.mem_cons.mp member with same | member
      · cases same
        exact List.mem_cons_self
      · exact List.mem_cons_of_mem _ (ih later member)
    | ok name =>
      obtain ⟨outcome, w₂, -, ends⟩ := ends.of_bindOption
      obtain ⟨⟨ok₁, errors₁⟩, w₃, later, ends⟩ := ends.of_bindOption
      have inside : (key.1, .HOSTNAME_TAKEN) ∈ errors₁ := by
        rcases List.mem_cons.mp member with same | member
        · cases same
        · exact ih later member
      cases outcome with
      | ok => cases ends; exact inside
      | error refused => cases ends; exact List.mem_cons_of_mem _ inside

/-- A run of a batch: the candidates that it has found, and the rows that it approves one by one. -/
def Batched (exec : (o : LinuxOp) → Enrollments → o.Res → Enrollments → Prop) (text : TextFns) (actor : Text)
    (ids : List Nat) (profile : Text) (ring : Ring) (w : Enrollments) (result : BulkResult) (w₁ : Enrollments)
    (found : List (KeyRow × HostnameItem)) (rows : List (KeyRow × Except Text Text)) : Prop :=
  ∃ keys errors ok more w₂ w₃ w₄, Rules.Ends exec (Fleet.query (.selectKeys ids.eraseDups)).run w (some keys) w₂ ∧
    Rules.Ends exec (candidates text keys ids.eraseDups).run w₂ (some (found, errors)) w₃ ∧
    Rules.Ends exec (approveEach text actor profile ring rows).run w₄ (some (ok, more)) w₁ ∧
    result = ⟨ok, (errors ++ more).length, errors ++ more⟩

/-- Every candidate of a batch whose name another one has is refused, and is not approved. -/
theorem repeated_refused {actor profile : Text} {ids : List Nat} {ring : Ring} {result : BulkResult}
    (ends : Rules.Ends exec (approveEnrollments text actor ids profile ring).run w (some result) w₁) :
    ∃ found rows, Batched exec text actor ids profile ring w result w₁ found rows ∧
      ∀ (i j : Nat) e f, found[i]? = some e → found[j]? = some f → i ≠ j →
        text.toLowerCase (resolveHostname text e.2) = text.toLowerCase (resolveHostname text f.2) →
        rows[i]? = some (e.1, .error (resolveHostname text e.2)) ∧ (e.1.1, .HOSTNAME_TAKEN) ∈ result.errors := by
  obtain ⟨keys, w₂, selected, ends⟩ := ends.of_bindOption
  obtain ⟨⟨found, errors⟩, w₃, classified, ends⟩ := ends.of_bindOption
  obtain ⟨hostnames, w₄, resolved, ends⟩ := ends.of_bindOption
  obtain ⟨⟨ok, more⟩, w₅, approved, ends⟩ := ends.of_bindOption
  cases ends
  refine ⟨found, _, ⟨keys, errors, ok, more, w₂, w₃, w₄, selected, classified, approved, rfl⟩,
    fun i j e f here there apart shared => ?_⟩
  have taken : hostnames[i]? = some (.error (resolveHostname text e.2)) := by
    refine resolved_repeated resolved ?_ ?_ apart shared
    · rw [List.getElem?_map, here]
      rfl
    · rw [List.getElem?_map, there]
      rfl
  have row : ((found.map (·.1)).zip hostnames)[i]? = some (e.1, .error (resolveHostname text e.2)) := by
    rw [List.getElem?_zip_eq_some, List.getElem?_map, here]
    exact ⟨rfl, taken⟩
  exact ⟨row, List.mem_append_right _ (approveEach_error approved (List.mem_of_getElem? row))⟩

end Bulk

/-- In every run of enrollments and approvals whose look-ups meet no name that `LOWER` and
`toLowerCase` tell apart, a hostname that one of them has set is no other device's up to case; and
in a batch every candidate whose name another one has is refused. -/
theorem hostnames_apart {text : TextFns} {c : Threads.Config LinuxOp.Res Enrollments}
    (reach : ((enrollments text).restrict (LowersAlike text)).Reach EnrollmentStart c) :
    (∀ i j a b, Named c.world.log i → i ≠ j → hostnameOf c.world.store.committed i = some a →
      hostnameOf c.world.store.committed j = some b → text.toLowerCase a ≠ text.toLowerCase b) ∧
    ∀ exec actor ids profile ring result w₁,
      Rules.Ends exec (approveEnrollments text actor ids profile ring).run c.world (some result) w₁ →
      ∃ found rows, Batched exec text actor ids profile ring c.world result w₁ found rows ∧
        ∀ (i j : Nat) e f, found[i]? = some e → found[j]? = some f → i ≠ j →
          text.toLowerCase (resolveHostname text e.2) = text.toLowerCase (resolveHostname text f.2) →
          rows[i]? = some (e.1, .error (resolveHostname text e.2)) ∧ (e.1.1, .HOSTNAME_TAKEN) ∈ result.errors :=
  ⟨(reach.inv enrollments_verified hostnamesApart_start).apart, fun _ _ _ _ _ _ _ ends => repeated_refused ends⟩

theorem reach_within {cond : Nat → (o : LinuxOp) → Enrollments → o.Res → Enrollments → Prop} {runs : Nat → Fleet Unit}
    {store : LinuxStore} {log : List (List LinuxChange)} {s : LinuxStmt} {rest : Option s.Ans → Fleet Unit}
    {changes : List LinuxChange} {out : LinuxOutcome s.Ans}
    (reach : ((enrollments text).restrict cond).Reach EnrollmentStart ⟨⟨store, log⟩, runs⟩) (mine : Mine t store)
    (next : runs t = .op (.sql (.within s)) rest) (draw : LinuxDraw) (opened : store.session t = some ⟨changes, false⟩)
    (ran : s.run text draw ((linuxSchema text).view store t) = some out)
    (meets : cond t (.sql (.within s)) ⟨store, log⟩ (some out.answer)
      ⟨store.write t out.changes ((linuxSchema text).needs out), log⟩) :
    ((enrollments text).restrict cond).Reach EnrollmentStart
        ⟨⟨store.write t out.changes ((linuxSchema text).needs out), log⟩, Function.update runs t (rest (some out.answer))⟩ ∧
      Mine t (store.write t out.changes ((linuxSchema text).needs out)) :=
  ⟨reach.perform t next (some out.answer) _
    ⟨⟨(Schema.exec_within opened).mpr (.inl ⟨draw, out, ran, mine _, rfl, rfl⟩), rfl⟩, meets⟩, mine.write _ _⟩

/-! A device "PC-ΑΣ", whose last letter `LOWER` makes a σ and `toLowerCase` a ς. -/

def isGreekCapital (c : Char) : Bool := 'Α' ≤ c && c ≤ 'Ω'

def isGreek (c : Char) : Bool := isGreekCapital c || 'α' ≤ c && c ≤ 'ω'

def lowerLetter (c : Char) : Char := if c.isUpper || isGreekCapital c then Char.ofNat (c.toNat + 32) else c

/-- A capital sigma that ends a word is lowered to the final one. -/
def lowerWord (inside : Bool) : Text → Text
  | [] => []
  | c :: rest =>
    let lowered := if c = 'Σ' && inside && !rest.head?.any isGreek then 'ς' else lowerLetter c
    lowered :: lowerWord (isGreek c) rest

def greekText : TextFns := { demoText with
  toLowerCase := lowerWord false
  LOWER := List.map lowerLetter }

def demoUnknown : LinuxKey := EnrollFacts.insert ⟨"5c".toList, [], .software, none, none, none, none⟩ 0

def demoDevice : LinuxDevice := NewDevice.row ⟨"PC-ΑΣ".toList, none, "desk".toList, .stable, none⟩

def demoNetwork : LinuxDb := ⟨(∅ : Table _).insert 1 demoUnknown, (∅ : Table _).insert 3 demoDevice, ∅, ∅, ∅, ∅, ∅, ∅⟩

def demoApproval (hostname : Option Text) : ApproveBody :=
  ⟨"desk".toList, .stable, hostname, none, none, false, false, false⟩

/-- The only device has another name than "pc-1". -/
theorem lowersAlike_demoNetwork (id : Nat) (name : Text) (stored : hostnameOf demoNetwork id = some name)
    (shared : greekText.toLowerCase name ∈ ["pc-1".toList]) : greekText.LOWER name = greekText.toLowerCase name := by
  obtain ⟨d, found, rfl⟩ := Option.map_eq_some_iff.mp stored
  have here : d = demoDevice := by
    unfold demoNetwork at found
    grind
  subst here
  exact absurd shared (by decide)

/-- A pending key is approved under the name "pc-1". -/
theorem hostnames_apart_approve : ∃ c : Threads.Config LinuxOp.Res Enrollments, Named c.world.log 7 ∧
    hostnameOf c.world.store.committed 7 = some "pc-1".toList ∧
    ∀ j b, 7 ≠ j → hostnameOf c.world.store.committed j = some b → "pc-1".toList ≠ greekText.toLowerCase b := by
  have r : ((enrollments greekText).restrict (LowersAlike greekText)).Reach EnrollmentStart
    ⟨⟨.start demoNetwork, []⟩, fun _ => .ret ()⟩ := .init ⟨_, rfl⟩
  have r := r.begins 0 _ rfl (.approve "admin".toList 1 (demoApproval (some "pc-1".toList)))
  have r := r.perform 0 rfl true ⟨_, _⟩ ⟨⟨.inl ⟨rfl, rfl⟩, rfl⟩, trivial⟩
  have mine : Mine 0 ((Store.start demoNetwork : LinuxStore).openTx 0) := fun _ _ _ => .inl rfl
  obtain ⟨r, mine⟩ := reach_within r mine rfl ⟨0, 7, 0⟩ rfl rfl (by trivial)
  obtain ⟨r, mine⟩ := reach_within r mine rfl ⟨0, 7, 0⟩ rfl rfl (by trivial)
  obtain ⟨r, mine⟩ := reach_within r mine rfl ⟨0, 7, 0⟩ rfl rfl (by exact lowersAlike_demoNetwork)
  obtain ⟨r, mine⟩ := reach_within r mine rfl ⟨0, 7, 0⟩ rfl rfl (by trivial)
  obtain ⟨r, mine⟩ := reach_within r mine rfl ⟨0, 7, 0⟩ rfl rfl (by trivial)
  obtain ⟨r, mine⟩ := reach_within r mine rfl ⟨0, 7, 0⟩ rfl rfl (by trivial)
  have r := r.perform 0 rfl true ⟨_, _⟩ ⟨.inl rfl, trivial⟩
  exact ⟨_, ⟨_, List.mem_cons_self, _, List.mem_cons_self⟩, rfl,
    fun j b other => (hostnames_apart r).1 7 j _ b ⟨_, List.mem_cons_self, _, List.mem_cons_self⟩ other rfl⟩

/-- The key of the serial "S1", preregistered under the name "pc-ας". -/
def demoGreek : LinuxDb :=
  { demoNetwork with
    keys := (∅ : Table _).insert 1 demoPending
    preregistrations := (∅ : Table _).insert 4
      ⟨"S1".toList, some "pc-ας".toList, "desk".toList, .stable, none, none, none⟩ }

/-- The look-up of "pc-ας" misses "PC-ΑΣ", which it is up to case. -/
theorem final_sigma_shared : ¬∀ (text : TextFns) (c : Threads.Config LinuxOp.Res Enrollments),
    (enrollments text).Reach EnrollmentStart c → ∀ i j a b, Named c.world.log i → i ≠ j →
      hostnameOf c.world.store.committed i = some a → hostnameOf c.world.store.committed j = some b →
      text.toLowerCase a ≠ text.toLowerCase b := by
  intro holds
  have r : ((enrollments greekText).restrict fun _ _ _ _ _ => True).Reach EnrollmentStart
    ⟨⟨.start demoGreek, []⟩, fun _ => .ret ()⟩ := .init ⟨_, rfl⟩
  have r := r.begins 0 _ rfl (.approve "admin".toList 1 (demoApproval none))
  have r := r.perform 0 rfl true ⟨_, _⟩ ⟨⟨.inl ⟨rfl, rfl⟩, rfl⟩, trivial⟩
  have mine : Mine 0 ((Store.start demoGreek : LinuxStore).openTx 0) := fun _ _ _ => .inl rfl
  obtain ⟨r, mine⟩ := reach_within r mine rfl ⟨0, 7, 0⟩ rfl rfl (by trivial)
  obtain ⟨r, mine⟩ := reach_within r mine rfl ⟨0, 7, 0⟩ rfl rfl (by trivial)
  obtain ⟨r, mine⟩ := reach_within r mine rfl ⟨0, 7, 0⟩ rfl rfl (by trivial)
  obtain ⟨r, mine⟩ := reach_within r mine rfl ⟨0, 7, 0⟩ rfl rfl (by trivial)
  obtain ⟨r, mine⟩ := reach_within r mine rfl ⟨0, 7, 0⟩ rfl rfl (by trivial)
  obtain ⟨r, mine⟩ := reach_within r mine rfl ⟨0, 7, 0⟩ rfl rfl (by trivial)
  obtain ⟨r, mine⟩ := reach_within r mine rfl ⟨0, 7, 0⟩ rfl rfl (by trivial)
  obtain ⟨r, mine⟩ := reach_within r mine rfl ⟨0, 7, 0⟩ rfl rfl (by trivial)
  obtain ⟨r, mine⟩ := reach_within r mine rfl ⟨0, 7, 0⟩ rfl rfl (by trivial)
  obtain ⟨r, mine⟩ := reach_within r mine rfl ⟨0, 7, 0⟩ rfl rfl (by trivial)
  have r := r.perform 0 rfl true ⟨_, _⟩ ⟨.inl rfl, trivial⟩
  have shared : greekText.toLowerCase "pc-ας".toList = greekText.toLowerCase "PC-ΑΣ".toList := by decide
  refine holds greekText _ r.of_restrict 7 3 _ _ ?named (by decide) ?here ?there shared
  case named => exact ⟨_, List.mem_cons_self, _, List.mem_cons_self⟩
  case here => rfl
  case there => rfl

end Opale.Linux
