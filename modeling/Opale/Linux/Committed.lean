import Opale.Effects.Safety
import Opale.Linux.Frames

namespace Opale.Linux

open Sql Fleet

/-- The database, and the audits that the transactions have lost. -/
structure AuditedStore where
  store : LinuxStore
  lostAudits : List AuditEntry

/-- An audit whose INSERT fails inside a transaction is lost. -/
def lose : (o : LinuxOp) → o.Res → List AuditEntry → List AuditEntry
  | .sql (.within (.insertAudit entry)), none, lost => lost ++ [entry]
  | _, _, lost => lost

def auditedExec (text : TextFns) (t : Nat) (o : LinuxOp) (w : AuditedStore) (answer : o.Res) (w₁ : AuditedStore) :
    Prop :=
  ∃ store, linuxExec text t o w.store answer store ∧ w₁ = ⟨store, lose o answer w.lostAudits⟩

/-- The rows that an enrollment reports: its key, approved, and the device created for it. -/
def EnrolledRows (fingerprint : Text) (reply : EnrollReply) (db : LinuxDb) : Prop :=
  ∃ key device, reply.key = some key ∧ reply.device = some device ∧ key.2.keyFingerprint = fingerprint ∧
    key.2.status = .approved ∧ key.2.deviceId = some device.1 ∧
    db.keys[key.1]? = some key.2 ∧ db.devices[device.1]? = some device.2

def ApprovedRows (keyId : Nat) (reply : Approved) (db : LinuxDb) : Prop :=
  ∃ key, reply.key = some (keyId, key) ∧ key.status = .approved ∧ key.deviceId = some reply.device.1 ∧
    db.keys[keyId]? = some key ∧ db.devices[reply.device.1]? = some reply.device.2

def RejectedRows (keyId : Nat) (reply : Option KeyRow) (db : LinuxDb) : Prop :=
  ∃ key, reply = some (keyId, key) ∧ key.status = .rejected ∧ db.keys[keyId]? = some key

def RevokedRows (deviceId : Nat) (reply : Revoked) (db : LinuxDb) : Prop :=
  reply.key.2.status = .revoked ∧ reply.key.2.deviceId = some deviceId ∧ db.keys[reply.key.1]? = some reply.key.2

/-- The report, and what it leaves in its device. -/
def ReportRows (deviceId : Nat) (report : Report) (reply : ReportReply) (db : LinuxDb) : Prop :=
  db.reports[reply.id]? = some (report.row deviceId reply.receivedAt) ∧
    ∃ device : LinuxDevice, db.devices[deviceId]? = some device ∧ device.lastApplyStatus = some report.status

/-- The key is pending, or not known yet. -/
def PendingKey (fingerprint : Text) (db : LinuxDb) : Prop :=
  ∀ (id : Nat) (k : LinuxKey), db.keys[id]? = some k → k.keyFingerprint = fingerprint → k.status = .pending

/-- A call on the database `before` that ends with `value` reports these rows as written. -/
inductive Reports (text : TextFns) (before : LinuxDb) : {α : Type} → Fleet α → α → (LinuxDb → Prop) → Prop
  | enroll {input reply} : PendingKey input.fingerprint before → reply.status = .known .approved →
      Reports text before (enrollDevice text input) (some reply) (EnrolledRows input.fingerprint reply)
  | approve {actor keyId body reply} :
      Reports text before (approveEnrollment text actor keyId body) (some (.ok reply)) (ApprovedRows keyId reply)
  | reject {actor keyId reply} :
      Reports text before (rejectEnrollment actor keyId) (some (.ok reply)) (RejectedRows keyId reply)
  | revoke {actor deviceId reason reply} :
      Reports text before (revokeDeviceKey actor deviceId reason) (some (.ok reply)) (RevokedRows deviceId reply)
  | report {deviceId fingerprint report reply} :
      Reports text before (recordReport deviceId fingerprint report) (some reply) (ReportRows deviceId report reply)

variable {text : TextFns} {t : Nat} {before v : LinuxDb} {w w₁ : AuditedStore} {α β : Type}

/-- The transaction is in order, and sees `v`. -/
structure InOrder (text : TextFns) (t : Nat) (before v : LinuxDb) (w : AuditedStore) : Prop where
  opened : ∃ changes, w.store.session t = some ⟨changes, false⟩
  committed : w.store.committed = before
  view : (linuxSchema text).view w.store t = v
  audited : w.lostAudits = []

/-- An audit of the transaction is lost: nothing that it has written will be kept. -/
structure Spoilt (t : Nat) (before : LinuxDb) (w : AuditedStore) : Prop where
  failed : ∃ changes, w.store.session t = some ⟨changes, true⟩
  committed : w.store.committed = before
  lost : w.lostAudits ≠ []

abbrev call (text : TextFns) (t : Nat) : Rules LinuxOp.Res AuditedStore := .alone (auditedExec text t)

section

variable {post : α → AuditedStore → Prop}

theorem safe_return {value : α} (holds : post value w) :
    (call text t).Safe (Rules.Given post) (.ret (some value)) w := by
  rintro _ rfl _
  exact holds

/-- A statement that answers: what it has written is seen from then on. -/
theorem InOrder.step {s : LinuxStmt} {answer : s.Ans} (order : InOrder text t before v w)
    (run : auditedExec text t (.sql (.within s)) w (some answer) w₁) :
    ∃ draw out, s.run text draw v = some out ∧ answer = out.answer ∧
      InOrder text t before ((linuxSchema text).applyAll out.changes v) w₁ := by
  obtain ⟨store, run, rfl⟩ := run
  obtain ⟨changes, opened⟩ := order.opened
  rcases (Schema.exec_within opened).mp run with ⟨draw, out, ran, -, same, rfl⟩ | ⟨none_, -⟩
  · cases same
    rw [order.view] at ran
    refine ⟨draw, out, ran, rfl, ⟨_, Schema.session_write opened⟩, order.committed, ?_, ?_⟩
    · rw [← order.view]
      exact Schema.view_write opened
    · refine Eq.trans ?_ order.audited
      cases s <;> rfl
  · cases none_

theorem InOrder.last {s : LinuxStmt} {post : s.Ans → AuditedStore → Prop} (order : InOrder text t before v w)
    (goes : ∀ draw out w₁, s.run text draw v = some out →
      InOrder text t before ((linuxSchema text).applyAll out.changes v) w₁ → post out.answer w₁) :
    (call text t).Safe (Rules.Given post) (Fleet.within s).run w := by
  rintro _ rfl _ answer w₁ run
  refine ⟨trivial, trivial, ?_⟩
  cases answer with
  | none => exact Rules.safe_none
  | some answer =>
    obtain ⟨draw, out, ran, rfl, order₁⟩ := order.step run
    exact safe_return (goes draw out w₁ ran order₁)

theorem InOrder.within {s : LinuxStmt} {next : s.Ans → Tx α} (order : InOrder text t before v w)
    (goes : ∀ draw out w₁, s.run text draw v = some out →
      InOrder text t before ((linuxSchema text).applyAll out.changes v) w₁ →
      (call text t).Safe (Rules.Given post) (next out.answer).run w₁) :
    (call text t).Safe (Rules.Given post) (Fleet.within s >>= next).run w := by
  have last : (call text t).Safe
      (Rules.Given fun answer w₁ => (call text t).Safe (Rules.Given post) (next answer).run w₁) (Fleet.within s).run w :=
    order.last goes
  exact last.bindOption trivial fun _ _ _ safe => safe

/-- A statement that only reads. -/
theorem InOrder.read {s : LinuxStmt} {next : s.Ans → Tx α} (order : InOrder text t before v w) (nothing : s.table = none)
    (goes : ∀ draw out w₁, s.run text draw v = some out → InOrder text t before v w₁ →
      (call text t).Safe (Rules.Given post) (next out.answer).run w₁) :
    (call text t).Safe (Rules.Given post) (Fleet.within s >>= next).run w := by
  refine order.within fun draw out w₁ ran order₁ => ?_
  rw [run_reads ran nothing] at order₁
  exact goes draw out w₁ ran order₁

theorem Spoilt.within {s : LinuxStmt} {next : s.Ans → Tx α} (spoilt : Spoilt t before w) :
    (call text t).Safe (Rules.Given post) (Fleet.within s >>= next).run w := by
  rintro _ rfl _ answer _ ⟨store, run, rfl⟩
  obtain ⟨changes, failed⟩ := spoilt.failed
  simp only [linuxExec, Schema.exec, failed] at run
  obtain ⟨rfl, -⟩ := run
  exact ⟨trivial, trivial, Rules.safe_none⟩

/-- An audit fails silently, and spoils the transaction. -/
theorem InOrder.logAudit {entry : AuditEntry} {next : Unit → Tx α} (order : InOrder text t before v w)
    (goes : ∀ draw out w₁, (LinuxStmt.insertAudit entry).run text draw v = some out →
      InOrder text t before ((linuxSchema text).applyAll out.changes v) w₁ →
      (call text t).Safe (Rules.Given post) (next ()).run w₁)
    (spoils : ∀ w₁, Spoilt t before w₁ → (call text t).Safe (Rules.Given post) (next ()).run w₁) :
    (call text t).Safe (Rules.Given post) (Fleet.logAudit entry >>= next).run w := by
  rintro _ rfl _ answer w₁ run
  refine ⟨trivial, trivial, ?_⟩
  cases answer with
  | none =>
    obtain ⟨store, run, rfl⟩ := run
    obtain ⟨changes, opened⟩ := order.opened
    rcases (Schema.exec_within opened).mp run with ⟨_, _, _, _, none_, _⟩ | ⟨-, rfl⟩
    · cases none_
    · refine spoils _ ⟨⟨_, Schema.session_fail opened⟩, order.committed, ?_⟩
      exact List.append_ne_nil_of_right_ne_nil _ (List.cons_ne_nil entry [])
  | some answer =>
    obtain ⟨draw, out, ran, -, order₁⟩ := order.step run
    exact goes draw out w₁ ran order₁

/-- The statements that a program may perform keep `holds` of what the transaction sees. -/
theorem InOrder.only {allowed : LinuxStmt → Prop} (holds : LinuxDb → Prop) {program : Tx α}
    (order : InOrder text t before v w) (only : Only allowed program.run) (here : holds v)
    (keeps : ∀ s draw v (out : LinuxOutcome s.Ans), allowed s → s.run text draw v = some out → holds v →
      holds ((linuxSchema text).applyAll out.changes v)) :
    (call text t).Safe (Rules.Given fun _ w₁ => ∃ v₁, InOrder text t before v₁ w₁ ∧ holds v₁) program.run w := by
  generalize program.run = tree at only
  induction tree generalizing v w with
  | ret value =>
    cases value with
    | none => exact Rules.safe_none
    | some value => exact safe_return ⟨v, order, here⟩
  | op o rest ih =>
    rcases o with ⟨o⟩ | _ | _ | _
    case sql =>
      cases o
      case within s =>
        obtain ⟨ok, stops, later⟩ := only
        rintro _ rfl _ answer w₁ run
        refine ⟨trivial, trivial, ?_⟩
        cases answer with
        | none =>
          rw [stops]
          exact Rules.safe_none
        | some answer =>
          obtain ⟨draw, out, ran, -, order₁⟩ := order.step run
          exact ih _ order₁ (keeps s draw v out ok ran here) (later answer)
      all_goals exact only.elim
    all_goals exact only.elim

/-- A program that only reads. -/
theorem InOrder.reads {program : Tx β} {next : β → Tx α} (order : InOrder text t before v w) (reads : Reads program)
    (goes : ∀ value w₁, InOrder text t before v w₁ → (call text t).Safe (Rules.Given post) (next value).run w₁) :
    (call text t).Safe (Rules.Given post) (program >>= next).run w := by
  refine (order.only (· = v) reads rfl fun s draw v₁ out nothing ran same => ?_).bindOption trivial ?_
  · rw [run_reads ran nothing, same]
  · rintro value w₁ - ⟨_, order₁, rfl⟩
    exact goes value w₁ order₁

end

/-- Where a callback may end: with what it reports in what the transaction sees, or
spoilt, and then it is not in what is committed. -/
def Reached (text : TextFns) (t : Nat) (before : LinuxDb) (claims : α → Prop) (rows : α → LinuxDb → Prop) (value : α)
    (w : AuditedStore) : Prop :=
  claims value → (∃ v, InOrder text t before v w ∧ rows value v) ∨ Spoilt t before w ∧ ¬rows value before

/-- What is reported is committed exactly when no audit has been lost. -/
def Settled (claims : α → Prop) (rows : α → LinuxDb → Prop) (value : α) (w : AuditedStore) : Prop :=
  claims value → (rows value w.store.committed ↔ w.lostAudits = [])

section

variable {claims : α → Prop} {rows : α → LinuxDb → Prop} {post : α → AuditedStore → Prop}

theorem safe_rollback : (call text t).Safe (Rules.Given post) (rollback (α := α)) w := by
  rintro _ rfl _ answer w₁ run
  exact ⟨trivial, trivial, Rules.safe_none⟩

/-- An answer that reports nothing. -/
theorem safe_unclaimed {value : α} (nothing : ¬claims value) :
    (call text t).Safe (Rules.Given (Reached text t before claims rows)) (.ret (some value)) w :=
  safe_return fun claimed => absurd claimed nothing

theorem safe_begin {program : Fleet (Option α)} (idle : w.store.session t = none) (audited : w.lostAudits = [])
    (body : ∀ w₁, InOrder text t w.store.committed w.store.committed w₁ →
      (call text t).Safe (Rules.Given post) program w₁) :
    (call text t).Safe (Rules.Given post)
      (perform (.sql .begin) >>= fun ok => if ok = true then program else rollback) w := by
  rintro _ rfl _ begun w₁ ⟨store, run, rfl⟩
  refine ⟨trivial, trivial, ?_⟩
  rcases run with ⟨rfl, rfl⟩ | ⟨rfl, rfl⟩
  · have session := Schema.session_openTx idle
    have same : (w.store.openTx t).committed = w.store.committed := by
      unfold Store.openTx
      rw [idle]
    refine body _ ⟨⟨_, session⟩, same, ?_, audited⟩
    change (linuxSchema text).view (w.store.openTx t) t = w.store.committed
    rw [Schema.view_of_session session, same]
    rfl
  · exact safe_rollback

/-- COMMIT publishes what a transaction in order sees, and nothing of a spoilt one. -/
theorem Reached.commit {value : α} (reached : Reached text t before claims rows value w) :
    (call text t).Safe (Rules.Given (Settled claims rows))
      (perform (.sql .commit) >>= fun ok => if ok = true then return some value else rollback) w := by
  rintro _ rfl _ answer w₁ ⟨store, run, rfl⟩
  refine ⟨trivial, trivial, ?_⟩
  cases answer with
  | false => exact safe_rollback
  | true =>
    refine safe_return fun claimed => ?_
    rcases reached claimed with ⟨v, order, holds⟩ | ⟨spoilt, fails⟩
    · obtain ⟨changes, opened⟩ := order.opened
      rcases (Schema.exec_commit opened).mp run with rfl | ⟨lost, -⟩
      · refine iff_of_true ?_ order.audited
        rw [← order.view, Schema.view_of_session opened] at holds
        exact holds
      · cases lost
    · obtain ⟨changes, failed⟩ := spoilt.failed
      simp only [linuxExec, Schema.exec, failed] at run
      subst run
      refine iff_of_false ?_ spoilt.lost
      rw [← spoilt.committed] at fails
      exact fails

theorem safe_transaction (rows : α → LinuxDb → Prop) {refused : α → Bool} {callback : Tx α}
    (idle : w.store.session t = none) (audited : w.lostAudits = [])
    (nothing : ∀ value, refused value = true → ¬claims value)
    (body : ∀ w₁, InOrder text t w.store.committed w.store.committed w₁ →
      (call text t).Safe (Rules.Given (Reached text t w.store.committed claims rows)) callback.run w₁) :
    (call text t).Safe (Rules.Given (Settled claims rows)) (transaction refused callback) w := by
  refine safe_begin idle audited fun w₁ opened => ?_
  rintro _ rfl _ locked w₂ run
  refine ⟨trivial, trivial, ?_⟩
  cases locked with
  | none => exact safe_rollback
  | some =>
    obtain ⟨draw, out, ran, -, order⟩ := opened.step run
    rw [run_reads ran rfl] at order
    refine (body w₂ order).bind trivial fun result w₃ _ reached => ?_
    cases result with
    | none => exact safe_rollback
    | some value =>
      dsimp only
      split
      case isTrue refuses =>
        rintro _ rfl _ _ w₄ -
        exact ⟨trivial, trivial, safe_return fun claimed => absurd claimed (nothing value refuses)⟩
      case isFalse => exact reached.commit

end

/-- The rows of a result, nothing for a refusal. -/
def AdminReply.rows (rows : α → LinuxDb → Prop) : AdminReply α → LinuxDb → Prop
  | .ok reply => rows reply
  | .error _ => fun _ => False

/-- `ok: true` -/
abbrev AdminReply.Accepted (reply : AdminReply α) : Prop := reply.refused = false

theorem AdminReply.not_accepted (reply : AdminReply α) (refuses : reply.refused = true) : ¬reply.Accepted := by
  rw [AdminReply.Accepted, refuses]
  exact nofun

theorem safe_refusal {rows : α → LinuxDb → Prop} {refusal : Refusal} :
    (call text t).Safe (Rules.Given (Reached text t before AdminReply.Accepted (AdminReply.rows rows)))
      (.ret (some (.error refusal))) w := safe_unclaimed nofun

/-- What is left after the audit of a success. -/
theorem InOrder.audited_ok {reply : α} {claims : α → Prop} {rows : α → LinuxDb → Prop} {entry : AuditEntry}
    (order : InOrder text t before v w) (fails : ¬rows reply before)
    (holds : ∀ v₁ : LinuxDb, v₁.keys = v.keys → v₁.devices = v.devices → v₁.reports = v.reports → rows reply v₁) :
    (call text t).Safe (Rules.Given (Reached text t before claims rows))
      (Fleet.logAudit entry >>= fun _ => pure reply).run w := by
  refine order.logAudit (fun draw out w₁ ran order₁ => ?_) fun w₁ spoilt => ?_
  · have holds₁ := holds _ (run_keys ran nofun) (run_devices ran nofun) (run_reports ran nofun)
    exact safe_return fun _ => .inl ⟨_, order₁, holds₁⟩
  · exact safe_return fun _ => .inr ⟨spoilt, fails⟩

theorem safe_rejectEnrollment {actor : Text} {keyId : Nat} (idle : w.store.session t = none)
    (audited : w.lostAudits = []) :
    (call text t).Safe (Rules.Given (Settled AdminReply.Accepted (AdminReply.rows (RejectedRows keyId))))
      (rejectEnrollment actor keyId) w := by
  unfold rejectEnrollment
  refine safe_transaction _ idle audited AdminReply.not_accepted fun w₁ order => ?_
  refine order.read rfl fun draw out w₂ ran order₂ => ?_
  cases ran
  split
  case h_1 => exact safe_refusal
  case h_2 key found =>
    obtain ⟨k, present, rfl⟩ := Option.map_eq_some_iff.mp found
    split
    case isTrue => exact safe_refusal
    case isFalse pending =>
      refine order₂.within fun draw₁ out₁ w₃ ran₁ order₃ => ?_
      cases ran₁
      rw [answer_updateKeys, present]
      refine order₃.audited_ok ?_ fun v₁ keys _ _ => ?_
      · rintro ⟨key, same, status, found⟩
        cases same
        rw [present] at found
        have same := congrArg LinuxKey.status (Option.some.inj found)
        rw [status] at same
        exact pending fun waiting => nomatch same.symm.trans waiting
      · refine ⟨_, rfl, rfl, ?_⟩
        rw [keys, keys_updateKeys, present, Option.map_some, if_pos (decide_eq_true rfl)]

theorem safe_revokeDeviceKey {actor : Text} {deviceId : Nat} {reason : Text} (idle : w.store.session t = none)
    (audited : w.lostAudits = []) :
    (call text t).Safe (Rules.Given (Settled AdminReply.Accepted (AdminReply.rows (RevokedRows deviceId))))
      (revokeDeviceKey actor deviceId reason) w := by
  unfold revokeDeviceKey
  refine safe_transaction _ idle audited AdminReply.not_accepted fun w₁ order => ?_
  refine order.read rfl fun draw out w₂ _ order₂ => ?_
  split
  case h_1 => exact safe_refusal
  case h_2 device _ =>
    refine order₂.within fun draw₁ out₁ w₃ ran₁ order₃ => ?_
    cases ran₁
    split
    case h_1 => exact safe_refusal
    case h_2 key returned =>
      obtain ⟨k, present, active, set⟩ := answered_updateKeys returned
      rw [Bool.and_eq_true, decide_eq_true_eq, decide_eq_true_eq] at active
      refine order₃.audited_ok ?_ fun v₁ keys _ _ => ?_
      · rintro ⟨status, -, found⟩
        rw [present] at found
        cases found
        rw [active.2] at status
        cases status
      · refine ⟨?_, ?_, ?_⟩
        · rw [← set]
          rfl
        · rw [← set]
          exact active.1
        · rw [keys, keys_updateKeys, present, Option.map_some, if_pos, set]
          rw [Bool.and_eq_true, decide_eq_true_eq, decide_eq_true_eq]
          exact active

/-- The key is bound to the device; the devices stay. -/
theorem safe_bindKey {key : KeyRow} {device : DeviceRow} {actor : Text} {preregistration : Option PreregistrationRow}
    {k : LinuxKey} (order : InOrder text t before v w) (present : v.keys[key.1]? = some k) :
    (call text t).Safe (Rules.Given fun updated w₁ => ∃ row v₁, InOrder text t before v₁ w₁ ∧
        updated = some (key.1, row) ∧ row.status = .approved ∧ row.deviceId = some device.1 ∧
        row.keyFingerprint = k.keyFingerprint ∧ v₁.keys[key.1]? = some row ∧ v₁.devices = v.devices)
      (bindKey key device actor preregistration).run w := by
  unfold bindKey
  refine order.within fun draw out w₁ ran order₁ => ?_
  have devices := run_devices ran nofun
  obtain ⟨rfl, -⟩ := run_bindKey ran
  have written := @keys_updateKeys text v (fun id _ => id = key.1)
    (LinuxKey.bind device.1 actor (preregistration.map (·.1)) draw.now) key.1
  rw [present, Option.map_some, if_pos (decide_eq_true rfl)] at written
  rw [answer_updateKeys, present]
  cases preregistration with
  | none => exact safe_return ⟨_, _, order₁, rfl, rfl, rfl, rfl, written, devices⟩
  | some preregistration =>
    refine order₁.within fun draw₁ out₁ w₂ ran₁ order₂ => safe_return ⟨_, _, order₂, rfl, rfl, rfl, rfl, ?_, ?_⟩
    · rw [run_keys ran₁ nofun]
      exact written
    · rw [run_devices ran₁ nofun]
      exact devices

theorem safe_createPullDevice {new : NewDevice} (order : InOrder text t before v w) :
    (call text t).Safe (Rules.Given fun placed w₁ => ∃ v₁, InOrder text t before v₁ w₁ ∧ v₁.keys = v.keys ∧
        v₁.devices[placed.1]? = some placed.2) (Fleet.within (.createPullDevice new)).run w := by
  refine order.last fun draw out w₁ ran order₁ => ?_
  have keys := run_keys ran nofun
  obtain ⟨rfl, -⟩ := run_createPullDevice ran
  exact ⟨_, order₁, keys, Table.getElem?_put_self v.devices _ _⟩

theorem safe_placeDevice {device : Option DeviceRow} {hostname : Text} {serial : Option Text} {body : ApproveBody}
    {assignedUserId : Option Text} (order : InOrder text t before v w) :
    (call text t).Safe (Rules.Given fun placed w₁ => ∃ v₁, InOrder text t before v₁ w₁ ∧ v₁.keys = v.keys ∧
        v₁.devices[placed.1]? = some placed.2) (placeDevice device hostname serial body assignedUserId).run w := by
  unfold placeDevice
  split
  · refine order.within fun draw out w₁ ran order₁ => ?_
    have keys := run_keys ran nofun
    simp only [LinuxStmt.run] at ran
    split at ran
    · cases ran
    cases ran
    split
    case h_1 row returned =>
      rw [answer_updateDevices] at returned
      obtain ⟨d, present, rfl⟩ := Option.map_eq_some_iff.mp returned
      refine safe_return ⟨_, order₁, keys, ?_⟩
      rw [devices_updateDevices, present, Option.map_some, if_pos (decide_eq_true rfl)]
    case h_2 => exact Rules.safe_none
  · exact safe_createPullDevice order

theorem safe_completeApproval {actor : Text} {key : KeyRow} {found : Match}
    {taken : Option (DeviceRow × Option (List Nat))} {body : ApproveBody}
    (order : InOrder text t before v w) (present : v.keys[key.1]? ≠ none) {k : LinuxKey}
    (stored : before.keys[key.1]? = some k) (pending : k.status = .pending) :
    (call text t).Safe (Rules.Given (Reached text t before AdminReply.Accepted (AdminReply.rows (ApprovedRows key.1))))
      (completeApproval text actor key found taken body).run w := by
  unfold completeApproval
  refine order.reads reads_resolveHostnamesForBatch fun resolved w₁ order₁ => ?_
  split
  case h_2 => exact safe_refusal
  case h_3 => exact Rules.safe_none
  refine order₁.reads reads_userKnown fun known w₂ order₂ => ?_
  split
  case isFalse => exact safe_refusal
  refine (safe_placeDevice order₂).bindOption trivial ?_
  rintro placed w₃ - ⟨v₁, order₃, keys, shown⟩
  rw [← keys] at present
  obtain ⟨k₁, present⟩ := Option.ne_none_iff_exists'.mp present
  refine (safe_bindKey order₃ present).bindOption trivial ?_
  rintro _ w₄ - ⟨row, v₂, order₄, rfl, approved, bound, -, written, devices⟩
  refine order₄.audited_ok ?_ fun v₃ keys₃ devices₃ _ => ?_
  · rintro ⟨row₁, same, status, -, here, -⟩
    rw [stored] at here
    cases here
    rw [pending] at status
    cases status
  · refine ⟨row, rfl, approved, bound, ?_, ?_⟩
    · rw [keys₃, written]
    · rw [devices₃, devices, shown]

theorem safe_approvePending {actor : Text} {key : KeyRow} {body : ApproveBody}
    (order : InOrder text t before before w) {k : LinuxKey} (stored : before.keys[key.1]? = some k)
    (pending : k.status = .pending) :
    (call text t).Safe (Rules.Given (Reached text t before AdminReply.Accepted (AdminReply.rows (ApprovedRows key.1))))
      (approvePending text actor key body).run w := by
  have present : before.keys[key.1]? ≠ none := by
    rw [stored]
    exact Option.some_ne_none k
  unfold approvePending
  refine order.reads reads_classifyEnrollment fun found w₁ order₁ => ?_
  split
  · exact safe_refusal
  extract_lets targetId
  split
  · exact safe_refusal
  cases targetId with
  | none => exact safe_completeApproval order₁ present stored pending
  | some targetId =>
    refine (order₁.only (fun v => v.keys[key.1]? ≠ none) givesUp_takeOver present ?_).bindOption trivial ?_
    · exact fun _ _ _ _ _ _ here => applyAll_key here
    rintro taken w₂ - ⟨v₁, order₂, here⟩
    cases taken with
    | error => exact safe_refusal
    | ok taken => exact safe_completeApproval order₂ here stored pending

theorem safe_approveEnrollment {actor : Text} {keyId : Nat} {body : ApproveBody} (idle : w.store.session t = none)
    (audited : w.lostAudits = []) :
    (call text t).Safe (Rules.Given (Settled AdminReply.Accepted (AdminReply.rows (ApprovedRows keyId))))
      (approveEnrollment text actor keyId body) w := by
  unfold approveEnrollment
  refine (safe_transaction (AdminReply.rows (ApprovedRows keyId)) idle audited AdminReply.not_accepted
    fun w₁ order => ?_).bind trivial ?_
  · refine order.read rfl fun draw out w₂ ran order₂ => ?_
    cases ran
    split
    case h_1 => exact safe_refusal
    case h_2 key found =>
      obtain ⟨k, present, rfl⟩ := Option.map_eq_some_iff.mp found
      split
      case isTrue => exact safe_refusal
      case isFalse waiting =>
        have stored : w.store.committed.keys[((keyId, k) : KeyRow).1]? = some k := present
        exact safe_approvePending order₂ stored (not_not.mp waiting)
  · intro result w₁ _ settled
    cases result with
    | some outcome =>
      rintro _ rfl _
      exact settled
    | none =>
      rintro _ rfl _ violated w₂ -
      refine ⟨trivial, trivial, ?_⟩
      cases violated with
      | none => exact Rules.safe_none
      | some name => exact safe_return nofun

/-- Only an enrollment that is approved reports rows. -/
abbrev EnrollReply.Approved (reply : EnrollReply) : Prop := reply.status = .known .approved

/-- The transaction is in order and its keys are those of `v`, or it is spoilt. -/
def KeysKept (text : TextFns) (t : Nat) (before v : LinuxDb) (w : AuditedStore) : Prop :=
  (∃ v₁, InOrder text t before v₁ w ∧ v₁.keys = v.keys) ∨ Spoilt t before w

theorem safe_flooded {byUser : Text} {known : Option KeyRow} (order : InOrder text t before v w) :
    (call text t).Safe (Rules.Given fun full w₁ => full = false → InOrder text t before v w₁)
      (flooded byUser known).run w := by
  unfold flooded
  split
  · exact safe_return fun _ => order
  refine order.read rfl fun draw out w₁ _ order₁ => ?_
  split
  · refine order₁.logAudit (fun _ _ _ _ _ => ?_) fun _ _ => ?_
    · exact safe_return nofun
    · exact safe_return nofun
  · exact safe_return fun _ => order₁

theorem safe_auditMismatch {byUser : Text} {key : KeyRow} (order : InOrder text t before v w) :
    (call text t).Safe (Rules.Given fun _ _ => True) (auditMismatch byUser key).run w := by
  unfold auditMismatch
  refine order.read rfl fun draw out w₁ _ order₁ => ?_
  split
  · exact safe_return trivial
  · rintro _ rfl _ answer w₂ -
    exact ⟨trivial, trivial, safe_return trivial⟩

theorem safe_conflictOf {byUser : Text} {key : KeyRow} {found : Match} {serial : Option Text}
    (order : InOrder text t before v w) :
    (call text t).Safe (Rules.Given fun _ => KeysKept text t before v) (conflictOf text byUser key found serial).run w := by
  unfold conflictOf
  split
  · refine order.reads reads_claimOf fun claim w₁ order₁ => ?_
    dsimp only
    split
    · exact safe_return (.inl ⟨v, order₁, rfl⟩)
    refine order₁.logAudit (fun draw out w₂ ran order₂ => ?_) fun w₂ spoilt => ?_
    · exact safe_return (.inl ⟨_, order₂, run_keys ran nofun⟩)
    · exact safe_return (.inr spoilt)
  · exact safe_return (.inl ⟨v, order, rfl⟩)

theorem safe_approvePreregistered {byUser fingerprint : Text} {serial : Option Text} {pending : KeyRow}
    {preregistration : PreregistrationRow} {retryAfterS : Nat} {k : LinuxKey} (order : InOrder text t before v w)
    (present : v.keys[pending.1]? = some k) (same : k.keyFingerprint = fingerprint)
    (stored : ∀ k₀ : LinuxKey, before.keys[pending.1]? = some k₀ → k₀.status = .pending) :
    (call text t).Safe (Rules.Given (Reached text t before EnrollReply.Approved (EnrolledRows fingerprint)))
      (approvePreregistered text byUser fingerprint serial pending preregistration retryAfterS).run w := by
  unfold approvePreregistered
  refine order.reads reads_resolveHostnamesForBatch fun resolved w₁ order₁ => ?_
  split
  case h_2 => exact safe_unclaimed nofun
  case h_1 =>
    refine (safe_createPullDevice order₁).bindOption trivial ?_
    rintro device w₂ - ⟨v₁, order₂, keys, shown⟩
    rw [← keys] at present
    refine (safe_bindKey order₂ present).bindOption trivial ?_
    rintro _ w₃ - ⟨row, v₂, order₃, rfl, approved, bound, kept, written, devices⟩
    refine order₃.audited_ok ?_ fun v₃ keys₃ devices₃ _ => ?_
    · rintro ⟨key₁, device₁, here, -, -, status, -, found, -⟩
      cases here
      have pending := stored _ found
      rw [status] at pending
      cases pending
    · refine ⟨_, device, rfl, rfl, kept.trans same, approved, bound, ?_, ?_⟩
      · rw [keys₃, written]
      · rw [devices₃, devices, shown]

theorem safe_enrollPending {byUser fingerprint : Text} {serial : Option Text} {key : KeyRow} {retryAfterS : Nat}
    (order : InOrder text t before v w) (present : v.keys[key.1]? = some key.2)
    (same : key.2.keyFingerprint = fingerprint)
    (stored : ∀ k₀ : LinuxKey, before.keys[key.1]? = some k₀ → k₀.status = .pending) :
    (call text t).Safe (Rules.Given (Reached text t before EnrollReply.Approved (EnrolledRows fingerprint)))
      (enrollPending text byUser fingerprint serial key retryAfterS).run w := by
  unfold enrollPending
  refine order.reads reads_classifyEnrollment fun found w₁ order₁ => ?_
  refine (safe_conflictOf order₁).bindOption trivial ?_
  rintro conflict w₂ - (⟨v₁, order₂, keys⟩ | spoilt)
  case inr => exact spoilt.within
  refine order₂.within fun draw out w₃ ran order₃ => ?_
  cases ran
  rw [← keys] at present
  have written := @keys_updateKeys text v₁ (fun id _ => id = key.1) (fun k => { k with conflict := conflict }) key.1
  rw [present, Option.map_some, if_pos (decide_eq_true rfl)] at written
  rw [answer_updateKeys, present]
  dsimp only [Option.map_some]
  split
  · exact safe_approvePreregistered order₃ written same stored
  · exact safe_unclaimed nofun

theorem safe_enrollDevice {input : EnrollInput} (idle : w.store.session t = none) (audited : w.lostAudits = [])
    (pending : PendingKey input.fingerprint w.store.committed) :
    (call text t).Safe (Rules.Given (Settled EnrollReply.Approved (EnrolledRows input.fingerprint)))
      (enrollDevice text input) w := by
  unfold enrollDevice
  refine safe_transaction _ idle audited (fun _ refuses => absurd refuses Bool.false_ne_true) fun w₁ order => ?_
  refine order.read rfl fun draw out w₂ _ order₂ => ?_
  refine (safe_flooded order₂).bindOption trivial fun full w₃ _ free => ?_
  cases full with
  | true => exact safe_unclaimed nofun
  | false =>
    refine (free rfl).within fun draw₁ out₁ w₄ ran order₃ => ?_
    obtain ⟨id, row, rfl, written⟩ := run_upsertKey ran
    have shown := Table.getElem?_put_self w.store.committed.keys id (some row)
    have known : row.keyFingerprint = input.fingerprint ∧ row.status = .pending ∧
        ∀ k₀ : LinuxKey, w.store.committed.keys[id]? = some k₀ → k₀.status = .pending := by
      rcases written with ⟨k, present, same, rfl⟩ | ⟨absent, -, rfl⟩
      · refine ⟨same, pending id k present same, fun k₀ found => ?_⟩
        rw [present] at found
        cases found
        exact pending id k present same
      · refine ⟨rfl, rfl, fun k₀ found => ?_⟩
        rw [absent] at found
        cases found
    obtain ⟨same, waiting, stored⟩ := known
    rintro _ rfl _ now w₅ ⟨_, rfl, rfl⟩
    refine ⟨trivial, trivial, ?_⟩
    dsimp only
    split
    · exact (safe_auditMismatch order₃).bindOption trivial fun _ _ _ _ => safe_unclaimed nofun
    · rw [waiting]
      exact safe_enrollPending order₃ shown same stored

theorem safe_reportBody {deviceId : Nat} {fingerprint : Text} {report : Report}
    (order : InOrder text t before before w) :
    (call text t).Safe (Rules.Given (Reached text t before (fun _ => True) (ReportRows deviceId report)))
      (reportBody deviceId fingerprint report).run w := by
  unfold reportBody
  refine order.read rfl fun draw out w₁ ran order₁ => ?_
  cases ran
  split
  case h_1 => exact Rules.safe_none
  case h_2 device locked =>
    obtain ⟨d, present, -⟩ := Option.map_eq_some_iff.mp (Option.filter_eq_some_iff.mp locked).1
    dsimp only
    refine order₁.within fun draw₁ out₁ w₂ ran₁ order₂ => ?_
    have devices := run_devices ran₁ nofun
    obtain ⟨rfl, fresh⟩ := run_insertReport ran₁
    refine order₂.within fun draw₂ out₂ w₃ ran₂ order₃ => ?_
    have reports := run_reports ran₂ nofun
    cases ran₂
    have written := @devices_updateDevices text ((linuxSchema text).applyAll
      [.report draw₁.fresh (report.row deviceId draw₁.now)] before) (fun id _ => id = deviceId) report.applied deviceId
    rw [devices, present, Option.map_some, if_pos (decide_eq_true rfl)] at written
    have inserted := Table.getElem?_put_self before.reports draw₁.fresh (some (report.row deviceId draw₁.now))
    have fails : ∀ {reply : ReportReply}, reply.id = draw₁.fresh → ¬ReportRows deviceId report reply before := by
      rintro reply same ⟨found, -⟩
      rw [same, fresh] at found
      cases found
    unfold auditTransition
    cases applyTransition device.2.lastApplyStatus report.status with
    | none => exact safe_return fun _ => .inl ⟨_, order₃, reports ▸ inserted, _, written, rfl⟩
    | some transition =>
      refine order₃.audited_ok (fails rfl) fun v₁ _ devices₁ reports₁ => ⟨?_, ?_⟩
      · rw [reports₁, reports]
        exact inserted
      · rw [devices₁]
        exact ⟨_, written, rfl⟩

theorem safe_recordReport {deviceId : Nat} {fingerprint : Text} {report : Report} (idle : w.store.session t = none)
    (audited : w.lostAudits = []) :
    (call text t).Safe (Rules.Given (Settled (fun _ => True) (ReportRows deviceId report)))
      (recordReport deviceId fingerprint report) w := by
  refine safe_begin idle audited fun w₁ order => ?_
  refine (safe_reportBody order).bind trivial fun result w₂ _ reached => ?_
  cases result with
  | none => exact safe_rollback
  | some reply =>
    dsimp only [Rules.Given] at reached
    exact reached.commit

/-- However the statements of a call succeed or fail, what it reports as written is
committed exactly when none of its audits has failed inside the transaction. -/
theorem success_committed {program : Fleet α} {value : α} {rows : LinuxDb → Prop} (idle : w.store.session t = none)
    (audited : w.lostAudits = []) (ends : Rules.Ends (auditedExec text t) program w value w₁)
    (reports : Reports text w.store.committed program value rows) :
    rows w₁.store.committed ↔ w₁.lostAudits = [] := by
  have settled : ∀ {post : α → AuditedStore → Prop}, (call text t).Safe post program w → post value w₁ :=
    fun safe => safe.ends ends trivial
  cases reports with
  | enroll pending approved => exact settled (safe_enrollDevice idle audited pending) approved
  | approve => exact settled (safe_approveEnrollment idle audited) rfl
  | reject => exact settled (safe_rejectEnrollment idle audited) rfl
  | revoke => exact settled (safe_revokeDeviceKey idle audited) rfl
  | report => exact settled (safe_recordReport idle audited) trivial

/-! A pending key, rejected by an admin. -/

def demoText : TextFns := ⟨id, id, id, id, id, id, fun _ => rfl, fun _ => rfl, fun _ => id⟩

def demoPending : LinuxKey :=
  EnrollFacts.insert ⟨"5c".toList, [], .software, some "S1".toList, none, none, none⟩ 0

def demoFleet : LinuxDb := ⟨(∅ : Table _).insert 1 demoPending, ∅, ∅, ∅, ∅, ∅, ∅, ∅⟩

def demoAudit : AuditEntry := ⟨.linux_device_rejected, "admin".toList, none, some 1⟩

/-- The transaction of the rejection, before its audit. -/
def demoRejecting : LinuxStore :=
  (((Store.start demoFleet).openTx 0).write 0 [] [.enrollment]).write 0 [] [.key 1] |>.write 0
    [.key 1 (demoPending.reject "admin".toList 5)] [.key 1]

/-- Every lock is free, or the connection's own. -/
def Mine (t : Nat) (store : LinuxStore) : Prop := ∀ ks, store.Free (some t) ks

theorem Mine.write {store : LinuxStore} (mine : Mine t store) (changes : List LinuxChange) (ks : List LinuxLock) :
    Mine t (store.write t changes ks) := by
  intro ls k member
  by_cases inside : k ∈ ks
  · exact .inr (if_pos inside)
  · exact (mine ls k member).imp (if_neg inside).trans (if_neg inside).trans

theorem ends_within {s : LinuxStmt} {rest : Option s.Ans → Fleet α} {store : LinuxStore} {changes : List LinuxChange}
    (draw : LinuxDraw) {out : LinuxOutcome s.Ans} {value : α} (opened : store.session t = some ⟨changes, false⟩)
    (ran : s.run text draw ((linuxSchema text).view store t) = some out)
    (mine : Mine t store)
    (ends : Rules.Ends (auditedExec text t) (rest (some out.answer))
      ⟨store.write t out.changes ((linuxSchema text).needs out), []⟩ value w₁) :
    Rules.Ends (auditedExec text t) (.op (.sql (.within s)) rest) ⟨store, []⟩ value w₁ := by
  refine .op ⟨_, (Schema.exec_within opened).mpr (.inl ⟨draw, out, ran, mine _, rfl, rfl⟩), rfl⟩ ?_
  have kept : lose (.sql (.within s)) (some out.answer) [] = [] := by
    cases s <;> rfl
  rw [kept]
  exact ends

theorem ends_commit {store : LinuxStore} {changes : List LinuxChange} {value : α}
    (opened : store.session t = some ⟨changes, false⟩) :
    Rules.Ends (auditedExec text t)
      (perform (.sql .commit) >>= fun ok => if ok = true then return some value else rollback) ⟨store, []⟩
      (some value) ⟨((linuxSchema text).publish changes store).close t, []⟩ := by
  have run : auditedExec text t (.sql .commit) ⟨store, []⟩ true
      ⟨((linuxSchema text).publish changes store).close t, []⟩ :=
    ⟨_, (Schema.exec_commit opened).mpr (.inl rfl), rfl⟩
  exact .op run .ret

/-- The rest of the rejection, from its audit on. -/
def demoRest (_ : Option Unit) : Fleet (Option (AdminReply (Option KeyRow))) := do
  if ← perform (.sql .commit) then return some (.ok (some (1, demoPending.reject "admin".toList 5)))
  else rollback

theorem demo_rejecting {value : Option (AdminReply (Option KeyRow))}
    (ends : Rules.Ends (auditedExec demoText 0) (.op (.sql (.within (.insertAudit demoAudit))) demoRest)
      ⟨demoRejecting, []⟩ value w₁) :
    Rules.Ends (auditedExec demoText 0) (rejectEnrollment "admin".toList 1) ⟨.start demoFleet, []⟩ value w₁ := by
  have mine : Mine 0 ((Store.start demoFleet : LinuxStore).openTx 0) := fun _ _ _ => .inl rfl
  refine .op ⟨_, .inl ⟨rfl, rfl⟩, rfl⟩ (ends_within ⟨5, 2, 0⟩ rfl rfl mine ?_)
  refine ends_within ⟨5, 2, 0⟩ rfl rfl (mine.write _ _) ?_
  exact ends_within ⟨5, 2, 0⟩ rfl rfl ((mine.write _ _).write _ _) ends

/-- A rejection whose audit is written. -/
theorem success_committed_reject : ∃ (w₁ : AuditedStore) (reply : Option KeyRow),
    w₁.lostAudits = [] ∧ (RejectedRows 1 reply w₁.store.committed ↔ w₁.lostAudits = []) := by
  have start : Mine 0 ((Store.start demoFleet).openTx 0) := fun _ _ _ => .inl rfl
  have mine : Mine 0 demoRejecting := ((start.write _ _).write _ _).write _ _
  have ends := demo_rejecting (ends_within ⟨5, 2, 0⟩ rfl rfl mine (ends_commit rfl))
  exact ⟨_, _, rfl, success_committed rfl rfl ends .reject⟩

/-- A rejection is reported although its audit fails, which takes the rejection away. -/
theorem success_rolled_back : ¬∀ (text : TextFns) (t : Nat) (α : Type) (program : Fleet α) (value : α)
    (rows : LinuxDb → Prop) (w w₁ : AuditedStore), w.store.session t = none →
      Rules.Ends (auditedExec text t) program w value w₁ → Reports text w.store.committed program value rows →
      rows w₁.store.committed := by
  intro holds
  have lost : auditedExec demoText 0 (.sql (.within (.insertAudit demoAudit))) ⟨demoRejecting, []⟩ none
      ⟨demoRejecting.fail 0, [demoAudit]⟩ := ⟨_, .inr ⟨rfl, rfl⟩, rfl⟩
  have closed : auditedExec demoText 0 (.sql .commit) ⟨demoRejecting.fail 0, [demoAudit]⟩ true
      ⟨(demoRejecting.fail 0).close 0, [demoAudit]⟩ := ⟨_, rfl, rfl⟩
  have ends := demo_rejecting (.op lost (.op closed .ret))
  obtain ⟨key, -, rejected, found⟩ := holds _ _ _ _ _ _ _ _ rfl ends .reject
  cases found
  cases rejected

end Opale.Linux
