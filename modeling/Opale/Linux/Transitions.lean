import Opale.Effects.Threads
import Opale.Linux.Frames
import Opale.Linux.Reports
import Opale.Sql.Log

namespace Opale.Linux

open Sql Fleet

/-- The operations of a call of `recordReport`, and the answer to its caller. -/
inductive ReportOp where
  | linux (o : LinuxOp)
  | answer (report : Report) (reply : Option ReportReply)

abbrev ReportOp.Res : ReportOp → Type
  | .linux o => o.Res
  | .answer .. => Unit

/-- The server with its log, and what the calls have answered. -/
structure ReportWorld where
  db : Logged LinuxDb LinuxChange LinuxLock
  answers : List (Report × ReportReply)

def served {α : Type} : Fleet α → Program ReportOp.Res α
  | .ret value => .ret value
  | .op o rest => .op (.linux o) fun answer => served (rest answer)

def reportCall (deviceId : Nat) (fingerprint : Text) (report : Report) : Program ReportOp.Res Unit := do
  let reply ← served (recordReport deviceId fingerprint report)
  Program.perform (ReportOp.answer report reply)

def reportExec (text : TextFns) (t : Nat) : (o : ReportOp) → ReportWorld → o.Res → ReportWorld → Prop
  | .linux (.sql o), w, answer, w₁ => (linuxSchema text).logged t o w.db answer w₁.db ∧ w₁.answers = w.answers
  | .answer report (some reply), w, _, w₁ => w₁ = ⟨w.db, w.answers ++ [(report, reply)]⟩
  | _, w, _, w₁ => w₁ = w

/-- Any number of calls of `recordReport` at the same time. -/
def reportThreads (text : TextFns) : Threads ReportOp.Res ReportWorld where
  exec := reportExec text
  env _ _ := False
  entry program := ∃ deviceId fingerprint report, program = reportCall deviceId fingerprint report
  drop t w := ⟨⟨w.db.store.close t, w.db.log⟩, w.answers⟩

/-- The INSERT of an audit does not fail. -/
def Audited : Nat → (o : ReportOp) → ReportWorld → o.Res → ReportWorld → Prop
  | _, .linux (.sql (.within (.insertAudit _))), _, answer, _ => answer ≠ none
  | _, _, _, _, _ => True

/-- The device has not reported yet. -/
def Unreported (d : LinuxDevice) : Prop := d.lastApplyStatus = none ∧ d.lastSuccessfulRevision = none

def reportStart (w : ReportWorld) : Prop :=
  ∃ db : LinuxDb, (∀ (id : Nat) (d : LinuxDevice), db.devices[id]? = some d → Unreported d) ∧ w = ⟨⟨.start db, []⟩, []⟩

/-- The report of a device that a change commits. -/
def reportIn (deviceId : Nat) : LinuxChange → Option (Nat × ApplyReport)
  | .report id row => if row.deviceId = deviceId then some (id, row) else none
  | _ => none

/-- The committed reports of a device, in the order of their commits. -/
def reportsOf (deviceId : Nat) (log : List (List LinuxChange)) : List (Nat × ApplyReport) :=
  log.flatten.filterMap (reportIn deviceId)

def lastStatus (reports : List (Nat × ApplyReport)) : Option ApplyStatus := reports.getLast?.map (·.2.status)

/-- The revision of the last report with the status `success`. -/
def lastSuccess (reports : List (Nat × ApplyReport)) : Option Text :=
  (reports.filter (·.2.status = .success)).getLast?.bind (·.2.revision)

/-- The transitions of the reports, one after the other. -/
def transitions (previous : Option ApplyStatus) : List (Nat × ApplyReport) → List ApplyTransition
  | [] => []
  | e :: reports => (applyTransition previous e.2.status).toList ++ transitions (some e.2.status) reports

def ApplyTransition.other : ApplyTransition → ApplyTransition
  | .failed => .recovered
  | .recovered => .failed

/-- Strictly in turn, beginning with `first`. -/
def Alternate (first : ApplyTransition) : List ApplyTransition → Prop
  | [] => True
  | transition :: rest => transition = first ∧ Alternate first.other rest

/-- The call that has answered `reply` to `report` has committed its report, and its transition is that
from the report committed before. -/
def Accounted (log : List (List LinuxChange)) (report : Report) (reply : ReportReply) : Prop :=
  ∃ before after, reportsOf reply.deviceId log =
      before ++ (reply.id, report.row reply.deviceId reply.receivedAt) :: after ∧
    reply.transition = applyTransition (lastStatus before) report.status ∧
    (reply.transition.isSome ↔ isFailing report.status ≠ (lastStatus before).any isFailing)

/-- The reports act one after the other, in the order of their commits. -/
structure SerialReports (w : ReportWorld) : Prop where
  alternate : ∀ deviceId, Alternate .failed (transitions none (reportsOf deviceId w.db.log))
  answered : ∀ e ∈ w.answers, Accounted w.db.log e.1 e.2
  revision : ∀ (deviceId : Nat) (d : LinuxDevice), w.db.store.committed.devices[deviceId]? = some d →
    d.lastSuccessfulRevision = lastSuccess (reportsOf deviceId w.db.log)

variable {text : TextFns} {t u deviceId : Nat} {w w₁ w₂ : ReportWorld} {log : List (List LinuxChange)}
variable {fingerprint : Text} {report : Report} {reply : ReportReply} {device : LinuxDevice}

theorem applyTransition_eq (previous : Option ApplyStatus) (status : ApplyStatus) :
    applyTransition previous status = if isFailing status = previous.any isFailing then none
      else some (if isFailing status then .failed else .recovered) := by
  unfold applyTransition
  cases isFailing status <;> cases previous.any isFailing <;> rfl

theorem alternate_transitions (previous : Option ApplyStatus) (reports : List (Nat × ApplyReport)) :
    Alternate (if previous.any isFailing then .recovered else .failed) (transitions previous reports) := by
  induction reports generalizing previous with
  | nil => trivial
  | cons e reports ih =>
    have later := ih (some e.2.status)
    unfold transitions
    rw [applyTransition_eq]
    rw [Option.any_some] at later
    cases now : isFailing e.2.status <;> cases before : previous.any isFailing <;> rw [now] at later
    case true.true => exact later
    case false.false => exact later
    case true.false => exact ⟨rfl, later⟩
    case false.true => exact ⟨rfl, later⟩

theorem reportsOf_append (deviceId : Nat) (log more : List (List LinuxChange)) :
    reportsOf deviceId (log ++ more) = reportsOf deviceId log ++ reportsOf deviceId more := by
  unfold reportsOf
  rw [List.flatten_append, List.filterMap_append]

theorem lastStatus_append (reports : List (Nat × ApplyReport)) (e : Nat × ApplyReport) :
    lastStatus (reports ++ [e]) = some e.2.status := by
  unfold lastStatus
  rw [List.getLast?_append_of_ne_nil _ (List.cons_ne_nil e [])]
  rfl

theorem lastSuccess_append (reports : List (Nat × ApplyReport)) (e : Nat × ApplyReport) :
    lastSuccess (reports ++ [e]) = if e.2.status = .success then e.2.revision else lastSuccess reports := by
  unfold lastSuccess
  rw [List.filter_append, List.filter_singleton]
  split
  case isTrue success =>
    rw [decide_eq_true success]
    exact congrArg (Option.bind · _) (List.getLast?_append_of_ne_nil _ (List.cons_ne_nil e []))
  case isFalse other =>
    rw [decide_eq_false other]
    exact congrArg (fun reports => (List.getLast? reports).bind _) (List.append_nil _)

theorem Accounted.grows (accounted : Accounted log report reply) (more : List (List LinuxChange)) :
    Accounted (log ++ more) report reply := by
  obtain ⟨before, after, reports, transition⟩ := accounted
  refine ⟨before, after ++ reportsOf reply.deviceId more, ?_, transition⟩
  rw [reportsOf_append, reports, List.append_assoc, List.cons_append]

theorem applyAll_device {cs : List LinuxChange} (outside : ∀ c ∈ cs, LinuxLock.device deviceId ∉ (linuxSchema text).locks c)
    (db : LinuxDb) : ((linuxSchema text).applyAll cs db).devices[deviceId]? = db.devices[deviceId]? := by
  induction cs generalizing db with
  | nil => rfl
  | cons c cs ih =>
    refine (ih (fun d member => outside d (List.mem_cons_of_mem c member)) _).trans ?_
    have here := outside c List.mem_cons_self
    have apart : ∀ {id : Nat}, c.lock = .device id → deviceId ≠ id := by
      rintro id same rfl
      exact here (same ▸ List.mem_cons_self)
    cases c with
    | device id row => exact Table.getElem?_put_of_ne _ (apart rfl) _
    | touchDevice id touch => exact Table.getElem?_put_of_ne _ (apart rfl) _
    | _ => rfl

/-- A commit that holds a report also writes its device. -/
def Paired (batch : List LinuxChange) : Prop :=
  ∀ id row, .report id row ∈ batch → ∃ device, .device row.deviceId device ∈ batch

/-- The columns of a device that its reports fix. -/
def Settles (log : List (List LinuxChange)) (db : LinuxDb) : Prop :=
  ∀ (id : Nat) (d : LinuxDevice), db.devices[id]? = some d →
    d.lastApplyStatus = lastStatus (reportsOf id log) ∧ d.lastSuccessfulRevision = lastSuccess (reportsOf id log)

/-- Nobody reports for a device while `t` has locked it. -/
theorem reportsOf_grows (grows : (linuxSchema text).Grows Paired t w.db w₁.db)
    (owns : w.db.store.owner (.device deviceId) = some t) :
    reportsOf deviceId w₁.db.log = reportsOf deviceId w.db.log ∧
      w₁.db.store.committed.devices[deviceId]? = w.db.store.committed.devices[deviceId]? := by
  obtain ⟨-, -, batches, allowed, log, committed⟩ := grows
  have unlocked : ∀ c ∈ batches.flatten, LinuxLock.device deviceId ∉ (linuxSchema text).locks c := by
    intro c member needed
    obtain ⟨batch, inside, here⟩ := List.mem_flatten.mp member
    exact (allowed batch inside).2 c here _ needed owns
  have nothing : reportsOf deviceId batches = [] := by
    refine List.filterMap_eq_nil_iff.mpr fun c member => ?_
    cases c with
    | report id row =>
      refine if_neg fun same => ?_
      obtain ⟨batch, inside, here⟩ := List.mem_flatten.mp member
      obtain ⟨device, written⟩ := (allowed batch inside).1 id row here
      refine unlocked _ (List.mem_flatten.mpr ⟨batch, inside, written⟩) ?_
      rw [← same]
      exact List.mem_cons_self
    | _ => rfl
  refine ⟨?_, ?_⟩
  · rw [log, reportsOf_append, nothing, List.append_nil]
  · rw [committed]
    exact applyAll_device unlocked _

/-- The calls of `recordReport` with what they rely on. -/
def reportTeam (text : TextFns) : Threads.Team ReportOp.Res ReportWorld where
  exec t o w answer w₁ := reportExec text t o w answer w₁ ∧ Audited t o w answer w₁
  inv w := (linuxSchema text).Locked w.db.store ∧ Settles w.db.log w.db.store.committed ∧
    ∀ e ∈ w.answers, Accounted w.db.log e.1 e.2
  rely t w w₁ := (linuxSchema text).Grows Paired t w.db w₁.db
  guarantee _ _ _ _ _ := True
  idle t w := w.db.store.session t = none
  rely_refl t w := .refl Paired t w.db
  rely_trans _ := .trans

/-- The call holds the lock of its device, and has written these changes. -/
structure Holding (t deviceId : Nat) (device : LinuxDevice) (changes : List LinuxChange) (w : ReportWorld) : Prop where
  opened : w.db.store.session t = some ⟨changes, false⟩
  owns : w.db.store.owner (.device deviceId) = some t
  stored : w.db.store.committed.devices[deviceId]? = some device

theorem Holding.grows {changes : List LinuxChange} (holding : Holding t deviceId device changes w)
    (grows : (linuxSchema text).Grows Paired t w.db w₁.db) : Holding t deviceId device changes w₁ where
  opened := grows.session.trans holding.opened
  owns := grows.owner _ holding.owns
  stored := (reportsOf_grows grows holding.owns).2.trans holding.stored

theorem Holding.write {changes : List LinuxChange} (holding : Holding t deviceId device changes w)
    (new : List LinuxChange) (ks : List LinuxLock) :
    Holding t deviceId device (changes ++ new) ⟨⟨w.db.store.write t new ks, w.db.log⟩, w.answers⟩ where
  opened := Schema.session_write holding.opened
  owns := Schema.owner_write (.inl holding.owns)
  stored := holding.stored

/-- What a report and its device become, before the audit. -/
def written (report : Report) (reply : ReportReply) (device : LinuxDevice) : List LinuxChange :=
  [.report reply.id (report.row reply.deviceId reply.receivedAt), .device reply.deviceId (report.applied device)]

/-- What a call is about to commit. -/
def Ready (t : Nat) (report : Report) (reply : ReportReply) (w : ReportWorld) : Prop :=
  ∃ device audits, Holding t reply.deviceId device (written report reply device ++ audits) w ∧
    (∀ c ∈ audits, ∃ id row, c = .audit id row) ∧ reply.transition = applyTransition device.lastApplyStatus report.status

theorem Ready.grows (ready : Ready t report reply w) (grows : (linuxSchema text).Grows Paired t w.db w₁.db) :
    Ready t report reply w₁ := by
  obtain ⟨device, audits, holding, rest⟩ := ready
  exact ⟨device, audits, holding.grows grows, rest⟩

abbrev reportRules (text : TextFns) (t : Nat) : Rules ReportOp.Res ReportWorld := (reportTeam text).rules t

theorem served_bind {α β : Type} (program : Fleet α) (next : α → Fleet β) :
    served (program.bind next) = (served program).bind fun value => served (next value) := by
  induction program with
  | ret value => rfl
  | op o rest ih => exact congrArg (Program.op _) (funext fun answer => ih answer)

/-- An operation of the transaction that commits nothing. -/
theorem inside_kept {o : SqlOp LinuxStmt} {answer : o.Res LinuxStmt.Ans} (inside : Schema.Inside o)
    (kept : (reportTeam text).inv w) (run : reportExec text t (.linux (.sql o)) w answer w₁) :
    (reportTeam text).inv w₁ ∧ (∀ u, u ≠ t → (reportTeam text).rely u w w₁) ∧
      (linuxSchema text).exec t o w.db.store answer w₁.db.store ∧ w₁.db.log = w.db.log := by
  obtain ⟨run, answers⟩ := run
  have ran := Schema.logged_exec run
  have log : w₁.db.log = w.db.log := by
    cases o with
    | query => exact inside.elim
    | commit => exact inside.elim
    | _ => exact run.2
  obtain ⟨same, locked, -⟩ := Schema.exec_inside (P := fun _ => True) inside kept.1 ran
  refine ⟨⟨locked, ?_, ?_⟩, fun u other => Schema.grows_inside inside kept.1 ran log other, ran, log⟩
  · rw [same, log]
    exact kept.2.1
  · rw [answers, log]
    exact kept.2.2

section

variable {α : Type} {post : Option α → ReportWorld → Prop} {changes : List LinuxChange}

theorem safe_within {s : LinuxStmt} {next : s.Ans → Tx α} (opened : w.db.store.session t = some ⟨changes, false⟩)
    (gives : ∀ w, post none w) (goes : ∀ (w₁ : ReportWorld) draw out, (linuxSchema text).Grows Paired t w.db w₁.db →
      s.run text draw ((linuxSchema text).view w₁.db.store t) = some out →
      (reportRules text t).Safe post (served (next out.answer).run)
        ⟨⟨w₁.db.store.write t out.changes ((linuxSchema text).needs out), w₁.db.log⟩, w₁.answers⟩) :
    (reportRules text t).Safe post (served (Fleet.within s >>= next).run) w := by
  intro w₁ grows kept answer w₂ ran
  obtain ⟨kept₂, others, run, log⟩ := inside_kept (o := .within s) trivial kept ran.1
  refine ⟨kept₂, ⟨others, trivial⟩, ?_⟩
  obtain ⟨draw, out, executed, -, rfl, store⟩ | ⟨rfl, -⟩ := (Schema.exec_within (grows.session.trans opened)).mp run
  · have same : w₂ = ⟨⟨w₁.db.store.write t out.changes ((linuxSchema text).needs out), w₁.db.log⟩, w₁.answers⟩ := by
      obtain ⟨⟨store₂, log₂⟩, answers₂⟩ := w₂
      cases store
      cases log
      cases ran.1.2
      rfl
    rw [same]
    exact goes w₁ draw out grows executed
  · exact fun w₃ _ _ => gives w₃

/-- The audit of a transition, which does not fail. -/
theorem safe_audit {transition : Option ApplyTransition} {next : Unit → Tx α}
    (opened : w.db.store.session t = some ⟨changes, false⟩)
    (goes : ∀ (w₁ : ReportWorld) (store₂ : LinuxStore) audits, (linuxSchema text).Grows Paired t w.db w₁.db →
      (∀ c ∈ audits, ∃ id row, c = .audit id row) →
      store₂.session t = some ⟨changes ++ audits, false⟩ → store₂.committed = w₁.db.store.committed →
      (∀ k, w₁.db.store.owner k = some t → store₂.owner k = some t) →
      (reportRules text t).Safe post (served (next ()).run) ⟨⟨store₂, w₁.db.log⟩, w₁.answers⟩) :
    (reportRules text t).Safe post (served (auditTransition deviceId fingerprint transition >>= next).run) w := by
  cases transition with
  | none =>
    have here := goes w w.db.store [] (.refl Paired t w.db) (fun _ member => absurd member List.not_mem_nil)
    rw [List.append_nil] at here
    exact here opened rfl fun _ owns => owns
  | some transition =>
    intro w₁ grows kept answer w₂ ran
    obtain ⟨kept₂, others, run, log⟩ := inside_kept (o := .within _) trivial kept ran.1
    refine ⟨kept₂, ⟨others, trivial⟩, ?_⟩
    obtain ⟨draw, out, executed, free, rfl, store⟩ | ⟨rfl, -⟩ := (Schema.exec_within (grows.session.trans opened)).mp run
    · have same : w₂ = ⟨⟨w₁.db.store.write t out.changes ((linuxSchema text).needs out), w₁.db.log⟩, w₁.answers⟩ := by
        obtain ⟨⟨store₂, log₂⟩, answers₂⟩ := w₂
        cases store
        cases log
        cases ran.1.2
        rfl
      rw [same]
      refine goes w₁ _ out.changes grows ?_ (Schema.session_write (grows.session.trans opened)) rfl fun k owns => Schema.owner_write (.inl owns)
      have executed : (if ((linuxSchema text).view w₁.db.store t).audits.contains draw.fresh then none
          else some ⟨(), [.audit draw.fresh _], []⟩) = some out := executed
      split at executed
      · cases executed
      · cases executed
        intro c member
        rw [List.mem_singleton] at member
        exact ⟨_, _, member⟩
    · exact absurd rfl ran.2

end

theorem safe_report_rollback {β : Type} {post : Option β → ReportWorld → Prop}
    (gives : ∀ w, w.db.store.session t = none → post none w) :
    (reportRules text t).Safe post (served (Fleet.rollback : Fleet (Option β))) w := by
  intro w₁ grows kept answer w₂ ran
  obtain ⟨kept₂, others, run, log⟩ := inside_kept (o := .rollback) trivial kept ran.1
  refine ⟨kept₂, ⟨others, trivial⟩, fun w₃ grows₃ _ => gives w₃ ?_⟩
  have closed : w₂.db.store = w₁.db.store.close t := run
  rw [grows₃.session, closed]
  exact Schema.session_close

theorem run_pullDevice {draw : LinuxDraw} {db : LinuxDb} {out : LinuxOutcome (Option DeviceRow)}
    (ran : (LinuxStmt.pullDeviceForUpdate deviceId).run text draw db = some out) : out.answer = none ∨
      ∃ device, db.devices[deviceId]? = some device ∧ out = ⟨some (deviceId, device), [], [.device deviceId]⟩ := by
  cases ran
  generalize found : (findRow db.devices deviceId).filter _ = read
  cases read with
  | none => exact .inl rfl
  | some row =>
    obtain ⟨device, stored, rfl⟩ := Option.map_eq_some_iff.mp (Option.filter_eq_some_iff.mp found).1
    exact .inr ⟨device, stored, rfl⟩

theorem run_recordApply {draw : LinuxDraw} {db : LinuxDb} {out : LinuxOutcome Unit}
    (ran : (LinuxStmt.recordApply deviceId report).run text draw db = some out)
    (stored : db.devices[deviceId]? = some device) :
    out = ⟨(), [.device deviceId (report.applied device)], []⟩ := by
  have changes : (updateDevices db (fun id _ => id = deviceId) report.applied).changes =
      [.device deviceId (report.applied device)] := by
    unfold updateDevices
    rw [Table.update_key, stored]
    rfl
  cases ran
  rw [changes]
  rfl

/-- The statements of a report, under the lock of its device. -/
theorem safe_reportStatements (opened : w.db.store.session t = some ⟨[], false⟩) :
    (reportRules text t).Safe (fun result w => ∀ reply, result = some reply → Ready t report reply w)
      (served (reportBody deviceId fingerprint report).run) w := by
  have gives : ∀ w, ∀ reply, none = some reply → Ready t report reply w := fun _ _ => nofun
  unfold reportBody
  refine safe_within opened gives fun w₁ draw out grows ran => ?_
  have opened₁ := grows.session.trans opened
  rw [Schema.view_of_session opened₁, Schema.applyAll_nil] at ran
  rcases run_pullDevice ran with nothing | ⟨device, stored, rfl⟩
  · rw [nothing]
    exact fun w₂ _ _ => gives w₂
  have locked : Holding t deviceId device [] ⟨⟨w₁.db.store.write t [] [.device deviceId], w₁.db.log⟩, w₁.answers⟩ :=
    ⟨Schema.session_write opened₁, Schema.owner_write (.inr List.mem_cons_self), stored⟩
  refine safe_within locked.opened gives fun w₂ draw₂ out₂ grows₂ ran₂ => ?_
  obtain ⟨rfl, -⟩ := run_insertReport ran₂
  refine safe_within ((locked.grows grows₂).write _ _).opened gives fun w₃ draw₃ out₃ grows₃ ran₃ => ?_
  have inserted := ((locked.grows grows₂).write _ _).grows grows₃
  rw [Schema.view_of_session inserted.opened] at ran₃
  obtain rfl := run_recordApply ran₃ inserted.stored
  refine safe_audit (inserted.write _ _).opened fun w₄ store₄ audits grows₄ only opened₄ same owner => ?_
  have recorded := (inserted.write _ _).grows grows₄
  have stored₄ : store₄.committed.devices[deviceId]? = some device := by
    rw [same]
    exact recorded.stored
  intro w₅ grows₅ _ reply answered
  cases answered
  exact Ready.grows ⟨device, audits, ⟨opened₄, owner _ recorded.owns, stored₄⟩, only, rfl⟩ grows₅

theorem reportsOf_written {audits : List LinuxChange} (only : ∀ c ∈ audits, ∃ id row, c = .audit id row) (id : Nat) :
    reportsOf id [written report reply device ++ audits] =
      if id = reply.deviceId then [(reply.id, report.row reply.deviceId reply.receivedAt)] else [] := by
  have none_ : audits.filterMap (reportIn id) = [] := by
    refine List.filterMap_eq_nil_iff.mpr fun c member => ?_
    obtain ⟨_, _, rfl⟩ := only c member
    rfl
  unfold reportsOf written
  rw [List.flatten_singleton, List.filterMap_append, none_, List.append_nil]
  by_cases same : id = reply.deviceId
  · subst same
    rw [if_pos rfl]
    exact List.filterMap_cons_some (if_pos rfl)
  · rw [if_neg same]
    exact List.filterMap_cons_none (if_neg fun here => same here.symm)

theorem devices_written {audits : List LinuxChange} (only : ∀ c ∈ audits, ∃ id row, c = .audit id row) (db : LinuxDb) :
    ((linuxSchema text).applyAll (written report reply device ++ audits) db).devices =
      db.devices.put reply.deviceId (some (report.applied device)) := by
  have audited : ∀ db : LinuxDb, ((linuxSchema text).applyAll audits db).devices = db.devices := by
    induction audits with
    | nil => exact fun _ => rfl
    | cons c audits ih =>
      obtain ⟨id, row, rfl⟩ := only c List.mem_cons_self
      exact fun db => (ih (fun d member => only d (List.mem_cons_of_mem _ member)) _).trans rfl
  rw [Schema.applyAll_append, audited]
  rfl

/-- The commit of a report extends the reports of its device. -/
theorem Settles.commit {audits : List LinuxChange} {db : LinuxDb} (settles : Settles log db)
    (stored : db.devices[reply.deviceId]? = some device) (only : ∀ c ∈ audits, ∃ id row, c = .audit id row) :
    Settles (log ++ [written report reply device ++ audits])
      ((linuxSchema text).applyAll (written report reply device ++ audits) db) := by
  intro id d found
  rw [devices_written only] at found
  rw [reportsOf_append, reportsOf_written only]
  by_cases same : id = reply.deviceId
  · subst same
    rw [Table.getElem?_put_self] at found
    cases found
    rw [if_pos rfl, lastStatus_append, lastSuccess_append, ← (settles _ device stored).2]
    exact ⟨rfl, rfl⟩
  · rw [Table.getElem?_put_of_ne _ same] at found
    rw [if_neg same, List.append_nil]
    exact settles id d found

theorem accounted_commit {audits : List LinuxChange} {db : LinuxDb} (settles : Settles log db)
    (stored : db.devices[reply.deviceId]? = some device) (only : ∀ c ∈ audits, ∃ id row, c = .audit id row)
    (transition : reply.transition = applyTransition device.lastApplyStatus report.status) :
    Accounted (log ++ [written report reply device ++ audits]) report reply := by
  rw [(settles _ device stored).1] at transition
  refine ⟨reportsOf reply.deviceId log, [], ?_, transition, ?_⟩
  · rw [reportsOf_append, reportsOf_written only, if_pos rfl]
  · rw [transition, applyTransition_eq]
    split
    case isTrue same => exact iff_of_false Bool.false_ne_true fun differ => differ same
    case isFalse differ => exact iff_of_true rfl differ

theorem paired_written {audits : List LinuxChange} (only : ∀ c ∈ audits, ∃ id row, c = .audit id row) :
    Paired (written report reply device ++ audits) := by
  intro id row member
  rcases List.mem_append.mp member with here | there
  · rcases List.mem_cons.mp here with same | later
    · cases same
      exact ⟨report.applied device, List.mem_append_left _ (List.mem_cons_of_mem _ List.mem_cons_self)⟩
    · cases List.mem_singleton.mp later
  · obtain ⟨_, _, same⟩ := only _ there
    cases same

/-- What a call leaves when its program is over. -/
def Over (t : Nat) (report : Report) (result : Option ReportReply) (w : ReportWorld) : Prop :=
  w.db.store.session t = none ∧ ∀ reply, result = some reply → Accounted w.db.log report reply

theorem Over.grows {result : Option ReportReply} (ended : Over t report result w)
    (grows : (linuxSchema text).Grows Paired t w.db w₁.db) : Over t report result w₁ := by
  refine ⟨grows.session.trans ended.1, fun reply answered => ?_⟩
  obtain ⟨batches, -, log, -⟩ := grows.log
  rw [log]
  exact (ended.2 reply answered).grows batches

theorem safe_gives_up : (reportRules text t).Safe (Over t report) (served Fleet.rollback) w :=
  safe_report_rollback fun _ closed => ⟨closed, fun _ => nofun⟩

theorem safe_commit (ready : Ready t report reply w) :
    (reportRules text t).Safe (Over t report)
      (served do if ← perform (.sql .commit) then return some reply else Fleet.rollback) w := by
  intro w₁ grows kept ok w₂ ran
  obtain ⟨device, audits, holding, only, transition⟩ := ready.grows grows
  obtain ⟨⟨run, answers⟩, -⟩ := ran
  have batches : ∀ batch, w₂.db.log = w₁.db.log ++ [batch] → Paired batch := by
    intro batch log
    rcases (Schema.logged_commit holding.opened).mp run with same | ⟨-, same⟩
    · rw [same] at log
      have here := List.append_cancel_left log
      cases here
      exact paired_written only
    · rw [same] at log
      exact absurd (List.append_right_eq_self.mp log.symm) (List.cons_ne_nil _ _)
  have others : ∀ u, u ≠ t → (reportTeam text).rely u w₁ w₂ := fun u other => Schema.grows_logged kept.1 run batches other
  have locked := (Schema.exec_moves kept.1 (Schema.logged_exec run)).1
  rcases (Schema.logged_commit holding.opened).mp run with same | ⟨rfl, same⟩
  · have accounted := accounted_commit kept.2.1 holding.stored only transition
    have kept₂ : (reportTeam text).inv w₂ := by
      refine ⟨locked, ?_, ?_⟩
      · rw [same]
        exact kept.2.1.commit holding.stored only
      · rw [same, answers]
        exact fun e member => (kept.2.2 e member).grows _
    refine ⟨kept₂, ⟨others, trivial⟩, ?_⟩
    cases ok with
    | false => exact safe_gives_up
    | true =>
      have ended : Over t report (some reply) w₂ := by
        unfold Over
        rw [same]
        refine ⟨Schema.session_close, fun other answered => ?_⟩
        cases answered
        exact accounted
      exact fun w₃ grows₃ _ => ended.grows grows₃
  · have kept₂ : (reportTeam text).inv w₂ := by
      refine ⟨locked, ?_, ?_⟩
      · rw [same]
        exact kept.2.1
      · rw [same, answers]
        exact kept.2.2
    exact ⟨kept₂, ⟨others, trivial⟩, safe_gives_up⟩

theorem safe_serial (idle : w.db.store.session t = none) :
    (reportRules text t).Safe (Over t report) (served (recordReport deviceId fingerprint report)) w := by
  intro w₁ grows kept₁ begun w₂ ran
  obtain ⟨kept₂, others, run, -⟩ := inside_kept (o := .begin) trivial kept₁ ran.1
  refine ⟨kept₂, ⟨others, trivial⟩, ?_⟩
  rcases run with ⟨rfl, opened⟩ | ⟨rfl, -⟩
  · have here : w₂.db.store.session t = some ⟨[], false⟩ := by
      rw [opened]
      exact Schema.session_openTx (grows.session.trans idle)
    change (reportRules text t).Safe (Over t report) (served ((reportBody deviceId fingerprint report).run.bind _)) w₂
    rw [served_bind]
    refine (safe_reportStatements here).bind kept₂ fun result w₃ kept₃ ready => ?_
    cases result with
    | none => exact safe_gives_up
    | some reply => exact safe_commit (ready reply rfl)
  · exact safe_gives_up

theorem safe_reportCall (idle : w.db.store.session t = none) (kept : (reportTeam text).inv w) :
    (reportTeam text).Safe t (reportCall deviceId fingerprint report) w := by
  refine (safe_serial idle).bind kept fun result w₁ kept₁ ended => ?_
  intro w₂ grows kept₂ _ w₃ ran
  have ended₂ := ended.grows grows
  have still : w₃.db = w₂.db := by
    cases result with
    | none => cases ran.1; rfl
    | some reply => cases ran.1; rfl
  have answers : ∀ e ∈ w₃.answers, Accounted w₃.db.log e.1 e.2 := by
    rw [still]
    cases result with
    | none =>
      cases ran.1
      exact kept₂.2.2
    | some reply =>
      cases ran.1
      intro e member
      rcases List.mem_append.mp member with old | new
      · exact kept₂.2.2 e old
      · rw [List.mem_singleton] at new
        subst new
        exact ended₂.2 reply rfl
  refine ⟨⟨still ▸ kept₂.1, still ▸ kept₂.2.1, answers⟩, ⟨fun u _ => ?_, trivial⟩, fun w₄ grows₄ _ => ?_⟩
  · change (linuxSchema text).Grows Paired u w₂.db w₃.db
    rw [still]
    exact .refl Paired u w₂.db
  · refine grows₄.session.trans ?_
    rw [still]
    exact ended₂.1

/-- However the calls interleave and fail, their reports act one after the other. -/
theorem transitions_serial {c : Threads.Config ReportOp.Res ReportWorld}
    (reach : ((reportThreads text).restrict Audited).Reach reportStart c) : SerialReports c.world := by
  have verified : ((reportThreads text).restrict Audited).Verified (reportTeam text) := by
    refine ⟨fun run => run, fun _ moves => absurd moves id, ?_, fun {t w} kept => ?_⟩
    · rintro program t w ⟨deviceId, fingerprint, report, rfl⟩ kept idle
      exact safe_reportCall idle kept
    · refine ⟨⟨kept.1.close t, kept.2⟩, fun w₁ grows _ => grows.session.trans Schema.session_close, fun u other => ?_⟩
      exact .of_moves (Schema.moves_close other) rfl
  have kept := reach.inv verified fun w begun => by
    obtain ⟨db, unreported, rfl⟩ := begun
    refine ⟨⟨Schema.locked_start db, unreported, fun _ member => absurd member List.not_mem_nil⟩, fun t w₁ grows _ => ?_⟩
    exact grows.session.trans rfl
  exact ⟨fun deviceId => alternate_transitions none _, kept.2.2, fun deviceId d found => (kept.2.1 deviceId d found).2⟩

/-! One device, and the report of a run that failed. -/

def plainText : TextFns :=
  ⟨fun t => t, fun t => t, fun t => t, fun t => t, fun t => t, fun t => t, fun _ => rfl, fun _ => rfl, fun _ => id⟩

def pulled : LinuxDevice := NewDevice.row ⟨"pc".toList, none, "desk".toList, .stable, none⟩

def pulledFleet : LinuxDb := ⟨∅, (∅ : Table _).insert 1 pulled, ∅, ∅, ∅, ∅, ∅, ∅⟩

def failure : Report := ⟨some "abc".toList, .failed, some 1, some 2, some "disk full".toList, none, none⟩

def failureReply : ReportReply := ⟨7, 9, some .failed, 1, "pc".toList, some "abc".toList, some "disk full".toList⟩

theorem transitions_serial_failed : ∃ c : Threads.Config ReportOp.Res ReportWorld,
    c.world.answers = [(failure, failureReply)] ∧ SerialReports c.world := by
  have begun : reportStart ⟨⟨.start pulledFleet, []⟩, []⟩ := by
    refine ⟨pulledFleet, fun id d found => ?_, rfl⟩
    by_cases same : id = 1
    · subst same
      cases (Table.getElem?_insert_self _ _ _).symm.trans found
      exact ⟨rfl, rfl⟩
    · cases (Table.getElem?_insert_of_ne _ same _).symm.trans found
  have r : ((reportThreads plainText).restrict Audited).Reach reportStart _ := .init begun
  have r := r.begins 0 _ rfl ⟨1, "5c".toList, failure, rfl⟩
  have r := r.perform 0 rfl true ⟨⟨_, _⟩, _⟩ ⟨⟨⟨.inl ⟨rfl, rfl⟩, rfl⟩, rfl⟩, trivial⟩
  have opened : ∀ ks, ((Store.start pulledFleet : LinuxStore).openTx 0).Free (some 0) ks := fun _ _ _ => .inl rfl
  have r := r.perform 0 rfl (some (some (1, pulled))) ⟨⟨_, _⟩, _⟩
    ⟨⟨⟨.inl ⟨⟨9, 7, 0⟩, _, rfl, fun _ _ => .inl rfl, rfl, rfl⟩, rfl⟩, rfl⟩, trivial⟩
  have locked := Schema.free_write (t := 0) opened [] [.device 1]
  have r := r.perform 0 rfl (some (7, 9)) ⟨⟨_, _⟩, _⟩
    ⟨⟨⟨.inl ⟨⟨9, 7, 0⟩, _, rfl, locked _, rfl, rfl⟩, rfl⟩, rfl⟩, trivial⟩
  have inserted := Schema.free_write locked [.report 7 (failure.row 1 9)] [.report 7]
  have r := r.perform 0 rfl (some ()) ⟨⟨_, _⟩, _⟩
    ⟨⟨⟨.inl ⟨⟨9, 7, 0⟩, _, rfl, inserted _, rfl, rfl⟩, rfl⟩, rfl⟩, trivial⟩
  have r := r.perform 0 rfl (some ()) ⟨⟨_, _⟩, _⟩
    ⟨⟨⟨.inl ⟨⟨9, 7, 0⟩, _, rfl, Schema.free_write inserted _ _ _, rfl, rfl⟩, rfl⟩, rfl⟩, nofun⟩
  have r := r.perform 0 rfl true ⟨⟨_, _⟩, _⟩ ⟨⟨.inl rfl, rfl⟩, trivial⟩
  have r := r.perform 0 rfl () _ ⟨rfl, trivial⟩
  exact ⟨_, rfl, transitions_serial r⟩

end Opale.Linux
