import Opale.Inventory.Deployments
import Opale.Effects.Threads
import Mathlib.Data.List.Nodup

namespace Opale.Inventory

open Sql Deploying

/-- A status that a step has changed, with the start of the attempt after it. -/
structure Transition where
  id : Nat
  before : DeploymentStatus
  after : DeploymentStatus
  startedAt : Option Nat
  deriving DecidableEq

/-- A result that the UPDATE applied, with the row it has found. -/
structure AppliedResult where
  deploymentId : Nat
  claimToken : Option String
  before : Deployment
  deriving DecidableEq

/-- The database and its history: every change of a status, every response sent by a
check-in, every result that has changed a deployment. -/
structure InventoryWorld where
  store : Store InventoryDb InventoryChange InventoryLock
  log : List Transition
  responses : List CheckinResponse
  results : List AppliedResult

/-- The statuses that differ between two states of the table. -/
def observe (before after : InventoryDb) : List Transition :=
  before.deployments.toList.filterMap fun (id, row) =>
    match after.deployments[id]? with
    | some row₁ => if row.status = row₁.status then none else some ⟨id, row.status, row₁.status, row₁.startedAt⟩
    | none => none

/-- The attempt that a transition from 'pending' to 'running' starts: the deployment and
its claim token. -/
def Transition.attempt (change : Transition) : Option (Nat × String) :=
  if change.before = .pending ∧ change.after = .running then
    change.startedAt.map fun startedAt => (change.id, claimTokenSql startedAt)
  else none

def AppliedResult.attempt (r : AppliedResult) : Option (Nat × String) :=
  r.before.startedAt.map fun startedAt => (r.deploymentId, claimTokenSql startedAt)

/-- The attempts started, in their order. -/
def InventoryWorld.attempts (w : InventoryWorld) : List (Nat × String) := w.log.filterMap Transition.attempt

/-- The deployments of all responses, with their tokens. -/
def InventoryWorld.delivered (w : InventoryWorld) : List (Nat × String) :=
  w.responses.flatMap fun response => response.deployments.map fun d => (d.deploymentId, d.claimToken)

/-- The result that a statement has applied. -/
def applied (db : InventoryDb) : (o : SqlOp InventoryStmt) → o.Res InventoryStmt.Ans → List AppliedResult
  | .query (.applyResult _ _ _ deploymentId claimToken), some (some _) =>
    match db.deployments[deploymentId]? with
    | some row => [⟨deploymentId, claimToken, row⟩]
    | none => []
  | _, _ => []

/-- The claims of a deployment have different `started_at`. -/
def StartedApart (log changes : List Transition) : Prop :=
  ∀ change ∈ changes, ∀ old ∈ log, change.attempt ≠ none → old.attempt ≠ none → old.id = change.id →
    old.startedAt ≠ change.startedAt

/-- One operation of a request. The response of a check-in is sent when its transaction
commits, and only then. -/
def inventoryExec (t : Nat) : (o : InventoryOp) → InventoryWorld → o.Res → InventoryWorld → Prop
  | .sql o, w, answer, w₁ => ∃ store, inventorySchema.exec t o w.store answer store ∧
      w₁ = ⟨store, w.log ++ observe w.store.committed store.committed, w.responses,
        w.results ++ applied w.store.committed o answer⟩
  | .commitAndSend response, w, ok, w₁ => ∃ store, inventorySchema.exec t .commit w.store ok store ∧
      (ok = false → store = w.store.close t) ∧
      StartedApart w.log (observe w.store.committed store.committed) ∧
      w₁ = ⟨store, w.log ++ observe w.store.committed store.committed,
        if ok then w.responses ++ [response] else w.responses, w.results⟩
  | .undefinedTable, w, _, w₁ => w₁ = w

/-- What the rest of the application does to a deployment: it creates, cancels or deletes one. -/
def outside (db : InventoryDb) : InventoryChange → Prop
  | .deployment _ none => True
  | .deployment id (some row) => match db.deployments[id]? with
    | none => row.status = .pending
    | some before => before.status = .pending ∧ row.status = .cancelled
  | _ => True

def runs {α : Type} (program : Deploying α) : Deploying Unit := program.bind fun _ => .ret ()

/-- Check-ins, admin routes and the cleanup, any number at once. The rest of the
application waits for the locks of the rows it changes. -/
def inventory : Threads InventoryOp.Res InventoryWorld where
  exec := inventoryExec
  env w w₁ := ∃ change, outside w.store.committed change ∧ (∀ k ∈ change.locks, w.store.owner k = none) ∧
    w₁ = { w with
      store := inventorySchema.publish [change] w.store
      log := w.log ++ observe w.store.committed (change.apply w.store.committed) }
  entry program := (∃ req, program = runs (checkin req)) ∨
    (∃ id, program = runs (cancelRoute id)) ∨ (∃ ids, program = runs (cancelBulkRoute ids)) ∨
    (∃ id, program = runs (retryRoute id)) ∨ (∃ ids, program = runs (retryBulkRoute ids)) ∨
    program = runs timeoutStuckDeployments
  drop t w := { w with store := w.store.close t }

/-- No transaction is open, no deployment is running, nothing has happened yet. -/
def InventoryStart (w : InventoryWorld) : Prop :=
  ∃ db : InventoryDb, w = ⟨.start db, [], [], []⟩ ∧
    ∀ (id : Nat) (row : Deployment), db.deployments[id]? = some row → row.status ≠ .running

/-- The UPDATE of a single retry would put a deployment back to 'pending' that runs or has
succeeded meanwhile. -/
def RetryMeetsActive (db : InventoryDb) (id : Nat) : Prop :=
  ∃ row, db.deployments[id]? = some row ∧ (row.status = .running ∨ row.status = .success) ∧
    (approvedContent db row.packageId).isSome ∧ otherPending db row.packageId row.deviceId (some id) = false

/-- The condition on the single retries. -/
def RetriesInactive : Nat → (o : InventoryOp) → InventoryWorld → o.Res → InventoryWorld → Prop
  | _, .sql (.query (.retry id)), w, _, _ => ¬RetryMeetsActive w.store.committed id
  | _, _, _, _, _ => True

/-- Attempts and results do not mix. -/
structure AttemptsApart (w : InventoryWorld) : Prop where
  /-- Each attempt is started once, and sent in one response. -/
  once : w.attempts.Nodup
  delivered : ∀ change ∈ w.log, change.before = .pending → change.after = .running →
    ∃ attempt, change.attempt = some attempt ∧ w.delivered.count attempt = 1
  readable : ∀ attempt ∈ w.delivered, CLAIM_TOKEN_RE attempt.2
  requeued : ∀ change ∈ w.log, change.after = .pending → change.before = .failed ∨ change.before = .cancelled
  /-- A result with a token has found the attempt of that token running. -/
  current : ∀ r ∈ w.results, ∀ token, r.claimToken = some token →
    r.before.status = .running ∧ r.attempt = some (r.deploymentId, token) ∧ (r.deploymentId, token) ∈ w.delivered
  applied : (w.results.map AppliedResult.attempt).Nodup

variable {db db₁ : InventoryDb} {t u : Nat} {w w₁ : InventoryWorld}

theorem mem_observe {change : Transition} : change ∈ observe db db₁ ↔
    ∃ row row₁, db.deployments[change.id]? = some row ∧ db₁.deployments[change.id]? = some row₁ ∧
      row.status ≠ row₁.status ∧ change = ⟨change.id, row.status, row₁.status, row₁.startedAt⟩ := by
  unfold observe
  rw [List.mem_filterMap]
  constructor
  · intro ⟨⟨id, row⟩, member, seen⟩
    rw [Std.ExtTreeMap.mem_toList_iff_getElem?_eq_some] at member
    dsimp only at seen
    split at seen
    · rename_i row₁ found
      split at seen
      · cases seen
      · rename_i differ
        cases seen
        exact ⟨row, row₁, member, found, differ, rfl⟩
    · cases seen
  · intro ⟨row, row₁, before, after, differ, same⟩
    refine ⟨(change.id, row), Std.ExtTreeMap.mem_toList_iff_getElem?_eq_some.mpr before, ?_⟩
    dsimp only
    rw [after]
    dsimp only
    rw [if_neg differ, ← same]

/-- Each deployment is observed at most once in a step. -/
theorem ids_observe (db db₁ : InventoryDb) : ((observe db db₁).map Transition.id).Nodup := by
  refine (Table.keys_toList db.deployments).sublist ?_
  unfold observe
  induction db.deployments.toList with
  | nil => exact List.Sublist.slnil
  | cons e rows ih =>
    obtain ⟨id, row⟩ := e
    rw [List.filterMap_cons, List.map_cons]
    dsimp only
    split
    · exact ih.cons id
    · rename_i change seen
      have key : change.id = id := by
        split at seen
        · split at seen
          · cases seen
          · cases seen
            rfl
        · cases seen
      rw [List.map_cons, key]
      exact ih.cons_cons id

theorem deployments_writeDeployments (rows : List (Nat × Deployment)) (db : InventoryDb) :
    (inventorySchema.applyAll (writeDeployments rows) db).deployments = Table.write rows db.deployments := by
  induction rows generalizing db with
  | nil => rfl
  | cons e rows ih => exact ih _

/-- Changes of the other tables leave the deployments as they are. -/
theorem deployments_applyAll {changes : List InventoryChange}
    (others : ∀ c ∈ changes, ∀ id row, c ≠ .deployment id row) (db : InventoryDb) :
    (inventorySchema.applyAll changes db).deployments = db.deployments := by
  induction changes generalizing db with
  | nil => rfl
  | cons c changes ih =>
    refine (ih (fun d member => others d (List.mem_cons_of_mem c member)) _).trans ?_
    cases c with
    | deployment id row => exact absurd rfl (others _ List.mem_cons_self id row)
    | _ => rfl

/-- No deployment is made to run, and none that runs or has succeeded is put back. -/
def Mild (db db₁ : InventoryDb) : Prop :=
  ∀ (id : Nat) (row₁ : Deployment), db₁.deployments[id]? = some row₁ → db.deployments[id]? = some row₁ ∨
    row₁.status ≠ .running ∧ (row₁.status = .pending →
      ∀ row : Deployment, db.deployments[id]? = some row → row.status ≠ .running ∧ row.status ≠ .success)

theorem Mild.of_eq (same : db₁.deployments = db.deployments) : Mild db db₁ := by
  intro id row₁ found
  rw [same] at found
  exact .inl found

theorem mild_update {p : Nat → Deployment → Bool} {set : Deployment → Deployment}
    (same : db₁.deployments = Table.write (db.deployments.update p set) db.deployments)
    (allowed : ∀ id row, db.deployments[id]? = some row → p id row = true → (set row).status ≠ .running ∧
      ((set row).status = .pending → row.status ≠ .running ∧ row.status ≠ .success)) : Mild db db₁ := by
  intro id row₁ found
  rw [same, Table.getElem?_write_update] at found
  obtain ⟨row, before, written⟩ := Option.map_eq_some_iff.mp found
  by_cases satisfied : p id row = true
  · rw [if_pos satisfied] at written
    obtain ⟨quiet, back⟩ := allowed id row before satisfied
    subst written
    refine .inr ⟨quiet, fun pending other here => ?_⟩
    cases before.symm.trans here
    exact back pending
  · rw [if_neg satisfied] at written
    subst written
    exact .inl before

theorem observe_mild (mild : Mild db db₁) {change : Transition} (member : change ∈ observe db db₁) :
    change.after ≠ .running ∧
      (change.after = .pending → change.before = .failed ∨ change.before = .cancelled) := by
  obtain ⟨row, row₁, before, after, differ, same⟩ := mem_observe.mp member
  rw [same]
  rcases mild _ row₁ after with kept | ⟨quiet, back⟩
  · cases before.symm.trans kept
    exact absurd rfl differ
  · refine ⟨quiet, fun pending => ?_⟩
    obtain ⟨notRunning, notSuccess⟩ := back pending row before
    dsimp only at pending ⊢
    cases status : row.status with
    | pending => exact absurd (status.trans pending.symm) differ
    | running => exact absurd status notRunning
    | success => exact absurd status notSuccess
    | failed => exact .inl rfl
    | cancelled => exact .inr rfl

/-- Rows that the fan-out adds are new and pending. -/
theorem mild_fanOut (deviceId now : Nat) (fresh : List (Nat × Nat)) (db : InventoryDb) (id : Nat) :
    (inventorySchema.applyAll (fanOutRows deviceId now fresh db) db).deployments[id]? = db.deployments[id]? ∨
    db.deployments[id]? = none ∧ ∃ row,
      (inventorySchema.applyAll (fanOutRows deviceId now fresh db) db).deployments[id]? = some row ∧
      row.status = .pending := by
  induction fresh generalizing db with
  | nil => exact .inl rfl
  | cons e rest ih =>
    obtain ⟨new, packageId⟩ := e
    unfold fanOutRows
    split
    · exact ih db
    · rename_i content _
      split
      · exact ih db
      · rename_i absent
        rw [Bool.or_eq_true, not_or] at absent
        have unused : db.deployments[new]? = none := by
          refine Std.ExtTreeMap.getElem?_eq_none fun inside => absent.1 ?_
          exact Std.ExtTreeMap.contains_iff_mem.mpr inside
        rw [Schema.applyAll_cons, Schema.applyAll_cons]
        by_cases here : id = new
        · subst here
          refine .inr ⟨unused, ?_⟩
          rcases ih { db with
            deployments := db.deployments.put id (some ⟨packageId, deviceId, .pending, none, none, now, none, none⟩)
            snapshots := db.snapshots.put id (some content) } with same | ⟨missing, -⟩
          · exact ⟨_, same.trans (Table.getElem?_put_self ..), rfl⟩
          · cases (Table.getElem?_put_self ..).symm.trans missing
        · have later := ih { db with
            deployments := db.deployments.put new (some ⟨packageId, deviceId, .pending, none, none, now, none, none⟩)
            snapshots := db.snapshots.put new (some content) }
          dsimp only at later
          rw [Table.getElem?_put_of_ne db.deployments here] at later
          exact later

theorem deployments_requeue {α : Type} {now : Nat} {p : Nat → Deployment → Bool}
    {answer : List (Nat × Deployment) → α} {out : Outcome InventoryChange InventoryLock α}
    (run : requeue db now p answer = some out) :
    pendingUnique (inventorySchema.applyAll out.changes db).deployments = true ∧
    (inventorySchema.applyAll out.changes db).deployments =
      Table.write (db.deployments.update p (requeued now)) db.deployments := by
  unfold requeue at run
  dsimp only at run
  split at run
  · rename_i unique
    cases run
    dsimp only
    rw [Schema.applyAll_append, deployments_applyAll, deployments_writeDeployments]
    · exact ⟨unique, rfl⟩
    · intro c member id row
      obtain ⟨e, -, rfl⟩ := List.mem_map.mp member
      exact nofun
  · cases run

/-- The unique index holds one pending deployment of a package on a device. -/
theorem pendingUnique_spec {table : Table Deployment} (unique : pendingUnique table = true) {id other : Nat}
    {d e : Deployment} (first : table[id]? = some d) (second : table[other]? = some e)
    (pending : d.status = .pending) (pending₁ : e.status = .pending) (package : d.packageId = e.packageId)
    (device : d.deviceId = e.deviceId) : id = other := by
  unfold pendingUnique at unique
  rw [decide_eq_true_eq] at unique
  have member : ∀ {key : Nat} {row : Deployment}, table[key]? = some row → row.status = .pending →
      (key, row) ∈ table.select fun _ d => isPending d := by
    intro key row found pending
    exact Table.mem_select.mpr ⟨found, decide_eq_true pending⟩
  have pair : (d.packageId, d.deviceId) = (e.packageId, e.deviceId) := by rw [package, device]
  exact congrArg Prod.fst (List.inj_on_of_nodup_map unique (member first pending) (member second pending₁) pair)

/-- A deployment that the index let back to 'pending' has no other pending one beside it. -/
theorem requeued_alone {now target : Nat} {row : Deployment}
    (unique : pendingUnique (Table.write (db.deployments.update
      (fun id d => id = target && (approvedContent db d.packageId).isSome) (requeued now)) db.deployments) = true)
    (found : db.deployments[target]? = some row) (approved : (approvedContent db row.packageId).isSome = true) :
    otherPending db row.packageId row.deviceId (some target) = false := by
  rw [Bool.eq_false_iff]
  intro some_other
  obtain ⟨⟨other, d⟩, member, same⟩ := List.any_eq_true.mp some_other
  rw [Std.ExtTreeMap.mem_toList_iff_getElem?_eq_some] at member
  simp only [isPending, Bool.and_eq_true, decide_eq_true_eq, ne_eq, Option.some.injEq] at same
  obtain ⟨⟨⟨package, device⟩, pending⟩, apart⟩ := same
  refine apart (pendingUnique_spec unique (d := d) (e := requeued now row) ?_ ?_ pending rfl package device)
  · rw [Table.getElem?_write_update, member, Option.map_some, if_neg]
    rw [Bool.and_eq_true, decide_eq_true_eq]
    exact fun here => apart here.1
  · rw [Table.getElem?_write_update, found, Option.map_some, if_pos]
    rw [Bool.and_eq_true, decide_eq_true_eq]
    exact ⟨rfl, approved⟩

/-- Every statement but the reservation is mild, a single retry when it meets no deployment
that is active. -/
theorem mild_run {s : InventoryStmt} {draw : InventoryDraw} {out : Outcome InventoryChange InventoryLock s.Ans}
    (run : s.run draw db = some out) (alone : ∀ ids, s ≠ .claimDeployments ids)
    (inactive : ∀ id, s = .retry id → ¬RetryMeetsActive db id) :
    Mild db (inventorySchema.applyAll out.changes db) := by
  cases s with
  | applyResult deviceId exitCode output deploymentId claimToken =>
    cases run
    refine mild_update (deployments_writeDeployments _ db) fun id row _ _ => ?_
    dsimp only
    split <;> exact ⟨nofun, nofun⟩
  | pendingScripts deviceId =>
    obtain ⟨sorted, -, read⟩ := Option.bind_eq_some_iff.mp run
    cases read
    exact .of_eq rfl
  | fanOut deviceId =>
    cases run
    intro id row₁ found
    rcases mild_fanOut deviceId draw.now draw.fresh db id with same | ⟨unused, row, new, pending⟩
    · exact .inl (same.symm.trans found)
    · cases new.symm.trans found
      refine .inr ⟨?_, fun _ other here => ?_⟩
      · rw [pending]
        exact nofun
      · cases unused.symm.trans here
  | pendingDeployments deviceId =>
    obtain ⟨sorted, -, read⟩ := Option.bind_eq_some_iff.mp run
    cases read
    exact .of_eq rfl
  | claimScripts ids =>
    cases run
    refine .of_eq (deployments_applyAll (fun c member id row => ?_) db)
    obtain ⟨e, -, rfl⟩ := List.mem_map.mp member
    exact nofun
  | claimDeployments ids => exact absurd rfl (alone ids)
  | cancel target =>
    cases run
    exact mild_update (deployments_writeDeployments _ db) fun id row _ _ => ⟨nofun, nofun⟩
  | cancelBulk ids =>
    cases run
    exact mild_update (deployments_writeDeployments _ db) fun id row _ _ => ⟨nofun, nofun⟩
  | retryBulk ids =>
    refine mild_update (deployments_requeue run).2 fun id row _ satisfied => ⟨nofun, fun _ => ?_⟩
    simp only [Bool.and_eq_true, Bool.or_eq_true, decide_eq_true_eq] at satisfied
    rcases satisfied.1.1.1.1.2 with failed | cancelled
    · rw [failed]
      exact ⟨nofun, nofun⟩
    · rw [cancelled]
      exact ⟨nofun, nofun⟩
  | selectDeployment id =>
    cases run
    exact .of_eq rfl
  | managedBy deviceId =>
    cases run
    exact .of_eq rfl
  | pendingConflict packageId deviceId =>
    cases run
    exact .of_eq rfl
  | retry target =>
    have run : requeue db draw.now (fun id d => id = target && (approvedContent db d.packageId).isSome)
      (fun rows => rows.head?.map (·.2)) = some out := run
    obtain ⟨unique, write⟩ := deployments_requeue run
    rw [write] at unique
    refine mild_update write fun id row found satisfied => ⟨nofun, fun _ => ?_⟩
    rw [Bool.and_eq_true, decide_eq_true_eq] at satisfied
    obtain ⟨rfl, approved⟩ := satisfied
    have alone := requeued_alone unique found
    have idle : ¬(row.status = .running ∨ row.status = .success) :=
      fun active => inactive id rfl ⟨row, found, active, approved, alone approved⟩
    rw [not_or] at idle
    exact idle
  | timeoutStuck =>
    cases run
    exact mild_update (deployments_writeDeployments _ db) fun id row _ _ => ⟨nofun, nofun⟩

/-- What the history knows of the table: a running deployment runs an attempt that was
started and sent, and that no result has ended yet. -/
structure Recorded (w : InventoryWorld) : Prop where
  locked : inventorySchema.Locked w.store
  running : ∀ (id : Nat) (row : Deployment), w.store.committed.deployments[id]? = some row →
    row.status = .running → ∃ startedAt, row.startedAt = some startedAt ∧
      (id, claimTokenSql startedAt) ∈ w.attempts ∧
      some (id, claimTokenSql startedAt) ∉ w.results.map AppliedResult.attempt
  once : w.attempts.Nodup
  sent : ∀ attempt, attempt ∈ w.delivered ↔ attempt ∈ w.attempts
  sentOnce : w.delivered.Nodup
  started : ∀ change ∈ w.log, change.before = .pending → change.after = .running → change.startedAt ≠ none
  readable : ∀ attempt ∈ w.delivered, CLAIM_TOKEN_RE attempt.2
  requeued : ∀ change ∈ w.log, change.after = .pending → change.before = .failed ∨ change.before = .cancelled
  results : ∀ r ∈ w.results, r.before.status = .running ∧ ∃ startedAt, r.before.startedAt = some startedAt ∧
    (∀ token, r.claimToken = some token → claimTokenSql startedAt = token) ∧
    (r.deploymentId, claimTokenSql startedAt) ∈ w.attempts
  applied : (w.results.map AppliedResult.attempt).Nodup

theorem Recorded.apart (recorded : Recorded w) : AttemptsApart w where
  once := recorded.once
  delivered := by
    intro change member pending running
    obtain ⟨startedAt, known⟩ := Option.ne_none_iff_exists'.mp (recorded.started change member pending running)
    have attempt : change.attempt = some (change.id, claimTokenSql startedAt) := by
      unfold Transition.attempt
      rw [if_pos ⟨pending, running⟩, known]
      rfl
    refine ⟨_, attempt, List.count_eq_one_of_mem recorded.sentOnce ?_⟩
    exact (recorded.sent _).mpr (List.mem_filterMap.mpr ⟨change, member, attempt⟩)
  readable := recorded.readable
  requeued := recorded.requeued
  current := by
    intro r member token carried
    obtain ⟨running, startedAt, known, same, issued⟩ := recorded.results r member
    have read := same token carried
    subst read
    refine ⟨running, ?_, (recorded.sent _).mpr issued⟩
    unfold AppliedResult.attempt
    rw [known]
    rfl
  applied := recorded.applied

theorem attempts_append (log changes : List Transition) :
    (log ++ changes).filterMap Transition.attempt =
      log.filterMap Transition.attempt ++ changes.filterMap Transition.attempt := List.filterMap_append

theorem attempts_mild (mild : Mild db db₁) : (observe db db₁).filterMap Transition.attempt = [] := by
  rw [List.filterMap_eq_nil_iff]
  intro change member
  unfold Transition.attempt
  rw [if_neg]
  exact fun running => (observe_mild mild member).1 running.2

/-- A mild step, and the results it has applied. -/
theorem Recorded.mild (recorded : Recorded w) {store : Store InventoryDb InventoryChange InventoryLock}
    {results : List AppliedResult} (locked : inventorySchema.Locked store)
    (mild : Mild w.store.committed store.committed)
    (running : ∀ (id : Nat) (row : Deployment), store.committed.deployments[id]? = some row →
      row.status = .running → ∀ startedAt, row.startedAt = some startedAt →
      some (id, claimTokenSql startedAt) ∉ results.map AppliedResult.attempt)
    (found : ∀ r ∈ results, r.before.status = .running ∧
      w.store.committed.deployments[r.deploymentId]? = some r.before ∧
      (∀ token, r.claimToken = some token → r.before.startedAt.map claimTokenSql = some token))
    (single : results.length ≤ 1) :
    Recorded ⟨store, w.log ++ observe w.store.committed store.committed, w.responses, w.results ++ results⟩ := by
  have same : InventoryWorld.attempts ⟨store, w.log ++ observe w.store.committed store.committed, w.responses,
      w.results ++ results⟩ = w.attempts := by
    unfold InventoryWorld.attempts
    rw [attempts_append, attempts_mild mild, List.append_nil]
  have known : ∀ r ∈ results, ∃ startedAt, r.before.startedAt = some startedAt ∧
      (∀ token, r.claimToken = some token → claimTokenSql startedAt = token) ∧
      (r.deploymentId, claimTokenSql startedAt) ∈ w.attempts ∧
      some (r.deploymentId, claimTokenSql startedAt) ∉ w.results.map AppliedResult.attempt := by
    intro r member
    obtain ⟨status, here, token⟩ := found r member
    obtain ⟨startedAt, at_, issued, unused⟩ := recorded.running _ _ here status
    refine ⟨startedAt, at_, fun text carried => ?_, issued, unused⟩
    have same := token text carried
    rw [at_] at same
    exact Option.some.inj same
  constructor
  case locked => exact locked
  case running =>
    intro id row here status
    rw [same]
    rcases mild id row here with kept | ⟨quiet, -⟩
    · obtain ⟨startedAt, at_, issued, unused⟩ := recorded.running id row kept status
      refine ⟨startedAt, at_, issued, ?_⟩
      rw [List.map_append, List.mem_append, not_or]
      exact ⟨unused, running id row here status startedAt at_⟩
    · exact absurd status quiet
  case once =>
    rw [same]
    exact recorded.once
  case sent =>
    rw [same]
    exact recorded.sent
  case sentOnce => exact recorded.sentOnce
  case started =>
    intro change member pending running
    rcases List.mem_append.mp member with old | new
    · exact recorded.started change old pending running
    · exact absurd running (observe_mild mild new).1
  case readable => exact recorded.readable
  case requeued =>
    intro change member
    rcases List.mem_append.mp member with old | new
    · exact recorded.requeued change old
    · exact (observe_mild mild new).2
  case results =>
    rw [same]
    intro r member
    rcases List.mem_append.mp member with old | new
    · exact recorded.results r old
    · obtain ⟨startedAt, at_, token, issued, -⟩ := known r new
      exact ⟨(found r new).1, startedAt, at_, token, issued⟩
  case applied =>
    have atMostOne : (results.map AppliedResult.attempt).Nodup := by
      match results with
      | [] => exact List.nodup_nil
      | [r] => exact List.nodup_singleton _
      | r :: r₁ :: rest => simp only [List.length_cons] at single; omega
    rw [List.map_append, List.nodup_append]
    refine ⟨recorded.applied, atMostOne, ?_⟩
    intro old member new inside same
    subst same
    obtain ⟨r, inside, attempt⟩ := List.mem_map.mp inside
    obtain ⟨startedAt, at_, -, -, unused⟩ := known r inside
    unfold AppliedResult.attempt at attempt
    rw [at_] at attempt
    rw [← attempt] at member
    exact unused member

theorem Recorded.quiet (recorded : Recorded w) {store : Store InventoryDb InventoryChange InventoryLock}
    (locked : inventorySchema.Locked store) (mild : Mild w.store.committed store.committed) :
    Recorded ⟨store, w.log ++ observe w.store.committed store.committed, w.responses, w.results⟩ := by
  have kept := recorded.mild locked mild (fun _ _ _ _ _ _ => List.not_mem_nil)
    (fun _ member => absurd member List.not_mem_nil) (Nat.zero_le 1)
  rw [List.append_nil] at kept
  exact kept

def inventoryTeam : Threads.Team InventoryOp.Res InventoryWorld where
  exec t o w answer w₁ := inventoryExec t o w answer w₁ ∧ RetriesInactive t o w answer w₁
  inv := Recorded
  rely t w w₁ := inventorySchema.Moves (fun _ => True) t w.store w₁.store
  guarantee _ _ _ _ _ := True
  idle t w := w.store.session t = none
  rely_refl t w := .refl _ t w.store
  rely_trans _ _ _ _ := .trans

/-- A result that was applied has found its attempt running, and has ended it. -/
theorem applied_run {deviceId deploymentId : Nat} {exitCode : Int} {output claimToken : Option String}
    (draw : InventoryDraw) {out : Outcome InventoryChange InventoryLock (Option (Nat × DeploymentStatus))}
    (run : (InventoryStmt.applyResult deviceId exitCode output deploymentId claimToken).run draw db = some out)
    (hit : out.answer ≠ none) : ∃ row, db.deployments[deploymentId]? = some row ∧ row.status = .running ∧
      (∀ token, claimToken = some token → row.startedAt.map claimTokenSql = some token) ∧
      ∀ row₁ : Deployment, (inventorySchema.applyAll out.changes db).deployments[deploymentId]? = some row₁ →
        row₁.status ≠ .running := by
  cases run
  obtain ⟨answer, first⟩ := Option.ne_none_iff_exists'.mp hit
  obtain ⟨⟨id, d⟩, head, -⟩ := Option.map_eq_some_iff.mp first
  obtain ⟨row, found, satisfied, -⟩ := Table.mem_update.mp (List.mem_of_head? head)
  have here := satisfied
  simp only [Bool.and_eq_true, Bool.or_eq_true, decide_eq_true_eq] at satisfied
  obtain ⟨⟨⟨rfl, -⟩, status⟩, token⟩ := satisfied
  refine ⟨row, found, status, fun text carried => ?_, fun row₁ after => ?_⟩
  · rcases token with absent | same
    · cases absent.symm.trans carried
    · exact same.trans carried
  · unfold updateDeployments at after
    dsimp only at after
    rw [deployments_writeDeployments, Table.getElem?_write_update, found, Option.map_some, if_pos here] at after
    cases after
    dsimp only
    split <;> exact nofun

/-- A statement applies no result, or one that has found its attempt running. -/
theorem applied_spec {s : InventoryStmt} {draw : InventoryDraw}
    {out : Outcome InventoryChange InventoryLock s.Ans} (run : s.run draw db = some out) :
    applied db (.query s) (some out.answer) = [] ∨
    ∃ deploymentId claimToken row, applied db (.query s) (some out.answer) = [⟨deploymentId, claimToken, row⟩] ∧
      db.deployments[deploymentId]? = some row ∧ row.status = .running ∧
      (∀ token, claimToken = some token → row.startedAt.map claimTokenSql = some token) ∧
      ∀ row₁ : Deployment, (inventorySchema.applyAll out.changes db).deployments[deploymentId]? = some row₁ →
        row₁.status ≠ .running := by
  cases s with
  | applyResult deviceId exitCode output deploymentId claimToken =>
    cases hit : out.answer with
    | none => exact .inl rfl
    | some answer =>
      obtain ⟨row, found, running, token, ended⟩ := applied_run draw run (by rw [hit]; exact nofun)
      refine .inr ⟨deploymentId, claimToken, row, ?_, found, running, token, ended⟩
      unfold applied
      dsimp only
      rw [found]
  | _ => exact .inl rfl

/-- One statement by itself, of any kind but a reservation. -/
theorem query_kept {s : InventoryStmt} {answer : Option s.Ans} (recorded : Recorded w)
    (alone : ∀ ids, s ≠ .claimDeployments ids)
    (run : inventoryTeam.exec t (.sql (.query s)) w answer w₁) :
    Recorded w₁ ∧ (∀ u, inventoryTeam.rely u w w₁) ∧ w₁.store.session = w.store.session := by
  obtain ⟨⟨store, ⟨draw, out, ran, free, rfl, rfl⟩ | ⟨rfl, rfl⟩, rfl⟩, inactive⟩ := run
  case inr =>
    have nothing : applied w.store.committed (.query s) none = [] := by cases s <;> rfl
    rw [nothing, List.append_nil]
    exact ⟨recorded.quiet recorded.locked (.of_eq rfl), fun u => .refl _ u _, rfl⟩
  case inl =>
    refine ⟨?_, fun u => Schema.moves_query free fun _ _ => trivial, rfl⟩
    have mild : Mild w.store.committed (inventorySchema.applyAll out.changes w.store.committed) := by
      refine mild_run ran alone fun id same => ?_
      subst same
      exact inactive
    have locked := recorded.locked.publish out.changes
    rcases applied_spec ran with nothing | ⟨deploymentId, claimToken, row, hit, found, running, token, ended⟩
    · rw [nothing, List.append_nil]
      exact recorded.quiet locked mild
    · rw [hit]
      refine recorded.mild locked mild (fun id row₁ after status startedAt _ inside => ?_) (fun r member => ?_)
        (Nat.le_refl 1)
      · rw [List.map_singleton, List.mem_singleton] at inside
        obtain ⟨_, -, same⟩ := Option.map_eq_some_iff.mp inside.symm
        have here : deploymentId = id := congrArg Prod.fst same
        subst here
        exact ended row₁ after status
      · rw [List.mem_singleton] at member
        subst member
        exact ⟨running, found, token⟩

/-- The rest of the application makes nothing run either. -/
theorem mild_outside {change : InventoryChange} (allowed : outside db change) : Mild db (change.apply db) := by
  cases change with
  | deployment id row =>
    intro key row₁ found
    by_cases here : key = id
    · subst here
      have written : row = some row₁ := (Table.getElem?_put_self ..).symm.trans found
      subst written
      unfold outside at allowed
      dsimp only at allowed
      split at allowed
      · rename_i missing
        refine .inr ⟨?_, fun _ other known => ?_⟩
        · rw [allowed]
          exact nofun
        · cases missing.symm.trans known
      · rename_i before known
        refine .inr ⟨?_, fun pending => ?_⟩
        · rw [allowed.2]
          exact nofun
        · cases allowed.2.symm.trans pending
    · exact .inl ((Table.getElem?_put_of_ne _ here row).symm.trans found)
  | _ => exact .of_eq rfl

end Opale.Inventory
