import Opale.Inventory.Tables
import Opale.Effects.Program
import Mathlib.Algebra.Group.Nat.Defs

namespace Opale.Inventory

open Sql

/-- An entry of `deployment_results` in a check-in. -/
structure DeploymentResult where
  deploymentId : Option Nat
  exitCode : Option Int
  output : Option String
  claimToken : Option String
  deriving DecidableEq

structure ScriptCommand where
  id : Nat
  name : String
  script : String
  deriving DecidableEq

/-- A pending deployment as selected, with its snapshot when it has one. -/
structure PendingDeployment where
  deploymentId : Nat
  snapshot : Option Snapshot
  deriving DecidableEq

def PendingDeployment.hasSnapshot (d : PendingDeployment) : Bool := d.snapshot.isSome

/-- A deployment as reserved and sent. -/
structure ClaimedDeployment where
  deploymentId : Nat
  packageId : Nat
  claimToken : String
  snapshot : Snapshot
  deriving DecidableEq

/-- The claim token of an attempt: its `started_at` in microseconds, as text. -/
def claimTokenSql (startedAt : Nat) : String := startedAt.repr

def CLAIM_TOKEN_RE (s : String) : Bool :=
  !s.toList.isEmpty && s.toList.length ≤ 20 && s.toList.all Char.isDigit

/-- The token that the server takes from a result; none when it cannot read it. -/
def DeploymentResult.token (r : DeploymentResult) : Option String := r.claimToken.filter CLAIM_TOKEN_RE

/-- A `bigint` is less than this. -/
def BIGINT_END : Nat := 2 ^ 63

def DEPLOYMENT_RUNNING_TIMEOUT_MIN : Nat := 60

def timeoutMessage : String :=
  "\n[serveur] Timeout : aucun résultat reçu de l'agent après 60 min. Cliquer Rejouer pour réessayer."

/-- The statements of the check-in, of the admin routes and of the cleanup on deployments. -/
inductive InventoryStmt where
  | applyResult (deviceId : Nat) (exitCode : Int) (output : Option String) (deploymentId : Nat)
      (claimToken : Option String)
  | pendingScripts (deviceId : Nat)
  | fanOut (deviceId : Nat)
  | pendingDeployments (deviceId : Nat)
  | claimScripts (ids : List Nat)
  | claimDeployments (ids : List Nat)
  | cancel (id : Nat)
  | cancelBulk (ids : List Nat)
  | retryBulk (ids : List Nat)
  | selectDeployment (id : Nat)
  | managedBy (deviceId : Nat)
  | pendingConflict (packageId deviceId : Nat)
  | retry (id : Nat)
  | timeoutStuck
  deriving DecidableEq

abbrev InventoryStmt.Ans : InventoryStmt → Type
  | .applyResult .. => Option (Nat × DeploymentStatus)
  | .pendingScripts _ | .claimScripts _ => List ScriptCommand
  | .fanOut _ => Unit
  | .pendingDeployments _ => List PendingDeployment
  | .claimDeployments _ => List ClaimedDeployment
  | .cancel _ | .selectDeployment _ | .retry _ => Option Deployment
  | .cancelBulk _ | .retryBulk _ | .pendingConflict .. => List Nat
  | .managedBy _ => Option (Option String)
  | .timeoutStuck => Nat

/-- `now()`, an order of the rows, the rows that an UPDATE of several still finds once it
has waited for their locks, and the deployments that the active jobs ask for: new keys
with their packages. -/
structure InventoryDraw where
  now : Nat
  order : List Nat
  rows : List Nat
  fresh : List (Nat × Nat)

/-- The content of a package that is approved. -/
def approvedContent (db : InventoryDb) (packageId : Nat) : Option Snapshot :=
  match db.packages[packageId]? with
  | some ⟨content, .approved⟩ => some content
  | _ => none

def isPending (d : Deployment) : Bool := d.status = .pending

/-- A pending deployment of this package on this device, other than `id`. -/
def otherPending (db : InventoryDb) (packageId deviceId : Nat) (id : Option Nat) : Bool :=
  db.deployments.toList.any fun (other, d) =>
    d.packageId = packageId && d.deviceId = deviceId && isPending d && some other ≠ id

/-- The unique index `deployments_pending_unique`. -/
def pendingUnique (deployments : Table Deployment) : Bool :=
  ((deployments.select fun _ d => isPending d).map fun (_, d) => (d.packageId, d.deviceId)).Nodup

def writeDeployments (rows : List (Nat × Deployment)) : List InventoryChange :=
  rows.map fun (id, d) => .deployment id (some d)

def updateDeployments {α : Type} (db : InventoryDb) (p : Nat → Deployment → Bool) (set : Deployment → Deployment)
    (answer : List (Nat × Deployment) → α) : Outcome InventoryChange InventoryLock α :=
  let rows := db.deployments.update p set
  ⟨answer rows, writeDeployments rows, []⟩

def requeued (now : Nat) (d : Deployment) : Deployment :=
  { d with
    status := .pending
    exitCode := none
    output := none
    queuedAt := now
    startedAt := none
    completedAt := none }

/-- Back to 'pending', with the snapshot of the approved content. -/
def requeue {α : Type} (db : InventoryDb) (now : Nat) (p : Nat → Deployment → Bool)
    (answer : List (Nat × Deployment) → α) : Option (Outcome InventoryChange InventoryLock α) :=
  let rows := db.deployments.update p (requeued now)
  let snapshots := rows.map fun (id, d) => .snapshot id (approvedContent db d.packageId)
  if pendingUnique (Table.write rows db.deployments) then
    some ⟨answer rows, writeDeployments rows ++ snapshots, []⟩
  else none

/-- The deployments that the fan-out creates; ON CONFLICT DO NOTHING. -/
def fanOutRows (deviceId now : Nat) : List (Nat × Nat) → InventoryDb → List InventoryChange
  | [], _ => []
  | (id, packageId) :: rest, db =>
    match approvedContent db packageId with
    | none => fanOutRows deviceId now rest db
    | some content =>
      if db.deployments.contains id || otherPending db packageId deviceId none then fanOutRows deviceId now rest db
      else
        let row : Deployment := ⟨packageId, deviceId, .pending, none, none, now, none, none⟩
        .deployment id (some row) :: .snapshot id (some content) ::
          fanOutRows deviceId now rest { db with
            deployments := db.deployments.put id (some row)
            snapshots := db.snapshots.put id (some content) }

def cancelled (now : Nat) (d : Deployment) : Deployment := { d with status := .cancelled, completedAt := some now }

def InventoryStmt.run : (s : InventoryStmt) → InventoryDraw → InventoryDb →
    Option (Outcome InventoryChange InventoryLock s.Ans)
  | .applyResult deviceId exitCode output deploymentId claimToken, draw, db =>
    some (updateDeployments db
      (fun id d => id = deploymentId && d.deviceId = deviceId && d.status = .running &&
        (claimToken = none || d.startedAt.map claimTokenSql = claimToken))
      (fun d => { d with
        status := if exitCode = 0 then .success else .failed
        exitCode := some exitCode
        output := output
        completedAt := some draw.now })
      fun rows => rows.head?.map fun (_, d) => (d.packageId, d.status))
  | .pendingScripts deviceId, draw, db => do
    let rows := db.scripts.select fun _ s => s.deviceId = deviceId && s.status = .pending && s.mode = .agent
    let sorted ← Table.orderBy rows (fun a b => a.queuedAt ≤ b.queuedAt) draw.order
    some ⟨(sorted.map fun (id, s) => ⟨id, s.scriptName, s.scriptContent⟩).take 5, [], []⟩
  | .fanOut deviceId, draw, db => some ⟨(), fanOutRows deviceId draw.now draw.fresh db, []⟩
  | .pendingDeployments deviceId, draw, db => do
    let rows := (db.deployments.select fun _ d => d.deviceId = deviceId && isPending d &&
      (approvedContent db d.packageId).isSome).map fun (id, d) => (id, d, db.snapshots[id]?)
    let sorted ← Table.orderBy rows (fun a b =>
      if a.2.isSome = b.2.isSome then a.1.queuedAt ≤ b.1.queuedAt else a.2.isSome) draw.order
    some ⟨(sorted.map fun (id, _, snapshot) => ⟨id, snapshot⟩).take 10, [], []⟩
  | .claimScripts ids, draw, db =>
    let rows := db.scripts.update (fun id s => ids.contains id && s.status = .pending && draw.rows.contains id)
      fun s => { s with status := .running, startedAt := some draw.now }
    some ⟨rows.map fun (id, s) => ⟨id, s.scriptName, s.scriptContent⟩,
      rows.map fun (id, s) => .script id (some s), []⟩
  | .claimDeployments ids, draw, db =>
    if draw.now < BIGINT_END then
      some (updateDeployments db
        (fun id d => ids.contains id && isPending d && db.snapshots.contains id &&
          (approvedContent db d.packageId).isSome && draw.rows.contains id)
        (fun d => { d with status := .running, startedAt := some draw.now })
        fun rows => rows.filterMap fun (id, d) =>
          db.snapshots[id]?.map fun snapshot => ⟨id, d.packageId, claimTokenSql draw.now, snapshot⟩)
    else none
  | .cancel target, draw, db =>
    some (updateDeployments db (fun id d => id = target && isPending d) (cancelled draw.now)
      fun rows => rows.head?.map (·.2))
  | .cancelBulk ids, draw, db =>
    some (updateDeployments db (fun id d => ids.contains id && isPending d && draw.rows.contains id)
      (cancelled draw.now) fun rows => rows.map (·.1))
  | .retryBulk ids, draw, db =>
    requeue db draw.now (fun id d => ids.contains id && (d.status = .failed || d.status = .cancelled) &&
      (approvedContent db d.packageId).isSome &&
      (db.devices[d.deviceId]?.any fun dev => dev.managedBy ≠ some "pull") &&
      !otherPending db d.packageId d.deviceId (some id) && draw.rows.contains id) fun rows => rows.map (·.1)
  | .selectDeployment id, _, db => some ⟨db.deployments[id]?, [], []⟩
  | .managedBy deviceId, _, db => some ⟨db.devices[deviceId]?.map (·.managedBy), [], []⟩
  | .pendingConflict packageId deviceId, _, db =>
    some ⟨(db.deployments.select fun _ d => d.packageId = packageId && d.deviceId = deviceId && isPending d).map
      Prod.fst, [], []⟩
  | .retry target, draw, db =>
    requeue db draw.now (fun id d => id = target && (approvedContent db d.packageId).isSome)
      fun rows => rows.head?.map (·.2)
  | .timeoutStuck, draw, db =>
    some (updateDeployments db
      (fun id d => d.status = .running && draw.rows.contains id && d.startedAt.any fun startedAt =>
        startedAt + DEPLOYMENT_RUNNING_TIMEOUT_MIN * 60000000 < draw.now)
      (fun d => { d with
        status := .failed
        completedAt := some draw.now
        output := some ((d.output.getD "") ++ timeoutMessage) })
      List.length)

/-- The statements with the tables they run on. -/
def inventorySchema : Schema InventoryStmt.Ans InventoryDb InventoryChange InventoryLock InventoryDraw where
  run := InventoryStmt.run
  apply := InventoryChange.apply
  locks := InventoryChange.locks
  commute := InventoryChange.commute

/-- The response of a check-in, as far as it carries work. -/
structure CheckinResponse where
  commands : List ScriptCommand
  deployments : List ClaimedDeployment
  deriving DecidableEq

/-- `commitAndSend` is the COMMIT of the reservation and the response that follows it;
`undefinedTable` tells whether the error thrown last has the code 42P01. -/
inductive InventoryOp where
  | sql (o : SqlOp InventoryStmt)
  | commitAndSend (response : CheckinResponse)
  | undefinedTable

abbrev InventoryOp.Res : InventoryOp → Type
  | .sql o => o.Res InventoryStmt.Ans
  | .commitAndSend _ | .undefinedTable => Bool

abbrev Deploying := Program InventoryOp.Res

namespace Deploying

abbrev perform (o : InventoryOp) : Deploying o.Res := Program.perform o

/-- `db.query`: no answer when it throws. -/
abbrev query (s : InventoryStmt) : Deploying (Option s.Ans) := perform (.sql (.query s))

/-- `claim.query` -/
abbrev within (s : InventoryStmt) : Deploying (Option s.Ans) := perform (.sql (.within s))

end Deploying

open Deploying

/-- What a check-in brings, and what the server has made of it before it looks at the
deployments: `agentUpdate` when the response proposes a new agent, `deploymentsAllowed`
inside the maintenance window. -/
structure CheckinRequest where
  deviceId : Nat
  deploymentResults : List DeploymentResult
  processesEveryResponse : Bool
  agentUpdate : Bool
  deploymentsAllowed : Bool
  deriving DecidableEq

inductive CheckinReply where
  | threw | ok (response : CheckinResponse)
  deriving DecidableEq

/-- The results of the deployments that the agent has run; an error is only logged. -/
def reportResults (deviceId : Nat) : List DeploymentResult → Deploying Unit
  | [] => return ()
  | r :: rest => do
    match r.deploymentId with
    | none => reportResults deviceId rest
    | some deploymentId =>
      let _ ← query (.applyResult deviceId (r.exitCode.getD (-1)) (r.output.filter (· ≠ "")) deploymentId r.token)
      reportResults deviceId rest

/-- `catch`: an undefined table gives nothing to deploy, any other error is thrown on. -/
def noSnapshotTable : Deploying (Option (List PendingDeployment)) := do
  if ← perform .undefinedTable then return some [] else return none

/-- The fan-out of the jobs, then the pending deployments. -/
def selectPending (deviceId : Nat) (deploymentsAllowed : Bool) : Deploying (Option (List PendingDeployment)) := do
  match ← query (.fanOut deviceId) with
  | none => noSnapshotTable
  | some () =>
    if deploymentsAllowed then
      match ← query (.pendingDeployments deviceId) with
      | none => noSnapshotTable
      | some rows => return some rows
    else return some []

/-- The UPDATE of the pending scripts, when there are any; in the order selected. -/
def reserveScripts (pending : List ScriptCommand) : Deploying (Option (List ScriptCommand)) := do
  if pending.isEmpty then return some []
  else
    match ← within (.claimScripts (pending.map (·.id))) with
    | none => return none
    | some claimed => return some (pending.filterMap fun r => claimed.find? (·.id = r.id))

def reserveDeployments (pending : List PendingDeployment) : Deploying (Option (List ClaimedDeployment)) := do
  if pending.isEmpty then return some []
  else
    match ← within (.claimDeployments (pending.map (·.deploymentId))) with
    | none => return none
    | some claimed => return some (pending.filterMap fun r => claimed.find? (·.deploymentId = r.deploymentId))

/-- `catch` of the reservation -/
def rollback : Deploying CheckinReply := do
  let _ ← perform (.sql .rollback)
  return .threw

/-- Scripts and deployments are reserved in one transaction, right before the response. -/
def reserve (scripts : List ScriptCommand) (deployments : List PendingDeployment) : Deploying CheckinReply := do
  if ← perform (.sql .begin) then
    match ← reserveScripts scripts with
    | none => rollback
    | some commands =>
      match ← reserveDeployments deployments with
      | none => rollback
      | some claimed =>
        let response : CheckinResponse := ⟨commands, claimed⟩
        if ← perform (.commitAndSend response) then return .ok response else rollback
  else rollback

/-- POST /api/agent/checkin, what it does to deployments and scripts. -/
def checkin (req : CheckinRequest) : Deploying CheckinReply := do
  reportResults req.deviceId req.deploymentResults
  match ← query (.pendingScripts req.deviceId) with
  | none => return .threw
  | some scripts =>
    match ← selectPending req.deviceId req.deploymentsAllowed with
    | none => return .threw
    | some rows =>
      let deployments := rows.filter (·.hasSnapshot)
      let responseIgnored := !req.processesEveryResponse && (req.agentUpdate || !req.deploymentResults.isEmpty)
      if !responseIgnored && !(scripts.isEmpty && deployments.isEmpty) then reserve scripts deployments
      else return .ok ⟨[], []⟩

/-- Answers of the admin routes; an error 500 when a query throws. -/
inductive RouteReply where
  | deployment (row : Deployment)
  | counts (changed skipped : Nat)
  | error (status : Nat) (text : String) (code : Option String)
  | threw
  deriving DecidableEq

/-- PATCH /api/deployments/:id/cancel -/
def cancelRoute (id : Nat) : Deploying RouteReply := do
  match ← query (.cancel id) with
  | none => return .threw
  | some none => return .error 409 "Ce déploiement n'est pas annulable (status ≠ pending)" none
  | some (some row) => return .deployment row

/-- The answer of a route on several deployments. -/
def countsOf (ids : List Nat) : Option (List Nat) → RouteReply
  | none => .threw
  | some rows => .counts rows.length (ids.length - rows.length)

/-- POST /api/deployments/cancel-bulk -/
def cancelBulkRoute (ids : List Nat) : Deploying RouteReply := do
  if ids.isEmpty then return .error 400 "ids requis (tableau non vide)" none
  else
    let rows ← query (.cancelBulk ids)
    return countsOf ids rows

/-- POST /api/deployments/retry-bulk -/
def retryBulkRoute (ids : List Nat) : Deploying RouteReply := do
  if ids.isEmpty then return .error 400 "ids requis (tableau non vide)" none
  else
    let rows ← query (.retryBulk ids)
    return countsOf ids rows

def isPullManaged (deviceId : Nat) : Deploying (Option Bool) := do
  match ← query (.managedBy deviceId) with
  | none => return none
  | some managedBy => return some (managedBy = some (some "pull"))

/-- POST /api/deployments/:id/retry; the status is read by another statement than the UPDATE. -/
def retryRoute (id : Nat) : Deploying RouteReply := do
  match ← query (.selectDeployment id) with
  | none => return .threw
  | some none => return .error 404 "Déploiement introuvable" none
  | some (some existing) =>
    if existing.status ≠ .failed ∧ existing.status ≠ .cancelled then
      return .error 409 "Seuls les déploiements failed/cancelled sont rejouables" none
    else
      match ← isPullManaged existing.deviceId with
      | none => return .threw
      | some true =>
        return .error 409 "Poste géré par état désiré (Linux) : déploiement non rejouable" (some "PULL_MANAGED")
      | some false =>
        match ← query (.pendingConflict existing.packageId existing.deviceId) with
        | none => return .threw
        | some (_ :: _) => return .error 409 "Un déploiement pending existe déjà pour ce poste" none
        | some [] =>
          match ← query (.retry id) with
          | none => return .threw
          | some none =>
            return .error 409 "Le package doit être approuvé avant de rejouer ce déploiement" none
          | some (some row) => return .deployment row

/-- The cleanup of deployments stuck in 'running'; an error is only logged. -/
def timeoutStuckDeployments : Deploying Unit := do
  let _ ← query .timeoutStuck

end Opale.Inventory
