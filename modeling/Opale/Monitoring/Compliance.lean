import Opale.Effects.Threads
import Opale.Sql.Log
import Opale.Sql.Relational

namespace Opale.Monitoring

open Sql

inductive ComplianceStatus where
  | pass | fail | not_applicable
  deriving Repr, DecidableEq

inductive Severity where
  | low | medium | high | critical
  deriving Repr, DecidableEq

inductive RuleId where
  | bitlocker_c_active | defender_av_active | defender_rt_active | defender_signature_fresh
  | defender_no_recent_threats | firewall_all_profiles | agent_seen_recent | agent_version_current
  | disk_c_under_90 | windows_update_recent | no_pending_reboot | intune_compliant
  deriving Repr, DecidableEq

/-- A rule; what it finds is left to the snapshot. -/
structure Rule where
  id : RuleId
  severity : Severity
  label : String
  deriving DecidableEq

def RULES : List Rule := [
  ⟨.bitlocker_c_active, .high, "BitLocker activé sur C:"⟩,
  ⟨.defender_av_active, .critical, "Defender — antivirus actif"⟩,
  ⟨.defender_rt_active, .critical, "Defender — protection temps réel"⟩,
  ⟨.defender_signature_fresh, .medium, "Signature AV mise à jour (< 7 j)"⟩,
  ⟨.defender_no_recent_threats, .high, "Aucune menace détectée (30 j)"⟩,
  ⟨.firewall_all_profiles, .high, "Pare-feu activé sur tous les profils"⟩,
  ⟨.agent_seen_recent, .medium, "Agent vu il y a moins de 24 h"⟩,
  ⟨.agent_version_current, .low, "Version d'agent à jour"⟩,
  ⟨.disk_c_under_90, .medium, "Disque système (C:) utilisé < 90%"⟩,
  ⟨.windows_update_recent, .medium, "Windows Update appliqué (< 30 j)"⟩,
  ⟨.no_pending_reboot, .low, "Pas de redémarrage en attente"⟩,
  ⟨.intune_compliant, .medium, "Conforme Intune"⟩]

/-- `ALERTING_SEVERITIES` -/
def Severity.alerting (s : Severity) : Bool := s = .high || s = .critical

inductive Priority where
  | low | normal | high | critical
  deriving Repr, DecidableEq

/-- `SEVERITY_TO_PRIORITY`, or `normal`. -/
def Severity.priority : Severity → Priority
  | .critical => .critical
  | .high => .high
  | _ => .normal

/-- What a rule finds; the value goes by its JSON. -/
structure Verdict where
  status : ComplianceStatus
  value : Option String
  deriving DecidableEq

/-- A row of `compliance_results`, under the number of its device. -/
structure ComplianceResult where
  status : ComplianceStatus
  severity : Severity
  value : Option String
  evaluatedAt : Int
  deriving DecidableEq

structure Setting where
  key : String
  value : String
  deriving DecidableEq

/-- A change of the verdict of a rule on a device, with what is told of it. -/
structure Flip where
  deviceId : Nat
  hostname : Option String
  rule : Rule
  before : ComplianceStatus
  after : ComplianceStatus
  value : Option String
  deriving DecidableEq

/-- A row of `audit_logs` with the action `compliance_changed`, by `system`. -/
structure ComplianceAudit where
  target : Nat
  ruleId : RuleId
  before : ComplianceStatus
  after : ComplianceStatus
  severity : Severity
  value : Option String
  createdAt : Int
  deriving DecidableEq

def Flip.audit (f : Flip) (now : Int) : ComplianceAudit := ⟨f.deviceId, f.rule.id, f.before, f.after, f.rule.severity, f.value, now⟩

/-- The `source_payload` of a proposal of this source. -/
structure CompliancePayload where
  ruleId : RuleId
  deviceId : Nat
  severity : Severity
  value : Option String
  deriving DecidableEq

inductive ProposalStatus where
  | pending | accepted | rejected
  deriving Repr, DecidableEq

/-- A row of `ticket_proposals`. -/
structure Proposal where
  source : String
  sourceRefType : Option String
  sourcePayload : Option CompliancePayload
  suggestedTitle : String
  suggestedDescription : String
  suggestedPriority : Priority
  suggestedDeviceId : Option Nat
  status : ProposalStatus
  createdAt : Int
  deriving DecidableEq

def Flip.proposal (f : Flip) (now : Int) : Proposal where
  source := "compliance"
  sourceRefType := some "compliance_rule"
  sourcePayload := some ⟨f.rule.id, f.deviceId, f.rule.severity, f.value⟩
  suggestedTitle := "Conformité : " ++ f.rule.label ++ " — " ++ f.hostname.getD "poste inconnu"
  suggestedDescription := "Règle de conformité non respectée sur le poste " ++ f.hostname.getD (toString f.deviceId) ++ ".\n" ++
    "Sévérité : " ++ (match f.rule.severity with | .low => "low" | .medium => "medium" | .high => "high" | .critical => "critical") ++
    ".\n" ++ (match f.value with | some value => "Détail : " ++ value | none => "")
  suggestedPriority := f.rule.severity.priority
  suggestedDeviceId := some f.deviceId
  status := .pending
  createdAt := now

/-- A pending proposal of this source for the pair. -/
def Proposal.pendingFor (p : Proposal) (ruleId : RuleId) (deviceId : Nat) : Bool :=
  p.source = "compliance" && p.status = .pending && p.sourcePayload.any fun payload =>
    payload.ruleId = ruleId && payload.deviceId = deviceId

/-- The tables; the results have their key of two columns: one table for each rule. -/
inductive ComplianceTable where
  | devices
  | results (rule : RuleId)
  | settings
  | audits
  | proposals
  deriving Repr, DecidableEq

abbrev ComplianceTable.Row : ComplianceTable → Type
  | .devices => Unit
  | .results _ => ComplianceResult
  | .settings => Setting
  | .audits => ComplianceAudit
  | .proposals => Proposal

abbrev ComplianceDb := Tables ComplianceTable.Row

abbrev ComplianceChange := RowChange ComplianceTable.Row

abbrev ComplianceLock := RowLock ComplianceTable Empty

inductive ComplianceStmt where
  | previous (deviceId : Nat)
  | alertsSetting
  | upsertResult (deviceId : Nat) (rule : Rule) (verdict : Verdict)
  | insertAudit (f : Flip)
  | pendingProposal (ruleId : RuleId) (deviceId : Nat)
  | insertProposal (f : Flip)
  deriving DecidableEq

abbrev ComplianceStmt.Ans : ComplianceStmt → Type
  | .previous _ => List (RuleId × ComplianceStatus)
  | .alertsSetting => Option String
  | .pendingProposal .. => Option Nat
  | .upsertResult .. | .insertAudit _ => Unit
  | .insertProposal _ => Nat

structure ComplianceDraw where
  now : Int
  id : Nat

abbrev ComplianceOutcome := Outcome ComplianceChange ComplianceLock

/-- The rows of a device, whatever their rule. -/
def previousResults (db : ComplianceDb) (deviceId : Nat) : List (RuleId × ComplianceStatus) :=
  (RULES.map (·.id)).filterMap fun r => (db (.results r))[deviceId]?.map fun row => (r, row.status)

def ComplianceStmt.run : (s : ComplianceStmt) → ComplianceDraw → ComplianceDb → Option (ComplianceOutcome s.Ans)
  | .previous deviceId, _, db =>
    let rows := previousResults db deviceId
    some ⟨rows, [], rows.map fun e => .row (.results e.1) deviceId⟩
  | .alertsSetting, _, db =>
    some ⟨((db .settings).select fun _ s => s.key = "compliance_alerts_enabled").head?.map (·.2.value), [], []⟩
  | .upsertResult deviceId rule verdict, draw, db =>
    if (db .devices).contains deviceId then
      some ⟨(), [⟨.results rule.id, deviceId, some ⟨verdict.status, rule.severity, verdict.value, draw.now⟩⟩], []⟩
    else none
  | .insertAudit f, draw, db =>
    if (db .audits).contains draw.id then none else some ⟨(), [⟨.audits, draw.id, some (f.audit draw.now)⟩], []⟩
  | .pendingProposal ruleId deviceId, draw, db =>
    let rows := (db .proposals).select fun _ p => p.pendingFor ruleId deviceId
    if rows.isEmpty then some ⟨none, [], []⟩ else (rows.find? (·.1 = draw.id)).map fun e => ⟨some e.1, [], []⟩
  | .insertProposal f, draw, db =>
    if (db .proposals).contains draw.id then none
    else some ⟨draw.id, [⟨.proposals, draw.id, some (f.proposal draw.now)⟩], []⟩

def complianceSchema : Schema ComplianceStmt.Ans ComplianceDb ComplianceChange ComplianceLock ComplianceDraw :=
  relational (fun _ _ => []) ComplianceStmt.run

inductive TaskKind where
  | audit | proposal
  deriving Repr, DecidableEq

/-- A call that nobody awaits. -/
structure Task where
  kind : TaskKind
  flip : Flip
  deriving DecidableEq

/-- The promises of a device: the evaluation, and the calls that it does not await. -/
inductive Settling where
  | evaluation (deviceId : Nat)
  | task (kind : TaskKind) (deviceId : Nat) (rule : RuleId)
  deriving DecidableEq

def Settling.deviceId : Settling → Nat
  | .evaluation deviceId | .task _ deviceId _ => deviceId

def Task.settling (task : Task) : Settling := .task task.kind task.flip.deviceId task.flip.rule.id

/-- `evaluate` answers nothing when it throws, or gives an invalid status. A worker stands for what runs
the calls that are not awaited. -/
inductive ComplianceOp where
  | sql (s : ComplianceStmt)
  | evaluate (rule : Rule)
  | sendPushToAll (title body : String) (deviceId : Nat)
  | spawn (task : Task)
  | take
  | settled (p : Settling)
  deriving DecidableEq

abbrev ComplianceOp.Res : ComplianceOp → Type
  | .sql s => Option s.Ans
  | .evaluate _ => Option Verdict
  | .take => Option Task
  | _ => Unit

abbrev Evaluation := Program ComplianceOp.Res

abbrev Evaluation.perform (o : ComplianceOp) : Evaluation o.Res := Program.perform o

open Evaluation (perform)

/-- Only the changes between `pass` and `fail` count. -/
def isPassFailTransition (before after : ComplianceStatus) : Bool :=
  before ≠ after && (before = .pass || before = .fail) && (after = .pass || after = .fail)

/-- What follows from a change: an audit, and an alert when a rule of some severity fails. -/
def tellFlip (alertsEnabled : Bool) (f : Flip) : Evaluation Unit := do
  perform (.spawn ⟨.audit, f⟩)
  if alertsEnabled && f.before = .pass && f.after = .fail && f.rule.severity.alerting then
    perform (.sendPushToAll ("⚠ Conformité — " ++ f.hostname.getD "poste") f.rule.label f.deviceId)
    perform (.spawn ⟨.proposal, f⟩)
  else return ()

def evaluateRule (deviceId : Nat) (hostname : Option String) (prevMap : List (RuleId × ComplianceStatus))
    (alertsEnabled : Bool) (rule : Rule) : Evaluation Unit := do
  match ← perform (.evaluate rule) with
  | none => return ()
  | some verdict =>
    match ← perform (.sql (.upsertResult deviceId rule verdict)) with
    | none => return ()
    | some () =>
      match prevMap.lookup rule.id with
      | none => return ()
      | some before =>
        if isPassFailTransition before verdict.status then
          tellFlip alertsEnabled ⟨deviceId, hostname, rule, before, verdict.status, verdict.value⟩
        else return ()

def evaluateRules (deviceId : Nat) (hostname : Option String) (prevMap : List (RuleId × ComplianceStatus))
    (alertsEnabled : Bool) : List Rule → Evaluation Unit
  | [] => .ret ()
  | rule :: rules => do
    evaluateRule deviceId hostname prevMap alertsEnabled rule
    evaluateRules deviceId hostname prevMap alertsEnabled rules

def evaluateAndPersist (deviceId : Nat) (hostname : Option String) : Evaluation Unit := do
  match ← perform (.sql (.previous deviceId)) with
  | none => return ()
  | some prevMap =>
    let setting ← perform (.sql .alertsSetting)
    evaluateRules deviceId hostname prevMap (setting = some (some "true")) RULES
    perform (.settled (.evaluation deviceId))

def createComplianceProposal (f : Flip) : Evaluation Unit := do
  match ← perform (.sql (.pendingProposal f.rule.id f.deviceId)) with
  | none | some (some _) => return ()
  | some none =>
    let _ ← perform (.sql (.insertProposal f))
    return ()

/-- `logAudit`, whose INSERT may fail in silence, or the proposal. -/
def runTask (task : Task) : Evaluation Unit := do
  match task.kind with
  | .audit =>
    let _ ← perform (.sql (.insertAudit task.flip))
    perform (.settled task.settling)
  | .proposal =>
    createComplianceProposal task.flip
    perform (.settled task.settling)

def worker : Evaluation Unit := do
  match ← perform .take with
  | none => return ()
  | some task => runTask task

end Opale.Monitoring
