import Opale.Js.Text
import Opale.Monitoring.Compliance
import Opale.Sql.Template

namespace Opale.Ask

open Js Sql

/-- The value of a filter, as its check or the database has given it. -/
inductive FilterValue where
  | null
  | bool (b : Bool)
  | number (n : JsNumber)
  | string (s : Units)
  deriving DecidableEq

def FilterValue.truthy : FilterValue → Bool
  | .null => false
  | .bool b => b
  | .number n => n ≠ (0 : ℚ)
  | .string s => s ≠ []

/-- `${v}` -/
def FilterValue.text : FilterValue → Units
  | .null => ascii "null"
  | .bool true => ascii "true"
  | .bool false => ascii "false"
  | .number n => (numberText (some n)).map fun c => c.toNat.toUInt16
  | .string s => s

inductive Kind where
  | group | user | department | tag | rule
  deriving Repr, DecidableEq

inductive FilterType where
  | enum (values : List Units)
  | text
  | number
  | bool
  | resolve (kind : Kind)

/-- none is NaN, the `parseInt` of a setting that is no number. -/
structure Thresholds where
  warn : Option JsNumber
  critical : Option JsNumber

def DEFAULT_THRESHOLDS : Thresholds := ⟨some (80 : ℚ), some (90 : ℚ)⟩

/-- What a filter is applied in: the thresholds of the settings, and the parameters so far. -/
abbrev Ctx := ReaderT (Option Thresholds) (StateM (List FilterValue))

def param (value : FilterValue) : Ctx Piece := do
  modify (· ++ [value])
  return .placeholder (← get).length

def thr : Ctx Thresholds := return (← read).getD DEFAULT_THRESHOLDS

/-- The filter gives its fragment of SQL; none is `undefined`. -/
structure Filter where
  type : FilterType
  apply : FilterValue → Ctx (Option Template)

def constant (fragment : String) : Ctx (Option Template) := return some [.text fragment.toList]

/-- `${before}${ctx.param(v)}${after}` -/
def comparing (before after : String) (v : FilterValue) : Ctx (Option Template) := do
  let p ← param v
  return some [.text before.toList, p, .text after.toList]

/-- `%${v}%` -/
def pattern (v : FilterValue) : FilterValue := .string (ascii "%" ++ v.text ++ ascii "%")

def containing (before after : String) (v : FilterValue) : Ctx (Option Template) := comparing before after (pattern v)

def choosing (yes no : String) (v : FilterValue) : Ctx (Option Template) := constant (if v.truthy then yes else no)

structure SortKey where
  field : Units
  descending : Bool
  deriving DecidableEq

structure Resource where
  table : String
  joins : List String
  select : String
  sort : List (Units × String)
  defaultSort : SortKey
  defaultLimit : Nat
  maxLimit : Nat
  filters : List (Units × Filter)
  crossFilters : List (Units × Filter)

/-- `ownEntry(obj, key)` for a key that is a string. -/
def ownEntry {α : Type} (obj : List (Units × α)) (key : Units) : Option α := (obj.find? (·.1 = key)).map (·.2)

def ruleName : Monitoring.RuleId → String
  | .bitlocker_c_active => "bitlocker_c_active"
  | .defender_av_active => "defender_av_active"
  | .defender_rt_active => "defender_rt_active"
  | .defender_signature_fresh => "defender_signature_fresh"
  | .defender_no_recent_threats => "defender_no_recent_threats"
  | .firewall_all_profiles => "firewall_all_profiles"
  | .agent_seen_recent => "agent_seen_recent"
  | .agent_version_current => "agent_version_current"
  | .disk_c_under_90 => "disk_c_under_90"
  | .windows_update_recent => "windows_update_recent"
  | .no_pending_reboot => "no_pending_reboot"
  | .intune_compliant => "intune_compliant"

def RULE_IDS : List Units := Monitoring.RULES.map fun r => ascii (ruleName r.id)

namespace Devices

def status (v : FilterValue) : Ctx (Option Template) := do
  let t ← thr
  if v = .string (ascii "online") then constant "d.last_seen > now() - interval '1 hour'"
  else if v = .string (ascii "offline") then
    constant "(d.last_seen IS NULL OR d.last_seen < now() - interval '1 hour')"
  else if v = .string (ascii "critical") then
    return some [.text ("d.disk_used_pct >= ".toList ++ numberText t.critical)]
  else if v = .string (ascii "warn") then
    return some [.text ("d.disk_used_pct >= ".toList ++ numberText t.warn ++ " AND d.disk_used_pct < ".toList ++
      numberText t.critical)]
  else if v = .string (ascii "unassigned") then constant "d.assigned_user_id IS NULL"
  else return none

def statuses : List Units := ["online", "offline", "critical", "warn", "unassigned"].map ascii

def search (v : FilterValue) : Ctx (Option Template) := do
  let p ← param (pattern v)
  return some [.text "(d.hostname ILIKE ".toList, p, .text " OR u.email ILIKE ".toList, p,
    .text " OR u.display_name ILIKE ".toList, p, .text " OR d.model ILIKE ".toList, p, .text ")".toList]

def bitlocker : String := "d.health_signals->'bitlocker'->>'protection_status' = 'on'"

def filters : List (Units × Filter) := [
  (ascii "status", ⟨.enum statuses, status⟩),
  (ascii "search", ⟨.text, search⟩),
  (ascii "hostname_contains", ⟨.text, containing "d.hostname ILIKE " ""⟩),
  (ascii "os_contains", ⟨.text, containing "d.os ILIKE " ""⟩),
  (ascii "model_contains", ⟨.text, containing "d.model ILIKE " ""⟩),
  (ascii "manufacturer", ⟨.text, comparing "d.manufacturer ILIKE " ""⟩),
  (ascii "disk_used_pct_gte", ⟨.number, comparing "d.disk_used_pct >= " ""⟩),
  (ascii "disk_used_pct_lt", ⟨.number, comparing "d.disk_used_pct < " ""⟩),
  (ascii "ram_gb_lt", ⟨.number, comparing "d.ram_gb < " ""⟩),
  (ascii "offline_since_days",
    ⟨.number, comparing "(d.last_seen IS NULL OR d.last_seen < now() - make_interval(days => " "))"⟩),
  (ascii "seen_within_days", ⟨.number, comparing "d.last_seen > now() - make_interval(days => " ")"⟩),
  (ascii "assigned", ⟨.bool, choosing "d.assigned_user_id IS NOT NULL" "d.assigned_user_id IS NULL"⟩),
  (ascii "has_agent", ⟨.bool, choosing "d.agent_version IS NOT NULL" "d.agent_version IS NULL"⟩),
  (ascii "pending_reboot", ⟨.bool, comparing "(d.health_signals->>'pending_reboot')::bool = " ""⟩),
  (ascii "bitlocker_active", ⟨.bool, choosing bitlocker ("NOT (" ++ bitlocker ++ ")")⟩),
  (ascii "department", ⟨.resolve .department, comparing "u.department = " ""⟩),
  (ascii "assigned_user", ⟨.resolve .user, comparing "d.assigned_user_id = " ""⟩)]

/-- What `has_ticket` asks of the ticket, besides its link. -/
def extra (v : FilterValue) : String :=
  if v = .string (ascii "open") then " AND t.status NOT IN ('resolved','closed','merged')"
  else if v = .string (ascii "critical") then
    " AND t.priority = 'critical' AND t.status NOT IN ('resolved','closed','merged')"
  else if v = .string (ascii "high") then " AND t.priority = 'high' AND t.status NOT IN ('resolved','closed','merged')"
  else ""

def hasTicket (v : FilterValue) : Ctx (Option Template) :=
  return some [.text ("EXISTS (SELECT 1 FROM ticket_devices td JOIN tickets t ON t.id = td.ticket_id WHERE td.device_id = d.id".toList ++ (extra v).toList ++ ")".toList)]

def crossFilters : List (Units × Filter) := [
  (ascii "has_ticket", ⟨.enum (["any", "open", "critical", "high"].map ascii), hasTicket⟩),
  (ascii "failing_rule",
    ⟨.enum RULE_IDS, comparing
      "EXISTS (SELECT 1 FROM compliance_results cr WHERE cr.device_id = d.id AND cr.rule_id = " " AND cr.status = 'fail')"⟩),
  (ascii "in_group",
    ⟨.resolve .group, comparing
      "EXISTS (WITH RECURSIVE anc AS (
           SELECT group_id FROM group_members WHERE device_id = d.id
           UNION
           SELECT gm.group_id FROM group_members gm JOIN anc ON gm.member_group_id = anc.group_id
         ) SELECT 1 FROM anc WHERE anc.group_id = " ")"⟩)]

end Devices

def devices : Resource where
  table := "devices d"
  joins := ["LEFT JOIN users_cache u ON d.assigned_user_id = u.entra_id"]
  select := "
    d.id, d.hostname, d.serial, d.model, d.manufacturer, d.os, d.os_build,
    d.disk_used_pct, d.ram_gb, d.ip_netbird, d.agent_version, d.last_seen,
    d.compliance_state,
    u.entra_id AS user_id, u.display_name AS user_name, u.email AS user_email,
    u.department AS user_department"
  sort := [(ascii "hostname", "d.hostname"), (ascii "last_seen", "d.last_seen"),
    (ascii "disk_used_pct", "d.disk_used_pct"), (ascii "ram_gb", "d.ram_gb"), (ascii "created_at", "d.created_at")]
  defaultSort := ⟨ascii "hostname", false⟩
  defaultLimit := 100
  maxLimit := 500
  filters := Devices.filters
  crossFilters := Devices.crossFilters

def tickets : Resource where
  table := "tickets t"
  joins := ["LEFT JOIN users_cache u ON t.user_id = u.entra_id", "LEFT JOIN devices d ON t.device_id = d.id"]
  select := "
    t.id, t.title, t.status, t.priority, t.is_auto,
    t.created_at, t.updated_at, t.resolved_at,
    u.display_name AS requester_name, u.email AS requester_email,
    d.hostname AS device_hostname"
  sort := [(ascii "created_at", "t.created_at"), (ascii "updated_at", "t.updated_at"),
    (ascii "resolved_at", "t.resolved_at"),
    (ascii "priority", "CASE t.priority WHEN 'critical' THEN 0 WHEN 'high' THEN 1 WHEN 'normal' THEN 2 ELSE 3 END")]
  defaultSort := ⟨ascii "created_at", true⟩
  defaultLimit := 100
  maxLimit := 500
  filters := [
    (ascii "status", ⟨.enum (["open", "in_progress", "resolved", "closed", "merged"].map ascii),
      comparing "t.status = " ""⟩),
    (ascii "is_open", ⟨.bool, choosing "t.status NOT IN ('resolved','closed','merged')"
      "t.status IN ('resolved','closed','merged')"⟩),
    (ascii "priority", ⟨.enum (["low", "normal", "high", "critical"].map ascii), comparing "t.priority = " ""⟩),
    (ascii "title_contains", ⟨.text, containing "t.title ILIKE " ""⟩),
    (ascii "is_auto", ⟨.bool, comparing "t.is_auto = " ""⟩),
    (ascii "created_within_days", ⟨.number, comparing "t.created_at > now() - make_interval(days => " ")"⟩),
    (ascii "older_than_days",
      ⟨.number, comparing "t.resolved_at IS NULL AND t.created_at < now() - make_interval(days => " ")"⟩),
    (ascii "requester", ⟨.resolve .user, comparing "t.user_id = " ""⟩),
    (ascii "tag", ⟨.resolve .tag,
      comparing "EXISTS (SELECT 1 FROM ticket_tags tt WHERE tt.ticket_id = t.id AND tt.tag_id = " ")"⟩)]
  crossFilters := [
    (ascii "device_hostname", ⟨.text, containing
      "EXISTS (SELECT 1 FROM ticket_devices td JOIN devices dd ON dd.id = td.device_id WHERE td.ticket_id = t.id AND dd.hostname ILIKE " ")"⟩)]

def compliance : Resource where
  table := "compliance_results cr"
  joins := ["JOIN devices d ON d.id = cr.device_id", "LEFT JOIN users_cache u ON u.entra_id = d.assigned_user_id"]
  select := "
    cr.device_id, d.hostname, cr.rule_id, cr.status, cr.severity,
    cr.value, cr.evaluated_at, u.display_name AS user_name"
  sort := [
    (ascii "severity", "CASE cr.severity WHEN 'critical' THEN 0 WHEN 'high' THEN 1 WHEN 'medium' THEN 2 ELSE 3 END"),
    (ascii "evaluated_at", "cr.evaluated_at"), (ascii "hostname", "d.hostname")]
  defaultSort := ⟨ascii "severity", false⟩
  defaultLimit := 200
  maxLimit := 1000
  filters := [
    (ascii "rule", ⟨.enum RULE_IDS, comparing "cr.rule_id = " ""⟩),
    (ascii "status", ⟨.enum (["pass", "fail", "not_applicable"].map ascii), comparing "cr.status = " ""⟩),
    (ascii "severity", ⟨.enum (["low", "medium", "high", "critical"].map ascii), comparing "cr.severity = " ""⟩),
    (ascii "hostname_contains", ⟨.text, containing "d.hostname ILIKE " ""⟩)]
  crossFilters := []

def REGISTRY : List (Units × Resource) :=
  [(ascii "devices", devices), (ascii "tickets", tickets), (ascii "compliance", compliance)]

end Opale.Ask
