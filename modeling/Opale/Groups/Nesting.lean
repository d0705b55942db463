import Opale.Js.Values
import Opale.Sql.Relational
import Opale.Sql.Transactions

namespace Opale.Groups

open Js Sql

inductive GroupSource where
  | native | entra
  deriving Repr, DecidableEq

/-- A row of `groups`. Texts go by their UTF-16 units. -/
structure GroupRow where
  name : Units
  description : Option Units
  color : String
  source : GroupSource
  entraGroupId : Option Units
  createdBy : String
  updatedBy : String
  deriving DecidableEq

/-- What a group contains: exactly one of the three. -/
inductive Member where
  | device (id : Nat)
  | user (entraId : Units)
  | group (id : Nat)
  deriving DecidableEq

/-- A row of `group_members`. -/
structure GroupMember where
  groupId : Nat
  member : Member
  addedBy : String
  deriving DecidableEq

inductive GroupsTable where
  | groups
  | members
  | devices
  deriving Repr, DecidableEq

/-- A device counts by its host name. -/
abbrev GroupsTable.Row : GroupsTable → Type
  | .groups => GroupRow
  | .members => GroupMember
  | .devices => Units

/-- The entries of the unique indexes. -/
inductive GroupsEntry where
  | name (name : Units)
  | entra (entraGroupId : Units)
  | member (groupId : Nat) (member : Member)
  deriving DecidableEq

def groupsEntries : (n : GroupsTable) → n.Row → List GroupsEntry
  | .groups, g => .name g.name :: g.entraGroupId.toList.map .entra
  | .members, m => [.member m.groupId m.member]
  | .devices, _ => []

abbrev GroupsDb := Tables GroupsTable.Row

abbrev GroupsChange := RowChange GroupsTable.Row

abbrev GroupsLock := RowLock GroupsTable GroupsEntry

/-- An INSERT into `groups`, by the constraint that it violates. -/
inductive NewGroup where
  | created (id : Nat)
  | nameTaken
  | entraTaken
  deriving DecidableEq

/-- An INSERT into `group_members`. -/
inductive NewMember where
  | added (id : Nat)
  | already
  | noDevice
  deriving DecidableEq

inductive GroupsStmt where
  | groupById (id : Nat)
  | groupByEntra (entraGroupId : Units)
  | subgroups (groupId : Nat)
  | insertGroup (g : GroupRow)
  | deleteGroup (id : Nat)
  | detachGroup (id : Nat) (byUser : String)
  | devicesByHostname (hostnames : List Units)
  | clearMembers (groupId : Nat) (recursive : Bool)
  | insertMember (row : GroupMember)
  | deleteMember (id groupId : Nat)
  deriving DecidableEq

abbrev GroupsStmt.Ans : GroupsStmt → Type
  | .groupById _ | .deleteGroup _ | .detachGroup .. => Option GroupRow
  | .groupByEntra _ => Option (Nat × GroupRow)
  | .subgroups _ | .devicesByHostname _ => List Nat
  | .insertGroup _ => NewGroup
  | .clearMembers .. => Unit
  | .insertMember _ => NewMember
  | .deleteMember .. => Option Member

/-- The key of a new row, and the order of the rows where no order is asked for. -/
structure GroupsDraw where
  id : Nat
  order : List Nat

abbrev GroupsOutcome := Outcome GroupsChange GroupsLock

/-- The rows that the server lists in the order of the draw. -/
def listed {Row : Type} (rows : List (Nat × Row)) (draw : GroupsDraw) : Option (List (Nat × Row)) :=
  Table.orderBy rows (fun _ _ => true) draw.order

def Member.subgroup : Member → Option Nat
  | .group id => some id
  | _ => none

def taken (db : GroupsDb) (p : GroupRow → Bool) : Bool := !((db .groups).select fun _ g => p g).isEmpty

/-- The DELETE of a synchronisation: the users and the devices, and with the sub-groups those that come
from Entra. -/
def cleared (db : GroupsDb) (groupId : Nat) (recursive : Bool) (m : GroupMember) : Bool :=
  m.groupId = groupId && match m.member with
    | .group id => recursive && (db .groups)[id]?.any (·.source = .entra)
    | _ => true

def GroupsStmt.run : (s : GroupsStmt) → GroupsDraw → GroupsDb → Option (GroupsOutcome s.Ans)
  | .groupById id, _, db => some ⟨(db .groups)[id]?, [], []⟩
  | .groupByEntra entraGroupId, _, db => some ⟨((db .groups).select fun _ g => g.entraGroupId = some entraGroupId).head?, [], []⟩
  | .subgroups groupId, draw, db =>
    (listed ((db .members).select fun _ m => m.groupId = groupId && m.member.subgroup.isSome) draw).map fun rows =>
      ⟨rows.filterMap (·.2.member.subgroup), [], []⟩
  | .insertGroup g, draw, db =>
    if taken db fun h => h.name = g.name then some ⟨.nameTaken, [], []⟩
    else if taken db fun h => g.entraGroupId.isSome && h.entraGroupId = g.entraGroupId then some ⟨.entraTaken, [], []⟩
    else if (db .groups).contains draw.id then none
    else some ⟨.created draw.id, [⟨.groups, draw.id, some g⟩], []⟩
  | .deleteGroup id, _, db =>
    match (db .groups)[id]? with
    | none => some ⟨none, [], []⟩
    | some g => some ⟨some g, ⟨.groups, id, none⟩ ::
        writes .members ((db .members).deleted fun _ m => m.groupId = id || m.member = .group id), []⟩
  | .detachGroup id byUser, _, db =>
    match (db .groups)[id]?.filter (·.entraGroupId.isSome) with
    | none => some ⟨none, [], []⟩
    | some g =>
      let detached : GroupRow := { g with source := .native, entraGroupId := none, updatedBy := byUser }
      some ⟨some detached, [⟨.groups, id, some detached⟩], []⟩
  | .devicesByHostname hostnames, draw, db =>
    (listed ((db .devices).select fun _ hostname => hostnames.contains hostname) draw).map fun rows => ⟨rows.map (·.1), [], []⟩
  | .clearMembers groupId recursive, _, db =>
    some ⟨(), writes .members ((db .members).deleted fun _ m => cleared db groupId recursive m), []⟩
  | .insertMember row, draw, db =>
    if !((db .members).select fun _ m => m.groupId = row.groupId && m.member = row.member).isEmpty then some ⟨.already, [], []⟩
    else if (db .members).contains draw.id || !(db .groups).contains row.groupId then none
    else match row.member with
      | .device id => if (db .devices).contains id then some ⟨.added draw.id, [⟨.members, draw.id, some row⟩], []⟩
        else some ⟨.noDevice, [], []⟩
      | .user _ => some ⟨.added draw.id, [⟨.members, draw.id, some row⟩], []⟩
      | .group id => if id ≠ row.groupId && (db .groups).contains id then some ⟨.added draw.id, [⟨.members, draw.id, some row⟩], []⟩
        else none
  | .deleteMember id groupId, _, db =>
    match (db .members)[id]?.filter (·.groupId = groupId) with
    | none => some ⟨none, [], []⟩
    | some m => some ⟨some m.member, [⟨.members, id, none⟩], []⟩

def groupsSchema : Schema GroupsStmt.Ans GroupsDb GroupsChange GroupsLock GroupsDraw := relational groupsEntries GroupsStmt.run

/-- The calls to Graph, which throw a message. -/
inductive GraphCall where
  | getGroupDeviceHostnames (entraGroupId : Units)
  | getGroupUserIds (entraGroupId : Units)
  | getGroupNestedGroups (entraGroupId : Units)
  deriving DecidableEq

/-- A group of Entra, as its parent lists it. -/
structure EntraGroup where
  id : Units
  displayName : Option Units
  description : Option Units
  deriving DecidableEq

abbrev GraphCall.Reply : GraphCall → Type
  | .getGroupDeviceHostnames _ | .getGroupUserIds _ => Except String (List Units)
  | .getGroupNestedGroups _ => Except String (List EntraGroup)

abbrev GroupsApp := App GroupsStmt.Ans GraphCall.Reply

abbrev GroupsTx (α : Type) := Body GroupsStmt.Ans GraphCall.Reply String α

abbrev query (s : GroupsStmt) : GroupsApp (Option s.Ans) := App.query s

abbrev within (s : GroupsStmt) : GroupsTx s.Ans := Body.within s

/-- What a route answers; `error` is the text of its body. -/
structure Reply where
  code : Nat
  error : Option String
  deriving DecidableEq

def MAX_IMPORT_DEPTH : Nat := 20

/-- The loop over the sub-groups of a group, until one of them leads to the parent. The database spells them. -/
def anyCreatesCycle (check : Uuid → List Uuid → GroupsApp (Option (Bool × List Uuid))) :
    List Nat → List Uuid → GroupsApp (Option (Bool × List Uuid))
  | [], seen => return some (false, seen)
  | r :: rows, seen => do
    match ← check ⟨r, 0⟩ seen with
    | none => return none
    | some (true, seen) => return some (true, seen)
    | some (false, seen) => anyCreatesCycle check rows seen

/-- `===` and `_seen` are of the texts. `calls` bounds the depth of the recursion, which the code leaves open: a check
that ends has enough of them. Nothing is answered when a statement throws. -/
def wouldCreateCycle (parentId : Uuid) : Nat → Uuid → List Uuid → GroupsApp (Option (Bool × List Uuid))
  | 0, _, _ => return none
  | calls + 1, childId, seen =>
    if childId = parentId then return some (true, seen)
    else if childId ∈ seen then return some (false, seen)
    else do
      match ← query (.subgroups childId.id) with
      | none => return none
      | some rows => anyCreatesCycle (wouldCreateCycle parentId calls) rows (childId :: seen)

/-- The body of the POST of a member; a text may be empty. -/
structure MemberBody where
  deviceId : Option Nat
  userId : Option Units
  memberGroupId : Option Uuid
  deriving DecidableEq

/-- The columns of the INSERT that are not null. -/
def MemberBody.members (body : MemberBody) : List Member :=
  body.deviceId.toList.map .device ++ body.userId.toList.map .user ++ body.memberGroupId.toList.map fun g => .group g.id

/-- `[device_id, user_id, member_group_id].filter(Boolean).length` -/
def MemberBody.provided (body : MemberBody) : Nat := (body.members.filter fun m => m ≠ .user []).length

/-- The answer to the INSERT; an error without its own answer is a 500. -/
def memberReply : Option NewMember → Reply
  | some (.added _) => ⟨201, none⟩
  | some .already => ⟨409, some "Ce membre est déjà dans le groupe"⟩
  | some .noDevice => ⟨404, some "Device introuvable"⟩
  | none => ⟨500, none⟩

/-- The end of the POST: the INSERT, which the table refuses unless it has one member. -/
def addMember (groupId : Nat) (body : MemberBody) (byUser : String) : GroupsApp Reply := do
  match body.members with
  | [member] => return memberReply (← query (.insertMember ⟨groupId, member, byUser⟩))
  | _ => return ⟨500, none⟩

/-- `POST /api/groups/:id/members`; the audit, whose errors are caught, is left out of the routes. -/
def postMember (calls : Nat) (groupId : Uuid) (body : MemberBody) (byUser : String) : GroupsApp Reply := do
  match ← query (.groupById groupId.id) with
  | none => return ⟨500, none⟩
  | some none => return ⟨404, some "Groupe introuvable"⟩
  | some (some _) =>
    if body.provided = 0 then return ⟨400, some "device_id, user_id ou member_group_id requis"⟩
    else if 1 < body.provided then return ⟨400, some "Fournir un seul type de membre"⟩
    else
      match body.memberGroupId with
      | none => addMember groupId.id body byUser
      | some memberGroupId =>
        if memberGroupId = groupId then return ⟨400, some "Un groupe ne peut pas se contenir lui-même"⟩
        else
          match ← query (.groupById memberGroupId.id) with
          | none => return ⟨500, none⟩
          | some none => return ⟨404, some "Groupe membre introuvable"⟩
          | some (some _) =>
            match ← wouldCreateCycle groupId calls memberGroupId [] with
            | none => return ⟨500, none⟩
            | some (true, _) => return ⟨400, some "Ajout refusé : créerait un cycle de groupes"⟩
            | some (false, _) => addMember groupId.id body byUser

/-- `DELETE /api/groups/:id/members/:mid` -/
def deleteMember (groupId mid : Nat) : GroupsApp Reply := do
  match ← query (.groupById groupId) with
  | none => return ⟨500, none⟩
  | some none => return ⟨404, some "Groupe introuvable"⟩
  | some (some _) =>
    match ← query (.deleteMember mid groupId) with
    | none => return ⟨500, none⟩
    | some none => return ⟨404, some "Membre introuvable"⟩
    | some (some _) => return ⟨204, none⟩

def GROUP_COLORS : List String := ["slate", "blue", "green", "amber", "red", "violet", "pink", "teal"]

/-- `POST /api/groups`, the name trimmed. -/
def postGroup (name : Units) (description : Option Units) (color byUser : String) : GroupsApp Reply := do
  if name = [] then return ⟨400, some "name requis"⟩
  else if color ∉ GROUP_COLORS then return ⟨400, some "Couleur invalide"⟩
  else
    match ← query (.insertGroup ⟨name, description, color, .native, none, byUser, byUser⟩) with
    | some (.created _) => return ⟨201, none⟩
    | some .nameTaken => return ⟨409, some "Un groupe avec ce nom existe déjà"⟩
    | some .entraTaken | none => return ⟨500, none⟩

/-- `DELETE /api/groups/:id` -/
def deleteGroup (id : Nat) : GroupsApp Reply := do
  match ← query (.deleteGroup id) with
  | none => return ⟨500, none⟩
  | some none => return ⟨404, some "Groupe introuvable"⟩
  | some (some _) => return ⟨204, none⟩

/-- `POST /api/groups/:id/detach-entra` -/
def detachEntra (id : Nat) (byUser : String) : GroupsApp Reply := do
  match ← query (.detachGroup id byUser) with
  | none => return ⟨500, none⟩
  | some none => return ⟨404, some "Groupe introuvable ou déjà détaché"⟩
  | some (some _) => return ⟨200, none⟩

inductive ImportMode where
  | «import» | sync
  deriving Repr, DecidableEq

structure ImportStats where
  groups_created : Nat
  devices : Nat
  users : Nat
  unmatched : Int
  depth_truncated : Bool
  deriving DecidableEq

/-- What the calls of one import share: `seen` and `stats`. -/
structure ImportState where
  seen : List (Units × Nat)
  stats : ImportStats
  deriving DecidableEq

structure ImportOptions where
  color : String
  byUser : String
  recursive : Bool
  mode : ImportMode
  deriving DecidableEq

/-- The name of the attempt, with a part of the Entra identifier after the first. -/
def tryName (name entraGroupId : Units) (attempt : Nat) : Units :=
  if attempt = 0 then name.take 200
  else (name ++ ascii " [" ++ entraGroupId.take 6 ++ (if 1 < attempt then ascii ("-" ++ toString attempt) else []) ++ ascii "]").take 200

/-- `createEntraGroup`: the SAVEPOINT turns a violated constraint into an answer. `attempts` are left. -/
def createEntraGroup (name : Units) (description : Option Units) (color byUser : String) (entraGroupId : Units) :
    Nat → GroupsTx Nat
  | 0 => Body.fail ("Nom de groupe importé impossible à attribuer (collisions): " ++ String.ofList (scalars name))
  | attempts + 1 => do
    let tried := tryName name entraGroupId (5 - attempts)
    match ← within (.insertGroup ⟨tried, description, color, .entra, some entraGroupId, byUser, byUser⟩) with
    | .created id => return id
    | .nameTaken => createEntraGroup name description color byUser entraGroupId attempts
    | .entraTaken =>
      match ← within (.groupByEntra entraGroupId) with
      | some (id, _) => return id
      | none => Body.fail "groups_entra_group_id_uniq"

/-- What Graph answers; its error is thrown again under the name of the group. -/
def graphAnswer {α : Type} (entraGroupId : Units) : Except String α → GroupsTx α
  | .ok value => return value
  | .error message => Body.fail ("Graph (" ++ String.ofList (scalars entraGroupId) ++ "): " ++ message)

/-- The INSERTs with ON CONFLICT DO NOTHING. -/
def insertMembers (groupId : Nat) (byUser : String) : List Member → GroupsTx Unit
  | [] => return ()
  | member :: members => do
    match ← within (.insertMember ⟨groupId, member, byUser⟩) with
    | .noDevice => Body.fail "group_members_device_id_fkey"
    | .added _ | .already => insertMembers groupId byUser members

/-- The direct members of a group that is new, or synchronised. -/
def importMembers (options : ImportOptions) (groupId : Nat) (hostnames userIds : List Units) (stats : ImportStats) :
    GroupsTx ImportStats := do
  let devs ← within (.devicesByHostname hostnames)
  if options.mode = .sync then within (.clearMembers groupId options.recursive) else pure ()
  insertMembers groupId options.byUser (devs.map .device)
  insertMembers groupId options.byUser (userIds.map .user)
  return { stats with
    devices := stats.devices + devs.length
    users := stats.users + userIds.length
    unmatched := stats.unmatched + (hostnames.length - devs.length : Int) }

/-- The loop over the sub-groups: each is imported, then linked to its parent. -/
def importNested (child : EntraGroup → ImportState → GroupsTx (Option Nat × ImportState)) (groupId : Nat) (byUser : String) :
    List EntraGroup → ImportState → GroupsTx ImportState
  | [], state => return state
  | ng :: nested, state => do
    match ← child ng state with
    | (none, state) => importNested child groupId byUser nested state
    | (some childId, state) =>
      let _ ← within (.insertMember ⟨groupId, .group childId, byUser⟩)
      importNested child groupId byUser nested state

/-- The group of Opale for a group of Entra, and whether it is new. -/
def findOrCreate (options : ImportOptions) (entra : EntraGroup) (state : ImportState) : GroupsTx (Nat × Bool × ImportState) := do
  match ← within (.groupByEntra entra.id) with
  | some (id, _) => return (id, false, state)
  | none =>
    let name := match entra.displayName with | some (u :: name) => u :: name | _ => entra.id
    let id ← createEntraGroup name entra.description options.color options.byUser entra.id 6
    return (id, true, { state with stats := { state.stats with groups_created := state.stats.groups_created + 1 } })

def getNestedGroups (options : ImportOptions) (entraGroupId : Units) : GroupsTx (List EntraGroup) := do
  if options.recursive then graphAnswer entraGroupId (← Body.call (.getGroupNestedGroups entraGroupId)) else return []

/-- The direct members are replaced in a group that is new, or synchronised. -/
def repeople (options : ImportOptions) (id : Nat) (created : Bool) (hostnames userIds : List Units) (stats : ImportStats) :
    GroupsTx ImportStats :=
  if created || options.mode = .sync then importMembers options id hostnames userIds stats else return stats

/-- `importEntraTree`; `levels` is what is left of the depth. -/
def importEntraTree (options : ImportOptions) : Nat → EntraGroup → ImportState → GroupsTx (Option Nat × ImportState)
  | levels, entra, state =>
    match state.seen.lookup entra.id with
    | some id => return (some id, state)
    | none =>
      match levels with
      | 0 => return (none, { state with stats := { state.stats with depth_truncated := true } })
      | levels + 1 => do
        let (id, created, state) ← findOrCreate options entra state
        let hostnames ← graphAnswer entra.id (← Body.call (.getGroupDeviceHostnames entra.id))
        let userIds ← graphAnswer entra.id (← Body.call (.getGroupUserIds entra.id))
        let nested ← getNestedGroups options entra.id
        let stats ← repeople options id created hostnames userIds state.stats
        let state ← importNested (importEntraTree options levels) id options.byUser nested ⟨(entra.id, id) :: state.seen, stats⟩
        return (some id, state)

def ImportState.start : ImportState := ⟨[], ⟨0, 0, 0, 0, false⟩⟩

/-- Errors of Graph are a 502. -/
def importReply : Except (Thrown String) (Option Nat × ImportState) → Reply
  | .ok _ => ⟨200, none⟩
  | .error (.error message) => if message.startsWith "Graph" then ⟨502, some message⟩ else ⟨500, none⟩
  | .error .driver => ⟨500, none⟩

/-- `POST /api/groups/import-from-entra`, its texts trimmed. -/
def importFromEntra (entra : EntraGroup) (color byUser : String) (recursive : Bool) : GroupsApp Reply := do
  if entra.id = [] then return ⟨400, some "entra_group_id requis"⟩
  else if entra.displayName = none ∨ entra.displayName = some [] then return ⟨400, some "name requis"⟩
  else if color ∉ GROUP_COLORS then return ⟨400, some "Couleur invalide"⟩
  else
    match ← query (.groupByEntra entra.id) with
    | none => return ⟨500, none⟩
    | some (some (_, dup)) =>
      return ⟨409, some ("Ce groupe Entra est déjà importé sous le nom \"" ++ String.ofList (scalars dup.name) ++ "\"")⟩
    | some none =>
      let imported ← App.transaction (importEntraTree ⟨color, byUser, recursive, .import⟩ (MAX_IMPORT_DEPTH + 1) entra .start)
      return { importReply imported with code := if (importReply imported).code = 200 then 201 else (importReply imported).code }

/-- `POST /api/groups/:id/sync-from-entra` -/
def syncFromEntra (id : Nat) (byUser : String) (recursive : Bool) : GroupsApp Reply := do
  match ← query (.groupById id) with
  | none => return ⟨500, none⟩
  | some none => return ⟨404, some "Groupe introuvable"⟩
  | some (some grp) =>
    match grp.entraGroupId with
    | none => return ⟨409, some "Ce groupe n'est pas lié à un groupe Entra"⟩
    | some entraGroupId =>
      return importReply (← App.transaction (importEntraTree ⟨"slate", byUser, recursive, .sync⟩ (MAX_IMPORT_DEPTH + 1)
        ⟨entraGroupId, some grp.name, none⟩ .start))

end Opale.Groups
