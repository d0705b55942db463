import Opale.Groups.CycleCheck
import Opale.Relations.Search

namespace Opale.Groups

open Js Sql Relation

def MAX_GROUP_DEPTH : Nat := 20

/-- `Set.add` -/
def add (ids : List Nat) (id : Nat) : List Nat := if id ∈ ids then ids else ids ++ [id]

/-- What the loop does with a row; `resolve` is the call on a sub-group, which the database spells. -/
def gather (resolve : Uuid → List Uuid → List Nat × List Uuid) : List Nat × List Uuid → Member → List Nat × List Uuid
  | (ids, seen), .device id => (add ids id, seen)
  | (ids, seen), .group memberGroupId =>
    let (found, seen) := resolve (own memberGroupId) seen
    (found.foldl add ids, seen)
  | (ids, seen), .user _ => (ids, seen)

/-- The devices of a group and of its sub-groups, and `_seen` afterwards, which holds texts; `rows` is what the
query answers for each group. The first argument is `MAX_GROUP_DEPTH + 1 - _depth`. -/
def resolveFrom (rows : Nat → List Member) : Nat → Uuid → List Uuid → List Nat × List Uuid
  | 0, _, seen => ([], seen)
  | left + 1, groupId, seen =>
    if groupId ∈ seen then ([], seen)
    else (rows groupId.id).foldl (gather (resolveFrom rows left)) ([], groupId :: seen)

def resolveGroupDeviceIds (rows : Nat → List Member) (groupId : Uuid) : List Nat :=
  (resolveFrom rows (MAX_GROUP_DEPTH + 1) groupId []).1

/-- One of the calls is for a group that is not in `_seen`, and beyond the greatest depth. -/
inductive CutsOff (rows : Nat → List Member) : Nat → Uuid → List Uuid → Prop
  | here {groupId seen} : groupId ∉ seen → CutsOff rows 0 groupId seen
  | member {left groupId seen before memberGroupId after} : groupId ∉ seen →
      rows groupId.id = before ++ .group memberGroupId :: after →
      CutsOff rows left (own memberGroupId) (before.foldl (gather (resolveFrom rows left)) ([], groupId :: seen)).2 →
      CutsOff rows (left + 1) groupId seen

/-- What the query of `group_members` answers for each group, in any order. -/
def Lists (db : GroupsDb) (rows : Nat → List Member) : Prop :=
  ∀ g m, m ∈ rows g ↔ ∃ (id : Nat) (addedBy : String), (db .members)[id]? = some ⟨g, m, addedBy⟩

/-- The recursive query `anc` of the check-in: the groups of a device, and their parents. -/
inductive Anc (db : GroupsDb) (deviceId : Nat) : Nat → Prop
  | member {id g : Nat} {addedBy : String} : (db .members)[id]? = some ⟨g, .device deviceId, addedBy⟩ → Anc db deviceId g
  | parent {id g a : Nat} {addedBy : String} : Anc db deviceId a → (db .members)[id]? = some ⟨g, .group a, addedBy⟩ →
      Anc db deviceId g

/-- The sub-groups of a group in the order of the rows, as the database spells them. -/
def subgroups (rows : Nat → List Member) (g : Uuid) : List Uuid := (rows g.id).filterMap fun m => m.subgroup.map own

variable {db : GroupsDb} {rows : Nat → List Member} {left x d : Nat} {g y : Uuid} {ids : List Nat} {seen : List Uuid}

theorem mem_subgroups : y ∈ subgroups rows g ↔ y.spelling = 0 ∧ .group y.id ∈ rows g.id := by
  unfold subgroups
  rw [List.mem_filterMap]
  constructor
  · rintro ⟨m, member, sub⟩
    cases m with
    | group id =>
      cases sub
      exact ⟨rfl, member⟩
    | device | user => cases sub
  · rintro ⟨spelled, member⟩
    obtain ⟨id, spelling⟩ := y
    cases spelled
    exact ⟨_, member, rfl⟩

theorem linked_iff (lists : Lists db rows) : Linked db g.id x ↔ own x ∈ subgroups rows g := by
  rw [mem_subgroups, lists]
  exact ⟨fun link => ⟨rfl, link⟩, fun member => member.2⟩

theorem anc_iff (lists : Lists db rows) {a : Nat} : Anc db d a ↔ ∃ x, Leads db a x ∧ .device d ∈ rows x := by
  constructor
  · intro anc
    induction anc with
    | member found => exact ⟨_, .refl, (lists _ _).mpr ⟨_, _, found⟩⟩
    | parent _ found ih =>
      obtain ⟨x, way, inside⟩ := ih
      exact ⟨x, .head ⟨_, _, found⟩ way, inside⟩
  · rintro ⟨x, way, inside⟩
    induction way using ReflTransGen.head_induction_on with
    | refl =>
      obtain ⟨id, addedBy, found⟩ := (lists _ _).mp inside
      exact .member found
    | head link _ ih =>
      obtain ⟨id, addedBy, found⟩ := link
      exact .parent ih found

theorem mem_add {id : Nat} : d ∈ add ids id ↔ d ∈ ids ∨ d = id := by
  unfold add
  split
  case isTrue inside =>
    refine (or_iff_left_of_imp ?_).symm
    rintro rfl
    exact inside
  case isFalse => rw [List.mem_append, List.mem_singleton]

theorem nodup_add {id : Nat} (nodup : ids.Nodup) : (add ids id).Nodup := by
  unfold add
  split
  case isTrue => exact nodup
  case isFalse new => exact List.nodup_append_comm.mp (List.nodup_cons.mpr ⟨new, nodup⟩)

theorem mem_foldl_add {found : List Nat} : d ∈ found.foldl add ids ↔ d ∈ ids ∨ d ∈ found := by
  induction found generalizing ids with
  | nil => simp
  | cons a found ih =>
    rw [List.foldl_cons, ih, mem_add, List.mem_cons, or_assoc]

theorem nodup_foldl_add {found : List Nat} (nodup : ids.Nodup) : (found.foldl add ids).Nodup := by
  induction found generalizing ids with
  | nil => exact nodup
  | cons a found ih => exact ih (nodup_add nodup)

/-- The loop over the rows searches the sub-groups one after the other. -/
theorem gather_seen {members : List Member} {resolve : Uuid → List Uuid → List Nat × List Uuid}
    {search : Uuid → List Uuid → List Uuid} (same : ∀ g seen, (resolve g seen).2 = search g seen) :
    (members.foldl (gather resolve) (ids, seen)).2 =
      (members.filterMap fun m => m.subgroup.map own).foldl (fun seen g => search g seen) seen := by
  induction members generalizing ids seen with
  | nil => rfl
  | cons m members ih =>
    cases m with
    | device id => exact ih
    | user id => exact ih
    | group g =>
      refine ih.trans ?_
      rw [same]
      rfl

theorem resolveFrom_seen : (resolveFrom rows left g seen).2 = enter (subgroups rows) left g seen := by
  induction left generalizing g seen with
  | zero => rfl
  | succ left ih =>
    unfold resolveFrom enter
    split
    · rfl
    · exact gather_seen fun g seen => ih

theorem enter_mono {next : Uuid → List Uuid} : seen ⊆ enter next left g seen := by
  induction left generalizing g seen with
  | zero => exact List.Subset.refl _
  | succ left ih =>
    unfold enter
    split
    · exact List.Subset.refl _
    · refine List.Subset.trans (List.subset_cons_self g seen) ?_
      generalize g :: seen = seen
      induction next g generalizing seen with
      | nil => exact List.Subset.refl _
      | cons w rest later => exact List.Subset.trans ih (later (enter next left w seen))

theorem gather_mono {members : List Member} {resolve : Uuid → List Uuid → List Nat × List Uuid}
    (grows : ∀ g seen, seen ⊆ (resolve g seen).2) : seen ⊆ (members.foldl (gather resolve) (ids, seen)).2 := by
  induction members generalizing ids seen with
  | nil => exact List.Subset.refl _
  | cons m members ih =>
    cases m with
    | device id => exact ih
    | user id => exact ih
    | group g => exact List.Subset.trans (grows (own g) seen) ih

/-- The loop adds the devices of the rows, and those of the groups that it enters. -/
theorem gather_devices {members : List Member} {resolve : Uuid → List Uuid → List Nat × List Uuid}
    (grows : ∀ g seen, seen ⊆ (resolve g seen).2)
    (found : ∀ g seen d, d ∈ (resolve g seen).1 ↔ ∃ x ∈ (resolve g seen).2, x ∉ seen ∧ .device d ∈ rows x.id) :
    d ∈ (members.foldl (gather resolve) (ids, seen)).1 ↔ d ∈ ids ∨ .device d ∈ members ∨
      ∃ x ∈ (members.foldl (gather resolve) (ids, seen)).2, x ∉ seen ∧ .device d ∈ rows x.id := by
  induction members generalizing ids seen with
  | nil =>
    refine ⟨.inl, fun inside => ?_⟩
    rcases inside with old | none_ | ⟨x, inside, new, -⟩
    · exact old
    · cases none_
    · exact absurd inside new
  | cons m members ih =>
    cases m with
    | user id =>
      refine ih.trans ?_
      simp [gather]
    | device id =>
      refine ih.trans ?_
      rw [mem_add, List.mem_cons, Member.device.injEq, or_assoc, or_assoc]
      exact Iff.rfl
    | group g =>
      refine ih.trans ?_
      have step : gather resolve (ids, seen) (.group g) = ((resolve (own g) seen).1.foldl add ids, (resolve (own g) seen).2) := rfl
      rw [mem_foldl_add, found, List.foldl_cons, step]
      have more : (resolve (own g) seen).2 ⊆
          (members.foldl (gather resolve) ((resolve (own g) seen).1.foldl add ids, (resolve (own g) seen).2)).2 := gather_mono grows
      generalize members.foldl (gather resolve) _ = last at more ⊢
      have other : Member.device d ∈ Member.group g :: members ↔ Member.device d ∈ members := by simp
      rw [other]
      constructor
      · rintro ((old | ⟨x, inside, new, here⟩) | listed | ⟨x, inside, new, here⟩)
        · exact .inl old
        · exact .inr (.inr ⟨x, more inside, new, here⟩)
        · exact .inr (.inl listed)
        · exact .inr (.inr ⟨x, inside, fun old => new (grows (own g) seen old), here⟩)
      · rintro (old | listed | ⟨x, inside, new, here⟩)
        · exact .inl (.inl old)
        · exact .inr (.inl listed)
        · by_cases below : x ∈ (resolve (own g) seen).2
          · exact .inl (.inr ⟨x, below, new, here⟩)
          · exact .inr (.inr ⟨x, inside, below, here⟩)

theorem resolveFrom_mono : seen ⊆ (resolveFrom rows left g seen).2 := by
  rw [resolveFrom_seen]
  exact enter_mono

theorem mem_nothing : d ∈ ([] : List Nat) ↔ ∃ x ∈ seen, x ∉ seen ∧ .device d ∈ rows x.id := by
  refine iff_of_false List.not_mem_nil ?_
  rintro ⟨x, inside, new, -⟩
  exact new inside

/-- The devices found are those of the groups that the search has entered. -/
theorem mem_resolveFrom : d ∈ (resolveFrom rows left g seen).1 ↔
    ∃ x ∈ (resolveFrom rows left g seen).2, x ∉ seen ∧ .device d ∈ rows x.id := by
  induction left generalizing g seen d with
  | zero => exact mem_nothing
  | succ left ih =>
    unfold resolveFrom
    split
    case isTrue => exact mem_nothing
    case isFalse new =>
      rw [gather_devices (fun _ _ => resolveFrom_mono) fun g seen d => ih]
      have more : g :: seen ⊆ ((rows g.id).foldl (gather (resolveFrom rows left)) ([], g :: seen)).2 :=
        gather_mono fun _ _ => resolveFrom_mono
      constructor
      · rintro (none_ | here | ⟨x, inside, other, here⟩)
        · cases none_
        · exact ⟨g, more List.mem_cons_self, new, here⟩
        · exact ⟨x, inside, fun old => other (List.mem_cons_of_mem g old), here⟩
      · rintro ⟨x, inside, other, here⟩
        by_cases same : x = g
        · subst same
          exact .inr (.inl here)
        · refine .inr (.inr ⟨x, inside, ?_, here⟩)
          exact fun old => (List.mem_cons.mp old).elim same other

theorem gather_nodup {members : List Member} {resolve : Uuid → List Uuid → List Nat × List Uuid} (nodup : ids.Nodup) :
    (members.foldl (gather resolve) (ids, seen)).1.Nodup := by
  induction members generalizing ids seen with
  | nil => exact nodup
  | cons m members ih =>
    cases m with
    | user id => exact ih nodup
    | device id => exact ih (nodup_add nodup)
    | group g => exact ih (nodup_foldl_add nodup)

theorem resolveGroupDeviceIds_nodup : (resolveGroupDeviceIds rows g).Nodup :=
  gather_nodup List.nodup_nil

/-- The row of a sub-group, and those before it. -/
theorem exists_row {members : List Member} {k : Nat} {w : Uuid} (child : (members.filterMap fun m => m.subgroup.map own)[k]? = some w) :
    ∃ before m rest, members = before ++ .group m :: rest ∧ own m = w ∧
      (members.filterMap fun m => m.subgroup.map own).take k = before.filterMap fun m => m.subgroup.map own := by
  induction members generalizing k with
  | nil => cases child
  | cons member members ih =>
    cases member with
    | device id =>
      obtain ⟨before, m, rest, rfl, same, taken⟩ := ih child
      exact ⟨.device id :: before, m, rest, rfl, same, taken⟩
    | user id =>
      obtain ⟨before, m, rest, rfl, same, taken⟩ := ih child
      exact ⟨.user id :: before, m, rest, rfl, same, taken⟩
    | group id =>
      cases k with
      | zero =>
        cases child
        exact ⟨[], id, members, rfl, rfl, rfl⟩
      | succ k =>
        obtain ⟨before, m, rest, rfl, same, taken⟩ := ih (k := k) child
        exact ⟨.group id :: before, m, rest, rfl, same, congrArg (own id :: ·) taken⟩

/-- A call beyond the greatest depth is one that cuts the search. -/
theorem cutsOff_iff : CutsOff rows left g seen ↔ Cut (subgroups rows) left g seen := by
  have after {left : Nat} {g : Uuid} {seen : List Uuid} (before : List Member) :
      (before.foldl (gather (resolveFrom rows left)) ([], g :: seen)).2 =
        (before.filterMap fun m => m.subgroup.map own).foldl (fun seen g => enter (subgroups rows) left g seen) (g :: seen) :=
    gather_seen fun g seen => resolveFrom_seen
  constructor
  · intro cuts
    induction cuts with
    | here new => exact .here new
    | @member left g seen before m rest new listed _ ih =>
      have split : subgroups rows g = (before.filterMap fun m => m.subgroup.map own) ++ own m ::
          rest.filterMap fun m => m.subgroup.map own := by
        unfold subgroups
        rw [listed, List.filterMap_append]
        rfl
      refine .deeper (w := own m) (k := (before.filterMap fun m => m.subgroup.map own).length) new ?_ ?_
      · rw [split, List.getElem?_append_right le_rfl, Nat.sub_self]
        rfl
      · rw [split, List.take_left, ← after]
        exact ih
  · intro cut
    induction cut with
    | here new => exact .here new
    | @deeper left g seen k w new child _ ih =>
      obtain ⟨before, m, rest, listed, rfl, taken⟩ := exists_row child
      have taken : (subgroups rows g).take k = before.filterMap fun m => m.subgroup.map own := taken
      rw [taken, ← after] at ih
      exact .member new listed ih

theorem leads_endOf (lists : Lists db rows) {c : List Nat} (ends : endOf (subgroups rows) g c = some y) : Leads db g.id y.id := by
  induction c generalizing g with
  | nil =>
    cases ends
    exact .refl
  | cons i c ih =>
    obtain ⟨z, child, ends⟩ := Option.bind_eq_some_iff.mp ends
    obtain ⟨spelled, member⟩ := mem_subgroups.mp (List.mem_of_getElem? child)
    exact .head ((lists _ _).mp member) (ih ends)

/-- A group below another is at the end of a chain of rows, or it is the group itself, in its own spelling. -/
theorem exists_chain (lists : Lists db rows) (leads : Leads db g.id x) :
    ∃ c y, endOf (subgroups rows) g c = some y ∧ y.id = x := by
  induction leads with
  | refl => exact ⟨[], g, rfl, rfl⟩
  | tail _ link ih =>
    obtain ⟨c, y, ends, rfl⟩ := ih
    obtain ⟨k, child⟩ := List.mem_iff_getElem?.mp ((linked_iff lists).mp link)
    exact ⟨c ++ [k], _, endOf_concat ends child, rfl⟩

/-- No call is cut off exactly when no first way to a group is longer than the greatest depth; and then the devices
resolved are those whose check-in counts the group among its ancestors. -/
theorem resolve_exact (lists : Lists db rows) (g : Uuid) :
    ((∀ c, First (subgroups rows) g c → c.length ≤ MAX_GROUP_DEPTH) ↔ ¬CutsOff rows (MAX_GROUP_DEPTH + 1) g []) ∧
    ((∀ c, First (subgroups rows) g c → c.length ≤ MAX_GROUP_DEPTH) →
      (resolveGroupDeviceIds rows g).Nodup ∧ ∀ d, d ∈ resolveGroupDeviceIds rows g ↔ Anc db d g.id) := by
  have short : (∀ c, First (subgroups rows) g c → c.length ≤ MAX_GROUP_DEPTH) ↔ ¬CutsOff rows (MAX_GROUP_DEPTH + 1) g [] := by
    rw [cutsOff_iff, cut_iff]
    simp only [not_exists, not_and, not_lt]
  refine ⟨short, fun all => ⟨resolveGroupDeviceIds_nodup, fun d => ?_⟩⟩
  have uncut : ¬Cut (subgroups rows) (MAX_GROUP_DEPTH + 1) g [] := fun cut => short.mp all (cutsOff_iff.mpr cut)
  unfold resolveGroupDeviceIds
  rw [mem_resolveFrom, resolveFrom_seen, anc_iff lists]
  constructor
  · rintro ⟨y, entered, -, here⟩
    obtain ⟨c, ends⟩ := (mem_search uncut y).mp entered
    exact ⟨y.id, leads_endOf lists ends, here⟩
  · rintro ⟨x, leads, here⟩
    obtain ⟨c, y, ends, rfl⟩ := exists_chain lists leads
    exact ⟨y, (mem_search uncut y).mpr ⟨c, ends⟩, List.not_mem_nil, here⟩

/-! The rows of a table, numbered, and the same rows group by group. -/

def numbered : List GroupMember → Nat → Table GroupMember
  | [], _ => ∅
  | m :: ms, i => (numbered ms (i + 1)).put i (some m)

theorem getElem?_numbered (ms : List GroupMember) (i id : Nat) :
    (numbered ms i)[id]? = if i ≤ id then ms[id - i]? else none := by
  induction ms generalizing i with
  | nil => simp [numbered]
  | cons m ms ih =>
    unfold numbered
    by_cases same : id = i
    · subst same
      rw [Table.getElem?_put_self]
      simp
    · rw [Table.getElem?_put_of_ne _ same, ih]
      by_cases after : i + 1 ≤ id
      · have more : id - i = id - (i + 1) + 1 := by omega
        rw [if_pos after, if_pos (by omega), more, List.getElem?_cons_succ]
      · rw [if_neg after, if_neg (by omega)]

def membersDb (ms : List GroupMember) : GroupsDb
  | .members => numbered ms 0
  | .groups | .devices => ∅

def rowsOf (ms : List GroupMember) (g : Nat) : List Member := (ms.filter (·.groupId = g)).map (·.member)

theorem lists_rowsOf (ms : List GroupMember) : Lists (membersDb ms) (rowsOf ms) := by
  intro g m
  have stored (id : Nat) : (membersDb ms .members)[id]? = ms[id]? := by
    refine (getElem?_numbered ms 0 id).trans ?_
    simp
  unfold rowsOf
  rw [List.mem_map]
  constructor
  · rintro ⟨row, member, rfl⟩
    obtain ⟨inside, here⟩ := List.mem_filter.mp member
    obtain ⟨id, found⟩ := List.mem_iff_getElem?.mp inside
    refine ⟨id, row.addedBy, ?_⟩
    rw [stored, found, ← of_decide_eq_true here]
  · rintro ⟨id, addedBy, found⟩
    rw [stored] at found
    exact ⟨_, List.mem_filter.mpr ⟨List.mem_of_getElem? found, decide_eq_true rfl⟩, rfl⟩

/-- The group 0 contains the group 3 in two ways, and is contained in it; the device 7 is in the group 3. -/
def diamond : List GroupMember :=
  [⟨0, .group 1, ""⟩, ⟨0, .group 2, ""⟩, ⟨1, .group 3, ""⟩, ⟨2, .group 3, ""⟩, ⟨3, .group 0, ""⟩, ⟨3, .device 7, ""⟩]

theorem diamond_closed : ∀ y ∈ ({⟨0, 1⟩, own 0, own 1, own 2, own 3} : Finset Uuid), ∀ z ∈ subgroups (rowsOf diamond) y,
    z ∈ ({⟨0, 1⟩, own 0, own 1, own 2, own 3} : Finset Uuid) := by
  decide

/-- The group 0, spelled in another way than the database does. -/
theorem resolve_exact_diamond : resolveGroupDeviceIds (rowsOf diamond) ⟨0, 1⟩ = [7] ∧
    ∀ d, d ∈ resolveGroupDeviceIds (rowsOf diamond) ⟨0, 1⟩ ↔ Anc (membersDb diamond) d 0 := by
  refine ⟨by decide, ((resolve_exact (lists_rowsOf diamond) ⟨0, 1⟩).2 fun c first => ?_).2⟩
  have start : (⟨0, 1⟩ : Uuid) ∈ ({⟨0, 1⟩, own 0, own 1, own 2, own 3} : Finset Uuid) := by decide
  exact (first.1.length_lt start diamond_closed).le.trans (by decide)

/-- The group 0 leads to the group 20 by 20 links and by one; the device 7 is in the group behind it. -/
def shortcut : List GroupMember :=
  (List.range 20).map (fun i => ⟨i, .group (i + 1), ""⟩) ++
    [⟨0, .group 20, ""⟩, ⟨20, .group 21, ""⟩, ⟨21, .device 7, ""⟩]

/-- The shortest ways to the groups of `shortcut`. -/
def way (x : Nat) : List Nat := if x = 21 then [1, 0] else List.replicate x 0

theorem shortcut_way : ∀ x < 22, (way x).length ≤ MAX_GROUP_DEPTH ∧
    endOf (subgroups (rowsOf shortcut)) (own 0) (way x) = some (own x) := by
  decide

theorem shortcut_bounded {x : Nat} (leads : Leads (membersDb shortcut) 0 x) : x < 22 := by
  induction leads with
  | refl => decide
  | @tail a b _ link =>
    have bounded : ∀ m ∈ shortcut, ∀ id ∈ m.member.subgroup, id < 22 := by decide
    obtain ⟨-, child⟩ := mem_subgroups.mp ((linked_iff (lists_rowsOf shortcut) (g := own a)).mp link)
    obtain ⟨row, member, same⟩ := List.mem_map.mp child
    refine bounded row (List.mem_of_mem_filter member) b ?_
    rw [same]
    rfl

/-- Every group below the group 0 is at most 20 links away, and the device 7 is not resolved. -/
theorem resolve_misses : ¬∀ (db : GroupsDb) (rows : Nat → List Member) (g : Uuid), Lists db rows →
    (∀ x, Leads db g.id x → ∃ (c : List Nat) (y : Uuid), y.id = x ∧ c.length ≤ MAX_GROUP_DEPTH ∧
      endOf (subgroups rows) g c = some y) →
    (resolveGroupDeviceIds rows g).Nodup ∧ ∀ d, d ∈ resolveGroupDeviceIds rows g ↔ Anc db d g.id := by
  intro exact_
  have lists := lists_rowsOf shortcut
  have near := exact_ _ _ (own 0) lists fun x leads => ⟨way x, own x, rfl, shortcut_way x (shortcut_bounded leads)⟩
  have reached : endOf (subgroups (rowsOf shortcut)) (own 0) (way 21) = some (own 21) := (shortcut_way 21 (by decide)).2
  have anc : Anc (membersDb shortcut) 7 0 := (anc_iff lists).mpr ⟨21, leads_endOf lists reached, by decide⟩
  have missed : resolveGroupDeviceIds (rowsOf shortcut) (own 0) = [] := by decide
  have found := (near.2 7).mpr anc
  rw [missed] at found
  cases found

end Opale.Groups
