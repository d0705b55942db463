import Opale.Groups.Nesting
import Opale.Relations.Acyclic

namespace Opale.Groups

open Js Sql Relation

/-- The second group is a member of the first. -/
def Linked (db : GroupsDb) (a b : Nat) : Prop :=
  ∃ (id : Nat) (addedBy : String), (db .members)[id]? = some (⟨a, .group b, addedBy⟩ : GroupMember)

/-- The second group is the first, or one of its descendants. -/
abbrev Leads (db : GroupsDb) : Nat → Nat → Prop := ReflTransGen (Linked db)

/-- No group is its own descendant. -/
def NoCycle (db : GroupsDb) : Prop := Acyclic (Linked db)

/-- The group and the sub-group that a change links. -/
def nests : GroupsChange → Option (Nat × Nat)
  | ⟨.members, _, some ⟨a, .group b, _⟩⟩ => some (a, b)
  | _ => none

variable {db : GroupsDb} {a b : Nat}

theorem linked_apply {c : GroupsChange} (link : Linked (c.apply db) a b) : Linked db a b ∨ nests c = some (a, b) := by
  obtain ⟨id, addedBy, found⟩ := link
  by_cases here : GroupsTable.members = c.table ∧ id = c.key
  · obtain ⟨table, key, row⟩ := c
    obtain ⟨rfl, rfl⟩ := here
    have self : (RowChange.apply ⟨.members, id, row⟩ db .members)[id]? = row := RowChange.apply_self ⟨.members, id, row⟩ db
    cases self.symm.trans found
    exact .inr rfl
  · exact .inl ⟨id, addedBy, (RowChange.apply_of_ne here db).symm.trans found⟩

/-- The links that changes leave are old, or they are those of the changes. -/
theorem linked_applyAll {cs : List GroupsChange} (link : Linked (groupsSchema.applyAll cs db) a b) :
    Linked db a b ∨ ∃ c ∈ cs, nests c = some (a, b) := by
  induction cs generalizing db with
  | nil => exact .inl link
  | cons c cs ih =>
    rcases ih link with old | ⟨d, inside, new⟩
    · rcases linked_apply old with older | new
      · exact .inl older
      · exact .inr ⟨c, List.mem_cons_self, new⟩
    · exact .inr ⟨d, List.mem_cons_of_mem c inside, new⟩

theorem nests_deleted {p : Nat → GroupMember → Bool} {c : GroupsChange} (inside : c ∈ writes .members ((db .members).deleted p)) :
    nests c = none := by
  obtain ⟨⟨id, row⟩, member, rfl⟩ := List.mem_map.mp inside
  rw [(Table.mem_deleted.mp member).2]
  rfl

/-- An INSERT that gives a row has written it under a new key. -/
theorem inserted {row : GroupMember} {draw : GroupsDraw} {out : GroupsOutcome NewMember}
    (ran : (GroupsStmt.insertMember row).run draw db = some out) :
    out.changes = [] ∧ (∀ id, out.answer ≠ .added id) ∨
      out.answer = .added draw.id ∧ out.changes = [⟨.members, draw.id, some row⟩] ∧ (db .members)[draw.id]? = none ∧
        row.member ≠ .group row.groupId := by
  simp only [GroupsStmt.run] at ran
  split at ran
  · cases ran
    exact .inl ⟨rfl, nofun⟩
  split at ran
  · cases ran
  case isFalse fresh =>
    have absent : (db .members)[draw.id]? = none := by
      rw [Bool.or_eq_true, not_or] at fresh
      exact Std.ExtTreeMap.getElem?_eq_none fun member => fresh.1 (Std.ExtTreeMap.mem_iff_contains.mp member)
    split at ran
    case h_1 id device =>
      split at ran
      · cases ran
        exact .inr ⟨rfl, rfl, absent, by rw [device]; nofun⟩
      · cases ran
        exact .inl ⟨rfl, nofun⟩
    case h_2 entraId user =>
      cases ran
      exact .inr ⟨rfl, rfl, absent, by rw [user]; nofun⟩
    case h_3 id group =>
      split at ran
      case isTrue apart =>
        cases ran
        refine .inr ⟨rfl, rfl, absent, fun same => ?_⟩
        rw [Bool.and_eq_true, decide_eq_true_eq] at apart
        exact apart.1 (Member.group.inj (group.symm.trans same))
      case isFalse => cases ran

/-- A statement links no groups but in its INSERT. -/
theorem nests_run {s : GroupsStmt} {draw : GroupsDraw} {out : GroupsOutcome s.Ans} (ran : s.run draw db = some out)
    (other : ∀ row, s ≠ .insertMember row) : ∀ c ∈ out.changes, nests c = none := by
  intro c inside
  cases s with
  | insertMember row => exact absurd rfl (other row)
  | groupById id =>
    cases ran
    cases inside
  | groupByEntra entraGroupId =>
    cases ran
    cases inside
  | subgroups groupId =>
    obtain ⟨rows, -, rfl⟩ := Option.map_eq_some_iff.mp ran
    cases inside
  | devicesByHostname hostnames =>
    obtain ⟨rows, -, rfl⟩ := Option.map_eq_some_iff.mp ran
    cases inside
  | insertGroup g =>
    simp only [GroupsStmt.run] at ran
    split at ran
    · cases ran
      cases inside
    split at ran
    · cases ran
      cases inside
    split at ran
    · cases ran
    · cases ran
      cases List.mem_singleton.mp inside
      rfl
  | deleteGroup id =>
    simp only [GroupsStmt.run] at ran
    split at ran
    · cases ran
      cases inside
    · cases ran
      rcases List.mem_cons.mp inside with rfl | deleted
      · rfl
      · exact nests_deleted deleted
  | detachGroup id byUser =>
    simp only [GroupsStmt.run] at ran
    split at ran
    · cases ran
      cases inside
    · cases ran
      cases List.mem_singleton.mp inside
      rfl
  | clearMembers groupId recursive =>
    cases ran
    exact nests_deleted inside
  | deleteMember id groupId =>
    simp only [GroupsStmt.run] at ran
    split at ran
    · cases ran
      cases inside
    · cases ran
      cases List.mem_singleton.mp inside
      rfl

/-- What a statement links is what its INSERT says. -/
theorem nests_insert {s : GroupsStmt} {draw : GroupsDraw} {out : GroupsOutcome s.Ans} (ran : s.run draw db = some out)
    {c : GroupsChange} (inside : c ∈ out.changes) (new : nests c = some (a, b)) :
    ∃ addedBy, s = .insertMember ⟨a, .group b, addedBy⟩ ∧ a ≠ b := by
  by_cases insert : ∃ row, s = .insertMember row
  · obtain ⟨row, rfl⟩ := insert
    obtain ⟨unchanged, -⟩ | ⟨-, changes, -, apart⟩ := inserted ran
    · rw [unchanged] at inside
      cases inside
    · rw [changes] at inside
      cases List.mem_singleton.mp inside
      obtain ⟨groupId, member, addedBy⟩ := row
      cases member with
      | device | user => cases new
      | group id =>
        cases new
        exact ⟨addedBy, rfl, fun same => apart (same ▸ rfl)⟩
  · cases (nests_run ran (fun row same => insert ⟨row, same⟩) c inside).symm.trans new

/-- A statement adds no link but that of its INSERT. -/
theorem linked_run {s : GroupsStmt} {draw : GroupsDraw} {out : GroupsOutcome s.Ans} (ran : s.run draw db = some out)
    (link : Linked (groupsSchema.applyAll out.changes db) a b) :
    Linked db a b ∨ a ≠ b ∧ ∃ addedBy, s = .insertMember ⟨a, .group b, addedBy⟩ := by
  rcases linked_applyAll link with old | ⟨c, inside, new⟩
  · exact .inl old
  · obtain ⟨addedBy, same, apart⟩ := nests_insert ran inside new
    exact .inr ⟨apart, addedBy, same⟩

theorem linked_inserted {row : GroupMember} {id : Nat} (absent : (db .members)[id]? = none) :
    Linked (groupsSchema.applyAll [⟨.members, id, some row⟩] db) a b ↔
      Linked db a b ∨ row.groupId = a ∧ row.member = .group b := by
  have self : (RowChange.apply ⟨.members, id, some row⟩ db .members)[id]? = some row :=
    RowChange.apply_self ⟨.members, id, some row⟩ db
  have apart {key : Nat} (other : key ≠ id) :
      (RowChange.apply ⟨.members, id, some row⟩ db .members)[key]? = (db .members)[key]? :=
    RowChange.apply_of_ne (fun here => other here.2) db
  constructor
  · intro ⟨key, addedBy, found⟩
    by_cases same : key = id
    · subst same
      cases self.symm.trans found
      exact .inr ⟨rfl, rfl⟩
    · exact .inl ⟨key, addedBy, (apart same).symm.trans found⟩
  · rintro (⟨key, addedBy, found⟩ | ⟨rfl, member⟩)
    · have other : key ≠ id := by
        rintro rfl
        cases absent.symm.trans found
      exact ⟨key, addedBy, (apart other).trans found⟩
    · refine ⟨id, row.addedBy, self.trans ?_⟩
      rw [← member]

/-- The link of an INSERT closes a cycle exactly when its member leads to its group. -/
theorem noCycle_inserted {row : GroupMember} {id : Nat} (absent : (db .members)[id]? = none) (none_ : NoCycle db) :
    NoCycle (groupsSchema.applyAll [⟨.members, id, some row⟩] db) ↔
      ∀ memberGroupId, row.member = .group memberGroupId → ¬Leads db memberGroupId row.groupId := by
  constructor
  · intro acyclic memberGroupId member leads
    have link : Linked (groupsSchema.applyAll [⟨.members, id, some row⟩] db) row.groupId memberGroupId :=
      (linked_inserted absent).mpr (.inr ⟨rfl, member⟩)
    exact acyclic.not_back link (ReflTransGen.mono (fun _ _ old => (linked_inserted absent).mpr (.inl old)) _ _ leads)
  · intro onward
    have links (a b : Nat) (link : Linked (groupsSchema.applyAll [⟨.members, id, some row⟩] db) a b) :
        Linked db a b ∨ row.groupId = a ∧ row.member = .group b := (linked_inserted absent).mp link
    refine none_.added links ?_
    rintro _ b ⟨rfl, member⟩ _ back
    refine onward b member (reflTransGen_without (fun x y link => ?_) back)
    rcases (linked_inserted absent).mp link with old | ⟨rfl, -⟩
    · exact .inl old
    · exact .inr rfl

end Opale.Groups
