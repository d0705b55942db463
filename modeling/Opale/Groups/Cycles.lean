import Opale.Effects.Runs
import Opale.Effects.Sketch
import Opale.Groups.CycleCheck

namespace Opale.Groups

open Js Sql Relation

/-- The routes that write groups and their members. -/
inductive GroupsRoute where
  | postMember (calls : Nat) (groupId : Uuid) (body : MemberBody) (byUser : String)
  | deleteMember (groupId mid : Nat)
  | postGroup (name : Units) (description : Option Units) (color byUser : String)
  | deleteGroup (id : Nat)
  | detachEntra (id : Nat) (byUser : String)
  | importFromEntra (entra : EntraGroup) (color byUser : String) (recursive : Bool)
  | syncFromEntra (id : Nat) (byUser : String) (recursive : Bool)

def GroupsRoute.run : GroupsRoute → GroupsApp Reply
  | .postMember calls groupId body byUser => Groups.postMember calls groupId body byUser
  | .deleteMember groupId mid => Groups.deleteMember groupId mid
  | .postGroup name description color byUser => Groups.postGroup name description color byUser
  | .deleteGroup id => Groups.deleteGroup id
  | .detachEntra id byUser => Groups.detachEntra id byUser
  | .importFromEntra entra color byUser recursive => Groups.importFromEntra entra color byUser recursive
  | .syncFromEntra id byUser recursive => Groups.syncFromEntra id byUser recursive

/-- The POST of a sub-group spells its group as the database does. -/
def GroupsRoute.Spelled : GroupsRoute → Prop
  | .postMember _ groupId body _ => body.memberGroupId.isSome → groupId.spelling = 0
  | _ => True

abbrev GroupsStore := Store GroupsDb GroupsChange GroupsLock

abbrev GroupsRes := AppOp.Res GroupsStmt.Ans GraphCall.Reply

/-- Any number of requests at the same time. -/
def groupsThreads (allowed : GroupsRoute → Prop) : Threads GroupsRes GroupsStore :=
  groupsSchema.threads fun program => ∃ route : GroupsRoute, allowed route ∧ program = do let _ ← route.run; return ()

abbrev GroupsEvent := Threads.Event GroupsRes GroupsStore

/-- The operation commits a link that was not there. -/
def New (e : GroupsEvent) (a b : Nat) : Prop := Linked e.after.committed a b ∧ ¬Linked e.before.committed a b

/-- A SELECT of a group, such as the ones in front of the check of a POST. -/
def Reads (e : GroupsEvent) : Prop := ∃ id, e.op = .sql (.query (.groupById id))

/-- The INSERT of a POST. -/
def ByHand (e : GroupsEvent) : Prop := ∃ row, e.op = .sql (.query (.insertMember row))

/-- A POST that adds a link has read its groups after the last link that another request has added. -/
def Undisturbed (events : List GroupsEvent) : Prop :=
  ∀ earlier e between insert later, events = earlier ++ e :: (between ++ insert :: later) →
    (∃ a b, New e a b) → ByHand insert → (∃ a b, New insert a b) → e.thread ≠ insert.thread →
    ∃ r ∈ between, r.thread = insert.thread ∧ Reads r

/-- What an import is answered: Graph lists under a group of Entra only groups of a lower level, and a group that stands
for one of them has its level as its rank. -/
def Ranks (rank : Nat → Nat) (level : Units → Nat) : (o : AppOp GroupsStmt GraphCall) → GroupsRes o → Prop
  | .sql (.within (.groupByEntra entraGroupId)), some (some (id, _)) => rank id = level entraGroupId
  | .sql (.within (.insertGroup g)), some (.created id) => ∀ entraGroupId ∈ g.entraGroupId, rank id = level entraGroupId
  | .call (.getGroupNestedGroups entraGroupId), .ok nested => ∀ ng ∈ nested, level ng.id < level entraGroupId
  | _, _ => True

/-- No link that is there when an import commits leads up: from a member that it links to a group that it links. -/
def Downward (rank : Nat → Nat) (e : GroupsEvent) : Prop :=
  e.op = .sql .commit → ∀ a b c d, New e a b → New e c d → Leads e.before.committed b c → rank c ≤ rank b

/-- Nobody adds links between the check of a POST and its INSERT, the nesting in Entra has no cycle, and nothing that is
already linked runs against it. -/
structure Orderly (rank : Nat → Nat) (level : Units → Nat) (events : List GroupsEvent) : Prop where
  undisturbed : Undisturbed events
  entra : ∀ e ∈ events, Ranks rank level e.op e.answer
  downward : ∀ e ∈ events, Downward rank e

/-! Which threads have read their groups since the last link that another has added. -/

/-- `current` after an operation. -/
def note (current : Nat → Prop) (e : GroupsEvent) (t : Nat) : Prop :=
  e.thread = t ∧ Reads e ∨ current t ∧ (e.thread = t ∨ ¬∃ a b, New e a b)

theorem not_note {current : Nat → Prop} {e : GroupsEvent} {t : Nat} (stale : ¬note current e t) :
    ¬(e.thread = t ∧ Reads e) ∧ (¬current t ∨ e.thread ≠ t ∧ ∃ a b, New e a b) := by
  refine ⟨fun read => stale (.inl read), ?_⟩
  by_cases before : current t
  · refine .inr ⟨fun same => stale (.inr ⟨before, .inl same⟩), ?_⟩
    by_contra none_
    exact stale (.inr ⟨before, .inr none_⟩)
  · exact .inl before

theorem exists_of_not_current {events : List GroupsEvent} {t : Nat} (stale : ¬events.foldl note (fun _ => True) t) :
    ∃ earlier e between, events = earlier ++ e :: between ∧ (∃ a b, New e a b) ∧ e.thread ≠ t ∧
      ∀ r ∈ between, ¬(r.thread = t ∧ Reads r) := by
  induction events using List.reverseRecOn with
  | nil => exact absurd trivial stale
  | append_singleton events e ih =>
    rw [List.foldl_append] at stale
    obtain ⟨unread, before | added⟩ := not_note stale
    · obtain ⟨earlier, first, between, rfl, new, other, none_⟩ := ih before
      refine ⟨earlier, first, between ++ [e], by rw [List.append_assoc, List.cons_append], new, other, ?_⟩
      intro r inside
      rcases List.mem_append.mp inside with old | last
      · exact none_ r old
      · rw [List.mem_singleton.mp last]
        exact unread
    · exact ⟨events, e, [], rfl, added.2, added.1, fun r inside => absurd inside List.not_mem_nil⟩

/-- What an operation meets in an orderly run. -/
structure Meets (rank : Nat → Nat) (level : Units → Nat) (current : Nat → Prop) (e : GroupsEvent) : Prop where
  entra : Ranks rank level e.op e.answer
  downward : Downward rank e
  current : ByHand e → (∃ a b, New e a b) → current e.thread

theorem Orderly.meets {rank : Nat → Nat} {level : Units → Nat} {events earlier later : List GroupsEvent} {e : GroupsEvent}
    (orderly : Orderly rank level events) (same : events = earlier ++ e :: later) :
    Meets rank level (earlier.foldl note fun _ => True) e := by
  have inside : e ∈ events := by
    rw [same]
    exact List.mem_append_right _ List.mem_cons_self
  refine ⟨orderly.entra e inside, orderly.downward e inside, fun byHand new => ?_⟩
  by_contra stale
  obtain ⟨before, first, between, rfl, added, other, none_⟩ := exists_of_not_current stale
  have whole : events = before ++ first :: (between ++ e :: later) := by
    rw [same, List.append_assoc, List.cons_append]
  obtain ⟨r, member, read⟩ := orderly.undisturbed _ _ _ _ _ whole added byHand new other
  exact none_ r member read

variable {rank : Nat → Nat} {level : Units → Nat} {db db₀ : GroupsDb} {st st₁ : GroupsStore} {t a b : Nat}

/-! What the operations may do: all but the INSERT of a POST. -/

def Allowed (rank : Nat → Nat) : AppOp GroupsStmt GraphCall → Prop
  | .sql (.within (.insertMember ⟨a, .group b, _⟩)) => rank b < rank a
  | .sql (.query (.insertMember ⟨_, .group _, _⟩)) => False
  | _ => True

/-- The links that open transactions have written go down. -/
def Ranked (rank : Nat → Nat) (st : GroupsStore) : Prop :=
  ∀ t s, st.session t = some s → ∀ c ∈ s.changes, ∀ a b, nests c = some (a, b) → rank b < rank a

theorem Ranked.close (ranked : Ranked rank st) (t : Nat) : Ranked rank (st.close t) := by
  intro u s opened
  by_cases same : u = t
  · subst same
    have closed : (st.close u).session u = none := Schema.session_close
    cases closed.symm.trans opened
  · exact ranked u s ((Function.update_of_ne same ..).symm.trans opened)

theorem Ranked.fail (ranked : Ranked rank st) (t : Nat) : Ranked rank (st.fail t) := by
  intro u s opened
  by_cases same : u = t
  · subst same
    have here := (Function.update_self ..).symm.trans opened
    obtain ⟨s₀, before, rfl⟩ := Option.map_eq_some_iff.mp here
    exact ranked u s₀ before
  · exact ranked u s ((Function.update_of_ne same ..).symm.trans opened)

theorem Ranked.openTx (ranked : Ranked rank st) (t : Nat) : Ranked rank (st.openTx t) := by
  unfold Store.openTx
  split
  · intro u s opened c member
    by_cases same : u = t
    · subst same
      cases (Function.update_self ..).symm.trans opened
      exact absurd member List.not_mem_nil
    · exact ranked u s ((Function.update_of_ne same ..).symm.trans opened) c member
  · exact ranked

theorem Ranked.write (ranked : Ranked rank st) {changes : List GroupsChange} {ks : List GroupsLock}
    (down : ∀ c ∈ changes, ∀ a b, nests c = some (a, b) → rank b < rank a) : Ranked rank (st.write t changes ks) := by
  intro u s opened c member
  by_cases same : u = t
  · subst same
    have here := (Function.update_self ..).symm.trans opened
    obtain ⟨s₀, before, rfl⟩ := Option.map_eq_some_iff.mp here
    rcases List.mem_append.mp member with old | new
    · exact ranked u s₀ before c old
    · exact down c new
  · exact ranked u s ((Function.update_of_ne same ..).symm.trans opened) c member

theorem Ranked.exec {o : SqlOp GroupsStmt} {answer : o.Res GroupsStmt.Ans} (ranked : Ranked rank st)
    (allowed : Allowed rank (.sql o)) (run : groupsSchema.exec t o st answer st₁) : Ranked rank st₁ := by
  cases o with
  | query s =>
    obtain ⟨draw, out, -, -, -, rfl⟩ | ⟨-, rfl⟩ := run
    · exact ranked
    · exact ranked
  | begin =>
    obtain ⟨-, rfl⟩ | ⟨-, rfl⟩ := run
    · exact ranked.openTx t
    · exact ranked
  | rollback =>
    cases run
    exact ranked.close t
  | within s =>
    simp only [Schema.exec] at run
    split at run
    · obtain ⟨draw, out, ran, -, -, rfl⟩ | ⟨-, rfl⟩ := run
      · refine ranked.write fun c inside a b new => ?_
        obtain ⟨addedBy, rfl, -⟩ := nests_insert ran inside new
        exact allowed
      · exact ranked.fail t
    · rw [run.2]
      exact ranked
  | commit =>
    simp only [Schema.exec] at run
    split at run
    case h_1 changes _ =>
      obtain rfl | ⟨-, rfl⟩ := run
      · have published : Ranked rank (groupsSchema.publish changes st) := ranked
        exact published.close t
      · exact ranked.close t
    case h_2 =>
      rw [run]
      exact ranked.close t

/-- A link that a COMMIT adds goes down. -/
theorem new_commit {ok : Bool} (ranked : Ranked rank st) (run : groupsSchema.exec t .commit st ok st₁)
    (link : Linked st₁.committed a b) : Linked st.committed a b ∨ rank b < rank a := by
  rcases Schema.committed_commit run with carried | same
  · rw [carried] at link
    rcases linked_applyAll link with old | ⟨c, inside, new⟩
    · exact .inl old
    · cases opened : st.session t with
      | none =>
        rw [opened] at inside
        cases inside
      | some s =>
        rw [opened] at inside
        exact .inr (ranked t s opened c inside a b new)
  · rw [same] at link
    exact .inl link

/-- No operation closes a cycle but the INSERT of a POST. -/
theorem noCycle_exec {o : AppOp GroupsStmt GraphCall} {answer : GroupsRes o} (none_ : NoCycle st.committed)
    (ranked : Ranked rank st) (allowed : Allowed rank o) (run : groupsSchema.app GraphCall.Reply t o st answer st₁)
    (downward : Downward rank ⟨t, o, st, answer, st₁⟩) : NoCycle st₁.committed ∧ Ranked rank st₁ := by
  cases o with
  | call c =>
    cases run
    exact ⟨none_, ranked⟩
  | sql o =>
    have run : groupsSchema.exec t o st answer st₁ := run
    refine ⟨?_, ranked.exec allowed run⟩
    have unchanged (same : st₁.committed = st.committed) : NoCycle st₁.committed := same ▸ none_
    cases o with
    | query s =>
      obtain ⟨draw, out, ran, -, -, rfl⟩ | ⟨-, rfl⟩ := run
      · refine none_.mono fun a b link => ?_
        rcases linked_run ran link with old | ⟨-, addedBy, rfl⟩
        · exact old
        · exact absurd allowed id
      · exact none_
    | begin => exact unchanged (Schema.committed_inside (o := .begin) trivial run)
    | within s => exact unchanged (Schema.committed_inside (o := .within s) trivial run)
    | rollback => exact unchanged (Schema.committed_inside (o := .rollback) trivial run)
    | commit =>
      let new (a b : Nat) : Prop := Linked st₁.committed a b ∧ ¬Linked st.committed a b
      have down (a b : Nat) (added : new a b) : rank b < rank a := (new_commit ranked run added.1).resolve_left added.2
      refine none_.ranked (fun a b link => ?_) rank down fun a b c d first second way => downward rfl a b c d first second way
      by_cases old : Linked st.committed a b
      · exact .inl old
      · exact .inr ⟨link, old⟩

/-! The programs of all routes but the POST of a sub-group perform only what is allowed. -/

def importSketch (rank : Nat → Nat) (level : Units → Nat) : Sketch GroupsRes Unit where
  allowed _ o := Allowed rank o
  next _ o answer _ := Ranks rank level o answer

/-- The transaction performs what is allowed, and `final` holds of its value. -/
def Goes (rank : Nat → Nat) (level : Units → Nat) {α : Type} (final : α → Prop) (body : GroupsTx α) : Prop :=
  (importSketch rank level).Keeps (fun result _ => ∀ value, result = .ok value → final value) () (App.embed body.run)

namespace Goes

variable {α β : Type} {final : α → Prop}

theorem ret {value : α} (ends : final value) : Goes rank level final (pure value) := by
  intro other same
  cases same
  exact ends

theorem fail {e : String} : Goes rank level final (Body.fail e) := by
  intro other same
  cases same

theorem bind {middle : β → Prop} {body : GroupsTx β} {rest : β → GroupsTx α} (first : Goes rank level middle body)
    (second : ∀ value, middle value → Goes rank level final (rest value)) : Goes rank level final (body >>= rest) := by
  have split : App.embed (body >>= rest).run = (App.embed body.run).bind fun result => App.embed (ExceptT.bindCont rest result) :=
    App.embed_bind ..
  unfold Goes
  rw [split]
  refine Sketch.Keeps.bind first fun result _ ended => ?_
  cases result with
  | ok value => exact second value (ended value rfl)
  | error e =>
    intro value same
    cases same

theorem weaken {other : α → Prop} {body : GroupsTx α} (goes : Goes rank level final body)
    (implies : ∀ value, final value → other value) : Goes rank level other body :=
  Sketch.Keeps.weaken goes fun _ _ ended value same => implies value (ended value same)

theorem within {s : GroupsStmt} (ok : Allowed rank (.sql (.within s))) :
    Goes rank level (fun answer => Ranks rank level (.sql (.within s)) (some answer)) (Body.within s) := by
  refine ⟨ok, fun answer _ given => ?_⟩
  cases answer with
  | none =>
    intro value same
    cases same
  | some answer =>
    intro value same
    cases same
    exact given

theorem call (c : GraphCall) : Goes rank level (fun reply => Ranks rank level (.call c) reply) (Body.call c) := by
  refine ⟨trivial, fun reply _ given value same => ?_⟩
  cases same
  exact given

end Goes

theorem goes_createEntraGroup (name : Units) (description : Option Units) (color byUser : String) (entraGroupId : Units) (attempts : Nat) :
    Goes rank level (fun id => rank id = level entraGroupId) (createEntraGroup name description color byUser entraGroupId attempts) := by
  induction attempts with
  | zero => exact .fail
  | succ attempts ih =>
    refine .bind (.within trivial) fun answer given => ?_
    match answer, given with
    | .created id, given => exact .ret (given entraGroupId rfl)
    | .nameTaken, _ => exact ih
    | .entraTaken, _ =>
      refine .bind (.within trivial) fun found given => ?_
      match found, given with
      | some (id, _), given => exact .ret given
      | none, _ => exact .fail

theorem goes_graphAnswer {α : Type} {entraGroupId : Units} {reply : Except String α} :
    Goes rank level (fun value => reply = .ok value) (graphAnswer entraGroupId reply) := by
  cases reply with
  | ok value => exact .ret rfl
  | error message => exact .fail

theorem goes_insertMembers {groupId : Nat} {byUser : String} {members : List Member} (plain : ∀ m ∈ members, m.subgroup = none) :
    Goes rank level (fun _ => True) (insertMembers groupId byUser members) := by
  induction members with
  | nil => exact .ret trivial
  | cons m members ih =>
    obtain ⟨here, others⟩ := List.forall_mem_cons.mp plain
    refine .bind (.within ?_) fun answer _ => ?_
    · cases m with
      | group id => cases here
      | device | user => trivial
    · match answer with
      | .noDevice => exact .fail
      | .added _ | .already => exact ih others

theorem goes_importMembers {options : ImportOptions} {groupId : Nat} {hostnames userIds : List Units} {stats : ImportStats} :
    Goes rank level (fun _ => True) (importMembers options groupId hostnames userIds stats) := by
  refine .bind (.within trivial) fun devs _ => ?_
  have inserts {stats : ImportStats} : Goes rank level (fun _ => True) (do
      insertMembers groupId options.byUser (devs.map .device)
      insertMembers groupId options.byUser (userIds.map .user)
      return stats) := by
    refine .bind (goes_insertMembers fun m inside => ?_) fun _ _ => .bind (goes_insertMembers fun m inside => ?_) fun _ _ => .ret trivial
    · obtain ⟨id, -, rfl⟩ := List.mem_map.mp inside
      rfl
    · obtain ⟨id, -, rfl⟩ := List.mem_map.mp inside
      rfl
  dsimp only
  split
  · exact .bind (.within trivial) fun _ _ => inserts
  · exact inserts

/-- The groups of Opale that an import has met have the levels of those of Entra. -/
def SeenAt (rank : Nat → Nat) (level : Units → Nat) (state : ImportState) : Prop :=
  ∀ e ∈ state.seen, rank e.2 = level e.1

/-- What the import of one group ends with. -/
def Imported (rank : Nat → Nat) (level : Units → Nat) (entra : EntraGroup) (r : Option Nat × ImportState) : Prop :=
  (∀ id, r.1 = some id → rank id = level entra.id) ∧ SeenAt rank level r.2

theorem goes_importNested {child : EntraGroup → ImportState → GroupsTx (Option Nat × ImportState)} {groupId : Nat} {byUser : String}
    {nested : List EntraGroup} {state : ImportState} (seen : SeenAt rank level state)
    (lower : ∀ ng ∈ nested, level ng.id < rank groupId)
    (imports : ∀ ng ∈ nested, ∀ state, SeenAt rank level state → Goes rank level (Imported rank level ng) (child ng state)) :
    Goes rank level (SeenAt rank level) (importNested child groupId byUser nested state) := by
  induction nested generalizing state with
  | nil => exact .ret seen
  | cons ng nested ih =>
    obtain ⟨below, others⟩ := List.forall_mem_cons.mp lower
    obtain ⟨here, rest⟩ := List.forall_mem_cons.mp imports
    refine .bind (here state seen) fun r imported => ?_
    match r, imported with
    | (none, state₁), imported => exact ih imported.2 others rest
    | (some childId, state₁), imported =>
      have allowed : Allowed rank (.sql (.within (.insertMember ⟨groupId, .group childId, byUser⟩))) := by
        change rank childId < rank groupId
        rw [imported.1 childId rfl]
        exact below
      exact .bind (.within allowed) fun _ _ => ih imported.2 others rest

theorem seenAt_lookup {state : ImportState} {entraGroupId : Units} {id : Nat} (seen : SeenAt rank level state)
    (found : state.seen.lookup entraGroupId = some id) : rank id = level entraGroupId := by
  have member : (entraGroupId, id) ∈ state.seen := by
    obtain ⟨before, after, same, -⟩ := List.lookup_eq_some_iff.mp found
    rw [same]
    exact List.mem_append_right _ List.mem_cons_self
  exact seen _ member

theorem goes_findOrCreate {options : ImportOptions} {entra : EntraGroup} {state : ImportState} (seen : SeenAt rank level state) :
    Goes rank level (fun r => rank r.1 = level entra.id ∧ SeenAt rank level r.2.2) (findOrCreate options entra state) := by
  refine .bind (.within trivial) fun found given => ?_
  match found, given with
  | some (id, _), given => exact .ret ⟨given, seen⟩
  | none, _ => exact .bind (goes_createEntraGroup ..) fun id given => .ret ⟨given, seen⟩

theorem goes_getNestedGroups {options : ImportOptions} {entraGroupId : Units} :
    Goes rank level (fun nested => ∀ ng ∈ nested, level ng.id < level entraGroupId) (getNestedGroups options entraGroupId) := by
  unfold getNestedGroups
  split
  · refine .bind (.call _) fun reply given => goes_graphAnswer.weaken fun nested same => ?_
    rw [same] at given
    exact given
  · exact .ret fun ng inside => absurd inside List.not_mem_nil

theorem goes_repeople {options : ImportOptions} {id : Nat} {created : Bool} {hostnames userIds : List Units} {stats : ImportStats} :
    Goes rank level (fun _ => True) (repeople options id created hostnames userIds stats) := by
  unfold repeople
  split
  · exact goes_importMembers
  · exact .ret trivial

theorem goes_importEntraTree {options : ImportOptions} {levels : Nat} {entra : EntraGroup} {state : ImportState}
    (seen : SeenAt rank level state) : Goes rank level (Imported rank level entra) (importEntraTree options levels entra state) := by
  have known {id : Nat} (found : state.seen.lookup entra.id = some id) : Imported rank level entra (some id, state) := by
    refine ⟨fun other same => ?_, seen⟩
    cases same
    exact seenAt_lookup seen found
  induction levels generalizing entra state with
  | zero =>
    unfold importEntraTree
    split
    next id found => exact .ret (known found)
    next =>
      refine .ret ⟨fun other same => ?_, seen⟩
      cases same
  | succ levels ih =>
    unfold importEntraTree
    split
    next id found => exact .ret (known found)
    next =>
      refine .bind (goes_findOrCreate seen) fun r given => ?_
      obtain ⟨id, created, state⟩ := r
      obtain ⟨stands, seen⟩ := given
      refine .bind (.call _) fun reply _ => .bind goes_graphAnswer fun hostnames _ => ?_
      refine .bind (.call _) fun reply _ => .bind goes_graphAnswer fun userIds _ => ?_
      refine .bind goes_getNestedGroups fun nested lower => .bind goes_repeople fun stats _ => ?_
      have seen₁ : SeenAt rank level ⟨(entra.id, id) :: state.seen, stats⟩ := List.forall_mem_cons.mpr ⟨stands, seen⟩
      refine .bind (goes_importNested seen₁ (fun ng inside => ?_) fun ng _ state seen => ?_) fun state seen => .ret ⟨?_, seen⟩
      · rw [stands]
        exact lower ng inside
      · refine ih seen fun found => ⟨fun other same => ?_, seen⟩
        cases same
        exact seenAt_lookup seen found
      · intro other same
        cases same
        exact stands

/-- The program performs what is allowed. -/
def Roams (rank : Nat → Nat) (level : Units → Nat) {α : Type} (program : GroupsApp α) : Prop :=
  (importSketch rank level).Keeps (fun _ _ => True) () program

namespace Roams

variable {α β : Type}

theorem ret {value : α} : Roams rank level (pure value) := trivial

theorem bind {program : GroupsApp β} {rest : β → GroupsApp α} (first : Roams rank level program)
    (second : ∀ value, Roams rank level (rest value)) : Roams rank level (program >>= rest) :=
  Sketch.Keeps.bind first fun value _ _ => second value

theorem query {s : GroupsStmt} (ok : Allowed rank (.sql (.query s))) : Roams rank level (Groups.query s) :=
  ⟨ok, fun _ _ _ => trivial⟩

theorem transaction {final : α → Prop} {body : GroupsTx α} (goes : Goes rank level final body) :
    Roams rank level (App.transaction body) := by
  refine ⟨trivial, fun begun _ _ => ?_⟩
  cases begun with
  | false => exact ⟨trivial, fun _ _ _ => trivial⟩
  | true =>
    change (importSketch rank level).Keeps _ () ((App.embed body.run).bind _)
    refine Sketch.Keeps.bind goes fun result _ _ => ?_
    cases result with
    | error e => exact ⟨trivial, fun _ _ _ => trivial⟩
    | ok value =>
      refine ⟨trivial, fun done _ _ => ?_⟩
      cases done with
      | true => trivial
      | false => exact ⟨trivial, fun _ _ _ => trivial⟩

end Roams

theorem roams_addMember {groupId : Nat} {body : MemberBody} {byUser : String} (plain : body.memberGroupId = none) :
    Roams rank level (addMember groupId body byUser) := by
  unfold addMember
  split
  next member only =>
    refine .bind (.query ?_) fun _ => .ret
    cases member with
    | device | user => trivial
    | group id =>
      have inside : Member.group id ∈ body.members := only ▸ List.mem_singleton_self _
      unfold MemberBody.members at inside
      rw [plain] at inside
      simp at inside
  next => exact .ret

/-- All routes but the POST of a sub-group. -/
theorem roams_run {route : GroupsRoute}
    (other : ∀ calls groupId body byUser, route = .postMember calls groupId body byUser → body.memberGroupId = none) :
    Roams rank level route.run := by
  cases route with
  | postMember calls groupId body byUser =>
    have plain := other calls groupId body byUser rfl
    refine .bind (.query trivial) fun found => ?_
    match found with
    | none | some none => exact .ret
    | some (some _) =>
      dsimp only
      split
      · exact .ret
      split
      · exact .ret
      rw [plain]
      exact roams_addMember plain
  | deleteMember groupId mid =>
    refine .bind (.query trivial) fun found => ?_
    match found with
    | none | some none => exact .ret
    | some (some _) =>
      refine .bind (.query trivial) fun deleted => ?_
      match deleted with
      | none | some none | some (some _) => exact .ret
  | postGroup name description color byUser =>
    change Roams rank level (Groups.postGroup name description color byUser)
    unfold Groups.postGroup
    split
    · exact .ret
    split
    · exact .ret
    refine .bind (.query trivial) fun answer => ?_
    match answer with
    | none | some .nameTaken | some .entraTaken | some (.created _) => exact .ret
  | deleteGroup id =>
    refine .bind (.query trivial) fun answer => ?_
    match answer with
    | none | some none | some (some _) => exact .ret
  | detachEntra id byUser =>
    refine .bind (.query trivial) fun answer => ?_
    match answer with
    | none | some none | some (some _) => exact .ret
  | importFromEntra entra color byUser recursive =>
    change Roams rank level (Groups.importFromEntra entra color byUser recursive)
    unfold Groups.importFromEntra
    split
    · exact .ret
    split
    · exact .ret
    split
    · exact .ret
    refine .bind (.query trivial) fun found => ?_
    match found with
    | none | some (some _) => exact .ret
    | some none => exact .bind (.transaction (goes_importEntraTree fun e inside => absurd inside List.not_mem_nil)) fun _ => .ret
  | syncFromEntra id byUser recursive =>
    refine .bind (.query trivial) fun found => ?_
    match found with
    | none | some none => exact .ret
    | some (some grp) =>
      dsimp only
      split
      · exact .ret
      · exact .bind (.transaction (goes_importEntraTree fun e inside => absurd inside List.not_mem_nil)) fun _ => .ret

/-! The POST of a sub-group, among the other requests. -/

/-- A thread that is current may rely on the others to add no link. -/
def groupsTeam (rank : Nat → Nat) (level : Units → Nat) : Threads.Team GroupsRes (GroupsStore × (Nat → Prop)) where
  exec := ((groupsThreads GroupsRoute.Spelled).noting note (Meets rank level)).exec
  inv w := NoCycle w.1.committed ∧ Ranked rank w.1
  rely t w w₁ := w₁.2 t → w.2 t ∧ ∀ a b, Linked w₁.1.committed a b → Linked w.1.committed a b
  guarantee _ _ _ _ _ := True
  idle _ _ := True
  rely_refl _ _ current := ⟨current, fun _ _ link => link⟩
  rely_trans _ _ _ _ first second current := by
    obtain ⟨before, fewer⟩ := second current
    obtain ⟨earlier, few⟩ := first before
    exact ⟨earlier, fun a b link => few a b (fewer a b link)⟩

variable {w w₁ : GroupsStore × (Nat → Prop)}

/-- What is linked, as far as the thread is current. -/
def known (t : Nat) (w : GroupsStore × (Nat → Prop)) (a b : Nat) : Prop := w.2 t ∧ Linked w.1.committed a b

theorem relies {o : AppOp GroupsStmt GraphCall} {answer : GroupsRes o} (ran : (groupsTeam rank level).exec t o w answer w₁) (u : Nat)
    (other : u ≠ t) : (groupsTeam rank level).rely u w w₁ := by
  intro current
  have noted : w₁.2 = note w.2 ⟨t, o, w.1, answer, w₁.1⟩ := ran.2.1
  rw [noted] at current
  rcases current with ⟨same, -⟩ | ⟨before, same | unchanged⟩
  · exact absurd same.symm other
  · exact absurd same.symm other
  · refine ⟨before, fun a b link => ?_⟩
    by_contra absent
    exact unchanged ⟨a, b, link, absent⟩

theorem step_allowed {o : AppOp GroupsStmt GraphCall} {answer : GroupsRes o} (allowed : Allowed rank o)
    (kept : (groupsTeam rank level).inv w) (ran : (groupsTeam rank level).exec t o w answer w₁) :
    (groupsTeam rank level).inv w₁ ∧ ((groupsTeam rank level).rules t).guarantee o w answer w₁ :=
  ⟨noCycle_exec kept.1 kept.2 allowed ran.1 ran.2.2.downward, relies ran, trivial⟩

/-- A program that roams is safe. -/
theorem Roams.safe {α : Type} {program : GroupsApp α} (roams : Roams rank level program) :
    ((groupsTeam rank level).rules t).Safe (fun _ _ => True) program w := by
  have keeps : (importSketch rank level).Keeps (fun _ _ => True) () program := roams
  refine Rules.Safe.of_sketch (fun _ _ => True) (fun _ _ _ => trivial) (fun allowed _ kept ran => ?_) (fun _ _ _ => trivial)
    keeps trivial
  obtain ⟨kept₁, guarantee⟩ := step_allowed allowed kept ran
  exact ⟨kept₁, guarantee, (), ran.2.2.entra, trivial⟩

/-- The thread searches what it knows. -/
theorem searchable_known : Searchable ((groupsTeam rank level).rules t) (known t) False where
  rely moves _ := by
    refine ⟨fun a b link => ?_, fun still => absurd still id⟩
    obtain ⟨before, fewer⟩ := moves link.1
    exact ⟨before, fewer a b link.2⟩
  asks := by
    intro g w answer w₁ kept ran
    obtain ⟨kept₁, guarantee⟩ := step_allowed (o := .sql (.query (.subgroups g))) trivial kept ran
    have noted : w₁.2 = note w.2 ⟨t, .sql (.query (.subgroups g)), w.1, answer, w₁.1⟩ := ran.2.1
    have current (now : w₁.2 t) : w.2 t := by
      rw [noted] at now
      rcases now with ⟨-, id, same⟩ | ⟨before, -⟩
      · cases same
      · exact before
    obtain ⟨draw, out, asked, -, rfl, published⟩ | ⟨rfl, same⟩ := ran.1
    · obtain ⟨unchanged, gives⟩ := run_subgroups asked
      have same : w₁.1 = w.1 := by
        rw [published, unchanged]
        rfl
      refine ⟨kept₁, guarantee, ⟨fun a b link => ⟨current link.1, same ▸ link.2⟩, fun still => absurd still id⟩,
        .inr ⟨_, rfl, fun x link => (gives x).mpr (same ▸ link.2), fun still => absurd still id⟩⟩
    · exact ⟨kept₁, guarantee, ⟨fun a b link => ⟨current link.1, same ▸ link.2⟩, fun still => absurd still id⟩, .inl ⟨rfl, id⟩⟩

/-- The link of a POST closes no cycle, when its search has not met its group and what it has read still holds. -/
theorem noCycle_insert {groupId memberGroupId : Uuid} {byUser : String} {answer : Option NewMember}
    (spelled : groupId.spelling = 0) (unmet : ¬ReflTransGen (Gives (Linked st.committed)) memberGroupId groupId)
    (none_ : NoCycle st.committed)
    (run : groupsSchema.exec t (.query (.insertMember ⟨groupId.id, .group memberGroupId.id, byUser⟩)) st answer st₁) :
    NoCycle st₁.committed := by
  obtain ⟨draw, out, ran, -, -, rfl⟩ | ⟨-, rfl⟩ := run
  · obtain ⟨unchanged, -⟩ | ⟨-, changes, absent, apart⟩ := inserted ran
    · have same : (groupsSchema.publish out.changes st).committed = st.committed := by
        unfold Schema.publish
        rw [unchanged]
        rfl
      rw [same]
      exact none_
    · have after : (groupsSchema.publish out.changes st).committed =
          groupsSchema.applyAll [⟨.members, draw.id, some ⟨groupId.id, .group memberGroupId.id, byUser⟩⟩] st.committed := by
        unfold Schema.publish
        rw [changes]
      rw [after]
      refine (noCycle_inserted absent none_).mpr fun other same leads => ?_
      cases same
      rcases reflTransGen_iff_eq_or_transGen.mp leads with same | way
      · exact apart (congrArg Member.group same.symm)
      · exact unmet (gives_leads.mpr (.inr ⟨spelled, way⟩))
  · exact none_

/-- The INSERT of a POST whose search has not met its group. -/
theorem safe_insert {groupId memberGroupId : Uuid} {byUser : String} (spelled : groupId.spelling = 0)
    (unmet : ¬ReflTransGen (Gives (known t w)) memberGroupId groupId) :
    ((groupsTeam rank level).rules t).Safe (fun _ _ => True)
      (query (.insertMember ⟨groupId.id, .group memberGroupId.id, byUser⟩)) w := by
  intro w₁ moves kept answer w₂ ran
  have run : groupsSchema.exec t (.query (.insertMember ⟨groupId.id, .group memberGroupId.id, byUser⟩)) w₁.1 answer w₂.1 := ran.1
  have ranked : Ranked rank w₂.1 := by
    obtain ⟨_, _, -, -, -, published⟩ | ⟨-, same⟩ := run
    · rw [published]
      exact kept.2
    · rw [same]
      exact kept.2
  refine ⟨⟨?_, ranked⟩, ⟨relies ran, trivial⟩, fun _ _ _ => trivial⟩
  by_cases added : ∃ a b, New ⟨t, .sql (.query (.insertMember ⟨groupId.id, .group memberGroupId.id, byUser⟩)), w₁.1, answer, w₂.1⟩ a b
  · obtain ⟨-, fewer⟩ := moves (ran.2.2.current ⟨_, rfl⟩ added)
    have before : w.2 t := (moves (ran.2.2.current ⟨_, rfl⟩ added)).1
    refine noCycle_insert spelled (fun way => unmet (ReflTransGen.mono (fun x y gives => ?_) _ _ way)) kept.1 run
    exact ⟨gives.1, before, fewer _ _ gives.2⟩
  · refine kept.1.mono fun a b link => ?_
    by_contra absent
    exact added ⟨a, b, link, absent⟩

theorem safe_query {s : GroupsStmt} {α : Type} {rest : Option s.Ans → GroupsApp α} (allowed : Allowed rank (.sql (.query s)))
    (later : ∀ answer w₁, (groupsTeam rank level).inv w₁ →
      ((groupsTeam rank level).rules t).Safe (fun _ _ => True) (rest answer) w₁) :
    ((groupsTeam rank level).rules t).Safe (fun _ _ => True) (query s >>= rest) w := by
  refine Rules.Safe.perform fun w₁ moves kept answer w₂ ran => ?_
  obtain ⟨kept₂, guarantee⟩ := step_allowed allowed kept ran
  exact ⟨kept₂, guarantee, later answer w₂ kept₂⟩

theorem safe_ret {α : Type} {value : α} : ((groupsTeam rank level).rules t).Safe (fun _ _ => True) (.ret value) w :=
  fun _ _ _ => trivial

theorem safe_addMember {groupId memberGroupId : Uuid} {body : MemberBody} {byUser : String} (spelled : groupId.spelling = 0)
    (member : body.memberGroupId = some memberGroupId) (kept : (groupsTeam rank level).inv w)
    (unmet : ¬ReflTransGen (Gives (known t w)) memberGroupId groupId) :
    ((groupsTeam rank level).rules t).Safe (fun _ _ => True) (addMember groupId.id body byUser) w := by
  unfold addMember
  split
  next only_ only =>
    have inside : Member.group memberGroupId.id ∈ body.members := by
      unfold MemberBody.members
      rw [member]
      simp
    rw [only] at inside
    rw [← List.mem_singleton.mp inside]
    exact Rules.Safe.bind (safe_insert spelled unmet) kept fun _ _ _ _ => safe_ret
  next => exact safe_ret

/-- The POST of a sub-group, whatever the other requests do. -/
theorem safe_postMember {calls : Nat} {groupId memberGroupId : Uuid} {body : MemberBody} {byUser : String}
    (spelled : groupId.spelling = 0) (member : body.memberGroupId = some memberGroupId) :
    ((groupsTeam rank level).rules t).Safe (fun _ _ => True) (postMember calls groupId body byUser) w := by
  refine safe_query trivial fun found w₁ kept => ?_
  match found with
  | none | some none => exact safe_ret
  | some (some _) =>
    dsimp only
    split
    · exact safe_ret
    split
    · exact safe_ret
    rw [member]
    dsimp only
    split
    · exact safe_ret
    refine safe_query trivial fun target w₂ kept => ?_
    match target with
    | none | some none => exact safe_ret
    | some (some _) =>
      have unsteady : Bounded False ∅ (known t w₂) := fun still => absurd still id
      refine Rules.Safe.bind (wouldCreateCycle_safe searchable_known kept unsteady (fun still => absurd still id)
        fun still => absurd still id) kept fun result w₃ kept ended => ?_
      match result, ended.2 with
      | none, _ | some (true, _), _ => exact safe_ret
      | some (false, seen), all =>
        have all : Exhausted (Gives (known t w₃)) groupId [memberGroupId] [] seen := all
        exact safe_addMember spelled member kept all.not_leads

theorem safe_route {route : GroupsRoute} (spelled : route.Spelled) (kept : (groupsTeam rank level).inv w) :
    (groupsTeam rank level).Safe t (do let _ ← route.run; return ()) w := by
  have runs : ((groupsTeam rank level).rules t).Safe (fun _ _ => True) route.run w := by
    by_cases nests : ∃ calls groupId body byUser memberGroupId,
        route = .postMember calls groupId body byUser ∧ body.memberGroupId = some memberGroupId
    · obtain ⟨calls, groupId, body, byUser, memberGroupId, rfl, member⟩ := nests
      refine safe_postMember (spelled ?_) member
      rw [member]
      rfl
    · refine (roams_run fun calls groupId body byUser same => ?_).safe
      cases member : body.memberGroupId with
      | none => rfl
      | some memberGroupId => exact absurd ⟨calls, groupId, body, byUser, memberGroupId, same, member⟩ nests
  exact Rules.Safe.bind runs kept fun _ _ _ _ => safe_ret

theorem verified : ((groupsThreads GroupsRoute.Spelled).noting note (Meets rank level)).Verified (groupsTeam rank level) where
  exec ran := ran
  env _ moves := absurd moves.1 id
  entry allowed kept _ := by
    obtain ⟨route, spelled, rfl⟩ := allowed
    exact safe_route spelled kept
  drop kept := by
    refine ⟨⟨kept.1, kept.2.close _⟩, fun _ _ _ => trivial, fun u _ current => ⟨current, fun a b link => link⟩⟩

/-- No run closes a cycle in which the POSTs spell their groups as the database does and are undisturbed, and in which the
imports run along one order of the groups. -/
theorem groups_acyclic (none_ : NoCycle db₀) {events : List GroupsEvent} {c : Threads.Config GroupsRes GroupsStore}
    (run : (groupsThreads GroupsRoute.Spelled).Run (fun st => st = .start db₀) events c)
    (orderly : Orderly rank level events) : NoCycle c.world.committed := by
  have meets (es : List GroupsEvent) (e : GroupsEvent) (rest : List GroupsEvent) (same : events = es ++ e :: rest) :
      Meets rank level (es.foldl note fun _ => True) e := orderly.meets same
  have reach := run.noted meets
  refine (reach.inv verified fun w begun => ?_).1
  obtain ⟨start, -⟩ := begun
  refine ⟨⟨?_, ?_⟩, fun _ _ _ _ => trivial⟩
  · rw [start]
    exact none_
  · rw [start]
    intro t s opened
    cases opened

/-! Two requests add each of two groups to the other. -/

def twoGroups : GroupsDb
  | .groups => ((∅ : Table _).insert 1 ⟨[1], none, "slate", .native, none, "", ""⟩).insert 2 ⟨[2], none, "slate", .native, none, "", ""⟩
  | .members | .devices => ∅

theorem twoGroups_noCycle : NoCycle twoGroups := by
  have unlinked : ∀ a b, ¬Linked twoGroups a b := by
    intro a b ⟨id, addedBy, found⟩
    have nothing : (∅ : Table GroupMember)[id]? = some ⟨a, .group b, addedBy⟩ := found
    cases nothing
  intro a way
  obtain ⟨b, -, link⟩ := TransGen.tail'_iff.mp way
  exact unlinked b a link

def nest (groupId memberGroupId : Nat) : GroupsApp Unit := do
  let _ ← postMember 5 (own groupId) ⟨none, none, some (own memberGroupId)⟩ ""
  return ()

theorem nest_entry (groupId memberGroupId : Nat) :
    ∃ route : GroupsRoute, route.Spelled ∧ nest groupId memberGroupId = do let _ ← route.run; return () :=
  ⟨.postMember .., fun _ => rfl, rfl⟩

/-- Requests of which one writes, and no import. -/
theorem orderly_of_writer {events : List GroupsEvent} (writer : Nat)
    (others : ∀ e ∈ events, e.thread ≠ writer → e.after = e.before)
    (plain : ∀ e ∈ events, Ranks rank level e.op e.answer ∧ e.op ≠ .sql .commit) : Orderly rank level events where
  undisturbed := by
    intro earlier e between insert later same added _ inserted apart
    have idle {e : GroupsEvent} (inside : e ∈ events) (new : ∃ a b, New e a b) : e.thread = writer := by
      by_contra other
      obtain ⟨a, b, link, absent⟩ := new
      rw [others e inside other] at link
      exact absent link
    have first : e ∈ events := by
      rw [same]
      exact List.mem_append_right _ List.mem_cons_self
    have second : insert ∈ events := by
      rw [same]
      exact List.mem_append_right _ (List.mem_cons_of_mem _ (List.mem_append_right _ List.mem_cons_self))
    exact absurd ((idle first added).trans (idle second inserted).symm) apart
  entra e inside := (plain e inside).1
  downward e inside commits := absurd commits (plain e inside).2

/-- The second request comes after the first, and its check finds the cycle. -/
theorem groups_acyclic_refused : ∃ events c, (groupsThreads GroupsRoute.Spelled).Run (fun st => st = .start twoGroups) events c ∧
    c.runs 1 = .ret () ∧ Linked c.world.committed 1 2 ∧ NoCycle c.world.committed := by
  have r : (groupsThreads GroupsRoute.Spelled).Run (fun st => st = .start twoGroups) [] _ := .init rfl
  have r := r.begins 0 _ rfl (nest_entry 1 2)
  have r := r.perform 0 rfl (some (twoGroups .groups)[1]?) _ (.inl ⟨⟨0, []⟩, _, rfl, fun _ => nofun, rfl, rfl⟩)
  have r := r.perform 0 rfl (some (twoGroups .groups)[2]?) _ (.inl ⟨⟨0, []⟩, _, rfl, fun _ => nofun, rfl, rfl⟩)
  have r := r.perform 0 rfl (some []) _ (.inl ⟨⟨0, []⟩, _, rfl, fun _ => nofun, rfl, rfl⟩)
  have r := r.perform 0 rfl (some (.added 1)) _ (.inl ⟨⟨1, []⟩, _, rfl, fun _ _ => .inl rfl, rfl, rfl⟩)
  have r := r.begins 1 _ rfl (nest_entry 2 1)
  have r := r.perform 1 rfl (some (twoGroups .groups)[2]?) _ (.inl ⟨⟨0, []⟩, _, rfl, fun _ => nofun, rfl, rfl⟩)
  have r := r.perform 1 rfl (some (twoGroups .groups)[1]?) _ (.inl ⟨⟨0, []⟩, _, rfl, fun _ => nofun, rfl, rfl⟩)
  have r := r.perform 1 rfl (some [2]) _ (.inl ⟨⟨0, [1]⟩, _, rfl, fun _ => nofun, rfl, rfl⟩)
  refine ⟨_, _, r, rfl, ⟨1, "", rfl⟩, groups_acyclic twoGroups_noCycle r
    (orderly_of_writer 0 ?_ ?_ : Orderly (fun _ => 0) (fun _ => 0) _)⟩
  · intro e inside other
    simp only [List.nil_append, List.cons_append, List.mem_cons, List.not_mem_nil, or_false] at inside
    rcases inside with rfl | rfl | rfl | rfl | rfl | rfl | rfl
    iterate 4 exact absurd rfl other
    iterate 3 rfl
  · intro e inside
    simp only [List.nil_append, List.cons_append, List.mem_cons, List.not_mem_nil, or_false] at inside
    rcases inside with rfl | rfl | rfl | rfl | rfl | rfl | rfl
    all_goals exact ⟨trivial, fun same => by cases same⟩

/-- Both look for a cycle before either writes its link. -/
theorem groups_cycle : ¬∀ db₀ events c, NoCycle db₀ →
    (groupsThreads fun _ => True).Run (fun st => st = .start db₀) events c → NoCycle c.world.committed := by
  intro acyclic
  have entry (groupId memberGroupId : Nat) :
      ∃ route : GroupsRoute, True ∧ nest groupId memberGroupId = do let _ ← route.run; return () := ⟨.postMember .., trivial, rfl⟩
  have r : (groupsThreads fun _ => True).Run (fun st => st = .start twoGroups) [] _ := .init rfl
  have r := r.begins 0 _ rfl (entry 1 2)
  have r := r.begins 1 _ rfl (entry 2 1)
  have r := r.perform 0 rfl (some (twoGroups .groups)[1]?) _ (.inl ⟨⟨0, []⟩, _, rfl, fun _ => nofun, rfl, rfl⟩)
  have r := r.perform 1 rfl (some (twoGroups .groups)[2]?) _ (.inl ⟨⟨0, []⟩, _, rfl, fun _ => nofun, rfl, rfl⟩)
  have r := r.perform 0 rfl (some (twoGroups .groups)[2]?) _ (.inl ⟨⟨0, []⟩, _, rfl, fun _ => nofun, rfl, rfl⟩)
  have r := r.perform 1 rfl (some (twoGroups .groups)[1]?) _ (.inl ⟨⟨0, []⟩, _, rfl, fun _ => nofun, rfl, rfl⟩)
  have r := r.perform 0 rfl (some []) _ (.inl ⟨⟨0, []⟩, _, rfl, fun _ => nofun, rfl, rfl⟩)
  have r := r.perform 1 rfl (some []) _ (.inl ⟨⟨0, []⟩, _, rfl, fun _ => nofun, rfl, rfl⟩)
  have r := r.perform 0 rfl (some (.added 1)) _ (.inl ⟨⟨1, []⟩, _, rfl, fun _ _ => .inl rfl, rfl, rfl⟩)
  have r := r.perform 1 rfl (some (.added 2)) _ (.inl ⟨⟨2, []⟩, _, rfl, fun _ _ => .inl rfl, rfl, rfl⟩)
  have around := acyclic _ _ _ twoGroups_noCycle r 1
  exact around (.tail (.single ⟨1, "", rfl⟩) ⟨2, "", rfl⟩)

end Opale.Groups
