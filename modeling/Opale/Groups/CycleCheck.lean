import Opale.Groups.Links
import Opale.Relations.Exhausted

namespace Opale.Groups

open Relation Sql

/-- An identifier as the database spells it. -/
abbrev own (id : Nat) : Uuid := ⟨id, 0⟩

/-- What the query for the sub-groups of an identifier gives, however it is spelled. -/
def Gives (links : Nat → Nat → Prop) (x y : Uuid) : Prop := y.spelling = 0 ∧ links x.id y.id

variable {links links₁ links₂ : Nat → Nat → Prop} {steady : Prop}
variable {parentId childId : Uuid} {calls g x : Nat} {starts seen seen₁ : List Uuid}

theorem mem_own {rows : List Nat} (listed : ∀ x, links g x → x ∈ rows) {u y : Uuid} (here : u.id = g) (gives : Gives links u y) :
    y ∈ rows.map own := by
  obtain ⟨id, spelling⟩ := y
  obtain ⟨rfl, link⟩ := gives
  subst here
  exact List.mem_map_of_mem (listed id link)

/-- The parent is met as the text of the child, or as the database spells it behind a link. -/
theorem gives_leads : ReflTransGen (Gives links) childId parentId ↔
    childId = parentId ∨ parentId.spelling = 0 ∧ TransGen links childId.id parentId.id := by
  constructor
  · intro way
    induction way with
    | refl => exact .inl rfl
    | tail _ gives ih =>
      obtain ⟨spelled, link⟩ := gives
      rcases ih with rfl | ⟨-, way⟩
      · exact .inr ⟨spelled, .single link⟩
      · exact .inr ⟨spelled, way.tail link⟩
  · rintro (rfl | ⟨spelled, way⟩)
    · exact .refl
    · obtain ⟨id, spelling⟩ := parentId
      cases spelled
      change TransGen links childId.id id at way
      induction way with
      | single link => exact .single ⟨rfl, link⟩
      | tail _ link ih => exact ih.tail ⟨rfl, link⟩

/-- Links may be lost, but none is added; when they are steady, none is lost either. -/
def Shrinks (steady : Prop) (links links₁ : Nat → Nat → Prop) : Prop :=
  (∀ a b, links₁ a b → links a b) ∧ (steady → ∀ a b, links a b → links₁ a b)

theorem Shrinks.refl (steady : Prop) (links : Nat → Nat → Prop) : Shrinks steady links links :=
  ⟨fun _ _ link => link, fun _ _ _ link => link⟩

theorem Shrinks.trans (first : Shrinks steady links links₁) (second : Shrinks steady links₁ links₂) :
    Shrinks steady links links₂ :=
  ⟨fun a b link => first.1 a b (second.1 a b link), fun still a b link => second.2 still a b (first.2 still a b link)⟩

/-- What the answer says of the groups that a search starts from. -/
def Searched (steady : Prop) (links : Nat → Nat → Prop) (parentId : Uuid) (starts seen : List Uuid) :
    Option (Bool × List Uuid) → Prop
  | none => ¬steady
  | some (true, _) => steady → ∃ x ∈ starts, ReflTransGen (Gives links) x parentId
  | some (false, seen₁) => Exhausted (Gives links) parentId starts seen seen₁

theorem Searched.shrinks {result : Option (Bool × List Uuid)} (searched : Searched steady links parentId starts seen result)
    (fewer : Shrinks steady links links₁) : Searched steady links₁ parentId starts seen result := by
  match result with
  | none => exact searched
  | some (true, _) =>
    intro still
    obtain ⟨x, inside, way⟩ := searched still
    exact ⟨x, inside, ReflTransGen.mono (fun _ _ gives => ⟨gives.1, fewer.2 still _ _ gives.2⟩) _ _ way⟩
  | some (false, seen₁) =>
    have searched : Exhausted (Gives links) parentId starts seen seen₁ := searched
    exact searched.mono fun x y gives => ⟨gives.1, fewer.1 _ _ gives.2⟩

section

variable {World : Type} {rules : Rules (AppOp.Res GroupsStmt.Ans GraphCall.Reply) World} {links : World → Nat → Nat → Prop}

/-- Rules under which a search may be made: nobody adds links meanwhile, and a query gives those of its group.
It may fail unless all is steady. -/
structure Searchable (rules : Rules (AppOp.Res GroupsStmt.Ans GraphCall.Reply) World) (links : World → Nat → Nat → Prop)
    (steady : Prop) : Prop where
  rely : ∀ {w w₁}, rules.rely w w₁ → rules.inv w₁ → Shrinks steady (links w) (links w₁)
  asks : ∀ {g w answer w₁}, rules.inv w → rules.exec (.sql (.query (.subgroups g))) w answer w₁ →
    rules.inv w₁ ∧ rules.guarantee (.sql (.query (.subgroups g))) w answer w₁ ∧ Shrinks steady (links w) (links w₁) ∧
      ((answer = none ∧ ¬steady) ∨
        ∃ rows, answer = some rows ∧ (∀ x, links w₁ g x → x ∈ rows) ∧ (steady → ∀ x ∈ rows, links w₁ g x))

/-- The nodes of the search that the recursion is bounded by. -/
def Bounded (steady : Prop) (groups : Finset Uuid) (links : Nat → Nat → Prop) : Prop :=
  steady → ∀ x y, Gives links x y → y ∈ groups

/-- Where a search from `starts` may end that began in the world `w`. -/
def Ended (steady : Prop) (links : World → Nat → Nat → Prop) (parentId : Uuid) (w : World) (starts seen : List Uuid)
    (result : Option (Bool × List Uuid)) (w₁ : World) : Prop :=
  Shrinks steady (links w) (links w₁) ∧ Searched steady (links w₁) parentId starts seen result

theorem safe_ended (searchable : Searchable rules links steady) {w : World} {result : Option (Bool × List Uuid)}
    (searched : Searched steady (links w) parentId starts seen result) :
    rules.Safe (Ended steady links parentId w starts seen) (.ret result) w := by
  intro w₁ moves kept
  have fewer := searchable.rely moves kept
  exact ⟨fewer, searched.shrinks fewer⟩

variable {check : Uuid → List Uuid → GroupsApp (Option (Bool × List Uuid))} {groups : Finset Uuid}

/-- The loop, with a check that is right while no more than `n` groups are fresh. -/
theorem any_safe (searchable : Searchable rules links steady) {rows : List Nat} {n : Nat}
    (right : ∀ x ∈ rows, ∀ seen w, rules.inv w → Bounded steady groups (links w) → (steady → fresh groups seen ≤ n) →
      rules.Safe (Ended steady links parentId w [own x] seen) (check (own x) seen) w)
    {w : World} (kept : rules.inv w) (bounded : Bounded steady groups (links w)) (few : steady → fresh groups seen ≤ n) :
    rules.Safe (Ended steady links parentId w (rows.map own) seen) (anyCreatesCycle check rows seen) w := by
  induction rows generalizing seen w with
  | nil =>
    refine safe_ended searchable ?_
    exact ⟨List.Subset.refl seen, fun x inside => absurd inside List.not_mem_nil, fun x inside new => absurd inside new,
      fun x inside new => absurd inside new⟩
  | cons x rows ih =>
    obtain ⟨here, others⟩ := List.forall_mem_cons.mp right
    refine Rules.Safe.bind (here seen w kept bounded few) kept fun result w₁ kept₁ ended => ?_
    obtain ⟨fewer, searched⟩ := ended
    match result with
    | none =>
      have failed : Searched steady (links w₁) parentId ((x :: rows).map own) seen none := searched
      exact (safe_ended searchable failed).weaken fun _ _ _ later => ⟨fewer.trans later.1, later.2⟩
    | some (true, seen₁) =>
      have found : Searched steady (links w₁) parentId ((x :: rows).map own) seen (some (true, seen₁)) := by
        intro still
        obtain ⟨y, same, leads⟩ := searched still
        exact ⟨y, List.mem_cons.mpr (.inl (List.mem_singleton.mp same)), leads⟩
      exact (safe_ended searchable found).weaken fun _ _ _ later => ⟨fewer.trans later.1, later.2⟩
    | some (false, seen₁) =>
      have searched : Exhausted (Gives (links w₁)) parentId [own x] seen seen₁ := searched
      have bounded₁ : Bounded steady groups (links w₁) :=
        fun still y z gives => bounded still y z ⟨gives.1, fewer.1 _ _ gives.2⟩
      have later := ih others kept₁ bounded₁ fun still => (fresh_mono searched.kept).trans (few still)
      refine later.weaken fun result w₂ _ rest => ⟨fewer.trans rest.1, ?_⟩
      have first : Exhausted (Gives (links w₂)) parentId [own x] seen seen₁ :=
        searched.mono fun y z gives => ⟨gives.1, rest.1.1 _ _ gives.2⟩
      match result, rest.2 with
      | none, unsteady => exact unsteady
      | some (true, _), found =>
        intro still
        obtain ⟨y, inside, leads⟩ := found still
        exact ⟨y, List.mem_cons_of_mem _ inside, leads⟩
      | some (false, _), second => exact first.cons second

/-- The search, where nobody adds links meanwhile: when it ends without the parent, the child does not lead there. -/
theorem wouldCreateCycle_safe (searchable : Searchable rules links steady) {w : World} (kept : rules.inv w)
    (bounded : Bounded steady groups (links w)) (member : steady → childId ∈ groups)
    (enough : steady → fresh groups seen < calls) :
    rules.Safe (Ended steady links parentId w [childId] seen) (wouldCreateCycle parentId calls childId seen) w := by
  induction calls generalizing childId seen w with
  | zero => exact safe_ended searchable fun still => absurd (enough still) (Nat.not_lt_zero _)
  | succ calls ih =>
    unfold wouldCreateCycle
    split
    next same =>
      refine safe_ended searchable fun _ => ?_
      rw [same]
      exact ⟨parentId, List.mem_singleton_self parentId, .refl⟩
    next other =>
      split
      next old =>
        refine safe_ended searchable ?_
        refine ⟨List.Subset.refl seen, ?_, fun x inside new => absurd inside new, fun x inside new => absurd inside new⟩
        simpa using old
      next new =>
        refine Rules.Safe.perform fun w₁ moves kept₁ answer w₂ asked => ?_
        have before := searchable.rely moves kept₁
        obtain ⟨kept₂, guarantee, fewer, answered⟩ := searchable.asks kept₁ asked
        have fewer := before.trans fewer
        refine ⟨kept₂, guarantee, ?_⟩
        obtain ⟨rfl, unsteady⟩ | ⟨rows, rfl, listed, only⟩ := answered
        · have failed : Searched steady (links w₂) parentId [childId] seen none := unsteady
          exact (safe_ended searchable failed).weaken fun _ _ _ later => ⟨fewer.trans later.1, later.2⟩
        · have bounded₂ : Bounded steady groups (links w₂) :=
            fun still y z gives => bounded still y z ⟨gives.1, fewer.1 _ _ gives.2⟩
          have below : rules.Safe (Ended steady links parentId w₂ (rows.map own) (childId :: seen))
              (anyCreatesCycle (wouldCreateCycle parentId calls) rows (childId :: seen)) w₂ := by
            refine any_safe searchable (fun x inside seen₁ w₃ kept bounded few => ?_) kept₂ bounded₂ fun _ => le_rfl
            refine ih kept bounded (fun still => ?_) fun still => ?_
            · exact bounded₂ still childId (own x) ⟨rfl, only still x inside⟩
            · have less := fresh_cons (member still) new
              have here := enough still
              have few := few still
              omega
          refine below.weaken fun result w₃ _ ended => ⟨fewer.trans ended.1, ?_⟩
          match result, ended.2 with
          | none, unsteady => exact unsteady
          | some (true, _), found =>
            intro still
            obtain ⟨y, inside, leads⟩ := found still
            obtain ⟨x, listed, rfl⟩ := List.mem_map.mp inside
            have link : links w₃ childId.id x := ended.1.2 still _ _ (only still x listed)
            exact ⟨childId, List.mem_singleton_self childId, .head ⟨rfl, link⟩ leads⟩
          | some (false, seen₁), rest =>
            have rest : Exhausted (Gives (links w₃)) parentId (rows.map own) (childId :: seen) seen₁ := rest
            exact rest.enter other fun y gives => mem_own listed rfl ⟨gives.1, ended.1.1 _ _ gives.2⟩

end

/-- The statements of a request when none of them fails and nobody else writes. -/
def answers : (o : AppOp GroupsStmt GraphCall) → GroupsDb → o.Res GroupsStmt.Ans GraphCall.Reply → GroupsDb → Prop
  | .sql (.query s), db, answer, db₁ => ∃ draw out, s.run draw db = some out ∧ answer = some out.answer ∧
    db₁ = groupsSchema.applyAll out.changes db
  | _, _, _, _ => False

variable {db db₁ : GroupsDb}

theorem subgroup_eq_some {m : Member} : m.subgroup = some x ↔ m = .group x := by
  cases m <;> simp [Member.subgroup]

theorem mem_listed {draw : GroupsDraw} {sorted : List (Nat × GroupMember)}
    (picked : listed ((db .members).select fun _ m => m.groupId = g && m.member.subgroup.isSome) draw = some sorted) :
    x ∈ sorted.filterMap (·.2.member.subgroup) ↔ Linked db g x := by
  have once := (db .members).keys_select fun _ m => m.groupId = g && m.member.subgroup.isSome
  rw [List.mem_filterMap]
  constructor
  · rintro ⟨⟨id, m⟩, inside, group⟩
    obtain ⟨found, holds⟩ := Table.mem_select.mp (Table.mem_orderBy picked inside)
    rw [Bool.and_eq_true, decide_eq_true_eq] at holds
    obtain ⟨groupId, member, addedBy⟩ := m
    obtain ⟨rfl, -⟩ := holds
    cases subgroup_eq_some.mp group
    exact ⟨id, addedBy, found⟩
  · rintro ⟨id, addedBy, found⟩
    refine ⟨(id, ⟨g, .group x, addedBy⟩), Table.mem_of_orderBy picked once (Table.mem_select.mpr ⟨found, ?_⟩), rfl⟩
    simp [Member.subgroup]

/-- The query for the sub-groups of a group gives the groups that it is linked to, and changes nothing. -/
theorem run_subgroups {draw : GroupsDraw} {out : GroupsOutcome (List Nat)} (ran : (GroupsStmt.subgroups g).run draw db = some out) :
    out.changes = [] ∧ ∀ x, x ∈ out.answer ↔ Linked db g x := by
  obtain ⟨sorted, picked, rfl⟩ := Option.map_eq_some_iff.mp ran
  exact ⟨rfl, fun x => mem_listed picked⟩

theorem exists_subgroups (db : GroupsDb) (g : Nat) : ∃ rows, answers (.sql (.query (.subgroups g))) db (some rows) db := by
  let found := (db .members).select fun _ m => m.groupId = g && m.member.subgroup.isSome
  have picked : ∃ sorted, listed found ⟨0, found.map Prod.fst⟩ = some sorted := by
    unfold listed Table.orderBy
    dsimp only
    rw [if_pos]
    · exact ⟨_, rfl⟩
    · rw [Bool.and_eq_true, List.isPerm_iff, decide_eq_true_eq]
      exact ⟨.refl _, List.pairwise_of_forall fun _ _ => rfl⟩
  obtain ⟨sorted, picked⟩ := picked
  have ran : (GroupsStmt.subgroups g).run ⟨0, found.map Prod.fst⟩ db =
      some ⟨sorted.filterMap (·.2.member.subgroup), [], []⟩ := by
    simp only [GroupsStmt.run]
    rw [picked]
    rfl
  exact ⟨_, _, _, ran, rfl, rfl⟩

/-- A request that has the database for itself, and leaves it as it is. -/
def reading (db : GroupsDb) : Rules (AppOp.Res GroupsStmt.Ans GraphCall.Reply) GroupsDb := { Rules.alone answers with inv := (· = db) }

theorem searchable_reading (db : GroupsDb) : Searchable (reading db) Linked True where
  rely moves _ := by
    cases moves
    exact .refl True _
  asks kept asked := by
    obtain ⟨draw, out, ran, rfl, rfl⟩ := asked
    obtain ⟨unchanged, gives⟩ := run_subgroups ran
    rw [unchanged]
    exact ⟨kept, trivial, .refl True _, .inr ⟨_, rfl, fun x => (gives x).mpr, fun _ x => (gives x).mp⟩⟩

/-- The groups that are members of some group, as the database spells them. -/
def nestedGroups (db : GroupsDb) : Finset Uuid :=
  ((db .members).toList.filterMap fun e => e.2.member.subgroup.map own).toFinset

theorem mem_nestedGroups {u y : Uuid} (gives : Gives (Linked db) u y) : y ∈ nestedGroups db := by
  obtain ⟨id, spelling⟩ := y
  obtain ⟨rfl, key, addedBy, found⟩ := gives
  rw [nestedGroups, List.mem_toFinset, List.mem_filterMap]
  exact ⟨_, Std.ExtTreeMap.mem_toList_iff_getElem?_eq_some.mpr found, rfl⟩

section

variable {check : Uuid → List Uuid → GroupsApp (Option (Bool × List Uuid))}

theorem any_runs (runs : ∀ u seen, ∃ result, Rules.Ends answers (check u seen) db result db) (rows : List Nat) (seen : List Uuid) :
    ∃ result, Rules.Ends answers (anyCreatesCycle check rows seen) db result db := by
  induction rows generalizing seen with
  | nil => exact ⟨_, .ret⟩
  | cons x rows ih =>
    obtain ⟨result, ran⟩ := runs (own x) seen
    match result with
    | none => exact ⟨none, ran.bind .ret⟩
    | some (true, seen₁) => exact ⟨some (true, seen₁), ran.bind .ret⟩
    | some (false, seen₁) =>
      obtain ⟨last, later⟩ := ih seen₁
      exact ⟨last, ran.bind later⟩

theorem wouldCreateCycle_runs (parentId : Uuid) (calls : Nat) (childId : Uuid) (seen : List Uuid) :
    ∃ result, Rules.Ends answers (wouldCreateCycle parentId calls childId seen) db result db := by
  induction calls generalizing childId seen with
  | zero => exact ⟨none, .ret⟩
  | succ calls ih =>
    unfold wouldCreateCycle
    split
    · exact ⟨_, .ret⟩
    · split
      · exact ⟨_, .ret⟩
      · obtain ⟨rows, asked⟩ := exists_subgroups db childId.id
        obtain ⟨result, ran⟩ := any_runs ih rows (childId :: seen)
        exact ⟨result, .op asked ran⟩

end

/-- The answer is about the texts: whether the parent is the text of the child, or is met behind a link in the spelling of
the database. -/
theorem wouldCreateCycle_spells {result : Option (Bool × List Uuid)} (enough : fresh (insert childId (nestedGroups db)) [] < calls)
    (ends : Rules.Ends answers (wouldCreateCycle parentId calls childId []) db result db₁) :
    ∃ creates seen, result = some (creates, seen) ∧ db₁ = db ∧
      (creates = true ↔ childId = parentId ∨ parentId.spelling = 0 ∧ TransGen (Linked db) childId.id parentId.id) := by
  have bounded : Bounded True (insert childId (nestedGroups db)) (Linked db) :=
    fun _ x y gives => Finset.mem_insert_of_mem (mem_nestedGroups gives)
  have safe : (reading db).Safe (Ended True Linked parentId db [childId] []) (wouldCreateCycle parentId calls childId []) db :=
    wouldCreateCycle_safe (searchable_reading db) rfl bounded (fun _ => Finset.mem_insert_self childId _) fun _ => enough
  have safe : (reading db).Safe (fun result w => w = db ∧ Searched True (Linked db) parentId [childId] [] result)
      (wouldCreateCycle parentId calls childId []) db :=
    safe.weaken fun result w same ended => ⟨same, same ▸ ended.2⟩
  obtain ⟨rfl, searched⟩ := Rules.Safe.ends ends safe rfl
  match result, searched with
  | none, unsteady => exact absurd trivial unsteady
  | some (true, seen), found =>
    obtain ⟨x, same, way⟩ := found trivial
    rw [List.mem_singleton.mp same] at way
    exact ⟨true, seen, rfl, rfl, iff_of_true rfl (gives_leads.mp way)⟩
  | some (false, seen), all =>
    have all : Exhausted (Gives (Linked db₁)) parentId [childId] [] seen := all
    exact ⟨false, seen, rfl, rfl, iff_of_false Bool.false_ne_true fun meets => all.not_leads (gives_leads.mpr meets)⟩

/-- The answer is true exactly when the parent is the child or one of its descendants, and a link that it lets pass closes
no cycle. -/
structure Right (db : GroupsDb) (parentId childId : Uuid) (creates : Bool) : Prop where
  leads : creates = true ↔ Leads db childId.id parentId.id
  passes : creates = false → NoCycle db → ∀ id addedBy, (db .members)[id]? = none →
    NoCycle (groupsSchema.applyAll [⟨.members, id, some ⟨parentId.id, .group childId.id, addedBy⟩⟩] db)

/-- Where the parent is the child or one of its descendants, it is spelled as the search will meet it: like the child, or
as the database spells it and behind at least one link. -/
def Met (db : GroupsDb) (parentId childId : Uuid) : Prop :=
  Leads db childId.id parentId.id →
    childId = parentId ∨ parentId.spelling = 0 ∧ (childId.id = parentId.id → TransGen (Linked db) childId.id parentId.id)

theorem right_iff {creates : Bool}
    (spells : creates = true ↔ childId = parentId ∨ parentId.spelling = 0 ∧ TransGen (Linked db) childId.id parentId.id) :
    Right db parentId childId creates ↔ Met db parentId childId := by
  have found : creates = true → Leads db childId.id parentId.id := by
    intro yes
    rcases spells.mp yes with same | ⟨-, way⟩
    · rw [same]
    · exact way.to_reflTransGen
  constructor
  · intro right leads
    rcases spells.mp (right.leads.mpr leads) with same | ⟨spelled, way⟩
    · exact .inl same
    · exact .inr ⟨spelled, fun _ => way⟩
  · intro met
    have exact_ : creates = true ↔ Leads db childId.id parentId.id := by
      refine ⟨found, fun leads => spells.mpr ?_⟩
      rcases met leads with same | ⟨spelled, again⟩
      · exact .inl same
      · rcases reflTransGen_iff_eq_or_transGen.mp leads with same | way
        · exact .inr ⟨spelled, again same.symm⟩
        · exact .inr ⟨spelled, way⟩
    refine ⟨exact_, fun passed acyclic id addedBy absent => ?_⟩
    refine (noCycle_inserted absent acyclic).mpr fun memberGroupId same leads => ?_
    cases same
    rw [exact_.mpr leads] at passed
    cases passed

/-- The check ends, whatever the links are, and it is right exactly where the search can meet the parent as it is spelled. -/
theorem wouldCreateCycle_right_iff (db : GroupsDb) (parentId childId : Uuid) : ∃ enough, ∀ calls, enough ≤ calls →
    (∃ result, Rules.Ends answers (wouldCreateCycle parentId calls childId []) db result db) ∧
    ∀ result db₁, Rules.Ends answers (wouldCreateCycle parentId calls childId []) db result db₁ →
      ∃ creates seen, result = some (creates, seen) ∧ db₁ = db ∧
        (Right db parentId childId creates ↔ Met db parentId childId) := by
  refine ⟨fresh (insert childId (nestedGroups db)) [] + 1, fun calls enough => ⟨wouldCreateCycle_runs .., ?_⟩⟩
  intro result db₁ ends
  obtain ⟨creates, seen, same, unchanged, spells⟩ := wouldCreateCycle_spells enough ends
  exact ⟨creates, seen, same, unchanged, right_iff spells⟩

/-- The group 2 contains the group 1. -/
def parentBelow : GroupsDb
  | .members => (∅ : Table GroupMember).insert 0 ⟨2, .group 1, ""⟩
  | .groups | .devices => ∅

/-- The group 1 in capitals, and the group 2 that already contains it. -/
theorem wouldCreateCycle_wrong : ¬∀ (db : GroupsDb) (parentId childId : Uuid), ∃ enough, ∀ calls, enough ≤ calls →
    ∀ result db₁, Rules.Ends answers (wouldCreateCycle parentId calls childId []) db result db₁ →
      ∃ creates seen, result = some (creates, seen) ∧ db₁ = db ∧ Right db parentId childId creates := by
  intro right
  obtain ⟨enough, right⟩ := right parentBelow ⟨1, 1⟩ ⟨2, 0⟩
  obtain ⟨calls, more, many⟩ : ∃ calls, enough ≤ calls ∧ fresh (insert ⟨2, 0⟩ (nestedGroups parentBelow)) [] < calls :=
    ⟨_, le_max_left enough _, lt_of_lt_of_le (Nat.lt_succ_self _) (le_max_right enough _)⟩
  obtain ⟨result, ends⟩ : ∃ result, Rules.Ends answers (wouldCreateCycle ⟨1, 1⟩ calls ⟨2, 0⟩ []) parentBelow result parentBelow :=
    wouldCreateCycle_runs ..
  obtain ⟨creates, seen, rfl, -, holds⟩ := right calls more result _ ends
  obtain ⟨_, _, same, -, spells⟩ := wouldCreateCycle_spells many ends
  cases same
  have link : Linked parentBelow 2 1 := ⟨0, "", rfl⟩
  rcases (right_iff spells).mp holds (.single link) with same | ⟨spelled, -⟩
  · cases same
  · cases spelled

end Opale.Groups
