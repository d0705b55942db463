import Opale.Ask.Questions

namespace Opale.Ask

open Js Sql

def FilterValue.toJson : FilterValue → Json
  | .null => .null
  | .bool b => .bool b
  | .number n => .number n
  | .string s => .string s

def SortKey.toJson (key : SortKey) : Json :=
  .object [(ascii "field", .string key.field),
    (ascii "dir", .string (ascii (if key.descending then "desc" else "asc")))]

def members (values : List (Units × FilterValue)) : List (Units × Json) :=
  values.map fun entry => (entry.1, entry.2.toJson)

/-- The spec as JSON, as a caller would give it to `validateQuerySpec` again. -/
def QuerySpec.toJson (spec : QuerySpec) : Json :=
  .object [(ascii "resource", .string spec.resource), (ascii "filters", .object (members spec.filters)),
    (ascii "cross", .object (members spec.cross)), (ascii "sort", (spec.sort.map SortKey.toJson).getD .null),
    (ascii "limit", (spec.limit.map Json.number).getD .null)]

/-- The values of the type of a filter, before any name is resolved. -/
def FilterType.Checked : FilterType → FilterValue → Prop
  | .enum values, v => ∃ s ∈ values, v = .string s
  | .text, v | .resolve _, v => ∃ s, v = .string s ∧ s ≠ [] ∧ s.length ≤ TEXT_MAX
  | .number, v => ∃ q : ℚ, v = .number (q : JsNumber)
  | .bool, v => ∃ b, v = .bool b

/-- Every value is that of a filter, and of its type. -/
def Typed (defs : List (Units × Filter)) (values : List (Units × FilterValue)) : Prop :=
  ∀ entry ∈ values, ∃ filter, ownEntry defs entry.1 = some filter ∧ filter.type.Checked entry.2

structure QuerySpec.WellFormed (spec : QuerySpec) (res : Resource) : Prop where
  own : ownEntry REGISTRY spec.resource = some res
  filters : Typed res.filters spec.filters
  cross : Typed res.crossFilters spec.cross
  sort : ∃ key, spec.sort = some key ∧ (ownEntry res.sort key.field).isSome
  limit : ∃ n : Int, spec.limit = some ((n : ℚ) : JsNumber) ∧ 1 ≤ n ∧ n ≤ res.maxLimit

/-- The spec is well formed, and to validate it again changes nothing of it. -/
def QuerySpec.Settled (spec : QuerySpec) : Prop :=
  (∃ res, spec.WellFormed res) ∧ validateQuerySpec spec.toJson = .ok spec

/-- Where a text is cut, it does not end in a space. -/
def CutClean (s : Units) : Prop := ∀ u ∈ (trimUnits s)[TEXT_MAX - 1]?, isSpace u = false

def FilterType.IsText : FilterType → Prop
  | .text | .resolve _ => True
  | .enum _ | .number | .bool => False

/-- The texts of a group of filters. -/
def TextsClean (defs : List (Units × Filter)) (input : Option Json) : Prop :=
  ∀ j name s filter, input = some j → j.get name = some (.string s) → ownEntry defs name = some filter →
    filter.type.IsText → CutClean s

/-- The resource that the input names. -/
def resourceOf (raw : Json) : Option Resource :=
  match raw.get (ascii "resource") with
  | some (.string resource) => ownEntry REGISTRY resource
  | _ => none

/-- What is asked of the input: no limit below one, and texts that are cut clean. -/
structure Steady (raw : Json) : Prop where
  limit : ∀ j q, raw.get (ascii "limit") = some j → coerceNumber j = some q → 1 ≤ q
  filters : ∀ res ∈ resourceOf raw, TextsClean res.filters (raw.get (ascii "filters"))
  cross : ∀ res ∈ resourceOf raw, TextsClean res.crossFilters (raw.get (ascii "cross"))

section

variable {α : Type} [BEq α] [LawfulBEq α]

theorem nodup_eraseDups (l : List α) : l.eraseDups.Nodup := by
  induction size : l.length using Nat.strong_induction_on generalizing l with
  | _ n ih =>
    cases l with
    | nil => exact List.nodup_nil
    | cons a rest =>
      rw [List.eraseDups_cons, List.nodup_cons, List.mem_eraseDups]
      have shorter : (rest.filter fun b => !b == a).length < n := by
        have filtered := List.length_filter_le (fun b => !b == a) rest
        rw [← size, List.length_cons]
        omega
      exact ⟨by simp, ih _ shorter _ rfl⟩

theorem eraseDups_of_nodup {l : List α} (distinct : l.Nodup) : l.eraseDups = l := by
  induction l with
  | nil => rfl
  | cons a rest ih =>
    obtain ⟨fresh, later⟩ := List.nodup_cons.mp distinct
    have kept : (rest.filter fun b => !b == a) = rest := by
      refine List.filter_eq_self.mpr fun b member => ?_
      have other : b ≠ a := fun same => fresh (same ▸ member)
      simpa using other
    rw [List.eraseDups_cons, kept, ih later]

end

theorem get_object (members : List (Units × Json)) (name : Units) :
    (Json.object members).get name = (members.reverse.find? (·.1 = name)).map (·.2) := rfl

theorem mem_of_get {members : List (Units × Json)} {name : Units} {j : Json}
    (found : (Json.object members).get name = some j) : (name, j) ∈ members := by
  obtain ⟨⟨key, value⟩, first, rfl⟩ := Option.map_eq_some_iff.mp found
  have named := List.find?_some first
  rw [decide_eq_true_eq] at named
  subst named
  exact List.mem_reverse.mp (List.mem_of_find?_eq_some first)

theorem get_of_mem {members : List (Units × Json)} (distinct : (members.map (·.1)).Nodup) {entry : Units × Json}
    (member : entry ∈ members) : (Json.object members).get entry.1 = some entry.2 := by
  have some_ : ((Json.object members).get entry.1).isSome := by
    rw [get_object, Option.isSome_map, List.find?_isSome]
    exact ⟨entry, List.mem_reverse.mpr member, by simp⟩
  obtain ⟨j, found⟩ := Option.isSome_iff_exists.mp some_
  have same := List.inj_on_of_nodup_map distinct member (mem_of_get found) rfl
  rw [found]
  exact congrArg (fun entry => some entry.2) same.symm

theorem mem_names {members : List (Units × Json)} {name : Units} :
    (name ∈ (members.map (·.1)).eraseDups.filter (fun name => (arrayIndex? name).isSome) ∨
      name ∈ (members.map (·.1)).eraseDups.filter fun name => (arrayIndex? name).isNone) ↔
        name ∈ members.map (·.1) := by
  rw [List.mem_filter, List.mem_filter, List.mem_eraseDups, ← and_or_left]
  cases arrayIndex? name with
  | none => simp
  | some n => simp

/-- The entries of an object are what its names give. -/
theorem mem_entries {members : List (Units × Json)} {name : Units} {j : Json} :
    (name, j) ∈ entries members ↔ (Json.object members).get name = some j := by
  simp only [entries, List.mem_filterMap, List.mem_append, List.mem_insertionSort, mem_names]
  constructor
  · rintro ⟨key, -, given⟩
    obtain ⟨value, found, same⟩ := Option.map_eq_some_iff.mp given
    cases same
    exact found
  · intro found
    exact ⟨name, List.mem_map_of_mem (mem_of_get found), by rw [found]; rfl⟩

theorem names_sublist {α β : Type} (name : α → Units) (value : α → Option β) (l : List α) :
    ((l.filterMap fun a => (value a).map (name a, ·)).map (·.1)).Sublist (l.map name) := by
  induction l with
  | nil => exact .slnil
  | cons a rest ih =>
    rw [List.filterMap_cons]
    cases value a with
    | none => exact ih.cons (name a)
    | some j => exact ih.cons_cons (name a)

theorem nodup_entries (members : List (Units × Json)) : ((entries members).map (·.1)).Nodup := by
  have names := nodup_eraseDups (members.map (·.1))
  have kept := names_sublist id (Json.object members).get
  simp only [id_eq, List.map_id_fun] at kept
  refine (kept _).nodup (List.Nodup.append ?_ (names.filter _) fun name first second => ?_)
  · exact (List.perm_insertionSort _ _).nodup_iff.mpr (names.filter _)
  · rw [List.mem_insertionSort, List.mem_filter] at first
    have index := first.2
    have other := (List.mem_filter.mp second).2
    rw [Option.isNone_iff_eq_none] at other
    rw [other] at index
    exact absurd index Bool.false_ne_true

/-- Distinct names, none of them an index, stay as they are. -/
theorem entries_eq {l : List (Units × Json)} (distinct : (l.map (·.1)).Nodup)
    (named : ∀ name ∈ l.map (·.1), arrayIndex? name = none) : entries l = l := by
  have indices : ((l.map (·.1)).filter fun name => (arrayIndex? name).isSome) = [] :=
    List.filter_eq_nil_iff.mpr fun name member => by simp [named name member]
  have others : ((l.map (·.1)).filter fun name => (arrayIndex? name).isNone) = l.map (·.1) :=
    List.filter_eq_self.mpr fun name member => by simp [named name member]
  have each : ∀ entry ∈ l, ((Json.object l).get entry.1).map (entry.1, ·) = some entry := fun entry member => by
    rw [get_of_mem distinct member]
    rfl
  simp only [entries, eraseDups_of_nodup distinct, indices, others, List.insertionSort_nil, List.nil_append,
    List.filterMap_map]
  exact (List.filterMap_congr each).trans List.filterMap_some

theorem length_trim_le (s : Units) : (trimUnits s).length ≤ s.length :=
  (List.rdropWhile_prefix _ _).length_le.trans (List.dropWhile_sublist _).length_le

/-- The text of a value, cut, is trimmed unless it ends in a space there. -/
theorem trim_cut (s : Units) : trimUnits ((trimUnits s).take TEXT_MAX) = (trimUnits s).take TEXT_MAX ↔ CutClean s := by
  have last : ((trimUnits s).take TEXT_MAX).getLast? = (trimUnits s)[TEXT_MAX - 1]?.or (trimUnits s).getLast? := by
    rw [List.getLast?_take]
    rfl
  constructor
  · intro trimmed u cut
    refine @last_trimUnits ((trimUnits s).take TEXT_MAX) u ?_
    rw [trimmed, last, Option.mem_def.mp cut]
    rfl
  · intro clean
    refine trimUnits_self (fun u first => ?_) fun u ending => ?_
    · rw [List.head?_take, if_neg (by decide)] at first
      exact head_trimUnits u first
    · rw [last, Option.mem_def, Option.or_eq_some_iff] at ending
      rcases ending with cut | ⟨-, whole⟩
      · exact clean u cut
      · exact last_trimUnits u whole

section

variable {group : String} {name : Units} {raw : Json} {type : FilterType} {value : FilterValue}

theorem checkValue_text (text : type.IsText) : checkValue group name raw type = .ok value ↔
    ∃ s, raw = .string s ∧ trimUnits s ≠ [] ∧ value = .string ((trimUnits s).take TEXT_MAX) := by
  have each (s : Units) : checkValue group name (.string s) type =
      if trimUnits s = [] then .error (.noText group name) else .ok (.string ((trimUnits s).take TEXT_MAX)) := by
    cases type with
    | text | resolve => rfl
    | enum | number | bool => exact absurd text id
  have other (no_ : ∀ s, raw ≠ .string s) : checkValue group name raw type = .error (.noText group name) := by
    cases type with
    | text | resolve =>
      cases raw with
      | string s => exact absurd rfl (no_ s)
      | _ => rfl
    | enum | number | bool => exact absurd text id
  by_cases some_ : ∃ s, raw = .string s
  · obtain ⟨s, rfl⟩ := some_
    rw [each]
    by_cases empty : trimUnits s = []
    · simp [empty]
    · rw [if_neg empty]
      constructor
      · intro given
        exact ⟨s, rfl, empty, (Except.ok.inj given).symm⟩
      · rintro ⟨t, same, -, rfl⟩
        cases same
        rfl
  · rw [other fun s same => some_ ⟨s, same⟩]
    constructor
    · intro given
      cases given
    · rintro ⟨s, same, -⟩
      exact absurd ⟨s, same⟩ some_

theorem accepts_text {s : Units} (text : type.IsText) (some_ : s ≠ []) (short : s.length ≤ TEXT_MAX) :
    checkValue group name (.string s) type = .ok (.string s) ↔ trimUnits s = s := by
  rw [checkValue_text text]
  constructor
  · rintro ⟨t, given, -, same⟩
    cases given
    have cut := FilterValue.string.inj same
    rw [List.take_of_length_le ((length_trim_le s).trans short)] at cut
    exact cut.symm
  · intro same
    exact ⟨s, rfl, by rwa [same], by rw [same, List.take_of_length_le short]⟩

theorem cut_ne_nil {s : Units} (some_ : trimUnits s ≠ []) : (trimUnits s).take TEXT_MAX ≠ [] := by
  rw [Ne, List.take_eq_nil_iff, not_or]
  exact ⟨by decide, some_⟩

theorem checked_checkValue (checked : checkValue group name raw type = .ok value) : type.Checked value := by
  cases type with
  | text | resolve =>
    obtain ⟨s, -, some_, rfl⟩ := (checkValue_text (by exact trivial)).mp checked
    exact ⟨_, rfl, cut_ne_nil some_, List.length_take_le _ _⟩
  | number =>
    simp only [checkValue] at checked
    split at checked
    next q _ => exact ⟨q, (Except.ok.inj checked).symm⟩
    · cases checked
  | enum | bool => exact accepts_checkValue checked

/-- A value of its type passes the same check, unless it is a text with spaces around. -/
theorem checkValue_toJson (checked : type.Checked value) :
    checkValue group name value.toJson type = .ok value ↔ ∀ s, value = .string s → type.IsText → trimUnits s = s := by
  cases type with
  | enum values =>
    obtain ⟨s, member, rfl⟩ := checked
    have again : checkValue group name (.string s) (.enum values) = .ok (.string s) := if_pos member
    exact ⟨fun _ _ _ text => absurd text id, fun _ => again⟩
  | number =>
    obtain ⟨q, rfl⟩ := checked
    exact ⟨fun _ _ _ text => absurd text id, fun _ => rfl⟩
  | bool =>
    obtain ⟨b, rfl⟩ := checked
    exact ⟨fun _ _ _ text => absurd text id, fun _ => rfl⟩
  | text | resolve =>
    obtain ⟨s, rfl, some_, short⟩ := checked
    rw [FilterValue.toJson, accepts_text (by exact trivial) some_ short]
    refine ⟨fun same t given _ => ?_, fun all => all s rfl trivial⟩
    rwa [← FilterValue.string.inj given]

theorem toJson_ne_null (checked : type.Checked value) : value.toJson ≠ .null := by
  intro null
  cases value with
  | null =>
    cases type with
    | enum | text | number | bool | resolve =>
      obtain ⟨_, given⟩ := checked
      simp at given
  | bool | number | string => cases null

variable {defs : List (Units × Filter)} {list : List (Units × Json)}

theorem validateEntries_own {filter : Filter} (group : String) (list : List (Units × Json))
    (own : ownEntry defs name = some filter) (present : raw ≠ .null) :
    validateEntries defs group ((name, raw) :: list) =
      match checkValue group name raw filter.type with
      | .ok value => ((name, value) :: (validateEntries defs group list).1, (validateEntries defs group list).2)
      | .error e => ((validateEntries defs group list).1, e :: (validateEntries defs group list).2) := by
  simp only [validateEntries]
  split
  next other =>
    rw [own] at other
    cases other
  next => exact absurd rfl present
  next other _ =>
    rw [own] at other
    cases other
    rfl

/-- What `validateFilterGroup` keeps of an entry. -/
def kept? (defs : List (Units × Filter)) (group : String) (entry : Units × Json) : Option FilterValue :=
  match ownEntry defs entry.1, entry.2 with
  | none, _ | some _, .null => none
  | some filter, raw => (checkValue group entry.1 raw filter.type).toOption

theorem kept?_own {filter : Filter} (own : ownEntry defs name = some filter) (present : raw ≠ .null) :
    kept? defs group (name, raw) = (checkValue group name raw filter.type).toOption := by
  simp only [kept?]
  split
  next other =>
    rw [own] at other
    cases other
  next => exact absurd rfl present
  next other _ =>
    rw [own] at other
    cases other
    rfl

theorem kept?_eq_some : kept? defs group (name, raw) = some value ↔
    ∃ filter, ownEntry defs name = some filter ∧ raw ≠ .null ∧ checkValue group name raw filter.type = .ok value := by
  rcases own : ownEntry defs name with - | filter
  · simp [kept?, own]
  · by_cases null : raw = .null
    · subst null
      simp [kept?, own]
    · rw [kept?_own own null]
      cases checked : checkValue group name raw filter.type with
      | ok given => simp [Except.toOption, null, checked]
      | error e => simp [Except.toOption, checked]

theorem validateEntries_kept (defs : List (Units × Filter)) (group : String) (list : List (Units × Json)) :
    (validateEntries defs group list).1 = list.filterMap fun entry => (kept? defs group entry).map (entry.1, ·) := by
  induction list with
  | nil => rfl
  | cons entry rest ih =>
    obtain ⟨name, raw⟩ := entry
    rw [List.filterMap_cons, ← ih]
    rcases own : ownEntry defs name with - | filter
    · simp [validateEntries, kept?, own]
    · by_cases null : raw = .null
      · subst null
        simp [validateEntries, kept?, own]
      · rw [validateEntries_own group rest own null, kept?_own own null]
        cases checkValue group name raw filter.type with
        | ok value => rfl
        | error e => rfl

/-- What is kept of a group: each entry whose filter is known and whose value passes. -/
theorem mem_validateEntries : (name, value) ∈ (validateEntries defs group list).1 ↔
    ∃ raw, (name, raw) ∈ list ∧ ∃ filter, ownEntry defs name = some filter ∧ raw ≠ .null ∧
      checkValue group name raw filter.type = .ok value := by
  simp only [validateEntries_kept, List.mem_filterMap, Prod.exists, Option.map_eq_some_iff, Prod.mk.injEq,
    kept?_eq_some]
  constructor
  · rintro ⟨_, raw, member, _, kept, rfl, rfl⟩
    exact ⟨raw, member, kept⟩
  · rintro ⟨raw, member, kept⟩
    exact ⟨name, raw, member, value, kept, rfl, rfl⟩

theorem nodup_validateEntries (distinct : (list.map (·.1)).Nodup) :
    ((validateEntries defs group list).1.map (·.1)).Nodup := by
  rw [validateEntries_kept]
  exact (names_sublist _ _ _).nodup distinct

/-- Values of their types are kept as they are when each of them passes unchanged. -/
theorem validateEntries_members {values : List (Units × FilterValue)} (typed : Typed defs values) :
    validateEntries defs group (members values) = (values, []) ↔
      ∀ entry ∈ values, ∀ filter, ownEntry defs entry.1 = some filter →
        checkValue group entry.1 entry.2.toJson filter.type = .ok entry.2 := by
  induction values with
  | nil => exact ⟨fun _ _ member => absurd member List.not_mem_nil, fun _ => rfl⟩
  | cons entry rest ih =>
    obtain ⟨name, value⟩ := entry
    obtain ⟨⟨filter, own, checked⟩, later⟩ := List.forall_mem_cons.mp typed
    have present := toJson_ne_null checked
    have own_ : (∀ other, ownEntry defs name = some other → checkValue group name value.toJson other.type = .ok value) ↔
        checkValue group name value.toJson filter.type = .ok value := by
      simp [own]
    rw [List.forall_mem_cons, ← ih later, own_]
    have unfolded := validateEntries_own group (members rest) own present
    change validateEntries defs group ((name, value.toJson) :: members rest) = _ ↔ _
    rw [unfolded]
    cases checkValue group name value.toJson filter.type with
    | ok given => simp [Prod.ext_iff, and_assoc]
    | error e => simp

/-- An entry that is kept passes again unchanged unless its text ends in a space where it is cut. -/
theorem checkValue_again (checked : checkValue group name raw type = .ok value) :
    checkValue group name value.toJson type = .ok value ↔ ∀ s, raw = .string s → type.IsText → CutClean s := by
  rw [checkValue_toJson (checked_checkValue checked)]
  constructor
  · intro trimmed s same text
    obtain ⟨t, given, -, cut⟩ := (checkValue_text text).mp checked
    cases same.symm.trans given
    exact (trim_cut s).mp (trimmed _ cut text)
  · intro clean s same text
    obtain ⟨t, given, -, cut⟩ := (checkValue_text text).mp checked
    cases same.symm.trans cut
    exact (trim_cut t).mpr (clean t given text)

theorem ownEntry_some {α : Type} {obj : List (Units × α)} {key : Units} {a : α} (own : ownEntry obj key = some a) :
    (key, a) ∈ obj := by
  obtain ⟨⟨name, value⟩, found, rfl⟩ := Option.map_eq_some_iff.mp own
  have named := List.find?_some found
  rw [decide_eq_true_eq] at named
  subst named
  exact List.mem_of_find?_eq_some found

theorem entries_members (plain : ∀ f ∈ defs, arrayIndex? f.1 = none) {values : List (Units × FilterValue)}
    (typed : Typed defs values) (distinct : (values.map (·.1)).Nodup) : entries (members values) = members values := by
  have names : (members values).map (·.1) = values.map (·.1) := by
    simp [members]
  refine entries_eq (by rwa [names]) fun name member => ?_
  rw [names] at member
  obtain ⟨entry, inside, rfl⟩ := List.mem_map.mp member
  obtain ⟨filter, own, -⟩ := typed entry inside
  exact plain _ (ownEntry_some own)

theorem get_eq_none {input : Option Json} (object : ¬∃ list, input = some (.object list)) {j : Json}
    (given : input = some j) (name : Units) : j.get name = none := by
  cases j with
  | object list => exact absurd ⟨list, given⟩ object
  | _ => rfl

theorem validateFilterGroup_other {input : Option Json} (object : ¬∃ list, input = some (.object list)) :
    (validateFilterGroup input defs group).1 = [] := by
  unfold validateFilterGroup
  split
  · rfl
  · rfl
  next list => exact absurd ⟨list, rfl⟩ object
  · rfl

/-- What is kept of a group: each of its values whose filter is known and that passes. -/
theorem mem_validateFilterGroup {input : Option Json} :
    (name, value) ∈ (validateFilterGroup input defs group).1 ↔
      ∃ j raw filter, input = some j ∧ j.get name = some raw ∧ ownEntry defs name = some filter ∧ raw ≠ .null ∧
        checkValue group name raw filter.type = .ok value := by
  by_cases object : ∃ list, input = some (.object list)
  · obtain ⟨list, rfl⟩ := object
    change (name, value) ∈ (validateEntries defs group (entries list)).1 ↔ _
    simp only [mem_validateEntries, mem_entries]
    constructor
    · rintro ⟨raw, found, filter, kept⟩
      exact ⟨_, raw, filter, rfl, found, kept⟩
    · rintro ⟨_, raw, filter, ⟨⟩, found, kept⟩
      exact ⟨raw, found, filter, kept⟩
  · rw [validateFilterGroup_other object]
    constructor
    · intro member
      cases member
    · rintro ⟨j, raw, filter, given, found, -⟩
      rw [get_eq_none object given] at found
      cases found

theorem typed_validateFilterGroup (input : Option Json) : Typed defs (validateFilterGroup input defs group).1 := by
  intro entry member
  obtain ⟨j, raw, filter, -, -, own, -, checked⟩ := mem_validateFilterGroup.mp member
  exact ⟨filter, own, checked_checkValue checked⟩

theorem nodup_validateFilterGroup (input : Option Json) :
    ((validateFilterGroup input defs group).1.map (·.1)).Nodup := by
  by_cases object : ∃ list, input = some (.object list)
  · obtain ⟨list, rfl⟩ := object
    exact nodup_validateEntries (nodup_entries list)
  · rw [validateFilterGroup_other object]
    exact List.nodup_nil

/-- A group that has been validated passes again unchanged when its texts are cut clean. -/
theorem validateFilterGroup_again (group : String) (plain : ∀ f ∈ defs, arrayIndex? f.1 = none) (input : Option Json) :
    validateFilterGroup (some (.object (members (validateFilterGroup input defs group).1))) defs group =
      ((validateFilterGroup input defs group).1, []) ↔ TextsClean defs input := by
  have typed : Typed defs (validateFilterGroup input defs group).1 := typed_validateFilterGroup input
  change validateEntries defs group (entries (members _)) = _ ↔ _
  rw [entries_members plain typed (nodup_validateFilterGroup input), validateEntries_members typed]
  constructor
  · rintro again j name s filter given found own text
    by_cases some_ : trimUnits s = []
    · intro u cut
      rw [some_] at cut
      cases cut
    · have checked : checkValue group name (.string s) filter.type = .ok (.string ((trimUnits s).take TEXT_MAX)) :=
        (checkValue_text text).mpr ⟨s, rfl, some_, rfl⟩
      have kept := mem_validateFilterGroup.mpr ⟨j, _, filter, given, found, own, Json.noConfusion, checked⟩
      exact (checkValue_again checked).mp (again _ kept filter own) s rfl text
  · rintro clean ⟨name, value⟩ member filter own
    obtain ⟨j, raw, other, given, found, own', -, checked⟩ := mem_validateFilterGroup.mp member
    cases own.symm.trans own'
    refine (checkValue_again checked).mpr fun s same text => ?_
    subst same
    exact clean j name s filter given found own text

end

/-- What `validateQuerySpec` accepts, part by part. -/
structure Passes (raw : Json) (spec : QuerySpec) (res : Resource) : Prop where
  object : ∃ list, raw = .object list
  resource : raw.get (ascii "resource") = some (.string spec.resource)
  own : ownEntry REGISTRY spec.resource = some res
  filters : validateFilterGroup (raw.get (ascii "filters")) res.filters "filters" = (spec.filters, [])
  cross : validateFilterGroup (raw.get (ascii "cross")) res.crossFilters "cross" = (spec.cross, [])
  sort : ∃ key, validateSort res (raw.get (ascii "sort")) = (key, []) ∧ spec.sort = some key
  limit : ∃ n, validateLimit res (raw.get (ascii "limit")) = (n, []) ∧ spec.limit = some n

theorem validateQuerySpec_eq_ok {raw : Json} {spec : QuerySpec} :
    validateQuerySpec raw = .ok spec ↔ ∃ res, Passes raw spec res := by
  constructor
  · intro accepted
    unfold validateQuerySpec at accepted
    split at accepted
    next list =>
      dsimp only at accepted
      split at accepted
      next resource named =>
        split at accepted
        next => cases accepted
        next res own =>
          split at accepted
          next none_ =>
            simp only [List.append_eq_nil_iff] at none_
            obtain ⟨⟨⟨filters, cross⟩, sort⟩, limit⟩ := none_
            cases Except.ok.inj accepted
            exact ⟨res, ⟨list, rfl⟩, named, own, Prod.ext rfl filters, Prod.ext rfl cross, ⟨_, Prod.ext rfl sort, rfl⟩,
              ⟨_, Prod.ext rfl limit, rfl⟩⟩
          next => cases accepted
      next => cases accepted
    next => cases accepted
  · rintro ⟨res, ⟨list, rfl⟩, resource, own, filters, cross, ⟨key, sort, sorted⟩, n, limit, limited⟩
    simp only [validateQuerySpec, resource, own, filters, cross, sort, limit]
    rw [← sorted, ← limited]
    rfl

theorem toJson_resource (spec : QuerySpec) : spec.toJson.get (ascii "resource") = some (.string spec.resource) := by
  rfl

theorem toJson_sort (spec : QuerySpec) :
    spec.toJson.get (ascii "sort") = some ((spec.sort.map SortKey.toJson).getD .null) := by
  rfl

theorem toJson_limit (spec : QuerySpec) :
    spec.toJson.get (ascii "limit") = some ((spec.limit.map Json.number).getD .null) := by
  rfl

theorem validateSort_again {res : Resource} {key : SortKey} (own : (ownEntry res.sort key.field).isSome) :
    validateSort res (some key.toJson) = (key, []) := by
  have known : (ownEntry res.sort key.field).isNone = false := by
    rw [← Option.not_isSome, own]
    rfl
  have unfolded : validateSort res (some key.toJson) =
      if (ownEntry res.sort key.field).isNone then
        (res.defaultSort, [.unknownSort (some (.string key.field)) (res.sort.map (·.1))])
      else (⟨key.field, (ascii (if key.descending then "desc" else "asc")) = ascii "desc"⟩, []) := rfl
  rw [unfolded, known, if_neg Bool.false_ne_true]
  obtain ⟨field, descending⟩ := key
  have other : ascii "asc" ≠ ascii "desc" := by decide
  cases descending with
  | true => simp
  | false => simp [other]

section

variable {res : Resource} {limit : Option Json} {n : JsNumber}

/-- A limit that is an integer of the range passes unchanged. -/
theorem validateLimit_again {k : Int} (above : 1 ≤ k) (below : k ≤ res.maxLimit) :
    validateLimit res (some (.number ((k : ℚ) : JsNumber))) = (((k : ℚ) : JsNumber), []) := by
  have positive : ¬(k : ℚ) ≤ 0 := by
    rw [not_le]
    exact_mod_cast above
  have unfolded : validateLimit res (some (.number ((k : ℚ) : JsNumber))) =
      if (k : ℚ) ≤ 0 then (((res.defaultLimit : ℚ) : JsNumber), [SpecError.notALimit])
      else ((((min ⌊(k : ℚ)⌋ res.maxLimit : Int) : ℚ) : JsNumber), []) := rfl
  rw [unfolded, if_neg positive, Int.floor_intCast, min_eq_left below]

/-- The limit of an accepted spec is in its range unless it was given below one. -/
theorem limit_range (default_ : 1 ≤ res.defaultLimit ∧ res.defaultLimit ≤ res.maxLimit)
    (passes : validateLimit res limit = (n, [])) :
    (∃ k : Int, n = ((k : ℚ) : JsNumber) ∧ 1 ≤ k ∧ k ≤ res.maxLimit) ↔
      ∀ j q, limit = some j → coerceNumber j = some q → 1 ≤ q := by
  have own : ∃ k : Int, ((res.defaultLimit : ℚ) : JsNumber) = ((k : ℚ) : JsNumber) ∧ 1 ≤ k ∧ k ≤ res.maxLimit :=
    ⟨res.defaultLimit, rfl, by exact_mod_cast default_.1, by exact_mod_cast default_.2⟩
  unfold validateLimit at passes
  split at passes
  next =>
    cases passes
    constructor
    · intro _ j q given
      cases given
    · exact fun _ => own
  next =>
    cases passes
    constructor
    · intro _ j q given number
      cases given
      cases number
    · exact fun _ => own
  next j _ =>
    split at passes
    next q number =>
      split at passes
      next => cases passes
      next positive =>
        cases passes
        have floor : 1 ≤ ⌊q⌋ ↔ 1 ≤ q := by rw [Int.le_floor, Int.cast_one]
        have whole := default_.1.trans default_.2
        constructor
        · rintro ⟨k, same, above, -⟩ _ q' ⟨⟩ number'
          cases number.symm.trans number'
          have min_ : min ⌊q⌋ (res.maxLimit : Int) = k :=
            Int.cast_injective (WithTop.coe_injective (WithBot.coe_injective same))
          rw [← floor]
          omega
        · intro all
          have above := floor.mpr (all j q rfl number)
          exact ⟨min ⌊q⌋ res.maxLimit, rfl, by omega, by omega⟩
    next => cases passes

end

theorem arrayIndex?_eq_none {name : Units} (letter : ∃ c ∈ scalars name, c.isDigit = false) :
    arrayIndex? name = none := by
  unfold arrayIndex?
  dsimp only
  rw [if_neg]
  rintro ⟨digits, -⟩
  obtain ⟨c, member, other⟩ := letter
  rw [← digits] at member
  rw [Nat.isDigit_of_mem_toDigits (by decide) (by decide) member] at other
  cases other

theorem plain_registry : ∀ entry ∈ REGISTRY, ∀ f ∈ entry.2.filters ++ entry.2.crossFilters, arrayIndex? f.1 = none := by
  have letters : ∀ entry ∈ REGISTRY, ∀ f ∈ entry.2.filters ++ entry.2.crossFilters,
      (scalars f.1).any (fun c => !c.isDigit) = true := by
    simp only [REGISTRY, List.forall_mem_cons]
    exact ⟨forall_mem_of_all (by decide), forall_mem_of_all (by decide), forall_mem_of_all (by decide),
      List.forall_mem_nil _⟩
  intro entry member f inside
  obtain ⟨c, letter, other⟩ := List.any_eq_true.mp (letters entry member f inside)
  exact arrayIndex?_eq_none ⟨c, letter, by simpa using other⟩

theorem limits_registry : ∀ entry ∈ REGISTRY, 1 ≤ entry.2.defaultLimit ∧ entry.2.defaultLimit ≤ entry.2.maxLimit := by
  simp only [REGISTRY, List.forall_mem_cons]
  exact ⟨by decide, by decide, by decide, List.forall_mem_nil _⟩

theorem Passes.resourceOf {raw : Json} {spec : QuerySpec} {res : Resource} (passes : Passes raw spec res) :
    resourceOf raw = some res := by
  unfold Ask.resourceOf
  rw [passes.resource]
  exact passes.own

/-- Validated specs are well formed and stay as they are, but for a limit below one and for texts that are cut where
they have a space. -/
theorem settled_iff {raw : Json} {spec : QuerySpec} (accepted : validateQuerySpec raw = .ok spec) :
    spec.Settled ↔ Steady raw := by
  obtain ⟨res, passes⟩ := validateQuerySpec_eq_ok.mp accepted
  obtain ⟨entry, inside, rfl⟩ := mem_of_ownEntry passes.own
  obtain ⟨key, sort, sorted⟩ := passes.sort
  obtain ⟨n, limit, limited⟩ := passes.limit
  have plain := plain_registry entry inside
  have filters : spec.filters = (validateFilterGroup (raw.get (ascii "filters")) entry.2.filters "filters").1 := by
    rw [passes.filters]
  have cross : spec.cross = (validateFilterGroup (raw.get (ascii "cross")) entry.2.crossFilters "cross").1 := by
    rw [passes.cross]
  have range := limit_range (limits_registry entry inside) limit
  have filtersAgain := validateFilterGroup_again "filters"
    (fun f member => plain f (List.mem_append_left _ member)) (raw.get (ascii "filters"))
  have crossAgain := validateFilterGroup_again "cross"
    (fun f member => plain f (List.mem_append_right _ member)) (raw.get (ascii "cross"))
  rw [← filters] at filtersAgain
  rw [← cross] at crossAgain
  have sortable : (ownEntry entry.2.sort key.field).isSome := by
    have own := own_validateSort (lawful_registry entry inside) (raw.get (ascii "sort"))
    rwa [sort] at own
  constructor
  · rintro ⟨⟨res, formed⟩, again⟩
    have same : res = entry.2 := Option.some.inj (formed.own.symm.trans passes.own)
    subst same
    obtain ⟨res, passes'⟩ := validateQuerySpec_eq_ok.mp again
    have same : res = entry.2 := Option.some.inj (passes'.own.symm.trans passes.own)
    subst same
    refine ⟨range.mp ?_, fun res named => ?_, fun res named => ?_⟩
    · obtain ⟨k, given, bounds⟩ := formed.limit
      exact ⟨k, Option.some.inj (limited.symm.trans given), bounds⟩
    · cases passes.resourceOf.symm.trans named
      exact filtersAgain.mp passes'.filters
    · cases passes.resourceOf.symm.trans named
      exact crossAgain.mp passes'.cross
  · intro steady
    obtain ⟨k, rfl, above, below⟩ := range.mpr steady.limit
    refine ⟨⟨entry.2, passes.own, ?_, ?_, ⟨key, sorted, sortable⟩, k, limited, above, below⟩,
      validateQuerySpec_eq_ok.mpr ⟨entry.2, ⟨_, rfl⟩, toJson_resource spec, passes.own, ?_, ?_, ⟨key, ?_, sorted⟩,
        _, ?_, limited⟩⟩
    · rw [filters]
      exact typed_validateFilterGroup _
    · rw [cross]
      exact typed_validateFilterGroup _
    · exact filtersAgain.mpr (steady.filters _ passes.resourceOf)
    · exact crossAgain.mpr (steady.cross _ passes.resourceOf)
    · rw [toJson_sort, sorted]
      exact validateSort_again sortable
    · rw [toJson_limit, limited]
      exact validateLimit_again above below

def limited (limit : ℚ) : Json :=
  .object [(ascii "resource", .string (ascii "tickets")), (ascii "limit", .number (limit : JsNumber))]

def limitedSpec (limit : ℚ) : QuerySpec where
  resource := ascii "tickets"
  filters := []
  cross := []
  sort := some ⟨ascii "created_at", true⟩
  limit := some (limit : JsNumber)

theorem accepted_limited {limit : ℚ} (above : 0 < limit) (below : limit < 500) :
    validateQuerySpec (limited limit) = .ok (limitedSpec ⌊limit⌋) := by
  have unfolded : validateLimit tickets (some (.number (limit : JsNumber))) =
      if limit ≤ 0 then (((100 : ℚ) : JsNumber), [SpecError.notALimit])
      else ((((min ⌊limit⌋ 500 : Int) : ℚ) : JsNumber), []) := rfl
  have short : ⌊limit⌋ ≤ 500 := Int.floor_le_iff.mpr (by push_cast; linarith)
  refine validateQuerySpec_eq_ok.mpr ⟨tickets, ⟨_, rfl⟩, rfl, rfl, rfl, rfl, ⟨_, rfl, rfl⟩, _, ?_, rfl⟩
  refine unfolded.trans ?_
  rw [if_neg (not_le.mpr above), min_eq_left short]

theorem steady_limited {limit : ℚ} (above : 1 ≤ limit) : Steady (limited limit) where
  limit j q given number := by
    cases given
    cases number
    exact above
  filters _ _ _ _ _ _ absent := by cases absent
  cross _ _ _ _ _ _ absent := by cases absent

theorem settled_iff_limited : (limitedSpec ⌊(41 / 2 : ℚ)⌋).Settled :=
  (settled_iff (accepted_limited (by norm_num) (by norm_num))).mpr (steady_limited (by norm_num))

/-- Half a row is asked for, and the limit is zero: another validation refuses it. -/
theorem unsettled_half : ∃ spec, validateQuerySpec (limited (1 / 2)) = .ok spec ∧
    spec.limit = some ((0 : ℚ) : JsNumber) ∧ validateQuerySpec spec.toJson = .error [.notALimit] ∧ ¬spec.Settled := by
  have floor : ⌊(1 / 2 : ℚ)⌋ = 0 := by norm_num
  have accepted : validateQuerySpec (limited (1 / 2)) = .ok (limitedSpec ⌊(1 / 2 : ℚ)⌋) :=
    accepted_limited (by norm_num) (by norm_num)
  rw [floor] at accepted
  refine ⟨limitedSpec 0, accepted, rfl, by rfl, ?_⟩
  rintro ⟨⟨res, formed⟩, -⟩
  obtain ⟨k, given, above, -⟩ := formed.limit
  have zero : (0 : ℚ) = (k : ℚ) := WithTop.coe_injective (WithBot.coe_injective (Option.some.inj given))
  have none_ : k = 0 := by exact_mod_cast zero.symm
  omega

end Opale.Ask
