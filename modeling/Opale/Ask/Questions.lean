import Opale.Ask.Compile

namespace Opale.Ask

open Js Sql

/-- A spec whose values its filters accept, with a sort of its resource. -/
structure QuerySpec.Valid (spec : QuerySpec) (res : Resource) : Prop where
  own : ownEntry REGISTRY spec.resource = some res
  filters : Fits res.filters spec.filters
  cross : Fits res.crossFilters spec.cross
  sort : ∃ key, spec.sort = some key ∧ (ownEntry res.sort key.field).isSome

theorem accepts_checkValue {group : String} {name : Units} {raw : Json} {type : FilterType} {value : FilterValue}
    (checked : checkValue group name raw type = .ok value) : type.Accepts value := by
  cases type with
  | enum values =>
    cases raw with
    | string s =>
      simp only [checkValue] at checked
      split at checked
      next member => exact ⟨s, member, (Except.ok.inj checked).symm⟩
      next => cases checked
    | _ => cases checked
  | text =>
    cases raw with
    | string s =>
      simp only [checkValue] at checked
      split at checked
      · cases checked
      · exact ⟨_, (Except.ok.inj checked).symm⟩
    | _ => cases checked
  | number =>
    simp only [checkValue] at checked
    split at checked
    · exact ⟨_, (Except.ok.inj checked).symm⟩
    · cases checked
  | bool =>
    simp only [checkValue] at checked
    split at checked
    · exact ⟨_, (Except.ok.inj checked).symm⟩
    · cases checked
  | resolve kind => trivial

theorem fits_validateEntries (defs : List (Units × Filter)) (group : String) (entries : List (Units × Json)) :
    Fits defs (validateEntries defs group entries).1 := by
  induction entries with
  | nil => exact fun _ member => absurd member List.not_mem_nil
  | cons entry rest ih =>
    obtain ⟨name, raw⟩ := entry
    simp only [validateEntries]
    split
    · exact ih
    · exact ih
    next filter own present =>
      split
      next value checked =>
        intro entry member
        rcases List.mem_cons.mp member with rfl | later
        · exact ⟨filter, own, accepts_checkValue checked⟩
        · exact ih entry later
      next => exact ih

theorem fits_validateFilterGroup (input : Option Json) (defs : List (Units × Filter)) (group : String) :
    Fits defs (validateFilterGroup input defs group).1 := by
  have empty : Fits defs [] := fun _ member => absurd member List.not_mem_nil
  unfold validateFilterGroup
  split
  · exact empty
  · exact empty
  · exact fits_validateEntries defs group _
  · exact empty

theorem own_validateSort {res : Resource} (lawful : res.Lawful) (sort : Option Json) :
    (ownEntry res.sort (validateSort res sort).1.field).isSome := by
  unfold validateSort
  split
  · exact lawful.defaultSort
  · exact lawful.defaultSort
  · dsimp only
    split
    next field _ =>
      split
      next => exact lawful.defaultSort
      next known =>
        rw [Option.isNone_iff_eq_none, ← Option.not_isSome_iff_eq_none, not_not] at known
        split <;> exact known
    next => exact lawful.defaultSort

theorem valid_validateQuerySpec {raw : Json} {spec : QuerySpec} (accepted : validateQuerySpec raw = .ok spec) :
    ∃ res, spec.Valid res := by
  unfold validateQuerySpec at accepted
  split at accepted
  next members =>
    dsimp only at accepted
    split at accepted
    next resource _ =>
      split at accepted
      next => cases accepted
      next res own =>
        split at accepted
        next none_ =>
          obtain ⟨entry, member, rfl⟩ := mem_of_ownEntry own
          rw [← Except.ok.inj accepted]
          exact ⟨entry.2, own, fits_validateFilterGroup _ _ _, fits_validateFilterGroup _ _ _, _, rfl,
            own_validateSort (lawful_registry entry member) _⟩
        next => cases accepted
    next => cases accepted
  next => cases accepted

section

variable {toLowerCase : Units → Units} {World : Type}
variable {exec : (o : Lookup) → World → List Row → World → Prop} {w w₁ : World}

theorem outline_cons (defs : List (Units × Filter)) (name : Units) (value : FilterValue) (rest : List (Units × FilterValue)) :
    outline defs ((name, value) :: rest) =
      (name, (ownEntry defs name).bind fun filter => filter.type.visible value) :: outline defs rest := rfl

theorem fits_cons {defs : List (Units × Filter)} {entry : Units × FilterValue} {rest : List (Units × FilterValue)} :
    Fits defs (entry :: rest) ↔
      (∃ filter, ownEntry defs entry.1 = some filter ∧ filter.type.Accepts entry.2) ∧ Fits defs rest :=
  List.forall_mem_cons

/-- Names stay in their place, and what changes is not visible. -/
theorem resolved_group {defs : List (Units × Filter)} {values out : List (Units × FilterValue)} {errors : List ResolveError}
    (ends : Rules.Ends exec (resolveGroup toLowerCase defs values) w (out, errors) w₁) (fits : Fits defs values) :
    Fits defs out ∧ outline defs out = outline defs values := by
  induction values generalizing w w₁ out errors with
  | nil =>
    cases ends
    exact ⟨fits, rfl⟩
  | cons entry rest ih =>
    obtain ⟨name, value⟩ := entry
    obtain ⟨⟨filter, own, accepts⟩, later⟩ := fits_cons.mp fits
    simp only [resolveGroup, own, Option.map_some, Program.bind_eq, Program.pure_eq] at ends
    split at ends
    next kind resolves =>
      obtain ⟨answer, w₂, -, ends⟩ := ends.of_bind
      obtain ⟨⟨out₁, errors₁⟩, w₃, group, ends⟩ := ends.of_bind
      obtain ⟨fits₁, same⟩ := ih group later
      have type : filter.type = .resolve kind := Option.some.inj resolves
      have hidden (v : FilterValue) : filter.type.visible v = none := by rw [type]; rfl
      have takes (v : FilterValue) : filter.type.Accepts v := by rw [type]; trivial
      cases answer with
      | ok given =>
        cases ends
        rw [fits_cons, outline_cons, outline_cons, own, Option.bind_some, Option.bind_some, hidden, hidden, same]
        exact ⟨⟨⟨filter, rfl, takes given⟩, fits₁⟩, rfl⟩
      | error e =>
        cases ends
        rw [fits_cons, outline_cons, outline_cons, same]
        exact ⟨⟨⟨filter, own, accepts⟩, fits₁⟩, rfl⟩
    next =>
      obtain ⟨⟨out₁, errors₁⟩, w₃, group, ends⟩ := ends.of_bind
      obtain ⟨fits₁, same⟩ := ih group later
      cases ends
      rw [fits_cons, outline_cons, outline_cons, same]
      exact ⟨⟨⟨filter, own, accepts⟩, fits₁⟩, rfl⟩

/-- What `resolveSpec` gives is a valid spec of the same outline. -/
theorem resolved {spec out : QuerySpec} {res : Resource}
    (ends : Rules.Ends exec (resolveSpec toLowerCase spec) w (.ok out) w₁) (valid : spec.Valid res) :
    out.Valid res ∧ out.resource = spec.resource ∧ out.sort = spec.sort ∧
      outline res.filters out.filters = outline res.filters spec.filters ∧
      outline res.crossFilters out.cross = outline res.crossFilters spec.cross := by
  simp only [resolveSpec, valid.own, Program.bind_eq] at ends
  obtain ⟨⟨filters, errors⟩, w₂, direct, ends⟩ := ends.of_bind
  obtain ⟨⟨cross, errors₁⟩, w₃, crossed, ends⟩ := ends.of_bind
  obtain ⟨fits, same⟩ := resolved_group direct valid.filters
  obtain ⟨fits₁, same₁⟩ := resolved_group crossed valid.cross
  dsimp only at ends
  split at ends
  · cases ends
    exact ⟨⟨valid.own, fits, fits₁, valid.sort⟩, rfl, rfl, same, same₁⟩
  · cases ends

end

/-- A question that passes the checks, with its names resolved by a database of any content. -/
structure Asked (toLowerCase : Units → Units) (raw : Json) (spec out : QuerySpec) : Prop where
  accepted : validateQuerySpec raw = .ok spec
  resolved : ∃ (World : Type) (exec : (o : Lookup) → World → List Row → World → Prop) (w w₁ : World),
    Rules.Ends exec (resolveSpec toLowerCase spec) w (.ok out) w₁

/-- Two specs that differ in their texts, their numbers, their names and their limit alone. -/
structure Alike (spec spec' : QuerySpec) : Prop where
  resource : spec.resource = spec'.resource
  sort : spec.sort = spec'.sort
  filters : ∀ res, ownEntry REGISTRY spec.resource = some res →
    outline res.filters spec.filters = outline res.filters spec'.filters
  cross : ∀ res, ownEntry REGISTRY spec.resource = some res →
    outline res.crossFilters spec.cross = outline res.crossFilters spec'.cross

/-- `compile` ends, no fragment is undefined, the sort is known, and the placeholders of the text are those of the
parameters. -/
def Compiles (spec : QuerySpec) (thresholds : Option Thresholds) : Prop :=
  ∃ res fragments pushed query, ownEntry REGISTRY spec.resource = some res ∧
    ((conditions res spec).run thresholds).run [] = pure (.ok fragments, pushed) ∧ none ∉ fragments ∧
    (∃ key, spec.sort = some key ∧ (ownEntry res.sort key.field).isSome) ∧ compile spec thresholds = .ok query ∧
    ∀ n, n ∈ placeholders .outside query.text ↔ 1 ≤ n ∧ n ≤ query.params.length

theorem compiles_of_valid {spec : QuerySpec} {res : Resource} (valid : spec.Valid res) (thresholds : Option Thresholds) :
    Compiles spec thresholds := by
  obtain ⟨text, size, numbered, gives⟩ := compiled valid.own thresholds spec.sort (outline res.filters spec.filters)
    (outline res.crossFilters spec.cross)
  obtain ⟨fragments, pushed, params, run, defined, count, compiles⟩ := gives spec rfl rfl valid.filters valid.cross rfl rfl
  refine ⟨res, fragments, pushed, ⟨text, params⟩, valid.own, run, defined, valid.sort, compiles, fun n => ?_⟩
  rw [numbered, count]

/-- The question chooses values: what it may not show changes nothing of the text. -/
theorem questions_choose_values (toLowerCase : Units → Units) (thresholds : Option Thresholds) :
    (∀ raw spec, validateQuerySpec raw = .ok spec → Compiles spec thresholds) ∧
    (∀ raw spec out, Asked toLowerCase raw spec out → Compiles out thresholds) ∧
    ∀ raw raw' spec spec' out out', Asked toLowerCase raw spec out → Asked toLowerCase raw' spec' out' →
      Alike spec spec' →
      ∃ query query', compile out thresholds = .ok query ∧ compile out' thresholds = .ok query' ∧
        query.text = query'.text := by
  refine ⟨fun raw spec accepted => ?_, fun raw spec out asked => ?_,
    fun raw raw' spec spec' out out' asked asked' alike => ?_⟩
  · obtain ⟨res, valid⟩ := valid_validateQuerySpec accepted
    exact compiles_of_valid valid thresholds
  · obtain ⟨res, valid⟩ := valid_validateQuerySpec asked.accepted
    obtain ⟨World, exec, w, w₁, ends⟩ := asked.resolved
    exact compiles_of_valid (resolved ends valid).1 thresholds
  · obtain ⟨res, valid⟩ := valid_validateQuerySpec asked.accepted
    obtain ⟨res', valid'⟩ := valid_validateQuerySpec asked'.accepted
    have same : res' = res := by
      have own := valid'.own
      rw [← alike.resource, valid.own] at own
      exact (Option.some.inj own).symm
    subst same
    obtain ⟨World, exec, w, w₁, ends⟩ := asked.resolved
    obtain ⟨World', exec', w', w₁', ends'⟩ := asked'.resolved
    obtain ⟨valid₁, resource, sort, filters, cross⟩ := resolved ends valid
    obtain ⟨valid₁', resource', sort', filters', cross'⟩ := resolved ends' valid'
    have filters₁ := filters'.trans (alike.filters _ valid.own).symm
    have cross₁ := cross'.trans (alike.cross _ valid.own).symm
    obtain ⟨text, size, -, gives⟩ := compiled valid.own thresholds spec.sort _ _
    obtain ⟨_, _, params, -, -, -, compiles⟩ := gives out resource sort valid₁.filters valid₁.cross filters cross
    obtain ⟨_, _, params', -, -, -, compiles'⟩ := gives out' (resource'.trans alike.resource.symm)
      (sort'.trans alike.sort.symm) valid₁'.filters valid₁'.cross filters₁ cross₁
    exact ⟨_, _, compiles, compiles', rfl⟩

section

def asciiLower (s : Units) : Units := s.map fun u => if 65 ≤ u ∧ u ≤ 90 then u + 32 else u

/-- Postes hors ligne d'un groupe. -/
def question (search group : String) (limit : ℚ) : Json :=
  .object [(ascii "resource", .string (ascii "devices")),
    (ascii "filters", .object [(ascii "status", .string (ascii "offline")), (ascii "search", .string (ascii search))]),
    (ascii "cross", .object [(ascii "in_group", .string (ascii group))]), (ascii "limit", .number (limit : JsNumber))]

def questionSpec (search group : String) (limit : ℚ) : QuerySpec where
  resource := ascii "devices"
  filters := [(ascii "status", .string (ascii "offline")), (ascii "search", .string (ascii search))]
  cross := [(ascii "in_group", .string (ascii group))]
  sort := some ⟨ascii "hostname", false⟩
  limit := some (limit : JsNumber)

def groupRow (id name : String) : Row := ⟨some (ascii id), some (ascii name), none⟩

theorem asked_paris : Asked asciiLower (question "paris" "compta" 20) (questionSpec "paris" "compta" 20)
    (questionSpec "paris" "g-1" 20) where
  accepted := by rfl
  resolved := ⟨Unit, fun _ _ rows _ => rows = [groupRow "g-1" "Compta"], (), (), .op rfl .ret⟩

theorem asked_injected : Asked asciiLower (question "' OR 1=1" "siege" 50) (questionSpec "' OR 1=1" "siege" 50)
    (questionSpec "' OR 1=1" "g-2" 50) where
  accepted := by rfl
  resolved := ⟨Unit, fun _ _ rows _ => rows = [groupRow "g-2" "Siege social"], (), (), .op rfl .ret⟩

theorem alike_questions : Alike (questionSpec "paris" "compta" 20) (questionSpec "' OR 1=1" "siege" 50) where
  resource := rfl
  sort := rfl
  filters _ own := by
    cases own
    rfl
  cross _ own := by
    cases own
    rfl

theorem questions_choose_values_paris :
    Compiles (questionSpec "paris" "compta" 20) none ∧ Compiles (questionSpec "' OR 1=1" "g-2" 50) none ∧
    ∃ query query', compile (questionSpec "paris" "g-1" 20) none = .ok query ∧
      compile (questionSpec "' OR 1=1" "g-2" 50) none = .ok query' ∧ query.text = query'.text :=
  ⟨(questions_choose_values asciiLower none).1 _ _ asked_paris.accepted,
    (questions_choose_values asciiLower none).2.1 _ _ _ asked_injected,
    (questions_choose_values asciiLower none).2.2 _ _ _ _ _ _ asked_paris asked_injected alike_questions⟩

end

end Opale.Ask
