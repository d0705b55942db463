import Opale.Ask.Fragments
import Opale.Ask.QuerySpec

namespace Opale.Ask

open Js Sql

structure Query where
  text : List Char
  params : List FilterValue

inductive CompileError where
  | unknownResource (resource : Units)
  | notAFilter (name : Units)

/-- `res.filters[name].apply(value, ctx)` of every value; a name that is no filter raises. -/
def applyFilters (defs : List (Units × Filter)) :
    List (Units × FilterValue) → Ctx (Except CompileError (List (Option Template)))
  | [] => return .ok []
  | (name, value) :: rest => do
    match ownEntry defs name with
    | none => return .error (.notAFilter name)
    | some filter =>
      let fragment ← filter.apply value
      let later ← applyFilters defs rest
      return later.map (fragment :: ·)

def conditions (res : Resource) (spec : QuerySpec) : Ctx (Except CompileError (List (Option Template))) := do
  match ← applyFilters res.filters spec.filters with
  | .error e => return .error e
  | .ok direct =>
    let cross ← applyFilters res.crossFilters spec.cross
    return cross.map (direct ++ ·)

/-- `conditions.join(' AND ')`, where undefined is the empty text. -/
def joined : List (Option Template) → Template
  | [] => []
  | [fragment] => fragment.getD []
  | fragment :: rest => fragment.getD [] ++ .text " AND ".toList :: joined rest

/-- From SELECT to the line of WHERE. -/
def opening (res : Resource) : List Char :=
  "\n    SELECT ".toList ++ Js.trim res.select.toList ++
    ",\n           COUNT(*) OVER() AS _total\n    FROM ".toList ++ res.table.toList ++ "\n    ".toList ++
    "\n  ".toList.intercalate (res.joins.map (·.toList)) ++ "\n    ".toList

def where_ (conditions : List (Option Template)) : Template :=
  if conditions = [] then [] else .text "WHERE ".toList :: joined conditions

/-- From ORDER BY to LIMIT. -/
def ordering (res : Resource) (sort : Option SortKey) : List Char :=
  let sort := sort.getD res.defaultSort
  let sortSql := ((ownEntry res.sort sort.field).getD "undefined").toList
  let dir := if sort.descending then " DESC".toList else " ASC".toList
  "\n    ORDER BY ".toList ++ sortSql ++ dir ++ "\n    LIMIT ".toList

def queryText (res : Resource) (sort : Option SortKey) (conditions : List (Option Template)) (limitPh : Piece) : Template :=
  .text (opening res) :: (where_ conditions ++ [.text (ordering res sort), limitPh])

def compile (spec : QuerySpec) (thresholds : Option Thresholds) : Except CompileError Query :=
  match ownEntry REGISTRY spec.resource with
  | none => .error (.unknownResource spec.resource)
  | some res =>
    let build : Ctx (Except CompileError Template) := do
      match ← conditions res spec with
      | .error e => return .error e
      | .ok fragments =>
        let limitPh ← param (.number (spec.limit.getD (res.defaultLimit : ℚ)))
        return .ok (queryText res spec.sort fragments limitPh)
    let (text, params) := (build.run thresholds).run []
    text.map fun t => ⟨Js.trim (Template.render t), params⟩

/-- The fragments of several filters, each after the parameters of those before it. -/
def texts : List Shape → Nat → List Template
  | [], _ => []
  | shape :: rest, n => shape.text n :: texts rest (n + shape.size)

def total (shapes : List Shape) : Nat := (shapes.map (·.size)).sum

theorem total_cons (shape : Shape) (rest : List Shape) : total (shape :: rest) = shape.size + total rest := by
  simp [total]

theorem total_append (first second : List Shape) : total (first ++ second) = total first + total second := by
  simp [total]

theorem texts_append (first second : List Shape) (n : Nat) :
    texts (first ++ second) n = texts first n ++ texts second (n + total first) := by
  induction first generalizing n with
  | nil => simp [texts, total]
  | cons shape rest ih => simp [texts, total_cons, ih, Nat.add_assoc]

theorem sound_texts (shapes : List Shape) (n : Nat) : ∀ t ∈ texts shapes n, Sound t := by
  induction shapes generalizing n with
  | nil => simp [texts]
  | cons shape rest ih =>
    simp only [texts, List.forall_mem_cons]
    exact ⟨shape.sound n, ih (n + shape.size)⟩

theorem numbered_texts (shapes : List Shape) (n m : Nat) :
    (∃ t ∈ texts shapes n, m ∈ Template.parameters t) ↔ n < m ∧ m ≤ n + total shapes := by
  induction shapes generalizing n with
  | nil =>
    simp [texts, total]
  | cons shape rest ih =>
    simp only [texts, List.exists_mem_cons_iff, ih, shape.numbered, total_cons]
    omega

/-- The names of the filters, with the values that the text may show. -/
def outline (defs : List (Units × Filter)) (values : List (Units × FilterValue)) : List (Units × Option FilterValue) :=
  values.map fun entry => (entry.1, (ownEntry defs entry.1).bind fun filter => filter.type.visible entry.2)

/-- Every value is one that its filter accepts. -/
def Fits (defs : List (Units × Filter)) (values : List (Units × FilterValue)) : Prop :=
  ∀ entry ∈ values, ∃ filter, ownEntry defs entry.1 = some filter ∧ filter.type.Accepts entry.2

theorem mem_of_ownEntry {α : Type} {obj : List (Units × α)} {key : Units} {a : α} (own : ownEntry obj key = some a) :
    ∃ entry ∈ obj, entry.2 = a := by
  obtain ⟨entry, found, value⟩ := Option.map_eq_some_iff.mp own
  exact ⟨entry, List.mem_of_find?_eq_some found, value⟩

/-- What a list of filters gives goes by the outline of their values. -/
theorem applied {defs : List (Units × Filter)} (lawful : ∀ f ∈ defs, f.2.Lawful) (thresholds : Option Thresholds)
    (seen : List (Units × Option FilterValue)) :
    ∃ shapes : List Shape, ∀ values, Fits defs values → outline defs values = seen → ∀ params,
      ∃ pushed : List FilterValue, pushed.length = total shapes ∧
        ((applyFilters defs values).run thresholds).run params =
          pure (.ok ((texts shapes params.length).map some), params ++ pushed) := by
  induction seen with
  | nil =>
    refine ⟨[], fun values _ same params => ⟨[], rfl, ?_⟩⟩
    rw [List.map_eq_nil_iff.mp same, List.append_nil]
    rfl
  | cons first seen ih =>
    obtain ⟨name, v⟩ := first
    obtain ⟨shapes, gives⟩ := ih
    rcases own : ownEntry defs name with - | filter
    · refine ⟨[], fun values fits same => ?_⟩
      obtain - | ⟨⟨name', value⟩, rest⟩ := values
      · exact absurd same (List.cons_ne_nil _ _).symm
      · simp only [outline, List.map_cons, List.cons.injEq, Prod.mk.injEq] at same
        obtain ⟨_, known, _⟩ := fits _ List.mem_cons_self
        rw [same.1.1, own] at known
        exact absurd known (Option.some_ne_none _).symm
    · obtain ⟨entry, member, rfl⟩ := mem_of_ownEntry own
      obtain ⟨shape, each⟩ := lawful entry member thresholds
      refine ⟨shape v :: shapes, fun values fits same params => ?_⟩
      obtain - | ⟨⟨name', value⟩, rest⟩ := values
      · exact absurd same (List.cons_ne_nil _ _).symm
      · simp only [outline, List.map_cons, List.cons.injEq, Prod.mk.injEq] at same
        obtain ⟨⟨rfl, visible⟩, later⟩ := same
        obtain ⟨_, known, accepts⟩ := fits _ List.mem_cons_self
        rw [own] at known visible
        cases known
        rw [Option.bind_some] at visible
        obtain ⟨pushed, size, run⟩ := each value accepts params
        obtain ⟨pushed₁, size₁, run₁⟩ := gives rest (fun entry inside => fits entry (List.mem_cons_of_mem _ inside)) later
          (params ++ pushed)
        rw [visible] at size run
        refine ⟨pushed ++ pushed₁, by rw [List.length_append, size, size₁, total_cons], ?_⟩
        simp [applyFilters, own, run, run₁, texts, size, Except.map]

/-- What `conditions` gives goes by the outlines of the two groups. -/
theorem conditions_given {res : Resource} (lawful : res.Lawful) (thresholds : Option Thresholds)
    (filters cross : List (Units × Option FilterValue)) :
    ∃ shapes : List Shape, ∀ spec : QuerySpec, Fits res.filters spec.filters → Fits res.crossFilters spec.cross →
      outline res.filters spec.filters = filters → outline res.crossFilters spec.cross = cross →
      ∃ pushed : List FilterValue, pushed.length = total shapes ∧
        ((conditions res spec).run thresholds).run [] = pure (.ok ((texts shapes 0).map some), pushed) := by
  obtain ⟨shapes, direct⟩ := applied lawful.filters thresholds filters
  obtain ⟨shapes₁, crossed⟩ := applied lawful.crossFilters thresholds cross
  refine ⟨shapes ++ shapes₁, fun spec fits fits₁ same same₁ => ?_⟩
  obtain ⟨pushed, size, run⟩ := direct spec.filters fits same []
  obtain ⟨pushed₁, size₁, run₁⟩ := crossed spec.cross fits₁ same₁ pushed
  refine ⟨pushed ++ pushed₁, by rw [List.length_append, size, size₁, total_append], ?_⟩
  rw [List.nil_append] at run
  simp [conditions, run, run₁, texts_append, size, Except.map]

theorem sound_joined {ts : List Template} (sound : ∀ t ∈ ts, Sound t) : Sound (joined (ts.map some)) := by
  induction ts with
  | nil => trivial
  | cons t rest ih =>
    have here := sound t List.mem_cons_self
    have later := ih fun u member => sound u (List.mem_cons_of_mem _ member)
    cases rest with
    | nil => exact here
    | cons u rest => exact here.append ⟨plain_ofList (by decide), later⟩ rfl

theorem parameters_append (t u : Template) :
    Template.parameters (t ++ u) = Template.parameters t ++ Template.parameters u := List.filterMap_append

theorem parameters_joined (ts : List Template) (m : Nat) :
    m ∈ Template.parameters (joined (ts.map some)) ↔ ∃ t ∈ ts, m ∈ Template.parameters t := by
  induction ts with
  | nil => simp [joined, Template.parameters]
  | cons t rest ih =>
    cases rest with
    | nil => simp [joined]
    | cons u rest =>
      have between : Template.parameters (.text " AND ".toList :: joined ((u :: rest).map some)) =
        Template.parameters (joined ((u :: rest).map some)) := rfl
      have whole : joined ((t :: u :: rest).map some) = t ++ .text " AND ".toList :: joined ((u :: rest).map some) := rfl
      rw [whole, parameters_append, List.mem_append, between, ih, List.exists_mem_cons_iff (a := t)]

theorem plain_trim {s : List Char} (plain : '$' ∉ s) : '$' ∉ Js.trim s := fun member =>
  plain ((List.dropWhile_sublist _).mem ((List.rdropWhile_prefix _ _).mem member))

theorem plain_intercalate {sep : List Char} {ts : List (List Char)} (plain : '$' ∉ sep) (each : ∀ t ∈ ts, '$' ∉ t) :
    '$' ∉ sep.intercalate ts := by
  induction ts with
  | nil => simp
  | cons t rest ih =>
    have here := each t List.mem_cons_self
    cases rest with
    | nil => rwa [List.intercalate_singleton]
    | cons u rest =>
      rw [List.intercalate_cons_cons]
      exact plain_append (plain_append here plain) (ih fun v member => each v (List.mem_cons_of_mem _ member))

theorem placeholders_trim (s : List Char) : placeholders .outside (Js.trim s) = placeholders .outside s := by
  have bare : ∀ c ∈ Js.jsSpaces, c ≠ '$' ∧ c.isDigit = false := forall_mem_of_all (by decide)
  let inner := s.dropWhile Js.isSpaceChar
  have before : placeholders .outside inner = placeholders .outside s := by
    have plain : '$' ∉ s.takeWhile Js.isSpaceChar := fun member =>
      absurd (List.mem_takeWhile_imp member) (by decide)
    have whole := placeholders_text plain inner
    rwa [List.takeWhile_append_dropWhile, eq_comm] at whole
  have after : placeholders .outside (Js.trim s) = placeholders .outside inner := by
    have blank : ∀ c ∈ inner.rtakeWhile Js.isSpaceChar, c ≠ '$' ∧ c.isDigit = false := fun c member =>
      bare c (List.contains_iff_mem.mp (List.mem_rtakeWhile_imp member))
    have whole := placeholders_append_blank blank .outside (Js.trim s)
    rwa [Js.trim, List.rdropWhile_append_rtakeWhile, eq_comm] at whole
  rw [after, before]

section

variable {res : Resource} (lawful : res.Lawful) (sort : Option SortKey) {ts : List Template} {n : Nat}

include lawful

theorem plain_sort (key : SortKey) : '$' ∉ ((ownEntry res.sort key.field).getD "undefined").toList := by
  rcases own : ownEntry res.sort key.field with - | sql
  · exact plain_ofList (by decide)
  · obtain ⟨entry, member, rfl⟩ := mem_of_ownEntry own
    exact lawful.sort entry member

theorem plain_opening : '$' ∉ opening res := by
  have joins : ∀ t ∈ res.joins.map (·.toList), '$' ∉ t := by
    simpa using lawful.joins
  have lists := plain_intercalate (plain_ofList (s := "\n  ".toList) (by decide)) joins
  unfold opening
  simp only [List.mem_append, not_or]
  exact ⟨⟨⟨⟨⟨⟨plain_ofList (by decide), plain_trim lawful.select⟩, plain_ofList (by decide)⟩, lawful.table⟩,
    plain_ofList (by decide)⟩, lists⟩, plain_ofList (by decide)⟩

theorem plain_ordering : '$' ∉ ordering res sort := by
  have dir : '$' ∉ (if (sort.getD res.defaultSort).descending then " DESC".toList else " ASC".toList) := by
    split <;> exact plain_ofList (by decide)
  unfold ordering
  simp only [List.mem_append, not_or]
  exact ⟨⟨⟨plain_ofList (by decide), plain_sort lawful _⟩, dir⟩, plain_ofList (by decide)⟩

theorem sound_queryText (sound : ∀ t ∈ ts, Sound t) : Sound (queryText res sort (ts.map some) (.placeholder n)) := by
  have apart : Apart [.text (ordering res sort), .placeholder n] := by
    have starts : ordering res sort = '\n' :: (ordering res sort).tail := rfl
    rw [starts]
    exact rfl
  have ending : Sound [.text (ordering res sort), .placeholder n] := ⟨plain_ordering lawful sort, trivial, trivial⟩
  have condition : Sound (where_ (ts.map some)) := by
    unfold where_
    split
    · trivial
    · exact ⟨plain_ofList (by decide), sound_joined sound⟩
  exact ⟨plain_opening lawful, condition.append ending apart⟩

omit lawful in
theorem parameters_queryText (m : Nat) :
    m ∈ Template.parameters (queryText res sort (ts.map some) (.placeholder n)) ↔
      (∃ t ∈ ts, m ∈ Template.parameters t) ∨ m = n := by
  have whole : Template.parameters (queryText res sort (ts.map some) (.placeholder n)) =
      Template.parameters (where_ (ts.map some)) ++ [n] := parameters_append _ _
  have condition : Template.parameters (where_ (ts.map some)) = Template.parameters (joined (ts.map some)) := by
    unfold where_
    split
    next empty => rw [empty]; rfl
    next => rfl
  rw [whole, condition, List.mem_append, parameters_joined, List.mem_singleton]

end

/-- What `compile` gives for the specs of one outline: one text, and as many parameters as it has placeholders. -/
theorem compiled {resource : Units} {res : Resource} (own : ownEntry REGISTRY resource = some res)
    (thresholds : Option Thresholds) (sort : Option SortKey) (filters cross : List (Units × Option FilterValue)) :
    ∃ text : List Char, ∃ size : Nat, (∀ n, n ∈ placeholders .outside text ↔ 1 ≤ n ∧ n ≤ size) ∧
      ∀ spec : QuerySpec, spec.resource = resource → spec.sort = sort → Fits res.filters spec.filters →
        Fits res.crossFilters spec.cross → outline res.filters spec.filters = filters →
        outline res.crossFilters spec.cross = cross →
        ∃ fragments pushed params, ((conditions res spec).run thresholds).run [] = pure (.ok fragments, pushed) ∧
          none ∉ fragments ∧ params.length = size ∧ compile spec thresholds = .ok ⟨text, params⟩ := by
  obtain ⟨entry, member, rfl⟩ := mem_of_ownEntry own
  have lawful := lawful_registry entry member
  obtain ⟨shapes, gives⟩ := conditions_given lawful thresholds filters cross
  have sound := sound_queryText lawful sort (n := total shapes + 1) (sound_texts shapes 0)
  refine ⟨Js.trim (Template.render (queryText entry.2 sort ((texts shapes 0).map some) (.placeholder (total shapes + 1)))),
    total shapes + 1, fun n => ?_, fun spec same sorted fits fits₁ same₁ same₂ => ?_⟩
  · rw [placeholders_trim, placeholders_render sound, parameters_queryText, numbered_texts]
    omega
  · obtain ⟨pushed, size, run⟩ := gives spec fits fits₁ same₁ same₂
    refine ⟨_, pushed, pushed ++ [.number (spec.limit.getD (entry.2.defaultLimit : ℚ))], run, by simp, by simp [size], ?_⟩
    subst sorted
    unfold compile
    rw [same, own]
    simp only [ReaderT.run_bind, StateT.run_bind, run, pure_bind, run_param, size]
    rfl

end Opale.Ask
