import Opale.Ask.Registry
import Opale.Effects.Safety
import Mathlib.Data.List.Sort

namespace Opale.Ask

open Js

structure QuerySpec where
  resource : Units
  filters : List (Units × FilterValue)
  cross : List (Units × FilterValue)
  sort : Option SortKey
  limit : Option JsNumber
  deriving DecidableEq

inductive SpecError where
  | notAnObject
  | unknownResource (resource : Option Json) (expected : List Units)
  | groupNotAnObject (group : String)
  | unknownFilter (group : String) (name : Units)
  | outOfList (group : String) (name : Units) (value : Json) (list : List Units)
  | noText (group : String) (name : Units)
  | notANumber (group : String) (name : Units) (value : Json)
  | notABool (group : String) (name : Units) (value : Json)
  | unknownSort (field : Option Json) (sortable : List Units)
  | notALimit

def TEXT_MAX : Nat := 200

def coerceNumber : Json → Option ℚ
  | .number n => n.finite?
  | .string s => if trimUnits s = [] then none else (number (scalars s)).bind JsNumber.finite?
  | _ => none

def coerceBool : Json → Option Bool
  | .bool b => some b
  | .string s => if s = ascii "true" then some true else if s = ascii "false" then some false else none
  | _ => none

/-- The index that a name is, in digits without a zero before them. -/
def arrayIndex? (name : Units) : Option Nat :=
  let n := digitsValue (scalars name)
  if Nat.toDigits 10 n = scalars name ∧ n < 2 ^ 32 - 1 then some n else none

/-- `Object.entries(input)`: the indices in their order, then the other names as they came. -/
def entries (members : List (Units × Json)) : List (Units × Json) :=
  let names := (members.map (·.1)).eraseDups
  let index (name : Units) : Nat := (arrayIndex? name).getD 0
  let indices := (names.filter fun name => (arrayIndex? name).isSome).insertionSort fun a b => index a ≤ index b
  let others := names.filter fun name => (arrayIndex? name).isNone
  (indices ++ others).filterMap fun name => ((Json.object members).get name).map (name, ·)

/-- The check of a value by the type of its filter. -/
def checkValue (group : String) (name : Units) (raw : Json) : FilterType → Except SpecError FilterValue
  | .enum values =>
    match raw with
    | .string s => if s ∈ values then .ok (.string s) else .error (.outOfList group name raw values)
    | _ => .error (.outOfList group name raw values)
  | .text | .resolve _ =>
    match raw with
    | .string s => if trimUnits s = [] then .error (.noText group name) else .ok (.string ((trimUnits s).take TEXT_MAX))
    | _ => .error (.noText group name)
  | .number =>
    match coerceNumber raw with
    | some q => .ok (.number q)
    | none => .error (.notANumber group name raw)
  | .bool =>
    match coerceBool raw with
    | some b => .ok (.bool b)
    | none => .error (.notABool group name raw)

def validateEntries (defs : List (Units × Filter)) (group : String) :
    List (Units × Json) → List (Units × FilterValue) × List SpecError
  | [] => ([], [])
  | (name, raw) :: rest =>
    let (out, errors) := validateEntries defs group rest
    match ownEntry defs name, raw with
    | none, _ => (out, .unknownFilter group name :: errors)
    | some _, .null => (out, errors)
    | some filter, raw =>
      match checkValue group name raw filter.type with
      | .ok value => ((name, value) :: out, errors)
      | .error e => (out, e :: errors)

def validateFilterGroup (input : Option Json) (defs : List (Units × Filter)) (group : String) :
    List (Units × FilterValue) × List SpecError :=
  match input with
  | none | some .null => ([], [])
  | some (.object members) => validateEntries defs group (entries members)
  | some _ => ([], [.groupNotAnObject group])

def validateSort (res : Resource) (sort : Option Json) : SortKey × List SpecError :=
  match sort with
  | none | some .null => (res.defaultSort, [])
  | some sort =>
    let field : Option Json := match sort with
      | .string s => some (.string s)
      | sort => sort.get (ascii "field")
    let unknown : SortKey × List SpecError := (res.defaultSort, [.unknownSort field (res.sort.map (·.1))])
    match field with
    | some (.string field) =>
      if (ownEntry res.sort field).isNone then unknown
      else
        match sort.get (ascii "dir") with
        | some (.string dir) => (⟨field, dir = ascii "desc"⟩, [])
        | _ => (⟨field, false⟩, [])
    | _ => unknown

def validateLimit (res : Resource) (limit : Option Json) : JsNumber × List SpecError :=
  match limit with
  | none | some .null => ((res.defaultLimit : ℚ), [])
  | some limit =>
    match coerceNumber limit with
    | some n => if n ≤ 0 then ((res.defaultLimit : ℚ), [.notALimit]) else (((min ⌊n⌋ res.maxLimit : Int) : ℚ), [])
    | none => ((res.defaultLimit : ℚ), [.notALimit])

def validateQuerySpec (raw : Json) : Except (List SpecError) QuerySpec :=
  match raw with
  | .object _ =>
    let unknown := Except.error [.unknownResource (raw.get (ascii "resource")) (REGISTRY.map (·.1))]
    match raw.get (ascii "resource") with
    | some (.string resource) =>
      match ownEntry REGISTRY resource with
      | none => unknown
      | some res =>
        let (filters, errors₁) := validateFilterGroup (raw.get (ascii "filters")) res.filters "filters"
        let (cross, errors₂) := validateFilterGroup (raw.get (ascii "cross")) res.crossFilters "cross"
        let (sort, errors₃) := validateSort res (raw.get (ascii "sort"))
        let (limit, errors₄) := validateLimit res (raw.get (ascii "limit"))
        let errors := errors₁ ++ errors₂ ++ errors₃ ++ errors₄
        if errors = [] then .ok ⟨resource, filters, cross, some sort, some limit⟩ else .error errors
    | _ => unknown
  | _ => .error [.notAnObject]

/-- A candidate of the database for a name. -/
structure Row where
  value : Option Units
  label : Option Units
  email : Option Units

/-- A query for the candidates of a name; one that raises ends the request. -/
structure Lookup where
  kind : Kind
  param : FilterValue

abbrev Resolving := Program (fun _ : Lookup => List Row)

inductive ResolveError where
  | unhandled (kind : Kind)
  | notFound (kind : Kind) (raw : FilterValue)
  | ambiguous (kind : Kind) (raw : FilterValue) (labels : List Units)
  | noResource

section

variable (toLowerCase : Units → Units)

def eqCi (a : Option Units) (b : FilterValue) : Bool :=
  match a, b with
  | some a, .string b => toLowerCase a = toLowerCase b
  | _, _ => false

def Row.exact (kind : Kind) (raw : FilterValue) (r : Row) : Bool :=
  eqCi toLowerCase r.label raw || (kind = .user && eqCi toLowerCase r.email raw)

def Row.given (r : Row) : FilterValue := (r.value.map .string).getD .null

def resolveOne (kind : Kind) (raw : FilterValue) : Resolving (Except ResolveError FilterValue) := do
  if kind = .rule then return .error (.unhandled kind)
  let rows ← Program.perform ⟨kind, pattern raw⟩
  match rows with
  | [] => return .error (.notFound kind raw)
  | first :: others =>
    match rows.find? (Row.exact toLowerCase kind raw) with
    | some exact => return .ok exact.given
    | none =>
      if others = [] then return .ok first.given
      return .error (.ambiguous kind raw ((rows.filterMap (·.label)).filter (· ≠ [])))

def resolveGroup (defs : List (Units × Filter)) :
    List (Units × FilterValue) → Resolving (List (Units × FilterValue) × List ResolveError)
  | [] => return ([], [])
  | (name, value) :: rest => do
    match (ownEntry defs name).map Filter.type with
    | some (.resolve kind) =>
      let r ← resolveOne toLowerCase kind value
      let (out, errors) ← resolveGroup defs rest
      match r with
      | .ok given => return ((name, given) :: out, errors)
      | .error e => return ((name, value) :: out, e :: errors)
    | _ =>
      let (out, errors) ← resolveGroup defs rest
      return ((name, value) :: out, errors)

def resolveSpec (spec : QuerySpec) : Resolving (Except (List ResolveError) QuerySpec) := do
  match ownEntry REGISTRY spec.resource with
  | none => return .error [.noResource]
  | some res =>
    let (filters, errors₁) ← resolveGroup toLowerCase res.filters spec.filters
    let (cross, errors₂) ← resolveGroup toLowerCase res.crossFilters spec.cross
    if errors₁ ++ errors₂ = [] then return .ok { spec with filters, cross }
    return .error (errors₁ ++ errors₂)

end

end Opale.Ask
