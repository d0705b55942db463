import Opale.Js.Values
import Opale.Relations.Exhausted
import Mathlib.Data.Nat.Find

namespace Opale.Linux.Spec

open Js

inductive Scalar where
  | null
  | bool (value : Bool)
  | number (value : JsNumber)
  | string (value : String)

/-- A part of the contract, as it has been parsed; no two members of an object have one name. -/
inductive Node where
  | scalar (value : Scalar)
  | array (items : List Node)
  | object (members : List (String × Node))

def lookup (members : List (String × Node)) (name : String) : Option Node := (members.find? (·.1 = name)).map (·.2)

def truthy : Node → Bool
  | .scalar .null | .scalar (.bool false) => false
  | .scalar (.bool true) | .array _ | .object _ => true
  | .scalar (.number n) => n ≠ (0 : ℚ)
  | .scalar (.string s) => s ≠ ""

mutual

/-- Objects are merged all the way down; of anything else the sibling counts. -/
def merge : Node → Node → Node
  | .object target, .object siblings =>
    .object (mergeMembers target siblings ++ siblings.filter fun m => (lookup target m.1).isNone)
  | .scalar _, siblings | .array _, siblings => siblings
  | .object _, .scalar v => .scalar v
  | .object _, .array items => .array items

/-- The members of the target, each with its sibling. -/
def mergeMembers : List (String × Node) → List (String × Node) → List (String × Node)
  | [], _ => []
  | (name, value) :: rest, siblings =>
    (name, match lookup siblings name with
      | some sibling => merge value sibling
      | none => value) :: mergeMembers rest siblings

end

inductive SpecError where
  | unsupported (ref : Node)
  | cyclic (name : String)
  | unknown (name : String)
  | deep

def schemaRef (name : String) : String := "#/components/schemas/" ++ name

/-- The texts of the errors; a reference that is no text shows as JavaScript prints it. -/
def SpecError.message : SpecError → Option String
  | .unsupported (.scalar (.string ref)) => some ("Référence non prise en charge : " ++ ref)
  | .cyclic name => some ("Référence cyclique : " ++ schemaRef name)
  | .unknown name => some ("Référence inconnue : " ++ schemaRef name)
  | .unsupported _ | .deep => none

def isWord (c : Char) : Bool := c.isAlphanum || c = '_'

/-- `^#/components/schemas/([A-Za-z0-9_]+)$` -/
def refName : Node → Option String
  | .scalar (.string ref) =>
    match (schemaRef "").toList.isPrefixOf? ref.toList with
    | some name => if name ≠ [] ∧ name.all isWord = true then some (String.ofList name) else none
    | none => none
  | _ => none

/-- `components.schemas`, of the names that it has itself. -/
abbrev Schemas := List (String × Node)

/-- The schema of a name, unless it counts as missing. -/
def target (schemas : Schemas) (name : String) : Option Node := (lookup schemas name).filter truthy

/-- `deref`, with `resolve` for the section of the schemas, as deep as the fuel goes. The references that are being
resolved are told apart by their names. -/
def deref (schemas : Schemas) : Nat → Node → List String → Except SpecError Node
  | 0, _, _ => .error .deep
  | _ + 1, .scalar v, _ => .ok (.scalar v)
  | fuel + 1, .array items, seen => (items.mapM fun item => deref schemas fuel item seen).map .array
  | fuel + 1, .object members, seen =>
    let each (members : List (String × Node)) : Except SpecError Node :=
      (members.mapM fun m => (deref schemas fuel m.2 seen).map (m.1, ·)).map .object
    match lookup members "$ref" with
    | none => each members
    | some ref =>
      match refName ref with
      | none => .error (.unsupported ref)
      | some name =>
        if name ∈ seen then .error (.cyclic name)
        else
          match target schemas name with
          | none => .error (.unknown name)
          | some node => do
            let resolved ← deref schemas fuel node (name :: seen)
            let siblings ← each (members.filter (·.1 ≠ "$ref"))
            .ok (merge resolved siblings)

/-- What a part of the contract means: every reference stands for its schema. Nothing but `n` ends a circle of references. -/
def expand (schemas : Schemas) : Nat → Node → Except SpecError Node
  | 0, _ => .error .deep
  | _ + 1, .scalar v => .ok (.scalar v)
  | n + 1, .array items => (items.mapM (expand schemas n)).map .array
  | n + 1, .object members =>
    let each (members : List (String × Node)) : Except SpecError Node :=
      (members.mapM fun m => (expand schemas n m.2).map (m.1, ·)).map .object
    match lookup members "$ref" with
    | none => each members
    | some ref =>
      match refName ref with
      | none => .error (.unsupported ref)
      | some name =>
        match target schemas name with
        | none => .error (.unknown name)
        | some node => do
          let resolved ← expand schemas n node
          let siblings ← each (members.filter (·.1 ≠ "$ref"))
          .ok (merge resolved siblings)

section

variable {α β ε : Type} {l : List α} {r : List β}

theorem mapM_ok_iff {f : α → Except ε β} : l.mapM f = .ok r ↔ List.Forall₂ (fun a b => f a = .ok b) l r := by
  induction l generalizing r with
  | nil =>
    rw [List.mapM_nil, List.forall₂_nil_left_iff]
    exact ⟨fun same => by cases same; rfl, fun same => by rw [same]; rfl⟩
  | cons a l ih =>
    rw [List.mapM_cons, List.forall₂_cons_left_iff]
    constructor
    · intro all
      cases first : f a with
      | error e => rw [first] at all; cases all
      | ok b =>
        rw [first] at all
        cases rest : l.mapM f with
        | error e => rw [rest] at all; cases all
        | ok bs =>
          rw [rest] at all
          cases all
          exact ⟨b, bs, rfl, ih.mp rest, rfl⟩
    · rintro ⟨b, bs, first, rest, rfl⟩
      rw [first, ih.mpr rest]
      rfl

theorem exists_of_mem {R : α → β → Prop} (all : List.Forall₂ R l r) {b : β} (member : b ∈ r) : ∃ a ∈ l, R a b := by
  induction all with
  | nil => cases member
  | cons one _ ih =>
    rcases List.mem_cons.mp member with rfl | later
    · exact ⟨_, List.mem_cons_self, one⟩
    · obtain ⟨a, inside, related⟩ := ih later
      exact ⟨a, List.mem_cons_of_mem _ inside, related⟩

theorem both_ok_iff {γ : Type} {x : Except ε α} {y : Except ε β} {g : α → β → γ} {c : γ} :
    (do let a ← x; let b ← y; Except.ok (g a b)) = .ok c ↔ ∃ a b, x = .ok a ∧ y = .ok b ∧ c = g a b := by
  constructor
  · intro ends
    cases x with
    | error e => cases ends
    | ok a =>
      cases y with
      | error e => cases ends
      | ok b =>
        cases ends
        exact ⟨a, b, rfl, rfl, rfl⟩
  · rintro ⟨a, b, rfl, rfl, rfl⟩
    rfl

/-- The first error of a list is one of its elements. -/
theorem mapM_error {f : α → Except ε β} {e : ε} (fails : l.mapM f = .error e) : ∃ a ∈ l, f a = .error e := by
  induction l with
  | nil => cases fails
  | cons a l ih =>
    rw [List.mapM_cons] at fails
    cases first : f a with
    | error e' =>
      rw [first] at fails
      cases fails
      exact ⟨a, List.mem_cons_self, first⟩
    | ok b =>
      rw [first] at fails
      cases rest : l.mapM f with
      | ok bs => rw [rest] at fails; cases fails
      | error e' =>
        rw [rest] at fails
        cases fails
        obtain ⟨c, member, same⟩ := ih rest
        exact ⟨c, List.mem_cons_of_mem a member, same⟩

end

/-- An error of two steps is that of one of them. -/
theorem both_error {α β γ ε : Type} {x : Except ε α} {y : Except ε β} {g : α → β → γ} {e : ε}
    (fails : (do let a ← x; let b ← y; Except.ok (g a b)) = .error e) : x = .error e ∨ y = .error e := by
  cases x with
  | error e' => cases fails; exact .inl rfl
  | ok a =>
    cases y with
    | error e' => cases fails; exact .inr rfl
    | ok b => cases fails

variable {schemas : Schemas} {node v : Node} {seen : List String} {fuel n m : Nat}

/-- The members of an object, each taken on its own. -/
theorem members_ok_iff (f : Node → Except SpecError Node) {members : List (String × Node)} {v : Node} :
    (members.mapM fun m => (f m.2).map (m.1, ·)).map Node.object = .ok v ↔
      ∃ values, List.Forall₂ (fun m w : String × Node => m.1 = w.1 ∧ f m.2 = .ok w.2) members values ∧ v = .object values := by
  have one (m w : String × Node) : (f m.2).map (m.1, ·) = .ok w ↔ m.1 = w.1 ∧ f m.2 = .ok w.2 := by
    cases f m.2 with
    | error e => simp [Except.map]
    | ok u => simp [Except.map, Prod.ext_iff]
  constructor
  · intro all
    cases result : members.mapM fun m => (f m.2).map (m.1, ·) with
    | error e => rw [result] at all; cases all
    | ok values =>
      rw [result] at all
      cases all
      exact ⟨values, (mapM_ok_iff.mp result).imp fun m w => (one m w).mp, rfl⟩
  · rintro ⟨values, each, rfl⟩
    rw [mapM_ok_iff.mpr (each.imp fun m w => (one m w).mpr)]
    rfl

theorem members_error (f : Node → Except SpecError Node) {members : List (String × Node)} {e : SpecError}
    (fails : (members.mapM fun m => (f m.2).map (m.1, ·)).map Node.object = .error e) : ∃ m ∈ members, f m.2 = .error e := by
  cases result : members.mapM fun m => (f m.2).map (m.1, ·) with
  | ok values => rw [result] at fails; cases fails
  | error e' =>
    rw [result] at fails
    cases fails
    obtain ⟨m, member, one⟩ := mapM_error result
    refine ⟨m, member, ?_⟩
    cases part : f m.2 with
    | ok w => rw [part] at one; cases one
    | error e'' => rw [part] at one; cases one; rfl

/-- The ways in which an object is worked out, each part by `f`, a schema by `g`. -/
inductive Resolves (schemas : Schemas) (f g : Node → Except SpecError Node) (members : List (String × Node)) (v : Node) : Prop
  | plain {values} : lookup members "$ref" = none →
      List.Forall₂ (fun m w : String × Node => m.1 = w.1 ∧ f m.2 = .ok w.2) members values → v = .object values →
      Resolves schemas f g members v
  | ref {ref name node resolved values} : lookup members "$ref" = some ref → refName ref = some name →
      target schemas name = some node → g node = .ok resolved →
      List.Forall₂ (fun m w : String × Node => m.1 = w.1 ∧ f m.2 = .ok w.2) (members.filter (·.1 ≠ "$ref")) values →
      v = merge resolved (.object values) → Resolves schemas f g members v

theorem expand_object {members : List (String × Node)} :
    expand schemas (n + 1) (.object members) = .ok v ↔ Resolves schemas (expand schemas n) (expand schemas n) members v := by
  rw [expand]
  dsimp only
  constructor
  · intro ends
    split at ends
    · next none =>
      obtain ⟨values, each, is⟩ := (members_ok_iff (expand schemas n)).mp ends
      exact .plain none each is
    next ref here =>
    split at ends
    · cases ends
    next name named =>
    split at ends
    · cases ends
    next node found =>
    obtain ⟨resolved, siblings, first, second, is⟩ := both_ok_iff.mp ends
    obtain ⟨values, each, rfl⟩ := (members_ok_iff (expand schemas n)).mp second
    exact .ref here named found first each is
  · rintro (⟨none, each, is⟩ | ⟨here, named, found, resolved, each, is⟩)
    · rw [none]
      exact (members_ok_iff (expand schemas n)).mpr ⟨_, each, is⟩
    · rw [here]
      dsimp only
      rw [named]
      dsimp only
      rw [found]
      exact both_ok_iff.mpr ⟨_, _, resolved, (members_ok_iff (expand schemas n)).mpr ⟨_, each, rfl⟩, is⟩

/-- The guard against cycles only takes references away. -/
theorem deref_object {members : List (String × Node)} :
    deref schemas (fuel + 1) (.object members) seen = .ok v ↔
      ∃ next, Resolves schemas (deref schemas fuel · seen) (deref schemas fuel · next) members v ∧
        ∀ ref ∈ lookup members "$ref", ∀ name ∈ refName ref, name ∉ seen ∧ next = name :: seen := by
  rw [deref]
  dsimp only
  constructor
  · intro ends
    split at ends
    · next none =>
      obtain ⟨values, each, is⟩ := (members_ok_iff (deref schemas fuel · seen)).mp ends
      refine ⟨[], .plain none each is, fun ref here => ?_⟩
      cases none.symm.trans here
    next ref here =>
    split at ends
    · cases ends
    next name named =>
    split at ends
    · cases ends
    next new =>
    split at ends
    · cases ends
    next node found =>
    obtain ⟨resolved, siblings, first, second, is⟩ := both_ok_iff.mp ends
    obtain ⟨values, each, rfl⟩ := (members_ok_iff (deref schemas fuel · seen)).mp second
    refine ⟨name :: seen, .ref here named found first each is, fun ref' here' name' named' => ?_⟩
    cases here.symm.trans here'
    cases named.symm.trans named'
    exact ⟨new, rfl⟩
  · rintro ⟨next, ⟨none, each, is⟩ | ⟨here, named, found, resolved, each, is⟩, guarded⟩
    · rw [none]
      exact (members_ok_iff (deref schemas fuel · seen)).mpr ⟨_, each, is⟩
    · obtain ⟨new, rfl⟩ := guarded _ here _ named
      rw [here]
      dsimp only
      rw [named]
      dsimp only
      rw [if_neg new, found]
      exact both_ok_iff.mpr ⟨_, _, resolved, (members_ok_iff (deref schemas fuel · seen)).mpr ⟨_, each, rfl⟩, is⟩

theorem deref_items (items : List Node) : deref schemas (fuel + 1) (.array items) seen =
    (items.mapM fun item => deref schemas fuel item seen).map .array := rfl

theorem expand_items (items : List Node) : expand schemas (n + 1) (.array items) =
    (items.mapM (expand schemas n)).map .array := rfl

theorem deref_array {items : List Node} : deref schemas (fuel + 1) (.array items) seen = .ok v ↔
    ∃ values, List.Forall₂ (fun a b => deref schemas fuel a seen = .ok b) items values ∧ v = .array values := by
  rw [deref_items]
  constructor
  · intro ends
    cases result : items.mapM fun item => deref schemas fuel item seen with
    | error e => rw [result] at ends; cases ends
    | ok values =>
      rw [result] at ends
      cases ends
      exact ⟨values, mapM_ok_iff.mp result, rfl⟩
  · rintro ⟨values, each, rfl⟩
    rw [mapM_ok_iff.mpr each]
    rfl

theorem expand_array {items : List Node} : expand schemas (n + 1) (.array items) = .ok v ↔
    ∃ values, List.Forall₂ (fun a b => expand schemas n a = .ok b) items values ∧ v = .array values := by
  rw [expand_items]
  constructor
  · intro ends
    cases result : items.mapM (expand schemas n) with
    | error e => rw [result] at ends; cases ends
    | ok values =>
      rw [result] at ends
      cases ends
      exact ⟨values, mapM_ok_iff.mp result, rfl⟩
  · rintro ⟨values, each, rfl⟩
    rw [mapM_ok_iff.mpr each]
    rfl

theorem Resolves.imp {f g f' g' : Node → Except SpecError Node} {members : List (String × Node)}
    (resolves : Resolves schemas f g members v) (parts : ∀ m ∈ members, ∀ w, f m.2 = .ok w → f' m.2 = .ok w)
    (whole : ∀ ref ∈ lookup members "$ref", ∀ name ∈ refName ref, ∀ node ∈ target schemas name, ∀ w, g node = .ok w → g' node = .ok w) :
    Resolves schemas f' g' members v := by
  have each {some_ values : List (String × Node)} (within : some_ ⊆ members)
      (all : List.Forall₂ (fun m w : String × Node => m.1 = w.1 ∧ f m.2 = .ok w.2) some_ values) :
      List.Forall₂ (fun m w : String × Node => m.1 = w.1 ∧ f' m.2 = .ok w.2) some_ values := by
    induction all with
    | nil => exact .nil
    | cons one _ ih =>
      have here := within List.mem_cons_self
      exact .cons ⟨one.1, parts _ here _ one.2⟩ (ih fun m member => within (List.mem_cons_of_mem _ member))
  obtain ⟨none, all, is⟩ | ⟨here, named, found, resolved, all, is⟩ := resolves
  · exact .plain none (each (fun _ member => member) all) is
  · exact .ref here named found (whole _ here _ named _ found _ resolved) (each (fun _ member => List.mem_of_mem_filter member) all) is

/-- What is expanded stays so, however much deeper one looks. -/
theorem expand_mono (ends : expand schemas n node = .ok v) (le : n ≤ m) : expand schemas m node = .ok v := by
  induction n generalizing node v m with
  | zero => cases ends
  | succ n ih =>
    obtain ⟨m, rfl⟩ : ∃ k, m = k + 1 := ⟨m - 1, by omega⟩
    have le := Nat.le_of_succ_le_succ le
    cases node with
    | scalar s => exact ends
    | array items =>
      obtain ⟨values, each, is⟩ := expand_array.mp ends
      exact expand_array.mpr ⟨values, each.imp fun _ _ one => ih one le, is⟩
    | object members =>
      exact expand_object.mpr ((expand_object.mp ends).imp (fun _ _ _ one => ih one le) fun _ _ _ _ _ _ _ one => ih one le)

/-- What `deref` gives is the expansion. -/
theorem deref_sound (ends : deref schemas fuel node seen = .ok v) : expand schemas fuel node = .ok v := by
  induction fuel generalizing node v seen with
  | zero => cases ends
  | succ fuel ih =>
    cases node with
    | scalar s => exact ends
    | array items =>
      obtain ⟨values, each, is⟩ := deref_array.mp ends
      exact expand_array.mpr ⟨values, each.imp fun _ _ one => ih one, is⟩
    | object members =>
      obtain ⟨next, resolves, -⟩ := deref_object.mp ends
      exact expand_object.mpr (resolves.imp (fun _ _ _ one => ih one) fun _ _ _ _ _ _ _ one => ih one)

/-- The schemas of these names expand at `n` levels at the earliest. -/
def Later (schemas : Schemas) (n : Nat) (names : List String) : Prop :=
  ∀ name ∈ names, ∀ node ∈ target schemas name, ∀ m < n, ∀ v, expand schemas m node ≠ .ok v

/-- What has an expansion is not refused: a schema whose own expansion it would take has none. -/
theorem deref_complete (ends : expand schemas n node = .ok v) (later : Later schemas n seen) (enough : n ≤ fuel) :
    deref schemas fuel node seen = .ok v := by
  induction n using Nat.strong_induction_on generalizing node v seen fuel with
  | _ n ih =>
    cases n with
    | zero => cases ends
    | succ n =>
      obtain ⟨fuel, rfl⟩ : ∃ k, fuel = k + 1 := ⟨fuel - 1, by omega⟩
      have enough := Nat.le_of_succ_le_succ enough
      have earlier : Later schemas n seen := fun name member node found m less =>
        later name member node found m (by omega)
      cases node with
      | scalar s => exact ends
      | array items =>
        obtain ⟨values, each, is⟩ := expand_array.mp ends
        exact deref_array.mpr ⟨values, each.imp fun _ _ one => ih n (by omega) one earlier enough, is⟩
      | object members =>
        have part {l values : List (String × Node)} (all : List.Forall₂ (fun m w : String × Node => m.1 = w.1 ∧ expand schemas n m.2 = .ok w.2) l values) :
            List.Forall₂ (fun m w : String × Node => m.1 = w.1 ∧ deref schemas fuel m.2 seen = .ok w.2) l values :=
          all.imp fun _ _ one => ⟨one.1, ih n (by omega) one.2 earlier enough⟩
        obtain ⟨none, all, is⟩ | @⟨ref, name, node, resolved, values, here, named, found, whole, all, is⟩ := expand_object.mp ends
        · refine deref_object.mpr ⟨[], .plain none (part all) is, fun ref here => ?_⟩
          cases none.symm.trans here
        · have new : name ∉ seen := fun member => later name member node found n (by omega) resolved whole
          -- the first level at which the schema expands, below which it does not take itself
          have some_ : ∃ k t, expand schemas k node = .ok t := ⟨n, resolved, whole⟩
          classical
          obtain ⟨t, first⟩ := Nat.find_spec some_
          have least : Nat.find some_ ≤ n := Nat.find_min' some_ ⟨resolved, whole⟩
          obtain rfl : resolved = t := by
            cases whole.symm.trans (expand_mono first least)
            rfl
          have below : Later schemas (Nat.find some_) (name :: seen) := by
            intro q member target found' m less v expands
            rcases List.mem_cons.mp member with rfl | old
            · cases found.symm.trans found'
              exact Nat.find_min some_ less ⟨v, expands⟩
            · exact later q old target found' m (by omega) v expands
          have inner := ih _ (by omega) first below (least.trans enough)
          refine deref_object.mpr ⟨name :: seen, .ref here named found inner (part all) is, fun ref' here' name' named' => ?_⟩
          cases here.symm.trans here'
          cases named.symm.trans named'
          exact ⟨new, rfl⟩

mutual

def depth : Node → Nat
  | .scalar _ => 1
  | .array items => depthItems items + 1
  | .object members => depthMembers members + 1

def depthItems : List Node → Nat
  | [] => 0
  | item :: rest => max (depth item) (depthItems rest)

def depthMembers : List (String × Node) → Nat
  | [] => 0
  | (_, value) :: rest => max (depth value) (depthMembers rest)

end

theorem depth_array (items : List Node) : depth (.array items) = depthItems items + 1 := rfl

theorem depth_object (members : List (String × Node)) : depth (.object members) = depthMembers members + 1 := rfl

theorem depth_pos (node : Node) : 0 < depth node := by
  cases node with
  | scalar => exact Nat.one_pos
  | array | object => exact Nat.succ_pos _

theorem depth_le_items {items : List Node} {item : Node} (member : item ∈ items) : depth item ≤ depthItems items := by
  induction items with
  | nil => cases member
  | cons other rest ih =>
    rcases List.mem_cons.mp member with rfl | later
    · exact le_max_left _ _
    · exact (ih later).trans (le_max_right _ _)

theorem depth_le_members {members : List (String × Node)} {m : String × Node} (member : m ∈ members) :
    depth m.2 ≤ depthMembers members := by
  induction members with
  | nil => cases member
  | cons other rest ih =>
    rcases List.mem_cons.mp member with rfl | later
    · exact le_max_left _ _
    · exact (ih later).trans (le_max_right _ _)

/-- The references that may still be resolved. -/
def open_ (schemas : Schemas) (seen : List String) : Nat := fresh (schemas.map (·.1)).toFinset seen

theorem target_mem {name : String} (found : target schemas name = some node) :
    name ∈ (schemas.map (·.1)).toFinset ∧ ∃ m ∈ schemas, m.2 = node := by
  have there := (Option.filter_eq_some_iff.mp found).1
  obtain ⟨m, here, rfl⟩ := Option.map_eq_some_iff.mp there
  have member := List.mem_of_find?_eq_some here
  have named : m.1 = name := by simpa using List.find?_some here
  exact ⟨List.mem_toFinset.mpr (named ▸ List.mem_map_of_mem member), m, member, rfl⟩

/-- A search goes no deeper than the part itself and then once through each schema. -/
theorem deref_not_deep (enough : depth node + open_ schemas seen * depthMembers schemas ≤ fuel) :
    deref schemas fuel node seen ≠ .error .deep := by
  induction fuel generalizing node seen with
  | zero =>
    have positive := depth_pos node
    omega
  | succ fuel ih =>
    intro fails
    cases node with
    | scalar s => cases fails
    | array items =>
      rw [depth_array] at enough
      rw [deref_items] at fails
      cases result : items.mapM fun item => deref schemas fuel item seen with
      | ok values => rw [result] at fails; cases fails
      | error e =>
        rw [result] at fails
        cases fails
        obtain ⟨item, member, deep⟩ := mapM_error result
        have less := depth_le_items member
        exact ih (by omega) deep
    | object members =>
      rw [depth_object] at enough
      have part {l : List (String × Node)} (within : l ⊆ members)
          (deep : (l.mapM fun m => (deref schemas fuel m.2 seen).map (m.1, ·)).map Node.object = .error .deep) : False := by
        obtain ⟨m, member, deep⟩ := members_error (deref schemas fuel · seen) deep
        have less := depth_le_members (within member)
        exact ih (by omega) deep
      rw [deref] at fails
      dsimp only at fails
      split at fails
      · exact part (fun _ member => member) fails
      split at fails
      · cases fails
      next name named =>
      split at fails
      · cases fails
      next new =>
      split at fails
      · cases fails
      next node found =>
      rcases both_error fails with deep | deep
      · obtain ⟨known, m, member, rfl⟩ := target_mem found
        have fewer : open_ schemas (name :: seen) < open_ schemas seen := fresh_cons known new
        have less := depth_le_members member
        have steps : (open_ schemas (name :: seen) + 1) * depthMembers schemas ≤ open_ schemas seen * depthMembers schemas :=
          Nat.mul_le_mul_right _ fewer
        rw [Nat.succ_mul] at steps
        exact ih (by omega) deep
      · exact part (fun _ member => List.mem_of_mem_filter member) deep

/-- What has been worked out with more fuel is worked out with enough. -/
theorem deref_enough {more : Nat} (ends : deref schemas more node seen = .ok v)
    (enough : depth node + open_ schemas seen * depthMembers schemas ≤ fuel) : deref schemas fuel node seen = .ok v := by
  induction fuel generalizing node seen v more with
  | zero =>
    have positive := depth_pos node
    omega
  | succ fuel ih =>
    cases more with
    | zero => cases ends
    | succ more =>
    cases node with
    | scalar s => exact ends
    | array items =>
      rw [depth_array] at enough
      obtain ⟨values, each, is⟩ := deref_array.mp ends
      refine deref_array.mpr ⟨values, ?_, is⟩
      refine List.forall₂_iff_get.mpr ⟨each.length_eq, fun i bound bound' => ?_⟩
      have less := depth_le_items (items.get_mem ⟨i, bound⟩)
      exact ih (List.forall₂_iff_get.mp each |>.2 i bound bound') (by omega)
    | object members =>
      rw [depth_object] at enough
      obtain ⟨next, resolves, guarded⟩ := deref_object.mp ends
      refine deref_object.mpr ⟨next, resolves.imp (fun m member w one => ?_) fun ref here name named node found w one => ?_, guarded⟩
      · have less := depth_le_members member
        exact ih one (by omega)
      · obtain ⟨new, rfl⟩ := guarded ref here name named
        obtain ⟨known, m, member, rfl⟩ := target_mem found
        have fewer : open_ schemas (name :: seen) < open_ schemas seen := fresh_cons known new
        have less := depth_le_members member
        have steps : (open_ schemas (name :: seen) + 1) * depthMembers schemas ≤ open_ schemas seen * depthMembers schemas :=
          Nat.mul_le_mul_right _ fewer
        rw [Nat.succ_mul] at steps
        exact ih one (by omega)

/-- Fuel for a whole part of the contract. -/
def fuelFor (schemas : Schemas) (node : Node) : Nat := depth node + schemas.length * depthMembers schemas

/-- No object of the part is a reference. -/
inductive Plain : Node → Prop
  | scalar (value : Scalar) : Plain (.scalar value)
  | array (items : List Node) : (∀ item ∈ items, Plain item) → Plain (.array items)
  | object (members : List (String × Node)) : (∀ m ∈ members, m.1 ≠ "$ref") → (∀ m ∈ members, Plain m.2) →
      Plain (.object members)

theorem mem_mergeMembers {before siblings : List (String × Node)} {m : String × Node} (member : m ∈ mergeMembers before siblings) :
    ∃ old ∈ before, m.1 = old.1 ∧ (m.2 = old.2 ∨ ∃ sibling, (m.1, sibling) ∈ siblings ∧ m.2 = merge old.2 sibling) := by
  induction before with
  | nil => cases member
  | cons old rest ih =>
    rw [mergeMembers] at member
    rcases List.mem_cons.mp member with rfl | later
    · refine ⟨old, List.mem_cons_self, rfl, ?_⟩
      cases found : lookup siblings old.1 with
      | none => exact .inl rfl
      | some sibling =>
        obtain ⟨s, here, rfl⟩ := Option.map_eq_some_iff.mp found
        have named : s.1 = old.1 := by simpa using List.find?_some here
        exact .inr ⟨s.2, named ▸ List.mem_of_find?_eq_some here, rfl⟩
    · obtain ⟨old', inside, rest⟩ := ih later
      exact ⟨old', List.mem_cons_of_mem _ inside, rest⟩

theorem Plain.merge {before siblings : Node} (plain : Plain before) (plain' : Plain siblings) : Plain (merge before siblings) := by
  induction plain generalizing siblings with
  | scalar =>
    rw [Spec.merge]
    exact plain'
  | array =>
    rw [Spec.merge]
    exact plain'
  | object members apart all ih =>
    cases plain' with
    | scalar value =>
      rw [Spec.merge]
      exact .scalar value
    | array items each =>
      rw [Spec.merge]
      exact .array items each
    | object others apart' all' =>
      rw [Spec.merge]
      refine .object _ (fun m member => ?_) fun m member => ?_
      · rcases List.mem_append.mp member with merged | new
        · obtain ⟨old, inside, named, -⟩ := mem_mergeMembers merged
          exact named ▸ apart old inside
        · exact apart' m (List.mem_of_mem_filter new)
      · rcases List.mem_append.mp member with merged | new
        · obtain ⟨old, inside, -, same | ⟨sibling, there, is⟩⟩ := mem_mergeMembers merged
          · exact same ▸ all old inside
          · exact is ▸ ih old inside (all' _ there)
        · exact all' m (List.mem_of_mem_filter new)

theorem expand_plain (ends : expand schemas n node = .ok v) : Plain v := by
  induction n generalizing node v with
  | zero => cases ends
  | succ n ih =>
    have each {l values : List (String × Node)} (apart : ∀ m ∈ l, m.1 ≠ "$ref")
        (all : List.Forall₂ (fun m w : String × Node => m.1 = w.1 ∧ expand schemas n m.2 = .ok w.2) l values) :
        Plain (.object values) := by
      refine .object _ (fun w member => ?_) fun w member => ?_
      · obtain ⟨m, inside, named, -⟩ := exists_of_mem all member
        exact named ▸ apart m inside
      · obtain ⟨m, -, -, one⟩ := exists_of_mem all member
        exact ih one
    cases node with
    | scalar s =>
      cases ends
      exact .scalar s
    | array items =>
      obtain ⟨values, all, rfl⟩ := expand_array.mp ends
      refine .array _ fun w member => ?_
      obtain ⟨item, -, one⟩ := exists_of_mem all member
      exact ih one
    | object members =>
      obtain ⟨none, all, rfl⟩ | ⟨here, named, found, whole, all, rfl⟩ := expand_object.mp ends
      · refine each (fun m member => ?_) all
        simpa using List.find?_eq_none.mp (Option.map_eq_none_iff.mp none) m member
      · exact (ih whole).merge (each (fun m member => by simpa using (List.mem_filter.mp member).2) all)

/-- `deref` always ends; it gives the expansion of its argument whenever there is one, and no reference is left there. -/
theorem deref_expands (schemas : Schemas) (node : Node) (fuel : Nat) (enough : fuelFor schemas node ≤ fuel) :
    deref schemas fuel node [] ≠ .error .deep ∧
      ∀ v, (deref schemas fuel node [] = .ok v ↔ ∃ n, expand schemas n node = .ok v) ∧
        (deref schemas fuel node [] = .ok v → Plain v) := by
  have bound : depth node + open_ schemas [] * depthMembers schemas ≤ fuel := by
    have all : open_ schemas [] ≤ schemas.length := by
      have count := Finset.card_filter_le (schemas.map (·.1)).toFinset fun a => a ∉ ([] : List String)
      have size := List.toFinset_card_le (schemas.map (·.1))
      rw [List.length_map] at size
      exact count.trans size
    have steps := Nat.mul_le_mul_right (depthMembers schemas) all
    unfold fuelFor at enough
    omega
  refine ⟨deref_not_deep bound, fun v => ⟨⟨fun ends => ⟨fuel, deref_sound ends⟩, ?_⟩, fun ends => expand_plain (deref_sound ends)⟩⟩
  rintro ⟨n, ends⟩
  have found : deref schemas n node [] = .ok v :=
    deref_complete ends (fun name member => absurd member List.not_mem_nil) le_rfl
  exact deref_enough found bound

def hostSchemas : Schemas :=
  [("Host", .object [("type", .scalar (.string "string"))]), ("Device", .object [("$ref", .scalar (.string (schemaRef "Host")))])]

theorem deref_expands_device : ∃ n, expand hostSchemas n (.object [("$ref", .scalar (.string (schemaRef "Device")))]) =
    .ok (.object [("type", .scalar (.string "string"))]) :=
  ((deref_expands hostSchemas _ 9 (by decide)).2 _).1.mp rfl

end Opale.Linux.Spec
