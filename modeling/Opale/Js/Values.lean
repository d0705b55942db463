import Mathlib.Algebra.Order.Ring.Unbundled.Rat
import Mathlib.Order.WithBotTop

namespace Opale.Js

/-- A number other than NaN. -/
abbrev JsNumber := WithBot (WithTop ℚ)

def JsNumber.finite? : JsNumber → Option ℚ
  | some (some q) => some q
  | _ => none

/-- `Number.isInteger`, with the integer. -/
def JsNumber.integer? (n : JsNumber) : Option Int := (n.finite?.filter (·.den = 1)).map (·.num)

/-- The code units of a string. -/
abbrev Units := List UInt16

instance : LawfulBEq Units := inferInstance

def ascii (s : String) : Units := s.toList.map fun c => c.toNat.toUInt16

/-- What `JSON.parse` gives; of two members of one name the later counts. -/
inductive Json where
  | null
  | bool (value : Bool)
  | number (value : JsNumber)
  | string (value : Units)
  | array (items : List Json)
  | object (members : List (Units × Json))

/-- `w[name]` for a name that no prototype has; none when undefined. -/
def Json.get (w : Json) (name : Units) : Option Json :=
  match w with
  | .object members => (members.reverse.find? (·.1 = name)).map (·.2)
  | _ => none

def truthy : Option Json → Bool
  | none | some .null | some (.bool false) => false
  | some (.number n) => n ≠ (0 : ℚ)
  | some (.string s) => s ≠ []
  | some (.bool true) | some (.array _) | some (.object _) => true

/-- `v && v.length` -/
def truthyLength : Option Json → Bool
  | some (.string s) => s ≠ []
  | some (.array items) => items ≠ []
  | some (.object members) => truthy ((Json.object members).get (ascii "length"))
  | _ => false

def isHighSurrogate (u : UInt16) : Bool := 0xD800 ≤ u.toNat && u.toNat < 0xDC00

def isLowSurrogate (u : UInt16) : Bool := 0xDC00 ≤ u.toNat && u.toNat < 0xE000

/-- A code unit by itself; U+FFFD for half a pair. -/
def scalar (u : UInt16) : Char := if isHighSurrogate u || isLowSurrogate u then Char.ofNat 0xFFFD else Char.ofNat u.toNat

def pair (high low : UInt16) : Char := Char.ofNat (0x10000 + (high.toNat - 0xD800) * 0x400 + (low.toNat - 0xDC00))

/-- A string once another program has decoded its JSON. -/
def scalars : Units → List Char
  | [] => []
  | [u] => [scalar u]
  | u :: v :: rest =>
    if isHighSurrogate u && isLowSurrogate v then pair u v :: scalars rest else scalar u :: scalars (v :: rest)

section

variable {u v : UInt16}

theorem scalars_paired (paired : (isHighSurrogate u && isLowSurrogate v) = true) (rest : Units) :
    scalars (u :: v :: rest) = pair u v :: scalars rest := if_pos paired

theorem scalars_apart (apart : ¬(isHighSurrogate u && isLowSurrogate v) = true) (rest : Units) :
    scalars (u :: v :: rest) = scalar u :: scalars (v :: rest) := if_neg apart

/-- A string is empty, one code unit, a pair and what follows, or a code unit that makes no pair with what follows. -/
theorem units_induction {P : Units → Prop} (nil : P []) (single : ∀ u, P [u])
    (paired : ∀ u v rest, (isHighSurrogate u && isLowSurrogate v) = true → P rest → P (u :: v :: rest))
    (apart : ∀ u v rest, ¬(isHighSurrogate u && isLowSurrogate v) = true → P (v :: rest) → P (u :: v :: rest))
    (s : Units) : P s :=
  scalars.induct P nil single paired apart s

end

/-- By evaluation of the list, however many values there are. -/
theorem forall_mem_of_all {α : Type} {l : List α} {p : α → Prop} [DecidablePred p]
    (all : l.all (fun a => decide (p a)) = true) : ∀ a ∈ l, p a := by
  simpa using all

theorem forall_mem_of_eq_some {α : Type} {o : Option α} {a : α} {p : α → Prop} (is_ : o = some a) (holds : p a) :
    ∀ b ∈ o, p b := by
  intro b member
  rw [is_] at member
  cases member
  exact holds

theorem toNat_ofNat {n : Nat} (valid : n.isValidChar) : (Char.ofNat n).toNat = n := by
  rw [Char.ofNat, dif_pos valid]
  rfl

theorem toNat_scalar {u : UInt16} (high : isHighSurrogate u = false) (low : isLowSurrogate u = false) :
    (scalar u).toNat = u.toNat := by
  unfold scalar
  rw [high, low, Bool.or_false, if_neg Bool.false_ne_true]
  have size := u.toNat_lt
  simp only [isHighSurrogate, isLowSurrogate, Bool.and_eq_false_iff, decide_eq_false_iff_not] at high low
  exact toNat_ofNat (by unfold Nat.isValidChar; omega)

theorem toNat_scalar_of_surrogate {u : UInt16} (surrogate : (isHighSurrogate u || isLowSurrogate u) = true) :
    (scalar u).toNat = 0xFFFD := by
  unfold scalar
  rw [if_pos surrogate]
  rfl

theorem toNat_pair {u v : UInt16} (high : isHighSurrogate u = true) (low : isLowSurrogate v = true) :
    0x10000 ≤ (pair u v).toNat := by
  simp only [isHighSurrogate, isLowSurrogate, Bool.and_eq_true, decide_eq_true_eq] at high low
  unfold pair
  rw [toNat_ofNat (by unfold Nat.isValidChar; omega)]
  omega

/-- Without the first half of a pair, unit after unit. -/
theorem scalars_eq_map {s : Units} (single : ∀ u ∈ s, isHighSurrogate u = false) : scalars s = s.map scalar := by
  induction s using units_induction with
  | nil => rfl
  | single u => rfl
  | paired u v rest paired ih =>
    rw [single u List.mem_cons_self] at paired
    exact absurd paired Bool.false_ne_true
  | apart u v rest apart ih =>
    exact (scalars_apart apart rest).trans (congrArg _ (ih fun w member => single w (List.mem_cons_of_mem u member)))

/-- The first half of a pair becomes a character that is not of one unit, or U+FFFD. -/
theorem exists_of_high {s : Units} {u : UInt16} (member : u ∈ s) (high : isHighSurrogate u = true) :
    ∃ c ∈ scalars s, 0xFFFD ≤ c.toNat := by
  induction s using units_induction with
  | nil => exact absurd member List.not_mem_nil
  | single v =>
    rw [List.mem_singleton] at member
    subst member
    exact ⟨_, List.mem_singleton_self _, (toNat_scalar_of_surrogate (by rw [high, Bool.true_or])).ge⟩
  | paired v w rest paired ih =>
    rw [scalars_paired paired]
    rw [Bool.and_eq_true] at paired
    have above := toNat_pair paired.1 paired.2
    exact ⟨_, List.mem_cons_self, by omega⟩
  | apart v w rest apart ih =>
    rw [scalars_apart apart]
    rcases List.mem_cons.mp member with rfl | inside
    · exact ⟨_, List.mem_cons_self, (toNat_scalar_of_surrogate (by rw [high, Bool.true_or])).ge⟩
    · obtain ⟨c, there, above⟩ := ih inside
      exact ⟨c, List.mem_cons_of_mem _ there, above⟩

theorem scalars_eq_nil {s : Units} : scalars s = [] ↔ s = [] := by
  induction s using units_induction with
  | nil => exact ⟨fun _ => rfl, fun _ => rfl⟩
  | single u => exact ⟨nofun, nofun⟩
  | paired u v rest paired _ =>
    rw [scalars_paired paired]
    exact ⟨nofun, nofun⟩
  | apart u v rest apart _ =>
    rw [scalars_apart apart]
    exact ⟨nofun, nofun⟩

theorem JsNumber.integer?_eq {n : JsNumber} {d : Int} (integer : n.integer? = some d) : n = ((d : ℚ) : JsNumber) := by
  obtain ⟨q, whole, rfl⟩ := Option.map_eq_some_iff.mp integer
  obtain ⟨finite, den⟩ := Option.filter_eq_some_iff.mp whole
  rw [decide_eq_true_eq] at den
  unfold JsNumber.finite? at finite
  split at finite
  · cases finite
    rw [Rat.coe_int_num_of_den_eq_one den]
    rfl
  · cases finite

end Opale.Js
