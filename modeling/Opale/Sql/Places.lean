import Opale.Sql.Template
import Mathlib.Data.List.Infix
import Mathlib.Data.List.Pairwise

namespace Opale.Sql

/-- The text has the placeholder, and no digit more, behind the text before it. -/
def Occurs (text before : List Char) (n : Nat) : Prop :=
  ∃ after, text = before ++ (Piece.render (.placeholder n) ++ after) ∧ ∀ c ∈ after.head?, c.isDigit = false

/-- The placeholders of a template, each with the text before it. -/
def Template.places (before : List Char) : Template → List (List Char × Nat)
  | [] => []
  | .text s :: rest => places (before ++ s) rest
  | .placeholder n :: rest => (before, n) :: places (before ++ Piece.render (.placeholder n)) rest

theorem Template.places_append (before : List Char) (t u : Template) :
    Template.places before (t ++ u) = Template.places before t ++ Template.places (before ++ Template.render t) u := by
  induction t generalizing before with
  | nil => simp [Template.places, Template.render]
  | cons p rest ih =>
    cases p with
    | text s => simp [Template.places, ih, Template.render, Piece.render]
    | placeholder n => simp [Template.places, ih, Template.render, Piece.render]

theorem occurs_cons {c : Char} {text before : List Char} {n : Nat} (other : c ≠ '$') :
    Occurs (c :: text) before n ↔ ∃ rest, before = c :: rest ∧ Occurs text rest n := by
  constructor
  · rintro ⟨after, whole, ends⟩
    cases before with
    | nil =>
      have same : c = '$' := (List.cons.inj whole).1
      exact absurd same other
    | cons d rest =>
      obtain ⟨rfl, later⟩ := List.cons.inj whole
      exact ⟨rest, rfl, after, later, ends⟩
  · rintro ⟨rest, rfl, after, rfl, ends⟩
    exact ⟨after, rfl, ends⟩

theorem occurs_text {s text before : List Char} {n : Nat} (plain : '$' ∉ s) :
    Occurs (s ++ text) before n ↔ ∃ rest, before = s ++ rest ∧ Occurs text rest n := by
  induction s generalizing before with
  | nil => simp
  | cons c s ih =>
    rw [List.mem_cons, not_or] at plain
    rw [List.cons_append, occurs_cons fun same => plain.1 same.symm]
    simp only [ih plain.2]
    constructor
    · rintro ⟨_, rfl, rest, rfl, occurs⟩
      exact ⟨rest, rfl, occurs⟩
    · rintro ⟨rest, rfl, occurs⟩
      exact ⟨s ++ rest, rfl, rest, rfl, occurs⟩

theorem digits_toDigits (n : Nat) : ∀ c ∈ Nat.toDigits 10 n, c.isDigit = true := fun _ member =>
  Nat.isDigit_of_mem_toDigits (by decide) (by decide) member

/-- The digits that a text starts with. -/
theorem takeWhile_digits {digits after : List Char} (all : ∀ c ∈ digits, c.isDigit = true)
    (ends : ∀ c ∈ after.head?, c.isDigit = false) : (digits ++ after).takeWhile Char.isDigit = digits := by
  have nothing : after.takeWhile Char.isDigit = [] := by
    cases after with
    | nil => rfl
    | cons c rest => exact List.takeWhile_cons_of_neg (by rw [ends c rfl]; exact Bool.false_ne_true)
  rw [List.takeWhile_append_of_pos all, nothing, List.append_nil]

theorem occurs_placeholder {m n : Nat} {text before : List Char} (apart : ∀ c ∈ text.head?, c.isDigit = false) :
    Occurs (Piece.render (.placeholder m) ++ text) before n ↔
      (before = [] ∧ n = m) ∨ ∃ rest, before = Piece.render (.placeholder m) ++ rest ∧ Occurs text rest n := by
  have plain : '$' ∉ Nat.toDigits 10 m := fun member => absurd (digits_toDigits m _ member) (by decide)
  cases before with
  | nil =>
    constructor
    · rintro ⟨after, whole, ends⟩
      have same : Nat.toDigits 10 m ++ text = Nat.toDigits 10 n ++ after := (List.cons.inj whole).2
      have digits := congrArg (List.takeWhile Char.isDigit) same
      rw [takeWhile_digits (digits_toDigits m) apart, takeWhile_digits (digits_toDigits n) ends] at digits
      have value := congrArg (Nat.ofDigitChars 10 · 0) digits
      simp only [Nat.ofDigitChars_ten_toDigits] at value
      exact .inl ⟨rfl, value.symm⟩
    · rintro (⟨-, rfl⟩ | ⟨rest, impossible, -⟩)
      · exact ⟨text, rfl, apart⟩
      · cases impossible
  | cons c rest =>
    have tail : Occurs (Piece.render (.placeholder m) ++ text) (c :: rest) n ↔
        c = '$' ∧ Occurs (Nat.toDigits 10 m ++ text) rest n := by
      constructor
      · rintro ⟨after, whole, ends⟩
        obtain ⟨rfl, later⟩ := List.cons.inj whole
        exact ⟨rfl, after, later, ends⟩
      · rintro ⟨rfl, after, later, ends⟩
        exact ⟨after, congrArg _ later, ends⟩
    rw [tail, occurs_text plain]
    constructor
    · rintro ⟨rfl, rest, rfl, occurs⟩
      exact .inr ⟨rest, rfl, occurs⟩
    · rintro (⟨impossible, -⟩ | ⟨rest', same, occurs⟩)
      · cases impossible
      · obtain ⟨rfl, rfl⟩ := List.cons.inj same
        exact ⟨rfl, rest', rfl, occurs⟩

theorem Apart.head {t : Template} (apart : Apart t) : ∀ c ∈ (Template.render t).head?, c.isDigit = false := by
  induction t with
  | nil => exact fun c member => by cases member
  | cons p rest ih =>
    cases p with
    | placeholder n =>
      intro c member
      cases member
      rfl
    | text s =>
      cases s with
      | nil => exact ih apart
      | cons c s =>
        intro d member
        cases member
        exact apart

/-- The places of a template are those that its text shows. -/
theorem mem_places {t : Template} (sound : Sound t) {front before : List Char} {n : Nat} :
    (before, n) ∈ t.places front ↔ ∃ rest, before = front ++ rest ∧ Occurs t.render rest n := by
  induction t generalizing front with
  | nil =>
    constructor
    · intro member
      cases member
    · rintro ⟨rest, -, after, whole, -⟩
      exact absurd whole.symm (List.append_ne_nil_of_right_ne_nil _ (List.cons_ne_nil _ _))
  | cons p later ih =>
    cases p with
    | text s =>
      have here : Template.render (.text s :: later) = s ++ Template.render later := rfl
      rw [Template.places, ih sound.2, here]
      simp only [occurs_text sound.1]
      constructor
      · rintro ⟨rest, rfl, occurs⟩
        exact ⟨s ++ rest, List.append_assoc _ _ _, rest, rfl, occurs⟩
      · rintro ⟨_, rfl, rest, rfl, occurs⟩
        exact ⟨rest, (List.append_assoc _ _ _).symm, occurs⟩
    | placeholder m =>
      have here : Template.render (.placeholder m :: later) =
          Piece.render (.placeholder m) ++ Template.render later := rfl
      rw [Template.places, List.mem_cons, ih sound.2, here]
      simp only [occurs_placeholder sound.1.head, Prod.mk.injEq]
      constructor
      · rintro (⟨rfl, rfl⟩ | ⟨rest, rfl, occurs⟩)
        · exact ⟨[], (List.append_nil _).symm, .inl ⟨rfl, rfl⟩⟩
        · exact ⟨_, List.append_assoc _ _ _, .inr ⟨rest, rfl, occurs⟩⟩
      · rintro ⟨_, rfl, ⟨rfl, rfl⟩ | ⟨rest, rfl, occurs⟩⟩
        · exact .inl ⟨List.append_nil _, rfl⟩
        · exact .inr ⟨rest, (List.append_assoc _ _ _).symm, occurs⟩

section

variable {P V : Type} (contexts : List (List Char × P))

/-- What a place imposes, by what the text before it ends in. -/
def imposed (before : List Char) : Option P := (contexts.find? fun c => c.1 <:+ before).map (·.2)

/-- No context is longer than the text and ends in it. -/
def Closed (s : List Char) : Prop := ∀ c ∈ contexts, s <:+ c.1 → c.1 <:+ s

/-- Every value belongs where the places of its placeholder say. -/
def Admitted (Domain : P → V → Prop) (text : List Char) (params : List V) : Prop :=
  ∀ before n, Occurs text before n →
    ∃ place v, imposed contexts before = some place ∧ 0 < n ∧ params[n - 1]? = some v ∧ Domain place v

/-- The placeholders of a template after the first `n` are those of the values, each at places of its kind. -/
structure Fills (t : Template) (n : Nat) (bound : List (P × V)) : Prop where
  placed : ∀ front, ∀ p ∈ t.places front, ∃ i b, p.2 = n + i + 1 ∧ bound[i]? = some b ∧
    imposed contexts p.1 = some b.1
  used : ∀ front i, i < bound.length → ∃ before, (before, n + i + 1) ∈ t.places front

variable {contexts}

theorem imposed_append {s : List Char} (closed : Closed contexts s) (front : List Char) :
    imposed contexts (front ++ s) = imposed contexts s := by
  have same : ∀ c ∈ contexts, decide (c.1 <:+ front ++ s) = decide (c.1 <:+ s) := fun c member => by
    rw [decide_eq_decide]
    constructor
    · intro ends
      rcases List.suffix_or_suffix_of_suffix ends (List.suffix_append front s) with inside | outside
      · exact inside
      · exact closed c member outside
    · exact fun ends => ends.trans (List.suffix_append front s)
  unfold imposed
  rw [← List.head?_filter, ← List.head?_filter, List.filter_congr same]

/-- Texts neither of which ends in the other. -/
def Unnested (s t : List Char) : Prop := ¬s <:+ t ∧ ¬t <:+ s

instance (s t : List Char) : Decidable (Unnested s t) := inferInstanceAs (Decidable (_ ∧ _))

theorem Unnested.symm {s t : List Char} (apart : Unnested s t) : Unnested t s := ⟨apart.2, apart.1⟩

theorem Unnested.append_right {s t : List Char} (apart : Unnested s t) (front : List Char) : Unnested s (front ++ t) := by
  constructor
  · intro ends
    rcases List.suffix_or_suffix_of_suffix ends (List.suffix_append front t) with inside | outside
    · exact apart.1 inside
    · exact apart.2 outside
  · intro ends
    exact apart.2 ((List.suffix_append front t).trans ends)

theorem Unnested.behind {s t : List Char} (apart : Unnested s t) (front front' : List Char) :
    Unnested (front ++ s) (front' ++ t) :=
  ((apart.append_right front').symm.append_right front).symm

/-- Texts that end in the same are compared by what stands before it. -/
theorem Unnested.before {s t : List Char} (apart : Unnested s t) (rest : List Char) : Unnested (s ++ rest) (t ++ rest) :=
  ⟨fun nested => apart.1 (List.suffix_append_self_iff.mp nested), fun nested => apart.2 (List.suffix_append_self_iff.mp nested)⟩

theorem unnested_of_pairwise {α : Type} {text : α → List Char} {l : List α}
    (apart : l.Pairwise fun a b => Unnested (text a) (text b)) {a b : α} (known : a ∈ l) (known' : b ∈ l) (other : a ≠ b) :
    Unnested (text a) (text b) := by
  have : Std.Symm fun a b => Unnested (text a) (text b) := ⟨fun _ _ => .symm⟩
  exact apart.forall known known' other

/-- A context that ends in no other one imposes what it says, whatever stands before it. -/
theorem closed_of_pairwise (apart : contexts.Pairwise fun c d => Unnested c.1 d.1) {c : List Char × P} (known : c ∈ contexts) :
    Closed contexts c.1 ∧ imposed contexts c.1 = some c.2 := by
  have same {d : List Char × P} (member : d ∈ contexts) (nested : c.1 <:+ d.1 ∨ d.1 <:+ c.1) : d = c := by
    by_contra other
    have between : Unnested d.1 c.1 := unnested_of_pairwise apart member known other
    exact nested.elim between.2 between.1
  constructor
  · intro d member ends
    rw [same member (.inl ends)]
  · unfold imposed
    cases found : contexts.find? fun d => d.1 <:+ c.1 with
    | none => exact absurd (List.suffix_refl c.1) (by simpa using List.find?_eq_none.mp found c known)
    | some d =>
      have ends := List.find?_some found
      rw [same (List.mem_of_find?_eq_some found) (.inr (of_decide_eq_true ends))]
      rfl

theorem Fills.text (s : List Char) (n : Nat) : Fills (V := V) contexts [.text s] n [] where
  placed _ _ member := by cases member
  used _ _ less := absurd less (Nat.not_lt_zero _)

theorem Fills.append {t u : Template} {n : Nat} {bound later : List (P × V)} (fills : Fills contexts t n bound)
    (fills' : Fills contexts u (n + bound.length) later) : Fills contexts (t ++ u) n (bound ++ later) where
  placed front p member := by
    rw [Template.places_append, List.mem_append] at member
    rcases member with inside | inside
    · obtain ⟨i, b, number, here, imposes⟩ := fills.placed _ p inside
      have less : i < bound.length := (List.getElem?_eq_some_iff.mp here).1
      exact ⟨i, b, number, by rw [List.getElem?_append_left less, here], imposes⟩
    · obtain ⟨i, b, number, here, imposes⟩ := fills'.placed _ p inside
      refine ⟨bound.length + i, b, by omega, ?_, imposes⟩
      rw [List.getElem?_append_right (Nat.le_add_right _ _), Nat.add_sub_cancel_left, here]
  used front i less := by
    rw [Template.places_append]
    rw [List.length_append] at less
    by_cases inside : i < bound.length
    · obtain ⟨before, member⟩ := fills.used front i inside
      exact ⟨before, List.mem_append_left _ member⟩
    · obtain ⟨before, member⟩ := fills'.used (front ++ t.render) (i - bound.length) (by omega)
      have number : n + bound.length + (i - bound.length) + 1 = n + i + 1 := by omega
      rw [number] at member
      exact ⟨before, List.mem_append_right _ member⟩

/-- The text of a template admits its values when each of them belongs to its place. -/
theorem admitted_iff {Domain : P → V → Prop} {t : Template} {bound : List (P × V)} (sound : Sound t)
    (fills : Fills contexts t 0 bound) :
    Admitted contexts Domain t.render (bound.map (·.2)) ↔ ∀ b ∈ bound, Domain b.1 b.2 := by
  have places (before : List Char) (n : Nat) : (before, n) ∈ t.places [] ↔ Occurs t.render before n := by
    rw [mem_places sound]
    exact ⟨fun ⟨_, same, occurs⟩ => same ▸ occurs, fun occurs => ⟨before, rfl, occurs⟩⟩
  constructor
  · intro admitted b member
    obtain ⟨i, less, here⟩ := List.getElem_of_mem member
    obtain ⟨before, place⟩ := fills.used [] i less
    obtain ⟨j, b', number, there, imposes⟩ := fills.placed [] _ place
    obtain ⟨p, v, imposes', -, given, holds⟩ := admitted before _ ((places _ _).mp place)
    have same : j = i := by
      simp only at number
      omega
    subst same
    rw [List.getElem?_eq_getElem less, here] at there
    cases there
    have index : 0 + j + 1 - 1 = j := by omega
    rw [index, List.getElem?_map, List.getElem?_eq_getElem less, here] at given
    cases given
    cases imposes.symm.trans imposes'
    exact holds
  · intro all before n occurs
    obtain ⟨i, b, number, here, imposes⟩ := fills.placed [] _ ((places _ _).mpr occurs)
    have index : n - 1 = i := by
      simp only at number
      omega
    refine ⟨b.1, b.2, imposes, by simp only at number; omega, ?_, all b (List.mem_of_getElem? here)⟩
    rw [index, List.getElem?_map, here]
    rfl

end

end Opale.Sql
