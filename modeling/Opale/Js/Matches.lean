import Opale.Js.Number

namespace Opale.Js

/-- A regular expression with one way to match: what it captures at the start of a text, and the rest. -/
structure Matcher (α β : Type) where
  run : List α → Option (β × List α)
  shorter : ∀ {s rest : List α} {b : β}, run s = some (b, rest) → rest.length < s.length

namespace Matcher

variable {α β : Type} (m : Matcher α β)

/-- `s.replace(m, '')` of every match -/
def remove : List α → List α
  | [] => []
  | c :: s =>
    match _found : m.run (c :: s) with
    | some (_, rest) => remove rest
    | none => c :: remove s
termination_by s => s.length
decreasing_by
  · exact m.shorter _found
  · exact Nat.lt_succ_self s.length

/-- What the matches capture, from left to right. -/
def captures : List α → List β
  | [] => []
  | c :: s =>
    match _found : m.run (c :: s) with
    | some (b, rest) => b :: captures rest
    | none => captures s
termination_by s => s.length
decreasing_by
  · exact m.shorter _found
  · exact Nat.lt_succ_self s.length

theorem run_nil : m.run [] = none := by
  cases found : m.run [] with
  | none => rfl
  | some given =>
    obtain ⟨b, rest⟩ := given
    exact absurd (m.shorter found) (Nat.not_lt_zero _)

variable {m}

theorem remove_cons_of_none {c : α} {s : List α} (none_ : m.run (c :: s) = none) :
    m.remove (c :: s) = c :: m.remove s := by
  rw [remove]
  split
  next found =>
    rw [none_] at found
    cases found
  next => rfl

theorem captures_cons_of_none {c : α} {s : List α} (none_ : m.run (c :: s) = none) :
    m.captures (c :: s) = m.captures s := by
  rw [captures]
  split
  next found =>
    rw [none_] at found
    cases found
  next => rfl

theorem remove_of_run {s rest : List α} {b : β} (found : m.run s = some (b, rest)) : m.remove s = m.remove rest := by
  cases s with
  | nil =>
    rw [m.run_nil] at found
    cases found
  | cons c s =>
    rw [remove]
    split
    next found₁ =>
      rw [found] at found₁
      cases found₁
      rfl
    next none_ =>
      rw [found] at none_
      cases none_

theorem captures_of_run {s rest : List α} {b : β} (found : m.run s = some (b, rest)) :
    m.captures s = b :: m.captures rest := by
  cases s with
  | nil =>
    rw [m.run_nil] at found
    cases found
  | cons c s =>
    rw [captures]
    split
    next found₁ =>
      rw [found] at found₁
      cases found₁
      rfl
    next none_ =>
      rw [found] at none_
      cases none_

/-- What holds of a match wherever it is. -/
theorem forall_captures {p : β → Prop} (each : ∀ s b rest, m.run s = some (b, rest) → p b) {s : List α} :
    ∀ b ∈ m.captures s, p b := by
  induction n : s.length using Nat.strong_induction_on generalizing s with
  | _ n ih =>
    cases s with
    | nil =>
      rw [captures]
      simp
    | cons c s =>
      cases found : m.run (c :: s) with
      | none =>
        rw [captures_cons_of_none found]
        exact ih s.length (by rw [← n]; exact Nat.lt_succ_self _) rfl
      | some given =>
        obtain ⟨b, rest⟩ := given
        rw [captures_of_run found]
        exact List.forall_mem_cons.mpr ⟨each _ _ _ found, ih rest.length (by rw [← n]; exact m.shorter found) rfl⟩

/-- Where there is nothing to remove. -/
theorem remove_eq_self {s : List α} (none_ : m.captures s = []) : m.remove s = s := by
  induction s with
  | nil => rw [remove]
  | cons c s ih =>
    cases found : m.run (c :: s) with
    | none =>
      rw [captures_cons_of_none found] at none_
      rw [remove_cons_of_none found, ih none_]
    | some given =>
      obtain ⟨b, rest⟩ := given
      rw [captures_of_run found] at none_
      cases none_

/-- Two expressions that match at the same places. -/
theorem captures_eq_nil_iff {γ : Type} {m₁ : Matcher α γ} (same : ∀ s, m.run s = none ↔ m₁.run s = none) (s : List α) :
    m.captures s = [] ↔ m₁.captures s = [] := by
  induction s with
  | nil => rw [captures, captures]; simp
  | cons c s ih =>
    cases found : m.run (c :: s) with
    | none => rw [captures_cons_of_none found, captures_cons_of_none ((same _).mp found), ih]
    | some given =>
      obtain ⟨b, rest⟩ := given
      rw [captures_of_run found]
      cases found₁ : m₁.run (c :: s) with
      | none =>
        rw [(same _).mpr found₁] at found
        cases found
      | some given₁ =>
        obtain ⟨b₁, rest₁⟩ := given₁
        rw [captures_of_run found₁]
        simp

section

variable {first : α} (starts : ∀ {s rest : List α} {b : β}, m.run s = some (b, rest) → s.head? = some first)

include starts

theorem run_of_ne {c : α} {s : List α} (other : c ≠ first) : m.run (c :: s) = none := by
  cases found : m.run (c :: s) with
  | none => rfl
  | some given =>
    obtain ⟨b, rest⟩ := given
    exact absurd (Option.some.inj (starts found)) other

/-- No match starts before the first character of the expression. -/
theorem remove_append {p s : List α} (plain : first ∉ p) : m.remove (p ++ s) = p ++ m.remove s := by
  induction p with
  | nil => rfl
  | cons c p ih =>
    rw [List.mem_cons, not_or] at plain
    have none_ := run_of_ne starts (s := p ++ s) (Ne.symm plain.1)
    rw [List.cons_append, remove_cons_of_none none_, ih plain.2, List.cons_append]

theorem captures_append {p s : List α} (plain : first ∉ p) : m.captures (p ++ s) = m.captures s := by
  induction p with
  | nil => rfl
  | cons c p ih =>
    rw [List.mem_cons, not_or] at plain
    have none_ := run_of_ne starts (s := p ++ s) (Ne.symm plain.1)
    rw [List.cons_append, captures_cons_of_none none_, ih plain.2]

end

end Matcher

/-- A letter of ASCII, whichever its case. -/
def isLetter (letter u : UInt16) : Bool := u = letter || u + 32 = letter

theorem trimUnits_space {s : Units} (some_ : s ≠ []) (starts : ∀ u ∈ s.head?, isSpace u = false)
    (ends : ∀ u ∈ s.getLast?, isSpace u = false) : trimUnits (s ++ [32]) = s := by
  have self := trimUnits_self starts ends
  have kept : ∀ t : Units, (s ++ t).dropWhile isSpace = s ++ t := by
    intro t
    cases s with
    | nil => exact absurd rfl some_
    | cons u s =>
      rw [List.cons_append, List.dropWhile_cons_of_neg]
      simpa using starts u rfl
  have plain := kept []
  rw [List.append_nil] at plain
  rw [trimUnits, plain] at self
  rw [trimUnits, kept, List.rdropWhile_concat_pos _ _ _ (by decide), self]

end Opale.Js
