import Opale.Js.Number

namespace Opale.Js

/-- `k` digits that read back as the number, the nearest first, and the place of their point. -/
def readBack (v : ℚ) (k : Nat) : Option (Nat × Int) :=
  let n := Int.log 10 v + 1
  let unit : ℚ := (10 : ℚ) ^ (n - k)
  let near := roundHalfEven (v / unit)
  let other := if (near : ℚ) ≤ v / unit then near + 1 else near - 1
  let place (digits : Nat) : Nat × Int := if digits = 10 ^ k then (1, n + 1) else (digits, n)
  if toDouble (near * unit) = (v : JsNumber) then some (place near.toNat)
  else if toDouble (other * unit) = (v : JsNumber) then some (place other.toNat)
  else none

/-- The digits laid out around their point, with zeros or an exponent. -/
def layOut (digits : List Char) (n : Int) : List Char :=
  let k := digits.length
  if (k : Int) ≤ n ∧ n ≤ 21 then digits ++ List.replicate (n.toNat - k) '0'
  else if 0 < n ∧ n ≤ 21 then digits.take n.toNat ++ '.' :: digits.drop n.toNat
  else if -6 < n ∧ n ≤ 0 then '0' :: '.' :: (List.replicate (-n).toNat '0' ++ digits)
  else
    let exponent := 'e' :: (if 0 < n then '+' else '-') :: Nat.toDigits 10 (n - 1).natAbs
    match digits with
    | [d] => d :: exponent
    | digits => digits.take 1 ++ '.' :: digits.drop 1 ++ exponent

def positiveText (v : ℚ) : List Char :=
  match (List.range 17).findSome? fun i => readBack v (i + 1) with
  | some (digits, n) => layOut (Nat.toDigits 10 digits) n
  | none => []

/-- `String(n)`; none is NaN. -/
def numberText : Option JsNumber → List Char
  | none => "NaN".toList
  | some ⊤ => "Infinity".toList
  | some ⊥ => "-Infinity".toList
  | some (some (some q)) => if q = 0 then ['0'] else if q < 0 then '-' :: positiveText (-q) else positiveText q

section

variable {c : Char}

theorem plain_toDigits {n : Nat} (member : c ∈ Nat.toDigits 10 n) : c ≠ '$' := by
  have digit := Nat.isDigit_of_mem_toDigits (by decide) (by decide) member
  intro same
  rw [same] at digit
  exact absurd digit (by decide)

theorem plain_layOut {digits : List Char} (plain : ∀ c ∈ digits, c ≠ '$') {n : Int} (member : c ∈ layOut digits n) :
    c ≠ '$' := by
  have taken {k : Nat} (inside : c ∈ digits.take k) : c ≠ '$' := plain c (List.mem_of_mem_take inside)
  have dropped {k : Nat} (inside : c ∈ digits.drop k) : c ≠ '$' := plain c (List.mem_of_mem_drop inside)
  have zero {k : Nat} (inside : c ∈ List.replicate k '0') : c ≠ '$' := by
    rw [List.eq_of_mem_replicate inside]
    decide
  have exponent {sign : Char} (signed : sign ≠ '$') (inside : c ∈ 'e' :: sign :: Nat.toDigits 10 (n - 1).natAbs) :
      c ≠ '$' := by
    simp only [List.mem_cons] at inside
    rcases inside with rfl | rfl | inside
    · decide
    · exact signed
    · exact plain_toDigits inside
  simp only [layOut] at member
  split_ifs at member
  · rcases List.mem_append.mp member with inside | inside
    · exact plain c inside
    · exact zero inside
  · simp only [List.mem_append, List.mem_cons] at member
    rcases member with inside | rfl | inside
    · exact taken inside
    · decide
    · exact dropped inside
  · simp only [List.mem_cons, List.mem_append] at member
    rcases member with rfl | rfl | inside | inside
    · decide
    · decide
    · exact zero inside
    · exact plain c inside
  all_goals
    split at member
    · rcases List.mem_cons.mp member with rfl | inside
      · exact plain c List.mem_cons_self
      · exact exponent (by decide) inside
    · rcases List.mem_append.mp member with before | inside
      · rcases List.mem_append.mp before with inside | inside
        · exact taken inside
        · rcases List.mem_cons.mp inside with rfl | later
          · decide
          · exact dropped later
      · exact exponent (by decide) inside

theorem plain_positiveText {v : ℚ} (member : c ∈ positiveText v) : c ≠ '$' := by
  unfold positiveText at member
  split at member
  · exact plain_layOut (fun d inside => plain_toDigits inside) member
  · exact absurd member List.not_mem_nil

/-- The text of a number has no dollar. -/
theorem plain_numberText (n : Option JsNumber) : '$' ∉ numberText n := by
  intro member
  unfold numberText at member
  split at member
  · exact absurd member (by decide)
  · exact absurd member (by decide)
  · exact absurd member (by decide)
  · split_ifs at member
    · exact absurd member (by decide)
    · rcases List.mem_cons.mp member with sign | inside
      · exact absurd sign (by decide)
      · exact plain_positiveText inside rfl
    · exact plain_positiveText member rfl

end

end Opale.Js
