import Opale.Js.Spaces
import Opale.Js.Values
import Mathlib.Data.Int.Log
import Mathlib.Data.Rat.Floor
import Mathlib.Tactic.Positivity
import Mathlib.Tactic.NormNum

namespace Opale.Js

/-- The nearest integer; halfway between two, the even one. -/
def roundHalfEven (q : ℚ) : Int :=
  if Int.fract q < 1 / 2 then ⌊q⌋
  else if 1 / 2 < Int.fract q then ⌊q⌋ + 1
  else if ⌊q⌋ % 2 = 0 then ⌊q⌋ else ⌊q⌋ + 1

/-- The exponent of the last bit of a double. -/
def lastBit (q : ℚ) : Int := max (Int.log 2 |q| - 52) (-1074)

/-- The double nearest to a number. -/
def toDouble (q : ℚ) : JsNumber :=
  let value : ℚ := roundHalfEven (q / (2 : ℚ) ^ lastBit q) * (2 : ℚ) ^ lastBit q
  if 2 ^ 1024 ≤ value then ⊤ else if value ≤ -2 ^ 1024 then ⊥ else (value : JsNumber)

def digitValue (c : Char) : Nat := c.toNat - 48

def isDigit (c : Char) : Bool := 48 ≤ c.toNat && c.toNat ≤ 57

def leadingDigits (s : List Char) : List Char := s.takeWhile isDigit

def afterDigits (s : List Char) : List Char := s.dropWhile isDigit

def digitsValue (s : List Char) : Nat := s.foldl (fun n c => n * 10 + digitValue c) 0

/-- The digits of an integer literal in another base than ten. -/
def radixDigit (radix : Nat) (c : Char) : Option Nat :=
  let value := if isDigit c then digitValue c
    else if 97 ≤ c.toNat && c.toNat ≤ 102 then c.toNat - 87
    else if 65 ≤ c.toNat && c.toNat ≤ 70 then c.toNat - 55
    else radix
  if value < radix then some value else none

def nonDecimal (radix : Nat) (s : List Char) : Option ℚ :=
  if s.isEmpty then none else (s.mapM (radixDigit radix)).map fun digits => (digits.foldl (fun n d => n * radix + d) 0 : Nat)

/-- `e`, a sign, digits; an exponent of 0 when there is nothing. -/
def exponentPart : List Char → Option Int
  | [] => some 0
  | e :: rest =>
    if e = 'e' || e = 'E' then
      let (negative, digits) := match rest with
        | '-' :: digits => (true, digits)
        | '+' :: digits => (false, digits)
        | digits => (false, digits)
      if digits.isEmpty || !digits.all isDigit then none
      else some (if negative then -(digitsValue digits : Int) else digitsValue digits)
    else none

def unsignedDecimal (s : List Char) : Option JsNumber :=
  if s = "Infinity".toList then some ⊤
  else
    let whole := leadingDigits s
    let (fraction, rest) := match afterDigits s with
      | '.' :: rest => (leadingDigits rest, afterDigits rest)
      | rest => ([], rest)
    if whole.isEmpty && fraction.isEmpty then none
    else (exponentPart rest).map fun exponent =>
      toDouble ((digitsValue (whole ++ fraction) : ℚ) * (10 : ℚ) ^ (exponent - (fraction.length : Int)))

def negate : JsNumber → JsNumber
  | ⊥ => ⊤
  | ⊤ => ⊥
  | some (some q) => ((-q : ℚ) : JsNumber)

/-- `Number(s)`; none for NaN. -/
def number (s : List Char) : Option JsNumber :=
  match trim s with
  | [] => some (0 : ℚ)
  | '0' :: 'x' :: rest | '0' :: 'X' :: rest => (nonDecimal 16 rest).map toDouble
  | '0' :: 'o' :: rest | '0' :: 'O' :: rest => (nonDecimal 8 rest).map toDouble
  | '0' :: 'b' :: rest | '0' :: 'B' :: rest => (nonDecimal 2 rest).map toDouble
  | '-' :: rest => (unsignedDecimal rest).map negate
  | '+' :: rest => unsignedDecimal rest
  | text => unsignedDecimal text

/-- `parseInt(s, 10)`; none for NaN. -/
def parseInt (s : List Char) : Option JsNumber :=
  let (negative, text) := match s.dropWhile isSpaceChar with
    | '-' :: rest => (true, rest)
    | '+' :: rest => (false, rest)
    | text => (false, text)
  let digits := leadingDigits text
  if digits.isEmpty then none
  else some (if negative then negate (toDouble (digitsValue digits)) else toDouble (digitsValue digits))

/-- `v || 0` -/
def orZero (v : Option JsNumber) : JsNumber := v.getD (0 : ℚ)

theorem roundHalfEven_int (m : Int) : roundHalfEven m = m := by
  have whole : Int.fract (m : ℚ) = 0 := Int.fract_intCast m
  unfold roundHalfEven
  rw [whole, if_pos (by norm_num), Int.floor_intCast]

/-- A number below 2^53 has no bits to lose. -/
theorem lastBit_nonpos {n : Nat} (small : n < 2 ^ 53) : lastBit n ≤ 0 := by
  refine max_le ?_ (by norm_num)
  have bound : Int.log 2 |(n : ℚ)| < 53 := by
    rcases Nat.eq_zero_or_pos n with zero | positive
    · rw [zero, Nat.cast_zero, abs_zero, Int.log_zero_right]
      norm_num
    · have above : (0 : ℚ) < |(n : ℚ)| := abs_pos.mpr (by positivity)
      rw [← Int.lt_zpow_iff_log_lt (by norm_num) above, abs_of_nonneg (Nat.cast_nonneg n)]
      exact_mod_cast small
  omega

theorem toDouble_natCast {n : Nat} (small : n < 2 ^ 53) : toDouble n = ((n : ℚ) : JsNumber) := by
  obtain ⟨k, exponent⟩ := Int.eq_ofNat_of_zero_le (Int.neg_nonneg.mpr (lastBit_nonpos small))
  have power : (2 : ℚ) ^ lastBit n = ((2 : ℚ) ^ k)⁻¹ := by
    rw [← zpow_natCast, ← zpow_neg, ← exponent, neg_neg]
  have value : (roundHalfEven ((n : ℚ) / (2 : ℚ) ^ lastBit n) : ℚ) * (2 : ℚ) ^ lastBit n = n := by
    have whole : (n : ℚ) / (2 : ℚ) ^ lastBit n = ((n * 2 ^ k : Int) : ℚ) := by
      rw [power]
      push_cast
      rw [div_inv_eq_mul]
    rw [whole, roundHalfEven_int, power]
    push_cast
    rw [mul_inv_cancel_right₀ (by positivity)]
  have bounded : (n : ℚ) < 2 ^ 53 := by exact_mod_cast small
  have positive : (0 : ℚ) ≤ n := Nat.cast_nonneg n
  unfold toDouble
  dsimp only
  have large : (2 : ℚ) ^ 53 < 2 ^ 1024 := pow_lt_pow_right₀ (by norm_num) (by norm_num)
  have below : -(2 : ℚ) ^ 1024 < 0 := neg_lt_zero.mpr (pow_pos (by norm_num) 1024)
  rw [value, if_neg (bounded.trans large).not_ge, if_neg (below.trans_le positive).not_ge]

def isSpace (u : UInt16) : Bool := isSpaceChar (scalar u)

/-- `s.trim()` -/
def trimUnits (s : Units) : Units := (s.dropWhile isSpace).rdropWhile isSpace

/-- Texts that start and end without a space. -/
theorem trimUnits_self {s : Units} (starts : ∀ u ∈ s.head?, isSpace u = false) (ends : ∀ u ∈ s.getLast?, isSpace u = false) :
    trimUnits s = s := by
  have kept : s.dropWhile isSpace = s := by
    cases s with
    | nil => rfl
    | cons u s =>
      rw [List.dropWhile_cons_of_neg]
      simpa using starts u rfl
  rw [trimUnits, kept, List.rdropWhile_eq_self_iff]
  intro nonempty
  have last := ends _ (List.getLast?_eq_some_getLast nonempty)
  simp [last]

theorem head_trimUnits {s : Units} : ∀ u ∈ (trimUnits s).head?, isSpace u = false := by
  intro u first
  have start : (s.dropWhile isSpace).head? = some u := by
    obtain ⟨rest, whole⟩ := List.rdropWhile_prefix isSpace (s.dropWhile isSpace)
    rw [← whole]
    exact List.mem_head?_append_of_mem_head? first
  have kept := List.head?_dropWhile_not isSpace s
  rw [start] at kept
  exact kept

theorem last_trimUnits {s : Units} : ∀ u ∈ (trimUnits s).getLast?, isSpace u = false := by
  intro u last
  have nonempty : trimUnits s ≠ [] := by
    intro empty
    rw [empty] at last
    cases last
  have kept := List.rdropWhile_last_not isSpace (s.dropWhile isSpace) nonempty
  rw [List.getLast?_eq_some_getLast nonempty] at last
  cases last
  exact Bool.eq_false_of_not_eq_true kept

end Opale.Js
