import Mathlib.Data.List.DropRight
import Mathlib.Tactic.Common

namespace Opale.Base64

/-- The standard alphabet, the digit of value `n` at place `n`. -/
def alphabet : List Char :=
  "ABCDEFGHIJKLMNOPQRSTUVWXYZabcdefghijklmnopqrstuvwxyz0123456789+/".toList

def digit (n : Nat) : Char := alphabet.getD n 'A'

def value (c : Char) : Option Nat := alphabet.idxOf? c

theorem value_digit {n : Nat} (small : n < 64) : value (digit n) = some n := by
  have all : ∀ m < 64, value (digit m) = some m := by decide
  exact all n small

theorem digit_mem {n : Nat} (small : n < 64) : digit n ∈ alphabet := by
  refine List.isSome_idxOf?.mp ?_
  rw [show alphabet.idxOf? (digit n) = some n from value_digit small]
  rfl

/-- Neither the padding nor a line end is a digit. -/
theorem alphabet_ne : ∀ c ∈ alphabet, c ≠ '=' ∧ c ≠ '\r' ∧ c ≠ '\n' := by
  have all : alphabet.all (fun c => c ≠ '=' ∧ c ≠ '\r' ∧ c ≠ '\n') = true := by decide
  intro c member
  simpa using List.all_eq_true.mp all c member

theorem digit_ne {n : Nat} (small : n < 64) : digit n ≠ '=' ∧ digit n ≠ '\r' ∧ digit n ≠ '\n' :=
  alphabet_ne _ (digit_mem small)

/-- Three bytes become four digits; one or two bytes left over are padded with `=`. -/
def encodeChars : List UInt8 → List Char
  | [] => []
  | [a] => [digit (a.toNat / 4), digit (a.toNat % 4 * 16), '=', '=']
  | [a, b] => [digit (a.toNat / 4), digit (a.toNat % 4 * 16 + b.toNat / 16),
      digit (b.toNat % 16 * 4), '=']
  | a :: b :: c :: rest => digit (a.toNat / 4) :: digit (a.toNat % 4 * 16 + b.toNat / 16) ::
      digit (b.toNat % 16 * 4 + c.toNat / 64) :: digit (c.toNat % 64) :: encodeChars rest

theorem encodeChars_one (a : UInt8) : encodeChars [a] = [digit (a.toNat / 4), digit (a.toNat % 4 * 16), '=', '='] := rfl

theorem encodeChars_two (a b : UInt8) : encodeChars [a, b] =
    [digit (a.toNat / 4), digit (a.toNat % 4 * 16 + b.toNat / 16), digit (b.toNat % 16 * 4), '='] := rfl

theorem encodeChars_cons (a b c : UInt8) (rest : List UInt8) : encodeChars (a :: b :: c :: rest) =
    digit (a.toNat / 4) :: digit (a.toNat % 4 * 16 + b.toNat / 16) ::
      digit (b.toNat % 16 * 4 + c.toNat / 64) :: digit (c.toNat % 64) :: encodeChars rest := rfl

/-- The bytes are taken three by three. -/
theorem bytes_induction {P : List UInt8 → Prop} (nil : P []) (one : ∀ a, P [a]) (two : ∀ a b, P [a, b])
    (three : ∀ a b c rest, P rest → P (a :: b :: c :: rest)) (bytes : List UInt8) : P bytes :=
  encodeChars.induct P nil one two three bytes

/-- The inverse reading, without the check that the unused bits of the last digit are
zero (the default of the usual decoders). -/
def decodeChars : List Char → Option (List UInt8)
  | [] => some []
  | [x, y, '=', '='] => do
      let a ← value x
      let b ← value y
      some [UInt8.ofNat (a * 4 + b / 16)]
  | [x, y, z, '='] => do
      let a ← value x
      let b ← value y
      let c ← value z
      some [UInt8.ofNat (a * 4 + b / 16), UInt8.ofNat (b % 16 * 16 + c / 4)]
  | x :: y :: z :: w :: rest => do
      let a ← value x
      let b ← value y
      let c ← value z
      let d ← value w
      let tail ← decodeChars rest
      some (UInt8.ofNat (a * 4 + b / 16) :: UInt8.ofNat (b % 16 * 16 + c / 4) ::
        UInt8.ofNat (c % 4 * 64 + d) :: tail)
  | _ => none

def encode (bytes : List UInt8) : String := String.ofList (encodeChars bytes)

/-- Line ends inside the text are skipped. -/
def decode (text : String) : Option (List UInt8) :=
  decodeChars (text.toList.filter fun c => c ≠ '\r' ∧ c ≠ '\n')

theorem byte_eq {a : UInt8} {n : Nat} (same : n = a.toNat) : UInt8.ofNat n = a := by
  rw [same, UInt8.ofNat_toNat]

theorem decodeChars_encodeChars (bytes : List UInt8) :
    decodeChars (encodeChars bytes) = some bytes := by
  induction bytes using bytes_induction with
  | nil => rfl
  | one a =>
    have ha := a.toNat_lt
    have first : a.toNat / 4 < 64 := by omega
    have second : a.toNat % 4 * 16 < 64 := by omega
    simp only [encodeChars_one, decodeChars, value_digit first, value_digit second, Option.bind_eq_bind,
      Option.bind_some]
    rw [byte_eq (by omega : a.toNat / 4 * 4 + a.toNat % 4 * 16 / 16 = a.toNat)]
  | two a b =>
    have ha := a.toNat_lt
    have hb := b.toNat_lt
    have first : a.toNat / 4 < 64 := by omega
    have second : a.toNat % 4 * 16 + b.toNat / 16 < 64 := by omega
    have third : b.toNat % 16 * 4 < 64 := by omega
    have notPad := (digit_ne third).1
    simp only [encodeChars_two]
    rw [decodeChars]
    · simp only [value_digit first, value_digit second, value_digit third, Option.bind_eq_bind,
        Option.bind_some]
      rw [byte_eq (by omega : _ = a.toNat), byte_eq (by omega : _ = b.toNat)]
    · exact notPad
  | three a b c rest ih =>
    have ha := a.toNat_lt
    have hb := b.toNat_lt
    have hc := c.toNat_lt
    have first : a.toNat / 4 < 64 := by omega
    have second : a.toNat % 4 * 16 + b.toNat / 16 < 64 := by omega
    have third : b.toNat % 16 * 4 + c.toNat / 64 < 64 := by omega
    have fourth : c.toNat % 64 < 64 := by omega
    have notPad := (digit_ne fourth).1
    simp only [encodeChars_cons]
    rw [decodeChars]
    · simp only [value_digit first, value_digit second, value_digit third, value_digit fourth, ih,
        Option.bind_eq_bind, Option.bind_some]
      rw [byte_eq (by omega : _ = a.toNat), byte_eq (by omega : _ = b.toNat),
        byte_eq (by omega : _ = c.toNat)]
    · intro _ pad
      exact absurd pad notPad
    · intro pad
      exact absurd pad notPad

theorem encodeChars_no_line_end (bytes : List UInt8) :
    ∀ c ∈ encodeChars bytes, c ≠ '\r' ∧ c ≠ '\n' := by
  have pad : '=' ≠ '\r' ∧ '=' ≠ '\n' := by decide
  induction bytes using bytes_induction with
  | nil => exact nofun
  | one a =>
    have ha := a.toNat_lt
    simp only [encodeChars_one, List.forall_mem_cons]
    exact ⟨(digit_ne (by omega)).2, (digit_ne (by omega)).2, pad, pad, by simp⟩
  | two a b =>
    have ha := a.toNat_lt
    have hb := b.toNat_lt
    simp only [encodeChars_two, List.forall_mem_cons]
    exact ⟨(digit_ne (by omega)).2, (digit_ne (by omega)).2, (digit_ne (by omega)).2, pad, by simp⟩
  | three a b c rest ih =>
    have ha := a.toNat_lt
    have hb := b.toNat_lt
    have hc := c.toNat_lt
    simp only [encodeChars_cons, List.forall_mem_cons]
    exact ⟨(digit_ne (by omega)).2, (digit_ne (by omega)).2, (digit_ne (by omega)).2,
      (digit_ne (by omega)).2, ih⟩

/-- What was encoded is read back unchanged. -/
theorem decode_encode (bytes : List UInt8) : decode (encode bytes) = some bytes := by
  have keep : (encodeChars bytes).filter (fun c => c ≠ '\r' ∧ c ≠ '\n') = encodeChars bytes := by
    rw [List.filter_eq_self]
    intro c member
    simpa using encodeChars_no_line_end bytes c member
  rw [decode, encode, String.toList_ofList, keep, decodeChars_encodeChars]

theorem length_encodeChars (bytes : List UInt8) : (encodeChars bytes).length = (bytes.length + 2) / 3 * 4 := by
  induction bytes using bytes_induction with
  | nil => rfl
  | one a => simp [encodeChars_one]
  | two a b => simp [encodeChars_two]
  | three a b c rest ih =>
    simp only [encodeChars_cons, List.length_cons, ih]
    omega

/-- The text without the padding at its end. -/
def unpad (text : List Char) : List Char := text.rdropWhile (· = '=')

theorem pad_not_mem : '=' ∉ alphabet := fun pad => (alphabet_ne _ pad).1 rfl

/-- Only the padding at the end is outside the alphabet. -/
theorem encodeChars_body (bytes : List UInt8) :
    ∃ body, encodeChars bytes = body ++ List.replicate ((3 - bytes.length % 3) % 3) '=' ∧
      (∀ c ∈ body, c ∈ alphabet) ∧ (bytes ≠ [] → body ≠ []) := by
  induction bytes using bytes_induction with
  | nil => exact ⟨[], rfl, nofun, fun nonempty => absurd rfl nonempty⟩
  | one a =>
    have ha := a.toNat_lt
    refine ⟨[digit (a.toNat / 4), digit (a.toNat % 4 * 16)], rfl, ?_, fun _ => List.cons_ne_nil _ _⟩
    simp only [List.forall_mem_cons]
    exact ⟨digit_mem (by omega), digit_mem (by omega), nofun⟩
  | two a b =>
    have ha := a.toNat_lt
    have hb := b.toNat_lt
    refine ⟨[digit (a.toNat / 4), digit (a.toNat % 4 * 16 + b.toNat / 16), digit (b.toNat % 16 * 4)], rfl, ?_,
      fun _ => List.cons_ne_nil _ _⟩
    simp only [List.forall_mem_cons]
    exact ⟨digit_mem (by omega), digit_mem (by omega), digit_mem (by omega), nofun⟩
  | three a b c rest ih =>
    have ha := a.toNat_lt
    have hb := b.toNat_lt
    have hc := c.toNat_lt
    obtain ⟨body, split, inside, -⟩ := ih
    refine ⟨digit (a.toNat / 4) :: digit (a.toNat % 4 * 16 + b.toNat / 16) ::
      digit (b.toNat % 16 * 4 + c.toNat / 64) :: digit (c.toNat % 64) :: body, ?_, ?_, fun _ => List.cons_ne_nil _ _⟩
    · have same : (a :: b :: c :: rest).length % 3 = rest.length % 3 := by
        simp only [List.length_cons]
        omega
      rw [encodeChars_cons, split, same]
      rfl
    · simp only [List.forall_mem_cons]
      exact ⟨digit_mem (by omega), digit_mem (by omega), digit_mem (by omega), digit_mem (by omega), inside⟩

theorem unpad_append {body : List Char} (inside : ∀ c ∈ body, c ∈ alphabet) (n : Nat) :
    unpad (body ++ List.replicate n '=') = body := by
  induction n with
  | zero =>
    rw [List.replicate_zero, List.append_nil, unpad, List.rdropWhile_eq_self_iff]
    intro nonempty last
    have digit := inside _ (List.getLast_mem nonempty)
    rw [of_decide_eq_true last] at digit
    exact pad_not_mem digit
  | succ n ih =>
    rw [List.replicate_succ', ← List.append_assoc, unpad, List.rdropWhile_concat_pos]
    · exact ih
    · rfl

theorem unpad_encodeChars (bytes : List UInt8) :
    (∀ c ∈ unpad (encodeChars bytes), c ∈ alphabet) ∧ (bytes ≠ [] → unpad (encodeChars bytes) ≠ []) := by
  obtain ⟨body, split, inside, nonempty⟩ := encodeChars_body bytes
  rw [split, unpad_append inside]
  exact ⟨inside, nonempty⟩

/-- The padding says nothing that the length does not say. -/
theorem unpad_inj {a b : List UInt8} (length : a.length = b.length)
    (same : unpad (encodeChars a) = unpad (encodeChars b)) : a = b := by
  obtain ⟨body, split, inside, -⟩ := encodeChars_body a
  obtain ⟨body', split', inside', -⟩ := encodeChars_body b
  rw [split, split', unpad_append inside, unpad_append inside'] at same
  have encoded : encodeChars a = encodeChars b := by
    rw [split, split', same, length]
  have decoded := decodeChars_encodeChars a
  rw [encoded, decodeChars_encodeChars] at decoded
  exact (Option.some.inj decoded).symm

end Opale.Base64
