import Mathlib.Algebra.GroupWithZero.Nat
import Mathlib.Tactic.Common

namespace Opale.Codec

/-- What a decoder holds of a character whose last bytes are still to come, and between what the next one stands. -/
structure Partial where
  needed : Nat
  low : Nat
  high : Nat
  code : Nat

def REPLACEMENT : Char := Char.ofNat 0xFFFD

def utf8 (s : List Char) : List UInt8 := s.flatMap String.utf8EncodeChar

def byteLength (s : List Char) : Nat := (s.map Char.utf8Size).sum

/-- The first byte of a character of several bytes. -/
def lead (b : Nat) : Option Partial :=
  if 0xC2 ≤ b ∧ b ≤ 0xDF then some ⟨1, 0x80, 0xBF, b % 0x20⟩
  else if 0xE0 ≤ b ∧ b ≤ 0xEF then
    some ⟨2, if b = 0xE0 then 0xA0 else 0x80, if b = 0xED then 0x9F else 0xBF, b % 0x10⟩
  else if 0xF0 ≤ b ∧ b ≤ 0xF4 then
    some ⟨3, if b = 0xF0 then 0x90 else 0x80, if b = 0xF4 then 0x8F else 0xBF, b % 8⟩
  else none

def enter (b : Nat) : List Char × Option Partial :=
  if b < 0x80 then ([Char.ofNat b], none)
  else match lead b with
    | some p => ([], some p)
    | none => ([REPLACEMENT], none)

/-- A byte of the lossy decoder; one that cannot go on with a character is read again as a first one. -/
def step : Option Partial → Nat → List Char × Option Partial
  | none, b => enter b
  | some p, b =>
    if p.low ≤ b ∧ b ≤ p.high then
      if p.needed = 1 then ([Char.ofNat (p.code * 0x40 + b % 0x40)], none)
      else ([], some ⟨p.needed - 1, 0x80, 0xBF, p.code * 0x40 + b % 0x40⟩)
    else (REPLACEMENT :: (enter b).1, (enter b).2)

def decodeFrom : Option Partial → List UInt8 → List Char
  | none, [] => []
  | some _, [] => [REPLACEMENT]
  | p, b :: rest => (step p b.toNat).1 ++ decodeFrom (step p b.toNat).2 rest

/-- The text of any bytes, U+FFFD for what is not UTF-8. -/
def decode (bytes : List UInt8) : List Char := decodeFrom none bytes

/-- The bytes of a code point after its first one. -/
def following (v : Nat) : Nat → List UInt8
  | 0 => []
  | n + 1 => UInt8.ofNat (v / 0x40 ^ n % 0x40 + 0x80) :: following v n

variable {c : Char} {s t : List Char} {rest : List UInt8} {p : Partial} {b n v : Nat}

theorem decodeFrom_cons (p : Option Partial) (b : UInt8) (rest : List UInt8) :
    decodeFrom p (b :: rest) = (step p b.toNat).1 ++ decodeFrom (step p b.toNat).2 rest := by
  cases p <;> rfl

theorem step_none (b : Nat) : step none b = enter b := rfl

theorem step_some (p : Partial) (b : Nat) : step (some p) b = if p.low ≤ b ∧ b ≤ p.high then
    if p.needed = 1 then ([Char.ofNat (p.code * 0x40 + b % 0x40)], none)
    else ([], some ⟨p.needed - 1, 0x80, 0xBF, p.code * 0x40 + b % 0x40⟩)
  else (REPLACEMENT :: (enter b).1, (enter b).2) := rfl

theorem following_succ (v n : Nat) :
    following v (n + 1) = UInt8.ofNat (v / 0x40 ^ n % 0x40 + 0x80) :: following v n := rfl

theorem toNat_following (v n : Nat) : (UInt8.ofNat (v / 0x40 ^ n % 0x40 + 0x80)).toNat = v / 0x40 ^ n % 0x40 + 0x80 := by
  have small : v / 0x40 ^ n % 0x40 < 0x40 := Nat.mod_lt _ (by decide)
  rw [UInt8.toNat_ofNat', Nat.mod_eq_of_lt (by omega)]

theorem length_following (v n : Nat) : (following v n).length = n := by
  induction n with
  | zero => rfl
  | succ n ih => rw [following_succ, List.length_cons, ih]

/-- What the first byte of a character of several bytes says of the others. -/
structure Leads (p : Partial) (v : Nat) : Prop where
  positive : 0 < p.needed
  code : p.code = v / 0x40 ^ p.needed
  low : p.low ≤ v / 0x40 ^ (p.needed - 1) % 0x40 + 0x80
  high : v / 0x40 ^ (p.needed - 1) % 0x40 + 0x80 ≤ p.high

theorem div_pow_succ (v n : Nat) : v / 0x40 ^ (n + 1) * 0x40 + (v / 0x40 ^ n % 0x40 + 0x80) % 0x40 = v / 0x40 ^ n := by
  have parts : v / 0x40 ^ n / 0x40 = v / 0x40 ^ (n + 1) := by
    rw [Nat.div_div_eq_div_mul, Nat.pow_succ]
  rw [← parts]
  omega

theorem Leads.next {n low high code : Nat} (leads : Leads ⟨n + 2, low, high, code⟩ v) :
    step (some ⟨n + 2, low, high, code⟩) (v / 0x40 ^ (n + 1) % 0x40 + 0x80) =
        ([], some ⟨n + 1, 0x80, 0xBF, v / 0x40 ^ (n + 1)⟩) ∧
      Leads ⟨n + 1, 0x80, 0xBF, v / 0x40 ^ (n + 1)⟩ v := by
  obtain ⟨-, code_, low_, high_⟩ := leads
  have joined := div_pow_succ v (n + 1)
  simp only at code_ low_ high_
  constructor
  · simp only [step_some, code_]
    rw [if_pos ⟨low_, high_⟩, if_neg (by omega), joined]
    rfl
  · have small : v / 0x40 ^ n % 0x40 < 0x40 := Nat.mod_lt _ (by decide)
    exact ⟨Nat.succ_pos n, rfl, by simp, by simp only [Nat.add_sub_cancel]; omega⟩

theorem Leads.last {low high code : Nat} (leads : Leads ⟨1, low, high, code⟩ v) :
    step (some ⟨1, low, high, code⟩) (v / 0x40 ^ 0 % 0x40 + 0x80) = ([Char.ofNat v], none) := by
  obtain ⟨-, code_, low_, high_⟩ := leads
  have joined := div_pow_succ v 0
  rw [Nat.zero_add, ← code_, Nat.pow_zero, Nat.div_one] at joined
  simp only at low_ high_
  rw [step_some, if_pos ⟨low_, high_⟩, if_pos rfl, Nat.pow_zero, Nat.div_one, joined]

theorem decodeFrom_following (leads : Leads p v) (rest : List UInt8) :
    decodeFrom (some p) (following v p.needed ++ rest) = Char.ofNat v :: decode rest := by
  obtain ⟨needed, low, high, code⟩ := p
  induction needed generalizing low high code with
  | zero => exact absurd leads.positive (Nat.lt_irrefl 0)
  | succ n ih =>
    simp only [following_succ, List.cons_append, decodeFrom_cons, toNat_following]
    cases n with
    | zero =>
      rw [leads.last]
      rfl
    | succ n =>
      obtain ⟨stepped, more⟩ := leads.next
      rw [stepped]
      exact ih _ _ _ more

/-- A character whose last bytes are missing is one U+FFFD. -/
theorem decodeFrom_take_following (leads : Leads p v) {k : Nat} (short : k < p.needed) :
    decodeFrom (some p) ((following v p.needed).take k) = [REPLACEMENT] := by
  obtain ⟨needed, low, high, code⟩ := p
  induction needed generalizing low high code k with
  | zero => exact absurd short (Nat.not_lt_zero k)
  | succ n ih =>
    cases k with
    | zero => rfl
    | succ k =>
      simp only [following_succ, List.take_succ_cons, decodeFrom_cons, toNat_following]
      cases n with
      | zero => exact absurd (Nat.lt_of_succ_lt_succ short) (Nat.not_lt_zero k)
      | succ n =>
        obtain ⟨stepped, more⟩ := leads.next
        rw [stepped]
        exact ih _ _ _ more (Nat.lt_of_succ_lt_succ short)

/-- A character is one byte, or a first byte and those that it announces. -/
theorem utf8EncodeChar_cases (c : Char) :
    c.toNat < 0x80 ∧ String.utf8EncodeChar c = [UInt8.ofNat c.toNat] ∨
      ∃ b p, 0x80 ≤ b ∧ b < 0x100 ∧ lead b = some p ∧ Leads p c.toNat ∧
        String.utf8EncodeChar c = UInt8.ofNat b :: following c.toNat p.needed := by
  have valid : c.toNat < 0xD800 ∨ 0xDFFF < c.toNat ∧ c.toNat < 0x110000 := c.valid
  have whole : c.val.toNat = c.toNat := rfl
  unfold String.utf8EncodeChar
  dsimp only
  rw [whole]
  generalize c.toNat = v at valid
  by_cases one : v ≤ 0x7F
  · rw [if_pos one]
    exact .inl ⟨by omega, rfl⟩
  right
  rw [if_neg one]
  by_cases two : v ≤ 0x7FF
  · rw [if_pos two]
    refine ⟨v / 64 % 0x20 + 0xC0, ⟨1, 0x80, 0xBF, v / 64⟩, by omega, by omega, ?_, ⟨Nat.one_pos, ?_, ?_, ?_⟩, ?_⟩
    · have code : (v / 64 % 0x20 + 0xC0) % 0x20 = v / 64 := by omega
      rw [lead, if_pos (by omega), code]
    · simp
    · simp
    · simp only [Nat.sub_self, Nat.pow_zero, Nat.div_one]
      omega
    · simp [following]
  rw [if_neg two]
  by_cases three : v ≤ 0xFFFF
  · rw [if_pos three]
    let b := v / 4096 % 0x10 + 0xE0
    refine ⟨b, ⟨2, if b = 0xE0 then 0xA0 else 0x80, if b = 0xED then 0x9F else 0xBF, v / 4096⟩, by omega, by omega, ?_,
      ⟨Nat.two_pos, ?_, ?_, ?_⟩, ?_⟩
    · have code : b % 0x10 = v / 4096 := by omega
      rw [lead, if_neg (by omega), if_pos (by omega), code]
    · simp
    · simp only [Nat.add_one_sub_one, Nat.pow_one]
      split <;> omega
    · simp only [Nat.add_one_sub_one, Nat.pow_one]
      split <;> omega
    · simp [following, b]
  · rw [if_neg three]
    let b := v / 262144 % 8 + 0xF0
    refine ⟨b, ⟨3, if b = 0xF0 then 0x90 else 0x80, if b = 0xF4 then 0x8F else 0xBF, v / 262144⟩, by omega, by omega, ?_,
      ⟨Nat.succ_pos 2, ?_, ?_, ?_⟩, ?_⟩
    · have code : b % 8 = v / 262144 := by omega
      rw [lead, if_neg (by omega), if_neg (by omega), if_pos (by omega), code]
    · simp
    · simp only [Nat.add_one_sub_one, Nat.reducePow]
      split <;> omega
    · simp only [Nat.add_one_sub_one, Nat.reducePow]
      split <;> omega
    · simp [following, b]

/-- A byte that goes on with a character is none by itself. -/
theorem decode_following {n : Nat} (rest : List UInt8) (k : Nat) :
    ∃ j, decode ((following v n).drop k ++ rest) = List.replicate j REPLACEMENT ++ decode rest := by
  induction n generalizing k with
  | zero => exact ⟨0, by simp [following]⟩
  | succ n ih =>
    cases k with
    | succ k => exact ih k
    | zero =>
      obtain ⟨j, later⟩ := ih 0
      refine ⟨j + 1, ?_⟩
      have small : v / 0x40 ^ n % 0x40 < 0x40 := Nat.mod_lt _ (by decide)
      have none_ : lead (v / 0x40 ^ n % 0x40 + 0x80) = none := by
        rw [lead, if_neg (by omega), if_neg (by omega), if_neg (by omega)]
      have entered : step none (v / 0x40 ^ n % 0x40 + 0x80) = ([REPLACEMENT], none) := by
        rw [step_none, enter, if_neg (by omega), none_]
      rw [List.drop_zero] at later ⊢
      simp only [following_succ, List.cons_append, decode, decodeFrom_cons, toNat_following, entered]
      exact congrArg _ later

theorem decode_utf8_cons (c : Char) (rest : List UInt8) :
    decode (String.utf8EncodeChar c ++ rest) = c :: decode rest := by
  have self : Char.ofNat c.toNat = c := Char.ofNat_toNat c
  rcases utf8EncodeChar_cases c with ⟨ascii, one⟩ | ⟨b, p, above, below, first, leads, bytes⟩
  · have byte : (UInt8.ofNat c.toNat).toNat = c.toNat := by
      rw [UInt8.toNat_ofNat', Nat.mod_eq_of_lt (by omega)]
    have entered : step none c.toNat = ([c], none) := by
      rw [step_none, enter, if_pos ascii, self]
    rw [one, List.singleton_append, decode, decodeFrom_cons, byte, entered]
    rfl
  · have byte : (UInt8.ofNat b).toNat = b := by
      rw [UInt8.toNat_ofNat', Nat.mod_eq_of_lt (by omega)]
    have entered : step none b = ([], some p) := by
      rw [step_none, enter, if_neg (by omega), first]
    rw [bytes, List.cons_append, decode, decodeFrom_cons, byte, entered]
    exact (decodeFrom_following leads rest).trans (by rw [self])

theorem decode_utf8 (s : List Char) : decode (utf8 s) = s := by
  induction s with
  | nil => rfl
  | cons c s ih => rw [utf8, List.flatMap_cons, decode_utf8_cons, ← utf8, ih]

/-- Different texts have different bytes. -/
theorem utf8_injective : Function.Injective utf8 := Function.LeftInverse.injective decode_utf8

theorem byteLength_cons (c : Char) (s : List Char) : byteLength (c :: s) = c.utf8Size + byteLength s := by
  rw [byteLength, List.map_cons, List.sum_cons]
  rfl

theorem byteLength_append (s t : List Char) : byteLength (s ++ t) = byteLength s + byteLength t := by
  rw [byteLength, List.map_append, List.sum_append]
  rfl

theorem length_utf8 (s : List Char) : (utf8 s).length = byteLength s := by
  induction s with
  | nil => rfl
  | cons c s ih =>
    rw [utf8, List.flatMap_cons, List.length_append, String.length_utf8EncodeChar, ← utf8, ih, byteLength_cons]

/-- The longest beginning of a text in a number of bytes. -/
structure LongestPrefix (room : Nat) (s p : List Char) : Prop where
  starts : p <+: s
  fits : byteLength p ≤ room
  longest : ∀ q, q <+: s → byteLength q ≤ room → q <+: p

structure LongestSuffix (room : Nat) (s p : List Char) : Prop where
  ends : p <:+ s
  fits : byteLength p ≤ room
  longest : ∀ q, q <:+ s → byteLength q ≤ room → q <:+ p

def fitting (room : Nat) : List Char → List Char
  | [] => []
  | c :: s => if c.utf8Size ≤ room then c :: fitting (room - c.utf8Size) s else []

/-- What is left of a text without a number of bytes of its beginning, and without what is left of a character there. -/
def leave : Nat → List Char → List Char
  | 0, s => s
  | _ + 1, [] => []
  | m + 1, c :: s => leave (m + 1 - c.utf8Size) s

theorem leave_zero (s : List Char) : leave 0 s = s := by
  cases s <;> rfl

theorem LongestPrefix.unique {room : Nat} {p q : List Char} (first : LongestPrefix room s p)
    (second : LongestPrefix room s q) : p = q :=
  (second.longest p first.starts first.fits).eq_of_length_le (first.longest q second.starts second.fits).length_le

theorem LongestSuffix.unique {room : Nat} {p q : List Char} (first : LongestSuffix room s p)
    (second : LongestSuffix room s q) : p = q :=
  (second.longest p first.ends first.fits).eq_of_length_le (first.longest q second.ends second.fits).length_le

theorem longestPrefix_fitting (room : Nat) (s : List Char) : LongestPrefix room s (fitting room s) := by
  induction s generalizing room with
  | nil => exact ⟨List.prefix_rfl, Nat.zero_le room, fun q starts _ => starts⟩
  | cons c s ih =>
    unfold fitting
    split
    next inside =>
      obtain ⟨starts, fits, longest⟩ := ih (room - c.utf8Size)
      refine ⟨(List.cons_prefix_cons.mpr ⟨rfl, starts⟩), ?_, fun q begins short => ?_⟩
      · rw [byteLength_cons]
        omega
      · cases q with
        | nil => exact List.nil_prefix
        | cons d q =>
          obtain ⟨rfl, later⟩ := List.cons_prefix_cons.mp begins
          rw [byteLength_cons] at short
          exact List.cons_prefix_cons.mpr ⟨rfl, longest q later (by omega)⟩
    next outside =>
      refine ⟨List.nil_prefix, Nat.zero_le room, fun q begins short => ?_⟩
      cases q with
      | nil => exact List.prefix_rfl
      | cons d q =>
        obtain ⟨rfl, -⟩ := List.cons_prefix_cons.mp begins
        rw [byteLength_cons] at short
        omega

theorem longestSuffix_leave (m : Nat) (s : List Char) : LongestSuffix (byteLength s - m) s (leave m s) := by
  induction s generalizing m with
  | nil =>
    cases m with
    | zero => exact ⟨List.suffix_rfl, Nat.zero_le _, fun q ends _ => ends⟩
    | succ m => exact ⟨List.suffix_rfl, Nat.zero_le _, fun q ends _ => ends⟩
  | cons c s ih =>
    cases m with
    | zero => exact ⟨List.suffix_rfl, Nat.le_refl _, fun q ends _ => ends⟩
    | succ m =>
      obtain ⟨ends, fits, longest⟩ := ih (m + 1 - c.utf8Size)
      have positive := c.utf8Size_pos
      refine ⟨ends.trans (List.suffix_cons c s), ?_, fun q closes short => ?_⟩
      · rw [byteLength_cons]
        unfold leave
        omega
      · rw [byteLength_cons] at short
        rcases List.suffix_cons_iff.mp closes with rfl | closes
        · rw [byteLength_cons] at short
          omega
        · refine longest q closes ?_
          have within : byteLength q ≤ byteLength s := by
            obtain ⟨r, rfl⟩ := closes
            rw [byteLength_append]
            omega
          omega

/-- The beginning of the bytes of a text: its longest beginning in them, and at most a broken character. -/
theorem decode_take (room : Nat) (s : List Char) :
    ∃ j, decode ((utf8 s).take room) = fitting room s ++ List.replicate j REPLACEMENT := by
  induction s generalizing room with
  | nil => exact ⟨0, by simp [utf8, fitting, decode, decodeFrom]⟩
  | cons c s ih =>
    have whole : utf8 (c :: s) = String.utf8EncodeChar c ++ utf8 s := rfl
    have size := String.length_utf8EncodeChar c
    by_cases inside : c.utf8Size ≤ room
    · obtain ⟨j, later⟩ := ih (room - c.utf8Size)
      refine ⟨j, ?_⟩
      rw [whole, List.take_append, size, List.take_of_length_le (by omega), decode_utf8_cons, later, fitting, if_pos inside]
      rfl
    · have none_ : room - c.utf8Size = 0 := by omega
      rw [whole, List.take_append, size, none_, List.take_zero, List.append_nil, fitting, if_neg inside]
      rcases utf8EncodeChar_cases c with ⟨-, one⟩ | ⟨b, p, above, below, first, leads, bytes⟩
      · rw [one, List.length_singleton] at size
        have nothing : room = 0 := by omega
        rw [nothing]
        exact ⟨0, rfl⟩
      · cases room with
        | zero => exact ⟨0, rfl⟩
        | succ room =>
          have byte : (UInt8.ofNat b).toNat = b := by
            rw [UInt8.toNat_ofNat', Nat.mod_eq_of_lt (by omega)]
          have entered : step none b = ([], some p) := by
            rw [step_none, enter, if_neg (by omega), first]
          rw [bytes, List.length_cons, length_following] at size
          refine ⟨1, ?_⟩
          rw [bytes, List.take_succ_cons, decode, decodeFrom_cons, byte, entered]
          exact decodeFrom_take_following leads (by omega)

theorem decode_drop (m : Nat) (s : List Char) :
    ∃ j, decode ((utf8 s).drop m) = List.replicate j REPLACEMENT ++ leave m s := by
  induction s generalizing m with
  | nil => exact ⟨0, by cases m <;> simp [utf8, leave, decode, decodeFrom]⟩
  | cons c s ih =>
    cases m with
    | zero => exact ⟨0, decode_utf8 (c :: s)⟩
    | succ m =>
      have whole : utf8 (c :: s) = String.utf8EncodeChar c ++ utf8 s := rfl
      have size := String.length_utf8EncodeChar c
      rw [whole, List.drop_append, size, leave]
      by_cases past : c.utf8Size ≤ m + 1
      · rw [List.drop_eq_nil_of_le (by omega), List.nil_append]
        exact ih _
      · have none_ : m + 1 - c.utf8Size = 0 := by omega
        rcases utf8EncodeChar_cases c with ⟨-, one⟩ | ⟨b, p, above, below, first, leads, bytes⟩
        · rw [one, List.length_singleton] at size
          omega
        · obtain ⟨j, broken⟩ := decode_following (v := c.toNat) (n := p.needed) (utf8 s) m
          refine ⟨j, ?_⟩
          rw [none_, leave_zero, List.drop_zero, bytes, List.drop_succ_cons, broken, decode_utf8]

end Opale.Codec
