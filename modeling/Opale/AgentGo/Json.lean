import Mathlib.Algebra.GroupWithZero.Nat

namespace Opale.AgentGo

/-- A string of Go: bytes, UTF-8 or not. -/
abbrev GoString := List UInt8

def text (s : String) : GoString := s.toByteArray.data.toList

/-- How many bytes follow the first one of a rune, and between what the next one stands. -/
def following (a : UInt8) : Option (Nat × UInt8 × UInt8) :=
  if a < 0xC2 then none
  else if a < 0xE0 then some (1, 0x80, 0xBF)
  else if a = 0xE0 then some (2, 0xA0, 0xBF)
  else if a = 0xED then some (2, 0x80, 0x9F)
  else if a < 0xF0 then some (2, 0x80, 0xBF)
  else if a = 0xF0 then some (3, 0x90, 0xBF)
  else if a < 0xF4 then some (3, 0x80, 0xBF)
  else if a = 0xF4 then some (3, 0x80, 0x8F)
  else none

def runeStart (b : UInt8) : Bool := b &&& 0xC0 ≠ 0x80

def tails (n : Nat) (low high : UInt8) (rest : GoString) : Bool :=
  n ≤ rest.length && (rest.take 1).all (fun b => low ≤ b && b ≤ high) && (rest.take n).all fun b => !runeStart b

/-- The bytes after the first one of the rune at the head of a string; none where none is valid. -/
def runeTail (a : UInt8) (rest : GoString) : Option Nat :=
  if a < 0x80 then some 0
  else match following a with
    | some (n, low, high) => if tails n low high rest then some n else none
    | none => none

/-- The runes of a string, none for a byte that is not of one; the first bytes were read already. -/
def runes : Nat → GoString → List (Option GoString)
  | _, [] => []
  | read + 1, _ :: rest => runes read rest
  | 0, a :: rest =>
    match runeTail a rest with
    | some n => some (a :: rest.take n) :: runes n rest
    | none => none :: runes 0 rest

def hex (n : UInt8) : UInt8 := if n < 10 then 0x30 + n else 0x57 + n

/-- A byte below 0x80 in JSON that may stand in HTML -/
def escapeByte (b : UInt8) : GoString :=
  if b = 0x22 ∨ b = 0x5C then [0x5C, b]
  else if b = 0x08 then text "\\b"
  else if b = 0x0C then text "\\f"
  else if b = 0x0A then text "\\n"
  else if b = 0x0D then text "\\r"
  else if b = 0x09 then text "\\t"
  else if b < 0x20 ∨ b = 0x3C ∨ b = 0x3E ∨ b = 0x26 then text "\\u00" ++ [hex (b >>> 4), hex (b &&& 0xF)]
  else [b]

def escape : Option GoString → GoString
  | none => text "\\ufffd"
  | some [b] => escapeByte b
  | some [0xE2, 0x80, 0xA8] => text "\\u2028"
  | some [0xE2, 0x80, 0xA9] => text "\\u2029"
  | some bytes => bytes

/-- json.Marshal of a string -/
def quote (s : GoString) : GoString := 0x22 :: (runes 0 s).flatMap escape ++ [0x22]

/-- What json.Unmarshal reads of the string that was written. -/
def reread (s : GoString) : GoString := (runes 0 s).flatMap fun rune => rune.getD [0xEF, 0xBF, 0xBD]

/-- json.Marshal of an int -/
def decimal (n : Int) : GoString := text (toString n)

/-- json.Marshal of a slice -/
def marshalSlice {α : Type} (marshal : α → GoString) (items : List α) : GoString :=
  0x5B :: List.intercalate [0x2C] (items.map marshal) ++ [0x5D]

/-- Characters below 0x80 that need no escape are written as they are. -/
theorem length_quote_replicate {b : UInt8} (n : Nat) (small : b < 0x80) (plain : escapeByte b = [b]) :
    (quote (List.replicate n b)).length = n + 2 := by
  have written : (runes 0 (List.replicate n b)).flatMap escape = List.replicate n b := by
    induction n with
    | zero => rfl
    | succ n ih =>
      have tail : runeTail b (List.replicate n b) = some 0 := if_pos small
      rw [List.replicate_succ, runes, tail]
      show escapeByte b ++ (runes 0 (List.replicate n b)).flatMap escape = _
      rw [plain, ih]
      rfl
  unfold quote
  rw [written]
  simp

theorem length_intercalate (comma : UInt8) (parts : List GoString) :
    (List.intercalate [comma] parts).length = (parts.map (·.length)).sum + (parts.length - 1) := by
  induction parts with
  | nil => rfl
  | cons part rest ih =>
    cases rest with
    | nil => simp
    | cons next rest =>
      rw [List.intercalate_cons_cons, List.length_append, List.length_append, ih]
      simp only [List.map_cons, List.sum_cons, List.length_cons, List.length_nil]
      omega

theorem length_marshalSlice {α : Type} (marshal : α → GoString) (items : List α) :
    (marshalSlice marshal items).length =
      (items.map fun item => (marshal item).length).sum + (items.length - 1) + 2 := by
  unfold marshalSlice
  rw [List.length_append, List.length_cons, length_intercalate, List.map_map, List.length_map]
  rfl

end Opale.AgentGo
