import Mathlib.Data.List.DropRight
import Mathlib.Tactic.Common

namespace Opale.Js

/-- What `\s` stands for, and `trim` removes. -/
def jsSpaces : List Char :=
  ['\t', '\n', '\u000b', '\u000c', '\r', ' ', '\u00a0', '\u1680', '\u2000', '\u2001', '\u2002', '\u2003', '\u2004',
    '\u2005', '\u2006', '\u2007', '\u2008', '\u2009', '\u200a', '\u2028', '\u2029', '\u202f', '\u205f', '\u3000',
    '\ufeff']

def isSpaceChar (c : Char) : Bool := jsSpaces.contains c

/-- `s.trim()` -/
def trim (text : List Char) : List Char := (text.dropWhile isSpaceChar).rdropWhile isSpaceChar

theorem isSpaceChar_iff {c : Char} : isSpaceChar c = true ↔ c ∈ jsSpaces := List.contains_iff_mem

theorem trim_self {text : List Char} (bare : ∀ c ∈ text, c ∉ jsSpaces) : trim text = text := by
  have solid (c : Char) (member : c ∈ text) : ¬isSpaceChar c = true := mt isSpaceChar_iff.mp (bare c member)
  have kept : text.dropWhile isSpaceChar = text := by
    cases text with
    | nil => rfl
    | cons c rest => exact List.dropWhile_cons_of_neg (solid c List.mem_cons_self)
  rw [trim, kept, List.rdropWhile_eq_self_iff]
  exact fun nonempty => solid _ (List.getLast_mem nonempty)

end Opale.Js
