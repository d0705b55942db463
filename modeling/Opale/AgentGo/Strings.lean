import Mathlib.Tactic.Common

namespace Opale.AgentGo

/-- `unicode.IsSpace` -/
def isSpaceRune (c : Char) : Bool :=
  c ∈ ['\t', '\n', '\u000b', '\u000c', '\r', ' ', '\u0085', '\u00a0', '\u1680', '\u2028', '\u2029', '\u202f', '\u205f',
    '\u3000'] || ('\u2000' ≤ c && c ≤ '\u200a')

/-- `strings.TrimSpace` -/
def trimSpace (s : List Char) : List Char := ((s.dropWhile isSpaceRune).reverse.dropWhile isSpaceRune).reverse

end Opale.AgentGo
