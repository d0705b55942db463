import Opale.Codec.Utf8
import Mathlib.Data.List.DropRight

namespace Opale.Inventory

open Codec

/-- `buf.subarray(start, stop)`: a negative place is counted from the end. -/
def subarray (buf : List UInt8) (start stop : Int) : List UInt8 :=
  let place (i : Int) : Nat := min (if i < 0 then i + buf.length else i).toNat buf.length
  (buf.take (place stop)).drop (place start)

def marker (total : Nat) : List Char :=
  "\n… [log tronqué : ".toList ++ Nat.toDigits 10 total ++ " octets au total, milieu omis] …\n".toList

/-- The bytes that are left beside the marker. -/
def room (total maxBytes : Nat) : Int := maxBytes - byteLength (marker total)

/-- `Math.ceil(room / 2)` -/
def headBytes (total maxBytes : Nat) : Int := (room total maxBytes + 1) / 2

def tailBytes (total maxBytes : Nat) : Int := room total maxBytes - headBytes total maxBytes

def truncateMiddle (text : List Char) (maxBytes : Nat) : List Char :=
  let total := byteLength text
  if total ≤ maxBytes then text
  else
    let buf := utf8 text
    let head := (decode (subarray buf 0 (headBytes total maxBytes))).rdropWhile (· = REPLACEMENT)
    let tail := (decode (subarray buf (buf.length - tailBytes total maxBytes) buf.length)).dropWhile (· = REPLACEMENT)
    head ++ marker total ++ tail

/-- The longest beginning of a text in the first half of the room. -/
def Head (text : List Char) (maxBytes : Nat) (head : List Char) : Prop :=
  LongestPrefix (headBytes (byteLength text) maxBytes).toNat text head

/-- Its longest end in the second half. -/
def Tail (text : List Char) (maxBytes : Nat) (tail : List Char) : Prop :=
  LongestSuffix (tailBytes (byteLength text) maxBytes).toNat text tail

/-- The text when it fits, and else its longest beginning and its longest end around the marker. -/
def Truncated (text : List Char) (maxBytes : Nat) (out : List Char) : Prop :=
  (byteLength text ≤ maxBytes → out = text) ∧ (maxBytes < byteLength text → byteLength out ≤ maxBytes ∧
    ∃ head tail, Head text maxBytes head ∧ Tail text maxBytes tail ∧ out = head ++ marker (byteLength text) ++ tail)

/-- The text has no U+FFFD of its own at a cut. -/
def Spared (text : List Char) (maxBytes : Nat) : Prop :=
  (∀ s, ¬Head text maxBytes (s ++ [REPLACEMENT])) ∧ ∀ s, ¬Tail text maxBytes (REPLACEMENT :: s)

variable {text : List Char} {maxBytes : Nat} {head tail : List Char}

theorem subarray_head (buf : List UInt8) {n : Int} (positive : 0 ≤ n) : subarray buf 0 n = buf.take n.toNat := by
  have other : ¬n < 0 := by omega
  simp only [subarray, if_neg other]
  simp

theorem subarray_tail (buf : List UInt8) {n : Int} (positive : 0 ≤ n) (short : n ≤ buf.length) :
    subarray buf (buf.length - n) buf.length = buf.drop (buf.length - n.toNat) := by
  have other : ¬(buf.length : Int) - n < 0 := by omega
  have place : min ((buf.length : Int) - n).toNat buf.length = buf.length - n.toNat := by omega
  have whole : ¬(buf.length : Int) < 0 := by omega
  simp only [subarray, if_neg other, place, if_neg whole]
  rw [Int.toNat_natCast, Nat.min_self, List.take_length]

theorem rdropWhile_append_replicate (s : List Char) (j : Nat) :
    (s ++ List.replicate j REPLACEMENT).rdropWhile (· = REPLACEMENT) = s.rdropWhile (· = REPLACEMENT) := by
  induction j with
  | zero => rw [List.replicate_zero, List.append_nil]
  | succ j ih => rw [List.replicate_succ', ← List.append_assoc, List.rdropWhile_concat_pos _ _ _ (by simp), ih]

theorem dropWhile_replicate_append (j : Nat) (s : List Char) :
    (List.replicate j REPLACEMENT ++ s).dropWhile (· = REPLACEMENT) = s.dropWhile (· = REPLACEMENT) :=
  List.dropWhile_append_of_pos fun c member => by simp [List.eq_of_mem_replicate member]

theorem exists_head (text : List Char) (maxBytes : Nat) : ∃ head, Head text maxBytes head :=
  ⟨_, longestPrefix_fitting _ text⟩

theorem bytes_bounds (total : Nat) (positive : byteLength (marker total) ≤ maxBytes) :
    0 ≤ headBytes total maxBytes ∧ 0 ≤ tailBytes total maxBytes ∧
      headBytes total maxBytes + tailBytes total maxBytes + byteLength (marker total) = maxBytes := by
  unfold tailBytes headBytes room
  omega

/-- The bytes at the end of the text that the code keeps. -/
theorem tail_leave (long : maxBytes < byteLength text) (positive : byteLength (marker (byteLength text)) ≤ maxBytes) :
    Tail text maxBytes (leave ((utf8 text).length - (tailBytes (byteLength text) maxBytes).toNat) text) := by
  have bounds := bytes_bounds (byteLength text) positive
  have suffix := longestSuffix_leave ((utf8 text).length - (tailBytes (byteLength text) maxBytes).toNat) text
  have left : byteLength text - ((utf8 text).length - (tailBytes (byteLength text) maxBytes).toNat) =
      (tailBytes (byteLength text) maxBytes).toNat := by
    rw [length_utf8]
    omega
  rwa [left] at suffix

/-- What the code keeps: the longest ends in the two halves, without the U+FFFD at the cuts. -/
theorem truncateMiddle_eq (long : maxBytes < byteLength text) (positive : byteLength (marker (byteLength text)) ≤ maxBytes)
    (starts : Head text maxBytes head) (ends : Tail text maxBytes tail) :
    truncateMiddle text maxBytes = head.rdropWhile (· = REPLACEMENT) ++ marker (byteLength text) ++
      tail.dropWhile (· = REPLACEMENT) := by
  have length := length_utf8 text
  have bounds := bytes_bounds (byteLength text) positive
  obtain ⟨j, first⟩ := decode_take (headBytes (byteLength text) maxBytes).toNat text
  obtain ⟨k, last⟩ := decode_drop ((utf8 text).length - (tailBytes (byteLength text) maxBytes).toNat) text
  unfold truncateMiddle
  dsimp only
  rw [if_neg (by omega), subarray_head _ bounds.1, subarray_tail _ bounds.2.1 (by omega), first, last,
    rdropWhile_append_replicate, dropWhile_replicate_append, ends.unique (tail_leave long positive),
    starts.unique (longestPrefix_fitting _ text)]

theorem rdropWhile_eq_self_iff : head.rdropWhile (· = REPLACEMENT) = head ↔ ∀ s, head ≠ s ++ [REPLACEMENT] := by
  rw [List.rdropWhile_eq_self_iff]
  constructor
  · rintro kept s rfl
    exact absurd (by simp) (kept (by simp))
  · intro other nonempty last
    have split := List.dropLast_append_getLast nonempty
    rw [decide_eq_true_eq] at last
    rw [last] at split
    exact other _ split.symm

theorem dropWhile_eq_self_iff : tail.dropWhile (· = REPLACEMENT) = tail ↔ ∀ s, tail ≠ REPLACEMENT :: s := by
  cases tail with
  | nil => simp
  | cons c s =>
    by_cases same : c = REPLACEMENT
    · have shorter := (List.dropWhile_sublist (l := s) (· = REPLACEMENT)).length_le
      refine iff_of_false (fun equal => ?_) fun other => other s (by rw [same])
      rw [List.dropWhile_cons_of_pos (by simpa using same)] at equal
      have length := congrArg List.length equal
      rw [List.length_cons] at length
      omega
    · refine iff_of_true (List.dropWhile_cons_of_neg (by simpa using same)) fun t equal => ?_
      exact same (List.cons.inj equal).1

/-- With room for the marker, a text is cut as it should be when it has no U+FFFD of its own at the cuts, and only then. -/
theorem truncated_iff (text : List Char) (maxBytes : Nat) (positive : byteLength (marker (byteLength text)) ≤ maxBytes) :
    Truncated text maxBytes (truncateMiddle text maxBytes) ↔ byteLength text ≤ maxBytes ∨ Spared text maxBytes := by
  by_cases fits : byteLength text ≤ maxBytes
  · refine iff_of_true ⟨fun _ => ?_, fun long => absurd fits (by omega)⟩ (.inl fits)
    unfold truncateMiddle
    rw [if_pos fits]
  have long : maxBytes < byteLength text := by omega
  obtain ⟨head, starts⟩ := exists_head text maxBytes
  have ends := tail_leave long positive
  generalize leave ((utf8 text).length - (tailBytes (byteLength text) maxBytes).toNat) text = tail at ends
  have kept := truncateMiddle_eq long positive starts ends
  have spared : Spared text maxBytes ↔
      head.rdropWhile (· = REPLACEMENT) = head ∧ tail.dropWhile (· = REPLACEMENT) = tail := by
    rw [rdropWhile_eq_self_iff, dropWhile_eq_self_iff]
    constructor
    · rintro ⟨first, last⟩
      exact ⟨fun s same => first s (same ▸ starts), fun s same => last s (same ▸ ends)⟩
    · rintro ⟨first, last⟩
      exact ⟨fun s other => first s (starts.unique other), fun s other => last s (ends.unique other)⟩
  rw [or_iff_right fits, spared]
  constructor
  · rintro ⟨-, cut⟩
    obtain ⟨-, head₁, tail₁, starts₁, ends₁, out⟩ := cut long
    rw [starts₁.unique starts, ends₁.unique ends, kept] at out
    have first := (List.rdropWhile_prefix (· = REPLACEMENT) head)
    have last := (List.dropWhile_suffix (l := tail) (· = REPLACEMENT))
    have length := congrArg List.length out
    simp only [List.length_append] at length
    have shorter := first.length_le
    have shorter' := last.length_le
    exact ⟨first.eq_of_length (by omega), last.eq_of_length (by omega)⟩
  · rintro ⟨first, last⟩
    refine ⟨fun short => absurd short fits, fun _ => ⟨?_, head, tail, starts, ends, ?_⟩⟩
    · have bounds := bytes_bounds (byteLength text) positive
      have short := starts.fits
      have short' := ends.fits
      rw [kept, first, last, byteLength_append, byteLength_append]
      omega
    · rw [kept, first, last]

theorem truncated_iff_accents : Truncated (List.replicate 100 'é') 120 (truncateMiddle (List.replicate 100 'é') 120) ↔
    byteLength (List.replicate 100 'é') ≤ 120 ∨ Spared (List.replicate 100 'é') 120 :=
  truncated_iff _ _ (by decide +kernel)

/-- A U+FFFD of the text right before the cut is lost. -/
theorem replacement_lost : ¬∀ (text : List Char) (maxBytes : Nat), byteLength (marker (byteLength text)) ≤ maxBytes →
    Truncated text maxBytes (truncateMiddle text maxBytes) := by
  intro all
  have cut := all (REPLACEMENT :: List.replicate 100 'a') 65 (by decide +kernel)
  obtain ⟨-, head, tail, starts, -, out⟩ := cut.2 (by decide)
  have own : [REPLACEMENT] <+: head := starts.longest _ (List.prefix_append _ _) (by decide +kernel)
  obtain ⟨rest, rfl⟩ := own
  have first : (truncateMiddle (REPLACEMENT :: List.replicate 100 'a') 65).head? = some '\n' := by decide
  rw [out] at first
  exact absurd (Option.some.inj first) (by decide)

end Opale.Inventory
