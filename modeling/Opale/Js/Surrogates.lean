import Opale.Js.Values

namespace Opale.Js

/-- A code unit that is by itself a character. -/
def Single (u : UInt16) : Prop := isHighSurrogate u = false ∧ isLowSurrogate u = false

/-- A code unit by itself; U+FFFD for half a pair. -/
def replaced (u : UInt16) : UInt16 := if isHighSurrogate u || isLowSurrogate u then 0xFFFD else u

/-- `s.toWellFormed()`: what is read again of a string that was written in UTF-8. -/
def toWellFormed : Units → Units
  | [] => []
  | [u] => [replaced u]
  | u :: v :: rest =>
    if isHighSurrogate u && isLowSurrogate v then u :: v :: toWellFormed rest else replaced u :: toWellFormed (v :: rest)

variable {u v : UInt16} {s rest : Units}

theorem single_of_lt (small : u.toNat < 0xD800) : Single u := by
  simp only [Single, isHighSurrogate, isLowSurrogate, Bool.and_eq_false_iff, decide_eq_false_iff_not]
  omega

theorem replaced_single (single : Single u) : replaced u = u := by
  rw [replaced, single.1, single.2, Bool.or_false, if_neg Bool.false_ne_true]

theorem single_replaced (u : UInt16) : Single (replaced u) := by
  unfold replaced
  split
  · exact ⟨by decide, by decide⟩
  next plain =>
    rw [Bool.not_eq_true, Bool.or_eq_false_iff] at plain
    exact plain

theorem scalar_replaced (u : UInt16) : scalar (replaced u) = scalar u := by
  unfold replaced
  split
  next half =>
    rw [scalar, scalar, if_pos half]
    rfl
  next => rfl

theorem scalars_cons (single : Single u) (s : Units) : scalars (u :: s) = scalar u :: scalars s := by
  cases s with
  | nil => rfl
  | cons v rest =>
    refine scalars_apart ?_ rest
    rw [single.1, Bool.false_and]
    exact Bool.false_ne_true

theorem toWellFormed_paired (paired : (isHighSurrogate u && isLowSurrogate v) = true) (rest : Units) :
    toWellFormed (u :: v :: rest) = u :: v :: toWellFormed rest := if_pos paired

theorem toWellFormed_apart (apart : ¬(isHighSurrogate u && isLowSurrogate v) = true) (rest : Units) :
    toWellFormed (u :: v :: rest) = replaced u :: toWellFormed (v :: rest) := if_neg apart

theorem toWellFormed_cons (single : Single u) (s : Units) : toWellFormed (u :: s) = u :: toWellFormed s := by
  cases s with
  | nil => exact congrArg (fun u => [u]) (replaced_single single)
  | cons v rest =>
    have apart : ¬(isHighSurrogate u && isLowSurrogate v) = true := by
      rw [single.1, Bool.false_and]
      exact Bool.false_ne_true
    rw [toWellFormed_apart apart, replaced_single single]

theorem toWellFormed_concat (single : Single v) (s : Units) : toWellFormed (s ++ [v]) = toWellFormed s ++ [v] := by
  induction s using units_induction with
  | nil => exact toWellFormed_cons single []
  | single u =>
    have apart : ¬(isHighSurrogate u && isLowSurrogate v) = true := by
      rw [single.2, Bool.and_false]
      exact Bool.false_ne_true
    rw [List.singleton_append, toWellFormed_apart apart, toWellFormed_cons single]
    rfl
  | paired u w rest paired ih =>
    rw [List.cons_append, List.cons_append, toWellFormed_paired paired, toWellFormed_paired paired, ih]
    rfl
  | apart u w rest apart ih =>
    rw [List.cons_append, List.cons_append, toWellFormed_apart apart, toWellFormed_apart apart, ← List.cons_append, ih]
    rfl

theorem toWellFormed_self (single : ∀ u ∈ s, Single u) : toWellFormed s = s := by
  induction s with
  | nil => rfl
  | cons u s ih =>
    obtain ⟨first, others⟩ := List.forall_mem_cons.mp single
    rw [toWellFormed_cons first, ih others]

/-- The characters are the same, each half of a pair being one by itself. -/
theorem scalars_toWellFormed (s : Units) : scalars (toWellFormed s) = scalars s := by
  induction s using units_induction with
  | nil => rfl
  | single u => exact (scalars_cons (single_replaced u) []).trans (congrArg (fun c => [c]) (scalar_replaced u))
  | paired u v rest paired ih => rw [toWellFormed_paired paired, scalars_paired paired, scalars_paired paired, ih]
  | apart u v rest apart ih =>
    rw [toWellFormed_apart apart, scalars_cons (single_replaced u), scalar_replaced, ih, scalars_apart apart]

theorem toWellFormed_toWellFormed (s : Units) : toWellFormed (toWellFormed s) = toWellFormed s := by
  induction s using units_induction with
  | nil => rfl
  | single u => exact toWellFormed_cons (single_replaced u) []
  | paired u v rest paired ih => rw [toWellFormed_paired paired, toWellFormed_paired paired, ih]
  | apart u v rest apart ih => rw [toWellFormed_apart apart, toWellFormed_cons (single_replaced u), ih]

theorem length_toWellFormed (s : Units) : (toWellFormed s).length = s.length := by
  induction s using units_induction with
  | nil => rfl
  | single u => rfl
  | paired u v rest paired ih => rw [toWellFormed_paired paired, List.length_cons, List.length_cons, ih, List.length_cons, List.length_cons]
  | apart u v rest apart ih => rw [toWellFormed_apart apart, List.length_cons, ih, List.length_cons, List.length_cons, List.length_cons]

/-- Nothing but U+FFFD is added. -/
theorem mem_of_mem_toWellFormed (member : u ∈ toWellFormed s) (other : u ≠ 0xFFFD) : u ∈ s := by
  have own {w : UInt16} (same : u = replaced w) : u = w := by
    unfold replaced at same
    split at same
    · exact absurd same other
    · exact same
  induction s using units_induction with
  | nil => exact member
  | single w => exact List.mem_singleton.mpr (own (List.mem_singleton.mp member))
  | paired w v rest paired ih =>
    rw [toWellFormed_paired paired] at member
    rcases List.mem_cons.mp member with rfl | member
    · exact List.mem_cons_self
    · rcases List.mem_cons.mp member with rfl | member
      · exact List.mem_cons_of_mem _ List.mem_cons_self
      · exact List.mem_cons_of_mem _ (List.mem_cons_of_mem _ (ih member))
  | apart w v rest apart ih =>
    rw [toWellFormed_apart apart] at member
    rcases List.mem_cons.mp member with same | member
    · exact List.mem_cons.mpr (.inl (own same))
    · exact List.mem_cons_of_mem _ (ih member)

end Opale.Js
