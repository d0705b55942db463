import Mathlib.Order.Compare

namespace Opale

/-- The first `n` places compared one after the other: the first that differ decide. -/
def verdict (order : Nat → Ordering) : Nat → Ordering
  | 0 => .eq
  | n + 1 => (verdict order n).then (order n)

/-- Up to the first place in which the first order finds a difference, the second is the same. -/
def SameUpToFirst (order other : Nat → Ordering) : Prop := ∀ i, (∀ j < i, order j = .eq) → other i = order i

variable {order other : Nat → Ordering} {n m : Nat}

theorem verdict_succ (order : Nat → Ordering) (n : Nat) : verdict order (n + 1) = (verdict order n).then (order n) := rfl

theorem verdict_eq_iff : verdict order n = .eq ↔ ∀ i < n, order i = .eq := by
  induction n with
  | zero => exact iff_of_true rfl fun i below => absurd below (Nat.not_lt_zero i)
  | succ n ih =>
    rw [verdict_succ, Ordering.then_eq_eq, ih]
    constructor
    · rintro ⟨before, last⟩ i below
      rcases Nat.lt_succ_iff_lt_or_eq.mp below with inside | rfl
      · exact before i inside
      · exact last
    · intro all
      exact ⟨fun i below => all i (Nat.lt_succ_of_lt below), all n (Nat.lt_succ_self n)⟩

theorem verdict_congr (same : ∀ i < n, other i = order i) : verdict other n = verdict order n := by
  induction n with
  | zero => rfl
  | succ n ih => rw [verdict_succ, verdict_succ, ih fun i below => same i (Nat.lt_succ_of_lt below), same n (Nat.lt_succ_self n)]

/-- Places that are the same decide nothing. -/
theorem verdict_of_le (within : n ≤ m) (same : ∀ i, n ≤ i → i < m → order i = .eq) : verdict order m = verdict order n := by
  induction within with
  | refl => rfl
  | @step m within ih =>
    rw [verdict_succ, same m within (Nat.lt_succ_self m), ih fun i from_ below => same i from_ (Nat.lt_succ_of_lt below)]
    exact Ordering.then_eq

theorem verdict_swap : verdict (fun i => (order i).swap) n = (verdict order n).swap := by
  induction n with
  | zero => rfl
  | succ n ih => rw [verdict_succ, verdict_succ, ih, Ordering.swap_then]

theorem SameUpToFirst.verdict (same : SameUpToFirst order other) (n : Nat) : verdict other n = verdict order n := by
  induction n with
  | zero => rfl
  | succ n ih =>
    rw [verdict_succ, verdict_succ, ih]
    by_cases before : Opale.verdict order n = .eq
    · rw [same n (verdict_eq_iff.mp before)]
    · cases decided : Opale.verdict order n with
      | eq => exact absurd decided before
      | lt => rfl
      | gt => rfl

/-- Two orders decide every number of first places alike exactly when they are the same up to the first difference. -/
theorem verdict_forall_iff : (∀ n, verdict other n = verdict order n) ↔ SameUpToFirst order other := by
  refine ⟨fun all i before => ?_, SameUpToFirst.verdict⟩
  have first : verdict order i = .eq := verdict_eq_iff.mpr before
  have place := all (i + 1)
  rw [verdict_succ, verdict_succ, all i, first] at place
  exact place

end Opale
