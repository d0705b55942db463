import Mathlib.Algebra.Order.Group.Int
import Mathlib.Data.List.Basic
import Mathlib.Tactic.Common

namespace Opale

variable {α ι : Type} [LinearOrder ι] {key : α → ι} {past later : List α} {x r s : α} {kept kept₁ : Option α}

/-- What is kept of the values that were offered is one with the greatest key. -/
def Newest (key : α → ι) (past : List α) : Option α → Prop
  | none => past = []
  | some r => r ∈ past ∧ ∀ s ∈ past, key s ≤ key r

/-- A value replaces the one that is kept only when its key is greater. -/
def offer (key : α → ι) (x : α) : Option α → Option α
  | none => some x
  | some r => if key r < key x then some x else some r

theorem offer_of_lt (newer : key r < key x) : offer key x (some r) = some x := if_pos newer

theorem offer_of_not_lt (older : ¬ key r < key x) : offer key x (some r) = some r := if_neg older

theorem Newest.offer (newest : Newest key past kept) : Newest key (x :: past) (offer key x kept) := by
  cases kept with
  | none =>
    have empty : past = [] := newest
    subst empty
    refine ⟨List.mem_cons_self, fun s member => ?_⟩
    rw [List.mem_singleton.mp member]
  | some r =>
    obtain ⟨inside, most⟩ := newest
    show Newest key (x :: past) (if key r < key x then some x else some r)
    split
    case isTrue newer =>
      refine ⟨List.mem_cons_self, fun s member => ?_⟩
      rcases List.mem_cons.mp member with rfl | member
      · exact le_rfl
      · exact le_trans (most s member) (le_of_lt newer)
    case isFalse older =>
      refine ⟨List.mem_cons_of_mem _ inside, fun s member => ?_⟩
      rcases List.mem_cons.mp member with rfl | member
      · exact not_lt.mp older
      · exact most s member

/-- With distinct keys it depends on what was offered, not on the order or how often. -/
theorem Newest.eq_some (newest : Newest key past kept) (member : x ∈ past) (most : ∀ s ∈ past, s ≠ x → key s < key x) :
    kept = some x := by
  cases kept with
  | none =>
    have empty : past = [] := newest
    rw [empty] at member
    cases member
  | some r =>
    obtain ⟨inside, greatest⟩ := newest
    by_contra other
    have apart : r ≠ x := fun same => other (congrArg some same)
    exact absurd (most r inside apart) (not_lt.mpr (greatest x member))

/-- What is kept never gets an older key. -/
theorem Newest.mono (newest : Newest key past (some r)) (newest₁ : Newest key later kept₁) (more : past ⊆ later) :
    ∃ s, kept₁ = some s ∧ key r ≤ key s := by
  cases kept₁ with
  | none =>
    have empty : later = [] := newest₁
    rw [empty] at more
    exact absurd (more newest.1) List.not_mem_nil
  | some s => exact ⟨s, rfl, newest₁.2 r (more newest.1)⟩

end Opale
