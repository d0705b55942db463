import Mathlib.Algebra.Order.BigOperators.Group.List
import Mathlib.Algebra.Order.Ring.Int
import Mathlib.Data.List.Nodup
import Mathlib.Data.List.Perm.Basic
import Mathlib.Order.Lattice

namespace Opale.Sql

variable {α β ι : Type}

/-- The rows of a window in the order of a key; rows of one key come in any order. -/
def Ordered [LE ι] (key : α → ι) (rows ordered : List α) : Prop :=
  ordered.Perm rows ∧ ordered.Pairwise fun a b => key a ≤ key b

/-- `LAG` beside each row: the row before it in its window, NULL for the first one. -/
def lag (ordered : List α) : List (Option α × α) := (none :: ordered.map some).zip ordered

/-- `SUM`: of no row it is NULL. -/
def sumOf (values : List Int) : Option Int := if values = [] then none else some values.sum

theorem Ordered.unique [PartialOrder ι] {key : α → ι} {rows a b : List α} (ordered : Ordered key rows a)
    (ordered' : Ordered key rows b) (distinct : (rows.map key).Nodup) : a = b := by
  refine (ordered.1.trans ordered'.1.symm).eq_of_pairwise ?_ ordered.2 ordered'.2
  intro x y inside inside' below above
  have same : key x = key y := le_antisymm below above
  exact List.inj_on_of_nodup_map distinct (ordered.1.mem_iff.mp inside) (ordered'.1.mem_iff.mp inside') same

theorem Ordered.map [LE ι] {key : α → ι} {key' : β → ι} {f : α → β} {rows ordered : List α}
    (same : ∀ a, key' (f a) = key a) (order : Ordered key rows ordered) :
    Ordered key' (rows.map f) (ordered.map f) := by
  refine ⟨order.1.map f, List.pairwise_map.mpr ?_⟩
  refine order.2.imp fun {a b} below => ?_
  rw [same, same]
  exact below

theorem lag_map (f : α → β) (ordered : List α) :
    lag (ordered.map f) = (lag ordered).map (Prod.map (Option.map f) f) := by
  unfold lag
  rw [← List.zip_map]
  simp [Function.comp_def]

theorem sumOf_eq_some {values : List Int} {n : Int} : sumOf values = some n ↔ values ≠ [] ∧ values.sum = n := by
  unfold sumOf
  split <;> simp_all

/-- What a row that is left out would have counted is nothing. -/
theorem sum_filterMap {f : α → Option β} {g : β → Int} (l : List α) :
    ((l.filterMap f).map g).sum = (l.map fun a => ((f a).map g).getD 0).sum := by
  induction l with
  | nil => rfl
  | cons a l ih =>
    cases found : f a with
    | none => simp [found, ih]
    | some b => simp [found, ih]

/-- Of two sums with each term of the one at most that of the other, either all terms agree or the sums do not. -/
theorem sum_eq_iff {f g : α → Int} {l : List α} (le : ∀ a ∈ l, f a ≤ g a) :
    (l.map f).sum = (l.map g).sum ↔ ∀ a ∈ l, f a = g a := by
  constructor
  · intro same a member
    by_contra other
    have less : f a < g a := lt_of_le_of_ne (le a member) other
    have below := List.sum_lt_sum f g le ⟨a, member, less⟩
    omega
  · intro same
    rw [List.map_congr_left same]

end Opale.Sql
