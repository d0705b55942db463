import Mathlib.Data.List.Sort
import Mathlib.Data.List.Perm.Basic

namespace Opale.Relations

variable {α : Type} (le : α → α → Prop)

/-- The first `k` of a list once it is in order; among equals any order will do. -/
def Firsts (k : Nat) (l first : List α) : Prop :=
  ∃ sorted : List α, sorted.Perm l ∧ sorted.Pairwise le ∧ first = sorted.take k

variable {le} {k : Nat} {l first : List α} {e : α}

theorem Firsts.subset (firsts : Firsts le k l first) : ∀ x ∈ first, x ∈ l := by
  obtain ⟨sorted, perm, -, rfl⟩ := firsts
  exact fun x member => perm.mem_iff.mp (List.mem_of_mem_take member)

theorem Firsts.length (firsts : Firsts le k l first) : first.length = min k l.length := by
  obtain ⟨sorted, perm, -, rfl⟩ := firsts
  rw [List.length_take, perm.length_eq]

theorem Firsts.le_length {n : Nat} (firsts : Firsts le k l first) (within : n ≤ k) :
    n ≤ first.length ↔ n ≤ l.length := by
  have length := firsts.length
  omega

/-- Without two elements that stand equal, there is only one answer. -/
theorem Firsts.unique {first' : List α} (firsts : Firsts le k l first) (firsts' : Firsts le k l first')
    (anti : ∀ a ∈ l, ∀ b ∈ l, le a b → le b a → a = b) : first = first' := by
  obtain ⟨sorted, perm, ordered, rfl⟩ := firsts
  obtain ⟨sorted', perm', ordered', rfl⟩ := firsts'
  have same : sorted = sorted' := by
    refine (perm.trans perm'.symm).eq_of_pairwise ?_ ordered ordered'
    intro a b inside inside'
    exact anti a (perm.mem_iff.mp inside) b (perm'.mem_iff.mp inside')
  rw [same]

/-- One element is the whole answer when it is the whole list. -/
theorem Firsts.eq_singleton (firsts : Firsts le k l first) (many : 1 < k) : first = [e] ↔ l = [e] := by
  have length := firsts.length
  constructor
  · rintro rfl
    have one : l.length = 1 := by
      rw [List.length_singleton] at length
      omega
    obtain ⟨a, rfl⟩ := List.length_eq_one_iff.mp one
    have same := firsts.subset e (List.mem_singleton_self e)
    rw [List.mem_singleton.mp same]
  · rintro rfl
    rw [List.length_singleton] at length
    have one : first.length = 1 := by omega
    obtain ⟨a, rfl⟩ := List.length_eq_one_iff.mp one
    have same := firsts.subset a (List.mem_singleton_self a)
    rw [List.mem_singleton.mp same]

/-- An element without a copy before it is among the first when fewer than `k` stand before it. -/
theorem mem_take_append {before after : List α} (fresh : e ∉ before) :
    e ∈ (before ++ e :: after).take k ↔ before.length < k := by
  rw [List.take_append, List.mem_append]
  constructor
  · rintro (inside | later)
    · exact absurd (List.mem_of_mem_take inside) fresh
    · by_contra short
      have nothing : k - before.length = 0 := by omega
      rw [nothing] at later
      cases later
  · intro short
    right
    obtain ⟨n, more⟩ : ∃ n, k - before.length = n + 1 := ⟨k - before.length - 1, by omega⟩
    rw [more]
    exact List.mem_cons_self

theorem perm_around [DecidableEq α] {p q : α → Bool} (distinct : l.Nodup) (member : e ∈ l)
    (cut : ∀ x, q x = (x ≠ e && !p x)) (self : p e = false) : (l.filter p ++ e :: l.filter q).Perm l := by
  have others : (l.filter fun x => !p x).Perm (e :: l.filter q) := by
    have inside : e ∈ l.filter fun x => !p x := List.mem_filter.mpr ⟨member, by rw [self]; rfl⟩
    have rest : (l.filter fun x => !p x).erase e = l.filter q := by
      rw [(distinct.filter _).erase_eq_filter, List.filter_filter]
      refine List.filter_congr fun x _ => ?_
      rw [cut]
      by_cases same : x = e <;> simp [same]
    rw [← rest]
    exact List.perm_cons_erase inside
  exact (others.symm.append_left _).trans (List.filter_append_perm p l)

section

variable [DecidableRel le] (total : ∀ a b, le a b ∨ le b a) (trans : ∀ a b c, le a b → le b c → le a c)

include total trans

theorem exists_sorted (l : List α) : ∃ sorted : List α, sorted.Perm l ∧ sorted.Pairwise le := by
  have : Std.Total le := ⟨total⟩
  have : IsTrans α le := ⟨trans⟩
  exact ⟨l.insertionSort le, List.perm_insertionSort le l, List.pairwise_insertionSort le l⟩

theorem exists_firsts (k : Nat) (l : List α) : ∃ first, Firsts le k l first := by
  obtain ⟨sorted, perm, ordered⟩ := exists_sorted total trans l
  exact ⟨_, sorted, perm, ordered, rfl⟩

/-- Any elements may stand before another one in the order, as long as they are none that comes after it. -/
theorem exists_around {before after : List α} (perm : (before ++ e :: after).Perm l) (low : ∀ x ∈ before, le x e)
    (high : ∀ x ∈ after, le e x) : ∃ before' after', before'.length = before.length ∧ (∀ x ∈ before', x ∈ before) ∧
      (before' ++ e :: after').Perm l ∧ (before' ++ e :: after').Pairwise le := by
  obtain ⟨before', same, ordered⟩ := exists_sorted total trans before
  obtain ⟨after', same', ordered'⟩ := exists_sorted total trans after
  refine ⟨before', after', same.length_eq, fun x member => same.mem_iff.mp member, ?_, ?_⟩
  · exact (same.append (same'.cons e)).trans perm
  · rw [List.pairwise_append, List.pairwise_cons]
    refine ⟨ordered, ⟨fun x member => high x (same'.mem_iff.mp member), ordered'⟩, fun x inside y member => ?_⟩
    have below := low x (same.mem_iff.mp inside)
    rcases List.mem_cons.mp member with rfl | later
    · exact below
    · exact trans x e y below (high y (same'.mem_iff.mp later))

variable [DecidableEq α]

/-- An element is among the first in every order when fewer than `k` others may come before it. -/
theorem mem_every_firsts (distinct : l.Nodup) : (∀ first, Firsts le k l first → e ∈ first) ↔
    e ∈ l ∧ (l.filter fun x => x ≠ e ∧ le x e).length < k := by
  constructor
  · intro every
    have member : e ∈ l := by
      obtain ⟨first, firsts⟩ := exists_firsts total trans k l
      exact firsts.subset e (every first firsts)
    refine ⟨member, ?_⟩
    have perm : ((l.filter fun x => x ≠ e ∧ le x e) ++ e :: l.filter fun x => x ≠ e ∧ ¬le x e).Perm l := by
      refine perm_around distinct member (fun x => ?_) (by simp)
      by_cases same : x = e <;> simp [same]
    obtain ⟨before, after, length, inside, perm', ordered⟩ := exists_around total trans perm
      (fun x inside => by simp at inside; exact inside.2.2)
      (fun x inside => by
        simp at inside
        exact (total x e).resolve_left inside.2.2)
    have found := every _ ⟨_, perm', ordered, rfl⟩
    have fresh : e ∉ before := fun copy => by simpa using inside e copy
    rw [mem_take_append fresh, length] at found
    exact found
  · rintro ⟨member, few⟩ first ⟨sorted, perm, ordered, rfl⟩
    obtain ⟨before, after, rfl⟩ := List.append_of_mem (perm.mem_iff.mpr member)
    have distinct' := perm.nodup_iff.mpr distinct
    have fresh : e ∉ before := fun copy => (List.nodup_append.mp distinct').2.2 e copy e List.mem_cons_self rfl
    have low : ∀ x ∈ before, le x e := fun x inside =>
      (List.pairwise_append.mp ordered).2.2 x inside e List.mem_cons_self
    rw [mem_take_append fresh]
    refine lt_of_le_of_lt ?_ few
    rw [← (perm.filter _).length_eq, List.filter_append, List.length_append]
    have all : before.filter (fun x => x ≠ e ∧ le x e) = before := by
      refine List.filter_eq_self.mpr fun x inside => ?_
      have other : x ≠ e := fun same => fresh (same ▸ inside)
      simp [other, low x inside]
    rw [all]
    exact Nat.le_add_right _ _

/-- An element is among the first in some order when fewer than `k` have to come before it. -/
theorem mem_some_firsts (distinct : l.Nodup) : (∃ first, Firsts le k l first ∧ e ∈ first) ↔
    e ∈ l ∧ (l.filter fun x => ¬le e x).length < k := by
  have refl : le e e := (total e e).elim id id
  constructor
  · rintro ⟨first, firsts, found⟩
    refine ⟨firsts.subset e found, ?_⟩
    obtain ⟨sorted, perm, ordered, rfl⟩ := firsts
    obtain ⟨before, after, rfl⟩ := List.append_of_mem (List.mem_of_mem_take found)
    have distinct' := perm.nodup_iff.mpr distinct
    have fresh : e ∉ before := fun copy => (List.nodup_append.mp distinct').2.2 e copy e List.mem_cons_self rfl
    rw [mem_take_append fresh] at found
    refine lt_of_le_of_lt ?_ found
    have later : (e :: after).filter (fun x => ¬le e x) = [] := by
      refine List.filter_eq_nil_iff.mpr fun x inside => ?_
      rcases List.mem_cons.mp inside with rfl | member
      · simp [refl]
      · simp [(List.pairwise_cons.mp (List.pairwise_append.mp ordered).2.1).1 x member]
    rw [← (perm.filter _).length_eq, List.filter_append, later, List.append_nil]
    exact List.length_filter_le _ _
  · rintro ⟨member, few⟩
    have perm : ((l.filter fun x => ¬le e x) ++ e :: l.filter fun x => x ≠ e ∧ le e x).Perm l := by
      refine perm_around distinct member (fun x => ?_) (by simp [refl])
      by_cases same : x = e <;> simp [same]
    obtain ⟨before, after, length, inside, perm', ordered⟩ := exists_around total trans perm
      (fun x inside => by
        simp at inside
        exact (total x e).resolve_right inside.2)
      (fun x inside => by simp at inside; exact inside.2.2)
    have fresh : e ∉ before := fun copy => by simpa [refl] using inside e copy
    refine ⟨_, ⟨_, perm', ordered, rfl⟩, ?_⟩
    rw [mem_take_append fresh, length]
    exact few

end

end Opale.Relations
