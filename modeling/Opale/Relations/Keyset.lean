import Opale.Relations.Firsts

namespace Opale.Relations

variable {α κ : Type} [LinearOrder κ] (key : α → κ)

/-- The key comes after the cursor; without a cursor every key does. -/
def Past (cursor : Option κ) (k : κ) : Prop := ∀ c ∈ cursor, c < k

instance (cursor : Option κ) (k : κ) : Decidable (Past cursor k) :=
  inferInstanceAs (Decidable (∀ c ∈ cursor, c < k))

theorem past_some {c k : κ} : Past (some c) k ↔ c < k :=
  ⟨fun past => past c rfl, fun less _ here => Option.mem_some_iff.mp here ▸ less⟩

/-- No two rows have one key. -/
def Keyed (table : List α) : Prop := table.Pairwise fun a b => key a ≠ key b

/-- A page of a table: its first rows past the cursor, in the order of their keys. -/
def Page (table : List α) (cursor : Option κ) (limit : Nat) (page : List α) : Prop :=
  Firsts (fun a b => key a ≤ key b) limit (table.filter fun row => Past cursor (key row)) page

variable {key} {table sorted page read : List α} {cursor : Option κ} {limit : Nat} {row last : α}

theorem Keyed.strict (keyed : Keyed key table) (perm : sorted.Perm table)
    (ordered : sorted.Pairwise fun a b => key a ≤ key b) : sorted.Pairwise fun a b => key a < key b := by
  have distinct : sorted.Pairwise fun a b => key a ≠ key b := keyed.perm perm.symm fun apart => apart.symm
  exact (ordered.and distinct).imp fun both => lt_of_le_of_ne both.1 both.2

/-- No row of an ordered list comes after its last one. -/
theorem not_past_last (strict : page.Pairwise fun a b => key a < key b) (ends : page.getLast? = some last)
    (member : row ∈ page) : ¬Past (some (key last)) (key row) := by
  obtain ⟨init, rfl⟩ := List.getLast?_eq_some_iff.mp ends
  rw [past_some, not_lt]
  rcases List.mem_append.mp member with before | same
  · exact ((List.pairwise_append.mp strict).2.2 row before last (List.mem_singleton_self last)).le
  · rw [List.mem_singleton.mp same]

theorem Page.mem (paged : Page key table cursor limit page) (member : row ∈ page) : row ∈ table ∧ Past cursor (key row) := by
  have inside := Firsts.subset paged row member
  rwa [List.mem_filter, decide_eq_true_iff] at inside

theorem Page.length_le (paged : Page key table cursor limit page) : page.length ≤ limit := by
  have length := Firsts.length paged
  omega

/-- The page, and the rows that it leaves, in order. -/
theorem Page.split (paged : Page key table cursor limit page) (keyed : Keyed key table) : ∃ left : List α,
    (page ++ left).Perm (table.filter fun row => Past cursor (key row)) ∧
      (page ++ left).Pairwise (fun a b => key a < key b) ∧ (page.length < limit → left = []) := by
  obtain ⟨sorted, perm, ordered, rfl⟩ := paged
  refine ⟨sorted.drop limit, ?_, ?_, fun short => ?_⟩
  · rwa [List.take_append_drop]
  · rw [List.take_append_drop]
    exact Keyed.strict (keyed.filter _) perm ordered
  · rw [List.length_take] at short
    exact List.drop_of_length_le (by omega)

theorem Page.ordered (paged : Page key table cursor limit page) (keyed : Keyed key table) :
    page.Pairwise fun a b => key a < key b := by
  obtain ⟨left, -, strict, -⟩ := paged.split keyed
  exact (List.pairwise_append.mp strict).1

/-- A page leaves out no row up to its last one. -/
theorem Page.mem_of_le (paged : Page key table cursor limit page) (keyed : Keyed key table) (inside : row ∈ table)
    (past : Past cursor (key row)) (member : last ∈ page) (below : key row ≤ key last) : row ∈ page := by
  obtain ⟨left, perm, strict, -⟩ := paged.split keyed
  have found : row ∈ page ++ left := perm.mem_iff.mpr (List.mem_filter.mpr ⟨inside, decide_eq_true past⟩)
  refine (List.mem_append.mp found).resolve_right fun later => ?_
  exact absurd ((List.pairwise_append.mp strict).2.2 last member row later) (not_lt.mpr below)

/-- A page that is not full leaves out no row. -/
theorem Page.mem_of_short (paged : Page key table cursor limit page) (keyed : Keyed key table) (short : page.length < limit)
    (inside : row ∈ table) (past : Past cursor (key row)) : row ∈ page := by
  obtain ⟨left, perm, -, nothing⟩ := paged.split keyed
  have found : row ∈ page ++ left := perm.mem_iff.mpr (List.mem_filter.mpr ⟨inside, decide_eq_true past⟩)
  rwa [nothing short, List.append_nil] at found

/-- Past the last row of a page come the rows that it left. -/
theorem Page.rest (paged : Page key table cursor limit page) (keyed : Keyed key table) (ends : page.getLast? = some last) :
    (table.filter fun row => Past (some (key last)) (key row)).length + page.length =
      (table.filter fun row => Past cursor (key row)).length := by
  have member := List.mem_of_getLast? ends
  have past := (paged.mem member).2
  obtain ⟨left, perm, strict, -⟩ := paged.split keyed
  obtain ⟨before, -, across⟩ := List.pairwise_append.mp strict
  have again : (table.filter fun row => Past (some (key last)) (key row)) =
      (table.filter fun row => Past cursor (key row)).filter fun row => Past (some (key last)) (key row) := by
    rw [List.filter_filter]
    refine List.filter_congr fun row _ => ?_
    rw [Bool.eq_iff_iff, Bool.and_eq_true, decide_eq_true_iff, decide_eq_true_iff]
    exact ⟨fun beyond => ⟨beyond, fun c here => (past c here).trans (past_some.mp beyond)⟩, fun both => both.1⟩
  have none : page.filter (fun row => Past (some (key last)) (key row)) = [] := by
    refine List.filter_eq_nil_iff.mpr fun row inside => ?_
    rw [decide_eq_true_iff]
    exact not_past_last before ends inside
  have all : left.filter (fun row => Past (some (key last)) (key row)) = left := by
    refine List.filter_eq_self.mpr fun row later => decide_eq_true ?_
    exact past_some.mpr (across last member row later)
  rw [again, ← (perm.filter _).length_eq, ← perm.length_eq, List.filter_append, none, all, List.nil_append,
    List.length_append, Nat.add_comm]

/-- How far a scan has come: what it has read is in order and up to the cursor, and of the rows
that stay in the table it has missed none up to there. -/
structure Scanned (key : α → κ) (stays : α → Prop) (cursor : Option κ) (read : List α) : Prop where
  ordered : read.Pairwise fun a b => key a < key b
  reached : ∀ a ∈ read, ¬Past cursor (key a)
  missed : ∀ a, stays a → a ∉ read → Past cursor (key a)

variable {stays : α → Prop}

theorem scanned_nil : Scanned key stays none ([] : List α) where
  ordered := .nil
  reached _ member := absurd member List.not_mem_nil
  missed _ _ _ c none := absurd none (Option.not_mem_none c)

theorem Scanned.appended (scanned : Scanned key stays cursor read) (paged : Page key table cursor limit page)
    (keyed : Keyed key table) : (read ++ page).Pairwise fun a b => key a < key b := by
  refine List.pairwise_append.mpr ⟨scanned.ordered, paged.ordered keyed, fun a inside b member => ?_⟩
  have reached := scanned.reached a inside
  have past := (paged.mem member).2
  unfold Past at reached
  push Not at reached
  obtain ⟨c, here, le⟩ := reached
  exact lt_of_le_of_lt le (past c here)

/-- The next page, with the cursor moved to its last row. -/
theorem Scanned.next (scanned : Scanned key stays cursor read) (paged : Page key table cursor limit page)
    (keyed : Keyed key table) (there : ∀ a, stays a → a ∈ table) (ends : page.getLast? = some last) :
    Scanned key stays (some (key last)) (read ++ page) := by
  have ordered := scanned.appended paged keyed
  have final : (read ++ page).getLast? = some last := by rw [List.getLast?_append, ends, Option.some_or]
  refine ⟨ordered, fun a inside => not_past_last ordered final inside, fun a stay fresh => ?_⟩
  rw [List.mem_append, not_or] at fresh
  rw [past_some]
  by_contra below
  have past := scanned.missed a stay fresh.1
  exact fresh.2 (paged.mem_of_le keyed (there a stay) past (List.mem_of_getLast? ends) (not_lt.mp below))

/-- The scan ends with a page that is not full. -/
theorem Scanned.all (scanned : Scanned key stays cursor read) (paged : Page key table cursor limit page)
    (keyed : Keyed key table) (there : ∀ a, stays a → a ∈ table) (short : page.length < limit) (stay : stays row) :
    row ∈ read ++ page := by
  by_contra fresh
  rw [List.mem_append, not_or] at fresh
  exact fresh.2 (paged.mem_of_short keyed short (there row stay) (scanned.missed row stay fresh.1))

end Opale.Relations
