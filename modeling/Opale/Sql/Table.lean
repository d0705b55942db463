import Mathlib.Data.List.Nodup
import Mathlib.Tactic.Common

namespace Opale.Sql

/-- A table, its rows by primary key. -/
abbrev Table (Row : Type) := Std.ExtTreeMap Nat Row

namespace Table

variable {Row : Type}

/-- The rows that satisfy a WHERE clause, with their keys. -/
def select (table : Table Row) (p : Nat → Row → Bool) : List (Nat × Row) :=
  table.toList.filter fun e => p e.1 e.2

/-- ORDER BY: the rows as `order` lists them, when this is an order that `le` allows. Which
of these orders the server picks is left open. -/
def orderBy (rows : List (Nat × Row)) (le : Row → Row → Bool) (order : List Nat) : Option (List (Nat × Row)) :=
  let sorted := order.filterMap fun id => rows.find? (·.1 = id)
  if order.isPerm (rows.map Prod.fst) && sorted.Pairwise (fun a b => le a.2 b.2) then some sorted else none

/-- A row written under its key, or deleted. -/
def put (table : Table Row) (id : Nat) : Option Row → Table Row
  | some row => table.insert id row
  | none => table.erase id

/-- What an UPDATE writes: `set` of the rows that satisfy its WHERE clause. -/
def update (table : Table Row) (p : Nat → Row → Bool) (set : Row → Row) : List (Nat × Row) :=
  (table.select p).map fun e => (e.1, set e.2)

/-- The table after these rows are written. -/
def write (rows : List (Nat × Row)) (table : Table Row) : Table Row :=
  rows.foldl (fun table e => table.put e.1 (some e.2)) table

/-- NULLS FIRST, then in ascending order. -/
def nullsFirst : Option Int → Option Int → Bool
  | none, _ => true
  | some _, none => false
  | some a, some b => a ≤ b

theorem mem_select {table : Table Row} {p : Nat → Row → Bool} {id : Nat} {row : Row} :
    (id, row) ∈ table.select p ↔ table[id]? = some row ∧ p id row = true := by
  unfold select
  rw [List.mem_filter, Std.ExtTreeMap.mem_toList_iff_getElem?_eq_some]

theorem mem_orderBy {rows sorted : List (Nat × Row)} {le : Row → Row → Bool} {order : List Nat}
    (picked : orderBy rows le order = some sorted) {e : Nat × Row} (member : e ∈ sorted) : e ∈ rows := by
  unfold orderBy at picked
  dsimp only at picked
  split at picked
  · cases picked
    obtain ⟨id, _, found⟩ := List.mem_filterMap.mp member
    exact List.mem_of_find?_eq_some found
  · cases picked

theorem insert_comm (table : Table Row) {i j : Nat} (apart : i ≠ j) (a b : Row) :
    (table.insert j b).insert i a = (table.insert i a).insert j b := by
  ext k row
  simp only [Std.ExtTreeMap.getElem?_insert]
  grind

@[simp] theorem getElem?_insert_self (table : Table Row) (id : Nat) (row : Row) :
    (table.insert id row)[id]? = some row := Std.ExtTreeMap.getElem?_insert_self

theorem getElem?_insert_of_ne (table : Table Row) {id other : Nat} (apart : other ≠ id) (row : Row) :
    (table.insert id row)[other]? = table[other]? := by
  rw [Std.ExtTreeMap.getElem?_insert, if_neg]
  rw [Std.LawfulEqCmp.compare_eq_iff_eq]
  exact fun same => apart same.symm

@[simp] theorem getElem?_put_self (table : Table Row) (id : Nat) (row : Option Row) :
    (table.put id row)[id]? = row := by
  cases row with
  | none => exact Std.ExtTreeMap.getElem?_erase_self
  | some row => exact getElem?_insert_self table id row

theorem getElem?_put_of_ne (table : Table Row) {id other : Nat} (apart : other ≠ id) (row : Option Row) :
    (table.put id row)[other]? = table[other]? := by
  cases row with
  | none =>
    change (table.erase id)[other]? = _
    rw [Std.ExtTreeMap.getElem?_erase, if_neg]
    rw [Std.LawfulEqCmp.compare_eq_iff_eq]
    exact fun same => apart same.symm
  | some row => exact getElem?_insert_of_ne table apart row

theorem put_comm (table : Table Row) {i j : Nat} (apart : i ≠ j) (a b : Option Row) :
    (table.put j b).put i a = (table.put i a).put j b := by
  apply Std.ExtTreeMap.ext_getElem?
  intro k
  by_cases first : k = i
  · subst first
    rw [getElem?_put_self, getElem?_put_of_ne _ apart, getElem?_put_self]
  · rw [getElem?_put_of_ne _ first]
    by_cases second : k = j
    · subst second
      rw [getElem?_put_self, getElem?_put_self]
    · rw [getElem?_put_of_ne _ second, getElem?_put_of_ne _ second, getElem?_put_of_ne _ first]

theorem keys_toList (table : Table Row) : (table.toList.map Prod.fst).Nodup := by
  have distinct := Std.ExtTreeMap.distinct_keys_toList (t := table)
  rw [List.Nodup, List.pairwise_map]
  refine distinct.imp fun differ same => differ ?_
  rw [same]
  exact Std.ReflCmp.compare_self

theorem keys_select (table : Table Row) (p : Nat → Row → Bool) : ((table.select p).map Prod.fst).Nodup :=
  table.keys_toList.sublist (List.filter_sublist.map Prod.fst)

/-- A WHERE clause on the primary key. -/
theorem select_key (table : Table Row) (key : Nat) :
    table.select (fun id _ => id = key) = (table[key]?.map fun row => (key, row)).toList := by
  have once := List.Nodup.of_map _ (table.keys_select fun id _ => id = key)
  have member : ∀ e, e ∈ table.select (fun id _ => id = key) ↔ e ∈ table[key]?.map fun row => (key, row) := by
    rintro ⟨id, row⟩
    rw [mem_select, decide_eq_true_eq, Option.mem_def, Option.map_eq_some_iff]
    constructor
    · rintro ⟨found, rfl⟩
      exact ⟨row, found, rfl⟩
    · rintro ⟨_, found, same⟩
      cases same
      exact ⟨found, rfl⟩
  cases found : table[key]?.map fun row => (key, row) with
  | none =>
    refine List.eq_nil_iff_forall_not_mem.mpr fun e inside => ?_
    rw [member, found] at inside
    cases inside
  | some e =>
    have here : e ∈ table.select (fun id _ => id = key) := (member e).mpr found
    have only : ∀ d ∈ table.select (fun id _ => id = key), d = e := by
      intro d inside
      rw [member, found] at inside
      exact (Option.some.inj inside).symm
    exact List.perm_singleton.mp ((List.perm_ext_iff_of_nodup once (List.nodup_singleton e)).mpr fun d =>
      ⟨fun inside => List.mem_singleton.mpr (only d inside), fun inside => List.mem_singleton.mp inside ▸ here⟩)

theorem update_key (table : Table Row) (key : Nat) (set : Row → Row) :
    table.update (fun id _ => id = key) set = (table[key]?.map fun row => (key, set row)).toList := by
  unfold update
  rw [select_key]
  cases table[key]? <;> rfl

theorem mem_update {table : Table Row} {p : Nat → Row → Bool} {set : Row → Row} {id : Nat} {row₁ : Row} :
    (id, row₁) ∈ table.update p set ↔ ∃ row, table[id]? = some row ∧ p id row = true ∧ set row = row₁ := by
  unfold update
  rw [List.mem_map]
  constructor
  · intro ⟨⟨key, row⟩, selected, same⟩
    cases same
    obtain ⟨found, satisfied⟩ := mem_select.mp selected
    exact ⟨row, found, satisfied, rfl⟩
  · intro ⟨row, found, satisfied, same⟩
    exact ⟨(id, row), mem_select.mpr ⟨found, satisfied⟩, by rw [same]⟩

theorem keys_update (table : Table Row) (p : Nat → Row → Bool) (set : Row → Row) :
    ((table.update p set).map Prod.fst).Nodup := by
  unfold update
  rw [List.map_map]
  exact table.keys_select p

/-- A sorted result lists the same keys, each once. -/
theorem keys_orderBy {rows sorted : List (Nat × Row)} {le : Row → Row → Bool} {order : List Nat}
    (picked : orderBy rows le order = some sorted) (once : (rows.map Prod.fst).Nodup) :
    (sorted.map Prod.fst).Nodup := by
  unfold orderBy at picked
  dsimp only at picked
  split at picked
  · rename_i allowed
    cases picked
    rw [Bool.and_eq_true, List.isPerm_iff] at allowed
    have distinct : order.Nodup := allowed.1.nodup_iff.mpr once
    refine distinct.sublist ?_
    clear distinct allowed
    induction order with
    | nil => exact List.Sublist.slnil
    | cons id order ih =>
      rw [List.filterMap_cons]
      cases found : rows.find? (·.1 = id) with
      | none => exact ih.cons id
      | some e =>
        have key := List.find?_some found
        rw [decide_eq_true_eq] at key
        rw [List.map_cons, key]
        exact ih.cons_cons id
  · cases picked

/-- A sorted result has all the rows. -/
theorem mem_of_orderBy {rows sorted : List (Nat × Row)} {le : Row → Row → Bool} {order : List Nat}
    (picked : orderBy rows le order = some sorted) (once : (rows.map Prod.fst).Nodup) {e : Nat × Row} (member : e ∈ rows) :
    e ∈ sorted := by
  unfold orderBy at picked
  dsimp only at picked
  split at picked
  · rename_i allowed
    cases picked
    rw [Bool.and_eq_true, List.isPerm_iff] at allowed
    refine List.mem_filterMap.mpr ⟨e.1, allowed.1.mem_iff.mpr (List.mem_map_of_mem member), ?_⟩
    cases found : rows.find? (·.1 = e.1) with
    | none => exact absurd (List.find?_eq_none.mp found e member) (by simp)
    | some d =>
      have key := List.find?_some found
      rw [decide_eq_true_eq] at key
      rw [List.inj_on_of_nodup_map once (List.mem_of_find?_eq_some found) member key]
  · cases picked

/-- The first row of a sorted result comes before the others. -/
theorem le_head_orderBy {rows sorted : List (Nat × Row)} {le : Row → Row → Bool} {order : List Nat}
    (picked : orderBy rows le order = some sorted) (once : (rows.map Prod.fst).Nodup) {first e : Nat × Row}
    (head : sorted.head? = some first) (member : e ∈ rows) : e = first ∨ le first.2 e.2 = true := by
  have inside := mem_of_orderBy picked once member
  unfold orderBy at picked
  dsimp only at picked
  split at picked
  · rename_i allowed
    rw [Bool.and_eq_true, decide_eq_true_eq] at allowed
    cases picked
    have pairs := allowed.2
    obtain ⟨rest, shape⟩ := List.head?_eq_some_iff.mp head
    rw [shape] at inside pairs
    rcases List.mem_cons.mp inside with rfl | later
    · exact .inl rfl
    · exact .inr ((List.pairwise_cons.mp pairs).1 e later)
  · cases picked

theorem getElem?_write_of_notMem {rows : List (Nat × Row)} {id : Nat} (outside : id ∉ rows.map Prod.fst)
    (table : Table Row) : (write rows table)[id]? = table[id]? := by
  induction rows generalizing table with
  | nil => rfl
  | cons e rows ih =>
    rw [List.map_cons, List.mem_cons, not_or] at outside
    exact (ih outside.2 _).trans (getElem?_put_of_ne table outside.1 _)

theorem getElem?_write_of_mem {rows : List (Nat × Row)} {id : Nat} {row : Row} (member : (id, row) ∈ rows)
    (once : (rows.map Prod.fst).Nodup) (table : Table Row) : (write rows table)[id]? = some row := by
  induction rows generalizing table with
  | nil => exact absurd member List.not_mem_nil
  | cons e rows ih =>
    rw [List.map_cons, List.nodup_cons] at once
    rcases List.mem_cons.mp member with rfl | later
    · exact (getElem?_write_of_notMem once.1 _).trans (getElem?_put_self table id _)
    · exact ih later once.2 _

/-- The table after an UPDATE, row by row. -/
theorem getElem?_write_update (table : Table Row) (p : Nat → Row → Bool) (set : Row → Row) (id : Nat) :
    (write (table.update p set) table)[id]? = table[id]?.map fun row => if p id row then set row else row := by
  by_cases inside : id ∈ (table.update p set).map Prod.fst
  · obtain ⟨⟨_, row⟩, member, rfl⟩ := List.mem_map.mp inside
    rw [getElem?_write_of_mem member (table.keys_update p set)]
    obtain ⟨before, found, satisfied, same⟩ := mem_update.mp member
    rw [found, Option.map_some, if_pos satisfied, same]
  · rw [getElem?_write_of_notMem inside]
    cases found : table[id]? with
    | none => rfl
    | some row =>
      rw [Option.map_some, if_neg]
      intro satisfied
      exact inside (List.mem_map_of_mem (mem_update.mpr ⟨row, found, satisfied, rfl⟩))

end Table

end Opale.Sql
