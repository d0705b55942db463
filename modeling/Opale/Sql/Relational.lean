import Opale.Sql.Cells
import Opale.Sql.Table

namespace Opale.Sql

/-- A database of several tables, each under its name. -/
abbrev Tables {Name : Type} (Row : Name → Type) := (n : Name) → Table (Row n)

/-- A row of one of the tables, written under its key or deleted. -/
structure RowChange {Name : Type} (Row : Name → Type) where
  table : Name
  key : Nat
  row : Option (Row table)

/-- The lock of a row, and that of an entry of a unique index. -/
inductive RowLock (Name Entry : Type) where
  | row (table : Name) (key : Nat)
  | entry (e : Entry)
  deriving DecidableEq

/-- The identifier of a request, as it is written there: PostgreSQL reads the same UUID in capitals too.
The spelling 0 is its own. -/
structure Uuid where
  id : Nat
  spelling : Nat
  deriving DecidableEq

namespace Table

variable {Row : Type}

/-- The table after these rows are written or deleted. -/
def putAll (rows : List (Nat × Option Row)) (table : Table Row) : Table Row :=
  rows.foldl (fun table e => table.put e.1 e.2) table

/-- What an UPDATE does to the rows that satisfy its WHERE clause. -/
def updated (table : Table Row) (p : Nat → Row → Bool) (set : Row → Row) : List (Nat × Option Row) :=
  (table.update p set).map fun e => (e.1, some e.2)

/-- What a DELETE does to the rows that satisfy its WHERE clause. -/
def deleted (table : Table Row) (p : Nat → Row → Bool) : List (Nat × Option Row) :=
  (table.select p).map fun e => (e.1, none)

theorem getElem?_putAll_of_notMem {rows : List (Nat × Option Row)} {id : Nat} (outside : id ∉ rows.map Prod.fst)
    (table : Table Row) : (putAll rows table)[id]? = table[id]? := by
  induction rows generalizing table with
  | nil => rfl
  | cons e rows ih =>
    rw [List.map_cons, List.mem_cons, not_or] at outside
    exact (ih outside.2 _).trans (getElem?_put_of_ne table outside.1 _)

theorem getElem?_putAll_of_mem {rows : List (Nat × Option Row)} {id : Nat} {row : Option Row}
    (member : (id, row) ∈ rows) (once : (rows.map Prod.fst).Nodup) (table : Table Row) :
    (putAll rows table)[id]? = row := by
  induction rows generalizing table with
  | nil => exact absurd member List.not_mem_nil
  | cons e rows ih =>
    rw [List.map_cons, List.nodup_cons] at once
    rcases List.mem_cons.mp member with rfl | later
    · exact (getElem?_putAll_of_notMem once.1 _).trans (getElem?_put_self table id _)
    · exact ih later once.2 _

theorem keys_updated (table : Table Row) (p : Nat → Row → Bool) (set : Row → Row) :
    ((table.updated p set).map Prod.fst).Nodup := by
  unfold updated
  rw [List.map_map]
  exact table.keys_update p set

theorem keys_deleted (table : Table Row) (p : Nat → Row → Bool) : ((table.deleted p).map Prod.fst).Nodup := by
  unfold deleted
  rw [List.map_map]
  exact table.keys_select p

theorem mem_updated {table : Table Row} {p : Nat → Row → Bool} {set : Row → Row} {id : Nat} {row₁ : Option Row} :
    (id, row₁) ∈ table.updated p set ↔ ∃ row, table[id]? = some row ∧ p id row = true ∧ some (set row) = row₁ := by
  unfold updated
  rw [List.mem_map]
  constructor
  · intro ⟨⟨key, row⟩, member, same⟩
    cases same
    obtain ⟨before, found, satisfied, rfl⟩ := mem_update.mp member
    exact ⟨before, found, satisfied, rfl⟩
  · intro ⟨row, found, satisfied, same⟩
    exact ⟨(id, set row), mem_update.mpr ⟨row, found, satisfied, rfl⟩, by rw [same]⟩

theorem mem_deleted {table : Table Row} {p : Nat → Row → Bool} {id : Nat} {row₁ : Option Row} :
    (id, row₁) ∈ table.deleted p ↔ (∃ row, table[id]? = some row ∧ p id row = true) ∧ row₁ = none := by
  unfold deleted
  rw [List.mem_map]
  constructor
  · intro ⟨⟨key, row⟩, member, same⟩
    cases same
    exact ⟨⟨row, mem_select.mp member⟩, rfl⟩
  · intro ⟨⟨row, selected⟩, gone⟩
    exact ⟨(id, row), mem_select.mpr selected, by rw [gone]⟩

/-- The table after an UPDATE, row by row. -/
theorem getElem?_putAll_updated (table : Table Row) (p : Nat → Row → Bool) (set : Row → Row) (id : Nat) :
    (putAll (table.updated p set) table)[id]? = table[id]?.map fun row => if p id row then set row else row := by
  by_cases inside : id ∈ (table.updated p set).map Prod.fst
  · obtain ⟨⟨_, row⟩, member, rfl⟩ := List.mem_map.mp inside
    rw [getElem?_putAll_of_mem member (table.keys_updated p set)]
    obtain ⟨before, found, satisfied, same⟩ := mem_updated.mp member
    rw [found, Option.map_some, if_pos satisfied, same]
  · rw [getElem?_putAll_of_notMem inside]
    cases found : table[id]? with
    | none => rfl
    | some row =>
      rw [Option.map_some, if_neg]
      intro satisfied
      exact inside (List.mem_map_of_mem (mem_updated.mpr ⟨row, found, satisfied, rfl⟩))

/-- The table after a DELETE, row by row. -/
theorem getElem?_putAll_deleted (table : Table Row) (p : Nat → Row → Bool) (id : Nat) :
    (putAll (table.deleted p) table)[id]? = table[id]?.filter fun row => !p id row := by
  by_cases inside : id ∈ (table.deleted p).map Prod.fst
  · obtain ⟨⟨_, row⟩, member, rfl⟩ := List.mem_map.mp inside
    rw [getElem?_putAll_of_mem member (table.keys_deleted p)]
    obtain ⟨⟨before, found, satisfied⟩, gone⟩ := mem_deleted.mp member
    rw [found, Option.filter_some, satisfied]
    exact gone
  · rw [getElem?_putAll_of_notMem inside]
    cases found : table[id]? with
    | none => rfl
    | some row =>
      have kept : p id row = false := by
        rw [← Bool.not_eq_true]
        intro satisfied
        exact inside (List.mem_map_of_mem (mem_deleted.mpr ⟨⟨row, found, satisfied⟩, rfl⟩))
      rw [Option.filter_some, kept]
      rfl

theorem getElem?_putAll_singleton (table : Table Row) (id other : Nat) (row : Option Row) :
    (putAll [(id, row)] table)[other]? = if other = id then row else table[other]? := by
  have here : putAll [(id, row)] table = table.put id row := rfl
  rw [here]
  split
  case isTrue same =>
    subst same
    exact getElem?_put_self ..
  case isFalse apart => exact getElem?_put_of_ne table apart row

/-- ON CONFLICT DO NOTHING: the row of the key, or this one. -/
theorem getElem?_putAll_unless (table : Table Row) (id other : Nat) (row : Row) :
    (putAll (if table.contains id then [] else [(id, some row)]) table)[other]? =
      if other = id then some (table[id]?.getD row) else table[other]? := by
  cases found : table[id]? with
  | none =>
    have absent : table.contains id = false := by
      rw [Std.ExtTreeMap.contains_eq_isSome_getElem?, found]
      rfl
    rw [absent, if_neg Bool.false_ne_true, getElem?_putAll_singleton]
    rfl
  | some present =>
    have here : table.contains id = true := by
      rw [Std.ExtTreeMap.contains_eq_isSome_getElem?, found]
      rfl
    rw [here, if_pos rfl]
    split
    case isTrue same =>
      rw [same]
      exact found
    case isFalse => rfl

/-- A DELETE by the primary key. -/
theorem getElem?_putAll_deleted_key (table : Table Row) (id other : Nat) :
    (putAll (table.deleted fun key _ => key = id) table)[other]? = if other = id then none else table[other]? := by
  rw [getElem?_putAll_deleted]
  split
  case isTrue same =>
    rw [decide_eq_true same]
    cases table[other]? <;> rfl
  case isFalse apart =>
    rw [decide_eq_false apart]
    cases table[other]? <;> rfl

/-- The rows of a table, and one under a new key. -/
theorem perm_toList_insert {table : Table Row} {id : Nat} (absent : table[id]? = none) (row : Row) :
    (table.insert id row).toList.Perm ((id, row) :: table.toList) := by
  have outside : (id, row) ∉ table.toList := by
    rw [Std.ExtTreeMap.mem_toList_iff_getElem?_eq_some, absent]
    nofun
  have once : ((id, row) :: table.toList).Nodup := List.nodup_cons.mpr ⟨outside, .of_map _ table.keys_toList⟩
  rw [List.perm_ext_iff_of_nodup (.of_map _ (keys_toList _)) once]
  rintro ⟨key, other⟩
  rw [List.mem_cons, Std.ExtTreeMap.mem_toList_iff_getElem?_eq_some, Std.ExtTreeMap.mem_toList_iff_getElem?_eq_some]
  by_cases same : key = id
  · subst same
    rw [getElem?_insert_self, absent]
    constructor
    · intro here
      cases here
      exact .inl rfl
    · rintro (here | there)
      · cases here
        rfl
      · cases there
  · rw [getElem?_insert_of_ne table same]
    refine ⟨.inr, fun either => either.resolve_left fun here => ?_⟩
    cases here
    exact same rfl

end Table

variable {Name Entry : Type} [DecidableEq Name] {Row : Name → Type}

namespace RowChange

def apply (c : RowChange Row) (db : Tables Row) : Tables Row :=
  Function.update db c.table ((db c.table).put c.key c.row)

/-- A change locks its row, and the index entries of what it writes. -/
def locks (entries : (n : Name) → Row n → List Entry) (c : RowChange Row) : List (RowLock Name Entry) :=
  .row c.table c.key :: (c.row.toList.flatMap (entries c.table)).map .entry

theorem apply_self (c : RowChange Row) (db : Tables Row) : (c.apply db c.table)[c.key]? = c.row := by
  unfold apply
  rw [Function.update_self]
  exact Table.getElem?_put_self ..

theorem apply_other {c : RowChange Row} {n : Name} (apart : n ≠ c.table) (db : Tables Row) : c.apply db n = db n :=
  Function.update_of_ne apart ..

theorem apply_of_ne {c : RowChange Row} {n : Name} {k : Nat} (apart : ¬(n = c.table ∧ k = c.key)) (db : Tables Row) :
    (c.apply db n)[k]? = (db n)[k]? := by
  unfold apply
  by_cases same : n = c.table
  · subst same
    rw [Function.update_self]
    exact Table.getElem?_put_of_ne _ (fun here => apart ⟨rfl, here⟩) _
  · rw [Function.update_of_ne same]

theorem commute (entries : (n : Name) → Row n → List Entry) (c d : RowChange Row) (db : Tables Row)
    (apart : ∀ k ∈ c.locks entries, k ∉ d.locks entries) : c.apply (d.apply db) = d.apply (c.apply db) := by
  have differ : ¬(c.table = d.table ∧ c.key = d.key) := by
    rintro ⟨table, key⟩
    refine apart (.row c.table c.key) List.mem_cons_self ?_
    rw [table, key]
    exact List.mem_cons_self
  funext n
  apply Std.ExtTreeMap.ext_getElem?
  intro k
  by_cases first : n = c.table ∧ k = c.key
  · obtain ⟨rfl, rfl⟩ := first
    rw [apply_self, apply_of_ne differ, apply_self]
  · by_cases second : n = d.table ∧ k = d.key
    · obtain ⟨rfl, rfl⟩ := second
      rw [apply_self, apply_of_ne first, apply_self]
    · rw [apply_of_ne first, apply_of_ne second, apply_of_ne second, apply_of_ne first]

end RowChange

/-- The changes that write these rows of one table. -/
def writes (n : Name) (rows : List (Nat × Option (Row n))) : List (RowChange Row) := rows.map fun e => ⟨n, e.1, e.2⟩

variable {Stmt : Type} {Ans : Stmt → Type} {Draw : Type}

/-- The statements of an application over such a database; `entries` are its unique indexes. -/
def relational (entries : (n : Name) → Row n → List Entry)
    (run : (s : Stmt) → Draw → Tables Row → Option (Outcome (RowChange Row) (RowLock Name Entry) (Ans s))) :
    Schema Ans (Tables Row) (RowChange Row) (RowLock Name Entry) Draw where
  run := run
  apply := RowChange.apply
  locks := RowChange.locks entries
  commute := RowChange.commute entries

variable {entries : (n : Name) → Row n → List Entry}
variable {run : (s : Stmt) → Draw → Tables Row → Option (Outcome (RowChange Row) (RowLock Name Entry) (Ans s))}

theorem applyAll_writes_self (n : Name) (rows : List (Nat × Option (Row n))) (db : Tables Row) :
    (relational entries run).applyAll (writes n rows) db n = Table.putAll rows (db n) := by
  induction rows generalizing db with
  | nil => rfl
  | cons e rows ih =>
    have here := ih (RowChange.apply ⟨n, e.1, e.2⟩ db)
    unfold RowChange.apply at here
    rw [Function.update_self] at here
    exact here

theorem applyAll_writes_of_ne {n other : Name} (apart : other ≠ n) (rows : List (Nat × Option (Row n)))
    (db : Tables Row) : (relational entries run).applyAll (writes n rows) db other = db other := by
  induction rows generalizing db with
  | nil => rfl
  | cons e rows ih =>
    have here := ih (RowChange.apply ⟨n, e.1, e.2⟩ db)
    unfold RowChange.apply at here
    rw [Function.update_of_ne apart] at here
    exact here

end Opale.Sql
