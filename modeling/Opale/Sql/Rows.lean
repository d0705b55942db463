import Opale.Sql.Relational
import Opale.Sql.Transactions

namespace Opale.Sql

variable {Name Entry : Type} [DecidableEq Name] {Row : Name → Type} {Stmt : Type} {Ans : Stmt → Type} {Draw : Type}
variable {entries : (n : Name) → Row n → List Entry}
variable {run : (s : Stmt) → Draw → Tables Row → Option (Outcome (RowChange Row) (RowLock Name Entry) (Ans s))}

variable (entries run) in
/-- Changes either write a row, the same whatever was there, or leave it. -/
theorem applyAll_row (cs : List (RowChange Row)) (n : Name) (k : Nat) :
    ((∃ c ∈ cs, c.table = n ∧ c.key = k) ∧ ∃ row, ∀ db, ((relational entries run).applyAll cs db n)[k]? = row) ∨
      ∀ db, ((relational entries run).applyAll cs db n)[k]? = (db n)[k]? := by
  induction cs with
  | nil => exact .inr fun _ => rfl
  | cons c cs ih =>
    obtain ⟨⟨d, member, here⟩, row, same⟩ | same := ih
    · exact .inl ⟨⟨d, List.mem_cons_of_mem c member, here⟩, row, fun db => same (c.apply db)⟩
    · by_cases here : n = c.table ∧ k = c.key
      · obtain ⟨rfl, rfl⟩ := here
        exact .inl ⟨⟨c, List.mem_cons_self, rfl, rfl⟩, c.row, fun db => (same (c.apply db)).trans (c.apply_self db)⟩
      · exact .inr fun db => (same (c.apply db)).trans (RowChange.apply_of_ne here db)

/-- What others commit meets what a transaction sees in no row: where they write, it has written nothing. -/
theorem Contract.Agree.row {owned : Set (RowLock Name Entry)} {committed view : Tables Row} {ds : List (RowChange Row)}
    (agree : Contract.Agree (relational entries run) owned committed view)
    (outside : ∀ d ∈ ds, ∀ k ∈ (relational entries run).locks d, k ∉ owned) (n : Name) (k : Nat) :
    ((view n)[k]? = (committed n)[k]? ∧ ((relational entries run).applyAll ds view n)[k]? =
        ((relational entries run).applyAll ds committed n)[k]? ∧ .row n k ∉ owned) ∨
      (((relational entries run).applyAll ds view n)[k]? = (view n)[k]? ∧
        ((relational entries run).applyAll ds committed n)[k]? = (committed n)[k]?) := by
  obtain ⟨⟨d, member, rfl, rfl⟩, row, same⟩ | same := applyAll_row entries run ds n k
  · have free : .row d.table d.key ∉ owned := outside d member _ List.mem_cons_self
    refine .inl ⟨?_, (same view).trans (same committed).symm, free⟩
    obtain ⟨cs, locked, rfl⟩ := agree
    obtain ⟨⟨c, inside, table, key⟩, -⟩ | kept := applyAll_row entries run cs d.table d.key
    · exact absurd (table ▸ key ▸ locked c inside (.row c.table c.key) List.mem_cons_self) free
    · exact kept committed
  · exact .inr ⟨same view, same committed⟩

/-- A row that a transaction has locked is left by the others. -/
theorem applyAll_owned {owned : Set (RowLock Name Entry)} {ds : List (RowChange Row)} {n : Name} {k : Nat}
    (outside : ∀ d ∈ ds, ∀ k ∈ (relational entries run).locks d, k ∉ owned) (mine : .row n k ∈ owned) (db : Tables Row) :
    ((relational entries run).applyAll ds db n)[k]? = (db n)[k]? := by
  obtain ⟨⟨d, member, rfl, rfl⟩, -⟩ | same := applyAll_row entries run ds n k
  · exact absurd mine (outside d member _ List.mem_cons_self)
  · exact same db

end Opale.Sql
