import Opale.Sql.Interference

namespace Opale.Sql.Schema

variable {Stmt : Type} {Ans : Stmt → Type} {Db Change Lock Draw : Type}
variable {schema : Schema Ans Db Change Lock Draw} {K α : Type}

/-- Parts of a database with a lock each: only a change that needs the lock of a part moves it. -/
structure Cells (schema : Schema Ans Db Change Lock Draw) (K α : Type) where
  part : K → Db → α
  lock : K → Lock
  frame : ∀ {k c}, lock k ∉ schema.locks c → ∀ db, part k (schema.apply c db) = part k db

namespace Cells

variable {cells : schema.Cells K α} {R : K → α → α → Prop} {P : Change → Prop}
variable {st st₁ : Store Db Change Lock} {t : Nat} {k : K}

theorem frame_all {cs : List Change} (outside : ∀ c ∈ cs, cells.lock k ∉ schema.locks c) (db : Db) :
    cells.part k (schema.applyAll cs db) = cells.part k db := by
  induction cs generalizing db with
  | nil => rfl
  | cons c cs ih =>
    have here := cells.frame (outside c List.mem_cons_self) db
    have later := ih (fun d member => outside d (List.mem_cons_of_mem c member)) (schema.apply c db)
    exact later.trans here

/-- What the transaction of `t` makes of each part, so far. -/
def Pending (cells : schema.Cells K α) (R : K → α → α → Prop) (t : Nat) (st : Store Db Change Lock) : Prop :=
  ∀ k, R k (cells.part k st.committed) (cells.part k (schema.view st t))

theorem view_of_unlocked (locked : schema.Locked st) (unlocked : st.owner (cells.lock k) ≠ some t) :
    cells.part k (schema.view st t) = cells.part k st.committed := by
  cases opened : st.session t with
  | none =>
    unfold Schema.view
    rw [opened]
    rfl
  | some s =>
    have view : schema.view st t = schema.applyAll s.changes st.committed := view_of_session opened
    rw [view]
    exact frame_all (fun c member needed => unlocked (locked t s opened c member _ needed)) _

/-- A part that `t` has locked stays as it is, in what is committed and in what `t` sees. -/
theorem locked_of_moves (moves : schema.Moves P t st st₁) (locked : schema.Locked st)
    (mine : st.owner (cells.lock k) = some t) : cells.part k st₁.committed = cells.part k st.committed ∧
      cells.part k (schema.view st₁ t) = cells.part k (schema.view st t) := by
  obtain ⟨ds, allowed, committed, view⟩ := moves.view locked
  have outside : ∀ d ∈ ds, cells.lock k ∉ schema.locks d := fun d member needed => (allowed d member).2 _ needed mine
  rw [committed, view]
  exact ⟨frame_all outside _, frame_all outside _⟩

/-- The others do not touch what a transaction has changed. -/
theorem Pending.moves (pending : cells.Pending R t st) (locked : schema.Locked st) (moves : schema.Moves P t st st₁)
    (refl : ∀ k, st.owner (cells.lock k) ≠ some t → ∀ a, R k a a) : cells.Pending R t st₁ := by
  intro k
  by_cases mine : st.owner (cells.lock k) = some t
  · obtain ⟨committed, view⟩ := locked_of_moves moves locked mine
    rw [committed, view]
    exact pending k
  · have same : cells.part k (schema.view st₁ t) = cells.part k st₁.committed := by
      unfold Schema.view
      rw [moves.session]
      cases opened : st.session t with
      | none => rfl
      | some s => exact frame_all (fun c member needed => mine (locked t s opened c member _ needed)) _
    rw [same]
    exact refl k mine _

/-- What `t` sees of a part is the same as long as nothing else is committed of it. -/
theorem view_of_moves (moves : schema.Moves P t st st₁) (locked : schema.Locked st)
    (same : cells.part k st₁.committed = cells.part k st.committed) :
    cells.part k (schema.view st₁ t) = cells.part k (schema.view st t) := by
  by_cases mine : st.owner (cells.lock k) = some t
  · exact (locked_of_moves moves locked mine).2
  · have before : cells.part k (schema.view st t) = cells.part k st.committed := view_of_unlocked locked mine
    have pending : cells.Pending (fun j a b => st.owner (cells.lock j) ≠ some t → a = b) t st :=
      fun j unlocked => (view_of_unlocked locked unlocked).symm
    have after := pending.moves locked moves (fun _ _ _ _ => rfl) k mine
    rw [before, ← after, same]

theorem Pending.closed (refl : ∀ k a, R k a a) (ended : st.session t = none) : cells.Pending R t st := by
  intro k
  unfold Schema.view
  rw [ended]
  exact refl k _

/-- A relation that the statements keep is kept by every operation: by what the transaction
sees, and by what is committed. -/
theorem Pending.exec [DecidableEq Lock] {o : SqlOp Stmt} {answer : o.Res Ans} (pending : cells.Pending R t st)
    (locked : schema.Locked st) (refl : ∀ k a, R k a a) (trans : ∀ k a b c, R k a b → R k b c → R k a c)
    (kept : ∀ s, o = .query s ∨ o = .within s → ∀ draw db out, schema.run s draw db = some out →
      ∀ k, R k (cells.part k db) (cells.part k (schema.applyAll out.changes db)))
    (run : schema.exec t o st answer st₁) :
    cells.Pending R t st₁ ∧ ∀ k, R k (cells.part k st.committed) (cells.part k st₁.committed) := by
  have still : ∀ k, R k (cells.part k st.committed) (cells.part k st.committed) := fun k => refl k _
  have closed : cells.Pending R t (st.close t) := Pending.closed refl session_close
  cases o with
  | query s =>
    obtain ⟨draw, out, ran, free, -, rfl⟩ | ⟨-, rfl⟩ := run
    · have moves : schema.Moves (fun _ => True) t st (schema.publish out.changes st) :=
        moves_query free fun _ _ => trivial
      exact ⟨pending.moves locked moves fun k _ => refl k, kept s (.inl rfl) draw _ out ran⟩
    · exact ⟨pending, still⟩
  | begin =>
    obtain ⟨-, rfl⟩ | ⟨-, rfl⟩ := run
    · unfold Store.openTx
      split
      case h_1 => exact ⟨fun k => by simpa [Schema.view] using refl k _, still⟩
      case h_2 => exact ⟨pending, still⟩
    · exact ⟨pending, still⟩
  | within s =>
    simp only [Schema.exec] at run
    split at run
    case h_1 changes opened =>
      obtain ⟨draw, out, ran, -, -, rfl⟩ | ⟨-, rfl⟩ := run
      · refine ⟨fun k => ?_, still⟩
        rw [view_write opened]
        exact trans k _ _ _ (pending k) (kept s (.inr rfl) draw _ out ran k)
      · refine ⟨fun k => ?_, still⟩
        have same : schema.view (st.fail t) t = schema.view st t := by
          rw [view_of_session (session_fail opened), view_of_session opened]
          rfl
        rw [same]
        exact pending k
    case h_2 =>
      obtain ⟨-, rfl⟩ := run
      exact ⟨pending, still⟩
  | commit =>
    simp only [Schema.exec] at run
    split at run
    case h_1 changes opened =>
      obtain rfl | ⟨-, rfl⟩ := run
      · refine ⟨Pending.closed refl session_close, fun k => ?_⟩
        have seen := pending k
        rw [view_of_session opened] at seen
        exact seen
      · exact ⟨closed, still⟩
    case h_2 =>
      cases run
      exact ⟨closed, still⟩
  | rollback =>
    cases run
    exact ⟨closed, still⟩

/-- The same for the others, when the statements of all transactions keep the relation. -/
theorem Pending.exec_all [DecidableEq Lock] {o : SqlOp Stmt} {answer : o.Res Ans} (pending : ∀ u, cells.Pending R u st)
    (locked : schema.Locked st) (refl : ∀ k a, R k a a) (trans : ∀ k a b c, R k a b → R k b c → R k a c)
    (kept : ∀ s draw db out, schema.run s draw db = some out →
      ∀ k, R k (cells.part k db) (cells.part k (schema.applyAll out.changes db)))
    (run : schema.exec t o st answer st₁) :
    (∀ u, cells.Pending R u st₁) ∧ ∀ k, R k (cells.part k st.committed) (cells.part k st₁.committed) := by
  obtain ⟨mine, committed⟩ := (pending t).exec locked refl trans (fun s _ => kept s) run
  refine ⟨fun u => ?_, committed⟩
  by_cases same : u = t
  · rw [same]
    exact mine
  · exact (pending u).moves locked ((exec_moves locked run).2 u same) fun k _ => refl k

end Cells

end Opale.Sql.Schema
