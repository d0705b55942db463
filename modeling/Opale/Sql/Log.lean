import Opale.Sql.Interference

namespace Opale.Sql

/-- A server with its write-ahead log: the changes of every commit, in the order of the commits. -/
structure Logged (Db Change Lock : Type) where
  store : Store Db Change Lock
  log : List (List Change)

variable {Stmt : Type} {Ans : Stmt → Type} {Db Change Lock Draw : Type}

namespace Schema

/-- The same operations as in `exec`; a statement by itself is a commit of its own. -/
def logged [DecidableEq Lock] (schema : Schema Ans Db Change Lock Draw) (t : Nat) : (o : SqlOp Stmt) →
    Logged Db Change Lock → o.Res Ans → Logged Db Change Lock → Prop
  | .query s, w, answer, w₁ =>
    (∃ draw out, schema.run s draw w.store.committed = some out ∧ w.store.Free none (schema.needs out) ∧
      answer = some out.answer ∧ w₁ = ⟨schema.publish out.changes w.store, w.log ++ [out.changes]⟩) ∨
    answer = none ∧ w₁ = w
  | .commit, w, ok, w₁ =>
    match w.store.session t with
    | some ⟨changes, false⟩ =>
      w₁ = ⟨(schema.publish changes w.store).close t, w.log ++ [changes]⟩ ∨ ok = false ∧ w₁ = ⟨w.store.close t, w.log⟩
    | _ => w₁ = ⟨w.store.close t, w.log⟩
  | o, w, answer, w₁ => schema.exec t o w.store answer w₁.store ∧ w₁.log = w.log

variable {schema : Schema Ans Db Change Lock Draw} {w w₁ w₂ : Logged Db Change Lock} {t u : Nat}
variable {P Q : List Change → Prop}

/-- What the connection `t` sees of the others, commit by commit. -/
structure Grows (schema : Schema Ans Db Change Lock Draw) (P : List Change → Prop) (t : Nat)
    (w w₁ : Logged Db Change Lock) : Prop where
  session : w₁.store.session t = w.store.session t
  owner : ∀ k, w.store.owner k = some t → w₁.store.owner k = some t
  log : ∃ batches, (∀ batch ∈ batches, P batch ∧ ∀ c ∈ batch, ∀ k ∈ schema.locks c, w.store.owner k ≠ some t) ∧
    w₁.log = w.log ++ batches ∧ w₁.store.committed = schema.applyAll batches.flatten w.store.committed

theorem Grows.refl (P : List Change → Prop) (t : Nat) (w : Logged Db Change Lock) : schema.Grows P t w w :=
  ⟨rfl, fun _ owns => owns, [], fun _ member => absurd member List.not_mem_nil, (List.append_nil _).symm, rfl⟩

theorem Grows.trans (first : schema.Grows P t w w₁) (second : schema.Grows P t w₁ w₂) : schema.Grows P t w w₂ := by
  obtain ⟨session, owner, batches, allowed, log, committed⟩ := first
  obtain ⟨session₁, owner₁, later, allowed₁, log₁, committed₁⟩ := second
  refine ⟨session₁.trans session, fun k owns => owner₁ k (owner k owns), batches ++ later, fun batch member => ?_, ?_, ?_⟩
  · rcases List.mem_append.mp member with old | new
    · exact allowed batch old
    · exact ⟨(allowed₁ batch new).1, fun c inside k needed owns => (allowed₁ batch new).2 c inside k needed (owner k owns)⟩
  · rw [log₁, log, List.append_assoc]
  · rw [committed₁, committed, List.flatten_append, applyAll_append]

/-- Nothing but a statement by itself and a COMMIT writes to the log. -/
theorem Grows.of_moves (moves : schema.Moves (fun _ => False) t w.store w₁.store) (log : w₁.log = w.log) :
    schema.Grows P t w w₁ := by
  obtain ⟨session, owner, ds, allowed, committed⟩ := moves
  cases ds with
  | nil => exact ⟨session, owner, [], fun _ member => absurd member List.not_mem_nil, by rw [log, List.append_nil], committed⟩
  | cons d ds => exact ((allowed d List.mem_cons_self).1).elim

variable [DecidableEq Lock]

theorem logged_exec {o : SqlOp Stmt} {answer : o.Res Ans} (run : schema.logged t o w answer w₁) :
    schema.exec t o w.store answer w₁.store := by
  cases o with
  | query s =>
    obtain ⟨draw, out, ran, free, answered, rfl⟩ | ⟨nothing, rfl⟩ := run
    · exact .inl ⟨draw, out, ran, free, answered, rfl⟩
    · exact .inr ⟨nothing, rfl⟩
  | commit =>
    rcases opened : w.store.session t with - | ⟨changes, failed⟩
    · simp only [logged, exec, opened] at run ⊢
      rw [run]
    · cases failed with
      | true =>
        simp only [logged, exec, opened] at run ⊢
        rw [run]
      | false =>
        simp only [logged, exec, opened] at run ⊢
        obtain rfl | ⟨failed, rfl⟩ := run
        · exact .inl rfl
        · exact .inr ⟨failed, rfl⟩
  | _ => exact run.1

theorem logged_commit {changes : List Change} {ok : Bool} (opened : w.store.session t = some ⟨changes, false⟩) :
    schema.logged t .commit w ok w₁ ↔
      w₁ = ⟨(schema.publish changes w.store).close t, w.log ++ [changes]⟩ ∨ ok = false ∧ w₁ = ⟨w.store.close t, w.log⟩ := by
  simp only [logged]
  rw [opened]

theorem grows_inside {o : SqlOp Stmt} {answer : o.Res Ans} (inside : Inside o) (locked : schema.Locked w.store)
    (run : schema.exec t o w.store answer w₁.store) (log : w₁.log = w.log) (other : u ≠ t) : schema.Grows P u w w₁ :=
  .of_moves ((exec_inside inside locked run).2.2 u other) log

/-- What an operation of `t` is to the others, when what it commits is a batch with `P`. -/
theorem grows_logged {o : SqlOp Stmt} {answer : o.Res Ans} (locked : schema.Locked w.store)
    (run : schema.logged t o w answer w₁) (batches : ∀ batch, w₁.log = w.log ++ [batch] → P batch) (other : u ≠ t) :
    schema.Grows P u w w₁ := by
  cases o with
  | begin => exact grows_inside (o := .begin) trivial locked run.1 run.2 other
  | within s => exact grows_inside (o := .within s) trivial locked run.1 run.2 other
  | rollback => exact grows_inside (o := .rollback) trivial locked run.1 run.2 other
  | query s =>
    obtain ⟨draw, out, ran, free, -, rfl⟩ | ⟨-, rfl⟩ := run
    · refine ⟨rfl, fun _ owns => owns, [out.changes], fun batch member => ?_, rfl, by rw [List.flatten_singleton]; rfl⟩
      rw [List.mem_singleton] at member
      subst member
      refine ⟨batches _ rfl, fun c inside k needed owns => ?_⟩
      rcases free k (mem_needs inside needed) with nobody | nobody
      · cases nobody.symm.trans owns
      · cases nobody.symm.trans owns
    · exact .refl P u _
  | commit =>
    have closes : schema.Moves (fun _ => False) u w.store (w.store.close t) := moves_close other
    simp only [logged] at run
    split at run
    case h_1 changes opened =>
      obtain rfl | ⟨-, rfl⟩ := run
      · refine ⟨closes.session, closes.owner, [changes], fun batch member => ?_, rfl, by rw [List.flatten_singleton]; rfl⟩
        rw [List.mem_singleton] at member
        subst member
        refine ⟨batches _ rfl, fun c inside k needed owns => ?_⟩
        exact other (Option.some.inj (owns.symm.trans (locked t _ opened c inside k needed)))
      · exact .of_moves closes rfl
    case h_2 =>
      rw [run]
      exact .of_moves closes rfl

end Schema

end Opale.Sql
