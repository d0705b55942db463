import Opale.Effects.Discipline
import Opale.Sql.Transactions

namespace Opale.Sql

variable {Stmt Call : Type} {Ans : Stmt → Type} {Reply : Call → Type} {E α β : Type}
variable {Db Change Lock Draw : Type} {schema : Schema Ans Db Change Lock Draw}

/-- An operation of a transaction that nothing else disturbs: what it sees moves on, until a
statement fails. -/
def Schema.sees (schema : Schema Ans Db Change Lock Draw) (Reply : Call → Type) :
    (o : TxOp Stmt Call) → Option Db → o.Res Ans Reply → Option Db → Prop
  | .within _, _, none, seen => seen = none
  | .within q, before, some answer, seen => ∃ db draw out, before = some db ∧ schema.run q draw db = some out ∧
      answer = out.answer ∧ seen = some (schema.applyAll out.changes db)
  | .call _, before, _, seen => seen = before

/-- A body by itself, from what it sees first to what it sees last. -/
def Body.Ends (schema : Schema Ans Db Change Lock Draw) (body : Body Ans Reply E α) (before : Option Db)
    (result : Except (Thrown E) α) (seen : Option Db) : Prop :=
  Rules.Ends (schema.sees Reply) body.run before result seen

namespace Body

variable {before seen : Option Db} {value : α}

theorem Ends.ret {other : α} (ends : (pure other : Body Ans Reply E α).Ends schema before (.ok value) seen) :
    other = value ∧ seen = before := by
  cases ends
  exact ⟨rfl, rfl⟩

theorem not_ends_fail {e : E} : ¬(Body.fail e : Body Ans Reply E α).Ends schema before (.ok value) seen := by
  intro ends
  cases ends

theorem Ends.within {q : Stmt} {rest : Ans q → Body Ans Reply E α}
    (ends : (Body.within q >>= rest).Ends schema before (.ok value) seen) :
    ∃ db draw out, before = some db ∧ schema.run q draw db = some out ∧
      (rest out.answer).Ends schema (some (schema.applyAll out.changes db)) (.ok value) seen := by
  obtain ⟨answer, between, run, later⟩ := Rules.Ends.of_op ends
  cases answer with
  | none =>
    have thrown : (throw .driver : Body Ans Reply E α).Ends schema between (.ok value) seen := later
    cases thrown
  | some answer =>
    obtain ⟨db, draw, out, same, ran, rfl, rfl⟩ := run
    exact ⟨db, draw, out, same, ran, later⟩

/-- The last statement of a body. -/
theorem Ends.last {q : Stmt} {value : Ans q}
    (ends : (Body.within q : Body Ans Reply E (Ans q)).Ends schema before (.ok value) seen) :
    ∃ db draw out, before = some db ∧ schema.run q draw db = some out ∧ value = out.answer ∧
      seen = some (schema.applyAll out.changes db) := by
  obtain ⟨answer, between, run, later⟩ := Rules.Ends.of_op ends
  cases answer with
  | none => cases later
  | some answer =>
    obtain ⟨db, draw, out, same, ran, rfl, rfl⟩ := run
    cases later
    exact ⟨db, draw, out, same, ran, rfl, rfl⟩

end Body

/-- The step of a statement that succeeds. -/
theorem Schema.step_sees {q : Stmt} {rest : Option (Ans q) → Program (TxOp.Res Ans Reply) α} {db : Db} {seen : Option Db} {value : α}
    (draw : Draw) {out : Outcome Change Lock (Ans q)} (ran : schema.run q draw db = some out)
    (later : Rules.Ends (schema.sees Reply) (rest (some out.answer)) (some (schema.applyAll out.changes db)) value seen) :
    Rules.Ends (schema.sees Reply) (.op (.within q) rest) (some db) value seen := by
  have step : schema.sees Reply (.within q) (some db) (some out.answer) (some (schema.applyAll out.changes db)) :=
    ⟨db, draw, out, rfl, ran, rfl, rfl⟩
  exact .op step later

/-- The step of a statement that succeeds and changes nothing. -/
theorem Schema.step_still {q : Stmt} {rest : Option (Ans q) → Program (TxOp.Res Ans Reply) α} {db : Db} {seen : Option Db} {value : α}
    (draw : Draw) {answer : Ans q} {locks : List Lock} (ran : schema.run q draw db = some ⟨answer, [], locks⟩)
    (later : Rules.Ends (schema.sees Reply) (rest (some answer)) (some db) value seen) :
    Rules.Ends (schema.sees Reply) (.op (.within q) rest) (some db) value seen :=
  Schema.step_sees draw ran later

theorem Body.Ends.bind {body : Body Ans Reply E β} {rest : β → Body Ans Reply E α} {before seen : Option Db} {value : α}
    (ends : (body >>= rest).Ends schema before (.ok value) seen) : ∃ middle between,
      body.Ends schema before (.ok middle) between ∧ (rest middle).Ends schema between (.ok value) seen := by
  obtain ⟨result, between, first, second⟩ := Rules.Ends.of_bind ends
  cases result with
  | ok middle => exact ⟨middle, between, first, second⟩
  | error e => cases second

theorem not_sees_again {program : Program (TxOp.Res Ans Reply) α} {value : α} {db : Db} :
    ¬Rules.Ends (schema.sees Reply) program none value (some db) := by
  intro ends
  induction program with
  | ret => cases ends
  | op o rest ih =>
    obtain ⟨answer, between, run, later⟩ := Rules.Ends.of_op ends
    cases o with
    | call c =>
      obtain rfl : between = none := run
      exact ih _ later
    | within q =>
      cases answer with
      | none =>
        obtain rfl : between = none := run
        exact ih _ later
      | some answer =>
        obtain ⟨_, _, _, nothing, _⟩ := run
        cases nothing

def TxOp.Runs (allowed : Stmt → Prop) : TxOp Stmt Call → Prop
  | .within s => allowed s
  | .call _ => True

/-- The body runs no other statement. -/
def Body.Only (allowed : Stmt → Prop) (body : Body Ans Reply E α) : Prop := Program.Only (TxOp.Runs allowed) body.run

namespace Body.Only

variable {allowed weaker : Stmt → Prop}

theorem ret {value : α} : (pure value : Body Ans Reply E α).Only allowed := trivial

theorem fail {e : E} : (Body.fail e : Body Ans Reply E α).Only allowed := trivial

theorem within {q : Stmt} (ok : allowed q) : (Body.within q : Body Ans Reply E (Ans q)).Only allowed := by
  refine ⟨ok, fun answer => ?_⟩
  cases answer with
  | none => trivial
  | some _ => trivial

theorem bind {body : Body Ans Reply E β} {rest : β → Body Ans Reply E α} (first : body.Only allowed)
    (later : ∀ value, (rest value).Only allowed) : (body >>= rest).Only allowed := by
  have go (program : Program (TxOp.Res Ans Reply) (Except (Thrown E) β)) (first : Program.Only (TxOp.Runs allowed) program) :
      Program.Only (TxOp.Runs allowed) (program.bind (ExceptT.bindCont rest)) := by
    induction program with
    | ret result =>
      cases result with
      | ok value => exact later value
      | error e => trivial
    | op o next ih => exact ⟨first.1, fun answer => ih answer (first.2 answer)⟩
  exact go _ first

/-- What every statement of the body keeps. -/
theorem preserves (inv : Db → Prop) {body : Body Ans Reply E α} (only : body.Only allowed)
    (step : ∀ s draw db (out : Outcome Change Lock (Ans s)), allowed s → schema.run s draw db = some out → inv db →
      inv (schema.applyAll out.changes db)) {db db₁ : Db} {result : Except (Thrown E) α}
    (ends : body.Ends schema (some db) result (some db₁)) (here : inv db) : inv db₁ := by
  have go (program : Program (TxOp.Res Ans Reply) (Except (Thrown E) α)) (only : Program.Only (TxOp.Runs allowed) program)
      (db : Db) (ends : Rules.Ends (schema.sees Reply) program (some db) result (some db₁)) (here : inv db) : inv db₁ := by
    induction program generalizing db with
    | ret => cases ends; exact here
    | op o rest ih =>
      obtain ⟨answer, between, run, later⟩ := Rules.Ends.of_op ends
      cases o with
      | call c =>
        obtain rfl : between = some db := run
        exact ih _ (only.2 _) db later here
      | within q =>
        cases answer with
        | none =>
          obtain rfl : between = none := run
          exact absurd later not_sees_again
        | some answer =>
          obtain ⟨_, draw, out, same, ran, rfl, rfl⟩ := run
          cases same
          exact ih _ (only.2 _) _ later (step q draw db out only.1 ran here)
  exact go _ only db ends here

/-- What no statement of the body changes. -/
theorem keeps {κ : Type} (part : Db → κ) {body : Body Ans Reply E α} (only : body.Only allowed)
    (step : ∀ s draw db (out : Outcome Change Lock (Ans s)), allowed s → schema.run s draw db = some out →
      part (schema.applyAll out.changes db) = part db) {db db₁ : Db} {result : Except (Thrown E) α}
    (ends : body.Ends schema (some db) result (some db₁)) : part db₁ = part db :=
  only.preserves (fun now => part now = part db) (fun s draw _ out ok ran same => (step s draw _ out ok ran).trans same) ends rfl

end Body.Only

variable [DecidableEq Lock] {t : Nat} {st st₁ : Store Db Change Lock}

/-- What the transaction of `t` sees, while it is in order. -/
def Schema.seen (schema : Schema Ans Db Change Lock Draw) (st : Store Db Change Lock) (t : Nat) : Option Db :=
  (st.session t).bind fun s => if s.failed then none else some (schema.applyAll s.changes st.committed)

/-- The operations of a transaction commit nothing by themselves. -/
theorem ends_embed {program : Program (TxOp.Res Ans Reply) α} {value : α} {s : Session Change}
    (opened : st.session t = some s) (ends : Rules.Ends (schema.app Reply t) (App.embed program) st value st₁) :
    (∃ s₁, st₁.session t = some s₁) ∧ st₁.committed = st.committed ∧
      Rules.Ends (schema.sees Reply) program (schema.seen st t) value (schema.seen st₁ t) := by
  induction program generalizing st s with
  | ret value =>
    cases ends
    exact ⟨⟨s, opened⟩, rfl, .ret⟩
  | op o rest ih =>
    cases o with
    | call c =>
      obtain ⟨reply, w, rfl, later⟩ := Rules.Ends.of_op ends
      obtain ⟨still, committed, sees⟩ := ih _ opened later
      exact ⟨still, committed, .op rfl sees⟩
    | within q =>
      obtain ⟨answer, w, run, later⟩ := Rules.Ends.of_op ends
      have run : schema.exec t (.within q) st answer w := run
      obtain ⟨changes, failed⟩ := s
      cases failed with
      | true =>
        simp only [Schema.exec, opened] at run
        obtain ⟨rfl, rfl⟩ := run
        obtain ⟨still, committed, sees⟩ := ih _ opened later
        refine ⟨still, committed, .op ?_ sees⟩
        unfold Schema.seen
        rw [opened]
        rfl
      | false =>
        obtain ⟨draw, out, ran, -, rfl, rfl⟩ | ⟨rfl, rfl⟩ := (Schema.exec_within opened).mp run
        · have opened₁ : (st.write t out.changes (schema.needs out)).session t = some ⟨changes ++ out.changes, false⟩ :=
            Schema.session_write opened
          obtain ⟨still, committed, sees⟩ := ih _ opened₁ later
          have before : schema.seen st t = some (schema.view st t) := by
            unfold Schema.seen
            rw [opened, Schema.view_of_session opened]
            rfl
          have after : schema.seen (st.write t out.changes (schema.needs out)) t =
              some (schema.applyAll out.changes (schema.view st t)) := by
            unfold Schema.seen
            rw [opened₁, Schema.view_of_session opened]
            exact congrArg some (Schema.applyAll_append _ _ _)
          have step : schema.sees Reply (.within q) (schema.seen st t) (some out.answer)
              (schema.seen (st.write t out.changes (schema.needs out)) t) := ⟨_, draw, out, before, ran, rfl, after⟩
          exact ⟨still, committed, .op step sees⟩
        · have opened₁ : (st.fail t).session t = some ⟨changes, true⟩ := Schema.session_fail opened
          obtain ⟨still, committed, sees⟩ := ih _ opened₁ later
          refine ⟨still, committed, .op ?_ sees⟩
          unfold Schema.seen
          rw [opened₁]
          rfl

/-- A transaction by itself commits all that its body has done, or nothing: nothing when
the body throws. -/
theorem ends_transaction {body : Body Ans Reply E α} {db : Db} {result : Except (Thrown E) α}
    (ends : Rules.Ends (schema.app Reply t) (App.transaction body) (.start db) result st₁) :
    (∃ value seen, body.Ends schema (some db) (.ok value) seen ∧ st₁.committed = seen.getD db ∧
      (result = .ok value ∨ result = .error .driver)) ∨ (∃ e, result = .error e) ∧ st₁.committed = db := by
  have rolled {e : Thrown E} {w : Store Db Change Lock}
      (ends : Rules.Ends (schema.app Reply t) (do App.perform (.sql .rollback); return .error e) w result st₁) :
      result = .error e ∧ st₁.committed = w.committed := by
    obtain ⟨_, w₁, run, later⟩ := Rules.Ends.of_op ends
    have run : w₁ = w.close t := run
    cases later
    rw [run]
    exact ⟨rfl, rfl⟩
  obtain ⟨begun, w₀, run, later⟩ := Rules.Ends.of_op ends
  obtain ⟨rfl, rfl⟩ | ⟨rfl, rfl⟩ := run
  · have later : Rules.Ends (schema.app Reply t) ((App.embed body.run).bind _) _ result st₁ := later
    obtain ⟨ended, w, first, second⟩ := Rules.Ends.of_bind later
    have opened : ((Store.start db).openTx t : Store Db Change Lock).session t = some ⟨[], false⟩ :=
      Schema.session_openTx rfl
    have begun : schema.seen ((Store.start db).openTx t) t = some db := by
      unfold Schema.seen
      rw [opened]
      rfl
    obtain ⟨⟨s, still⟩, committed, sees⟩ := ends_embed opened first
    rw [begun] at sees
    have same : w.committed = db := committed
    cases ended with
    | error e =>
      obtain ⟨rfl, kept⟩ := rolled second
      exact .inr ⟨⟨e, rfl⟩, kept.trans same⟩
    | ok value =>
      obtain ⟨done, w₁, run, last⟩ := Rules.Ends.of_op second
      have run : schema.exec t .commit w done w₁ := run
      have finished : w₁.committed = (schema.seen w t).getD db ∨ done = false ∧ w₁.committed = db := by
        unfold Schema.seen
        rw [still]
        obtain ⟨changes, failed⟩ := s
        cases failed with
        | true =>
          simp only [Schema.exec, still] at run
          rw [run]
          exact .inl same
        | false =>
          rcases (Schema.exec_commit still).mp run with rfl | ⟨rfl, rfl⟩
          · exact .inl rfl
          · exact .inr ⟨rfl, same⟩
      cases done with
      | true =>
        cases last
        exact .inl ⟨value, _, sees, finished.resolve_right fun lost => Bool.noConfusion lost.1, .inl rfl⟩
      | false =>
        obtain ⟨rfl, kept⟩ := rolled last
        rcases finished with published | ⟨-, nothing⟩
        · exact .inl ⟨value, _, sees, kept.trans published, .inr rfl⟩
        · exact .inr ⟨⟨_, rfl⟩, kept.trans nothing⟩
  · obtain ⟨rfl, kept⟩ := rolled later
    exact .inr ⟨⟨_, rfl⟩, kept⟩

/-- What a program does by itself, it does in a transaction that has every lock for itself. -/
theorem embed_ends {program : Program (TxOp.Res Ans Reply) α} {value : α} {changes : List Change} {db₁ : Db}
    (opened : st.session t = some ⟨changes, false⟩) (free : ∀ k, st.owner k = none ∨ st.owner k = some t)
    (ends : Rules.Ends (schema.sees Reply) program (some (schema.view st t)) value (some db₁)) :
    ∃ st₁ changes₁, Rules.Ends (schema.app Reply t) (App.embed program) st value st₁ ∧
      st₁.session t = some ⟨changes₁, false⟩ ∧ schema.view st₁ t = db₁ := by
  induction program generalizing st changes with
  | ret value =>
    cases ends
    exact ⟨st, changes, .ret, opened, rfl⟩
  | op o rest ih =>
    obtain ⟨answer, between, run, later⟩ := Rules.Ends.of_op ends
    cases o with
    | call c =>
      obtain rfl : between = _ := run
      obtain ⟨st₁, changes₁, ran, still, view⟩ := ih answer opened free later
      exact ⟨st₁, changes₁, .op rfl ran, still, view⟩
    | within q =>
      cases answer with
      | none =>
        obtain rfl : between = none := run
        exact absurd later not_sees_again
      | some answer =>
        obtain ⟨db, draw, out, same, ran, rfl, rfl⟩ := run
        cases same
        have owned (k : Lock) : (st.write t out.changes (schema.needs out)).owner k = none ∨
            (st.write t out.changes (schema.needs out)).owner k = some t := by
          change (if _ then _ else _) = _ ∨ (if _ then _ else _) = _
          split
          · exact .inr rfl
          · exact free k
        have next : schema.view (st.write t out.changes (schema.needs out)) t = schema.applyAll out.changes (schema.view st t) := by
          rw [Schema.view_of_session (Schema.session_write opened), Schema.view_of_session opened]
          exact Schema.applyAll_append ..
        rw [← next] at later
        obtain ⟨st₁, changes₁, steps, still, view⟩ := ih _ (Schema.session_write opened) owned later
        have step : schema.app Reply t (.sql (.within q)) st (some out.answer) (st.write t out.changes (schema.needs out)) :=
          (Schema.exec_within opened).mpr (.inl ⟨draw, out, ran, fun k _ => free k, rfl, rfl⟩)
        exact ⟨st₁, changes₁, .op step steps, still, view⟩

/-- A body that ends well is a transaction that commits. -/
theorem transaction_ends {body : Body Ans Reply E α} {db db₁ : Db} {value : α} (t : Nat)
    (ends : body.Ends schema (some db) (.ok value) (some db₁)) :
    ∃ st₁, Rules.Ends (schema.app Reply t) (App.transaction body) (.start db) (.ok value) st₁ ∧ st₁.committed = db₁ := by
  have opened : ((Store.start db).openTx t : Store Db Change Lock).session t = some ⟨[], false⟩ := Schema.session_openTx rfl
  have view : schema.view ((Store.start db).openTx t) t = db := Schema.view_of_session opened
  have ends : Rules.Ends (schema.sees Reply) body.run (some db) (.ok value) (some db₁) := ends
  rw [← view] at ends
  obtain ⟨st₁, changes₁, steps, still, rfl⟩ := embed_ends opened (fun _ => .inl rfl) ends
  have commit : schema.app Reply t (.sql .commit) st₁ true ((schema.publish changes₁ st₁).close t) :=
    (Schema.exec_commit still).mpr (.inl rfl)
  refine ⟨(schema.publish changes₁ st₁).close t, .op (.inl ⟨rfl, rfl⟩) ?_, (Schema.view_of_session still).symm⟩
  change Rules.Ends _ ((App.embed body.run).bind _) _ _ _
  exact Rules.Ends.bind steps (.op commit .ret)

end Opale.Sql
