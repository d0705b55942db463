import Opale.Sql.Interference
import Opale.Effects.Threads
import Mathlib.Data.Set.Basic

namespace Opale.Sql

/-- An operation of an application: SQL, or a call to something that is not the database. -/
inductive AppOp (Stmt Call : Type) where
  | sql (o : SqlOp Stmt)
  | call (c : Call)

/-- An operation inside of a transaction. -/
inductive TxOp (Stmt Call : Type) where
  | within (s : Stmt)
  | call (c : Call)

variable {Stmt Call : Type} {Ans : Stmt → Type} {Reply : Call → Type} {E α β : Type}

abbrev AppOp.Res (Ans : Stmt → Type) (Reply : Call → Type) : AppOp Stmt Call → Type
  | .sql o => o.Res Ans
  | .call c => Reply c

abbrev TxOp.Res (Ans : Stmt → Type) (Reply : Call → Type) : TxOp Stmt Call → Type
  | .within s => Option (Ans s)
  | .call c => Reply c

/-- What a transaction throws: the error of a statement that failed, or one of its own. -/
inductive Thrown (E : Type) where
  | driver
  | error (e : E)
  deriving DecidableEq

abbrev App (Ans : Stmt → Type) (Reply : Call → Type) := Program (AppOp.Res Ans Reply)

/-- What stands between BEGIN and COMMIT. -/
abbrev Body (Ans : Stmt → Type) (Reply : Call → Type) (E α : Type) :=
  ExceptT (Thrown E) (Program (TxOp.Res Ans Reply)) α

namespace Body

def within (s : Stmt) : Body Ans Reply E (Ans s) :=
  ExceptT.mk (.op (.within s) fun
    | some answer => .ret (.ok answer)
    | none => .ret (.error .driver))

/-- A statement whose error is caught. -/
def attempt (s : Stmt) : Body Ans Reply E (Option (Ans s)) := ExceptT.mk (.op (.within s) fun answer => .ret (.ok answer))

def call (c : Call) : Body Ans Reply E (Reply c) := ExceptT.mk (.op (.call c) fun reply => .ret (.ok reply))

def fail (e : E) : Body Ans Reply E α := throw (.error e)

end Body

namespace App

abbrev perform (o : AppOp Stmt Call) : App Ans Reply (o.Res Ans Reply) := Program.perform o

def query (s : Stmt) : App Ans Reply (Option (Ans s)) := perform (.sql (.query s))

def call (c : Call) : App Ans Reply (Reply c) := perform (.call c)

/-- The operations of a transaction, on its connection. -/
def embed : Program (TxOp.Res Ans Reply) α → App Ans Reply α
  | .ret value => .ret value
  | .op (.within s) rest => .op (.sql (.within s)) fun answer => embed (rest answer)
  | .op (.call c) rest => .op (.call c) fun reply => embed (rest reply)

theorem embed_bind (program : Program (TxOp.Res Ans Reply) α) (rest : α → Program (TxOp.Res Ans Reply) β) :
    embed (program.bind rest) = (embed program).bind fun value => embed (rest value) := by
  induction program with
  | ret value => rfl
  | op o next ih =>
    cases o with
    | within s => exact congrArg (Program.op _) (funext ih)
    | call c => exact congrArg (Program.op _) (funext ih)

/-- BEGIN, the body and COMMIT; whatever is thrown, ROLLBACK. -/
def transaction (body : Body Ans Reply E α) : App Ans Reply (Except (Thrown E) α) := do
  if ← perform (.sql .begin) then
    match ← embed body.run with
    | .ok value =>
      if ← perform (.sql .commit) then return .ok value
      else
        perform (.sql .rollback)
        return .error .driver
    | .error e =>
      perform (.sql .rollback)
      return .error e
  else
    perform (.sql .rollback)
    return .error .driver

end App

variable {Db Change Lock Draw σ : Type}

/-- A call may answer anything, and leaves the database as it is. -/
def Schema.app [DecidableEq Lock] (schema : Schema Ans Db Change Lock Draw) (Reply : Call → Type) (t : Nat) :
    (o : AppOp Stmt Call) → Store Db Change Lock → o.Res Ans Reply → Store Db Change Lock → Prop
  | .sql o, st, answer, st₁ => schema.exec t o st answer st₁
  | .call _, st, _, st₁ => st₁ = st

/-- Threads that run programs of an application; one that dies gives up its transaction. -/
def Schema.threads [DecidableEq Lock] (schema : Schema Ans Db Change Lock Draw)
    (entry : App Ans Reply Unit → Prop) : Threads (AppOp.Res Ans Reply) (Store Db Change Lock) where
  exec := schema.app Reply
  env _ _ := False
  entry := entry
  drop t st := st.close t

/-- A condition on the statements of transactions, and on what these see. -/
def Schema.Meets (schema : Schema Ans Db Change Lock Draw) (cond : Stmt → Db → Prop) (t : Nat) :
    AppOp Stmt Call → Store Db Change Lock → Prop
  | .sql (.within s), st => cond s (schema.view st t)
  | _, _ => True

def Store.owned (st : Store Db Change Lock) (t : Nat) : Set Lock := {k | st.owner k = some t}

/-- What an application keeps. The states `σ` follow a transaction from statement to statement;
`holds` says of each what is locked, committed and seen. Nobody commits past a lock of another
but what its guard lets pass. -/
structure Contract (schema : Schema Ans Db Change Lock Draw) (σ : Type) where
  inv : Db → Prop
  guard : Lock → Db → Db → Prop
  start : σ
  allowed : σ → Stmt → Prop
  next : σ → (s : Stmt) → Ans s → σ
  closes : σ → Prop
  queried : Stmt → Prop
  holds : σ → Set Lock → Db → Db → Prop

namespace Contract

variable {schema : Schema Ans Db Change Lock Draw}

/-- What a transaction sees is what is committed, with changes that it has locked. -/
def Agree (schema : Schema Ans Db Change Lock Draw) (owned : Set Lock) (committed view : Db) : Prop :=
  ∃ cs, (∀ c ∈ cs, ∀ k ∈ schema.locks c, k ∈ owned) ∧ view = schema.applyAll cs committed

/-- The states a body goes through, and where it ends. Nothing is asked after a statement
that failed: what follows it has no effect. -/
def Keeps (contract : Contract schema σ) (final : α → σ → Prop) : σ → Program (TxOp.Res Ans Reply) α → Prop
  | s, .ret value => final value s
  | s, .op (.within q) rest => contract.allowed s q ∧ ∀ answer, Keeps contract final (contract.next s q answer) (rest (some answer))
  | s, .op (.call _) rest => ∀ reply, Keeps contract final s (rest reply)

/-- What a body that is not thrown out of keeps, from the state `s` on. -/
def Follows (contract : Contract schema σ) (final : α → σ → Prop) (s : σ) (body : Body Ans Reply E α) : Prop :=
  contract.Keeps (fun result s₁ => ∀ value, result = .ok value → final value s₁) s body.run

/-- A body that commits where its contract allows it. -/
def Closes (contract : Contract schema σ) (body : Body Ans Reply E α) : Prop :=
  contract.Follows (fun _ => contract.closes) contract.start body

/-- The laws of a contract, for statements that meet `cond`. -/
structure Sound (contract : Contract schema σ) (cond : Stmt → Db → Prop) : Prop where
  guard_refl : ∀ k db, contract.guard k db db
  guard_trans : ∀ k {a b c}, contract.guard k a b → contract.guard k b c → contract.guard k a c
  start : ∀ db, contract.inv db → contract.holds contract.start ∅ db db
  stable : ∀ {s owned committed view ds}, contract.holds s owned committed view → Agree schema owned committed view →
    (∀ d ∈ ds, ∀ k ∈ schema.locks d, k ∉ owned) → contract.inv (schema.applyAll ds committed) →
    (∀ k ∈ owned, contract.guard k committed (schema.applyAll ds committed)) →
    contract.holds s owned (schema.applyAll ds committed) (schema.applyAll ds view)
  within : ∀ {s q owned committed view draw out}, contract.holds s owned committed view →
    Agree schema owned committed view → contract.inv committed → contract.allowed s q → cond q view →
    schema.run q draw view = some out →
    contract.holds (contract.next s q out.answer) (owned ∪ {k | k ∈ schema.needs out}) committed
      (schema.applyAll out.changes view)
  commit : ∀ {s owned committed view}, contract.holds s owned committed view → Agree schema owned committed view →
    contract.inv committed → contract.closes s →
    contract.inv view ∧ ∀ k, k ∉ owned → contract.guard k committed view
  query : ∀ {q db draw out}, contract.queried q → contract.inv db → schema.run q draw db = some out →
    contract.inv (schema.applyAll out.changes db) ∧
      ∀ k, k ∉ schema.needs out → contract.guard k db (schema.applyAll out.changes db)

variable (contract : Contract schema σ)

def Idle (t : Nat) (st : Store Db Change Lock) : Prop := st.session t = none ∧ ∀ k, st.owner k ≠ some t

def Stands (t : Nat) (s : σ) (st : Store Db Change Lock) : Prop :=
  ∃ changes, st.session t = some ⟨changes, false⟩ ∧ (∀ c ∈ changes, ∀ k ∈ schema.locks c, st.owner k = some t) ∧
    contract.holds s (st.owned t) st.committed (schema.view st t)

def Spoilt (t : Nat) (st : Store Db Change Lock) : Prop := ∃ changes, st.session t = some ⟨changes, true⟩

/-- What the thread `t` accepts of the others. -/
structure Accepts (t : Nat) (st st₁ : Store Db Change Lock) : Prop where
  moves : schema.Moves (fun _ => True) t st st₁
  owner : ∀ k, st₁.owner k = some t → st.owner k = some t
  guarded : ∀ k, st.owner k = some t → contract.guard k st.committed st₁.committed
variable {contract : Contract schema σ} {cond : Stmt → Db → Prop}
variable {t u : Nat} {s : σ} {st st₁ st₂ : Store Db Change Lock} {Reply : Call → Type}

theorem Keeps.bind {middle : α → σ → Prop} {final : β → σ → Prop} {program : Program (TxOp.Res Ans Reply) α}
    {rest : α → Program (TxOp.Res Ans Reply) β} (first : contract.Keeps middle s program)
    (second : ∀ value s₁, middle value s₁ → contract.Keeps final s₁ (rest value)) :
    contract.Keeps final s (program.bind rest) := by
  induction program generalizing s with
  | ret value => exact second value s first
  | op o next ih =>
    cases o with
    | within q => exact ⟨first.1, fun answer => ih _ (first.2 answer)⟩
    | call c => exact fun reply => ih reply (first reply)

variable {final : α → σ → Prop}

theorem Follows.ret {value : α} (ends : final value s) :
    contract.Follows final s (pure value : Body Ans Reply E α) := by
  intro other same
  cases same
  exact ends

theorem Follows.fail {e : E} : contract.Follows final s (Body.fail e : Body Ans Reply E α) := by
  intro other same
  cases same

theorem Follows.bind {middle : β → σ → Prop} {body : Body Ans Reply E β} {rest : β → Body Ans Reply E α}
    (first : contract.Follows middle s body) (second : ∀ value s₁, middle value s₁ → contract.Follows final s₁ (rest value)) :
    contract.Follows final s (body >>= rest) := by
  refine Keeps.bind first fun result s₁ ended => ?_
  cases result with
  | ok value => exact second value s₁ (ended value rfl)
  | error e =>
    intro value same
    cases same

theorem Follows.within {q : Stmt} {rest : Ans q → Body Ans Reply E α} (allowed : contract.allowed s q)
    (later : ∀ answer, contract.Follows final (contract.next s q answer) (rest answer)) :
    contract.Follows final s (Body.within q >>= rest) := ⟨allowed, later⟩

theorem Follows.call {c : Call} {rest : Reply c → Body Ans Reply E α}
    (later : ∀ reply, contract.Follows final s (rest reply)) : contract.Follows final s (Body.call c >>= rest) := later

theorem Accepts.refl (sound : contract.Sound cond) (t : Nat) (st : Store Db Change Lock) : contract.Accepts t st st :=
  ⟨.refl _ t st, fun _ owns => owns, fun k _ => sound.guard_refl k _⟩

theorem Accepts.trans (sound : contract.Sound cond) (first : contract.Accepts t st st₁)
    (second : contract.Accepts t st₁ st₂) : contract.Accepts t st st₂ where
  moves := first.moves.trans second.moves
  owner k owns := first.owner k (second.owner k owns)
  guarded k owns := sound.guard_trans k (first.guarded k owns) (second.guarded k (first.moves.owner k owns))

theorem Idle.accepts (idle : Idle t st) (moves : contract.Accepts t st st₁) : Idle t st₁ :=
  ⟨moves.moves.session.trans idle.1, fun k owns => idle.2 k (moves.owner k owns)⟩

theorem Spoilt.accepts (spoilt : Spoilt t st) (moves : contract.Accepts t st st₁) : Spoilt t st₁ := by
  obtain ⟨changes, opened⟩ := spoilt
  exact ⟨changes, moves.moves.session.trans opened⟩

theorem idle_close (t : Nat) (st : Store Db Change Lock) : Idle t (st.close t) := by
  refine ⟨Schema.session_close, fun k owns => ?_⟩
  by_cases mine : st.owner k = some t
  · cases (if_pos mine).symm.trans owns
  · exact mine ((if_neg mine).symm.trans owns)

/-- A transaction stands where it stood, whatever the others commit. -/
theorem Stands.accepts (sound : contract.Sound cond) (stands : contract.Stands t s st)
    (moves : contract.Accepts t st st₁) (kept : contract.inv st₁.committed) : contract.Stands t s st₁ := by
  obtain ⟨changes, opened, locked, holds⟩ := stands
  obtain ⟨ds, allowed, committed⟩ := moves.moves.committed
  have opened₁ := moves.moves.session.trans opened
  have outside : ∀ d ∈ ds, ∀ k ∈ schema.locks d, k ∉ st.owned t := fun d member => (allowed d member).2
  have seen : schema.view st₁ t = schema.applyAll ds (schema.view st t) := by
    rw [Schema.view_of_session opened₁, Schema.view_of_session opened, committed]
    exact Schema.applyAll_comm _ _ (fun c member d inside k needed taken => outside d inside k taken (locked c member k needed)) _
  have owned : st₁.owned t = st.owned t := Set.ext fun k => ⟨moves.owner k, moves.moves.owner k⟩
  refine ⟨changes, opened₁, fun c member k needed => moves.moves.owner k (locked c member k needed), ?_⟩
  rw [owned, seen, committed]
  have guarded := moves.guarded
  rw [committed] at kept guarded
  exact sound.stable holds ⟨changes, locked, Schema.view_of_session opened⟩ outside kept guarded

variable [DecidableEq Lock]

/-- The threads of an application under a contract. -/
def team (contract : Contract schema σ) (sound : contract.Sound cond) (Reply : Call → Type) :
    Threads.Team (AppOp.Res Ans Reply) (Store Db Change Lock) where
  exec t o st answer st₁ := schema.app Reply t o st answer st₁ ∧ schema.Meets cond t o st
  inv st := schema.Locked st ∧ contract.inv st.committed
  rely := contract.Accepts
  guarantee _ _ _ _ _ := True
  idle := Idle
  rely_refl := Accepts.refl sound
  rely_trans _ := Accepts.trans sound

theorem accepts_exec {o : SqlOp Stmt} {answer : o.Res Ans} (locked : schema.Locked st)
    (run : schema.exec t o st answer st₁)
    (guarded : ∀ k, st.owner k ≠ some t → contract.guard k st.committed st₁.committed) (other : u ≠ t) :
    contract.Accepts u st st₁ where
  moves := (Schema.exec_moves locked run).2 u other
  owner _ := Schema.owner_exec other run
  guarded k owns := guarded k fun mine => other (Option.some.inj (owns.symm.trans mine))

/-- An operation that publishes nothing is nothing to the others. -/
theorem accepts_inside (sound : contract.Sound cond) {o : SqlOp Stmt} {answer : o.Res Ans}
    (inside : Schema.Inside o) (locked : schema.Locked st) (run : schema.exec t o st answer st₁) :
    st₁.committed = st.committed ∧ schema.Locked st₁ ∧ ∀ u, u ≠ t → contract.Accepts u st st₁ := by
  obtain ⟨same, locked₁, -⟩ := Schema.exec_inside (P := fun _ => True) inside locked run
  refine ⟨same, locked₁, fun u other => accepts_exec locked run (fun k _ => ?_) other⟩
  rw [same]
  exact sound.guard_refl k _

/-- A statement of a transaction that stands in order. -/
theorem Stands.within (sound : contract.Sound cond) {q : Stmt} {answer : Option (Ans q)} (stands : contract.Stands t s st)
    (kept : contract.inv st.committed) (allowed : contract.allowed s q) (met : cond q (schema.view st t))
    (run : schema.exec t (.within q) st answer st₁) :
    (∃ value, answer = some value ∧ contract.Stands t (contract.next s q value) st₁) ∨ answer = none ∧ Spoilt t st₁ := by
  obtain ⟨changes, opened, locked, holds⟩ := stands
  obtain ⟨draw, out, ran, free, rfl, rfl⟩ | ⟨rfl, rfl⟩ := (Schema.exec_within opened).mp run
  · have agree : Agree schema (st.owned t) st.committed (schema.view st t) :=
      ⟨changes, locked, Schema.view_of_session opened⟩
    have owned : (st.write t out.changes (schema.needs out)).owned t = st.owned t ∪ {k | k ∈ schema.needs out} := by
      ext k
      by_cases inside : k ∈ schema.needs out
      · exact ⟨fun _ => .inr inside, fun _ => if_pos inside⟩
      · exact ⟨fun owns => .inl ((if_neg inside).symm.trans owns),
          fun owns => (if_neg inside).trans (owns.resolve_right inside)⟩
    refine .inl ⟨_, rfl, _, Schema.session_write opened, fun c member k needed => ?_, ?_⟩
    · rcases List.mem_append.mp member with old | new
      · exact Schema.owner_write (.inl (locked c old k needed))
      · exact Schema.owner_write (.inr (Schema.mem_needs new needed))
    · rw [owned, Schema.view_write opened]
      exact sound.within holds agree kept allowed met ran
  · exact .inr ⟨rfl, changes, Schema.session_fail opened⟩

/-- A body is safe where it keeps to the contract. -/
theorem safe_embed (sound : contract.Sound cond) {final : α → σ → Prop} {program : Program (TxOp.Res Ans Reply) α}
    (keeps : contract.Keeps final s program) (stands : contract.Stands t s st) :
    ((contract.team sound Reply).rules t).Safe
      (fun value w => Spoilt t w ∨ ∃ s₁, final value s₁ ∧ contract.Stands t s₁ w) (App.embed program) st := by
  have spoilt (program : Program (TxOp.Res Ans Reply) α) : ∀ {w : Store Db Change Lock}, Spoilt t w →
      ((contract.team sound Reply).rules t).Safe
        (fun value w => Spoilt t w ∨ ∃ s₁, final value s₁ ∧ contract.Stands t s₁ w) (App.embed program) w := by
    induction program with
    | ret value => exact fun failed w₁ moves _ => .inl (failed.accepts moves)
    | op o rest ih =>
      cases o with
      | call c =>
        intro w failed w₁ moves kept reply w₂ ran
        obtain ⟨rfl, -⟩ := ran
        exact ⟨kept, ⟨fun u _ => Accepts.refl sound u _, trivial⟩, ih reply (failed.accepts moves)⟩
      | within q =>
        intro w failed w₁ moves kept answer w₂ ran
        obtain ⟨changes, opened⟩ := failed.accepts moves
        obtain ⟨same, locked, others⟩ := accepts_inside sound (o := .within q) trivial kept.1 ran.1
        have stuck : answer = none ∧ w₂ = w₁ := by
          have run := ran.1
          simp only [Schema.app, Schema.exec, opened] at run
          exact run
        rw [stuck.2]
        exact ⟨kept, ⟨fun u _ => Accepts.refl sound u _, trivial⟩, ih answer ⟨changes, opened⟩⟩
  induction program generalizing s st with
  | ret value => exact fun w₁ moves kept => .inr ⟨s, keeps, stands.accepts sound moves kept.2⟩
  | op o rest ih =>
    cases o with
    | call c =>
      intro w₁ moves kept reply w₂ ran
      obtain ⟨rfl, -⟩ := ran
      exact ⟨kept, ⟨fun u _ => Accepts.refl sound u _, trivial⟩, ih reply (keeps reply) (stands.accepts sound moves kept.2)⟩
    | within q =>
      intro w₁ moves kept answer w₂ ran
      have here := stands.accepts sound moves kept.2
      obtain ⟨same, locked, others⟩ := accepts_inside sound (o := .within q) trivial kept.1 ran.1
      have kept₂ : schema.Locked w₂ ∧ contract.inv w₂.committed := ⟨locked, same ▸ kept.2⟩
      refine ⟨kept₂, ⟨others, trivial⟩, ?_⟩
      obtain ⟨value, rfl, there⟩ | ⟨rfl, failed⟩ := here.within sound kept.2 keeps.1 ran.2 ran.1
      · exact ih _ (keeps.2 value) there
      · exact spoilt _ failed

theorem safe_rollback (sound : contract.Sound cond) (value : α) (st : Store Db Change Lock) :
    ((contract.team sound Reply).rules t).Safe (fun _ => Idle t)
      (do App.perform (.sql .rollback); return value) st := by
  intro w₁ moves kept answer w₂ ran
  have run : schema.exec t .rollback w₁ answer w₂ := ran.1
  obtain ⟨same, locked, others⟩ := accepts_inside sound (o := .rollback) trivial kept.1 run
  refine ⟨⟨locked, same ▸ kept.2⟩, ⟨others, trivial⟩, fun w₃ moves₃ _ => ?_⟩
  have closed : w₂ = w₁.close t := ran.1
  rw [closed] at moves₃
  exact (idle_close t w₁).accepts moves₃

/-- A transaction that keeps to the contract, from BEGIN to its end. -/
theorem safe_transaction (sound : contract.Sound cond) {body : Body Ans Reply E α} (closes : contract.Closes body)
    (idle : Idle t st) :
    ((contract.team sound Reply).rules t).Safe (fun _ => Idle t) (App.transaction body) st := by
  refine Rules.Safe.perform fun w₁ moves kept begun w₂ ran => ?_
  have run : schema.exec t .begin w₁ begun w₂ := ran.1
  obtain ⟨same, locked, others⟩ := accepts_inside sound (o := .begin) trivial kept.1 run
  have kept₂ : schema.Locked w₂ ∧ contract.inv w₂.committed := ⟨locked, same ▸ kept.2⟩
  refine ⟨kept₂, ⟨others, trivial⟩, ?_⟩
  have idle₁ := idle.accepts moves
  obtain ⟨rfl, rfl⟩ | ⟨rfl, rfl⟩ := run
  · have opened := Schema.session_openTx idle₁.1
    have stands : contract.Stands t contract.start (w₁.openTx t) := by
      refine ⟨[], opened, fun _ member => absurd member List.not_mem_nil, ?_⟩
      have nothing : (w₁.openTx t).owned t = ∅ := by
        refine Set.eq_empty_of_forall_notMem fun k owns => ?_
        unfold Store.owned Store.openTx at owns
        rw [idle₁.1] at owns
        exact idle₁.2 k owns
      rw [nothing, Schema.view_of_session opened]
      exact sound.start _ kept₂.2
    refine Rules.Safe.bind (safe_embed sound closes stands) kept₂ fun result w₃ kept₃ ended => ?_
    cases result with
    | error e => exact safe_rollback sound _ w₃
    | ok value =>
      refine Rules.Safe.perform fun w₄ moves₄ kept₄ done w₅ ran₅ => ?_
      have run : schema.exec t .commit w₄ done w₅ := ran₅.1
      have published : (∀ u, u ≠ t → contract.Accepts u w₄ w₅) ∧ contract.inv w₅.committed ∧ Idle t w₅ := by
        have closed (same : w₅ = w₄.close t) : (∀ u, u ≠ t → contract.Accepts u w₄ w₅) ∧
            contract.inv w₅.committed ∧ Idle t w₅ := by
          refine ⟨fun u other => accepts_exec kept₄.1 run (fun k _ => ?_) other, ?_, ?_⟩
          · rw [same]
            exact sound.guard_refl k _
          · rw [same]
            exact kept₄.2
          · rw [same]
            exact idle_close t w₄
        rcases ended with failed | ⟨s₁, allowed, there⟩
        · obtain ⟨changes, opened₄⟩ := failed.accepts moves₄
          refine closed ?_
          simp only [Schema.exec, opened₄] at run
          exact run
        · obtain ⟨changes, opened₄, locked₄, holds⟩ := there.accepts sound moves₄ kept₄.2
          rcases (Schema.exec_commit opened₄).mp run with rfl | ⟨-, rfl⟩
          · have agree : Agree schema (w₄.owned t) w₄.committed (schema.view w₄ t) :=
              ⟨changes, locked₄, Schema.view_of_session opened₄⟩
            obtain ⟨inv, guarded⟩ := sound.commit holds agree kept₄.2 (allowed value rfl)
            rw [Schema.view_of_session opened₄] at inv guarded
            exact ⟨fun u other => accepts_exec kept₄.1 run guarded other, inv, idle_close t _⟩
          · exact closed rfl
      obtain ⟨others₅, inv₅, idle₅⟩ := published
      refine ⟨⟨(Schema.exec_moves kept₄.1 run).1, inv₅⟩, ⟨others₅, trivial⟩, ?_⟩
      cases done with
      | true => exact fun w₆ moves₆ _ => idle₅.accepts moves₆
      | false => exact safe_rollback sound _ w₅
  · exact safe_rollback sound _ _

/-- A program that keeps to the contract, from one idle state to the next. -/
def Kept (contract : Contract schema σ) (cond : Stmt → Db → Prop) (program : App Ans Reply α) : Prop :=
  ∀ (sound : contract.Sound cond) (t : Nat) (st : Store Db Change Lock), schema.Locked st → contract.inv st.committed →
    Idle t st → ((contract.team sound Reply).rules t).Safe (fun _ => Idle t) program st

theorem Kept.ret (value : α) : contract.Kept cond (.ret value : App Ans Reply α) :=
  fun _ _ _ _ _ idle _ moves _ => idle.accepts moves

theorem Kept.bind {program : App Ans Reply α} {rest : α → App Ans Reply β} (kept : contract.Kept cond program)
    (later : ∀ value, contract.Kept cond (rest value)) : contract.Kept cond (program >>= rest) :=
  fun sound t st locked inv idle => Rules.Safe.bind (kept sound t st locked inv idle) ⟨locked, inv⟩
    fun value w₁ kept₁ idle₁ => later value sound t w₁ kept₁.1 kept₁.2 idle₁

theorem Kept.query {q : Stmt} (queried : contract.queried q) :
    contract.Kept cond (App.query q : App Ans Reply (Option (Ans q))) := by
  intro sound t st locked inv idle w₁ moves kept answer w₂ ran
  have idle₁ := idle.accepts moves
  have run : schema.exec t (.query q) w₁ answer w₂ := ran.1
  obtain ⟨draw, out, executed, free, -, rfl⟩ | ⟨-, rfl⟩ := run
  · obtain ⟨inv₂, guarded⟩ := sound.query queried kept.2 executed
    refine ⟨⟨kept.1.publish _, inv₂⟩,
      ⟨fun u other => ⟨Schema.moves_query free fun _ _ => trivial, fun _ owns => owns, fun k owns => ?_⟩, trivial⟩,
      fun w₃ moves₃ _ => ?_⟩
    · refine guarded k fun needed => ?_
      rcases free k needed with nobody | nobody
      · cases nobody.symm.trans owns
      · cases nobody.symm.trans owns
    · have idle₂ : Idle t (schema.publish out.changes w₁) := idle₁
      exact idle₂.accepts moves₃
  · exact ⟨kept, ⟨fun u _ => Accepts.refl sound u _, trivial⟩, fun w₃ moves₃ _ => idle₁.accepts moves₃⟩

theorem Kept.call (c : Call) : contract.Kept cond (App.call c : App Ans Reply (Reply c)) := by
  intro sound t st locked inv idle w₁ moves kept reply w₂ ran
  obtain ⟨rfl, -⟩ := ran
  exact ⟨kept, ⟨fun u _ => Accepts.refl sound u _, trivial⟩, fun w₃ moves₃ _ => (idle.accepts moves).accepts moves₃⟩

theorem Kept.transaction {body : Body Ans Reply E α} (closes : contract.Closes body) :
    contract.Kept cond (App.transaction body) := fun sound _ _ _ _ idle => safe_transaction sound closes idle

/-- Threads whose programs keep to the contract keep its invariant, in every run whose
statements meet the condition. -/
theorem Sound.kept (sound : contract.Sound cond) {entry : App Ans Reply Unit → Prop}
    (programs : ∀ program, entry program → contract.Kept cond program) {start : Store Db Change Lock → Prop}
    (initial : ∀ st, start st → ∃ db, contract.inv db ∧ st = .start db)
    {c : Threads.Config (AppOp.Res Ans Reply) (Store Db Change Lock)}
    (reach : ((schema.threads entry).restrict fun t o st _ _ => schema.Meets cond t o st).Reach start c) :
    contract.inv c.world.committed := by
  have verified : ((schema.threads entry).restrict fun t o st _ _ => schema.Meets cond t o st).Verified
      (contract.team sound Reply) := by
    refine ⟨fun run => run, fun _ moves => absurd moves id, fun allowed kept idle => ?_, fun {t w} kept => ?_⟩
    · exact programs _ allowed sound _ _ kept.1 kept.2 idle
    · have run : schema.exec t .rollback w () (w.close t) := rfl
      obtain ⟨same, locked, others⟩ := accepts_inside sound (o := .rollback) trivial kept.1 run
      exact ⟨⟨locked, same ▸ kept.2⟩, fun w₁ moves _ => (idle_close t w).accepts moves, others⟩
  refine (reach.inv verified fun w begun => ?_).2
  obtain ⟨db, inv, rfl⟩ := initial w begun
  exact ⟨⟨Schema.locked_start db, inv⟩, fun t w₁ moves _ => Idle.accepts ⟨rfl, fun k owns => by cases owns⟩ moves⟩

end Contract

end Opale.Sql
