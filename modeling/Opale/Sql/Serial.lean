import Opale.Effects.Sketch
import Opale.Sql.Interference

namespace Opale.Sql

variable {Stmt : Type} {Ans : Stmt → Type} {Db Change Lock Draw L : Type}

/-- A lock that the transactions of an application take first, the part of the database that they change only under it,
and what holds of that part: before and after each transaction, and from one to the other. -/
structure Serial (schema : Schema Ans Db Change Lock Draw) (L : Type) where
  lock : Lock
  take : Stmt
  takes : ∀ {draw db out}, schema.run take draw db = some out → out.changes = [] ∧ lock ∈ out.locks
  part : Db → L
  stays : ∀ {t st st₁}, schema.Locked st → schema.Moves (fun _ => True) t st st₁ →
    part st₁.committed = part st.committed → part (schema.view st₁ t) = part (schema.view st t)
  good : L → Prop
  step : L → L → Prop
  step_refl : ∀ l, step l l

/-- Where a transaction is: outside, before the lock, or under it, with the part of the database as it was committed
and as the transaction sees it now. -/
inductive Turn (L : Type) where
  | idle
  | begun
  | held (start now : L)

namespace Serial

variable {schema : Schema Ans Db Change Lock Draw} (serial : Serial schema L)

/-- A statement that leaves the part as it is. -/
def Still (s : Stmt) : Prop :=
  ∀ draw db out, schema.run s draw db = some out → serial.part (schema.applyAll out.changes db) = serial.part db

def Allowed : Turn L → SqlOp Stmt → Prop
  | .idle, .begin => True
  | .idle, .query s => serial.Still s
  | .begun, .within s => s = serial.take
  | .held _ _, .within _ => True
  | .held start now, .commit => serial.good now ∧ serial.step start now
  | _, .rollback => True
  | _, _ => False

/-- A statement under the lock sees a database with this part, whatever the rest of it is. -/
def Next : Turn L → (o : SqlOp Stmt) → o.Res Ans → Turn L → Prop
  | .idle, .begin, ok, turn => turn = if ok then .begun else .idle
  | .begun, .within _, answer, turn =>
    answer = none ∧ turn = .begun ∨ answer ≠ none ∧ ∃ now, serial.good now ∧ turn = .held now now
  | .held start now, .within s, answer, turn =>
    (∃ draw db out, serial.part db = now ∧ schema.run s draw db = some out ∧ answer = some out.answer ∧
      turn = .held start (serial.part (schema.applyAll out.changes db))) ∨ answer = none ∧ turn = .held start now
  | _, .commit, _, turn | _, .rollback, _, turn => turn = .idle
  | before, _, _, turn => turn = before

/-- Only the transaction with the lock has written anything. -/
structure Kept (st : Store Db Change Lock) : Prop where
  locked : schema.Locked st
  sole : ∀ t s, st.session t = some s → s.changes ≠ [] → st.owner serial.lock = some t
  good : serial.good (serial.part st.committed)

/-- What the transaction with the lock relies on. -/
structure Leaves (t : Nat) (st st₁ : Store Db Change Lock) : Prop where
  moves : schema.Moves (fun _ => True) t st st₁
  part : st.owner serial.lock = some t → serial.part st₁.committed = serial.part st.committed

/-- The transaction cannot commit any more. -/
def Lost (t : Nat) (st : Store Db Change Lock) : Prop := ∃ changes, st.session t = some ⟨changes, true⟩

def Holds (t : Nat) : Turn L → Store Db Change Lock → Prop
  | .idle, st => st.session t = none
  | .begun, st => ∃ failed, st.session t = some ⟨[], failed⟩
  | .held start now, st => Lost t st ∨ ∃ changes, st.session t = some ⟨changes, false⟩ ∧
      st.owner serial.lock = some t ∧ serial.part st.committed = start ∧ serial.part (schema.view st t) = now

variable {serial} {st st₁ st₂ : Store Db Change Lock} {t u : Nat} {turn : Turn L}

theorem Leaves.refl (t : Nat) (st : Store Db Change Lock) : serial.Leaves t st st := ⟨.refl _ t st, fun _ => rfl⟩

theorem Leaves.trans (first : serial.Leaves t st st₁) (second : serial.Leaves t st₁ st₂) : serial.Leaves t st st₂ where
  moves := first.moves.trans second.moves
  part mine := (second.part (first.moves.owner _ mine)).trans (first.part mine)

theorem Holds.leaves (holds : serial.Holds t turn st) (kept : serial.Kept st) (leaves : serial.Leaves t st st₁) :
    serial.Holds t turn st₁ := by
  cases turn with
  | idle => exact leaves.moves.session.trans holds
  | begun =>
    obtain ⟨failed, opened⟩ := holds
    exact ⟨failed, leaves.moves.session.trans opened⟩
  | held start now =>
    rcases holds with ⟨changes, lost⟩ | ⟨changes, opened, mine, started, seen⟩
    · exact .inl ⟨changes, leaves.moves.session.trans lost⟩
    · have same := leaves.part mine
      refine .inr ⟨changes, leaves.moves.session.trans opened, leaves.moves.owner _ mine, same.trans started, ?_⟩
      exact (serial.stays kept.locked leaves.moves same).trans seen

/-- What one operation comes to: for the invariant, for the others, and for the part that is committed. -/
structure Passes (serial : Serial schema L) (t : Nat) (st st₁ : Store Db Change Lock) : Prop where
  kept : serial.Kept st₁
  leaves : ∀ u, u ≠ t → serial.Leaves u st st₁
  step : serial.step (serial.part st.committed) (serial.part st₁.committed)

theorem Passes.refl (kept : serial.Kept st) : serial.Passes t st st :=
  ⟨kept, fun u _ => .refl u st, serial.step_refl _⟩

/-- What the rest of the world commits, past nobody's lock, leaves the part as it is. -/
def Aside (serial : Serial schema L) (st st₁ : Store Db Change Lock) : Prop :=
  ∃ changes : List Change, (∀ c ∈ changes, ∀ k ∈ schema.locks c, st.owner k = none) ∧
    serial.part (schema.applyAll changes st.committed) = serial.part st.committed ∧ st₁ = schema.publish changes st

variable [DecidableEq Lock]

theorem Kept.exec {o : SqlOp Stmt} {answer : o.Res Ans} (kept : serial.Kept st) (run : schema.exec t o st answer st₁)
    (mine : ∀ s, st₁.session t = some s → s.changes ≠ [] → st₁.owner serial.lock = some t)
    (part : serial.part st₁.committed = serial.part st.committed ∨ st.owner serial.lock = some t ∧
      serial.good (serial.part st₁.committed) ∧ serial.step (serial.part st.committed) (serial.part st₁.committed)) :
    serial.Passes t st st₁ := by
  obtain ⟨locked, moves⟩ := Schema.exec_moves kept.locked run
  have sole : ∀ u s, st₁.session u = some s → s.changes ≠ [] → st₁.owner serial.lock = some u := by
    intro u s opened written
    by_cases same : u = t
    · subst same
      exact mine s opened written
    · rw [(moves u same).session] at opened
      exact (moves u same).owner _ (kept.sole u s opened written)
  rcases part with same | ⟨owned, good, step⟩
  · refine ⟨⟨locked, sole, ?_⟩, fun u other => ⟨moves u other, fun _ => same⟩, ?_⟩
    · rw [same]
      exact kept.good
    · rw [same]
      exact serial.step_refl _
  · refine ⟨⟨locked, sole, good⟩, fun u other => ⟨moves u other, fun taken => ?_⟩, step⟩
    exact absurd (Option.some.inj (taken.symm.trans owned)) other

/-- An operation inside a transaction commits nothing. -/
theorem Kept.inside {o : SqlOp Stmt} {answer : o.Res Ans} (kept : serial.Kept st) (inside : Schema.Inside o)
    (run : schema.exec t o st answer st₁)
    (mine : ∀ s, st₁.session t = some s → s.changes ≠ [] → st₁.owner serial.lock = some t) : serial.Passes t st st₁ :=
  kept.exec run mine (.inl (congrArg serial.part (Schema.committed_inside inside run)))

/-- What ends a transaction without publishing anything of it. -/
theorem Kept.closed {o : SqlOp Stmt} {answer : o.Res Ans} (kept : serial.Kept st) (run : schema.exec t o st answer st₁)
    (closing : st₁ = st.close t) : serial.Passes t st st₁ ∧ serial.Holds t .idle st₁ := by
  have ended : st₁.session t = none := by
    rw [closing]
    exact Schema.session_close
  refine ⟨kept.exec run (fun s opened => ?_) (.inl ?_), ended⟩
  · rw [ended] at opened
    cases opened
  · rw [closing]
    rfl

theorem Kept.query {s : Stmt} {answer : Option (Ans s)} (kept : serial.Kept st) (still : serial.Still s)
    (idle : st.session t = none) (run : schema.exec t (.query s) st answer st₁) :
    serial.Passes t st st₁ ∧ serial.Holds t .idle st₁ := by
  have moved := run
  obtain ⟨draw, out, ran, -, -, rfl⟩ | ⟨-, rfl⟩ := run
  · refine ⟨kept.exec moved (fun s opened => ?_) (.inl (still draw _ out ran)), idle⟩
    cases idle.symm.trans opened
  · exact ⟨.refl kept, idle⟩

theorem Kept.begin {ok : Bool} (kept : serial.Kept st) (idle : st.session t = none)
    (run : schema.exec t .begin st ok st₁) :
    serial.Passes t st st₁ ∧ serial.Holds t (if ok then .begun else .idle) st₁ := by
  have moved := run
  obtain ⟨rfl, rfl⟩ | ⟨rfl, rfl⟩ := run
  · have opened : (st.openTx t).session t = some ⟨[], false⟩ := Schema.session_openTx idle
    refine ⟨kept.inside (o := .begin) trivial moved fun s same written => ?_, false, opened⟩
    cases opened.symm.trans same
    exact absurd rfl written
  · exact ⟨.refl kept, idle⟩

/-- Whoever gets the lock sees what is committed. -/
theorem Kept.acquire {failed : Bool} {answer : Option (Ans serial.take)} (kept : serial.Kept st)
    (opened : st.session t = some ⟨[], failed⟩) (run : schema.exec t (.within serial.take) st answer st₁) :
    serial.Passes t st st₁ ∧ ∃ turn, serial.Next .begun (.within serial.take) answer turn ∧ serial.Holds t turn st₁ := by
  have moved := run
  cases failed with
  | true =>
    simp only [Schema.exec, opened] at run
    obtain ⟨rfl, rfl⟩ := run
    exact ⟨.refl kept, .begun, .inl ⟨rfl, rfl⟩, true, opened⟩
  | false =>
    obtain ⟨draw, out, ran, -, rfl, rfl⟩ | ⟨rfl, rfl⟩ := (Schema.exec_within opened).mp run
    · obtain ⟨silent, inside⟩ := serial.takes ran
      have mine : (st.write t out.changes (schema.needs out)).owner serial.lock = some t :=
        Schema.owner_write (.inr (List.mem_append_left _ inside))
      have after : (st.write t out.changes (schema.needs out)).session t = some ⟨out.changes, false⟩ :=
        Schema.session_write opened
      refine ⟨kept.inside (o := .within _) trivial moved fun _ _ _ => mine, .held _ _,
        .inr ⟨Option.some_ne_none _, _, kept.good, rfl⟩, .inr ⟨_, after, mine, rfl, ?_⟩⟩
      rw [Schema.view_of_session after, silent]
      rfl
    · have after : (st.fail t).session t = some ⟨[], true⟩ := Schema.session_fail opened
      refine ⟨kept.inside (o := .within _) trivial moved fun s same written => ?_, .begun, .inl ⟨rfl, rfl⟩, true, after⟩
      cases after.symm.trans same
      exact absurd rfl written

/-- A statement under the lock. -/
theorem Kept.within {s : Stmt} {answer : Option (Ans s)} {start now : L} (kept : serial.Kept st)
    (holds : serial.Holds t (.held start now) st) (run : schema.exec t (.within s) st answer st₁) :
    serial.Passes t st st₁ ∧
      ∃ turn, serial.Next (.held start now) (.within s) answer turn ∧ serial.Holds t turn st₁ := by
  have moved := run
  rcases holds with ⟨changes, lost⟩ | ⟨changes, opened, mine, started, seen⟩
  · simp only [Schema.exec, lost] at run
    obtain ⟨rfl, rfl⟩ := run
    exact ⟨.refl kept, .held start now, .inr ⟨rfl, rfl⟩, .inl ⟨changes, lost⟩⟩
  · obtain ⟨draw, out, ran, -, rfl, rfl⟩ | ⟨rfl, rfl⟩ := (Schema.exec_within opened).mp run
    · have still : (st.write t out.changes (schema.needs out)).owner serial.lock = some t :=
        Schema.owner_write (.inl mine)
      refine ⟨kept.inside (o := .within s) trivial moved fun _ _ _ => still, _, .inl ⟨draw, _, out, seen, ran, rfl, rfl⟩,
        .inr ⟨_, Schema.session_write opened, still, started, ?_⟩⟩
      rw [Schema.view_write opened]
    · exact ⟨kept.inside (o := .within s) trivial moved fun _ _ _ => mine, .held start now, .inr ⟨rfl, rfl⟩,
        .inl ⟨changes, Schema.session_fail opened⟩⟩

theorem Kept.commit {ok : Bool} {start now : L} (kept : serial.Kept st) (holds : serial.Holds t (.held start now) st)
    (good : serial.good now) (step : serial.step start now) (run : schema.exec t .commit st ok st₁) :
    serial.Passes t st st₁ ∧ serial.Holds t .idle st₁ := by
  have moved := run
  rcases holds with ⟨changes, lost⟩ | ⟨changes, opened, mine, started, seen⟩
  · simp only [Schema.exec, lost] at run
    exact kept.closed moved run
  · obtain rfl | ⟨-, closing⟩ := (Schema.exec_commit opened).mp run
    · have published : serial.part ((schema.publish changes st).close t).committed = now := by
        rw [← seen, Schema.view_of_session opened]
        rfl
      refine ⟨kept.exec moved (fun s same => ?_) (.inr ⟨mine, ?_, ?_⟩), Schema.session_close⟩
      · cases Schema.session_close.symm.trans same
      · rw [published]
        exact good
      · rw [published, started]
        exact step
    · exact kept.closed moved closing

/-- Transactions under one lock run one after the other: each operation takes its turn to the next one. -/
theorem Kept.takesTurn {o : SqlOp Stmt} {answer : o.Res Ans} (kept : serial.Kept st) (holds : serial.Holds t turn st)
    (allowed : serial.Allowed turn o) (run : schema.exec t o st answer st₁) :
    serial.Passes t st st₁ ∧ ∃ turn₁, serial.Next turn o answer turn₁ ∧ serial.Holds t turn₁ st₁ := by
  cases o with
  | rollback =>
    obtain ⟨passes, ended⟩ := kept.closed run run
    refine ⟨passes, .idle, ?_, ended⟩
    cases turn <;> rfl
  | begin =>
    cases turn with
    | begun | held => exact absurd allowed id
    | idle =>
      obtain ⟨passes, after⟩ := kept.begin holds run
      exact ⟨passes, _, rfl, after⟩
  | query s =>
    cases turn with
    | begun | held => exact absurd allowed id
    | idle =>
      obtain ⟨passes, after⟩ := kept.query allowed holds run
      exact ⟨passes, .idle, rfl, after⟩
  | commit =>
    cases turn with
    | idle | begun => exact absurd allowed id
    | held start now =>
      obtain ⟨passes, after⟩ := kept.commit holds allowed.1 allowed.2 run
      exact ⟨passes, .idle, rfl, after⟩
  | within s =>
    cases turn with
    | idle => exact absurd allowed id
    | begun =>
      obtain ⟨failed, opened⟩ := holds
      cases (allowed : s = serial.take)
      exact kept.acquire opened run
    | held start now => exact kept.within holds run

section Threads

variable {Op : Type} {Res : Op → Type} {α β : Type}

/-- Operations that go by the turns of the sketch. -/
def Follows (serial : Serial schema L) (sketch : Sketch Res (Turn L))
    (exec : Nat → (o : Op) → Store Db Change Lock → Res o → Store Db Change Lock → Prop) : Prop :=
  ∀ {t turn o st answer st₁}, sketch.allowed turn o → serial.Holds t turn st → serial.Kept st →
    exec t o st answer st₁ → serial.Passes t st st₁ ∧ ∃ turn₁, sketch.next turn o answer turn₁ ∧ serial.Holds t turn₁ st₁

def team (serial : Serial schema L)
    (exec : Nat → (o : Op) → Store Db Change Lock → Res o → Store Db Change Lock → Prop) :
    Threads.Team Res (Store Db Change Lock) where
  exec := exec
  inv := serial.Kept
  rely := serial.Leaves
  guarantee _ _ st _ st₁ := serial.step (serial.part st.committed) (serial.part st₁.committed)
  idle t st := st.session t = none
  rely_refl := Leaves.refl
  rely_trans _ _ _ _ := Leaves.trans

/-- Programs that end outside of a transaction. -/
abbrev Ends (sketch : Sketch Res (Turn L)) (program : Program Res α) : Prop :=
  sketch.Keeps (fun _ turn => turn = .idle) .idle program

theorem verified {threads : Threads Res (Store Db Change Lock)} {sketch : Sketch Res (Turn L)}
    (follows : serial.Follows sketch threads.exec) (env : ∀ st st₁, threads.env st st₁ → serial.Aside st st₁)
    (entry : ∀ program, threads.entry program → Ends sketch program) (drop : ∀ t st, threads.drop t st = st.close t) :
    threads.Verified (serial.team threads.exec) where
  exec run := run
  env {st st₁} kept moves := by
    obtain ⟨changes, free, same, rfl⟩ := env st st₁ moves
    refine ⟨⟨kept.locked.publish changes, kept.sole, ?_⟩, fun u => ⟨?_, fun _ => same⟩⟩
    · change serial.good (serial.part (schema.applyAll changes st.committed))
      rw [same]
      exact kept.good
    · refine Schema.moves_publish (fun _ _ => trivial) fun c member k needed owns => ?_
      rw [free c member k needed] at owns
      cases owns
  entry {program t st} allowed kept idle := by
    refine Rules.Safe.of_sketch (fun turn st => serial.Kept st ∧ serial.Holds t turn st)
      (fun holds leaves kept => ⟨kept, holds.2.leaves holds.1 leaves⟩) ?_ ?_ (entry program allowed) ⟨kept, idle⟩
    · intro turn o st answer st₁ allowed holds _ run
      obtain ⟨passes, turn₁, comes, after⟩ := follows allowed holds.2 holds.1 run
      exact ⟨passes.kept, ⟨passes.leaves, passes.step⟩, turn₁, comes, passes.kept, after⟩
    · rintro _ _ st rfl holds _
      exact holds.2
  drop {t st} kept := by
    have closing : schema.exec t .rollback st () (st.close t) := rfl
    obtain ⟨passes, ended⟩ := kept.closed closing rfl
    rw [drop]
    exact ⟨passes.kept, fun st₁ leaves _ => leaves.moves.session.trans ended, passes.leaves⟩

omit [DecidableEq Lock] in
theorem kept_start {db : Db} (good : serial.good (serial.part db)) : serial.Kept (.start db) ∧
    ∀ t st, serial.Leaves t (.start db) st → serial.Kept st → st.session t = none := by
  refine ⟨⟨Schema.locked_start db, fun t s opened => ?_, good⟩, fun t st leaves _ => leaves.moves.session⟩
  cases opened

omit [DecidableEq Lock] in
/-- Every step of verified threads is a step of the part that is committed. -/
theorem step_of_reach {threads : Threads Res (Store Db Change Lock)} {start : Store Db Change Lock → Prop}
    {c c₁ : Threads.Config Res (Store Db Change Lock)} (reach : threads.Reach start c)
    (verified : threads.Verified (serial.team threads.exec)) (env : ∀ st st₁, threads.env st st₁ → serial.Aside st st₁)
    (drop : ∀ t st, threads.drop t st = st.close t)
    (initial : ∀ st, start st → ∃ db, st = .start db ∧ serial.good (serial.part db)) (step : threads.Step c c₁) :
    serial.step (serial.part c.world.committed) (serial.part c₁.world.committed) := by
  have begins : ∀ st, start st → (serial.team threads.exec).inv st ∧
      ∀ t st₁, (serial.team threads.exec).rely t st st₁ → (serial.team threads.exec).inv st₁ →
        (serial.team threads.exec).idle t st₁ := by
    intro st started
    obtain ⟨db, rfl, good⟩ := initial st started
    exact kept_start good
  cases step with
  | start t next allowed => exact serial.step_refl _
  | op t next run => exact reach.guarantee verified begins next run
  | die t =>
    dsimp only
    rw [drop]
    exact serial.step_refl _
  | env moves =>
    obtain ⟨changes, -, same, rfl⟩ := env _ _ moves
    change serial.step _ (serial.part (schema.applyAll changes _))
    rw [same]
    exact serial.step_refl _

end Threads

end Serial

/-! Triples of the programs under the lock. -/

namespace Turn

variable {Op : Type} {Res : Op → Type} {α β : Type} {sketch : Sketch Res (Turn L)} {start : L} {P P₁ : L → Prop}
variable {Q : α → L → Prop} {R : β → L → Prop}

/-- Under the lock since `start`, the program leads from `P` to `Q`, unless it gives up. -/
def Triple (sketch : Sketch Res (Turn L)) (start : L) (P : L → Prop) (program : OptionT (Program Res) α)
    (Q : α → L → Prop) : Prop :=
  ∀ now, P now → sketch.Keeps (Program.Given fun value turn => ∃ now₁, turn = .held start now₁ ∧ Q value now₁)
    (.held start now) program.run

theorem Triple.ret {value : α} (ends : ∀ now, P now → Q value now) :
    Triple sketch start P (pure value : OptionT (Program Res) α) Q :=
  fun now holds => ⟨now, rfl, ends now holds⟩

theorem Triple.fail : Triple sketch start P (failure : OptionT (Program Res) α) Q := fun _ _ => trivial

theorem Triple.bind {program : OptionT (Program Res) α} {next : α → OptionT (Program Res) β}
    (first : Triple sketch start P program Q) (second : ∀ value, Triple sketch start (Q value) (next value) R) :
    Triple sketch start P (program >>= next) R := by
  intro now holds
  refine (first now holds).bindOption ?_
  rintro value _ ⟨now₁, rfl, ends⟩
  exact second value now₁ ends

theorem Triple.weaken {Q₁ : α → L → Prop} {program : OptionT (Program Res) α} (triple : Triple sketch start P program Q)
    (before : ∀ now, P₁ now → P now) (after : ∀ value now, Q value now → Q₁ value now) :
    Triple sketch start P₁ program Q₁ := by
  intro now holds
  refine (triple now (before now holds)).weaken fun value turn ends => ?_
  cases value with
  | none => exact trivial
  | some value =>
    obtain ⟨now₁, same, holds₁⟩ := ends
    exact ⟨now₁, same, after value now₁ holds₁⟩

end Turn

end Opale.Sql
