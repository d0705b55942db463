import Opale.Effects.Threads

namespace Opale.Threads

variable {Op : Type} {Res : Op → Type} {World : Type}

/-- An operation of a run, with the worlds before and after it. -/
structure Event {Op : Type} (Res : Op → Type) (World : Type) where
  thread : Nat
  op : Op
  before : World
  answer : Res op
  after : World

/-- A run with its operations, the last one at the end. -/
inductive Run (threads : Threads Res World) (start : World → Prop) :
    List (Event Res World) → Config Res World → Prop
  | init {w} : start w → Run threads start [] ⟨w, fun _ => .ret ()⟩
  | start {events w runs program} (t : Nat) : Run threads start events ⟨w, runs⟩ → runs t = .ret () →
      threads.entry program → Run threads start events ⟨w, Function.update runs t program⟩
  | op {events w runs o rest answer w₁} (t : Nat) : Run threads start events ⟨w, runs⟩ → runs t = .op o rest →
      threads.exec t o w answer w₁ →
      Run threads start (events ++ [⟨t, o, w, answer, w₁⟩]) ⟨w₁, Function.update runs t (rest answer)⟩
  | die {events w runs} (t : Nat) : Run threads start events ⟨w, runs⟩ →
      Run threads start events ⟨threads.drop t w, Function.update runs t (.ret ())⟩
  | env {events w runs w₁} : Run threads start events ⟨w, runs⟩ → threads.env w w₁ →
      Run threads start events ⟨w₁, runs⟩

variable {threads : Threads Res World} {start : World → Prop} {events : List (Event Res World)} {c : Config Res World}

/-- The same threads with a note of what has happened, which every operation adds to; the operations satisfy `cond`. -/
def noting {Note : Type} (threads : Threads Res World) (note : Note → Event Res World → Note)
    (cond : Note → Event Res World → Prop) : Threads Res (World × Note) where
  exec t o w answer w₁ := threads.exec t o w.1 answer w₁.1 ∧ w₁.2 = note w.2 ⟨t, o, w.1, answer, w₁.1⟩ ∧
    cond w.2 ⟨t, o, w.1, answer, w₁.1⟩
  env w w₁ := threads.env w.1 w₁.1 ∧ w₁.2 = w.2
  entry := threads.entry
  drop t w := (threads.drop t w.1, w.2)

namespace Run

/-- A run, with the note that its operations make. -/
theorem noted {Note : Type} {note : Note → Event Res World → Note} {cond : Note → Event Res World → Prop} {first : Note}
    (run : threads.Run start events c)
    (all : ∀ es e rest, events = es ++ e :: rest → cond (es.foldl note first) e) :
    (threads.noting note cond).Reach (fun w => start w.1 ∧ w.2 = first) ⟨(c.world, events.foldl note first), c.runs⟩ := by
  induction run with
  | init begun => exact .init ⟨begun, rfl⟩
  | start t _ idle allowed ih => exact (ih all).step (.start t idle allowed)
  | op t _ next ran ih =>
    have before := ih fun es e rest same => all es e (rest ++ [_]) (by rw [same, List.append_assoc, List.cons_append])
    rw [List.foldl_append]
    exact before.step (.op t next ⟨ran, rfl, all _ _ [] rfl⟩)
  | die t _ ih => exact (ih all).step (.die t)
  | env _ moves ih => exact (ih all).step (.env ⟨moves, rfl⟩)

theorem begins {w : World} {runs : Nat → Program Res Unit} (run : threads.Run start events ⟨w, runs⟩)
    (t : Nat) (program : Program Res Unit) (idle : runs t = .ret ()) (allowed : threads.entry program) :
    threads.Run start events ⟨w, Function.update runs t program⟩ := run.start t idle allowed

/-- One operation of the thread `t`, its answer given. -/
theorem perform {w : World} {runs : Nat → Program Res Unit} (run : threads.Run start events ⟨w, runs⟩)
    (t : Nat) {o : Op} {rest : Res o → Program Res Unit} (next : runs t = .op o rest)
    (answer : Res o) (w₁ : World) (ran : threads.exec t o w answer w₁) :
    threads.Run start (events ++ [⟨t, o, w, answer, w₁⟩]) ⟨w₁, Function.update runs t (rest answer)⟩ := run.op t next ran

variable {cond : Nat → (o : Op) → World → Res o → World → Prop}

/-- A run whose operations all satisfy `cond`. -/
theorem reach (run : threads.Run start events c)
    (all : ∀ e ∈ events, cond e.thread e.op e.before e.answer e.after) : (threads.restrict cond).Reach start c := by
  induction run with
  | init h => exact .init h
  | start t _ idle allowed ih => exact (ih all).step (.start t idle allowed)
  | op t _ next ran ih =>
    have earlier := ih fun e member => all e (List.mem_append_left _ member)
    exact earlier.step (.op t next ⟨ran, all _ (List.mem_append_right _ List.mem_cons_self)⟩)
  | die t _ ih => exact (ih all).step (.die t)
  | env _ moves ih => exact (ih all).step (.env moves)

/-- Where `law` holds as long as all operations satisfy `cond`, and fails after the first that does
not, the runs along which it always holds are those whose operations all satisfy `cond`. -/
theorem lawful_iff (law : World → Prop) (run : threads.Run start events c)
    (kept : ∀ c, (threads.restrict cond).Reach start c → law c.world)
    (broken : ∀ t o w answer w₁ rest (runs : Nat → Program Res Unit), (threads.restrict cond).Reach start ⟨w, runs⟩ →
      runs t = .op o rest → threads.exec t o w answer w₁ → ¬cond t o w answer w₁ → ¬law w₁) :
    (∀ e ∈ events, law e.after) ↔ ∀ e ∈ events, cond e.thread e.op e.before e.answer e.after := by
  induction run with
  | init => exact ⟨fun _ _ member => absurd member List.not_mem_nil, fun _ _ member => absurd member List.not_mem_nil⟩
  | start _ _ _ _ ih => exact ih
  | die _ _ ih => exact ih
  | env _ _ ih => exact ih
  | @op events w runs o rest answer w₁ t run next ran ih =>
    rw [List.forall_mem_append, List.forall_mem_append, List.forall_mem_singleton, List.forall_mem_singleton]
    constructor
    · intro ⟨earlier, last⟩
      have all := ih.mp earlier
      refine ⟨all, ?_⟩
      by_contra fails
      exact broken t o w answer w₁ rest runs (run.reach all) next ran fails last
    · intro ⟨earlier, last⟩
      exact ⟨ih.mpr earlier, kept _ ((run.reach earlier).step (.op t next ⟨ran, last⟩))⟩

end Run

end Opale.Threads
