import Opale.Effects.Safety

namespace Opale

/-- A process that runs `main` on its memory again and again. It may die between any
two operations; it then starts over from what `recover` reads back from the world.
The environment may change the world by itself as `env` says. -/
structure Process {Op : Type} (Res : Op → Type) (World Memory : Type) where
  exec : (o : Op) → World → Res o → World → Prop
  env : World → World → Prop
  main : Memory → Program Res Memory
  recover : World → Memory

namespace Process

variable {Op : Type} {Res : Op → Type} {World Memory : Type}

/-- The world and what is left of the current run. -/
structure Config (Res : Op → Type) (World Memory : Type) where
  world : World
  run : Program Res Memory

/-- The configurations that some run reaches from `start`, with a crash and a move of
the environment possible at every point. -/
inductive Reach (process : Process Res World Memory) (start : Config Res World Memory → Prop) :
    Config Res World Memory → Prop
  | init {c} : start c → Reach process start c
  | op {w o rest answer w₁} : Reach process start ⟨w, .op o rest⟩ → process.exec o w answer w₁ →
      Reach process start ⟨w₁, rest answer⟩
  | again {w memory} : Reach process start ⟨w, .ret memory⟩ →
      Reach process start ⟨w, process.main memory⟩
  | crash {c} : Reach process start c → Reach process start ⟨c.world, .ret (process.recover c.world)⟩
  | env {c w₁} : Reach process start c → process.env c.world w₁ → Reach process start ⟨w₁, c.run⟩

/-- The same process in the runs whose operations all satisfy `cond`. -/
def restrict (process : Process Res World Memory)
    (cond : (o : Op) → World → Res o → World → Prop) : Process Res World Memory :=
  { process with exec := fun o w answer w₁ => process.exec o w answer w₁ ∧ cond o w answer w₁ }

/-- The configurations that some run reaches when it crashes only where `allowed` says. -/
inductive ReachWhere (process : Process Res World Memory) (start allowed : Config Res World Memory → Prop) :
    Config Res World Memory → Prop
  | init {c} : start c → ReachWhere process start allowed c
  | op {w o rest answer w₁} : ReachWhere process start allowed ⟨w, .op o rest⟩ → process.exec o w answer w₁ →
      ReachWhere process start allowed ⟨w₁, rest answer⟩
  | again {w memory} : ReachWhere process start allowed ⟨w, .ret memory⟩ →
      ReachWhere process start allowed ⟨w, process.main memory⟩
  | crash {c} : ReachWhere process start allowed c → allowed c →
      ReachWhere process start allowed ⟨c.world, .ret (process.recover c.world)⟩
  | env {c w₁} : ReachWhere process start allowed c → process.env c.world w₁ →
      ReachWhere process start allowed ⟨w₁, c.run⟩

variable {process : Process Res World Memory} {start : Config Res World Memory → Prop}

/-- One operation of a run, its answer given. -/
theorem Reach.perform {w : World} {o : Op} {rest : Res o → Program Res Memory}
    (reach : process.Reach start ⟨w, .op o rest⟩) (answer : Res o) (w₁ : World)
    (run : process.exec o w answer w₁) : process.Reach start ⟨w₁, rest answer⟩ := .op reach run

/-- A program that ends, with what comes after it still to run. -/
theorem ReachWhere.ends {allowed : Config Res World Memory → Prop} {α : Type} {program : Program Res α}
    {next : α → Program Res Memory} {w w₁ : World} {value : α}
    (reach : process.ReachWhere start allowed ⟨w, program.bind next⟩) (ends : Rules.Ends process.exec program w value w₁) :
    process.ReachWhere start allowed ⟨w₁, next value⟩ := by
  induction ends with
  | ret => exact reach
  | op run _ ih => exact ih (.op reach run)

/-- A whole cycle. -/
theorem ReachWhere.cycle {allowed : Config Res World Memory → Prop} {memory memory₁ : Memory} {w w₁ : World}
    (reach : process.ReachWhere start allowed ⟨w, .ret memory⟩)
    (ends : Rules.Ends process.exec (process.main memory) w memory₁ w₁) :
    process.ReachWhere start allowed ⟨w₁, .ret memory₁⟩ := by
  have begun : process.ReachWhere start allowed ⟨w, (process.main memory).bind .ret⟩ := by
    rw [Program.bind_ret]
    exact reach.again
  exact begun.ends ends

theorem Reach.of_restrict {cond : (o : Op) → World → Res o → World → Prop}
    {c : Config Res World Memory} (reach : (process.restrict cond).Reach start c) :
    process.Reach start c := by
  induction reach with
  | init h => exact .init h
  | op _ run ih => exact .op ih run.1
  | again _ ih => exact .again ih
  | crash _ ih => exact .crash ih
  | env _ moves ih => exact .env ih moves

/-- What has to be shown of a process for a whole run to be safe: `memory m w` says
when `m` is a fit memory to start a cycle with in the world `w`. -/
structure Verified (process : Process Res World Memory) (rules : Rules Res World)
    (memory : Memory → World → Prop) : Prop where
  exec : ∀ {o w answer w₁}, process.exec o w answer w₁ → rules.exec o w answer w₁
  env : ∀ {w w₁}, rules.inv w → process.env w w₁ → rules.inv w₁ ∧ rules.rely w w₁
  main : ∀ m w, rules.inv w → memory m w → rules.Safe memory (process.main m) w
  recover : ∀ w, rules.inv w → ∀ w₁, rules.rely w w₁ → rules.inv w₁ → memory (process.recover w) w₁

variable {rules : Rules Res World} {memory : Memory → World → Prop}

/-- A run of a verified process keeps the invariant, and what is left of the current
cycle stays safe. -/
theorem Reach.safe {c : Config Res World Memory} (reach : process.Reach start c)
    (verified : process.Verified rules memory)
    (initial : ∀ c, start c → rules.inv c.world ∧ rules.Safe memory c.run c.world) :
    rules.inv c.world ∧ rules.Safe memory c.run c.world := by
  induction reach with
  | init h => exact initial _ h
  | @op w o rest answer w₁ _ run ih =>
    obtain ⟨inv, _, later⟩ := ih.2 w (rules.rely_refl w) ih.1 answer w₁ (verified.exec run)
    exact ⟨inv, later⟩
  | @again w m _ ih => exact ⟨ih.1, verified.main m w ih.1 (ih.2 w (rules.rely_refl w) ih.1)⟩
  | @crash c _ ih => exact ⟨ih.1, verified.recover c.world ih.1⟩
  | env _ moves ih =>
    obtain ⟨inv, rely⟩ := verified.env ih.1 moves
    exact ⟨inv, ih.2.interfere rely⟩

/-- The same for a run that crashes only where `allowed` says: what a start finds is asked there only,
and may rest on what the run was about to do. -/
theorem ReachWhere.safe {allowed : Config Res World Memory → Prop} {c : Config Res World Memory}
    (reach : process.ReachWhere start allowed c)
    (exec : ∀ {o w answer w₁}, process.exec o w answer w₁ → rules.exec o w answer w₁)
    (env : ∀ {w w₁}, rules.inv w → process.env w w₁ → rules.inv w₁ ∧ rules.rely w w₁)
    (main : ∀ m w, rules.inv w → memory m w → rules.Safe memory (process.main m) w)
    (recover : ∀ c, allowed c → rules.inv c.world → rules.Safe memory c.run c.world →
      rules.Safe memory (.ret (process.recover c.world)) c.world)
    (initial : ∀ c, start c → rules.inv c.world ∧ rules.Safe memory c.run c.world) :
    rules.inv c.world ∧ rules.Safe memory c.run c.world := by
  induction reach with
  | init h => exact initial _ h
  | @op w o rest answer w₁ _ run ih =>
    obtain ⟨inv, _, later⟩ := ih.2 w (rules.rely_refl w) ih.1 answer w₁ (exec run)
    exact ⟨inv, later⟩
  | @again w m _ ih => exact ⟨ih.1, main m w ih.1 (ih.2 w (rules.rely_refl w) ih.1)⟩
  | @crash c _ here ih => exact ⟨ih.1, recover c here ih.1 ih.2⟩
  | env _ moves ih =>
    obtain ⟨inv, rely⟩ := env ih.1 moves
    exact ⟨inv, ih.2.interfere rely⟩

theorem Reach.inv {c : Config Res World Memory} (reach : process.Reach start c)
    (verified : process.Verified rules memory)
    (initial : ∀ c, start c → rules.inv c.world ∧ rules.Safe memory c.run c.world) :
    rules.inv c.world := (reach.safe verified initial).1

/-- Every operation performed along a run of a verified process meets its guarantee. -/
theorem Reach.guarantee {w w₁ : World} {o : Op} {rest : Res o → Program Res Memory} {answer : Res o}
    (reach : process.Reach start ⟨w, .op o rest⟩) (verified : process.Verified rules memory)
    (initial : ∀ c, start c → rules.inv c.world ∧ rules.Safe memory c.run c.world)
    (run : process.exec o w answer w₁) : rules.guarantee o w answer w₁ := by
  obtain ⟨inv, safe⟩ := reach.safe verified initial
  exact (safe w (rules.rely_refl w) inv answer w₁ (verified.exec run)).2.1

end Process

end Opale
