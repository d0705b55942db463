import Opale.Effects.Safety

namespace Opale

/-- Any number of threads that run programs over one world. An idle thread may start any
program that `entry` allows, and a thread may die between any two operations; `drop` is
what its death leaves of the world. The environment changes the world as `env` says. -/
structure Threads {Op : Type} (Res : Op → Type) (World : Type) where
  exec : Nat → (o : Op) → World → Res o → World → Prop
  env : World → World → Prop
  entry : Program Res Unit → Prop
  drop : Nat → World → World

namespace Threads

variable {Op : Type} {Res : Op → Type} {World : Type}

/-- The world and what is left of the run of each thread; an idle one has nothing left. -/
structure Config (Res : Op → Type) (World : Type) where
  world : World
  runs : Nat → Program Res Unit

/-- One step of one thread, or of the environment. -/
inductive Step (threads : Threads Res World) : Config Res World → Config Res World → Prop
  | start {w runs program} (t : Nat) : runs t = .ret () → threads.entry program →
      Step threads ⟨w, runs⟩ ⟨w, Function.update runs t program⟩
  | op {w runs o rest answer w₁} (t : Nat) : runs t = .op o rest → threads.exec t o w answer w₁ →
      Step threads ⟨w, runs⟩ ⟨w₁, Function.update runs t (rest answer)⟩
  | die {w runs} (t : Nat) :
      Step threads ⟨w, runs⟩ ⟨threads.drop t w, Function.update runs t (.ret ())⟩
  | env {w runs w₁} : threads.env w w₁ → Step threads ⟨w, runs⟩ ⟨w₁, runs⟩

/-- The configurations reached from a start where every thread is idle. -/
inductive Reach (threads : Threads Res World) (start : World → Prop) : Config Res World → Prop
  | init {w} : start w → Reach threads start ⟨w, fun _ => .ret ()⟩
  | step {c c₁} : Reach threads start c → threads.Step c c₁ → Reach threads start c₁

/-- The same threads in the runs whose operations all satisfy `cond`. -/
def restrict (threads : Threads Res World)
    (cond : Nat → (o : Op) → World → Res o → World → Prop) : Threads Res World :=
  { threads with exec := fun t o w answer w₁ => threads.exec t o w answer w₁ ∧ cond t o w answer w₁ }

variable {threads : Threads Res World} {start : World → Prop}

theorem Reach.of_restrict {cond : Nat → (o : Op) → World → Res o → World → Prop} {c : Config Res World}
    (reach : (threads.restrict cond).Reach start c) : threads.Reach start c := by
  induction reach with
  | init h => exact .init h
  | step _ step ih =>
    cases step with
    | start t next allowed => exact ih.step (.start t next allowed)
    | op t next run => exact ih.step (.op t next run.1)
    | die t => exact ih.step (.die t)
    | env moves => exact ih.step (.env moves)

/-- A condition that every operation satisfies restricts nothing. -/
theorem Reach.restrict {cond : Nat → (o : Op) → World → Res o → World → Prop} {c : Config Res World}
    (reach : threads.Reach start c) (always : ∀ t o w answer w₁, cond t o w answer w₁) : (threads.restrict cond).Reach start c := by
  induction reach with
  | init h => exact .init h
  | step _ step ih =>
    cases step with
    | start t next allowed => exact ih.step (.start t next allowed)
    | op t next run => exact ih.step (.op t next ⟨run, always ..⟩)
    | die t => exact ih.step (.die t)
    | env moves => exact ih.step (.env moves)

/-- The idle thread `t` starts a program. -/
theorem Reach.begins {w : World} {runs : Nat → Program Res Unit} (reach : threads.Reach start ⟨w, runs⟩)
    (t : Nat) (program : Program Res Unit) (idle : runs t = .ret ()) (allowed : threads.entry program) :
    threads.Reach start ⟨w, Function.update runs t program⟩ := reach.step (.start t idle allowed)

/-- One operation of the thread `t`, its answer given. -/
theorem Reach.perform {w : World} {runs : Nat → Program Res Unit} (reach : threads.Reach start ⟨w, runs⟩)
    (t : Nat) {o : Op} {rest : Res o → Program Res Unit} (next : runs t = .op o rest)
    (answer : Res o) (w₁ : World) (run : threads.exec t o w answer w₁) :
    threads.Reach start ⟨w₁, Function.update runs t (rest answer)⟩ := reach.step (.op t next run)

/-- What every operation keeps by itself holds along every run. -/
theorem Reach.preserved {inv : World → Prop} {c : Config Res World} (reach : threads.Reach start c)
    (initial : ∀ w, start w → inv w) (exec : ∀ t o w answer w₁, threads.exec t o w answer w₁ → inv w → inv w₁)
    (env : ∀ w w₁, threads.env w w₁ → inv w → inv w₁) (drop : ∀ t w, inv w → inv (threads.drop t w)) :
    inv c.world := by
  induction reach with
  | @init w h => exact initial w h
  | step _ step ih =>
    cases step with
    | start t next allowed => exact ih
    | op t next run => exact exec _ _ _ _ _ run ih
    | die t => exact drop t _ ih
    | env moves => exact env _ _ moves ih

/-- What the threads rely on and guarantee together. `rely t` is what the thread `t`
accepts of everything else; `idle t` is what it leaves when it has nothing to run. -/
structure Team (Res : Op → Type) (World : Type) where
  exec : Nat → (o : Op) → World → Res o → World → Prop
  inv : World → Prop
  rely : Nat → World → World → Prop
  guarantee : Nat → (o : Op) → World → Res o → World → Prop
  idle : Nat → World → Prop
  rely_refl : ∀ t w, rely t w w
  rely_trans : ∀ t {a b c}, rely t a b → rely t b c → rely t a c

/-- The rules that one thread of the team lives by: each of its operations has to be
acceptable to all the others. -/
def Team.rules (team : Team Res World) (t : Nat) : Rules Res World where
  exec := team.exec t
  inv := team.inv
  rely := team.rely t
  guarantee o w answer w₁ := (∀ u, u ≠ t → team.rely u w w₁) ∧ team.guarantee t o w answer w₁
  rely_refl := team.rely_refl t
  rely_trans := team.rely_trans t

/-- A thread of the team is safe in its program and idle after it. -/
def Team.Safe (team : Team Res World) (t : Nat) (program : Program Res Unit) (w : World) : Prop :=
  (team.rules t).Safe (fun _ => team.idle t) program w

/-- What has to be shown of the threads for their runs to be safe. -/
structure Verified (threads : Threads Res World) (team : Team Res World) : Prop where
  exec : ∀ {t o w answer w₁}, threads.exec t o w answer w₁ → team.exec t o w answer w₁
  env : ∀ {w w₁}, team.inv w → threads.env w w₁ → team.inv w₁ ∧ ∀ t, team.rely t w w₁
  entry : ∀ {program t w}, threads.entry program → team.inv w → team.idle t w → team.Safe t program w
  drop : ∀ {t w}, team.inv w → team.inv (threads.drop t w) ∧
    (∀ w₁, team.rely t (threads.drop t w) w₁ → team.inv w₁ → team.idle t w₁) ∧
    ∀ u, u ≠ t → team.rely u w (threads.drop t w)

variable {team : Team Res World}

theorem Team.safe_update {runs : Nat → Program Res Unit} {t : Nat} {program : Program Res Unit} {w : World}
    (here : team.Safe t program w) (others : ∀ u, u ≠ t → team.Safe u (runs u) w) (u : Nat) :
    team.Safe u (Function.update runs t program u) w := by
  by_cases same : u = t
  · subst same
    rw [Function.update_self]
    exact here
  · rw [Function.update_of_ne same]
    exact others u same

/-- One step keeps the invariant and the safety of what every thread has left to run. -/
theorem Step.safe {c c₁ : Config Res World} (step : threads.Step c c₁) (verified : threads.Verified team)
    (inv : team.inv c.world) (safe : ∀ t, team.Safe t (c.runs t) c.world) :
    team.inv c₁.world ∧ ∀ t, team.Safe t (c₁.runs t) c₁.world := by
  cases step with
  | @start w runs program t next allowed =>
    have idle : team.idle t w := by
      have ended := safe t
      simp only [next] at ended
      exact ended w (team.rely_refl t w) inv
    exact ⟨inv, Team.safe_update (verified.entry allowed inv idle) fun u _ => safe u⟩
  | @op w runs o rest answer w₁ t next run =>
    have running := safe t
    simp only [next] at running
    obtain ⟨inv₁, ⟨accepted, _⟩, later⟩ := running w (team.rely_refl t w) inv answer w₁ (verified.exec run)
    exact ⟨inv₁, Team.safe_update later fun u other => (safe u).interfere (accepted u other)⟩
  | @die w runs t =>
    obtain ⟨inv₁, idle, accepted⟩ := verified.drop (t := t) inv
    exact ⟨inv₁, Team.safe_update idle fun u other => (safe u).interfere (accepted u other)⟩
  | @env w runs w₁ moves =>
    obtain ⟨inv₁, accepted⟩ := verified.env inv moves
    exact ⟨inv₁, fun t => (safe t).interfere (accepted t)⟩

/-- A run of verified threads keeps the invariant, and every thread stays safe. -/
theorem Reach.safe {c : Config Res World} (reach : threads.Reach start c) (verified : threads.Verified team)
    (initial : ∀ w, start w → team.inv w ∧ ∀ t w₁, team.rely t w w₁ → team.inv w₁ → team.idle t w₁) :
    team.inv c.world ∧ ∀ t, team.Safe t (c.runs t) c.world := by
  induction reach with
  | @init w h => exact initial w h
  | step _ step ih => exact step.safe verified ih.1 ih.2

theorem Reach.inv {c : Config Res World} (reach : threads.Reach start c) (verified : threads.Verified team)
    (initial : ∀ w, start w → team.inv w ∧ ∀ t w₁, team.rely t w w₁ → team.inv w₁ → team.idle t w₁) :
    team.inv c.world := (reach.safe verified initial).1

/-- Every operation performed along a run of verified threads meets its guarantee. -/
theorem Reach.guarantee {w w₁ : World} {runs : Nat → Program Res Unit} {t : Nat} {o : Op}
    {rest : Res o → Program Res Unit} {answer : Res o} (reach : threads.Reach start ⟨w, runs⟩)
    (verified : threads.Verified team)
    (initial : ∀ w, start w → team.inv w ∧ ∀ t w₁, team.rely t w w₁ → team.inv w₁ → team.idle t w₁)
    (next : runs t = .op o rest) (run : threads.exec t o w answer w₁) : team.guarantee t o w answer w₁ := by
  obtain ⟨inv, safe⟩ := reach.safe verified initial
  have running := safe t
  simp only [next] at running
  exact (running w (team.rely_refl t w) inv answer w₁ (verified.exec run)).2.1.2

end Threads

end Opale
