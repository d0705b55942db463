import Opale.Effects.Threads

namespace Opale

namespace Program

variable {Op : Type} {Res : Op → Type} {σ α β : Type}

/-- The program performs no other operation. -/
def Only (allowed : Op → Prop) : Program Res α → Prop
  | .ret _ => True
  | .op o rest => allowed o ∧ ∀ answer, Only allowed (rest answer)

theorem Only.bind {allowed : Op → Prop} {program : Program Res α} {later : α → Program Res β} (first : program.Only allowed)
    (second : ∀ value, (later value).Only allowed) : (program.bind later).Only allowed := by
  induction program with
  | ret value => exact second value
  | op o rest ih => exact ⟨first.1, fun answer => ih answer (first.2 answer)⟩

theorem Only.perform {allowed : Op → Prop} {o : Op} {later : Res o → Program Res α} (ok : allowed o)
    (rest : ∀ answer, (later answer).Only allowed) : (Program.perform o >>= later).Only allowed := ⟨ok, rest⟩

/-- Whatever is answered, the program performs operations that its state allows, and ends in
the state `s₁` when it starts in `s`. -/
def Follows (allowed : σ → Op → Prop) (next : σ → Op → σ) : σ → σ → Program Res α → Prop
  | s, s₁, .ret _ => s = s₁
  | s, s₁, .op o rest => allowed s o ∧ ∀ answer, Follows allowed next (next s o) s₁ (rest answer)

variable {allowed : σ → Op → Prop} {next : σ → Op → σ} {s s₁ s₂ : σ}

theorem Follows.ret {value : α} : Follows allowed next s s (.ret value : Program Res α) := rfl

theorem Follows.bind {program : Program Res α} {later : α → Program Res β} (first : Follows allowed next s s₁ program)
    (second : ∀ value, Follows allowed next s₁ s₂ (later value)) : Follows allowed next s s₂ (program.bind later) := by
  induction program generalizing s with
  | ret value =>
    cases first
    exact second value
  | op o rest ih => exact ⟨first.1, fun answer => ih answer (first.2 answer)⟩

/-- As `Follows`, where the state depends on the answers too; `final` is of the result and the last state. -/
def Heeds (allowed : σ → Op → Prop) (heed : σ → (o : Op) → Res o → σ) (final : α → σ → Prop) :
    σ → Program Res α → Prop
  | s, .ret value => final value s
  | s, .op o rest => allowed s o ∧ ∀ answer, Heeds allowed heed final (heed s o answer) (rest answer)

variable {heed : σ → (o : Op) → Res o → σ}

theorem Heeds.bind {middle : α → σ → Prop} {final : β → σ → Prop} {program : Program Res α}
    {later : α → Program Res β} (first : Heeds allowed heed middle s program)
    (second : ∀ value s₁, middle value s₁ → Heeds allowed heed final s₁ (later value)) :
    Heeds allowed heed final s (program.bind later) := by
  induction program generalizing s with
  | ret value => exact second value s first
  | op o rest ih => exact ⟨first.1, fun answer => ih answer (first.2 answer)⟩

theorem Heeds.weaken {final other : α → σ → Prop} {program : Program Res α} (heeds : Heeds allowed heed final s program)
    (implies : ∀ value s, final value s → other value s) : Heeds allowed heed other s program := by
  induction program generalizing s with
  | ret value => exact implies value s heeds
  | op o rest ih => exact ⟨heeds.1, fun answer => ih answer (heeds.2 answer)⟩

/-- What a program that may give up is left with: nothing is said of its state then. -/
def Given (final : α → σ → Prop) : Option α → σ → Prop
  | none, _ => True
  | some value, s => final value s

theorem Heeds.bindOption {middle : α → σ → Prop} {final : β → σ → Prop} {program : OptionT (Program Res) α}
    {later : α → OptionT (Program Res) β} (first : Heeds allowed heed (Given middle) s program.run)
    (second : ∀ value s₁, middle value s₁ → Heeds allowed heed (Given final) s₁ (later value).run) :
    Heeds allowed heed (Given final) s (program >>= later).run := by
  refine Heeds.bind first fun value s₁ ends => ?_
  cases value with
  | none => exact trivial
  | some value => exact second value s₁ ends

end Program

namespace Rules

variable {Op : Type} {Res : Op → Type} {World σ α : Type} {rules : Rules Res World}
variable {allowed : σ → Op → Prop} {next : σ → Op → σ} {s s₁ : σ}

/-- An assertion on the state of a discipline that every allowed operation carries on makes
all programs safe that follow the discipline. -/
theorem Safe.of_follows (holds : σ → World → Prop) {program : Program Res α} {w : World}
    (stable : ∀ {s w w₁}, holds s w → rules.rely w w₁ → rules.inv w₁ → holds s w₁)
    (step : ∀ {s o w answer w₁}, allowed s o → holds s w → rules.inv w → rules.exec o w answer w₁ →
      rules.inv w₁ ∧ rules.guarantee o w answer w₁ ∧ holds (next s o) w₁)
    (follows : program.Follows allowed next s s₁) (here : holds s w) : rules.Safe (fun _ => holds s₁) program w := by
  induction program generalizing s w with
  | ret value =>
    cases follows
    exact fun w₁ moves kept => stable here moves kept
  | op o rest ih =>
    intro w₁ moves kept answer w₂ run
    obtain ⟨kept₂, guarantee, there⟩ := step follows.1 (stable here moves kept) kept run
    exact ⟨kept₂, guarantee, ih answer (follows.2 answer) there⟩

/-- The same for a discipline whose state depends on the answers. -/
theorem Safe.of_heeds {heed : σ → (o : Op) → Res o → σ} {final : α → σ → Prop} {post : α → World → Prop}
    (holds : σ → World → Prop) {program : Program Res α} {w : World}
    (stable : ∀ {s w w₁}, holds s w → rules.rely w w₁ → rules.inv w₁ → holds s w₁)
    (step : ∀ {s o w answer w₁}, allowed s o → holds s w → rules.inv w → rules.exec o w answer w₁ →
      rules.inv w₁ ∧ rules.guarantee o w answer w₁ ∧ holds (heed s o answer) w₁)
    (ends : ∀ {value s w}, final value s → holds s w → rules.inv w → post value w)
    (heeds : program.Heeds allowed heed final s) (here : holds s w) : rules.Safe post program w := by
  induction program generalizing s w with
  | ret value => exact fun w₁ moves kept => ends heeds (stable here moves kept) kept
  | op o rest ih =>
    intro w₁ moves kept answer w₂ run
    obtain ⟨kept₂, guarantee, there⟩ := step heeds.1 (stable here moves kept) kept run
    exact ⟨kept₂, guarantee, ih answer (heeds.2 answer) there⟩

end Rules

namespace Threads

variable {Op : Type} {Res : Op → Type} {World : Type} {threads : Threads Res World} {start : World → Prop}

/-- What every allowed operation keeps holds along the runs of programs that perform no other. -/
theorem Reach.preserved_of_only {allowed : Op → Prop} {inv : World → Prop} {c : Config Res World}
    (reach : threads.Reach start c) (initial : ∀ w, start w → inv w)
    (entry : ∀ program, threads.entry program → program.Only allowed)
    (exec : ∀ t o w answer w₁, allowed o → threads.exec t o w answer w₁ → inv w → inv w₁)
    (env : ∀ w w₁, threads.env w w₁ → inv w → inv w₁) (drop : ∀ t w, inv w → inv (threads.drop t w)) :
    inv c.world ∧ ∀ t, (c.runs t).Only allowed := by
  have replaced {runs : Nat → Program Res Unit} {program : Program Res Unit} (t : Nat) (here : program.Only allowed)
      (others : ∀ u, (runs u).Only allowed) (u : Nat) : (Function.update runs t program u).Only allowed := by
    by_cases same : u = t
    · subst same
      rw [Function.update_self]
      exact here
    · rw [Function.update_of_ne same]
      exact others u
  induction reach with
  | @init w h => exact ⟨initial w h, fun _ => trivial⟩
  | step _ step ih =>
    obtain ⟨kept, only⟩ := ih
    cases step with
    | start t _ allowed => exact ⟨kept, replaced t (entry _ allowed) only⟩
    | op t next run =>
      have running := only t
      simp only [next] at running
      exact ⟨exec _ _ _ _ _ running.1 run kept, replaced t (running.2 _) only⟩
    | die t => exact ⟨drop t _ kept, replaced t trivial only⟩
    | env moves => exact ⟨env _ _ moves kept, only⟩

end Threads

end Opale
