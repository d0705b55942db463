import Opale.Effects.Discipline

namespace Opale

/-- A small world to follow a program in: the operations that each of its states allows, and the states that may come
after an answer. -/
structure Sketch {Op : Type} (Res : Op → Type) (σ : Type) where
  allowed : σ → Op → Prop
  next : σ → (o : Op) → Res o → σ → Prop

namespace Sketch

variable {Op : Type} {Res : Op → Type} {σ α β : Type} {sketch : Sketch Res σ} {s : σ}

/-- Whatever comes, the program only performs what is allowed, and it ends where `final` holds. -/
def Keeps (sketch : Sketch Res σ) (final : α → σ → Prop) : σ → Program Res α → Prop
  | s, .ret value => final value s
  | s, .op o rest => sketch.allowed s o ∧ ∀ answer s₁, sketch.next s o answer s₁ → Keeps sketch final s₁ (rest answer)

theorem Keeps.bind {middle : α → σ → Prop} {final : β → σ → Prop} {program : Program Res α}
    {later : α → Program Res β} (first : sketch.Keeps middle s program)
    (second : ∀ value s₁, middle value s₁ → sketch.Keeps final s₁ (later value)) :
    sketch.Keeps final s (program.bind later) := by
  induction program generalizing s with
  | ret value => exact second value s first
  | op o rest ih => exact ⟨first.1, fun answer s₁ comes => ih answer (first.2 answer s₁ comes)⟩

theorem Keeps.weaken {final other : α → σ → Prop} {program : Program Res α} (keeps : sketch.Keeps final s program)
    (implies : ∀ value s₁, final value s₁ → other value s₁) : sketch.Keeps other s program := by
  induction program generalizing s with
  | ret value => exact implies value s keeps
  | op o rest ih => exact ⟨keeps.1, fun answer s₁ comes => ih answer (keeps.2 answer s₁ comes)⟩

/-- Nothing is asked of a program that gives up. -/
theorem Keeps.bindOption {middle : α → σ → Prop} {final : β → σ → Prop} {program : OptionT (Program Res) α}
    {later : α → OptionT (Program Res) β} (first : sketch.Keeps (Program.Given middle) s program.run)
    (second : ∀ value s₁, middle value s₁ → sketch.Keeps (Program.Given final) s₁ (later value).run) :
    sketch.Keeps (Program.Given final) s (program >>= later).run := by
  refine Keeps.bind first fun value s₁ ends => ?_
  cases value with
  | none => exact trivial
  | some value => exact second value s₁ ends

end Sketch

variable {Op : Type} {Res : Op → Type} {World σ α : Type} {rules : Rules Res World} {sketch : Sketch Res σ}

/-- A program is safe when the world can be followed in a sketch that it keeps. -/
theorem Rules.Safe.of_sketch {final : α → σ → Prop} {post : α → World → Prop} (holds : σ → World → Prop)
    {program : Program Res α} {s : σ} {w : World}
    (stable : ∀ {s w w₁}, holds s w → rules.rely w w₁ → rules.inv w₁ → holds s w₁)
    (step : ∀ {s o w answer w₁}, sketch.allowed s o → holds s w → rules.inv w → rules.exec o w answer w₁ →
      rules.inv w₁ ∧ rules.guarantee o w answer w₁ ∧ ∃ s₁, sketch.next s o answer s₁ ∧ holds s₁ w₁)
    (ends : ∀ {value s w}, final value s → holds s w → rules.inv w → post value w)
    (keeps : sketch.Keeps final s program) (here : holds s w) : rules.Safe post program w := by
  induction program generalizing s w with
  | ret value => exact fun w₁ moves kept => ends keeps (stable here moves kept) kept
  | op o rest ih =>
    intro w₁ moves kept answer w₂ run
    obtain ⟨kept₂, guarantee, s₁, comes, there⟩ := step keeps.1 (stable here moves kept) kept run
    exact ⟨kept₂, guarantee, ih answer (keeps.2 answer s₁ comes) there⟩

end Opale
