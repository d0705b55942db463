import Opale.Effects.Program

namespace Opale

/-- What is known of a program's environment: what each operation may answer and do
to the world (`exec`), what the world may do between two operations of the program
(`rely`), the invariant of the world, and what every operation has to guarantee. -/
structure Rules {Op : Type} (Res : Op → Type) (World : Type) where
  exec : (o : Op) → World → Res o → World → Prop
  inv : World → Prop
  rely : World → World → Prop
  guarantee : (o : Op) → World → Res o → World → Prop
  rely_refl : ∀ w, rely w w
  rely_trans : ∀ {a b c}, rely a b → rely b c → rely a c

namespace Rules

variable {Op : Type} {Res : Op → Type} {World : Type} (rules : Rules Res World)
variable {α β : Type}

/-- From the world `w`, whatever the environment does in between and answers, every
operation of the program keeps the invariant and the guarantee, and the program can
only end where `post` holds. -/
def Safe (post : α → World → Prop) : Program Res α → World → Prop
  | .ret value, w => ∀ w₁, rules.rely w w₁ → rules.inv w₁ → post value w₁
  | .op o rest, w => ∀ w₁, rules.rely w w₁ → rules.inv w₁ → ∀ answer w₂,
      rules.exec o w₁ answer w₂ →
        rules.inv w₂ ∧ rules.guarantee o w₁ answer w₂ ∧ Safe post (rest answer) w₂

variable {rules}

/-- Interference does not take safety away. -/
theorem Safe.interfere {post : α → World → Prop} {program : Program Res α} {w w₁ : World}
    (safe : rules.Safe post program w) (moves : rules.rely w w₁) : rules.Safe post program w₁ := by
  cases program with
  | ret value => exact fun w₂ later kept => safe w₂ (rules.rely_trans moves later) kept
  | op o rest => exact fun w₂ later kept => safe w₂ (rules.rely_trans moves later) kept

theorem Safe.weaken {post other : α → World → Prop} {program : Program Res α} {w : World}
    (safe : rules.Safe post program w)
    (implies : ∀ value w₁, rules.inv w₁ → post value w₁ → other value w₁) :
    rules.Safe other program w := by
  induction program generalizing w with
  | ret value => exact fun w₁ moves kept => implies value w₁ kept (safe w₁ moves kept)
  | op o rest ih =>
    intro w₁ moves kept answer w₂ run
    obtain ⟨inv, guarantee, later⟩ := safe w₁ moves kept answer w₂ run
    exact ⟨inv, guarantee, ih answer later⟩

/-- The rule for sequencing: the second program is safe wherever the first may end. -/
theorem Safe.bind {middle : α → World → Prop} {post : β → World → Prop}
    {program : Program Res α} {next : α → Program Res β} {w : World}
    (safe : rules.Safe middle program w) (kept : rules.inv w)
    (resume : ∀ value w₁, rules.inv w₁ → middle value w₁ → rules.Safe post (next value) w₁) :
    rules.Safe post (program.bind next) w := by
  induction program generalizing w with
  | ret value => exact resume value w kept (safe w (rules.rely_refl w) kept)
  | op o rest ih =>
    intro w₁ moves kept₁ answer w₂ run
    obtain ⟨inv, guarantee, later⟩ := safe w₁ moves kept₁ answer w₂ run
    exact ⟨inv, guarantee, ih answer later inv⟩

/-- Nothing is asked of a program that gives up. -/
def Given (post : α → World → Prop) : Option α → World → Prop
  | none, _ => True
  | some value, w => post value w

theorem safe_none {post : α → World → Prop} {w : World} : rules.Safe (Given post) (.ret none) w :=
  fun _ _ _ => trivial

/-- The rule for sequencing programs that may give up: the rest is skipped then. -/
theorem Safe.bindOption {middle : α → World → Prop} {post : β → World → Prop}
    {program : OptionT (Program Res) α} {next : α → OptionT (Program Res) β} {w : World}
    (safe : rules.Safe (Given middle) program.run w) (kept : rules.inv w)
    (resume : ∀ value w₁, rules.inv w₁ → middle value w₁ → rules.Safe (Given post) (next value).run w₁) :
    rules.Safe (Given post) (program >>= next).run w := by
  refine Safe.bind safe kept fun value w₁ kept₁ ended => ?_
  cases value with
  | none => exact safe_none
  | some value => exact resume value w₁ kept₁ ended

/-- The rule for one operation in front of a program. -/
theorem Safe.perform {post : β → World → Prop} {o : Op} {next : Res o → Program Res β} {w : World}
    (step : ∀ w₁, rules.rely w w₁ → rules.inv w₁ → ∀ answer w₂, rules.exec o w₁ answer w₂ →
      rules.inv w₂ ∧ rules.guarantee o w₁ answer w₂ ∧ rules.Safe post (next answer) w₂) :
    rules.Safe post (Program.perform o >>= next) w := step

/-- A run of a program from its first operation to its last. -/
inductive Ends (exec : (o : Op) → World → Res o → World → Prop) : Program Res α → World → α → World → Prop
  | ret {value w} : Ends exec (.ret value) w value w
  | op {o rest answer value w w₁ w₂} : exec o w answer w₁ → Ends exec (rest answer) w₁ value w₂ →
      Ends exec (.op o rest) w value w₂

theorem Ends.of_op {exec : (o : Op) → World → Res o → World → Prop} {o : Op} {rest : Res o → Program Res α}
    {w w₁ : World} {value : α} (ends : Ends exec (.op o rest) w value w₁) :
    ∃ answer w₂, exec o w answer w₂ ∧ Ends exec (rest answer) w₂ value w₁ := by
  obtain _ | ⟨run, later⟩ := ends
  exact ⟨_, _, run, later⟩

/-- One operation of a run, its answer given. -/
theorem Ends.perform {exec : (o : Op) → World → Res o → World → Prop} {o : Op} {rest : Res o → Program Res α}
    {w w₂ : World} {value : α} (answer : Res o) (w₁ : World) (run : exec o w answer w₁)
    (later : Ends exec (rest answer) w₁ value w₂) : Ends exec (.op o rest) w value w₂ := .op run later

/-- A run of a sequence is a run of the first program, then one of the second. -/
theorem Ends.of_bind {exec : (o : Op) → World → Res o → World → Prop} {program : Program Res α}
    {rest : α → Program Res β} {w w₁ : World} {value : β} (ends : Ends exec (program.bind rest) w value w₁) :
    ∃ middle w₂, Ends exec program w middle w₂ ∧ Ends exec (rest middle) w₂ value w₁ := by
  induction program generalizing w with
  | ret middle => exact ⟨middle, w, .ret, ends⟩
  | op o next ih =>
    obtain _ | ⟨run, later⟩ := ends
    obtain ⟨middle, w₂, first, second⟩ := ih _ later
    exact ⟨middle, w₂, .op run first, second⟩

/-- The same for programs that may give up: one that gives a value has not. -/
theorem Ends.of_bindOption {exec : (o : Op) → World → Res o → World → Prop} {program : OptionT (Program Res) α}
    {rest : α → OptionT (Program Res) β} {w w₁ : World} {value : β}
    (ends : Ends exec (program >>= rest).run w (some value) w₁) :
    ∃ middle w₂, Ends exec program.run w (some middle) w₂ ∧ Ends exec (rest middle).run w₂ (some value) w₁ := by
  have split : Ends exec (program.run.bind fun first => OptionT.run
      (match first with
      | some middle => rest middle
      | none => OptionT.mk (.ret none))) w (some value) w₁ := ends
  obtain ⟨middle, w₂, first, later⟩ := split.of_bind
  cases middle with
  | none => cases later
  | some middle => exact ⟨middle, w₂, first, later⟩

theorem Ends.bind {exec : (o : Op) → World → Res o → World → Prop} {program : Program Res α}
    {rest : α → Program Res β} {w w₁ w₂ : World} {middle : α} {value : β} (first : Ends exec program w middle w₁)
    (second : Ends exec (rest middle) w₁ value w₂) : Ends exec (program.bind rest) w value w₂ := by
  induction first with
  | ret => exact second
  | op run _ ih => exact .op run (ih second)

/-- A program by itself, in a world that nothing else changes. -/
def alone (exec : (o : Op) → World → Res o → World → Prop) : Rules Res World where
  exec := exec
  inv _ := True
  rely := Eq
  guarantee _ _ _ _ := True
  rely_refl _ := rfl
  rely_trans := Eq.trans

theorem Safe.ends {post : α → World → Prop} {program : Program Res α} {value : α} {w w₁ : World}
    (ends : Ends rules.exec program w value w₁) (safe : rules.Safe post program w) (kept : rules.inv w) :
    post value w₁ := by
  induction ends with
  | ret => exact safe _ (rules.rely_refl _) kept
  | op run _ ih =>
    obtain ⟨inv, _, later⟩ := safe _ (rules.rely_refl _) kept _ _ run
    exact ih later inv

end Rules

end Opale
