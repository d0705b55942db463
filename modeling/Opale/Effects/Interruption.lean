import Opale.Effects.Discipline

namespace Opale

namespace Rules

variable {Op : Type} {Res : Op → Type} {World : Type} {α β : Type}

/-- The worlds in which a program may be stopped: between two operations, at its end, or within an
operation, of which `cut` says what it leaves half done. -/
inductive Stops (exec : (o : Op) → World → Res o → World → Prop) (cut : Op → World → World → Prop) :
    Program Res α → World → World → Prop
  | here {program w} : Stops exec cut program w w
  | within {o rest w w₁} : cut o w w₁ → Stops exec cut (.op o rest) w w₁
  | op {o rest answer w w₁ w₂} : exec o w answer w₁ → Stops exec cut (rest answer) w₁ w₂ →
      Stops exec cut (.op o rest) w w₂

variable {exec : (o : Op) → World → Res o → World → Prop} {cut : Op → World → World → Prop}

theorem Stops.of_op {o : Op} {rest : Res o → Program Res α} {w w₁ : World}
    (stops : Stops exec cut (.op o rest) w w₁) :
    w₁ = w ∨ cut o w w₁ ∨ ∃ answer w₂, exec o w answer w₂ ∧ Stops exec cut (rest answer) w₂ w₁ := by
  obtain _ | half | ⟨run, later⟩ := stops
  · exact .inl rfl
  · exact .inr (.inl half)
  · exact .inr (.inr ⟨_, _, run, later⟩)

theorem Stops.of_ret {value : α} {w w₁ : World} (stops : Stops exec cut (.ret value : Program Res α) w w₁) :
    w₁ = w := by
  cases stops
  rfl

/-- A stopped sequence was stopped in its first program, or the first had ended. -/
theorem Stops.of_bind {program : Program Res α} {rest : α → Program Res β} {w w₁ : World}
    (stops : Stops exec cut (program.bind rest) w w₁) :
    Stops exec cut program w w₁ ∨ ∃ middle w₂, Ends exec program w middle w₂ ∧ Stops exec cut (rest middle) w₂ w₁ := by
  induction program generalizing w with
  | ret middle => exact .inr ⟨middle, w, .ret, stops⟩
  | op o next ih =>
    obtain rfl | half | ⟨answer, w₂, run, later⟩ := Stops.of_op stops
    · exact .inl .here
    · exact .inl (.within half)
    · obtain inside | ⟨middle, w₃, first, second⟩ := ih answer later
      · exact .inl (.op run inside)
      · exact .inr ⟨middle, w₃, .op run first, second⟩

/-- A program may be stopped at its end. -/
theorem Ends.stops {program : Program Res α} {w w₁ : World} {value : α} (ends : Ends exec program w value w₁) :
    Stops exec cut program w w₁ := by
  induction ends with
  | ret => exact .here
  | op run _ ih => exact .op run ih

/-- Wherever a safe program is stopped between its operations, its invariant holds. -/
theorem Safe.stops {rules : Rules Res World} {post : α → World → Prop} {program : Program Res α} {w w₁ : World}
    (safe : rules.Safe post program w) (kept : rules.inv w)
    (stops : Stops rules.exec (fun _ _ _ => False) program w w₁) : rules.inv w₁ := by
  induction stops with
  | here => exact kept
  | within half => exact half.elim
  | op run _ ih =>
    obtain ⟨inv, -, later⟩ := safe _ (rules.rely_refl _) kept _ _ run
    exact ih later inv

/-- Where every operation can be carried out, every program can end. -/
theorem exists_ends (total : ∀ o w, ∃ answer w₁, exec o w answer w₁) (program : Program Res α) (w : World) :
    ∃ value w₁, Ends exec program w value w₁ := by
  induction program generalizing w with
  | ret value => exact ⟨value, w, .ret⟩
  | op o rest ih =>
    obtain ⟨answer, w₁, run⟩ := total o w
    obtain ⟨value, w₂, later⟩ := ih answer w₁
    exact ⟨value, w₂, .op run later⟩

/-- What every allowed operation keeps, a program that performs no other keeps. -/
theorem Ends.kept_of_only {allowed : Op → Prop} {program : Program Res α} {value : α} {w w₁ : World}
    (ends : Ends exec program w value w₁) (inv : World → Prop) (only : program.Only allowed)
    (step : ∀ o w answer w₁, allowed o → exec o w answer w₁ → inv w → inv w₁) (here : inv w) : inv w₁ := by
  induction ends with
  | ret => exact here
  | op run _ ih => exact ih (only.2 _) (step _ _ _ _ only.1 run here)

section Failing

variable {ε : Type} {first : ExceptT ε (Program Res) α} {rest : α → ExceptT ε (Program Res) β}

theorem only_bindExcept {allowed : Op → Prop} (here : first.run.Only allowed) (after : ∀ a, (rest a).run.Only allowed) :
    (first >>= rest).run.Only allowed := by
  refine Program.Only.bind here fun middle => ?_
  cases middle with
  | ok a => exact after a
  | error e => exact trivial

/-- A sequence ends with its second program, or with the failure of the first. -/
theorem Ends.of_bindExcept {w w₁ : World} {value : Except ε β} (ends : Ends exec (first >>= rest).run w value w₁) :
    (∃ a w₂, Ends exec first.run w (.ok a) w₂ ∧ Ends exec (rest a).run w₂ value w₁) ∨
      ∃ e, Ends exec first.run w (.error e) w₁ ∧ value = .error e := by
  rw [ExceptT.run_bind] at ends
  obtain ⟨middle, w₂, before, after⟩ := Ends.of_bind ends
  cases middle with
  | ok a => exact .inl ⟨a, w₂, before, after⟩
  | error e =>
    obtain _ | _ := after
    exact .inr ⟨e, before, rfl⟩

theorem Stops.of_bindExcept {w w₁ : World} (stops : Stops exec cut (first >>= rest).run w w₁) :
    Stops exec cut first.run w w₁ ∨
      ∃ a w₂, Ends exec first.run w (.ok a) w₂ ∧ Stops exec cut (rest a).run w₂ w₁ := by
  rw [ExceptT.run_bind] at stops
  obtain inside | ⟨middle, w₂, before, after⟩ := Stops.of_bind stops
  · exact .inl inside
  · cases middle with
    | ok a => exact .inr ⟨a, w₂, before, after⟩
    | error e =>
      rw [Stops.of_ret after]
      exact .inl (Ends.stops before)

/-- A failure that is caught hands its world to the handler. -/
theorem Ends.of_tryCatch {program : ExceptT ε (Program Res) α} {handle : ε → ExceptT ε (Program Res) α} {w w₁ : World}
    {value : Except ε α} (ends : Ends exec (tryCatch program handle).run w value w₁) :
    (∃ a, Ends exec program.run w (.ok a) w₁ ∧ value = .ok a) ∨
      ∃ e w₂, Ends exec program.run w (.error e) w₂ ∧ Ends exec (handle e).run w₂ value w₁ := by
  obtain ⟨middle, w₂, before, after⟩ := Ends.of_bind ends
  cases middle with
  | ok a =>
    obtain _ | _ := after
    exact .inl ⟨a, before, rfl⟩
  | error e => exact .inr ⟨e, w₂, before, after⟩

end Failing

end Rules

end Opale
