import Opale.Effects.Interruption

namespace Opale.Rules

variable {Op : Type} {Res : Op → Type} {World : Type} {α : Type}

/-- The operations of a program whose world moves before each of them. -/
def meanwhile (env : World → World → Prop) (exec : (o : Op) → World → Res o → World → Prop) :
    (o : Op) → World → Res o → World → Prop :=
  fun o w answer w₂ => ∃ w₁, env w w₁ ∧ exec o w₁ answer w₂

variable {rules : Rules Res World} {post : α → World → Prop} {program : Program Res α} {w w₁ : World}

/-- What a program has to be safe from is what may happen meanwhile. -/
theorem Safe.ends_meanwhile {value : α} (safe : rules.Safe post program w) (kept : rules.inv w)
    (steady : ∀ w w₁, rules.rely w w₁ → rules.inv w → rules.inv w₁)
    (ends : Ends (meanwhile rules.rely rules.exec) program w value w₁) : rules.inv w₁ ∧ post value w₁ := by
  induction ends with
  | ret => exact ⟨kept, safe _ (rules.rely_refl _) kept⟩
  | op run _ ih =>
    obtain ⟨w', moves, run⟩ := run
    obtain ⟨inv, -, later⟩ := safe w' moves (steady _ _ moves kept) _ _ run
    exact ih later inv

theorem Safe.stops_meanwhile (safe : rules.Safe post program w) (kept : rules.inv w)
    (steady : ∀ w w₁, rules.rely w w₁ → rules.inv w → rules.inv w₁)
    (stops : Stops (meanwhile rules.rely rules.exec) (fun _ _ _ => False) program w w₁) : rules.inv w₁ := by
  induction stops with
  | here => exact kept
  | within half => exact half.elim
  | op run _ ih =>
    obtain ⟨w', moves, run⟩ := run
    obtain ⟨inv, -, later⟩ := safe w' moves (steady _ _ moves kept) _ _ run
    exact ih later inv

end Opale.Rules
