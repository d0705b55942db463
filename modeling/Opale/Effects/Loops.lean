import Mathlib.Order.Basic

namespace Opale

variable {α σ : Type}

/-- A loop over a list that its body may break off: `done` breaks, `yield` goes on. -/
def forOf (body : α → σ → ForInStep σ) : List α → σ → σ
  | [], s => s
  | a :: rest, s =>
    match body a s with
    | .done s₁ => s₁
    | .yield s₁ => forOf body rest s₁

section

variable {body : α → σ → ForInStep σ} {a : α} {read rest list : List α} {s s₁ : σ}

theorem forOf_of_yield (goes : body a s = .yield s₁) : forOf body (a :: rest) s = forOf body rest s₁ := by
  rw [forOf, goes]

theorem forOf_of_done (breaks : body a s = .done s₁) : forOf body (a :: rest) s = s₁ := by
  rw [forOf, breaks]

/-- Elements that the body passes over do not count. -/
theorem forOf_append (same : ∀ a ∈ read, body a s = .yield s) : forOf body (read ++ rest) s = forOf body rest s := by
  induction read with
  | nil => rfl
  | cons a read ih =>
    rw [List.cons_append, forOf_of_yield (same a List.mem_cons_self)]
    exact ih fun b member => same b (List.mem_cons_of_mem a member)

theorem forOf_eq_self (same : ∀ a ∈ list, body a s = .yield s) : forOf body list s = s := by
  have whole : forOf body (list ++ []) s = s := forOf_append same
  rwa [List.append_nil] at whole

/-- What holds along the elements read so far, and what a break leaves. -/
theorem forOf_rule {I : List α → σ → Prop} {J : σ → Prop}
    (next : ∀ read a rest s s₁, list = read ++ a :: rest → I read s → body a s = .yield s₁ → I (read ++ [a]) s₁)
    (stop : ∀ read a rest s s₁, list = read ++ a :: rest → I read s → body a s = .done s₁ → J s₁)
    (s : σ) (holds : I [] s) : I list (forOf body list s) ∨ J (forOf body list s) := by
  suffices along : ∀ rest read s, list = read ++ rest → I read s → I list (forOf body rest s) ∨ J (forOf body rest s) from
    along list [] s rfl holds
  intro rest
  induction rest with
  | nil =>
    intro read s whole holds
    rw [List.append_nil] at whole
    exact .inl (whole ▸ holds)
  | cons a rest ih =>
    intro read s whole holds
    cases turn : body a s with
    | done s₁ =>
      rw [forOf_of_done turn]
      exact .inr (stop read a rest s s₁ whole holds turn)
    | yield s₁ =>
      rw [forOf_of_yield turn]
      have more : list = (read ++ [a]) ++ rest := by rw [whole, List.append_assoc, List.singleton_append]
      exact ih (read ++ [a]) s₁ more (next read a rest s s₁ whole holds turn)

/-- What every turn keeps, however it ends. -/
theorem forOf_keeps {I : σ → Prop} (keeps : ∀ a ∈ list, ∀ s, I s → I (body a s).value) (s : σ) (holds : I s) :
    I (forOf body list s) := by
  have inside {read rest : List α} {a : α} (whole : list = read ++ a :: rest) : a ∈ list := by
    rw [whole]
    exact List.mem_append_right read List.mem_cons_self
  have ends : I (forOf body list s) ∨ I (forOf body list s) := by
    refine forOf_rule (I := fun _ => I) ?_ ?_ s holds
    · intro read a rest s s₁ whole holds turn
      have kept := keeps a (inside whole) s holds
      rwa [turn] at kept
    · intro read a rest s s₁ whole holds turn
      have kept := keeps a (inside whole) s holds
      rwa [turn] at kept
  exact or_self_iff.mp ends

/-- What the first turn brings about and no later one loses. -/
theorem forOf_first {I : σ → Prop} (first : I (body a s).value) (keeps : ∀ a ∈ rest, ∀ s, I s → I (body a s).value) :
    I (forOf body (a :: rest) s) := by
  cases turn : body a s with
  | done s₁ =>
    rw [turn] at first
    rwa [forOf_of_done turn]
  | yield s₁ =>
    rw [turn] at first
    rw [forOf_of_yield turn]
    exact forOf_keeps keeps s₁ first

end

/-- `do { … } while (again)`, where each turn that is followed by another spends of what is left. -/
structure DoWhile (σ : Type) where
  body : σ → ForInStep σ
  again : σ → Bool
  left : σ → Nat
  spends : ∀ {s s₁}, body s = .yield s₁ → again s₁ = true → left s₁ < left s

namespace DoWhile

variable (loop : DoWhile σ) {s s₁ : σ}

def run (s : σ) : σ :=
  match _turn : loop.body s with
  | .done s₁ => s₁
  | .yield s₁ =>
    if _again : loop.again s₁ = true then run s₁ else s₁
termination_by loop.left s
decreasing_by exact loop.spends _turn _again

variable {loop}

theorem run_of_done (turn : loop.body s = .done s₁) : loop.run s = s₁ := by
  rw [run]
  split
  next s₂ turn₂ => cases turn.symm.trans turn₂; rfl
  next s₂ turn₂ => cases turn.symm.trans turn₂

theorem run_of_yield (turn : loop.body s = .yield s₁) :
    loop.run s = if loop.again s₁ = true then loop.run s₁ else s₁ := by
  rw [run]
  split
  next s₂ turn₂ => cases turn.symm.trans turn₂
  next s₂ turn₂ => cases turn.symm.trans turn₂; rfl

theorem run_of_again (turn : loop.body s = .yield s₁) (again : loop.again s₁ = true) : loop.run s = loop.run s₁ := by
  rw [run_of_yield turn, if_pos again]

theorem run_of_stops (stops : loop.again (loop.body s).value = false) : loop.run s = (loop.body s).value := by
  cases turn : loop.body s with
  | done s₁ => exact run_of_done turn
  | yield s₁ =>
    rw [turn] at stops
    exact (run_of_yield turn).trans (if_neg (Bool.eq_false_iff.mp stops))

/-- What holds before every turn, and what the last one leaves. -/
theorem run_rule {I J : σ → Prop}
    (next : ∀ s s₁, I s → loop.body s = .yield s₁ → loop.again s₁ = true → I s₁)
    (last : ∀ s s₁, I s → loop.body s = .yield s₁ → loop.again s₁ = false → J s₁)
    (stop : ∀ s s₁, I s → loop.body s = .done s₁ → J s₁)
    (s : σ) (holds : I s) : J (loop.run s) := by
  induction size : loop.left s using Nat.strongRecOn generalizing s with
  | ind n ih =>
    cases turn : loop.body s with
    | done s₁ =>
      rw [run_of_done turn]
      exact stop s s₁ holds turn
    | yield s₁ =>
      rw [run_of_yield turn]
      cases again : loop.again s₁ with
      | false => exact last s s₁ holds turn again
      | true =>
        have less : loop.left s₁ < n := size ▸ loop.spends turn again
        exact ih _ less s₁ (next s s₁ holds turn again) rfl

/-- What every turn keeps, however it ends. -/
theorem run_keeps {I : σ → Prop} (keeps : ∀ s, I s → I (loop.body s).value) (s : σ) (holds : I s) : I (loop.run s) := by
  refine run_rule (I := I) (J := I) ?_ ?_ ?_ s holds
  · intro s s₁ holds turn _
    have kept := keeps s holds
    rwa [turn] at kept
  · intro s s₁ holds turn _
    have kept := keeps s holds
    rwa [turn] at kept
  · intro s s₁ holds turn
    have kept := keeps s holds
    rwa [turn] at kept

/-- What the first turn brings about and no later one loses. -/
theorem run_first {I : σ → Prop} (s : σ) (first : I (loop.body s).value) (keeps : ∀ s, I s → I (loop.body s).value) :
    I (loop.run s) := by
  cases turn : loop.body s with
  | done s₁ =>
    rw [turn] at first
    rwa [run_of_done turn]
  | yield s₁ =>
    rw [turn] at first
    rw [run_of_yield turn]
    split
    · exact run_keeps keeps s₁ first
    · exact first

end DoWhile

end Opale
