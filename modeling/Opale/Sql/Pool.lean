import Opale.Sql.Alone

namespace Opale.Sql

variable {Stmt Call : Type} {Ans : Stmt → Type} {Reply : Call → Type} {E α β : Type}

namespace App

/-- The statements of a body, each by itself, where there is no transaction around them. -/
def loose : Program (TxOp.Res Ans Reply) α → App Ans Reply α
  | .ret value => .ret value
  | .op (.within s) rest => .op (.sql (.query s)) fun answer => loose (rest answer)
  | .op (.call c) rest => .op (.call c) fun reply => loose (rest reply)

/-- A body on the pool: what is thrown is nobody's rollback. -/
def onPool (body : Body Ans Reply E α) : App Ans Reply (Except (Thrown E) α) := loose body.run

end App

namespace Body

variable {Call₁ : Type} {Reply₁ : Call₁ → Type} {E₁ : Type}

/-- A body of an application that makes no calls, in one that does. -/
def adopt (error : E → E₁) : Program (TxOp.Res Ans (Empty.elim : Empty → Type)) (Except (Thrown E) α) →
    Program (TxOp.Res Ans Reply₁) (Except (Thrown E₁) α)
  | .ret (.ok value) => .ret (.ok value)
  | .ret (.error .driver) => .ret (.error .driver)
  | .ret (.error (.error e)) => .ret (.error (.error (error e)))
  | .op (.within s) rest => .op (.within s) fun answer => adopt error (rest answer)
  | .op (.call c) _ => c.elim

def lift (error : E → E₁) (body : Body Ans (Empty.elim : Empty → Type) E α) : Body Ans Reply₁ E₁ α :=
  ExceptT.mk (adopt error body.run)

variable {allowed : Stmt → Prop}

theorem Only.lift {error : E → E₁} {body : Body Ans (Empty.elim : Empty → Type) E α} (only : body.Only allowed) :
    (lift error body : Body Ans Reply₁ E₁ α).Only allowed := by
  have go (program : Program (TxOp.Res Ans (Empty.elim : Empty → Type)) (Except (Thrown E) α))
      (only : program.Only (TxOp.Runs allowed)) :
      (adopt error program : Program (TxOp.Res Ans Reply₁) (Except (Thrown E₁) α)).Only (TxOp.Runs allowed) := by
    induction program with
    | ret result =>
      cases result with
      | ok value => trivial
      | error thrown => cases thrown <;> trivial
    | op o rest ih =>
      cases o with
      | within s => exact ⟨only.1, fun answer => ih answer (only.2 answer)⟩
      | call c => exact c.elim
  exact go body.run only

theorem Only.call {c : Call} : (Body.call c : Body Ans Reply E (Reply c)).Only allowed := ⟨trivial, fun _ => trivial⟩

theorem Only.attempt {q : Stmt} (ok : allowed q) : (Body.attempt q : Body Ans Reply E (Option (Ans q))).Only allowed :=
  ⟨ok, fun _ => trivial⟩

end Body

namespace Contract

variable {Db Change Lock Draw σ : Type} {schema : Schema Ans Db Change Lock Draw} {contract : Contract schema σ}
variable {cond : Stmt → Db → Prop}

/-- A body that only runs statements which leave the states of `stays` in it. -/
theorem Follows.only {allowed : Stmt → Prop} {stays : σ → Prop} {body : Body Ans Reply E α} {s : σ}
    (only : body.Only allowed) (starts : stays s)
    (keeps : ∀ s q, stays s → allowed q → contract.allowed s q ∧ ∀ answer, stays (contract.next s q answer)) :
    contract.Follows (fun _ => stays) s body := by
  have go (program : Program (TxOp.Res Ans Reply) (Except (Thrown E) α)) (only : program.Only (TxOp.Runs allowed)) {s : σ}
      (starts : stays s) : contract.Keeps (fun result s₁ => ∀ value, result = .ok value → stays s₁) s program := by
    induction program generalizing s with
    | ret result => exact fun _ _ => starts
    | op o rest ih =>
      cases o with
      | within q =>
        obtain ⟨ok, later⟩ := keeps s q starts only.1
        exact ⟨ok, fun answer => ih (some answer) (only.2 (some answer)) (later answer)⟩
      | call c => exact fun reply => ih reply (only.2 reply) starts
  exact go body.run only starts

/-- The last statement of a body. -/
theorem Follows.last {q : Stmt} {final : Ans q → σ → Prop} {s : σ} (allowed : contract.allowed s q)
    (ends : ∀ answer, final answer (contract.next s q answer)) :
    contract.Follows final s (Body.within q : Body Ans Reply E (Ans q)) := by
  refine ⟨allowed, fun answer value same => ?_⟩
  cases same
  exact ends answer

theorem Follows.weaken {final other : α → σ → Prop} {body : Body Ans Reply E α} {s : σ} (follows : contract.Follows final s body)
    (implies : ∀ value s₁, final value s₁ → other value s₁) : contract.Follows other s body := by
  have go (program : Program (TxOp.Res Ans Reply) (Except (Thrown E) α)) {s : σ}
      (keeps : contract.Keeps (fun result s₁ => ∀ value, result = .ok value → final value s₁) s program) :
      contract.Keeps (fun result s₁ => ∀ value, result = .ok value → other value s₁) s program := by
    induction program generalizing s with
    | ret result => exact fun value same => implies value s (keeps value same)
    | op o rest ih =>
      cases o with
      | within q => exact ⟨keeps.1, fun answer => ih (some answer) (keeps.2 answer)⟩
      | call c => exact fun reply => ih reply (keeps reply)
  exact go body.run follows

variable [DecidableEq Lock]

/-- A body on the pool keeps a contract whose statements it may run by themselves. -/
theorem Kept.onPool {body : Body Ans Reply E α} (only : body.Only contract.queried) :
    contract.Kept cond (App.onPool body) := by
  have go {γ : Type} (program : Program (TxOp.Res Ans Reply) γ) (only : program.Only (TxOp.Runs contract.queried)) :
      contract.Kept cond (App.loose program) := by
    induction program with
    | ret value => exact .ret value
    | op o rest ih =>
      cases o with
      | within s => exact (Kept.query only.1).bind fun answer => ih answer (only.2 answer)
      | call c => exact (Kept.call c).bind fun reply => ih reply (only.2 reply)
  exact go body.run only

end Contract

end Opale.Sql
