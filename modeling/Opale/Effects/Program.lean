import Mathlib.Logic.Relation
import Mathlib.Tactic.Common

namespace Opale

/-- A program as its tree of operations: it has ended with a value, or it performs
the operation `o` and goes on with the answer. Every possible answer of the
environment is a branch, so a proof over the tree covers all of them. -/
inductive Program {Op : Type} (Res : Op → Type) (α : Type) where
  | ret (value : α) : Program Res α
  | op (o : Op) (rest : Res o → Program Res α) : Program Res α

namespace Program

variable {Op : Type} {Res : Op → Type} {α β : Type}

def bind (program : Program Res α) (next : α → Program Res β) : Program Res β :=
  match program with
  | .ret value => next value
  | .op o rest => .op o fun answer => (rest answer).bind next

/-- One operation, ending with its answer. -/
def perform (o : Op) : Program Res (Res o) := .op o .ret

instance : Monad (Program Res) where
  pure := .ret
  bind := .bind

@[simp] theorem pure_eq (value : α) : (pure value : Program Res α) = .ret value := rfl

@[simp] theorem bind_eq (program : Program Res α) (next : α → Program Res β) :
    program >>= next = program.bind next := rfl

@[simp] theorem ret_bind (value : α) (next : α → Program Res β) :
    (Program.ret value : Program Res α).bind next = next value := rfl

@[simp] theorem op_bind (o : Op) (rest : Res o → Program Res α) (next : α → Program Res β) :
    (Program.op o rest).bind next = .op o fun answer => (rest answer).bind next := rfl

@[simp] theorem perform_bind (o : Op) (next : Res o → Program Res β) :
    (perform o : Program Res (Res o)).bind next = .op o next := rfl

theorem bind_ret (program : Program Res α) : program.bind .ret = program := by
  induction program with
  | ret value => rfl
  | op o rest ih => simp only [op_bind, ih]

end Program

end Opale
