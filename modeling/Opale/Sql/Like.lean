import Mathlib.Data.List.Infix

namespace Opale.Sql

/-- A text that starts with the character, and what is asked of the rest. -/
def literal (c : Char) (rest : List Char → Bool) : List Char → Bool
  | [] => false
  | d :: s => d = c && rest s

/-- `text LIKE pattern`: `%` is any text, `_` any character, and what follows a backslash stands for itself. -/
def like : List Char → List Char → Bool
  | [] => fun s => s.isEmpty
  | '%' :: p => fun s => s.tails.any (like p)
  | '_' :: p => fun s => match s with
    | [] => false
    | _ :: s => like p s
  | '\\' :: c :: p => literal c (like p)
  | c :: p => literal c (like p)

/-- A pattern that ends with an escape that has nothing to stand for: LIKE raises. -/
def endsInEscape {α : Type} [DecidableEq α] (escape : α) : List α → Bool
  | [] => false
  | [c] => c = escape
  | c :: d :: p => if c = escape then endsInEscape escape p else endsInEscape escape (d :: p)

theorem endsInEscape_concat {α : Type} [DecidableEq α] {escape c : α} (other : c ≠ escape) (p : List α) :
    endsInEscape escape (p ++ [c]) = false := by
  induction p using endsInEscape.induct escape with
  | case1 => exact decide_eq_false other
  | case2 d =>
    change (if d = escape then endsInEscape escape [] else endsInEscape escape [c]) = false
    split
    · rfl
    · exact decide_eq_false other
  | case3 e p ih =>
    rw [List.cons_append, List.cons_append, endsInEscape, if_pos rfl]
    exact ih
  | case4 d e p apart ih =>
    rw [List.cons_append, List.cons_append, endsInEscape, if_neg apart]
    exact ih

end Opale.Sql
