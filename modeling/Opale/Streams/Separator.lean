import Mathlib.Data.List.Infix
import Mathlib.Tactic.Common

namespace Opale.Streams

variable {α : Type} [DecidableEq α] {needle l more : List α} {i : Nat}

/-- The first place of a sequence in another. -/
def indexOf (needle : List α) : List α → Option Nat
  | [] => if needle = [] then some 0 else none
  | a :: rest => if needle <+: a :: rest then some 0 else (indexOf needle rest).map (· + 1)

/-- The elements around the place, which is the first. -/
structure FirstAt (needle before after l : List α) : Prop where
  split : l = before ++ needle ++ after
  first : ∀ other rest, l = other ++ needle ++ rest → before.length ≤ other.length

theorem indexOf_some (found : indexOf needle l = some i) :
    FirstAt needle (l.take i) (l.drop (i + needle.length)) l := by
  induction l generalizing i with
  | nil =>
    rw [indexOf] at found
    split at found
    · rename_i empty
      cases found
      exact ⟨by simp [empty], fun _ _ _ => Nat.zero_le _⟩
    · cases found
  | cons a rest ih =>
    rw [indexOf] at found
    split at found
    · rename_i here
      cases found
      obtain ⟨after, same⟩ := here
      refine ⟨?_, fun _ _ _ => Nat.zero_le _⟩
      rw [← same, List.take_zero, Nat.zero_add, List.drop_left, List.nil_append]
    · rename_i absent
      obtain ⟨j, later, rfl⟩ := Option.map_eq_some_iff.mp found
      obtain ⟨split, first⟩ := ih later
      refine ⟨?_, fun other later same => ?_⟩
      · rw [show j + 1 + needle.length = j + needle.length + 1 by omega, List.take_succ_cons, List.drop_succ_cons,
          List.cons_append, List.cons_append, ← split]
      · cases other with
        | nil => exact absurd ⟨later, same.symm⟩ absent
        | cons b other =>
          have inside := first other later (List.cons.inj same).2
          rw [List.take_succ_cons, List.length_cons, List.length_cons]
          omega

theorem indexOf_none (absent : indexOf needle l = none) : ¬needle <:+: l := by
  induction l with
  | nil =>
    rw [indexOf] at absent
    split at absent
    · cases absent
    · rename_i some_
      exact fun inside => some_ (List.infix_nil.mp inside)
  | cons a rest ih =>
    rw [indexOf] at absent
    split at absent
    · cases absent
    · rename_i here
      intro inside
      rcases List.infix_cons_iff.mp inside with first | later
      · exact here first
      · exact ih (Option.map_eq_none_iff.mp absent) later

/-- What comes later does not move the first place. -/
theorem indexOf_append (found : indexOf needle l = some i) : indexOf needle (l ++ more) = some i := by
  induction l generalizing i with
  | nil =>
    rw [indexOf] at found
    split at found
    · rename_i empty
      cases found
      subst empty
      cases more with
      | nil => rfl
      | cons a rest => exact if_pos List.nil_prefix
    · cases found
  | cons a rest ih =>
    rw [indexOf] at found
    rw [List.cons_append, indexOf]
    split at found
    · rename_i here
      cases found
      exact if_pos (here.trans (List.prefix_append _ _))
    · rename_i absent
      obtain ⟨j, later, rfl⟩ := Option.map_eq_some_iff.mp found
      have inside : needle.length ≤ rest.length := by
        have whole := congrArg List.length (indexOf_some later).split
        simp only [List.length_append] at whole
        omega
      have still : ¬needle <+: a :: (rest ++ more) := fun here =>
        absent (List.prefix_of_prefix_length_le here (List.prefix_append (a :: rest) more)
          (inside.trans (Nat.le_succ _)))
      rw [if_neg still, ih later]
      rfl

/-- The chunks are gathered until the sequence is among them: its place, what was gathered, and the
chunks still to come. -/
def readUntil (needle buffer : List α) : List (List α) → Option (Nat × List α × List (List α))
  | [] => none
  | chunk :: chunks =>
    match indexOf needle (buffer ++ chunk) with
    | some i => some (i, buffer ++ chunk, chunks)
    | none => readUntil needle (buffer ++ chunk) chunks

theorem readUntil_some {buffer gathered : List α} {chunks rest : List (List α)}
    (read : readUntil needle buffer chunks = some (i, gathered, rest)) :
    indexOf needle gathered = some i ∧ gathered ++ rest.flatten = buffer ++ chunks.flatten := by
  induction chunks generalizing buffer with
  | nil => cases read
  | cons chunk chunks ih =>
    rw [readUntil] at read
    rw [List.flatten_cons, ← List.append_assoc]
    split at read
    · rename_i found
      cases read
      exact ⟨found, rfl⟩
    · exact ih read

/-- However the elements are cut, the place is the one in the whole. -/
theorem readUntil_eq {buffer : List α} {chunks : List (List α)} (before : indexOf needle buffer = none) :
    (readUntil needle buffer chunks).map (·.1) = indexOf needle (buffer ++ chunks.flatten) := by
  induction chunks generalizing buffer with
  | nil => rw [readUntil, List.flatten_nil, List.append_nil, before, Option.map_none]
  | cons chunk chunks ih =>
    rw [readUntil, List.flatten_cons, ← List.append_assoc]
    split
    · rename_i found
      rw [indexOf_append found, Option.map_some]
    · rename_i absent
      exact ih absent

end Opale.Streams
