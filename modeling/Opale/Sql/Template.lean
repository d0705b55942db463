import Mathlib.Data.List.Basic
import Mathlib.Tactic.Common

namespace Opale.Sql

/-- A part of a template literal: text, or the placeholder of a parameter. -/
inductive Piece where
  | text (s : List Char)
  | placeholder (n : Nat)
  deriving DecidableEq

abbrev Template := List Piece

def Piece.render : Piece → List Char
  | .text s => s
  | .placeholder n => '$' :: Nat.toDigits 10 n

def Template.render (t : Template) : List Char := t.flatMap Piece.render

def Piece.parameter? : Piece → Option Nat
  | .text _ => none
  | .placeholder n => some n

def Template.parameters (t : Template) : List Nat := t.filterMap Piece.parameter?

/-- Where a reader of placeholders stands: outside, after a `$`, or in the digits that follow it. -/
inductive Scan where
  | outside
  | dollar
  | number (n : Nat)

/-- A character that is not a digit. -/
def Scan.next (c : Char) : Scan := if c = '$' then .dollar else .outside

def Scan.read (c : Char) : Scan → Scan
  | .outside => .next c
  | .dollar => if c.isDigit then .number (c.toNat - '0'.toNat) else .next c
  | .number n => if c.isDigit then .number (10 * n + (c.toNat - '0'.toNat)) else .next c

/-- The placeholder that ends before a character. -/
def Scan.found (c : Char) : Scan → List Nat
  | .number n => if c.isDigit then [] else [n]
  | _ => []

/-- The placeholders of a text: every `$` with digits after it. -/
def placeholders : Scan → List Char → List Nat
  | .number n, [] => [n]
  | _, [] => []
  | state, c :: rest => state.found c ++ placeholders (state.read c) rest

/-- The template does not go on with a digit. -/
def Apart : Template → Prop
  | [] | .placeholder _ :: _ => True
  | .text [] :: rest => Apart rest
  | .text (c :: _) :: _ => c.isDigit = false

/-- No text has a `$`, and none goes on with the digits of a placeholder. -/
def Sound : Template → Prop
  | [] => True
  | .text s :: rest => '$' ∉ s ∧ Sound rest
  | .placeholder _ :: rest => Apart rest ∧ Sound rest

theorem Apart.append {t u : Template} (apart : Apart t) (later : Apart u) : Apart (t ++ u) := by
  induction t with
  | nil => exact later
  | cons p rest ih =>
    cases p with
    | placeholder n => trivial
    | text s =>
      cases s with
      | nil => exact ih apart
      | cons c s => exact apart

theorem Sound.append {t u : Template} (sound : Sound t) (later : Sound u) (apart : Apart u) : Sound (t ++ u) := by
  induction t with
  | nil => exact later
  | cons p rest ih =>
    cases p with
    | text s => exact ⟨sound.1, ih sound.2⟩
    | placeholder n => exact ⟨sound.1.append apart, ih sound.2⟩

theorem placeholders_cons (state : Scan) (c : Char) (rest : List Char) :
    placeholders state (c :: rest) = state.found c ++ placeholders (state.read c) rest := by
  cases state <;> rfl

theorem placeholders_text {s : List Char} (plain : '$' ∉ s) (rest : List Char) :
    placeholders .outside (s ++ rest) = placeholders .outside rest := by
  induction s with
  | nil => rfl
  | cons c s ih =>
    rw [List.mem_cons, not_or] at plain
    have outside : Scan.read c .outside = .outside := if_neg fun same => plain.1 same.symm
    rw [List.cons_append, placeholders_cons, outside, ih plain.2]
    rfl

theorem placeholders_digits {s : List Char} (digits : ∀ c ∈ s, c.isDigit = true) (n : Nat) (rest : List Char) :
    placeholders (.number n) (s ++ rest) = placeholders (.number (Nat.ofDigitChars 10 s n)) rest := by
  induction s generalizing n with
  | nil => rfl
  | cons c s ih =>
    have digit := digits c List.mem_cons_self
    have found : Scan.found c (.number n) = [] := if_pos digit
    have read : Scan.read c (.number n) = .number (10 * n + (c.toNat - '0'.toNat)) := if_pos digit
    rw [List.cons_append, placeholders_cons, found, read, ih fun d member => digits d (List.mem_cons_of_mem c member),
      Nat.ofDigitChars_cons]
    rfl

theorem placeholders_placeholder (n : Nat) (rest : List Char) :
    placeholders .outside (Piece.render (.placeholder n) ++ rest) = placeholders (.number n) rest := by
  have digits : ∀ c ∈ Nat.toDigits 10 n, c.isDigit = true := fun c member =>
    Nat.isDigit_of_mem_toDigits (by decide) (by decide) member
  have value : Nat.ofDigitChars 10 (Nat.toDigits 10 n) 0 = n := Nat.ofDigitChars_ten_toDigits
  have some_ : Nat.toDigits 10 n ≠ [] := Nat.toDigits_ne_nil
  change placeholders .outside ('$' :: (Nat.toDigits 10 n ++ rest)) = _
  generalize Nat.toDigits 10 n = s at digits value some_ ⊢
  cases s with
  | nil => exact absurd rfl some_
  | cons c s =>
    have read : Scan.read c .dollar = .number (c.toNat - '0'.toNat) := if_pos (digits c List.mem_cons_self)
    rw [Nat.ofDigitChars_cons, Nat.mul_zero, Nat.zero_add] at value
    change placeholders .dollar (c :: (s ++ rest)) = _
    rw [placeholders_cons, read, placeholders_digits (fun d member => digits d (List.mem_cons_of_mem c member)), value]
    rfl

/-- What follows a placeholder does not go on with its digits. -/
theorem placeholders_number {t : Template} (apart : Apart t) (n : Nat) :
    placeholders (.number n) (Template.render t) = n :: placeholders .outside (Template.render t) := by
  induction t with
  | nil => rfl
  | cons p rest ih =>
    cases p with
    | placeholder m => rfl
    | text s =>
      cases s with
      | nil => exact ih apart
      | cons c s =>
        have other : c.isDigit = false := apart
        have found : Scan.found c (.number n) = [n] := if_neg (by rw [other]; exact Bool.false_ne_true)
        have read : Scan.read c (.number n) = .next c := if_neg (by rw [other]; exact Bool.false_ne_true)
        change placeholders (.number n) (c :: _) = n :: placeholders .outside (c :: _)
        rw [placeholders_cons, placeholders_cons, found, read]
        rfl

/-- The placeholders of the text of a template are its own. -/
theorem placeholders_render {t : Template} (sound : Sound t) : placeholders .outside (Template.render t) = Template.parameters t := by
  induction t with
  | nil => rfl
  | cons p rest ih =>
    cases p with
    | text s =>
      have here : Template.render (.text s :: rest) = s ++ Template.render rest := rfl
      rw [here, placeholders_text sound.1]
      exact ih sound.2
    | placeholder n =>
      have here : Template.render (.placeholder n :: rest) = Piece.render (.placeholder n) ++ Template.render rest := rfl
      rw [here, placeholders_placeholder, placeholders_number sound.1, ih sound.2]
      rfl

section

variable {blank : List Char} (bare : ∀ c ∈ blank, c ≠ '$' ∧ c.isDigit = false)

include bare

theorem placeholders_blank (state : Scan) : placeholders state blank = placeholders state [] := by
  have later : placeholders .outside blank = [] := by
    have plain : '$' ∉ blank := fun member => (bare _ member).1 rfl
    have text := placeholders_text plain []
    rw [List.append_nil] at text
    exact text
  cases blank with
  | nil => rfl
  | cons c rest =>
    obtain ⟨dollar, digit⟩ := bare c List.mem_cons_self
    have digit : ¬c.isDigit = true := by rw [digit]; exact Bool.false_ne_true
    have outside : Scan.next c = .outside := if_neg dollar
    have rest_ : placeholders .outside rest = [] := by
      rw [placeholders_cons] at later
      change [] ++ placeholders (.next c) rest = [] at later
      rw [outside] at later
      exact later
    cases state with
    | outside => exact later
    | dollar =>
      have read : Scan.read c .dollar = .outside := (if_neg digit).trans outside
      rw [placeholders_cons, read, rest_]
      rfl
    | number n =>
      have read : Scan.read c (.number n) = .outside := (if_neg digit).trans outside
      have found : Scan.found c (.number n) = [n] := if_neg digit
      rw [placeholders_cons, found, read, rest_]
      rfl

/-- Blanks at the end hold no placeholder. -/
theorem placeholders_append_blank (state : Scan) (s : List Char) : placeholders state (s ++ blank) = placeholders state s := by
  induction s generalizing state with
  | nil => exact placeholders_blank bare state
  | cons c s ih => rw [List.cons_append, placeholders_cons, placeholders_cons, ih]

end

end Opale.Sql
