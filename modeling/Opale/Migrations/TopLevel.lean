import Opale.Sql.Lexer
import Mathlib.Data.List.Infix

namespace Opale.Migrations

open Sql

/-- `text.indexOf(pattern)` -/
def indexOf (pattern : List Char) : List Char → Option Nat
  | [] => none
  | c :: t => if pattern <+: c :: t then some 0 else (indexOf pattern t).map (· + 1)

/-- How far `j` goes in the loop on a quoted text. -/
def quoted (quote : Char) (escapes : Bool) : List Char → Nat
  | [] => 0
  | [c] => if escapes ∧ c = '\\' then 2 else if c = quote then 0 else 1
  | c :: d :: t =>
    if escapes ∧ c = '\\' then quoted quote escapes t + 2
    else if c = quote then if d = quote then quoted quote escapes t + 2 else 0
    else quoted quote escapes (d :: t) + 1

/-- `/^\$([A-Za-z_][A-Za-z0-9_]*)?\$/` on the next 64 characters -/
def opening (text : List Char) : Option (List Char) :=
  match text.take 64 with
  | '$' :: t => (dollarTag asciiWord t).map delimiter
  | _ => none

/-- Whether a quote opens a text with escapes, by the characters before it, the nearest first. -/
def escapesAfter (quote : Char) (before : List Char) : Bool :=
  quote = '\'' && before.head?.any (fun c => c = 'e' || c = 'E') && !((before.drop 1).head?.any asciiWord)

/-- A turn of the loop: what it adds to `out`, and how far it moves `i`. -/
def turn (before : List Char) : List Char → List Char × Nat
  | [] => ([], 1)
  | c :: t =>
    if c = '-' ∧ t.head? = some '-' then
      ([], (indexOf ['\n'] (c :: t)).getD (c :: t).length)
    else if c = '/' ∧ t.head? = some '*' then
      ([' '], ((indexOf ['*', '/'] (t.drop 1)).map (· + 4)).getD (c :: t).length)
    else if c = '\'' ∨ c = '"' then ([' '], quoted c (escapesAfter c before) t + 2)
    else if c = '$' then
      match opening (c :: t) with
      | some m => ([' '], ((indexOf m ((c :: t).drop m.length)).map fun j => m.length + j + m.length).getD (c :: t).length)
      | none => ([c], 1)
    else ([c], 1)

/-- The loop of `topLevelSql` from `skip` characters on. -/
def scan : Nat → List Char → List Char → List Char
  | _, _, [] => []
  | skip + 1, before, c :: t => scan skip (c :: before) t
  | 0, before, c :: t =>
    let (out, n) := turn before (c :: t)
    out ++ scan (n - 1) (c :: before) t

/-- A text by its characters; none of what the loop looks for is past ASCII, where UTF-16 may take two units. -/
def topLevelSql (sql : List Char) : List Char := scan 0 [] sql

/-- After a line comment with a carriage return, nothing but white space up to the line feed. -/
def Ends : List Token → Prop
  | [] => True
  | .blank c :: ts => c = '\n' ∨ Ends ts
  | _ => False

/-- A string right after a name that the loop takes for an `E`. -/
def Misread (w : List Char) : List Token → Prop
  | .string .standard body :: _ => escapesAfter '\'' w.reverse = true ∧ '\\' ∈ body
  | _ => False

/-- A token that the loop takes as PostgreSQL does, before the given ones. -/
def Agreed (t : Token) (ts : List Token) : Prop :=
  match t with
  | .line _ => Ends ts
  | .block body => ¬['/', '*'] <:+: body
  | .word w => (∀ s ∈ w.tails, opening s = none) ∧ ¬Misread w ts
  | .string .continued body => '\\' ∉ body
  | .dollar tag _ => opening (delimiter tag) = some (delimiter tag)
  | _ => True

/-- The texts without what the loop takes otherwise. -/
def Plain : List Token → Prop
  | [] => True
  | t :: ts => Agreed t ts ∧ Plain ts

instance decidableEnds : ∀ ts, Decidable (Ends ts)
  | [] => inferInstanceAs (Decidable True)
  | .blank c :: ts =>
    have := decidableEnds ts
    inferInstanceAs (Decidable (c = '\n' ∨ Ends ts))
  | .line _ :: _ | .block _ :: _ | .word _ :: _ | .digits _ :: _ | .string _ _ :: _ | .name _ :: _ | .dollar _ _ :: _
  | .sym _ :: _ => inferInstanceAs (Decidable False)

instance (w : List Char) : ∀ ts, Decidable (Misread w ts)
  | .string .standard body :: _ => inferInstanceAs (Decidable (_ ∧ '\\' ∈ body))
  | [] | .blank _ :: _ | .line _ :: _ | .block _ :: _ | .word _ :: _ | .digits _ :: _ | .string .escaped _ :: _
  | .string .continued _ :: _ | .name _ :: _ | .dollar _ _ :: _ | .sym _ :: _ => inferInstanceAs (Decidable False)

instance : ∀ t ts, Decidable (Agreed t ts)
  | .line _, ts => inferInstanceAs (Decidable (Ends ts))
  | .block body, _ => inferInstanceAs (Decidable (¬['/', '*'] <:+: body))
  | .word w, ts => inferInstanceAs (Decidable (_ ∧ ¬Misread w ts))
  | .string .continued body, _ => inferInstanceAs (Decidable ('\\' ∉ body))
  | .dollar tag _, _ => inferInstanceAs (Decidable (opening (delimiter tag) = _))
  | .blank _, _ | .digits _, _ | .string .standard _, _ | .string .escaped _, _ | .name _, _ | .sym _, _ =>
    inferInstanceAs (Decidable True)

instance decidablePlain : ∀ ts, Decidable (Plain ts)
  | [] => inferInstanceAs (Decidable True)
  | t :: ts =>
    have := decidablePlain ts
    inferInstanceAs (Decidable (Agreed t ts ∧ Plain ts))

/-- Texts in the place of quotes. -/
def literal : Token → Bool
  | .string _ _ | .name _ | .dollar _ _ => true
  | _ => false

/-- What is left of a text shows its tokens, with blanks for the quotes and between them. -/
inductive Shows : List Token → List Char → Prop where
  | nil : Shows [] []
  | blank {c ts out} (space : isBlank c = true) (shows_ : Shows ts out) : Shows ts (c :: out)
  | word {c w ts out} (start : identStart c = true) (cont : ∀ d ∈ w, identCont d = true)
      (stop : ∀ d ∈ out.head?, identCont d = false) (shows_ : Shows ts out) :
      Shows (.word (c :: w) :: ts) (c :: (w ++ out))
  | digits {c w ts out} (start : c.isDigit = true) (cont : ∀ d ∈ w, asciiWord d = true) (shows_ : Shows ts out) :
      Shows (.digits (c :: w) :: ts) (c :: (w ++ out))
  | literal {t ts out} (quoted : literal t = true) (shows_ : Shows ts out) : Shows (t :: ts) (' ' :: out)
  | sym {c ts out} (solid : isBlank c = false) (letter : identStart c = false) (digit : c.isDigit = false)
      (shows_ : Shows ts out) : Shows (.sym c :: ts) (c :: out)

section

variable {quote : Char} {escapes : Bool} {t body before rest : List Char} {c : Char}

theorem quoted_of_closed (closed : closeQuote quote escapes t = some body) : quoted quote escapes t = body.length := by
  fun_induction closeQuote quote escapes t generalizing body with
  | case1 => cases closed
  | case2 => cases closed
  | case3 =>
    cases closed
    simp_all [quoted]
  | case4 => cases closed
  | case5 c d t h ih =>
    obtain ⟨body, found, rfl⟩ := Option.map_eq_some_iff.mp closed
    rw [quoted, if_pos h, ih found]
    rfl
  | case6 t h ih =>
    obtain ⟨body, found, rfl⟩ := Option.map_eq_some_iff.mp closed
    rw [quoted, if_neg h, if_pos rfl, if_pos rfl, ih found]
    rfl
  | case7 d t h other =>
    cases closed
    rw [quoted, if_neg h, if_pos rfl, if_neg other]
    rfl
  | case8 c d t h other ih =>
    obtain ⟨body, found, rfl⟩ := Option.map_eq_some_iff.mp closed
    rw [quoted, if_neg h, if_neg other, ih found]
    rfl

/-- Without a backslash, it is the same whether there are escapes. -/
theorem closed_of_plain (plain : '\\' ∉ body) (closed : closeQuote quote escapes t = some body)
    (other : quote ≠ '\\') (escapes' : Bool) : closeQuote quote escapes' t = some body := by
  fun_induction closeQuote quote escapes t generalizing body with
  | case1 => cases closed
  | case2 => cases closed
  | case3 =>
    cases closed
    simp [closeQuote, other]
  | case4 => cases closed
  | case5 c d t h ih =>
    obtain ⟨body, found, rfl⟩ := Option.map_eq_some_iff.mp closed
    exact absurd (List.mem_cons.mpr (.inl h.2.symm)) plain
  | case6 t h ih =>
    obtain ⟨body, found, rfl⟩ := Option.map_eq_some_iff.mp closed
    have later := ih (fun inside => plain (List.mem_cons_of_mem _ (List.mem_cons_of_mem _ inside))) found
    simp [closeQuote, other, later]
  | case7 d t h different =>
    cases closed
    simp [closeQuote, other, h]
  | case8 c d t h different ih =>
    obtain ⟨body, found, rfl⟩ := Option.map_eq_some_iff.mp closed
    have later := ih (fun inside => plain (List.mem_cons_of_mem _ inside)) found
    have letter : c ≠ '\\' := fun same => plain (same ▸ List.mem_cons_self)
    simp [closeQuote, different, later, letter]

theorem indexOf_of_upTo {pattern : List Char} (found : upTo pattern t = some body) :
    indexOf pattern t = some body.length := by
  induction t generalizing body with
  | nil => cases found
  | cons c t ih =>
    simp only [upTo] at found
    rw [indexOf]
    split at found
    · next starts =>
      cases found
      rw [if_pos starts]
      rfl
    · next other =>
      obtain ⟨body, here, rfl⟩ := Option.map_eq_some_iff.mp found
      rw [if_neg other, ih here]
      rfl

/-- A comment that holds no other one ends with the first `*/`. -/
theorem indexOf_of_closed (single : ¬['/', '*'] <:+: body) (closed : closeComment 0 t = some body) :
    indexOf ['*', '/'] t = some body.length := by
  generalize same : 0 = depth at closed
  fun_induction closeComment depth t generalizing body with
  | case1 => cases closed
  | case2 => cases closed
  | case3 depth c d t opens ih =>
    obtain ⟨body, found, rfl⟩ := Option.map_eq_some_iff.mp closed
    refine absurd ⟨[], body, ?_⟩ single
    rw [opens.1, opens.2]
    rfl
  | case4 c d t h ends =>
    cases closed
    rw [ends.1, ends.2]
    rfl
  | case5 c d t h ends depth ih => cases same
  | case6 depth c d t h h' ih =>
    subst same
    obtain ⟨body, found, rfl⟩ := Option.map_eq_some_iff.mp closed
    have later := ih (fun inside => single (inside.trans (List.suffix_cons c body).isInfix)) rfl found
    have other : ¬['*', '/'] <+: c :: d :: t := by
      rintro ⟨rest, starts⟩
      cases starts
      exact h' ⟨rfl, rfl⟩
    rw [indexOf, if_neg other, later]
    rfl

theorem opening_eq_some {text m : List Char} : opening text = some m ↔ ∃ tag, m = delimiter tag ∧
    delimiter tag <+: text ∧ (delimiter tag).length ≤ 64 ∧ (∀ c ∈ tag, asciiWord c = true) ∧
    ∀ c ∈ tag.head?, c.isDigit = false := by
  have plain : asciiWord '$' = false := by decide
  have cut (tag : List Char) : delimiter tag <+: text.take 64 ↔ delimiter tag <+: text ∧ (delimiter tag).length ≤ 64 :=
    List.prefix_take_iff
  unfold opening
  constructor
  · intro found
    split at found
    · next t short =>
      obtain ⟨tag, tagged, rfl⟩ := Option.map_eq_some_iff.mp found
      obtain ⟨starts, cont, digit⟩ := (dollarTag_eq_some plain).mp tagged
      have whole : delimiter tag <+: text.take 64 := by
        rw [short]
        exact (List.cons_prefix_cons).mpr ⟨rfl, starts⟩
      obtain ⟨starts, fits⟩ := (cut tag).mp whole
      exact ⟨tag, rfl, starts, fits, cont, digit⟩
    · cases found
  · rintro ⟨tag, rfl, starts, fits, cont, digit⟩
    have whole := (cut tag).mpr ⟨starts, fits⟩
    obtain ⟨rest, short⟩ := whole
    rw [← short]
    show (dollarTag asciiWord (tag ++ ['$'] ++ rest)).map delimiter = some (delimiter tag)
    have tagged := (dollarTag_eq_some plain).mpr ⟨List.prefix_append (tag ++ ['$']) rest, cont, digit⟩
    rw [tagged]
    rfl

theorem scan_skip (n : Nat) (text : List Char) :
    scan n before text = scan 0 ((text.take n).reverse ++ before) (text.drop n) := by
  induction text generalizing n before with
  | nil => cases n <;> rfl
  | cons c t ih =>
    cases n with
    | zero => rfl
    | succ n =>
      rw [scan, ih, List.take_succ_cons, List.reverse_cons, List.append_assoc]
      rfl

/-- A turn that takes a piece of the text. -/
theorem scan_turn {out piece : List Char} (some : piece ≠ []) (moves : turn before (piece ++ rest) = (out, piece.length)) :
    scan 0 before (piece ++ rest) = out ++ scan 0 (piece.reverse ++ before) rest := by
  cases piece with
  | nil => exact absurd rfl some
  | cons c piece =>
    have rest_ : scan piece.length (c :: before) (piece ++ rest) = scan 0 ((c :: piece).reverse ++ before) rest := by
      rw [scan_skip, List.take_left, List.drop_left, List.reverse_cons, List.append_assoc]
      rfl
    rw [List.cons_append] at moves ⊢
    rw [scan, moves]
    exact congrArg (out ++ ·) rest_

theorem turn_other (dash : ¬(c = '-' ∧ t.head? = some '-')) (slash : ¬(c = '/' ∧ t.head? = some '*'))
    (single : c ≠ '\'') (double : c ≠ '"') (dollar : opening (c :: t) = none) : turn before (c :: t) = ([c], 1) := by
  rw [turn, if_neg dash, if_neg slash, if_neg (not_or.mpr ⟨single, double⟩), dollar]
  exact ite_self _

theorem opening_of_ne (other : c ≠ '$') : opening (c :: t) = none := by
  by_contra found
  obtain ⟨m, found⟩ := Option.ne_none_iff_exists'.mp found
  obtain ⟨tag, -, starts, -⟩ := opening_eq_some.mp found
  exact other (List.cons_prefix_cons.mp starts).1.symm

/-- What opens in front of a name has to end in it. -/
theorem opening_append {w : List Char} (stop : ∀ d ∈ rest.head?, identCont d = false) (closed : opening w = none) :
    opening (w ++ rest) = none := by
  by_contra found
  obtain ⟨m, found⟩ := Option.ne_none_iff_exists'.mp found
  obtain ⟨tag, rfl, starts, fits, word, digit⟩ := opening_eq_some.mp found
  have inside : ∀ d ∈ delimiter tag, identCont d = true := by
    intro d member
    simp only [delimiter, List.mem_cons, List.mem_append, List.not_mem_nil, or_false] at member
    rcases member with rfl | member | rfl
    · rfl
    · simp [identCont, tagCont, word d member]
    · rfl
  have shut (short : delimiter tag <+: w) : False := by
    rw [opening_eq_some.mpr ⟨tag, rfl, short, fits, word, digit⟩] at closed
    cases closed
  rcases List.prefix_or_prefix_of_prefix starts (List.prefix_append w rest) with short | ⟨more, same⟩
  · exact shut short
  · rw [← same, List.prefix_append_right_inj] at starts
    cases more with
    | nil =>
      rw [List.append_nil] at same
      exact shut (same ▸ List.prefix_rfl)
    | cons d more =>
      obtain ⟨rest', rfl⟩ := starts
      have yes := inside d (by rw [← same]; simp)
      rw [stop d rfl] at yes
      cases yes

/-- Where no dollar quote opens, names and numbers go to `out` as they are. -/
theorem scan_word {w : List Char} (cont : ∀ d ∈ w, identCont d = true)
    (closed : ∀ d s, (d :: s) <:+ w → opening (d :: (s ++ rest)) = none) :
    scan 0 before (w ++ rest) = w ++ scan 0 (w.reverse ++ before) rest := by
  induction w generalizing before with
  | nil => rfl
  | cons c w ih =>
    have here := cont c List.mem_cons_self
    have other {d : Char} (no : identCont d = false) : c ≠ d := by
      rintro rfl
      rw [here] at no
      cases no
    have moves : turn before ([c] ++ (w ++ rest)) = ([c], [c].length) :=
      turn_other (fun dash => other (by decide) dash.1) (fun slash => other (by decide) slash.1) (other (by decide))
        (other (by decide)) (closed c w List.suffix_rfl)
    have later : scan 0 (c :: before) (w ++ rest) = w ++ scan 0 (w.reverse ++ c :: before) rest :=
      ih (fun d inside => cont d (List.mem_cons_of_mem c inside))
        fun d s suffix => closed d s (suffix.trans (List.suffix_cons c w))
    have first := scan_turn (List.cons_ne_nil c []) moves
    rw [List.singleton_append] at first
    rw [List.cons_append, first, List.reverse_singleton, List.singleton_append, List.singleton_append, later,
      List.reverse_cons, List.append_assoc]
    rfl

/-- A line comment goes without a trace, up to the line feed. -/
theorem scan_line (text : List Char) (starts : text.head? = some '-') (dash : (text.drop 1).head? = some '-') :
    ∃ before', scan 0 before text = scan 0 before' (text.dropWhile (· ≠ '\n')) := by
  have length : (indexOf ['\n'] text).getD text.length = (text.takeWhile (· ≠ '\n')).length := by
    clear starts dash
    induction text with
    | nil => rfl
    | cons c t ih =>
      rw [indexOf]
      by_cases same : c = '\n'
      · subst same
        rw [if_pos ⟨t, rfl⟩]
        rfl
      · have other : ¬['\n'] <+: c :: t := fun first => same (List.cons_prefix_cons.mp first).1.symm
        rw [if_neg other, List.takeWhile_cons_of_pos (by simpa using same), List.length_cons, List.length_cons, ← ih]
        cases indexOf ['\n'] t <;> rfl
  obtain ⟨t, rfl⟩ := List.head?_eq_some_iff.mp starts
  obtain ⟨t, rfl⟩ := List.head?_eq_some_iff.mp dash
  generalize line : ('-' :: '-' :: t).takeWhile (· ≠ '\n') = piece at length
  have whole : piece ++ ('-' :: '-' :: t).dropWhile (· ≠ '\n') = '-' :: '-' :: t := by
    rw [← line]
    exact List.takeWhile_append_dropWhile
  have some_ : piece ≠ [] := by
    rw [← line]
    simp
  have moves : turn before (piece ++ ('-' :: '-' :: t).dropWhile (· ≠ '\n')) = ([], piece.length) := by
    rw [whole, turn, if_pos ⟨rfl, rfl⟩, length]
  have first := scan_turn some_ moves
  rw [whole] at first
  exact ⟨_, first⟩

/-- A text between quotes leaves a blank. -/
theorem scan_literal (piece : List Char) (moves : turn before (piece ++ c :: rest) = ([' '], piece.length + 1)) :
    ∃ before', scan 0 before (piece ++ c :: rest) = ' ' :: scan 0 (c :: before') rest := by
  have whole : piece ++ c :: rest = piece ++ [c] ++ rest := by simp
  rw [whole] at moves ⊢
  refine ⟨piece.reverse ++ before, ?_⟩
  have some_ : piece ++ [c] ≠ [] := by simp
  rw [scan_turn some_ (by rw [moves, List.length_append]; rfl), List.reverse_append]
  rfl

theorem turn_block (single : ¬['/', '*'] <:+: body) (closed : closeComment 0 (body ++ '*' :: '/' :: rest) = some body) :
    turn before ('/' :: '*' :: (body ++ '*' :: '/' :: rest)) = ([' '], body.length + 4) := by
  have comes := indexOf_of_closed single closed
  rw [turn, if_neg fun both => absurd both.1 (by decide), if_pos ⟨rfl, rfl⟩, List.drop_one, List.tail_cons, comes]
  rfl

theorem turn_quoted (one : c = '\'' ∨ c = '"') (length : quoted c (escapesAfter c before) (body ++ c :: rest) = body.length) :
    turn before (c :: (body ++ c :: rest)) = ([' '], body.length + 2) := by
  have dash : c ≠ '-' := by rcases one with rfl | rfl <;> decide
  have slash : c ≠ '/' := by rcases one with rfl | rfl <;> decide
  rw [turn, if_neg fun both => dash both.1, if_neg fun both => slash both.1, if_pos one, length]

theorem turn_dollar {tag : List Char} (opens : opening (delimiter tag) = some (delimiter tag))
    (closed : upTo (delimiter tag) (body ++ delimiter tag ++ rest) = some body) :
    turn before (delimiter tag ++ (body ++ delimiter tag ++ rest)) =
      ([' '], (delimiter tag).length + body.length + (delimiter tag).length) := by
  obtain ⟨tag', same, -, fits, word, digit⟩ := opening_eq_some.mp opens
  have tags : tag = tag' := List.append_cancel_right (List.cons.inj same).2
  subst tags
  have opens : opening (delimiter tag ++ (body ++ delimiter tag ++ rest)) = some (delimiter tag) :=
    opening_eq_some.mpr ⟨tag, rfl, List.prefix_append _ _, fits, word, digit⟩
  have comes := indexOf_of_upTo closed
  have first : delimiter tag ++ (body ++ delimiter tag ++ rest) =
      '$' :: (tag ++ ['$'] ++ (body ++ delimiter tag ++ rest)) := rfl
  rw [first] at opens ⊢
  rw [turn, if_neg fun both => absurd both.1 (by decide), if_neg fun both => absurd both.1 (by decide),
    if_neg (by decide), if_pos rfl, opens]
  dsimp only
  rw [← first, List.drop_left, comes]
  rfl

end

/-- A quote takes escapes by the characters before it if it has an `E`, or there is nothing to escape. -/
def Told (before : List Char) (ts : List Token) : Prop :=
  ∀ quoting body rest, ts = .string quoting body :: rest →
    (escapesAfter '\'' before = true ↔ quoting = .escaped) ∨ '\\' ∉ body

/-- No word goes on where one may start. -/
def Fresh (before text : List Char) : Prop :=
  ∀ c ∈ text.head?, asciiWord c = true → ∀ d ∈ before.head?, asciiWord d = false

/-- What the loop makes of a text, and that it does not add to a name before it. -/
structure Shown (ts : List Token) (text out : List Char) : Prop where
  shown : Shows (ts.filter Token.visible) out
  apart : (∀ c ∈ text.head?, identCont c = false) → ∀ c ∈ out.head?, identCont c = false

def Follows (ts : List Token) : Prop :=
  ∀ mode text before, lex 0 mode text = some ts → Plain ts → Told before ts → Fresh before text →
    Shown ts text (scan 0 before text)

/-- In a line comment the loop goes on at the line feed, PostgreSQL maybe before it. -/
def Resumes (ts : List Token) : Prop :=
  ∀ mode text before, lex 0 mode text = some ts → Plain ts → Ends ts →
    Shows (ts.filter Token.visible) (scan 0 before (text.dropWhile (· ≠ '\n'))) ∧
    ∀ c ∈ (scan 0 before (text.dropWhile (· ≠ '\n'))).head?, c = '\n'

section

variable {mode : Mode} {before rest body : List Char} {c : Char} {t : Token} {ts : List Token}

theorem quoting_eq {quoting : Quoting} {body : List Char} {text : List Char}
    (lexed : lex 0 mode text = some (.string quoting body :: ts)) :
    quoting = mode.quoting ∧ text.head? = some '\'' := by
  obtain ⟨rest, reads, -⟩ := lex_cons lexed
  cases reads
  exact ⟨rfl, rfl⟩

theorem next_prefixed (prefixed : mode.next t = .prefixed) : ∃ w, t = .word w ∧ (w = ['e'] ∨ w = ['E']) := by
  cases t with
  | word w =>
    refine ⟨w, rfl, ?_⟩
    by_contra other
    simp [Mode.next, other] at prefixed
  | blank c => cases mode <;> simp [Mode.next] at prefixed
  | line body => cases mode <;> simp [Mode.next] at prefixed
  | string quoting body => cases quoting <;> simp [Mode.next] at prefixed
  | _ => simp [Mode.next] at prefixed

/-- After anything but a name, a quote takes no escapes. -/
theorem told_of_other (lexed : lex 0 (mode.next t) rest = some ts) (plain : ∀ w, t ≠ .word w)
    (other : c ≠ 'e' ∧ c ≠ 'E') : Told (c :: before) ts := by
  rintro quoting body rest rfl
  obtain ⟨rfl, -⟩ := quoting_eq lexed
  refine .inl (iff_of_false ?_ fun escaped => ?_)
  · simp [escapesAfter, other]
  · have prefixed : mode.next t = .prefixed := by
      cases next : mode.next t with
      | prefixed => rfl
      | plain =>
        rw [next] at escaped
        cases escaped
      | ended newline =>
        rw [next] at escaped
        cases newline <;> cases escaped
    obtain ⟨w, same, -⟩ := next_prefixed prefixed
    exact plain w same

theorem fresh_of_other (other : asciiWord c = false) : Fresh (c :: before) rest := by
  intro d _ _ e first
  cases first
  exact other

/-- What a text between quotes shows. -/
theorem Follows.literal (follows : Follows ts) (lexed : lex 0 (mode.next t) rest = some ts) (plain : Plain ts)
    (quoted : literal t = true) (end_ : c = '\'' ∨ c = '"' ∨ c = '$') {text : List Char}
    (scans : ∃ before', scan 0 before text = ' ' :: scan 0 (c :: before') rest) :
    Shown (t :: ts) text (scan 0 before text) := by
  obtain ⟨before', scans⟩ := scans
  have other : c ≠ 'e' ∧ c ≠ 'E' ∧ asciiWord c = false := by
    rcases end_ with rfl | rfl | rfl <;> decide
  have word : ∀ w, t ≠ .word w := by
    rintro w rfl
    cases quoted
  have visible : t.visible = true := by
    cases t <;> first | rfl | cases quoted
  have later := follows _ _ (c :: before') lexed plain (told_of_other lexed word ⟨other.1, other.2.1⟩)
    (fresh_of_other other.2.2)
  rw [scans]
  refine ⟨?_, fun _ d first => ?_⟩
  · rw [List.filter_cons_of_pos visible]
    exact .literal quoted later.shown
  · cases first
    decide

/-- A character that the loop copies. -/
theorem Follows.copies (follows : Follows ts) (lexed : lex 0 (mode.next t) rest = some ts) (plain : Plain ts)
    (word : ∀ w, t ≠ .word w) (other : asciiWord c = false) (moves : turn before (c :: rest) = ([c], 1)) :
    scan 0 before (c :: rest) = c :: scan 0 (c :: before) rest ∧
      Shown ts rest (scan 0 (c :: before) rest) := by
  have letter : c ≠ 'e' ∧ c ≠ 'E' := by
    constructor <;> (rintro rfl; cases other)
  refine ⟨scan_turn (List.cons_ne_nil c []) moves, ?_⟩
  exact follows _ _ _ lexed plain (told_of_other lexed word letter) (fresh_of_other other)

theorem turn_blank (space : isBlank c = true) : turn before (c :: rest) = ([c], 1) := by
  have other {d : Char} (no : isBlank d = false) : c ≠ d := by
    rintro rfl
    rw [space] at no
    cases no
  exact turn_other (fun dash => other (by decide) dash.1) (fun slash => other (by decide) slash.1) (other (by decide))
    (other (by decide)) (opening_of_ne (other (by decide)))

theorem asciiWord_of_blank (space : isBlank c = true) : asciiWord c = false := by
  simp only [isBlank, Bool.or_eq_true, decide_eq_true_eq] at space
  rcases space with ((((rfl | rfl) | rfl) | rfl) | rfl) | rfl <;> decide

/-- A letter that belongs to no name is the code of nothing else. -/
theorem asciiWord_of_sym (letter : identStart c = false) (digit : c.isDigit = false) : asciiWord c = false := by
  by_contra word
  rw [Bool.not_eq_false] at word
  simp [identStart, tagCont, word, digit] at letter

theorem fresh_of_stop (stop : ∀ d ∈ rest.head?, asciiWord d = false) : Fresh before rest := by
  intro d first word
  rw [stop d first] at word
  cases word

theorem asciiWord_of_stop (stop : identCont c = false) : asciiWord c = false := by
  simp only [identCont, tagCont, Bool.or_eq_false_iff] at stop
  exact stop.1.1

/-- What a quote after a name takes. -/
theorem told_of_word {w : List Char} (lexed : lex 0 (mode.next (.word w)) rest = some ts) (agreed : Agreed (.word w) ts)
    (some_ : w ≠ [])
    (fresh : w = ['e'] ∨ w = ['E'] → ∀ d ∈ before.head?, asciiWord d = false) : Told (w.reverse ++ before) ts := by
  rintro quoting body rest' rfl
  obtain ⟨rfl, -⟩ := quoting_eq lexed
  by_cases single : w = ['e'] ∨ w = ['E']
  · left
    have next : mode.next (.word w) = .prefixed := if_pos single
    rw [next]
    refine iff_of_true ?_ rfl
    have after : (before.head?.any asciiWord) = false := by
      cases head : before.head? with
      | none => rfl
      | some d => exact fresh single d head
    rcases single with rfl | rfl <;> simp [escapesAfter, after]
  · have next : mode.next (.word w) = .plain := if_neg single
    rw [next] at agreed ⊢
    by_cases misled : escapesAfter '\'' w.reverse = true
    · exact .inr fun inside => agreed.2 ⟨misled, inside⟩
    · left
      refine iff_of_false (fun escapes => ?_) (by decide)
      cases reversed : w.reverse with
      | nil => exact some_ (List.reverse_eq_nil_iff.mp reversed)
      | cons l init =>
        cases init with
        | nil =>
          have one : w = [l] := by
            rw [← List.reverse_reverse w, reversed]
            rfl
          rw [one] at single escapes
          simp [escapesAfter] at escapes single
          rcases escapes.1 with same | same
          · exact single.1 same
          · exact single.2 same
        | cons l' init =>
          rw [reversed] at misled escapes
          exact misled escapes

/-- What a quote after a number takes. -/
theorem told_of_digits {w : List Char} (lexed : lex 0 (mode.next (.digits (c :: w))) rest = some ts)
    (digit : c.isDigit = true) (cont : ∀ d ∈ w, asciiWord d = true) : Told ((c :: w).reverse ++ before) ts := by
  rintro quoting body rest' rfl
  obtain ⟨rfl, -⟩ := quoting_eq lexed
  refine .inl (iff_of_false (fun escapes => ?_) (by simp [Mode.next, Mode.quoting]))
  cases reversed : w.reverse with
  | nil =>
    rw [List.reverse_cons, reversed] at escapes
    simp [escapesAfter] at escapes
    rcases escapes.1 with rfl | rfl <;> cases digit
  | cons l init =>
    have second : asciiWord ((init ++ [c]).head (by simp)) = true := by
      cases init with
      | nil => simp [asciiWord, Char.isAlphanum, digit]
      | cons l' init =>
        refine cont l' ?_
        rw [← List.mem_reverse, reversed]
        simp
    rw [List.reverse_cons, reversed, List.cons_append, List.cons_append] at escapes
    cases more : init ++ [c] with
    | nil => simp at more
    | cons l' more' =>
      simp [more] at second
      rw [more] at escapes
      simp [escapesAfter, second] at escapes

/-! What the loop makes of a token and of those after it, by the kind of the token. -/

theorem Follows.blank (follows : Follows ts) (lexed : lex 0 (mode.next (.blank c)) rest = some ts) (plain : Plain ts)
    (space : isBlank c = true) : Shown (.blank c :: ts) (c :: rest) (scan 0 before (c :: rest)) := by
  obtain ⟨scans, later⟩ := follows.copies lexed plain (by rintro w ⟨⟩) (asciiWord_of_blank space) (turn_blank space)
  rw [scans]
  exact ⟨.blank space later.shown, fun stop d first => stop d first⟩

theorem Resumes.line (resumes : Resumes ts) (lexed : lex 0 (mode.next (.line body)) rest = some ts) (plain : Plain ts)
    (ends : Ends ts) (one : ∀ c ∈ body, isNewline c = false) :
    Shown (.line body :: ts) ('-' :: '-' :: (body ++ rest)) (scan 0 before ('-' :: '-' :: (body ++ rest))) := by
  have length (l : List Char) (one : ∀ c ∈ l, isNewline c = false) :
      (l ++ rest).dropWhile (· ≠ '\n') = rest.dropWhile (· ≠ '\n') := by
    refine List.dropWhile_append_of_pos fun d inside => ?_
    have other : d ≠ '\n' := by
      rintro rfl
      exact absurd (one _ inside) (by decide)
    simpa using other
  obtain ⟨before', scans⟩ := scan_line ('-' :: '-' :: (body ++ rest)) rfl rfl
  have drop : ('-' :: '-' :: (body ++ rest)).dropWhile (· ≠ '\n') = rest.dropWhile (· ≠ '\n') := length body one
  obtain ⟨shown, first⟩ := resumes _ _ before' lexed plain ends
  rw [scans, drop]
  refine ⟨shown, fun _ d head => ?_⟩
  rw [first d head]
  decide

theorem Follows.block (follows : Follows ts) (lexed : lex 0 (mode.next (.block body)) rest = some ts) (plain : Plain ts)
    (single : ¬['/', '*'] <:+: body) (closed : closeComment 0 (body ++ '*' :: '/' :: rest) = some body) :
    Shown (.block body :: ts) ('/' :: '*' :: (body ++ '*' :: '/' :: rest))
      (scan 0 before ('/' :: '*' :: (body ++ '*' :: '/' :: rest))) := by
  have moves : turn before ('/' :: '*' :: (body ++ '*' :: '/' :: rest)) = ([' '], body.length + 4) := turn_block single closed
  have whole : '/' :: '*' :: (body ++ '*' :: '/' :: rest) = '/' :: '*' :: (body ++ ['*']) ++ '/' :: rest := by simp
  rw [whole] at moves ⊢
  obtain ⟨before', scans⟩ := scan_literal ('/' :: '*' :: (body ++ ['*'])) (by rw [moves]; simp)
  have later := follows _ _ ('/' :: before') lexed plain (told_of_other lexed (by rintro w ⟨⟩) (by decide))
    (fresh_of_other (by decide))
  rw [scans]
  refine ⟨.blank (by decide) later.shown, fun _ d first => ?_⟩
  cases first
  decide

/-- A quote that is told how its text is read finds the end of it. -/
theorem quoted_of_told {quoting : Quoting} (told : Told before (.string quoting body :: ts))
    (agreed : Agreed (.string quoting body) ts)
    (closed : closeQuote '\'' (quoting ≠ .standard) (body ++ '\'' :: rest) = some body) :
    quoted '\'' (escapesAfter '\'' before) (body ++ '\'' :: rest) = body.length := by
  by_cases bare : '\\' ∈ body
  · have escapes : escapesAfter '\'' before = decide (quoting ≠ .standard) := by
      have iff_ := (told _ _ _ rfl).resolve_right (fun no => no bare)
      cases quoting with
      | standard => simpa using iff_
      | escaped => simpa using iff_
      | continued => exact absurd bare agreed
    rw [escapes]
    exact quoted_of_closed closed
  · exact quoted_of_closed (closed_of_plain bare closed (by decide) _)

theorem Follows.dollar {tag : List Char} (follows : Follows ts) (lexed : lex 0 (mode.next (.dollar tag body)) rest = some ts)
    (plain : Plain ts) (opens : opening (delimiter tag) = some (delimiter tag))
    (closed : upTo (delimiter tag) (body ++ delimiter tag ++ rest) = some body) :
    Shown (.dollar tag body :: ts) (delimiter tag ++ (body ++ delimiter tag ++ rest))
      (scan 0 before (delimiter tag ++ (body ++ delimiter tag ++ rest))) := by
  have moves : turn before (delimiter tag ++ (body ++ delimiter tag ++ rest)) = _ := turn_dollar opens closed
  have whole : delimiter tag ++ (body ++ delimiter tag ++ rest) =
      delimiter tag ++ body ++ ('$' :: tag) ++ '$' :: rest := by
    simp [delimiter]
  rw [whole] at moves ⊢
  refine follows.literal lexed plain rfl (.inr (.inr rfl)) (scan_literal (delimiter tag ++ body ++ ('$' :: tag)) ?_)
  rw [moves]
  simp only [delimiter, List.length_append, List.length_cons, List.length_nil]
  congr 1

theorem Follows.word {w : List Char} (follows : Follows ts) (lexed : lex 0 (mode.next (.word (c :: w))) rest = some ts)
    (plain : Plain ts) (agreed : Agreed (.word (c :: w)) ts) (fresh : Fresh before (c :: (w ++ rest)))
    (start : identStart c = true) (cont : ∀ d ∈ w, identCont d = true) (stop : ∀ d ∈ rest.head?, identCont d = false) :
    Shown (.word (c :: w) :: ts) (c :: (w ++ rest)) (scan 0 before (c :: (w ++ rest))) := by
  have all : ∀ d ∈ c :: w, identCont d = true := by
    have first : identCont c = true := by
      simp only [identStart, Bool.and_eq_true] at start
      simp [identCont, start.1]
    exact List.forall_mem_cons.mpr ⟨first, cont⟩
  have scans : scan 0 before (c :: w ++ rest) = c :: w ++ scan 0 ((c :: w).reverse ++ before) rest :=
    scan_word all fun d s suffix => opening_append stop (agreed.1 (d :: s) ((List.mem_tails _ _).mpr suffix))
  have short : c :: w = ['e'] ∨ c :: w = ['E'] → ∀ d ∈ before.head?, asciiWord d = false := by
    intro single
    refine fresh c rfl ?_
    rcases single with same | same <;> (cases same; decide)
  have later := follows _ _ _ lexed plain (told_of_word lexed agreed (List.cons_ne_nil c w) short)
    (fresh_of_stop fun d first => asciiWord_of_stop (stop d first))
  rw [List.cons_append] at scans
  rw [scans]
  refine ⟨.word start cont (later.apart stop) later.shown, fun stop' d first => ?_⟩
  cases first
  have none_ := stop' c rfl
  rw [all c List.mem_cons_self] at none_
  cases none_

theorem Follows.digits {w : List Char} (follows : Follows ts) (lexed : lex 0 (mode.next (.digits (c :: w))) rest = some ts)
    (plain : Plain ts) (start : c.isDigit = true) (cont : ∀ d ∈ w, asciiWord d = true)
    (stop : ∀ d ∈ rest.head?, asciiWord d = false) :
    Shown (.digits (c :: w) :: ts) (c :: (w ++ rest)) (scan 0 before (c :: (w ++ rest))) := by
  have word : ∀ d ∈ c :: w, asciiWord d = true := by
    have first : asciiWord c = true := by simp [asciiWord, Char.isAlphanum, start]
    exact List.forall_mem_cons.mpr ⟨first, cont⟩
  have all : ∀ d ∈ c :: w, identCont d = true := fun d inside => by simp [identCont, tagCont, word d inside]
  have scans : scan 0 before (c :: w ++ rest) = c :: w ++ scan 0 ((c :: w).reverse ++ before) rest := by
    refine scan_word all fun d s suffix => opening_of_ne ?_
    rintro rfl
    exact absurd (word _ (suffix.subset List.mem_cons_self)) (by decide)
  have later := follows _ _ ((c :: w).reverse ++ before) lexed plain (told_of_digits lexed start cont) (fresh_of_stop stop)
  rw [List.cons_append] at scans
  rw [scans]
  refine ⟨.digits start cont later.shown, fun stop' d first => ?_⟩
  have none_ := stop' c rfl
  rw [all c List.mem_cons_self] at none_
  cases none_

/-- Where PostgreSQL opens no dollar quote, the loop opens none. -/
theorem opening_of_dollarTag (closed : c = '$' → dollarTag tagCont rest = none) : opening (c :: rest) = none := by
  by_contra found
  obtain ⟨m, found⟩ := Option.ne_none_iff_exists'.mp found
  obtain ⟨tag, -, starts, -, word, digit⟩ := opening_eq_some.mp found
  obtain ⟨same, starts⟩ := List.cons_prefix_cons.mp starts
  have tagged : dollarTag tagCont rest = some tag := by
    refine (dollarTag_eq_some (by decide)).mpr ⟨starts, fun d inside => ?_, digit⟩
    simp [tagCont, word d inside]
  rw [closed same.symm] at tagged
  cases tagged

theorem follows_cons (follows : Follows ts) (resumes : Resumes ts) : Follows (t :: ts) := by
  intro mode text before lexed plain told fresh
  obtain ⟨agreed, plain⟩ := plain
  obtain ⟨rest, reads, later⟩ := lex_cons lexed
  cases reads with
  | blank space => exact follows.blank later plain space
  | line one stop => exact resumes.line later plain agreed one
  | block closed => exact follows.block later plain agreed closed
  | string closed =>
    rename_i body
    have ends := quoted_of_told told agreed closed
    exact follows.literal later plain rfl (.inl rfl) (scan_literal ('\'' :: body) (turn_quoted (.inl rfl) ends))
  | name closed =>
    rename_i body
    have ends := quoted_of_closed closed
    exact follows.literal later plain rfl (.inr (.inl rfl)) (scan_literal ('"' :: body) (turn_quoted (.inr rfl) ends))
  | dollar cont start closed => exact follows.dollar later plain agreed closed
  | word start cont stop => exact follows.word later plain agreed fresh start cont stop
  | digits start cont stop => exact follows.digits later plain start cont fun d first => (stop d first).1
  | sym solid dash slash single double dollar letter digit =>
    obtain ⟨scans, shown⟩ := follows.copies later plain (by rintro w ⟨⟩) (asciiWord_of_sym letter digit)
      (turn_other dash slash single double (opening_of_dollarTag dollar))
    rw [scans]
    exact ⟨.sym solid letter digit shown.shown, fun stop d first => stop d first⟩

theorem resumes_cons (follows : Follows (t :: ts)) (resumes : Resumes ts) : Resumes (t :: ts) := by
  intro mode text before lexed plain ends
  obtain ⟨rest, reads, lexed'⟩ := lex_cons lexed
  cases reads with
  | blank space =>
    rename_i c
    by_cases feed : c = '\n'
    · subst feed
      have drop : ('\n' :: rest).dropWhile (· ≠ '\n') = '\n' :: rest := rfl
      have here := follows mode ('\n' :: rest) before lexed plain (by rintro quoting body rest ⟨⟩)
        (fresh_of_stop fun d first => by cases first; rfl)
      obtain ⟨scans⟩ : scan 0 before ('\n' :: rest) = '\n' :: scan 0 ('\n' :: before) rest :=
        scan_turn (List.cons_ne_nil _ []) (turn_blank rfl)
      rw [drop]
      refine ⟨here.shown, fun d first => ?_⟩
      cases first
      rfl
    · have drop : (c :: rest).dropWhile (· ≠ '\n') = rest.dropWhile (· ≠ '\n') :=
        List.dropWhile_cons_of_pos (by simpa using feed)
      rw [drop]
      exact resumes _ _ before lexed' plain.2 (ends.resolve_left feed)
  | _ => cases ends

theorem follows_resumes (ts : List Token) : Follows ts ∧ Resumes ts := by
  induction ts with
  | nil =>
    constructor
    · intro mode text before lexed plain told fresh
      obtain rfl := lex_nil lexed
      exact ⟨.nil, fun stop d first => by cases first⟩
    · intro mode text before lexed plain ends
      obtain rfl := lex_nil lexed
      exact ⟨.nil, fun d first => by cases first⟩
  | cons t ts ih =>
    have follows : Follows (t :: ts) := follows_cons ih.1 ih.2
    exact ⟨follows, resumes_cons follows ih.2⟩

/-- What the scanner leaves of a plain text shows the visible tokens of it. -/
theorem topLevelSql_shows {text : List Char} (lexed : tokens text = some ts) (plain : Plain ts) :
    Shows (ts.filter Token.visible) (topLevelSql text) := by
  refine ((follows_resumes ts).1 .plain text [] lexed plain ?_ ?_).shown
  · rintro quoting body rest rfl
    obtain ⟨rfl, -⟩ := quoting_eq lexed
    exact .inl (by decide)
  · intro c _ _ d first
    cases first

end

end Opale.Migrations
