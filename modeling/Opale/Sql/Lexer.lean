import Mathlib.Data.List.TakeWhile
import Mathlib.Tactic.Common

namespace Opale.Sql

/-- Letters, digits and `_` of ASCII. -/
def asciiWord (c : Char) : Bool := c.isAlphanum || c = '_'

def isBlank (c : Char) : Bool :=
  c = ' ' || c = '\t' || c = '\n' || c = '\r' || c = '\u000b' || c = '\u000c'

def isNewline (c : Char) : Bool := c = '\n' || c = '\r'

/-- A character past ASCII belongs to names. -/
def tagCont (c : Char) : Bool := asciiWord c || 128 ≤ c.toNat

def identStart (c : Char) : Bool := tagCont c && !c.isDigit

def identCont (c : Char) : Bool := tagCont c || c = '$'

/-- How a string is read: with backslash escapes when it has an `E`, or goes on from one that has. -/
inductive Quoting where
  | standard | escaped | continued
  deriving DecidableEq

/-- The tokens of a text, its white space and comments among them; strings and comments without their delimiters. -/
inductive Token where
  | blank (c : Char)
  | line (body : List Char)
  | block (body : List Char)
  | word (w : List Char)
  | digits (w : List Char)
  | string (quoting : Quoting) (body : List Char)
  | name (body : List Char)
  | dollar (tag body : List Char)
  | sym (c : Char)
  deriving DecidableEq

/-- What the lexer keeps between two tokens: whether an `E` stands right before, or, since the end of a string
with escapes, only white space with or without a line break. -/
inductive Mode where
  | plain
  | prefixed
  | ended (newline : Bool)
  deriving DecidableEq

def Mode.quoting : Mode → Quoting
  | .prefixed => .escaped
  | .ended true => .continued
  | _ => .standard

def Mode.next (mode : Mode) : Token → Mode
  | .blank c =>
    match mode with
    | .ended newline => .ended (newline || isNewline c)
    | _ => .plain
  | .line _ =>
    match mode with
    | .ended newline => .ended newline
    | _ => .plain
  | .word w => if w = ['e'] ∨ w = ['E'] then .prefixed else .plain
  | .string .standard _ => .plain
  | .string _ _ => .ended false
  | _ => .plain

/-- The body of a quoted text, up to a quote that is not doubled. -/
def closeQuote (quote : Char) (escapes : Bool) : List Char → Option (List Char)
  | [] => none
  | [c] => if escapes ∧ c = '\\' then none else if c = quote then some [] else none
  | c :: d :: t =>
    if escapes ∧ c = '\\' then (closeQuote quote escapes t).map fun body => c :: d :: body
    else if c = quote then
      if d = quote then (closeQuote quote escapes t).map fun body => c :: d :: body else some []
    else (closeQuote quote escapes (d :: t)).map (c :: ·)

/-- The body of a comment, up to the `*/` of its own: comments nest. -/
def closeComment : Nat → List Char → Option (List Char)
  | _, [] => none
  | _, [_] => none
  | depth, c :: d :: t =>
    if c = '/' ∧ d = '*' then (closeComment (depth + 1) t).map fun body => c :: d :: body
    else if c = '*' ∧ d = '/' then
      match depth with
      | 0 => some []
      | depth + 1 => (closeComment depth t).map fun body => c :: d :: body
    else (closeComment depth (d :: t)).map (c :: ·)

/-- What stands before a delimiter. -/
def upTo (delimiter : List Char) : List Char → Option (List Char)
  | [] => none
  | c :: t => if delimiter <+: c :: t then some [] else (upTo delimiter t).map (c :: ·)

/-- The tag of a dollar quote, after its first `$`; it has no digit in front. -/
def dollarTag (cont : Char → Bool) (t : List Char) : Option (List Char) :=
  let tag := t.takeWhile cont
  if tag.head?.all (fun c => !c.isDigit) ∧ (t.drop tag.length).head? = some '$' then some tag else none

def delimiter (tag : List Char) : List Char := '$' :: (tag ++ ['$'])

/-- The first token of a text, with its length. -/
def token (mode : Mode) : List Char → Option (Token × Nat)
  | [] => none
  | c :: t =>
    if isBlank c then some (.blank c, 1)
    else if c = '-' ∧ t.head? = some '-' then
      let body := (t.drop 1).takeWhile fun d => !isNewline d
      some (.line body, body.length + 2)
    else if c = '/' ∧ t.head? = some '*' then
      (closeComment 0 (t.drop 1)).map fun body => (.block body, body.length + 4)
    else if c = '\'' then
      (closeQuote c (mode.quoting ≠ .standard) t).map fun body => (.string mode.quoting body, body.length + 2)
    else if c = '"' then (closeQuote c false t).map fun body => (.name body, body.length + 2)
    else if c = '$' then
      match dollarTag tagCont t with
      | none => some (.sym c, 1)
      | some tag => (upTo (delimiter tag) (t.drop (tag.length + 1))).map fun body =>
        (.dollar tag body, (delimiter tag).length + body.length + (delimiter tag).length)
    else if identStart c then
      let w := c :: t.takeWhile identCont
      some (.word w, w.length)
    else if c.isDigit then
      let w := c :: t.takeWhile asciiWord
      -- junk that is stuck to a number is an error
      if ((c :: t).drop w.length).head?.any identStart then none else some (.digits w, w.length)
    else some (.sym c, 1)

/-- The tokens of a text from `skip` characters on. -/
def lex : Nat → Mode → List Char → Option (List Token)
  | _, _, [] => some []
  | skip + 1, mode, _ :: t => lex skip mode t
  | 0, mode, c :: t => do
    let (first, n) ← token mode (c :: t)
    let rest ← lex (n - 1) (mode.next first) t
    return first :: rest

/-- The lexical structure of PostgreSQL 16, with standard conforming strings. What it accepts has these tokens, with
numbers and operators in pieces; it accepts less (not an empty name, an escape that stands for nothing). -/
def tokens (text : List Char) : Option (List Token) := lex 0 .plain text

def Token.visible : Token → Bool
  | .blank _ | .line _ | .block _ => false
  | _ => true

def lower (w : List Char) : List Char := w.map Char.toLower

/-- `CREATE [OR REPLACE] {FUNCTION | PROCEDURE}`, the words of a statement that may have a body of statements. -/
def routine (words : List (List Char)) : Bool :=
  let kinds := ["function".toList, "procedure".toList]
  match words with
  | create :: kind :: _ =>
    create = "create".toList && (kinds.contains kind ||
      match words with
      | _ :: alternative :: replace :: kind :: _ =>
        alternative = "or".toList && replace = "replace".toList && kinds.contains kind
      | _ => false)
  | _ => false

/-- Where a token stands in its statement: after which words, in how many parentheses and `BEGIN ATOMIC` blocks. -/
structure Nesting where
  words : List (List Char)
  parens : Nat
  blocks : Nat

def Nesting.next (n : Nesting) (t : Token) (ts : List Token) : Nesting :=
  match t with
  | .word w =>
    let words := n.words ++ [lower w]
    let inside := routine words && n.parens = 0
    let atomic := match ts with
      | .word a :: _ => lower a = "atomic".toList
      | _ => false
    let blocks :=
      if inside && lower w = "begin".toList && atomic then n.blocks + 1
      else if inside && lower w = "case".toList && 0 < n.blocks then n.blocks + 1
      else if inside && lower w = "end".toList then n.blocks - 1
      else n.blocks
    { n with words := words, blocks := blocks }
  | .sym '(' => { n with parens := n.parens + 1 }
  | .sym ')' => { n with parens := n.parens - 1 }
  | _ => n

/-- The statements of a text by its visible tokens; one ends with each `;` that stands alone. -/
def statements (n : Nesting) : List Token → List (List Token)
  | [] => [[]]
  | t :: ts =>
    if t = .sym ';' ∧ n.parens = 0 ∧ n.blocks = 0 then [] :: statements ⟨[], 0, 0⟩ ts
    else (statements (n.next t ts) ts).modifyHead (t :: ·)

theorem exists_takeWhile {α : Type} (p : α → Bool) (t : List α) :
    ∃ a rest, t = a ++ rest ∧ t.takeWhile p = a ∧ (∀ x ∈ a, p x = true) ∧ ∀ x ∈ rest.head?, p x = false := by
  refine ⟨_, _, List.takeWhile_append_dropWhile.symm, rfl, fun x => List.mem_takeWhile_imp, fun x first => ?_⟩
  have stop := List.head?_dropWhile_not p t
  rw [Option.mem_def.mp first] at stop
  exact stop

section

variable {quote : Char} {escapes : Bool} {t body : List Char}

/-- What is closed ends with its quote. -/
theorem closeQuote_eq (closed : closeQuote quote escapes t = some body) : ∃ rest, t = body ++ quote :: rest := by
  fun_induction closeQuote quote escapes t generalizing body with
  | case1 => cases closed
  | case2 => cases closed
  | case3 =>
    cases closed
    exact ⟨[], rfl⟩
  | case4 => cases closed
  | case5 c d t h ih =>
    obtain ⟨body, found, rfl⟩ := Option.map_eq_some_iff.mp closed
    obtain ⟨rest, rfl⟩ := ih found
    exact ⟨rest, rfl⟩
  | case6 t h ih =>
    obtain ⟨body, found, rfl⟩ := Option.map_eq_some_iff.mp closed
    obtain ⟨rest, rfl⟩ := ih found
    exact ⟨rest, rfl⟩
  | case7 d t h other =>
    cases closed
    exact ⟨d :: t, rfl⟩
  | case8 c d t h other ih =>
    obtain ⟨body, found, rfl⟩ := Option.map_eq_some_iff.mp closed
    obtain ⟨rest, same⟩ := ih found
    exact ⟨rest, by rw [same]; rfl⟩

theorem closeComment_eq {depth : Nat} (closed : closeComment depth t = some body) :
    ∃ rest, t = body ++ '*' :: '/' :: rest := by
  fun_induction closeComment depth t generalizing body with
  | case1 => cases closed
  | case2 => cases closed
  | case3 depth c d t opens ih =>
    obtain ⟨body, found, rfl⟩ := Option.map_eq_some_iff.mp closed
    obtain ⟨rest, rfl⟩ := ih found
    exact ⟨rest, rfl⟩
  | case4 c d t h ends =>
    cases closed
    exact ⟨t, by rw [ends.1, ends.2]; rfl⟩
  | case5 c d t h ends depth ih =>
    obtain ⟨body, found, rfl⟩ := Option.map_eq_some_iff.mp closed
    obtain ⟨rest, rfl⟩ := ih found
    exact ⟨rest, rfl⟩
  | case6 depth c d t h h' ih =>
    obtain ⟨body, found, rfl⟩ := Option.map_eq_some_iff.mp closed
    obtain ⟨rest, same⟩ := ih found
    exact ⟨rest, by rw [same]; rfl⟩

theorem upTo_eq {delimiter : List Char} (found : upTo delimiter t = some body) :
    ∃ rest, t = body ++ delimiter ++ rest := by
  induction t generalizing body with
  | nil => cases found
  | cons c t ih =>
    simp only [upTo] at found
    split at found
    · next starts =>
      cases found
      obtain ⟨rest, same⟩ := starts
      exact ⟨rest, same.symm⟩
    · obtain ⟨body, here, rfl⟩ := Option.map_eq_some_iff.mp found
      obtain ⟨rest, same⟩ := ih here
      exact ⟨rest, by rw [same]; rfl⟩

theorem dollarTag_eq_some {cont : Char → Bool} (plain : cont '$' = false) {tag : List Char} :
    dollarTag cont t = some tag ↔
      (tag ++ ['$']) <+: t ∧ (∀ c ∈ tag, cont c = true) ∧ ∀ c ∈ tag.head?, c.isDigit = false := by
  have starts : tag.head?.all (fun c => !c.isDigit) = true ↔ ∀ c ∈ tag.head?, c.isDigit = false := by
    cases tag <;> simp
  unfold dollarTag
  obtain ⟨a, rest, rfl, taken, all, stop⟩ := exists_takeWhile cont t
  rw [taken]
  dsimp only
  rw [List.drop_left]
  constructor
  · intro found
    split at found
    · next ok =>
      cases found
      obtain ⟨digit, ends⟩ := ok
      obtain ⟨rest, rfl⟩ := List.head?_eq_some_iff.mp ends
      exact ⟨⟨rest, by simp⟩, all, starts.mp digit⟩
    · cases found
  · rintro ⟨⟨rest', same⟩, inside, digit⟩
    have split := congrArg (List.takeWhile cont) same
    rw [taken, List.append_assoc, List.takeWhile_append_of_pos inside, List.singleton_append,
      List.takeWhile_cons_of_neg (by simp [plain]), List.append_nil] at split
    subst split
    rw [List.append_assoc] at same
    have last := List.append_cancel_left same
    rw [← last]
    exact if_pos ⟨starts.mpr digit, rfl⟩

end

/-- What the first token of a text takes from it. -/
inductive Reads (mode : Mode) : List Char → Token → List Char → Prop where
  | blank {c rest} (space : isBlank c = true) : Reads mode (c :: rest) (.blank c) rest
  | line {body rest} (one : ∀ c ∈ body, isNewline c = false) (stop : ∀ c ∈ rest.head?, isNewline c = true) :
      Reads mode ('-' :: '-' :: (body ++ rest)) (.line body) rest
  | block {body rest} (closed : closeComment 0 (body ++ '*' :: '/' :: rest) = some body) :
      Reads mode ('/' :: '*' :: (body ++ '*' :: '/' :: rest)) (.block body) rest
  | string {body rest} (closed : closeQuote '\'' (mode.quoting ≠ .standard) (body ++ '\'' :: rest) = some body) :
      Reads mode ('\'' :: (body ++ '\'' :: rest)) (.string mode.quoting body) rest
  | name {body rest} (closed : closeQuote '"' false (body ++ '"' :: rest) = some body) :
      Reads mode ('"' :: (body ++ '"' :: rest)) (.name body) rest
  | dollar {tag body rest} (cont : ∀ c ∈ tag, tagCont c = true) (start : ∀ c ∈ tag.head?, c.isDigit = false)
      (closed : upTo (delimiter tag) (body ++ delimiter tag ++ rest) = some body) :
      Reads mode (delimiter tag ++ (body ++ delimiter tag ++ rest)) (.dollar tag body) rest
  | word {c w rest} (start : identStart c = true) (cont : ∀ d ∈ w, identCont d = true)
      (stop : ∀ d ∈ rest.head?, identCont d = false) : Reads mode (c :: (w ++ rest)) (.word (c :: w)) rest
  | digits {c w rest} (start : c.isDigit = true) (cont : ∀ d ∈ w, asciiWord d = true)
      (stop : ∀ d ∈ rest.head?, asciiWord d = false ∧ identStart d = false) :
      Reads mode (c :: (w ++ rest)) (.digits (c :: w)) rest
  | sym {c rest} (solid : isBlank c = false) (dash : ¬(c = '-' ∧ rest.head? = some '-'))
      (slash : ¬(c = '/' ∧ rest.head? = some '*')) (single : c ≠ '\'') (double : c ≠ '"')
      (dollar : c = '$' → dollarTag tagCont rest = none) (letter : identStart c = false) (digit : c.isDigit = false) :
      Reads mode (c :: rest) (.sym c) rest

theorem token_reads {mode : Mode} {text : List Char} {first : Token} {n : Nat} (read : token mode text = some (first, n)) :
    0 < n ∧ ∃ rest, text.drop n = rest ∧ Reads mode text first rest := by
  cases text with
  | nil => cases read
  | cons c t =>
    rw [token] at read
    split at read
    · next space =>
      cases read
      exact ⟨Nat.one_pos, t, rfl, .blank space⟩
    next solid =>
    split at read
    · next dash =>
      cases read
      obtain ⟨rfl, next⟩ := dash
      obtain ⟨t, rfl⟩ := List.head?_eq_some_iff.mp next
      obtain ⟨body, rest, rfl, taken, one, stop⟩ := exists_takeWhile (fun d => !isNewline d) t
      rw [List.drop_one, List.tail_cons, taken]
      refine ⟨Nat.succ_pos _, rest, List.drop_left, .line (fun d inside => ?_) fun d first => ?_⟩
      · simpa using one d inside
      · simpa using stop d first
    next dash =>
    split at read
    · next slash =>
      obtain ⟨rfl, next⟩ := slash
      obtain ⟨t, rfl⟩ := List.head?_eq_some_iff.mp next
      obtain ⟨body, closed, same⟩ := Option.map_eq_some_iff.mp read
      cases same
      rw [List.drop_one, List.tail_cons] at closed
      obtain ⟨rest, rfl⟩ := closeComment_eq closed
      refine ⟨Nat.succ_pos _, rest, ?_, .block closed⟩
      simp
    next slash =>
    split at read
    · next single =>
      subst single
      obtain ⟨body, closed, same⟩ := Option.map_eq_some_iff.mp read
      cases same
      obtain ⟨rest, rfl⟩ := closeQuote_eq closed
      refine ⟨Nat.succ_pos _, rest, ?_, .string closed⟩
      simp
    next single =>
    split at read
    · next double =>
      subst double
      obtain ⟨body, closed, same⟩ := Option.map_eq_some_iff.mp read
      cases same
      obtain ⟨rest, rfl⟩ := closeQuote_eq closed
      refine ⟨Nat.succ_pos _, rest, ?_, .name closed⟩
      simp
    next double =>
    split at read
    · next dollar =>
      subst dollar
      split at read
      · next none_ =>
        cases read
        exact ⟨Nat.one_pos, t, rfl, .sym (by decide) dash slash single double (fun _ => none_) (by decide) (by decide)⟩
      · next tag tagged =>
        obtain ⟨body, closed, same⟩ := Option.map_eq_some_iff.mp read
        cases same
        obtain ⟨⟨after, rfl⟩, cont, start⟩ := (dollarTag_eq_some (by decide)).mp tagged
        have drop : (tag ++ ['$'] ++ after).drop (tag.length + 1) = after := by simp
        rw [drop] at closed
        obtain ⟨rest, rfl⟩ := upTo_eq closed
        have whole : '$' :: (tag ++ ['$'] ++ (body ++ delimiter tag ++ rest)) =
            delimiter tag ++ (body ++ delimiter tag ++ rest) := rfl
        rw [whole]
        refine ⟨Nat.add_pos_left (Nat.add_pos_left (Nat.succ_pos _) _) _, rest, ?_, .dollar cont start closed⟩
        rw [Nat.add_assoc, ← List.drop_drop, List.drop_left, ← List.length_append, List.drop_left]
    next dollar =>
    split at read
    · next letter =>
      cases read
      obtain ⟨w, rest, rfl, taken, cont, stop⟩ := exists_takeWhile identCont t
      rw [taken]
      exact ⟨Nat.succ_pos _, rest, List.drop_left, .word letter cont stop⟩
    next letter =>
    split at read
    · next digit =>
      obtain ⟨w, rest, rfl, taken, cont, stop⟩ := exists_takeWhile asciiWord t
      rw [taken] at read
      dsimp only at read
      split at read
      · cases read
      next clean =>
      cases read
      have drop : (c :: (w ++ rest)).drop (c :: w).length = rest := List.drop_left
      rw [drop] at clean
      refine ⟨Nat.succ_pos _, rest, drop, .digits digit cont fun d first => ⟨stop d first, ?_⟩⟩
      rw [Option.mem_def.mp first] at clean
      simpa using clean
    next digit =>
    cases read
    exact ⟨Nat.one_pos, t, rfl, .sym (by simpa using solid) dash slash single double (fun same => absurd same dollar)
      (by simpa using letter) (by simpa using digit)⟩

theorem lex_skip {mode : Mode} (n : Nat) (text : List Char) : lex n mode text = lex 0 mode (text.drop n) := by
  induction text generalizing n with
  | nil => cases n <;> rfl
  | cons c t ih =>
    cases n with
    | zero => rfl
    | succ n => exact ih n

/-- The first token and then those of the rest. -/
theorem lex_cons {mode : Mode} {text : List Char} {first : Token} {ts : List Token}
    (lexed : lex 0 mode text = some (first :: ts)) :
    ∃ rest, Reads mode text first rest ∧ lex 0 (mode.next first) rest = some ts := by
  cases text with
  | nil => cases lexed
  | cons c t =>
    simp only [lex, Option.bind_eq_bind, Option.bind_eq_some_iff] at lexed
    obtain ⟨⟨first', n⟩, read, ts', after, same⟩ := lexed
    cases same
    obtain ⟨positive, rest, drop, reads⟩ := token_reads read
    refine ⟨rest, reads, ?_⟩
    obtain ⟨n, rfl⟩ := Nat.exists_eq_add_one.mpr positive
    rw [lex_skip, Nat.add_sub_cancel] at after
    rw [← drop]
    exact after

theorem lex_nil {mode : Mode} {text : List Char} (lexed : lex 0 mode text = some []) : text = [] := by
  cases text with
  | nil => rfl
  | cons c t =>
    simp only [lex, Option.bind_eq_bind, Option.bind_eq_some_iff] at lexed
    obtain ⟨_, _, _, _, same⟩ := lexed
    cases same

end Opale.Sql
