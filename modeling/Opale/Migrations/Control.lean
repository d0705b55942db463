import Opale.Js.Spaces
import Opale.Migrations.TopLevel

namespace Opale.Migrations

open Sql
open Js (isSpaceChar)

/-- The alternatives of the expression, in its order; `\s+` stands between the words of one. -/
def CONTROLS : List (List (List Char)) :=
  [["BEGIN".toList], ["START".toList, "TRANSACTION".toList], ["COMMIT".toList], ["END".toList], ["ROLLBACK".toList],
    ["ABORT".toList]]

/-- `\b`, after a letter. -/
def boundary (s : List Char) : Bool := !s.head?.any asciiWord

/-- What follows a word, in whichever case. -/
def afterWord : List Char → List Char → Option (List Char)
  | [], s => some s
  | _ :: _, [] => none
  | k :: word, c :: s => if k.toLower = c.toLower then afterWord word s else none

/-- What follows the words of an alternative. -/
def phrase : List (List Char) → List Char → Option (List Char)
  | [], s => some s
  | [word], s => (afterWord word s).filter boundary
  | word :: words, s => do
    let s ← afterWord word s
    if s.head?.any isSpaceChar then phrase words (s.dropWhile isSpaceChar) else none

/-- `/^\s*(BEGIN|START\s+TRANSACTION|COMMIT|END|ROLLBACK|ABORT)\b/i.exec(stmt)`, what its group captures. -/
def control (stmt : List Char) : Option (List Char) :=
  let s := stmt.dropWhile isSpaceChar
  CONTROLS.findSome? fun words => (phrase words s).map fun rest => s.take (s.length - rest.length)

def findTransactionControl (sql : List Char) : Option (List Char) :=
  ((topLevelSql sql).splitOn ';').findSome? control

/-- The specification: a statement begins with the keywords. -/
def opens : List (List Char) → List Token → Bool
  | [], _ => true
  | word :: words, .word w :: ts => lower w = lower word && opens words ts
  | _ :: _, _ => false

/-- Whether the expression may read a name as a keyword, past the blanks of Unicode in front of it. -/
def reads (word : List Char) (last : Bool) (w : List Char) : Bool :=
  match afterWord word (w.dropWhile isSpaceChar) with
  | none => false
  | some rest => if last then boundary rest else rest.head?.all isSpaceChar

/-- No text between quotes stands in front, and only the keywords read as keywords. -/
def Steady : List (List Char) → List Token → Prop
  | word :: words, .word w :: ts => w.all isSpaceChar = false ∧
      (reads word (words = []) w = true → lower w = lower word) ∧ (lower w = lower word → Steady words ts)
  | _ :: _, t :: _ => literal t = false
  | _, _ => True

instance decidableSteady : ∀ words ts, Decidable (Steady words ts)
  | word :: words, .word w :: ts =>
    have := decidableSteady words ts
    inferInstanceAs (Decidable (w.all isSpaceChar = false ∧
      (reads word (words = []) w = true → lower w = lower word) ∧ (lower w = lower word → Steady words ts)))
  | [], _ => inferInstanceAs (Decidable True)
  | _ :: _, [] => inferInstanceAs (Decidable True)
  | _ :: _, .string q body :: _ => inferInstanceAs (Decidable (literal (.string q body) = false))
  | _ :: _, .name body :: _ => inferInstanceAs (Decidable (literal (.name body) = false))
  | _ :: _, .dollar tag body :: _ => inferInstanceAs (Decidable (literal (.dollar tag body) = false))
  | _ :: _, .blank _ :: _ | _ :: _, .line _ :: _ | _ :: _, .block _ :: _ | _ :: _, .digits _ :: _ | _ :: _, .sym _ :: _ =>
    inferInstanceAs (Decidable (false = false))

/-- The texts that the scanner reads as PostgreSQL does. -/
structure Scannable (ts : List Token) : Prop where
  plain : Plain ts
  whole : statements ⟨[], 0, 0⟩ (ts.filter Token.visible) = (ts.filter Token.visible).splitOnP (· = .sym ';')
  steady : ∀ s ∈ statements ⟨[], 0, 0⟩ (ts.filter Token.visible), ∀ words ∈ CONTROLS, Steady words s

/-- What the proofs use of the keywords. -/
def Keyword (word : List Char) : Prop := word ≠ [] ∧ ∀ k ∈ word, k.toLower.isAlpha = true

theorem keyword_of_mem {words : List (List Char)} (member : words ∈ CONTROLS) :
    words ≠ [] ∧ ∀ word ∈ words, Keyword word := by
  have all : CONTROLS.all (fun words => !words.isEmpty && words.all fun word =>
      !word.isEmpty && word.all fun k => k.toLower.isAlpha) = true := by
    decide
  have here := List.all_eq_true.mp all words member
  simp only [Bool.and_eq_true, Bool.not_eq_true', List.isEmpty_eq_false_iff, List.all_eq_true] at here
  exact here

section

variable {word w s rest out : List Char} {words : List (List Char)} {c k : Char} {ts : List Token}

theorem isSpaceChar_of_blank (space : isBlank c = true) : isSpaceChar c = true := by
  simp only [isBlank, Bool.or_eq_true, decide_eq_true_eq] at space
  rcases space with ((((rfl | rfl) | rfl) | rfl) | rfl) | rfl <;> decide

theorem blank_of_isSpaceChar (space : isSpaceChar c = true) (start : identStart c = false) : isBlank c = true := by
  have all : Js.jsSpaces.all (fun c => isBlank c || identStart c) = true := by decide
  have listed : c ∈ Js.jsSpaces := Js.isSpaceChar_iff.mp space
  have one := List.all_eq_true.mp all c listed
  simpa [start] using one

theorem asciiWord_of_isAlpha (letter : c.isAlpha = true) : asciiWord c = true := by
  simp [asciiWord, Char.isAlphanum, letter]

theorem isUpper_iff : c.isUpper = true ↔ c.val ≥ 65 ∧ c.val ≤ 90 := by
  have between : c.isUpper = decide (c.val ≥ 65 ∧ c.val ≤ 90) := rfl
  rw [between, decide_eq_true_eq]

theorem isAlpha_of_lower (letter : k.toLower.isAlpha = true) (same : k.toLower = c.toLower) : c.isAlpha = true := by
  by_cases upper : c.isUpper = true
  · have either : c.isAlpha = (c.isUpper || c.isLower) := rfl
    rw [either, upper, Bool.true_or]
  · have self : c.toLower = c := by
      rw [isUpper_iff] at upper
      exact dif_neg upper
    rwa [same, self] at letter

/-- A kind of characters that has none of the blanks. -/
theorem isSpaceChar_of_kind {kind : Char → Bool} (none_ : Js.jsSpaces.all (fun c => !kind c) = true)
    (holds : kind c = true) : isSpaceChar c = false := by
  by_contra space
  rw [Bool.not_eq_false] at space
  have listed : c ∈ Js.jsSpaces := Js.isSpaceChar_iff.mp space
  have one := List.all_eq_true.mp none_ c listed
  rw [holds] at one
  cases one

theorem isSpaceChar_of_isAlpha (letter : c.isAlpha = true) : isSpaceChar c = false := isSpaceChar_of_kind (by decide) letter

theorem isSpaceChar_of_isDigit (digit : c.isDigit = true) : isSpaceChar c = false := isSpaceChar_of_kind (by decide) digit

theorem isAlpha_of_isDigit (digit : c.isDigit = true) : c.isAlpha = false := by
  have most : c.val.toNat ≤ 57 := by
    have between : c.isDigit = (decide (c.val ≥ 48) && decide (c.val ≤ 57)) := rfl
    rw [between, Bool.and_eq_true, decide_eq_true_eq, decide_eq_true_eq] at digit
    exact UInt32.le_iff_toNat_le.mp digit.2
  by_contra letter
  have either : c.isAlpha = (c.isUpper || (decide (c.val ≥ 97) && decide (c.val ≤ 122))) := rfl
  rw [Bool.not_eq_false, either, Bool.or_eq_true, isUpper_iff, Bool.and_eq_true, decide_eq_true_eq] at letter
  rcases letter with upper | lower
  · have least : 65 ≤ c.val.toNat := UInt32.le_iff_toNat_le.mp upper.1
    omega
  · have least : 97 ≤ c.val.toNat := UInt32.le_iff_toNat_le.mp lower.1
    omega

/-- A keyword is read in a name alone, whatever follows it. -/
theorem afterWord_append (letters : ∀ k ∈ word, k.toLower.isAlpha = true)
    (stop : ∀ d ∈ rest.head?, identCont d = false) : afterWord word (w ++ rest) = (afterWord word w).map (· ++ rest) := by
  induction word generalizing w with
  | nil => rfl
  | cons k word ih =>
    cases w with
    | nil =>
      cases rest with
      | nil => rfl
      | cons d rest =>
        have other : k.toLower ≠ d.toLower := by
          intro same
          have letter := isAlpha_of_lower (letters k List.mem_cons_self) same
          have none_ := stop d rfl
          simp [identCont, tagCont, asciiWord_of_isAlpha letter] at none_
        exact if_neg other
    | cons c w =>
      rw [List.cons_append, afterWord, afterWord]
      split
      · exact ih fun k inside => letters k (List.mem_cons_of_mem _ inside)
      · rfl

theorem afterWord_of_lower (same : lower w = lower word) : afterWord word w = some [] := by
  induction word generalizing w with
  | nil =>
    rw [List.map_eq_nil_iff.mp same]
    rfl
  | cons k word ih =>
    cases w with
    | nil => cases same
    | cons c w =>
      obtain ⟨first, later⟩ := List.cons.inj same
      rw [afterWord, if_pos first.symm]
      exact ih later

/-- A keyword is all letters: no blank of Unicode stands in front. -/
theorem dropWhile_of_lower (keyword : Keyword word) (same : lower w = lower word) : w.dropWhile isSpaceChar = w := by
  cases w with
  | nil => rfl
  | cons c w =>
    cases word with
    | nil => cases same
    | cons k word =>
      have letter := isAlpha_of_lower (keyword.2 k List.mem_cons_self) (List.cons.inj same).1.symm
      exact List.dropWhile_cons_of_neg (by simp [isSpaceChar_of_isAlpha letter])

theorem afterWord_of_ne (keyword : Keyword word) (other : c.isAlpha = false) : afterWord word (c :: s) = none := by
  cases word with
  | nil => exact absurd rfl keyword.1
  | cons k word =>
    refine if_neg fun same => ?_
    rw [isAlpha_of_lower (keyword.2 k List.mem_cons_self) same] at other
    cases other

theorem phrase_of_none (words : List (List Char)) (none_ : afterWord word s = none) : phrase (word :: words) s = none := by
  cases words with
  | nil => rw [phrase, none_]; rfl
  | cons word' words => simp [phrase, none_]

/-- After a name, a text that goes on with a keyword goes on with a blank. -/
theorem space_of_opens (shows_ : Shows ts out) (stop : ∀ d ∈ out.head?, identCont d = false) {word : List Char}
    (opened : opens (word :: words) ts = true) : out.head?.any isSpaceChar = true := by
  cases shows_ with
  | nil => cases opened
  | blank space => exact isSpaceChar_of_blank space
  | word start cont stop' later =>
    have none_ := stop _ rfl
    simp only [identStart, Bool.and_eq_true] at start
    simp [identCont, start.1] at none_
  | digits => cases opened
  | literal => rfl
  | sym => cases opened

theorem boundary_append (stop : ∀ d ∈ rest.head?, identCont d = false) : boundary (s ++ rest) = boundary s := by
  cases s with
  | cons d s => rfl
  | nil =>
    cases rest with
    | nil => rfl
    | cons d rest =>
      have none_ := asciiWord_of_stop (stop d rfl)
      simp [boundary, none_]

/-- A name in front, when it is the last word of an alternative. -/
theorem last_iff (keyword : Keyword word) (stop : ∀ d ∈ out.head?, identCont d = false)
    (only : reads word true w = true → lower w = lower word) :
    (phrase [word] (w.dropWhile isSpaceChar ++ out)).isSome = true ↔ lower w = lower word := by
  rw [phrase, afterWord_append keyword.2 stop]
  constructor
  · intro found
    refine only ?_
    unfold reads
    cases read : afterWord word (w.dropWhile isSpaceChar) with
    | none =>
      rw [read] at found
      cases found
    | some rest =>
      rw [read, Option.map_some, Option.isSome_filter, Option.any_some, boundary_append stop] at found
      exact found
  · intro same
    rw [dropWhile_of_lower keyword same, afterWord_of_lower same]
    have ends : boundary out = true := boundary_append (s := []) stop
    simp [ends]

/-- A name in front, when another word has to follow. -/
theorem first_iff {word' : List Char} (keyword : Keyword word) (stop : ∀ d ∈ out.head?, identCont d = false)
    (only : reads word false w = true → lower w = lower word)
    (later : lower w = lower word → ((phrase (word' :: words) (out.dropWhile isSpaceChar)).isSome = true ↔
      opens (word' :: words) ts = true)) (shows_ : Shows ts out) :
    (phrase (word :: word' :: words) (w.dropWhile isSpaceChar ++ out)).isSome = true ↔
      lower w = lower word ∧ opens (word' :: words) ts = true := by
  have split : phrase (word :: word' :: words) (w.dropWhile isSpaceChar ++ out) =
      ((afterWord word (w.dropWhile isSpaceChar)).map (· ++ out)).bind fun s =>
        if s.head?.any isSpaceChar then phrase (word' :: words) (s.dropWhile isSpaceChar) else none := by
    rw [phrase, afterWord_append keyword.2 stop]
    · rfl
    · rintro ⟨⟩
  rw [split]
  constructor
  · intro found
    cases read : afterWord word (w.dropWhile isSpaceChar) with
    | none =>
      rw [read] at found
      cases found
    | some rest =>
      rw [read, Option.map_some, Option.bind_some] at found
      have same : lower w = lower word := by
        refine only ?_
        unfold reads
        rw [read]
        cases rest with
        | nil => rfl
        | cons d rest =>
          split at found
          · next space => simpa using space
          · cases found
      rw [dropWhile_of_lower keyword same, afterWord_of_lower same] at read
      cases read
      split at found
      · exact ⟨same, (later same).mp found⟩
      · cases found
  · rintro ⟨same, opened⟩
    rw [dropWhile_of_lower keyword same, afterWord_of_lower same, Option.map_some, Option.bind_some]
    have space := space_of_opens shows_ stop opened
    rw [List.nil_append, if_pos space]
    exact (later same).mpr opened

/-- The expression finds an alternative where the tokens of a statement begin with it. -/
theorem phrase_iff (keywords : ∀ word ∈ words, Keyword word) (some_ : words ≠ []) (shows_ : Shows ts out)
    (steady : Steady words ts) : (phrase words (out.dropWhile isSpaceChar)).isSome = true ↔ opens words ts = true := by
  induction words generalizing ts out with
  | nil => exact absurd rfl some_
  | cons word words ih =>
    have keyword := keywords word List.mem_cons_self
    have silent {c : Char} {s : List Char} (solid : isSpaceChar c = false) (other : c.isAlpha = false) :
        (phrase (word :: words) ((c :: s).dropWhile isSpaceChar)).isSome = true ↔ False := by
      rw [List.dropWhile_cons_of_neg (by simp [solid]), phrase_of_none words (afterWord_of_ne keyword other)]
      exact iff_of_false (by simp) id
    induction shows_ with
    | nil =>
      rw [List.dropWhile_nil, phrase_of_none words]
      · exact iff_of_false (by simp) (by simp [opens])
      · cases word with
        | nil => exact absurd rfl keyword.1
        | cons k word => rfl
    | blank space _ ih' =>
      rw [List.dropWhile_cons_of_pos (isSpaceChar_of_blank space)]
      exact ih' steady
    | @word c w ts out start cont stop later _ =>
      obtain ⟨some', only, steady⟩ := steady
      have drop : (c :: (w ++ out)).dropWhile isSpaceChar = (c :: w).dropWhile isSpaceChar ++ out := by
        have some_ : ¬((c :: w).dropWhile isSpaceChar).isEmpty = true := by
          intro empty
          rw [List.all_eq_true.mpr (List.dropWhile_eq_nil_iff.mp (List.isEmpty_iff.mp empty))] at some'
          cases some'
        rw [← List.cons_append, List.dropWhile_append, if_neg some_]
      rw [drop]
      cases words with
      | nil =>
        rw [last_iff keyword stop (by simpa using only)]
        simp [opens]
      | cons word' words =>
        rw [first_iff keyword stop (by simpa using only) (fun same => ih
          (fun word inside => keywords word (List.mem_cons_of_mem _ inside)) (List.cons_ne_nil _ _) later (steady same)) later]
        rw [opens, Bool.and_eq_true, decide_eq_true_eq]
    | @digits c w ts out start cont later _ =>
      exact (silent (isSpaceChar_of_isDigit start) (isAlpha_of_isDigit start)).trans (iff_of_false id (by simp [opens]))
    | @literal t ts out quoted later _ =>
      have unquoted : literal t = false := by
        cases t <;> first | exact steady | rfl
      rw [unquoted] at quoted
      cases quoted
    | @sym c ts out solid letter digit later _ =>
      refine (silent ?_ ?_).trans (iff_of_false id (by simp [opens]))
      · by_contra space
        rw [Bool.not_eq_false] at space
        rw [blank_of_isSpaceChar space letter] at solid
        cases solid
      · by_contra alpha
        rw [Bool.not_eq_false] at alpha
        have word := asciiWord_of_sym letter digit
        rw [asciiWord_of_isAlpha alpha] at word
        cases word

theorem splitOn_append {α : Type} [BEq α] [LawfulBEq α] {x : α} {a l : List α} (free : x ∉ a) :
    (a ++ l).splitOn x = (l.splitOn x).modifyHead (a ++ ·) := by
  induction a with
  | nil => cases split : l.splitOn x <;> simp [split]
  | cons y a ih =>
    rw [List.mem_cons, not_or] at free
    have other : (y == x) = false := by simpa using fun same => free.1 same.symm
    rw [List.cons_append, List.splitOn_eq_splitOnP, List.splitOnP_cons_eq_if_modifyHead, other, if_neg (by simp),
      ← List.splitOn_eq_splitOnP, ih free.2, List.modifyHead_modifyHead]
    rfl

/-- The first pieces of two splits change, the others stay. -/
theorem forall₂_modifyHead {α β : Type} {R : α → β → Prop} {f : α → α} {g : β → β} {as : List α} {bs : List β}
    (both : List.Forall₂ R as bs) (first : ∀ a b, as.head? = some a → bs.head? = some b → R a b → R (f a) (g b)) :
    List.Forall₂ R (as.modifyHead f) (bs.modifyHead g) := by
  cases both with
  | nil => exact .nil
  | cons here later => exact .cons (first _ _ rfl rfl here) later

theorem head_splitOn (stop : ∀ d ∈ out.head?, identCont d = false) {piece : List Char}
    (first : (out.splitOn ';').head? = some piece) : ∀ d ∈ piece.head?, identCont d = false := by
  cases out with
  | nil =>
    cases first
    rintro d ⟨⟩
  | cons d out =>
    rw [List.splitOn_eq_splitOnP, List.splitOnP_cons_eq_if_modifyHead] at first
    split at first
    · cases first
      rintro d ⟨⟩
    · rw [List.head?_modifyHead] at first
      obtain ⟨piece, -, rfl⟩ := Option.map_eq_some_iff.mp first
      exact stop

/-- The pieces of what is left of a text show the pieces of its tokens. -/
theorem shows_split (shows_ : Shows ts out) :
    List.Forall₂ Shows (ts.splitOnP (· = .sym ';')) (out.splitOn ';') := by
  have piece {t : Token} (ts : List Token) (other : t ≠ .sym ';') :
      (t :: ts).splitOnP (· = .sym ';') = (ts.splitOnP (· = .sym ';')).modifyHead (t :: ·) := by
    rw [List.splitOnP_cons_eq_if_modifyHead, if_neg (by simpa using other)]
  have one {c : Char} (out : List Char) (other : c ≠ ';') :
      (c :: out).splitOn ';' = (out.splitOn ';').modifyHead (c :: ·) :=
    splitOn_append (a := [c]) (by simpa using other.symm)
  induction shows_ with
  | nil => exact .cons .nil .nil
  | @blank c ts out space _ ih =>
    rw [one out (by rintro rfl; cases space)]
    have same : (ts.splitOnP (· = .sym ';')).modifyHead id = ts.splitOnP (· = .sym ';') := by simp
    rw [← same]
    exact forall₂_modifyHead ih fun a b _ _ shows_ => .blank space shows_
  | @word c w ts out start cont stop _ ih =>
    have free : ';' ∉ c :: w := by
      rw [List.mem_cons, not_or]
      refine ⟨fun same => ?_, fun inside => absurd (cont _ inside) (by decide)⟩
      subst same
      cases start
    rw [piece ts (by simp), ← List.cons_append, splitOn_append free]
    exact forall₂_modifyHead ih fun a b _ first shows_ => .word start cont (head_splitOn stop first) shows_
  | @digits c w ts out start cont _ ih =>
    have free : ';' ∉ c :: w := by
      rw [List.mem_cons, not_or]
      refine ⟨fun same => ?_, fun inside => absurd (cont _ inside) (by decide)⟩
      subst same
      cases start
    rw [piece ts (by simp), ← List.cons_append, splitOn_append free]
    exact forall₂_modifyHead ih fun a b _ _ shows_ => .digits start cont shows_
  | @literal t ts out quoted _ ih =>
    rw [piece ts (by rintro rfl; cases quoted), one out (by decide)]
    exact forall₂_modifyHead ih fun a b _ _ shows_ => .literal quoted shows_
  | @sym c ts out solid letter digit _ ih =>
    by_cases same : c = ';'
    · subst same
      rw [List.splitOn_eq_splitOnP, List.splitOnP_cons_eq_if_modifyHead, List.splitOnP_cons_eq_if_modifyHead,
        if_pos (by simp), if_pos (by simp), ← List.splitOn_eq_splitOnP]
      exact .cons .nil ih
    · rw [piece ts (by simpa using same), one out same]
      exact forall₂_modifyHead ih fun a b _ _ shows_ => .sym solid letter digit shows_

theorem control_iff {piece : List Char} (shows_ : Shows ts piece) (steady : ∀ words ∈ CONTROLS, Steady words ts) :
    control piece ≠ none ↔ ∃ words ∈ CONTROLS, opens words ts = true := by
  unfold control
  rw [Ne, List.findSome?_eq_none_iff]
  have each (words : List (List Char)) (member : words ∈ CONTROLS) :
      ((phrase words (piece.dropWhile isSpaceChar)).map fun rest =>
        (piece.dropWhile isSpaceChar).take ((piece.dropWhile isSpaceChar).length - rest.length)) = none ↔
      opens words ts = false := by
    obtain ⟨some_, keywords⟩ := keyword_of_mem member
    have finds := phrase_iff keywords some_ shows_ (steady words member)
    rw [Option.map_eq_none_iff, ← Option.not_isSome_iff_eq_none, finds, Bool.not_eq_true]
  constructor
  · intro found
    by_contra nothing
    refine found fun words member => (each words member).mpr ?_
    rw [← Bool.not_eq_true]
    exact fun opened => nothing ⟨words, member, opened⟩
  · rintro ⟨words, member, opened⟩ nothing
    have closed := (each words member).mp (nothing words member)
    rw [opened] at closed
    cases closed

end

/-- The scanner tells what PostgreSQL would, of the texts that it reads alike. -/
theorem findTransactionControl_iff {sql : List Char} {ts : List Token} (lexed : tokens sql = some ts)
    (scannable : Scannable ts) : findTransactionControl sql ≠ none ↔
      ∃ s ∈ statements ⟨[], 0, 0⟩ (ts.filter Token.visible), ∃ words ∈ CONTROLS, opens words s = true := by
  have pieces := shows_split (topLevelSql_shows lexed scannable.plain)
  have steady := scannable.steady
  rw [scannable.whole] at steady ⊢
  unfold findTransactionControl
  generalize (topLevelSql sql).splitOn ';' = out at pieces ⊢
  generalize (ts.filter Token.visible).splitOnP (· = .sym ';') = ss at pieces steady ⊢
  induction pieces with
  | nil => simp
  | @cons s piece ss out shows_ _ ih =>
    have here := control_iff shows_ (steady s List.mem_cons_self)
    have later := ih fun s inside => steady s (List.mem_cons_of_mem _ inside)
    have either : (piece :: out).findSome? control ≠ none ↔ control piece ≠ none ∨ out.findSome? control ≠ none := by
      rw [List.findSome?_cons]
      cases control piece <;> simp
    rw [either, here, List.exists_mem_cons_iff]
    exact or_congr_right later

def rollback : List Char := "rollback -- x\n;".toList

def rollbackTokens : List Token :=
  [.word "rollback".toList, .blank ' ', .line " x".toList, .blank '\n', .sym ';']

theorem findTransactionControl_iff_rollback : findTransactionControl rollback ≠ none ↔
    ∃ s ∈ statements ⟨[], 0, 0⟩ (rollbackTokens.filter Token.visible), ∃ words ∈ CONTROLS, opens words s = true :=
  have steady : ((statements ⟨[], 0, 0⟩ (rollbackTokens.filter Token.visible)).all fun s =>
      CONTROLS.all fun words => Steady words s) = true := by
    decide
  findTransactionControl_iff (by decide)
    ⟨by decide, by decide, fun s inside words member =>
      of_decide_eq_true (List.all_eq_true.mp (List.all_eq_true.mp steady s inside) words member)⟩

/-- Past a comment in a comment, what hides a `COMMIT` from the scanner does not hide it from PostgreSQL. -/
theorem nested_comment_misread : ¬∀ (sql : List Char) (ts : List Token), tokens sql = some ts →
    (findTransactionControl sql ≠ none ↔
      ∃ s ∈ statements ⟨[], 0, 0⟩ (ts.filter Token.visible), ∃ words ∈ CONTROLS, opens words s = true) := by
  intro all
  have told := all "/*/**/'*/COMMIT;--'".toList
    [.block "/**/'".toList, .word "COMMIT".toList, .sym ';', .line "'".toList] (by decide)
  have missed : findTransactionControl "/*/**/'*/COMMIT;--'".toList = none := by decide
  exact told.mpr (by decide) missed

end Opale.Migrations
