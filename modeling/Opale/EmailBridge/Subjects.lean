import Opale.Js.Matches

namespace Opale.EmailBridge

open Js

/-- `[A-Za-z0-9-]` -/
def isTagUnit (u : UInt16) : Bool :=
  (48 ≤ u && u ≤ 57) || (65 ≤ u && u ≤ 90) || (97 ≤ u && u ≤ 122) || u = 45

def afterUnit (c : UInt16) : Units → Option Units
  | [] => none
  | u :: s => if u = c then some s else none

/-- What follows a word, in whichever case. -/
def afterWord : Units → Units → Option Units
  | [], s => some s
  | _ :: _, [] => none
  | letter :: word, u :: s => if isLetter letter u then afterWord word s else none

/-- `\[\s*Opale\s*#\s*([A-Za-z0-9-]+)\s*\]`, whichever the case: the tag and what follows. -/
def ticketTagAt (s : Units) : Option (Units × Units) := do
  let s ← afterUnit 91 s
  let s ← afterWord (ascii "opale") (s.dropWhile isSpace)
  let s ← afterUnit 35 (s.dropWhile isSpace)
  let s := s.dropWhile isSpace
  if s.takeWhile isTagUnit = [] then none
  else
    let rest ← afterUnit 93 ((s.dropWhile isTagUnit).dropWhile isSpace)
    some (s.takeWhile isTagUnit, rest)

theorem afterUnit_eq {c : UInt16} {s rest : Units} (found : afterUnit c s = some rest) : s = c :: rest := by
  cases s with
  | nil => cases found
  | cons u s =>
    simp only [afterUnit] at found
    split at found
    next same =>
      cases found
      rw [same]
    next => cases found

theorem afterWord_eq {word s rest : Units} (found : afterWord word s = some rest) :
    ∃ p, s = p ++ rest ∧ p.length = word.length ∧ ∀ u ∈ p, ∃ letter ∈ word, isLetter letter u = true := by
  induction word generalizing s with
  | nil =>
    cases found
    exact ⟨[], rfl, rfl, fun _ member => absurd member List.not_mem_nil⟩
  | cons letter word ih =>
    cases s with
    | nil => cases found
    | cons u s =>
      simp only [afterWord] at found
      split at found
      next same =>
        obtain ⟨p, rfl, size, letters⟩ := ih found
        refine ⟨u :: p, rfl, by simp [size], fun v member => ?_⟩
        rcases List.mem_cons.mp member with rfl | inside
        · exact ⟨letter, List.mem_cons_self, same⟩
        · obtain ⟨other, there, same₁⟩ := letters v inside
          exact ⟨other, List.mem_cons_of_mem _ there, same₁⟩
      next => cases found

theorem length_dropWhile_le {p : UInt16 → Bool} (s : Units) : (s.dropWhile p).length ≤ s.length :=
  (List.dropWhile_sublist p).length_le

theorem ticketTagAt_starts {s rest tag : Units} (found : ticketTagAt s = some (tag, rest)) :
    s.head? = some 91 ∧ rest.length < s.length := by
  simp only [ticketTagAt, Option.bind_eq_bind, Option.bind_eq_some_iff] at found
  obtain ⟨s₁, opened, s₂, word, s₃, hash, found⟩ := found
  split at found
  next => cases found
  next =>
    obtain ⟨s₄, closed, given⟩ := Option.bind_eq_some_iff.mp found
    cases given
    have one := afterUnit_eq opened
    obtain ⟨p, two, size, _⟩ := afterWord_eq word
    have three := congrArg List.length (afterUnit_eq hash)
    have four := congrArg List.length (afterUnit_eq closed)
    have two := congrArg List.length two
    have le₁ := length_dropWhile_le (p := isSpace) s₁
    have le₂ := length_dropWhile_le (p := isSpace) s₂
    have le₃ := length_dropWhile_le (p := isSpace) s₃
    have le₄ := length_dropWhile_le (p := isTagUnit) (s₃.dropWhile isSpace)
    have le₅ := length_dropWhile_le (p := isSpace) ((s₃.dropWhile isSpace).dropWhile isTagUnit)
    simp only [List.length_append, List.length_cons] at two three four
    rw [one]
    exact ⟨rfl, by rw [List.length_cons]; omega⟩

def TICKET_TAG_RE : Matcher UInt16 Units where
  run := ticketTagAt
  shorter found := (ticketTagAt_starts found).2

/-- A tag with the spaces behind it. -/
def tagAndSpaces : Matcher UInt16 Units where
  run s := (ticketTagAt s).map fun found => (found.1, found.2.dropWhile isSpace)
  shorter := by
    intro s rest tag found
    obtain ⟨⟨_, rest₁⟩, here, same⟩ := Option.map_eq_some_iff.mp found
    cases same
    exact Nat.lt_of_le_of_lt (length_dropWhile_le rest₁) (ticketTagAt_starts here).2

def extractTicketTag (subject : Option Units) : Option Units := subject.bind fun s => (TICKET_TAG_RE.captures s).head?

/-- `toUpperCase` of a letter of ASCII -/
def upperUnit (u : UInt16) : UInt16 := if 97 ≤ u && u ≤ 122 then u - 32 else u

def ticketTagFromUuid (uuid : Option Units) : Option Units :=
  match uuid with
  | none | some [] => none
  | some uuid => some (((uuid.filter (· ≠ 45)).take 8).map upperUnit)

/-- `(?:re|tr|fwd|fw)\s*:\s*`, whichever the case -/
def afterReplyMark (s : Units) : Option Units :=
  (["re", "tr", "fwd", "fw"].map ascii).findSome? fun word => do
    let s ← afterWord word s
    let s ← afterUnit 58 (s.dropWhile isSpace)
    some (s.dropWhile isSpace)

theorem afterReplyMark_eq {s rest : Units} (found : afterReplyMark s = some rest) :
    ∃ p, s = p ++ rest ∧ p ≠ [] ∧ 91 ∉ p ∧ ∀ u ∈ rest.head?, isSpace u = false := by
  obtain ⟨word, listed, here⟩ := List.exists_of_findSome?_eq_some found
  simp only [Option.bind_eq_bind, Option.bind_eq_some_iff, Option.some.injEq] at here
  obtain ⟨s₁, marked, s₂, colon, rfl⟩ := here
  obtain ⟨p, rfl, size, letters⟩ := afterWord_eq marked
  have split₁ := List.takeWhile_append_dropWhile (p := isSpace) (l := s₁)
  have split₂ := List.takeWhile_append_dropWhile (p := isSpace) (l := s₂)
  have spaces (t : Units) : 91 ∉ t.takeWhile isSpace := fun member =>
    absurd (List.mem_takeWhile_imp member) (by decide)
  have word_ : 91 ∉ p := by
    intro member
    obtain ⟨letter, there, same⟩ := letters 91 member
    have other : ∀ word ∈ ["re", "tr", "fwd", "fw"].map ascii, word.any (isLetter · 91) = false := forall_mem_of_all (by decide)
    have any : word.any (isLetter · 91) = true := List.any_eq_true.mpr ⟨letter, there, same⟩
    rw [other word listed] at any
    cases any
  refine ⟨p ++ s₁.takeWhile isSpace ++ 58 :: s₂.takeWhile isSpace, ?_, ?_, ?_, ?_⟩
  · rw [List.append_assoc, List.append_assoc, List.cons_append, split₂, ← afterUnit_eq colon, split₁]
  · simp
  · simp only [List.mem_append, List.mem_cons, not_or]
    exact ⟨⟨word_, spaces s₁⟩, by decide, spaces s₂⟩
  · intro u first
    have kept := List.head?_dropWhile_not isSpace s₂
    rw [first] at kept
    exact kept

/-- What follows the marks `Re:`, `TR:`, `Fwd:`, `FW:` at the start. -/
def afterReplyMarks (s : Units) : Units :=
  match found : afterReplyMark s with
  | some rest =>
    have : rest.length < s.length := by
      obtain ⟨p, rfl, some_, -⟩ := afterReplyMark_eq found
      have size := List.length_pos_iff.mpr some_
      rw [List.length_append]
      omega
    afterReplyMarks rest
  | none => s
termination_by s.length

def noSubject : Units := ascii "(sans sujet)"

/-- The subject without its tags; one pass. -/
def cleanedSubject (originalSubject : Option Units) : Units := trimUnits (tagAndSpaces.remove (originalSubject.getD []))

def taggedWith (tag : Units) : Units := ascii "[Opale #" ++ tag ++ ascii "]"

/-- The tag behind the reply marks, or in front. -/
def injectTag (tag subject : Units) : Units :=
  let rest := afterReplyMarks subject
  if (afterReplyMark subject).isSome then
    trimUnits (subject.take (subject.length - rest.length) ++ taggedWith tag ++ 32 :: rest)
  else taggedWith tag ++ 32 :: subject

def buildSubject (originalSubject : Option Units) (ticketUuid : Option Units) : Units :=
  match ticketTagFromUuid ticketUuid with
  | none | some [] => (originalSubject.filter (· ≠ [])).getD noSubject
  | some tag =>
    let cleaned := cleanedSubject originalSubject
    injectTag tag (if cleaned = [] then noSubject else cleaned)

/-- The text of a uuid: 32 hexadecimal digits, and dashes. -/
structure TicketUuid where
  text : Units
  digits : (text.filter (· ≠ 45)).length = 32
  hexadecimal : ∀ u ∈ text, u ≠ 45 → (48 ≤ u && u ≤ 57) || (97 ≤ u && u ≤ 102) || (65 ≤ u && u ≤ 70)

def TicketUuid.tag (uuid : TicketUuid) : Units := ((uuid.text.filter (· ≠ 45)).take 8).map upperUnit

theorem TicketUuid.tag_eq (uuid : TicketUuid) : ticketTagFromUuid (some uuid.text) = some uuid.tag := by
  rcases shape : uuid.text with - | ⟨u, rest⟩
  · have digits := uuid.digits
    rw [shape] at digits
    cases digits
  · rw [TicketUuid.tag, shape]
    rfl

theorem TicketUuid.tag_ne_nil (uuid : TicketUuid) : uuid.tag ≠ [] := by
  intro empty
  have size := congrArg List.length empty
  rw [TicketUuid.tag, List.length_map, List.length_take, uuid.digits] at size
  cases size

theorem isTagUnit_upperUnit {u : UInt16} (hex : (48 ≤ u && u ≤ 57) || (97 ≤ u && u ≤ 102) || (65 ≤ u && u ≤ 70)) :
    isTagUnit (upperUnit u) = true := by
  simp only [Bool.or_eq_true, Bool.and_eq_true, decide_eq_true_eq, UInt16.le_iff_toNat_le] at hex
  simp only [isTagUnit, upperUnit, Bool.or_eq_true, Bool.and_eq_true, decide_eq_true_eq, UInt16.le_iff_toNat_le]
  have thirtyTwo : (32 : UInt16).toNat = 32 := rfl
  split
  next small =>
    rw [UInt16.toNat_sub_of_le _ _ (UInt16.le_iff_toNat_le.mpr (by simp at small ⊢; omega))]
    simp at hex small ⊢
    omega
  next =>
    simp at hex ⊢
    omega

theorem TicketUuid.tag_units (uuid : TicketUuid) : ∀ u ∈ uuid.tag, isTagUnit u = true := by
  intro u member
  obtain ⟨v, inside, rfl⟩ := List.mem_map.mp member
  obtain ⟨there, other⟩ := List.mem_filter.mp (List.mem_of_mem_take inside)
  exact isTagUnit_upperUnit (uuid.hexadecimal v there (by simpa using other))

theorem not_space_of_tagUnit {u : UInt16} (unit : isTagUnit u = true) : isSpace u = false := by
  have range : u.toNat < 128 ∧ u.toNat ≠ 32 ∧ 32 ≤ u.toNat := by
    simp only [isTagUnit, Bool.or_eq_true, Bool.and_eq_true, decide_eq_true_eq, UInt16.le_iff_toNat_le, ← UInt16.toNat_inj]
      at unit
    simp at unit
    omega
  have high : isHighSurrogate u = false := by simp [isHighSurrogate]; omega
  have low : isLowSurrogate u = false := by simp [isLowSurrogate]; omega
  have spaces : ∀ c ∈ Js.jsSpaces, ¬(c.toNat < 128 ∧ c.toNat ≠ 32 ∧ 32 ≤ c.toNat) :=
    forall_mem_of_all (by decide)
  rw [isSpace, Bool.eq_false_iff, Ne, isSpaceChar_iff]
  intro member
  refine spaces _ member ?_
  rwa [toNat_scalar high low]

theorem afterReplyMarks_eq (s : Units) :
    ∃ p, s = p ++ afterReplyMarks s ∧ 91 ∉ p ∧ (p = [] ↔ afterReplyMark s = none) ∧
      (p ≠ [] → ∀ u ∈ (afterReplyMarks s).head?, isSpace u = false) := by
  induction s using afterReplyMarks.induct with
  | case1 s rest found _ ih =>
    obtain ⟨p, whole, some_, plain, bare⟩ := afterReplyMark_eq found
    obtain ⟨q, whole₁, plain₁, marks, bare₁⟩ := ih
    have step : afterReplyMarks s = afterReplyMarks rest := by
      rw [afterReplyMarks]
      split
      next found₁ =>
        rw [found] at found₁
        cases found₁
        rfl
      next none_ =>
        rw [found] at none_
        cases none_
    rw [step]
    refine ⟨p ++ q, by rw [List.append_assoc, ← whole₁, ← whole], by simp [plain, plain₁], ?_, fun _ => ?_⟩
    · simp [some_, found]
    · by_cases last : q = []
      · rw [last, List.nil_append] at whole₁
        rwa [← whole₁]
      · exact bare₁ last
  | case2 s none_ =>
    have step : afterReplyMarks s = s := by
      rw [afterReplyMarks]
      split
      next found =>
        rw [none_] at found
        cases found
      next => rfl
    rw [step]
    exact ⟨[], rfl, List.not_mem_nil, by simp [none_], fun other => absurd rfl other⟩

theorem ticketTagAt_taggedWith {tag : Units} (some_ : tag ≠ []) (units : ∀ u ∈ tag, isTagUnit u = true) (rest : Units) :
    ticketTagAt (taggedWith tag ++ rest) = some (tag, rest) := by
  have closes : isTagUnit 93 = false := by decide
  have bare : isSpace 93 = false := by decide
  have start : (tag ++ 93 :: rest).dropWhile isSpace = tag ++ 93 :: rest := by
    cases tag with
    | nil => exact absurd rfl some_
    | cons u tag =>
      rw [List.cons_append, List.dropWhile_cons_of_neg]
      rw [not_space_of_tagUnit (units u List.mem_cons_self)]
      exact Bool.false_ne_true
  have taken : (tag ++ 93 :: rest).takeWhile isTagUnit = tag := by
    rw [List.takeWhile_append_of_pos units, List.takeWhile_cons_of_neg (by rw [closes]; exact Bool.false_ne_true),
      List.append_nil]
  have dropped : (tag ++ 93 :: rest).dropWhile isTagUnit = 93 :: rest := by
    rw [List.dropWhile_append_of_pos units, List.dropWhile_cons_of_neg (by rw [closes]; exact Bool.false_ne_true)]
  have shape : taggedWith tag ++ rest = ascii "[Opale #" ++ (tag ++ 93 :: rest) := by
    simp [taggedWith, ascii]
  have opened : ticketTagAt (ascii "[Opale #" ++ (tag ++ 93 :: rest)) =
      (let s := (tag ++ 93 :: rest).dropWhile isSpace
       if s.takeWhile isTagUnit = [] then none
       else do
        let rest ← afterUnit 93 ((s.dropWhile isTagUnit).dropWhile isSpace)
        some (s.takeWhile isTagUnit, rest)) := rfl
  have closed : (93 :: rest).dropWhile isSpace = 93 :: rest := by
    rw [List.dropWhile_cons_of_neg (by rw [bare]; exact Bool.false_ne_true)]
  rw [shape, opened]
  dsimp only
  rw [start, taken, dropped, closed, if_neg some_]
  rfl

theorem starts_TICKET_TAG_RE {s rest tag : Units} (found : TICKET_TAG_RE.run s = some (tag, rest)) : s.head? = some 91 :=
  (ticketTagAt_starts found).1

theorem starts_tagAndSpaces {s rest tag : Units} (found : tagAndSpaces.run s = some (tag, rest)) : s.head? = some 91 := by
  obtain ⟨⟨_, _⟩, here, same⟩ := Option.map_eq_some_iff.mp found
  exact (ticketTagAt_starts here).1

theorem same_places (s : Units) : TICKET_TAG_RE.run s = none ↔ tagAndSpaces.run s = none :=
  Option.map_eq_none_iff.symm

/-- The subject that the tag is put into. -/
def bareSubject (originalSubject : Option Units) : Units :=
  if cleanedSubject originalSubject = [] then noSubject else cleanedSubject originalSubject

theorem bareSubject_ne_nil (originalSubject : Option Units) : bareSubject originalSubject ≠ [] := by
  unfold bareSubject
  split
  · decide
  next some_ => exact some_

theorem head_bareSubject (originalSubject : Option Units) : ∀ u ∈ (bareSubject originalSubject).head?, isSpace u = false := by
  unfold bareSubject
  split
  · exact forall_mem_of_eq_some rfl rfl
  · exact head_trimUnits

theorem last_bareSubject (originalSubject : Option Units) :
    ∀ u ∈ (bareSubject originalSubject).getLast?, isSpace u = false := by
  unfold bareSubject
  split
  · exact forall_mem_of_eq_some rfl rfl
  · exact last_trimUnits

theorem buildSubject_inject (originalSubject : Option Units) (uuid : TicketUuid) :
    buildSubject originalSubject (some uuid.text) = injectTag uuid.tag (bareSubject originalSubject) := by
  unfold buildSubject
  rw [uuid.tag_eq]
  rcases same : uuid.tag with - | ⟨u, tag⟩
  · exact absurd same uuid.tag_ne_nil
  · rfl

/-- The tag stands between the reply marks and the rest, with a space when there is a rest. -/
theorem buildSubject_eq (originalSubject : Option Units) (uuid : TicketUuid) :
    ∃ p r, bareSubject originalSubject = p ++ r ∧ 91 ∉ p ∧ (∀ u ∈ r.head?, isSpace u = false) ∧
      buildSubject originalSubject (some uuid.text) =
        p ++ (taggedWith uuid.tag ++ if r = [] then [] else 32 :: r) := by
  have starts := head_bareSubject originalSubject
  have ends := last_bareSubject originalSubject
  have some_ := bareSubject_ne_nil originalSubject
  rw [buildSubject_inject]
  generalize bareSubject originalSubject = s at starts ends some_
  obtain ⟨p, whole, plain, marks, bare⟩ := afterReplyMarks_eq s
  unfold injectTag
  generalize afterReplyMarks s = r at whole bare
  by_cases unmarked : afterReplyMark s = none
  · rw [unmarked]
    rw [marks.mpr unmarked, List.nil_append] at whole
    refine ⟨[], s, rfl, List.not_mem_nil, starts, ?_⟩
    rw [if_neg some_]
    rfl
  · have marked : p ≠ [] := fun empty => unmarked (marks.mp empty)
    have before : s.take (s.length - r.length) = p := by
      rw [whole, List.length_append, Nat.add_sub_cancel, List.take_left]
    have first : ∀ t : Units, ∀ u ∈ (p ++ t).head?, isSpace u = false := by
      intro t u member
      refine starts u ?_
      rw [whole]
      cases p with
      | nil => exact absurd rfl marked
      | cons v p => exact member
    rw [if_pos (Option.isSome_iff_ne_none.mpr unmarked), before]
    refine ⟨p, r, whole, plain, bare marked, ?_⟩
    by_cases empty : r = []
    · rw [if_pos empty, empty, List.append_nil]
      refine trimUnits_space (by simp [marked]) (first _) ?_
      have last : p ++ taggedWith uuid.tag = p ++ (ascii "[Opale #" ++ uuid.tag) ++ [93] := by
        rw [List.append_assoc]
        rfl
      rw [last, List.getLast?_concat]
      exact forall_mem_of_eq_some rfl rfl
    · rw [if_neg empty, List.append_assoc]
      refine trimUnits_self (first _) fun u member => ends u ?_
      rw [whole]
      rw [List.getLast?_append_of_ne_nil _ (by simp), List.getLast?_append_of_ne_nil _ (by simp),
        List.getLast?_cons_of_ne_nil empty] at member
      rwa [List.getLast?_append_of_ne_nil _ empty]

theorem captures_bareSubject (originalSubject : Option Units) :
    TICKET_TAG_RE.captures (bareSubject originalSubject) = TICKET_TAG_RE.captures (cleanedSubject originalSubject) := by
  unfold bareSubject
  split
  next empty =>
    rw [empty]
    decide +kernel
  next => rfl

/-- The tags of the result: the one of the ticket, and those that one pass has left. -/
theorem captures_buildSubject (originalSubject : Option Units) (uuid : TicketUuid) :
    TICKET_TAG_RE.captures (buildSubject originalSubject (some uuid.text)) =
      uuid.tag :: TICKET_TAG_RE.captures (cleanedSubject originalSubject) := by
  obtain ⟨p, r, whole, plain, -, built⟩ := buildSubject_eq originalSubject uuid
  have later : TICKET_TAG_RE.captures (if r = [] then [] else 32 :: r) = TICKET_TAG_RE.captures r := by
    split
    next empty => rw [empty]
    next => exact Matcher.captures_append starts_TICKET_TAG_RE (p := [32]) (by decide)
  rw [built, Matcher.captures_append starts_TICKET_TAG_RE plain,
    Matcher.captures_of_run (ticketTagAt_taggedWith uuid.tag_ne_nil uuid.tag_units _), later, ← captures_bareSubject, whole,
    Matcher.captures_append starts_TICKET_TAG_RE plain]

/-- Without another tag, the result loses its own and is the subject again. -/
theorem cleanedSubject_buildSubject {originalSubject : Option Units} {uuid : TicketUuid}
    (clean : TICKET_TAG_RE.captures (cleanedSubject originalSubject) = []) :
    cleanedSubject (some (buildSubject originalSubject (some uuid.text))) = bareSubject originalSubject := by
  obtain ⟨p, r, whole, plain, bare, built⟩ := buildSubject_eq originalSubject uuid
  have none_ : TICKET_TAG_RE.captures r = [] := by
    rwa [← captures_bareSubject, whole, Matcher.captures_append starts_TICKET_TAG_RE plain] at clean
  have rest : (if r = [] then [] else 32 :: r).dropWhile isSpace = r := by
    split
    next empty => rw [empty]; rfl
    next =>
      rw [List.dropWhile_cons_of_pos (by decide)]
      cases r with
      | nil => rfl
      | cons u r =>
        rw [List.dropWhile_cons_of_neg]
        simpa using bare u rfl
  have removed : tagAndSpaces.remove (taggedWith uuid.tag ++ if r = [] then [] else 32 :: r) = r := by
    have found : tagAndSpaces.run (taggedWith uuid.tag ++ if r = [] then [] else 32 :: r) = some (uuid.tag, r) := by
      have tag := ticketTagAt_taggedWith uuid.tag_ne_nil uuid.tag_units (if r = [] then [] else 32 :: r)
      simp only [tagAndSpaces, tag, Option.map_some, rest]
    rw [Matcher.remove_of_run found]
    exact Matcher.remove_eq_self ((Matcher.captures_eq_nil_iff same_places r).mp none_)
  rw [built, cleanedSubject, Option.getD_some, Matcher.remove_append starts_tagAndSpaces plain, removed, ← whole]
  exact trimUnits_self (head_bareSubject _) (last_bareSubject _)

/-- The result has one tag, that of the ticket, and is its own result. -/
structure RoundTrips (originalSubject : Option Units) (uuid : TicketUuid) : Prop where
  one : (TICKET_TAG_RE.captures (buildSubject originalSubject (some uuid.text))).length = 1
  extracted : extractTicketTag (some (buildSubject originalSubject (some uuid.text))) = ticketTagFromUuid (some uuid.text)
  idempotent : buildSubject (some (buildSubject originalSubject (some uuid.text))) (some uuid.text) =
    buildSubject originalSubject (some uuid.text)

/-- A subject round-trips exactly when no tag is left once its tags are removed. -/
theorem roundTrips_iff (originalSubject : Option Units) (uuid : TicketUuid) :
    RoundTrips originalSubject uuid ↔ extractTicketTag (some (cleanedSubject originalSubject)) = none := by
  have tags := captures_buildSubject originalSubject uuid
  have condition : extractTicketTag (some (cleanedSubject originalSubject)) = none ↔
      TICKET_TAG_RE.captures (cleanedSubject originalSubject) = [] := List.head?_eq_none_iff
  rw [condition]
  constructor
  · intro trips
    have one := trips.one
    rw [tags, List.length_cons] at one
    exact List.length_eq_zero_iff.mp (by omega)
  · intro clean
    refine ⟨by rw [tags, clean]; rfl, ?_, ?_⟩
    · rw [uuid.tag_eq, extractTicketTag, Option.bind_some, tags]
      rfl
    · have again : cleanedSubject (some (buildSubject originalSubject (some uuid.text))) = bareSubject originalSubject :=
        cleanedSubject_buildSubject clean
      have same : bareSubject (some (buildSubject originalSubject (some uuid.text))) = bareSubject originalSubject := by
        rw [bareSubject, again, if_neg (bareSubject_ne_nil _)]
      rw [buildSubject_inject, same, ← buildSubject_inject]

section

def someTicket : TicketUuid where
  text := ascii "12ab34cd-0000-4000-8000-000000000000"
  digits := by decide
  hexadecimal := forall_mem_of_all (by decide)

/-- One tag inside the parts of another: the pass that removes the inner one joins the outer one. -/
def nestedTags : Units := ascii "[Op[Opale #1]ale #2]"

theorem not_roundTrips_nestedTags : ¬RoundTrips (some nestedTags) someTicket := by
  intro trips
  have one := trips.one
  revert one
  decide +kernel

end

end Opale.EmailBridge
