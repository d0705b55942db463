import Mathlib.Logic.Relation
import Opale.EmailBridge.MessageIds
import Opale.EmailBridge.MessageKeys
import Opale.Js.Surrogates

namespace Opale.EmailBridge

open Js

/-- `stripNul` of a text. -/
def stripNul (s : Units) : Units := s.filter (· ≠ 0)

/-- A query with its parameters in UTF-8. -/
def ThreadQuery.sent : ThreadQuery → ThreadQuery
  | .byMessageIds keys => .byMessageIds (keys.map toWellFormed)
  | .byConversation conversationId => .byConversation (toWellFormed conversationId)

def ThreadQuery.returns (o : ThreadQuery) (db : ThreadMappings) (rows : List ThreadRow) (db₁ : ThreadMappings) : Prop :=
  o.sent.answers db rows db₁

/-- The digests are of 64 hexadecimal digits. -/
def Hex (sha256 : List UInt8 → Units) : Prop :=
  ∀ bytes, (sha256 bytes).length = 64 ∧ ∀ u ∈ sha256 bytes, u ∈ ascii "0123456789abcdef"

section

variable (sha256 : List UInt8 → Units)

/-- The key of the row that is written for an identifier of Graph. -/
def rowKey (id : Units) : Units := toWellFormed (storedMessageId (digest sha256) (stripNul id))

/-- What may happen to the table: every INSERT has such a key, and no UPDATE changes one. -/
inductive MappingStep : ThreadMappings → ThreadMappings → Prop where
  | insert {db db₁ : ThreadMappings} {row : ThreadRow} (id : Units) (key : row.internetMessageId = rowKey sha256 id)
      (added : db₁.rows = row :: db.rows) : MappingStep db db₁
  | update {db db₁ : ThreadMappings}
      (kept : db₁.rows.map (·.internetMessageId) = db.rows.map (·.internetMessageId)) : MappingStep db db₁
  | delete {db db₁ : ThreadMappings} (fewer : db₁.rows.Sublist db.rows) : MappingStep db db₁

def noMappings : ThreadMappings := ⟨[], List.nodup_nil⟩

def Reached (db : ThreadMappings) : Prop := Relation.ReflTransGen (MappingStep sha256) noMappings db

def bracketed (x : Units) : Units := 60 :: x ++ [62]

/-- An identifier as Graph may return it, with its brackets or without them. -/
def graphId (brackets : Bool) (x : Units) : Units := if brackets then bracketed x else x

/-- Each mail that answers `x` is matched to the ticket of the row of `x`. -/
def Refinds (brackets : Bool) (x : Units) : Prop :=
  ∀ db row ticket headers, Reached sha256 db → row ∈ db.rows → row.internetMessageId = rowKey sha256 (graphId brackets x) →
    row.ticketId = some ticket → headers.inReplyTo = some (stripNul (bracketed x)) →
    (∃ result db₁, Rules.Ends ThreadQuery.returns (matchThread (digest sha256) headers) db result db₁) ∧
      ∀ result db₁, Rules.Ends ThreadQuery.returns (matchThread (digest sha256) headers) db result db₁ →
        ∃ m, result = some m ∧ m.ticketId = some ticket

/-- The answer's identifier is the one of the table: it has its brackets, no spaces next to them and no half of a pair in
its key, or its digest is the same by coincidence. -/
@[mk_iff]
structure Refound (brackets : Bool) (x : Units) : Prop where
  some_ : trimUnits (stripNul x) ≠ []
  same : (brackets = true ∧ trimUnits (stripNul x) = stripNul x ∧
      (Long (bracketed (stripNul x)) ∨ toWellFormed (stripNul x) = stripNul x)) ∨
    (Long (graphId brackets (stripNul x)) ∧ digestKey sha256 (graphId brackets (stripNul x)) ∈
      messageIdLookupKeys (digest sha256) (bracketed (trimUnits (stripNul x))))

end

variable {sha256 : List UInt8 → Units} {brackets : Bool} {id key x : Units} {db : ThreadMappings} {headers : ThreadHeaders}
  {row : ThreadRow} {ticket : Nat}

theorem byteLength_toWellFormed (s : Units) : byteLength (toWellFormed s) = byteLength s := by
  rw [byteLength, byteLength, scalars_toWellFormed]

theorem utf8Size_scalar (u : UInt16) : (scalar u).utf8Size ≤ 3 := by
  have small : (scalar u).toNat ≤ 0xFFFF := by
    by_cases half : (isHighSurrogate u || isLowSurrogate u) = true
    · rw [toNat_scalar_of_surrogate half]
      decide
    · rw [Bool.not_eq_true, Bool.or_eq_false_iff] at half
      rw [toNat_scalar half.1 half.2]
      exact Nat.le_of_lt_succ u.toNat_lt
  have most := Char.utf8Size_le_four (scalar u)
  by_contra more
  have large := UInt32.lt_iff_toNat_lt.mp (Char.utf8Size_eq_four_iff.mp (show (scalar u).utf8Size = 4 by omega))
  exact absurd small (Nat.not_le.mpr large)

theorem byteLength_le (s : Units) : byteLength s ≤ 3 * s.length := by
  unfold byteLength
  fun_induction scalars s with
  | case1 => exact Nat.le_refl 0
  | case2 u =>
    have size := utf8Size_scalar u
    simpa using size
  | case3 u v rest paired ih =>
    have size := Char.utf8Size_le_four (pair u v)
    simp only [List.map_cons, List.sum_cons, List.length_cons]
    omega
  | case4 u v rest apart ih =>
    have size := utf8Size_scalar u
    simp only [List.map_cons, List.sum_cons, List.length_cons] at ih ⊢
    omega

theorem trimUnits_sublist (s : Units) : (trimUnits s).Sublist s :=
  (List.rdropWhile_prefix _ _).sublist.trans (List.dropWhile_sublist _)

theorem length_digestKey (hex : Hex sha256) (id : Units) : (digestKey sha256 id).length = 87 := by
  rw [digestKey, List.length_append, List.length_append, digest, (hex _).1]
  rfl

theorem single_digestKey (hex : Hex sha256) (id : Units) : ∀ u ∈ digestKey sha256 id, Single u := by
  have digits : ∀ u ∈ ascii "0123456789abcdef", u.toNat < 0xD800 := forall_mem_of_all (by decide)
  have before : ∀ u ∈ ascii "<sha256-", u.toNat < 0xD800 := forall_mem_of_all (by decide)
  have after : ∀ u ∈ ascii "@opale.invalid>", u.toNat < 0xD800 := forall_mem_of_all (by decide)
  intro u member
  apply single_of_lt
  rw [digestKey, List.mem_append, List.mem_append] at member
  rcases member with (member | member) | member
  · exact before u member
  · exact digits u ((hex _).2 u member)
  · exact after u member

theorem not_long_of_length {s : Units} (length : s.length ≤ 87) : ¬Long s := by
  have bytes := byteLength_le s
  rw [Long, MAX_STORED_MESSAGE_ID_BYTES]
  omega

theorem stripNul_bracketed (x : Units) : stripNul (bracketed x) = bracketed (stripNul x) := by
  simp [stripNul, bracketed, List.filter_append]

theorem stripNul_graphId (brackets : Bool) (x : Units) :
    stripNul (graphId brackets x) = graphId brackets (stripNul x) := by
  cases brackets with
  | false => rfl
  | true => exact stripNul_bracketed x

theorem rowKey_of_long (hex : Hex sha256) (long : Long (stripNul id)) : rowKey sha256 id = digestKey sha256 (stripNul id) := by
  rw [rowKey, storedMessageId_of_long long, toWellFormed_self (single_digestKey hex _)]

theorem rowKey_of_short (short : ¬Long (stripNul id)) : rowKey sha256 id = toWellFormed (stripNul id) := by
  rw [rowKey, storedMessageId_of_short short]

theorem not_long_rowKey (hex : Hex sha256) (id : Units) : ¬Long (rowKey sha256 id) := by
  by_cases long : Long (stripNul id)
  · rw [rowKey_of_long hex long]
    exact not_long_of_length (length_digestKey hex _).le
  · rw [rowKey_of_short long, Long, byteLength_toWellFormed]
    exact long

/-- All the keys of the table are short ones. -/
theorem Reached.not_long (reached : Reached sha256 db) (hex : Hex sha256) : ∀ row ∈ db.rows, ¬Long row.internetMessageId := by
  induction reached with
  | refl => nofun
  | tail _ step ih =>
    rw [← List.forall_mem_map (f := ThreadRow.internetMessageId) (P := fun key => ¬Long key)] at ih ⊢
    cases step with
    | insert id key added =>
      rw [added, List.map_cons, List.forall_mem_cons, key]
      exact ⟨not_long_rowKey hex id, ih⟩
    | update kept => rwa [kept]
    | delete fewer => exact fun key member => ih key ((fewer.map _).subset member)

theorem bracketedIds_bracketed (left : 60 ∉ x) (right : 62 ∉ x) :
    bracketedIds (bracketed x) = if trimUnits x = [] then [] else [bracketed (trimUnits x)] := by
  cases x with
  | nil =>
    have first : MESSAGE_ID_RE.run [60, 62] = none := rfl
    have second : MESSAGE_ID_RE.run [62] = none := rfl
    have nothing : MESSAGE_ID_RE.captures (bracketed []) = [] := by
      show MESSAGE_ID_RE.captures [60, 62] = []
      rw [Matcher.captures_cons_of_none first, Matcher.captures_cons_of_none second, Matcher.captures]
    rw [bracketedIds, nothing]
    rfl
  | cons u x =>
    have found := messageIdAt_bracketed left right (List.cons_ne_nil u x) []
    rw [List.append_nil] at found
    have one : MESSAGE_ID_RE.captures (bracketed (u :: x)) = [u :: x] := by
      rw [bracketed, Matcher.captures_of_run found, Matcher.captures]
    have length : (bracketed (trimUnits (u :: x))).length = (trimUnits (u :: x)).length + 2 := by simp [bracketed]
    rw [bracketedIds, one, List.map_singleton]
    change [bracketed (trimUnits (u :: x))].filter _ = _
    split
    next empty =>
      rw [empty] at length ⊢
      rfl
    next some_ =>
      have positive := List.length_pos_iff.mpr some_
      have long : 2 < (bracketed (trimUnits (u :: x))).length := by omega
      rw [List.filter_cons_of_pos (by simpa using long), List.filter_nil]

theorem parseMessageIdList_bracketed (left : 60 ∉ x) (right : 62 ∉ x) :
    parseMessageIdList (some (bracketed x)) = if trimUnits x = [] then [] else [bracketed (trimUnits x)] := by
  have trimmed : trimUnits (bracketed x) = bracketed x := by
    refine trimUnits_self (forall_mem_of_eq_some rfl (by decide)) ?_
    rw [bracketed, List.getLast?_concat]
    exact forall_mem_of_eq_some rfl (by decide)
  have opening : 60 ∈ bracketed x := List.mem_cons_self
  unfold parseMessageIdList
  dsimp only
  rw [trimmed, if_neg (List.ne_nil_of_mem opening), if_neg fun bare => bare.2.1 opening, bracketedIds_bracketed left right]
  split
  · rfl
  · rfl

theorem byId_of_mem {rows : List ThreadRow} (unique : (rows.map (·.internetMessageId)).Nodup) (member : row ∈ rows) :
    byId rows row.internetMessageId = some row := by
  have reversed : (rows.reverse.map (·.internetMessageId)).Nodup := by rwa [List.map_reverse, List.nodup_reverse]
  have found := (@find?_unique _ reversed (fun _ => true) _ row).mpr ⟨List.mem_reverse.mpr member, rfl, rfl⟩
  simp only [Bool.and_true] at found
  exact found

theorem byId_eq_none {rows : List ThreadRow} (absent : ∀ r ∈ rows, r.internetMessageId ≠ key) : byId rows key = none := by
  rw [byId, List.find?_eq_none]
  intro r member
  simpa using absent r (List.mem_reverse.mp member)

/-- The row of a key that an identifier is looked up by is found: no row has a long key, that would come before it. -/
theorem findSome?_lookupKeys {rows : List ThreadRow} (unique : (rows.map (·.internetMessageId)).Nodup)
    (short : ∀ r ∈ rows, ¬Long r.internetMessageId) (member : row ∈ rows)
    (asked : row.internetMessageId ∈ messageIdLookupKeys (digest sha256) id) :
    (messageIdLookupKeys (digest sha256) id).findSome? (byId rows) = some row := by
  have found := byId_of_mem unique member
  rcases mem_lookupKeys.mp asked with same | ⟨long, same⟩
  · rw [same] at found
    unfold messageIdLookupKeys
    split
    · rw [List.findSome?_cons, found]
    · rw [List.findSome?_cons, found]
  · have raw : byId rows id = none := byId_eq_none fun r inside same => short r inside (same ▸ long)
    rw [same] at found
    rw [messageIdLookupKeys, storedMessageId_of_long long]
    split
    next own =>
      rw [own, raw] at found
      cases found
    next => rw [List.findSome?_cons, raw, List.findSome?_cons, found]

theorem toWellFormed_rowKey (id : Units) : toWellFormed (rowKey sha256 id) = rowKey sha256 id := toWellFormed_toWellFormed _

/-- A mail whose parent is looked up by the key of a row ends with that row. -/
theorem ends_matchThread_reply {result : Option ThreadMatch} {db₁ : ThreadMappings} {y : Units} (left : 60 ∉ y) (right : 62 ∉ y)
    (some_ : trimUnits y ≠ []) (short : ∀ r ∈ db.rows, ¬Long r.internetMessageId) (member : row ∈ db.rows)
    (attached : row.attached = true) (whole : toWellFormed row.internetMessageId = row.internetMessageId)
    (asked : row.internetMessageId ∈ messageIdLookupKeys (digest sha256) (bracketed (trimUnits y)))
    (answers : headers.inReplyTo = some (bracketed y)) :
    Rules.Ends ThreadQuery.returns (matchThread (digest sha256) headers) db result db₁ ↔
      result = some ⟨row.ticketId, row.proposalId, .messageId⟩ ∧ db₁ = db := by
  have candidates : parseMessageIdList headers.inReplyTo ++ parseMessageIdList headers.references =
      bracketed (trimUnits y) :: parseMessageIdList headers.references := by
    rw [answers, parseMessageIdList_bracketed left right, if_neg some_]
    rfl
  refine ends_matchThread_of candidates (List.cons_ne_nil _ _) ⟨_, rfl, List.Perm.refl _⟩ fun rows db₂ returned => ?_
  obtain ⟨same, answer⟩ := returned
  refine ⟨same, ?_⟩
  have inside : row ∈ rows := by
    rw [answer.mem_iff, List.mem_filter, attached, Bool.and_true, List.contains_iff_mem]
    exact ⟨member, List.mem_map.mpr ⟨_, List.mem_flatMap.mpr ⟨_, List.mem_cons_self, asked⟩, whole⟩⟩
  have unique : (rows.map (·.internetMessageId)).Nodup :=
    (answer.map _).nodup_iff.mpr (db.unique.sublist (List.filter_sublist.map _))
  have kept : ∀ r ∈ rows, ¬Long r.internetMessageId := fun r there => short r (List.mem_filter.mp (answer.mem_iff.mp there)).1
  rw [List.findSome?_cons, findSome?_lookupKeys unique kept inside asked]

/-- The table of one mail alone, that belongs to a ticket. -/
def oneMail (key : Units) : ThreadMappings where
  rows := [⟨key, none, some 0, none, none⟩]
  unique := List.nodup_singleton key

/-- A mail that gives no more than its parent, which is looked up by other keys. -/
theorem ends_matchThread_lost {y : Units} (left : 60 ∉ y) (right : 62 ∉ y) (answers : headers.inReplyTo = some (bracketed y))
    (alone : headers.references = none) (apart : headers.conversationId = none)
    (other : trimUnits y ≠ [] → key ∉ messageIdLookupKeys (digest sha256) (bracketed (trimUnits y))) :
    Rules.Ends ThreadQuery.returns (matchThread (digest sha256) headers) (oneMail key) none (oneMail key) := by
  have candidates : parseMessageIdList headers.inReplyTo ++ parseMessageIdList headers.references =
      if trimUnits y = [] then [] else [bracketed (trimUnits y)] := by
    rw [answers, alone, parseMessageIdList_bracketed left right]
    exact List.append_nil _
  by_cases empty : trimUnits y = []
  · rw [if_pos empty] at candidates
    rw [matchThread, candidates, apart]
    exact .ret
  · rw [if_neg empty] at candidates
    have nothing (rows : List ThreadRow) (only : ∀ r ∈ rows, r.internetMessageId = key) :
        ([bracketed (trimUnits y)].findSome? fun id => (messageIdLookupKeys (digest sha256) id).findSome? (byId rows)) = none := by
      rw [List.findSome?_cons, List.findSome?_eq_none_iff.mpr fun asked inside => ?_]
      · rfl
      · refine byId_eq_none fun r there same => other empty ?_
        rwa [← only r there, same]
    rw [matchThread_asks candidates (List.cons_ne_nil _ _), apart]
    refine .op ⟨rfl, List.Perm.refl _⟩ ?_
    rw [nothing _ fun r there => ?_, Option.map_none, ite_self]
    · exact .ret
    · rw [List.mem_singleton.mp (List.mem_filter.mp there).1]

/-- A mail is found again when the key of its row is one of those that its answer is looked up by. -/
theorem refinds_iff_mem (hex : Hex sha256) (left : 60 ∉ x) (right : 62 ∉ x) :
    Refinds sha256 brackets x ↔ trimUnits (stripNul x) ≠ [] ∧
      rowKey sha256 (graphId brackets x) ∈ messageIdLookupKeys (digest sha256) (bracketed (trimUnits (stripNul x))) := by
  have left₁ : 60 ∉ stripNul x := fun inside => left (List.mem_filter.mp inside).1
  have right₁ : 62 ∉ stripNul x := fun inside => right (List.mem_filter.mp inside).1
  constructor
  · intro refinds
    have reached : Reached sha256 (oneMail (rowKey sha256 (graphId brackets x))) := .single (.insert _ rfl rfl)
    obtain ⟨-, all⟩ := refinds _ _ 0 ⟨some (bracketed (stripNul x)), none, none⟩ reached List.mem_cons_self rfl rfl
      (congrArg some (stripNul_bracketed x).symm)
    by_contra lost
    rw [not_and] at lost
    obtain ⟨m, impossible, -⟩ := all none _ (ends_matchThread_lost left₁ right₁ rfl rfl rfl lost)
    cases impossible
  · rintro ⟨some_, asked⟩ db row ticket headers reached member key linked answers
    rw [stripNul_bracketed] at answers
    have attached : row.attached = true := by rw [ThreadRow.attached, linked, Option.isSome_some, Bool.true_or]
    rw [← key] at asked
    have whole : toWellFormed row.internetMessageId = row.internetMessageId := by rw [key, toWellFormed_rowKey]
    have ends (result : Option ThreadMatch) (db₁ : ThreadMappings) :
        Rules.Ends ThreadQuery.returns (matchThread (digest sha256) headers) db result db₁ ↔ _ :=
      ends_matchThread_reply left₁ right₁ some_ (reached.not_long hex) member attached whole asked answers
    refine ⟨⟨_, _, (ends _ _).mpr ⟨rfl, rfl⟩⟩, fun result db₁ run => ?_⟩
    obtain ⟨rfl, -⟩ := (ends result db₁).mp run
    exact ⟨_, rfl, linked⟩

theorem toWellFormed_bracketed (x : Units) : toWellFormed (bracketed x) = bracketed (toWellFormed x) := by
  have opening : Single 60 := single_of_lt (by decide)
  have closing : Single 62 := single_of_lt (by decide)
  rw [bracketed, List.cons_append, toWellFormed_cons opening, toWellFormed_concat closing]
  rfl

theorem length_bracketed (x : Units) : (bracketed x).length = x.length + 2 := by simp [bracketed]

theorem bracketed_inj {y : Units} : bracketed x = bracketed y ↔ x = y := by simp [bracketed]

theorem opening_mem_digestKey (id : Units) : 60 ∈ digestKey sha256 id := by
  have first : 60 ∈ ascii "<sha256-" := by decide
  exact List.mem_append_left _ (List.mem_append_left _ first)

/-- A short identifier is found by its own text. -/
theorem asked_iff_of_short {y : Units} (hex : Hex sha256) (left : 60 ∉ y) (short : ¬Long (graphId brackets y)) :
    toWellFormed (graphId brackets y) ∈ messageIdLookupKeys (digest sha256) (bracketed (trimUnits y)) ↔
      brackets = true ∧ trimUnits y = y ∧ toWellFormed y = y := by
  have opening (inside : 60 ∈ toWellFormed y) : False := left (mem_of_mem_toWellFormed inside (by decide))
  rw [mem_lookupKeys]
  cases brackets with
  | false =>
    constructor
    · rintro (same | ⟨-, same⟩)
      · exact (opening (same ▸ List.mem_cons_self)).elim
      · exact (opening (same ▸ opening_mem_digestKey _)).elim
    · rintro ⟨⟨⟩, -⟩
  | true =>
    simp only [graphId, if_true, toWellFormed_bracketed, bracketed_inj] at short ⊢
    constructor
    · rintro (same | ⟨long, same⟩)
      · have lengths := congrArg List.length same
        rw [length_toWellFormed] at lengths
        have trimmed : trimUnits y = y := (trimUnits_sublist y).eq_of_length lengths.symm
        exact ⟨trivial, trimmed, same.trans trimmed⟩
      -- the digest key is of 87 units, and what it is the key of would be no longer
      · have lengths := congrArg List.length same
        rw [length_bracketed, length_toWellFormed, length_digestKey hex] at lengths
        have le := (trimUnits_sublist y).length_le
        exact absurd long (not_long_of_length (by rw [length_bracketed]; omega))
    · rintro ⟨-, trimmed, whole⟩
      exact .inl (whole.trans trimmed.symm)

/-- A mail is found again when its identifier has its brackets. -/
theorem refinds_iff (sha256 : List UInt8 → Units) (hex : Hex sha256) (brackets : Bool) (x : Units) (left : 60 ∉ x)
    (right : 62 ∉ x) : Refinds sha256 brackets x ↔ Refound sha256 brackets x := by
  have left₁ : 60 ∉ stripNul x := fun inside => left (List.mem_filter.mp inside).1
  have itself : stripNul (graphId brackets x) = graphId brackets (stripNul x) := stripNul_graphId brackets x
  rw [refinds_iff_mem hex left right, refound_iff]
  refine and_congr_right fun _ => ?_
  by_cases long : Long (graphId brackets (stripNul x))
  · rw [rowKey_of_long hex (by rwa [itself]), itself]
    constructor
    · exact fun asked => .inr ⟨long, asked⟩
    · rintro (⟨rfl, trimmed, -⟩ | ⟨-, asked⟩)
      · rw [trimmed]
        exact mem_lookupKeys.mpr (.inr ⟨long, rfl⟩)
      · exact asked
  · rw [rowKey_of_short (by rwa [itself]), itself, asked_iff_of_short hex left₁ long]
    constructor
    · rintro ⟨bracketed_, trimmed, whole⟩
      exact .inl ⟨bracketed_, trimmed, .inr whole⟩
    · rintro (⟨rfl, trimmed, far | whole⟩ | ⟨far, -⟩)
      · exact absurd far long
      · exact ⟨rfl, trimmed, whole⟩
      · exact absurd far long

def zeros (_ : List UInt8) : Units := List.replicate 64 48

theorem hex_zeros : Hex zeros := fun _ =>
  ⟨rfl, fun u member => by
    rw [List.eq_of_mem_replicate member]
    decide⟩

theorem refinds_iff_bracketed : Refinds zeros true (ascii "a@b") :=
  (refinds_iff zeros hex_zeros true (ascii "a@b") (by decide) (by decide)).mpr
    ⟨by decide, .inl ⟨rfl, by decide, .inr (by decide)⟩⟩

/-- An identifier without its brackets is stored without them, and looked up with them. -/
theorem bare_identifier_lost : ¬∀ sha256 : List UInt8 → Units, Hex sha256 → ∀ (brackets : Bool) (x : Units), 60 ∉ x →
    62 ∉ x → x ≠ [] → trimUnits x = x → Refinds sha256 brackets x := by
  intro all
  have refinds := all zeros hex_zeros false (ascii "a@b") (by decide) (by decide) (by decide) (by decide)
  have asked := ((refinds_iff_mem hex_zeros (by decide) (by decide)).mp refinds).2
  exact absurd asked (by decide)

end Opale.EmailBridge
