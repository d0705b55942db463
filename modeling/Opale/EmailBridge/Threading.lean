import Opale.Effects.Safety
import Opale.Js.Matches

namespace Opale.EmailBridge

open Js

/-- A row of `email_thread_mapping`, as the matching of a thread reads it. -/
structure ThreadRow where
  internetMessageId : Units
  conversationId : Option Units
  ticketId : Option Nat
  proposalId : Option Nat
  receivedAt : Option Int
  deriving DecidableEq

/-- `ticket_id IS NOT NULL OR proposal_id IS NOT NULL` -/
def ThreadRow.attached (r : ThreadRow) : Bool := r.ticketId.isSome || r.proposalId.isSome

/-- The table; `internet_message_id` is UNIQUE. -/
structure ThreadMappings where
  rows : List ThreadRow
  unique : (rows.map (·.internetMessageId)).Nodup

inductive ThreadQuery where
  | byMessageIds (keys : List Units)
  | byConversation (conversationId : Units)

/-- `ORDER BY received_at DESC NULLS LAST` -/
def laterReceived (a b : Option Int) : Bool :=
  match a, b with
  | _, none => true
  | none, some _ => false
  | some a, some b => b ≤ a

/-- The rows come in any order; LIMIT 1 gives one of the latest. -/
def ThreadQuery.answers (o : ThreadQuery) (db : ThreadMappings) (rows : List ThreadRow) (db₁ : ThreadMappings) : Prop :=
  db₁ = db ∧
    match o with
    | .byMessageIds keys => rows.Perm (db.rows.filter fun r => keys.contains r.internetMessageId && r.attached)
    | .byConversation conversationId =>
      let found := db.rows.filter fun r => r.conversationId = some conversationId && r.attached
      rows = [] ∧ found = [] ∨ ∃ r ∈ found, rows = [r] ∧ ∀ other ∈ found, laterReceived r.receivedAt other.receivedAt

abbrev Threading := Program (fun _ : ThreadQuery => List ThreadRow)

inductive Via where
  | messageId | conversationId
  deriving DecidableEq

structure ThreadMatch where
  ticketId : Option Nat
  proposalId : Option Nat
  via : Via
  deriving DecidableEq

/-- `<([^<>]+)>` -/
def messageIdAt (s : Units) : Option (Units × Units) :=
  match s with
  | [] => none
  | u :: s =>
    if u ≠ 60 then none
    else
      let id := s.takeWhile fun u => u ≠ 60 && u ≠ 62
      match s.dropWhile fun u => u ≠ 60 && u ≠ 62 with
      | v :: rest => if id ≠ [] ∧ v = 62 then some (id, rest) else none
      | [] => none

def MESSAGE_ID_RE : Matcher UInt16 Units where
  run := messageIdAt
  shorter := by
    intro s rest id found
    unfold messageIdAt at found
    split at found
    next => cases found
    next u s =>
      split at found
      next => cases found
      next =>
        dsimp only at found
        split at found
        next v rest₁ left =>
          split at found
          next =>
            cases found
            have le := (List.dropWhile_sublist (l := s) fun u => u ≠ 60 && u ≠ 62).length_le
            rw [left] at le
            simp only [List.length_cons] at le ⊢
            omega
          next => cases found
        next => cases found

def normalizeMessageId (id : Option Units) : Option Units :=
  match id with
  | none => none
  | some id =>
    let s := trimUnits id
    if s = [] then none
    else if s.head? = some 60 ∧ s.getLast? = some 62 then some s
    else some (60 :: s ++ [62])

/-- The identifiers of a header between angle brackets, repeated ones too. -/
def bracketedIds (s : Units) : List Units :=
  ((MESSAGE_ID_RE.captures s).map fun id => 60 :: trimUnits id ++ [62]).filter fun id => 2 < id.length

/-- The identifiers of a header in its order, repeated ones too: those in brackets, or the whole as one. -/
def messageIds (header : Option Units) : List Units :=
  match header with
  | none => []
  | some header =>
    let s := trimUnits header
    if s = [] then []
    else if bracketedIds s = [] ∧ 60 ∉ s ∧ 62 ∉ s then (normalizeMessageId (some s)).toList
    else bracketedIds s

/-- `if (!seen.has(id)) ids.push(id)` -/
def pushNew (ids : List Units) (id : Units) : List Units := if id ∈ ids then ids else ids ++ [id]

def parseMessageIdList (header : Option Units) : List Units :=
  match header with
  | none => []
  | some header =>
    let s := trimUnits header
    if s = [] then []
    else
      let ids := (bracketedIds s).foldl pushNew []
      if ids = [] ∧ 60 ∉ s ∧ 62 ∉ s then (normalizeMessageId (some s)).toList else ids

def MAX_STORED_MESSAGE_ID_BYTES : Nat := 1000

/-- `Buffer.byteLength(s, 'utf8')` -/
def byteLength (s : Units) : Nat := ((scalars s).map Char.utf8Size).sum

section

variable (sha256 : Units → Units)

def storedMessageId (id : Units) : Units :=
  if byteLength id ≤ MAX_STORED_MESSAGE_ID_BYTES then id else ascii "<sha256-" ++ sha256 id ++ ascii "@opale.invalid>"

def messageIdLookupKeys (id : Units) : List Units :=
  if storedMessageId sha256 id = id then [id] else [id, storedMessageId sha256 id]

/-- `new Map(rows.map(r => [r.internet_message_id, r])).get(key)`: the last row of a key counts. -/
def byId (rows : List ThreadRow) (key : Units) : Option ThreadRow := rows.reverse.find? (·.internetMessageId = key)

def findTicketByMessageIds (ids : List Units) : Threading (Option ThreadMatch) := do
  if ids = [] then return none
  let rows ← Program.perform (.byMessageIds (ids.flatMap (messageIdLookupKeys sha256)))
  if rows = [] then return none
  return (ids.findSome? fun id => (messageIdLookupKeys sha256 id).findSome? (byId rows)).map fun r =>
    ⟨r.ticketId, r.proposalId, .messageId⟩

def findTicketByConversationId (conversationId : Option Units) : Threading (Option ThreadMatch) := do
  match conversationId with
  | none | some [] => return none
  | some conversationId =>
    match ← Program.perform (.byConversation conversationId) with
    | [] => return none
    | r :: _ => return some ⟨r.ticketId, r.proposalId, .conversationId⟩

structure ThreadHeaders where
  inReplyTo : Option Units
  references : Option Units
  conversationId : Option Units

def matchThread (headers : ThreadHeaders) : Threading (Option ThreadMatch) := do
  let candidateIds := parseMessageIdList headers.inReplyTo ++ parseMessageIdList headers.references
  match ← findTicketByMessageIds sha256 candidateIds with
  | some byMsgId => return some byMsgId
  | none => findTicketByConversationId headers.conversationId

/-- The row that is known of an identifier, in its own form or in its stored one. -/
def ThreadMappings.known (db : ThreadMappings) (id : Units) : Option ThreadRow :=
  (messageIdLookupKeys sha256 id).findSome? fun key => db.rows.find? fun r => r.internetMessageId = key && r.attached

end

/-- A mail belongs to its ticket, or to its proposal while there is no ticket. -/
inductive ThreadTarget where
  | ticket (id : Nat)
  | proposal (id : Nat)
  deriving DecidableEq

def targetOf (ticketId proposalId : Option Nat) : Option ThreadTarget :=
  match ticketId with
  | some id => some (.ticket id)
  | none => proposalId.map .proposal

def ThreadRow.target (r : ThreadRow) : Option ThreadTarget := targetOf r.ticketId r.proposalId

theorem findSome?_pushNew {α : Type} (f : Units → Option α) (ids seen : List Units) :
    (ids.foldl pushNew seen).findSome? f = (seen ++ ids).findSome? f := by
  induction ids generalizing seen with
  | nil => simp
  | cons id ids ih =>
    rw [List.foldl_cons, ih]
    unfold pushNew
    split
    next old =>
      simp only [List.findSome?_append, List.findSome?_cons]
      cases found : seen.findSome? f with
      | some a => rfl
      | none =>
        rw [List.findSome?_eq_none_iff.mp found id old]
    next => simp

/-- Without its repetitions, the header gives the same first. -/
theorem findSome?_parseMessageIdList {α : Type} (f : Units → Option α) (header : Option Units) :
    (parseMessageIdList header).findSome? f = (messageIds header).findSome? f := by
  have same (ids : List Units) : ids.foldl pushNew [] = [] ↔ ids = [] := by
    constructor
    · intro empty
      by_contra some_
      obtain ⟨id, rest, rfl⟩ := List.exists_cons_of_ne_nil some_
      have first := findSome?_pushNew some (id :: rest) []
      rw [empty] at first
      cases first
    · rintro rfl
      rfl
  unfold parseMessageIdList messageIds
  split
  · rfl
  · dsimp only
    split
    · rfl
    · simp only [same]
      split
      · rfl
      · exact findSome?_pushNew f _ []

theorem find?_unique {rows : List ThreadRow} (unique : (rows.map (·.internetMessageId)).Nodup) {p : ThreadRow → Bool}
    {key : Units} {r : ThreadRow} :
    rows.find? (fun r => r.internetMessageId = key && p r) = some r ↔ r ∈ rows ∧ r.internetMessageId = key ∧ p r = true := by
  constructor
  · intro found
    have holds := List.find?_some found
    rw [Bool.and_eq_true, decide_eq_true_eq] at holds
    exact ⟨List.mem_of_find?_eq_some found, holds⟩
  · intro ⟨member, same, holds⟩
    cases found : rows.find? fun r => r.internetMessageId = key && p r with
    | none =>
      have fails := List.find?_eq_none.mp found r member
      rw [same, holds] at fails
      simp at fails
    | some other =>
      have here := List.find?_some found
      rw [Bool.and_eq_true, decide_eq_true_eq] at here
      rw [List.inj_on_of_nodup_map unique (List.mem_of_find?_eq_some found) member (here.1.trans same.symm)]

/-- The map of the rows gives what the table has, in whatever order they come. -/
theorem byId_eq {db : ThreadMappings} {keys : List Units} {rows : List ThreadRow} {key : Units}
    (answer : rows.Perm (db.rows.filter fun r => keys.contains r.internetMessageId && r.attached)) (asked : key ∈ keys) :
    byId rows key = db.rows.find? fun r => r.internetMessageId = key && r.attached := by
  have unique : (rows.reverse.map (·.internetMessageId)).Nodup := by
    have filtered : ((db.rows.filter fun r => keys.contains r.internetMessageId && r.attached).map
        (·.internetMessageId)).Nodup := db.unique.sublist (List.filter_sublist.map _)
    exact (((List.reverse_perm rows).trans answer).map _).nodup_iff.mpr filtered
  ext r
  have left := @find?_unique _ unique (fun _ => true) key r
  simp only [Bool.and_true, and_true] at left
  rw [byId, left, find?_unique db.unique, List.mem_reverse, answer.mem_iff, List.mem_filter, Bool.and_eq_true,
    List.contains_iff_mem]
  constructor
  · intro ⟨⟨member, _, attached⟩, same⟩
    exact ⟨member, same, attached⟩
  · intro ⟨member, same, attached⟩
    exact ⟨⟨member, by rwa [same], attached⟩, same⟩

section

variable {sha256 : Units → Units} {db db₁ : ThreadMappings} {headers : ThreadHeaders} {result : Option ThreadMatch}

theorem findSome?_same {α β : Type} {f g : α → Option β} {l : List α} (same : ∀ a ∈ l, f a = g a) :
    l.findSome? f = l.findSome? g := by
  induction l with
  | nil => rfl
  | cons a l ih =>
    rw [List.findSome?_cons, List.findSome?_cons, same a List.mem_cons_self,
      ih fun b member => same b (List.mem_cons_of_mem a member)]

theorem findSome?_byId {ids : List Units} {rows : List ThreadRow}
    (answer : rows.Perm (db.rows.filter fun r =>
      (ids.flatMap (messageIdLookupKeys sha256)).contains r.internetMessageId && r.attached)) :
    (ids.findSome? fun id => (messageIdLookupKeys sha256 id).findSome? (byId rows)) = ids.findSome? (db.known sha256) := by
  refine findSome?_same fun id member => ?_
  refine findSome?_same fun key inside => ?_
  exact byId_eq answer (List.mem_flatMap.mpr ⟨id, member, inside⟩)

variable {exec : (o : ThreadQuery) → ThreadMappings → List ThreadRow → ThreadMappings → Prop} {ids : List Units} {r : ThreadRow}

theorem matchThread_asks (candidates : parseMessageIdList headers.inReplyTo ++ parseMessageIdList headers.references = ids)
    (some_ : ids ≠ []) : matchThread sha256 headers =
      .op (.byMessageIds (ids.flatMap (messageIdLookupKeys sha256))) fun rows =>
        Program.bind (if rows = [] then .ret none
          else .ret ((ids.findSome? fun id => (messageIdLookupKeys sha256 id).findSome? (byId rows)).map fun r =>
            ⟨r.ticketId, r.proposalId, .messageId⟩)) fun
        | some byMsgId => .ret (some byMsgId)
        | none => findTicketByConversationId headers.conversationId := by
  rw [matchThread, candidates, findTicketByMessageIds]
  simp only [if_neg some_]
  rfl

/-- Where every answer gives one row, it is the match. -/
theorem ends_matchThread_of
    (candidates : parseMessageIdList headers.inReplyTo ++ parseMessageIdList headers.references = ids) (some_ : ids ≠ [])
    (asks : ∃ rows, exec (.byMessageIds (ids.flatMap (messageIdLookupKeys sha256))) db rows db)
    (given : ∀ rows db₂, exec (.byMessageIds (ids.flatMap (messageIdLookupKeys sha256))) db rows db₂ →
      db₂ = db ∧ (ids.findSome? fun id => (messageIdLookupKeys sha256 id).findSome? (byId rows)) = some r) :
    Rules.Ends exec (matchThread sha256 headers) db result db₁ ↔
      result = some ⟨r.ticketId, r.proposalId, .messageId⟩ ∧ db₁ = db := by
  have nonempty {rows : List ThreadRow}
      (first : (ids.findSome? fun id => (messageIdLookupKeys sha256 id).findSome? (byId rows)) = some r) : rows ≠ [] := by
    rintro rfl
    obtain ⟨id, -, found⟩ := List.exists_of_findSome?_eq_some first
    obtain ⟨key, -, nothing⟩ := List.exists_of_findSome?_eq_some found
    cases nothing
  rw [matchThread_asks candidates some_]
  constructor
  · intro ends
    obtain ⟨rows, db₂, answer, later⟩ := Rules.Ends.of_op ends
    obtain ⟨same, first⟩ := given rows db₂ answer
    rw [if_neg (nonempty first), first] at later
    obtain _ | _ := later
    exact ⟨rfl, same⟩
  · rintro ⟨rfl, rfl⟩
    obtain ⟨rows, answer⟩ := asks
    refine .op answer ?_
    obtain ⟨-, first⟩ := given rows _ answer
    rw [if_neg (nonempty first), first]
    exact .ret

/-- With a known identifier among the candidates, the first one gives the answer. -/
theorem ends_matchThread
    (first : (parseMessageIdList headers.inReplyTo ++ parseMessageIdList headers.references).findSome? (db.known sha256) =
      some r) :
    Rules.Ends ThreadQuery.answers (matchThread sha256 headers) db result db₁ ↔
      result = some ⟨r.ticketId, r.proposalId, .messageId⟩ ∧ db₁ = db := by
  refine ends_matchThread_of rfl ?_ ⟨_, rfl, List.Perm.refl _⟩ fun rows db₂ ⟨same, answer⟩ => ?_
  · intro none_
    rw [none_] at first
    cases first
  · rw [findSome?_byId answer, first]
    exact ⟨same, rfl⟩

end

section

variable (sha256 : Units → Units) (db : ThreadMappings) (headers : ThreadHeaders)

/-- Nothing is known of the parent, and something of the thread. -/
structure ThreadKnown : Prop where
  parent : ∀ id ∈ messageIds headers.inReplyTo, db.known sha256 id = none
  thread : ∃ id ∈ messageIds headers.references, (db.known sha256 id).isSome

/-- The match is what the last known identifier of the thread belongs to. -/
def MatchesLatest : Prop :=
  ∀ result db₁, Rules.Ends ThreadQuery.answers (matchThread sha256 headers) db result db₁ →
    ∃ r m, (messageIds headers.references).reverse.findSome? (db.known sha256) = some r ∧ result = some m ∧
      targetOf m.ticketId m.proposalId = r.target

/-- The first known identifier of the thread belongs to what the last known one belongs to. -/
def OldestAgrees : Prop :=
  ((messageIds headers.references).findSome? (db.known sha256)).map ThreadRow.target =
    ((messageIds headers.references).reverse.findSome? (db.known sha256)).map ThreadRow.target

/-- The identifiers are tried from the oldest to the most recent. -/
theorem matchesLatest_iff (known : ThreadKnown sha256 db headers) :
    MatchesLatest sha256 db headers ↔ OldestAgrees sha256 db headers := by
  obtain ⟨id, member, isSome⟩ := known.thread
  have first : ∃ r, (messageIds headers.references).findSome? (db.known sha256) = some r := by
    rw [← Option.isSome_iff_exists, List.findSome?_isSome_iff]
    exact ⟨id, member, isSome⟩
  have last : ∃ r, (messageIds headers.references).reverse.findSome? (db.known sha256) = some r := by
    rw [← Option.isSome_iff_exists, List.findSome?_isSome_iff]
    exact ⟨id, List.mem_reverse.mpr member, isSome⟩
  obtain ⟨oldest, first⟩ := first
  obtain ⟨latest, last⟩ := last
  have tried : (parseMessageIdList headers.inReplyTo ++ parseMessageIdList headers.references).findSome?
      (db.known sha256) = some oldest := by
    rw [List.findSome?_append, findSome?_parseMessageIdList, findSome?_parseMessageIdList,
      List.findSome?_eq_none_iff.mpr known.parent, first]
    rfl
  rw [OldestAgrees, first, last, Option.map_some, Option.map_some, Option.some_inj]
  constructor
  · intro latest_
    obtain ⟨r, m, here, result, same⟩ := latest_ _ _ ((ends_matchThread tried).mpr ⟨rfl, rfl⟩)
    rw [last] at here
    cases here
    cases result
    exact same
  · intro agree result db₁ ends
    obtain ⟨rfl, rfl⟩ := (ends_matchThread tried).mp ends
    exact ⟨latest, _, last, rfl, agree⟩

end

/-- The rows of two mails `<a@x>` and `<b@x>` that belong to the tickets `one` and `two`. -/
def twoMails (one two : Nat) : ThreadMappings where
  rows := [⟨ascii "<a@x>", none, some one, none, none⟩, ⟨ascii "<b@x>", none, some two, none, none⟩]
  unique := by
    show [ascii "<a@x>", ascii "<b@x>"].Nodup
    decide

def answerToBoth : ThreadHeaders := ⟨none, some (ascii "<a@x> <b@x>"), none⟩

theorem messageIds_answerToBoth : messageIds answerToBoth.references = [ascii "<a@x>", ascii "<b@x>"] := by
  decide +kernel

theorem known_answerToBoth (one two : Nat) : ThreadKnown (fun s => s) (twoMails one two) answerToBoth where
  parent := by simp [answerToBoth, messageIds]
  thread := by
    rw [messageIds_answerToBoth]
    exact ⟨ascii "<a@x>", List.mem_cons_self, rfl⟩

theorem matchesLatest_iff_sameTicket :
    ThreadKnown (fun s => s) (twoMails 1 1) answerToBoth ∧ MatchesLatest (fun s => s) (twoMails 1 1) answerToBoth := by
  refine ⟨known_answerToBoth 1 1, (matchesLatest_iff (fun s => s) (twoMails 1 1) answerToBoth (known_answerToBoth 1 1)).mpr ?_⟩
  rw [OldestAgrees, messageIds_answerToBoth]
  decide

/-- The older mail's ticket is taken. -/
theorem not_matchesLatest_twoTickets :
    ThreadKnown (fun s => s) (twoMails 1 2) answerToBoth ∧ ¬MatchesLatest (fun s => s) (twoMails 1 2) answerToBoth := by
  refine ⟨known_answerToBoth 1 2, fun latest => ?_⟩
  have tried : (parseMessageIdList answerToBoth.inReplyTo ++ parseMessageIdList answerToBoth.references).findSome?
      ((twoMails 1 2).known fun s => s) = some ⟨ascii "<a@x>", none, some 1, none, none⟩ := by
    decide +kernel
  obtain ⟨r, m, last, result, same⟩ := latest _ _ ((ends_matchThread tried).mpr ⟨rfl, rfl⟩)
  rw [messageIds_answerToBoth] at last
  have expected : [ascii "<a@x>", ascii "<b@x>"].reverse.findSome? ((twoMails 1 2).known fun s => s) =
      some ⟨ascii "<b@x>", none, some 2, none, none⟩ := by
    decide
  rw [expected] at last
  cases last
  cases result
  cases same

end Opale.EmailBridge
