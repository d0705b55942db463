import Opale.EmailBridge.Filing

namespace Opale.EmailBridge.Mailroom

open Js Sql Tickets

variable {merges : Bool} {db committed view : TicketDb} {owned : Set TicketLock} {s : Stage} {id : String}
variable {ds : List TicketChange} {draw : TicketDraw}

theorem mailIn_congr {db₁ : TicketDb} (mappings : db₁ .mappings = db .mappings) (messages : db₁ .messages = db .messages) :
    mailIn merges db₁ id = mailIn merges db id := by
  unfold mailIn
  rw [mappings, messages]

theorem mem_mappings {e : Nat × Filing} : e ∈ (mailIn merges db id).mappings ↔
    ∃ r : ThreadMapping, (db .mappings)[e.1]? = some r ∧ r.internetMessageId = id ∧ e.2 = filing merges r := Iff.rfl

theorem mem_messages {e : Nat × Nat} : e ∈ (mailIn merges db id).messages ↔
    ∃ m : TicketMessage, (db .messages)[e.1]? = some m ∧ m.fromMail = some id ∧ e.2 = place merges m.ticketId := Iff.rfl

/-- Two databases that hold the same of a mail still do after changes that meet no row in which they differ. -/
theorem mailIn_square {a b a₁ b₁ : TicketDb}
    (rows : ∀ n (k : Nat), ((a n)[k]? = (b n)[k]? ∧ (a₁ n)[k]? = (b₁ n)[k]?) ∨
      ((a₁ n)[k]? = (a n)[k]? ∧ (b₁ n)[k]? = (b n)[k]?))
    (same : mailIn merges a id = mailIn merges b id) : mailIn merges a₁ id = mailIn merges b₁ id := by
  ext e
  · obtain ⟨-, here⟩ | ⟨left, right⟩ := rows .mappings e.1
    · rw [mem_mappings, mem_mappings, here]
    · have old : e ∈ (mailIn merges a id).mappings ↔ e ∈ (mailIn merges b id).mappings := by rw [same]
      rw [mem_mappings, mem_mappings] at old ⊢
      rw [left, right]
      exact old
  · obtain ⟨-, here⟩ | ⟨left, right⟩ := rows .messages e.1
    · rw [mem_messages, mem_messages, here]
    · have old : e ∈ (mailIn merges a id).messages ↔ e ∈ (mailIn merges b id).messages := by rw [same]
      rw [mem_messages, mem_messages] at old ⊢
      rw [left, right]
      exact old

/-- What the others commit leaves a transaction where it stands. -/
theorem Stage.Holds.stable (holds : s.Holds merges owned committed view)
    (agree : Contract.Agree ticketSchema owned committed view) (outside : ∀ d ∈ ds, ∀ k ∈ ticketSchema.locks d, k ∉ owned)
    (guarded : ∀ id, entryOf id ∈ owned → mailIn merges committed id = mailIn merges (ticketSchema.applyAll ds committed) id) :
    s.Holds merges owned (ticketSchema.applyAll ds committed) (ticketSchema.applyAll ds view) := by
  have rows (n : TableName) (k : Nat) := agree.row outside n k
  refine ⟨fun id free => ?_, fun id mine => ?_, fun e member => ?_, holds.owes⟩
  · refine mailIn_square (fun n k => ?_) (holds.unlocked id free)
    obtain ⟨before, after, -⟩ | still := rows n k
    · exact .inl ⟨before, after⟩
    · exact .inr still
  · have seen : mailIn merges (ticketSchema.applyAll ds view) id = mailIn merges view id := by
      refine mailIn_square (fun n k => ?_) (guarded id mine).symm
      obtain ⟨before, after, -⟩ | ⟨left, right⟩ := rows n k
      · exact .inr ⟨after, before⟩
      · exact .inl ⟨right, left⟩
    rw [seen]
    exact holds.locked id mine
  · obtain ⟨mine, r, found, same, untouched⟩ := holds.read e member
    refine ⟨mine, r, ?_, same, untouched⟩
    have kept : (ticketSchema.applyAll ds view .mappings)[e.1]? = (view .mappings)[e.1]? := applyAll_owned outside mine view
    exact kept.trans found

/-- A mail that nothing is owed for is filed, in what is seen. -/
theorem Stage.Holds.other (holds : s.Holds merges owned committed view) (kept : Ledger merges committed)
    (other : s.phase.owes ≠ some id) : (mailIn merges view id).Filed := by
  by_cases mine : entryOf id ∈ owned
  · have at_ := holds.locked id mine
    unfold Phase.At at at_
    rwa [if_neg other] at at_
  · rw [holds.unlocked id mine]
    exact kept id

theorem Phase.Free.owes {p : Phase} (free : p.Free) : p.owes = none := by
  obtain rfl | rfl := free
  · rfl
  · rfl

theorem Stage.Holds.filed (holds : s.Holds merges owned committed view) (kept : Ledger merges committed) (free : s.phase.Free)
    (id : String) : (mailIn merges view id).Filed := by
  refine holds.other kept ?_
  rw [free.owes]
  exact nofun

theorem Stage.Holds.sees (holds : s.Holds merges owned committed view) (kept : Ledger merges committed) (id : String) :
    s.phase.At merges id (mailIn merges view id) := by
  by_cases owed : s.phase.owes = some id
  · exact holds.locked id (holds.owes id owed)
  · unfold Phase.At
    rw [if_neg owed]
    exact holds.other kept owed

/-- A statement that changes no mail. -/
theorem Stage.Holds.plain {needs : Set TicketLock} {view₁ : TicketDb} (holds : s.Holds merges owned committed view)
    (kept : Ledger merges committed) (mappings : view₁ .mappings = view .mappings)
    (same : ∀ id, mailIn merges view₁ id = mailIn merges view id) : s.Holds merges (owned ∪ needs) committed view₁ := by
  refine ⟨fun id free => ?_, fun id _ => ?_, fun e member => ?_, fun id owed => .inl (holds.owes id owed)⟩
  · rw [same]
    exact holds.unlocked id fun mine => free (.inl mine)
  · rw [same]
    exact holds.sees kept id
  · obtain ⟨mine, read⟩ := holds.read e member
    rw [mappings]
    exact ⟨.inl mine, read⟩

/-- A statement that writes mappings, and leaves each under its identifier. -/
theorem Stage.Holds.rewrite {needs : Set TicketLock} {view₁ : TicketDb} {p : Phase} (holds : s.Holds merges owned committed view)
    (outside : ∀ id, entryOf id ∉ owned ∪ needs → mailIn merges view₁ id = mailIn merges view id)
    (stays : ∀ (k : Nat) (r : ThreadMapping), (view .mappings)[k]? = some r →
      ∃ r₁ : ThreadMapping, (view₁ .mappings)[k]? = some r₁ ∧ r₁.internetMessageId = r.internetMessageId)
    (sees : ∀ id, p.At merges id (mailIn merges view₁ id)) (written : p ≠ .reading)
    (owes : ∀ id, p.owes = some id → entryOf id ∈ owned ∪ needs) :
    Stage.Holds merges ⟨s.rows, p⟩ (owned ∪ needs) committed view₁ := by
  refine ⟨fun id free => ?_, fun id _ => sees id, fun e member => ?_, owes⟩
  · rw [outside id free]
    exact holds.unlocked id fun mine => free (.inl mine)
  · obtain ⟨mine, r, found, same, -⟩ := holds.read e member
    obtain ⟨r₁, found₁, same₁⟩ := stays e.1 r found
    exact ⟨.inl mine, r₁, found₁, same₁.trans same, fun reading => absurd reading written⟩

section Updates

variable {p : Nat → ThreadMapping → Bool} {set : ThreadMapping → ThreadMapping} {α : Type} {answer : α} {k : Nat}
variable {r : ThreadMapping} {f : Filing}

/-- An UPDATE of mappings. -/
abbrev updatedMappings (db : TicketDb) (p : Nat → ThreadMapping → Bool) (set : ThreadMapping → ThreadMapping) (answer : α) :
    TicketOutcome α := written .mappings ((db .mappings).updated p set) answer

theorem getElem?_updated (k : Nat) : (ticketSchema.applyAll (updatedMappings db p set answer).changes db .mappings)[k]? =
    (db .mappings)[k]?.map fun r => if p k r then set r else r := by
  have table : ticketSchema.applyAll (updatedMappings db p set answer).changes db .mappings =
      Table.putAll ((db .mappings).updated p set) (db .mappings) := applyAll_writes_self ..
  rw [table, Table.getElem?_putAll_updated]

theorem messages_updated : ticketSchema.applyAll (updatedMappings db p set answer).changes db .messages = db .messages :=
  kept_written nofun

theorem id_updated (keeps : ∀ r, (set r).internetMessageId = r.internetMessageId) (k : Nat) (r : ThreadMapping) :
    (if p k r then set r else r).internetMessageId = r.internetMessageId := by
  split
  · exact keeps r
  · rfl

theorem mem_mappings_updated (keeps : ∀ r, (set r).internetMessageId = r.internetMessageId) {e : Nat × Filing} :
    e ∈ (mailIn merges (ticketSchema.applyAll (updatedMappings db p set answer).changes db) id).mappings ↔
      ∃ r : ThreadMapping, (db .mappings)[e.1]? = some r ∧ r.internetMessageId = id ∧
        e.2 = filing merges (if p e.1 r then set r else r) := by
  have kept := id_updated (p := p) keeps e.1
  rw [mem_mappings, getElem?_updated]
  constructor
  · rintro ⟨r₁, found, same, filed⟩
    obtain ⟨r, here, rfl⟩ := Option.map_eq_some_iff.mp found
    exact ⟨r, here, (kept r).symm.trans same, filed⟩
  · rintro ⟨r, found, same, filed⟩
    exact ⟨_, Option.map_eq_some_iff.mpr ⟨r, found, rfl⟩, (kept r).trans same, filed⟩

theorem messages_mailIn_updated : (mailIn merges (ticketSchema.applyAll (updatedMappings db p set answer).changes db) id).messages =
    (mailIn merges db id).messages := by
  unfold mailIn
  rw [messages_updated]

/-- A mail none of whose mappings is changed. -/
theorem mailIn_updated_other (keeps : ∀ r, (set r).internetMessageId = r.internetMessageId)
    (outside : ∀ (k : Nat) (r : ThreadMapping), (db .mappings)[k]? = some r → r.internetMessageId = id → p k r = false) :
    mailIn merges (ticketSchema.applyAll (updatedMappings db p set answer).changes db) id = mailIn merges db id := by
  refine Mail.ext (Set.ext fun e => ?_) messages_mailIn_updated
  rw [mem_mappings_updated keeps, mem_mappings]
  refine exists_congr fun r => and_congr_right fun found => and_congr_right fun same => ?_
  rw [outside e.1 r found same, if_neg Bool.false_ne_true]

/-- The one mapping of a mail is changed. -/
theorem mailIn_updated_single (keeps : ∀ r, (set r).internetMessageId = r.internetMessageId)
    (single : (mailIn merges db id).mappings = {(k, f)}) (found : (db .mappings)[k]? = some r) (same : r.internetMessageId = id)
    (satisfied : p k r = true) :
    mailIn merges (ticketSchema.applyAll (updatedMappings db p set answer).changes db) id =
      ⟨{(k, filing merges (set r))}, (mailIn merges db id).messages⟩ := by
  refine Mail.ext (Set.ext fun e => ?_) messages_mailIn_updated
  rw [mem_mappings_updated keeps, Set.mem_singleton_iff]
  constructor
  · rintro ⟨r₁, found₁, same₁, filed⟩
    have here : (e.1, filing merges r₁) ∈ (mailIn merges db id).mappings := ⟨r₁, found₁, same₁, rfl⟩
    rw [single] at here
    have key : e.1 = k := congrArg Prod.fst here
    rw [key] at found₁ filed
    cases found.symm.trans found₁
    rw [satisfied, if_pos rfl] at filed
    exact Prod.ext key filed
  · rintro rfl
    refine ⟨r, found, same, ?_⟩
    rw [satisfied, if_pos rfl]

/-- A mail stays filed where the changes of its mapping fit. -/
theorem Mail.Filed.updated (keeps : ∀ r, (set r).internetMessageId = r.internetMessageId) (filed : (mailIn merges db id).Filed)
    (fits : ∀ (k : Nat) (r : ThreadMapping), (db .mappings)[k]? = some r → r.internetMessageId = id → p k r = true →
      (filing merges (set r)).Fits (mailIn merges db id).messages) :
    (mailIn merges (ticketSchema.applyAll (updatedMappings db p set answer).changes db) id).Filed := by
  have before {e : Nat × Filing} {r : ThreadMapping} (found : (db .mappings)[e.1]? = some r) (same : r.internetMessageId = id) :
      (e.1, filing merges r) ∈ (mailIn merges db id).mappings := ⟨r, found, same, rfl⟩
  refine ⟨fun e first e₁ second => ?_, ?_, fun some_ => ?_, fun e member => ?_⟩
  · obtain ⟨r, found, same, filing_⟩ := (mem_mappings_updated keeps).mp first
    obtain ⟨r₁, found₁, same₁, filing₁⟩ := (mem_mappings_updated keeps).mp second
    have pair : (e.1, filing merges r) = (e₁.1, filing merges r₁) := filed.mapping (before found same) (before found₁ same₁)
    have key : e.1 = e₁.1 := (Prod.mk.inj pair).1
    rw [← key] at found₁ filing₁
    cases found.symm.trans found₁
    exact Prod.ext key (filing_.trans filing₁.symm)
  · rw [messages_mailIn_updated]
    exact filed.message
  · rw [messages_mailIn_updated] at some_
    obtain ⟨e, r, found, same, -⟩ := filed.known some_
    exact ⟨(e.1, filing merges (if p e.1 r then set r else r)), (mem_mappings_updated keeps).mpr ⟨r, found, same, rfl⟩⟩
  · obtain ⟨r, found, same, filing_⟩ := (mem_mappings_updated keeps).mp member
    rw [messages_mailIn_updated, filing_]
    split
    case isTrue satisfied => exact fits e.1 r found same satisfied
    case isFalse => exact filed.fits _ (before found same)

/-- A mapping that is changed is under the lock of its identifier. -/
theorem entry_mem_updated (keeps : ∀ r, (set r).internetMessageId = r.internetMessageId) (found : (db .mappings)[k]? = some r)
    (satisfied : p k r = true) : entryOf r.internetMessageId ∈ ticketSchema.needs (updatedMappings db p set answer) := by
  have member : (k, some (set r)) ∈ (db .mappings).updated p set := Table.mem_updated.mpr ⟨r, found, satisfied, rfl⟩
  refine Schema.mem_needs (c := ⟨.mappings, k, some (set r)⟩) (List.mem_map_of_mem member) ?_
  refine List.mem_cons_of_mem _ (List.mem_map_of_mem ?_)
  rw [← keeps r]
  exact List.mem_singleton_self _

/-- An UPDATE that leaves the identifiers, at the end of which nothing is owed, or for a mail whose lock it has. -/
theorem Stage.Holds.update {phase : Phase} (holds : s.Holds merges owned committed view)
    (keeps : ∀ r, (set r).internetMessageId = r.internetMessageId)
    (sees : ∀ id, phase.At merges id (mailIn merges (ticketSchema.applyAll (updatedMappings view p set answer).changes view) id))
    (written : phase ≠ .reading)
    (owes : ∀ id, phase.owes = some id → entryOf id ∈ owned ∪ {k | k ∈ ticketSchema.needs (updatedMappings view p set answer)}) :
    Stage.Holds merges ⟨s.rows, phase⟩ (owned ∪ {k | k ∈ ticketSchema.needs (updatedMappings view p set answer)}) committed
      (ticketSchema.applyAll (updatedMappings view p set answer).changes view) := by
  refine holds.rewrite (fun id free => mailIn_updated_other keeps fun k r found same => ?_) (fun k r found => ?_) sees written owes
  · rw [← Bool.not_eq_true]
    intro satisfied
    exact free (.inr (same ▸ entry_mem_updated keeps found satisfied))
  · exact ⟨_, (getElem?_updated k).trans (by rw [found]; rfl), id_updated keeps k r⟩

end Updates

section Inserts

variable {m : NewMapping} {message : NewMessage}

/-- An INSERT of a mapping. -/
abbrev insertedMapping (row : ThreadMapping) (key : Nat) : TicketOutcome (Option Nat) :=
  written .mappings [(key, some row)] (some key)

/-- An INSERT of a message. -/
abbrev insertedMessage (row : TicketMessage) (key : Nat) : TicketOutcome Nat := written .messages [(key, some row)] key

theorem getElem?_of_contains {Row : Type} {table : Table Row} {k : Nat} (absent : table.contains k = false) : table[k]? = none := by
  rw [Std.ExtTreeMap.contains_eq_isSome_getElem?, Option.isSome_eq_false_iff] at absent
  exact Option.isNone_iff_eq_none.mp absent

/-- A mail is inserted once. -/
theorem run_insertMapping {out : TicketOutcome (Option Nat)} (ran : (TicketStmt.insertMapping m).run draw db = some out) :
    out = readOnly none ∨ (mailIn merges db m.internetMessageId).mappings = ∅ ∧ (db .mappings)[draw.id]? = none ∧
      out = insertedMapping (m.row draw.now) draw.id := by
  simp only [TicketStmt.run] at ran
  split at ran
  case isTrue =>
    cases ran
    exact .inl rfl
  case isFalse unknown =>
    obtain ⟨allowed, same⟩ := Option.ite_none_right_eq_some.mp ran
    cases same
    refine .inr ⟨Set.eq_empty_of_forall_notMem ?_, ?_, rfl⟩
    · rintro e ⟨r, found, same, -⟩
      have member : (e.1, r) ∈ (db .mappings).toList := Std.ExtTreeMap.mem_toList_iff_getElem?_eq_some.mpr found
      exact unknown (List.any_eq_true.mpr ⟨(e.1, r), member, decide_eq_true same⟩)
    · exact getElem?_of_contains (by simpa using (Bool.and_eq_true_iff.mp allowed).2)

theorem getElem?_inserted (row : ThreadMapping) (key k : Nat) :
    (ticketSchema.applyAll (insertedMapping row key).changes db .mappings)[k]? =
      if k = key then some row else (db .mappings)[k]? := by
  have table : ticketSchema.applyAll (insertedMapping row key).changes db .mappings =
      Table.putAll [(key, some row)] (db .mappings) := applyAll_writes_self ..
  rw [table, Table.getElem?_putAll_singleton]

theorem messages_inserted (row : ThreadMapping) (key : Nat) :
    ticketSchema.applyAll (insertedMapping row key).changes db .messages = db .messages := kept_written nofun

/-- Nothing is lost under a new key. -/
theorem mailIn_inserted_other {row : ThreadMapping} {key : Nat} (absent : (db .mappings)[key]? = none)
    (other : row.internetMessageId ≠ id) :
    mailIn merges (ticketSchema.applyAll (insertedMapping row key).changes db) id = mailIn merges db id := by
  ext e
  · rw [mem_mappings, mem_mappings, getElem?_inserted]
    split
    case isTrue here =>
      rw [here, absent]
      constructor
      · rintro ⟨r, found, same, -⟩
        cases found
        exact absurd same other
      · rintro ⟨r, found, -⟩
        cases found
    case isFalse => rfl
  · rw [mem_messages, mem_messages, messages_inserted]

theorem mailIn_inserted {row : ThreadMapping} {key : Nat} (here : row.internetMessageId = id)
    (nothing : (mailIn merges db id).mappings = ∅) :
    mailIn merges (ticketSchema.applyAll (insertedMapping row key).changes db) id =
      ⟨{(key, filing merges row)}, (mailIn merges db id).messages⟩ := by
  ext e
  · rw [mem_mappings, getElem?_inserted, Set.mem_singleton_iff]
    constructor
    · rintro ⟨r, found, same, filed⟩
      split at found
      case isTrue new =>
        cases found
        exact Prod.ext new filed
      case isFalse =>
        have old : (e.1, filing merges r) ∈ (mailIn merges db id).mappings := ⟨r, found, same, rfl⟩
        rw [nothing] at old
        cases old
    · rintro rfl
      exact ⟨row, if_pos rfl, here, rfl⟩
  · rw [mem_messages, messages_inserted]
    rfl

theorem run_insertMessage {out : TicketOutcome Nat} (ran : (TicketStmt.insertMessage message).run draw db = some out) :
    (db .messages)[draw.id]? = none ∧ out = insertedMessage (message.row draw.now) draw.id := by
  obtain ⟨allowed, same⟩ := Option.ite_none_right_eq_some.mp ran
  cases same
  exact ⟨getElem?_of_contains (by simpa using (Bool.and_eq_true_iff.mp allowed).2), rfl⟩

theorem getElem?_appended (row : TicketMessage) (key k : Nat) :
    (ticketSchema.applyAll (insertedMessage row key).changes db .messages)[k]? =
      if k = key then some row else (db .messages)[k]? := by
  have table : ticketSchema.applyAll (insertedMessage row key).changes db .messages =
      Table.putAll [(key, some row)] (db .messages) := applyAll_writes_self ..
  rw [table, Table.getElem?_putAll_singleton]

theorem mappings_appended (row : TicketMessage) (key : Nat) :
    ticketSchema.applyAll (insertedMessage row key).changes db .mappings = db .mappings := kept_written nofun

theorem mailIn_appended_other {row : TicketMessage} {key : Nat} (absent : (db .messages)[key]? = none)
    (other : row.fromMail ≠ some id) :
    mailIn merges (ticketSchema.applyAll (insertedMessage row key).changes db) id = mailIn merges db id := by
  ext e
  · rw [mem_mappings, mem_mappings, mappings_appended]
  · rw [mem_messages, mem_messages, getElem?_appended]
    split
    case isTrue here =>
      rw [here, absent]
      constructor
      · rintro ⟨r, found, same, -⟩
        cases found
        exact absurd same other
      · rintro ⟨r, found, -⟩
        cases found
    case isFalse => rfl

theorem mailIn_appended {row : TicketMessage} {key : Nat} (from_ : row.fromMail = some id)
    (nothing : (mailIn merges db id).messages = ∅) :
    mailIn merges (ticketSchema.applyAll (insertedMessage row key).changes db) id =
      ⟨(mailIn merges db id).mappings, {(key, place merges row.ticketId)}⟩ := by
  ext e
  · rw [mem_mappings, mappings_appended]
    rfl
  · rw [mem_messages, getElem?_appended, Set.mem_singleton_iff]
    constructor
    · rintro ⟨r, found, same, told⟩
      split at found
      case isTrue here =>
        cases found
        exact Prod.ext here told
      case isFalse =>
        have old : (e.1, place merges r.ticketId) ∈ (mailIn merges db id).messages := ⟨r, found, same, rfl⟩
        rw [nothing] at old
        cases old
    · rintro rfl
      exact ⟨row, if_pos rfl, from_, rfl⟩

end Inserts

end Opale.EmailBridge.Mailroom
