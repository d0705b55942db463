import Opale.EmailBridge.Filed

namespace Opale.EmailBridge.Mailroom

open Js Sql Tickets

variable {merges : Bool} {db committed view : TicketDb} {owned : Set TicketLock} {s : Stage} {id : String} {draw : TicketDraw}

/-- What a statement makes of the state of its transaction. -/
def Steps (merges : Bool) (s : Stage) (q : TicketStmt) : Prop :=
  ∀ {owned : Set TicketLock} {committed view : TicketDb} {draw : TicketDraw} {out : TicketOutcome q.Ans},
    s.Holds merges owned committed view → Ledger merges committed → q.run draw view = some out →
      (s.next q out.answer).Holds merges (owned ∪ {k | k ∈ ticketSchema.needs out}) committed (ticketSchema.applyAll out.changes view)

theorem Mail.Filed.unfiled {m : Mail} (filed : m.Filed) (nothing : m.mappings = ∅) : m.messages = ∅ := by
  refine Set.not_nonempty_iff_eq_empty.mp fun some_ => ?_
  obtain ⟨e, member⟩ := filed.known some_
  rw [nothing] at member
  exact member

theorem Phase.sees {p : Phase} {mail : String → Mail} (owes : p.owes = some id) (owed : p.Owed merges (mail id))
    (others : ∀ other, other ≠ id → (mail other).Filed) (other : String) : p.At merges other (mail other) := by
  unfold Phase.At
  by_cases same : other = id
  · subst same
    rw [if_pos owes]
    exact owed
  · rw [owes, if_neg fun here => same (Option.some.inj here).symm]
    exact others other same

theorem Stage.Holds.mono {more : Set TicketLock} (holds : s.Holds merges owned committed view) (kept : Ledger merges committed) :
    s.Holds merges (owned ∪ more) committed view := holds.plain kept rfl fun _ => rfl

/-- A mail is locked with its new mapping. -/
theorem entry_mem_inserted (row : ThreadMapping) (key : Nat) :
    entryOf row.internetMessageId ∈ ticketSchema.needs (insertedMapping row key) := by
  refine Schema.mem_needs (c := ⟨.mappings, key, some row⟩) List.mem_cons_self ?_
  exact List.mem_cons_of_mem _ (List.mem_map_of_mem (List.mem_singleton_self _))

theorem Phase.created_owes (m : NewMapping) (key : Nat) : (Phase.created m key).owes = some m.internetMessageId := by
  unfold Phase.created
  split <;> rfl

/-- What a new mapping owes. -/
theorem Phase.created_owed {m : NewMapping} (key : Nat) (now : Int)
    (kind : m.action = none ∧ m.ticketId = none ∨ m.action = some .message_appended ∧ m.ticketId ≠ none) :
    (Phase.created m key).Owed merges ⟨{(key, filing merges (m.row now))}, ∅⟩ := by
  unfold Phase.created
  obtain ⟨action, ticket⟩ | ⟨action, ticket⟩ := kind
  · have filed : filing merges (m.row now) = ⟨none, none, none⟩ := by
      unfold filing NewMapping.row
      rw [action, ticket]
      rfl
    rw [ticket, filed]
    rfl
  · obtain ⟨ticketId, given_⟩ := Option.ne_none_iff_exists'.mp ticket
    rw [given_]
    refine ⟨_, rfl, action, ?_⟩
    unfold filing NewMapping.row
    rw [given_]
    rfl

theorem steps_insertMapping {m : NewMapping} (allowed : s.Allowed merges (.insertMapping m)) : Steps merges s (.insertMapping m) := by
  intro owned committed view draw out holds kept ran
  obtain ⟨free, kind⟩ := allowed
  obtain rfl | ⟨nothing, absent, rfl⟩ := run_insertMapping ran
  · exact holds.mono kept
  · have filed := holds.filed kept free
    have mine := entry_mem_inserted (m.row draw.now) draw.id
    have others {id : String} (apart : id ≠ m.internetMessageId) :
        mailIn merges (ticketSchema.applyAll (insertedMapping (m.row draw.now) draw.id).changes view) id = mailIn merges view id :=
      mailIn_inserted_other absent (Ne.symm apart)
    have here : mailIn merges (ticketSchema.applyAll (insertedMapping (m.row draw.now) draw.id).changes view) m.internetMessageId =
        ⟨{(draw.id, filing merges (m.row draw.now))}, ∅⟩ := by
      rw [← (filed m.internetMessageId).unfiled nothing]
      exact mailIn_inserted rfl nothing
    refine holds.rewrite (fun id free => others fun same => free (.inr (same ▸ mine))) (fun k r found => ?_)
      (Phase.sees (Phase.created_owes m draw.id) ?_ fun id apart => ?_) ?_ fun id owed => ?_
    · rw [getElem?_inserted]
      split
      case isTrue same =>
        rw [same, absent] at found
        cases found
      case isFalse => exact ⟨r, found, rfl⟩
    · rw [here]
      exact Phase.created_owed draw.id draw.now kind
    · rw [others apart]
      exact filed id
    · unfold Phase.created
      split <;> nofun
    · rw [Phase.created_owes] at owed
      cases owed
      exact .inr mine

theorem Mail.Filed.single {e : Nat × Filing} {messages : Set (Nat × Nat)} (message : messages.Subsingleton)
    (fits : e.2.Fits messages) : Mail.Filed ⟨{e}, messages⟩ where
  mapping := Set.subsingleton_singleton
  message := message
  known _ := Set.singleton_nonempty e
  fits e₁ member := by
    rw [Set.mem_singleton_iff] at member
    rw [member]
    exact fits

/-- A message completes a mail that is in a ticket. -/
theorem Mail.Filed.complete {e : Nat × Filing} {ticket : Nat} (key : Nat) (action : e.2.action = some .message_appended)
    (there : e.2.ticket = some ticket) : Mail.Filed ⟨{e}, {(key, ticket)}⟩ := by
  refine .single Set.subsingleton_singleton ?_
  unfold Filing.Fits
  rw [if_pos action]
  exact ⟨_, rfl, ticket, there, fun _ => rfl⟩

theorem Phase.settles {mail : String → Mail} (filed : ∀ id, (mail id).Filed) (id : String) :
    Phase.settled.At merges id (mail id) := filed id

theorem Phase.Expects.owes {p : Phase} {ticketId : Nat} (due : p.Expects id ticketId) : p.owes = some id := by
  cases p with
  | reading | settled | delivered => exact due.elim
  | ingested mappingId id₁ => exact congrArg some due
  | linked id₁ ticketId₁ => exact congrArg some due.1

theorem Stage.Holds.same {id₁ : String} (holds : s.Holds merges owned committed view) (read : s.Same id₁ id) : id₁ = id := by
  obtain rfl | ⟨mappingId, r₁, r, first, second, rfl, rfl⟩ := read
  · rfl
  · obtain ⟨-, row₁, found₁, same₁, -⟩ := holds.read _ first
    obtain ⟨-, row, found, same, -⟩ := holds.read _ second
    cases found₁.symm.trans found
    exact same₁.symm.trans same

theorem steps_insertMessage {m : NewMessage} (allowed : s.Allowed merges (.insertMessage m)) : Steps merges s (.insertMessage m) := by
  intro owned committed view draw out holds kept ran
  obtain ⟨absent, rfl⟩ := run_insertMessage ran
  have table : ticketSchema.applyAll (insertedMessage (m.row draw.now) draw.id).changes view .mappings = view .mappings :=
    mappings_appended ..
  have others {id : String} (apart : m.fromMail ≠ some id) :
      mailIn merges (ticketSchema.applyAll (insertedMessage (m.row draw.now) draw.id).changes view) id = mailIn merges view id :=
    mailIn_appended_other absent apart
  cases from_ : m.fromMail with
  | none =>
    have same (key : Nat) : s.next (.insertMessage m) key = s := by
      simp only [Stage.next, from_, Option.isSome_none, Bool.false_eq_true, if_false]
    rw [same]
    refine holds.plain kept table fun id => others ?_
    rw [from_]
    exact nofun
  | some id =>
    have next (key : Nat) : s.next (.insertMessage m) key = ⟨s.rows, s.phase.sent m.ticketId⟩ := by
      simp only [Stage.next, from_, Option.isSome_some, if_true]
    obtain ⟨id₁, read, due⟩ := allowed id from_
    obtain rfl := (holds.same read).symm
    have mine := holds.owes id due.owes
    have apart {other : String} (differ : other ≠ id) : m.fromMail ≠ some other := by
      rw [from_]
      exact fun same => differ (Option.some.inj same).symm
    have filed (other : String) (differ : other ≠ id) :
        (mailIn merges (ticketSchema.applyAll (insertedMessage (m.row draw.now) draw.id).changes view) other).Filed := by
      rw [others (apart differ)]
      refine holds.other kept ?_
      rw [due.owes]
      exact fun same => differ (Option.some.inj same).symm
    have owed := holds.locked id mine
    unfold Phase.At at owed
    rw [if_pos due.owes] at owed
    have here (nothing : (mailIn merges view id).messages = ∅) :
        mailIn merges (ticketSchema.applyAll (insertedMessage (m.row draw.now) draw.id).changes view) id =
          ⟨(mailIn merges view id).mappings, {(draw.id, place merges m.ticketId)}⟩ := mailIn_appended from_ nothing
    have outside (other : String)
        (free : entryOf other ∉ owned ∪ {k | k ∈ ticketSchema.needs (insertedMessage (m.row draw.now) draw.id)}) :
        mailIn merges (ticketSchema.applyAll (insertedMessage (m.row draw.now) draw.id).changes view) other =
          mailIn merges view other := others (apart fun same => free (.inl (same ▸ mine)))
    have stays (k : Nat) (r : ThreadMapping) (found : (view .mappings)[k]? = some r) : ∃ r₁ : ThreadMapping,
        (ticketSchema.applyAll (insertedMessage (m.row draw.now) draw.id).changes view .mappings)[k]? = some r₁ ∧
          r₁.internetMessageId = r.internetMessageId := by
      rw [table]
      exact ⟨r, found, rfl⟩
    rw [next]
    obtain ⟨rows, phase⟩ := s
    cases phase with
    | reading | settled | delivered => exact due.elim
    | ingested mappingId id₁ =>
      obtain rfl : id₁ = id := due
      obtain owed : mailIn merges view id₁ = _ := owed
      have new := here (by rw [owed])
      rw [owed] at new
      exact holds.rewrite outside stays (Phase.sees rfl ⟨draw.id, new⟩ filed) nofun fun other owes => .inl (holds.owes other owes)
    | linked id₁ ticketId₁ =>
      obtain ⟨rfl, rfl⟩ : id₁ = id ∧ ticketId₁ = m.ticketId := due
      obtain ⟨e, owed, action, ticket⟩ := owed
      have new := here (by rw [owed])
      rw [owed] at new
      refine holds.rewrite outside stays (Phase.settles fun other => ?_) nofun nofun
      by_cases same : other = id₁
      · rw [same, new]
        exact .complete draw.id action ticket
      · exact filed other same

/-- A locked mapping is that of the mail it was read from. -/
theorem Stage.Holds.row {mappingId : Nat} {row : ThreadMapping} (holds : s.Holds merges owned committed view)
    (read : (mappingId, row) ∈ s.rows) : ∃ e, s.rows.find? (fun e => e.1 = mappingId) = some e ∧
      ∃ r : ThreadMapping, (view .mappings)[mappingId]? = some r ∧ r.internetMessageId = e.2.internetMessageId := by
  cases first : s.rows.find? fun e => e.1 = mappingId with
  | none => exact absurd (decide_eq_true rfl) (List.find?_eq_none.mp first _ read)
  | some e =>
    obtain ⟨-, r, found, same, -⟩ := holds.read e (List.mem_of_find?_eq_some first)
    have key : e.1 = mappingId := by simpa using List.find?_some first
    rw [key] at found
    exact ⟨e, rfl, r, found, same⟩

/-- A mail that is filed under no ticket has one mapping and no message. -/
theorem Mail.Filed.alone {r : ThreadMapping} {mappingId : Nat} (filed : (mailIn merges db r.internetMessageId).Filed)
    (found : (db .mappings)[mappingId]? = some r) (free : r.ticketId = none) :
    mailIn merges db r.internetMessageId = ⟨{(mappingId, filing merges r)}, ∅⟩ := by
  have here : (mappingId, filing merges r) ∈ (mailIn merges db r.internetMessageId).mappings := ⟨r, found, rfl, rfl⟩
  have fits : (filing merges r).Fits (mailIn merges db r.internetMessageId).messages := filed.fits _ here
  refine Mail.ext (Set.eq_singleton_iff_unique_mem.mpr ⟨here, fun e member => filed.mapping member here⟩) ?_
  unfold Filing.Fits at fits
  split at fits
  · obtain ⟨_, -, ticket, there, -⟩ := fits
    have nowhere : (filing merges r).ticket = none := by
      unfold filing
      rw [free]
      rfl
    cases nowhere.symm.trans there
  · exact fits.1

def linkedTo (ticketId : Nat) (r : ThreadMapping) : ThreadMapping :=
  { r with ticketId := some ticketId, action := some .message_appended, errorMessage := none }

/-- An UPDATE that finds no row. -/
theorem updated_nothing {Row : Type} {table : Table Row} {p : Nat → Row → Bool} {set : Row → Row}
    (outside : ∀ (k : Nat) (r : Row), table[k]? = some r → p k r = false) : table.updated p set = [] := by
  refine List.eq_nil_iff_forall_not_mem.mpr fun ⟨k, row⟩ member => ?_
  obtain ⟨r, found, satisfied, -⟩ := Table.mem_updated.mp member
  cases (outside k r found).symm.trans satisfied

def linkable (mappingId key : Nat) (r : ThreadMapping) : Bool := key = mappingId && r.ticketId = none

theorem linkable_self {mappingId : Nat} {r : ThreadMapping} (unlinked : r.ticketId = none) : linkable mappingId mappingId r = true := by
  unfold linkable
  rw [unlinked, decide_eq_true rfl, decide_eq_true rfl]
  rfl

/-- Where the mapping is in a ticket already the statement does nothing. -/
theorem run_linkMapping {mappingId ticketId : Nat} {r : ThreadMapping} {out : TicketOutcome Bool}
    (ran : (TicketStmt.linkMapping mappingId ticketId).run draw db = some out) (found : (db .mappings)[mappingId]? = some r) :
    (r.ticketId ≠ none ∧ out = written .mappings [] false) ∨ r.ticketId = none ∧
      out = updatedMappings db (linkable mappingId) (linkedTo ticketId) true := by
  obtain ⟨-, ran⟩ := Option.ite_none_right_eq_some.mp ran
  cases already : r.ticketId with
  | some other =>
    refine .inl ⟨nofun, ?_⟩
    have nothing : (db .mappings).updated (linkable mappingId) (linkedTo ticketId) = [] := by
      refine updated_nothing fun k r₁ found₁ => ?_
      unfold linkable
      by_cases here : k = mappingId
      · subst here
        cases found.symm.trans found₁
        rw [already]
        exact Bool.and_false _
      · rw [decide_eq_false here]
        rfl
    unfold linkable linkedTo at nothing
    rw [nothing] at ran
    exact (Option.some.inj ran).symm
  | none =>
    refine .inr ⟨rfl, ?_⟩
    have something : ((db .mappings).updated (linkable mappingId) (linkedTo ticketId)).isEmpty = false :=
      List.isEmpty_eq_false_iff_exists_mem.mpr ⟨_, Table.mem_updated.mpr ⟨r, found, linkable_self already, rfl⟩⟩
    unfold linkable linkedTo at something
    rw [something] at ran
    exact (Option.some.inj ran).symm

theorem steps_linkMapping {mappingId ticketId : Nat} (allowed : s.Allowed merges (.linkMapping mappingId ticketId)) :
    Steps merges s (.linkMapping mappingId ticketId) := by
  intro owned committed view draw out holds kept ran
  obtain ⟨free, row, read⟩ := allowed
  obtain ⟨e, first, r, found, same⟩ := holds.row read
  obtain ⟨-, rfl⟩ | ⟨unlinked, rfl⟩ := run_linkMapping ran found
  · exact holds.mono kept
  · have filed := holds.filed kept free
    have alone := (filed r.internetMessageId).alone found unlinked
    have satisfied : linkable mappingId mappingId r = true := linkable_self unlinked
    have next : s.next (.linkMapping mappingId ticketId) true = ⟨s.rows, .linked r.internetMessageId ticketId⟩ := by
      simp only [Stage.next, first, same]
    have keeps (r : ThreadMapping) : (linkedTo ticketId r).internetMessageId = r.internetMessageId := rfl
    change (s.next (.linkMapping mappingId ticketId) true).Holds ..
    rw [next]
    refine holds.update keeps (Phase.sees rfl ?_ fun id apart => ?_) nofun fun id owes => ?_
    · refine ⟨(mappingId, filing merges (linkedTo ticketId r)), ?_, rfl, rfl⟩
      refine (mailIn_updated_single keeps (congrArg Mail.mappings alone) found rfl satisfied).trans ?_
      rw [alone]
    · refine (filed id).updated keeps fun k r₁ found₁ same₁ satisfied₁ => ?_
      have key : k = mappingId := of_decide_eq_true (Bool.and_eq_true_iff.mp satisfied₁).1
      rw [key] at found₁
      cases found.symm.trans found₁
      exact absurd same₁.symm apart
    · cases owes
      exact .inr (entry_mem_updated keeps found satisfied)

/-- An UPDATE after which every mail is filed. -/
theorem Stage.Holds.settle {p : Nat → ThreadMapping → Bool} {set : ThreadMapping → ThreadMapping}
    (holds : s.Holds merges owned committed view) (keeps : ∀ r, (set r).internetMessageId = r.internetMessageId)
    (filed : ∀ id, (mailIn merges (ticketSchema.applyAll (updatedMappings view p set ()).changes view) id).Filed) :
    Stage.Holds merges ⟨s.rows, .settled⟩ (owned ∪ {k | k ∈ ticketSchema.needs (updatedMappings view p set ())}) committed
      (ticketSchema.applyAll (updatedMappings view p set ()).changes view) :=
  holds.update keeps (Phase.settles filed) nofun nofun

def finished (ticketId proposalId : Option Nat) (action : MailAction) (errorMessage : Option String) (r : ThreadMapping) :
    ThreadMapping :=
  { r with ticketId := ticketId, proposalId := proposalId, action := some action, errorMessage := errorMessage }

/-- A new mapping is the only one of its mail, and as it is finished it fits the messages. -/
theorem Phase.Finishes.fits {phase : Phase} {mappingId : Nat} {ticketId proposalId : Option Nat} {action : MailAction} {m : Mail}
    (finishes : phase.Finishes mappingId ticketId proposalId action) (owed : phase.Owed merges m) :
    m.mappings = {(mappingId, ⟨none, none, none⟩)} ∧ m.messages.Subsingleton ∧
      Filing.Fits ⟨some action, ticketId.map (place merges), proposalId⟩ m.messages := by
  cases phase with
  | reading | settled | linked => exact finishes.elim
  | ingested key id =>
    obtain ⟨rfl, other, place⟩ := finishes
    cases owed
    refine ⟨rfl, Set.subsingleton_empty, ?_⟩
    unfold Filing.Fits
    rw [if_neg fun same => other (Option.some.inj same)]
    refine ⟨rfl, fun direct => ?_⟩
    obtain ⟨nowhere, action⟩ := place direct
    rw [nowhere]
    exact ⟨rfl, action.imp (congrArg some) (congrArg some)⟩
  | delivered key id there =>
    obtain ⟨rfl, rfl, rfl⟩ := finishes
    obtain ⟨message, rfl⟩ := owed
    exact ⟨rfl, Set.subsingleton_singleton, ⟨_, rfl, _, rfl, fun _ => rfl⟩⟩

theorem Phase.Finishes.owes {phase : Phase} {mappingId : Nat} {ticketId proposalId : Option Nat} {action : MailAction}
    (finishes : phase.Finishes mappingId ticketId proposalId action) : ∃ id, phase.owes = some id := by
  cases phase with
  | reading | settled | linked => exact finishes.elim
  | ingested key id | delivered key id there => exact ⟨id, rfl⟩

theorem run_finishMapping {mappingId : Nat} {ticketId proposalId : Option Nat} {action : MailAction} {errorMessage : Option String}
    {out : TicketOutcome Unit}
    (ran : (TicketStmt.finishMapping mappingId ticketId proposalId action errorMessage).run draw db = some out) :
    out = updatedMappings db (fun key _ => key = mappingId) (finished ticketId proposalId action errorMessage) () := by
  obtain ⟨-, ran⟩ := Option.ite_none_right_eq_some.mp ran
  exact (Option.some.inj ran).symm

theorem steps_finishMapping {mappingId : Nat} {ticketId proposalId : Option Nat} {action : MailAction} {errorMessage : Option String}
    (allowed : s.Allowed merges (.finishMapping mappingId ticketId proposalId action errorMessage)) :
    Steps merges s (.finishMapping mappingId ticketId proposalId action errorMessage) := by
  intro owned committed view draw out holds kept ran
  have finishes : s.phase.Finishes mappingId ticketId proposalId action := allowed
  obtain rfl := run_finishMapping ran
  obtain ⟨id, owes⟩ := finishes.owes
  have owed := holds.locked id (holds.owes id owes)
  unfold Phase.At at owed
  rw [if_pos owes] at owed
  obtain ⟨single, message, fits⟩ := finishes.fits owed
  obtain ⟨r, found, same, -⟩ : (mappingId, ⟨none, none, none⟩) ∈ (mailIn merges view id).mappings := by
    rw [single]
    exact Set.mem_singleton _
  have keeps (r : ThreadMapping) : (finished ticketId proposalId action errorMessage r).internetMessageId = r.internetMessageId := rfl
  refine holds.settle keeps fun other => ?_
  by_cases here : other = id
  · rw [here, mailIn_updated_single keeps single found same (decide_eq_true rfl)]
    exact .single message fits
  · have apart (k : Nat) (r₁ : ThreadMapping) (found₁ : (view .mappings)[k]? = some r₁)
        (same₁ : r₁.internetMessageId = other) : decide (k = mappingId) = false := by
      refine decide_eq_false fun key => here ?_
      rw [key] at found₁
      cases found.symm.trans found₁
      exact same₁.symm.trans same
    rw [mailIn_updated_other keeps apart]
    refine holds.other kept ?_
    rw [owes]
    exact fun same => here (Option.some.inj same).symm

def dismissed (r : ThreadMapping) : ThreadMapping := { r with action := some .skipped_other }

theorem steps_dismissMappings {ids : List Nat} (allowed : s.Allowed merges (.dismissMappings ids)) :
    Steps merges s (.dismissMappings ids) := by
  intro owned committed view draw out holds kept ran
  obtain ⟨reading, locked⟩ := allowed
  cases ran
  have keeps (r : ThreadMapping) : (dismissed r).internetMessageId = r.internetMessageId := rfl
  refine holds.settle keeps fun id => ?_
  have filed := holds.filed kept (.inl reading) id
  refine filed.updated keeps fun k r found same satisfied => ?_
  obtain ⟨row, read, pending⟩ := locked k (List.contains_iff_mem.mp satisfied)
  obtain ⟨-, r₁, found₁, -, untouched⟩ := holds.read _ read
  cases found.symm.trans found₁
  obtain rfl : r = row := untouched reading
  have fits : (filing merges r).Fits (mailIn merges view id).messages := filed.fits (k, filing merges r) ⟨r, found, same, rfl⟩
  have waits : (filing merges r).action = some .pending_review := pending
  unfold Filing.Fits at fits ⊢
  rw [waits, if_neg nofun] at fits
  rw [if_neg nofun]
  exact ⟨fits.1, fun direct => ⟨(fits.2 direct).1, .inr rfl⟩⟩

theorem steps_repointProposalMappings {proposalId ticketId : Nat}
    (allowed : s.Allowed merges (.repointProposalMappings proposalId ticketId)) :
    Steps merges s (.repointProposalMappings proposalId ticketId) := by
  intro owned committed view draw out holds kept ran
  have free : s.phase.Free := allowed
  obtain ⟨-, ran⟩ := Option.ite_none_right_eq_some.mp ran
  cases ran
  have keeps (r : ThreadMapping) : ({ r with ticketId := some ticketId } : ThreadMapping).internetMessageId = r.internetMessageId := rfl
  refine holds.settle keeps fun id => ?_
  have filed := holds.filed kept free id
  -- replies to a proposal: nothing is said of their tickets
  refine filed.updated keeps fun k r found same satisfied => ?_
  have fits : (filing merges r).Fits (mailIn merges view id).messages := filed.fits (k, filing merges r) ⟨r, found, same, rfl⟩
  have reply : r.proposalId = some proposalId := of_decide_eq_true satisfied
  unfold Filing.Fits filing at fits ⊢
  rw [reply] at fits ⊢
  split
  case isTrue delivered =>
    rw [if_pos delivered] at fits
    obtain ⟨e, member, -⟩ := fits
    exact ⟨e, member, _, rfl, nofun⟩
  case isFalse other =>
    rw [if_neg other] at fits
    exact ⟨fits.1, nofun⟩

/-- Where tickets are merged, one is as good as another. -/
theorem steps_repointMappings {source target : Nat} (allowed : s.Allowed merges (.repointMappings source target)) :
    Steps merges s (.repointMappings source target) := by
  intro owned committed view draw out holds kept ran
  obtain ⟨free, rfl⟩ : s.phase.Free ∧ merges = true := allowed
  obtain ⟨-, ran⟩ := Option.ite_none_right_eq_some.mp ran
  cases ran
  have keeps (r : ThreadMapping) : ({ r with ticketId := some target } : ThreadMapping).internetMessageId = r.internetMessageId := rfl
  refine holds.settle keeps fun id => ?_
  have filed := holds.filed kept free id
  refine filed.updated keeps fun k r found same satisfied => ?_
  have fits : (filing true r).Fits (mailIn true view id).messages := filed.fits (k, filing true r) ⟨r, found, same, rfl⟩
  have there : r.ticketId = some source := of_decide_eq_true satisfied
  have unchanged : filing true { r with ticketId := some target } = filing true r := by
    unfold filing
    rw [there]
    rfl
  rw [unchanged]
  exact fits

/-- Messages that are moved are still from their mails. -/
theorem mailIn_moved (db : TicketDb) (source target : Nat) (id : String) :
    mailIn true (ticketSchema.applyAll (written .messages ((db .messages).updated (fun _ m => m.ticketId = source) fun m =>
      { m with ticketId := target }) ()).changes db) id = mailIn true db id := by
  have keeps (m : TicketMessage) : (if m.ticketId = source then { m with ticketId := target } else m).fromMail = m.fromMail := by
    split <;> rfl
  ext e
  · rw [mem_mappings, mem_mappings]
    refine exists_congr fun r => and_congr_left fun _ => ?_
    have table := @kept_written db .mappings .messages _ ((db .messages).updated (fun _ m => m.ticketId = source) fun m =>
      { m with ticketId := target }) () nofun
    rw [table]
  · have table : ticketSchema.applyAll (written .messages ((db .messages).updated (fun _ m => m.ticketId = source) fun m =>
        { m with ticketId := target }) ()).changes db .messages = Table.putAll _ (db .messages) := applyAll_writes_self ..
    rw [mem_messages, mem_messages, table, Table.getElem?_putAll_updated]
    simp only [decide_eq_true_eq]
    constructor
    · rintro ⟨m₁, found, from_, there⟩
      obtain ⟨m, here, rfl⟩ := Option.map_eq_some_iff.mp found
      exact ⟨m, here, (keeps m).symm.trans from_, there⟩
    · rintro ⟨m, found, from_, there⟩
      exact ⟨_, Option.map_eq_some_iff.mpr ⟨m, found, rfl⟩, (keeps m).trans from_, there⟩

theorem steps_repointMessages {source target : Nat} (allowed : s.Allowed merges (.repointMessages source target)) :
    Steps merges s (.repointMessages source target) := by
  intro owned committed view draw out holds kept ran
  have table : ticketSchema.applyAll out.changes view .mappings = view .mappings := kept_run ran nofun
  obtain ⟨free, rfl⟩ : s.phase.Free ∧ merges = true := allowed
  obtain ⟨-, ran⟩ := Option.ite_none_right_eq_some.mp ran
  cases ran
  have same (id : String) := mailIn_moved view source target id
  refine holds.rewrite (fun id _ => same id) (fun k r found => ⟨r, ?_, rfl⟩) (Phase.settles fun id => ?_) nofun nofun
  · rw [table]
    exact found
  · rw [same]
    exact holds.filed kept free id

/-- A statement that writes neither mappings nor messages. -/
theorem steps_plain {q : TicketStmt} (mappings : ¬q.Writes .mappings) (messages : ¬q.Writes .messages)
    (next : ∀ answer, s.next q answer = s) : Steps merges s q := by
  intro owned committed view draw out holds kept ran
  rw [next]
  exact holds.plain kept (kept_run ran mappings) fun id => mailIn_congr (kept_run ran mappings) (kept_run ran messages)

/-- Mappings that are read under their locks. -/
theorem Stage.Holds.reads {needs : Set TicketLock} (holds : s.Holds merges owned committed view) (found : List (Nat × ThreadMapping))
    (kept : Ledger merges committed)
    (here : ∀ e ∈ found, .row .mappings e.1 ∈ needs ∧ (view .mappings)[e.1]? = some e.2) :
    Stage.Holds merges ⟨found ++ s.rows, s.phase⟩ (owned ∪ needs) committed view := by
  obtain ⟨unlocked, locked, read, owes⟩ : s.Holds merges (owned ∪ needs) committed view := holds.mono kept
  refine ⟨unlocked, locked, fun e member => ?_, owes⟩
  rcases List.mem_append.mp member with new | old
  · obtain ⟨mine, r⟩ := here e new
    exact ⟨.inr mine, e.2, r, rfl, fun _ => rfl⟩
  · exact read e old

theorem steps_mappingForUpdate {mappingId : Nat} : Steps merges s (.mappingForUpdate mappingId) := by
  intro owned committed view draw out holds kept ran
  cases ran
  cases found : (view .mappings)[mappingId]? with
  | none => exact holds.mono kept
  | some row =>
    have present : (view .mappings).contains mappingId = true := by
      rw [Std.ExtTreeMap.contains_eq_isSome_getElem?, found]
      rfl
    refine holds.reads [(mappingId, row)] kept fun e member => ?_
    obtain rfl := List.mem_singleton.mp member
    refine ⟨List.mem_append_left _ ?_, found⟩
    rw [present]
    exact List.mem_map_of_mem (List.mem_singleton_self _)

theorem steps_threadSiblings {q : SiblingQuery} {forUpdate : Bool} : Steps merges s (.threadSiblings q forUpdate) := by
  intro owned committed view draw out holds kept ran
  obtain ⟨sorted, order, ran⟩ := Option.bind_eq_some_iff.mp ran
  cases ran
  cases forUpdate with
  | false => exact holds.mono kept
  | true =>
    refine holds.reads sorted kept fun e member => ?_
    obtain ⟨here, -⟩ := Table.mem_select.mp (Table.mem_orderBy order member)
    exact ⟨List.mem_append_left _ (List.mem_map_of_mem (List.mem_map_of_mem member)), here⟩

theorem steps {q : TicketStmt} (allowed : s.Allowed merges q) : Steps merges s q := by
  cases q with
  | insertMapping => exact steps_insertMapping allowed
  | insertMessage => exact steps_insertMessage allowed
  | linkMapping => exact steps_linkMapping allowed
  | finishMapping => exact steps_finishMapping allowed
  | dismissMappings => exact steps_dismissMappings allowed
  | repointMessages => exact steps_repointMessages allowed
  | repointMappings => exact steps_repointMappings allowed
  | repointProposalMappings => exact steps_repointProposalMappings allowed
  | mappingForUpdate => exact steps_mappingForUpdate
  | threadSiblings => exact steps_threadSiblings
  | deleteTicket => exact allowed.elim
  | _ => exact steps_plain (by simp [TicketStmt.Writes]) (by simp [TicketStmt.Writes]) fun _ => rfl

theorem allowed_elsewhere {q : TicketStmt} (elsewhere : Elsewhere merges q) (free : s.phase.Free) : s.Allowed merges q := by
  cases q with
  | insertMapping | finishMapping | linkMapping | dismissMappings | deleteTicket => exact elsewhere.elim
  | insertMessage m =>
    intro id from_
    cases from_.symm.trans elsewhere
  | repointMessages | repointMappings => exact ⟨free, elsewhere⟩
  | repointProposalMappings => exact free
  | _ => trivial

/-- Other statements leave a transaction that owes nothing so, with what it has read. -/
theorem next_elsewhere {q : TicketStmt} (elsewhere : Elsewhere merges q) (free : s.phase.Free) (answer : q.Ans) :
    (s.next q answer).phase.Free ∧ s.rows ⊆ (s.next q answer).rows := by
  cases q with
  | insertMapping | finishMapping | linkMapping | dismissMappings | deleteTicket => exact elsewhere.elim
  | insertMessage m =>
    have none_ : m.fromMail = none := elsewhere
    simp only [Stage.next, none_]
    exact ⟨free, List.Subset.refl _⟩
  | repointMessages | repointMappings | repointProposalMappings => exact ⟨.inr rfl, List.Subset.refl _⟩
  | mappingForUpdate =>
    cases answer with
    | none => exact ⟨free, List.Subset.refl _⟩
    | some row => exact ⟨free, List.subset_cons_self ..⟩
  | threadSiblings q forUpdate =>
    cases forUpdate with
    | false => exact ⟨free, List.Subset.refl _⟩
    | true => exact ⟨free, List.subset_append_right ..⟩
  | _ => exact ⟨free, List.Subset.refl _⟩

theorem holds_start (db : TicketDb) : Stage.Holds merges ⟨[], .reading⟩ ∅ db db where
  unlocked _ _ := rfl
  locked _ mine := absurd mine (Set.notMem_empty _)
  read _ member := absurd member List.not_mem_nil
  owes _ owed := nomatch owed

/-- A transaction that owes nothing leaves every mail filed, and the mails that it has not locked as they were. -/
theorem Stage.Holds.commit (holds : s.Holds merges owned committed view) (kept : Ledger merges committed) (free : s.phase.Free) :
    Ledger merges view ∧ ∀ k, k ∉ owned → ∀ id, k = entryOf id → mailIn merges committed id = mailIn merges view id := by
  refine ⟨holds.filed kept free, fun k other id same => ?_⟩
  subst same
  exact (holds.unlocked id other).symm

theorem query_elsewhere {q : TicketStmt} {out : TicketOutcome q.Ans} (elsewhere : Elsewhere merges q) (kept : Ledger merges db)
    (ran : q.run draw db = some out) : Ledger merges (ticketSchema.applyAll out.changes db) ∧ ∀ k, k ∉ ticketSchema.needs out →
      ∀ id, k = entryOf id → mailIn merges db id = mailIn merges (ticketSchema.applyAll out.changes db) id := by
  have free : Phase.reading.Free := .inl rfl
  have there := steps (allowed_elsewhere elsewhere free) (holds_start db) kept ran
  obtain ⟨filed, others⟩ := there.commit kept (next_elsewhere elsewhere free out.answer).1
  exact ⟨filed, fun k other => others k (not_or.mpr ⟨Set.notMem_empty _, other⟩)⟩

theorem mail_sound : (mailContract merges).Sound fun _ _ => True where
  guard_refl _ _ _ _ := rfl
  guard_trans _ _ _ _ first second id same := (first id same).trans (second id same)
  start db _ := holds_start db
  stable holds agree outside _ guarded := holds.stable agree outside fun id mine => guarded (entryOf id) mine id rfl
  within holds _ kept allowed _ ran := steps allowed holds kept ran
  commit holds _ kept free := holds.commit kept free
  query elsewhere kept ran := query_elsewhere elsewhere kept ran

end Opale.EmailBridge.Mailroom
