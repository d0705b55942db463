import Opale.Relations.Acyclic
import Opale.Tickets.Compatibility
import Opale.Tickets.Frames

namespace Opale.Tickets

open Sql EmailBridge Relation

/-- `tickets.merged_into` -/
def mergedInto (db : TicketDb) (id : Nat) : Option Nat := (db .tickets)[id]?.bind (·.mergedInto)

/-- Following `merged_into` from the first ticket comes to the second. -/
abbrev Leads (db : TicketDb) : Nat → Nat → Prop := ReflTransGen fun a b => mergedInto db a = some b

/-- Following `merged_into` never comes back. -/
def NoCycle (db : TicketDb) : Prop := Acyclic fun a b => mergedInto db a = some b

/-- The statements that leave `merged_into`, and write a status only by the PATCHes in `patched`. -/
def TicketStmt.Unmerging (patched : Nat → TicketPatch → Prop) : TicketStmt → Prop
  | .markMerged .. | .deleteTicket _ | .reopenTicket _ => False
  | .patchTicket id patch => patched id patch
  | _ => True

/-- A ticket that leads on has the status that a merge gives. -/
def Ticket.Settled (t : Ticket) : Prop := t.mergedInto ≠ none → t.status = .merged

def Settled (db : TicketDb) : Prop := ∀ (id : Nat) (t : Ticket), (db .tickets)[id]? = some t → t.Settled

/-- The PATCH leaves its status to a ticket that leads on. -/
def Lasting (db : TicketDb) (id : Nat) (patch : TicketPatch) : Prop :=
  mergedInto db id ≠ none → patch.status = none ∨ patch.status = some .merged

/-- A ticket before and after a statement that does not merge. -/
structure Continues (patched : Nat → TicketPatch → Prop) (id : Nat) (before after : Ticket) : Prop where
  into : after.mergedInto = before.mergedInto
  status : after.status = before.status ∨ ∃ patch, patched id patch ∧ patch.status = some after.status

variable {db db₁ : TicketDb} {draw : TicketDraw} {id sourceId targetId : Nat} {patched : Nat → TicketPatch → Prop}

theorem mergedInto_of_found {t : Ticket} (found : (db .tickets)[id]? = some t) : mergedInto db id = t.mergedInto := by
  unfold mergedInto
  rw [found]
  rfl

theorem Continues.refl (id : Nat) (t : Ticket) : Continues patched id t t := ⟨rfl, .inl rfl⟩

/-- The tickets of two states: the old ones go on, and the new ones lead nowhere. -/
def AllContinue (patched : Nat → TicketPatch → Prop) (db db₁ : TicketDb) : Prop :=
  ∀ id : Nat, ((db .tickets)[id]? = none → ∀ t, (db₁ .tickets)[id]? = some t → t.mergedInto = none) ∧
    ∀ before, (db .tickets)[id]? = some before → ∃ after, (db₁ .tickets)[id]? = some after ∧ Continues patched id before after

theorem AllContinue.of_same (same : db₁ .tickets = db .tickets) : AllContinue patched db db₁ := by
  intro id
  rw [same]
  refine ⟨fun absent t found => ?_, fun before found => ⟨before, found, .refl id before⟩⟩
  cases absent.symm.trans found

theorem AllContinue.of_updated {p : Nat → Ticket → Bool} {set : Ticket → Ticket}
    (tickets : db₁ .tickets = Table.putAll ((db .tickets).updated p set) (db .tickets))
    (step : ∀ id t, p id t = true → Continues patched id t (set t)) : AllContinue patched db db₁ := by
  intro id
  rw [tickets, Table.getElem?_putAll_updated]
  constructor
  · intro absent t found
    rw [absent] at found
    cases found
  · intro before found
    rw [found]
    refine ⟨_, rfl, ?_⟩
    dsimp only
    split
    case isTrue here => exact step id before here
    case isFalse => exact .refl id before

theorem AllContinue.of_updateTicket {p : Ticket → Bool} {set : Ticket → Ticket} (into : ∀ t, (set t).mergedInto = t.mergedInto)
    (status : ∀ t, (set t).status = t.status) :
    AllContinue patched db (ticketSchema.applyAll (updateTicket db id p set).changes db) :=
  .of_updated (applyAll_writes_self ..) fun _ t _ => ⟨into t, .inl (status t)⟩

theorem TicketPatch.continues {patch : TicketPatch} {now : Int} (t : Ticket) (given : patched id patch) :
    Continues patched id t (patch.apply now t) := by
  refine ⟨rfl, ?_⟩
  cases status : patch.status with
  | none =>
    refine .inl ?_
    unfold TicketPatch.apply
    rw [status]
    rfl
  | some other =>
    refine .inr ⟨patch, given, ?_⟩
    unfold TicketPatch.apply
    rw [status]
    rfl

/-- What a statement that does not merge does with the tickets. -/
theorem allContinue_run {s : TicketStmt} {out : TicketOutcome s.Ans} (ran : s.run draw db = some out)
    (unmerging : s.Unmerging patched) : AllContinue patched db (ticketSchema.applyAll out.changes db) := by
  by_cases writes : s.Writes .tickets
  · cases s
    case insertTicket t =>
      obtain ⟨fresh, same⟩ := Option.ite_none_left_eq_some.mp ran
      cases same
      have tickets : ticketSchema.applyAll (written .tickets [(draw.id, some (t.row draw.now))] draw.id).changes db .tickets =
          Table.putAll [(draw.id, some (t.row draw.now))] (db .tickets) := applyAll_writes_self ..
      intro key
      rw [tickets, Table.getElem?_putAll_singleton]
      constructor
      · intro absent after found
        split at found
        · cases found
          rfl
        · cases absent.symm.trans found
      · intro before found
        have other : key ≠ draw.id := by
          rintro rfl
          refine fresh (Std.ExtTreeMap.mem_iff_contains.mp (Std.ExtTreeMap.mem_iff_isSome_getElem?.mpr ?_))
          rw [found]
          rfl
        rw [if_neg other]
        exact ⟨before, found, .refl key before⟩
    case patchTicket id patch =>
      cases ran
      refine .of_updated (applyAll_writes_self ..) fun key t here => ?_
      obtain rfl := of_decide_eq_true here
      exact patch.continues t unmerging
    case inheritDeviceId =>
      obtain ⟨_, _, same⟩ := Option.bind_eq_some_iff.mp ran
      cases same
      exact .of_updateTicket (fun _ => rfl) fun _ => rfl
    case markMerged => cases unmerging
    case deleteTicket => cases unmerging
    case reopenTicket => cases unmerging
    all_goals
      first
      | cases writes
        done
      | cases ran
        exact .of_updateTicket (fun _ => rfl) fun _ => rfl
  · exact .of_same (kept_run ran writes)

theorem AllContinue.mergedInto (all : AllContinue patched db db₁) : mergedInto db₁ = mergedInto db := by
  funext key
  obtain ⟨new, old⟩ := all key
  cases found : (db .tickets)[key]? with
  | none =>
    unfold Tickets.mergedInto
    rw [found]
    cases after : (db₁ .tickets)[key]? with
    | none => rfl
    | some t => exact new found t after
  | some before =>
    obtain ⟨after, here, continues⟩ := old before found
    rw [mergedInto_of_found here, mergedInto_of_found found, continues.into]

theorem AllContinue.settled (all : AllContinue patched db db₁) (lasting : ∀ id patch, patched id patch → Lasting db id patch)
    (settled : Settled db) : Settled db₁ := by
  intro key t found leads
  obtain ⟨new, old⟩ := all key
  cases here : (db .tickets)[key]? with
  | none => exact absurd (new here t found) leads
  | some before =>
    obtain ⟨after, there, continues⟩ := old before here
    cases there.symm.trans found
    rw [continues.into] at leads
    rcases continues.status with same | ⟨patch, given, status⟩
    · rw [same]
      exact settled key before here leads
    · rw [← mergedInto_of_found here] at leads
      rcases lasting key patch given leads with none_ | merged
      · cases none_.symm.trans status
      · exact Option.some.inj (status.symm.trans merged)

theorem mergedInto_markMerged {out : TicketOutcome Unit} (ran : (TicketStmt.markMerged sourceId targetId).run draw db = some out)
:
    mergedInto (ticketSchema.applyAll out.changes db) = mergedInto db ∨
      mergedInto (ticketSchema.applyAll out.changes db) = Function.update (mergedInto db) sourceId (some targetId) := by
  obtain ⟨_, same⟩ := Option.ite_none_right_eq_some.mp ran
  cases same
  have tickets (set : Ticket → Ticket) : ticketSchema.applyAll (updateTicket db sourceId (fun _ => true) set).changes db .tickets =
      Table.putAll ((db .tickets).updated (fun key _ => key = sourceId && true) set) (db .tickets) := applyAll_writes_self ..
  rcases Option.eq_none_or_eq_some (db .tickets)[sourceId]? with absent | ⟨t, found⟩
  · refine .inl (funext fun key => ?_)
    unfold mergedInto
    rw [tickets, Table.getElem?_putAll_updated]
    by_cases here : key = sourceId
    · rw [here, absent]
      rfl
    · cases (db .tickets)[key]? with
      | none => rfl
      | some t => simp [here]
  · refine .inr (funext fun key => ?_)
    unfold mergedInto
    rw [tickets, Table.getElem?_putAll_updated, Function.update_apply]
    by_cases here : key = sourceId
    · subst here
      rw [found, if_pos rfl]
      simp
    · rw [if_neg here]
      cases (db .tickets)[key]? with
      | none => rfl
      | some t => simp [here]

theorem settled_of_updated {p : Nat → Ticket → Bool} {set : Ticket → Ticket}
    (tickets : db₁ .tickets = Table.putAll ((db .tickets).updated p set) (db .tickets)) (step : ∀ t, (set t).Settled)
    (settled : Settled db) : Settled db₁ := by
  intro key t found
  rw [tickets, Table.getElem?_putAll_updated] at found
  obtain ⟨before, here, same⟩ := Option.map_eq_some_iff.mp found
  split at same
  · rw [← same]
    exact step before
  · rw [← same]
    exact settled key before here

theorem settled_markMerged {out : TicketOutcome Unit} (ran : (TicketStmt.markMerged sourceId targetId).run draw db = some out)
    (settled : Settled db) : Settled (ticketSchema.applyAll out.changes db) := by
  obtain ⟨_, same⟩ := Option.ite_none_right_eq_some.mp ran
  cases same
  exact settled_of_updated (applyAll_writes_self ..) (fun _ _ => rfl) settled

/-- The tickets after a deletion: the others, led to the deleted one no more. -/
theorem ticket_deleteTicket {out : TicketOutcome Unit} (ran : (TicketStmt.deleteTicket id).run draw db = some out)
    {key : Nat} {t : Ticket} (found : (ticketSchema.applyAll out.changes db .tickets)[key]? = some t) :
    ∃ before, (db .tickets)[key]? = some before ∧ (t = before ∨ t = { before with mergedInto := none }) := by
  have rest {n : TableName} (other : TableName.tickets ≠ n) (rows : List (Nat × Option n.Row)) (db : TicketDb) :
      ticketSchema.applyAll (writes n rows) db .tickets = db .tickets := applyAll_writes_of_ne other rows db
  have self (rows : List (Nat × Option Ticket)) (db : TicketDb) :
      ticketSchema.applyAll (writes .tickets rows) db .tickets = Table.putAll rows (db .tickets) := applyAll_writes_self ..
  cases ran
  simp only [Schema.applyAll_append] at found
  rw [rest (n := .proposals) nofun, rest (n := .mappings) nofun, rest (n := .tags id) nofun, rest (n := .devices id) nofun,
    rest (n := .users id) nofun, rest (n := .attachments) nofun, rest (n := .messages) nofun, self, self,
    Table.getElem?_putAll_singleton] at found
  split at found
  case isTrue => cases found
  case isFalse =>
    rw [Table.getElem?_putAll_updated] at found
    obtain ⟨before, here, same⟩ := Option.map_eq_some_iff.mp found
    split at same
    · exact ⟨before, here, .inr same.symm⟩
    · exact ⟨before, here, .inl same.symm⟩

/-- A deleted ticket is followed no more. -/
theorem mergedInto_deleteTicket {out : TicketOutcome Unit} (ran : (TicketStmt.deleteTicket id).run draw db = some out)
    {a b : Nat} (link : mergedInto (ticketSchema.applyAll out.changes db) a = some b) : mergedInto db a = some b := by
  obtain ⟨t, found, into⟩ := Option.bind_eq_some_iff.mp link
  obtain ⟨before, here, same | cleared⟩ := ticket_deleteTicket ran found
  · rw [mergedInto_of_found here, ← same]
    exact into
  · rw [cleared] at into
    cases into

theorem settled_deleteTicket {out : TicketOutcome Unit} (ran : (TicketStmt.deleteTicket id).run draw db = some out)
    (settled : Settled db) : Settled (ticketSchema.applyAll out.changes db) := by
  intro key t found leads
  obtain ⟨before, here, same | cleared⟩ := ticket_deleteTicket ran found
  · rw [same] at leads ⊢
    exact settled key before here leads
  · rw [cleared] at leads
    exact absurd rfl leads

/-- A merge ends the ways that went on from the source; it closes a cycle exactly when its target leads there. -/
theorem noCycle_merged (into : mergedInto db₁ = Function.update (mergedInto db) sourceId (some targetId)) (none_ : NoCycle db) :
    NoCycle db₁ ↔ ¬Leads db targetId sourceId := by
  have link {a b : Nat} : mergedInto db₁ a = some b ↔ if a = sourceId then targetId = b else mergedInto db a = some b := by
    rw [into, Function.update_apply]
    split
    · exact Option.some_inj
    · exact Iff.rfl
  have back : Leads db₁ targetId sourceId ↔ Leads db targetId sourceId := by
    constructor
    · refine reflTransGen_without fun x y step => ?_
      by_cases here : x = sourceId
      · exact .inr here
      · exact .inl ((if_neg here).mp (link.mp step))
    · refine reflTransGen_without fun x y step => ?_
      by_cases here : x = sourceId
      · exact .inr here
      · exact .inl (link.mpr ((if_neg here).mpr step))
  have new : mergedInto db₁ sourceId = some targetId := link.mpr (by rw [if_pos rfl])
  constructor
  · intro acyclic leads
    exact acyclic.not_back new (back.mpr leads)
  · intro onward
    have links (a b : Nat) (step : mergedInto db₁ a = some b) : mergedInto db a = some b ∨ a = sourceId ∧ b = targetId := by
      have step := link.mp step
      by_cases here : a = sourceId
      · rw [if_pos here] at step
        exact .inr ⟨here, step.symm⟩
      · rw [if_neg here] at step
        exact .inl step
    refine none_.added links ?_
    rintro _ _ ⟨rfl, rfl⟩ _ way
    exact onward (back.mp way)

section

variable {seen : Option TicketDb} {value : Unit}

theorem only_syncRequester (newUserId : Option Nat) : (syncRequester id newUserId).Only (TicketStmt.Unmerging patched) := by
  refine .bind (.within trivial) fun _ => ?_
  cases newUserId with
  | none => exact .within trivial
  | some userId => exact .bind (.within trivial) fun _ => .within trivial

theorem only_addDeviceToTicket {deviceId : Nat} : (addDeviceToTicket id deviceId).Only (TicketStmt.Unmerging patched) :=
  .bind (.within trivial) fun _ => .within trivial

theorem only_forM {α : Type} {o : Option α} {body : α → TicketTx Unit} (only : ∀ a, (body a).Only (TicketStmt.Unmerging patched)) :
    Body.Only (TicketStmt.Unmerging patched) (forM o body) := by
  cases o with
  | none => exact .ret
  | some a => exact only a

/-- The PATCHes of a request. -/
def TicketRequest.Patches : TicketRequest → Nat → TicketPatch → Prop
  | .patch id columns _ => fun other patch => other = id ∧ patch = columns
  | _ => fun _ _ => False

/-- No request but a merge writes `merged_into`, and none but a PATCH changes a status. -/
theorem only_body {request : TicketRequest} (other : ∀ source target byName, request ≠ .merge source target byName) :
    request.body.Only (TicketStmt.Unmerging request.Patches) := by
  cases request with
  | create t tagIds =>
    refine .bind (.within trivial) fun id => .bind ?_ fun _ => .bind (only_forM fun _ => only_syncRequester _) fun _ =>
      only_forM fun _ => only_addDeviceToTicket
    split
    · exact .ret
    · exact .within trivial
  | patch id columns displayName =>
    refine .bind (.within trivial) fun existing => ?_
    cases existing with
    | none => exact .fail
    | some existing =>
      refine .bind (.within ⟨rfl, rfl⟩) fun _ => .bind (only_forM fun _ => only_syncRequester _) fun _ =>
        .bind (only_forM fun _ => only_addDeviceToTicket) fun _ => ?_
      split
      · split
        · exact .ret
        · exact .bind (.within trivial) fun _ => .ret
      · exact .ret
  | addUser id userId role =>
    cases role with
    | requester => exact .bind (only_syncRequester _) fun _ => .within trivial
    | involved => exact .bind (.within trivial) fun _ => .within trivial
  | removeUser id userId =>
    refine .bind (.bind (.within trivial) fun role => ?_) fun removed => ?_
    · cases role with
      | none => exact .ret
      | some role =>
        cases role with
        | requester => exact .bind (.within trivial) fun _ => .ret
        | involved => exact .ret
    · cases removed with
      | true => exact .within trivial
      | false => exact .fail
  | addDevice id deviceId => exact .bind only_addDeviceToTicket fun _ => .within trivial
  | removeDevice id deviceId =>
    refine .bind (.bind (.within trivial) fun deleted => ?_) fun removed => ?_
    · cases deleted with
      | false => exact .ret
      | true =>
        refine .bind (.within trivial) fun column => ?_
        split
        · split
          · exact .bind (.within trivial) fun _ => .bind (.within trivial) fun _ => .ret
          · exact .ret
        · exact .ret
    · cases removed with
      | true => exact .within trivial
      | false => exact .fail
  | merge source target byName => exact absurd rfl (other source target byName)

theorem only_mergeUsers : (mergeUsers sourceId targetId).Only (TicketStmt.Unmerging patched) := by
  refine .bind (.within trivial) fun requesters => ?_
  cases requesters with
  | cons => exact .within trivial
  | nil =>
    refine .bind (.within trivial) fun _ => .bind (.within trivial) fun found => ?_
    cases found with
    | nil => exact .ret
    | cons => exact .within trivial

theorem unmerging_keeps {α : Type} {body : TicketTx α} (only : body.Only (TicketStmt.Unmerging patched))
    (lasting : ∀ id patch, patched id patch → Lasting db id patch) {result : Except (Thrown TicketError) α}
    (ends : body.Ends ticketSchema (some db) result (some db₁)) :
    mergedInto db₁ = mergedInto db ∧ (Settled db → Settled db₁) := by
  refine only.preserves (fun now => mergedInto now = mergedInto db ∧ (Settled db → Settled now)) ?_ ends ⟨rfl, id⟩
  rintro s draw now out unmerging ran ⟨same, settled⟩
  have all := allContinue_run ran unmerging
  refine ⟨all.mergedInto.trans same, fun before => all.settled (fun id patch given => ?_) (settled before)⟩
  unfold Lasting
  rw [same]
  exact lasting id patch given

/-- The links that a merge leaves, once its guards have let it pass. -/
theorem moveTicket_links {byName : Option String}
    (ends : (moveTicket sourceId targetId byName).Ends ticketSchema (some db) (.ok value) (some db₁)) :
    (mergedInto db₁ = mergedInto db ∨ mergedInto db₁ = Function.update (mergedInto db) sourceId (some targetId)) ∧
      (Settled db → Settled db₁) := by
  obtain ⟨_, _, ran₁, later⟩ := TicketTx.within ends
  obtain ⟨_, _, ran₂, later⟩ := TicketTx.within later
  obtain ⟨_, between, users, later⟩ := later.bind
  obtain ⟨-, _, -, db₃, rfl, -⟩ := mergeUsers_ends users
  obtain ⟨_, _, ran₄, later⟩ := TicketTx.within later
  obtain ⟨_, _, ran₅, later⟩ := TicketTx.within later
  obtain ⟨_, _, ran₆, later⟩ := TicketTx.within later
  obtain ⟨_, _, ran₇, later⟩ := TicketTx.within later
  obtain ⟨_, _, ran₈, later⟩ := TicketTx.within later
  obtain ⟨_, _, ran₉, later⟩ := TicketTx.within later
  obtain ⟨_, _, ran₀, -, same⟩ := TicketTx.last later
  cases same
  have nowhere {db : TicketDb} (id : Nat) (patch : TicketPatch) (given : False) : Lasting db id patch := given.elim
  have step {db : TicketDb} {draw : TicketDraw} {s : TicketStmt} {out : TicketOutcome s.Ans} (ran : s.run draw db = some out)
      (unmerging : s.Unmerging fun _ _ => False) := allContinue_run ran unmerging
  obtain ⟨sameUsers, settledUsers⟩ := unmerging_keeps only_mergeUsers nowhere users
  constructor
  · have marked := mergedInto_markMerged ran₉
    rw [(step ran₈ trivial).mergedInto, (step ran₇ trivial).mergedInto, (step ran₆ trivial).mergedInto,
      (step ran₅ trivial).mergedInto, (step ran₄ trivial).mergedInto, sameUsers, (step ran₂ trivial).mergedInto,
      (step ran₁ trivial).mergedInto] at marked
    rw [(step ran₀ trivial).mergedInto]
    exact marked
  · intro settled
    have before := settledUsers ((step ran₂ trivial).settled nowhere ((step ran₁ trivial).settled nowhere settled))
    have between := (step ran₆ trivial).settled nowhere ((step ran₅ trivial).settled nowhere
      ((step ran₄ trivial).settled nowhere before))
    have moved := (step ran₈ trivial).settled nowhere ((step ran₇ trivial).settled nowhere between)
    exact (step ran₀ trivial).settled nowhere (settled_markMerged ran₉ moved)

/-- A PATCH leaves the status of a merge to a ticket that leads on, and a merge does not spell one ticket in two ways. -/
def TicketRequest.Settles (db : TicketDb) : TicketRequest → Prop
  | .patch id columns _ => Lasting db id columns
  | .merge source target _ => source.id = target.id → source = target
  | _ => True

/-- The target of a merge that is accepted leads nowhere. -/
theorem Accepted.onward {source target : Uuid} (accepted : Accepted db source target) (settled : Settled db)
    (spelled : source.id = target.id → source = target) : ¬Leads db target.id source.id := by
  obtain ⟨apart, -, t, found, status⟩ := accepted
  have ends : t.mergedInto = none := by
    by_contra leads
    exact status (settled target.id t found leads)
  intro leads
  rcases leads.cases_head with same | ⟨_, link, -⟩
  · exact apart (spelled same.symm)
  · rw [mergedInto_of_found found, ends] at link
    cases link

/-- A request closes no cycle. -/
theorem noCycle_performed {request : TicketRequest} (performed : Performed request db db₁) (settles : request.Settles db)
    (settled : Settled db) (none_ : NoCycle db) : Settled db₁ ∧ NoCycle db₁ := by
  obtain ⟨t, result, st, ends, rfl⟩ := performed
  obtain ⟨value, seen, body, committed, -⟩ | ⟨-, same⟩ := ends_transaction ends
  · rw [committed]
    cases seen with
    | none => exact ⟨settled, none_⟩
    | some db₁ =>
      change Settled db₁ ∧ NoCycle db₁
      by_cases merge : ∃ source target byName, request = .merge source target byName
      · obtain ⟨source, target, byName, rfl⟩ := merge
        obtain ⟨accepted, moved⟩ := mergeTicketInto_ends body
        obtain ⟨links, stays⟩ := moveTicket_links moved
        refine ⟨stays settled, ?_⟩
        rcases links with same | into
        · unfold NoCycle
          rw [same]
          exact none_
        · exact (noCycle_merged into none_).mpr (accepted.onward settled settles)
      · have lasting (id : Nat) (patch : TicketPatch) (given : request.Patches id patch) : Lasting db id patch := by
          cases request with
          | patch =>
            obtain ⟨rfl, rfl⟩ := given
            exact settles
          | _ => exact given.elim
        obtain ⟨same, stays⟩ :=
          unmerging_keeps (only_body fun source target byName other => merge ⟨source, target, byName, other⟩) lasting body
        refine ⟨stays settled, ?_⟩
        unfold NoCycle
        rw [same]
        exact none_
  · rw [same]
    exact ⟨settled, none_⟩

/-- The states that requests and deletions of tickets reach, one after the other, from a database with no ticket. -/
inductive Reaches (condition : TicketDb → TicketRequest → Prop) : TicketDb → Prop
  | empty : Reaches condition fun _ => ∅
  | request {db db₁ : TicketDb} {request : TicketRequest} (before : Reaches condition db)
      (performed : Performed request db db₁) (met : condition db request) : Reaches condition db₁
  | delete {db : TicketDb} {id : Nat} {draw : TicketDraw} {out : TicketOutcome Unit} (before : Reaches condition db)
      (ran : (TicketStmt.deleteTicket id).run draw db = some out) : Reaches condition (ticketSchema.applyAll out.changes db)

theorem settled_noCycle (reached : Reaches TicketRequest.Settles db) : Settled db ∧ NoCycle db := by
  induction reached with
  | empty =>
    constructor
    · intro id t found
      have nothing : ((fun _ => ∅ : TicketDb) .tickets)[id]? = none := rfl
      cases nothing.symm.trans found
    · intro a way
      obtain ⟨b, -, link⟩ := TransGen.tail'_iff.mp way
      have nothing : mergedInto (fun _ => ∅) b = none := rfl
      cases nothing.symm.trans link
  | request before performed met ih => exact noCycle_performed performed met ih.1 ih.2
  | delete before ran ih =>
    exact ⟨settled_deleteTicket ran ih.1, ih.2.mono fun a b link => mergedInto_deleteTicket ran link⟩

/-- Following `merged_into` never comes back to a ticket, as long as no PATCH takes a ticket that was merged out of
`merged` and no merge spells one ticket in two ways. -/
theorem merges_acyclic (reached : Reaches TicketRequest.Settles db) : NoCycle db := (settled_noCycle reached).2

def report : NewTicket where
  title := "PC lent"
  description := none
  priority := .normal
  deviceId := none
  userId := none
  source := "manual"
  isAuto := false
  createdByEntraId := none
  createdByName := none
  assignedToEntraId := none
  assignedToName := none

def drawn (id : Nat) : TicketDraw := ⟨0, id, [], ⟨none, none, none⟩⟩

/-- The first two tickets, and their messages. -/
def reports (first second : Ticket) (messages : Table TicketMessage) : TicketDb
  | .tickets => ((∅ : Table Ticket).insert 1 first).insert 2 second
  | .messages => messages
  | .mappings | .proposals | .attachments | .users _ | .devices _ | .tags _ => ∅

theorem reports_created : ∃ db, (createTicket report []).Ends ticketSchema (some fun _ => ∅) (.ok ()) (some db) ∧
    (createTicket report []).Ends ticketSchema (some db) (.ok ()) (some (reports (report.row 0) (report.row 0) ∅)) := by
  have second : ∃ db db₂, (createTicket report []).Ends ticketSchema (some fun _ => ∅) (.ok ()) (some db) ∧
      (createTicket report []).Ends ticketSchema (some db) (.ok ()) (some db₂) ∧ db₂ = reports (report.row 0) (report.row 0) ∅ := by
    refine ⟨_, _, Schema.step_sees (drawn 1) rfl .ret, Schema.step_sees (drawn 2) rfl .ret, funext fun n => ?_⟩
    cases n <;> rfl
  obtain ⟨db, _, created, created₁, rfl⟩ := second
  exact ⟨db, created, created₁⟩

def mergedReport : Ticket := { report.row 0 with status := .merged, mergedInto := some 2 }

def mergeNote : TicketMessage :=
  NewMessage.row ⟨2, .system, "Système", "Fusion : messages et personnes du ticket 1 ajoutés ici", .now, none, none⟩ 0

theorem reports_merged : (mergeTicketInto ⟨1, 0⟩ ⟨2, 0⟩ none).Ends ticketSchema (some (reports (report.row 0) (report.row 0) ∅))
    (.ok ()) (some (reports mergedReport (report.row 0) ((∅ : Table TicketMessage).insert 3 mergeNote))) := by
  have merged : ∃ db, (mergeTicketInto ⟨1, 0⟩ ⟨2, 0⟩ none).Ends ticketSchema (some (reports (report.row 0) (report.row 0) ∅))
      (.ok ()) (some db) ∧ db = reports mergedReport (report.row 0) ((∅ : Table TicketMessage).insert 3 mergeNote) := by
    refine ⟨_,
      Schema.step_still (drawn 3) rfl <| Schema.step_still (drawn 3) rfl <| Schema.step_sees (drawn 3) rfl <|
      Schema.step_still (drawn 3) rfl <| Schema.step_still (drawn 3) rfl <| Schema.step_still (drawn 3) rfl <|
      Schema.step_still (drawn 3) rfl <| Schema.step_still (drawn 3) rfl <| Schema.step_still (drawn 3) rfl <|
      Schema.step_sees (drawn 3) rfl <| Schema.step_still (drawn 3) rfl <| Schema.step_still (drawn 3) rfl <|
      Schema.step_sees (drawn 3) rfl <| Schema.step_sees (drawn 3) rfl <| .ret, funext fun n => ?_⟩
    cases n <;> rfl
  obtain ⟨_, merged, rfl⟩ := merged
  exact merged

def renamed : TicketPatch := ⟨none, none, some "PC très lent", none, none, none, none, none⟩

theorem reports_renamed : ∃ db, (patchTicket 1 renamed "Admin").Ends ticketSchema
      (some (reports mergedReport (report.row 0) ((∅ : Table TicketMessage).insert 3 mergeNote))) (.ok ()) (some db) ∧
    mergedInto db 1 = some 2 :=
  ⟨_, Schema.step_sees (drawn 4) rfl <| Schema.step_sees (drawn 4) rfl <| .ret, rfl⟩

/-- A merge, and a PATCH of its source that leaves the status. -/
theorem merges_acyclic_merged : ∃ db, mergedInto db 1 = some 2 ∧ NoCycle db := by
  obtain ⟨db₁, created₁, created₂⟩ := reports_created
  obtain ⟨db₄, patched, into⟩ := reports_renamed
  have p₁ : Performed (.create report []) (fun _ => ∅) db₁ := performed_of_ends created₁
  have p₂ : Performed (.create report []) db₁ _ := performed_of_ends created₂
  have p₃ : Performed (.merge ⟨1, 0⟩ ⟨2, 0⟩ none) _ _ := performed_of_ends reports_merged
  have p₄ : Performed (.patch 1 renamed "Admin") _ db₄ := performed_of_ends patched
  have spelled : TicketRequest.Settles (reports (report.row 0) (report.row 0) ∅) (.merge ⟨1, 0⟩ ⟨2, 0⟩ none) := nofun
  exact ⟨db₄, into, merges_acyclic (.request (.request (.request (.request .empty p₁ trivial) p₂ trivial) p₃ spelled) p₄
    fun _ => .inl rfl)⟩

def reopened : TicketPatch := ⟨some .open, none, none, none, none, none, none, none⟩

def reopenedReport : Ticket := { report.row 0 with mergedInto := some 2 }

def reopenNote : TicketMessage := NewMessage.row ⟨1, .system, "Admin", "Ticket réouvert", .null, none, none⟩ 0

def bothNotes : Table TicketMessage := ((∅ : Table TicketMessage).insert 3 mergeNote).insert 4 reopenNote

theorem reports_reopened : (patchTicket 1 reopened "Admin").Ends ticketSchema
    (some (reports mergedReport (report.row 0) ((∅ : Table TicketMessage).insert 3 mergeNote))) (.ok ())
    (some (reports reopenedReport (report.row 0) bothNotes)) := by
  have patched : ∃ db, (patchTicket 1 reopened "Admin").Ends ticketSchema
      (some (reports mergedReport (report.row 0) ((∅ : Table TicketMessage).insert 3 mergeNote))) (.ok ()) (some db) ∧
      db = reports reopenedReport (report.row 0) bothNotes := by
    refine ⟨_,
      Schema.step_sees (drawn 4) rfl <| Schema.step_sees (drawn 4) rfl <| Schema.step_sees (drawn 4) rfl <| .ret, funext fun n => ?_⟩
    cases n <;> rfl
  obtain ⟨_, patched, rfl⟩ := patched
  exact patched

theorem reports_merged_back : ∃ db, (mergeTicketInto ⟨2, 0⟩ ⟨1, 0⟩ none).Ends ticketSchema
      (some (reports reopenedReport (report.row 0) bothNotes)) (.ok ()) (some db) ∧
    mergedInto db 1 = some 2 ∧ mergedInto db 2 = some 1 := by
  refine ⟨_,
    Schema.step_still (drawn 5) rfl <| Schema.step_still (drawn 5) rfl <| Schema.step_sees (drawn 5) rfl <|
    Schema.step_sees (drawn 5) rfl <| Schema.step_still (drawn 5) rfl <| Schema.step_still (drawn 5) rfl <|
    Schema.step_still (drawn 5) rfl <| Schema.step_still (drawn 5) rfl <| Schema.step_still (drawn 5) rfl <|
    Schema.step_sees (drawn 5) rfl <| Schema.step_still (drawn 5) rfl <| Schema.step_still (drawn 5) rfl <|
    Schema.step_sees (drawn 5) rfl <| Schema.step_sees (drawn 5) rfl <| .ret, ?first, ?second⟩
  case first => rfl
  case second => rfl

/-- A merge, its source reopened by a PATCH, and the same merge the other way. -/
theorem merges_cycle : ¬∀ db, Reaches (fun _ _ => True) db → NoCycle db := by
  intro acyclic
  obtain ⟨db₁, created₁, created₂⟩ := reports_created
  obtain ⟨db₅, back, first, second⟩ := reports_merged_back
  have p₁ : Performed (.create report []) (fun _ => ∅) db₁ := performed_of_ends created₁
  have p₂ : Performed (.create report []) db₁ _ := performed_of_ends created₂
  have p₃ : Performed (.merge ⟨1, 0⟩ ⟨2, 0⟩ none) _ _ := performed_of_ends reports_merged
  have p₄ : Performed (.patch 1 reopened "Admin") _ _ := performed_of_ends reports_reopened
  have p₅ : Performed (.merge ⟨2, 0⟩ ⟨1, 0⟩ none) _ db₅ := performed_of_ends back
  have reached : Reaches (fun _ _ => True) db₅ :=
    .request (.request (.request (.request (.request .empty p₁ trivial) p₂ trivial) p₃ trivial) p₄ trivial) p₅ trivial
  exact acyclic db₅ reached 1 (.tail (.single first) second)

end

end Opale.Tickets
