import Opale.Tickets.Relations

namespace Opale.Tickets

open Sql EmailBridge

/-- The tables that a statement may write. -/
def TicketStmt.Writes : TicketStmt → TableName → Prop
  | .insertTicket _, n | .patchTicket .., n | .touchTicket _, n | .reopenTicket _, n | .markMerged .., n | .setUserId .., n
  | .inheritUserId .., n | .setDeviceId .., n | .inheritDeviceId _, n | .replaceDeviceId .., n => n = .tickets
  | .deleteTicket _, _ => True
  | .insertMessage _, n | .repointMessages .., n => n = .messages
  | .deleteRequester id, n | .insertRequester id _, n | .insertInvolved id _, n | .copyUsers _ id _, n | .deleteUsers id, n
  | .deleteUser id _, n => n = .users id
  | .insertDevice id _, n | .copyDevices _ id, n | .deleteDevices id, n | .deleteDevice id _, n => n = .devices id
  | .insertTags id _, n => n = .tags id
  | .insertMapping _, n | .finishMapping .., n | .linkMapping .., n | .repointMappings .., n | .repointProposalMappings .., n
  | .dismissMappings _, n => n = .mappings
  | .setPayload .., n | .acceptProposal .., n | .rejectProposal .., n => n = .proposals
  | _, _ => False

variable {db : TicketDb} {draw : TicketDraw} {n : TableName}

theorem kept_written {m : TableName} {α : Type} {rows : List (Nat × Option m.Row)} {answer : α} (apart : n ≠ m) :
    ticketSchema.applyAll (written m rows answer).changes db n = db n := applyAll_writes_of_ne apart rows db

/-- A statement leaves the tables that it does not write. -/
theorem kept_run {s : TicketStmt} {out : TicketOutcome s.Ans} (ran : s.run draw db = some out) (outside : ¬s.Writes n) :
    ticketSchema.applyAll out.changes db n = db n := by
  cases s
  case deleteTicket => exact absurd trivial outside
  case insertMapping =>
    simp only [TicketStmt.run] at ran
    split at ran
    · cases ran
      rfl
    · obtain ⟨_, same⟩ := Option.ite_none_right_eq_some.mp ran
      cases same
      exact kept_written outside
  all_goals
    first
    | cases ran
      first
      | rfl
      | exact kept_written outside
    | obtain ⟨_, same⟩ := Option.ite_none_right_eq_some.mp ran
      cases same
      exact kept_written outside
    | obtain ⟨_, same⟩ := Option.ite_none_left_eq_some.mp ran
      cases same
      exact kept_written outside
    | obtain ⟨_, _, same⟩ := Option.bind_eq_some_iff.mp ran
      cases same
      first
      | rfl
      | exact kept_written outside

end Opale.Tickets
