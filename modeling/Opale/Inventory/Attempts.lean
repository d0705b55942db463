import Opale.Inventory.History

namespace Opale.Inventory

open Sql Deploying

variable {db db₁ : InventoryDb} {t u : Nat} {w w₁ : InventoryWorld}

/-- Whether two states agree on a deployment is not changed by the same changes. -/
theorem applyAll_agree {id : Nat} (changes : List InventoryChange)
    (agree : db.deployments[id]? = db₁.deployments[id]?) :
    (inventorySchema.applyAll changes db).deployments[id]? =
      (inventorySchema.applyAll changes db₁).deployments[id]? := by
  induction changes generalizing db db₁ with
  | nil => exact agree
  | cons c changes ih =>
    refine ih ?_
    cases c with
    | deployment key row =>
      change (db.deployments.put key row)[id]? = (db₁.deployments.put key row)[id]?
      by_cases here : id = key
      · subst here
        rw [Table.getElem?_put_self, Table.getElem?_put_self]
      · rw [Table.getElem?_put_of_ne _ here, Table.getElem?_put_of_ne _ here]
        exact agree
    | _ => exact agree

theorem applyAll_unlocked {id : Nat} {changes : List InventoryChange}
    (unlocked : ∀ c ∈ changes, .deployment id ∉ c.locks) :
    (inventorySchema.applyAll changes db).deployments[id]? = db.deployments[id]? := by
  induction changes generalizing db with
  | nil => rfl
  | cons c changes ih =>
    refine (ih fun d member => unlocked d (List.mem_cons_of_mem c member)).trans ?_
    have here := unlocked c List.mem_cons_self
    cases c with
    | deployment key row =>
      refine Table.getElem?_put_of_ne _ (fun same => here ?_) row
      rw [same]
      exact List.mem_cons_self
    | _ => rfl

/-- What a check-in has reserved in its open transaction and not yet committed. -/
structure Held (t : Nat) (reserved : List ClaimedDeployment) (w : InventoryWorld) : Prop where
  opened : ∃ changes, w.store.session t = some ⟨changes, false⟩
  claimed : ∀ d ∈ reserved, w.store.owner (.deployment d.deploymentId) = some t ∧
    ∃ row : Deployment, w.store.committed.deployments[d.deploymentId]? = some row ∧ row.status = .pending ∧
    ∃ now, now < BIGINT_END ∧ d.claimToken = claimTokenSql now ∧
      (inventorySchema.view w.store t).deployments[d.deploymentId]? =
        some { row with status := .running, startedAt := some now }
  others : ∀ id, (∀ d ∈ reserved, d.deploymentId ≠ id) →
    (inventorySchema.view w.store t).deployments[id]? = w.store.committed.deployments[id]?
  once : (reserved.map (·.deploymentId)).Nodup

theorem Held.rely {reserved : List ClaimedDeployment} (held : Held t reserved w) (recorded : Recorded w)
    (moves : inventoryTeam.rely t w w₁) : Held t reserved w₁ := by
  obtain ⟨ds, allowed, committed, view⟩ := Schema.Moves.view moves recorded.locked
  have session := moves.session
  constructor
  case opened =>
    rw [session]
    exact held.opened
  case claimed =>
    intro d member
    obtain ⟨owns, row, found, pending, now, small, token, seen⟩ := held.claimed d member
    have unlocked : ∀ c ∈ ds, .deployment d.deploymentId ∉ c.locks :=
      fun c inside needed => (allowed c inside).2 _ needed owns
    refine ⟨moves.owner _ owns, row, ?_, pending, now, small, token, ?_⟩
    · rw [committed, applyAll_unlocked unlocked]
      exact found
    · rw [view, applyAll_unlocked unlocked]
      exact seen
  case others =>
    intro id outside
    rw [view, committed]
    exact applyAll_agree ds (held.others id outside)
  case once => exact held.once

/-- The transitions that a commit makes are those of the deployments it has reserved. -/
theorem Held.observed {reserved : List ClaimedDeployment} (held : Held t reserved w) {change : Transition}
    (member : change ∈ observe w.store.committed (inventorySchema.view w.store t)) :
    ∃ d ∈ reserved, ∃ now, now < BIGINT_END ∧ d.claimToken = claimTokenSql now ∧
      change = ⟨d.deploymentId, .pending, .running, some now⟩ := by
  obtain ⟨row, row₁, before, after, differ, same⟩ := mem_observe.mp member
  by_cases inside : ∃ d ∈ reserved, d.deploymentId = change.id
  · obtain ⟨d, reserved, key⟩ := inside
    obtain ⟨-, row₀, found, pending, now, small, token, seen⟩ := held.claimed d reserved
    rw [key] at found seen
    cases before.symm.trans found
    cases after.symm.trans seen
    refine ⟨d, reserved, now, small, token, ?_⟩
    rw [key, same, pending]
  · have outside : ∀ d ∈ reserved, d.deploymentId ≠ change.id := fun d member key => inside ⟨d, member, key⟩
    rw [held.others _ outside] at after
    cases before.symm.trans after
    exact absurd rfl differ

theorem Held.attempts {reserved : List ClaimedDeployment} (held : Held t reserved w) (attempt : Nat × String) :
    attempt ∈ (observe w.store.committed (inventorySchema.view w.store t)).filterMap Transition.attempt ↔
      attempt ∈ reserved.map fun d => (d.deploymentId, d.claimToken) := by
  rw [List.mem_filterMap, List.mem_map]
  constructor
  · intro ⟨change, member, started⟩
    obtain ⟨d, inside, now, -, token, same⟩ := held.observed member
    subst same
    cases started
    exact ⟨d, inside, by rw [token]⟩
  · intro ⟨d, inside, same⟩
    obtain ⟨-, row, found, pending, now, -, token, seen⟩ := held.claimed d inside
    refine ⟨⟨d.deploymentId, .pending, .running, some now⟩, mem_observe.mpr ?_, ?_⟩
    · refine ⟨row, _, found, seen, ?_, ?_⟩
      · rw [pending]
        exact nofun
      · rw [pending]
    · rw [← same, token]
      rfl

theorem attempts_once {changes : List Transition} (once : (changes.map Transition.id).Nodup) :
    (changes.filterMap Transition.attempt).Nodup := by
  have ids : ((changes.filterMap Transition.attempt).map Prod.fst).Sublist (changes.map Transition.id) := by
    clear once
    induction changes with
    | nil => exact List.Sublist.slnil
    | cons change changes ih =>
      rw [List.filterMap_cons, List.map_cons]
      cases attempt : change.attempt with
      | none => exact ih.cons _
      | some key =>
        have same : key.1 = change.id := by
          unfold Transition.attempt at attempt
          split at attempt
          · obtain ⟨startedAt, -, same⟩ := Option.map_eq_some_iff.mp attempt
            exact congrArg Prod.fst same.symm
          · cases attempt
        rw [List.map_cons, same]
        exact ih.cons_cons _
  exact .of_map _ (once.sublist ids)

/-- A token names one start: its digits are read back. -/
theorem claimTokenSql_injective {first second : Nat} (same : claimTokenSql first = claimTokenSql second) :
    first = second := by
  have digits := congrArg String.toList same
  unfold claimTokenSql at digits
  rw [Nat.toList_repr, Nat.toList_repr] at digits
  rw [← Nat.ofDigitChars_ten_toDigits (n := first), digits, Nat.ofDigitChars_ten_toDigits]

/-- The attempts of a commit are new, since their deployments start at another time. -/
theorem attempts_fresh {changes : List Transition} (apart : StartedApart w.log changes) {attempt : Nat × String}
    (member : attempt ∈ changes.filterMap Transition.attempt) : attempt ∉ w.attempts := by
  intro known
  obtain ⟨change, inside, started⟩ := List.mem_filterMap.mp member
  obtain ⟨old, before, started₁⟩ := List.mem_filterMap.mp known
  have differ := apart change inside old before (by rw [started]; exact nofun) (by rw [started₁]; exact nofun)
  have read : ∀ {c : Transition}, c.attempt = some attempt →
      ∃ startedAt, c.startedAt = some startedAt ∧ (c.id, claimTokenSql startedAt) = attempt := by
    intro c starts
    unfold Transition.attempt at starts
    split at starts
    · exact Option.map_eq_some_iff.mp starts
    · cases starts
  obtain ⟨new, atNew, same⟩ := read started
  obtain ⟨first, atFirst, same₁⟩ := read started₁
  rw [← same] at same₁
  have times : first = new := claimTokenSql_injective (congrArg Prod.snd same₁)
  refine differ (congrArg Prod.fst same₁) ?_
  rw [atFirst, atNew, times]

theorem claimTokenSql_readable {startedAt : Nat} (small : startedAt < BIGINT_END) :
    CLAIM_TOKEN_RE (claimTokenSql startedAt) := by
  have short : (Nat.toDigits 10 startedAt).length ≤ 20 := by
    rw [Nat.length_toDigits_le_iff (by decide) (by decide)]
    exact Nat.lt_trans small (by decide)
  have digits : (Nat.toDigits 10 startedAt).all Char.isDigit = true :=
    List.all_eq_true.mpr fun c member => Nat.isDigit_of_mem_toDigits (by decide) (by decide) member
  have some_digit : (Nat.toDigits 10 startedAt).isEmpty = false := by
    rw [List.isEmpty_eq_false_iff]
    exact Nat.toDigits_ne_nil
  unfold CLAIM_TOKEN_RE claimTokenSql
  rw [Nat.toList_repr, digits, some_digit, decide_eq_true short]
  rfl

/-- The history when what the thread has reserved is committed, and sent with the response. -/
def InventoryWorld.answered (w : InventoryWorld) (t : Nat) (response : CheckinResponse)
    (store : Store InventoryDb InventoryChange InventoryLock) : InventoryWorld :=
  ⟨store, w.log ++ observe w.store.committed (inventorySchema.view w.store t), w.responses ++ [response], w.results⟩

section

variable {response : CheckinResponse} {store : Store InventoryDb InventoryChange InventoryLock}

theorem Held.mem_answered (held : Held t response.deployments w) (attempt : Nat × String) :
    attempt ∈ (w.answered t response store).attempts ↔
      attempt ∈ w.attempts ∨ attempt ∈ response.deployments.map fun d => (d.deploymentId, d.claimToken) := by
  unfold InventoryWorld.attempts InventoryWorld.answered
  rw [attempts_append, List.mem_append, held.attempts]

theorem delivered_answered : (w.answered t response store).delivered =
    w.delivered ++ response.deployments.map fun d => (d.deploymentId, d.claimToken) := by
  unfold InventoryWorld.delivered InventoryWorld.answered
  rw [List.flatMap_append, List.flatMap_singleton]

theorem Held.fresh (held : Held t response.deployments w)
    (apart : StartedApart w.log (observe w.store.committed (inventorySchema.view w.store t))) {attempt : Nat × String}
    (member : attempt ∈ response.deployments.map fun d => (d.deploymentId, d.claimToken)) : attempt ∉ w.attempts :=
  attempts_fresh apart ((held.attempts attempt).mpr member)

/-- A deployment that runs after the COMMIT has just been reserved, or was running before. -/
theorem Held.running (held : Held t response.deployments w) (recorded : Recorded w)
    (apart : StartedApart w.log (observe w.store.committed (inventorySchema.view w.store t))) {id : Nat} {row : Deployment}
    (found : (inventorySchema.view w.store t).deployments[id]? = some row) (status : row.status = .running) :
    ∃ startedAt, row.startedAt = some startedAt ∧
      (id, claimTokenSql startedAt) ∈ (w.answered t response store).attempts ∧
      some (id, claimTokenSql startedAt) ∉ w.results.map AppliedResult.attempt := by
  by_cases inside : ∃ d ∈ response.deployments, d.deploymentId = id
  · obtain ⟨d, member, key⟩ := inside
    obtain ⟨-, row₀, -, -, now, -, token, here⟩ := held.claimed d member
    rw [key] at here
    cases found.symm.trans here
    have issued : (id, claimTokenSql now) ∈ response.deployments.map fun d => (d.deploymentId, d.claimToken) :=
      List.mem_map.mpr ⟨d, member, by rw [key, token]⟩
    refine ⟨now, rfl, (held.mem_answered _).mpr (.inr issued), fun used => ?_⟩
    obtain ⟨r, ended, attempt⟩ := List.mem_map.mp used
    obtain ⟨-, startedAt, at_, -, known⟩ := recorded.results r ended
    unfold AppliedResult.attempt at attempt
    rw [at_] at attempt
    have same : (r.deploymentId, claimTokenSql startedAt) = (id, claimTokenSql now) := Option.some.inj attempt
    rw [same] at known
    exact held.fresh apart issued known
  · have outside : ∀ d ∈ response.deployments, d.deploymentId ≠ id := fun d member key => inside ⟨d, member, key⟩
    rw [held.others id outside] at found
    obtain ⟨startedAt, at_, issued, unused⟩ := recorded.running id row found status
    exact ⟨startedAt, at_, (held.mem_answered _).mpr (.inl issued), unused⟩

theorem Held.readable (held : Held t response.deployments w) {attempt : Nat × String}
    (member : attempt ∈ response.deployments.map fun d => (d.deploymentId, d.claimToken)) : CLAIM_TOKEN_RE attempt.2 := by
  obtain ⟨d, inside, same⟩ := List.mem_map.mp member
  obtain ⟨-, -, -, -, now, small, token, -⟩ := held.claimed d inside
  rw [← same, token]
  exact claimTokenSql_readable small

/-- The COMMIT starts what the thread has reserved, each deployment once. -/
theorem Held.recorded (held : Held t response.deployments w) (recorded : Recorded w) (locked : inventorySchema.Locked store)
    (seen : store.committed = inventorySchema.view w.store t)
    (apart : StartedApart w.log (observe w.store.committed (inventorySchema.view w.store t))) :
    Recorded (w.answered t response store) := by
  constructor
  case locked => exact locked
  case running =>
    intro id row found status
    change store.committed.deployments[id]? = some row at found
    rw [seen] at found
    exact held.running recorded apart found status
  case once =>
    unfold InventoryWorld.attempts InventoryWorld.answered
    rw [attempts_append, List.nodup_append]
    refine ⟨recorded.once, attempts_once (ids_observe _ _), fun old known attempt member same => ?_⟩
    subst same
    exact attempts_fresh apart member known
  case sent =>
    intro attempt
    rw [held.mem_answered, delivered_answered, List.mem_append, recorded.sent]
  case sentOnce =>
    rw [delivered_answered, List.nodup_append]
    refine ⟨recorded.sentOnce, ?_, fun old known attempt member same => ?_⟩
    · refine .of_map Prod.fst ?_
      rw [List.map_map]
      exact held.once
    · subst same
      exact held.fresh apart member ((recorded.sent _).mp known)
  case started =>
    intro change member pending running
    rcases List.mem_append.mp member with old | made
    · exact recorded.started change old pending running
    · obtain ⟨d, -, now, -, -, same⟩ := held.observed made
      rw [same]
      exact nofun
  case readable =>
    rw [delivered_answered]
    intro attempt member
    rcases List.mem_append.mp member with old | sent
    · exact recorded.readable attempt old
    · exact held.readable sent
  case requeued =>
    intro change member pending
    rcases List.mem_append.mp member with old | made
    · exact recorded.requeued change old pending
    · obtain ⟨d, -, now, -, -, same⟩ := held.observed made
      rw [same] at pending
      cases pending
  case results =>
    intro r member
    obtain ⟨running, startedAt, at_, token, issued⟩ := recorded.results r member
    exact ⟨running, startedAt, at_, token, (held.mem_answered _).mpr (.inl issued)⟩
  case applied => exact recorded.applied

end

/-- The COMMIT of a reservation and its response. -/
theorem commit_kept {response : CheckinResponse} {ok : Bool} (recorded : Recorded w)
    (held : Held t response.deployments w) (run : inventoryTeam.exec t (.commitAndSend response) w ok w₁) :
    Recorded w₁ ∧ (∀ u, u ≠ t → inventoryTeam.rely u w w₁) ∧ w₁.store.session t = none := by
  obtain ⟨⟨store, ran, dropped, apart, rfl⟩, -⟩ := run
  obtain ⟨changes, opened⟩ := held.opened
  cases ok with
  | false =>
    cases dropped rfl
    exact ⟨recorded.quiet (recorded.locked.close t) (.of_eq rfl), fun u other => Schema.moves_close other,
      Schema.session_close⟩
  | true =>
    rcases (Schema.exec_commit opened).mp ran with rfl | ⟨lost, -⟩
    case inr => cases lost
    refine ⟨?_, fun u other => Schema.moves_commit other recorded.locked opened fun _ _ => trivial,
      Schema.session_close⟩
    have seen : ((inventorySchema.publish changes w.store).close t).committed = inventorySchema.view w.store t :=
      (Schema.view_of_session opened).symm
    rw [seen] at apart ⊢
    rw [if_pos rfl]
    exact held.recorded recorded ((recorded.locked.publish changes).close t) seen apart

/-- An operation on the open transaction leaves the table, and so the history, as it is. -/
theorem inside_kept {o : SqlOp InventoryStmt} {answer : o.Res InventoryStmt.Ans} (recorded : Recorded w)
    (inside : Schema.Inside o) (run : inventoryTeam.exec t (.sql o) w answer w₁) :
    Recorded w₁ ∧ (∀ u, u ≠ t → inventoryTeam.rely u w w₁) ∧
      w₁.store.committed = w.store.committed ∧ inventorySchema.exec t o w.store answer w₁.store := by
  obtain ⟨⟨store, ran, rfl⟩, -⟩ := run
  obtain ⟨same, locked, moves⟩ := Schema.exec_inside inside recorded.locked ran
  have nothing : applied w.store.committed o answer = [] := by
    cases o with
    | query s => exact absurd inside id
    | _ => rfl
  rw [nothing, List.append_nil]
  refine ⟨recorded.quiet locked (.of_eq ?_), moves, same, ran⟩
  rw [same]

theorem pending_once {deviceId : Nat} {draw : InventoryDraw}
    {out : Outcome InventoryChange InventoryLock (List PendingDeployment)}
    (run : (InventoryStmt.pendingDeployments deviceId).run draw db = some out) :
    (out.answer.map (·.deploymentId)).Nodup := by
  obtain ⟨sorted, picked, read⟩ := Option.bind_eq_some_iff.mp run
  cases read
  have keys := Table.keys_orderBy picked (by
    rw [List.map_map]
    exact Table.keys_select _ _)
  rw [List.map_take, List.map_map]
  exact keys.sublist (List.take_sublist _ _)

theorem ids_claimed (rows : List (Nat × Deployment)) (snapshots : Table Snapshot) (claimToken : String) :
    ((rows.filterMap fun (id, d) => snapshots[id]?.map fun snapshot =>
      (⟨id, d.packageId, claimToken, snapshot⟩ : ClaimedDeployment)).map (·.deploymentId)).Sublist
      (rows.map Prod.fst) := by
  induction rows with
  | nil => exact List.Sublist.slnil
  | cons e rows ih =>
    obtain ⟨id, d⟩ := e
    rw [List.filterMap_cons, List.map_cons]
    dsimp only
    cases snapshots[id]? with
    | none => exact ih.cons _
    | some snapshot => exact ih.cons_cons _

/-- What a reservation answers: pending deployments among those asked for, each with the
token of its new attempt; the others it leaves alone. -/
theorem claim_run {ids : List Nat} {draw : InventoryDraw}
    {out : Outcome InventoryChange InventoryLock (List ClaimedDeployment)}
    (run : (InventoryStmt.claimDeployments ids).run draw db = some out) :
    (∀ d ∈ out.answer, d.deploymentId ∈ ids ∧ .deployment d.deploymentId ∈ inventorySchema.needs out ∧
      ∃ row : Deployment, db.deployments[d.deploymentId]? = some row ∧ row.status = .pending ∧
      ∃ now, now < BIGINT_END ∧ d.claimToken = claimTokenSql now ∧
        (inventorySchema.applyAll out.changes db).deployments[d.deploymentId]? =
          some { row with status := .running, startedAt := some now }) ∧
    (∀ id, (∀ d ∈ out.answer, d.deploymentId ≠ id) →
      (inventorySchema.applyAll out.changes db).deployments[id]? = db.deployments[id]?) ∧
    (out.answer.map (·.deploymentId)).Nodup := by
  simp only [InventoryStmt.run] at run
  split at run
  case isFalse => cases run
  rename_i small
  cases run
  unfold updateDeployments
  dsimp only
  refine ⟨fun d member => ?_, fun id outside => ?_, ?_⟩
  · obtain ⟨⟨id, row₁⟩, written, sent⟩ := List.mem_filterMap.mp member
    obtain ⟨snapshot, -, same⟩ := Option.map_eq_some_iff.mp sent
    subst same
    obtain ⟨row, found, satisfied, same⟩ := Table.mem_update.mp written
    subst same
    have wanted := satisfied
    simp only [isPending, Bool.and_eq_true, decide_eq_true_eq, List.contains_iff_mem] at satisfied
    refine ⟨satisfied.1.1.1.1, ?_, row, found, satisfied.1.1.1.2, draw.now, small, rfl, ?_⟩
    · refine Schema.mem_needs (List.mem_map_of_mem written) ?_
      exact List.mem_cons_self
    · dsimp only
      rw [deployments_writeDeployments, Table.getElem?_write_update, found, Option.map_some, if_pos wanted]
  · rw [deployments_writeDeployments, Table.getElem?_write_update]
    cases found : db.deployments[id]? with
    | none => rfl
    | some row =>
      rw [Option.map_some, if_neg]
      intro satisfied
      have wanted := satisfied
      simp only [Bool.and_eq_true, Std.ExtTreeMap.contains_iff_mem] at satisfied
      obtain ⟨snapshot, stored⟩ := Option.isSome_iff_exists.mp
        (Std.ExtTreeMap.isSome_getElem?_iff_mem.mpr satisfied.1.1.2)
      refine outside ⟨id, row.packageId, claimTokenSql draw.now, snapshot⟩ ?_ rfl
      refine List.mem_filterMap.mpr ⟨_, Table.mem_update.mpr ⟨row, found, wanted, rfl⟩, ?_⟩
      dsimp only
      rw [stored]
      rfl
  · exact (Table.keys_update db.deployments ..).sublist (ids_claimed ..)

theorem Held.begin (idle : w.store.session t = none)
    (run : inventorySchema.exec t .begin w.store true w₁.store) : Held t [] w₁ := by
  rcases run with ⟨-, same⟩ | ⟨failed, -⟩
  case inr => cases failed
  have opened : w₁.store.session t = some ⟨[], false⟩ := by
    rw [same]
    exact Schema.session_openTx idle
  exact ⟨⟨[], opened⟩, fun _ member => absurd member List.not_mem_nil,
    fun id _ => by rw [Schema.view_of_session opened]; rfl, List.nodup_nil⟩

/-- A statement of the reservation that answers: what the transaction sees after it. -/
theorem Held.within {reserved : List ClaimedDeployment} {s : InventoryStmt} {answer : s.Ans}
    (held : Held t reserved w) (run : inventorySchema.exec t (.within s) w.store (some answer) w₁.store) :
    ∃ draw out, s.run draw (inventorySchema.view w.store t) = some out ∧ out.answer = answer ∧
      (∃ changes, w₁.store.session t = some ⟨changes, false⟩) ∧
      (∀ k, w.store.owner k = some t ∨ k ∈ inventorySchema.needs out → w₁.store.owner k = some t) ∧
      inventorySchema.view w₁.store t = inventorySchema.applyAll out.changes (inventorySchema.view w.store t) := by
  obtain ⟨changes, opened⟩ := held.opened
  rcases (Schema.exec_within opened).mp run with ⟨draw, out, ran, -, same, written⟩ | ⟨failed, -⟩
  case inr => cases failed
  refine ⟨draw, out, ran, (Option.some.inj same).symm, ?_⟩
  rw [written]
  exact ⟨⟨_, Schema.session_write opened⟩, fun k => Schema.owner_write, Schema.view_write opened⟩

theorem Held.scripts {ids : List Nat} {claimed : List ScriptCommand} (held : Held t [] w)
    (same : w₁.store.committed = w.store.committed)
    (run : inventorySchema.exec t (.within (.claimScripts ids)) w.store (some claimed) w₁.store) :
    Held t [] w₁ := by
  obtain ⟨draw, out, ran, -, opened, -, view⟩ := held.within run
  cases ran
  refine ⟨opened, fun _ member => absurd member List.not_mem_nil, fun id outside => ?_, List.nodup_nil⟩
  rw [view, same, deployments_applyAll, held.others id outside]
  intro c member key row
  obtain ⟨e, -, rfl⟩ := List.mem_map.mp member
  exact nofun

theorem Held.deployments {ids : List Nat} {claimed : List ClaimedDeployment} (held : Held t [] w)
    (same : w₁.store.committed = w.store.committed)
    (run : inventorySchema.exec t (.within (.claimDeployments ids)) w.store (some claimed) w₁.store) :
    Held t claimed w₁ ∧ ∀ d ∈ claimed, d.deploymentId ∈ ids := by
  obtain ⟨draw, out, ran, rfl, opened, owner, view⟩ := held.within run
  obtain ⟨each, others, once⟩ := claim_run ran
  refine ⟨⟨opened, fun d member => ?_, fun id outside => ?_, once⟩, fun d member => (each d member).1⟩
  · obtain ⟨-, needed, row, found, pending, now, small, token, written⟩ := each d member
    rw [held.others _ fun _ inside => absurd inside List.not_mem_nil] at found
    refine ⟨owner _ (.inr needed), row, ?_, pending, now, small, token, ?_⟩
    · rw [same]
      exact found
    · rw [view]
      exact written
  · rw [view, same, others id outside, held.others id fun _ inside => absurd inside List.not_mem_nil]

/-- The rows reserved, in the order of their selection, are the same rows. -/
theorem Held.sort {pending : List PendingDeployment} {claimed : List ClaimedDeployment} (held : Held t claimed w)
    (wanted : ∀ d ∈ claimed, d.deploymentId ∈ pending.map (·.deploymentId))
    (once : (pending.map (·.deploymentId)).Nodup) :
    Held t (pending.filterMap fun r => claimed.find? (·.deploymentId = r.deploymentId)) w := by
  have member : ∀ d, d ∈ pending.filterMap (fun r => claimed.find? (·.deploymentId = r.deploymentId)) ↔
      d ∈ claimed := by
    intro d
    rw [List.mem_filterMap]
    constructor
    · intro ⟨r, _, found⟩
      exact List.mem_of_find?_eq_some found
    · intro inside
      obtain ⟨r, asked, key⟩ := List.mem_map.mp (wanted d inside)
      refine ⟨r, asked, ?_⟩
      cases found : claimed.find? (·.deploymentId = r.deploymentId) with
      | none =>
        have apart := List.find?_eq_none.mp found d inside
        rw [decide_eq_true_eq] at apart
        exact absurd key.symm apart
      | some e =>
        have same := List.find?_some found
        rw [decide_eq_true_eq] at same
        exact congrArg some (List.inj_on_of_nodup_map held.once (List.mem_of_find?_eq_some found) inside
          (same.trans key))
  refine ⟨held.opened, fun d inside => held.claimed d ((member d).mp inside), fun id outside => ?_, ?_⟩
  · exact held.others id fun d inside => outside d ((member d).mpr inside)
  · refine once.sublist ?_
    clear member wanted once
    induction pending with
    | nil => exact List.Sublist.slnil
    | cons r pending ih =>
      rw [List.filterMap_cons, List.map_cons]
      cases found : claimed.find? (·.deploymentId = r.deploymentId) with
      | none => exact ih.cons _
      | some d =>
        have same := List.find?_some found
        rw [decide_eq_true_eq] at same
        rw [List.map_cons, same]
        exact ih.cons_cons _

/-- No transaction of this request is open. -/
def Idle (t : Nat) (w : InventoryWorld) : Prop := w.store.session t = none

section
variable {α : Type} {post : α → InventoryWorld → Prop}

theorem safe_query {s : InventoryStmt} {next : Option s.Ans → Deploying α}
    (alone : ∀ ids, s ≠ .claimDeployments ids) (idle : Idle t w)
    (later : ∀ (w₁ : InventoryWorld) answer (w₂ : InventoryWorld),
      inventorySchema.exec t (.query s) w₁.store answer w₂.store → Recorded w₂ → Idle t w₂ →
      (inventoryTeam.rules t).Safe post (next answer) w₂) :
    (inventoryTeam.rules t).Safe post (query s >>= next) w := by
  refine Rules.Safe.perform ?_
  intro w₁ moves recorded answer w₂ run
  obtain ⟨recorded₂, others, session⟩ := query_kept recorded alone run
  refine ⟨recorded₂, ⟨fun u _ => others u, trivial⟩, later w₁ answer w₂ ?_ recorded₂ ?_⟩
  · obtain ⟨⟨store, ran, rfl⟩, -⟩ := run
    exact ran
  · unfold Idle
    rw [session, moves.session]
    exact idle

/-- An operation on the open transaction. -/
theorem safe_inside {o : SqlOp InventoryStmt} {next : o.Res InventoryStmt.Ans → Deploying α}
    (inside : Schema.Inside o)
    (later : ∀ w₁ answer w₂, inventoryTeam.rely t w w₁ → Recorded w₁ → w₂.store.committed = w₁.store.committed →
      inventorySchema.exec t o w₁.store answer w₂.store → Recorded w₂ →
      (inventoryTeam.rules t).Safe post (next answer) w₂) :
    (inventoryTeam.rules t).Safe post (perform (.sql o) >>= next) w := by
  refine Rules.Safe.perform ?_
  intro w₁ moves recorded answer w₂ run
  obtain ⟨recorded₂, others, same, ran⟩ := inside_kept recorded inside run
  exact ⟨recorded₂, ⟨others, trivial⟩, later w₁ answer w₂ moves recorded same ran recorded₂⟩

theorem safe_idle (idle : Idle t w) (value : α) :
    (inventoryTeam.rules t).Safe (fun _ => Idle t) (.ret value) w := by
  intro w₁ moves _
  unfold Idle
  rw [moves.session]
  exact idle

end

theorem safe_rollback : (inventoryTeam.rules t).Safe (fun _ => Idle t) rollback w := by
  refine safe_inside trivial fun w₁ _ w₂ _ _ _ ran _ => safe_idle ?_ _
  have closed : w₂.store = w₁.store.close t := ran
  unfold Idle
  rw [closed]
  exact Schema.session_close

theorem safe_reportResults {deviceId : Nat} (results : List DeploymentResult) (recorded : Recorded w)
    (idle : Idle t w) : (inventoryTeam.rules t).Safe (fun _ => Idle t) (reportResults deviceId results) w := by
  induction results generalizing w with
  | nil => exact safe_idle idle ()
  | cons r rest ih =>
    unfold reportResults
    cases r.deploymentId with
    | none => exact ih recorded idle
    | some deploymentId => exact safe_query nofun idle fun _ _ _ _ recorded₂ idle₂ => ih recorded₂ idle₂

theorem safe_noSnapshotTable (idle : Idle t w) : (inventoryTeam.rules t).Safe
    (fun rows w => Idle t w ∧ ∀ list, rows = some list → (list.map (·.deploymentId)).Nodup) noSnapshotTable w := by
  have ends : ∀ {w : InventoryWorld} {rows : Option (List PendingDeployment)}, Idle t w →
      (∀ list, rows = some list → (list.map (·.deploymentId)).Nodup) → (inventoryTeam.rules t).Safe
      (fun rows w => Idle t w ∧ ∀ list, rows = some list → (list.map (·.deploymentId)).Nodup) (.ret rows) w :=
    fun idle once _ moves kept => ⟨safe_idle idle () _ moves kept, once⟩
  refine Rules.Safe.perform ?_
  intro w₁ moves recorded answer w₂ run
  cases run.1
  refine ⟨recorded, ⟨fun u _ => inventoryTeam.rely_refl u w₁, trivial⟩, ?_⟩
  have idle₁ := safe_idle idle () w₁ moves recorded
  cases answer with
  | true =>
    refine ends idle₁ fun list same => ?_
    cases same
    exact List.nodup_nil
  | false => exact ends idle₁ nofun

theorem safe_selectPending {deviceId : Nat} {deploymentsAllowed : Bool} (idle : Idle t w) :
    (inventoryTeam.rules t).Safe
      (fun rows w => Idle t w ∧ ∀ list, rows = some list → (list.map (·.deploymentId)).Nodup)
      (selectPending deviceId deploymentsAllowed) w := by
  refine safe_query nofun idle fun _ answer w₂ _ _ idle₂ => ?_
  cases answer with
  | none => exact safe_noSnapshotTable idle₂
  | some _ =>
    cases deploymentsAllowed with
    | false =>
      refine fun w₃ moves kept => ⟨safe_idle idle₂ () w₃ moves kept, fun list same => ?_⟩
      cases same
      exact List.nodup_nil
    | true =>
      refine safe_query nofun idle₂ fun w₃ rows w₄ ran _ idle₄ => ?_
      cases rows with
      | none => exact safe_noSnapshotTable idle₄
      | some rows =>
        refine fun w₅ moves kept => ⟨safe_idle idle₄ () w₅ moves kept, fun list same => ?_⟩
        cases same
        rcases ran with ⟨draw, out, run, -, answer, -⟩ | ⟨failed, -⟩
        · cases answer
          exact pending_once run
        · cases failed

/-- What the two reservations leave: the transaction is in order when they answer. -/
theorem safe_reserveScripts {pending : List ScriptCommand} (held : Held t [] w) (recorded : Recorded w) :
    (inventoryTeam.rules t).Safe (fun answer w => answer ≠ none → Held t [] w) (reserveScripts pending) w := by
  unfold reserveScripts
  split
  · exact fun w₁ moves _ _ => held.rely recorded moves
  · refine safe_inside trivial fun w₁ answer w₂ moves recorded₁ same ran recorded₂ => ?_
    cases answer with
    | none => exact fun _ _ _ answered => absurd rfl answered
    | some claimed =>
      have held₂ := (held.rely recorded moves).scripts same ran
      exact fun w₃ moves₃ _ _ => held₂.rely recorded₂ moves₃

theorem safe_reserveDeployments {pending : List PendingDeployment} (held : Held t [] w) (recorded : Recorded w)
    (once : (pending.map (·.deploymentId)).Nodup) : (inventoryTeam.rules t).Safe
      (fun answer w => ∀ reserved, answer = some reserved → Held t reserved w) (reserveDeployments pending) w := by
  unfold reserveDeployments
  split
  · intro w₁ moves _ reserved same
    cases same
    exact held.rely recorded moves
  · refine safe_inside trivial fun w₁ answer w₂ moves recorded₁ same ran recorded₂ => ?_
    cases answer with
    | none => exact fun _ _ _ _ absent => nomatch absent
    | some claimed =>
      obtain ⟨held₂, wanted⟩ := (held.rely recorded moves).deployments same ran
      intro w₃ moves₃ _ reserved sorted
      cases sorted
      exact (held₂.sort wanted once).rely recorded₂ moves₃

theorem safe_reserve {scripts : List ScriptCommand} {deployments : List PendingDeployment} (idle : Idle t w)
    (once : (deployments.map (·.deploymentId)).Nodup) :
    (inventoryTeam.rules t).Safe (fun _ => Idle t) (reserve scripts deployments) w := by
  refine safe_inside trivial fun w₁ ok w₂ moves _ _ ran recorded₂ => ?_
  cases ok with
  | false => exact safe_rollback
  | true =>
    have idle₁ : Idle t w₁ := moves.session.trans idle
    refine (safe_reserveScripts (Held.begin idle₁ ran) recorded₂).bind recorded₂ fun commands w₃ recorded₃ held₃ => ?_
    cases commands with
    | none => exact safe_rollback
    | some commands =>
      refine (safe_reserveDeployments (held₃ nofun) recorded₃ once).bind recorded₃
        fun claimed w₄ recorded₄ held₄ => ?_
      cases claimed with
      | none => exact safe_rollback
      | some claimed =>
        refine Rules.Safe.perform fun w₅ moves₅ recorded₅ ok w₆ run => ?_
        have held₅ := (held₄ claimed rfl).rely recorded₄ moves₅
        obtain ⟨recorded₆, others, idle₆⟩ := commit_kept recorded₅ held₅ run
        refine ⟨recorded₆, ⟨others, trivial⟩, ?_⟩
        cases ok with
        | true => exact safe_idle idle₆ _
        | false => exact safe_rollback

theorem safe_checkin {req : CheckinRequest} (recorded : Recorded w) (idle : Idle t w) :
    (inventoryTeam.rules t).Safe (fun _ => Idle t) (checkin req) w := by
  refine (safe_reportResults req.deploymentResults recorded idle).bind recorded fun _ w₁ _ idle₁ => ?_
  refine safe_query nofun idle₁ fun _ scripts w₂ _ recorded₂ idle₂ => ?_
  cases scripts with
  | none => exact safe_idle idle₂ _
  | some scripts =>
    refine (safe_selectPending idle₂).bind recorded₂ fun rows w₃ _ ⟨idle₃, once⟩ => ?_
    cases rows with
    | none => exact safe_idle idle₃ _
    | some rows =>
      dsimp only
      split
      · exact safe_reserve idle₃ ((once rows rfl).sublist (List.filter_sublist.map _))
      · exact safe_idle idle₃ _

theorem safe_isPullManaged {deviceId : Nat} (idle : Idle t w) :
    (inventoryTeam.rules t).Safe (fun _ => Idle t) (isPullManaged deviceId) w := by
  refine safe_query nofun idle fun _ answer w₂ _ _ idle₂ => ?_
  cases answer <;> exact safe_idle idle₂ _

theorem safe_cancelRoute {id : Nat} (idle : Idle t w) :
    (inventoryTeam.rules t).Safe (fun _ => Idle t) (cancelRoute id) w := by
  refine safe_query nofun idle fun _ answer w₂ _ _ idle₂ => ?_
  match answer with
  | none | some none | some (some row) => exact safe_idle idle₂ _

theorem safe_cancelBulkRoute {ids : List Nat} (idle : Idle t w) :
    (inventoryTeam.rules t).Safe (fun _ => Idle t) (cancelBulkRoute ids) w := by
  unfold cancelBulkRoute
  split
  · exact safe_idle idle _
  · exact safe_query nofun idle fun _ _ _ _ _ idle₂ => safe_idle idle₂ _

theorem safe_retryBulkRoute {ids : List Nat} (idle : Idle t w) :
    (inventoryTeam.rules t).Safe (fun _ => Idle t) (retryBulkRoute ids) w := by
  unfold retryBulkRoute
  split
  · exact safe_idle idle _
  · exact safe_query nofun idle fun _ _ _ _ _ idle₂ => safe_idle idle₂ _

theorem safe_retryRoute {id : Nat} (idle : Idle t w) :
    (inventoryTeam.rules t).Safe (fun _ => Idle t) (retryRoute id) w := by
  refine safe_query nofun idle fun _ answer w₂ _ recorded₂ idle₂ => ?_
  match answer with
  | none | some none => exact safe_idle idle₂ _
  | some (some existing) =>
    dsimp only
    split
    · exact safe_idle idle₂ _
    refine (safe_isPullManaged idle₂).bind recorded₂ fun managed w₃ _ idle₃ => ?_
    match managed with
    | none | some true => exact safe_idle idle₃ _
    | some false =>
      refine safe_query nofun idle₃ fun _ conflict w₄ _ _ idle₄ => ?_
      match conflict with
      | none | some (_ :: _) => exact safe_idle idle₄ _
      | some [] =>
        refine safe_query nofun idle₄ fun _ rows w₅ _ _ idle₅ => ?_
        match rows with
        | none | some none | some (some row) => exact safe_idle idle₅ _

theorem safe_timeoutStuckDeployments (idle : Idle t w) :
    (inventoryTeam.rules t).Safe (fun _ => Idle t) timeoutStuckDeployments w :=
  safe_query nofun idle fun _ _ _ _ _ idle₂ => safe_idle idle₂ _

theorem safe_runs {α : Type} {program : Deploying α} (recorded : Recorded w)
    (safe : (inventoryTeam.rules t).Safe (fun _ => Idle t) program w) : inventoryTeam.Safe t (runs program) w :=
  safe.bind recorded fun _ _ _ idle => safe_idle idle ()

theorem inventory_verified : (inventory.restrict RetriesInactive).Verified inventoryTeam where
  exec run := run
  env := by
    rintro w _ recorded ⟨change, allowed, free, rfl⟩
    refine ⟨recorded.quiet (recorded.locked.publish [change]) (mild_outside allowed), fun t => ?_⟩
    refine Schema.moves_publish (fun _ _ => trivial) fun c member k needed owned => ?_
    rw [List.mem_singleton.mp member] at needed
    cases (free k needed).symm.trans owned
  entry := by
    intro program t w allowed recorded idle
    rcases allowed with ⟨req, rfl⟩ | ⟨id, rfl⟩ | ⟨ids, rfl⟩ | ⟨id, rfl⟩ | ⟨ids, rfl⟩ | rfl
    · exact safe_runs recorded (safe_checkin recorded idle)
    · exact safe_runs recorded (safe_cancelRoute idle)
    · exact safe_runs recorded (safe_cancelBulkRoute idle)
    · exact safe_runs recorded (safe_retryRoute idle)
    · exact safe_runs recorded (safe_retryBulkRoute idle)
    · exact safe_runs recorded (safe_timeoutStuckDeployments idle)
  drop {t w} recorded := by
    have closed := recorded.locked.close t
    exact ⟨{ recorded with locked := closed }, fun w₁ moves _ => moves.session.trans Schema.session_close,
      fun u other => Schema.moves_close other⟩

theorem inventoryStart_inv (w : InventoryWorld) (start : InventoryStart w) :
    inventoryTeam.inv w ∧ ∀ t w₁, inventoryTeam.rely t w w₁ → inventoryTeam.inv w₁ → inventoryTeam.idle t w₁ := by
  obtain ⟨db, rfl, quiet⟩ := start
  refine ⟨?_, fun t w₁ moves _ => moves.session⟩
  constructor
  case locked => exact Schema.locked_start db
  case running => exact fun id row found status => absurd status (quiet id row found)
  case once => exact List.nodup_nil
  case sent => exact fun _ => Iff.rfl
  case sentOnce => exact List.nodup_nil
  case applied => exact List.nodup_nil
  all_goals exact fun _ member => absurd member List.not_mem_nil

/-- However the requests and the cleanup interleave, attempts and results do not mix, as
long as no single retry puts an active deployment back. -/
theorem attempts_apart {c : Threads.Config InventoryOp.Res InventoryWorld}
    (reach : (inventory.restrict RetriesInactive).Reach InventoryStart c) : AttemptsApart c.world :=
  (reach.inv inventory_verified inventoryStart_inv).apart

/-! A deployment that has failed once, its package approved. -/

def demoFailed : Deployment := ⟨1, 5, .failed, some 1, none, 100, some 200, some 300⟩

def demoPending : Deployment := requeued 400 demoFailed

def demoRunning : Deployment := { demoPending with status := .running, startedAt := some 500 }

def demoContent : Snapshot := ⟨"7-Zip", "winget", some "7zip.7zip", none, none, none⟩

/-- The database with this row as the only deployment. -/
def demoDb (row : Deployment) : InventoryDb :=
  ⟨(∅ : Table _).insert 7 row, (∅ : Table _).insert 7 demoContent, (∅ : Table _).insert 1 ⟨demoContent, .approved⟩,
    (∅ : Table _).insert 5 ⟨none⟩, ∅⟩

def demoDraw (now : Nat) : InventoryDraw := ⟨now, [7], [7], []⟩

def demoFirst : InventoryWorld := ⟨.start (demoDb demoFailed), [], [], []⟩

def demoRequeued : InventoryWorld := ⟨.start (demoDb demoPending), [⟨7, .failed, .pending, none⟩], [], []⟩

def demoResponse : CheckinResponse := ⟨[], [⟨7, 1, claimTokenSql 500, demoContent⟩]⟩

variable {cond : Nat → (o : InventoryOp) → InventoryWorld → o.Res → InventoryWorld → Prop}

/-- Two clicks have read the failed deployment, and the first has put it back. -/
theorem demo_requeued
    (meets : ∀ t o w answer w₁, (∀ id, o ≠ .sql (.query (.retry id))) → cond t o w answer w₁)
    (first : ∀ answer w₁, cond 0 (.sql (.query (.retry 7))) demoFirst answer w₁) :
    ∃ runs rest, runs 2 = .ret () ∧ runs 1 = .op (.sql (.query (.retry 7))) rest ∧
      (inventory.restrict cond).Reach InventoryStart ⟨demoRequeued, runs⟩ := by
  have quiet : ∀ (id : Nat) (row : Deployment), (demoDb demoFailed).deployments[id]? = some row →
      row.status ≠ .running := by
    intro id row found
    by_cases here : id = 7
    · subst here
      cases (Table.getElem?_insert_self ..).symm.trans found
      exact nofun
    · cases (Table.getElem?_insert_of_ne ∅ here demoFailed).symm.trans found
  have r := (show (inventory.restrict cond).Reach InventoryStart ⟨demoFirst, fun _ => .ret ()⟩ from
    .init ⟨_, rfl, quiet⟩)
  have r := r.begins 0 (runs (retryRoute 7)) rfl (.inr (.inr (.inr (.inl ⟨_, rfl⟩))))
  have r := r.begins 1 (runs (retryRoute 7)) rfl (.inr (.inr (.inr (.inl ⟨_, rfl⟩))))
  have r := r.perform 0 rfl (some (some demoFailed)) demoFirst
    ⟨⟨_, .inl ⟨demoDraw 400, _, rfl, fun _ _ => .inl rfl, rfl, rfl⟩, rfl⟩, meets _ _ _ _ _ nofun⟩
  have r := r.perform 1 rfl (some (some demoFailed)) demoFirst
    ⟨⟨_, .inl ⟨demoDraw 400, _, rfl, fun _ _ => .inl rfl, rfl, rfl⟩, rfl⟩, meets _ _ _ _ _ nofun⟩
  have r := r.perform 0 rfl (some (some none)) demoFirst
    ⟨⟨_, .inl ⟨demoDraw 400, _, rfl, fun _ _ => .inl rfl, rfl, rfl⟩, rfl⟩, meets _ _ _ _ _ nofun⟩
  have r := r.perform 1 rfl (some (some none)) demoFirst
    ⟨⟨_, .inl ⟨demoDraw 400, _, rfl, fun _ _ => .inl rfl, rfl, rfl⟩, rfl⟩, meets _ _ _ _ _ nofun⟩
  have r := r.perform 0 rfl (some []) demoFirst
    ⟨⟨_, .inl ⟨demoDraw 400, _, rfl, fun _ _ => .inl rfl, rfl, rfl⟩, rfl⟩, meets _ _ _ _ _ nofun⟩
  have r := r.perform 1 rfl (some []) demoFirst
    ⟨⟨_, .inl ⟨demoDraw 400, _, rfl, fun _ _ => .inl rfl, rfl, rfl⟩, rfl⟩, meets _ _ _ _ _ nofun⟩
  have r := r.perform 0 rfl (some (some demoPending)) demoRequeued
    ⟨⟨_, .inl ⟨demoDraw 400, _, rfl, fun _ _ => .inl rfl, rfl, rfl⟩, rfl⟩, first _ _⟩
  exact ⟨_, _, by rfl, by rfl, r⟩

def demoCheckin : CheckinRequest := ⟨5, [], true, false, true⟩

theorem demo_apart :
    StartedApart [⟨7, .failed, .pending, none⟩] [⟨7, .pending, .running, some 500⟩] := by
  unfold StartedApart
  decide

/-- A check-in that takes the deployment, which has been put back. -/
theorem demo_claimed {runs : Nat → Deploying Unit}
    (meets : ∀ t o w answer w₁, (∀ id, o ≠ .sql (.query (.retry id))) → cond t o w answer w₁)
    (idle : runs 2 = .ret ())
    (reach : (inventory.restrict cond).Reach InventoryStart ⟨demoRequeued, runs⟩) :
    ∃ runs₁ store, runs₁ 1 = runs 1 ∧ store.committed = demoDb demoRunning ∧ store.owner (.deployment 7) = none ∧
      store.owner (.snapshot 7) = none ∧
      (inventory.restrict cond).Reach InventoryStart
        ⟨⟨store, [⟨7, .failed, .pending, none⟩, ⟨7, .pending, .running, some 500⟩], [demoResponse], []⟩, runs₁⟩ := by
  have r := reach.begins 2 (Inventory.runs (checkin demoCheckin)) idle (.inl ⟨_, rfl⟩)
  have r := r.perform 2 rfl (some []) demoRequeued
    ⟨⟨_, .inl ⟨⟨500, [], [], []⟩, _, rfl, fun _ _ => .inl rfl, rfl, rfl⟩, rfl⟩, meets _ _ _ _ _ nofun⟩
  have r := r.perform 2 rfl (some ()) demoRequeued
    ⟨⟨_, .inl ⟨demoDraw 500, _, rfl, fun _ _ => .inl rfl, rfl, rfl⟩, rfl⟩, meets _ _ _ _ _ nofun⟩
  have r := r.perform 2 rfl (some [⟨7, some demoContent⟩]) demoRequeued
    ⟨⟨_, .inl ⟨demoDraw 500, _, rfl, fun _ _ => .inl rfl, rfl, rfl⟩, rfl⟩, meets _ _ _ _ _ nofun⟩
  have r := r.perform 2 rfl true { demoRequeued with store := demoRequeued.store.openTx 2 }
    ⟨⟨_, .inl ⟨rfl, rfl⟩, rfl⟩, meets _ _ _ _ _ nofun⟩
  have r := r.perform 2 rfl (some demoResponse.deployments)
    { demoRequeued with
      store := (demoRequeued.store.openTx 2).write 2 [.deployment 7 (some demoRunning)] [.deployment 7] }
    ⟨⟨_, .inl ⟨demoDraw 500, _, rfl, fun _ _ => .inl rfl, rfl, rfl⟩, rfl⟩, meets _ _ _ _ _ nofun⟩
  have r := r.perform 2 rfl true ⟨_, _, _, _⟩
    ⟨⟨_, .inl rfl, nofun, demo_apart, rfl⟩, meets _ _ _ _ _ nofun⟩
  exact ⟨_, _, by rfl, by rfl, by rfl, by rfl, r⟩

/-- A deployment retried once and delivered once. -/
theorem attempts_apart_retried : ∃ c : Threads.Config InventoryOp.Res InventoryWorld,
    c.world.delivered = [(7, claimTokenSql 500)] ∧ AttemptsApart c.world := by
  have meets : ∀ t o w answer w₁, (∀ id, o ≠ .sql (.query (.retry id))) → RetriesInactive t o w answer w₁ := by
    intro t o w answer w₁ other
    unfold RetriesInactive
    split
    · exact absurd rfl (other _)
    · trivial
  have failed : ¬RetryMeetsActive (demoDb demoFailed) 7 := by
    rintro ⟨row, found, active, -⟩
    cases (show some demoFailed = some row from found)
    rcases active with running | success
    · cases running
    · cases success
  obtain ⟨runs, rest, idle, -, r⟩ := demo_requeued meets fun _ _ => failed
  obtain ⟨runs₁, store, -, -, -, -, r⟩ := demo_claimed meets idle r
  exact ⟨_, rfl, attempts_apart r⟩

/-- The second click puts the deployment back although it has been claimed meanwhile. -/
theorem attempts_mixed : ¬∀ c : Threads.Config InventoryOp.Res InventoryWorld,
    inventory.Reach InventoryStart c → AttemptsApart c.world := by
  intro apart
  obtain ⟨runs, rest, idle, second, r⟩ :=
    @demo_requeued (fun _ _ _ _ _ => True) (fun _ _ _ _ _ _ => trivial) fun _ _ => trivial
  obtain ⟨runs₁, store, same, running, free, free₁, r⟩ := demo_claimed (fun _ _ _ _ _ _ => trivial) idle r
  have unlocked : store.Free none [.deployment 7, .snapshot 7] := by
    intro k member
    rcases List.mem_cons.mp member with rfl | last
    · exact .inl free
    · rw [List.mem_singleton.mp last]
      exact .inl free₁
  have back : ⟨7, .running, .pending, none⟩ ∈ observe store.committed (inventorySchema.publish
      [.deployment 7 (some (requeued 600 demoRunning)), .snapshot 7 (some demoContent)] store).committed := by
    unfold Schema.publish
    rw [running]
    exact List.mem_singleton_self _
  have r := r.perform 1 (same.trans second) (some (some (requeued 600 demoRunning))) _
    ⟨⟨_, .inl ⟨demoDraw 600, ⟨_, [.deployment 7 (some (requeued 600 demoRunning)), .snapshot 7 (some demoContent)], []⟩,
      by rw [running]; rfl, unlocked, rfl, rfl⟩, rfl⟩, trivial⟩
  rcases (apart _ r.of_restrict).requeued _ (List.mem_append_right _ back) rfl with failed | cancelled
  · cases failed
  · cases cancelled

end Opale.Inventory
