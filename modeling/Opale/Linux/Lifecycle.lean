import Opale.Linux.Committed
import Opale.Linux.LifeSteps

namespace Opale.Linux

open Sql Fleet

/-- The operations of a request, by the turns of the transactions under the advisory lock. -/
def enrollmentTurns (text : TextFns) : Sketch LinuxOp.Res (Turn Life) where
  allowed turn
    | .sql o => (enrollmentLock text).Allowed turn o
    | _ => True
  next turn
    | .sql o, answer, turn₁ => (enrollmentLock text).Next turn o answer turn₁
    | _, _, turn₁ => turn₁ = turn

theorem follows_linuxExec (text : TextFns) : (enrollmentLock text).Follows (enrollmentTurns text) (linuxExec text) := by
  intro t turn o st answer st₁ allowed holds kept run
  cases o with
  | sql o => exact kept.takesTurn holds allowed run
  | violated | dateNow | mismatchThrottle =>
    cases run
    exact ⟨.refl kept, turn, rfl, holds⟩

variable {text : TextFns} {start : Life} {P : Life → Prop} {α β : Type} {Q : α → Life → Prop}

abbrev Triple (text : TextFns) (start : Life) (P : Life → Prop) (program : Tx α) (Q : α → Life → Prop) : Prop :=
  Turn.Triple (enrollmentTurns text) start P program Q

theorem triple_within {s : LinuxStmt} {Q : s.Ans → Life → Prop}
    (runs : ∀ draw db out, s.run text draw db = some out → P db.life →
      Q out.answer ((linuxSchema text).applyAll out.changes db).life) : Triple text start P (Fleet.within s) Q := by
  intro now holds
  refine ⟨trivial, fun answer turn comes => ?_⟩
  rcases comes with ⟨draw, db, out, rfl, ran, rfl, rfl⟩ | ⟨rfl, rfl⟩
  · exact ⟨_, rfl, runs draw db out ran holds⟩
  · trivial

/-- A statement that only reads. -/
theorem triple_read {s : LinuxStmt} {Q : s.Ans → Life → Prop} (reads : s.table = none)
    (answers : ∀ draw db out, s.run text draw db = some out → P db.life → Q out.answer db.life) :
    Triple text start P (Fleet.within s) Q :=
  triple_within fun draw db out ran holds => by
    rw [run_reads ran reads]
    exact answers draw db out ran holds

/-- A program of such statements. -/
theorem triple_only {program : Tx α} (only : Only (Still text) program.run) :
    Triple text start P program fun _ => P := by
  intro now holds
  generalize program.run = tree at only
  induction tree generalizing now with
  | ret value =>
    cases value with
    | none => trivial
    | some value => exact ⟨now, rfl, holds⟩
  | op o rest ih =>
    rcases o with ⟨o⟩ | _ | _ | _
    case sql =>
      cases o
      case within s =>
        obtain ⟨still, stops, goes⟩ := only
        refine ⟨trivial, fun answer turn comes => ?_⟩
        rcases comes with ⟨draw, db, out, rfl, ran, rfl, rfl⟩ | ⟨rfl, rfl⟩
        · have same : ((linuxSchema text).applyAll out.changes db).life = db.life := still draw db out ran
          have kept : P ((linuxSchema text).applyAll out.changes db).life := by
            rw [same]
            exact holds
          exact ih _ _ kept (goes out.answer)
        · rw [stops]
          trivial
      all_goals exact only.elim
    all_goals exact only.elim

theorem triple_reads {program : Tx α} (reads : Reads program) : Triple text start P program fun _ => P :=
  triple_only (reads.mono fun _ => still_of_reads)

theorem triple_audit {entry : AuditEntry} : Triple text start P (logAudit entry) fun _ => P := by
  intro now holds
  refine ⟨trivial, fun answer turn comes => ?_⟩
  rcases comes with ⟨draw, db, out, rfl, ran, -, rfl⟩ | ⟨-, rfl⟩
  · have still : Still text (.insertAudit entry) := still_of_table nofun nofun nofun
    have same : ((linuxSchema text).applyAll out.changes db).life = db.life := still draw db out ran
    have kept : P ((linuxSchema text).applyAll out.changes db).life := by
      rw [same]
      exact holds
    exact ⟨_, rfl, kept⟩
  · exact ⟨now, rfl, holds⟩

theorem triple_dateNow : Triple text start P (OptionT.lift (perform .dateNow)) fun _ => P := by
  intro now holds
  refine ⟨trivial, fun answer turn same => ?_⟩
  rw [same]
  exact ⟨now, rfl, holds⟩

/-- So far nothing has been consumed. -/
structure Fine (start now : Life) : Prop where
  good : now.Good
  moves : start.Moves now

/-- What the transaction leaves when it commits. -/
structure Done (start now : Life) : Prop where
  good : now.Good
  step : start.Step now

def Pending (start : Life) (keyId : Nat) (now : Life) : Prop := Fine start now ∧ now.Waits keyId

theorem Fine.done {now : Life} (fine : Fine start now) : Done start now := ⟨fine.good, fine.moves.step⟩

theorem Fine.revokes {now now₁ : Life} (fine : Fine start now) (revokes : now.Revokes now₁) : Fine start now₁ :=
  ⟨fine.good.revokes revokes, fine.moves.trans (revokes.moves fine.good)⟩

theorem Fine.pull {now : Life} (fine : Fine start now) (d : Nat) : Fine start (now.pull d) :=
  ⟨fine.good.pull, fine.moves.trans Life.moves_pull⟩

/-- A key that is approved in this transaction, and was not before. -/
def Bound (start : Life) (keyId : Nat) (now : Life) : Prop :=
  Fine start now ∧ (∃ a, now.key keyId = some a ∧ a.status = .approved) ∧
    ∀ a, start.key keyId = some a → a.status ≠ .approved

theorem triple_bindKey {key : KeyRow} {device : DeviceRow} {actor : Text} {preregistration : Option PreregistrationRow} :
    Triple text start (fun now => Pending start key.1 now ∧ now.pulled device.1)
      (bindKey key device actor preregistration) fun _ => Done start := by
  have bound : Triple text start (fun now => Pending start key.1 now ∧ now.pulled device.1)
      (Fleet.within (.bindKey key.1 device.1 actor (preregistration.map (·.1)))) fun _ => Bound start key.1 := by
    refine triple_within ?_
    rintro draw db out ran ⟨⟨fine, fingerprint, here⟩, pulled⟩
    obtain ⟨after, free⟩ := life_bindKey ran here
    rw [after]
    have edge : Edge (db.life.key key.1) (some ⟨.approved, some device.1, fingerprint⟩) := here ▸ .approve fingerprint device.1
    exact ⟨⟨fine.good.approve here pulled free, fine.moves.trans (Life.moves_setKey edge)⟩, ⟨_, Life.setKey_self, rfl⟩,
      fine.moves.waits ⟨fingerprint, here⟩⟩
  refine bound.bind fun updated => ?_
  cases preregistration with
  | none => exact .ret fun now bound => bound.1.done
  | some preregistration =>
    refine Turn.Triple.bind (Q := fun _ => Done start) (triple_within ?_) fun _ => .ret fun _ done => done
    rintro draw db out ran ⟨fine, approved, new⟩
    rcases life_consumePreregistration ran with same | after
    · rw [same]
      exact fine.done
    · rw [after]
      exact ⟨fine.good.consume, fine.moves.consume approved new⟩

theorem triple_createPullDevice {keyId : Nat} {new : NewDevice} :
    Triple text start (Pending start keyId) (Fleet.within (.createPullDevice new))
      fun device now => Pending start keyId now ∧ now.pulled device.1 := by
  refine triple_within ?_
  rintro draw db out ran ⟨fine, waits⟩
  rw [life_createPullDevice ran]
  exact ⟨⟨fine.pull _, waits⟩, .inl rfl⟩

theorem triple_placeDevice {keyId : Nat} {device : Option DeviceRow} {hostname : Text} {serial : Option Text}
    {body : ApproveBody} {assignedUserId : Option Text} :
    Triple text start (Pending start keyId) (placeDevice device hostname serial body assignedUserId)
      fun placed now => Pending start keyId now ∧ now.pulled placed.1 := by
  unfold placeDevice
  cases device with
  | none => exact triple_createPullDevice
  | some device =>
    refine Turn.Triple.bind (Q := fun updated now => ∀ row, updated = some row → Pending start keyId now ∧ now.pulled row.1)
      (triple_within ?_) fun updated => ?_
    · rintro draw db out ran ⟨fine, waits⟩ row answer
      rw [life_updateDevice ran answer]
      exact ⟨⟨fine.pull _, waits⟩, .inl rfl⟩
    · cases updated with
      | none => exact .fail
      | some row => exact .ret fun now placed => placed row rfl

/-- An admin's transaction commits unless it refuses. -/
def Concludes {γ : Type} (start : Life) (reply : AdminReply γ) (now : Life) : Prop := reply.refused = true ∨ Done start now

theorem triple_completeApproval {actor : Text} {key : KeyRow} {found : Match}
    {taken : Option (DeviceRow × Option (List Nat))} {body : ApproveBody} :
    Triple text start (Pending start key.1) (completeApproval text actor key found taken body) (Concludes start) := by
  unfold completeApproval
  refine (triple_reads reads_resolveHostnamesForBatch).bind fun resolved => ?_
  split
  case h_2 => exact .ret fun _ _ => .inl rfl
  case h_3 => exact .fail
  case h_1 hostname =>
    refine (triple_reads reads_userKnown).bind fun known => ?_
    split
    case isFalse => exact .ret fun _ _ => .inl rfl
    case isTrue =>
      refine triple_placeDevice.bind fun placed => triple_bindKey.bind fun approved => ?_
      exact triple_audit.bind fun _ => .ret fun _ done => .inr done

theorem triple_clearWindowsFacts {deviceId : Nat} : Triple text start P (clearWindowsFacts deviceId) fun _ => P := by
  refine triple_only (clears_clearWindowsFacts.mono ?_)
  rintro s (facts | rfl | rfl)
  · apply still_of_table
    all_goals
      rw [facts]
      exact nofun
  · exact still_clearWindowsColumns
  · exact still_of_table nofun nofun nofun

theorem triple_supersedeActive {keyId : Nat} {device : DeviceRow} {actor : Text} {body : ApproveBody} :
    Triple text start (Pending start keyId) (supersedeActive device actor body) fun _ => Pending start keyId := by
  unfold supersedeActive
  refine Turn.Triple.bind (Q := fun active now => Pending start keyId now ∧
    ∀ old, active = some old → ∃ a, now.key old.1 = some a ∧ a.status = .approved) (triple_read rfl ?_) fun active => ?_
  · intro draw db out ran pending
    refine ⟨pending, fun old answer => ?_⟩
    cases ran
    obtain ⟨found, active⟩ := Table.mem_select.mp (List.mem_of_head? answer)
    rw [Bool.and_eq_true] at active
    exact ⟨_, key_life found, of_decide_eq_true active.2⟩
  · cases active with
    | none => exact .ret fun _ holds => holds.1
    | some old =>
      dsimp only
      split
      · exact .ret fun _ holds => holds.1
      · refine Turn.Triple.bind (Q := fun _ => Pending start keyId) (triple_within ?_) fun _ => .ret fun _ holds => holds
        rintro draw db out ran ⟨⟨fine, waits⟩, active⟩
        obtain ⟨a, here, approved⟩ := active old rfl
        have revokes := life_supersede ran here approved
        exact ⟨fine.revokes revokes, revokes.waits waits⟩

theorem triple_convert {device : DeviceRow} {serial : Option Text} {body : ApproveBody} :
    Triple text start P (convert text device serial body) fun _ => P := by
  have clear : Triple text start P (do
      let cleared ← clearWindowsFacts device.1
      return (.ok (some cleared) : AdminReply (Option (List Nat)))) fun _ => P :=
    triple_clearWindowsFacts.bind fun _ => .ret fun _ holds => holds
  unfold convert
  refine (triple_reads reads_checkDeviceClaim).bind fun claim => ?_
  split
  · split
    · exact .ret fun _ holds => holds
    · exact clear
  · exact clear

theorem triple_takeOver {actor : Text} {key : KeyRow} {found : Match} {targetId keyId : Nat} {body : ApproveBody} :
    Triple text start (Pending start keyId) (takeOver text actor key found targetId body)
      fun _ => Pending start keyId := by
  unfold takeOver
  refine (triple_reads (reads_within rfl)).bind fun target => ?_
  cases target with
  | none => exact .ret fun _ holds => holds
  | some device =>
    dsimp only
    split
    · exact .ret fun _ holds => holds
    split
    · exact .ret fun _ holds => holds
    split
    · exact triple_supersedeActive.bind fun _ => .ret fun _ holds => holds
    · exact triple_convert.bind fun _ => .ret fun _ holds => holds

theorem triple_approvePending {actor : Text} {key : KeyRow} {body : ApproveBody} :
    Triple text start (Pending start key.1) (approvePending text actor key body) (Concludes start) := by
  unfold approvePending
  refine (triple_reads reads_classifyEnrollment).bind fun found => ?_
  split
  · exact .ret fun _ _ => .inl rfl
  dsimp only
  generalize body.convertDeviceId.or (if found.kind = .reimage then found.device.map (·.1) else none) = targetId
  split
  · exact .ret fun _ _ => .inl rfl
  cases targetId with
  | none => exact triple_completeApproval
  | some targetId =>
    refine triple_takeOver.bind fun taken => ?_
    cases taken with
    | error => exact .ret fun _ _ => .inl rfl
    | ok taken => exact triple_completeApproval

/-- The key of an admin's transaction, as it is stored. -/
theorem triple_keyForUpdate {keyId : Nat} : Triple text start (Fine start) (Fleet.within (.keyForUpdate keyId))
    fun found now => Fine start now ∧ ∀ key, found = some key → key.1 = keyId ∧ now.key keyId = some key.2.life := by
  refine triple_read rfl fun draw db out ran fine => ⟨fine, fun key answer => ?_⟩
  cases ran
  obtain ⟨row, found, rfl⟩ := Option.map_eq_some_iff.mp answer
  exact ⟨rfl, key_life found⟩

theorem Fine.waits {now : Life} {i : Nat} {k : LinuxKey} (fine : Fine start now) (here : now.key i = some k.life)
    (pending : k.status = .pending) : now.Waits i := by
  have unbound : k.deviceId = none := fine.good.unbound i k.life here (.inl pending)
  refine ⟨k.keyFingerprint, here.trans (congrArg some ?_)⟩
  exact KeyLife.ext pending unbound rfl

theorem triple_conflictOf {byUser : Text} {key : KeyRow} {found : Match} {serial : Option Text} :
    Triple text start P (conflictOf text byUser key found serial) fun _ => P := by
  unfold conflictOf
  split
  · refine (triple_reads reads_claimOf).bind fun claim => ?_
    dsimp only
    split
    · exact .ret fun _ holds => holds
    · exact triple_audit.bind fun _ => .ret fun _ holds => holds
  · exact .ret fun _ holds => holds

theorem triple_auditMismatch {byUser : Text} {key : KeyRow} :
    Triple text start P (auditMismatch byUser key) fun _ => P := by
  unfold auditMismatch
  refine (triple_reads (reads_within rfl)).bind fun recent => ?_
  split
  · exact .ret fun _ holds => holds
  · exact triple_audit

/-- A preregistered key is approved at once, or stays pending. -/
theorem triple_approvePreregistered {byUser fingerprint : Text} {serial : Option Text} {pending : KeyRow}
    {preregistration : PreregistrationRow} {retryAfterS : Nat} :
    Triple text start (Pending start pending.1)
      (approvePreregistered text byUser fingerprint serial pending preregistration retryAfterS) fun _ => Done start := by
  unfold approvePreregistered
  refine (triple_reads reads_resolveHostnamesForBatch).bind fun resolved => ?_
  split
  · refine triple_createPullDevice.bind fun device => triple_bindKey.bind fun bound => ?_
    exact triple_audit.bind fun _ => .ret fun _ done => done
  · exact .ret fun _ pending => pending.1.done

theorem triple_enrollPending {byUser fingerprint : Text} {serial : Option Text} {key : KeyRow} {retryAfterS : Nat} :
    Triple text start (Pending start key.1) (enrollPending text byUser fingerprint serial key retryAfterS)
      fun _ => Done start := by
  unfold enrollPending
  refine (triple_reads reads_classifyEnrollment).bind fun found => triple_conflictOf.bind fun conflict => ?_
  refine Turn.Triple.bind (Q := fun pending now => Pending start key.1 now ∧ ∀ row, pending = some row → row.1 = key.1)
    (triple_within ?_) fun pending => ?_
  · intro draw db out ran holds
    have same : ((linuxSchema text).applyAll out.changes db).life = db.life := still_setConflict draw db out ran
    rw [same]
    refine ⟨holds, fun row answer => ?_⟩
    cases ran
    rw [answer_updateKeys] at answer
    obtain ⟨k, -, rfl⟩ := Option.map_eq_some_iff.mp answer
    rfl
  · split
    · cases pending with
      | none => exact .fail
      | some pending =>
        refine triple_approvePreregistered.weaken ?_ fun _ _ done => done
        rintro now ⟨holds, same⟩
        rw [same pending rfl]
        exact holds
    · exact .ret fun _ holds => holds.1.1.done

/-- The key is known, or there is room for it in the queue. -/
def Room (fingerprint : Text) (now : Life) : Prop :=
  (∃ j b, now.key j = some b ∧ b.fingerprint = fingerprint) ∨ now.waiting.encard < PENDING_CAP

theorem waiting_le {db : LinuxDb} :
    db.life.waiting.encard ≤ ((db.keys.select fun _ k => k.status = .pending).length : ℕ∞) := by
  have inside : db.life.waiting ⊆ ((db.keys.select fun _ k => k.status = .pending).map Prod.fst).toFinset := by
    rintro i ⟨a, here, pending⟩
    obtain ⟨k, found, rfl⟩ := row_of_life here
    rw [Finset.mem_coe, List.mem_toFinset]
    exact List.mem_map_of_mem (Table.mem_select.mpr ⟨found, decide_eq_true pending⟩)
  calc db.life.waiting.encard
      ≤ _ := Set.encard_le_encard inside
    _ = _ := Set.encard_coe_eq_coe_finsetCard _
    _ ≤ _ := by
      rw [← List.length_map (f := Prod.fst)]
      exact_mod_cast List.toFinset_card_le _

theorem triple_flooded {byUser fingerprint : Text} {known : Option KeyRow} : Triple text start
    (fun now => Fine start now ∧ (known.isSome → ∃ j b, now.key j = some b ∧ b.fingerprint = fingerprint))
    (flooded byUser known) fun full now => Fine start now ∧ (full = false → Room fingerprint now) := by
  unfold flooded
  split
  · rename_i known
    exact .ret fun _ holds => ⟨holds.1, fun _ => .inl (holds.2 known)⟩
  · refine Turn.Triple.bind (Q := fun pending now => Fine start now ∧ now.waiting.encard ≤ (pending : Nat))
      (triple_read rfl ?_) fun pending => ?_
    · rintro draw db out ran ⟨fine, -⟩
      cases ran
      exact ⟨fine, waiting_le⟩
    · split
      · exact triple_audit.bind fun _ => .ret fun _ holds => ⟨holds.1, nofun⟩
      · rename_i room
        refine .ret fun now holds => ⟨holds.1, fun _ => .inr (holds.2.trans_lt ?_)⟩
        exact_mod_cast not_le.mp room

theorem triple_keyByFingerprint {fingerprint : Text} :
    Triple text start (Fine start) (Fleet.within (.keyByFingerprint fingerprint)) fun known now =>
      Fine start now ∧ (known.isSome → ∃ j b, now.key j = some b ∧ b.fingerprint = fingerprint) := by
  refine triple_read rfl fun draw db out ran fine => ⟨fine, fun known => ?_⟩
  cases ran
  obtain ⟨e, answer⟩ := Option.isSome_iff_exists.mp known
  obtain ⟨found, same⟩ := Table.mem_select.mp (List.mem_of_head? answer)
  exact ⟨e.1, _, key_life found, of_decide_eq_true same⟩

theorem triple_upsertKey {facts : EnrollFacts} :
    Triple text start (fun now => Fine start now ∧ Room facts.fingerprint now) (Fleet.within (.upsertKey facts))
      fun key now => Fine start now ∧ now.key key.1 = some key.2.life := by
  refine triple_within ?_
  rintro draw db out ran ⟨fine, room⟩
  rcases life_upsertKey ran with ⟨same, lives⟩ | ⟨new, absent, row, after⟩
  · rw [same]
    exact ⟨fine, lives⟩
  · have free : db.life.waiting.encard < PENDING_CAP := by
      rcases room with ⟨j, b, here, same⟩ | free
      · exact absurd same (new j b here)
      · exact free
    have edge : Edge (db.life.key out.answer.1) (some ⟨.pending, none, facts.fingerprint⟩) := absent ▸ .enroll _
    rw [after, row]
    exact ⟨⟨fine.good.enroll new free, fine.moves.trans (Life.moves_setKey edge)⟩, Life.setKey_self⟩

abbrev Ends (text : TextFns) (program : Fleet α) : Prop := Serial.Ends (enrollmentTurns text) program

theorem ends_rollback {turn : Turn Life} :
    (enrollmentTurns text).Keeps (fun _ after => after = .idle) turn (Fleet.rollback (α := α)) := by
  refine ⟨?_, fun _ after comes => ?_⟩
  · cases turn <;> trivial
  · cases turn <;> exact comes

theorem ends_transaction {refused : α → Bool} {callback : Tx α}
    (body : ∀ start, Triple text start (Fine start) callback fun value now => refused value = true ∨ Done start now) :
    Ends text (transaction refused callback) := by
  unfold transaction
  refine ⟨trivial, fun begun turn comes => ?_⟩
  cases comes
  cases begun with
  | false => exact ends_rollback
  | true =>
    refine ⟨rfl, fun locked turn comes => ?_⟩
    cases locked with
    | none => exact ends_rollback
    | some _ =>
      rcases comes with ⟨nothing, -⟩ | ⟨-, start, good, rfl⟩
      · cases nothing
      change (enrollmentTurns text).Keeps _ (.held start start) (Program.bind callback.run _)
      refine (body start start ⟨good, .refl start⟩).bind fun result turn ends => ?_
      cases result with
      | none => exact ends_rollback
      | some value =>
        obtain ⟨now, rfl, settled⟩ := ends
        dsimp only
        split
        case isTrue => exact ⟨trivial, fun _ _ comes => comes⟩
        case isFalse accepted =>
          obtain ⟨good, step⟩ := settled.resolve_left accepted
          refine ⟨⟨good, step⟩, fun ok turn comes => ?_⟩
          cases comes
          cases ok with
          | false => exact ends_rollback
          | true => exact rfl

theorem ends_enrollDevice {input : EnrollInput} : Ends text (enrollDevice text input) := by
  refine ends_transaction fun start => ?_
  refine Turn.Triple.weaken (Q := fun _ => Done start) ?_ (fun _ fine => fine) fun _ _ => .inr
  refine triple_keyByFingerprint.bind fun known => triple_flooded.bind fun full => ?_
  cases full with
  | true => exact .ret fun _ holds => holds.1.done
  | false =>
    refine (triple_upsertKey.weaken (fun now holds => ⟨holds.1, holds.2 rfl⟩) fun _ _ after => after).bind fun key => ?_
    refine triple_dateNow.bind fun now => ?_
    dsimp only
    split
    · exact triple_auditMismatch.bind fun _ => .ret fun _ holds => holds.1.done
    split
    · exact (triple_reads (reads_within rfl)).bind fun device => .ret fun _ holds => holds.1.done
    · rename_i pending
      exact triple_enrollPending.weaken (fun now holds => ⟨holds.1, holds.1.waits holds.2 (not_not.mp pending)⟩)
        fun _ _ done => done

theorem ends_approveEnrollment {actor : Text} {keyId : Nat} {body : ApproveBody} :
    Ends text (approveEnrollment text actor keyId body) := by
  unfold approveEnrollment
  refine Sketch.Keeps.bind (ends_transaction fun start => ?settles) fun result turn same => ?_
  case settles =>
    refine triple_keyForUpdate.bind fun found => ?_
    cases found with
    | none => exact .ret fun _ _ => .inl rfl
    | some key =>
      dsimp only
      split
      · exact .ret fun _ _ => .inl rfl
      · rename_i pending
        refine triple_approvePending.weaken ?_ fun _ _ settled => settled
        rintro now ⟨fine, here⟩
        obtain ⟨rfl, lives⟩ := here key rfl
        exact ⟨fine, fine.waits lives (not_not.mp pending)⟩
  subst same
  cases result with
  | some outcome => exact rfl
  | none =>
    refine ⟨trivial, fun name turn same => ?_⟩
    subst same
    cases name with
    | some name => exact rfl
    | none => exact rfl

theorem ends_rejectEnrollment {actor : Text} {keyId : Nat} : Ends text (rejectEnrollment actor keyId) := by
  refine ends_transaction fun start => triple_keyForUpdate.bind fun found => ?_
  cases found with
  | none => exact .ret fun _ _ => .inl rfl
  | some key =>
    dsimp only
    split
    · exact .ret fun _ _ => .inl rfl
    · rename_i pending
      refine Turn.Triple.bind (Q := fun _ => Fine start) (triple_within ?_) fun rejected =>
        triple_audit.bind fun _ => .ret fun _ fine => .inr fine.done
      rintro draw db out ran ⟨fine, here⟩
      obtain ⟨fingerprint, waits⟩ := fine.waits (here key rfl).2 (not_not.mp pending)
      rw [life_rejectKey ran waits]
      have edge : Edge (db.life.key keyId) (some ⟨.rejected, none, fingerprint⟩) := waits ▸ .reject fingerprint
      exact ⟨fine.good.reject waits, fine.moves.trans (Life.moves_setKey edge)⟩

theorem ends_revokeDeviceKey {actor : Text} {deviceId : Nat} {reason : Text} :
    Ends text (revokeDeviceKey actor deviceId reason) := by
  refine ends_transaction fun start => (triple_reads (reads_within rfl)).bind fun device => ?_
  cases device with
  | none => exact .ret fun _ _ => .inl rfl
  | some device =>
    refine Turn.Triple.bind (Q := fun _ => Fine start) (triple_within ?_) fun key => ?_
    · intro draw db out ran fine
      exact fine.revokes (life_revokeKeyOf ran)
    · cases key with
      | none => exact .ret fun _ _ => .inl rfl
      | some key => exact triple_audit.bind fun _ => .ret fun _ fine => .inr fine.done

/-! What runs on the pool, between the transactions. -/

theorem ends_query {s : LinuxStmt} (still : Still text s) : Ends text (Fleet.query s).run :=
  ⟨still, fun _ _ same => same⟩

theorem ends_bind {program : OptionT Fleet β} {next : β → OptionT Fleet α} (first : Ends text program.run)
    (rest : ∀ value, Ends text (next value).run) : Ends text (program >>= next).run := by
  refine Sketch.Keeps.bind first fun value turn same => ?_
  subst same
  cases value with
  | none => exact rfl
  | some value => exact rest value

theorem ends_classifyEnrollment {fingerprint : Text} {serial : Option Text} :
    Ends text (classifyEnrollment text Fleet.query fingerprint serial).run := by
  unfold classifyEnrollment
  split
  · exact rfl
  · refine ends_bind (ends_query (still_of_reads rfl)) fun _ => ends_bind (ends_query (still_of_reads rfl)) fun _ => ?_
    exact ends_bind (ends_query (still_of_reads rfl)) fun _ => rfl

theorem ends_candidates (keys : List KeyRow) (ids : List Nat) : Ends text (candidates text keys ids).run := by
  induction ids with
  | nil => exact rfl
  | cons id rest ih =>
    unfold candidates
    split
    · exact ends_bind ih fun _ => rfl
    split
    · exact ends_bind ih fun _ => rfl
    · refine ends_bind ends_classifyEnrollment fun matched => ends_bind ih fun rest => ?_
      dsimp only
      split <;> exact rfl

theorem ends_approveEach {actor profile : Text} {ring : Ring} (rows : List (KeyRow × Except Text Text)) :
    Ends text (approveEach text actor profile ring rows).run := by
  induction rows with
  | nil => exact rfl
  | cons row rest ih =>
    obtain ⟨key, resolved⟩ := row
    cases resolved with
    | error hostname => exact ends_bind ih fun _ => rfl
    | ok hostname =>
      refine ends_bind ends_approveEnrollment fun outcome => ends_bind ih fun rest => ?_
      cases outcome <;> exact rfl

theorem ends_approveEnrollments {actor : Text} {ids : List Nat} {profile : Text} {ring : Ring} :
    Ends text (approveEnrollments text actor ids profile ring).run := by
  unfold approveEnrollments
  refine ends_bind (ends_query (still_of_reads rfl)) fun keys => ends_bind (ends_candidates keys _) fun found => ?_
  refine ends_bind (ends_bind (ends_query (still_of_reads rfl)) fun _ => rfl) fun hostnames => ?_
  exact ends_bind (ends_approveEach _) fun _ => rfl

theorem ends_rejectEach {actor : Text} (ids : List Nat) : Ends text (rejectEach actor ids).run := by
  induction ids with
  | nil => exact rfl
  | cons id rest ih =>
    refine ends_bind ends_rejectEnrollment fun outcome => ends_bind ih fun rest => ?_
    cases outcome <;> exact rfl

theorem ends_rejectEnrollments {actor : Text} {ids : List Nat} : Ends text (rejectEnrollments actor ids).run :=
  ends_bind (ends_rejectEach _) fun _ => rfl

theorem ends_checkinRoute {fingerprint : Text} {body : CheckinBody} : Ends text (checkinRoute text fingerprint body).run := by
  refine ends_bind (ends_query (still_of_reads rfl)) fun key => ?_
  cases key with
  | none => exact rfl
  | some key =>
    dsimp only
    split
    case isFalse => exact rfl
    unfold checkin
    dsimp only
    split
    · have throttled : Ends text (OptionT.lift (perform (.mismatchThrottle key.id))).run := ⟨trivial, fun _ _ same => same⟩
      refine ends_bind throttled fun audited => ?_
      split
      · refine ends_bind ⟨still_of_table nofun nofun nofun, fun _ _ same => same⟩ fun _ => rfl
      · exact rfl
    · refine ends_bind (ends_query still_touchKey) fun _ => ends_bind (ends_query still_touchDevice) fun device => ?_
      cases device with
      | none => exact rfl
      | some device => exact rfl

inductive FleetCall (text : TextFns) : Fleet Unit → Prop
  | enroll (input : EnrollInput) : FleetCall text (enrollDevice text input >>= fun _ => .ret ())
  | approve (actor : Text) (keyId : Nat) (body : ApproveBody) :
      FleetCall text (approveEnrollment text actor keyId body >>= fun _ => .ret ())
  | approveAll (actor : Text) (ids : List Nat) (profile : Text) (ring : Ring) :
      FleetCall text ((approveEnrollments text actor ids profile ring).run >>= fun _ => .ret ())
  | reject (actor : Text) (keyId : Nat) : FleetCall text (rejectEnrollment actor keyId >>= fun _ => .ret ())
  | rejectAll (actor : Text) (ids : List Nat) : FleetCall text ((rejectEnrollments actor ids).run >>= fun _ => .ret ())
  | revoke (actor : Text) (deviceId : Nat) (reason : Text) :
      FleetCall text (revokeDeviceKey actor deviceId reason >>= fun _ => .ret ())
  | checkin (fingerprint : Text) (body : CheckinBody) :
      FleetCall text ((checkinRoute text fingerprint body).run >>= fun _ => .ret ())

theorem ends_call {program : Fleet Unit} (call : FleetCall text program) : Ends text program := by
  cases call with
  | enroll input => exact Sketch.Keeps.bind ends_enrollDevice fun _ _ same => same
  | approve actor keyId body => exact Sketch.Keeps.bind ends_approveEnrollment fun _ _ same => same
  | approveAll actor ids profile ring => exact Sketch.Keeps.bind ends_approveEnrollments fun _ _ same => same
  | reject actor keyId => exact Sketch.Keeps.bind ends_rejectEnrollment fun _ _ same => same
  | rejectAll actor ids => exact Sketch.Keeps.bind ends_rejectEnrollments fun _ _ same => same
  | revoke actor deviceId reason => exact Sketch.Keeps.bind ends_revokeDeviceKey fun _ _ same => same
  | checkin fingerprint body => exact Sketch.Keeps.bind ends_checkinRoute fun _ _ same => same

/-- Any number of enrollments, decisions of admins and check-ins at once. What the rest of the application commits in
between leaves the life of the keys as it is. -/
def fleet (text : TextFns) : Threads LinuxOp.Res LinuxStore where
  exec := linuxExec text
  env := (enrollmentLock text).Aside
  entry := FleetCall text
  drop t st := st.close t

def FleetStart (st : LinuxStore) : Prop := ∃ db : LinuxDb, st = .start db ∧ db.life.Good

theorem fleet_verified (text : TextFns) : (fleet text).Verified ((enrollmentLock text).team (linuxExec text)) :=
  Serial.verified (follows_linuxExec text) (fun _ _ aside => aside) (fun _ => ends_call) fun _ _ => rfl

theorem fleet_step {c c₁ : Threads.Config LinuxOp.Res LinuxStore} (reach : (fleet text).Reach FleetStart c)
    (step : (fleet text).Step c c₁) : c.world.committed.life.Step c₁.world.committed.life :=
  (enrollmentLock text).step_of_reach reach (fleet_verified text) (fun _ _ aside => aside) (fun _ _ => rfl)
    (fun _ started => started) step

/-- In every run, any two keys differ in their fingerprints, an approved one has a device in pull mode by itself, and
no more than the cap are pending. Each step takes the keys along their life and lets only a key that it approves consume
a preregistration; what it does lasts. -/
theorem keys_live {text : TextFns} {c : Threads.Config LinuxOp.Res LinuxStore}
    (reach : (fleet text).Reach FleetStart c) :
    c.world.committed.life.Good ∧
    (∀ c₁, (fleet text).Step c c₁ → c.world.committed.life.Step c₁.world.committed.life) ∧
    ∀ c₁, Relation.ReflTransGen (fleet text).Step c c₁ → c.world.committed.life.Later c₁.world.committed.life := by
  refine ⟨?_, fun c₁ => fleet_step reach, fun c₁ run => ?_⟩
  · have kept : (enrollmentLock text).Kept c.world := by
      refine reach.inv (fleet_verified text) ?_
      rintro _ ⟨db, rfl, good⟩
      exact (enrollmentLock text).kept_start good
    exact kept.good
  · have lasts : (fleet text).Reach FleetStart c₁ ∧ c.world.committed.life.Later c₁.world.committed.life := by
      induction run with
      | refl => exact ⟨reach, .refl _⟩
      | tail _ step ih => exact ⟨ih.1.step step, ih.2.trans (fleet_step ih.1 step).toLater⟩
    exact lasts.2

/-! A pending key is approved for a new device. -/

theorem fleet_within {runs : Nat → Fleet Unit} {store : LinuxStore} {s : LinuxStmt} {rest : Option s.Ans → Fleet Unit}
    {changes : List LinuxChange} {out : LinuxOutcome s.Ans} (reach : (fleet text).Reach FleetStart ⟨store, runs⟩) {t : Nat}
    (next : runs t = .op (.sql (.within s)) rest) (draw : LinuxDraw) (opened : store.session t = some ⟨changes, false⟩)
    (ran : s.run text draw ((linuxSchema text).view store t) = some out) (mine : Mine t store) :
    (fleet text).Reach FleetStart
      ⟨store.write t out.changes ((linuxSchema text).needs out), Function.update runs t (rest (some out.answer))⟩ :=
  reach.perform t next (some out.answer) _ ((Schema.exec_within opened).mpr (.inl ⟨draw, out, ran, mine _, rfl, rfl⟩))

def demoDecision : ApproveBody := ⟨"desk".toList, .stable, some "pc-1".toList, none, none, false, false, false⟩

theorem good_demoFleet : demoFleet.life.Good := by
  have only : ∀ i a, demoFleet.life.key i = some a → i = 1 ∧ a = ⟨.pending, none, "5c".toList⟩ := by
    intro i a here
    obtain ⟨k, found, rfl⟩ := row_of_life here
    by_cases same : i = 1
    · subst same
      cases (Table.getElem?_insert_self ∅ 1 demoPending).symm.trans found
      exact ⟨rfl, rfl⟩
    · have absent : (∅ : Table LinuxKey)[i]? = some k := (Table.getElem?_insert_of_ne ∅ same demoPending).symm.trans found
      simp at absent
  refine ⟨fun i j a b here there _ => ?_, fun i a here approved => ?_, fun i a here _ => ?_,
    fun i j a b here there _ _ _ => ?_, ?_⟩
  · rw [(only i a here).1, (only j b there).1]
  · rw [(only i a here).2] at approved
    cases approved
  · rw [(only i a here).2]
  · rw [(only i a here).1, (only j b there).1]
  · have inside : demoFleet.life.waiting ⊆ {1} := fun i waits => (only i _ waits.choose_spec.1).1
    calc demoFleet.life.waiting.encard ≤ ({1} : Set Nat).encard := Set.encard_le_encard inside
      _ = 1 := Set.encard_singleton 1
      _ ≤ PENDING_CAP := by exact_mod_cast (by decide : 1 ≤ PENDING_CAP)

theorem keys_live_approve : ∃ c : Threads.Config LinuxOp.Res LinuxStore,
    c.world.committed.life.key 1 = some ⟨.approved, some 7, "5c".toList⟩ ∧ c.world.committed.life.Good ∧
    ∀ c₁, Relation.ReflTransGen (fleet demoText).Step c c₁ → c₁.world.committed.life.pulled 7 := by
  have r : (fleet demoText).Reach FleetStart ⟨.start demoFleet, fun _ => .ret ()⟩ := .init ⟨_, rfl, good_demoFleet⟩
  have r := r.begins 0 _ rfl (.approve "admin".toList 1 demoDecision)
  have r := r.perform 0 rfl true _ (.inl ⟨rfl, rfl⟩)
  have mine : Mine 0 ((Store.start demoFleet : LinuxStore).openTx 0) := fun _ _ _ => .inl rfl
  have r := fleet_within r rfl ⟨0, 7, 0⟩ rfl rfl mine
  have mine := mine.write [] [.enrollment]
  have r := fleet_within r rfl ⟨0, 7, 0⟩ rfl rfl mine
  have mine := mine.write [] [.key 1]
  have r := fleet_within r rfl ⟨0, 7, 0⟩ rfl rfl mine
  have mine := mine.write [] []
  have r := fleet_within r rfl ⟨0, 7, 0⟩ rfl rfl mine
  have mine := mine.write [] []
  have r := fleet_within r rfl ⟨0, 7, 0⟩ rfl rfl mine
  have mine := mine.write [] []
  have r := fleet_within r rfl ⟨0, 7, 0⟩ rfl rfl mine
  have mine := mine.write [] []
  have r := fleet_within r rfl ⟨0, 7, 0⟩ rfl rfl mine
  have r := fleet_within r rfl ⟨0, 7, 0⟩ rfl rfl (mine.write _ _)
  have r := fleet_within r rfl ⟨0, 7, 0⟩ rfl rfl ((mine.write _ _).write _ _)
  have r := r.perform 0 rfl true _ (.inl rfl)
  exact ⟨_, rfl, (keys_live r).1, fun c₁ run => ((keys_live r).2.2 c₁ run).pulled 7 rfl⟩

end Opale.Linux
