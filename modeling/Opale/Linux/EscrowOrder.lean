import Opale.Effects.Discipline
import Opale.Linux.CurrentKey
import Opale.Relations.Newest

namespace Opale.Linux.Escrow

open Sql Rules

/-- What the upsert of a rotation writes, and when the password was changed, in microseconds. -/
structure Rotation where
  deviceId : Nat
  username : Text
  ciphertext : List UInt8
  changedAt : Int
  deriving DecidableEq

def Rotation.row (r : Rotation) : AdminCredential := ⟨r.username, r.ciphertext, r.changedAt, none⟩

/-- The rotations that have come to the upsert, the last one first. -/
def delivered : (o : EscrowOp) → o.Res → List Rotation → List Rotation
  | .sql (.query (.upsertCredential deviceId username ciphertext changedAt)), some _, past =>
    ⟨deviceId, username, ciphertext, changedAt⟩ :: past
  | _, _, past => past

structure Deliveries where
  world : EscrowWorld
  past : List Rotation

/-- The escrows, with what they have delivered. -/
def deliveries (fns : EscrowFns) : Threads EscrowOp.Res Deliveries where
  exec t o d answer d₁ := (escrows fns).exec t o d.world answer d₁.world ∧ d₁.past = delivered o answer d.past
  env d d₁ := (escrows fns).env d.world d₁.world ∧ d₁.past = d.past
  entry := (escrows fns).entry
  drop t d := { d with world := (escrows fns).drop t d.world }

def Deliveries.stored (d : Deliveries) (deviceId : Nat) : Option AdminCredential :=
  d.world.store.committed.credentials[deviceId]?

/-- The rotations of one device. -/
def Deliveries.of (d : Deliveries) (deviceId : Nat) : List Rotation := d.past.filter (·.deviceId = deviceId)

/-- Any database without a credential of the device. -/
def Unstored (deviceId : Nat) (d : Deliveries) : Prop :=
  EscrowStart d.world ∧ d.stored deviceId = none ∧ d.past = []

/-- The upsert is always a statement by itself. -/
def Outside : EscrowOp → Prop
  | .sql (.within (.upsertCredential ..)) => False
  | _ => True

section Programs

variable {fns : EscrowFns} {key : EscrowDevice} {keyId label username rotatedAt : Text} {ciphertext : List UInt8}

theorem only_abort : abort.Only Outside := ⟨trivial, fun _ => trivial⟩

theorem only_escrowLocalAdmin : (escrowLocalAdmin fns key keyId ciphertext username rotatedAt).Only Outside := by
  unfold escrowLocalAdmin
  refine Program.Only.perform trivial fun settings => ?_
  cases settings with
  | none => trivial
  | some settings =>
    dsimp only
    split
    · trivial
    cases fns.timestamptz rotatedAt with
    | none => trivial
    | some changedAt =>
      refine Program.Only.perform trivial fun answer => ?_
      match answer with
      | none => trivial
      | some none => trivial
      | some (some storedAt) => exact ⟨trivial, fun _ => trivial⟩

theorem only_storeRecoveryKey : (storeRecoveryKey key keyId ciphertext label).Only Outside := by
  unfold storeRecoveryKey
  refine Program.Only.perform trivial fun begun => ?_
  cases begun with
  | false => exact only_abort
  | true =>
    refine Program.Only.perform trivial fun inserted => ?_
    cases inserted with
    | none => exact only_abort
    | some row =>
      refine Program.Only.perform trivial fun found => ?_
      cases found with
      | none => exact only_abort
      | some found =>
        refine Program.Only.perform trivial fun superseded => ?_
        cases superseded with
        | none => exact only_abort
        | some _ =>
          refine Program.Only.perform trivial fun committed => ?_
          cases committed with
          | false => exact only_abort
          | true => exact ⟨trivial, fun _ => trivial⟩

theorem only_escrowSecret {body : EscrowRequest} {info : EscrowInfo} : (escrowSecret fns key body info).Only Outside := by
  unfold escrowSecret
  cases checkEscrowRequest fns body info with
  | error reply => trivial
  | ok checked =>
    dsimp only
    cases body.kind with
    | local_admin username rotatedAt =>
      refine Program.Only.perform trivial fun now => ?_
      split
      · trivial
      · exact only_escrowLocalAdmin
    | luks_recovery label =>
      refine Program.Only.perform trivial fun settings => ?_
      cases settings with
      | none => trivial
      | some settings =>
        dsimp only
        split
        · trivial
        · exact only_storeRecoveryKey

end Programs

/-- A change of something else than the credentials. -/
def EscrowChange.Elsewhere : EscrowChange → Prop
  | .credential .. => False
  | _ => True

theorem applyAll_elsewhere {changes : List EscrowChange} (elsewhere : ∀ c ∈ changes, c.Elsewhere) (db : EscrowDb) :
    (escrowSchema.applyAll changes db).credentials = db.credentials := by
  induction changes generalizing db with
  | nil => rfl
  | cons c changes ih =>
    refine (ih (fun d member => elsewhere d (List.mem_cons_of_mem c member)) _).trans ?_
    have here := elsewhere c List.mem_cons_self
    cases c with
    | recoveryKey | settings => rfl
    | credential => exact here.elim

/-- No statement of a transaction changes a credential. -/
theorem run_elsewhere {s : EscrowStmt} {draw : EscrowDraw} {db : EscrowDb} {out : Outcome EscrowChange EscrowLock s.Ans}
    (outside : Outside (.sql (.within s))) (ran : s.run draw db = some out) : ∀ c ∈ out.changes, c.Elsewhere := by
  cases s with
  | upsertCredential => exact outside.elim
  | settings | currentKeys =>
    cases ran
    exact fun _ member => absurd member List.not_mem_nil
  | insertRecoveryKey =>
    simp only [EscrowStmt.run] at ran
    split at ran
    · cases ran
    · cases ran
      intro c member
      rw [List.mem_singleton.mp member]
      trivial
  | supersede =>
    cases ran
    intro c member
    obtain ⟨e, -, rfl⟩ := List.mem_map.mp member
    trivial

/-- The newest rotation of the device is stored, and no open transaction will change it. -/
structure Stands (deviceId : Nat) (d : Deliveries) : Prop where
  newest : ∃ kept, Newest Rotation.changedAt (d.of deviceId) kept ∧ d.stored deviceId = kept.map Rotation.row
  pending : Schema.Written EscrowChange.Elsewhere d.world.store

variable {deviceId : Nat} {d d₁ : Deliveries} {t : Nat}

/-- Everything but the upsert leaves the credentials as they are. -/
theorem Stands.congr (stands : Stands deviceId d) (past : d₁.past = d.past)
    (credentials : d₁.world.store.committed.credentials = d.world.store.committed.credentials)
    (pending : Schema.Written EscrowChange.Elsewhere d₁.world.store) : Stands deviceId d₁ := by
  refine ⟨?_, pending⟩
  unfold Deliveries.of Deliveries.stored
  rw [past, credentials]
  exact stands.newest

/-- The upsert stores the rotation exactly when it is newer than the one that is stored. -/
theorem Stands.upsert {username : Text} {ciphertext : List UInt8} {changedAt : Int} {draw : EscrowDraw}
    {id : Nat} {out : Outcome EscrowChange EscrowLock (Option Int)} (stands : Stands deviceId d)
    (ran : EscrowStmt.run (.upsertCredential id username ciphertext changedAt) draw d.world.store.committed = some out)
    (past : d₁.past = ⟨id, username, ciphertext, changedAt⟩ :: d.past)
    (store : d₁.world.store = escrowSchema.publish out.changes d.world.store) : Stands deviceId d₁ := by
  obtain ⟨kept, newest, stored⟩ := stands.newest
  have pending : Schema.Written EscrowChange.Elsewhere d₁.world.store := by
    rw [store]
    exact stands.pending
  have credentials : d₁.world.store.committed = escrowSchema.applyAll out.changes d.world.store.committed := by
    rw [store]
    rfl
  by_cases mine : id = deviceId
  · subst mine
    refine ⟨⟨offer Rotation.changedAt ⟨id, username, ciphertext, changedAt⟩ kept, ?_, ?_⟩, pending⟩
    · have more : d₁.of id = ⟨id, username, ciphertext, changedAt⟩ :: d.of id := by
        unfold Deliveries.of
        rw [past, List.filter_cons_of_pos (by simp)]
      rw [more]
      exact newest.offer
    · unfold Deliveries.stored at stored ⊢
      rw [credentials]
      simp only [EscrowStmt.run, stored] at ran
      cases kept with
      | none =>
        cases ran
        exact Table.getElem?_put_self _ _ _
      | some r =>
        simp only [Option.map_some] at ran
        split at ran
        case isTrue newer =>
          cases ran
          rw [offer_of_lt newer]
          exact Table.getElem?_put_self _ _ _
        case isFalse older =>
          cases ran
          rw [offer_of_not_lt older]
          exact stored
  · refine ⟨⟨kept, ?_, ?_⟩, pending⟩
    · have same : d₁.of deviceId = d.of deviceId := by
        unfold Deliveries.of
        rw [past, List.filter_cons_of_neg (by simpa using mine)]
      rw [same]
      exact newest
    · unfold Deliveries.stored at stored ⊢
      rw [credentials, ← stored]
      simp only [EscrowStmt.run] at ran
      split at ran
      · split at ran
        · cases ran
          exact Table.getElem?_put_of_ne _ (Ne.symm mine) _
        · cases ran
          rfl
      · cases ran
        exact Table.getElem?_put_of_ne _ (Ne.symm mine) _

/-- A statement by itself: the upsert, or one of another table. -/
theorem Stands.query {s : EscrowStmt} {answer : Option s.Ans} (stands : Stands deviceId d)
    (run : escrowSchema.exec t (.query s) d.world.store answer d₁.world.store)
    (past : d₁.past = delivered (.sql (.query s)) answer d.past) : Stands deviceId d₁ := by
  obtain ⟨draw, out, ran, -, rfl, store⟩ | ⟨rfl, store⟩ := run
  · by_cases outside : Outside (.sql (.within s))
    · have elsewhere := run_elsewhere outside ran
      have same : d₁.past = d.past := by
        rw [past]
        cases s with
        | upsertCredential => exact outside.elim
        | settings | insertRecoveryKey | currentKeys | supersede => rfl
      refine stands.congr same ?_ ?_
      · rw [store]
        exact applyAll_elsewhere elsewhere _
      · rw [store]
        exact stands.pending
    · cases s with
      | upsertCredential id username ciphertext changedAt =>
        have ran : EscrowStmt.run (.upsertCredential id username ciphertext changedAt) draw _ = some out := ran
        exact stands.upsert ran past store
      | settings | insertRecoveryKey | currentKeys | supersede => exact absurd trivial outside
  · have same : d₁.past = d.past := by
      rw [past]
      cases s <;> rfl
    refine stands.congr same ?_ ?_
    · rw [store]
    · rw [store]
      exact stands.pending

/-- The COMMIT of a transaction, as far as it is carried out. -/
theorem Stands.commit {changes : List EscrowChange} {failed : Bool} (stands : Stands deviceId d)
    (opened : d.world.store.session t = some ⟨changes, failed⟩) (past : d₁.past = d.past)
    (store : d₁.world.store = (escrowSchema.publish changes d.world.store).close t) : Stands deviceId d₁ := by
  have published : Schema.Written EscrowChange.Elsewhere (escrowSchema.publish changes d.world.store) := stands.pending
  refine stands.congr past ?_ ?_
  · rw [store]
    exact applyAll_elsewhere (stands.pending t _ opened) _
  · rw [store]
    exact published.close t

theorem Stands.close (stands : Stands deviceId d) (t : Nat) (past : d₁.past = d.past)
    (store : d₁.world.store = d.world.store.close t) : Stands deviceId d₁ := by
  refine stands.congr past ?_ ?_
  · rw [store]
    rfl
  · rw [store]
    exact stands.pending.close t

variable {fns : EscrowFns}

/-- One operation of any request. -/
theorem Stands.exec {o : EscrowOp} {answer : o.Res} (stands : Stands deviceId d) (outside : Outside o)
    (run : (deliveries fns).exec t o d answer d₁) : Stands deviceId d₁ := by
  obtain ⟨run, past⟩ := run
  cases o with
  | now =>
    cases d₁
    cases run
    exact stands.congr past rfl stands.pending
  | logAudit =>
    cases d₁
    cases run
    exact stands.congr past rfl stands.pending
  | commitKey id label row =>
    simp only [escrows, escrowExec] at run
    split at run
    case h_1 changes opened =>
      obtain world | ⟨-, world⟩ := run
      · refine stands.commit opened past ?_
        rw [world]
      · refine stands.close t past ?_
        rw [world]
    case h_2 =>
      refine stands.close t past ?_
      rw [run]
  | sql o =>
    obtain ⟨store, ran, world⟩ := run
    have store_ : d₁.world.store = store := by rw [world]
    rw [← store_] at ran
    cases o with
    | query s => exact stands.query ran past
    | begin =>
      refine stands.congr past ?_ (stands.pending.exec ran ?_)
      · rw [Schema.committed_inside (o := .begin) trivial ran]
      · rintro _ _ _ _ ⟨⟩
    | rollback =>
      refine stands.congr past ?_ (stands.pending.exec ran ?_)
      · rw [Schema.committed_inside (o := .rollback) trivial ran]
      · rintro _ _ _ _ ⟨⟩
    | within s =>
      have same : d₁.past = d.past := past
      refine stands.congr same ?_ (stands.pending.exec ran ?_)
      · rw [Schema.committed_inside (o := .within s) trivial ran]
      · rintro s draw db out same ran
        cases same
        exact run_elsewhere outside ran
    | commit =>
      simp only [Schema.exec] at ran
      split at ran
      case h_1 changes opened =>
        obtain store | ⟨-, store⟩ := ran
        · exact stands.commit opened past store
        · exact stands.close t past store
      case h_2 => exact stands.close t past ran

theorem stands_init (unstored : Unstored deviceId d) : Stands deviceId d := by
  obtain ⟨⟨db, world⟩, absent, past⟩ := unstored
  refine ⟨⟨none, ?_, absent⟩, ?_⟩
  · unfold Deliveries.of Newest
    rw [past]
    rfl
  · intro t s opened
    rw [world] at opened
    cases opened

theorem deliveries_entry {program : Escrowing Unit} (allowed : (deliveries fns).entry program) : program.Only Outside := by
  obtain ⟨key, body, info, rfl⟩ := allowed
  exact only_escrowSecret.bind fun _ => trivial

theorem Stands.env (stands : Stands deviceId d) (moves : (deliveries fns).env d d₁) : Stands deviceId d₁ := by
  obtain ⟨⟨settings, -, world⟩, past⟩ := moves
  refine stands.congr past ?_ ?_
  · rw [world]
    rfl
  · rw [world]
    exact stands.pending

theorem Stands.reach {c : Threads.Config EscrowOp.Res Deliveries}
    (reach : (deliveries fns).Reach (Unstored deviceId) c) : Stands deviceId c.world := by
  have kept : Stands deviceId c.world ∧ ∀ t, (c.runs t).Only Outside :=
    reach.preserved_of_only (fun _ => stands_init) (fun _ => deliveries_entry)
      (fun _ _ _ _ _ outside run stands => stands.exec outside run) (fun _ _ moves stands => stands.env moves)
      fun t _ stands => stands.close t rfl rfl
  exact kept.1

theorem subset_delivered (o : EscrowOp) (answer : o.Res) (past : List Rotation) : past ⊆ delivered o answer past := by
  unfold delivered
  split
  · exact List.subset_cons_self _ _
  · exact List.Subset.refl _

theorem past_step {c c₁ : Threads.Config EscrowOp.Res Deliveries} (step : (deliveries fns).Step c c₁) :
    c.world.past ⊆ c₁.world.past := by
  cases step with
  | start | die => exact List.Subset.refl _
  | op t next run =>
    rw [run.2]
    exact subset_delivered _ _ _
  | env moves =>
    rw [moves.2]
    exact List.Subset.refl _

/-- What a rotation finds when it comes: a clock that is not behind it by more than what is
tolerated, and the username of the settings. -/
def InTime (fns : EscrowFns) (username rotatedAt : Text) : (o : EscrowOp) → o.Res → Prop
  | .now, now => ∀ instant, fns.dateParse rotatedAt = some instant → instant ≤ now + ROTATED_AT_MAX_SKEW_MS
  | .sql (.query .settings), some settings =>
    username = (settings.recoveryUsername.filter (· ≠ [])).getD "opale-recovery".toList
  | _, _ => True

/-- The operations of the request `t`, with anything that the other requests do in between. -/
def amid (fns : EscrowFns) (username rotatedAt : Text) (t : Nat) (o : EscrowOp) (d : Deliveries) (answer : o.Res)
    (d₁ : Deliveries) : Prop :=
  InTime fns username rotatedAt o answer ∧
    ∃ later : Deliveries, d.past ⊆ later.past ∧ (deliveries fns).exec t o later answer d₁

/-- A request that is in order delivers its rotation, or throws. -/
theorem delivers {key : EscrowDevice} {body : EscrowRequest} {info : EscrowInfo} {username rotatedAt keyId : Text}
    {ciphertext : List UInt8} {reply : EscrowReply} (kind : body.kind = .local_admin username rotatedAt)
    (checked : checkEscrowRequest fns body info = .ok (keyId, ciphertext))
    (ends : Rules.Ends (amid fns username rotatedAt t) (escrowSecret fns key body info) d reply d₁) :
    reply = .threw ∨ ∃ changedAt, fns.timestamptz rotatedAt = some changedAt ∧
      ⟨key.deviceId, username, ciphertext, changedAt⟩ ∈ d₁.past := by
  unfold escrowSecret at ends
  rw [checked] at ends
  simp only [kind] at ends
  obtain ⟨now, d₂, ⟨inTime, -⟩, ends⟩ := ends.of_op
  rw [Program.ret_bind, if_neg] at ends
  case hnc =>
    intro late
    obtain ⟨instant, parsed, beyond⟩ := Option.any_eq_true _ _ |>.mp late
    exact absurd (inTime instant parsed) (not_le_of_gt (of_decide_eq_true beyond))
  unfold escrowLocalAdmin at ends
  obtain ⟨settings, d₃, ⟨named, -⟩, ends⟩ := ends.of_op
  cases settings with
  | none =>
    cases ends
    exact .inl rfl
  | some settings =>
    have named : username = (settings.recoveryUsername.filter (· ≠ [])).getD "opale-recovery".toList := named
    rw [Program.ret_bind] at ends
    dsimp only at ends
    rw [if_neg (not_not_intro named)] at ends
    cases cast : fns.timestamptz rotatedAt with
    | none =>
      rw [cast] at ends
      cases ends
      exact .inl rfl
    | some changedAt =>
      rw [cast] at ends
      obtain ⟨answer, d₄, ⟨-, later, -, -, past⟩, ends⟩ := ends.of_op
      rw [Program.ret_bind] at ends
      match answer with
      | none =>
        cases ends
        exact .inl rfl
      | some none =>
        cases ends
        refine .inr ⟨changedAt, rfl, ?_⟩
        rw [past]
        exact List.mem_cons_self
      | some (some storedAt) =>
        obtain ⟨_, d₅, ⟨-, after, more, -, past₅⟩, ends⟩ := ends.of_op
        have same : d₅.past = after.past := past₅
        cases ends
        refine .inr ⟨changedAt, rfl, ?_⟩
        rw [same]
        refine more ?_
        rw [past]
        exact List.mem_cons_self

/-- In every run of any requests at once, what is stored for the device is the newest rotation of those
that have been delivered, whatever their order and however often, and no step makes it older. -/
theorem newest_stored {c : Threads.Config EscrowOp.Res Deliveries}
    (reach : (deliveries fns).Reach (Unstored deviceId) c) :
    (c.world.of deviceId = [] → c.world.stored deviceId = none) ∧
    (∀ best ∈ c.world.of deviceId, (∀ r ∈ c.world.of deviceId, r ≠ best → r.changedAt < best.changedAt) →
      c.world.stored deviceId = some best.row) ∧
    (∀ c₁ row, (deliveries fns).Step c c₁ → c.world.stored deviceId = some row →
      ∃ row₁, c₁.world.stored deviceId = some row₁ ∧ row.passwordChangedAt ≤ row₁.passwordChangedAt) ∧
    ∀ t key body info username rotatedAt keyId ciphertext reply d₁, body.kind = .local_admin username rotatedAt →
      checkEscrowRequest fns body info = .ok (keyId, ciphertext) →
      Rules.Ends (amid fns username rotatedAt t) (escrowSecret fns key body info) c.world reply d₁ →
      reply = .threw ∨ ∃ changedAt, fns.timestamptz rotatedAt = some changedAt ∧
        ⟨key.deviceId, username, ciphertext, changedAt⟩ ∈ d₁.past := by
  obtain ⟨kept, newest, stored⟩ := (Stands.reach reach).newest
  refine ⟨fun empty => ?_, fun best member most => ?_, fun c₁ row step here => ?_,
    fun _ _ _ _ _ _ _ _ _ _ kind checked ends => delivers kind checked ends⟩
  · rw [stored]
    cases kept with
    | none => rfl
    | some r =>
      have inside := newest.1
      rw [empty] at inside
      cases inside
  · rw [stored, newest.eq_some member most]
    rfl
  · rw [stored] at here
    obtain ⟨r, rfl, rfl⟩ := Option.map_eq_some_iff.mp here
    obtain ⟨kept₁, newest₁, stored₁⟩ := (Stands.reach (reach.step step)).newest
    have more : c.world.of deviceId ⊆ c₁.world.of deviceId := List.filter_subset _ (past_step step)
    obtain ⟨s, rfl, newer⟩ := newest.mono newest₁ more
    exact ⟨s.row, stored₁, newer⟩

/-! The account of the device was rotated at `early`, and half a millisecond later at `late`. -/

def early : Text := "2027-01-15T08:00:00.000Z".toList

def late : Text := "2027-01-15T08:00:00.0005Z".toList

def opaleRecovery : Text := "opale-recovery".toList

def demoRotation (rotatedAt : Text) : EscrowRequest :=
  ⟨.local_admin opaleRecovery rotatedAt, "k1".toList, List.replicate 268 'A'⟩

def demoDelivery (rotatedAt : Text) : Escrowing Unit := request do
  let now ← perform .now
  if (demoFns.dateParse rotatedAt).any (· > now + ROTATED_AT_MAX_SKEW_MS) then return .refusal 400 .ROTATED_AT_IN_FUTURE
  else escrowLocalAdmin demoFns demoDevice "k1".toList demoCiphertext opaleRecovery rotatedAt

theorem demo_rotation (rotatedAt : Text) : (deliveries demoFns).entry (demoDelivery rotatedAt) := by
  have decoded : decodeCiphertext demoFns (List.replicate 268 'A') = some demoCiphertext := by decide +kernel
  have checked : checkEscrowRequest demoFns (demoRotation rotatedAt) ⟨some "k1".toList⟩ =
      .ok ("k1".toList, demoCiphertext) := by
    unfold checkEscrowRequest demoRotation
    rw [decoded]
    rfl
  refine ⟨demoDevice, demoRotation rotatedAt, ⟨some "k1".toList⟩, ?_⟩
  unfold escrowSecret
  rw [checked]
  rfl

def demoRow (changedAt : Int) : Rotation := ⟨5, opaleRecovery, demoCiphertext, changedAt⟩

/-- The second rotation comes first, and the first one finds it stored. -/
theorem newest_stored_late : ∃ c : Threads.Config EscrowOp.Res Deliveries,
    c.world.of 5 = [demoRow 1800000000000000, demoRow 1800000000000500] ∧
      c.world.stored 5 = some (demoRow 1800000000000500).row := by
  have r : (deliveries demoFns).Reach (Unstored 5) ⟨⟨demoStart, []⟩, fun _ => .ret ()⟩ := .init ⟨⟨_, rfl⟩, rfl, rfl⟩
  have r := r.begins 0 _ rfl (demo_rotation early)
  have r := r.begins 1 _ rfl (demo_rotation late)
  have r := r.perform 0 rfl (1800000000000 : Int) ⟨_, _⟩ ⟨rfl, rfl⟩
  have r := r.perform 1 rfl (1800000000000 : Int) ⟨_, _⟩ ⟨rfl, rfl⟩
  have r := r.perform 0 rfl (some demoSettings) ⟨_, _⟩
    ⟨⟨_, .inl ⟨⟨10, 100⟩, _, rfl, fun _ => nofun, rfl, rfl⟩, rfl⟩, rfl⟩
  have r := r.perform 1 rfl (some demoSettings) ⟨_, _⟩
    ⟨⟨_, .inl ⟨⟨10, 100⟩, _, rfl, fun _ => nofun, rfl, rfl⟩, rfl⟩, rfl⟩
  have r := r.perform 1 rfl (some (some 1800000000000500)) ⟨_, _⟩
    ⟨⟨_, .inl ⟨⟨10, 100⟩, _, rfl, fun _ _ => .inl rfl, rfl, rfl⟩, rfl⟩, rfl⟩
  have r := r.perform 0 rfl (some none) ⟨_, _⟩
    ⟨⟨_, .inl ⟨⟨10, 100⟩, _, rfl, fun _ _ => .inl rfl, rfl, rfl⟩, rfl⟩, rfl⟩
  refine ⟨_, rfl, (newest_stored r).2.1 (demoRow 1800000000000500) (List.mem_cons_of_mem _ List.mem_cons_self) ?_⟩
  intro rotation member other
  rcases List.mem_cons.mp member with rfl | member
  · exact (by decide : (1800000000000000 : Int) < 1800000000000500)
  · exact absurd (List.mem_singleton.mp member) other

end Opale.Linux.Escrow
