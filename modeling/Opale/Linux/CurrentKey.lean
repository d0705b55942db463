import Opale.Linux.Escrow

namespace Opale.Linux.Escrow

open Sql

variable {w w₁ w₂ : EscrowWorld} {db db₁ : EscrowDb} {t u own : Nat} {p : Nat × Text} {row : RecoveryKey}
variable {olds : List (Nat × RecoveryKey)} {found : List Nat}

/-- The row is current for the device and the label `p`. -/
def CurrentIn (db : EscrowDb) (p : Nat × Text) (id : Nat) : Prop :=
  ∃ row, db.recoveryKeys[id]? = some row ∧ row.isCurrent p.1 p.2 = true

theorem CurrentIn.congr (same : db₁.recoveryKeys = db.recoveryKeys) (p : Nat × Text) (id : Nat) :
    CurrentIn db₁ p id ↔ CurrentIn db p id := by
  unfold CurrentIn
  rw [same]

theorem CurrentIn.ne {id : Nat} (current : CurrentIn db p id) (absent : db.recoveryKeys[own]? = none) : id ≠ own := by
  rintro rfl
  obtain ⟨row, stored, -⟩ := current
  rw [absent] at stored
  cases stored

theorem isCurrent_iff {deviceId : Nat} {label : Text} : row.isCurrent deviceId label = true ↔
    row.deviceId = deviceId ∧ row.kind = .luks_recovery ∧ row.label = label ∧ row.supersededAt = none := by
  simp only [RecoveryKey.isCurrent, Bool.and_eq_true, decide_eq_true_eq, and_assoc]

theorem isCurrent_inj {q : Nat × Text} (here : row.isCurrent p.1 p.2 = true) (there : row.isCurrent q.1 q.2 = true) :
    q = p := by
  rw [isCurrent_iff] at here there
  exact Prod.ext (there.1.symm.trans here.1) (there.2.2.1.symm.trans here.2.2.1)

def supersedes (olds : List (Nat × RecoveryKey)) : List EscrowChange :=
  olds.map fun e => .recoveryKey e.1 (some e.2)

theorem applyAll_supersedes (olds : List (Nat × RecoveryKey)) (db : EscrowDb) :
    (escrowSchema.applyAll (supersedes olds) db).recoveryKeys = Table.write olds db.recoveryKeys := by
  induction olds generalizing db with
  | nil => rfl
  | cons e olds ih => exact ih _

/-- Rows that are not locked stay as they are. -/
theorem applyAll_row {ds : List EscrowChange} {id : Nat}
    (apart : ∀ d ∈ ds, EscrowLock.recoveryKey id ∉ escrowSchema.locks d) (db : EscrowDb) :
    (escrowSchema.applyAll ds db).recoveryKeys[id]? = db.recoveryKeys[id]? := by
  induction ds generalizing db with
  | nil => rfl
  | cons d ds ih =>
    refine (ih (fun e member => apart e (List.mem_cons_of_mem d member)) _).trans ?_
    have here := apart d List.mem_cons_self
    cases d with
    | recoveryKey other row =>
      refine Table.getElem?_put_of_ne _ ?_ _
      rintro rfl
      exact here List.mem_cons_self
    | credential | settings => rfl

/-- What the transaction of an escrow writes, once the UPDATE is done. -/
structure Renews (p : Nat × Text) (own : Nat) (row : RecoveryKey) (olds : List (Nat × RecoveryKey)) (db : EscrowDb) :
    Prop where
  current : row.isCurrent p.1 p.2 = true
  absent : db.recoveryKeys[own]? = none
  covers : ∀ id, CurrentIn db p id → id ∈ olds.map Prod.fst
  once : (olds.map Prod.fst).Nodup
  old : ∀ id row, (id, row) ∈ olds → id ≠ own ∧ row.supersededAt ≠ none ∧ CurrentIn db p id

theorem not_current_superseded {q : Nat × Text} (superseded : row.supersededAt ≠ none) : row.isCurrent q.1 q.2 ≠ true := by
  intro current
  exact superseded (isCurrent_iff.mp current).2.2.2

/-- After the COMMIT the new key is the current one, and the other labels are the same. -/
theorem Renews.commit (renews : Renews p own row olds db) (q : Nat × Text) (id : Nat) :
    CurrentIn (escrowSchema.applyAll (.recoveryKey own (some row) :: supersedes olds) db) q id ↔
      if q = p then id = own else CurrentIn db q id := by
  have rows : (escrowSchema.applyAll (.recoveryKey own (some row) :: supersedes olds) db).recoveryKeys =
      Table.write olds (db.recoveryKeys.put own (some row)) := applyAll_supersedes olds _
  unfold CurrentIn
  rw [rows]
  by_cases listed : id ∈ olds.map Prod.fst
  · obtain ⟨⟨_, after⟩, member, rfl⟩ := List.mem_map.mp listed
    obtain ⟨apart, superseded, before, stored, current⟩ := renews.old _ _ member
    rw [Table.getElem?_write_of_mem member renews.once]
    have none_ : ¬∃ r, some after = some r ∧ r.isCurrent q.1 q.2 = true := by
      rintro ⟨_, same, still⟩
      cases same
      exact not_current_superseded superseded still
    refine iff_of_false none_ ?_
    split
    case isTrue => exact apart
    case isFalse other =>
      rintro ⟨before', stored', current'⟩
      cases stored.symm.trans stored'
      exact other (isCurrent_inj current current')
  · rw [Table.getElem?_write_of_notMem listed]
    by_cases mine : id = own
    · subst mine
      rw [Table.getElem?_put_self]
      split
      case isTrue same =>
        subst same
        exact iff_of_true ⟨row, rfl, renews.current⟩ rfl
      case isFalse other =>
        refine iff_of_false ?_ ?_
        · rintro ⟨_, same, current⟩
          cases same
          exact other (isCurrent_inj renews.current current)
        · rintro ⟨before, stored, -⟩
          rw [renews.absent] at stored
          cases stored
    · rw [Table.getElem?_put_of_ne _ mine]
      split
      case isTrue same =>
        subst same
        exact iff_of_false (fun current => listed (renews.covers id current)) mine
      case isFalse => exact Iff.rfl

/-- Every device and label has the key of the last escrow for its only current one. -/
structure LastCurrent (w : EscrowWorld) : Prop where
  locked : escrowSchema.Locked w.store
  only : ∀ p id, w.last p = some id → ∀ other, CurrentIn w.store.committed p other ↔ other = id

/-- What a request `t` accepts of the others: nothing commits for a device and label while its
UPDATE on them is under way. -/
structure Spares (t : Nat) (w w₁ : EscrowWorld) : Prop where
  moves : escrowSchema.Moves (fun _ => True) t w.store w₁.store
  updating : ∀ p, w₁.updating p = some t ↔ w.updating p = some t
  still : ∀ p, w.updating p = some t → ∀ id, CurrentIn w₁.store.committed p id ↔ CurrentIn w.store.committed p id

theorem Spares.refl (t : Nat) (w : EscrowWorld) : Spares t w w :=
  ⟨.refl _ t w.store, fun _ => Iff.rfl, fun _ _ _ => Iff.rfl⟩

theorem Spares.trans (first : Spares t w w₁) (second : Spares t w₁ w₂) : Spares t w w₂ where
  moves := first.moves.trans second.moves
  updating p := (second.updating p).trans (first.updating p)
  still p mine id := (second.still p ((first.updating p).mpr mine) id).trans (first.still p mine id)

/-- A request has nothing open. -/
def Idle (t : Nat) (w : EscrowWorld) : Prop := w.store.session t = none ∧ ∀ p, w.updating p ≠ some t

def escrowTeam : Threads.Team EscrowOp.Res EscrowWorld where
  exec t o w answer w₁ := escrowExec t o w answer w₁ ∧ UpdatesAlone t o w answer w₁
  inv := LastCurrent
  rely := Spares
  guarantee _ _ _ _ _ := True
  idle := Idle
  rely_refl := Spares.refl
  rely_trans _ _ _ _ := Spares.trans

theorem Idle.spared (idle : Idle t w) (spares : Spares t w w₁) : Idle t w₁ :=
  ⟨spares.moves.session.trans idle.1, fun p mine => idle.2 p ((spares.updating p).mp mine)⟩

/-- A row that a request has locked stays as it is. -/
theorem Spares.locked {id : Nat} (spares : Spares t w w₁) (mine : w.store.owner (.recoveryKey id) = some t) :
    w₁.store.committed.recoveryKeys[id]? = w.store.committed.recoveryKeys[id]? := by
  obtain ⟨ds, allowed, committed⟩ := spares.moves.committed
  rw [committed]
  exact applyAll_row (fun d member taken => (allowed d member).2 _ taken mine) _

theorem release_iff {updating : Nat × Text → Option Nat} : release t updating p = some u ↔ u ≠ t ∧ updating p = some u := by
  unfold release
  split
  case isTrue mine =>
    refine iff_of_false nofun ?_
    rintro ⟨apart, theirs⟩
    exact apart (Option.some.inj (theirs.symm.trans mine))
  case isFalse not =>
    refine ⟨fun theirs => ⟨?_, theirs⟩, fun theirs => theirs.2⟩
    rintro rfl
    exact not theirs

/-- The UPDATEs of the others are where they were. -/
theorem updatingAfter_iff {o : SqlOp EscrowStmt} {answer : o.Res EscrowStmt.Ans} {updating : Nat × Text → Option Nat}
    (other : u ≠ t) (alone : ∀ deviceId label own, o = .within (.currentKeys deviceId label own) →
      updating (deviceId, label) = none) (p : Nat × Text) :
    updatingAfter t o answer updating p = some u ↔ updating p = some u := by
  have released : release t updating p = some u ↔ updating p = some u := release_iff.trans (and_iff_right other)
  cases o with
  | query _ | begin | commit => exact Iff.rfl
  | rollback => exact released
  | within s =>
    cases answer with
    | none => cases s <;> exact released
    | some answer =>
      cases s with
      | settings | upsertCredential _ _ _ _ | insertRecoveryKey _ _ _ _ | supersede _ _ _ _ => exact Iff.rfl
      | currentKeys deviceId label own =>
        have free := alone deviceId label own rfl
        change Function.update updating (deviceId, label) (some t) p = some u ↔ _
        by_cases same : p = (deviceId, label)
        · rw [same, Function.update_self, free]
          refine iff_of_false (fun mine => ?_) nofun
          exact other (Option.some.inj mine).symm
        · rw [Function.update_of_ne same]

/-- What the connection `t` does inside its transaction is no one else's concern. -/
theorem spares_inside {o : SqlOp EscrowStmt} {answer : o.Res EscrowStmt.Ans} (inside : Schema.Inside o)
    (run : escrowExec t (.sql o) w answer w₁) (alone : UpdatesAlone t (.sql o) w answer w₁) (inv : LastCurrent w) :
    LastCurrent w₁ ∧ ∀ u, u ≠ t → Spares u w w₁ := by
  obtain ⟨store, ran, rfl⟩ := run
  obtain ⟨committed, locked, moves⟩ := Schema.exec_inside (P := fun _ => True) inside inv.locked ran
  refine ⟨⟨locked, fun p id last other => ?_⟩, fun u other => ⟨moves u other, ?_, fun p _ id => ?_⟩⟩
  · change CurrentIn store.committed p other ↔ _
    rw [committed]
    exact inv.only p id last other
  · refine updatingAfter_iff other ?_
    rintro deviceId label own rfl
    exact alone
  · change CurrentIn store.committed p id ↔ _
    rw [committed]

/-- A change of other tables. -/
theorem spares_publish {changes : List EscrowChange} (free : ∀ c ∈ changes, ∀ k ∈ escrowSchema.locks c, w.store.owner k = none)
    (elsewhere : ∀ c ∈ changes, ∀ id, EscrowLock.recoveryKey id ∉ escrowSchema.locks c) (inv : LastCurrent w) :
    LastCurrent { w with store := escrowSchema.publish changes w.store } ∧
    ∀ u, Spares u w { w with store := escrowSchema.publish changes w.store } := by
  have same : (escrowSchema.applyAll changes w.store.committed).recoveryKeys = w.store.committed.recoveryKeys :=
    Std.ExtTreeMap.ext_getElem? fun id => applyAll_row (fun c member => elsewhere c member id) _
  refine ⟨⟨inv.locked.publish changes, fun p id last other => ?_⟩, fun u => ⟨?_, fun _ => Iff.rfl, fun p _ id => ?_⟩⟩
  · exact (CurrentIn.congr same p other).trans (inv.only p id last other)
  · refine Schema.moves_publish (fun _ _ => trivial) fun c member k needed owns => ?_
    rw [free c member k needed] at owns
    cases owns
  · exact CurrentIn.congr same p id

theorem spares_query {s : EscrowStmt} {answer : Option s.Ans} (run : escrowExec t (.sql (.query s)) w answer w₁)
    (elsewhere : ∀ draw db out, escrowSchema.run s draw db = some out →
      ∀ c ∈ out.changes, ∀ id, EscrowLock.recoveryKey id ∉ escrowSchema.locks c) (inv : LastCurrent w) :
    LastCurrent w₁ ∧ ∀ u, Spares u w w₁ := by
  obtain ⟨store, ran, rfl⟩ := run
  obtain ⟨draw, out, ran, free, -, rfl⟩ | ⟨-, rfl⟩ := ran
  · refine spares_publish (fun c member k needed => ?_) (elsewhere draw _ out ran) inv
    rcases free k (Schema.mem_needs member needed) with nobody | nobody
    · exact nobody
    · exact nobody
  · exact ⟨inv, fun u => Spares.refl u w⟩

/-- The new key is inserted, and not committed. -/
structure Inserted (t : Nat) (p : Nat × Text) (own : Nat) (row : RecoveryKey) (w : EscrowWorld) : Prop where
  session : w.store.session t = some ⟨[.recoveryKey own (some row)], false⟩
  current : row.isCurrent p.1 p.2 = true
  absent : w.store.committed.recoveryKeys[own]? = none
  quiet : ∀ q, w.updating q ≠ some t

/-- The UPDATE has started, and has found every current key. -/
structure Scanned (t : Nat) (p : Nat × Text) (own : Nat) (row : RecoveryKey) (found : List Nat) (w : EscrowWorld) :
    Prop where
  session : w.store.session t = some ⟨[.recoveryKey own (some row)], false⟩
  current : row.isCurrent p.1 p.2 = true
  absent : w.store.committed.recoveryKeys[own]? = none
  updating : w.updating p = some t
  covers : ∀ id, CurrentIn w.store.committed p id → id ∈ found

/-- The UPDATE is done. -/
structure Superseded (t : Nat) (p : Nat × Text) (own : Nat) (row : RecoveryKey) (olds : List (Nat × RecoveryKey))
    (w : EscrowWorld) : Prop where
  session : w.store.session t = some ⟨.recoveryKey own (some row) :: supersedes olds, false⟩
  updating : w.updating p = some t
  renews : Renews p own row olds w.store.committed

theorem LastCurrent.owner {changes : List EscrowChange} {failed : Bool} (inv : LastCurrent w)
    (session : w.store.session t = some ⟨changes, failed⟩) {id : Nat} {row : Option RecoveryKey}
    (written : .recoveryKey id row ∈ changes) : w.store.owner (.recoveryKey id) = some t :=
  inv.locked t _ session _ written _ List.mem_cons_self

theorem Inserted.spared (inserted : Inserted t p own row w) (inv : LastCurrent w) (spares : Spares t w w₁) :
    Inserted t p own row w₁ := by
  refine ⟨spares.moves.session.trans inserted.session, inserted.current, ?_, fun q mine => ?_⟩
  · rw [spares.locked (inv.owner inserted.session List.mem_cons_self)]
    exact inserted.absent
  · exact inserted.quiet q ((spares.updating q).mp mine)

theorem Scanned.spared (scanned : Scanned t p own row found w) (inv : LastCurrent w) (spares : Spares t w w₁) :
    Scanned t p own row found w₁ := by
  refine ⟨spares.moves.session.trans scanned.session, scanned.current, ?_, (spares.updating p).mpr scanned.updating,
    fun id current => ?_⟩
  · rw [spares.locked (inv.owner scanned.session List.mem_cons_self)]
    exact scanned.absent
  · exact scanned.covers id ((spares.still p scanned.updating id).mp current)

theorem Superseded.spared (superseded : Superseded t p own row olds w) (inv : LastCurrent w) (spares : Spares t w w₁) :
    Superseded t p own row olds w₁ := by
  have renews := superseded.renews
  have still := spares.still p superseded.updating
  refine ⟨spares.moves.session.trans superseded.session, (spares.updating p).mpr superseded.updating,
    renews.current, ?_, fun id current => renews.covers id ((still id).mp current), renews.once, fun id row member => ?_⟩
  · rw [spares.locked (inv.owner superseded.session List.mem_cons_self)]
    exact renews.absent
  · obtain ⟨apart, ended, current⟩ := renews.old id row member
    exact ⟨apart, ended, (still id).mpr current⟩

theorem insert_step {deviceId : Nat} {label keyId : Text} {ciphertext : List UInt8} {answer : Option (Nat × Int)}
    (run : escrowExec t (.sql (.within (.insertRecoveryKey deviceId label ciphertext keyId))) w answer w₁)
    (opened : w.store.session t = some ⟨[], false⟩) (quiet : ∀ q, w.updating q ≠ some t) :
    ∀ id createdAt, answer = some (id, createdAt) → ∃ row, Inserted t (deviceId, label) id row w₁ := by
  obtain ⟨store, ran, rfl⟩ := run
  obtain ⟨draw, out, done, -, rfl, rfl⟩ | ⟨rfl, rfl⟩ := (Schema.exec_within opened).mp ran
  case inr => exact fun _ _ => nofun
  intro id createdAt answered
  simp only [escrowSchema, EscrowStmt.run] at done
  split at done
  case isTrue => cases done
  case isFalse new =>
    cases done
    cases answered
    refine ⟨_, Schema.session_write opened, ?_, ?_, quiet⟩
    · simp [RecoveryKey.isCurrent]
    · change w.store.committed.recoveryKeys[draw.id]? = none
      rw [Schema.view_of_session opened] at new
      exact Std.ExtTreeMap.getElem?_eq_none fun member => new (Std.ExtTreeMap.mem_iff_contains.mp member)

/-- The UPDATE starts with every current key, since none is about to commit. -/
theorem scan_step {deviceId : Nat} {label : Text} {answer : Option (List Nat)}
    (run : escrowExec t (.sql (.within (.currentKeys deviceId label own))) w answer w₁)
    (inserted : Inserted t (deviceId, label) own row w) :
    ∀ found, answer = some found → Scanned t (deviceId, label) own row found w₁ := by
  obtain ⟨store, ran, rfl⟩ := run
  obtain ⟨draw, out, hits, -, rfl, rfl⟩ | ⟨rfl, rfl⟩ := (Schema.exec_within inserted.session).mp ran
  case inr => exact fun _ => nofun
  intro found answered
  cases hits
  cases answered
  refine ⟨Schema.session_write inserted.session, inserted.current, inserted.absent, Function.update_self _ _ _, ?_⟩
  intro id currentIn
  have apart := CurrentIn.ne currentIn inserted.absent
  obtain ⟨before, stored, current⟩ := currentIn
  refine List.mem_map.mpr ⟨(id, before), Table.mem_select.mpr ⟨?_, ?_⟩, rfl⟩
  · rw [Schema.view_of_session inserted.session]
    exact (Table.getElem?_put_of_ne _ apart _).trans stored
  · rw [Bool.and_eq_true]
    exact ⟨current, decide_eq_true apart⟩

theorem supersede_step {deviceId : Nat} {label : Text} {answer : Option Unit}
    (run : escrowExec t (.sql (.within (.supersede deviceId label own found))) w answer w₁)
    (scanned : Scanned t (deviceId, label) own row found w) :
    answer = some () → ∃ olds, Superseded t (deviceId, label) own row olds w₁ := by
  obtain ⟨store, ran, rfl⟩ := run
  obtain ⟨draw, out, done, -, rfl, rfl⟩ | ⟨rfl, rfl⟩ := (Schema.exec_within scanned.session).mp ran
  case inr => exact nofun
  intro _
  cases done
  have rows : ∀ id, id ≠ own → (escrowSchema.view w.store t).recoveryKeys[id]? = w.store.committed.recoveryKeys[id]? := by
    intro id apart
    rw [Schema.view_of_session scanned.session]
    exact Table.getElem?_put_of_ne _ apart _
  refine ⟨_, Schema.session_write scanned.session, scanned.updating, scanned.current, scanned.absent, ?_,
    Table.keys_update _ _ _, ?_⟩
  · intro id currentIn
    have apart := CurrentIn.ne currentIn scanned.absent
    obtain ⟨before, stored, current⟩ := currentIn
    refine List.mem_map.mpr ⟨_, Table.mem_update.mpr ⟨before, (rows id apart).trans stored, ?_, rfl⟩, rfl⟩
    rw [Bool.and_eq_true, Bool.and_eq_true]
    exact ⟨⟨List.contains_iff_mem.mpr (scanned.covers id ⟨before, stored, current⟩), current⟩, decide_eq_true apart⟩
  · intro id after member
    obtain ⟨before, stored, satisfied, rfl⟩ := Table.mem_update.mp member
    rw [Bool.and_eq_true, Bool.and_eq_true] at satisfied
    have apart := of_decide_eq_true satisfied.2
    exact ⟨apart, nofun, before, (rows id apart).symm.trans stored, satisfied.1.2⟩

/-- The COMMIT makes the new key the only current one of its label. -/
theorem commit_step {ok : Bool} (run : escrowExec t (.commitKey p.1 p.2 own) w ok w₁)
    (superseded : Superseded t p own row olds w) (inv : LastCurrent w) :
    LastCurrent w₁ ∧ (∀ u, u ≠ t → Spares u w w₁) ∧ Idle t w₁ := by
  have closed : ∀ q, release t w.updating q ≠ some t := fun q mine => (release_iff.mp mine).1 rfl
  have updating : ∀ u, u ≠ t → ∀ q, release t w.updating q = some u ↔ w.updating q = some u :=
    fun u other q => release_iff.trans (and_iff_right other)
  simp only [escrowExec, superseded.session] at run
  obtain rfl | ⟨-, rfl⟩ := run
  · have current := superseded.renews.commit
    refine ⟨⟨(inv.locked.publish _).close t, fun q id last other => ?_⟩, fun u other => ⟨?_, updating u other,
      fun q theirs id => ?_⟩, Schema.session_close, closed⟩
    · refine (current q other).trans ?_
      change Function.update w.last p (some own) q = some id at last
      by_cases same : q = p
      · rw [same, Function.update_self] at last
        cases last
        rw [if_pos same]
      · rw [Function.update_of_ne same] at last
        rw [if_neg same]
        exact inv.only q id last other
    · exact Schema.moves_commit other inv.locked superseded.session fun _ _ => trivial
    · refine (current q id).trans ?_
      rw [if_neg]
      rintro rfl
      rw [superseded.updating] at theirs
      exact other (Option.some.inj theirs).symm
  · exact ⟨⟨inv.locked.close t, inv.only⟩,
      fun u other => ⟨Schema.moves_close other, updating u other, fun _ _ _ => Iff.rfl⟩, Schema.session_close, closed⟩

variable {reply : EscrowReply} {post : EscrowReply → EscrowWorld → Prop}

theorem safe_reply (idle : Idle t w) : (escrowTeam.rules t).Safe (fun _ => Idle t) (.ret reply) w :=
  fun _ spares _ => idle.spared spares

/-- Whatever the transaction had done, the rollback ends it. -/
theorem safe_abort : (escrowTeam.rules t).Safe (fun _ => Idle t) abort w := by
  rintro w₁ - inv answer w₂ ⟨run, alone⟩
  obtain ⟨inv₂, others⟩ := spares_inside (o := .rollback) trivial run alone inv
  obtain ⟨store, ran, rfl⟩ := run
  cases ran
  have idle : Idle t { w₁ with
      store := w₁.store.close t
      updating := release t w₁.updating } := ⟨Schema.session_close, fun p mine => (release_iff.mp mine).1 rfl⟩
  exact ⟨inv₂, ⟨others, trivial⟩, safe_reply idle⟩

theorem safe_logAudit {entry : EscrowAudit} (idle : Idle t w) :
    (escrowTeam.rules t).Safe (fun _ => Idle t) (perform (.logAudit entry) >>= fun _ => .ret reply) w := by
  rintro w₁ spares inv answer w₂ ⟨run, -⟩
  cases run
  exact ⟨inv, ⟨fun u _ => Spares.refl u w₁, trivial⟩, safe_reply (idle.spared spares)⟩

/-- A statement of the transaction, and what follows when it has an answer. -/
theorem safe_within {s : EscrowStmt} {next : Option s.Ans → Escrowing EscrowReply} (aborts : next none = abort)
    (resume : ∀ w₁ answer w₂, Spares t w w₁ → LastCurrent w₁ →
      escrowExec t (.sql (.within s)) w₁ (some answer) w₂ → LastCurrent w₂ →
      (escrowTeam.rules t).Safe (fun _ => Idle t) (next (some answer)) w₂) :
    (escrowTeam.rules t).Safe (fun _ => Idle t) (within s >>= next) w := by
  rintro w₁ spares inv answer w₂ ⟨run, alone⟩
  obtain ⟨inv₂, others⟩ := spares_inside (o := .within s) trivial run alone inv
  refine ⟨inv₂, ⟨others, trivial⟩, ?_⟩
  cases answer with
  | none =>
    change (escrowTeam.rules t).Safe _ (next none) _
    rw [aborts]
    exact safe_abort
  | some answer => exact resume w₁ answer w₂ spares inv run inv₂

theorem safe_storeRecoveryKey {key : EscrowDevice} {keyId label : Text} {ciphertext : List UInt8} (idle : Idle t w) :
    (escrowTeam.rules t).Safe (fun _ => Idle t) (storeRecoveryKey key keyId ciphertext label) w := by
  rintro w₁ spares inv ok w₂ ⟨run, alone⟩
  obtain ⟨inv₂, others⟩ := spares_inside (o := .begin) trivial run alone inv
  refine ⟨inv₂, ⟨others, trivial⟩, ?_⟩
  obtain ⟨store, ran, rfl⟩ := run
  have idle := idle.spared spares
  obtain ⟨rfl, rfl⟩ | ⟨rfl, rfl⟩ := ran
  case inr => exact safe_abort
  have opened : (w₁.store.openTx t).session t = some ⟨[], false⟩ := Schema.session_openTx idle.1
  refine safe_within rfl fun w₃ answer w₄ spares₃ inv₃ run₃ inv₄ => ?_
  obtain ⟨row, inserted⟩ := insert_step run₃ (spares₃.moves.session.trans opened)
    (fun q mine => idle.2 q ((spares₃.updating q).mp mine)) answer.1 answer.2 rfl
  refine safe_within rfl fun w₅ found w₆ spares₅ inv₅ run₅ inv₆ => ?_
  have scanned := scan_step run₅ (inserted.spared inv₄ spares₅) found rfl
  refine safe_within rfl fun w₇ _ w₈ spares₇ inv₇ run₇ inv₈ => ?_
  obtain ⟨olds, superseded⟩ := supersede_step run₇ (scanned.spared inv₆ spares₇) rfl
  rintro w₉ spares₉ inv₉ ok w₁₀ ⟨run₉, -⟩
  obtain ⟨inv₁₀, others, idle⟩ := commit_step run₉ (superseded.spared inv₈ spares₉) inv₉
  refine ⟨inv₁₀, ⟨others, trivial⟩, ?_⟩
  cases ok with
  | false => exact safe_abort
  | true => exact safe_logAudit idle

/-- A statement by itself that leaves the recovery keys alone. -/
theorem safe_query {s : EscrowStmt} {next : Option s.Ans → Escrowing EscrowReply}
    (elsewhere : ∀ draw db out, escrowSchema.run s draw db = some out →
      ∀ c ∈ out.changes, ∀ id, EscrowLock.recoveryKey id ∉ escrowSchema.locks c) (idle : Idle t w)
    (resume : ∀ answer w₁, Idle t w₁ → (escrowTeam.rules t).Safe (fun _ => Idle t) (next answer) w₁) :
    (escrowTeam.rules t).Safe (fun _ => Idle t) (query s >>= next) w := by
  rintro w₁ spares inv answer w₂ ⟨run, -⟩
  obtain ⟨inv₂, others⟩ := spares_query run elsewhere inv
  exact ⟨inv₂, ⟨fun u _ => others u, trivial⟩, resume answer w₂ ((idle.spared spares).spared (others t))⟩

theorem safe_settings {next : Option EscrowSettings → Escrowing EscrowReply} (idle : Idle t w)
    (resume : ∀ answer w₁, Idle t w₁ → (escrowTeam.rules t).Safe (fun _ => Idle t) (next answer) w₁) :
    (escrowTeam.rules t).Safe (fun _ => Idle t) (query .settings >>= next) w := by
  refine safe_query (fun draw db out ran c member => ?_) idle resume
  cases ran
  exact absurd member List.not_mem_nil

theorem upsertCredential_elsewhere {deviceId : Nat} {username : Text} {ciphertext : List UInt8} {rotatedAt : Int}
    (draw : EscrowDraw) (db : EscrowDb) (out : Outcome EscrowChange EscrowLock (Option Int))
    (ran : escrowSchema.run (.upsertCredential deviceId username ciphertext rotatedAt) draw db = some out) :
    ∀ c ∈ out.changes, ∀ id, EscrowLock.recoveryKey id ∉ escrowSchema.locks c := by
  have locks : ∀ c ∈ out.changes, escrowSchema.locks c = [.credential deviceId] := by
    simp only [escrowSchema, EscrowStmt.run] at ran
    split at ran
    · split at ran <;> cases ran <;> simp [escrowSchema, EscrowChange.locks]
    · cases ran
      simp [escrowSchema, EscrowChange.locks]
  intro c member id
  rw [locks c member]
  simp

theorem safe_escrowLocalAdmin {fns : EscrowFns} {key : EscrowDevice} {keyId username rotatedAt : Text}
    {ciphertext : List UInt8} (idle : Idle t w) :
    (escrowTeam.rules t).Safe (fun _ => Idle t) (escrowLocalAdmin fns key keyId ciphertext username rotatedAt) w := by
  refine safe_settings idle fun settings w₁ idle => ?_
  cases settings with
  | none => exact safe_reply idle
  | some settings =>
    dsimp only
    split
    case isTrue => exact safe_reply idle
    case isFalse =>
      cases fns.timestamptz rotatedAt with
      | none => exact safe_reply idle
      | some changedAt =>
        refine safe_query upsertCredential_elsewhere idle fun answer w₂ idle => ?_
        rcases answer with _ | _ | storedAt
        · exact safe_reply idle
        · exact safe_reply idle
        · exact safe_logAudit idle

theorem safe_escrowLuks {fns : EscrowFns} {key : EscrowDevice} {keyId label : Text} {ciphertext : List UInt8}
    (idle : Idle t w) : (escrowTeam.rules t).Safe (fun _ => Idle t) (escrowLuks fns key keyId ciphertext label) w := by
  refine safe_settings idle fun settings w₁ idle => ?_
  cases settings with
  | none => exact safe_reply idle
  | some settings =>
    dsimp only
    split
    case isTrue => exact safe_reply idle
    case isFalse => exact safe_storeRecoveryKey idle

theorem safe_escrowSecret {fns : EscrowFns} {key : EscrowDevice} {body : EscrowRequest} {info : EscrowInfo}
    (idle : Idle t w) : (escrowTeam.rules t).Safe (fun _ => Idle t) (escrowSecret fns key body info) w := by
  unfold escrowSecret
  cases checkEscrowRequest fns body info with
  | error reply => exact safe_reply idle
  | ok checked =>
    obtain ⟨keyId, ciphertext⟩ := checked
    dsimp only
    cases body.kind with
    | luks_recovery label => exact safe_escrowLuks idle
    | local_admin username rotatedAt =>
      rintro w₁ spares inv now w₂ ⟨run, -⟩
      cases run
      have idle := idle.spared spares
      refine ⟨inv, ⟨fun u _ => Spares.refl u w₁, trivial⟩, ?_⟩
      dsimp only
      rw [Program.ret_bind]
      split
      case isTrue => exact safe_reply idle
      case isFalse => exact safe_escrowLocalAdmin idle

theorem escrows_verified (fns : EscrowFns) : ((escrows fns).restrict UpdatesAlone).Verified escrowTeam where
  exec run := run
  env {w w₁} inv moves := by
    obtain ⟨settings, free, rfl⟩ := moves
    refine spares_publish (fun c member k needed => ?_) (fun c member id taken => ?_) inv
    · cases List.mem_singleton.mp member
      cases List.mem_singleton.mp needed
      exact free
    · cases List.mem_singleton.mp member
      cases List.mem_singleton.mp taken
  entry {program t w} allowed inv idle := by
    obtain ⟨key, body, info, rfl⟩ := allowed
    exact (safe_escrowSecret idle).bind inv fun _ w₁ _ idle => fun _ spares _ => idle.spared spares
  drop {t w} inv := by
    have closed : ∀ p, release t w.updating p ≠ some t := fun p mine => (release_iff.mp mine).1 rfl
    refine ⟨⟨inv.locked.close t, inv.only⟩, fun w₁ spares _ => Idle.spared ⟨Schema.session_close, closed⟩ spares,
      fun u other => ⟨Schema.moves_close other, fun p => ?_, fun _ _ _ => Iff.rfl⟩⟩
    exact release_iff.trans (and_iff_right other)

theorem escrow_initial (w : EscrowWorld) (start : EscrowStart w) :
    LastCurrent w ∧ ∀ t w₁, Spares t w w₁ → LastCurrent w₁ → Idle t w₁ := by
  obtain ⟨db, rfl⟩ := start
  refine ⟨⟨Schema.locked_start db, fun _ _ last => ?_⟩, fun t w₁ spares _ => Idle.spared ⟨rfl, fun p mine => ?_⟩ spares⟩
  · cases last
  · cases mine

/-- Along every run in which the UPDATEs on a device and a label do not overlap, the key of the
escrow that has committed last is their only current one. -/
theorem last_key_current {fns : EscrowFns} {c : Threads.Config EscrowOp.Res EscrowWorld}
    (reach : ((escrows fns).restrict UpdatesAlone).Reach EscrowStart c) (deviceId : Nat) (label : Text) (id : Nat)
    (last : c.world.last (deviceId, label) = some id) (other : Nat) :
    (∃ row, c.world.store.committed.recoveryKeys[other]? = some row ∧ row.isCurrent deviceId label = true) ↔
      other = id := by
  have inv : LastCurrent c.world := reach.inv (escrows_verified fns) escrow_initial
  exact inv.only (deviceId, label) id last other

/-! Escrows of the key of the partition "root", for an empty database. -/

def confirmation : Text := "\x7b\"key_id\":\"k1\"\x7d".toList

/-- `Buffer.from` on a text of `A`, `parseBackupConfirmation` on `confirmation`, and two instants, the second
half a millisecond after the first. -/
def demoFns : EscrowFns :=
  ⟨fun text => List.replicate (text.length * 3 / 4) 0, fun text => if text = confirmation then some "k1".toList else none,
    fun _ => some 1800000000000,
    fun text => if text = "2027-01-15T08:00:00.0005Z".toList then some 1800000000000500 else some 1800000000000000⟩

def demoDevice : EscrowDevice := ⟨5, "0f1e2d3c4b5a6978".toList⟩

def root : Text := "root".toList

def demoRequest : EscrowRequest := ⟨.luks_recovery root, "k1".toList, List.replicate 268 'A'⟩

def demoCiphertext : List UInt8 := List.replicate 201 0

theorem demo_escrowSecret : escrowSecret demoFns demoDevice demoRequest ⟨some "k1".toList⟩ =
    escrowLuks demoFns demoDevice "k1".toList demoCiphertext root := by
  have decoded : decodeCiphertext demoFns demoRequest.ciphertext = some demoCiphertext := by decide +kernel
  have checked : checkEscrowRequest demoFns demoRequest ⟨some "k1".toList⟩ = .ok ("k1".toList, demoCiphertext) := by
    unfold checkEscrowRequest
    rw [decoded]
    rfl
  unfold escrowSecret
  rw [checked]
  rfl

def demoKey (now : Int) : RecoveryKey := ⟨5, .luks_recovery, root, demoCiphertext, "k1".toList, now, none⟩

def demoSettings : EscrowSettings := ⟨none, some confirmation⟩

def demoStart : EscrowWorld := ⟨.start ⟨∅, ∅, demoSettings⟩, fun _ => none, fun _ => none⟩

variable {cond : Nat → (o : EscrowOp) → EscrowWorld → o.Res → EscrowWorld → Prop}

theorem demo_start : ((escrows demoFns).restrict cond).Reach EscrowStart ⟨demoStart, fun _ => .ret ()⟩ :=
  .init ⟨_, rfl⟩

theorem demo_entry : ((escrows demoFns).restrict cond).entry
    (request (escrowLuks demoFns demoDevice "k1".toList demoCiphertext root)) :=
  ⟨demoDevice, demoRequest, ⟨some "k1".toList⟩, by rw [demo_escrowSecret]⟩

/-- One escrow, and the key that it leaves. -/
theorem last_key_current_once : ∃ c : Threads.Config EscrowOp.Res EscrowWorld,
    c.world.last (5, root) = some 10 ∧ ∀ other : Nat,
      (∃ row, c.world.store.committed.recoveryKeys[other]? = some row ∧ row.isCurrent 5 root = true) ↔ other = 10 := by
  have r := @demo_start UpdatesAlone
  have r := r.begins 0 _ rfl demo_entry
  have r := r.perform 0 rfl (some demoSettings) _
    ⟨⟨_, .inl ⟨⟨10, 100⟩, _, rfl, fun _ _ => .inl rfl, rfl, rfl⟩, rfl⟩, trivial⟩
  have r := r.perform 0 rfl true _ ⟨⟨_, .inl ⟨rfl, rfl⟩, rfl⟩, trivial⟩
  have r := r.perform 0 rfl (some (10, 100)) _
    ⟨⟨_, .inl ⟨⟨10, 100⟩, _, rfl, fun _ _ => .inl rfl, rfl, rfl⟩, rfl⟩, trivial⟩
  have r := r.perform 0 rfl (some []) _
    ⟨⟨_, .inl ⟨⟨10, 100⟩, _, rfl, fun _ => nofun, rfl, rfl⟩, rfl⟩, rfl⟩
  have r := r.perform 0 rfl (some ()) _
    ⟨⟨_, .inl ⟨⟨10, 100⟩, _, rfl, fun _ => nofun, rfl, rfl⟩, rfl⟩, trivial⟩
  have r := r.perform 0 rfl true ⟨_, _, _⟩ ⟨.inl rfl, trivial⟩
  exact ⟨_, rfl, last_key_current r 5 root 10 rfl⟩

/-- Two escrows at once: neither UPDATE sees the key of the other, and both keys stay current. -/
theorem two_keys_current : ¬∀ c : Threads.Config EscrowOp.Res EscrowWorld, (escrows demoFns).Reach EscrowStart c →
    ∀ deviceId label id, c.world.last (deviceId, label) = some id → ∀ other : Nat,
      (∃ row, c.world.store.committed.recoveryKeys[other]? = some row ∧ row.isCurrent deviceId label = true) ↔
        other = id := by
  intro one
  have r := @demo_start fun _ _ _ _ _ => True
  have r := r.begins 0 _ rfl demo_entry
  have r := r.begins 1 _ rfl demo_entry
  have r := r.perform 0 rfl (some demoSettings) _
    ⟨⟨_, .inl ⟨⟨10, 100⟩, _, rfl, fun _ => nofun, rfl, rfl⟩, rfl⟩, trivial⟩
  have r := r.perform 1 rfl (some demoSettings) _
    ⟨⟨_, .inl ⟨⟨11, 101⟩, _, rfl, fun _ => nofun, rfl, rfl⟩, rfl⟩, trivial⟩
  have r := r.perform 0 rfl true _ ⟨⟨_, .inl ⟨rfl, rfl⟩, rfl⟩, trivial⟩
  have r := r.perform 1 rfl true _ ⟨⟨_, .inl ⟨rfl, rfl⟩, rfl⟩, trivial⟩
  have r := r.perform 0 rfl (some (10, 100)) _
    ⟨⟨_, .inl ⟨⟨10, 100⟩, _, rfl, fun _ _ => .inl rfl, rfl, rfl⟩, rfl⟩, trivial⟩
  have free : ∀ k ∈ [EscrowLock.recoveryKey 11], k ≠ .recoveryKey 10 := by decide
  have r := r.perform 1 rfl (some (11, 101)) _
    ⟨⟨_, .inl ⟨⟨11, 101⟩, _, rfl, fun k member => .inl (if_neg fun taken => free k member (List.mem_singleton.mp taken)),
      rfl, rfl⟩, rfl⟩, trivial⟩
  have r := r.perform 0 rfl (some []) _
    ⟨⟨_, .inl ⟨⟨10, 100⟩, _, rfl, fun _ => nofun, rfl, rfl⟩, rfl⟩, trivial⟩
  have r := r.perform 1 rfl (some []) _
    ⟨⟨_, .inl ⟨⟨11, 101⟩, _, rfl, fun _ => nofun, rfl, rfl⟩, rfl⟩, trivial⟩
  have r := r.perform 0 rfl (some ()) _
    ⟨⟨_, .inl ⟨⟨10, 100⟩, _, rfl, fun _ => nofun, rfl, rfl⟩, rfl⟩, trivial⟩
  have r := r.perform 1 rfl (some ()) _
    ⟨⟨_, .inl ⟨⟨11, 101⟩, _, rfl, fun _ => nofun, rfl, rfl⟩, rfl⟩, trivial⟩
  have r := r.perform 0 rfl true ⟨_, _, _⟩ ⟨.inl rfl, trivial⟩
  have r := r.perform 1 rfl true ⟨_, _, _⟩ ⟨.inl rfl, trivial⟩
  have only := one _ r.of_restrict 5 root 11 rfl 10
  cases only.mp ⟨demoKey 100, rfl, rfl⟩

end Opale.Linux.Escrow
