import Opale.Agents.Steps

namespace Opale.Agents

open Sql
open Linux (Text)

variable {fns : AgentFns} {t u id : Nat} {w w₁ w₂ : AgentWorld} {o : AgentOp} {answer : o.Res} {e : AgentEvent}

/-- The row is there, and it is revoked. -/
def Revoked (row : Option AgentToken) : Prop := ∃ r, row = some r ∧ r.revokedAt ≠ none

/-- No statement takes a revocation back. -/
theorem TokenStep.revoked {s : AgentStmt} {a b : Option AgentToken} (step : TokenStep s id a b) (revoked : Revoked a) :
    Revoked b := by
  cases step with
  | same => exact revoked
  | insert inserts =>
    obtain ⟨r, absurd_, -⟩ := revoked
    cases absurd_
  | set sets =>
    obtain ⟨r, same, revokedAt⟩ := revoked
    cases same
    cases sets with
    | replaceToken | redeem | claimToken _ | bindToken => exact ⟨_, rfl, revokedAt⟩
    | revokeUnused _ | revokeToken _ => exact ⟨_, rfl, nofun⟩

/-- The tokens that the history says are revoked are so, and none of them has authenticated
since; every rotation comes from a request that has authenticated with its token. -/
structure Final (w : AgentWorld) : Prop where
  locked : agentSchema.Locked w.store
  steady : ∀ u, tokenCells.Pending (fun _ a b => Revoked a → Revoked b) u w.store
  revoked : ∀ T, .revoked T ∈ w.history → Revoked w.store.committed.tokens[T]?
  final : ∀ {T later earlier}, w.history = later ++ .revoked T :: earlier → ∀ t now, .authenticated t T now ∉ later
  sourced : ∀ {t T S now later earlier}, w.history = later ++ .rotated t T S now :: earlier →
    ∃ at_, .authenticated t T at_ ∈ earlier

/-- The history of the world goes on. -/
def Extends (w w₁ : AgentWorld) : Prop := ∃ new, w₁.history = new ++ w.history

theorem Extends.refl (w : AgentWorld) : Extends w w := ⟨[], rfl⟩

theorem Extends.trans (first : Extends w w₁) (second : Extends w₁ w₂) : Extends w w₂ := by
  obtain ⟨new, same⟩ := first
  obtain ⟨newer, same₁⟩ := second
  exact ⟨newer ++ new, by rw [same₁, same, List.append_assoc]⟩

theorem Extends.mem (extends_ : Extends w w₁) (member : e ∈ w.history) : e ∈ w₁.history := by
  obtain ⟨new, same⟩ := extends_
  rw [same]
  exact List.mem_append_right new member

theorem exec_extends (run : agentExec t o w answer w₁) : Extends w w₁ := by
  obtain same | ⟨e, same, -⟩ := exec_history run
  · exact ⟨[], same⟩
  · exact ⟨[e], same⟩

/-- A world whose history is the same, and whose store has moved. -/
theorem Final.moved (final : Final w) (locked : agentSchema.Locked w₁.store)
    (steady : ∀ u, tokenCells.Pending (fun _ a b => Revoked a → Revoked b) u w₁.store)
    (kept : ∀ id : Nat, Revoked w.store.committed.tokens[id]? → Revoked w₁.store.committed.tokens[id]?)
    (same : w₁.history = w.history) : Final w₁ := by
  refine ⟨locked, steady, fun T member => ?_, fun split => ?_, fun split => ?_⟩
  · rw [same] at member
    exact kept T (final.revoked T member)
  · rw [same] at split
    exact final.final split
  · rw [same] at split
    exact final.sourced split

/-- One operation keeps all of it, if a rotation is of a token that its request has
authenticated with. -/
theorem Final.exec (final : Final w) (run : agentExec t o w answer w₁)
    (source : ∀ T S, o = .commit (.rotation T S) → ∃ at_, .authenticated t T at_ ∈ w.history) : Final w₁ := by
  obtain ⟨locked, -⟩ := exec_others run final.locked
  obtain ⟨steady, kept⟩ := exec_pending_all run final.locked (fun _ revoked => revoked)
    (fun _ _ _ first second revoked => second (first revoked)) (fun _ _ _ _ step => step.revoked) final.steady
  obtain same | ⟨e, more, noted⟩ := exec_history run
  · exact final.moved locked steady kept same
  refine ⟨locked, steady, fun T member => ?_, fun {T later earlier} split => ?_, fun {t' T S now later earlier} split => ?_⟩
  · rw [more] at member
    rcases List.mem_cons.mp member with rfl | old
    · cases noted with
      | revoked _ after revokedAt => exact ⟨_, after, revokedAt⟩
    · exact kept T (final.revoked T old)
  · rw [more] at split
    obtain ⟨rfl, same⟩ | ⟨rest, rfl, same⟩ := List.cons_eq_append_iff.mp split
    · exact fun _ _ => List.not_mem_nil
    · intro t' now member
      rcases List.mem_cons.mp member with rfl | old
      · have before := final.revoked T (by rw [same]; exact List.mem_append_right rest List.mem_cons_self)
        cases noted with
        | authenticated _ stored accepted =>
          obtain ⟨r, here, revokedAt⟩ := before
          cases stored.symm.trans here
          simp only [AgentToken.accepted, Bool.and_eq_true, decide_eq_true_eq] at accepted
          exact revokedAt accepted.1.1.2
      · exact final.final same t' now old
  · rw [more] at split
    obtain ⟨rfl, same⟩ | ⟨rest, rfl, same⟩ := List.cons_eq_append_iff.mp split
    · cases same
      cases noted with
      | rotated named _ _ => exact source T S named
    · exact final.sourced same

def revocationTeam : Threads.Team AgentOp.Res AgentWorld where
  exec := agentExec
  inv := Final
  rely _ := Extends
  guarantee _ _ _ _ _ := True
  idle _ _ := True
  rely_refl _ := Extends.refl
  rely_trans _ _ _ _ := Extends.trans

variable {α : Type} {post : α → AgentWorld → Prop}

/-- An operation that commits no rotation, in front of a program. -/
theorem safe_op_final {next : o.Res → Agent α} (other : ∀ T S, o ≠ .commit (.rotation T S))
    (resume : ∀ answer w₁ w₂, Extends w w₁ → agentExec t o w₁ answer w₂ → Extends w w₂ →
      (revocationTeam.rules t).Safe post (next answer) w₂) :
    (revocationTeam.rules t).Safe post (perform o >>= next) w := by
  intro w₁ later final answer w₂ run
  have more := exec_extends run
  refine ⟨final.exec run fun T S named => absurd named (other T S), ⟨fun _ _ => more, trivial⟩, ?_⟩
  exact resume answer w₁ w₂ later run (later.trans more)

theorem safe_orderly_final (kind : Kind) {a b : Bool} {program : Agent α} (orderly : Orderly kind a b program)
    (other : kind ≠ .rotates) : (revocationTeam.rules t).Safe (fun _ _ => True) program w := by
  refine Rules.Safe.of_follows (fun _ _ => True) (fun _ _ _ => trivial) ?_ orderly trivial
  intro s o w answer w₁ allowed _ final run
  refine ⟨final.exec run fun T S named => ?_, ⟨fun _ _ => exec_extends run, trivial⟩, trivial⟩
  subst named
  rcases allowed with none_ | rotates
  · cases none_
  · exact absurd (Option.some.inj rotates).symm other

theorem safe_abort_final {reply : AgentReply} : (revocationTeam.rules t).Safe (fun _ _ => True) (abort reply) w :=
  safe_op_final (fun _ _ => nofun) fun _ _ _ _ _ _ => fun _ _ _ => trivial

/-- The token that `authToken` answers is noted. -/
theorem authToken_noted {hash : Text} {row : TokenRow}
    (run : agentExec t (.sql (.query (.authToken hash))) w (some (some row)) w₁) :
    .authenticated t row.1 w.store.committed.clock ∈ w₁.history := by
  obtain ⟨store, -, rfl⟩ := run
  exact List.mem_cons_self

theorem safe_authToken_final {plain : Option Text} {next : Option (Option TokenRow) → Agent α}
    (refused : ∀ answer w₁, (∀ row, answer ≠ some (some row)) → (revocationTeam.rules t).Safe post (next answer) w₁)
    (resume : ∀ row at_ w₁, .authenticated t row.1 at_ ∈ w₁.history →
      (revocationTeam.rules t).Safe post (next (some (some row))) w₁) :
    (revocationTeam.rules t).Safe post (authToken fns plain >>= next) w := by
  cases plain with
  | none => exact refused (some none) w fun _ => nofun
  | some plain =>
    refine safe_op_final (o := .sql (.query (.authToken (fns.hashToken plain)))) (fun _ _ => nofun)
      fun answer w₁ w₂ _ run _ => ?_
    rcases answer with _ | _ | row
    · exact refused none w₂ fun _ => nofun
    · exact refused (some none) w₂ fun _ => nofun
    · exact resume row _ w₂ (authToken_noted run)

theorem safe_rotate_final {T : TokenRow} {newToken : Text} {expiresAt at_ : Int}
    (authenticated : .authenticated t T.1 at_ ∈ w.history) :
    (revocationTeam.rules t).Safe (fun _ _ => True) (rotate fns T newToken expiresAt) w := by
  refine safe_op_final (fun _ _ => nofun) fun begun _ w₁ _ _ more => ?_
  have authenticated := more.mem authenticated
  cases begun with
  | false => exact safe_abort_final
  | true =>
    refine safe_op_final (fun _ _ => nofun) fun newId _ w₂ _ _ more => ?_
    have authenticated := more.mem authenticated
    cases newId with
    | none => exact safe_abort_final
    | some newId =>
      refine safe_op_final (fun _ _ => nofun) fun replaced _ w₃ _ _ more => ?_
      have authenticated := more.mem authenticated
      cases replaced with
      | none => exact safe_abort_final
      | some =>
        intro w₄ later final ok w₅ run
        have run : agentExec t (.commit (.rotation T.1 newId)) w₄ ok w₅ := run
        refine ⟨final.exec run fun T' S named => ?_, ⟨fun _ _ => exec_extends run, trivial⟩, ?_⟩
        · cases named
          exact ⟨at_, later.mem authenticated⟩
        · cases ok with
          | false => exact safe_abort_final
          | true => exact safe_op_final (fun _ _ => nofun) fun _ _ _ _ _ _ => fun _ _ _ => trivial

theorem safe_rotateToken_final {plain : Option Text} :
    (revocationTeam.rules t).Safe (fun _ _ => True) (rotateToken fns plain) w := by
  refine safe_authToken_final (fun answer w₁ refused => ?_) fun row at_ w₁ authenticated => ?_
  · rcases answer with _ | _ | row
    · exact fun _ _ _ => trivial
    · exact fun _ _ _ => trivial
    · exact absurd rfl (refused row)
  · refine safe_op_final (fun _ _ => nofun) fun _ _ w₂ _ _ more => ?_
    have authenticated := more.mem authenticated
    refine safe_op_final (fun _ _ => nofun) fun _ _ w₃ _ _ more => ?_
    exact safe_rotate_final (more.mem authenticated)

theorem safe_route_final {route : Agent AgentReply} (allowed : Route fns route) :
    (revocationTeam.rules t).Safe (fun _ _ => True) route w := by
  cases allowed with
  | rotate => exact safe_rotateToken_final
  | authenticated => exact safe_orderly_final .binds orderly_authenticatedRoute nofun
  | exchange => exact safe_orderly_final .exchanges orderly_exchangeToken nofun
  | checkin => exact safe_orderly_final .binds orderly_checkin nofun
  | revoke => exact safe_orderly_final .binds orderly_revokeToken nofun
  | create => exact safe_orderly_final .binds orderly_createToken nofun

/-- What the rest of the server does leaves the revoked tokens revoked. -/
theorem Foreign.revoked {db : AgentDb} {change : AgentChange} (foreign : Foreign db change) (id : Nat)
    (revoked : Revoked db.tokens[id]?) : Revoked (change.apply db).tokens[id]? := by
  cases foreign with
  | clock | device => exact revoked
  | @bootstrap other row absent =>
    have apart : id ≠ other := by
      rintro rfl
      obtain ⟨r, stored, -⟩ := revoked
      rw [absent] at stored
      cases stored
    change Revoked (db.tokens.put other (some row))[id]?
    rw [Table.getElem?_put_of_ne _ apart]
    exact revoked
  | @conversion other row now stored =>
    change Revoked (db.tokens.put other (some (row.revoke now)))[id]?
    by_cases same : id = other
    · rw [same, Table.getElem?_put_self]
      exact ⟨_, rfl, nofun⟩
    · rw [Table.getElem?_put_of_ne _ same]
      exact revoked

theorem agents_final (fns : AgentFns) : (agents fns).Verified revocationTeam where
  exec run := run
  env {w w₁} final moves := by
    obtain ⟨change, foreign, free, rfl⟩ := moves
    have moves : ∀ u, agentSchema.Moves (fun _ => True) u w.store (agentSchema.publish [change] w.store) := by
      refine fun u => Schema.moves_publish (fun _ _ => trivial) fun c member k needed owns => ?_
      cases List.mem_singleton.mp member
      rw [free k needed] at owns
      cases owns
    refine ⟨final.moved (final.locked.publish _) (fun u => ?_) (fun id => foreign.revoked id) rfl, fun _ => Extends.refl w⟩
    exact (final.steady u).moves final.locked (moves u) fun _ _ _ revoked => revoked
  entry allowed final _ := by
    obtain ⟨route, named, rfl⟩ := allowed
    exact (safe_route_final named).bind final fun reply w₁ _ _ =>
      safe_op_final (fun _ _ => nofun) fun _ _ _ _ _ _ => fun _ _ _ => trivial
  drop {t w} final := by
    refine ⟨final.moved (final.locked.close t) (fun u => ?_) (fun _ revoked => revoked) rfl, fun _ _ _ => trivial,
      fun _ _ => Extends.refl w⟩
    by_cases same : u = t
    · rw [same]
      exact Schema.Cells.Pending.closed (fun _ _ revoked => revoked) Schema.session_close
    · exact (final.steady u).moves final.locked (Schema.moves_close (P := fun _ => True) same) fun _ _ _ revoked => revoked

theorem agents_initial (w : AgentWorld) (start : AgentStart w) :
    Final w ∧ ∀ (_ : Nat) w₁, Extends w w₁ → Final w₁ → True := by
  obtain ⟨db, rfl⟩ := start
  refine ⟨⟨Schema.locked_start db, fun u => Schema.Cells.Pending.closed (fun _ _ revoked => revoked) rfl,
    fun _ => nofun, fun split => ?_, fun split => ?_⟩, fun _ _ _ _ => trivial⟩
  · exact absurd split.symm (List.append_ne_nil_of_right_ne_nil _ (List.cons_ne_nil _ _))
  · exact absurd split.symm (List.append_ne_nil_of_right_ne_nil _ (List.cons_ne_nil _ _))

/-- Along every run: after a token is revoked it authenticates no request, and every successor
that it gets comes from a request that had authenticated before. -/
theorem revocation_final {c : Threads.Config AgentOp.Res AgentWorld} (reach : (agents fns).Reach AgentStart c) (T : Nat)
    (later earlier : List AgentEvent) (split : c.world.history = later ++ .revoked T :: earlier) :
    (∀ t now, .authenticated t T now ∉ later) ∧
    ∀ t S now, .rotated t T S now ∈ later → ∃ at_, .authenticated t T at_ ∈ earlier := by
  have final : Final c.world := reach.inv (agents_final fns) agents_initial
  refine ⟨final.final split, fun t S now member => ?_⟩
  obtain ⟨newer, older, same⟩ := List.append_of_mem member
  have whole : c.world.history = newer ++ .rotated t T S now :: (older ++ .revoked T :: earlier) := by
    rw [split, same, List.append_assoc, List.cons_append]
  obtain ⟨at_, source⟩ := final.sourced whole
  refine ⟨at_, ?_⟩
  rcases List.mem_append.mp source with recent | old
  · refine absurd ?_ (final.final split t at_)
    rw [same]
    exact List.mem_append_right newer (List.mem_cons_of_mem _ recent)
  · rcases List.mem_cons.mp old with never | old
    · cases never
    · exact old

/-- The database after a rotation of `T` that has nothing beside it. -/
def AgentDb.rotate (db : AgentDb) (T S : Nat) (row new : AgentToken) : AgentDb :=
  { db with tokens := (db.tokens.put S (some new)).put T (some (row.replace (db.clock + GRACE_MS) S)) }

/-- The successor that `rotate` inserts. -/
def AgentToken.successor (row : AgentToken) (hash : Text) : AgentToken :=
  .rotated row.deviceId hash (((row.label.filter (· ≠ [])).getD "agent".toList) ++ " (rotated)".toList)

variable {cond : Nat → (o : AgentOp) → AgentWorld → o.Res → AgentWorld → Prop} {runs : Nat → Agent Unit}
variable {db : AgentDb} {T S : Nat} {row : AgentToken} {plain fresh : Text}

/-- Nobody but `t` has a transaction. -/
structure Solo (st : AgentStore) (t : Nat) : Prop where
  session : ∀ u, u ≠ t → st.session u = none
  owner : ∀ k, st.owner k = none ∨ st.owner k = some t

theorem Solo.write {st : AgentStore} (solo : Solo st t) (changes : List AgentChange) (ks : List AgentLock) :
    Solo (st.write t changes ks) t := by
  refine ⟨fun u other => (Function.update_of_ne other _ _).trans (solo.session u other), fun k => ?_⟩
  by_cases inside : k ∈ ks
  · exact .inr (if_pos inside)
  · exact (solo.owner k).imp (if_neg inside).trans (if_neg inside).trans

theorem Solo.close {st : AgentStore} (solo : Solo st t) (changes : List AgentChange) :
    (agentSchema.publish changes st).close t = .start (agentSchema.applyAll changes st.committed) := by
  have session : Function.update st.session t none = fun _ => none := by
    funext u
    by_cases same : u = t
    · rw [same, Function.update_self]
    · rw [Function.update_of_ne same, solo.session u same]
  have owner : (fun k => if st.owner k = some t then none else st.owner k) = fun _ => none := by
    funext k
    split
    case isTrue => rfl
    case isFalse other => exact (solo.owner k).resolve_right other
  exact congrArg₂ (Store.mk _) session owner

/-- The request `t` has come to a program, the others to what they had left to run. -/
def Alone (fns : AgentFns) (cond : Nat → (o : AgentOp) → AgentWorld → o.Res → AgentWorld → Prop) (t : Nat)
    (others : Nat → Agent Unit) (program : Agent Unit) (st : AgentStore) (history : List AgentEvent) : Prop :=
  ∃ w runs, ((agents fns).restrict cond).Reach AgentStart ⟨w, runs⟩ ∧ runs t = program ∧
    (∀ u, u ≠ t → runs u = others u) ∧ w.store = st ∧ w.history = history

namespace Alone

variable {others : Nat → Agent Unit} {st : AgentStore} {history : List AgentEvent} {rest : o.Res → Agent Unit}

theorem step (alone : Alone fns cond t others (.op o rest) st history) (answer : o.Res) {st₁ : AgentStore}
    {history₁ : List AgentEvent} (run : ∀ w, w.store = st → w.history = history → ∃ w₁, agentExec t o w answer w₁ ∧
      cond t o w answer w₁ ∧ w₁.store = st₁ ∧ w₁.history = history₁) :
    Alone fns cond t others (rest answer) st₁ history₁ := by
  obtain ⟨w, runs, reach, here, same, store, noted⟩ := alone
  obtain ⟨w₁, ran, meets, store₁, noted₁⟩ := run w store noted
  refine ⟨w₁, _, reach.perform t here answer w₁ ⟨ran, meets⟩, Function.update_self .., fun u other => ?_, store₁, noted₁⟩
  rw [Function.update_of_ne other]
  exact same u other

theorem first (route : Agent AgentReply) (allowed : Route fns route) (db : AgentDb) :
    Alone fns cond t (fun _ => .ret ()) (request route) (.start db) [] := by
  refine ⟨_, _, .begins (.init ⟨db, rfl⟩) t (request route) rfl ⟨route, allowed, rfl⟩, Function.update_self .., ?_, rfl, rfl⟩
  exact fun u other => Function.update_of_ne other ..

/-- Another request comes. -/
theorem next {program : Agent Unit} (alone : Alone fns cond t others program st history) (route : Agent AgentReply)
    (allowed : Route fns route) (other : u ≠ t) (idle : others u = .ret ()) :
    Alone fns cond u (Function.update others t program) (request route) st history := by
  obtain ⟨w, runs, reach, here, same, store, noted⟩ := alone
  have idle := (same u other).trans idle
  refine ⟨w, _, reach.begins u (request route) idle ⟨route, allowed, rfl⟩, Function.update_self .., fun v apart => ?_,
    store, noted⟩
  rw [Function.update_of_ne apart]
  by_cases mine : v = t
  · rw [mine, here, Function.update_self]
  · rw [same v mine, Function.update_of_ne mine]

theorem pass {program : Agent Unit} (alone : Alone fns cond t others program (.start db) history) (now : Int)
    (later : db.clock ≤ now) : Alone fns cond t others program (.start { db with clock := now }) history := by
  obtain ⟨w, runs, reach, here, same, store, noted⟩ := alone
  refine ⟨_, runs, reach.step (.env ⟨.clock now, .clock ?_, fun k _ => ?_, rfl⟩), here, same, ?_, noted⟩
  · rw [store]
    exact later
  · rw [store]
    rfl
  · rw [store]
    rfl

/-- The query of `authToken` finds a token. -/
theorem login {next : Option (Option TokenRow) → Agent Unit} {hash : Text}
    (alone : Alone fns cond t others (.op (.sql (.query (.authToken hash))) next) (.start db) history)
    (row : AgentToken) (found : (db.tokens.select fun _ r => r.tokenHash = hash && r.accepted db).head? = some (T, row))
    (meets : ∀ w answer w₁, cond t (.sql (.query (.authToken hash))) w answer w₁) :
    Alone fns cond t others (next (some (some (T, row)))) (.start db) (.authenticated t T db.clock :: history) := by
  refine alone.step (some (some (T, row))) fun w store noted => ⟨_, ⟨w.store, ?_, rfl⟩, meets _ _ _, store, ?_⟩
  · rw [store]
    exact .inl ⟨⟨0, 0⟩, ⟨_, [], []⟩, rfl, fun _ => nofun, congrArg some found.symm, rfl⟩
  · simp [AgentWorld.note, store, noted, Store.start]

/-- The UPDATE of an admin revokes a token. -/
theorem revoked {next : Option (Option (Nat × Option Text)) → Agent Unit} {label : Option Text} {new : AgentToken}
    (alone : Alone fns cond t others (.op (.sql (.query (.revokeToken T))) next) (.start db) history)
    (ran : AgentStmt.run (.revokeToken T) ⟨0, 0⟩ db = some ⟨some (T, label), [.token T new], []⟩)
    (meets : ∀ w answer w₁, cond t (.sql (.query (.revokeToken T))) w answer w₁) :
    Alone fns cond t others (next (some (some (T, label)))) (.start { db with tokens := db.tokens.put T (some new) })
      (.revoked T :: history) := by
  refine alone.step (some (some (T, label))) fun w store noted => ⟨_, ⟨_, ?_, rfl⟩, meets _ _ _, rfl, congrArg _ noted⟩
  rw [store]
  exact .inl ⟨⟨0, 0⟩, ⟨_, [.token T new], []⟩, ran, List.forall_mem_singleton.mpr (.inl rfl), rfl, rfl⟩

theorem opened {next : Bool → Agent Unit} (alone : Alone fns cond t others (.op (.sql .begin) next) (.start db) history)
    (meets : ∀ w answer w₁, cond t (.sql .begin) w answer w₁) :
    Alone fns cond t others (next true) ((Store.start db).openTx t) history := by
  refine alone.step true fun w store noted => ⟨_, ⟨_, .inl ⟨rfl, rfl⟩, rfl⟩, meets _ _ _, ?_, noted⟩
  rw [move_store, store]

theorem within {s : AgentStmt} {next : Option s.Ans → Agent Unit} {changes : List AgentChange}
    {out : AgentOutcome s.Ans} (alone : Alone fns cond t others (.op (.sql (.within s)) next) st history) (draw : AgentDraw)
    (opened : st.session t = some ⟨changes, false⟩) (ran : s.run draw (agentSchema.view st t) = some out)
    (free : st.Free (some t) (agentSchema.needs out))
    (meets : ∀ w answer w₁, w.store = st → cond t (.sql (.within s)) w answer w₁) :
    Alone fns cond t others (next (some out.answer)) (st.write t out.changes (agentSchema.needs out)) history := by
  refine alone.step (some out.answer) fun w store noted => ?_
  subst store
  refine ⟨_, ⟨_, (Schema.exec_within opened).mpr (.inl ⟨draw, out, ran, free, rfl, rfl⟩), rfl⟩, meets _ _ _ rfl, rfl, ?_⟩
  cases s <;> exact noted

theorem rotated {next : Bool → Agent Unit} {changes : List AgentChange}
    (alone : Alone fns cond t others (.op (.commit (.rotation T S)) next) st history)
    (opened : st.session t = some ⟨changes, false⟩) (meets : ∀ w answer w₁, cond t (.commit (.rotation T S)) w answer w₁) :
    Alone fns cond t others (next true) ((agentSchema.publish changes st).close t)
      (.rotated t T S st.committed.clock :: history) := by
  refine alone.step true fun w store noted => ?_
  subst store
  exact ⟨_, .inl ⟨changes, opened, rfl⟩, meets _ _ _, rfl, congrArg _ noted⟩

end Alone

theorem replaced_key {expiresAt : Int} {draw : AgentDraw} (stored : db.tokens[T]? = some row) :
    AgentStmt.run (.replaceToken expiresAt S T) draw db = some ⟨(), [.token T (row.replace expiresAt S)], []⟩ := by
  simp only [AgentStmt.run, answering, updateTokens, Table.update_key, stored]
  rfl

/-- A rotation that nothing disturbs. -/
theorem rotation_alone {others : Nat → Agent Unit} {history : List AgentEvent}
    (alone : Alone fns cond t others (request (rotateToken fns (some plain))) (.start db) history) (T S : Nat)
    (row : AgentToken) (fresh : Text)
    (found : (db.tokens.select fun _ r => r.tokenHash = fns.hashToken plain && r.accepted db).head? = some (T, row))
    (room : (db.tokens.contains S || db.tokens.toList.any fun (_, other) => other.tokenHash = fns.hashToken fresh) = false)
    (meets : ∀ o w answer w₁, (∀ expiresAt S T, o ≠ .sql (.within (.replaceToken expiresAt S T))) → cond t o w answer w₁)
    (once : ∀ expiresAt w answer w₁, (agentSchema.view w.store t).tokens[T]? = some row →
      cond t (.sql (.within (.replaceToken expiresAt S T))) w answer w₁) :
    ∃ program, Alone fns cond t others program (.start (db.rotate T S row (row.successor (fns.hashToken fresh))))
      (.rotated t T S db.clock :: .authenticated t T db.clock :: history) := by
  have stored : db.tokens[T]? = some row := (Table.mem_select.mp (List.mem_of_mem_head? found)).1
  have apart : T ≠ S := by
    rintro rfl
    have member := Std.ExtTreeMap.mem_iff_isSome_getElem?.mpr (Option.isSome_of_eq_some stored)
    rw [Std.ExtTreeMap.mem_iff_contains.mp member] at room
    cases room
  have inserted : insertTokenRow db ⟨db.clock, S⟩ (row.successor (fns.hashToken fresh)) =
      some ⟨S, [.token S (row.successor (fns.hashToken fresh))], [.tokenHash (fns.hashToken fresh)]⟩ :=
    if_neg (Bool.eq_false_iff.mp room)
  let new := row.successor (fns.hashToken fresh)
  have plain_ : ∀ o w answer w₁, (∀ s, o ≠ .sql (.within s)) → cond t o w answer w₁ :=
    fun o w answer w₁ other => meets o w answer w₁ fun _ _ _ => other _
  have a := alone.login row found fun w answer w₁ => plain_ _ w answer w₁ fun _ => nofun
  have a := a.step fresh fun w store noted => ⟨w, rfl, plain_ _ _ _ _ fun _ => nofun, store, noted⟩
  have a := a.step db.clock fun w store noted => ⟨w, ⟨by rw [store]; rfl, rfl⟩, plain_ _ _ _ _ fun _ => nofun, store, noted⟩
  have a := a.opened fun w answer w₁ => plain_ _ w answer w₁ fun _ => nofun
  let st₁ : AgentStore := (Store.start db).openTx t
  have open₁ : st₁.session t = some ⟨[], false⟩ := Schema.session_openTx rfl
  have a := a.within ⟨db.clock, S⟩ open₁ ((congrArg (AgentStmt.run _ _) (Schema.view_of_session open₁)).trans inserted)
    (fun _ _ => .inl rfl) fun w answer w₁ _ => meets _ w answer w₁ fun _ _ _ => nofun
  let st₂ : AgentStore := st₁.write t [.token S new] [.tokenHash (fns.hashToken fresh), .token S]
  have open₂ : st₂.session t = some ⟨[.token S new], false⟩ := Schema.session_write open₁
  have here : (agentSchema.view st₂ t).tokens[T]? = some row := by
    rw [Schema.view_of_session open₂]
    exact (Table.getElem?_put_of_ne _ apart _).trans stored
  have free : st₂.Free (some t) [.token T] := List.forall_mem_singleton.mpr (.inl (if_neg (by simp [apart])))
  have a := a.within ⟨0, 0⟩ open₂ (replaced_key here) free fun w answer w₁ store => once _ w answer w₁ (by rw [store]; exact here)
  have a := a.rotated (Schema.session_write open₂) fun w answer w₁ => plain_ _ w answer w₁ fun _ => nofun
  have solo : Solo st₁ t := ⟨fun u other => Function.update_of_ne other _ _, fun _ => .inl rfl⟩
  rw [((solo.write _ _).write _ _).close] at a
  exact ⟨_, a⟩

/-! A token that is not bound to a device, and the tokens that rotations make of it. -/

def demoPlain (digit : Char) : Text := List.replicate 64 digit

/-- SHA-256 of the three tokens, and the text functions on texts that they leave alone. -/
def demoFns : AgentFns where
  text := ⟨(·), (·), (·), (·), (·), (·), fun _ => rfl, fun _ => rfl, fun _ same => same⟩
  hashToken text :=
    if text = demoPlain '1' then "3138bb9bc78df27c473ecfd1410f7bd45ebac1f59cf3ff9cfe4db77aab7aedd3".toList
    else if text = demoPlain '2' then "4f2e8d65483c641648cdb374ae9d8abd368d269e4ddffe092a8237b8162cddd6".toList
    else "79bd7d7fd684b399857c582b1b7172ddf277d4fe1b027ec52b28da3ae381e675".toList
  isoDay _ := "2026-01-01".toList

def demoToken : AgentToken := .created "kiosk".toList (demoFns.hashToken (demoPlain '1')) "admin".toList

def demoDb : AgentDb := ⟨(∅ : Table _).insert 1 demoToken, ∅, 1000⟩

def demoBefore : List AgentEvent := [.rotated 0 1 2 1000, .authenticated 0 1 1000]

def demoAfter : List AgentEvent := [.rotated 2 2 3 1000, .authenticated 2 2 1000]

def demoSuccessor : AgentToken := .rotated none (demoFns.hashToken (demoPlain '2')) "kiosk (rotated)".toList

theorem demoPlain_inj {a b : Char} (same : demoPlain a = demoPlain b) : a = b := Option.some.inj (congrArg List.head? same)

theorem demo_hashes : demoFns.hashToken (demoPlain '1') ≠ demoFns.hashToken (demoPlain '2') ∧
    demoFns.hashToken (demoPlain '1') ≠ demoFns.hashToken (demoPlain '3') ∧
    demoFns.hashToken (demoPlain '2') ≠ demoFns.hashToken (demoPlain '3') := by
  have other {a b : Char} (apart : a ≠ b) : demoPlain a ≠ demoPlain b := fun same => apart (demoPlain_inj same)
  have texts {s t : String} (apart : s ≠ t) : s.toList ≠ t.toList := fun same => apart (String.toList_injective same)
  simp only [demoFns, if_true, if_neg (other (show '2' ≠ '1' by decide)), if_neg (other (show '3' ≠ '1' by decide)),
    if_neg (other (show '3' ≠ '2' by decide))]
  exact ⟨texts (by decide), texts (by decide), texts (by decide)⟩

theorem demo_own : demoToken.tokenHash = demoFns.hashToken (demoPlain '1') := by
  rw [demoToken, AgentToken.created]

theorem demo_tokens : demoDb.tokens.toList = [(1, demoToken)] := rfl

theorem demo_found : (demoDb.tokens.select fun _ r => r.tokenHash = demoFns.hashToken (demoPlain '1') && r.accepted demoDb).head? =
    some (1, demoToken) := by
  have accepted : demoToken.accepted demoDb = true := rfl
  simp [Table.select, demo_tokens, demo_own, accepted]

theorem demo_room : (demoDb.tokens.contains 2 ||
    demoDb.tokens.toList.any fun (_, other) => other.tokenHash = demoFns.hashToken (demoPlain '2')) = false := by
  have absent : demoDb.tokens.contains 2 = false := rfl
  simp [absent, demo_tokens, demo_own, demo_hashes.1]

/-- The token is rotated, an admin revokes it, and its successor is rotated. -/
theorem demo_revoked : ∃ c : Threads.Config AgentOp.Res AgentWorld,
    (agents demoFns).Reach AgentStart c ∧ c.world.history = demoAfter ++ .revoked 1 :: demoBefore := by
  obtain ⟨apart₂, apart₃, apart₄⟩ := demo_hashes
  have a : Alone demoFns (fun _ _ _ _ _ => True) 0 _ _ _ _ := .first (rotateToken demoFns (some (demoPlain '1'))) .rotate demoDb
  obtain ⟨program, a⟩ := rotation_alone a 1 2 demoToken (demoPlain '2') demo_found demo_room
    (fun _ _ _ _ _ => trivial) fun _ _ _ _ _ => trivial
  let old : AgentToken := demoToken.replace (1000 + GRACE_MS) 2
  have a := a.next (u := 1) (revokeToken 1 "admin".toList) .revoke (by decide) rfl
  let db : AgentDb := { demoDb with tokens := ((demoDb.tokens.put 2 (some demoSuccessor)).put 1 (some old)).put 1 (some (old.revoke 1000)) }
  have a : Alone demoFns _ 1 _ _ (.start db) _ := a.revoked rfl fun _ _ _ => trivial
  have a := a.next (u := 2) (rotateToken demoFns (some (demoPlain '2'))) .rotate (by decide) rfl
  have tokens : db.tokens.toList = [(1, old.revoke 1000), (2, demoSuccessor)] := rfl
  have own₁ : (old.revoke 1000).tokenHash = demoFns.hashToken (demoPlain '1') := demo_own
  have own₂ : demoSuccessor.tokenHash = demoFns.hashToken (demoPlain '2') := by rw [demoSuccessor, AgentToken.rotated]
  have accepted : demoSuccessor.accepted db = true := rfl
  obtain ⟨program₁, a⟩ := rotation_alone a 2 3 demoSuccessor (demoPlain '3')
    (by simp [Table.select, tokens, own₁, own₂, accepted, apart₂])
    (by
      have absent : db.tokens.contains 3 = false := rfl
      simp [absent, tokens, own₁, own₂, apart₃, apart₄])
    (fun _ _ _ _ _ => trivial) fun _ _ _ _ _ => trivial
  obtain ⟨w, runs, r, -, -, -, noted⟩ := a
  exact ⟨_, r.of_restrict, noted⟩

/-- A token made by rotating `T`, or by rotating such a token. -/
inductive Descends (history : List AgentEvent) (T : Nat) : Nat → Prop
  | child {t S now} : .rotated t T S now ∈ history → Descends history T S
  | later {t S S' now} : Descends history T S → .rotated t S S' now ∈ history → Descends history T S'

/-- The successor of a revoked token goes on rotating. -/
theorem descendants_rotate : ¬∀ c : Threads.Config AgentOp.Res AgentWorld, (agents demoFns).Reach AgentStart c →
    ∀ T later earlier, c.world.history = later ++ .revoked T :: earlier →
      (∀ t now, .authenticated t T now ∉ later) ∧
      ∀ t S S' now, .rotated t S S' now ∈ later → ¬Descends c.world.history T S' := by
  intro final
  obtain ⟨c, reach, split⟩ := demo_revoked
  have second : .rotated 2 2 3 1000 ∈ c.world.history := by
    rw [split]
    exact List.mem_cons_self
  have first : .rotated 0 1 2 1000 ∈ c.world.history := by
    rw [split]
    exact List.mem_append_right demoAfter (List.mem_cons_of_mem _ List.mem_cons_self)
  exact (final c reach 1 demoAfter demoBefore split).2 2 2 3 1000 List.mem_cons_self (.later (.child first) second)

theorem revocation_final_rotated : (∀ t now, .authenticated t 1 now ∉ demoAfter) ∧
    ∀ t S now, .rotated t 1 S now ∈ demoAfter → ∃ at_, .authenticated t 1 at_ ∈ demoBefore := by
  obtain ⟨c, reach, split⟩ := demo_revoked
  exact revocation_final reach 1 demoAfter demoBefore split

end Opale.Agents
