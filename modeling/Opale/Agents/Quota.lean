import Opale.Agents.Accounts
import Opale.Agents.Revocation

namespace Opale.Agents

open Sql
open Linux (Text ClaimRefusal)

variable {fns : AgentFns} {t u B S : Nat} {w w₁ w₂ : AgentWorld} {o : AgentOp} {answer : o.Res}
variable {R : Nat → Option AgentToken → Option AgentToken → Prop}

/-- What an exchange may have committed when it answers: nothing, or the token that it answers,
or one although it failed, when the answer of the COMMIT has been lost. -/
def Settled (reply : AgentReply) : Option Redemption → Prop
  | none => True
  | some ⟨_, _, true⟩ => ∃ token deviceId hostname, reply = .exchanged token deviceId hostname
  | some ⟨_, _, false⟩ => reply = INTERNAL_ERROR

/-- The accounts are right, and so is every reply. -/
structure Sound (w : AgentWorld) : Prop where
  locked : agentSchema.Locked w.store
  accounts : Accounts w.store.committed
  settled : ∀ t reply spent, .replied t reply spent ∈ w.history → Settled reply spent

/-- What a request `t` accepts of the others. -/
structure Aside (t : Nat) (w w₁ : AgentWorld) : Prop where
  moves : agentSchema.Moves (fun _ => True) t w.store w₁.store
  spent : w₁.spent t = w.spent t

theorem Aside.refl (t : Nat) (w : AgentWorld) : Aside t w w := ⟨.refl _ t _, rfl⟩

theorem Aside.trans (first : Aside t w w₁) (second : Aside t w₁ w₂) : Aside t w w₂ :=
  ⟨first.moves.trans second.moves, second.spent.trans first.spent⟩

/-- The tokens and redemptions of every code stay, or a COMMIT of an exchange is carried out. -/
def Accounted (t : Nat) (o : AgentOp) (w w₁ : AgentWorld) : Prop :=
  (∀ B, Unspent B w.store.committed w₁.store.committed) ∨
    ∃ B S ok, o = .commit (.exchange B S) ∧ w.spent t = none ∧ w₁.spent t = some ⟨B, S, ok⟩ ∧
      Spends B S w.store.committed w₁.store.committed

def quotaTeam : Threads.Team AgentOp.Res AgentWorld where
  exec := agentExec
  inv := Sound
  rely := Aside
  guarantee t o w _ w₁ := Accounted t o w w₁
  idle t w := w.store.session t = none ∧ w.spent t = none
  rely_refl := Aside.refl
  rely_trans _ _ _ _ := Aside.trans

/-- An operation but for a COMMIT of an exchange and a reply notes nothing of the redemptions. -/
theorem exec_spent (run : agentExec t o w answer w₁) : (∀ u, u ≠ t → w₁.spent u = w.spent u) ∧
    ((∀ B S, o ≠ .commit (.exchange B S)) → (∀ reply, o ≠ .send reply) → w₁.spent t = w.spent t) := by
  cases o with
  | sql so =>
    obtain ⟨store, ran, rfl⟩ := run
    have same : (w.note t so answer).spent = w.spent := by
      cases so with
      | query s | within s => cases s <;> rfl
      | begin | commit | rollback => rfl
    exact ⟨fun u _ => congrFun same u, fun _ _ => congrFun same t⟩
  | commit work =>
    obtain ⟨changes, -, rfl⟩ | ⟨-, rfl⟩ := run
    · cases work with
      | exchange B S => exact ⟨fun u other => Function.update_of_ne other .., fun never => absurd rfl (never B S)⟩
      | rotation | claim | inventory => exact ⟨fun _ _ => rfl, fun _ _ => rfl⟩
    · exact ⟨fun _ _ => rfl, fun _ _ => rfl⟩
  | dateNow =>
    cases run.2
    exact ⟨fun _ _ => rfl, fun _ _ => rfl⟩
  | randomToken | evictTokens _ | logAudit _ =>
    cases run
    exact ⟨fun _ _ => rfl, fun _ _ => rfl⟩
  | send reply =>
    cases run
    exact ⟨fun u other => Function.update_of_ne other .., fun _ never => absurd rfl (never reply)⟩

theorem exec_aside (run : agentExec t o w answer w₁) (sound : Sound w) (u : Nat) (other : u ≠ t) : Aside u w w₁ :=
  ⟨(exec_others run sound.locked).2 u other, (exec_spent run).1 u other⟩

/-- An operation that keeps the accounts, and sends nothing. -/
theorem Sound.exec (sound : Sound w) (run : agentExec t o w answer w₁) (silent : ∀ reply, o ≠ .send reply)
    (accounts : Accounts w₁.store.committed) : Sound w₁ := by
  refine ⟨(exec_others run sound.locked).1, accounts, fun t' reply spent member => ?_⟩
  obtain same | ⟨e, more, noted⟩ := exec_history run
  · rw [same] at member
    exact sound.settled t' reply spent member
  · rw [more] at member
    rcases List.mem_cons.mp member with rfl | before
    · cases noted with
      | replied sends => exact absurd sends (silent _)
    · exact sound.settled t' reply spent before

variable {α : Type} {post : α → AgentWorld → Prop}

/-- A request that is not over, and has not redeemed a code. -/
structure Quiet (t : Nat) (opened : Bool) (w : AgentWorld) : Prop where
  locked : agentSchema.Locked w.store
  pending : tokenCells.Pending (fun _ => Kept) t w.store
  closed : opened = false → w.store.session t = none
  unspent : w.spent t = none

theorem Quiet.aside {opened : Bool} (quiet : Quiet t opened w) (aside : Aside t w w₁) (sound : Sound w₁) :
    Quiet t opened w₁ where
  locked := sound.locked
  pending := quiet.pending.moves quiet.locked aside.moves fun _ _ => Kept.refl
  closed ended := aside.moves.session.trans (quiet.closed ended)
  unspent := aside.spent.trans quiet.unspent

/-- An operation of the other kinds. -/
theorem Quiet.exec {opened : Bool} (quiet : Quiet t opened w) (sound : Sound w) (run : agentExec t o w answer w₁)
    (other : o.kind ≠ some .exchanges) (silent : ∀ reply, o ≠ .send reply) :
    Sound w₁ ∧ (∀ B, Unspent B w.store.committed w₁.store.committed) ∧ Quiet t (opens opened o) w₁ := by
  obtain ⟨pending, kept⟩ := exec_pending run sound.locked Kept.refl Kept.trans (fun s asked id a b step => by
    refine step.kept ?_
    rcases asked with rfl | rfl <;> exact other) quiet.pending
  have sound₁ := sound.exec run silent (sound.accounts.kept kept)
  refine ⟨sound₁, unspent_of_kept kept, sound₁.locked, pending, exec_opens run quiet.closed, ?_⟩
  refine ((exec_spent run).2 ?_ silent).trans quiet.unspent
  rintro B S rfl
  exact other rfl

/-- A request that is over: its transaction is closed, and the reply is right. -/
def Over (t : Nat) (reply : AgentReply) (w : AgentWorld) : Prop :=
  w.store.session t = none ∧ Settled reply (w.spent t)

theorem safe_orderly_sound {kind : Kind} {program : Agent α} (orderly : Orderly kind false false program)
    (other : kind ≠ .exchanges) (silent : kind ≠ .replies) (quiet : Quiet t false w) :
    (quotaTeam.rules t).Safe (fun _ => Quiet t false) program w := by
  refine Rules.Safe.of_follows (Quiet t) (fun quiet aside sound => quiet.aside aside sound) ?_ orderly quiet
  intro opened o w answer w₁ allowed quiet sound run
  have kinds : ∀ k, kind ≠ k → o.kind ≠ some k := by
    intro k apart same
    rcases allowed with none_ | some_
    · cases none_.symm.trans same
    · exact apart (Option.some.inj (some_.symm.trans same))
  have run : agentExec t o w answer w₁ := run
  obtain ⟨sound₁, unspent, quiet₁⟩ := quiet.exec sound run (kinds _ other) fun reply named =>
    kinds _ silent (congrArg AgentOp.kind named)
  exact ⟨sound₁, ⟨exec_aside run sound, .inl unspent⟩, quiet₁⟩

/-- A request that has redeemed nothing is over. -/
theorem safe_over {reply : AgentReply} (idle : w.store.session t = none) (settled : Settled reply (w.spent t)) :
    (quotaTeam.rules t).Safe (Over t) (.ret reply) w := by
  intro w₁ aside _
  rw [Over, aside.moves.session, aside.spent]
  exact ⟨idle, settled⟩

/-- An operation of the other kinds, in front of a program. -/
theorem safe_op_quiet {opened : Bool} {next : o.Res → Agent α} (quiet : Quiet t opened w)
    (other : o.kind ≠ some .exchanges) (silent : ∀ reply, o ≠ .send reply)
    (resume : ∀ answer w₁ w₂, Aside t w w₁ → Sound w₁ → agentExec t o w₁ answer w₂ → Sound w₂ →
      Quiet t (opens opened o) w₂ → (quotaTeam.rules t).Safe post (next answer) w₂) :
    (quotaTeam.rules t).Safe post (perform o >>= next) w := by
  intro w₁ aside sound answer w₂ run
  have run : agentExec t o w₁ answer w₂ := run
  obtain ⟨sound₂, unspent, quiet₂⟩ := (quiet.aside aside sound).exec sound run other silent
  exact ⟨sound₂, ⟨exec_aside run sound, .inl unspent⟩, resume answer w₁ w₂ aside sound run sound₂ quiet₂⟩

/-- The transaction of an exchange, once it has read its code: the code is locked, and has room
for one more redemption. -/
structure Exchanging (t B : Nat) (R : Nat → Option AgentToken → Option AgentToken → Prop) (w : AgentWorld) : Prop where
  locked : agentSchema.Locked w.store
  mine : w.store.owner (.token B) = some t
  room : ∃ row, w.store.committed.tokens[B]? = some row ∧
    ∀ most, row.bootstrapMaxRedeems = some most → row.bootstrapRedeemedCount < most
  pending : tokenCells.Pending R t w.store
  unspent : w.spent t = none

theorem Exchanging.aside (exchanging : Exchanging t B R w) (aside : Aside t w w₁) (sound : Sound w₁)
    (refl : ∀ id, w.store.owner (.token id) ≠ some t → ∀ a, R id a a) : Exchanging t B R w₁ where
  locked := sound.locked
  mine := aside.moves.owner _ exchanging.mine
  room := by
    have same : tokenCells.part B w₁.store.committed = tokenCells.part B w.store.committed :=
      (Schema.Cells.locked_of_moves aside.moves exchanging.locked exchanging.mine).1
    obtain ⟨row, stored, free⟩ := exchanging.room
    exact ⟨row, same.trans stored, free⟩
  pending := exchanging.pending.moves exchanging.locked aside.moves refl
  unspent := aside.spent.trans exchanging.unspent

/-- The code that a new transaction reads FOR UPDATE. -/
theorem bootstrap_step {hash : Text} {label : Option Text}
    (run : agentExec t (.sql (.within (.bootstrapForUpdate hash))) w (some (some (B, label))) w₁)
    (fresh : w.store.session t = some ⟨[], false⟩) (quiet : Quiet t true w₁) : Exchanging t B (fun _ => Kept) w₁ := by
  obtain ⟨draw, out, within⟩ := exec_within run
  have view : agentSchema.view w.store t = w.store.committed := Schema.view_of_session fresh
  have ran := within.ran
  rw [view] at ran
  cases ran
  cases found : (w.store.committed.tokens.select fun _ row => row.tokenHash = hash && row.isBootstrap &&
      row.revokedAt = none && row.unexpired draw.now &&
      (row.bootstrapMaxRedeems.all fun most => row.bootstrapRedeemedCount < most)).head? with
  | none =>
    have answered := within.answered
    rw [found] at answered
    cases answered
  | some e =>
    have answered := within.answered
    rw [found] at answered
    cases answered
    obtain ⟨stored, satisfied⟩ := Table.mem_select.mp (List.mem_of_mem_head? found)
    simp only [Bool.and_eq_true] at satisfied
    have owner := within.owner (.token e.1) (by simp [Schema.needs, found])
    refine ⟨quiet.locked, owner, ⟨e.2, ?_, fun most limit => ?_⟩, quiet.pending, quiet.unspent⟩
    · rw [within.committed]
      exact stored
    · have free := satisfied.2
      rw [limit] at free
      exact of_decide_eq_true free

/-- Operations that publish nothing and end no transaction. -/
def Stays : AgentOp → Prop
  | .sql (.within _) | .dateNow | .randomToken => True
  | _ => False

theorem exec_stays (run : agentExec t o w answer w₁) (stays : Stays o) :
    (∀ k, w.store.owner k = some t → w₁.store.owner k = some t) ∧ w₁.store.committed = w.store.committed ∧
      w₁.spent t = w.spent t := by
  refine ⟨fun k mine => ?_, ?_, (exec_spent run).2 ?_ ?_⟩
  · cases o with
    | dateNow =>
      cases run.2
      exact mine
    | randomToken =>
      cases run
      exact mine
    | evictTokens | logAudit | send | commit => exact stays.elim
    | sql so =>
      cases so with
      | query | begin | commit | rollback => exact stays.elim
      | within s => exact owner_within run mine
  · refine exec_committed run (fun s named => ?_) (fun named => ?_) fun work named => ?_ <;> rw [named] at stays <;> exact stays
  · intro B S named
    rw [named] at stays
    exact stays
  · intro reply named
    rw [named] at stays
    exact stays

theorem Sound.stays (sound : Sound w) (run : agentExec t o w answer w₁) (stays : Stays o) :
    Sound w₁ ∧ Accounted t o w w₁ := by
  obtain ⟨-, same, -⟩ := exec_stays run stays
  refine ⟨sound.exec run (fun reply named => ?_) ?_, .inl fun B => ?_⟩
  · rw [named] at stays
    exact stays
  · rw [same]
    exact sound.accounts
  · rw [same]
    exact ⟨.refl _, rfl⟩

theorem Exchanging.exec (exchanging : Exchanging t B (fun _ => Kept) w) (sound : Sound w) (run : agentExec t o w answer w₁)
    (stays : Stays o) (other : o.kind ≠ some .exchanges) : Exchanging t B (fun _ => Kept) w₁ := by
  obtain ⟨mine, committed, spent⟩ := exec_stays run stays
  obtain ⟨pending, -⟩ := exec_pending run sound.locked Kept.refl Kept.trans (fun s asked id a b step => by
    refine step.kept ?_
    rcases asked with rfl | rfl <;> exact other) exchanging.pending
  refine ⟨(exec_others run sound.locked).1, mine _ exchanging.mine, ?_, pending, spent.trans exchanging.unspent⟩
  rw [committed]
  exact exchanging.room

/-- An operation of an exchange before the token is issued, in front of a program. -/
theorem safe_op_exchanging {next : o.Res → Agent α} (exchanging : Exchanging t B (fun _ => Kept) w) (stays : Stays o)
    (other : o.kind ≠ some .exchanges)
    (resume : ∀ answer w₁, Exchanging t B (fun _ => Kept) w₁ → (quotaTeam.rules t).Safe post (next answer) w₁) :
    (quotaTeam.rules t).Safe post (perform o >>= next) w := by
  intro w₁ aside sound answer w₂ run
  have run : agentExec t o w₁ answer w₂ := run
  have exchanging := (exchanging.aside aside sound fun _ _ => Kept.refl).exec sound run stays other
  obtain ⟨sound₂, accounted⟩ := sound.stays run stays
  exact ⟨sound₂, ⟨exec_aside run sound, accounted⟩, resume answer w₂ exchanging⟩

/-- A rollback, at any point of a transaction. -/
theorem safe_rollback {next : Unit → Agent α}
    (resume : ∀ w₁, w₁.store.session t = none → w₁.spent t = w.spent t → (quotaTeam.rules t).Safe post (next ()) w₁) :
    (quotaTeam.rules t).Safe post (perform (.sql .rollback) >>= next) w := by
  intro w₁ aside sound answer w₂ run
  have run : agentExec t (.sql .rollback) w₁ answer w₂ := run
  have same := exec_committed run (fun _ => nofun) nofun fun _ => nofun
  have spent : w₂.spent t = w.spent t := ((exec_spent run).2 (fun _ _ => nofun) fun _ => nofun).trans aside.spent
  refine ⟨sound.exec run (fun _ => nofun) ?_, ⟨exec_aside run sound, .inl fun B => ?_⟩, resume w₂ ?_ spent⟩
  · rw [same]
    exact sound.accounts
  · rw [same]
    exact ⟨.refl _, rfl⟩
  · exact exec_opens (a := true) run nofun rfl

theorem safe_abort_over {reply : AgentReply} (settled : Settled reply (w.spent t)) :
    (quotaTeam.rules t).Safe (Over t) (abort reply) w := by
  refine safe_rollback fun w₁ idle spent => safe_over idle ?_
  rw [spent]
  exact settled

theorem safe_abort_unspent {reply : AgentReply} (unspent : w.spent t = none) :
    (quotaTeam.rules t).Safe (Over t) (abort reply) w := by
  refine safe_abort_over ?_
  rw [unspent]
  trivial

/-- An operation that does nothing, after the exchange. -/
theorem safe_op_over {reply : AgentReply} {next : o.Res → Agent AgentReply}
    (still : ∀ w answer w₁, agentExec t o w answer w₁ → w₁ = w)
    (idle : w.store.session t = none) (settled : Settled reply (w.spent t))
    (resume : ∀ answer w₁, w₁.store.session t = none → Settled reply (w₁.spent t) →
      (quotaTeam.rules t).Safe (Over t) (next answer) w₁) :
    (quotaTeam.rules t).Safe (Over t) (perform o >>= next) w := by
  intro w₁ aside sound answer w₂ run
  have run : agentExec t o w₁ answer w₂ := run
  have aside_ := exec_aside run sound
  cases still w₁ answer w₂ run
  refine ⟨sound, ⟨aside_, .inl fun B => ⟨.refl _, rfl⟩⟩, resume answer w₁ (aside.moves.session.trans idle) ?_⟩
  rw [aside.spent]
  exact settled

/-- The token is issued from the code that the exchange has locked. -/
theorem issue_step {label hash createdBy : Text} {deviceId : Nat}
    (run : agentExec t (.sql (.within (.insertIssued label hash deviceId createdBy B))) w (some S) w₁)
    (exchanging : Exchanging t B (fun _ => Kept) w) (sound : Sound w) : S ≠ B ∧ Exchanging t B (Issues B S) w₁ := by
  obtain ⟨mine, committed, spent⟩ := exec_stays run trivial
  obtain ⟨draw, out, within⟩ := exec_within run
  have ran := within.ran
  simp only [AgentStmt.run, insertTokenRow] at ran
  split at ran
  case isTrue => cases ran
  case isFalse new =>
    cases ran
    have answered : S = draw.fresh := within.answered
    subst answered
    have absent : (agentSchema.view w.store t).tokens[draw.fresh]? = none := by
      refine Std.ExtTreeMap.getElem?_eq_none fun member => new ?_
      rw [Bool.or_eq_true]
      exact .inl (Std.ExtTreeMap.mem_iff_contains.mp member)
    have before : w.store.committed.tokens[draw.fresh]? = none := by
      have here : Kept w.store.committed.tokens[draw.fresh]? (agentSchema.view w.store t).tokens[draw.fresh]? :=
        exchanging.pending draw.fresh
      rw [absent] at here
      cases stored : w.store.committed.tokens[draw.fresh]? with
      | none => rfl
      | some r =>
        rw [stored] at here
        exact here.elim
    have other : draw.fresh ≠ B := by
      intro same
      obtain ⟨row, stored, -⟩ := exchanging.room
      rw [same, stored] at before
      cases before
    refine ⟨other, (exec_others run sound.locked).1, mine _ exchanging.mine, ?_, fun id => ?_, spent.trans exchanging.unspent⟩
    · rw [committed]
      exact exchanging.room
    · have view : (agentSchema.view w₁.store t).tokens[id]? =
          ((agentSchema.view w.store t).tokens.put draw.fresh (some (.issued label hash deviceId createdBy B)))[id]? :=
        congrArg (fun db : AgentDb => db.tokens[id]?) within.view
      change Issues B draw.fresh id w₁.store.committed.tokens[id]? (agentSchema.view w₁.store t).tokens[id]?
      rw [committed, view]
      by_cases same : id = draw.fresh
      · rw [Issues, if_pos same, same, Table.getElem?_put_self]
        exact ⟨before, _, rfl, rfl, rfl⟩
      · rw [Issues, if_neg same, Table.getElem?_put_of_ne _ same]
        exact exchanging.pending id

/-- The code is redeemed. -/
theorem redeem_step (run : agentExec t (.sql (.within (.redeem B))) w (some ()) w₁) (other : S ≠ B)
    (exchanging : Exchanging t B (Issues B S) w) (sound : Sound w) :
    Exchanging t B (Redeems B S) w₁ ∧ ∃ changes, w₁.store.session t = some ⟨changes, false⟩ := by
  obtain ⟨mine, committed, spent⟩ := exec_stays run trivial
  obtain ⟨draw, out, within⟩ := exec_within run
  cases within.ran
  obtain ⟨changes, -, opened⟩ := within.opened
  refine ⟨⟨(exec_others run sound.locked).1, mine _ exchanging.mine, ?_, fun id => ?_, spent.trans exchanging.unspent⟩, _, opened⟩
  · rw [committed]
    exact exchanging.room
  · have seen := tokens_updateTokens (agentSchema.view w.store t) (fun id _ => id = B) (.redeem draw.now) id
    have view : (agentSchema.view w₁.store t).tokens[id]? = _ :=
      (congrArg (fun db : AgentDb => db.tokens[id]?) within.view).trans seen
    change Redeems B S id w₁.store.committed.tokens[id]? (agentSchema.view w₁.store t).tokens[id]?
    rw [committed, view]
    have here : Issues B S id w.store.committed.tokens[id]? (agentSchema.view w.store t).tokens[id]? :=
      exchanging.pending id
    by_cases same : id = B
    · obtain ⟨r, stored, -⟩ := exchanging.room
      rw [same, Issues, if_neg other.symm, stored] at here
      rw [Redeems, if_pos same, same, stored]
      cases stored₁ : (agentSchema.view w.store t).tokens[B]? with
      | none =>
        rw [stored₁] at here
        exact here.elim
      | some r₁ =>
        rw [stored₁] at here
        rw [Option.map_some, if_pos (decide_eq_true rfl)]
        exact ⟨r, _, rfl, rfl, here.1, here.2.1, congrArg (· + 1) here.2.2⟩
    · have still : ((agentSchema.view w.store t).tokens[id]?.map fun row =>
          if decide (id = B) then row.redeem draw.now else row) = (agentSchema.view w.store t).tokens[id]? := by
        simp [same]
      rw [Redeems, if_neg same, still]
      exact here

/-- What the exchange has changed it has locked. -/
theorem Exchanging.issues_refl (exchanging : Exchanging t B (Issues B S) w) (id : Nat)
    (unlocked : w.store.owner (.token id) ≠ some t) (a : Option AgentToken) : Issues B S id a a := by
  unfold Issues
  split
  case isTrue same =>
    have here := exchanging.pending id
    rw [Schema.Cells.view_of_unlocked exchanging.locked unlocked, Issues, if_pos same] at here
    obtain ⟨absent, r, stored, -⟩ := here
    cases absent.symm.trans stored
  case isFalse => exact .refl a

theorem Exchanging.redeems_refl (exchanging : Exchanging t B (Redeems B S) w) (id : Nat)
    (unlocked : w.store.owner (.token id) ≠ some t) (a : Option AgentToken) : Redeems B S id a a := by
  have here := exchanging.pending id
  rw [Schema.Cells.view_of_unlocked exchanging.locked unlocked] at here
  unfold Redeems at here ⊢
  split at here
  case isTrue =>
    obtain ⟨r, r₁, stored, stored₁, -, -, count⟩ := here
    cases stored.symm.trans stored₁
    omega
  case isFalse code =>
    rw [if_neg code]
    unfold Issues at here ⊢
    split at here
    case isTrue =>
      obtain ⟨absent, r, stored, -⟩ := here
      cases absent.symm.trans stored
    case isFalse new =>
      rw [if_neg new]
      exact .refl a

/-- The COMMIT of an exchange: everything that it has done, or nothing. -/
theorem exchange_step {ok : Bool} (run : agentExec t (.commit (.exchange B S)) w ok w₁) (sound : Sound w) (other : S ≠ B)
    (exchanging : Exchanging t B (Redeems B S) w) (opened : ∃ changes, w.store.session t = some ⟨changes, false⟩) :
    Sound w₁ ∧ Accounted t (.commit (.exchange B S)) w w₁ ∧
      (w₁.spent t = some ⟨B, S, ok⟩ ∨ ok = false ∧ w₁.spent t = none) := by
  obtain ⟨changes, opened⟩ := opened
  obtain ⟨changes', opened', rfl⟩ | ⟨failed, rfl⟩ := id run
  · cases opened.symm.trans opened'
    have redeems : ∀ id : Nat, Redeems B S id w.store.committed.tokens[id]?
        (agentSchema.applyAll changes w.store.committed).tokens[id]? := by
      intro id
      have here : Redeems B S id w.store.committed.tokens[id]? (agentSchema.view w.store t).tokens[id]? :=
        exchanging.pending id
      rw [Schema.view_of_session opened] at here
      exact here
    have accounts : Accounts (agentSchema.applyAll changes w.store.committed) := by
      refine sound.accounts.redeemed redeems other fun r most stored limit => ?_
      obtain ⟨row, found, room⟩ := exchanging.room
      cases stored.symm.trans found
      exact room most limit
    have noted : ((w.done t ok (.exchange B S)).move ((agentSchema.publish changes w.store).close t)).spent t =
        some ⟨B, S, ok⟩ := Function.update_self ..
    exact ⟨sound.exec run (fun _ => nofun) accounts,
      .inr ⟨B, S, ok, rfl, exchanging.unspent, noted, spends_of_redeems redeems other⟩, .inl noted⟩
  · exact ⟨sound.exec run (fun _ => nofun) sound.accounts, .inl fun B => ⟨.refl _, rfl⟩,
      .inr ⟨failed changes opened, exchanging.unspent⟩⟩

theorem safe_issueToken_sound {x : Exchange} {deviceId : Nat} {revokedUnused : List Nat}
    (exchanging : Exchanging t x.bootstrap.1 (fun _ => Kept) w) :
    (quotaTeam.rules t).Safe (Over t) (issueToken fns x deviceId revokedUnused) w := by
  refine safe_op_exchanging exchanging trivial nofun fun newToken w₁ exchanging => ?_
  refine safe_op_exchanging exchanging trivial nofun fun now w₁ exchanging => ?_
  intro w₂ aside₂ sound₂ newId w₃ run₃
  have run₃ : agentExec t (.sql (.within (.insertIssued _ _ deviceId _ x.bootstrap.1))) w₂ newId w₃ := run₃
  have exchanging₂ := exchanging.aside aside₂ sound₂ fun _ _ => Kept.refl
  obtain ⟨sound₃, accounted₃⟩ := sound₂.stays run₃ trivial
  refine ⟨sound₃, ⟨exec_aside run₃ sound₂, accounted₃⟩, ?_⟩
  cases newId with
  | none => exact safe_abort_unspent ((exec_stays run₃ trivial).2.2.trans exchanging₂.unspent)
  | some newId =>
    obtain ⟨other, exchanging₃⟩ := issue_step run₃ exchanging₂ sound₂
    intro w₄ aside₄ sound₄ redeemed w₅ run₅
    have run₅ : agentExec t (.sql (.within (.redeem x.bootstrap.1))) w₄ redeemed w₅ := run₅
    have exchanging₄ := exchanging₃.aside aside₄ sound₄ exchanging₃.issues_refl
    obtain ⟨sound₅, accounted₅⟩ := sound₄.stays run₅ trivial
    refine ⟨sound₅, ⟨exec_aside run₅ sound₄, accounted₅⟩, ?_⟩
    cases redeemed with
    | none => exact safe_abort_unspent ((exec_stays run₅ trivial).2.2.trans exchanging₄.unspent)
    | some =>
      obtain ⟨exchanging₅, opened₅⟩ := redeem_step run₅ other exchanging₄ sound₄
      intro w₆ aside₆ sound₆ ok w₇ run₇
      have run₇ : agentExec t (.commit (.exchange x.bootstrap.1 newId)) w₆ ok w₇ := run₇
      have exchanging₆ := exchanging₅.aside aside₆ sound₆ exchanging₅.redeems_refl
      have opened₆ : ∃ changes, w₆.store.session t = some ⟨changes, false⟩ := by
        rw [aside₆.moves.session]
        exact opened₅
      obtain ⟨sound₇, accounted₇, spent₇⟩ := exchange_step run₇ sound₆ other exchanging₆ opened₆
      refine ⟨sound₇, ⟨exec_aside run₇ sound₆, accounted₇⟩, ?_⟩
      have idle₇ : w₇.store.session t = none := exec_opens (a := true) run₇ nofun rfl
      cases ok with
      | false =>
        refine safe_abort_over ?_
        rcases spent₇ with spent | ⟨-, spent⟩ <;> rw [spent]
        · exact rfl
        · trivial
      | true =>
        have spent : w₇.spent t = some ⟨x.bootstrap.1, newId, true⟩ := by
          rcases spent₇ with spent | ⟨never, -⟩
          · exact spent
          · cases never
        have settled : Settled (.exchanged newToken deviceId x.hostname) (w₇.spent t) := by
          rw [spent]
          exact ⟨_, _, _, rfl⟩
        refine safe_op_over (fun _ _ _ run => run) idle₇ settled fun _ w₈ idle settled => ?_
        refine safe_op_over (fun _ _ _ run => run) idle settled fun _ w₉ idle settled => ?_
        exact safe_over idle settled

theorem safe_refuseExchange_sound {x : Exchange} {deviceId : Nat} {refusal : ClaimRefusal} (unspent : w.spent t = none) :
    (quotaTeam.rules t).Safe (Over t) (refuseExchange x deviceId refusal) w := by
  refine safe_rollback fun w₁ idle spent => ?_
  have settled : Settled (claimReply refusal) (w₁.spent t) := by
    rw [spent, unspent]
    trivial
  refine safe_op_over (fun _ _ _ run => run) idle settled fun _ w₂ idle settled => ?_
  exact safe_over idle settled

theorem safe_checkDeviceClaim_sound {device : DeviceRow} {serial : Option Text} {excludeTokenId : Option Nat}
    {next : Option (Option ClaimRefusal) → Agent AgentReply} (exchanging : Exchanging t B (fun _ => Kept) w)
    (resume : ∀ answer w₁, Exchanging t B (fun _ => Kept) w₁ → (quotaTeam.rules t).Safe (Over t) (next answer) w₁) :
    (quotaTeam.rules t).Safe (Over t) (checkDeviceClaim fns device serial excludeTokenId >>= next) w := by
  unfold checkDeviceClaim
  cases serialRefusal fns device.2 serial with
  | some refusal => exact resume _ w exchanging
  | none =>
    refine safe_op_exchanging exchanging trivial nofun fun answer w₁ exchanging => ?_
    cases answer with
    | none => exact resume _ w₁ exchanging
    | some token => exact resume _ w₁ exchanging

theorem safe_exchangeDevice_sound {x : Exchange} (exchanging : Exchanging t x.bootstrap.1 (fun _ => Kept) w) :
    (quotaTeam.rules t).Safe (Over t) (exchangeDevice fns x) w := by
  refine safe_op_exchanging exchanging trivial nofun fun found w₁ exchanging => ?_
  rcases found with _ | _ | dev
  · exact safe_abort_unspent exchanging.unspent
  · refine safe_op_exchanging exchanging trivial nofun fun deviceId w₂ exchanging => ?_
    cases deviceId with
    | none => exact safe_abort_unspent exchanging.unspent
    | some deviceId => exact safe_issueToken_sound exchanging
  · refine safe_checkDeviceClaim_sound exchanging fun claim w₂ exchanging => ?_
    rcases claim with _ | _ | refusal
    · exact safe_abort_unspent exchanging.unspent
    · refine safe_op_exchanging exchanging trivial nofun fun revoked w₃ exchanging => ?_
      cases revoked with
      | none => exact safe_abort_unspent exchanging.unspent
      | some revoked => exact safe_issueToken_sound exchanging
    · exact safe_refuseExchange_sound exchanging.unspent

theorem safe_exchangeToken_sound {plain hostname serial : Option Text} (quiet : Quiet t false w) :
    (quotaTeam.rules t).Safe (Over t) (exchangeToken fns plain hostname serial) w := by
  have refused : ∀ reply, (quotaTeam.rules t).Safe (Over t) (.ret reply) w := by
    intro reply
    refine safe_over (quiet.closed rfl) ?_
    rw [quiet.unspent]
    trivial
  unfold exchangeToken
  cases plain with
  | none => exact refused _
  | some plain =>
    dsimp only
    split
    case isTrue => exact refused _
    case isFalse =>
      refine safe_op_quiet quiet nofun (fun _ => nofun) fun begun w₁ w₂ aside sound₁ run₁ sound₂ quiet₂ => ?_
      cases begun with
      | false => exact safe_abort_unspent quiet₂.unspent
      | true =>
        have fresh := exec_begin run₁ (aside.moves.session.trans (quiet.closed rfl))
        refine safe_op_quiet quiet₂ nofun (fun _ => nofun) fun bootstrap w₃ w₄ aside₃ _ run₃ _ quiet₄ => ?_
        rcases bootstrap with _ | _ | ⟨B, label⟩
        · exact safe_abort_unspent quiet₄.unspent
        · exact safe_abort_unspent quiet₄.unspent
        · exact safe_exchangeDevice_sound (bootstrap_step run₃ (aside₃.moves.session.trans fresh) quiet₄)

theorem safe_route_sound {route : Agent AgentReply} (allowed : Route fns route) (quiet : Quiet t false w) :
    (quotaTeam.rules t).Safe (Over t) route w := by
  have other : ∀ kind program, Orderly kind false false program → kind ≠ .exchanges → kind ≠ .replies →
      (quotaTeam.rules t).Safe (Over t) program w := by
    intro kind program orderly exchanges silent
    refine (safe_orderly_sound orderly exchanges silent quiet).weaken fun reply w₁ _ quiet => ⟨quiet.closed rfl, ?_⟩
    rw [quiet.unspent]
    trivial
  cases allowed with
  | exchange => exact safe_exchangeToken_sound quiet
  | rotate => exact other _ _ orderly_rotateToken nofun nofun
  | authenticated => exact other .binds _ orderly_authenticatedRoute nofun nofun
  | checkin => exact other _ _ orderly_checkin nofun nofun
  | revoke => exact other .binds _ orderly_revokeToken nofun nofun
  | create => exact other .binds _ orderly_createToken nofun nofun

/-- The reply, which ends the request. -/
theorem safe_send_sound {reply : AgentReply} (ended : Over t reply w) : quotaTeam.Safe t (perform (.send reply)) w := by
  intro w₁ aside sound answer w₂ run
  have run : agentExec t (.send reply) w₁ answer w₂ := run
  have aside_ := exec_aside run sound
  have settled : Settled reply (w₁.spent t) := by
    rw [aside.spent]
    exact ended.2
  cases run
  refine ⟨⟨sound.locked, sound.accounts, fun t' reply' spent member => ?_⟩, ⟨aside_, .inl fun B => ⟨.refl _, rfl⟩⟩, ?_⟩
  · rcases List.mem_cons.mp member with same | before
    · cases same
      exact settled
    · exact sound.settled t' reply' spent before
  · intro w₃ aside₃ _
    refine ⟨aside₃.moves.session.trans (aside.moves.session.trans ended.1), ?_⟩
    rw [aside₃.spent]
    exact Function.update_self ..

theorem agents_sound (fns : AgentFns) : (agents fns).Verified quotaTeam where
  exec run := run
  env {w w₁} sound moves := by
    obtain ⟨change, foreign, free, rfl⟩ := moves
    refine ⟨⟨sound.locked.publish _, sound.accounts.kept foreign.accounts, sound.settled⟩, fun u => ⟨?_, rfl⟩⟩
    refine Schema.moves_publish (fun _ _ => trivial) fun c member k needed owns => ?_
    cases List.mem_singleton.mp member
    rw [free k needed] at owns
    cases owns
  entry {program t w} allowed sound idle := by
    obtain ⟨route, named, rfl⟩ := allowed
    have quiet : Quiet t false w := ⟨sound.locked, .closed (fun _ => Kept.refl) idle.1, fun _ => idle.1, idle.2⟩
    exact (safe_route_sound named quiet).bind sound fun reply w₁ _ ended => safe_send_sound ended
  drop {t w} sound := by
    refine ⟨⟨sound.locked.close t, sound.accounts, sound.settled⟩, fun w₁ aside _ => ?_, fun u other => ?_⟩
    · refine ⟨aside.moves.session.trans Schema.session_close, ?_⟩
      rw [aside.spent]
      exact Function.update_self ..
    · exact ⟨Schema.moves_close other, Function.update_of_ne other ..⟩

/-- The accounts are right at the start. -/
def QuotaStart (w : AgentWorld) : Prop := AgentStart w ∧ Accounts w.store.committed

theorem agents_accounted (w : AgentWorld) (start : QuotaStart w) :
    Sound w ∧ ∀ t w₁, Aside t w w₁ → Sound w₁ → w₁.store.session t = none ∧ w₁.spent t = none := by
  obtain ⟨⟨db, rfl⟩, accounts⟩ := start
  exact ⟨⟨Schema.locked_start db, accounts, fun _ _ _ => nofun⟩, fun t w₁ aside _ => ⟨aside.moves.session, aside.spent⟩⟩

/-- Along every run: every code has issued as many tokens as it has redemptions, and no more than
it may; a step changes this only by the COMMIT of an exchange, which is then known by its
request; and a request that does not answer a token has redeemed nothing, unless the answer of
its COMMIT has been lost. -/
theorem quota_exact {c : Threads.Config AgentOp.Res AgentWorld} (reach : (agents fns).Reach QuotaStart c) :
    Accounts c.world.store.committed ∧
    (∀ c₁, (agents fns).Step c c₁ → (∀ B, Unspent B c.world.store.committed c₁.world.store.committed) ∨
      ∃ t B S ok, c.world.spent t = none ∧ c₁.world.spent t = some ⟨B, S, ok⟩ ∧
        Spends B S c.world.store.committed c₁.world.store.committed) ∧
    ∀ t reply spent, .replied t reply spent ∈ c.world.history → Settled reply spent := by
  have sound : Sound c.world := reach.inv (agents_sound fns) agents_accounted
  refine ⟨sound.accounts, fun c₁ step => ?_, sound.settled⟩
  cases step with
  | start => exact .inl fun B => ⟨.refl _, rfl⟩
  | die => exact .inl fun B => ⟨.refl _, rfl⟩
  | env moves =>
    obtain ⟨change, foreign, -, rfl⟩ := moves
    exact .inl (unspent_of_kept foreign.accounts)
  | op t next run =>
    obtain unspent | ⟨B, S, ok, -, before, after, spends⟩ := reach.guarantee (agents_sound fns) agents_accounted next run
    · exact .inl unspent
    · exact .inr ⟨t, B, S, ok, before, after, spends⟩

/-- A code for one token. -/
def demoCode : AgentToken :=
  ⟨none, demoFns.hashToken (demoPlain '1'), some "lot".toList, some "admin".toList, true, none, none, none, none, some 1, 0,
    none, none⟩

def demoCodes : AgentDb := ⟨(∅ : Table _).insert 1 demoCode, ∅, 1000⟩

theorem demo_accounts : Accounts demoCodes := by
  have stored : ∀ (B : Nat) row, demoCodes.tokens[B]? = some row → B = 1 ∧ row = demoCode := by
    intro B row found
    by_cases same : B = 1
    · subst same
      exact ⟨rfl, (Option.some.inj (found.symm.trans (Table.getElem?_insert_self _ _ _)))⟩
    · rw [demoCodes, Table.getElem?_insert_of_ne _ same] at found
      cases found
  refine ⟨fun B => ?_, fun B row most found limit => ?_⟩
  · have nobody : demoCodes.issued B = [] := by
      refine List.eq_nil_iff_forall_not_mem.mpr fun T member => ?_
      obtain ⟨row, found, issuer⟩ := mem_issued.mp member
      cases (stored T row found).2
      cases issuer
    rw [nobody, AgentDb.redeemed]
    cases found : demoCodes.tokens[B]? with
    | none => rfl
    | some row =>
      cases (stored B row found).2
      rfl
  · cases (stored B row found).2
    exact Nat.zero_le most

def demoExchange : Agent AgentReply := exchangeToken demoFns (some (demoPlain '1')) (some "pc".toList) none

/-- An exchange, the answer of its COMMIT lost or not. -/
theorem demo_exchanged (ok : Bool) : ∃ c : Threads.Config AgentOp.Res AgentWorld, (agents demoFns).Reach QuotaStart c ∧
    c.world.history = [.replied 0 (if ok then .exchanged (demoPlain '2') 10 "pc".toList else INTERNAL_ERROR)
      (some ⟨1, 2, ok⟩)] := by
  have r : (agents demoFns).Reach QuotaStart ⟨⟨.start demoCodes, [], fun token => (demoCodes.deviceOf token).toList,
    fun _ => none, fun _ => none⟩, fun _ => .ret ()⟩ := .init ⟨⟨_, rfl⟩, demo_accounts⟩
  have r := r.begins 0 (request demoExchange) rfl ⟨_, .exchange, rfl⟩
  have r := r.perform 0 rfl true _ ⟨_, .inl ⟨rfl, rfl⟩, rfl⟩
  have r := r.perform 0 rfl (some (some (1, some "lot".toList))) _
    ⟨_, .inl ⟨⟨1000, 0⟩, _, rfl, List.forall_mem_singleton.mpr (.inl rfl), rfl, rfl⟩, rfl⟩
  have r := r.perform 0 rfl (some none) _ ⟨_, .inl ⟨⟨1000, 0⟩, _, rfl, fun _ => nofun, rfl, rfl⟩, rfl⟩
  have r := r.perform 0 rfl (some (10 : Nat)) _
    ⟨_, .inl ⟨⟨1000, 10⟩, _, rfl, List.forall_mem_cons.mpr ⟨.inl rfl, List.forall_mem_singleton.mpr (.inl rfl)⟩, rfl, rfl⟩, rfl⟩
  have r := r.perform 0 rfl (demoPlain '2') _ rfl
  have r := r.perform 0 rfl (1000 : Int) _ ⟨rfl, rfl⟩
  have r := r.perform 0 rfl (some (2 : Nat)) _
    ⟨_, .inl ⟨⟨1000, 2⟩, _, rfl, List.forall_mem_cons.mpr ⟨.inl rfl, List.forall_mem_singleton.mpr (.inl rfl)⟩, rfl, rfl⟩, rfl⟩
  have r := r.perform 0 rfl (some ()) _
    ⟨_, .inl ⟨⟨1000, 0⟩, _, rfl, List.forall_mem_singleton.mpr (.inr rfl), rfl, rfl⟩, rfl⟩
  have r := r.perform 0 rfl ok _ (.inl ⟨_, rfl, rfl⟩)
  cases ok with
  | false =>
    have r := r.perform 0 rfl () _ ⟨_, rfl, rfl⟩
    exact ⟨_, r.perform 0 rfl () _ rfl, rfl⟩
  | true =>
    have r := r.perform 0 rfl () _ rfl
    have r := r.perform 0 rfl () _ rfl
    exact ⟨_, r.perform 0 rfl () _ rfl, rfl⟩

theorem quota_exact_exchanged : ∃ c : Threads.Config AgentOp.Res AgentWorld, Accounts c.world.store.committed ∧
    .replied 0 (.exchanged (demoPlain '2') 10 "pc".toList) (some ⟨1, 2, true⟩) ∈ c.world.history := by
  obtain ⟨c, reach, history⟩ := demo_exchanged true
  refine ⟨c, (quota_exact reach).1, ?_⟩
  rw [history]
  exact List.mem_singleton.mpr rfl

/-- A request that does not answer a token has redeemed nothing. -/
def Costless (w : AgentWorld) : Prop := ∀ t reply spent, .replied t reply spent ∈ w.history →
  (∀ token deviceId hostname, reply ≠ .exchanged token deviceId hostname) → spent = none

/-- The COMMIT is carried out and its answer is lost: the exchange fails, and the code is spent. -/
theorem lost_answer : ¬∀ c : Threads.Config AgentOp.Res AgentWorld, (agents demoFns).Reach QuotaStart c →
    Accounts c.world.store.committed ∧ Costless c.world := by
  intro costless
  obtain ⟨c, reach, history⟩ := demo_exchanged false
  have failed : .replied 0 INTERNAL_ERROR (some ⟨1, 2, false⟩) ∈ c.world.history := by
    rw [history]
    exact List.mem_singleton.mpr rfl
  cases (costless c reach).2 0 INTERNAL_ERROR _ failed fun _ _ _ => nofun

end Opale.Agents
