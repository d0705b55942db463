import Opale.Agents.Revocation

namespace Opale.Agents

open Sql
open Linux (Text ClaimRefusal)

variable {fns : AgentFns} {t u id T D : Nat} {w w₁ w₂ : AgentWorld} {o : AgentOp} {answer : o.Res}
variable {a b c : Option AgentToken}

/-- A token that is bound stays bound to its device. -/
def Bound (a b : Option AgentToken) : Prop := ∀ D, a.bind (·.deviceId) = some D → b.bind (·.deviceId) = some D

theorem Bound.refl (a : Option AgentToken) : Bound a a := fun _ bound => bound

theorem Bound.trans (a b c : Option AgentToken) (first : Bound a b) (second : Bound b c) : Bound a c :=
  fun D bound => second D (first D bound)

/-- Only the last UPDATE of a check-in binds a token that is bound. -/
theorem TokenStep.bound {s : AgentStmt} (step : TokenStep s id a b) (other : s.kind ≠ some .binds) : Bound a b := by
  cases step with
  | same => exact .refl _
  | insert => exact fun _ => nofun
  | set sets =>
    cases sets with
    | bindToken => exact absurd rfl other
    | replaceToken | revokeUnused _ | redeem | revokeToken _ => exact fun _ bound => bound
    | claimToken free =>
      intro D bound
      obtain none_ | same := free
      · cases none_.symm.trans bound
      · exact same.symm.trans bound

theorem Foreign.bound {db : AgentDb} {change : AgentChange} (foreign : Foreign db change) (id : Nat) :
    Bound db.tokens[id]? (change.apply db).tokens[id]? := by
  cases foreign with
  | clock | device => exact .refl _
  | @bootstrap other row absent =>
    change Bound _ (db.tokens.put other (some row))[id]?
    by_cases same : id = other
    · rw [same, absent]
      exact fun _ => nofun
    · rw [Table.getElem?_put_of_ne _ same]
      exact .refl _
  | @conversion other row now stored =>
    change Bound _ (db.tokens.put other (some (row.revoke now)))[id]?
    by_cases same : id = other
    · rw [same, stored, Table.getElem?_put_self]
      exact fun _ bound => bound
    · rw [Table.getElem?_put_of_ne _ same]
      exact .refl _

/-- The devices that the tokens are bound to are noted. -/
structure Bindings (w : AgentWorld) : Prop where
  locked : agentSchema.Locked w.store
  noted : ∀ T D, w.store.committed.deviceOf T = some D → D ∈ w.bindings T

/-- What a request `t` accepts of the others. -/
structure Beside (t : Nat) (w w₁ : AgentWorld) : Prop where
  moves : agentSchema.Moves (fun _ => True) t w.store w₁.store
  bindings : ∀ T D, D ∈ w.bindings T → D ∈ w₁.bindings T
  inserted : w₁.inserted t = w.inserted t

theorem Beside.refl (t : Nat) (w : AgentWorld) : Beside t w w := ⟨.refl _ t _, fun _ _ member => member, rfl⟩

theorem Beside.trans (first : Beside t w w₁) (second : Beside t w₁ w₂) : Beside t w w₂ where
  moves := first.moves.trans second.moves
  bindings T D member := second.bindings T D (first.bindings T D member)
  inserted := second.inserted.trans first.inserted

/-- The device is one of the token, or one that the request has inserted. -/
def Bindable (t T D : Nat) (w : AgentWorld) : Prop := D ∈ w.bindings T ∨ w.inserted t = some D

theorem Bindable.beside (bindable : Bindable t T D w) (beside : Beside t w w₁) : Bindable t T D w₁ :=
  bindable.imp (beside.bindings T D) beside.inserted.trans

/-- No token is bound to another device, or one is by the last UPDATE of a check-in. -/
def Rebinds (t : Nat) (o : AgentOp) (w w₁ : AgentWorld) : Prop :=
  (∀ id : Nat, Bound w.store.committed.tokens[id]? w₁.store.committed.tokens[id]?) ∨
    ∃ D T, o = .sql (.query (.bindToken D T)) ∧ Bindable t T D w ∧
      (w₁.store.committed.deviceOf T = w.store.committed.deviceOf T ∨ w₁.store.committed.deviceOf T = some D) ∧
      ∀ id : Nat, id ≠ T → Bound w.store.committed.tokens[id]? w₁.store.committed.tokens[id]?

def bindingTeam : Threads.Team AgentOp.Res AgentWorld where
  exec := agentExec
  inv := Bindings
  rely := Beside
  guarantee t o w _ w₁ := Rebinds t o w w₁
  idle t w := w.store.session t = none
  rely_refl := Beside.refl
  rely_trans _ _ _ _ := Beside.trans

theorem move_noted (w : AgentWorld) (st : AgentStore) : (∀ T D, D ∈ w.bindings T → D ∈ (w.move st).bindings T) ∧
    ∀ T D, st.committed.deviceOf T = some D → D ∈ (w.move st).bindings T := by
  refine ⟨fun T D member => List.mem_append_right _ member, fun T D bound => List.mem_append_left _ ?_⟩
  rw [bound]
  exact List.mem_singleton.mpr rfl

theorem note_bindings (so : SqlOp AgentStmt) (answer : so.Res AgentStmt.Ans) (w : AgentWorld) :
    (w.note t so answer).bindings = w.bindings := by
  cases so with
  | query s | within s => cases s <;> rfl
  | begin | commit | rollback => rfl

/-- The bindings that an operation commits are noted. -/
theorem exec_noted (run : agentExec t o w answer w₁) (bindings : Bindings w) :
    Bindings w₁ ∧ ∀ T D, D ∈ w.bindings T → D ∈ w₁.bindings T := by
  have locked := (exec_others run bindings.locked).1
  cases o with
  | sql so =>
    obtain ⟨store, ran, rfl⟩ := run
    obtain ⟨grow, noted⟩ := move_noted (w.note t so answer) store
    rw [note_bindings] at grow
    exact ⟨⟨locked, noted⟩, grow⟩
  | commit work =>
    obtain ⟨changes, -, rfl⟩ | ⟨-, rfl⟩ := run
    · obtain ⟨grow, noted⟩ := move_noted (w.done t answer work) ((agentSchema.publish changes w.store).close t)
      have same : (w.done t answer work).bindings = w.bindings := by cases work <;> rfl
      rw [same] at grow
      exact ⟨⟨locked, noted⟩, grow⟩
    · obtain ⟨grow, noted⟩ := move_noted w (w.store.close t)
      exact ⟨⟨locked, noted⟩, grow⟩
  | dateNow =>
    cases run.2
    exact ⟨bindings, fun _ _ member => member⟩
  | randomToken | evictTokens _ | logAudit _ | send _ =>
    cases run
    exact ⟨⟨locked, bindings.noted⟩, fun _ _ member => member⟩

/-- Operations that note an insertion, or forget it. -/
def Inserting : AgentOp → Prop
  | .sql (.query (.authToken _)) | .sql (.within (.insertDevice ..)) => True
  | _ => False

theorem exec_inserted (run : agentExec t o w answer w₁) : (∀ u, u ≠ t → w₁.inserted u = w.inserted u) ∧
    (¬Inserting o → w₁.inserted t = w.inserted t) := by
  cases o with
  | sql so =>
    obtain ⟨store, ran, rfl⟩ := run
    cases so with
    | query s =>
      cases s with
      | authToken hash => exact ⟨fun u other => Function.update_of_ne other .., fun never => absurd trivial never⟩
      | _ => exact ⟨fun _ _ => rfl, fun _ => rfl⟩
    | within s =>
      cases s with
      | insertDevice => exact ⟨fun u other => Function.update_of_ne other .., fun never => absurd trivial never⟩
      | _ => exact ⟨fun _ _ => rfl, fun _ => rfl⟩
    | begin | commit | rollback => exact ⟨fun _ _ => rfl, fun _ => rfl⟩
  | commit work =>
    obtain ⟨changes, -, rfl⟩ | ⟨-, rfl⟩ := run
    · cases work <;> exact ⟨fun _ _ => rfl, fun _ => rfl⟩
    · exact ⟨fun _ _ => rfl, fun _ => rfl⟩
  | dateNow =>
    cases run.2
    exact ⟨fun _ _ => rfl, fun _ => rfl⟩
  | randomToken | evictTokens _ | logAudit _ | send _ =>
    cases run
    exact ⟨fun _ _ => rfl, fun _ => rfl⟩

theorem exec_beside (run : agentExec t o w answer w₁) (bindings : Bindings w) (u : Nat) (other : u ≠ t) : Beside u w w₁ :=
  ⟨(exec_others run bindings.locked).2 u other, (exec_noted run bindings).2, (exec_inserted run).1 u other⟩

variable {α : Type} {post : α → AgentWorld → Prop}

/-- A request whose transaction, if it has one, binds no bound token to another device. -/
structure Attending (t : Nat) (opened : Bool) (w : AgentWorld) : Prop where
  locked : agentSchema.Locked w.store
  pending : tokenCells.Pending (fun _ => Bound) t w.store
  closed : opened = false → w.store.session t = none

theorem Attending.beside {opened : Bool} (attending : Attending t opened w) (beside : Beside t w w₁)
    (bindings : Bindings w₁) : Attending t opened w₁ where
  locked := bindings.locked
  pending := attending.pending.moves attending.locked beside.moves fun _ _ => Bound.refl
  closed ended := beside.moves.session.trans (attending.closed ended)

theorem Attending.exec {opened : Bool} (attending : Attending t opened w) (bindings : Bindings w)
    (run : agentExec t o w answer w₁) (other : o.kind ≠ some .binds) :
    Bindings w₁ ∧ (∀ id : Nat, Bound w.store.committed.tokens[id]? w₁.store.committed.tokens[id]?) ∧
      Attending t (opens opened o) w₁ := by
  obtain ⟨pending, kept⟩ := exec_pending run bindings.locked Bound.refl Bound.trans (fun s asked id a b step => by
    refine step.bound ?_
    rcases asked with rfl | rfl <;> exact other) attending.pending
  have bindings₁ := (exec_noted run bindings).1
  exact ⟨bindings₁, kept, bindings₁.locked, pending, exec_opens run attending.closed⟩

/-- An operation that is not the last UPDATE of a check-in, in front of a program. -/
theorem safe_op_attending {opened : Bool} {next : o.Res → Agent α} (attending : Attending t opened w)
    (other : o.kind ≠ some .binds)
    (resume : ∀ answer w₁ w₂, Beside t w w₁ → agentExec t o w₁ answer w₂ → Bindings w₂ →
      (∀ T D, D ∈ w.bindings T → D ∈ w₂.bindings T) → Attending t (opens opened o) w₂ →
      (bindingTeam.rules t).Safe post (next answer) w₂) :
    (bindingTeam.rules t).Safe post (perform o >>= next) w := by
  intro w₁ beside bindings answer w₂ run
  have run : agentExec t o w₁ answer w₂ := run
  obtain ⟨bindings₂, kept, attending₂⟩ := (attending.beside beside bindings).exec bindings run other
  refine ⟨bindings₂, ⟨exec_beside run bindings, .inl kept⟩, resume answer w₁ w₂ beside run bindings₂ ?_ attending₂⟩
  exact fun T D member => (exec_noted run bindings).2 T D (beside.bindings T D member)

theorem safe_orderly_binding {kind : Kind} {program : Agent α} (orderly : Orderly kind false false program)
    (other : kind ≠ .binds) (attending : Attending t false w) :
    (bindingTeam.rules t).Safe (fun _ => Attending t false) program w := by
  refine Rules.Safe.of_follows (Attending t) (fun here beside bindings => here.beside beside bindings) ?_ orderly attending
  intro opened o w answer w₁ allowed attending bindings run
  have run : agentExec t o w answer w₁ := run
  have kinds : o.kind ≠ some .binds := by
    intro same
    rcases allowed with none_ | some_
    · cases none_.symm.trans same
    · exact other (Option.some.inj (some_.symm.trans same))
  obtain ⟨bindings₁, kept, attending₁⟩ := attending.exec bindings run kinds
  exact ⟨bindings₁, ⟨exec_beside run bindings, .inl kept⟩, attending₁⟩

/-- The last UPDATE of a check-in. -/
theorem bind_step {answer : Option Unit} (run : agentExec t (.sql (.query (.bindToken D T))) w answer w₁)
    (bindable : Bindable t T D w) : Rebinds t (.sql (.query (.bindToken D T))) w w₁ := by
  obtain ⟨store, ⟨draw, out, ran, -, -, rfl⟩ | ⟨-, rfl⟩, rfl⟩ := run
  case inr => exact .inl fun _ => .refl _
  cases ran
  let db := w.store.committed
  have seen := tokens_updateTokens db (fun id _ => id = T) (.bind D db.clock)
  refine .inr ⟨D, T, rfl, bindable, ?_, fun id other => ?_⟩
  · have here : (agentSchema.applyAll (updateTokens db (fun id _ => id = T) (.bind D db.clock)).changes db).deviceOf T = _ :=
      congrArg (fun row => row.bind (·.deviceId)) (seen T)
    change (agentSchema.applyAll (updateTokens db (fun id _ => id = T) (.bind D db.clock)).changes db).deviceOf T = _ ∨
      (agentSchema.applyAll (updateTokens db (fun id _ => id = T) (.bind D db.clock)).changes db).deviceOf T = _
    rw [here]
    cases stored : db.tokens[T]? with
    | none =>
      refine .inl ?_
      rw [AgentDb.deviceOf, stored]
      rfl
    | some row => exact .inr (by simp [AgentToken.bind])
  · change Bound db.tokens[id]? (agentSchema.applyAll (updateTokens db (fun id _ => id = T) (.bind D db.clock)).changes db).tokens[id]?
    rw [seen id]
    simp only [other, decide_false, Bool.false_eq_true, if_false, Option.map_id']
    exact .refl _

theorem safe_attending {value : α} (attending : Attending t false w) :
    (bindingTeam.rules t).Safe (fun _ => Attending t false) (.ret value) w :=
  fun _ beside bindings => attending.beside beside bindings

theorem safe_abort_attending {opened : Bool} {reply : AgentReply} (attending : Attending t opened w) :
    (bindingTeam.rules t).Safe (fun _ => Attending t false) (abort reply) w :=
  safe_op_attending attending nofun fun _ _ _ _ _ _ _ attending => safe_attending attending

theorem safe_finishCheckin_binding {x : Checkin} (attending : Attending t false w)
    (bindable : Bindable t x.token.1 D w) :
    (bindingTeam.rules t).Safe (fun _ => Attending t false) (finishCheckin x D) w := by
  refine safe_op_attending attending nofun fun done w₁ w₂ beside run bindings₂ grow attending₂ => ?_
  have bindable₂ : Bindable t x.token.1 D w₂ := by
    refine bindable.imp (grow _ _) fun inserted => ?_
    exact ((exec_inserted run).2 id).trans (beside.inserted.trans inserted)
  cases done with
  | none => exact safe_attending attending₂
  | some =>
    intro w₃ beside₃ bindings₃ bound w₄ run₃
    have run₃ : agentExec t (.sql (.query (.bindToken D x.token.1))) w₃ bound w₄ := run₃
    have bindings₄ := (exec_noted run₃ bindings₃).1
    refine ⟨bindings₄, ⟨exec_beside run₃ bindings₃, bind_step run₃ (bindable₂.beside beside₃)⟩, ?_⟩
    have idle : w₄.store.session t = none :=
      exec_opens (a := false) run₃ (fun _ => beside₃.moves.session.trans (attending₂.closed rfl)) rfl
    have attending₄ : Attending t false w₄ := ⟨bindings₄.locked, .closed (fun _ => Bound.refl) idle, fun _ => idle⟩
    cases bound with
    | none => exact safe_attending attending₄
    | some =>
      refine safe_op_attending attending₄ nofun fun done _ w₅ _ _ _ _ attending₅ => ?_
      cases done with
      | none => exact safe_attending attending₅
      | some => exact safe_attending attending₅

/-- The inventory ends with the binding of the device that it knows or has inserted. -/
theorem safe_inventory_end {x : Checkin} {next : Option Nat} (attending : Attending t true w)
    (bindable : ∀ D, next = some D → Bindable t x.token.1 D w) :
    (bindingTeam.rules t).Safe (fun _ => Attending t false) (match next with
      | none => abort .threw
      | some deviceId => do
        match ← within .elsewhere with
        | none => abort .threw
        | some () => if ← perform (.commit .inventory) then finishCheckin x deviceId else abort .threw) w := by
  cases next with
  | none => exact safe_abort_attending attending
  | some D =>
    have step : ∀ {o : AgentOp} {answer : o.Res} {w w₁ w₂ : AgentWorld}, ¬Inserting o → Beside t w w₁ →
        agentExec t o w₁ answer w₂ → (∀ T D, D ∈ w.bindings T → D ∈ w₂.bindings T) → Bindable t x.token.1 D w →
        Bindable t x.token.1 D w₂ := by
      intro o answer w w₁ w₂ other beside run grow bindable
      exact bindable.imp (grow _ _) fun inserted => ((exec_inserted run).2 other).trans (beside.inserted.trans inserted)
    refine safe_op_attending attending nofun fun done w₁ w₂ beside run _ grow attending₂ => ?_
    have bindable₂ := step id beside run grow (bindable D rfl)
    cases done with
    | none => exact safe_abort_attending attending₂
    | some =>
      refine safe_op_attending attending₂ nofun fun committed w₃ w₄ beside₃ run₃ _ grow₃ attending₄ => ?_
      have bindable₄ := step id beside₃ run₃ grow₃ bindable₂
      cases committed with
      | false => exact safe_abort_attending attending₄
      | true => exact safe_finishCheckin_binding attending₄ bindable₄

theorem inserted_step {hostname : Text} {serial : Option Text} {answer : Option Nat}
    (run : agentExec t (.sql (.within (.insertDevice hostname serial))) w answer w₁) : w₁.inserted t = answer := by
  obtain ⟨store, -, rfl⟩ := run
  exact Function.update_self ..

theorem safe_inventory_binding {x : Checkin} {known : Option DeviceRow} (attending : Attending t false w)
    (bound : ∀ device, known = some device → device.1 ∈ w.bindings x.token.1) :
    (bindingTeam.rules t).Safe (fun _ => Attending t false) (inventory x known) w := by
  refine safe_op_attending attending nofun fun begun w₁ w₂ beside run _ grow attending₂ => ?_
  cases begun with
  | false => exact safe_abort_attending attending₂
  | true =>
    cases known with
    | none =>
      refine safe_op_attending attending₂ nofun fun deviceId w₃ w₄ _ run₃ _ _ attending₄ => ?_
      refine safe_inventory_end attending₄ fun D same => .inr ?_
      rw [inserted_step run₃]
      exact same
    | some device =>
      refine safe_op_attending attending₂ nofun fun updated w₃ w₄ _ run₃ _ grow₃ attending₄ => ?_
      refine safe_inventory_end attending₄ fun D same => .inl ?_
      obtain ⟨-, -, rfl⟩ := Option.map_eq_some_iff.mp same
      exact grow₃ _ _ (grow _ _ (bound device rfl))

/-- The token is bound to the device in what its transaction sees, and locked. -/
structure Claims (t T D : Nat) (w : AgentWorld) : Prop where
  locked : agentSchema.Locked w.store
  mine : w.store.owner (.token T) = some t
  view : (agentSchema.view w.store t).deviceOf T = some D
  opened : ∃ changes, w.store.session t = some ⟨changes, false⟩

theorem Claims.beside (claims : Claims t T D w) (beside : Beside t w w₁) (bindings : Bindings w₁) : Claims t T D w₁ where
  locked := bindings.locked
  mine := beside.moves.owner _ claims.mine
  view := by
    have same : tokenCells.part T (agentSchema.view w₁.store t) = tokenCells.part T (agentSchema.view w.store t) :=
      (Schema.Cells.locked_of_moves beside.moves claims.locked claims.mine).2
    exact (congrArg (fun row : Option AgentToken => row.bind (·.deviceId)) same).trans claims.view
  opened := by
    rw [beside.moves.session]
    exact claims.opened

/-- The conditional UPDATE has met the token. -/
theorem claim_step {n : Nat} (run : agentExec t (.sql (.within (.claimToken D T))) w (some (n + 1)) w₁)
    (bindings : Bindings w) : Claims t T D w₁ := by
  obtain ⟨draw, out, within⟩ := exec_within run
  cases within.ran
  obtain ⟨changes, -, opened⟩ := within.opened
  let p : Nat → AgentToken → Bool := fun id row => id = T && (row.deviceId = none || row.deviceId = some D)
  have some_ : 0 < ((agentSchema.view w.store t).tokens.update p (.bind D draw.now)).length := by
    have count : n + 1 = (((agentSchema.view w.store t).tokens.update p (.bind D draw.now)).map Prod.fst).length :=
      within.answered
    rw [List.length_map] at count
    omega
  obtain ⟨⟨id, row₁⟩, member⟩ := List.exists_mem_of_length_pos some_
  obtain ⟨row, stored, satisfied, rfl⟩ := Table.mem_update.mp member
  have target : id = T := of_decide_eq_true (Bool.and_eq_true_iff.mp satisfied).1
  subst target
  refine ⟨(exec_others run bindings.locked).1, within.owner _ ?_, ?_, _, opened⟩
  · refine Schema.mem_needs (c := .token id (row.bind D draw.now)) ?_ List.mem_cons_self
    exact List.mem_map_of_mem (f := fun e : TokenRow => AgentChange.token e.1 e.2) member
  · have seen := tokens_updateTokens (agentSchema.view w.store t) p (.bind D draw.now) id
    rw [stored, Option.map_some, if_pos satisfied] at seen
    rw [AgentDb.deviceOf, within.view]
    exact congrArg (fun row : Option AgentToken => row.bind (·.deviceId)) seen

/-- The other tokens of the device are revoked. -/
theorem Claims.revoked {keep : Option Nat} {ids : List Nat} {deviceId : Nat} (claims : Claims t T D w)
    (run : agentExec t (.sql (.within (.revokeUnused deviceId keep))) w (some ids) w₁) (bindings : Bindings w) :
    Claims t T D w₁ := by
  obtain ⟨draw, out, within⟩ := exec_within run
  obtain ⟨changes, -, opened⟩ := within.opened
  refine ⟨(exec_others run bindings.locked).1, owner_within run claims.mine, ?_, _, opened⟩
  rw [AgentDb.deviceOf, within.view]
  exact (run_token within.ran T).bound nofun D claims.view

/-- The COMMIT of the claim: the token is bound to the device. -/
theorem Claims.committed (claims : Claims t T D w) (run : agentExec t (.commit .claim) w true w₁) (bindings : Bindings w) :
    D ∈ w₁.bindings T := by
  obtain ⟨changes, opened⟩ := claims.opened
  refine (exec_noted run bindings).1.noted T D ?_
  obtain ⟨changes', opened', rfl⟩ | ⟨failed, -⟩ := run
  · cases opened.symm.trans opened'
    have view := claims.view
    rw [Schema.view_of_session opened] at view
    exact view
  · cases failed changes opened

theorem safe_checkDeviceClaim_binding {opened : Bool} {device : DeviceRow} {serial : Option Text}
    {excludeTokenId : Option Nat} {next : Option (Option ClaimRefusal) → Agent α} (attending : Attending t opened w)
    (resume : ∀ answer w₁, Attending t opened w₁ → (bindingTeam.rules t).Safe post (next answer) w₁) :
    (bindingTeam.rules t).Safe post (checkDeviceClaim fns device serial excludeTokenId >>= next) w := by
  unfold checkDeviceClaim
  cases serialRefusal fns device.2 serial with
  | some refusal => exact resume _ w attending
  | none =>
    refine safe_op_attending attending nofun fun answer w₁ w₂ _ _ _ _ attending => ?_
    cases answer with
    | none => exact resume _ w₂ attending
    | some token => exact resume _ w₂ attending

theorem safe_refuseClaim_binding {opened : Bool} {x : Checkin} {device : DeviceRow} {refusal : ClaimRefusal}
    (attending : Attending t opened w) :
    (bindingTeam.rules t).Safe (fun _ => Attending t false) (refuseClaim x device refusal) w := by
  refine safe_op_attending attending nofun fun committed w₁ w₂ _ _ _ _ attending => ?_
  cases committed with
  | false => exact safe_abort_attending attending
  | true => exact safe_op_attending attending nofun fun _ _ _ _ _ _ _ attending => safe_attending attending

/-- From the UPDATE that binds the token to its COMMIT. -/
theorem safe_claimed_binding {x : Checkin} {device : DeviceRow} (attending : Attending t true w)
    (claims : Claims t x.token.1 device.1 w) :
    (bindingTeam.rules t).Safe (fun _ => Attending t false) (do
      match ← within (.revokeUnused device.1 (some x.token.1)) with
      | none => abort .threw
      | some revokedUnused =>
        if ← perform (.commit .claim) then
          perform (.evictTokens revokedUnused)
          perform (.logAudit (.agent_token_bound x.hostname device.1 x.token.1 x.serial revokedUnused.length))
          inventory x (some device)
        else abort .threw) w := by
  intro w₁ beside bindings revoked w₂ run
  have run : agentExec t (.sql (.within (.revokeUnused device.1 (some x.token.1)))) w₁ revoked w₂ := run
  obtain ⟨bindings₂, kept, attending₂⟩ := (attending.beside beside bindings).exec bindings run nofun
  refine ⟨bindings₂, ⟨exec_beside run bindings, .inl kept⟩, ?_⟩
  cases revoked with
  | none => exact safe_abort_attending attending₂
  | some revoked =>
    have claims₂ := (claims.beside beside bindings).revoked run bindings
    intro w₃ beside₃ bindings₃ ok w₄ run₃
    have run₃ : agentExec t (.commit .claim) w₃ ok w₄ := run₃
    obtain ⟨bindings₄, kept₄, attending₄⟩ := (attending₂.beside beside₃ bindings₃).exec bindings₃ run₃ nofun
    refine ⟨bindings₄, ⟨exec_beside run₃ bindings₃, .inl kept₄⟩, ?_⟩
    cases ok with
    | false => exact safe_abort_attending attending₄
    | true =>
      have bound := (claims₂.beside beside₃ bindings₃).committed run₃ bindings₃
      refine safe_op_attending attending₄ nofun fun _ w₅ w₆ _ _ _ grow₆ attending₆ => ?_
      refine safe_op_attending attending₆ nofun fun _ w₇ w₈ _ _ _ grow₈ attending₈ => ?_
      refine safe_inventory_binding attending₈ fun known same => ?_
      cases same
      exact grow₈ _ _ (grow₆ _ _ bound)

theorem safe_claimDevice_binding {x : Checkin} {device : DeviceRow} (attending : Attending t false w) :
    (bindingTeam.rules t).Safe (fun _ => Attending t false) (claimDevice fns x device) w := by
  refine safe_op_attending attending nofun fun begun w₁ w₂ _ _ _ _ attending => ?_
  cases begun with
  | false => exact safe_abort_attending attending
  | true =>
    refine safe_op_attending attending nofun fun locked w₃ w₄ _ _ _ _ attending => ?_
    cases locked with
    | none => exact safe_abort_attending attending
    | some locked =>
      refine safe_checkDeviceClaim_binding attending fun claim w₅ attending => ?_
      rcases claim with _ | _ | refusal
      · exact safe_abort_attending attending
      · intro w₆ beside bindings bound w₇ run
        have run : agentExec t (.sql (.within (.claimToken device.1 x.token.1))) w₆ bound w₇ := run
        obtain ⟨bindings₇, kept, attending₇⟩ := (attending.beside beside bindings).exec bindings run nofun
        refine ⟨bindings₇, ⟨exec_beside run bindings, .inl kept⟩, ?_⟩
        rcases bound with _ | _ | n
        · exact safe_abort_attending attending₇
        · exact safe_abort_attending attending₇
        · exact safe_claimed_binding attending₇ (claim_step run bindings)
      · exact safe_refuseClaim_binding attending

theorem safe_lookup_binding {x : Checkin} {next : Option (Option DeviceRow) → Agent α} (attending : Attending t false w)
    (resume : ∀ answer w₁, (∀ T D, D ∈ w.bindings T → D ∈ w₁.bindings T) → Attending t false w₁ →
      (bindingTeam.rules t).Safe post (next answer) w₁) :
    (bindingTeam.rules t).Safe post (lookup x >>= next) w := by
  unfold lookup
  cases x.serial with
  | none => exact safe_op_attending attending nofun fun answer _ w₂ _ _ _ grow attending => resume answer w₂ grow attending
  | some serial =>
    refine safe_op_attending attending nofun fun found _ w₂ _ _ _ grow attending => ?_
    rcases found with _ | _ | device
    · exact resume _ w₂ grow attending
    · refine safe_op_attending attending nofun fun answer _ w₄ _ _ _ grow₄ attending => ?_
      exact resume answer w₄ (fun T D member => grow₄ T D (grow T D member)) attending
    · exact resume _ w₂ grow attending

theorem safe_checkinDevice_binding {x : Checkin} (attending : Attending t false w)
    (known : ∀ D, x.token.2.deviceId = some D → D ∈ w.bindings x.token.1) :
    (bindingTeam.rules t).Safe (fun _ => Attending t false) (checkinDevice fns x) w := by
  refine safe_lookup_binding attending fun found w₁ grow attending => ?_
  rcases found with _ | _ | device
  · exact safe_attending attending
  · exact safe_inventory_binding attending nofun
  · dsimp only
    split
    case h_1 bound same =>
      split
      case isTrue => exact safe_attending attending
      case isFalse own =>
        refine safe_inventory_binding attending fun row here => ?_
        cases here
        rw [Decidable.not_not.mp own]
        exact grow _ _ (known bound same)
    case h_2 => exact safe_claimDevice_binding attending

/-- The device of a token that `authToken` answers is noted. -/
theorem authToken_bound {hash : Text} {row : TokenRow}
    (run : agentExec t (.sql (.query (.authToken hash))) w (some (some row)) w₁) (bindings₁ : Bindings w₁) :
    ∀ D, row.2.deviceId = some D → D ∈ w₁.bindings row.1 := by
  intro D bound
  refine bindings₁.noted row.1 D ?_
  obtain ⟨store, ran, rfl⟩ := run
  obtain ⟨draw, out, done, -, answered, rfl⟩ | ⟨never, -⟩ := ran
  case inr => cases never
  cases done
  have stored := (Table.mem_select.mp (List.mem_of_mem_head? (Option.some.inj answered).symm)).1
  change w.store.committed.deviceOf row.1 = some D
  rw [AgentDb.deviceOf, stored]
  exact bound

theorem safe_checkin_binding {plain hostname serial : Option Text} (attending : Attending t false w) :
    (bindingTeam.rules t).Safe (fun _ => Attending t false) (checkin fns plain hostname serial) w := by
  cases plain with
  | none => exact safe_attending attending
  | some plain =>
    refine safe_op_attending (o := .sql (.query (.authToken (fns.hashToken plain)))) attending nofun
      fun answer w₁ w₂ _ run bindings₂ _ attending => ?_
    rcases answer with _ | _ | token
    · exact safe_attending attending
    · exact safe_attending attending
    · have known := authToken_bound run bindings₂
      dsimp only
      cases hostname.filter (· ≠ []) with
      | none => exact safe_attending attending
      | some hostname =>
        refine safe_op_attending attending nofun fun done w₃ w₄ _ _ _ grow attending => ?_
        cases done with
        | none => exact safe_attending attending
        | some => exact safe_checkinDevice_binding attending fun D same => grow _ _ (known D same)

theorem safe_route_binding {route : Agent AgentReply} (allowed : Route fns route) (attending : Attending t false w) :
    (bindingTeam.rules t).Safe (fun _ => Attending t false) route w := by
  have other : ∀ kind (program : Agent AgentReply), Orderly kind false false program → kind ≠ .binds →
      (bindingTeam.rules t).Safe (fun _ => Attending t false) program w :=
    fun _ _ orderly apart => safe_orderly_binding orderly apart attending
  cases allowed with
  | checkin => exact safe_checkin_binding attending
  | rotate => exact other _ _ orderly_rotateToken nofun
  | exchange => exact other _ _ orderly_exchangeToken nofun
  | authenticated => exact other .rotates _ orderly_authenticatedRoute nofun
  | revoke => exact other .rotates _ orderly_revokeToken nofun
  | create => exact other .rotates _ orderly_createToken nofun

theorem agents_binding (fns : AgentFns) : (agents fns).Verified bindingTeam where
  exec run := run
  env {w w₁} bindings moves := by
    obtain ⟨change, foreign, free, rfl⟩ := moves
    obtain ⟨grow, noted⟩ := move_noted w (agentSchema.publish [change] w.store)
    refine ⟨⟨bindings.locked.publish _, noted⟩, fun u => ⟨?_, grow, rfl⟩⟩
    refine Schema.moves_publish (fun _ _ => trivial) fun c member k needed owns => ?_
    cases List.mem_singleton.mp member
    rw [free k needed] at owns
    cases owns
  entry {program t w} allowed bindings idle := by
    obtain ⟨route, named, rfl⟩ := allowed
    have attending : Attending t false w := ⟨bindings.locked, .closed (fun _ => Bound.refl) idle, fun _ => idle⟩
    refine (safe_route_binding named attending).bind bindings fun reply w₁ _ attending => ?_
    have sent : (bindingTeam.rules t).Safe (fun _ => Attending t false) (perform (.send reply)) w₁ :=
      safe_op_attending attending nofun fun _ _ _ _ _ _ _ attending => safe_attending attending
    exact sent.weaken fun _ _ _ attending => attending.closed rfl
  drop {t w} bindings := by
    obtain ⟨grow, noted⟩ := move_noted w (w.store.close t)
    exact ⟨⟨bindings.locked.close t, noted⟩, fun w₁ beside _ => beside.moves.session.trans Schema.session_close,
      fun u other => ⟨Schema.moves_close other, grow, rfl⟩⟩

theorem agents_bound (w : AgentWorld) (start : AgentStart w) :
    Bindings w ∧ ∀ t w₁, Beside t w w₁ → Bindings w₁ → w₁.store.session t = none := by
  obtain ⟨db, rfl⟩ := start
  refine ⟨⟨Schema.locked_start db, fun T D bound => ?_⟩, fun t w₁ beside _ => beside.moves.session⟩
  change D ∈ (db.deviceOf T).toList
  rw [show db.deviceOf T = some D from bound]
  exact List.mem_singleton.mpr rfl

/-- Along every run: a token that is bound to a device is bound to another one only by the last
UPDATE of a check-in, and only to a device that this check-in has inserted, or that the token has
been bound to before. -/
theorem binding_kept {c c₁ : Threads.Config AgentOp.Res AgentWorld} (reach : (agents fns).Reach AgentStart c)
    (step : (agents fns).Step c c₁) (T A B : Nat) (before : c.world.store.committed.deviceOf T = some A)
    (after : c₁.world.store.committed.deviceOf T = some B) :
    B = A ∨ ∃ t rest, c.runs t = .op (.sql (.query (.bindToken B T))) rest ∧
      (c.world.inserted t = some B ∨ B ∈ c.world.bindings T) := by
  have same : Bound c.world.store.committed.tokens[T]? c₁.world.store.committed.tokens[T]? → B = A := fun bound =>
    Option.some.inj (after.symm.trans (bound A before))
  cases step with
  | start => exact .inl (same (.refl _))
  | die => exact .inl (same (.refl _))
  | env moves =>
    obtain ⟨change, foreign, -, rfl⟩ := moves
    exact .inl (same (foreign.bound T))
  | @op w runs o rest answer w₁ t next run =>
    obtain kept | ⟨D, T', rfl, bindable, bound, others⟩ := reach.guarantee (agents_binding fns) agents_bound next run
    · exact .inl (same (kept T))
    · by_cases target : T = T'
      · subst target
        rcases bound with unchanged | changed
        · exact .inl (Option.some.inj (after.symm.trans (unchanged.trans before)))
        · cases after.symm.trans changed
          exact .inr ⟨t, rest, next, bindable.symm⟩
      · exact .inl (same (others T target))

/-! A machine that is renamed, and sends no serial. -/

def demoBound : AgentDb := ⟨(∅ : Table _).insert 1 (demoToken.bind 5 1000), (∅ : Table _).insert 5 ⟨"old".toList, none, none⟩, 1000⟩

def demoRenamed : Agent AgentReply := checkin demoFns (some (demoPlain '1')) (some "new".toList) none

theorem demo_rebound : ∃ c c₁ : Threads.Config AgentOp.Res AgentWorld, (agents demoFns).Reach AgentStart c ∧
    (agents demoFns).Step c c₁ ∧ c.world.store.committed.deviceOf 1 = some 5 ∧
    c₁.world.store.committed.deviceOf 1 = some 6 := by
  have r : (agents demoFns).Reach AgentStart ⟨⟨.start demoBound, [], fun token => (demoBound.deviceOf token).toList,
    fun _ => none, fun _ => none⟩, fun _ => .ret ()⟩ := .init ⟨_, rfl⟩
  have r := r.begins 0 (request demoRenamed) rfl ⟨_, .checkin, rfl⟩
  have r := r.perform 0 rfl (some (some (1, demoToken.bind 5 1000))) _
    ⟨_, .inl ⟨⟨1000, 0⟩, _, rfl, fun _ => nofun, rfl, rfl⟩, rfl⟩
  have r := r.perform 0 rfl (some ()) _ ⟨_, .inl ⟨⟨1000, 0⟩, _, rfl, fun _ => nofun, rfl, rfl⟩, rfl⟩
  have r := r.perform 0 rfl (some none) _ ⟨_, .inl ⟨⟨1000, 0⟩, _, rfl, fun _ => nofun, rfl, rfl⟩, rfl⟩
  have r := r.perform 0 rfl true _ ⟨_, .inl ⟨rfl, rfl⟩, rfl⟩
  have r := r.perform 0 rfl (some (6 : Nat)) _ ⟨_, .inl ⟨⟨1000, 6⟩, _, rfl, fun _ _ => .inl rfl, rfl, rfl⟩, rfl⟩
  have r := r.perform 0 rfl (some ()) _ ⟨_, .inl ⟨⟨1000, 0⟩, _, rfl, fun _ => nofun, rfl, rfl⟩, rfl⟩
  have r := r.perform 0 rfl true _ (.inl ⟨_, rfl, rfl⟩)
  have r := r.perform 0 rfl (some ()) _ ⟨_, .inl ⟨⟨1000, 0⟩, _, rfl, fun _ => nofun, rfl, rfl⟩, rfl⟩
  exact ⟨_, _, r, @Threads.Step.op _ _ _ (agents demoFns) _ _ _ _ (some ()) _ 0 rfl
    ⟨_, .inl ⟨⟨1000, 0⟩, _, rfl, List.forall_mem_singleton.mpr (.inl rfl), rfl, rfl⟩, rfl⟩, rfl, rfl⟩

theorem binding_kept_renamed : ∃ c c₁ : Threads.Config AgentOp.Res AgentWorld,
    c₁.world.store.committed.deviceOf 1 = some 6 ∧
    ((6 : Nat) = 5 ∨ ∃ t rest, c.runs t = .op (.sql (.query (.bindToken 6 1))) rest ∧
      (c.world.inserted t = some 6 ∨ 6 ∈ c.world.bindings 1)) := by
  obtain ⟨c, c₁, reach, step, before, after⟩ := demo_rebound
  exact ⟨c, c₁, after, binding_kept reach step 1 5 6 before after⟩

/-- The check-in inserts a device, and binds the token to it. -/
theorem renamed_rebinds : ¬∀ c c₁ : Threads.Config AgentOp.Res AgentWorld, (agents demoFns).Reach AgentStart c →
    (agents demoFns).Step c c₁ → ∀ T A B, c.world.store.committed.deviceOf T = some A →
      c₁.world.store.committed.deviceOf T = some B → B = A := by
  intro once
  obtain ⟨c, c₁, reach, step, before, after⟩ := demo_rebound
  cases once c c₁ reach step 1 5 6 before after

end Opale.Agents
