import Opale.Agents.Discipline

namespace Opale.Agents

open Sql

variable {fns : AgentFns} {t u : Nat} {w w₁ : AgentWorld} {o : AgentOp} {answer : o.Res} {st : AgentStore}

def tokenCells : agentSchema.Cells Nat (Option AgentToken) where
  part id db := db.tokens[id]?
  lock := .token
  frame {id c} outside db := by
    cases c with
    | token other row =>
      refine Table.getElem?_put_of_ne _ ?_ _
      rintro rfl
      exact outside List.mem_cons_self
    | device | clock => rfl

def clockCell : agentSchema.Cells Unit Int where
  part _ db := db.clock
  lock _ := .clock
  frame {_ c} outside db := by
    cases c with
    | clock now => exact absurd List.mem_cons_self outside
    | token | device => rfl

@[simp] theorem move_store (w : AgentWorld) (st : AgentStore) : (w.move st).store = st := rfl

@[simp] theorem move_history (w : AgentWorld) (st : AgentStore) : (w.move st).history = w.history := rfl

@[simp] theorem move_inserted (w : AgentWorld) (st : AgentStore) : (w.move st).inserted = w.inserted := rfl

@[simp] theorem move_spent (w : AgentWorld) (st : AgentStore) : (w.move st).spent = w.spent := rfl

/-- Every operation leaves the store alone, or is one of the store. -/
theorem exec_store (run : agentExec t o w answer w₁) : w₁.store = w.store ∨
    ∃ (so : SqlOp AgentStmt) (reply : so.Res AgentStmt.Ans), agentSchema.exec t so w.store reply w₁.store ∧
      (o = .sql so ∨ so = .commit ∧ ∃ work, o = .commit work) := by
  cases o with
  | sql so =>
    obtain ⟨store, ran, rfl⟩ := run
    exact .inr ⟨so, answer, ran, .inl rfl⟩
  | commit work =>
    refine .inr ⟨.commit, ?_⟩
    obtain ⟨changes, opened, rfl⟩ | ⟨failed, rfl⟩ := run
    · exact ⟨true, (Schema.exec_commit opened).mpr (.inl rfl), .inr ⟨rfl, work, rfl⟩⟩
    · refine ⟨answer, ?_, .inr ⟨rfl, work, rfl⟩⟩
      simp only [Schema.exec]
      split
      case h_1 changes opened => exact .inr ⟨failed changes opened, rfl⟩
      case h_2 => rfl
  | dateNow =>
    cases run.2
    exact .inl rfl
  | randomToken | evictTokens _ | logAudit _ | send _ =>
    cases run
    exact .inl rfl

/-- What an operation of `t` is to the other requests. -/
theorem exec_others (run : agentExec t o w answer w₁) (locked : agentSchema.Locked w.store) :
    agentSchema.Locked w₁.store ∧ ∀ u, u ≠ t → agentSchema.Moves (fun _ => True) u w.store w₁.store := by
  obtain same | ⟨so, reply, ran, -⟩ := exec_store run
  · rw [same]
    exact ⟨locked, fun u _ => .refl _ u _⟩
  · exact Schema.exec_moves locked ran

variable {R : Option AgentToken → Option AgentToken → Prop}

/-- A relation of the rows of `agent_tokens` that the statement of an operation keeps. -/
theorem exec_pending (run : agentExec t o w answer w₁) (locked : agentSchema.Locked w.store)
    (refl : ∀ row, R row row) (trans : ∀ a b c, R a b → R b c → R a c)
    (kept : ∀ s, o = .sql (.query s) ∨ o = .sql (.within s) → ∀ id a b, TokenStep s id a b → R a b)
    (pending : tokenCells.Pending (fun _ => R) t w.store) :
    tokenCells.Pending (fun _ => R) t w₁.store ∧
      ∀ id : Nat, R w.store.committed.tokens[id]? w₁.store.committed.tokens[id]? := by
  obtain same | ⟨so, reply, ran, named⟩ := exec_store run
  · rw [same]
    exact ⟨pending, fun id => refl _⟩
  · refine pending.exec locked (fun _ => refl) (fun _ => trans) (fun s asked draw db out done id => ?_) ran
    have statement : o = .sql (.query s) ∨ o = .sql (.within s) := by
      obtain rfl | ⟨rfl, -⟩ := named
      · exact asked.imp (congrArg AgentOp.sql) (congrArg AgentOp.sql)
      · rcases asked with never | never <;> cases never
    exact kept s statement id _ _ (run_token done id)

/-- The same for all requests at once, when no statement breaks the relation. -/
theorem exec_pending_all (run : agentExec t o w answer w₁) (locked : agentSchema.Locked w.store)
    (refl : ∀ row, R row row) (trans : ∀ a b c, R a b → R b c → R a c)
    (kept : ∀ s id a b, TokenStep s id a b → R a b)
    (pending : ∀ u, tokenCells.Pending (fun _ => R) u w.store) :
    (∀ u, tokenCells.Pending (fun _ => R) u w₁.store) ∧
      ∀ id : Nat, R w.store.committed.tokens[id]? w₁.store.committed.tokens[id]? := by
  obtain ⟨mine, committed⟩ := exec_pending run locked refl trans (fun s _ => kept s) (pending t)
  refine ⟨fun u => ?_, committed⟩
  by_cases same : u = t
  · rw [same]
    exact mine
  · exact (pending u).moves locked ((exec_others run locked).2 u same) fun _ _ => refl

/-- No request has set the clock. -/
def Timeless (st : AgentStore) : Prop := ∀ u, clockCell.Pending (fun _ => Eq) u st

theorem exec_clock (run : agentExec t o w answer w₁) (locked : agentSchema.Locked w.store) (timeless : Timeless w.store) :
    Timeless w₁.store ∧ w₁.store.committed.clock = w.store.committed.clock := by
  obtain same | ⟨so, reply, ran, -⟩ := exec_store run
  · rw [same]
    exact ⟨timeless, rfl⟩
  · have kept : ∀ (s : AgentStmt) draw db out, agentSchema.run s draw db = some out →
        ∀ _ : Unit, db.clock = (agentSchema.applyAll out.changes db).clock := fun _ _ _ _ done _ => (run_clock done).symm
    obtain ⟨timeless₁, same⟩ := Schema.Cells.Pending.exec_all timeless locked (fun _ _ => rfl) (fun _ _ _ _ => Eq.trans)
      kept ran
    exact ⟨timeless₁, (same ()).symm⟩

/-- A request whose transaction is over has none open. -/
theorem exec_opens {a : Bool} (run : agentExec t o w answer w₁) (closed : a = false → w.store.session t = none)
    (ended : opens a o = false) : w₁.store.session t = none := by
  cases o with
  | commit work =>
    obtain ⟨changes, -, rfl⟩ | ⟨-, rfl⟩ := run
    · exact Schema.session_close
    · exact Schema.session_close
  | dateNow =>
    cases run.2
    exact closed ended
  | randomToken | evictTokens _ | logAudit _ | send _ =>
    cases run
    exact closed ended
  | sql so =>
    obtain ⟨store, ran, rfl⟩ := run
    cases so with
    | begin => cases ended
    | query s =>
      obtain ⟨draw, out, -, -, -, rfl⟩ | ⟨-, rfl⟩ := ran
      · exact closed ended
      · exact closed ended
    | within s =>
      simp only [Schema.exec, closed ended] at ran
      rw [move_store, ran.2]
      exact closed ended
    | commit =>
      simp only [Schema.exec] at ran
      split at ran
      · obtain rfl | ⟨-, rfl⟩ := ran
        · exact Schema.session_close
        · exact Schema.session_close
      · cases ran
        exact Schema.session_close
    | rollback =>
      cases ran
      exact Schema.session_close

/-- What a statement of a transaction answers and makes of what the transaction sees. -/
structure Within (t : Nat) (s : AgentStmt) (w : AgentWorld) (answer : s.Ans) (w₁ : AgentWorld) (draw : AgentDraw)
    (out : AgentOutcome s.Ans) : Prop where
  ran : s.run draw (agentSchema.view w.store t) = some out
  answered : answer = out.answer
  opened : ∃ changes, w.store.session t = some ⟨changes, false⟩ ∧
    w₁.store.session t = some ⟨changes ++ out.changes, false⟩
  committed : w₁.store.committed = w.store.committed
  view : agentSchema.view w₁.store t = agentSchema.applyAll out.changes (agentSchema.view w.store t)
  owner : ∀ k ∈ agentSchema.needs out, w₁.store.owner k = some t

theorem exec_within {s : AgentStmt} {answer : s.Ans} (run : agentExec t (.sql (.within s)) w (some answer) w₁) :
    ∃ draw out, Within t s w answer w₁ draw out := by
  obtain ⟨store, ran, rfl⟩ := run
  simp only [Schema.exec] at ran
  split at ran
  case h_2 => cases ran.1
  case h_1 changes opened =>
    obtain ⟨draw, out, done, free, answered, rfl⟩ | ⟨never, -⟩ := ran
    case inr => cases never
    exact ⟨draw, out, done, Option.some.inj answered, ⟨changes, opened, Schema.session_write opened⟩, rfl,
      Schema.view_write opened, fun k needed => if_pos needed⟩

/-- A statement of a transaction gives no lock back. -/
theorem owner_within {s : AgentStmt} {answer : Option s.Ans} (run : agentExec t (.sql (.within s)) w answer w₁)
    {k : AgentLock} (mine : w.store.owner k = some t) : w₁.store.owner k = some t := by
  obtain ⟨store, ran, rfl⟩ := run
  simp only [Schema.exec] at ran
  split at ran
  · obtain ⟨_, _, _, _, _, rfl⟩ | ⟨-, rfl⟩ := ran
    · exact Schema.owner_write (.inl mine)
    · exact mine
  · rw [move_store, ran.2]
    exact mine

theorem exec_begin (run : agentExec t (.sql .begin) w true w₁) (idle : w.store.session t = none) :
    w₁.store.session t = some ⟨[], false⟩ := by
  obtain ⟨store, ⟨-, rfl⟩ | ⟨never, -⟩, rfl⟩ := run
  · exact Schema.session_openTx idle
  · cases never

/-- What an operation adds to the history. -/
inductive Noted (t : Nat) (o : AgentOp) (w w₁ : AgentWorld) : AgentEvent → Prop
  | authenticated {hash id row} : o = .sql (.query (.authToken hash)) → w.store.committed.tokens[id]? = some row →
      row.accepted w.store.committed = true → Noted t o w w₁ (.authenticated t id w.store.committed.clock)
  | revoked {id row} : o = .sql (.query (.revokeToken id)) → w₁.store.committed.tokens[id]? = some row →
      row.revokedAt ≠ none → Noted t o w w₁ (.revoked id)
  | rotated {id newId changes} : o = .commit (.rotation id newId) → w.store.session t = some ⟨changes, false⟩ →
      w₁.store = (agentSchema.publish changes w.store).close t →
      Noted t o w w₁ (.rotated t id newId w.store.committed.clock)
  | replied {reply} : o = .send reply → Noted t o w w₁ (.replied t reply (w.spent t))

/-- At most one event is added to the history. -/
theorem exec_history (run : agentExec t o w answer w₁) :
    w₁.history = w.history ∨ ∃ e, w₁.history = e :: w.history ∧ Noted t o w w₁ e := by
  cases o with
  | dateNow =>
    cases run.2
    exact .inl rfl
  | randomToken | evictTokens _ | logAudit _ =>
    cases run
    exact .inl rfl
  | send reply =>
    cases run
    exact .inr ⟨_, rfl, .replied rfl⟩
  | commit work =>
    obtain ⟨changes, opened, rfl⟩ | ⟨-, rfl⟩ := run
    case inr => exact .inl rfl
    cases work with
    | rotation id newId => exact .inr ⟨_, rfl, .rotated rfl opened rfl⟩
    | exchange | claim | inventory => exact .inl rfl
  | sql so =>
    obtain ⟨store, ran, rfl⟩ := run
    cases so with
    | begin | commit | rollback => exact .inl rfl
    | within s => cases s <;> exact .inl rfl
    | query s =>
      obtain ⟨draw, out, done, -, rfl, rfl⟩ | ⟨rfl, rfl⟩ := ran
      case inr => cases s <;> exact .inl rfl
      cases s with
      | authToken hash =>
        cases done
        cases found : (w.store.committed.tokens.select fun _ row =>
          row.tokenHash = hash && row.accepted w.store.committed).head? with
        | none =>
          refine .inl ?_
          simp [AgentWorld.note]
        | some found₁ =>
          obtain ⟨stored, satisfied⟩ := Table.mem_select.mp (List.mem_of_mem_head? found)
          rw [Bool.and_eq_true] at satisfied
          refine .inr ⟨_, ?_, .authenticated rfl stored satisfied.2⟩
          simp [AgentWorld.note]
      | revokeToken id =>
        cases done
        cases found : w.store.committed.tokens[id]?.filter fun row => row.revokedAt = none with
        | none =>
          refine .inl ?_
          simp [AgentWorld.note, answering]
        | some row =>
          obtain ⟨stored, unrevoked⟩ := Option.filter_eq_some_iff.mp found
          have after := tokens_updateTokens w.store.committed (fun other row => other = id && row.revokedAt = none)
            (.revoke w.store.committed.clock) id
          rw [stored, Option.map_some, if_pos (by simpa using unrevoked)] at after
          refine .inr ⟨.revoked id, ?_, .revoked rfl after nofun⟩
          simp [AgentWorld.note, answering]
      | _ => exact .inl rfl

/-- What is committed stays, but for a query and a COMMIT. -/
theorem exec_committed (run : agentExec t o w answer w₁) (queries : ∀ s, o ≠ .sql (.query s))
    (commits : o ≠ .sql .commit) (works : ∀ work, o ≠ .commit work) : w₁.store.committed = w.store.committed := by
  cases o with
  | commit work => exact absurd rfl (works work)
  | dateNow =>
    cases run.2
    rfl
  | randomToken | evictTokens _ | logAudit _ | send _ =>
    cases run
    rfl
  | sql so =>
    obtain ⟨store, ran, rfl⟩ := run
    cases so with
    | query s => exact absurd rfl (queries s)
    | commit => exact absurd rfl commits
    | rollback =>
      cases ran
      rfl
    | begin =>
      obtain ⟨-, rfl⟩ | ⟨-, rfl⟩ := ran
      · rw [move_store, Store.openTx]
        split <;> rfl
      · rfl
    | within s =>
      simp only [Schema.exec] at ran
      split at ran
      · obtain ⟨_, _, _, _, _, rfl⟩ | ⟨-, rfl⟩ := ran <;> rfl
      · rw [move_store, ran.2]

end Opale.Agents
