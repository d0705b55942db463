import Opale.Agents.Revocation

namespace Opale.Agents

open Sql
open Linux (Text)

variable {fns : AgentFns} {t u id T S : Nat} {w w₁ w₂ : AgentWorld} {o : AgentOp} {answer : o.Res} {e : AgentEvent}
variable {expiresAt : Int} {a b : Option AgentToken}

/-- The row stays, with its successor and its end. -/
def Unrotated (a b : Option AgentToken) : Prop :=
  ∀ r, a = some r → ∃ r₁, b = some r₁ ∧ r₁.replacedBy = r.replacedBy ∧ r₁.expiresAt = r.expiresAt

theorem Unrotated.refl (a : Option AgentToken) : Unrotated a a := fun r stored => ⟨r, stored, rfl, rfl⟩

theorem Unrotated.trans (a b c : Option AgentToken) (first : Unrotated a b) (second : Unrotated b c) :
    Unrotated a c := by
  intro r stored
  obtain ⟨r₁, stored₁, replaced, expires⟩ := first r stored
  obtain ⟨r₂, stored₂, replaced₁, expires₁⟩ := second r₁ stored₁
  exact ⟨r₂, stored₂, replaced₁.trans replaced, expires₁.trans expires⟩

theorem TokenStep.unrotated {s : AgentStmt} (step : TokenStep s id a b) (other : s.kind ≠ some .rotates) :
    Unrotated a b := by
  cases step with
  | same => exact .refl _
  | insert => exact fun _ => nofun
  | set sets =>
    intro r stored
    cases stored
    cases sets with
    | replaceToken => exact absurd rfl other
    | revokeUnused _ | redeem | claimToken _ | bindToken | revokeToken _ => exact ⟨_, rfl, rfl, rfl⟩

/-- A row that is there stays. -/
def Present (a b : Option AgentToken) : Prop := a ≠ none → b ≠ none

theorem TokenStep.present {s : AgentStmt} (step : TokenStep s id a b) : Present a b := by
  cases step with
  | same => exact fun here => here
  | insert | set => exact fun _ => nofun

/-- The rotations of the history and the logins keep to the grace period. -/
structure Graced (w : AgentWorld) : Prop where
  locked : agentSchema.Locked w.store
  timeless : Timeless w.store
  present : ∀ u, tokenCells.Pending (fun _ => Present) u w.store
  past : ∀ t T now, .authenticated t T now ∈ w.history → now ≤ w.store.committed.clock
  replaced : ∀ t T S now, .rotated t T S now ∈ w.history → ∃ row, w.store.committed.tokens[T]? = some row ∧
    row.replacedBy = some S ∧ ∃ ends, row.expiresAt = some ends ∧ ends ≤ now + GRACE_MS
  bounded : ∀ t T S now, .rotated t T S now ∈ w.history →
    ∀ t' at_, .authenticated t' T at_ ∈ w.history → at_ < now + GRACE_MS

/-- What a request `t` accepts of the others. -/
structure Later (t : Nat) (w w₁ : AgentWorld) : Prop where
  moves : agentSchema.Moves (fun _ => True) t w.store w₁.store
  clock : w.store.committed.clock ≤ w₁.store.committed.clock
  present : ∀ id : Nat, Present w.store.committed.tokens[id]? w₁.store.committed.tokens[id]?

theorem Later.refl (t : Nat) (w : AgentWorld) : Later t w w := ⟨.refl _ t _, Int.le_refl _, fun _ here => here⟩

theorem Later.trans (first : Later t w w₁) (second : Later t w₁ w₂) : Later t w w₂ where
  moves := first.moves.trans second.moves
  clock := Int.le_trans first.clock second.clock
  present id here := second.present id (first.present id here)

/-- The UPDATE of a rotation meets a token that has not been replaced. -/
def RotatesOnce : Nat → (o : AgentOp) → AgentWorld → o.Res → AgentWorld → Prop
  | t, .sql (.within (.replaceToken _ _ T)), w, _, _ =>
    ∀ row, (agentSchema.view w.store t).tokens[T]? = some row → row.replacedBy = none
  | _, _, _, _, _ => True

def lineageTeam : Threads.Team AgentOp.Res AgentWorld where
  exec t o w answer w₁ := agentExec t o w answer w₁ ∧ RotatesOnce t o w answer w₁
  inv := Graced
  rely := Later
  guarantee _ _ _ _ _ := True
  idle t w := w.store.session t = none
  rely_refl := Later.refl
  rely_trans _ _ _ _ := Later.trans

/-- What every operation is to the others, and to its own request. -/
theorem exec_later (run : agentExec t o w answer w₁) (graced : Graced w) :
    (∀ u, u ≠ t → Later u w w₁) ∧ w₁.store.committed.clock = w.store.committed.clock ∧
    (∀ id : Nat, Present w.store.committed.tokens[id]? w₁.store.committed.tokens[id]?) ∧
    agentSchema.Locked w₁.store ∧ Timeless w₁.store ∧ ∀ u, tokenCells.Pending (fun _ => Present) u w₁.store := by
  obtain ⟨locked, moves⟩ := exec_others run graced.locked
  obtain ⟨timeless, clock⟩ := exec_clock run graced.locked graced.timeless
  obtain ⟨present, committed⟩ := exec_pending_all run graced.locked (fun _ here => here)
    (fun _ _ _ first second here => second (first here)) (fun _ _ _ _ step => step.present) graced.present
  exact ⟨fun u other => ⟨moves u other, Int.le_of_eq clock.symm, committed⟩, clock, committed, locked, timeless, present⟩

/-- Rotations whose token is replaced no more. -/
theorem Graced.replaced_of (graced : Graced w)
    (kept : ∀ id : Nat, Unrotated w.store.committed.tokens[id]? w₁.store.committed.tokens[id]?) {now : Int}
    (rotated : .rotated t T S now ∈ w.history) : ∃ row, w₁.store.committed.tokens[T]? = some row ∧
      row.replacedBy = some S ∧ ∃ ends, row.expiresAt = some ends ∧ ends ≤ now + GRACE_MS := by
  obtain ⟨row, stored, replacedBy, ends, expires, bound⟩ := graced.replaced t T S now rotated
  obtain ⟨row₁, stored₁, replacedBy₁, expires₁⟩ := kept T row stored
  exact ⟨row₁, stored₁, replacedBy₁.trans replacedBy, ends, expires₁.trans expires, bound⟩

/-- An operation that adds nothing to the history. -/
theorem Graced.still (graced : Graced w) (run : agentExec t o w answer w₁)
    (kept : ∀ id : Nat, Unrotated w.store.committed.tokens[id]? w₁.store.committed.tokens[id]?)
    (same : w₁.history = w.history) : Graced w₁ := by
  obtain ⟨-, clock, -, locked, timeless, present⟩ := exec_later run graced
  refine ⟨locked, timeless, present, fun t' T now member => ?_, fun t' T S now member => ?_, ?_⟩
  · rw [same] at member
    rw [clock]
    exact graced.past t' T now member
  · rw [same] at member
    exact graced.replaced_of kept member
  · rw [same]
    exact graced.bounded

/-- An operation that rotates nothing. -/
theorem Graced.exec (graced : Graced w) (run : agentExec t o w answer w₁)
    (kept : ∀ id : Nat, Unrotated w.store.committed.tokens[id]? w₁.store.committed.tokens[id]?)
    (other : ∀ T S, o ≠ .commit (.rotation T S)) : Graced w₁ := by
  obtain ⟨-, clock, -, locked, timeless, present⟩ := exec_later run graced
  obtain same | ⟨e, more, noted⟩ := exec_history run
  · exact graced.still run kept same
  have old : ∀ {t' T S now}, .rotated t' T S now ∈ w₁.history → .rotated t' T S now ∈ w.history := by
    intro t' T S now member
    rw [more] at member
    rcases List.mem_cons.mp member with rfl | old
    · cases noted with
      | rotated named => exact absurd named (other T S)
    · exact old
  refine ⟨locked, timeless, present, fun t' T now member => ?_, fun t' T S now member => ?_,
    fun t' T S now member t'' at_ login => ?_⟩
  · rw [clock]
    rw [more] at member
    rcases List.mem_cons.mp member with rfl | before
    · cases noted with
      | authenticated => exact Int.le_refl _
    · exact graced.past t' T now before
  · exact graced.replaced_of kept (old member)
  · rw [more] at login
    rcases List.mem_cons.mp login with rfl | before
    · cases noted with
      | @authenticated hash _ row _ stored accepted =>
        obtain ⟨row', stored', -, ends, expires, bound⟩ := graced.replaced t' T S now (old member)
        cases stored.symm.trans stored'
        simp only [AgentToken.accepted, AgentToken.unexpired, expires, Option.all_some, Bool.and_eq_true,
          decide_eq_true_eq] at accepted
        have unexpired := accepted.1.2
        omega
    · exact graced.bounded t' T S now (old member) t'' at_ before

variable {α : Type} {post : α → AgentWorld → Prop}

/-- An operation that rotates nothing, in front of a program. -/
theorem safe_op_graced {next : o.Res → Agent α} (other : ∀ T S, o ≠ .commit (.rotation T S))
    (kept : ∀ answer w₁ w₂, Later t w w₁ → Graced w₁ → agentExec t o w₁ answer w₂ →
      ∀ id : Nat, Unrotated w₁.store.committed.tokens[id]? w₂.store.committed.tokens[id]?)
    (resume : ∀ answer w₁ w₂, Later t w w₁ → Graced w₁ → agentExec t o w₁ answer w₂ →
      RotatesOnce t o w₁ answer w₂ → Graced w₂ → (lineageTeam.rules t).Safe post (next answer) w₂) :
    (lineageTeam.rules t).Safe post (perform o >>= next) w := by
  intro w₁ later graced answer w₂ run
  obtain ⟨run, once⟩ := run
  have graced₂ := graced.exec run (kept answer w₁ w₂ later graced run) other
  exact ⟨graced₂, ⟨(exec_later run graced).1, trivial⟩, resume answer w₁ w₂ later graced run once graced₂⟩

/-- What the statements of the other kinds keep, a request at a time. -/
theorem exec_unrotated (run : agentExec t o w answer w₁) (graced : Graced w) (other : o.kind ≠ some .rotates)
    (pending : tokenCells.Pending (fun _ => Unrotated) t w.store) :
    tokenCells.Pending (fun _ => Unrotated) t w₁.store ∧
      ∀ id : Nat, Unrotated w.store.committed.tokens[id]? w₁.store.committed.tokens[id]? := by
  refine exec_pending run graced.locked Unrotated.refl Unrotated.trans (fun s asked id a b step => ?_) pending
  refine step.unrotated ?_
  rcases asked with rfl | rfl <;> exact other

theorem pending_idle (idle : w.store.session t = none) : tokenCells.Pending (fun _ => Unrotated) t w.store :=
  .closed (fun _ => Unrotated.refl) idle

/-- A request of another kind, from one operation to the next. -/
structure Mild (t : Nat) (opened : Bool) (w : AgentWorld) : Prop where
  locked : agentSchema.Locked w.store
  pending : tokenCells.Pending (fun _ => Unrotated) t w.store
  closed : opened = false → w.store.session t = none

theorem safe_orderly_graced (kind : Kind) {program : Agent α} (orderly : Orderly kind false false program)
    (other : kind ≠ .rotates) (locked : agentSchema.Locked w.store) (idle : w.store.session t = none) :
    (lineageTeam.rules t).Safe (fun _ w => w.store.session t = none) program w := by
  have mild : (lineageTeam.rules t).Safe (fun _ => Mild t false) program w := by
    refine Rules.Safe.of_follows (Mild t) ?_ ?_ orderly ⟨locked, pending_idle idle, fun _ => idle⟩
    · intro s w w₁ mild later graced
      refine ⟨graced.locked, mild.pending.moves mild.locked later.moves fun _ _ => Unrotated.refl, fun ended => ?_⟩
      exact later.moves.session.trans (mild.closed ended)
    · intro s o w answer w₁ allowed mild graced run
      have kind : o.kind ≠ some .rotates := by
        rcases allowed with none_ | some_
        · rw [none_]
          exact nofun
        · rw [some_]
          exact fun same => other (Option.some.inj same)
      obtain ⟨pending, kept⟩ := exec_unrotated run.1 graced kind mild.pending
      have graced₁ : Graced w₁ := by
        refine graced.exec run.1 kept ?_
        rintro T S rfl
        exact kind rfl
      exact ⟨graced₁, ⟨(exec_later run.1 graced).1, trivial⟩, graced₁.locked, pending, exec_opens run.1 mild.closed⟩
  exact mild.weaken fun _ _ _ mild => mild.closed rfl

theorem safe_idle_graced {value : α} (idle : w.store.session t = none) :
    (lineageTeam.rules t).Safe (fun _ w => w.store.session t = none) (.ret value) w :=
  fun _ later _ => later.moves.session.trans idle

/-- Whatever the transaction had done, the rollback ends it. -/
theorem safe_abort_graced {reply : AgentReply} :
    (lineageTeam.rules t).Safe (fun _ w => w.store.session t = none) (abort reply) w := by
  refine safe_op_graced (fun _ _ => nofun) (fun _ w₁ w₂ _ _ run id => ?_) fun _ w₁ w₂ _ _ run _ _ => ?_
  · rw [exec_committed run (fun _ => nofun) nofun fun _ => nofun]
    exact .refl _
  · exact safe_idle_graced (exec_opens (a := true) run nofun rfl)

/-- An operation that commits nothing, in front of a program. -/
theorem safe_inside_graced {next : o.Res → Agent α} (queries : ∀ s, o ≠ .sql (.query s)) (commits : o ≠ .sql .commit)
    (works : ∀ work, o ≠ .commit work)
    (resume : ∀ answer w₁ w₂, Later t w w₁ → Graced w₁ → agentExec t o w₁ answer w₂ →
      RotatesOnce t o w₁ answer w₂ → Graced w₂ → (lineageTeam.rules t).Safe post (next answer) w₂) :
    (lineageTeam.rules t).Safe post (perform o >>= next) w := by
  refine safe_op_graced (fun _ _ => works _) (fun _ w₁ w₂ _ _ run id => ?_) resume
  rw [exec_committed run queries commits works]
  exact .refl _

/-- The token of the rotation is replaced in what its transaction sees, and nothing else is. -/
def Replaces (T S : Nat) (expiresAt : Int) (id : Nat) (a b : Option AgentToken) : Prop :=
  if id = T then
    ∃ r r₁, a = some r ∧ r.replacedBy = none ∧ b = some r₁ ∧ r₁.replacedBy = some S ∧ r₁.expiresAt = some expiresAt
  else Unrotated a b

theorem Replaces.moves (replaces : tokenCells.Pending (Replaces T S expiresAt) t w.store)
    (locked : agentSchema.Locked w.store) (later : Later t w w₁) :
    tokenCells.Pending (Replaces T S expiresAt) t w₁.store := by
  refine replaces.moves locked later.moves fun id unlocked a => ?_
  unfold Replaces
  split
  case isTrue same =>
    -- the two rows differ, so the transaction has locked the token
    subst same
    have here := replaces id
    rw [Schema.Cells.view_of_unlocked locked unlocked] at here
    simp only [Replaces, if_true] at here
    obtain ⟨r, r₁, stored, none_, stored₁, some_, -⟩ := here
    cases stored.symm.trans stored₁
    rw [none_] at some_
    cases some_
  case isFalse => exact .refl a

theorem replace_step (run : agentExec t (.sql (.within (.replaceToken expiresAt S T))) w (some ()) w₁)
    (once : RotatesOnce t (.sql (.within (.replaceToken expiresAt S T))) w (some ()) w₁)
    (pending : tokenCells.Pending (fun _ => Unrotated) t w.store) (here : w.store.committed.tokens[T]? ≠ none) :
    tokenCells.Pending (Replaces T S expiresAt) t w₁.store := by
  obtain ⟨draw, out, within⟩ := exec_within run
  cases within.ran
  intro id
  have seen := tokens_updateTokens (agentSchema.view w.store t) (fun id _ => id = T) (.replace expiresAt S) id
  have view : (agentSchema.view w₁.store t).tokens[id]? = _ :=
    (congrArg (fun db : AgentDb => db.tokens[id]?) within.view).trans seen
  have before := pending id
  change Replaces T S expiresAt id w₁.store.committed.tokens[id]? (agentSchema.view w₁.store t).tokens[id]?
  rw [within.committed, view]
  by_cases same : id = T
  · subst same
    obtain ⟨r, stored⟩ := Option.ne_none_iff_exists'.mp here
    obtain ⟨r₁, stored₁, replacedBy, -⟩ := before r stored
    have stored₁ : (agentSchema.view w.store t).tokens[id]? = some r₁ := stored₁
    rw [stored₁, Option.map_some, if_pos (decide_eq_true rfl), Replaces, if_pos rfl]
    exact ⟨r, _, stored, replacedBy.symm.trans (once r₁ stored₁), rfl, rfl, rfl⟩
  · rw [Replaces, if_neg same]
    have still : ((agentSchema.view w.store t).tokens[id]?.map fun row =>
        if decide (id = T) then row.replace expiresAt S else row) = (agentSchema.view w.store t).tokens[id]? := by
      simp [same]
    rw [still]
    exact before

/-- The COMMIT of a rotation: its token has not been replaced before, and ends in time. -/
theorem rotation_step {ok : Bool} (run : agentExec t (.commit (.rotation T S)) w ok w₁) (graced : Graced w)
    (replaces : tokenCells.Pending (Replaces T S expiresAt) t w.store)
    (soon : expiresAt ≤ w.store.committed.clock + GRACE_MS) : Graced w₁ := by
  obtain ⟨-, clock, -, locked, timeless, present⟩ := exec_later run graced
  obtain ⟨changes, opened, rfl⟩ | ⟨failed, rfl⟩ := run
  case inr =>
    have lost : agentExec t (.commit .claim) w ok (w.move (w.store.close t)) := .inr ⟨failed, rfl⟩
    exact graced.still lost (fun _ => .refl _) rfl
  have published : ∀ id : Nat, Replaces T S expiresAt id w.store.committed.tokens[id]?
      (agentSchema.applyAll changes w.store.committed).tokens[id]? := by
    intro id
    have here := replaces id
    rw [Schema.view_of_session opened] at here
    exact here
  have token := published T
  simp only [Replaces, if_true] at token
  obtain ⟨r, r₁, stored, unreplaced, stored₁, replacedBy, expires⟩ := token
  have apart : ∀ {t' T' S' now}, .rotated t' T' S' now ∈ w.history → T' ≠ T := by
    rintro t' T' S' now member rfl
    obtain ⟨row, here, replaced, -⟩ := graced.replaced t' T' S' now member
    cases stored.symm.trans here
    rw [unreplaced] at replaced
    cases replaced
  refine ⟨locked, timeless, present, fun t' T' now member => ?_, fun t' T' S' now member => ?_,
    fun t' T' S' now member t'' at_ login => ?_⟩
  · rcases List.mem_cons.mp member with never | old
    · cases never
    · rw [clock]
      exact graced.past t' T' now old
  · rcases List.mem_cons.mp member with here | old
    · cases here
      exact ⟨r₁, stored₁, replacedBy, expiresAt, expires, soon⟩
    · obtain ⟨row, here, rest⟩ := graced.replaced t' T' S' now old
      have kept := published T'
      rw [Replaces, if_neg (apart old)] at kept
      obtain ⟨row₁, here₁, replaced₁, expires₁⟩ := kept row here
      rw [← replaced₁, ← expires₁] at rest
      exact ⟨row₁, here₁, rest⟩
  · rcases List.mem_cons.mp login with never | before
    · cases never
    · rcases List.mem_cons.mp member with here | old
      · cases here
        have past := graced.past t'' T at_ before
        change at_ < w.store.committed.clock + GRACE_MS
        unfold GRACE_MS
        omega
      · exact graced.bounded t' T' S' now old t'' at_ before

theorem safe_rotate_graced {row : TokenRow} {newToken : Text} {now : Int}
    (idle : w.store.session t = none) (here : w.store.committed.tokens[row.1]? ≠ none)
    (past : now ≤ w.store.committed.clock) : (lineageTeam.rules t).Safe (fun _ w => w.store.session t = none)
      (rotate fns row newToken (now + GRACE_MS)) w := by
  refine safe_inside_graced (fun _ => nofun) nofun (fun _ => nofun) fun begun w₁ w₂ later₁ graced₁ run₁ _ graced₂ => ?_
  obtain ⟨-, clock₂, present₂, -⟩ := exec_later run₁ graced₁
  have here := present₂ _ (later₁.present _ here)
  have past : now ≤ w₂.store.committed.clock := by
    have first := later₁.clock
    omega
  have pending := (exec_unrotated run₁ graced₁ nofun (pending_idle (later₁.moves.session.trans idle))).1
  cases begun with
  | false => exact safe_abort_graced
  | true =>
    refine safe_inside_graced (fun _ => nofun) nofun (fun _ => nofun) fun newId w₃ w₄ later₃ graced₃ run₃ _ graced₄ => ?_
    obtain ⟨-, clock₄, present₄, -⟩ := exec_later run₃ graced₃
    have here := present₄ _ (later₃.present _ here)
    have past : now ≤ w₄.store.committed.clock := by
      have second := later₃.clock
      omega
    have pending := (exec_unrotated run₃ graced₃ nofun
      (pending.moves graced₂.locked later₃.moves fun _ _ => Unrotated.refl)).1
    cases newId with
    | none => exact safe_abort_graced
    | some newId =>
      refine safe_inside_graced (fun _ => nofun) nofun (fun _ => nofun)
        fun replaced w₅ w₆ later₅ graced₅ run₅ once graced₆ => ?_
      obtain ⟨-, clock₆, -⟩ := exec_later run₅ graced₅
      cases replaced with
      | none => exact safe_abort_graced
      | some =>
        have replaces := replace_step run₅ once (pending.moves graced₄.locked later₅.moves fun _ _ => Unrotated.refl)
          (later₅.present _ here)
        intro w₇ later₇ graced₇ ok w₈ run₇
        have run₇ : agentExec t (.commit (.rotation row.1 newId)) w₇ ok w₈ := run₇.1
        have soon : now + GRACE_MS ≤ w₇.store.committed.clock + GRACE_MS := by
          have third := later₅.clock
          have fourth := later₇.clock
          omega
        have graced₈ := rotation_step run₇ graced₇ (Replaces.moves replaces graced₆.locked later₇) soon
        refine ⟨graced₈, ⟨(exec_later run₇ graced₇).1, trivial⟩, ?_⟩
        cases ok with
        | false => exact safe_abort_graced
        | true =>
          have idle : w₈.store.session t = none := exec_opens (a := true) run₇ nofun rfl
          refine safe_inside_graced (fun _ => nofun) nofun (fun _ => nofun) fun _ w₉ w₁₀ later₉ _ run₉ _ _ => ?_
          exact safe_idle_graced (exec_opens (a := false) run₉ (fun _ => later₉.moves.session.trans idle) rfl)

/-- The token that `authToken` answers is there. -/
theorem authToken_present {hash : Text} {row : TokenRow}
    (run : agentExec t (.sql (.query (.authToken hash))) w (some (some row)) w₁) :
    w₁.store.committed.tokens[row.1]? ≠ none := by
  obtain ⟨store, ran, rfl⟩ := run
  obtain ⟨draw, out, done, -, answered, rfl⟩ | ⟨never, -⟩ := ran
  case inr => cases never
  cases done
  have stored := (Table.mem_select.mp (List.mem_of_mem_head? (Option.some.inj answered).symm)).1
  change w.store.committed.tokens[row.1]? ≠ none
  rw [stored]
  exact nofun

theorem safe_rotateToken_graced {plain : Option Text} (idle : w.store.session t = none) :
    (lineageTeam.rules t).Safe (fun _ w => w.store.session t = none) (rotateToken fns plain) w := by
  cases plain with
  | none => exact safe_idle_graced idle
  | some plain =>
    refine safe_op_graced (o := .sql (.query (.authToken (fns.hashToken plain)))) (fun _ _ => nofun)
      (fun _ w₁ _ later graced run => (exec_unrotated run graced nofun (pending_idle (later.moves.session.trans idle))).2)
      fun answer w₁ w₂ later _ run _ graced₂ => ?_
    have idle : w₂.store.session t = none :=
      exec_opens (a := false) run (fun _ => later.moves.session.trans idle) rfl
    rcases answer with _ | _ | row
    · exact safe_idle_graced idle
    · exact safe_idle_graced idle
    · have here := authToken_present run
      refine safe_inside_graced (fun _ => nofun) nofun (fun _ => nofun) fun newToken w₃ w₄ later₃ graced₃ run₃ _ _ => ?_
      cases run₃
      refine safe_inside_graced (fun _ => nofun) nofun (fun _ => nofun) fun now w₅ w₆ later₅ graced₅ run₅ _ _ => ?_
      obtain ⟨same, rfl⟩ := run₅
      exact safe_rotate_graced (later₅.moves.session.trans (later₃.moves.session.trans idle))
        (later₅.present _ (later₃.present _ here)) (Int.le_of_eq same)

theorem safe_route_graced {route : Agent AgentReply} (allowed : Route fns route) (locked : agentSchema.Locked w.store)
    (idle : w.store.session t = none) :
    (lineageTeam.rules t).Safe (fun _ w => w.store.session t = none) route w := by
  cases allowed with
  | rotate => exact safe_rotateToken_graced idle
  | authenticated => exact safe_orderly_graced .binds orderly_authenticatedRoute nofun locked idle
  | exchange => exact safe_orderly_graced .exchanges orderly_exchangeToken nofun locked idle
  | checkin => exact safe_orderly_graced .binds orderly_checkin nofun locked idle
  | revoke => exact safe_orderly_graced .binds orderly_revokeToken nofun locked idle
  | create => exact safe_orderly_graced .binds orderly_createToken nofun locked idle

theorem Foreign.kept {db : AgentDb} {change : AgentChange} (foreign : Foreign db change) (id : Nat) :
    Unrotated db.tokens[id]? (change.apply db).tokens[id]? ∧ Present db.tokens[id]? (change.apply db).tokens[id]? ∧
      db.clock ≤ (change.apply db).clock := by
  cases foreign with
  | clock passes => exact ⟨.refl _, fun here => here, passes⟩
  | device => exact ⟨.refl _, fun here => here, Int.le_refl _⟩
  | @bootstrap other row absent =>
    change Unrotated _ (db.tokens.put other (some row))[id]? ∧ Present _ (db.tokens.put other (some row))[id]? ∧ _
    by_cases same : id = other
    · rw [same, absent]
      exact ⟨fun _ => nofun, fun here => absurd rfl here, Int.le_refl _⟩
    · rw [Table.getElem?_put_of_ne _ same]
      exact ⟨.refl _, fun here => here, Int.le_refl _⟩
  | @conversion other row now stored =>
    change Unrotated _ (db.tokens.put other (some (row.revoke now)))[id]? ∧
      Present _ (db.tokens.put other (some (row.revoke now)))[id]? ∧ _
    by_cases same : id = other
    · rw [same, stored, Table.getElem?_put_self]
      refine ⟨fun r here => ?_, fun _ => nofun, Int.le_refl _⟩
      cases here
      exact ⟨_, rfl, rfl, rfl⟩
    · rw [Table.getElem?_put_of_ne _ same]
      exact ⟨.refl _, fun here => here, Int.le_refl _⟩

/-- A store that has moved by itself, the history the same. -/
theorem Graced.moved (graced : Graced w) (locked : agentSchema.Locked w₁.store)
    (moves : ∀ u, u = t ∧ w₁.store.session u = none ∨ agentSchema.Moves (fun _ => True) u w.store w₁.store)
    (clock : w.store.committed.clock ≤ w₁.store.committed.clock)
    (kept : ∀ id : Nat, Unrotated w.store.committed.tokens[id]? w₁.store.committed.tokens[id]?)
    (same : w₁.history = w.history) : Graced w₁ := by
  refine ⟨locked, fun u => ?_, fun u => ?_, fun t' T now member => ?_, fun t' T S now member => ?_, ?_⟩
  · obtain ⟨-, ended⟩ | moves := moves u
    · exact .closed (fun _ _ => rfl) ended
    · exact (graced.timeless u).moves graced.locked moves fun _ _ _ => rfl
  · obtain ⟨-, ended⟩ | moves := moves u
    · exact .closed (fun _ _ here => here) ended
    · exact (graced.present u).moves graced.locked moves fun _ _ _ here => here
  · rw [same] at member
    have past := graced.past t' T now member
    omega
  · rw [same] at member
    exact graced.replaced_of kept member
  · rw [same]
    exact graced.bounded

theorem agents_graced (fns : AgentFns) : ((agents fns).restrict RotatesOnce).Verified lineageTeam where
  exec run := run
  env {w w₁} graced moves := by
    obtain ⟨change, foreign, free, rfl⟩ := moves
    have moves : ∀ u, agentSchema.Moves (fun _ => True) u w.store (agentSchema.publish [change] w.store) := by
      refine fun u => Schema.moves_publish (fun _ _ => trivial) fun c member k needed owns => ?_
      cases List.mem_singleton.mp member
      rw [free k needed] at owns
      cases owns
    have clock := (foreign.kept 0).2.2
    exact ⟨graced.moved (t := 0) (graced.locked.publish _) (fun u => .inr (moves u)) clock (fun id => (foreign.kept id).1) rfl,
      fun u => ⟨moves u, clock, fun id => (foreign.kept id).2.1⟩⟩
  entry allowed graced idle := by
    obtain ⟨route, named, rfl⟩ := allowed
    refine (safe_route_graced named graced.locked idle).bind graced fun reply w₁ _ idle => ?_
    refine safe_inside_graced (fun _ => nofun) nofun (fun _ => nofun) fun _ w₂ w₃ later _ run _ _ => ?_
    exact safe_idle_graced (exec_opens (a := false) run (fun _ => later.moves.session.trans idle) rfl)
  drop {t w} graced := by
    refine ⟨graced.moved (t := t) (graced.locked.close t) (fun u => ?_) (Int.le_refl _) (fun _ => .refl _) rfl,
      fun w₁ later _ => later.moves.session.trans Schema.session_close,
      fun u other => ⟨Schema.moves_close other, Int.le_refl _, fun _ here => here⟩⟩
    by_cases same : u = t
    · subst same
      exact .inl ⟨rfl, Schema.session_close⟩
    · exact .inr (Schema.moves_close same)

theorem agents_started (w : AgentWorld) (start : AgentStart w) :
    Graced w ∧ ∀ t w₁, Later t w w₁ → Graced w₁ → w₁.store.session t = none := by
  obtain ⟨db, rfl⟩ := start
  refine ⟨⟨Schema.locked_start db, fun u => .closed (fun _ _ => rfl) rfl, fun u => .closed (fun _ _ here => here) rfl,
    fun _ _ _ => nofun, fun _ _ _ _ => nofun, fun _ _ _ _ => nofun⟩, fun t w₁ later _ => later.moves.session⟩

/-- `authToken` accepts the token. -/
def Valid (db : AgentDb) (token : Nat) : Prop := ∃ row, db.tokens[token]? = some row ∧ row.accepted db = true

/-- 24 hours after the first rotation of `T` it authenticates no request any more, and at most
one of the tokens that rotations have made of it is valid. -/
def Lineage (w : AgentWorld) (T : Nat) : Prop :=
  (∀ later earlier t S now, w.history = later ++ .rotated t T S now :: earlier →
    (∀ t' S' now', .rotated t' T S' now' ∉ earlier) →
    ∀ t' at_, .authenticated t' T at_ ∈ w.history → at_ < now + GRACE_MS) ∧
  ∀ t t' S S' now now', .rotated t T S now ∈ w.history → .rotated t' T S' now' ∈ w.history →
    Valid w.store.committed S → Valid w.store.committed S' → S = S'

theorem rotatesOnce_of_ne (o : AgentOp) (w : AgentWorld) (answer : o.Res) (w₁ : AgentWorld)
    (other : ∀ expiresAt S T, o ≠ .sql (.within (.replaceToken expiresAt S T))) : RotatesOnce t o w answer w₁ := by
  unfold RotatesOnce
  split
  case h_1 => exact absurd rfl (other _ _ _)
  case h_2 => trivial

/-- Along every run in which the UPDATE of a rotation never meets a token that has been
replaced already. -/
theorem lineage_kept {c : Threads.Config AgentOp.Res AgentWorld}
    (reach : ((agents fns).restrict RotatesOnce).Reach AgentStart c) (T : Nat) : Lineage c.world T := by
  have graced : Graced c.world := reach.inv (agents_graced fns) agents_started
  refine ⟨fun later earlier t S now split _ t' at_ login => ?_, fun t t' S S' now now' first second _ _ => ?_⟩
  · have member : .rotated t T S now ∈ c.world.history := by
      rw [split]
      exact List.mem_append_right later List.mem_cons_self
    exact graced.bounded t T S now member t' at_ login
  · obtain ⟨row, stored, replaced, -⟩ := graced.replaced t T S now first
    obtain ⟨row', stored', replaced', -⟩ := graced.replaced t' T S' now' second
    cases stored.symm.trans stored'
    exact Option.some.inj (replaced.symm.trans replaced')

theorem lineage_kept_once : ∃ c : Threads.Config AgentOp.Res AgentWorld,
    c.world.history = [.rotated 0 1 2 1000, .authenticated 0 1 1000] ∧ Lineage c.world 1 := by
  have unreplaced : demoToken.replacedBy = none := rfl
  have a : Alone demoFns RotatesOnce 0 _ _ _ _ := .first (rotateToken demoFns (some (demoPlain '1'))) .rotate demoDb
  obtain ⟨program, w, runs, r, -, -, -, noted⟩ := rotation_alone a 1 2 demoToken (demoPlain '2') demo_found demo_room
    rotatesOnce_of_ne fun _ _ _ _ stored row same => by
      cases stored.symm.trans same
      exact unreplaced
  exact ⟨_, noted, lineage_kept r 1⟩

def HOUR : Int := 3600000

/-- The token rotates again during its grace period, which starts afresh. -/
theorem rotated_again : ¬∀ c : Threads.Config AgentOp.Res AgentWorld, (agents demoFns).Reach AgentStart c →
    ∀ T, Lineage c.world T := by
  intro lineage
  have a : Alone demoFns (fun _ _ _ _ _ => True) 0 _ _ _ _ := .first (rotateToken demoFns (some (demoPlain '1'))) .rotate demoDb
  obtain ⟨program, a⟩ := rotation_alone a 1 2 demoToken (demoPlain '2') demo_found demo_room
    (fun _ _ _ _ _ => trivial) fun _ _ _ _ _ => trivial
  have a := a.pass (1000 + 23 * HOUR) (by decide)
  obtain ⟨apart₂, apart₃, apart₄⟩ := demo_hashes
  let graced : AgentToken := demoToken.replace (1000 + GRACE_MS) 2
  let second : AgentToken := demoToken.successor (demoFns.hashToken (demoPlain '2'))
  have own₁ : graced.tokenHash = demoFns.hashToken (demoPlain '1') := demo_own
  have own₂ : second.tokenHash = demoFns.hashToken (demoPlain '2') := rfl
  let db : AgentDb := { demoDb.rotate 1 2 demoToken second with clock := 1000 + 23 * HOUR }
  have a : Alone demoFns (fun _ _ _ _ _ => True) 1 _ _ (.start db) _ :=
    a.next (rotateToken demoFns (some (demoPlain '1'))) .rotate (by decide) rfl
  have tokens : db.tokens.toList = [(1, graced), (2, second)] := rfl
  have accepted : graced.accepted db = true := rfl
  have absent : db.tokens.contains 3 = false := rfl
  obtain ⟨program₁, a⟩ := rotation_alone a 1 3 graced (demoPlain '3')
    (by simp [Table.select, tokens, own₁, own₂, accepted, apart₂.symm])
    (by simp [absent, tokens, own₁, own₂, apart₃, apart₄])
    (fun _ _ _ _ _ => trivial) fun _ _ _ _ _ => trivial
  have a := a.pass (1000 + 25 * HOUR) (by decide)
  let again : AgentToken := graced.replace (1000 + 23 * HOUR + GRACE_MS) 3
  let third : AgentToken := graced.successor (demoFns.hashToken (demoPlain '3'))
  have own₃ : third.tokenHash = demoFns.hashToken (demoPlain '3') := rfl
  let db₁ : AgentDb := { db.rotate 1 3 graced third with clock := 1000 + 25 * HOUR }
  have a : Alone demoFns (fun _ _ _ _ _ => True) 2 _ _ (.start db₁) _ :=
    a.next (authenticatedRoute demoFns (some (demoPlain '1'))) .authenticated (by decide) rfl
  have tokens₁ : db₁.tokens.toList = [(1, again), (2, second), (3, third)] := rfl
  have accepted₁ : again.accepted db₁ = true := rfl
  have own₄ : again.tokenHash = demoFns.hashToken (demoPlain '1') := demo_own
  obtain ⟨w, runs, r, -, -, -, noted⟩ := a.login (T := 1) again
    (by simp [Table.select, tokens₁, own₂, own₃, own₄, accepted₁, apart₂.symm, apart₃.symm]) fun _ _ _ => trivial
  have first : ∀ t' S' now', AgentEvent.rotated t' 1 S' now' ∉ [.authenticated 0 1 1000] := by
    intro t' S' now' member
    cases List.mem_singleton.mp member
  have login : .authenticated 2 1 (1000 + 25 * HOUR) ∈ w.history := by
    rw [noted]
    exact List.mem_cons_self
  have late := (lineage _ r.of_restrict 1).1 [.authenticated 2 1 (1000 + 25 * HOUR), .rotated 1 1 3 (1000 + 23 * HOUR),
    .authenticated 1 1 (1000 + 23 * HOUR)] [.authenticated 0 1 1000] 0 2 1000 noted first 2 (1000 + 25 * HOUR) login
  exact absurd late (by decide)

end Opale.Agents
