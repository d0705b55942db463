import Opale.Agents.Steps

namespace Opale.Agents

open Sql

variable {db db₁ : AgentDb} {B S T id : Nat} {a b c : Option AgentToken}

/-- The tokens issued from the code. -/
def AgentDb.issued (db : AgentDb) (B : Nat) : List Nat := (db.tokens.select fun _ row => row.issuer = some B).map Prod.fst

/-- Its `redeemed_count`. -/
def AgentDb.redeemed (db : AgentDb) (B : Nat) : Nat := (db.tokens[B]?.map (·.bootstrapRedeemedCount)).getD 0

theorem mem_issued : T ∈ db.issued B ↔ ∃ row, db.tokens[T]? = some row ∧ row.issuer = some B := by
  simp only [AgentDb.issued, List.mem_map, Prod.exists, Table.mem_select, decide_eq_true_eq]
  constructor
  · rintro ⟨_, row, member, rfl⟩
    exact ⟨row, member⟩
  · rintro ⟨row, member⟩
    exact ⟨T, row, member, rfl⟩

theorem issued_nodup (db : AgentDb) (B : Nat) : (db.issued B).Nodup := db.tokens.keys_select _

/-- The redemptions of a token and what they count for stay; a new token comes from no code. -/
def Kept : Option AgentToken → Option AgentToken → Prop
  | some r, some r₁ => r₁.issuer = r.issuer ∧ r₁.bootstrapMaxRedeems = r.bootstrapMaxRedeems ∧
      r₁.bootstrapRedeemedCount = r.bootstrapRedeemedCount
  | none, some r₁ => r₁.issuer = none ∧ r₁.bootstrapRedeemedCount = 0
  | none, none => True
  | some _, none => False

theorem Kept.refl (a : Option AgentToken) : Kept a a := by
  cases a with
  | none => trivial
  | some r => exact ⟨rfl, rfl, rfl⟩

theorem Kept.trans (a b c : Option AgentToken) (first : Kept a b) (second : Kept b c) : Kept a c := by
  cases a <;> cases b <;> cases c
  case none.none.some => exact second
  case none.some.some => exact ⟨second.1.trans first.1, second.2.2.trans first.2⟩
  case some.some.some =>
    exact ⟨second.1.trans first.1, second.2.1.trans first.2.1, second.2.2.trans first.2.2⟩
  case none.none.none | none.some.none => trivial
  case some.none.none | some.some.none => first | exact first | exact second
  case some.none.some => exact first.elim

theorem TokenStep.kept {s : AgentStmt} (step : TokenStep s id a b) (other : s.kind ≠ some .exchanges) : Kept a b := by
  cases step with
  | same => exact .refl _
  | insert inserts =>
    cases inserts with
    | insertIssued => exact absurd rfl other
    | insertRotated | insertToken => exact ⟨rfl, rfl⟩
  | set sets =>
    cases sets with
    | redeem => exact absurd rfl other
    | replaceToken | revokeUnused _ | claimToken _ | bindToken | revokeToken _ => exact ⟨rfl, rfl, rfl⟩

theorem Foreign.accounts {change : AgentChange} (foreign : Foreign db change) (id : Nat) :
    Kept db.tokens[id]? (change.apply db).tokens[id]? := by
  cases foreign with
  | clock | device => exact .refl _
  | @bootstrap other row absent _ _ issuer count =>
    change Kept _ (db.tokens.put other (some row))[id]?
    by_cases same : id = other
    · rw [same, absent, Table.getElem?_put_self]
      exact ⟨issuer, count⟩
    · rw [Table.getElem?_put_of_ne _ same]
      exact .refl _
  | @conversion other row now stored =>
    change Kept _ (db.tokens.put other (some (row.revoke now)))[id]?
    by_cases same : id = other
    · rw [same, stored, Table.getElem?_put_self]
      exact ⟨rfl, rfl, rfl⟩
    · rw [Table.getElem?_put_of_ne _ same]
      exact .refl _

/-- Every code has issued as many tokens as it has redemptions, and no more than it may. -/
structure Accounts (db : AgentDb) : Prop where
  counted : ∀ B, (db.issued B).length = db.redeemed B
  bounded : ∀ (B : Nat) row most, db.tokens[B]? = some row → row.bootstrapMaxRedeems = some most →
    row.bootstrapRedeemedCount ≤ most

/-- The same tokens, and as many redemptions. -/
def Unspent (B : Nat) (db db₁ : AgentDb) : Prop :=
  (db₁.issued B).Perm (db.issued B) ∧ db₁.redeemed B = db.redeemed B

theorem issued_of_kept (kept : ∀ id : Nat, Kept db.tokens[id]? db₁.tokens[id]?) (B : Nat) :
    (db₁.issued B).Perm (db.issued B) := by
  refine (List.perm_ext_iff_of_nodup (issued_nodup _ _) (issued_nodup _ _)).mpr fun T => ?_
  have here := kept T
  rw [mem_issued, mem_issued]
  constructor
  · rintro ⟨r₁, stored₁, issuer⟩
    rw [stored₁] at here
    cases stored : db.tokens[T]? with
    | none =>
      rw [stored] at here
      cases here.1.symm.trans issuer
    | some r =>
      rw [stored] at here
      exact ⟨r, rfl, here.1.symm.trans issuer⟩
  · rintro ⟨r, stored, issuer⟩
    rw [stored] at here
    cases stored₁ : db₁.tokens[T]? with
    | none =>
      rw [stored₁] at here
      exact here.elim
    | some r₁ =>
      rw [stored₁] at here
      exact ⟨r₁, rfl, here.1.trans issuer⟩

theorem unspent_of_kept (kept : ∀ id : Nat, Kept db.tokens[id]? db₁.tokens[id]?) (B : Nat) : Unspent B db db₁ := by
  refine ⟨issued_of_kept kept B, ?_⟩
  have here := kept B
  unfold AgentDb.redeemed
  cases stored : db.tokens[B]? <;> cases stored₁ : db₁.tokens[B]? <;> rw [stored, stored₁] at here
  case none.some r₁ => exact here.2
  case some.none r => exact here.elim
  case some.some r r₁ => exact here.2.2

theorem Accounts.counted_of_unspent (accounts : Accounts db) (unspent : Unspent B db db₁) :
    (db₁.issued B).length = db₁.redeemed B := by
  rw [unspent.1.length_eq, unspent.2]
  exact accounts.counted B

/-- The bound of a token whose redemptions have not changed. -/
theorem Accounts.bounded_of_kept {most : Nat} {r₁ : AgentToken} (accounts : Accounts db)
    (kept : Kept db.tokens[B]? db₁.tokens[B]?) (stored₁ : db₁.tokens[B]? = some r₁)
    (limit : r₁.bootstrapMaxRedeems = some most) : r₁.bootstrapRedeemedCount ≤ most := by
  rw [stored₁] at kept
  cases stored : db.tokens[B]? with
  | none =>
    rw [stored] at kept
    rw [kept.2]
    exact Nat.zero_le most
  | some r =>
    rw [stored] at kept
    rw [kept.2.2]
    exact accounts.bounded B r most stored (kept.2.1.symm.trans limit)

theorem Accounts.kept (accounts : Accounts db) (kept : ∀ id : Nat, Kept db.tokens[id]? db₁.tokens[id]?) : Accounts db₁ where
  counted B := accounts.counted_of_unspent (unspent_of_kept kept B)
  bounded B _ _ := accounts.bounded_of_kept (kept B)

/-- The token `S` is issued from the code `B`, and nothing else changes but the code. -/
def Issues (B S : Nat) (id : Nat) (a b : Option AgentToken) : Prop :=
  if id = S then a = none ∧ ∃ r, b = some r ∧ r.issuer = some B ∧ r.bootstrapRedeemedCount = 0 else Kept a b

/-- The code has one more redemption, the one of the token `S`. -/
def Redeems (B S : Nat) (id : Nat) (a b : Option AgentToken) : Prop :=
  if id = B then ∃ r r₁, a = some r ∧ b = some r₁ ∧ r₁.issuer = r.issuer ∧ r₁.bootstrapMaxRedeems = r.bootstrapMaxRedeems ∧
    r₁.bootstrapRedeemedCount = r.bootstrapRedeemedCount + 1
  else Issues B S id a b

/-- One more token from `B`, one more redemption of it, and nothing else. -/
structure Spends (B S : Nat) (db db₁ : AgentDb) : Prop where
  issued : (db₁.issued B).Perm (S :: db.issued B)
  redeemed : db₁.redeemed B = db.redeemed B + 1
  others : ∀ B', B' ≠ B → Unspent B' db db₁

section redemption

variable (redeems : ∀ id : Nat, Redeems B S id db.tokens[id]? db₁.tokens[id]?)

include redeems

theorem redeems_code : ∃ r r₁, db.tokens[B]? = some r ∧ db₁.tokens[B]? = some r₁ ∧ r₁.issuer = r.issuer ∧
    r₁.bootstrapMaxRedeems = r.bootstrapMaxRedeems ∧ r₁.bootstrapRedeemedCount = r.bootstrapRedeemedCount + 1 := by
  have here := redeems B
  rw [Redeems, if_pos rfl] at here
  exact here

theorem redeems_kept (other : id ≠ B) (old : id ≠ S) : Kept db.tokens[id]? db₁.tokens[id]? := by
  have here := redeems id
  rw [Redeems, if_neg other, Issues, if_neg old] at here
  exact here

theorem redeems_new (other : S ≠ B) : db.tokens[S]? = none ∧
    ∃ r, db₁.tokens[S]? = some r ∧ r.issuer = some B ∧ r.bootstrapRedeemedCount = 0 := by
  have here := redeems S
  rw [Redeems, if_neg other, Issues, if_pos rfl] at here
  exact here

/-- Which tokens come from a code after the redemption. -/
theorem redeems_mem (other : S ≠ B) (B' : Nat) : T ∈ db₁.issued B' ↔ T = S ∧ B' = B ∨ T ∈ db.issued B' := by
  rw [mem_issued, mem_issued]
  by_cases new : T = S
  · subst new
    obtain ⟨absent, r, stored, issuer, -⟩ := redeems_new redeems other
    rw [absent, stored]
    simp only [Option.some.injEq, exists_eq_left', issuer, true_and, reduceCtorEq, false_and, exists_false, or_false]
    exact eq_comm
  by_cases code : T = B
  · subst code
    obtain ⟨r, r₁, stored, stored₁, issuer, -⟩ := redeems_code redeems
    rw [stored, stored₁]
    simp [issuer, new]
  · have here := redeems_kept redeems code new
    cases stored : db.tokens[T]? <;> cases stored₁ : db₁.tokens[T]? <;> rw [stored, stored₁] at here
    case none.none => simp [new]
    case none.some r₁ => simp [new, here.1]
    case some.none r => exact here.elim
    case some.some r r₁ => simp [new, here.1]

theorem spends_of_redeems (other : S ≠ B) : Spends B S db db₁ := by
  obtain ⟨r, r₁, stored, stored₁, -, -, count⟩ := redeems_code redeems
  have absent : S ∉ db.issued B := by
    intro member
    obtain ⟨row, found, -⟩ := mem_issued.mp member
    rw [(redeems_new redeems other).1] at found
    cases found
  refine ⟨?_, ?_, fun B' apart => ⟨?_, ?_⟩⟩
  · refine (List.perm_ext_iff_of_nodup (issued_nodup _ _) ?_).mpr fun T => ?_
    · exact List.nodup_cons.mpr ⟨absent, issued_nodup _ _⟩
    · rw [redeems_mem redeems other, List.mem_cons]
      simp
  · unfold AgentDb.redeemed
    rw [stored, stored₁]
    exact count
  · refine (List.perm_ext_iff_of_nodup (issued_nodup _ _) (issued_nodup _ _)).mpr fun T => ?_
    rw [redeems_mem redeems other]
    simp [apart]
  · unfold AgentDb.redeemed
    by_cases new : B' = S
    · subst new
      obtain ⟨absent, row, found, -, zero⟩ := redeems_new redeems other
      rw [absent, found]
      exact zero
    · have here := redeems_kept redeems apart new
      cases stored : db.tokens[B']? <;> cases stored₁ : db₁.tokens[B']? <;> rw [stored, stored₁] at here
      case none.some r₁ => exact here.2
      case some.none r => exact here.elim
      case some.some r r₁ => exact here.2.2

theorem Accounts.redeemed (accounts : Accounts db) (other : S ≠ B)
    (room : ∀ r most, db.tokens[B]? = some r → r.bootstrapMaxRedeems = some most → r.bootstrapRedeemedCount < most) :
    Accounts db₁ := by
  have spends := spends_of_redeems redeems other
  refine ⟨fun B' => ?_, fun B' r₁ most stored₁ limit => ?_⟩
  · by_cases code : B' = B
    · rw [code, spends.issued.length_eq, spends.redeemed, List.length_cons, accounts.counted B]
    · exact accounts.counted_of_unspent (spends.others B' code)
  · by_cases code : B' = B
    · subst code
      obtain ⟨r, r₁', stored, stored₁', -, limit', count⟩ := redeems_code redeems
      cases stored₁.symm.trans stored₁'
      have free := room r most stored (limit'.symm.trans limit)
      omega
    by_cases new : B' = S
    · subst new
      obtain ⟨-, r, found, -, zero⟩ := redeems_new redeems other
      cases stored₁.symm.trans found
      omega
    · exact accounts.bounded_of_kept (redeems_kept redeems code new) stored₁ limit

end redemption

end Opale.Agents
