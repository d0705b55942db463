import Opale.Linux.Enrollment
import Mathlib.Data.Set.Card
import Mathlib.Logic.Relation

namespace Opale.Linux

/-- A key, as far as its life goes. -/
@[ext] structure KeyLife where
  status : KeyStatus
  deviceId : Option Nat
  fingerprint : Text

/-- The keys, the devices that are in pull mode, and the preregistrations consumed, with the key that did. -/
@[ext] structure Life where
  key : Nat → Option KeyLife
  pulled : Nat → Prop
  consumed : Nat → Option (Option Nat)

/-- The steps in the life of a key. -/
inductive Edge : Option KeyLife → Option KeyLife → Prop
  | enroll (fingerprint : Text) : Edge none (some ⟨.pending, none, fingerprint⟩)
  | approve (fingerprint : Text) (deviceId : Nat) :
      Edge (some ⟨.pending, none, fingerprint⟩) (some ⟨.approved, some deviceId, fingerprint⟩)
  | reject (fingerprint : Text) : Edge (some ⟨.pending, none, fingerprint⟩) (some ⟨.rejected, none, fingerprint⟩)
  | revoke (fingerprint : Text) (deviceId : Nat) :
      Edge (some ⟨.approved, some deviceId, fingerprint⟩) (some ⟨.revoked, some deviceId, fingerprint⟩)

abbrev Ages : Option KeyLife → Option KeyLife → Prop := Relation.ReflTransGen Edge

namespace Life

def waiting (l : Life) : Set Nat := {i | ∃ k, l.key i = some k ∧ k.status = .pending}

/-- What holds of the keys between any two transactions. -/
structure Good (l : Life) : Prop where
  single : ∀ i j a b, l.key i = some a → l.key j = some b → a.fingerprint = b.fingerprint → i = j
  bound : ∀ i a, l.key i = some a → a.status = .approved → ∃ d, a.deviceId = some d ∧ l.pulled d
  unbound : ∀ i a, l.key i = some a → a.status = .pending ∨ a.status = .rejected → a.deviceId = none
  sole : ∀ i j a b, l.key i = some a → l.key j = some b → a.status = .approved → b.status = .approved →
    a.deviceId = b.deviceId → i = j
  capped : l.waiting.encard ≤ PENDING_CAP

/-- What the statements of a transaction do, up to the one that consumes a preregistration. -/
structure Moves (l l₁ : Life) : Prop where
  keys : ∀ i, Ages (l.key i) (l₁.key i)
  pulled : ∀ d, l.pulled d → l₁.pulled d
  consumed : l₁.consumed = l.consumed

/-- What any time that passes does: the keys age, a device stays in pull mode, and a preregistration consumed stays so,
by the same key. -/
structure Later (l l₁ : Life) : Prop where
  keys : ∀ i, Ages (l.key i) (l₁.key i)
  pulled : ∀ d, l.pulled d → l₁.pulled d
  consumed : ∀ p k, l.consumed p = some k → l₁.consumed p = some k

/-- What a transaction does: the key that consumes a preregistration is approved by this very transaction. -/
structure Step (l l₁ : Life) : Prop extends Later l l₁ where
  consumer : ∀ p k, l.consumed p = none → l₁.consumed p = some k → ∃ i, k = some i ∧
    (∃ a, l₁.key i = some a ∧ a.status = .approved) ∧ ∀ a, l.key i = some a → a.status ≠ .approved

def setKey (l : Life) (i : Nat) (k : KeyLife) : Life := { l with key := Function.update l.key i (some k) }

def pull (l : Life) (d : Nat) : Life := { l with pulled := fun e => e = d ∨ l.pulled e }

/-- UPDATE … WHERE consumed_at IS NULL -/
def consume (l : Life) (p i : Nat) : Life :=
  { l with consumed := if l.consumed p = none then Function.update l.consumed p (some (some i)) else l.consumed }

variable {l l₁ l₂ : Life} {i j d : Nat} {k : KeyLife} {fingerprint : Text}

theorem setKey_self : (l.setKey i k).key i = some k := Function.update_self ..

theorem setKey_of_ne (other : j ≠ i) : (l.setKey i k).key j = l.key j := Function.update_of_ne other ..

theorem Moves.refl (l : Life) : l.Moves l := ⟨fun _ => .refl, fun _ pulled => pulled, rfl⟩

theorem Moves.trans (first : l.Moves l₁) (second : l₁.Moves l₂) : l.Moves l₂ where
  keys i := (first.keys i).trans (second.keys i)
  pulled d pulled := second.pulled d (first.pulled d pulled)
  consumed := second.consumed.trans first.consumed

theorem Moves.step (moves : l.Moves l₁) : l.Step l₁ where
  keys := moves.keys
  pulled := moves.pulled
  consumed p k was := by rw [moves.consumed, was]
  consumer p k was now := by
    rw [moves.consumed, was] at now
    cases now

theorem Step.refl (l : Life) : l.Step l := (Moves.refl l).step

theorem Later.refl (l : Life) : l.Later l := (Step.refl l).toLater

theorem Later.trans (first : l.Later l₁) (second : l₁.Later l₂) : l.Later l₂ where
  keys i := (first.keys i).trans (second.keys i)
  pulled d pulled := second.pulled d (first.pulled d pulled)
  consumed p k was := second.consumed p k (first.consumed p k was)

theorem moves_setKey (edge : Edge (l.key i) (some k)) : l.Moves (l.setKey i k) where
  keys j := by
    by_cases same : j = i
    · subst same
      rw [setKey_self]
      exact .single edge
    · rw [setKey_of_ne same]
  pulled _ pulled := pulled
  consumed := rfl

theorem moves_pull : l.Moves (l.pull d) := ⟨fun _ => .refl, fun _ pulled => .inr pulled, rfl⟩

/-- A preregistration is consumed by the key that the transaction has just approved. -/
theorem Moves.consume {p : Nat} (moves : l.Moves l₁) (approved : ∃ a, l₁.key i = some a ∧ a.status = .approved)
    (new : ∀ a, l.key i = some a → a.status ≠ .approved) : l.Step (l₁.consume p i) where
  keys := moves.keys
  pulled := moves.pulled
  consumed q k was := by
    have still : l₁.consumed q = some k := by rw [moves.consumed, was]
    unfold Life.consume
    split
    · rename_i free
      have apart : q ≠ p := by
        rintro rfl
        cases free.symm.trans still
      exact (Function.update_of_ne apart ..).trans still
    · exact still
  consumer q k was now := by
    have before : l₁.consumed q = none := by rw [moves.consumed, was]
    unfold Life.consume at now
    split at now
    · by_cases same : q = p
      · subst same
        cases (Function.update_self ..).symm.trans now
        exact ⟨i, rfl, approved, new⟩
      · cases before.symm.trans ((Function.update_of_ne same ..).symm.trans now)
    · cases before.symm.trans now

/-- A key of the table after one row of it was written. -/
theorem of_setKey {a : KeyLife} (here : (l.setKey i k).key j = some a) : j = i ∧ a = k ∨ j ≠ i ∧ l.key j = some a := by
  by_cases same : j = i
  · subst same
    exact .inl ⟨rfl, (Option.some.inj (setKey_self.symm.trans here)).symm⟩
  · exact .inr ⟨same, (setKey_of_ne same).symm.trans here⟩

/-- A row that fits in with all the others. -/
theorem Good.setKey (good : l.Good)
    (single : ∀ j b, j ≠ i → l.key j = some b → b.fingerprint ≠ k.fingerprint)
    (bound : k.status = .approved → ∃ d, k.deviceId = some d ∧ l.pulled d)
    (unbound : k.status = .pending ∨ k.status = .rejected → k.deviceId = none)
    (sole : k.status = .approved → ∀ j b, j ≠ i → l.key j = some b → b.status = .approved → b.deviceId ≠ k.deviceId)
    (capped : (l.setKey i k).waiting.encard ≤ PENDING_CAP) : (l.setKey i k).Good where
  single a b x y first second same := by
    obtain ⟨rfl, rfl⟩ | ⟨apart, here⟩ := of_setKey first
    · obtain ⟨rfl, -⟩ | ⟨apart, there⟩ := of_setKey second
      · rfl
      · exact absurd same.symm (single _ _ apart there)
    · obtain ⟨rfl, rfl⟩ | ⟨-, there⟩ := of_setKey second
      · exact absurd same (single _ _ apart here)
      · exact good.single _ _ _ _ here there same
  bound a x here approved := by
    obtain ⟨rfl, rfl⟩ | ⟨-, here⟩ := of_setKey here
    · exact bound approved
    · exact good.bound _ _ here approved
  unbound a x here early := by
    obtain ⟨rfl, rfl⟩ | ⟨-, here⟩ := of_setKey here
    · exact unbound early
    · exact good.unbound _ _ here early
  sole a b x y first second one two same := by
    obtain ⟨rfl, rfl⟩ | ⟨apart, here⟩ := of_setKey first
    · obtain ⟨rfl, -⟩ | ⟨apart, there⟩ := of_setKey second
      · rfl
      · exact absurd same.symm (sole one _ _ apart there two)
    · obtain ⟨rfl, rfl⟩ | ⟨-, there⟩ := of_setKey second
      · exact absurd same (sole two _ _ apart here one)
      · exact good.sole _ _ _ _ here there one two same
  capped := capped

/-- Nobody waits that did not before, when the row written does not. -/
theorem waiting_setKey (settled : k.status ≠ .pending) : (l.setKey i k).waiting ⊆ l.waiting := by
  rintro j ⟨a, here, pending⟩
  obtain ⟨rfl, rfl⟩ | ⟨-, here⟩ := of_setKey here
  · exact absurd pending settled
  · exact ⟨a, here, pending⟩

/-- A key that enrolls for the first time, while there is room in the queue. -/
theorem Good.enroll (good : l.Good) (new : ∀ j b, l.key j = some b → b.fingerprint ≠ fingerprint)
    (room : l.waiting.encard < PENDING_CAP) : (l.setKey i ⟨.pending, none, fingerprint⟩).Good := by
  refine good.setKey (fun j b _ => new j b) nofun (fun _ => rfl) nofun ?_
  have grows : (l.setKey i ⟨.pending, none, fingerprint⟩).waiting ⊆ insert i l.waiting := by
    rintro j ⟨a, here, pending⟩
    obtain ⟨rfl, -⟩ | ⟨-, here⟩ := of_setKey here
    · exact .inl rfl
    · exact .inr ⟨a, here, pending⟩
  calc (l.setKey i ⟨.pending, none, fingerprint⟩).waiting.encard
      ≤ (insert i l.waiting).encard := Set.encard_le_encard grows
    _ ≤ l.waiting.encard + 1 := Set.encard_insert_le ..
    _ ≤ PENDING_CAP := Order.add_one_le_of_lt room

/-- A pending key gets a device in pull mode that no approved key has. -/
theorem Good.approve (good : l.Good) (here : l.key i = some ⟨.pending, none, fingerprint⟩) (pulled : l.pulled d)
    (free : ∀ j b, j ≠ i → l.key j = some b → b.status = .approved → b.deviceId ≠ some d) :
    (l.setKey i ⟨.approved, some d, fingerprint⟩).Good := by
  refine good.setKey (fun j b apart there same => apart (good.single _ _ _ _ there here same)) (fun _ => ⟨d, rfl, pulled⟩)
    (fun early => ?_) (fun _ => free) ?_
  · rcases early with early | early <;> cases early
  · exact (Set.encard_le_encard (waiting_setKey (by simp))).trans good.capped

theorem Good.reject (good : l.Good) (here : l.key i = some ⟨.pending, none, fingerprint⟩) :
    (l.setKey i ⟨.rejected, none, fingerprint⟩).Good := by
  refine good.setKey (fun j b apart there same => apart (good.single _ _ _ _ there here same)) nofun (fun _ => rfl) nofun ?_
  exact (Set.encard_le_encard (waiting_setKey (by simp))).trans good.capped

theorem Good.pull (good : l.Good) : (l.pull d).Good where
  single := good.single
  bound i a here approved := by
    obtain ⟨e, has, pulled⟩ := good.bound i a here approved
    exact ⟨e, has, .inr pulled⟩
  unbound := good.unbound
  sole := good.sole
  capped := good.capped

theorem Good.consume {p : Nat} (good : l.Good) : (l.consume p i).Good :=
  ⟨good.single, good.bound, good.unbound, good.sole, good.capped⟩

/-- Approved keys are revoked, and nothing else changes. -/
structure Revokes (l l₁ : Life) : Prop where
  key : ∀ i, l₁.key i = l.key i ∨
    ∃ a, l.key i = some a ∧ a.status = .approved ∧ l₁.key i = some ⟨.revoked, a.deviceId, a.fingerprint⟩
  pulled : l₁.pulled = l.pulled
  consumed : l₁.consumed = l.consumed

/-- A key that is not revoked now was what it is now. -/
theorem Revokes.before (revokes : l.Revokes l₁) (here : l₁.key i = some k) :
    ∃ a, l.key i = some a ∧ a.deviceId = k.deviceId ∧ a.fingerprint = k.fingerprint ∧ (a.status = k.status ∨ k.status = .revoked) := by
  rcases revokes.key i with same | ⟨a, was, -, now⟩
  · exact ⟨k, same.symm.trans here, rfl, rfl, .inl rfl⟩
  · cases now.symm.trans here
    exact ⟨a, was, rfl, rfl, .inr rfl⟩

theorem Good.revokes (good : l.Good) (revokes : l.Revokes l₁) : l₁.Good where
  single i j a b here there same := by
    obtain ⟨x, was, -, first, -⟩ := revokes.before here
    obtain ⟨y, was₁, -, second, -⟩ := revokes.before there
    exact good.single i j x y was was₁ (first.trans (same.trans second.symm))
  bound i a here approved := by
    obtain ⟨x, was, has, -, same⟩ := revokes.before here
    rw [approved] at same
    obtain ⟨d, bound, pulled⟩ := good.bound i x was (same.resolve_right nofun)
    exact ⟨d, has.symm.trans bound, revokes.pulled ▸ pulled⟩
  unbound i a here early := by
    obtain ⟨x, was, has, -, same⟩ := revokes.before here
    have still : x.status = a.status := same.resolve_right fun revoked => by
      rw [revoked] at early
      rcases early with early | early <;> cases early
    exact has.symm.trans (good.unbound i x was (still ▸ early))
  sole i j a b here there one two same := by
    obtain ⟨x, was, first, -, still⟩ := revokes.before here
    obtain ⟨y, was₁, second, -, still₁⟩ := revokes.before there
    rw [one] at still
    rw [two] at still₁
    exact good.sole i j x y was was₁ (still.resolve_right nofun) (still₁.resolve_right nofun)
      (first.trans (same.trans second.symm))
  capped := by
    refine (Set.encard_le_encard ?_).trans good.capped
    rintro i ⟨a, here, pending⟩
    obtain ⟨x, was, -, -, still⟩ := revokes.before here
    rw [pending] at still
    exact ⟨x, was, still.resolve_right nofun⟩

theorem Revokes.moves (revokes : l.Revokes l₁) (good : l.Good) : l.Moves l₁ where
  keys i := by
    rcases revokes.key i with same | ⟨a, was, approved, now⟩
    · rw [same]
    · obtain ⟨d, has, -⟩ := good.bound i a was approved
      obtain ⟨status, deviceId, fingerprint⟩ := a
      cases approved
      cases has
      rw [was, now]
      exact .single (.revoke fingerprint d)
  pulled d pulled := revokes.pulled ▸ pulled
  consumed := revokes.consumed

/-- A key is pending. -/
def Waits (l : Life) (i : Nat) : Prop := ∃ fingerprint, l.key i = some ⟨.pending, none, fingerprint⟩

theorem Revokes.waits (revokes : l.Revokes l₁) (waits : l.Waits i) : l₁.Waits i := by
  obtain ⟨fingerprint, here⟩ := waits
  rcases revokes.key i with same | ⟨a, was, approved, -⟩
  · exact ⟨fingerprint, same.trans here⟩
  · cases here.symm.trans was
    cases approved

/-- A key that is pending now was never approved. -/
theorem Moves.waits (moves : l.Moves l₁) (waits : l₁.Waits i) (a : KeyLife) (here : l.key i = some a) :
    a.status ≠ .approved := by
  obtain ⟨fingerprint, now⟩ := waits
  have aged := moves.keys i
  rw [here, now] at aged
  rcases aged.cases_tail with same | ⟨b, earlier, edge⟩
  · cases same
    exact nofun
  · cases edge
    rcases earlier.cases_tail with same | ⟨c, -, edge⟩
    · cases same
    · cases edge

end Life

end Opale.Linux
