import Mathlib.Logic.Relation

namespace Opale

open Relation

variable {α : Type} {r r₁ new : α → α → Prop} {a b x y : α}

/-- No way leads from a node back to it. -/
def Acyclic (r : α → α → Prop) : Prop := ∀ a, ¬TransGen r a a

theorem Acyclic.mono (acyclic : Acyclic r) (fewer : ∀ a b, r₁ a b → r a b) : Acyclic r₁ :=
  fun a way => acyclic a (TransGen.mono fewer a a way)

theorem Acyclic.not_back (acyclic : Acyclic r) (link : r a b) : ¬ReflTransGen r b a :=
  fun way => acyclic a (.head' link way)

/-- A way through old links and new ones is old, or it passes by one that is new. -/
theorem transGen_old_or_new (links : ∀ a b, r₁ a b → r a b ∨ new a b) (way : TransGen r₁ x y) :
    TransGen r x y ∨ ∃ a b, new a b ∧ r₁ a b ∧ ReflTransGen r₁ x a ∧ ReflTransGen r₁ b y := by
  induction way with
  | single link =>
    rcases links _ _ link with old | added
    · exact .inl (.single old)
    · exact .inr ⟨_, _, added, link, .refl, .refl⟩
  | tail before link ih =>
    rcases ih with way | ⟨a, b, added, here, first, second⟩
    · rcases links _ _ link with old | added
      · exact .inl (way.tail old)
      · exact .inr ⟨_, _, added, link, before.to_reflTransGen, .refl⟩
    · exact .inr ⟨a, b, added, here, first, second.tail link⟩

/-- New links keep a relation acyclic when none of them leads back to where it comes from. -/
theorem Acyclic.added (acyclic : Acyclic r) (links : ∀ a b, r₁ a b → r a b ∨ new a b)
    (onward : ∀ a b, new a b → r₁ a b → ¬ReflTransGen r₁ b a) : Acyclic r₁ := by
  intro x way
  rcases transGen_old_or_new links way with old | ⟨a, b, added, here, first, second⟩
  · exact acyclic x old
  · exact onward a b added here (second.trans first)

/-- New links that go down in rank keep a relation acyclic, when no old way from the end of one to the start of another
goes up. -/
theorem Acyclic.ranked (acyclic : Acyclic r) (links : ∀ a b, r₁ a b → r a b ∨ new a b) (rank : α → Nat)
    (down : ∀ a b, new a b → rank b < rank a)
    (back : ∀ a b c d, new a b → new c d → ReflTransGen r b c → rank c ≤ rank b) : Acyclic r₁ := by
  refine acyclic.added links fun a b first _ way => ?_
  -- the last new link on the way, and the old way from there
  have along : ∀ y, ReflTransGen r₁ b y → ∃ c d, new c d ∧ rank d ≤ rank b ∧ ReflTransGen r d y := by
    intro y way
    induction way with
    | refl => exact ⟨a, b, first, Nat.le_refl _, .refl⟩
    | @tail y z _ link ih =>
      obtain ⟨c, d, added, below, old⟩ := ih
      rcases links y z link with here | there
      · exact ⟨c, d, added, below, old.tail here⟩
      · have lower := down y z there
        have steady := back c d y z added there old
        exact ⟨y, z, there, by omega, .refl⟩
  obtain ⟨c, d, added, below, old⟩ := along a way
  have lower := down a b first
  have steady := back c d a b added first old
  omega

/-- Whoever gets to `a` with the help of a link from `a` gets there without it. -/
theorem reflTransGen_without {c : α} (links : ∀ x y, r₁ x y → r x y ∨ x = a) (way : ReflTransGen r₁ c a) :
    ReflTransGen r c a := by
  have either : ∀ y, ReflTransGen r₁ c y → ReflTransGen r c y ∨ ReflTransGen r c a := by
    intro y way
    induction way with
    | refl => exact .inl .refl
    | tail _ link ih =>
      rcases ih with old | there
      · rcases links _ _ link with same | rfl
        · exact .inl (old.tail same)
        · exact .inr old
      · exact .inr there
  exact (either a way).elim id id

end Opale
