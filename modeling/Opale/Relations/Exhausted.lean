import Mathlib.Data.Finset.Card
import Mathlib.Logic.Relation

namespace Opale

open Relation

variable {α : Type} (r : α → α → Prop) (target : α)

/-- What a search has entered when it has not met its target: nothing new leads out of it. -/
structure Exhausted (starts seen seen₁ : List α) : Prop where
  kept : seen ⊆ seen₁
  entered : ∀ x ∈ starts, x ∈ seen₁
  apart : ∀ x ∈ seen₁, x ∉ seen → x ≠ target
  closed : ∀ x ∈ seen₁, x ∉ seen → ∀ y, r x y → y ∈ seen₁

variable {r target} {x : α} {rows seen seen₁ seen₂ : List α}

/-- With fewer links, a search has entered enough all the more. -/
theorem Exhausted.mono {r₁ : α → α → Prop} {starts : List α} (all : Exhausted r target starts seen seen₁)
    (fewer : ∀ x y, r₁ x y → r x y) : Exhausted r₁ target starts seen seen₁ where
  kept := all.kept
  entered := all.entered
  apart := all.apart
  closed x inside new y link := all.closed x inside new y (fewer x y link)

theorem Exhausted.cons (first : Exhausted r target [x] seen seen₁) (later : Exhausted r target rows seen₁ seen₂) :
    Exhausted r target (x :: rows) seen seen₂ where
  kept := List.Subset.trans first.kept later.kept
  entered := by
    have here := later.kept (first.entered x (List.mem_singleton_self x))
    exact List.forall_mem_cons.mpr ⟨here, later.entered⟩
  apart y inside new := by
    by_cases early : y ∈ seen₁
    · exact first.apart y early new
    · exact later.apart y inside early
  closed y inside new z link := by
    by_cases early : y ∈ seen₁
    · exact later.kept (first.closed y early new z link)
    · exact later.closed y inside early z link

/-- A node, once its successors have been searched. -/
theorem Exhausted.enter (other : x ≠ target) (links : ∀ y, r x y → y ∈ rows)
    (below : Exhausted r target rows (x :: seen) seen₁) : Exhausted r target [x] seen seen₁ where
  kept := List.Subset.trans (List.subset_cons_self x seen) below.kept
  entered := by simpa using below.kept List.mem_cons_self
  apart y inside new := by
    by_cases self : y = x
    · rwa [self]
    · exact below.apart y inside (List.not_mem_cons_of_ne_of_not_mem self new)
  closed y inside new z link := by
    by_cases self : y = x
    · subst self
      exact below.entered z (links z link)
    · exact below.closed y inside (List.not_mem_cons_of_ne_of_not_mem self new) z link

/-- A search that starts with nothing entered has entered all that its start leads to. -/
theorem Exhausted.not_leads (all : Exhausted r target [x] [] seen₁) : ¬ReflTransGen r x target := by
  intro leads
  have inside : ∀ y, ReflTransGen r x y → y ∈ seen₁ := by
    intro y way
    induction way with
    | refl => exact all.entered x (List.mem_singleton_self x)
    | tail _ link ih => exact all.closed _ ih List.not_mem_nil _ link
  exact all.apart target (inside target leads) List.not_mem_nil rfl

/-- How many nodes a search has not entered yet. -/
def fresh [DecidableEq α] (nodes : Finset α) (seen : List α) : Nat := (nodes.filter (· ∉ seen)).card

theorem fresh_mono [DecidableEq α] {nodes : Finset α} (more : seen ⊆ seen₁) : fresh nodes seen₁ ≤ fresh nodes seen := by
  refine Finset.card_le_card fun x inside => ?_
  rw [Finset.mem_filter] at inside ⊢
  exact ⟨inside.1, fun early => inside.2 (more early)⟩

theorem fresh_cons [DecidableEq α] {nodes : Finset α} (member : x ∈ nodes) (new : x ∉ seen) :
    fresh nodes (x :: seen) < fresh nodes seen := by
  refine Finset.card_lt_card (Finset.ssubset_iff_of_subset ?_ |>.mpr ⟨x, ?_, ?_⟩)
  · intro y inside
    rw [Finset.mem_filter] at inside ⊢
    exact ⟨inside.1, fun early => inside.2 (List.mem_cons_of_mem x early)⟩
  · exact Finset.mem_filter.mpr ⟨member, new⟩
  · simp

end Opale
