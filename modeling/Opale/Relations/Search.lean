import Mathlib.Data.Finset.Card
import Mathlib.Data.List.Induction
import Mathlib.Order.WellFounded
import Mathlib.Tactic.Common

namespace Opale

variable {α : Type} {next : α → List α} {n m : Nat} {x y : α} {c p q : List Nat}

/-- A depth-first search that goes `left` nodes deep: the nodes that it has entered. -/
def enter [DecidableEq α] (next : α → List α) : Nat → α → List α → List α
  | 0, _, seen => seen
  | left + 1, x, seen =>
    if x ∈ seen then seen else (next x).foldl (fun seen y => enter next left y seen) (x :: seen)

/-- Where a chain of successors leads from a node, each of them given by its position. -/
def endOf (next : α → List α) : α → List Nat → Option α
  | x, [] => some x
  | x, i :: c => (next x)[i]?.bind fun y => endOf next y c

theorem endOf_append (c d : List Nat) : endOf next x (c ++ d) = (endOf next x c).bind fun y => endOf next y d := by
  induction c generalizing x with
  | nil => rfl
  | cons i c ih =>
    simp only [List.cons_append, endOf]
    cases (next x)[i]? with
    | none => rfl
    | some y => exact ih

/-- What comes before a chain that is one step longer. -/
theorem lt_append_singleton : p < c ++ [m] ↔ p < c ∨ p = c ∨ ∃ j s, j < m ∧ p = c ++ j :: s := by
  induction c generalizing p with
  | nil =>
    cases p with
    | nil => simp
    | cons j s => simp [List.cons_lt_cons_iff]
  | cons i c ih =>
    cases p with
    | nil => simp
    | cons j s =>
      rw [List.cons_append, List.cons_lt_cons_iff, List.cons_lt_cons_iff, ih]
      constructor
      · rintro (less | ⟨rfl, before | rfl | ⟨k, t, less, rfl⟩⟩)
        · exact .inl (.inl less)
        · exact .inl (.inr ⟨rfl, before⟩)
        · exact .inr (.inl rfl)
        · exact .inr (.inr ⟨k, t, less, rfl⟩)
      · rintro ((less | ⟨rfl, before⟩) | same | ⟨k, t, less, same⟩)
        · exact .inl less
        · exact .inr ⟨rfl, .inl before⟩
        · cases same
          exact .inr ⟨rfl, .inr (.inl rfl)⟩
        · cases same
          exact .inr ⟨rfl, .inr (.inr ⟨k, t, less, rfl⟩)⟩

theorem lt_append_succ : p < c ++ [m + 1] ↔ p < c ++ [m] ∨ c ++ [m] <+: p := by
  rw [lt_append_singleton, lt_append_singleton]
  constructor
  · rintro (before | rfl | ⟨j, s, less, rfl⟩)
    · exact .inl (.inl before)
    · exact .inl (.inr (.inl rfl))
    · rcases Nat.lt_succ_iff_lt_or_eq.mp less with less | rfl
      · exact .inl (.inr (.inr ⟨j, s, less, rfl⟩))
      · exact .inr ⟨s, by simp⟩
  · rintro ((before | rfl | ⟨j, s, less, rfl⟩) | ⟨s, rfl⟩)
    · exact .inl before
    · exact .inr (.inl rfl)
    · exact .inr (.inr ⟨j, s, Nat.lt_succ_of_lt less, rfl⟩)
    · exact .inr (.inr ⟨m, s, Nat.lt_succ_self m, by simp⟩)

theorem lt_of_isPrefix (starts : p <+: c) (other : p ≠ c) : p < c := by
  obtain ⟨s, rfl⟩ := starts
  induction p with
  | nil =>
    cases s with
    | nil => exact absurd rfl other
    | cons => exact List.nil_lt_cons _ _
  | cons i p ih =>
    rw [List.cons_append, List.cons_lt_cons_iff]
    exact .inr ⟨rfl, ih fun same => other (congrArg (i :: ·) same)⟩

theorem lt_of_lt_of_isPrefix (less : p < c) (starts : c <+: q) : p < q := by
  by_cases same : c = q
  · exact same ▸ less
  · exact List.lt_trans less (lt_of_isPrefix starts same)

/-- A chain that comes before another ends on it, or leaves it for an earlier successor. -/
theorem isPrefix_or_fork (less : p < c) :
    p <+: c ∨ ∃ r i j, i < j ∧ r ++ [i] <+: p ∧ r ++ [j] <+: c := by
  induction c generalizing p with
  | nil => exact absurd less (List.not_lt_nil p)
  | cons j c ih =>
    cases p with
    | nil => exact .inl List.nil_prefix
    | cons i p =>
      rcases List.cons_lt_cons_iff.mp less with smaller | ⟨rfl, later⟩
      · exact .inr ⟨[], i, j, smaller, List.prefix_append [i] p, List.prefix_append [j] c⟩
      · rcases ih later with starts | ⟨r, i', j', smaller, first, second⟩
        · exact .inl (List.cons_prefix_cons.mpr ⟨rfl, starts⟩)
        · exact .inr ⟨i :: r, i', j', smaller, List.cons_prefix_cons.mpr ⟨rfl, first⟩, List.cons_prefix_cons.mpr ⟨rfl, second⟩⟩

theorem lt_of_fork {r : List Nat} {i j : Nat} (smaller : i < j) (first : r ++ [i] <+: p) (second : r ++ [j] <+: c) : p < c := by
  induction r generalizing p c with
  | nil =>
    obtain ⟨s, rfl⟩ := first
    obtain ⟨t, rfl⟩ := second
    exact List.cons_lt_cons_iff.mpr (.inl smaller)
  | cons k r ih =>
    obtain ⟨s, rfl⟩ := first
    obtain ⟨t, rfl⟩ := second
    exact List.cons_lt_cons_iff.mpr (.inr ⟨rfl, ih (List.prefix_append _ s) (List.prefix_append _ t)⟩)

/-- A chain that comes to no node twice. -/
def Straight (next : α → List α) (x : α) (c : List Nat) : Prop :=
  (endOf next x c).isSome ∧ ∀ p q, p <+: c → q <+: c → endOf next x p = endOf next x q → p = q

theorem straight_nil : Straight next x [] := by
  refine ⟨rfl, fun p q first second _ => ?_⟩
  rw [List.prefix_nil.mp first, List.prefix_nil.mp second]

theorem isSome_of_isPrefix (ends : (endOf next x c).isSome) (starts : p <+: c) : (endOf next x p).isSome := by
  obtain ⟨s, rfl⟩ := starts
  rw [endOf_append] at ends
  exact Option.isSome_of_isSome_bind ends

theorem Straight.starts (straight : Straight next x c) (starts : p <+: c) : Straight next x p :=
  ⟨isSome_of_isPrefix straight.1 starts, fun a b first second => straight.2 a b (first.trans starts) (second.trans starts)⟩

theorem mem_of_endOf {nodes : Finset α} (start : x ∈ nodes) (closed : ∀ y ∈ nodes, ∀ z ∈ next y, z ∈ nodes)
    (ends : endOf next x c = some y) : y ∈ nodes := by
  induction c generalizing x with
  | nil =>
    cases ends
    exact start
  | cons i c ih =>
    obtain ⟨z, child, ends⟩ := Option.bind_eq_some_iff.mp ends
    exact ih (closed x start z (List.mem_of_getElem? child)) ends

/-- A straight chain is shorter than there are nodes. -/
theorem Straight.length_lt {nodes : Finset α} (straight : Straight next x c) (start : x ∈ nodes)
    (closed : ∀ y ∈ nodes, ∀ z ∈ next y, z ∈ nodes) : c.length < nodes.card := by
  have ends (i : Nat) : ∃ y, endOf next x (c.take i) = some y :=
    Option.isSome_iff_exists.mp (isSome_of_isPrefix straight.1 (List.take_prefix i c))
  choose node there using ends
  have apart : Set.InjOn node (Finset.range (c.length + 1)) := by
    intro i inside j inside' same
    have one := straight.2 _ _ (List.take_prefix i c) (List.take_prefix j c) (by rw [there, there, same])
    have lengths := congrArg List.length one
    rw [List.length_take, List.length_take] at lengths
    have first := Finset.mem_range.mp (Finset.mem_coe.mp inside)
    have second := Finset.mem_range.mp (Finset.mem_coe.mp inside')
    omega
  have bounded := Finset.card_le_card_of_injOn node (fun i _ => mem_of_endOf start closed (there i)) apart
  rwa [Finset.card_range] at bounded

/-- One more step of a straight chain, or the beginning of it that has come to the same node. -/
theorem Straight.step {k : Nat} (straight : Straight next x p) (ends : (endOf next x (p ++ [k])).isSome) :
    ∃ p₁, Straight next x p₁ ∧ endOf next x p₁ = endOf next x (p ++ [k]) ∧ (p₁ <+: p ∨ p₁ = p ++ [k]) := by
  by_cases met : ∃ p₁, p₁ <+: p ∧ endOf next x p₁ = endOf next x (p ++ [k])
  · obtain ⟨p₁, starts, same⟩ := met
    exact ⟨p₁, straight.starts starts, same, .inl starts⟩
  · refine ⟨p ++ [k], ⟨ends, fun a b first second same => ?_⟩, rfl, .inr rfl⟩
    rcases List.prefix_concat_iff.mp first with rfl | first
    · rcases List.prefix_concat_iff.mp second with rfl | second
      · rfl
      · exact absurd ⟨b, second, same.symm⟩ met
    · rcases List.prefix_concat_iff.mp second with rfl | second
      · exact absurd ⟨a, first, same⟩ met
      · exact straight.2 a b first second same

/-- What a chain leads to, a straight one leads to. -/
theorem exists_straight (ends : endOf next x c = some y) : ∃ p, Straight next x p ∧ endOf next x p = some y := by
  induction c using List.reverseRecOn generalizing y with
  | nil => exact ⟨[], straight_nil, ends⟩
  | append_singleton c k ih =>
    rw [endOf_append] at ends
    obtain ⟨z, before, last⟩ := Option.bind_eq_some_iff.mp ends
    obtain ⟨p, straight, same⟩ := ih before
    have here : endOf next x (p ++ [k]) = some y := by
      rw [endOf_append, same]
      exact last
    obtain ⟨p₁, straight₁, same₁, -⟩ := straight.step (Option.isSome_of_eq_some here)
    exact ⟨p₁, straight₁, same₁.trans here⟩

/-- A chain that comes to a node of a straight one before it does is before it at all that follows. -/
theorem Straight.overtake {s : List Nat} (straight : Straight next x p) (less : p < c) (same : endOf next x p = endOf next x c)
    (longer : Straight next x (c ++ s)) : ∃ p₁, Straight next x p₁ ∧ p₁ < c ∧ endOf next x p₁ = endOf next x (c ++ s) := by
  rcases isPrefix_or_fork less with starts | ⟨r, i, j, smaller, first, second⟩
  · have one := longer.2 p c (starts.trans (List.prefix_append c s)) (List.prefix_append c s) same
    rw [one] at less
    exact absurd less (List.lt_irrefl c)
  · -- along `s`, a straight chain that leaves at the fork
    have along : ∀ s, Straight next x (c ++ s) → ∃ p₁, Straight next x p₁ ∧ r ++ [i] <+: p₁ ∧
        endOf next x p₁ = endOf next x (c ++ s) := by
      intro s
      induction s using List.reverseRecOn with
      | nil =>
        intro _
        exact ⟨p, straight, first, by rw [List.append_nil, same]⟩
      | append_singleton s k ih =>
        intro longer
        rw [← List.append_assoc] at longer
        obtain ⟨p₁, straight₁, leaves, same₁⟩ := ih (longer.starts (List.prefix_append _ _))
        have there : endOf next x (p₁ ++ [k]) = endOf next x (c ++ s ++ [k]) := by
          rw [endOf_append, endOf_append, same₁]
        obtain ⟨p₂, straight₂, same₂, begins⟩ := straight₁.step (there ▸ longer.1)
        rw [← List.append_assoc]
        refine ⟨p₂, straight₂, ?_, same₂.trans there⟩
        rcases begins with begins | rfl
        · rcases List.prefix_or_prefix_of_prefix leaves begins with after | before
          · exact after
          · rcases List.prefix_concat_iff.mp before with rfl | before
            · exact List.prefix_rfl
            · -- a beginning of `r` is one of `c` too, which does not come to a node twice
              have within : p₂ <+: c := before.trans ((List.prefix_append r [j]).trans second)
              have one := longer.2 p₂ _ (within.trans ((List.prefix_append c s).trans (List.prefix_append _ _))) List.prefix_rfl
                (same₂.trans there)
              have shorter := within.length_le
              rw [one, List.length_append, List.length_append, List.length_singleton] at shorter
              omega
        · exact leaves.trans (List.prefix_append _ _)
    obtain ⟨p₁, straight₁, leaves, same₁⟩ := along s longer
    exact ⟨p₁, straight₁, lt_of_fork smaller leaves second, same₁⟩

/-- A straight chain that no other one to the same node comes before. -/
def First (next : α → List α) (x : α) (c : List Nat) : Prop :=
  Straight next x c ∧ ∀ p, Straight next x p → endOf next x p = endOf next x c → ¬p < c

/-- The nodes at the ends of the straight chains before `c`. -/
def Before (next : α → List α) (x : α) (c : List Nat) (y : α) : Prop :=
  ∃ p, Straight next x p ∧ endOf next x p = some y ∧ p < c

/-- The nodes at the ends of the straight chains before `c`, and of those that go on from there. -/
def Through (next : α → List α) (x : α) (c : List Nat) (y : α) : Prop :=
  ∃ p, Straight next x p ∧ endOf next x p = some y ∧ (p < c ∨ c <+: p)

theorem before_cons {seen : List α} {z : α} (ends : endOf next x c = some z) (straight : Straight next x c)
    (before : ∀ y, y ∈ seen ↔ Before next x c y) (y : α) : y ∈ z :: seen ↔ Before next x (c ++ [0]) y := by
  rw [List.mem_cons, before]
  constructor
  · rintro (rfl | ⟨p, earlier, here, less⟩)
    · exact ⟨c, straight, ends, lt_append_singleton.mpr (.inr (.inl rfl))⟩
    · exact ⟨p, earlier, here, lt_append_singleton.mpr (.inl less)⟩
  · rintro ⟨p, earlier, here, less⟩
    rcases lt_append_singleton.mp less with less | rfl | ⟨j, s, none_, -⟩
    · exact .inr ⟨p, earlier, here, less⟩
    · exact .inl (Option.some.inj (here.symm.trans ends))
    · exact absurd none_ (Nat.not_lt_zero j)

/-- After the last successor, everything behind `c` has been searched. -/
theorem before_last {z : α} (ends : endOf next x c = some z) (y : α) :
    Before next x (c ++ [(next z).length]) y ↔ Through next x c y := by
  constructor
  · rintro ⟨p, straight, here, less⟩
    refine ⟨p, straight, here, ?_⟩
    rcases lt_append_singleton.mp less with less | rfl | ⟨j, s, -, rfl⟩
    · exact .inl less
    · exact .inr List.prefix_rfl
    · exact .inr (List.prefix_append _ _)
  · rintro ⟨p, straight, here, less | ⟨s, rfl⟩⟩
    · exact ⟨p, straight, here, lt_append_singleton.mpr (.inl less)⟩
    · refine ⟨_, straight, here, lt_append_singleton.mpr (.inr ?_)⟩
      cases s with
      | nil => exact .inl (List.append_nil c)
      | cons j s =>
        rw [endOf_append, ends] at here
        have here : endOf next z (j :: s) = some y := here
        obtain ⟨w, inside, -⟩ := Option.bind_eq_some_iff.mp here
        exact .inr ⟨j, s, (List.getElem?_eq_some_iff.mp inside).1, rfl⟩

/-- Behind a node that was met before, nothing is new. -/
theorem through_of_met {z : α} (ends : endOf next x c = some z) (met : Before next x c z) (y : α) :
    Before next x c y ↔ Through next x c y := by
  constructor
  · rintro ⟨p, straight, here, less⟩
    exact ⟨p, straight, here, .inl less⟩
  · rintro ⟨p, straight, here, less | ⟨s, rfl⟩⟩
    · exact ⟨p, straight, here, less⟩
    · obtain ⟨q, other, there, earlier⟩ := met
      obtain ⟨p₁, straight₁, less, same⟩ := other.overtake earlier (there.trans ends.symm) straight
      exact ⟨p₁, straight₁, same.trans here, less⟩

theorem through_succ {k : Nat} (y : α) : Through next x (c ++ [k]) y ↔ Before next x (c ++ [k + 1]) y := by
  unfold Through Before
  simp only [lt_append_succ]

/-- A node that has not been met, at the end of a chain whose beginnings are straight, is at the end of a first chain. -/
theorem first_of_new {z : α} (ends : endOf next x c = some z) (called : ∀ p, p <+: c → p ≠ c → Straight next x p)
    (new : ¬Before next x c z) : First next x c := by
  have fresh (p : List Nat) (starts : p <+: c) (same : endOf next x p = some z) : p = c := by
    by_contra other
    exact new ⟨p, called p starts other, same, lt_of_isPrefix starts other⟩
  refine ⟨⟨by rw [ends]; rfl, fun a b first second same => ?_⟩, fun p straight same less => ?_⟩
  · by_cases last : a = c
    · rw [last, ends] at same
      rw [last, fresh b second same.symm]
    · by_cases last' : b = c
      · rw [last', ends] at same
        exact absurd (fresh a first same) last
      · rcases List.prefix_or_prefix_of_prefix first second with inside | inside
        · exact (called b second last').2 a b inside List.prefix_rfl same
        · exact (called a first last).2 a b List.prefix_rfl inside same
  · exact new ⟨p, straight, same.trans ends, less⟩

theorem endOf_concat {z w : α} {k : Nat} (ends : endOf next x c = some z) (child : (next z)[k]? = some w) :
    endOf next x (c ++ [k]) = some w := by
  rw [endOf_append, ends]
  simp [endOf, child]

theorem called_concat {k : Nat} (straight : Straight next x c) (p : List Nat) (starts : p <+: c ++ [k]) (other : p ≠ c ++ [k]) :
    Straight next x p := by
  rcases List.prefix_concat_iff.mp starts with same | shorter
  · exact absurd same other
  · exact straight.starts shorter

/-- Behind a node that was met before there are no first chains. -/
theorem not_first_of_met {z : α} (ends : endOf next x c = some z) (met : Before next x c z) (starts : c <+: q) : ¬First next x q := by
  rintro ⟨straight, least⟩
  obtain ⟨s, rfl⟩ := starts
  obtain ⟨p, other, there, earlier⟩ := met
  obtain ⟨p₁, straight₁, less, same⟩ := other.overtake earlier (there.trans ends.symm) straight
  exact least p₁ straight₁ same (lt_of_lt_of_isPrefix less (List.prefix_append c s))

theorem called_nil (p : List Nat) (starts : p <+: []) (other : p ≠ []) : Straight next x p :=
  absurd (List.prefix_nil.mp starts) other

theorem before_nil (y : α) : y ∈ ([] : List α) ↔ Before next x [] y := by
  refine iff_of_false List.not_mem_nil ?_
  rintro ⟨p, -, -, less⟩
  exact absurd less (List.not_lt_nil p)

variable [DecidableEq α]

/-- The search comes to a node that it has not entered when it may go no deeper. -/
inductive Cut (next : α → List α) : Nat → α → List α → Prop
  | here {z seen} : z ∉ seen → Cut next 0 z seen
  | deeper {left z seen k w} : z ∉ seen → (next z)[k]? = some w →
      Cut next left w (((next z).take k).foldl (fun seen w => enter next left w seen) (z :: seen)) → Cut next (left + 1) z seen

/-- What a search has entered from the end of `c` on, after what comes before `c`. -/
def Complete (next : α → List α) (x : α) (left : Nat) : Prop :=
  ∀ c z seen, endOf next x c = some z → (∀ p, p <+: c → p ≠ c → Straight next x p) → (∀ y, y ∈ seen ↔ Before next x c y) →
    ¬Cut next left z seen → ∀ y, y ∈ enter next left z seen ↔ Through next x c y

/-- The first `k` successors one after the other, none of whose searches is cut. -/
theorem mem_foldl_enter {left k : Nat} {z : α} {seen : List α} (complete : Complete next x left) (ends : endOf next x c = some z)
    (straight : Straight next x c) (before : ∀ y, y ∈ seen ↔ Before next x c y)
    (uncut : ∀ j w, j < k → (next z)[j]? = some w →
      ¬Cut next left w (((next z).take j).foldl (fun seen w => enter next left w seen) (z :: seen)))
    (inside : k ≤ (next z).length) (y : α) :
    y ∈ ((next z).take k).foldl (fun seen w => enter next left w seen) (z :: seen) ↔ Before next x (c ++ [k]) y := by
  induction k generalizing y with
  | zero => exact before_cons ends straight before y
  | succ k ih =>
    have here := ih (fun j w less => uncut j w (Nat.lt_succ_of_lt less)) (Nat.le_of_succ_le inside)
    have child : (next z)[k]? = some (next z)[k] := List.getElem?_eq_getElem inside
    rw [List.take_add_one, child, List.foldl_append, ← through_succ]
    exact complete _ _ _ (endOf_concat ends child) (called_concat straight) here (uncut k _ (Nat.lt_succ_self k) child) y

theorem complete (left : Nat) : Complete next x left := by
  induction left with
  | zero =>
    intro c z seen ends called before uncut y
    have met : z ∈ seen := by
      by_contra new
      exact uncut (.here new)
    exact (before y).trans (through_of_met ends ((before z).mp met) y)
  | succ left ih =>
    intro c z seen ends called before uncut y
    unfold enter
    split
    case isTrue met => exact (before y).trans (through_of_met ends ((before z).mp met) y)
    case isFalse new =>
      have first := first_of_new ends called fun met => new ((before z).mpr met)
      have all := mem_foldl_enter ih ends first.1 before (k := (next z).length)
        (fun j w _ child cut => uncut (.deeper new child cut)) le_rfl y
      rw [List.take_length] at all
      exact all.trans (before_last ends y)

/-- A search that is not cut has gone all first chains to their ends. -/
theorem first_short {left : Nat} {z : α} {seen : List α} (ends : endOf next x c = some z)
    (called : ∀ p, p <+: c → p ≠ c → Straight next x p) (before : ∀ y, y ∈ seen ↔ Before next x c y)
    (uncut : ¬Cut next left z seen) (first : First next x q) (starts : c <+: q) : q.length < c.length + left := by
  induction left generalizing c z seen with
  | zero =>
    have met : z ∈ seen := by
      by_contra new
      exact uncut (.here new)
    exact absurd first (not_first_of_met ends ((before z).mp met) starts)
  | succ left ih =>
    by_cases met : z ∈ seen
    · exact absurd first (not_first_of_met ends ((before z).mp met) starts)
    · have own := first_of_new ends called fun here => met ((before z).mpr here)
      obtain ⟨s, rfl⟩ := starts
      cases s with
      | nil =>
        rw [List.append_nil]
        omega
      | cons k s =>
        have some_ := first.1.1
        rw [endOf_append, ends] at some_
        have child : ((next z)[k]?).isSome := Option.isSome_of_isSome_bind some_
        obtain ⟨w, child⟩ := Option.isSome_iff_exists.mp child
        have inside : k ≤ (next z).length := (List.getElem?_eq_some_iff.mp child).1.le
        have here := mem_foldl_enter (complete left) ends own.1 before
          (fun j w _ child cut => uncut (.deeper met child cut)) inside
        have shorter := ih (endOf_concat ends child) (called_concat own.1) here (fun cut => uncut (.deeper met child cut))
          ⟨s, by rw [List.append_assoc, List.singleton_append]⟩
        have one : (c ++ [k]).length = c.length + 1 := List.length_append
        omega

/-- Where a search is cut for the first time, a first chain goes on. -/
theorem first_of_cut {left : Nat} {z : α} {seen : List α} (ends : endOf next x c = some z)
    (called : ∀ p, p <+: c → p ≠ c → Straight next x p) (before : ∀ y, y ∈ seen ↔ Before next x c y)
    (cut : Cut next left z seen) : ∃ q, First next x q ∧ c <+: q ∧ q.length = c.length + left := by
  induction left generalizing c z seen with
  | zero =>
    obtain ⟨new⟩ := cut
    exact ⟨c, first_of_new ends called fun met => new ((before z).mpr met), List.prefix_rfl, rfl⟩
  | succ left ih =>
    cases cut with
    | @deeper _ _ _ k w new child cut =>
      have own := first_of_new ends called fun met => new ((before z).mpr met)
      induction k using Nat.strong_induction_on generalizing w with
      | _ k earlier =>
        by_cases early : ∃ j w, j < k ∧ (next z)[j]? = some w ∧
            Cut next left w (((next z).take j).foldl (fun seen w => enter next left w seen) (z :: seen))
        · obtain ⟨j, w, less, child, cut⟩ := early
          exact earlier j less child cut
        · have inside : k ≤ (next z).length := (List.getElem?_eq_some_iff.mp child).1.le
          have here := mem_foldl_enter (complete left) ends own.1 before
            (fun j w less child cut => early ⟨j, w, less, child, cut⟩) inside
          obtain ⟨q, first, starts, long⟩ := ih (endOf_concat ends child) (called_concat own.1) here cut
          rw [List.length_append, List.length_singleton] at long
          exact ⟨q, first, (List.prefix_append c [k]).trans starts, by omega⟩

/-- A search is cut exactly when some first chain is longer than it may go. -/
theorem cut_iff : Cut next (n + 1) x [] ↔ ∃ c, First next x c ∧ n < c.length := by
  constructor
  · intro cut
    obtain ⟨q, first, -, long⟩ := first_of_cut rfl called_nil before_nil cut
    rw [List.length_nil] at long
    exact ⟨q, first, by omega⟩
  · rintro ⟨c, first, long⟩
    by_contra uncut
    have shorter := first_short rfl called_nil before_nil uncut first List.nil_prefix
    rw [List.length_nil] at shorter
    omega

/-- A search that is not cut enters whatever its start leads to. -/
theorem mem_search (uncut : ¬Cut next n x []) (y : α) : y ∈ enter next n x [] ↔ ∃ c, endOf next x c = some y := by
  refine (complete n [] x [] rfl called_nil before_nil uncut y).trans ⟨?_, ?_⟩
  · rintro ⟨p, -, ends, -⟩
    exact ⟨p, ends⟩
  · rintro ⟨c, ends⟩
    obtain ⟨p, straight, same⟩ := exists_straight ends
    exact ⟨p, straight, same, .inr List.nil_prefix⟩

end Opale
