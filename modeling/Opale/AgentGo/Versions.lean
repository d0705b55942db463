import Opale.Js.Number
import Opale.Relations.Lexicographic

namespace Opale.AgentGo

open Js

/-- The first two that differ decide. -/
def greater {α : Type} [LT α] [DecidableLT α] : List (α × α) → Bool
  | [] => false
  | (a, b) :: rest => if b < a then true else if a < b then false else greater rest

def components (version : List Char) : List (List Char) := version.splitOn '.'

/-- `pa[i] || 0`, each component read by `read`. -/
def component (read : List Char → Option JsNumber) (version : List Char) (i : Nat) : JsNumber :=
  orZero ((components version)[i]?.bind read)

namespace Server

/-- semverGt of the route of agents -/
def semverGt (a b : List Char) : Bool := greater ((List.range 3).map fun i => (component number a i, component number b i))

end Server

namespace Compliance

/-- semverGt of the compliance rules -/
def semverGt (a b : List Char) : Bool :=
  greater ((List.range (max (components a).length (components b).length)).map fun i =>
    (component parseInt a i, component parseInt b i))

end Compliance

/-- An `int` after an operation on it. -/
def int64 (n : Int) : Int := n.bmod (2 ^ 64)

def atoiFrom (n : Int) : List Char → Int
  | [] => n
  | c :: rest => if isDigit c then atoiFrom (int64 (int64 (n * 10) + digitValue c)) rest else n

def atoiSafe (s : List Char) : Int := atoiFrom 0 s

def parseVer (version : List Char) (i : Nat) : Int := ((components version)[i]?.map atoiSafe).getD 0

/-- semverGT of the agent -/
def semverGT (a b : List Char) : Bool := greater ((List.range 3).map fun i => (parseVer a i, parseVer b i))

/-- The three comparisons of two versions give the same answer. -/
def ComparedAlike (a b : List Char) : Prop :=
  Server.semverGt a b = semverGT a b ∧ Compliance.semverGt a b = semverGT a b

instance (a b : List Char) : Decidable (ComparedAlike a b) := inferInstanceAs (Decidable (_ ∧ _))

/-- How the agent orders the component `i` of two versions. -/
def agentOrder (a b : List Char) (i : Nat) : Ordering := if i < 3 then cmp (parseVer a i) (parseVer b i) else .eq

def serverOrder (a b : List Char) (i : Nat) : Ordering :=
  if i < 3 then cmp (component number a i) (component number b i) else .eq

def complianceOrder (a b : List Char) (i : Nat) : Ordering := cmp (component parseInt a i) (component parseInt b i)

/-- `Number` and `parseInt` order the components of two versions as `atoiSafe` does, up to the first in which the agent
finds a difference; in one that finds none, those after the third are the same for `parseInt`. -/
def OrderedAlike (a b : List Char) : Prop :=
  SameUpToFirst (agentOrder a b) (serverOrder a b) ∧ SameUpToFirst (agentOrder a b) (complianceOrder a b)

/-- The first `n + 1` components of a version. -/
def firstComponents (n : Nat) (version : List Char) : List Char := ['.'].intercalate ((components version).take (n + 1))

section Greater

variable {α : Type} [LinearOrder α]

theorem greater_concat (pairs : List (α × α)) (a b : α) :
    greater (pairs ++ [(a, b)]) = true ↔ greater pairs = true ∨ (∀ p ∈ pairs, p.1 = p.2) ∧ b < a := by
  induction pairs with
  | nil => simp [greater]
  | cons p pairs ih =>
    obtain ⟨x, y⟩ := p
    rw [List.cons_append, greater, greater, List.forall_mem_cons]
    rcases lt_trichotomy x y with below | rfl | above
    · rw [if_neg below.asymm, if_pos below, if_neg below.asymm, if_pos below]
      simp [below.ne]
    · rw [if_neg (lt_irrefl x), if_neg (lt_irrefl x), if_neg (lt_irrefl x), if_neg (lt_irrefl x), ih]
      simp
    · simp [above]

/-- The loops of the three comparisons give the verdict of their components. -/
theorem greater_iff (x y : Nat → α) (n : Nat) :
    greater ((List.range n).map fun i => (x i, y i)) = true ↔ verdict (fun i => cmp (x i) (y i)) n = .gt := by
  induction n with
  | zero => exact iff_of_false nofun nofun
  | succ n ih =>
    have same : (∀ p ∈ (List.range n).map fun i => (x i, y i), p.1 = p.2) ↔ verdict (fun i => cmp (x i) (y i)) n = .eq := by
      rw [verdict_eq_iff, List.forall_mem_map]
      exact forall_congr' fun i => imp_congr List.mem_range (cmp_eq_eq_iff (x i) (y i)).symm
    rw [List.range_succ, List.map_append, List.map_singleton, greater_concat, ih, same, verdict_succ, ← cmp_eq_gt_iff]
    generalize cmp (x n) (y n) = last
    cases verdict (fun i => cmp (x i) (y i)) n with
    | lt => simp
    | eq => simp
    | gt => simp

end Greater

variable {a b v : List Char} {n i : Nat}

theorem component_of_le {read : List Char → Option JsNumber} (beyond : (components v).length ≤ i) :
    component read v i = (0 : ℚ) := by
  unfold component
  rw [List.getElem?_eq_none beyond]
  rfl

/-- A number of components that covers all those of two versions. -/
structure Covers (n : Nat) (a b : List Char) : Prop where
  three : 3 ≤ n
  left : (components a).length ≤ n
  right : (components b).length ≤ n

theorem Covers.swap (covers : Covers n a b) : Covers n b a := ⟨covers.three, covers.right, covers.left⟩

theorem agent_verdict (covers : Covers n a b) : semverGT a b = true ↔ verdict (agentOrder a b) n = .gt := by
  have beyond (i : Nat) (rest : 3 ≤ i) (_ : i < n) : agentOrder a b i = .eq := if_neg (Nat.not_lt.mpr rest)
  have first (i : Nat) (below : i < 3) : agentOrder a b i = cmp (parseVer a i) (parseVer b i) := if_pos below
  rw [verdict_of_le covers.three beyond, verdict_congr first]
  exact greater_iff (parseVer a) (parseVer b) 3

theorem server_verdict (covers : Covers n a b) : Server.semverGt a b = true ↔ verdict (serverOrder a b) n = .gt := by
  have beyond (i : Nat) (rest : 3 ≤ i) (_ : i < n) : serverOrder a b i = .eq := if_neg (Nat.not_lt.mpr rest)
  have first (i : Nat) (below : i < 3) : serverOrder a b i = cmp (component number a i) (component number b i) := if_pos below
  rw [verdict_of_le covers.three beyond, verdict_congr first]
  exact greater_iff (component number a) (component number b) 3

/-- Compliance compares any number of components, those that are missing for 0. -/
theorem compliance_verdict (covers : Covers n a b) :
    Compliance.semverGt a b = true ↔ verdict (complianceOrder a b) n = .gt := by
  have missing (i : Nat) (beyond : max (components a).length (components b).length ≤ i) (_ : i < n) :
      complianceOrder a b i = .eq := by
    rw [complianceOrder, component_of_le (le_of_max_le_left beyond), component_of_le (le_of_max_le_right beyond)]
    exact cmp_self_eq_eq _
  rw [verdict_of_le (max_le covers.left covers.right) missing]
  exact greater_iff (component parseInt a) (component parseInt b) _

theorem swap_orders : agentOrder b a = (fun i => (agentOrder a b i).swap) ∧ serverOrder b a = (fun i => (serverOrder a b i).swap) ∧
    complianceOrder b a = fun i => (complianceOrder a b i).swap := by
  refine ⟨funext fun i => ?_, funext fun i => ?_, funext fun i => (cmp_swap _ _).symm⟩
  · rw [agentOrder, agentOrder]
    by_cases below : i < 3
    · rw [if_pos below, if_pos below, cmp_swap]
    · rw [if_neg below, if_neg below]
      rfl
  · rw [serverOrder, serverOrder]
    by_cases below : i < 3
    · rw [if_pos below, if_pos below, cmp_swap]
    · rw [if_neg below, if_neg below]
      rfl

theorem ordering_ext {o p : Ordering} (above : o = .gt ↔ p = .gt) (below : o.swap = .gt ↔ p.swap = .gt) : o = p := by
  cases o <;> cases p <;> simp_all

/-- Two versions compared both ways: the three verdicts. -/
theorem comparedAlike_iff (covers : Covers n a b) : ComparedAlike a b ∧ ComparedAlike b a ↔
    verdict (serverOrder a b) n = verdict (agentOrder a b) n ∧
      verdict (complianceOrder a b) n = verdict (agentOrder a b) n := by
  unfold ComparedAlike
  obtain ⟨agent, server, compliance⟩ := @swap_orders a b
  simp only [Bool.eq_iff_iff, agent_verdict covers, server_verdict covers, compliance_verdict covers,
    agent_verdict covers.swap, server_verdict covers.swap, compliance_verdict covers.swap, agent, server, compliance, verdict_swap]
  constructor
  · rintro ⟨⟨serverAbove, complianceAbove⟩, serverBelow, complianceBelow⟩
    exact ⟨ordering_ext serverAbove serverBelow, ordering_ext complianceAbove complianceBelow⟩
  · rintro ⟨server, compliance⟩
    rw [server, compliance]
    exact ⟨⟨Iff.rfl, Iff.rfl⟩, Iff.rfl, Iff.rfl⟩

theorem OrderedAlike.compared (ordered : OrderedAlike a b) : ComparedAlike a b ∧ ComparedAlike b a := by
  have covers : Covers (max 3 (max (components a).length (components b).length)) a b := ⟨by omega, by omega, by omega⟩
  exact (comparedAlike_iff covers).mpr ⟨ordered.1.verdict _, ordered.2.verdict _⟩

section Prefixes

theorem not_mem_splitOn {α : Type} [BEq α] [LawfulBEq α] {x : α} {l part : List α} (member : part ∈ l.splitOn x) : x ∉ part := by
  induction l generalizing part with
  | nil =>
    rw [List.splitOn_nil, List.mem_singleton] at member
    rw [member]
    exact List.not_mem_nil
  | cons y rest ih =>
    rw [List.splitOn_cons_eq_if_modifyHead] at member
    split at member
    case isTrue =>
      rcases List.mem_cons.mp member with rfl | later
      · exact List.not_mem_nil
      · exact ih later
    case isFalse other =>
      cases pieces : rest.splitOn x with
      | nil => exact absurd pieces (List.splitOn_ne_nil x rest)
      | cons first pieces_ =>
        rw [pieces, List.modifyHead_cons] at member
        rcases List.mem_cons.mp member with rfl | later
        · rintro inside
          rcases List.mem_cons.mp inside with rfl | inside
          · exact other (beq_self_eq_true x)
          · exact ih (pieces ▸ List.mem_cons_self) inside
        · exact ih (pieces ▸ List.mem_cons_of_mem _ later)

theorem components_firstComponents (n : Nat) (v : List Char) :
    components (firstComponents n v) = (components v).take (n + 1) := by
  refine List.splitOn_intercalate '.' (fun part member => not_mem_splitOn (List.mem_of_mem_take member)) ?_
  intro nothing
  rcases List.take_eq_nil_iff.mp nothing with none_ | nothing
  · exact absurd none_ (Nat.succ_ne_zero n)
  · exact List.splitOn_ne_nil '.' v nothing

theorem component_firstComponents {read : List Char → Option JsNumber} :
    component read (firstComponents n v) i = if i ≤ n then component read v i else (0 : ℚ) := by
  unfold component
  rw [components_firstComponents, List.getElem?_take]
  by_cases inside : i ≤ n
  · rw [if_pos inside, if_pos (Nat.lt_succ_of_le inside)]
  · rw [if_neg inside, if_neg (fun below => inside (Nat.le_of_lt_succ below))]
    rfl

theorem parseVer_firstComponents : parseVer (firstComponents n v) i = if i ≤ n then parseVer v i else 0 := by
  unfold parseVer
  rw [components_firstComponents, List.getElem?_take]
  by_cases inside : i ≤ n
  · rw [if_pos inside, if_pos (Nat.lt_succ_of_le inside)]
  · rw [if_neg inside, if_neg (fun below => inside (Nat.le_of_lt_succ below))]
    rfl

/-- A place of the first components is that of the versions, or there is nothing on either side. -/
theorem orders_firstComponents (n i : Nat) :
    agentOrder (firstComponents n a) (firstComponents n b) i = (if i ≤ n then agentOrder a b i else .eq) ∧
      serverOrder (firstComponents n a) (firstComponents n b) i = (if i ≤ n then serverOrder a b i else .eq) ∧
        complianceOrder (firstComponents n a) (firstComponents n b) i = if i ≤ n then complianceOrder a b i else .eq := by
  have cut {α : Type} [Preorder α] [DecidableLT α] (x y z : α) :
      cmp (if i ≤ n then x else z) (if i ≤ n then y else z) = if i ≤ n then cmp x y else .eq := by
    by_cases inside : i ≤ n
    · rw [if_pos inside, if_pos inside, if_pos inside]
    · rw [if_neg inside, if_neg inside, if_neg inside, cmp, cmpUsing, if_neg (lt_irrefl z), if_neg (lt_irrefl z)]
  have nested (o : Ordering) : (if i < 3 then if i ≤ n then o else .eq else .eq) = if i ≤ n then if i < 3 then o else .eq else .eq := by
    by_cases inside : i ≤ n
    · rw [if_pos inside, if_pos inside]
    · rw [if_neg inside, if_neg inside, ite_self]
  rw [agentOrder, agentOrder, serverOrder, serverOrder, complianceOrder, complianceOrder]
  rw [parseVer_firstComponents, parseVer_firstComponents, component_firstComponents, component_firstComponents,
    component_firstComponents, component_firstComponents, cut, cut, cut]
  exact ⟨nested _, nested _, rfl⟩

theorem verdict_firstComponents {order cut : Nat → Ordering} (places : ∀ i, cut i = if i ≤ n then order i else .eq) {m : Nat}
    (within : n + 1 ≤ m) : verdict cut m = verdict order (n + 1) := by
  rw [verdict_of_le within fun i beyond _ => (places i).trans (if_neg (Nat.not_le.mpr beyond))]
  exact verdict_congr fun i below => (places i).trans (if_pos (Nat.le_of_lt_succ below))

theorem comparedAlike_firstComponents (n : Nat) :
    ComparedAlike (firstComponents n a) (firstComponents n b) ∧ ComparedAlike (firstComponents n b) (firstComponents n a) ↔
      verdict (serverOrder a b) (n + 1) = verdict (agentOrder a b) (n + 1) ∧
        verdict (complianceOrder a b) (n + 1) = verdict (agentOrder a b) (n + 1) := by
  have length (v : List Char) : (components (firstComponents n v)).length ≤ n + 1 := by
    rw [components_firstComponents, List.length_take]
    exact Nat.min_le_left ..
  have covers : Covers (n + 3) (firstComponents n a) (firstComponents n b) :=
    ⟨by omega, (length a).trans (by omega), (length b).trans (by omega)⟩
  rw [comparedAlike_iff covers, verdict_firstComponents (fun i => (orders_firstComponents n i).1) (by omega),
    verdict_firstComponents (fun i => (orders_firstComponents n i).2.1) (by omega),
    verdict_firstComponents (fun i => (orders_firstComponents n i).2.2) (by omega)]

end Prefixes

/-- Two versions whose components are ordered alike up to the first difference are compared alike, and so are all their
first components; when they are not ordered alike, some number of first components is compared otherwise. -/
theorem versions_compared (a b : List Char) : (OrderedAlike a b → ComparedAlike a b ∧ ComparedAlike b a) ∧
    (OrderedAlike a b ↔ ∀ n, ComparedAlike (firstComponents n a) (firstComponents n b) ∧
      ComparedAlike (firstComponents n b) (firstComponents n a)) := by
  refine ⟨OrderedAlike.compared, ?_⟩
  simp only [comparedAlike_firstComponents, forall_and]
  have first {order other : Nat → Ordering} : (∀ n, verdict other (n + 1) = verdict order (n + 1)) ↔ SameUpToFirst order other := by
    rw [← verdict_forall_iff]
    refine ⟨fun all n => ?_, fun all n => all (n + 1)⟩
    cases n with
    | zero => rfl
    | succ n => exact all n
  rw [first, first]
  rfl

/-- A suffix after the component that decides. -/
theorem versions_compared_release : ComparedAlike "2.16.3-rc1".toList "2.15.3".toList ∧ ComparedAlike "2.15.3".toList "2.16.3-rc1".toList := by
  refine (versions_compared _ _).1 ⟨?server, ?compliance⟩
  all_goals
    intro i before
    rcases i with _ | _ | i
    · decide +kernel
    · decide +kernel
    · exact absurd (before 1 (by omega)) (by decide)

/-- The server takes a component with a suffix for 0, the agent for its digits. -/
theorem suffix_compared : ¬∀ a b, ComparedAlike a b := by
  intro all
  have here := all "2.15.3-rc1".toList "2.15.2".toList
  revert here
  decide +kernel

end Opale.AgentGo
