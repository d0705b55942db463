import Opale.Relations.Exhausted
import Mathlib.Data.Finset.Dedup

namespace Opale.Relations

open Relation

/-- Why a node cannot be put in order. -/
inductive Unsorted (α : Type) where
  | cycle (node : α)
  | missing (node : α)
  | exhausted
  deriving DecidableEq

/-- What a depth-first sort has done so far. -/
structure Sorting (α : Type) where
  visiting : List α
  visited : List α
  result : List α

variable {α : Type} [DecidableEq α] (needs : α → Option (List α))

/-- `needs` has no answer for a node that does not exist. -/
def visit : Nat → α → Sorting α → Except (Unsorted α) (Sorting α)
  | 0, _, _ => .error .exhausted
  | left + 1, x, s =>
    if x ∈ s.visited then .ok s
    else if x ∈ s.visiting then .error (.cycle x)
    else
      match needs x with
      | none => .error (.missing x)
      | some deps => do
        let s ← deps.foldlM (fun s dep => visit left dep s) { s with visiting := x :: s.visiting }
        .ok ⟨s.visiting.erase x, x :: s.visited, s.result ++ [x]⟩

def visitAll (left : Nat) (xs : List α) (s : Sorting α) : Except (Unsorted α) (Sorting α) :=
  xs.foldlM (fun s x => visit needs left x s) s

/-- Every node comes once, and after all that it needs. -/
inductive InOrder : List α → Prop
  | nil : InOrder []
  | concat {order x deps} : InOrder order → x ∉ order → needs x = some deps → (∀ dep ∈ deps, dep ∈ order) →
      InOrder (order ++ [x])

def Needs (x y : α) : Prop := ∃ deps, needs x = some deps ∧ y ∈ deps

variable {needs} {order starts : List α} {x y : α} {s s₁ : Sorting α} {left : Nat}

omit [DecidableEq α] in
theorem InOrder.nodup (sorted : InOrder needs order) : order.Nodup := by
  induction sorted with
  | nil => exact List.nodup_nil
  | concat _ new _ _ ih => exact List.nodup_append.mpr ⟨ih, List.nodup_singleton _, fun a inside b last same => by
      rw [List.mem_singleton.mp last] at same
      exact new (same ▸ inside)⟩

omit [DecidableEq α] in
theorem InOrder.of_isPrefix {first : List α} (sorted : InOrder needs order) (starts : first <+: order) : InOrder needs first := by
  induction sorted with
  | nil =>
    rw [List.prefix_nil.mp starts]
    exact .nil
  | concat sorted new known all ih =>
    rcases List.prefix_concat_iff.mp starts with rfl | earlier
    · exact .concat sorted new known all
    · exact ih earlier

omit [DecidableEq α] in
theorem InOrder.exists_needs (sorted : InOrder needs order) (member : x ∈ order) : ∃ deps, needs x = some deps := by
  induction sorted with
  | nil => cases member
  | concat _ _ known _ ih =>
    rcases List.mem_append.mp member with earlier | last
    · exact ih earlier
    · rw [List.mem_singleton.mp last]
      exact ⟨_, known⟩

omit [DecidableEq α] in
/-- What comes before a node is enough for it. -/
theorem InOrder.before (sorted : InOrder needs order) {pre post : List α} (at_ : order = pre ++ x :: post) (need : Needs needs x y) :
    y ∈ pre := by
  induction sorted generalizing post with
  | nil => cases pre <;> cases at_
  | @concat order z deps sorted new known all ih =>
    rcases List.eq_nil_or_concat post with rfl | ⟨init, last, rfl⟩
    · obtain ⟨rfl, tail⟩ := List.append_inj' at_ rfl
      cases tail
      obtain ⟨deps', known', member⟩ := need
      cases known.symm.trans known'
      exact all y member
    · have split : order ++ [z] = (pre ++ x :: init) ++ [last] := by rw [at_]; simp
      exact ih (List.append_inj' split rfl).1

omit [DecidableEq α] in
theorem InOrder.closed (sorted : InOrder needs order) (member : x ∈ order) (need : Needs needs x y) : y ∈ order := by
  obtain ⟨pre, post, at_⟩ := List.append_of_mem member
  rw [at_]
  exact List.mem_append_left _ (sorted.before at_ need)

omit [DecidableEq α] in
/-- Nodes that are in order need each other in no circle. -/
theorem InOrder.acyclic (sorted : InOrder needs order) (member : x ∈ order) : ¬TransGen (Needs needs) x x := by
  induction sorted generalizing x with
  | nil => cases member
  | @concat order z deps sorted new known all ih =>
    have leads {a b : α} (inside : a ∈ order) (way : TransGen (Needs needs) a b) : b ∈ order := by
      induction way with
      | single need => exact sorted.closed inside need
      | tail _ need before => exact sorted.closed before need
    intro circle
    rcases List.mem_append.mp member with earlier | last
    · exact ih earlier circle
    · obtain rfl := List.mem_singleton.mp last
      obtain ⟨b, ⟨deps', known', first⟩, rest⟩ := TransGen.head'_iff.mp circle
      cases known.symm.trans known'
      have inside := all b first
      rcases reflTransGen_iff_eq_or_transGen.mp rest with rfl | way
      · exact new inside
      · exact new (leads inside way)

/-- What is known between two visits: `visited` and `result` are the same nodes, in order. -/
structure Sorting.Sound (s : Sorting α) (needs : α → Option (List α)) : Prop where
  ordered : InOrder needs s.result
  visited : ∀ a, a ∈ s.visited ↔ a ∈ s.result

/-- What a visit of the nodes `starts` has done. -/
structure Visited (needs : α → Option (List α)) (starts : List α) (s s₁ : Sorting α) : Prop where
  sound : s₁.Sound needs
  visiting : s₁.visiting = s.visiting
  grown : s.result <+: s₁.result
  there : ∀ a ∈ starts, a ∈ s₁.result
  reached : ∀ a ∈ s₁.result, a ∉ s.result → ∃ start ∈ starts, ReflTransGen (Needs needs) start a

/-- What it means that a node cannot be put in order. -/
def Unsorted.Means (needs : α → Option (List α)) (starts : List α) : Unsorted α → Prop
  | .cycle y => (∃ start ∈ starts, ReflTransGen (Needs needs) start y) ∧ TransGen (Needs needs) y y
  | .missing y => (∃ start ∈ starts, ReflTransGen (Needs needs) start y) ∧ needs y = none
  | .exhausted => False

/-- What a sort may answer. -/
def Verdict (needs : α → Option (List α)) (starts : List α) (s : Sorting α) : Except (Unsorted α) (Sorting α) → Prop
  | .ok s₁ => Visited needs starts s s₁
  | .error why => why.Means needs starts

omit [DecidableEq α] in
theorem Visited.nil (sound : s.Sound needs) : Visited needs [] s s where
  sound := sound
  visiting := rfl
  grown := List.prefix_rfl
  there _ member := absurd member List.not_mem_nil
  reached _ inside new := absurd inside new

omit [DecidableEq α] in
theorem Visited.cons {s₂ : Sorting α} (first : Visited needs [x] s s₁) (rest : Visited needs starts s₁ s₂) :
    Visited needs (x :: starts) s s₂ where
  sound := rest.sound
  visiting := rest.visiting.trans first.visiting
  grown := first.grown.trans rest.grown
  there := List.forall_mem_cons.mpr ⟨rest.grown.subset (first.there x (List.mem_singleton_self x)), rest.there⟩
  reached a inside new := by
    by_cases early : a ∈ s₁.result
    · obtain ⟨start, member, way⟩ := first.reached a early new
      exact ⟨start, by rw [List.mem_singleton.mp member]; exact List.mem_cons_self, way⟩
    · obtain ⟨start, member, way⟩ := rest.reached a inside early
      exact ⟨start, List.mem_cons_of_mem x member, way⟩

omit [DecidableEq α] in
theorem Unsorted.Means.mono {why : Unsorted α} {more : List α} (means : why.Means needs starts)
    (within : ∀ a ∈ starts, ∃ b ∈ more, ReflTransGen (Needs needs) b a) : why.Means needs more := by
  have lift {y : α} (reached : ∃ start ∈ starts, ReflTransGen (Needs needs) start y) :
      ∃ start ∈ more, ReflTransGen (Needs needs) start y := by
    obtain ⟨start, member, way⟩ := reached
    obtain ⟨b, inside, before⟩ := within start member
    exact ⟨b, inside, before.trans way⟩
  cases why with
  | cycle y => exact ⟨lift means.1, means.2⟩
  | missing y => exact ⟨lift means.1, means.2⟩
  | exhausted => exact means.elim

theorem visitAll_spec (each : ∀ x ∈ starts, ∀ t : Sorting α, t.Sound needs → t.visiting = s.visiting →
    Verdict needs [x] t (visit needs left x t)) (sound : s.Sound needs) : Verdict needs starts s (visitAll needs left starts s) := by
  induction starts generalizing s with
  | nil => exact .nil sound
  | cons x starts ih =>
    have here := each x List.mem_cons_self s sound rfl
    unfold visitAll
    rw [List.foldlM_cons]
    cases turn : visit needs left x s with
    | error why =>
      rw [turn] at here
      exact here.mono fun a member => ⟨x, List.mem_cons_self, by rw [List.mem_singleton.mp member]⟩
    | ok s₁ =>
      rw [turn] at here
      have rest : Verdict needs starts s₁ (visitAll needs left starts s₁) :=
        ih (fun y member t sound same => each y (List.mem_cons_of_mem x member) t sound (same.trans here.visiting)) here.sound
      change Verdict needs (x :: starts) s (visitAll needs left starts s₁)
      cases later : visitAll needs left starts s₁ with
      | error why =>
        rw [later] at rest
        exact rest.mono fun a member => ⟨a, List.mem_cons_of_mem x member, .refl⟩
      | ok s₂ =>
        rw [later] at rest
        exact here.cons rest

/-- A visit puts the node in order with all that it needs, or says truly why it cannot. The nodes that are being
visited all need the node in the end, and there are fuel enough for the others. -/
theorem visit_spec (nodes : Finset α) (known : ∀ a deps, needs a = some deps → a ∈ nodes) (enough : fresh nodes s.visiting < left)
    (sound : s.Sound needs) (chain : ∀ a ∈ s.visiting, TransGen (Needs needs) a x) :
    Verdict needs [x] s (visit needs left x s) := by
  induction left generalizing x s with
  | zero => omega
  | succ left ih =>
    unfold visit
    split
    · next done => exact ⟨sound, rfl, List.prefix_rfl, by simpa using (sound.visited x).mp done, fun a inside new => absurd inside new⟩
    split
    · next open_ => exact ⟨⟨x, List.mem_singleton_self x, .refl⟩, chain x open_⟩
    split
    · next none => exact ⟨⟨x, List.mem_singleton_self x, .refl⟩, none⟩
    next fresh_ new _ deps found =>
    have less : fresh nodes (x :: s.visiting) < left := by
      have step := fresh_cons (known x deps found) new
      omega
    have need {dep : α} (member : dep ∈ deps) : Needs needs x dep := ⟨deps, found, member⟩
    let begun : Sorting α := { s with visiting := x :: s.visiting }
    have below : Verdict needs deps begun (visitAll needs left deps begun) := by
      refine visitAll_spec (fun dep member t sound same => ih (by rwa [same]) sound fun a inside => ?_) ⟨sound.ordered, sound.visited⟩
      rw [same] at inside
      rcases List.mem_cons.mp inside with rfl | earlier
      · exact .single (need member)
      · exact (chain a earlier).tail (need member)
    change Verdict needs [x] s ((visitAll needs left deps begun).bind fun s => .ok ⟨s.visiting.erase x, x :: s.visited, s.result ++ [x]⟩)
    cases result : visitAll needs left deps begun with
    | error why =>
      rw [result] at below
      exact below.mono fun dep member => ⟨x, List.mem_singleton_self x, .single (need member)⟩
    | ok t =>
      rw [result] at below
      have apart : x ∉ t.result := by
        intro inside
        obtain ⟨dep, member, way⟩ := below.reached x inside fun old => fresh_ ((sound.visited x).mpr old)
        exact below.sound.ordered.acyclic inside (.head' (need member) way)
      refine ⟨⟨below.sound.ordered.concat apart found below.there, fun a => ?_⟩, ?_, ?_, ?_, fun a inside old => ?_⟩
      · rw [List.mem_cons, List.mem_append, List.mem_singleton, below.sound.visited a]
        exact or_comm
      · rw [below.visiting, List.erase_cons_head]
      · exact below.grown.trans (List.prefix_append t.result [x])
      · simp
      · rcases List.mem_append.mp inside with earlier | last
        · obtain ⟨dep, member, way⟩ := below.reached a earlier old
          exact ⟨x, List.mem_singleton_self x, .head (need member) way⟩
        · rw [List.mem_singleton.mp last]
          exact ⟨x, List.mem_singleton_self x, .refl⟩

def topological (needs : α → Option (List α)) (names : List α) : Except (Unsorted α) (List α) :=
  (visitAll needs (names.length + 1) names ⟨[], [], []⟩).map (·.result)

/-- The nodes that exist are those of the list: the sort puts them in order, all of them and no other
ones, unless one needs itself in the end or what does not exist. -/
theorem topological_spec {names : List α} (known : ∀ a deps, needs a = some deps → a ∈ names) :
    match topological needs names with
    | .ok order => InOrder needs order ∧ (∀ a, a ∈ order ↔ a ∈ names)
    | .error why => why.Means needs names := by
  have enough : fresh names.toFinset ([] : List α) < names.length + 1 := by
    have bound := Finset.card_filter_le names.toFinset fun a => a ∉ ([] : List α)
    have size := List.toFinset_card_le names
    unfold fresh
    omega
  have spec : Verdict needs names ⟨[], [], []⟩ (visitAll needs (names.length + 1) names ⟨[], [], []⟩) := by
    refine visitAll_spec (fun x _ t sound same => ?_) ⟨.nil, fun a => Iff.rfl⟩
    refine visit_spec names.toFinset (fun a deps found => List.mem_toFinset.mpr (known a deps found)) ?_ sound ?_
    · rwa [same]
    · rw [same]
      exact fun a member => absurd member List.not_mem_nil
  unfold topological
  cases result : visitAll needs (names.length + 1) names ⟨[], [], []⟩ with
  | error why =>
    rw [result] at spec
    exact spec
  | ok s =>
    rw [result] at spec
    refine ⟨spec.sound.ordered, fun a => ⟨fun inside => ?_, spec.there a⟩⟩
    obtain ⟨deps, found⟩ := spec.sound.ordered.exists_needs inside
    exact known a deps found

end Opale.Relations
