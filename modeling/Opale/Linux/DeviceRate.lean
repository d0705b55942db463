import Mathlib.Data.List.AList
import Mathlib.Data.List.Dedup
import Mathlib.Tactic.Common

namespace Opale.Linux.DeviceRate

/-- The options of a limiter; `max` and `windowMs` may be any integers. -/
structure RateOptions where
  max : Int
  windowMs : Int
  maxEntries : Nat

/-- The `Map` of a limiter: for each device the times of its accepted calls. -/
abbrev Hits (α : Type) := AList fun _ : α => List Int

/-- What a call answers; without any time in the list, the wait is NaN. -/
inductive Passage where
  | ok (remaining : Int)
  | refused (retryAfterMs : Option Int)
  deriving DecidableEq

inductive RateCall (α : Type) where
  | hit (id : α)
  | size

inductive RateAnswer where
  | passage (p : Passage)
  | size (n : Nat)
  deriving DecidableEq

def prune (since : Int) (list : List Int) : List Int := list.dropWhile (· ≤ since)

section

variable {α : Type} [DecidableEq α]

/-- Each list without what is out of date, and no list that is empty then. -/
def sweep (since : Int) (hits : Hits α) : Hits α where
  entries := (hits.entries.map fun e => ⟨e.1, prune since e.2⟩).filter fun e => !e.2.isEmpty
  nodupKeys := by
    have same : (hits.entries.map fun e => (⟨e.1, prune since e.2⟩ : Sigma fun _ : α => List Int)).keys =
        hits.keys := by
      simp [List.keys, AList.keys, Function.comp_def]
    have all : (hits.entries.map fun e => (⟨e.1, prune since e.2⟩ : Sigma fun _ : α => List Int)).keys.Nodup := by
      rw [same]
      exact hits.keys_nodup
    exact all.sublist (List.filter_sublist.map _)

def hit (options : RateOptions) (hits : Hits α) (id : α) (t : Int) : Passage × Hits α :=
  let since := t - options.windowMs
  let hits := if options.maxEntries ≤ hits.entries.length ∧ id ∉ hits then sweep since hits else hits
  let list := prune since ((hits.lookup id).getD [])
  if options.max ≤ list.length then (.refused (list.head?.map (· + options.windowMs - t)), hits.insert id list)
  else (.ok (options.max - (list.length + 1)), hits.insert id (list ++ [t]))

def size (options : RateOptions) (hits : Hits α) (t : Int) : Nat × Hits α :=
  let hits := sweep (t - options.windowMs) hits
  (hits.entries.length, hits)

def call (options : RateOptions) (hits : Hits α) (t : Int) : RateCall α → RateAnswer × Hits α
  | .hit id =>
    let (p, hits) := hit options hits id t
    (.passage p, hits)
  | .size =>
    let (n, hits) := size options hits t
    (.size n, hits)

/-- The answers of a limiter to calls at the given times. -/
def rateRun (options : RateOptions) (hits : Hits α) : List (RateCall α × Int) → List RateAnswer
  | [] => []
  | (c, t) :: calls =>
    let (answer, hits) := call options hits t c
    answer :: rateRun options hits calls

/-- The accepted calls of a device that are in the window `(t - windowMs, t]`, out of all that were accepted so far. -/
def window (windowMs : Int) (accepted : List (α × Int)) (id : α) (t : Int) : List Int :=
  (accepted.filter fun e => e.1 = id ∧ t - windowMs < e.2 ∧ e.2 ≤ t).map (·.2)

/-- The specification of a call: fewer than `max` accepted calls in the window. -/
def allowed (options : RateOptions) (accepted : List (α × Int)) (id : α) (t : Int) : Passage × List (α × Int) :=
  let times := window options.windowMs accepted id t
  if times.length < options.max then (.ok (options.max - times.length - 1), accepted ++ [(id, t)])
  else (.refused (times.head?.map fun oldest => oldest + options.windowMs - t), accepted)

/-- The devices with a call in the window. -/
def active (options : RateOptions) (accepted : List (α × Int)) (t : Int) : List α :=
  ((accepted.filter fun e => t - options.windowMs < e.2 ∧ e.2 ≤ t).map (·.1)).dedup

/-- What the answers have to be. -/
def rateSpec (options : RateOptions) (accepted : List (α × Int)) : List (RateCall α × Int) → List RateAnswer
  | [] => []
  | (.hit id, t) :: calls =>
    let (answer, accepted) := allowed options accepted id t
    .passage answer :: rateSpec options accepted calls
  | (.size, t) :: calls => .size (active options accepted t).length :: rateSpec options accepted calls

def times (hits : Hits α) (id : α) : List Int := (hits.lookup id).getD []

def timesOf (accepted : List (α × Int)) (id : α) : List Int := (accepted.filter fun e => e.1 = id).map (·.2)

/-- What a limiter keeps up to a time: of the accepted calls at least those that a window may still hold. -/
structure Kept (windowMs : Int) (hits : Hits α) (accepted : List (α × Int)) (now : Int) : Prop where
  ordered : ∀ id, (times hits id).Pairwise (· ≤ ·)
  past : ∀ id, ∀ time ∈ times hits id, time ≤ now
  earlier : ∀ e ∈ accepted, e.2 ≤ now
  same : ∀ id since, now - windowMs ≤ since →
    (times hits id).filter (since < ·) = (timesOf accepted id).filter (since < ·)

variable {options : RateOptions} {hits : Hits α} {accepted accepted₁ : List (α × Int)} {id other : α}
variable {windowMs now t since since₁ : Int} {list : List Int}

theorem prune_eq_filter (ordered : list.Pairwise (· ≤ ·)) : prune since list = list.filter (since < ·) := by
  induction list with
  | nil => rfl
  | cons first list ih =>
    obtain ⟨below, ordered⟩ := List.pairwise_cons.mp ordered
    unfold prune
    by_cases old : first ≤ since
    · have out : ¬since < first := by omega
      rw [List.dropWhile_cons_of_pos (by simpa using old), List.filter_cons_of_neg (by simpa using out)]
      exact ih ordered
    · rw [List.dropWhile_cons_of_neg (by simpa using old), eq_comm, List.filter_eq_self]
      intro time inside
      rcases List.mem_cons.mp inside with rfl | later
      · simpa using old
      · have above := below time later
        simp only [decide_eq_true_eq]
        omega

theorem filter_filter_since (later : since ≤ since₁) :
    (list.filter (since < ·)).filter (since₁ < ·) = list.filter (since₁ < ·) := by
  rw [List.filter_filter]
  refine List.filter_congr fun time _ => ?_
  rw [← Bool.decide_and, decide_eq_decide]
  omega

theorem times_sweep (hits : Hits α) (since : Int) (id : α) : times (sweep since hits) id = prune since (times hits id) := by
  have stored (l : List Int) : l ∈ (sweep since hits).lookup id ↔ ∃ l₀ ∈ hits.lookup id, prune since l₀ = l ∧ l ≠ [] := by
    rw [AList.mem_lookup_iff]
    simp only [sweep, List.mem_filter, List.mem_map, AList.mem_lookup_iff]
    constructor
    · rintro ⟨⟨⟨key, l₀⟩, inside, same⟩, some_⟩
      cases same
      exact ⟨l₀, inside, rfl, by simpa using some_⟩
    · rintro ⟨l₀, inside, rfl, some_⟩
      exact ⟨⟨⟨id, l₀⟩, inside, rfl⟩, by simpa using some_⟩
  unfold times
  cases after : (sweep since hits).lookup id with
  | some l =>
    obtain ⟨l₀, before, same, -⟩ := (stored l).mp after
    rw [before, ← same]
    rfl
  | none =>
    cases before : hits.lookup id with
    | none => rfl
    | some l₀ =>
      by_contra some_
      have kept := (stored (prune since l₀)).mpr ⟨l₀, before, rfl, fun empty => some_ empty.symm⟩
      rw [after] at kept
      cases kept

theorem times_insert_self : times (hits.insert id list) id = list := by
  rw [times, AList.lookup_insert]
  rfl

theorem times_insert_of_ne (apart : other ≠ id) : times (hits.insert id list) other = times hits other := by
  rw [times, AList.lookup_insert_ne apart]
  rfl

theorem kept_empty (windowMs now : Int) : Kept windowMs (∅ : Hits α) [] now where
  ordered _ := List.Pairwise.nil
  past _ _ inside := absurd inside List.not_mem_nil
  earlier _ inside := absurd inside List.not_mem_nil
  same _ _ _ := rfl

theorem Kept.later (kept : Kept windowMs hits accepted now) (later : now ≤ t) : Kept windowMs hits accepted t where
  ordered := kept.ordered
  past id time inside := Int.le_trans (kept.past id time inside) later
  earlier e inside := Int.le_trans (kept.earlier e inside) later
  same id since after := kept.same id since (by omega)

/-- A sweep takes away only what no later window holds. -/
theorem Kept.sweep (kept : Kept windowMs hits accepted now) :
    Kept windowMs (sweep (now - windowMs) hits) accepted now where
  ordered id := by
    rw [times_sweep]
    exact (kept.ordered id).sublist (List.dropWhile_sublist _)
  past id time inside := by
    rw [times_sweep] at inside
    exact kept.past id time ((List.dropWhile_sublist _).subset inside)
  earlier := kept.earlier
  same id since after := by
    rw [times_sweep, prune_eq_filter (kept.ordered id), filter_filter_since after]
    exact kept.same id since after

theorem Kept.insert (kept : Kept windowMs hits accepted now) (ordered : list.Pairwise (· ≤ ·))
    (past : ∀ time ∈ list, time ≤ now) (earlier : ∀ e ∈ accepted₁, e.2 ≤ now)
    (same : ∀ since, now - windowMs ≤ since → list.filter (since < ·) = (timesOf accepted₁ id).filter (since < ·))
    (others : ∀ other, other ≠ id → timesOf accepted₁ other = timesOf accepted other) :
    Kept windowMs (hits.insert id list) accepted₁ now := by
  refine ⟨fun other => ?_, fun other => ?_, earlier, fun other => ?_⟩ <;> by_cases self : other = id
  · rwa [self, times_insert_self]
  · rw [times_insert_of_ne self]
    exact kept.ordered other
  · rwa [self, times_insert_self]
  · rw [times_insert_of_ne self]
    exact kept.past other
  · rwa [self, times_insert_self]
  · rw [times_insert_of_ne self, others other self]
    exact kept.same other

/-- The window of the accepted calls is what is left of the stored times. -/
theorem Kept.prune_eq (kept : Kept windowMs hits accepted t) (id : α) :
    prune (t - windowMs) (times hits id) = window windowMs accepted id t := by
  rw [prune_eq_filter (kept.ordered id), kept.same id _ (Int.le_refl _), window, timesOf, List.filter_map, List.filter_filter]
  refine congrArg _ (List.filter_congr fun e inside => ?_)
  have before := kept.earlier e inside
  simp [before, Bool.and_comm]

theorem Kept.window_ordered (kept : Kept windowMs hits accepted t) (id : α) :
    (window windowMs accepted id t).Pairwise (· ≤ ·) := by
  rw [← kept.prune_eq]
  exact (kept.ordered id).sublist (List.dropWhile_sublist _)

theorem window_past {time : Int} (inside : time ∈ window windowMs accepted id t) : time ≤ t := by
  obtain ⟨e, member, rfl⟩ := List.mem_map.mp inside
  have holds := (List.mem_filter.mp member).2
  rw [decide_eq_true_eq] at holds
  exact holds.2.2

theorem Kept.filter_window (kept : Kept windowMs hits accepted t) (id : α) (after : t - windowMs ≤ since) :
    (window windowMs accepted id t).filter (since < ·) = (timesOf accepted id).filter (since < ·) := by
  rw [← kept.prune_eq, prune_eq_filter (kept.ordered id), filter_filter_since after]
  exact kept.same id since after

theorem timesOf_append (accepted : List (α × Int)) (id other : α) (t : Int) :
    timesOf (accepted ++ [(id, t)]) other = timesOf accepted other ++ if id = other then [t] else [] := by
  by_cases self : id = other <;> simp [timesOf, self]

/-- A call of `hit` answers as the specification does, and the limiter goes on keeping what it has to. -/
theorem Kept.hit (kept : Kept options.windowMs hits accepted now) (later : now ≤ t) (id : α) :
    (hit options hits id t).1 = (allowed options accepted id t).1 ∧
      Kept options.windowMs (hit options hits id t).2 (allowed options accepted id t).2 t := by
  have kept := kept.later later
  have swept : Kept options.windowMs
      (if options.maxEntries ≤ hits.entries.length ∧ id ∉ hits then DeviceRate.sweep (t - options.windowMs) hits else hits)
      accepted t := by
    split
    · exact kept.sweep
    · exact kept
  unfold DeviceRate.hit allowed
  dsimp only
  generalize (if options.maxEntries ≤ hits.entries.length ∧ id ∉ hits then DeviceRate.sweep (t - options.windowMs) hits
    else hits) = hits₁ at swept ⊢
  have pruned : prune (t - options.windowMs) ((hits₁.lookup id).getD []) = window options.windowMs accepted id t :=
    swept.prune_eq id
  rw [pruned]
  by_cases room : (window options.windowMs accepted id t).length < options.max
  · rw [if_neg (by omega), if_pos room]
    refine ⟨congrArg Passage.ok (by omega), swept.insert ?_ ?_ ?_ ?_ ?_⟩
    · exact List.pairwise_append.mpr ⟨swept.window_ordered id, List.pairwise_singleton _ _, fun time inside last same => by
        rw [List.mem_singleton.mp same]
        exact window_past inside⟩
    · exact List.forall_mem_append.mpr ⟨fun time inside => window_past inside, by simp⟩
    · exact List.forall_mem_append.mpr ⟨kept.earlier, by simp⟩
    · intro since after
      rw [timesOf_append, if_pos rfl, List.filter_append, List.filter_append, swept.filter_window id after]
    · intro other apart
      rw [timesOf_append, if_neg (Ne.symm apart), List.append_nil]
  · rw [if_pos (by omega), if_neg room]
    exact ⟨rfl, swept.insert (swept.window_ordered id) (fun time inside => window_past inside) swept.earlier
      (fun since after => swept.filter_window id after) fun _ _ => rfl⟩

/-- What a sweep leaves are the devices with a call in the window. -/
theorem Kept.size (kept : Kept options.windowMs hits accepted now) (later : now ≤ t) :
    (size options hits t).1 = (active options accepted t).length ∧
      Kept options.windowMs (size options hits t).2 accepted t := by
  have kept := kept.later later
  refine ⟨?_, kept.sweep⟩
  have some_ (id : α) : id ∈ (DeviceRate.sweep (t - options.windowMs) hits).keys ↔
      window options.windowMs accepted id t ≠ [] := by
    rw [← kept.prune_eq, ← times_sweep, times, ← AList.mem_keys, ← AList.lookup_isSome]
    cases found : (DeviceRate.sweep (t - options.windowMs) hits).lookup id with
    | none => simp
    | some list =>
      have stored := AList.mem_lookup_iff.mp found
      have full := (List.mem_filter.mp stored).2
      simpa using full
  have same : (DeviceRate.sweep (t - options.windowMs) hits).keys.Perm (active options accepted t) := by
    refine (List.perm_ext_iff_of_nodup (AList.keys_nodup _) (List.nodup_dedup _)).mpr fun id => ?_
    rw [some_, List.mem_dedup, List.mem_map]
    constructor
    · intro full
      obtain ⟨time, inside⟩ := List.exists_mem_of_ne_nil _ full
      obtain ⟨e, member, -⟩ := List.mem_map.mp inside
      obtain ⟨before, holds⟩ := List.mem_filter.mp member
      rw [decide_eq_true_eq] at holds
      exact ⟨e, List.mem_filter.mpr ⟨before, decide_eq_true holds.2⟩, holds.1⟩
    · rintro ⟨e, member, rfl⟩
      obtain ⟨before, holds⟩ := List.mem_filter.mp member
      rw [decide_eq_true_eq] at holds
      exact List.ne_nil_of_mem (List.mem_map_of_mem (List.mem_filter.mpr ⟨before, decide_eq_true ⟨rfl, holds⟩⟩))
  rw [← same.length_eq, AList.keys, List.keys, List.length_map]
  rfl

theorem rateRun_of_kept {calls : List (RateCall α × Int)} (kept : Kept options.windowMs hits accepted now)
    (later : ∀ e ∈ calls, now ≤ e.2) (ordered : calls.Pairwise fun a b => a.2 ≤ b.2) :
    rateRun options hits calls = rateSpec options accepted calls := by
  induction calls generalizing hits accepted now with
  | nil => rfl
  | cons first calls ih =>
    obtain ⟨c, t⟩ := first
    obtain ⟨here, -⟩ := List.forall_mem_cons.mp later
    obtain ⟨after, rest⟩ := List.pairwise_cons.mp ordered
    cases c with
    | hit id =>
      obtain ⟨answer, kept⟩ := kept.hit here id
      exact congrArg₂ _ (congrArg _ answer) (ih kept after rest)
    | size =>
      obtain ⟨answer, kept⟩ := kept.size here
      exact congrArg₂ _ (congrArg _ answer) (ih kept after rest)

/-- A limiter answers as its specification does, whatever number of entries makes it sweep. -/
theorem rateRun_eq (options : RateOptions) (calls : List (RateCall α × Int))
    (ordered : calls.Pairwise fun a b => a.2 ≤ b.2) : rateRun options ∅ calls = rateSpec options [] calls := by
  cases calls with
  | nil => rfl
  | cons first calls =>
    have later : ∀ e ∈ first :: calls, first.2 ≤ e.2 :=
      List.forall_mem_cons.mpr ⟨Int.le_refl _, (List.pairwise_cons.mp ordered).1⟩
    exact rateRun_of_kept (kept_empty options.windowMs first.2) later ordered

end

theorem rateRun_eq_full : rateRun ⟨1, 1000, 1⟩ (∅ : Hits Nat)
    [(.hit 1, 0), (.hit 2, 400), (.hit 1, 600), (.hit 1, 1000), (.size, 1400)] =
      [.passage (.ok 0), .passage (.ok 0), .passage (.refused (some 400)), .passage (.ok 0), .size 1] :=
  (rateRun_eq _ _ (by decide)).trans (by decide)

end Opale.Linux.DeviceRate
