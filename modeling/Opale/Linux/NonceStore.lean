import Mathlib.Data.List.Nodup
import Mathlib.Tactic.Common

namespace Opale.Linux

/-- A text that the code looks into, as its characters. -/
abbrev Text := List Char

/-- The `Map` of the nonces in insertion order, each with its `expiresAt`, and the number
of accesses that decides when expired entries are swept. -/
structure NonceStore where
  nonces : List (Text × Int)
  accesses : Nat
  deriving DecidableEq

namespace NonceStore

def create : NonceStore := ⟨[], 0⟩

/-- `Map.set`: in place for a known key, at the end for a new one. -/
def set (nonces : List (Text × Int)) (id : Text) (expiresAt : Int) : List (Text × Int) :=
  if nonces.any (·.1 = id) then nonces.map fun e => if e.1 = id then (id, expiresAt) else e
  else nonces ++ [(id, expiresAt)]

def has (store : NonceStore) (time : Int) (id : Text) : Bool × NonceStore :=
  let accesses := store.accesses + 1
  let nonces := if accesses % 100 = 0 then store.nonces.filter (¬ ·.2 ≤ time) else store.nonces
  match nonces.find? (·.1 = id) with
  | none => (false, ⟨nonces, accesses⟩)
  | some (_, expiresAt) =>
    if expiresAt ≤ time then (false, ⟨nonces.filter (·.1 ≠ id), accesses⟩)
    else (true, ⟨nonces, accesses⟩)

/-- `time` is what the clock says to `has`, `later` what it says for the expiry. -/
def seen (ttlMs : Int) (max : Nat) (store : NonceStore) (time later : Int) (id : Text) :
    Bool × NonceStore :=
  match store.has time id with
  | (true, store) => (true, store)
  | (false, store) =>
    let nonces := set store.nonces id (later + ttlMs)
    (false, { store with nonces := if nonces.length > max then nonces.tail else nonces })

def alive (store : NonceStore) (time : Int) : Nat := store.nonces.countP (time < ·.2)

/-- What the store knows at the time `clock` of the nonces recorded so far, those that
expire later included: every one recorded less than `ttlMs` ago is still there. -/
structure Sound (ttlMs clock : Int) (recorded : Text → Int → Prop) (store : NonceStore) : Prop where
  keys : (store.nonces.map Prod.fst).Nodup
  sorted : store.nonces.Pairwise (·.2 ≤ ·.2)
  bound : ∀ e ∈ store.nonces, e.2 ≤ clock + ttlMs
  remembers : ∀ id at_, recorded id at_ → clock < at_ + ttlMs →
    ∃ expiresAt, (id, expiresAt) ∈ store.nonces ∧ at_ + ttlMs ≤ expiresAt

variable {ttlMs clock time later : Int} {recorded : Text → Int → Prop} {store : NonceStore} {max : Nat}

theorem sound_create : create.Sound ttlMs clock fun _ _ => False where
  keys := List.nodup_nil
  sorted := .nil
  bound _ member := absurd member List.not_mem_nil
  remembers _ _ nothing := nothing.elim

theorem Sound.tick (sound : store.Sound ttlMs clock recorded) (later : clock ≤ time) :
    store.Sound ttlMs time recorded where
  keys := sound.keys
  sorted := sound.sorted
  bound e member := by
    have := sound.bound e member
    omega
  remembers id at_ known recent := sound.remembers id at_ known (by omega)

theorem Sound.mono (sound : store.Sound ttlMs clock recorded) {fewer : Text → Int → Prop}
    (known : ∀ id at_, fewer id at_ → recorded id at_) : store.Sound ttlMs clock fewer where
  keys := sound.keys
  sorted := sound.sorted
  bound := sound.bound
  remembers id at_ member recent := sound.remembers id at_ (known id at_ member) recent

/-- Entries may go away once they have expired. -/
theorem Sound.sublist (sound : store.Sound ttlMs clock recorded) {fewer : List (Text × Int)}
    (sub : fewer.Sublist store.nonces) (dead : ∀ e ∈ store.nonces, e ∉ fewer → e.2 ≤ clock) (n : Nat) :
    Sound ttlMs clock recorded ⟨fewer, n⟩ where
  keys := sound.keys.sublist (sub.map _)
  sorted := sound.sorted.sublist sub
  bound e member := sound.bound e (sub.subset member)
  remembers id at_ known recent := by
    obtain ⟨expiresAt, member, long⟩ := sound.remembers id at_ known recent
    refine ⟨expiresAt, ?_, long⟩
    by_contra gone
    have := dead _ member gone
    dsimp only at this
    omega

/-- Two entries with the same key are the same entry. -/
theorem Sound.entry_unique (sound : store.Sound ttlMs clock recorded) {id : Text} {a b : Int}
    (ha : (id, a) ∈ store.nonces) (hb : (id, b) ∈ store.nonces) : a = b := by
  have same := List.inj_on_of_nodup_map sound.keys ha hb rfl
  exact congrArg Prod.snd same

/-- Consulting the store only drops expired entries; it answers no only when nothing was
recorded under this key in the last `ttlMs`. -/
theorem Sound.has (sound : store.Sound ttlMs clock recorded) (forward : clock ≤ time) (id : Text) :
    (store.has time id).2.Sound ttlMs time recorded ∧
    (store.has time id).2.nonces.Sublist store.nonces ∧
    ((store.has time id).1 = false → (∀ e ∈ (store.has time id).2.nonces, e.1 ≠ id) ∧
      ∀ at_, recorded id at_ → at_ + ttlMs ≤ time) := by
  have now := sound.tick forward
  let nonces := if (store.accesses + 1) % 100 = 0 then store.nonces.filter (¬ ·.2 ≤ time) else store.nonces
  have sub : nonces.Sublist store.nonces := by
    dsimp only [nonces]
    split
    · exact List.filter_sublist
    · exact List.Sublist.refl _
  have swept : Sound ttlMs time recorded ⟨nonces, store.accesses + 1⟩ := by
    refine now.sublist sub (fun e member gone => ?_) _
    dsimp only [nonces] at gone
    split at gone
    · simpa only [List.mem_filter, member, true_and, decide_not, Bool.not_eq_true', decide_eq_false_iff_not,
        not_not] using gone
    · exact absurd member gone
  have forgotten : ∀ {at_}, recorded id at_ → (∀ e ∈ nonces, e.1 = id → e.2 ≤ time) → at_ + ttlMs ≤ time := by
    intro at_ known expired
    by_contra recent
    obtain ⟨expiresAt, member, long⟩ := swept.remembers id at_ known (by omega)
    have := expired _ member rfl
    dsimp only at this
    omega
  unfold NonceStore.has
  dsimp only
  split
  · rename_i found
    rw [List.find?_eq_none] at found
    have absent : ∀ e ∈ nonces, e.1 ≠ id := by
      intro e member
      simpa only [decide_eq_true_eq] using found e member
    refine ⟨swept, sub, fun _ => ⟨absent, fun at_ known => ?_⟩⟩
    exact forgotten known fun e member same => absurd same (absent e member)
  · rename_i key expiresAt found
    have member : (key, expiresAt) ∈ nonces := List.mem_of_find?_eq_some found
    have same : key = id := by simpa only [decide_eq_true_eq] using List.find?_some found
    subst same
    have only : ∀ e ∈ nonces, e.1 = key → e.2 = expiresAt := by
      rintro ⟨other, e⟩ inside rfl
      exact swept.entry_unique inside member
    split
    · rename_i expired
      refine ⟨?_, List.filter_sublist.trans sub, fun _ => ⟨fun e inside => ?_, fun at_ known => ?_⟩⟩
      · refine swept.sublist List.filter_sublist (fun e inside gone => ?_) _
        have key : e.1 = key := by
          simpa only [List.mem_filter, inside, true_and, ne_eq, decide_not, Bool.not_eq_true',
            decide_eq_false_iff_not, not_not] using gone
        exact only e inside key ▸ expired
      · simpa only [ne_eq, decide_not, Bool.not_eq_true', decide_eq_false_iff_not] using
          (List.mem_filter.mp inside).2
      · exact forgotten known fun e inside key => only e inside key ▸ expired
    · exact ⟨swept, sub, nofun⟩

/-- In a list sorted by expiry, the first entry has expired as soon as one has. -/
theorem Sound.head_expired (sound : store.Sound ttlMs clock recorded) (few : store.alive clock < store.nonces.length) :
    ∀ e rest, store.nonces = e :: rest → e.2 ≤ clock := by
  intro e rest shape
  by_contra living
  have all : ∀ other ∈ store.nonces, clock < other.2 := by
    intro other member
    have order := sound.sorted
    rw [shape, List.pairwise_cons] at order
    rw [shape, List.mem_cons] at member
    rcases member with rfl | member
    · omega
    · have := order.1 other member
      omega
  have full : store.alive clock = store.nonces.length := by
    rw [alive, List.countP_eq_length]
    intro other member
    simpa only [decide_eq_true_eq] using all other member
  omega

/-- The capacity only evicts an expired entry, as long as fewer than `max` are alive. -/
theorem Sound.evict (sound : store.Sound ttlMs clock recorded) (few : store.alive clock ≤ max) :
    Sound ttlMs clock recorded
      ⟨if store.nonces.length > max then store.nonces.tail else store.nonces, store.accesses⟩ := by
  split
  · rename_i full
    refine sound.sublist (List.tail_sublist _) (fun e member gone => ?_) _
    cases shape : store.nonces with
    | nil => rw [shape] at member; exact absurd member List.not_mem_nil
    | cons first rest =>
      rw [shape, List.mem_cons] at member
      rw [shape, List.tail_cons] at gone
      rcases member with rfl | member
      · exact sound.head_expired (by omega) _ rest shape
      · exact absurd member gone
  · exact sound

/-- `seen` records a nonce that it answers no to, and it only answers no when nothing was
recorded under this key in the last `ttlMs`. -/
theorem Sound.seen (sound : store.Sound ttlMs clock recorded) (forward : clock ≤ time) (after : time ≤ later)
    (few : store.alive clock < max) (id : Text) :
    ((store.seen ttlMs max time later id).1 = true →
      (store.seen ttlMs max time later id).2.Sound ttlMs time recorded) ∧
    ((store.seen ttlMs max time later id).1 = false →
      (store.seen ttlMs max time later id).2.Sound ttlMs later
        (fun other at_ => recorded other at_ ∨ other = id ∧ at_ = later) ∧
      ∀ at_, recorded id at_ → at_ + ttlMs ≤ time) := by
  obtain ⟨kept, sub, absent⟩ := sound.has forward id
  unfold NonceStore.seen
  split
  · rename_i answer found
    rw [found] at kept
    exact ⟨fun _ => kept, nofun⟩
  · rename_i answer found
    rw [found] at kept sub absent
    obtain ⟨missing, forgotten⟩ := absent rfl
    refine ⟨nofun, fun _ => ⟨?_, forgotten⟩⟩
    have appended : set answer.nonces id (later + ttlMs) = answer.nonces ++ [(id, later + ttlMs)] := by
      unfold NonceStore.set
      rw [if_neg]
      simpa only [List.any_eq_true, decide_eq_true_eq, not_exists, not_and] using missing
    have then_ := kept.tick after
    have grown : Sound ttlMs later (fun other at_ => recorded other at_ ∨ other = id ∧ at_ = later)
        ⟨answer.nonces ++ [(id, later + ttlMs)], answer.accesses⟩ := by
      refine ⟨?_, ?_, ?_, ?_⟩
      · rw [List.map_append, List.map_cons, List.map_nil, ← List.concat_eq_append]
        refine then_.keys.concat fun member => ?_
        obtain ⟨e, inside, same⟩ := List.mem_map.mp member
        exact missing e inside same
      · refine List.pairwise_append.mpr ⟨then_.sorted, List.pairwise_singleton _ _, ?_⟩
        intro e member last final
        rw [List.mem_singleton] at final
        subst final
        exact then_.bound e member
      · intro e member
        rw [List.mem_append, List.mem_singleton] at member
        rcases member with old | rfl
        · exact then_.bound e old
        · exact Int.le_refl _
      · rintro other at_ (known | ⟨rfl, rfl⟩) recent
        · obtain ⟨expiresAt, member, long⟩ := then_.remembers other at_ known recent
          exact ⟨expiresAt, List.mem_append_left _ member, long⟩
        · exact ⟨_, List.mem_append_right _ (List.mem_singleton_self _), Int.le_refl _⟩
    have room : (answer.nonces ++ [(id, later + ttlMs)]).countP (later < ·.2) ≤ max := by
      have fewer : answer.nonces.countP (later < ·.2) ≤ store.nonces.countP (clock < ·.2) := by
        refine Nat.le_trans (List.countP_mono_left fun e _ living => ?_) sub.countP_le
        simp only [decide_eq_true_eq] at living ⊢
        omega
      have one : [(id, later + ttlMs)].countP (later < ·.2) ≤ 1 := List.countP_le_length
      rw [List.countP_append]
      unfold alive at few
      omega
    dsimp only
    rw [appended]
    exact grown.evict room

end NonceStore

end Opale.Linux
