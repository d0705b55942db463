import Mathlib.Logic.Function.Iterate
import Mathlib.Data.List.Basic

namespace Opale.Effects

variable {α : Type}

/-- What stands in a queue. The serial number says which of all that was ever put there it is. -/
structure Entry (α : Type) where
  serial : Nat
  value : α

/-- A queue in memory and in a file, with what was put there, what was saved and what was removed
since the beginning. -/
structure Queue (α : Type) where
  memory : List (Entry α) := []
  disk : List (Entry α) := []
  enqueued : List α := []
  saved : List Nat := []
  removed : List Nat := []

namespace Queue

variable {store : α → α} {queue : Queue α} {values : List α} {e : Entry α} {n start : Nat}

def serials (entries : List (Entry α)) : List Nat := entries.map (·.serial)

def numbered : Nat → List α → List (Entry α)
  | _, [] => []
  | start, v :: rest => ⟨start, v⟩ :: numbered (start + 1) rest

def enqueue (queue : Queue α) (values : List α) : Queue α :=
  { queue with
    memory := queue.memory ++ numbered queue.enqueued.length values
    enqueued := queue.enqueued ++ values }

def remove (queue : Queue α) (n : Nat) : Queue α :=
  { queue with memory := queue.memory.drop n, removed := queue.removed ++ serials (queue.memory.take n) }

/-- `store` is what will be read of a value that is written. -/
def save (store : α → α) (queue : Queue α) : Queue α :=
  { queue with
    disk := queue.memory.map fun e => { e with value := store e.value }
    saved := queue.saved ++ serials queue.memory }

def reload (queue : Queue α) : Queue α := { queue with memory := queue.disk }

/-- Entries that stand in the order in which they came, each with the value that came, written
and read any number of times. -/
structure Traced (store : α → α) (enqueued : List α) (entries : List (Entry α)) : Prop where
  ordered : (serials entries).Pairwise (· < ·)
  origin : ∀ e ∈ entries, ∃ v k, enqueued[e.serial]? = some v ∧ e.value = store^[k] v

/-- Nothing that was saved is missing, but what was removed. -/
def Holds (queue : Queue α) (entries : List (Entry α)) : Prop :=
  ∀ serial ∈ queue.saved, serial ∉ queue.removed → serial ∈ serials entries

structure Kept (store : α → α) (queue : Queue α) : Prop where
  memory : Traced store queue.enqueued queue.memory
  disk : Traced store queue.enqueued queue.disk
  inMemory : queue.Holds queue.memory
  onDisk : queue.Holds queue.disk

theorem le_of_mem_numbered (member : e ∈ numbered start values) : start ≤ e.serial := by
  induction values generalizing start with
  | nil => cases member
  | cons v rest ih =>
    rcases List.mem_cons.mp member with rfl | inside
    · exact Nat.le_refl _
    · have later := ih inside
      omega

theorem values_numbered : (numbered start values).map (·.value) = values := by
  induction values generalizing start with
  | nil => rfl
  | cons v rest ih => rw [numbered, List.map_cons, ih]

theorem ordered_numbered : (serials (numbered start values)).Pairwise (· < ·) := by
  induction values generalizing start with
  | nil => exact List.Pairwise.nil
  | cons v rest ih =>
    refine List.pairwise_cons.mpr ⟨fun serial member => ?_, ih⟩
    obtain ⟨e, inside, rfl⟩ := List.mem_map.mp member
    exact le_of_mem_numbered inside

theorem origin_numbered {before : List α} (member : e ∈ numbered before.length values) :
    (before ++ values)[e.serial]? = some e.value := by
  induction values generalizing before with
  | nil => cases member
  | cons v rest ih =>
    rcases List.mem_cons.mp member with rfl | inside
    · simp
    · have shifted : before.length + 1 = (before ++ [v]).length := by simp
      rw [shifted] at inside
      have found := ih inside
      rwa [List.append_assoc] at found

variable {enqueued : List α} {entries : List (Entry α)}

theorem Traced.serial_lt (traced : Traced store enqueued entries) (member : e ∈ entries) :
    e.serial < enqueued.length := by
  obtain ⟨v, k, found, -⟩ := traced.origin e member
  exact (List.getElem?_eq_some_iff.mp found).1

theorem Traced.more (traced : Traced store enqueued entries) : Traced store (enqueued ++ values) entries where
  ordered := traced.ordered
  origin e member := by
    obtain ⟨v, k, found, same⟩ := traced.origin e member
    exact ⟨v, k, (List.getElem?_append_left (traced.serial_lt member)).trans found, same⟩

theorem Traced.append (traced : Traced store enqueued entries) :
    Traced store (enqueued ++ values) (entries ++ numbered enqueued.length values) where
  ordered := by
    unfold serials
    rw [List.map_append, List.pairwise_append]
    refine ⟨traced.ordered, ordered_numbered, fun a left b right => ?_⟩
    obtain ⟨e, old, rfl⟩ := List.mem_map.mp left
    obtain ⟨f, new, rfl⟩ := List.mem_map.mp right
    exact Nat.lt_of_lt_of_le (traced.serial_lt old) (le_of_mem_numbered new)
  origin e member := by
    rcases List.mem_append.mp member with old | new
    · exact traced.more.origin e old
    · exact ⟨e.value, 0, origin_numbered new, rfl⟩

theorem Traced.drop (traced : Traced store enqueued entries) : Traced store enqueued (entries.drop n) where
  ordered := by
    unfold serials
    rw [List.map_drop]
    exact traced.ordered.sublist (List.drop_sublist n _)
  origin e member := traced.origin e (List.mem_of_mem_drop member)

theorem serials_stored : serials (entries.map fun e => { e with value := store e.value }) = serials entries := by
  unfold serials
  rw [List.map_map]
  rfl

theorem Traced.stored (traced : Traced store enqueued entries) :
    Traced store enqueued (entries.map fun e => { e with value := store e.value }) where
  ordered := by
    rw [serials_stored]
    exact traced.ordered
  origin e member := by
    obtain ⟨f, inside, rfl⟩ := List.mem_map.mp member
    obtain ⟨v, k, found, same⟩ := traced.origin f inside
    refine ⟨v, k + 1, found, ?_⟩
    rw [Function.iterate_succ_apply', ← same]

theorem kept_empty : Kept store ({} : Queue α) :=
  have empty : Traced store ([] : List α) [] := ⟨List.Pairwise.nil, fun _ => nofun⟩
  ⟨empty, empty, fun _ => nofun, fun _ => nofun⟩

theorem Kept.enqueue (kept : Kept store queue) : Kept store (queue.enqueue values) where
  memory := kept.memory.append
  disk := kept.disk.more
  inMemory serial saved present := by
    show serial ∈ serials (queue.memory ++ _)
    unfold serials
    rw [List.map_append]
    exact List.mem_append_left _ (kept.inMemory serial saved present)
  onDisk := kept.onDisk

theorem Kept.remove (kept : Kept store queue) : Kept store (queue.remove n) where
  memory := kept.memory.drop
  disk := kept.disk
  inMemory serial saved present := by
    have ⟨before, now⟩ := not_or.mp (mt List.mem_append.mpr present)
    have inside := kept.inMemory serial saved before
    unfold serials at inside now
    rw [← List.take_append_drop n queue.memory, List.map_append] at inside
    exact (List.mem_append.mp inside).resolve_left now
  onDisk serial saved present := kept.onDisk serial saved fun before => present (List.mem_append_left _ before)

theorem Kept.save (kept : Kept store queue) : Kept store (queue.save store) where
  memory := kept.memory
  disk := kept.memory.stored
  inMemory serial saved present := by
    rcases List.mem_append.mp saved with before | now
    · exact kept.inMemory serial before present
    · exact now
  onDisk serial saved present := by
    show serial ∈ serials (queue.memory.map _)
    rw [serials_stored]
    rcases List.mem_append.mp saved with before | now
    · exact kept.inMemory serial before present
    · exact now

theorem Kept.reload (kept : Kept store queue) : Kept store queue.reload where
  memory := kept.disk
  disk := kept.disk
  inMemory := kept.onDisk
  onDisk := kept.onDisk

end Queue

end Opale.Effects
