import Mathlib.Logic.Function.Basic
import Mathlib.Tactic.Common

namespace Opale

/-- Items that threads take to use each of them at most once: the thread that owns each
item, and the history of the ones used. -/
structure Ledger (Item : Type) where
  owner : Item → Option Nat
  used : List Item

namespace Ledger

variable {Item : Type}

def empty : Ledger Item := ⟨fun _ => none, []⟩

/-- The thread `t` is gone with all that it owned. -/
def drop (ledger : Ledger Item) (t : Nat) : Ledger Item :=
  { ledger with owner := fun item => if ledger.owner item = some t then none else ledger.owner item }

/-- What the thread `t` owns stays its own. -/
def Keeps (t : Nat) (ledger after : Ledger Item) : Prop :=
  ∀ item, ledger.owner item = some t → after.owner item = some t

/-- No item was used twice, the ones used are taken, and so are the ones that a thread
owns, which are not yet used. -/
structure Valid (taken : Item → Prop) (ledger : Ledger Item) : Prop where
  once : ledger.used.Nodup
  used : ∀ item ∈ ledger.used, taken item
  owned : ∀ item t, ledger.owner item = some t → taken item ∧ item ∉ ledger.used

variable {taken after : Item → Prop} {ledger : Ledger Item} {t : Nat} {item : Item}

theorem Keeps.refl (t : Nat) (ledger : Ledger Item) : Keeps t ledger ledger := fun _ owns => owns

theorem Keeps.trans {a b c : Ledger Item} (first : Keeps t a b) (second : Keeps t b c) : Keeps t a c :=
  fun item owns => second item (first item owns)

theorem keeps_drop {u : Nat} (other : u ≠ t) : Keeps u ledger (ledger.drop t) := by
  intro i owns
  have apart : ledger.owner i ≠ some t := by
    rw [owns]
    exact fun same => other (Option.some.inj same)
  exact (if_neg apart).trans owns

theorem valid_empty : (empty : Ledger Item).Valid taken where
  once := List.nodup_nil
  used _ member := absurd member List.not_mem_nil
  owned _ _ owns := absurd owns nofun

/-- More items may become taken at any time. -/
theorem Valid.mono (valid : ledger.Valid taken) (grows : ∀ item, taken item → after item) :
    ledger.Valid after where
  once := valid.once
  used item member := grows item (valid.used item member)
  owned item t owns := ⟨grows item (valid.owned item t owns).1, (valid.owned item t owns).2⟩

theorem Valid.free (valid : ledger.Valid taken) (free : ¬taken item) : ledger.owner item = none := by
  cases owns : ledger.owner item with
  | none => rfl
  | some t => exact absurd (valid.owned item t owns).1 free

/-- What a thread that dies owned stays taken. -/
theorem Valid.drop (valid : ledger.Valid taken) (t : Nat) : (ledger.drop t).Valid taken where
  once := valid.once
  used := valid.used
  owned item u owns := by
    have before : ledger.owner item = some u := by
      by_cases mine : ledger.owner item = some t
      · exact absurd ((if_pos mine).symm.trans owns) nofun
      · exact (if_neg mine).symm.trans owns
    exact valid.owned item u before

variable [DecidableEq Item]

def take (ledger : Ledger Item) (t : Nat) (item : Item) : Ledger Item :=
  { ledger with owner := Function.update ledger.owner item (some t) }

def letGo (ledger : Ledger Item) (item : Item) : Ledger Item :=
  { ledger with owner := Function.update ledger.owner item none }

def use (ledger : Ledger Item) (item : Item) : Ledger Item :=
  ⟨Function.update ledger.owner item none, ledger.used ++ [item]⟩

@[simp] theorem owner_take_self : (ledger.take t item).owner item = some t := Function.update_self ..

/-- Taking an item that is free takes nothing from the others. -/
theorem keeps_take {u : Nat} (free : ledger.owner item = none) : Keeps u ledger (ledger.take t item) := by
  intro i owns
  have apart : i ≠ item := by
    rintro rfl
    rw [free] at owns
    cases owns
  exact (Function.update_of_ne apart ..).trans owns

/-- Giving an item up takes nothing from those who do not own it. -/
theorem keeps_update {u : Nat} {used : List Item} (mine : ledger.owner item ≠ some u) :
    Keeps u ledger ⟨Function.update ledger.owner item none, used⟩ := by
  intro i owns
  have apart : i ≠ item := by
    rintro rfl
    exact mine owns
  exact (Function.update_of_ne apart ..).trans owns

theorem keeps_letGo {u : Nat} (mine : ledger.owner item ≠ some u) : Keeps u ledger (ledger.letGo item) :=
  keeps_update mine

theorem keeps_use {u : Nat} (mine : ledger.owner item ≠ some u) : Keeps u ledger (ledger.use item) :=
  keeps_update mine

/-- A thread may take an item that is not taken. -/
theorem Valid.take (valid : ledger.Valid taken) (free : ¬taken item)
    (grows : ∀ other, taken other → after other) (now : after item) : (ledger.take t item).Valid after where
  once := valid.once
  used other member := grows other (valid.used other member)
  owned other u owns := by
    by_cases same : other = item
    · subst same
      exact ⟨now, fun member => free (valid.used other member)⟩
    · have before : ledger.owner other = some u := (Function.update_of_ne same ..).symm.trans owns
      exact ⟨grows other (valid.owned other u before).1, (valid.owned other u before).2⟩

theorem owner_of_update {other : Item} {u : Nat}
    (owns : Function.update ledger.owner item none other = some u) :
    other ≠ item ∧ ledger.owner other = some u := by
  by_cases same : other = item
  · subst same
    rw [Function.update_self] at owns
    cases owns
  · exact ⟨same, (Function.update_of_ne same ..).symm.trans owns⟩

/-- An item that its owner lets go of may become free again. -/
theorem Valid.letGo (valid : ledger.Valid taken) (unused : item ∉ ledger.used)
    (shrinks : ∀ other, taken other → other ≠ item → after other) : (ledger.letGo item).Valid after where
  once := valid.once
  used other member := by
    refine shrinks other (valid.used other member) ?_
    rintro rfl
    exact unused member
  owned other u owns := by
    obtain ⟨apart, before⟩ := owner_of_update owns
    exact ⟨shrinks other (valid.owned other u before).1 apart, (valid.owned other u before).2⟩

/-- The owner of an item may use it, once. -/
theorem Valid.use (valid : ledger.Valid taken) (owns : ledger.owner item = some t) :
    (ledger.use item).Valid taken where
  once := by
    refine List.nodup_append.mpr ⟨valid.once, List.pairwise_singleton _ _, ?_⟩
    rintro a old b fresh rfl
    rw [List.mem_singleton] at fresh
    exact (valid.owned item t owns).2 (fresh ▸ old)
  used other member := by
    rcases List.mem_append.mp member with old | fresh
    · exact valid.used other old
    · rw [List.mem_singleton] at fresh
      exact fresh ▸ (valid.owned item t owns).1
  owned other u mine := by
    obtain ⟨apart, before⟩ := owner_of_update mine
    refine ⟨(valid.owned other u before).1, fun member => ?_⟩
    rcases List.mem_append.mp member with old | fresh
    · exact (valid.owned other u before).2 old
    · exact apart (List.mem_singleton.mp fresh)

end Ledger

end Opale
