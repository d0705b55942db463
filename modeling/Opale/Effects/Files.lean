import Mathlib.Logic.Function.Basic
import Mathlib.Tactic.Common

namespace Opale

open Function (update)

/-- The names of a file system and the files that they stand for, with what a power cut may leave of them: `past` are the files
that a name has stood for since its directory was last on the disk, and a file that is not `synced` may hold anything then. -/
structure Files (Name Data : Type) where
  names : Name → Option Nat
  past : Name → Option Nat → Prop
  data : Nat → Data
  synced : Nat → Prop
  next : Nat

namespace Files

variable {Name Data : Type}

def read (files : Files Name Data) (name : Name) : Option Data := (files.names name).map files.data

/-- What a power cut leaves: each name stands for one of its files. -/
structure Cut (files after : Files Name Data) : Prop where
  names : ∀ n, files.past n (after.names n)
  past : ∀ n file, after.past n file ↔ file = after.names n
  data : ∀ i, files.synced i → after.data i = files.data i
  synced : ∀ i, after.synced i
  next : after.next = files.next

/-- The file `i` is found under no name but `n`, not even after a power cut. -/
def Only (files : Files Name Data) (n : Name) (i : Nat) : Prop := files.names n = some i ∧ ∀ m, files.past m (some i) → m = n

structure Sound (files : Files Name Data) : Prop where
  known : ∀ n i, files.past n (some i) → i < files.next
  current : ∀ n, files.past n (files.names n)

/-- Whatever a power cut leaves of `n`, it is on the disk and its contents are as `allowed`. -/
def Whole (files : Files Name Data) (allowed : Option Data → Prop) (n : Name) : Prop :=
  ∀ file, files.past n file → (∀ i, file = some i → files.synced i) ∧ allowed (file.map files.data)

/-- Nothing has been done to the name `n` and to what a power cut may leave of it. -/
structure Still (files : Files Name Data) (n : Name) (after : Files Name Data) : Prop where
  names : after.names n = files.names n
  past : ∀ file, after.past n file → files.past n file
  data : ∀ i, after.past n (some i) → after.data i = files.data i

def fill (files : Files Name Data) (i : Nat) (d : Data) : Files Name Data :=
  { files with data := update files.data i d, synced := fun j => files.synced j ∧ j ≠ i }

def sync (files : Files Name Data) (i : Nat) : Files Name Data := { files with synced := fun j => files.synced j ∨ j = i }

/-- The directory is on the disk. -/
def settle (files : Files Name Data) (inside : Name → Prop) : Files Name Data :=
  { files with past := fun n f => files.past n f ∧ (inside n → f = files.names n) }

section

variable {files after : Files Name Data} {allowed : Option Data → Prop} {n m : Name} {i j : Nat} {d : Data}

theorem Whole.read (whole : files.Whole allowed n) (sound : files.Sound) : allowed (files.read n) := (whole _ (sound.current n)).2

theorem Still.refl (n : Name) (files : Files Name Data) : files.Still n files := ⟨rfl, fun _ => id, fun _ _ => rfl⟩

theorem Still.trans {last : Files Name Data} (first : files.Still n after) (second : after.Still n last) : files.Still n last where
  names := second.names.trans first.names
  past file past := first.past file (second.past file past)
  data i past := (second.data i past).trans (first.data i (second.past _ past))

theorem Still.contents (still : files.Still n after) {file : Option Nat} (past : after.past n file) :
    file.map after.data = file.map files.data := by
  cases file with
  | none => rfl
  | some i => rw [Option.map_some, Option.map_some, still.data i past]

theorem Still.read (still : files.Still n after) (sound : after.Sound) : after.read n = files.read n := by
  unfold Files.read
  rw [still.contents (sound.current n), still.names]

theorem Still.settle (inside : Name → Prop) : files.Still n (files.settle inside) := ⟨rfl, fun _ past => past.1, fun _ _ => rfl⟩

theorem Still.sync (i : Nat) : files.Still n (files.sync i) := ⟨rfl, fun _ => id, fun _ _ => rfl⟩

theorem Still.fill (only : files.Only m i) (apart : n ≠ m) (d : Data) : files.Still n (files.fill i d) where
  names := rfl
  past _ := id
  data j past := by
    have differ : j ≠ i := by
      rintro rfl
      exact apart (only.2 n past)
    exact Function.update_of_ne differ ..

/-- What is on the disk is read after a power cut. -/
theorem Whole.read_cut (whole : files.Whole allowed n) (cut : files.Cut after) :
    ∃ file, files.past n file ∧ after.read n = file.map files.data := by
  refine ⟨after.names n, cut.names n, ?_⟩
  unfold Files.read
  cases here : after.names n with
  | none => rfl
  | some i => rw [Option.map_some, Option.map_some, cut.data i ((whole _ (cut.names n)).1 i here)]

theorem Whole.cut (whole : files.Whole allowed n) (cut : files.Cut after) : after.Whole allowed n := by
  intro file past
  obtain rfl := (cut.past n file).mp past
  obtain ⟨old, before, same⟩ := whole.read_cut cut
  refine ⟨fun i _ => cut.synced i, ?_⟩
  rw [show (after.names n).map after.data = old.map files.data from same]
  exact (whole old before).2

theorem Sound.cut (sound : files.Sound) (cut : files.Cut after) : after.Sound where
  known n i past := by
    rw [cut.past] at past
    rw [cut.next]
    exact sound.known n i (past ▸ cut.names n)
  current n := (cut.past n _).mpr rfl

/-- What is done aside leaves whole what was. -/
theorem Whole.still (whole : files.Whole allowed n) (still : files.Still n after)
    (synced : ∀ i, after.past n (some i) → files.synced i → after.synced i) : after.Whole allowed n := by
  intro file past
  obtain ⟨before, holds⟩ := whole file (still.past file past)
  refine ⟨fun i is => synced i (is ▸ past) (before i is), ?_⟩
  rw [still.contents past]
  exact holds

theorem Sound.fill (sound : files.Sound) (i : Nat) (d : Data) : (files.fill i d).Sound := ⟨sound.known, sound.current⟩

theorem Sound.sync (sound : files.Sound) (i : Nat) : (files.sync i).Sound := ⟨sound.known, sound.current⟩

theorem Sound.settle (sound : files.Sound) (inside : Name → Prop) : (files.settle inside).Sound where
  known n i past := sound.known n i past.1
  current n := ⟨sound.current n, fun _ => rfl⟩

theorem Whole.settle (whole : files.Whole allowed n) (inside : Name → Prop) : (files.settle inside).Whole allowed n :=
  whole.still (.settle inside) fun _ _ => id

theorem Whole.fill (whole : files.Whole allowed n) (only : files.Only m i) (apart : n ≠ m) (d : Data) :
    (files.fill i d).Whole allowed n := by
  refine whole.still (.fill only apart d) fun j past synced => ⟨synced, ?_⟩
  rintro rfl
  exact apart (only.2 n past)

theorem Whole.sync (whole : files.Whole allowed n) (i : Nat) : (files.sync i).Whole allowed n :=
  whole.still (.sync i) fun _ _ => .inl

theorem Only.ne (only : files.Only n i) (other : files.Only m j) (apart : n ≠ m) (sound : files.Sound) : i ≠ j := by
  rintro rfl
  exact apart (other.2 n (only.1 ▸ sound.current n))

theorem Only.settle (only : files.Only n i) (inside : Name → Prop) : (files.settle inside).Only n i :=
  ⟨only.1, fun m past => only.2 m past.1⟩

end

variable [DecidableEq Name]

/-- The name stands for another file, or for none, from now on. -/
def bind (files : Files Name Data) (n : Name) (file : Option Nat) : Files Name Data :=
  { files with names := update files.names n file, past := fun m f => files.past m f ∨ m = n ∧ f = file }

def create (files : Files Name Data) (n : Name) (empty : Data) : Files Name Data :=
  { files.bind n (some files.next) with
    data := update files.data files.next empty
    synced := fun i => files.synced i ∧ i ≠ files.next
    next := files.next + 1 }

def rename (files : Files Name Data) (source target : Name) : Files Name Data :=
  (files.bind target (files.names source)).bind source none

variable {files : Files Name Data} {allowed : Option Data → Prop} {n m source target : Name} {i j : Nat} {d : Data} {file : Option Nat}

theorem Sound.bind (sound : files.Sound) (known : ∀ i, file = some i → i < files.next) : (files.bind n file).Sound where
  known m i past := by
    rcases past with before | ⟨-, is⟩
    · exact sound.known m i before
    · exact known i is.symm
  current m := by
    by_cases same : m = n
    · exact .inr ⟨same, by rw [same]; exact Function.update_self ..⟩
    · refine .inl ?_
      rw [show (files.bind n file).names m = files.names m from Function.update_of_ne same ..]
      exact sound.current m

theorem Sound.create (sound : files.Sound) (n : Name) (empty : Data) : (files.create n empty).Sound where
  known m i past := by
    rcases past with before | ⟨-, is⟩
    · exact Nat.lt_succ_of_lt (sound.known m i before)
    · cases is
      exact Nat.lt_succ_self files.next
  current m := by
    by_cases same : m = n
    · exact .inr ⟨same, by rw [same]; exact Function.update_self ..⟩
    · refine .inl ?_
      rw [show (files.create n empty).names m = files.names m from Function.update_of_ne same ..]
      exact sound.current m

theorem Sound.rename (sound : files.Sound) : (files.rename source target).Sound := by
  refine Sound.bind (sound.bind fun i is => ?_) fun i is => by cases is
  exact sound.known source i (is ▸ sound.current source)

theorem Whole.bind (whole : files.Whole allowed n) (synced : n = m → ∀ i, file = some i → files.synced i)
    (holds : n = m → allowed (file.map files.data)) : (files.bind m file).Whole allowed n := by
  rintro f (before | ⟨same, rfl⟩)
  · exact whole f before
  · exact ⟨synced same, holds same⟩

/-- A rename puts a whole file that is on the disk in the place of the one before. -/
theorem Whole.rename (whole : files.Whole allowed n) (apart : n ≠ source) (here : files.names source = some i) (synced : files.synced i)
    (holds : n = target → allowed (some (files.data i))) : (files.rename source target).Whole allowed n := by
  refine Whole.bind (whole.bind (fun _ j is => ?_) fun same => ?_) (fun same => absurd same apart) fun same => absurd same apart
  · cases here.symm.trans is
    exact synced
  · rw [here]
    exact holds same

theorem Still.bind (apart : n ≠ m) (file : Option Nat) : files.Still n (files.bind m file) where
  names := Function.update_of_ne apart ..
  past _ past := past.resolve_right fun same => apart same.1
  data _ _ := rfl

theorem Still.create (sound : files.Sound) (apart : n ≠ m) (empty : Data) : files.Still n (files.create m empty) where
  names := Function.update_of_ne apart ..
  past f past := past.resolve_right fun same => apart same.1
  data i past := by
    have before : files.past n (some i) := past.resolve_right fun same => apart same.1
    exact Function.update_of_ne (Nat.ne_of_lt (sound.known n i before)) ..

theorem Whole.create (whole : files.Whole allowed n) (sound : files.Sound) (apart : n ≠ m) (empty : Data) :
    (files.create m empty).Whole allowed n := by
  refine whole.still (.create sound apart empty) fun i past synced => ⟨synced, ?_⟩
  have before : files.past n (some i) := past.resolve_right fun same => apart same.1
  exact Nat.ne_of_lt (sound.known n i before)

theorem only_create (sound : files.Sound) (n : Name) (empty : Data) : (files.create n empty).Only n files.next := by
  refine ⟨Function.update_self .., ?_⟩
  rintro m (before | ⟨same, -⟩)
  · exact absurd (sound.known m _ before) (Nat.lt_irrefl _)
  · exact same

theorem Only.bind (only : files.Only n i) (apart : m ≠ n) (differ : file ≠ some i) : (files.bind m file).Only n i := by
  refine ⟨(Function.update_of_ne apart.symm ..).trans only.1, ?_⟩
  rintro k (before | ⟨-, is⟩)
  · exact only.2 k before
  · exact absurd is.symm differ

theorem Only.create (only : files.Only n i) (sound : files.Sound) (apart : m ≠ n) (empty : Data) : (files.create m empty).Only n i := by
  have old : i ≠ files.next := Nat.ne_of_lt (sound.known n i (only.1 ▸ sound.current n))
  have kept : (files.bind m (some files.next)).Only n i := only.bind apart fun is => old (Option.some.inj is).symm
  exact ⟨kept.1, kept.2⟩

theorem Only.rename (only : files.Only n i) (sound : files.Sound) (source_ne : source ≠ n) (target_ne : target ≠ n) :
    (files.rename source target).Only n i := by
  refine Only.bind (only.bind target_ne fun is => ?_) source_ne (Option.some_ne_none i).symm
  exact source_ne (only.2 source (is ▸ sound.current source))

end Files

end Opale
