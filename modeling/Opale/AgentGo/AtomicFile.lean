import Opale.Effects.Files
import Opale.Effects.Threads

namespace Opale.AgentGo

open Program

abbrev FileData := List UInt8

/-- An open temporary file: its name, and the file itself. -/
structure TempFile where
  name : String
  file : Nat

/-- The calls to the operating system; an answer `false` is an error. -/
inductive FileOp where
  | createTemp (path : String)
  | write (f : TempFile) (data : FileData)
  | chmod (f : TempFile) (perm : Nat)
  | sync (f : TempFile)
  | close (f : TempFile)
  | rename (source target : String)
  | remove (name : String)
  | openDir (path : String)
  | syncDir (path : String)
  | closeDir (path : String)

abbrev FileOp.Res : FileOp → Type
  | .createTemp _ => Option TempFile
  | _ => Bool

abbrev Filing (α : Type) := Program FileOp.Res α

/-- `renameWithRetry`, with the attempts that are left. -/
def renameWithRetry (source target : String) : Nat → Filing Bool
  | 0 => pure false
  | attempts + 1 => do
    if ← (perform (FileOp.rename source target) : Filing Bool) then pure true
    else renameWithRetry source target attempts

/-- What `fail` does, without its error. -/
def failTemp (f : TempFile) : Filing Bool := do
  let _ ← perform (FileOp.close f)
  let _ ← perform (FileOp.remove f.name)
  pure false

def persistRename (path : String) : Filing Bool := do
  if ← (perform (FileOp.openDir path) : Filing Bool) then do
    let _ ← perform (FileOp.syncDir path)
    let _ ← perform (FileOp.closeDir path)
    pure true
  else pure true

def replaceFile (f : TempFile) (path : String) : Filing Bool := do
  if ← renameWithRetry f.name path 5 then persistRename path
  else do
    let _ ← perform (FileOp.remove f.name)
    pure false

def closeTemp (f : TempFile) (path : String) : Filing Bool := do
  if ← (perform (FileOp.close f) : Filing Bool) then replaceFile f path
  else do
    let _ ← perform (FileOp.remove f.name)
    pure false

def syncTemp (f : TempFile) (path : String) : Filing Bool := do
  if ← (perform (FileOp.sync f) : Filing Bool) then closeTemp f path else failTemp f

def chmodTemp (windows : Bool) (f : TempFile) (path : String) (perm : Nat) : Filing Bool := do
  if ← (perform (FileOp.chmod f perm) : Filing Bool) then syncTemp f path
  else if windows then syncTemp f path else failTemp f

/-- `writeFileAtomic`: whether it returned no error. -/
def writeFileAtomic (windows : Bool) (path : String) (data : FileData) (perm : Nat) : Filing Bool := do
  match ← (perform (FileOp.createTemp path) : Filing (Option TempFile)) with
  | none => pure false
  | some f =>
    if ← (Program.perform (FileOp.write f data) : Filing Bool) then chmodTemp windows f path perm else failTemp f

def isTemp (name : String) : Bool := ".tmp".toList.isSuffixOf name.toList

/-- The files, and the goroutine that works on a temporary one. -/
structure DiskWorld where
  files : Files String FileData
  owner : String → Option Nat

open Function (update)

/-- What an operation of the goroutine `t` may answer and do; `dir` gives the directory of a name. -/
inductive fileExec {Dir : Type} (dir : String → Dir) (t : Nat) : (o : FileOp) → DiskWorld → o.Res → DiskWorld → Prop
  | notCreated {path w} : fileExec dir t (.createTemp path) w none w
  | created {path name w} : isTemp name = true → dir name = dir path → w.files.names name = none →
      fileExec dir t (.createTemp path) w (some ⟨name, w.files.next⟩) ⟨w.files.create name [], update w.owner name (some t)⟩
  | written {f data w} : fileExec dir t (.write f data) w true { w with files := w.files.fill f.file data }
  | torn {f data part w} : part <+: data → fileExec dir t (.write f data) w false { w with files := w.files.fill f.file part }
  | chmod {f perm w answer} : fileExec dir t (.chmod f perm) w answer w
  | synced {f w} : fileExec dir t (.sync f) w true { w with files := w.files.sync f.file }
  | notSynced {f w} : fileExec dir t (.sync f) w false w
  | close {f w answer} : fileExec dir t (.close f) w answer w
  | renamed {source target w} : w.files.names source ≠ none →
      fileExec dir t (.rename source target) w true ⟨w.files.rename source target, update w.owner source none⟩
  | notRenamed {source target w} : fileExec dir t (.rename source target) w false w
  | removed {name w} : fileExec dir t (.remove name) w true ⟨w.files.bind name none, update w.owner name none⟩
  | notRemoved {name w} : fileExec dir t (.remove name) w false { w with owner := update w.owner name none }
  | openDir {path w answer} : fileExec dir t (.openDir path) w answer w
  | settled {path w} : fileExec dir t (.syncDir path) w true { w with files := w.files.settle fun n => dir n = dir path }
  | notSettled {path w} : fileExec dir t (.syncDir path) w false w
  | closeDir {path w answer} : fileExec dir t (.closeDir path) w answer w

/-- Goroutines that write whole files, any number of them. A power cut comes after the death of all of them, which leaves
their temporary files behind. -/
def writers {Dir : Type} (dir : String → Dir) (writes : String → FileData → Prop) : Threads FileOp.Res DiskWorld where
  exec := fileExec dir
  env w w₁ := (∀ n, w.owner n = none) ∧ w.files.Cut w₁.files ∧ w₁.owner = w.owner
  entry program := ∃ windows path data perm, isTemp path = false ∧ writes path data ∧
    program = (writeFileAtomic windows path data perm).bind fun _ => .ret ()
  drop t w := { w with owner := fun n => if w.owner n = some t then none else w.owner n }

section

variable {Dir : Type} {dir : String → Dir} {writes : String → FileData → Prop} {start : String → Option FileData}
variable {t : Nat} {w w₁ : DiskWorld} {f : TempFile} {path : String} {data : FileData}

/-- What a file may hold: what it held at the start, or all that one of the writes was to put there. -/
def Intended (writes : String → FileData → Prop) (start : String → Option FileData) (path : String) (contents : Option FileData) : Prop :=
  contents = start path ∨ ∃ data, writes path data ∧ contents = some data

structure DiskSound (writes : String → FileData → Prop) (start : String → Option FileData) (w : DiskWorld) : Prop where
  sound : w.files.Sound
  whole : ∀ path, isTemp path = false → w.files.Whole (Intended writes start path) path
  temp : ∀ n t, w.owner n = some t → isTemp n = true
  alone : ∀ n t, w.owner n = some t → ∃ i, w.files.Only n i

/-- What a goroutine accepts of the others: its temporary files are left alone. -/
structure Untouched (t : Nat) (w w₁ : DiskWorld) : Prop where
  owner : ∀ n, w₁.owner n = some t ↔ w.owner n = some t
  names : ∀ n, w.owner n = some t → w₁.files.names n = w.files.names n
  data : ∀ n i, w.owner n = some t → w.files.names n = some i → w₁.files.data i = w.files.data i ∧ (w.files.synced i → w₁.files.synced i)

theorem Untouched.refl (t : Nat) (w : DiskWorld) : Untouched t w w := ⟨fun _ => .rfl, fun _ _ => rfl, fun _ _ _ _ => ⟨rfl, id⟩⟩

theorem Untouched.trans {t : Nat} {a b c : DiskWorld} (first : Untouched t a b) (second : Untouched t b c) : Untouched t a c where
  owner n := (second.owner n).trans (first.owner n)
  names n mine := (second.names n ((first.owner n).mpr mine)).trans (first.names n mine)
  data n i mine here := by
    have mine₁ := (first.owner n).mpr mine
    obtain ⟨same, synced⟩ := first.data n i mine here
    obtain ⟨same₁, synced₁⟩ := second.data n i mine₁ ((first.names n mine).trans here)
    exact ⟨same₁.trans same, fun before => synced₁ (synced before)⟩

/-- A goroutine between two writes has no temporary file. -/
def Tidy (t : Nat) (w : DiskWorld) : Prop := ∀ n, w.owner n ≠ some t

def writerTeam (dir : String → Dir) (writes : String → FileData → Prop) (start : String → Option FileData) :
    Threads.Team FileOp.Res DiskWorld where
  exec := fileExec dir
  inv := DiskSound writes start
  rely := Untouched
  guarantee _ _ _ _ _ := True
  idle := Tidy
  rely_refl := Untouched.refl
  rely_trans _ := Untouched.trans

/-- The temporary file of `t`, and no other one of its own. -/
structure Mine (t : Nat) (f : TempFile) (w : DiskWorld) : Prop where
  owner : ∀ n, w.owner n = some t ↔ n = f.name
  here : w.files.names f.name = some f.file

/-- The temporary file holds all of `data`. -/
def Filled (t : Nat) (f : TempFile) (data : FileData) (w : DiskWorld) : Prop := Mine t f w ∧ w.files.data f.file = data

def Durable (t : Nat) (f : TempFile) (data : FileData) (w : DiskWorld) : Prop := Filled t f data w ∧ w.files.synced f.file

theorem Tidy.untouched (tidy : Tidy t w) (same : Untouched t w w₁) : Tidy t w₁ := fun n mine => tidy n ((same.owner n).mp mine)

theorem Mine.untouched (mine : Mine t f w) (same : Untouched t w w₁) : Mine t f w₁ where
  owner n := (same.owner n).trans (mine.owner n)
  here := (same.names f.name ((mine.owner _).mpr rfl)).trans mine.here

theorem Filled.untouched (filled : Filled t f data w) (same : Untouched t w w₁) : Filled t f data w₁ :=
  ⟨filled.1.untouched same, (same.data f.name f.file ((filled.1.owner _).mpr rfl) filled.1.here).1.trans filled.2⟩

theorem Durable.untouched (durable : Durable t f data w) (same : Untouched t w w₁) : Durable t f data w₁ :=
  ⟨durable.1.untouched same, (same.data f.name f.file ((durable.1.1.owner _).mpr rfl) durable.1.1.here).2 durable.2⟩

theorem Mine.only (mine : Mine t f w) (sound : DiskSound writes start w) : w.files.Only f.name f.file := by
  obtain ⟨i, only⟩ := sound.alone f.name t ((mine.owner _).mpr rfl)
  cases only.1.symm.trans mine.here
  exact only

theorem Mine.temp (mine : Mine t f w) (sound : DiskSound writes start w) : isTemp f.name = true :=
  sound.temp f.name t ((mine.owner _).mpr rfl)

theorem ne_temp {n m : String} (target : isTemp n = false) (temp : isTemp m = true) : n ≠ m := by
  rintro rfl
  cases target.symm.trans temp

/-- What one operation of `t` owes to all the others. -/
def Owed (writes : String → FileData → Prop) (start : String → Option FileData) (t : Nat) (w w₁ : DiskWorld) : Prop :=
  DiskSound writes start w₁ ∧ ∀ u, u ≠ t → Untouched u w w₁

theorem owed_self (sound : DiskSound writes start w) : Owed writes start t w w := ⟨sound, fun u _ => .refl u w⟩

theorem Mine.other (mine : Mine t f w) {u : Nat} {n : String} (other : u ≠ t) (theirs : w.owner n = some u) : n ≠ f.name := by
  intro same
  exact other (Option.some.inj (theirs.symm.trans ((mine.owner n).mpr same)))

theorem owed_created {name : String} (sound : DiskSound writes start w) (tidy : Tidy t w) (temp : isTemp name = true)
    (free : w.files.names name = none) :
    let w₁ : DiskWorld := ⟨w.files.create name [], update w.owner name (some t)⟩
    Owed writes start t w w₁ ∧ Mine t ⟨name, w.files.next⟩ w₁ := by
  have taken : ∀ n u, w.owner n = some u → n ≠ name := by
    rintro n u theirs rfl
    obtain ⟨i, only⟩ := sound.alone n u theirs
    cases free.symm.trans only.1
  refine ⟨⟨⟨sound.sound.create name [], fun path target => ?_, fun n u owns => ?_, fun n u owns => ?_⟩, fun u other => ⟨fun n => ?_, fun n theirs => ?_,
    fun n i theirs here => ?_⟩⟩, fun n => ?_, ?_⟩
  · exact (sound.whole path target).create sound.sound (ne_temp target temp) []
  · by_cases same : n = name
    · rw [same]
      exact temp
    · exact sound.temp n u ((Function.update_of_ne same ..).symm.trans owns)
  · by_cases same : n = name
    · rw [same]
      exact ⟨_, Files.only_create sound.sound name []⟩
    · obtain ⟨i, only⟩ := sound.alone n u ((Function.update_of_ne same ..).symm.trans owns)
      exact ⟨i, only.create sound.sound (Ne.symm same) []⟩
  · by_cases same : n = name
    · dsimp only
      rw [same, Function.update_self]
      exact iff_of_false (fun is => other (Option.some.inj is).symm) fun theirs => taken name u theirs rfl
    · dsimp only
      rw [Function.update_of_ne same]
  · exact Function.update_of_ne (taken n u theirs) ..
  · have old : i ≠ w.files.next := Nat.ne_of_lt (sound.sound.known n i (here ▸ sound.sound.current n))
    exact ⟨Function.update_of_ne old .., fun synced => ⟨synced, old⟩⟩
  · by_cases same : n = name
    · dsimp only
      rw [same, Function.update_self]
      exact iff_of_true rfl rfl
    · dsimp only
      rw [Function.update_of_ne same]
      exact iff_of_false (tidy n) same
  · exact Function.update_self ..

theorem owed_fill (sound : DiskSound writes start w) (mine : Mine t f w) (d : FileData) :
    let w₁ := { w with files := w.files.fill f.file d }
    Owed writes start t w w₁ ∧ Filled t f d w₁ := by
  have only := mine.only sound
  refine ⟨⟨⟨sound.sound.fill f.file d, fun path target => ?_, sound.temp, sound.alone⟩, fun u other => ⟨fun _ => .rfl, fun _ _ => rfl,
    fun n i theirs here => ?_⟩⟩, ⟨mine.owner, mine.here⟩, Function.update_self ..⟩
  · exact (sound.whole path target).fill only (ne_temp target (mine.temp sound)) d
  · obtain ⟨j, theirs_only⟩ := sound.alone n u theirs
    cases theirs_only.1.symm.trans here
    have differ : i ≠ f.file := theirs_only.ne only (mine.other other theirs) sound.sound
    exact ⟨Function.update_of_ne differ .., fun synced => ⟨synced, differ⟩⟩

theorem owed_sync (sound : DiskSound writes start w) (filled : Filled t f data w) :
    let w₁ := { w with files := w.files.sync f.file }
    Owed writes start t w w₁ ∧ Durable t f data w₁ := by
  refine ⟨⟨⟨sound.sound.sync f.file, fun path target => (sound.whole path target).sync f.file, sound.temp, sound.alone⟩,
    fun u _ => ⟨fun _ => .rfl, fun _ _ => rfl, fun _ _ _ _ => ⟨rfl, .inl⟩⟩⟩, ⟨⟨filled.1.owner, filled.1.here⟩, filled.2⟩, .inr rfl⟩

theorem tidy_update (mine : Mine t f w) (files : Files String FileData) : Tidy t ⟨files, update w.owner f.name none⟩ := by
  intro n owns
  by_cases same : n = f.name
  · have is : update w.owner f.name none n = some t := owns
    rw [same, Function.update_self] at is
    cases is
  · exact same ((mine.owner n).mp ((Function.update_of_ne same ..).symm.trans owns))

theorem owner_update {n : String} {u : Nat} {files : Files String FileData} {name : String}
    (owns : (DiskWorld.mk files (update w.owner name none)).owner n = some u) : n ≠ name ∧ w.owner n = some u := by
  by_cases same : n = name
  · have is : update w.owner name none n = some u := owns
    rw [same, Function.update_self] at is
    cases is
  · exact ⟨same, (Function.update_of_ne same ..).symm.trans owns⟩

/-- The others keep their temporary files when `t` gives up its own. -/
theorem untouched_update (mine : Mine t f w) {u : Nat} (other : u ≠ t) {files : Files String FileData}
    (names : ∀ n, n ≠ f.name → w.owner n = some u → files.names n = w.files.names n)
    (data : files.data = w.files.data) (synced : files.synced = w.files.synced) :
    Untouched u w ⟨files, update w.owner f.name none⟩ where
  owner n := by
    by_cases same : n = f.name
    · dsimp only
      rw [same, Function.update_self, (mine.owner f.name).mpr rfl]
      exact iff_of_false (fun is => by cases is) fun is => other (Option.some.inj is).symm
    · dsimp only
      rw [Function.update_of_ne same]
  names n theirs := names n (mine.other other theirs) theirs
  data n i _ _ := by
    dsimp only
    rw [data, synced]
    exact ⟨rfl, id⟩

theorem owed_renamed (sound : DiskSound writes start w) (durable : Durable t f data w) (target : isTemp path = false)
    (meant : writes path data) :
    let w₁ : DiskWorld := ⟨w.files.rename f.name path, update w.owner f.name none⟩
    Owed writes start t w w₁ ∧ Tidy t w₁ := by
  have mine := durable.1.1
  have temp := mine.temp sound
  refine ⟨⟨⟨sound.sound.rename, fun p target' => ?_, fun n u owns => sound.temp n u (owner_update owns).2, fun n u owns => ?_⟩,
    fun u other => untouched_update mine other (fun n apart theirs => ?_) rfl rfl⟩, tidy_update mine _⟩
  · refine (sound.whole p target').rename (ne_temp target' temp) mine.here durable.2 fun same => ?_
    rw [same, durable.1.2]
    exact .inr ⟨data, meant, rfl⟩
  · obtain ⟨apart, before⟩ := owner_update owns
    obtain ⟨i, only⟩ := sound.alone n u before
    exact ⟨i, only.rename sound.sound apart.symm (ne_temp target (sound.temp n u before))⟩
  · have differ : n ≠ path := (ne_temp target (sound.temp n u theirs)).symm
    exact (Function.update_of_ne apart ..).trans (Function.update_of_ne differ ..)

theorem owed_removed (sound : DiskSound writes start w) (mine : Mine t f w) :
    let w₁ : DiskWorld := ⟨w.files.bind f.name none, update w.owner f.name none⟩
    Owed writes start t w w₁ ∧ Tidy t w₁ := by
  have temp := mine.temp sound
  refine ⟨⟨⟨sound.sound.bind (fun i is => by cases is), fun p target => ?_, fun n u owns => sound.temp n u (owner_update owns).2, fun n u owns => ?_⟩,
    fun u other => untouched_update mine other (fun n apart theirs => Function.update_of_ne apart ..) rfl rfl⟩, tidy_update mine _⟩
  · exact (sound.whole p target).bind (fun same => absurd same (ne_temp target temp)) fun same => absurd same (ne_temp target temp)
  · obtain ⟨apart, before⟩ := owner_update owns
    obtain ⟨i, only⟩ := sound.alone n u before
    exact ⟨i, only.bind apart.symm (Option.some_ne_none i).symm⟩

theorem owed_notRemoved (sound : DiskSound writes start w) (mine : Mine t f w) :
    let w₁ : DiskWorld := { w with owner := update w.owner f.name none }
    Owed writes start t w w₁ ∧ Tidy t w₁ :=
  ⟨⟨⟨sound.sound, sound.whole, fun n u owns => sound.temp n u (owner_update owns).2, fun n u owns => sound.alone n u (owner_update owns).2⟩,
    fun _ other => untouched_update mine other (fun _ _ _ => rfl) rfl rfl⟩, tidy_update mine _⟩

theorem owed_settled (sound : DiskSound writes start w) (inside : String → Prop) :
    Owed writes start t w { w with files := w.files.settle inside } := by
  refine ⟨⟨sound.sound.settle inside, fun p target => (sound.whole p target).settle inside, sound.temp, fun n u owns => ?_⟩,
    fun u _ => ⟨fun _ => .rfl, fun _ _ => rfl, fun _ _ _ _ => ⟨rfl, id⟩⟩⟩
  obtain ⟨i, only⟩ := sound.alone n u owns
  exact ⟨i, only.settle inside⟩

/-- What holds of the target `path` until its rename, and from then on, under the rules that the goroutine `t` lives by. -/
structure Course (rules : Rules FileOp.Res DiskWorld) (dir : String → Dir) (writes : String → FileData → Prop)
    (start : String → Option FileData) (t : Nat) (path : String) (data : FileData) (before after : DiskWorld → Prop) : Prop where
  exec : ∀ {o w answer w₁}, rules.exec o w answer w₁ → fileExec dir t o w answer w₁
  inv : ∀ {w}, rules.inv w ↔ DiskSound writes start w
  guarantee : ∀ {o w answer w₁}, (∀ u, u ≠ t → Untouched u w w₁) → rules.guarantee o w answer w₁
  rely : ∀ {w w₁}, rules.rely w w₁ → Untouched t w w₁ ∧ (DiskSound writes start w₁ → (before w → before w₁) ∧ (after w → after w₁))
  aside : ∀ {w w₁}, DiskSound writes start w₁ → w.files.Still path w₁.files → (before w → before w₁) ∧ (after w → after w₁)
  renamed : ∀ {f w}, isTemp f.name = true → Durable t f data w → before w →
    after ⟨w.files.rename f.name path, update w.owner f.name none⟩

variable {rules : Rules FileOp.Res DiskWorld} {before after : DiskWorld → Prop}
variable (course : Course rules dir writes start t path data before after) (target : isTemp path = false)

/-- What nothing that the others do takes away. -/
def Course.Steady (_ : Course rules dir writes start t path data before after) (P : DiskWorld → Prop) : Prop :=
  ∀ {w w₁}, rules.rely w w₁ → DiskSound writes start w₁ → P w → P w₁

include course

theorem Course.steady_before {P : DiskWorld → Prop} (kept : ∀ {w w₁}, P w → Untouched t w w₁ → P w₁) :
    course.Steady fun w => P w ∧ before w := fun moves sound both =>
  ⟨kept both.1 (course.rely moves).1, ((course.rely moves).2 sound).1 both.2⟩

theorem Course.steady_after {P : DiskWorld → Prop} (kept : ∀ {w w₁}, P w → Untouched t w w₁ → P w₁) :
    course.Steady fun w => P w ∧ after w := fun moves sound both =>
  ⟨kept both.1 (course.rely moves).1, ((course.rely moves).2 sound).2 both.2⟩

/-- The rule for one operation, from what is known before it. -/
theorem Course.step {α : Type} {post : α → DiskWorld → Prop} {o : FileOp} {rest : o.Res → Filing α} {P : DiskWorld → Prop}
    (steady : course.Steady P) (here : P w)
    (run : ∀ {w answer w₁}, DiskSound writes start w → P w → fileExec dir t o w answer w₁ →
      Owed writes start t w w₁ ∧ (DiskSound writes start w₁ → rules.Safe post (rest answer) w₁)) :
    rules.Safe post (.op o rest) w := by
  intro w₁ moves inv answer w₂ exec
  have sound := course.inv.mp inv
  obtain ⟨owed, later⟩ := run sound (steady moves sound here) (course.exec exec)
  exact ⟨course.inv.mpr owed.1, course.guarantee owed.2, later owed.1⟩

/-- An operation that changes nothing here. -/
theorem Course.idle {α : Type} {post : α → DiskWorld → Prop} {o : FileOp} {rest : o.Res → Filing α} {P : DiskWorld → Prop}
    (steady : course.Steady P) (here : P w) (nothing : ∀ {w answer w₁}, fileExec dir t o w answer w₁ → w₁ = w)
    (later : ∀ {answer w}, DiskSound writes start w → P w → rules.Safe post (rest answer) w) : rules.Safe post (.op o rest) w := by
  refine course.step steady here fun sound here exec => ?_
  obtain rfl := nothing exec
  exact ⟨owed_self sound, fun sound => later sound here⟩

omit course in
/-- Where a write ends: the target has been replaced, or nothing has been done to it. -/
def Course.Returns (_ : Course rules dir writes start t path data before after) (done : Bool) (w : DiskWorld) : Prop :=
  Tidy t w ∧ if done then after w else before w

theorem Course.returns_after (tidy : Tidy t w) (here : after w) : rules.Safe course.Returns (.ret true) w := fun _ moves inv =>
  course.steady_after Tidy.untouched moves (course.inv.mp inv) ⟨tidy, here⟩

theorem Course.returns_before (tidy : Tidy t w) (here : before w) : rules.Safe course.Returns (.ret false) w := fun _ moves inv =>
  course.steady_before Tidy.untouched moves (course.inv.mp inv) ⟨tidy, here⟩

include target

theorem remove_safe (mine : Mine t f w) (here : before w) : rules.Safe course.Returns (.op (.remove f.name) fun _ => .ret false) w := by
  refine course.step (course.steady_before Mine.untouched) ⟨mine, here⟩ fun {w answer w₁} sound both exec => ?_
  obtain ⟨mine, here⟩ := both
  cases exec with
  | removed =>
    obtain ⟨owed, tidy⟩ := owed_removed sound mine
    have still : w.files.Still path (w.files.bind f.name none) := .bind (ne_temp target (mine.temp sound)) none
    exact ⟨owed, fun sound => course.returns_before tidy ((course.aside sound still).1 here)⟩
  | notRemoved =>
    obtain ⟨owed, tidy⟩ := owed_notRemoved sound mine
    exact ⟨owed, fun sound => course.returns_before tidy ((course.aside sound (.refl path w.files)).1 here)⟩

theorem failTemp_safe (mine : Mine t f w) (here : before w) : rules.Safe course.Returns (failTemp f) w :=
  course.idle (course.steady_before Mine.untouched) ⟨mine, here⟩ (fun exec => by cases exec; rfl) fun _ both =>
    remove_safe course target both.1 both.2

omit target in
theorem persistRename_safe (tidy : Tidy t w) (here : after w) : rules.Safe course.Returns (persistRename path) w := by
  have steady : course.Steady fun w => Tidy t w ∧ after w := course.steady_after Tidy.untouched
  refine course.idle steady ⟨tidy, here⟩ (fun exec => by cases exec; rfl) fun {answer w} _ both => ?_
  cases answer with
  | false => exact course.returns_after both.1 both.2
  | true =>
    have last : ∀ {w}, Tidy t w → after w → rules.Safe course.Returns (.op (.closeDir path) fun _ => .ret true) w := fun tidy here =>
      course.idle steady ⟨tidy, here⟩ (fun exec => by cases exec; rfl) fun _ both => course.returns_after both.1 both.2
    refine course.step steady both fun {w answer w₁} sound both exec => ?_
    cases exec with
    | settled => exact ⟨owed_settled sound _, fun sound => last both.1 ((course.aside sound (.settle _)).2 both.2)⟩
    | notSettled => exact ⟨owed_self sound, fun _ => last both.1 both.2⟩

/-- After the attempts, the file is in its place and no temporary one is left, or it is still there. -/
theorem renameWithRetry_safe (meant : writes path data) (attempts : Nat) (durable : Durable t f data w) (here : before w) :
    rules.Safe (fun done w => if done then Tidy t w ∧ after w else Durable t f data w ∧ before w) (renameWithRetry f.name path attempts) w := by
  induction attempts generalizing w with
  | zero => exact fun w₁ moves inv => course.steady_before Durable.untouched moves (course.inv.mp inv) ⟨durable, here⟩
  | succ attempts ih =>
    refine course.step (course.steady_before Durable.untouched) ⟨durable, here⟩ fun {w answer w₁} sound both exec => ?_
    obtain ⟨durable, here⟩ := both
    cases exec with
    | notRenamed => exact ⟨owed_self sound, fun _ => ih durable here⟩
    | renamed =>
      obtain ⟨owed, tidy⟩ := owed_renamed sound durable target meant
      have replaced := course.renamed (durable.1.1.temp sound) durable here
      exact ⟨owed, fun _ _ moves inv => course.steady_after Tidy.untouched moves (course.inv.mp inv) ⟨tidy, replaced⟩⟩

theorem replaceFile_safe (meant : writes path data) (durable : Durable t f data w) (here : before w) (sound : DiskSound writes start w) :
    rules.Safe course.Returns (replaceFile f path) w := by
  refine Rules.Safe.bind (renameWithRetry_safe course target meant 5 durable here) (course.inv.mpr sound) fun done w _ ended => ?_
  cases done with
  | true => exact persistRename_safe course ended.1 ended.2
  | false => exact remove_safe course target ended.1.1.1 ended.2

theorem closeTemp_safe (meant : writes path data) (durable : Durable t f data w) (here : before w) :
    rules.Safe course.Returns (closeTemp f path) w := by
  refine course.idle (course.steady_before Durable.untouched) ⟨durable, here⟩ (fun exec => by cases exec; rfl) fun {answer w} sound both => ?_
  cases answer with
  | true => exact replaceFile_safe course target meant both.1 both.2 sound
  | false => exact remove_safe course target both.1.1.1 both.2

theorem syncTemp_safe (meant : writes path data) (filled : Filled t f data w) (here : before w) :
    rules.Safe course.Returns (syncTemp f path) w := by
  refine course.step (course.steady_before Filled.untouched) ⟨filled, here⟩ fun {w answer w₁} sound both exec => ?_
  obtain ⟨filled, here⟩ := both
  cases exec with
  | notSynced => exact ⟨owed_self sound, fun _ => failTemp_safe course target filled.1 here⟩
  | synced =>
    obtain ⟨owed, durable⟩ := owed_sync sound filled
    exact ⟨owed, fun sound => closeTemp_safe course target meant durable ((course.aside sound (.sync _)).1 here)⟩

theorem chmodTemp_safe (windows : Bool) (perm : Nat) (meant : writes path data) (filled : Filled t f data w) (here : before w) :
    rules.Safe course.Returns (chmodTemp windows f path perm) w := by
  refine course.idle (course.steady_before Filled.untouched) ⟨filled, here⟩ (fun exec => by cases exec; rfl) fun {answer w} _ both => ?_
  obtain ⟨filled, here⟩ := both
  cases answer with
  | true => exact syncTemp_safe course target meant filled here
  | false =>
    cases windows with
    | true => exact syncTemp_safe course target meant filled here
    | false => exact failTemp_safe course target filled.1 here

theorem writeFileAtomic_safe (windows : Bool) (perm : Nat) (meant : writes path data) (tidy : Tidy t w) (here : before w) :
    rules.Safe course.Returns (writeFileAtomic windows path data perm) w := by
  refine course.step (course.steady_before Tidy.untouched) ⟨tidy, here⟩ fun {w answer w₁} sound both exec => ?_
  obtain ⟨tidy, here⟩ := both
  cases exec with
  | notCreated => exact ⟨owed_self sound, fun _ => course.returns_before tidy here⟩
  | @created _ name _ temp _ free =>
    obtain ⟨owed, mine⟩ := owed_created sound tidy temp free
    have still := Files.Still.create sound.sound (ne_temp target temp) []
    refine ⟨owed, fun sound => ?_⟩
    have here := (course.aside sound still).1 here
    refine course.step (course.steady_before (P := Mine t ⟨name, w.files.next⟩) Mine.untouched) ⟨mine, here⟩
      fun {w answer w₁} sound both exec => ?_
    obtain ⟨mine, here⟩ := both
    have filling (d : FileData) := owed_fill sound mine d
    have still (d : FileData) := Files.Still.fill (mine.only sound) (ne_temp target (mine.temp sound)) d
    cases exec with
    | written =>
      exact ⟨(filling data).1, fun sound => chmodTemp_safe course target windows perm meant (filling data).2 ((course.aside sound (still data)).1 here)⟩
    | @torn _ _ part =>
      exact ⟨(filling part).1, fun sound => failTemp_safe course target (filling part).2.1 ((course.aside sound (still part)).1 here)⟩

end

section

variable {Dir : Type} {dir : String → Dir} {writes : String → FileData → Prop} {start : String → Option FileData}
variable {t : Nat} {w w₀ w₁ : DiskWorld} {path : String} {data : FileData}

/-- Among the other writers, nothing is asked of the target itself. -/
theorem crowd_course (path : String) (data : FileData) : Course ((writerTeam dir writes start).rules t) dir writes start t path data
    (fun _ => True) fun _ => True where
  exec := id
  inv := .rfl
  guarantee untouched := ⟨untouched, trivial⟩
  rely untouched := ⟨untouched, fun _ => ⟨id, id⟩⟩
  aside _ _ := ⟨id, id⟩
  renamed _ _ _ := trivial

theorem writers_verified : (writers dir writes).Verified (writerTeam dir writes start) where
  exec run := run
  env := by
    rintro w w₁ sound ⟨none_, cut, same⟩
    have nobody (n : String) (t : Nat) : w.owner n ≠ some t := fun owns => by cases (none_ n).symm.trans owns
    refine ⟨⟨sound.sound.cut cut, fun path target => (sound.whole path target).cut cut, fun n t owns => ?_, fun n t owns => ?_⟩,
      fun t => ⟨fun n => by rw [same], fun n mine => absurd mine (nobody n t), fun n i mine => absurd mine (nobody n t)⟩⟩
    · exact absurd (same ▸ owns) (nobody n t)
    · exact absurd (same ▸ owns) (nobody n t)
  entry := by
    rintro program t w ⟨windows, path, data, perm, target, meant, rfl⟩ sound tidy
    refine Rules.Safe.bind (writeFileAtomic_safe (crowd_course path data) target windows perm meant tidy trivial) sound fun _ w₁ _ ended => ?_
    exact fun w₂ moves _ => ended.1.untouched moves
  drop := by
    intro t w sound
    have left {n : String} {u : Nat} (owns : ((writers dir writes).drop t w).owner n = some u) : w.owner n = some u ∧ u ≠ t := by
      have is : (if w.owner n = some t then none else w.owner n) = some u := owns
      split at is
      · cases is
      · next other => exact ⟨is, fun same => other (same ▸ is)⟩
    refine ⟨⟨sound.sound, sound.whole, fun n u owns => sound.temp n u (left owns).1, fun n u owns => sound.alone n u (left owns).1⟩,
      fun w₁ moves _ => Tidy.untouched (fun n owns => (left owns).2 rfl) moves, fun u other => ⟨fun n => ⟨fun owns => (left owns).1, fun owns => ?_⟩,
      fun _ _ => rfl, fun _ _ _ _ => ⟨rfl, id⟩⟩⟩
    change (if w.owner n = some t then none else w.owner n) = some u
    rw [if_neg fun mine => other (Option.some.inj (owns.symm.trans mine)), owns]

/-- Everything is on the disk, and nobody writes. -/
structure Rested (w : DiskWorld) : Prop where
  known : ∀ n i, w.files.names n = some i → i < w.files.next
  past : ∀ n file, w.files.past n file ↔ file = w.files.names n
  synced : ∀ i, w.files.synced i
  owner : ∀ n, w.owner n = none

theorem Rested.sound (rested : Rested w) : DiskSound writes w.files.read w := by
  have nobody (n : String) (t : Nat) : w.owner n ≠ some t := fun owns => by cases (rested.owner n).symm.trans owns
  refine ⟨⟨fun n i past => rested.known n i ((rested.past n _).mp past).symm, fun n => (rested.past n _).mpr rfl⟩, fun path _ file past => ?_,
    fun n t owns => absurd owns (nobody n t), fun n t owns => absurd owns (nobody n t)⟩
  obtain rfl := (rested.past path file).mp past
  exact ⟨fun i _ => rested.synced i, .inl rfl⟩

theorem rested_initial (rested : Rested w₀) (w : DiskWorld) (is : w = w₀) : DiskSound writes w₀.files.read w ∧
    ∀ t w₁, Untouched t w w₁ → DiskSound writes w₀.files.read w₁ → Tidy t w₁ := by
  subst is
  refine ⟨rested.sound, fun t w₁ untouched _ => Tidy.untouched (fun n owns => ?_) untouched⟩
  cases (rested.owner n).symm.trans owns

/-- At any time of any run, and after a power cut at any time, a file holds what it held at the start or all that one
of the writes was to put there. -/
theorem never_torn {c : Threads.Config FileOp.Res DiskWorld} (rested : Rested w₀) (reach : (writers dir writes).Reach (· = w₀) c)
    (target : isTemp path = false) :
    Intended writes w₀.files.read path (c.world.files.read path) ∧
      ∀ after, c.world.files.Cut after → Intended writes w₀.files.read path (after.read path) := by
  have sound : DiskSound writes w₀.files.read c.world := reach.inv writers_verified (rested_initial rested)
  have whole := sound.whole path target
  exact ⟨whole.read sound.sound, fun after cut => (whole.cut cut).read (sound.sound.cut cut)⟩

def stateDisk : DiskWorld where
  files := {
    names := fun n => if n = "state.json" then some 0 else none
    past := fun n file => file = if n = "state.json" then some 0 else none
    data := fun _ => [1]
    synced := fun _ => True
    next := 1 }
  owner _ := none

theorem stateDisk_rested : Rested stateDisk where
  known n i here := by
    have is : (if n = "state.json" then some 0 else none) = some i := here
    split at is
    · cases is
      exact Nat.zero_lt_one
    · cases is
  past _ _ := .rfl
  synced _ := trivial
  owner _ := rfl

def stateWrites (path : String) (data : FileData) : Prop := path = "state.json" ∧ data = [2, 3]

/-- The disk is full in the middle of the temporary file. -/
theorem never_torn_state : ∃ c, (writers (fun _ => ()) stateWrites).Reach (· = stateDisk) c ∧
    c.world.files.read ".state.json.1.tmp" = some [2] ∧ Intended stateWrites stateDisk.files.read "state.json" (c.world.files.read "state.json") := by
  have r : (writers (fun _ => ()) stateWrites).Reach (· = stateDisk) ⟨stateDisk, fun _ => .ret ()⟩ := .init rfl
  have r := r.begins 0 ((writeFileAtomic false "state.json" [2, 3] 384).bind fun _ => .ret ()) rfl ⟨_, _, _, _, by decide, ⟨rfl, rfl⟩, rfl⟩
  have r := r.perform 0 rfl (some ⟨".state.json.1.tmp", 1⟩) _ (.created (by decide) rfl rfl)
  have part : [2] <+: ([2, 3] : FileData) := ⟨[3], rfl⟩
  have r := r.perform 0 rfl false _ (.torn part)
  exact ⟨_, r, rfl, (never_torn stateDisk_rested r (by decide)).1⟩

/-- What has been put in the place of `path`; a power cut may still bring back what was there before. -/
structure Put (w₀ : DiskWorld) (path : String) (data : FileData) (w : DiskWorld) : Prop where
  here : w.files.read path = some data
  past : ∀ file, w.files.past path file →
    file.map w.files.data = some data ∨ w₀.files.past path file ∧ file.map w.files.data = file.map w₀.files.data

/-- The rules of a goroutine that is alone. -/
def soleRules (dir : String → Dir) (writes : String → FileData → Prop) (start : String → Option FileData) (t : Nat) :
    Rules FileOp.Res DiskWorld where
  exec := fileExec dir t
  inv := DiskSound writes start
  rely := Eq
  guarantee _ _ _ _ := True
  rely_refl _ := rfl
  rely_trans := Eq.trans

theorem sole_course (w₀ : DiskWorld) (target : isTemp path = false) : Course (soleRules dir writes start t) dir writes start t path data
    (fun w => w₀.files.Still path w.files) (Put w₀ path data) where
  exec := id
  inv := .rfl
  guarantee _ := trivial
  rely := by
    rintro w w₁ rfl
    exact ⟨.refl t w, fun _ => ⟨id, id⟩⟩
  aside sound still := by
    refine ⟨fun before => before.trans still, fun put => ⟨(still.read sound.sound).trans put.here, fun file past => ?_⟩⟩
    rw [still.contents past]
    exact put.past file (still.past file past)
  renamed := by
    intro f w temp durable before
    have apart : path ≠ f.name := ne_temp target temp
    refine ⟨?_, ?_⟩
    · have names : (w.files.rename f.name path).names path = some f.file :=
        (Function.update_of_ne apart ..).trans ((Function.update_self ..).trans durable.1.1.here)
      unfold Files.read
      rw [names]
      exact congrArg some durable.1.2
    · rintro file ((past | ⟨-, is⟩) | ⟨same, -⟩)
      · exact .inr ⟨before.past file past, before.contents past⟩
      · rw [is, durable.1.1.here]
        exact .inl (congrArg some durable.1.2)
      · exact absurd same apart

/-- A write that returns no error has put its data in place, one that returns an error has changed nothing; a power cut after
it leaves that, or what a power cut before it could have left. -/
theorem write_returns {runs : Nat → Program FileOp.Res Unit} {windows done : Bool} {perm : Nat} (rested : Rested w₀)
    (reach : (writers dir writes).Reach (· = w₀) ⟨w, runs⟩) (idle : runs t = .ret ()) (target : isTemp path = false) (meant : writes path data)
    (ends : Rules.Ends (fileExec dir t) (writeFileAtomic windows path data perm) w done w₁) :
    w₁.files.read path = (if done then some data else w.files.read path) ∧
      ∀ after, w₁.files.Cut after → after.read path = w₁.files.read path ∨
        ∃ file, w.files.past path file ∧ after.read path = file.map w.files.data := by
  obtain ⟨sound, safe⟩ := reach.safe writers_verified (rested_initial rested)
  have tidy : Tidy t w := by
    have last := safe t
    simp only [idle] at last
    exact last w (.refl t w) sound
  have course : Course (soleRules dir writes w₀.files.read t) dir writes w₀.files.read t path data (fun w₁ => w.files.Still path w₁.files)
      (Put w path data) := sole_course w target
  have written := writeFileAtomic_safe course target windows perm meant tidy (.refl path w.files)
  obtain ⟨sound₁, -, returned⟩ := Rules.Safe.ends ends (written.weaken fun _ _ => And.intro) sound
  have whole := sound₁.whole path target
  cases done with
  | true =>
    have put : Put w path data w₁ := returned
    refine ⟨put.here, fun after cut => ?_⟩
    obtain ⟨file, past, same⟩ := whole.read_cut cut
    rcases put.past file past with new | ⟨old, contents⟩
    · exact .inl (same.trans (new.trans put.here.symm))
    · exact .inr ⟨file, old, same.trans contents⟩
  | false =>
    have still : w.files.Still path w₁.files := returned
    refine ⟨still.read sound₁.sound, fun after cut => ?_⟩
    obtain ⟨file, past, same⟩ := whole.read_cut cut
    exact .inr ⟨file, still.past file past, same.trans (still.contents past)⟩

def stateWritten : DiskWorld where
  files := (((stateDisk.files.create ".state.json.1.tmp" []).fill 1 [2, 3]).sync 1).rename ".state.json.1.tmp" "state.json"
  owner := update (update stateDisk.owner ".state.json.1.tmp" (some 0)) ".state.json.1.tmp" none

theorem write_returns_state : stateWritten.files.read "state.json" = some [2, 3] := by
  have r : (writers (fun _ => ()) stateWrites).Reach (· = stateDisk) ⟨stateDisk, fun _ => .ret ()⟩ := .init rfl
  have ends : Rules.Ends (fileExec (fun _ => ()) 0) (writeFileAtomic false "state.json" [2, 3] 384) stateDisk true stateWritten := by
    refine .perform (some ⟨".state.json.1.tmp", 1⟩) _ (.created (by decide) rfl rfl) ?_
    refine .perform true _ .written ?_
    refine .perform true _ .chmod ?_
    refine .perform true _ .synced ?_
    refine .perform true _ .close ?_
    refine .perform true _ (.renamed (Option.some_ne_none 1)) ?_
    refine .perform false _ .openDir ?_
    exact .ret
  exact (write_returns stateDisk_rested r rfl (by decide) ⟨rfl, rfl⟩ ends).1

end

end Opale.AgentGo
