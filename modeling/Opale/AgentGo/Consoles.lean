import Opale.AgentGo.Console
import Mathlib.Data.List.Nodup

namespace Opale.AgentGo

open Function (update)

/-- What holds of the registry and of the terminals at any time: each terminal is closed once at most, and until
then it is registered, or in the hands of a goroutine, or of one that died. -/
structure ConsolesSound (w : ConsoleWorld) : Prop where
  listed : ∀ id p, w.sessions id = some p → w.spawned[p]? = some id ∧ w.closed p = 0 ∧ w.holder p = none
  held : ∀ p t, w.holder p = some t → p < w.spawned.length ∧ w.closed p = 0
  once : ∀ p, w.closed p ≤ 1
  unborn : ∀ p, w.spawned.length ≤ p → w.closed p = 0 ∧ w.reader p = none
  cared : ∀ p, p < w.spawned.length → w.closed p = 0 →
    (∃ id, w.sessions id = some p) ∨ w.holder p ≠ none ∨ w.abandoned p = true
  ended : w.ended = true → ∀ id, w.sessions id = none
  inputs : ∀ i ∈ w.inputs, w.spawned[i.2]? = some i.1
  distinct : (w.pumps.map (·.2)).Nodup
  queued : ∀ j ∈ w.pumps, w.reader j.2 = none ∧ w.spawned[j.2]? = some j.1
  told : ∀ p, w.told p <+: w.output p
  silent : ∀ p, w.reader p = none → w.told p = w.output p

/-- What the goroutine `t` accepts of the others: what it has in its hands stays there, what it reads is its own, and while
it serves the connection the others only take sessions and pumps away. -/
structure Spared (t : Nat) (w w₁ : ConsoleWorld) : Prop where
  spawned : w.spawned <+: w₁.spawned
  holder : ∀ p, w₁.holder p = some t ↔ w.holder p = some t
  reader : ∀ p, w.reader p = some t → w₁.reader p = some t ∧ w₁.output p = w.output p ∧ w₁.told p = w.told p
  driver : w.driver = some t → w₁.driver = some t
  mine : w.driver = some t → w₁.spawned = w.spawned ∧ w₁.ended = w.ended ∧ (∀ id, w.sessions id = none → w₁.sessions id = none) ∧
    (∀ p, w.reader p = none → p ∉ w.pumps.map (·.2) → w₁.reader p = none ∧ p ∉ w₁.pumps.map (·.2))

theorem Spared.refl (t : Nat) (w : ConsoleWorld) : Spared t w w :=
  ⟨List.prefix_rfl, fun _ => Iff.rfl, fun _ mine => ⟨mine, rfl, rfl⟩, id, fun _ => ⟨rfl, rfl, fun _ => id, fun _ => And.intro⟩⟩

theorem Spared.trans {t : Nat} {a b c : ConsoleWorld} (first : Spared t a b) (second : Spared t b c) : Spared t a c where
  spawned := first.spawned.trans second.spawned
  holder p := (second.holder p).trans (first.holder p)
  reader p mine := by
    obtain ⟨mine₁, output, told⟩ := first.reader p mine
    obtain ⟨mine₂, output₂, told₂⟩ := second.reader p mine₁
    exact ⟨mine₂, output₂.trans output, told₂.trans told⟩
  driver mine := second.driver (first.driver mine)
  mine mine := by
    obtain ⟨spawned, ended, sessions, pumps⟩ := first.mine mine
    obtain ⟨spawned₂, ended₂, sessions₂, pumps₂⟩ := second.mine (first.driver mine)
    refine ⟨spawned₂.trans spawned, ended₂.trans ended, fun id none => sessions₂ id (sessions id none), fun p none new => ?_⟩
    obtain ⟨none₁, new₁⟩ := pumps p none new
    exact pumps₂ p none₁ new₁

/-- A goroutine between two programs has no terminal in its hands. -/
def Empty (t : Nat) (w : ConsoleWorld) : Prop := ∀ p, w.holder p ≠ some t

def consoleTeam : Threads.Team ConsoleOp.Res ConsoleWorld where
  exec := consoleExec
  inv := ConsolesSound
  rely := Spared
  guarantee _ _ _ _ _ := True
  idle := Empty
  rely_refl := Spared.refl
  rely_trans _ := Spared.trans

section

variable {t p : Nat} {id : String} {w w₁ : ConsoleWorld}

theorem Empty.spared (empty : Empty t w) (spared : Spared t w w₁) : Empty t w₁ :=
  fun p held => empty p ((spared.holder p).mp held)

theorem ConsolesSound.lt (sound : ConsolesSound w) (listed : w.sessions id = some p) : p < w.spawned.length :=
  (List.getElem?_eq_some_iff.mp (sound.listed id p listed).1).1

theorem sound_connected (sound : ConsolesSound w) (free : w.driver = none) :
    ConsolesSound { w with driver := some t, ended := false } ∧
      ∀ u, u ≠ t → Spared u w { w with driver := some t, ended := false } := by
  refine ⟨⟨sound.listed, sound.held, sound.once, sound.unborn, sound.cared, (by intro is; cases is), sound.inputs, sound.distinct,
    sound.queued, sound.told, sound.silent⟩, fun u other => ⟨List.prefix_rfl, fun _ => Iff.rfl, fun _ mine => ⟨mine, rfl, rfl⟩, ?_, ?_⟩⟩
  · intro mine
    cases free.symm.trans mine
  · intro mine
    cases free.symm.trans mine

theorem sound_spawned (sound : ConsolesSound w) (mine : w.driver = some t) (id : String) :
    let w₁ := { w with spawned := w.spawned ++ [id], holder := update w.holder w.spawned.length (some t) }
    ConsolesSound w₁ ∧ ∀ u, u ≠ t → Spared u w w₁ := by
  have apart {p : Nat} (old : p < w.spawned.length) : update w.holder w.spawned.length (some t) p = w.holder p :=
    Function.update_of_ne (Nat.ne_of_lt old) ..
  have longer : (w.spawned ++ [id]).length = w.spawned.length + 1 := List.length_append
  have born {p : Nat} {i : String} (known : w.spawned[p]? = some i) : (w.spawned ++ [id])[p]? = some i := by
    rw [List.getElem?_append_left (List.getElem?_eq_some_iff.mp known).1]
    exact known
  refine ⟨⟨fun i p listed => ?_, fun p u held => ?_, sound.once, fun p beyond => ?_, fun p inside open_ => ?_, sound.ended, fun i member => ?_,
    sound.distinct, fun j member => ⟨(sound.queued j member).1, born (sound.queued j member).2⟩, sound.told, sound.silent⟩, fun u other => ?_⟩
  · obtain ⟨known, open_, free⟩ := sound.listed i p listed
    exact ⟨born known, open_, (apart (sound.lt listed)).trans free⟩
  · by_cases same : p = w.spawned.length
    · rw [same]
      exact ⟨by simp, (sound.unborn _ le_rfl).1⟩
    · have before : w.holder p = some u := (Function.update_of_ne same ..).symm.trans held
      obtain ⟨inside, open_⟩ := sound.held p u before
      exact ⟨by rw [longer]; omega, open_⟩
  · rw [longer] at beyond
    exact sound.unborn p (by omega)
  · rw [longer] at inside
    by_cases same : p = w.spawned.length
    · refine .inr (.inl ?_)
      dsimp only
      rw [same, Function.update_self]
      exact Option.some_ne_none t
    · have old : p < w.spawned.length := by omega
      dsimp only
      rw [apart old]
      exact sound.cared p old open_
  · exact born (sound.inputs i member)
  · refine ⟨List.prefix_append _ _, fun p => ?_, fun _ mine => ⟨mine, rfl, rfl⟩, fun mine => mine, fun theirs => ?_⟩
    · by_cases same : p = w.spawned.length
      · dsimp only
        rw [same, Function.update_self]
        refine iff_of_false (fun is => other (Option.some.inj is).symm) fun held => ?_
        exact absurd (sound.held _ u held).1 (lt_irrefl _)
      · dsimp only
        rw [Function.update_of_ne same]
    · exact absurd (Option.some.inj (theirs.symm.trans mine)) other

/-- A terminal goes from the hands of the goroutine that serves the connection into the registry. -/
theorem sound_insert (sound : ConsolesSound w) (mine : w.driver = some t) (running : w.ended = false) (held : w.holder p = some t)
    (known : w.spawned[p]? = some id) (free : w.sessions id = none) :
    let w₁ := { w with sessions := update w.sessions id (some p), holder := update w.holder p none }
    ConsolesSound w₁ ∧ ∀ u, u ≠ t → Spared u w w₁ := by
  refine ⟨⟨fun i q listed => ?_, fun q u holds => ?_, sound.once, sound.unborn, fun q inside open_ => ?_, fun ended => ?_, sound.inputs,
    sound.distinct, sound.queued, sound.told, sound.silent⟩, fun u other => ?_⟩
  · by_cases same : i = id
    · subst same
      have is : update w.sessions i (some p) i = some q := listed
      rw [Function.update_self] at is
      cases is
      exact ⟨known, (sound.held p t held).2, Function.update_self ..⟩
    · have before : w.sessions i = some q := (Function.update_of_ne same ..).symm.trans listed
      obtain ⟨known', open_, free'⟩ := sound.listed i q before
      have apart : q ≠ p := by
        rintro rfl
        cases free'.symm.trans held
      exact ⟨known', open_, (Function.update_of_ne apart ..).trans free'⟩
  · by_cases same : q = p
    · have is : update w.holder p none q = some u := holds
      rw [same, Function.update_self] at is
      cases is
    · exact sound.held q u ((Function.update_of_ne same ..).symm.trans holds)
  · by_cases same : q = p
    · exact .inl ⟨id, by rw [same]; exact Function.update_self ..⟩
    · rcases sound.cared q inside open_ with ⟨i, listed⟩ | holds | gone
      · have apart : i ≠ id := by
          rintro rfl
          cases free.symm.trans listed
        exact .inl ⟨i, (Function.update_of_ne apart ..).trans listed⟩
      · exact .inr (.inl fun none_ => holds ((Function.update_of_ne same ..).symm.trans none_))
      · exact .inr (.inr gone)
  · cases running.symm.trans ended
  · refine ⟨List.prefix_rfl, fun q => ?_, fun _ mine => ⟨mine, rfl, rfl⟩, fun mine => mine, fun theirs => ?_⟩
    · by_cases same : q = p
      · dsimp only
        rw [same, Function.update_self, held]
        exact iff_of_false (fun is => by cases is) fun is => other (Option.some.inj is).symm
      · dsimp only
        rw [Function.update_of_ne same]
    · exact absurd (Option.some.inj (theirs.symm.trans mine)) other

/-- Whoever takes a session out of the registry has its terminal in hand. -/
theorem sound_remove (sound : ConsolesSound w) (listed : w.sessions id = some p) :
    let w₁ := { w with sessions := update w.sessions id none, holder := update w.holder p (some t) }
    ConsolesSound w₁ ∧ ∀ u, u ≠ t → Spared u w w₁ := by
  obtain ⟨known, open_, free⟩ := sound.listed id p listed
  have inside := sound.lt listed
  refine ⟨⟨fun i q there => ?_, fun q u holds => ?_, sound.once, sound.unborn, fun q inside open_ => ?_, fun ended i => ?_, sound.inputs,
    sound.distinct, sound.queued, sound.told, sound.silent⟩, fun u other => ?_⟩
  · have differ : i ≠ id := by
      rintro rfl
      have is : update w.sessions i none i = some q := there
      rw [Function.update_self] at is
      cases is
    have before : w.sessions i = some q := (Function.update_of_ne differ ..).symm.trans there
    obtain ⟨known', open', free'⟩ := sound.listed i q before
    have apart : q ≠ p := by
      rintro rfl
      exact differ (Option.some.inj (known'.symm.trans known))
    exact ⟨known', open', (Function.update_of_ne apart ..).trans free'⟩
  · by_cases same : q = p
    · rw [same]
      exact ⟨inside, open_⟩
    · exact sound.held q u ((Function.update_of_ne same ..).symm.trans holds)
  · by_cases same : q = p
    · refine .inr (.inl ?_)
      dsimp only
      rw [same, Function.update_self]
      exact Option.some_ne_none t
    · rcases sound.cared q inside open_ with ⟨i, there⟩ | holds | gone
      · have apart : i ≠ id := by
          rintro rfl
          exact same (Option.some.inj (there.symm.trans listed))
        exact .inl ⟨i, (Function.update_of_ne apart ..).trans there⟩
      · exact .inr (.inl fun none_ => holds ((Function.update_of_ne same ..).symm.trans none_))
      · exact .inr (.inr gone)
  · have none_ := sound.ended ended id
    cases none_.symm.trans listed
  · refine ⟨List.prefix_rfl, fun q => ?_, fun _ mine => ⟨mine, rfl, rfl⟩, fun mine => mine, fun _ => ⟨rfl, rfl, fun i none_ => ?_, fun _ => And.intro⟩⟩
    · by_cases same : q = p
      · dsimp only
        rw [same, Function.update_self, free]
        exact iff_of_false (fun is => other (Option.some.inj is).symm) fun is => by cases is
      · dsimp only
        rw [Function.update_of_ne same]
    · by_cases same : i = id
      · rw [same]
        exact Function.update_self ..
      · exact (Function.update_of_ne same ..).trans none_

theorem sound_close (sound : ConsolesSound w) (held : w.holder p = some t) :
    let w₁ := { w with closed := update w.closed p (w.closed p + 1), holder := update w.holder p none }
    ConsolesSound w₁ ∧ ∀ u, u ≠ t → Spared u w w₁ := by
  obtain ⟨inside, open_⟩ := sound.held p t held
  refine ⟨⟨fun i q there => ?_, fun q u holds => ?_, fun q => ?_, fun q beyond => ?_, fun q inside open' => ?_, sound.ended, sound.inputs,
    sound.distinct, sound.queued, sound.told, sound.silent⟩, fun u other => ?_⟩
  · obtain ⟨known', open', free'⟩ := sound.listed i q there
    have apart : q ≠ p := by
      rintro rfl
      cases free'.symm.trans held
    exact ⟨known', (Function.update_of_ne apart ..).trans open', (Function.update_of_ne apart ..).trans free'⟩
  · by_cases same : q = p
    · have is : update w.holder p none q = some u := holds
      rw [same, Function.update_self] at is
      cases is
    · obtain ⟨inside', open'⟩ := sound.held q u ((Function.update_of_ne same ..).symm.trans holds)
      exact ⟨inside', (Function.update_of_ne same ..).trans open'⟩
  · by_cases same : q = p
    · dsimp only
      rw [same, Function.update_self, open_]
    · dsimp only
      rw [Function.update_of_ne same]
      exact sound.once q
  · have apart : q ≠ p := by
      rintro rfl
      exact absurd inside (Nat.not_lt.mpr beyond)
    dsimp only
    rw [Function.update_of_ne apart]
    exact sound.unborn q beyond
  · by_cases same : q = p
    · have is : update w.closed p (w.closed p + 1) q = 0 := open'
      rw [same, Function.update_self] at is
      omega
    · dsimp only at open' ⊢
      rw [Function.update_of_ne same] at open' ⊢
      exact sound.cared q inside open'
  · refine ⟨List.prefix_rfl, fun q => ?_, fun _ mine => ⟨mine, rfl, rfl⟩, fun mine => mine, fun _ => ⟨rfl, rfl, fun _ => id, fun _ => And.intro⟩⟩
    by_cases same : q = p
    · dsimp only
      rw [same, Function.update_self, held]
      exact iff_of_false (fun is => by cases is) fun is => other (Option.some.inj is).symm
    · dsimp only
      rw [Function.update_of_ne same]

theorem sound_finish (sound : ConsolesSound w) (mine : w.driver = some t) (none_ : ∀ id, w.sessions id = none) :
    ConsolesSound { w with ended := true } ∧ ∀ u, u ≠ t → Spared u w { w with ended := true } := by
  refine ⟨⟨sound.listed, sound.held, sound.once, sound.unborn, sound.cared, fun _ => none_, sound.inputs, sound.distinct,
    sound.queued, sound.told, sound.silent⟩, fun u other => ⟨List.prefix_rfl, fun _ => Iff.rfl, fun _ mine => ⟨mine, rfl, rfl⟩,
    fun mine => mine, fun theirs => ?_⟩⟩
  exact absurd (Option.some.inj (theirs.symm.trans mine)) other

/-- Only the serving goroutine starts pumps, each for a terminal of its own. -/
theorem sound_go (sound : ConsolesSound w) (mine : w.driver = some t) (known : w.spawned[p]? = some id) (free : w.reader p = none)
    (new : p ∉ w.pumps.map (·.2)) :
    let w₁ := { w with pumps := w.pumps ++ [(id, p)] }
    ConsolesSound w₁ ∧ ∀ u, u ≠ t → Spared u w w₁ := by
  refine ⟨⟨sound.listed, sound.held, sound.once, sound.unborn, sound.cared, sound.ended, sound.inputs, ?_, fun j member => ?_,
    sound.told, sound.silent⟩, fun u other => ⟨List.prefix_rfl, fun _ => Iff.rfl, fun _ mine => ⟨mine, rfl, rfl⟩, fun mine => mine,
    fun theirs => ?_⟩⟩
  · dsimp only
    rw [List.map_append]
    refine List.nodup_append.mpr ⟨sound.distinct, List.nodup_singleton p, fun a inside b last same => ?_⟩
    have is : a = p := same.trans (List.mem_singleton.mp last)
    exact new (is ▸ inside)
  · rcases List.mem_append.mp member with earlier | last
    · exact sound.queued j earlier
    · rw [List.mem_singleton.mp last]
      exact ⟨free, known⟩
  · exact absurd (Option.some.inj (theirs.symm.trans mine)) other

theorem sound_input (sound : ConsolesSound w) (known : w.spawned[p]? = some id) :
    let w₁ := { w with inputs := w.inputs ++ [(id, p)] }
    ConsolesSound w₁ ∧ ∀ u, u ≠ t → Spared u w w₁ := by
  refine ⟨⟨sound.listed, sound.held, sound.once, sound.unborn, sound.cared, sound.ended, fun i member => ?_, sound.distinct,
    sound.queued, sound.told, sound.silent⟩, fun u _ => ⟨List.prefix_rfl, fun _ => Iff.rfl, fun _ mine => ⟨mine, rfl, rfl⟩,
    fun mine => mine, fun _ => ⟨rfl, rfl, fun _ none_ => none_, fun _ => And.intro⟩⟩⟩
  rcases List.mem_append.mp member with earlier | last
  · exact sound.inputs i earlier
  · rw [List.mem_singleton.mp last]
    exact known

theorem sound_take (sound : ConsolesSound w) {before after : List (String × Nat)} {job : String × Nat}
    (queue : w.pumps = before ++ job :: after) :
    let w₁ := { w with pumps := before ++ after, reader := update w.reader job.2 (some t) }
    ConsolesSound w₁ ∧ ∀ u, u ≠ t → Spared u w w₁ := by
  have member : job ∈ w.pumps := queue ▸ List.mem_append_right _ List.mem_cons_self
  obtain ⟨free, known⟩ := sound.queued job member
  have fewer : (before ++ after).Sublist w.pumps := queue ▸ (List.sublist_cons_self job after).append_left before
  have apart : ∀ j ∈ before ++ after, j.2 ≠ job.2 := by
    have distinct := sound.distinct
    rw [queue, List.map_append, List.map_cons, List.nodup_middle] at distinct
    intro j inside same
    refine (List.nodup_cons.mp distinct).1 ?_
    rw [← List.map_append, ← same]
    exact List.mem_map_of_mem inside
  refine ⟨⟨sound.listed, sound.held, sound.once, fun q beyond => ?_, sound.cared, sound.ended, sound.inputs, sound.distinct.sublist (fewer.map _),
    fun j inside => ?_, sound.told, fun q free' => ?_⟩, fun u other => ⟨List.prefix_rfl, fun _ => Iff.rfl, fun q mine => ?_, fun mine => mine,
    fun _ => ⟨rfl, rfl, fun _ => id, fun q free' new => ?_⟩⟩⟩
  · have differ : q ≠ job.2 := by
      rintro rfl
      exact absurd (List.getElem?_eq_some_iff.mp known).1 (Nat.not_lt.mpr beyond)
    exact ⟨(sound.unborn q beyond).1, (Function.update_of_ne differ ..).trans (sound.unborn q beyond).2⟩
  · obtain ⟨free', known'⟩ := sound.queued j (fewer.subset inside)
    exact ⟨(Function.update_of_ne (apart j inside) ..).trans free', known'⟩
  · have differ : q ≠ job.2 := by
      rintro rfl
      have is : update w.reader job.2 (some t) job.2 = none := free'
      rw [Function.update_self] at is
      cases is
    exact sound.silent q ((Function.update_of_ne differ ..).symm.trans free')
  · have differ : q ≠ job.2 := by
      rintro rfl
      cases free.symm.trans mine
    exact ⟨(Function.update_of_ne differ ..).trans mine, rfl, rfl⟩
  · have differ : q ≠ job.2 := by
      rintro rfl
      exact new (List.mem_map_of_mem member)
    refine ⟨(Function.update_of_ne differ ..).trans free', fun inside => new ?_⟩
    exact (fewer.map _).subset inside

/-- Only the goroutine that reads a terminal adds to what is read from it, and to what is told of that. -/
theorem sound_read (sound : ConsolesSound w) (mine : w.reader p = some t) (raw : List UInt8) :
    let w₁ := { w with output := update w.output p (w.output p ++ raw) }
    ConsolesSound w₁ ∧ ∀ u, u ≠ t → Spared u w w₁ := by
  refine ⟨⟨sound.listed, sound.held, sound.once, sound.unborn, sound.cared, sound.ended, sound.inputs, sound.distinct, sound.queued,
    fun q => ?_, fun q free => ?_⟩, fun u other => ⟨List.prefix_rfl, fun _ => Iff.rfl, fun q theirs => ?_, fun mine => mine,
    fun _ => ⟨rfl, rfl, fun _ => id, fun _ => And.intro⟩⟩⟩
  · by_cases same : q = p
    · subst same
      dsimp only
      rw [Function.update_self]
      exact (sound.told q).trans (List.prefix_append _ _)
    · dsimp only
      rw [Function.update_of_ne same]
      exact sound.told q
  · have differ : q ≠ p := by
      rintro rfl
      cases free.symm.trans mine
    exact (sound.silent q free).trans (Function.update_of_ne differ ..).symm
  · have differ : q ≠ p := by
      rintro rfl
      exact other (Option.some.inj (theirs.symm.trans mine))
    exact ⟨theirs, Function.update_of_ne differ .., rfl⟩

theorem sound_data (sound : ConsolesSound w) (mine : w.reader p = some t) {raw : List UInt8} (whole : w.output p = w.told p ++ raw) :
    let w₁ := { w with told := update w.told p (w.told p ++ raw) }
    ConsolesSound w₁ ∧ ∀ u, u ≠ t → Spared u w w₁ := by
  refine ⟨⟨sound.listed, sound.held, sound.once, sound.unborn, sound.cared, sound.ended, sound.inputs, sound.distinct, sound.queued,
    fun q => ?_, fun q free => ?_⟩, fun u other => ⟨List.prefix_rfl, fun _ => Iff.rfl, fun q theirs => ?_, fun mine => mine,
    fun _ => ⟨rfl, rfl, fun _ => id, fun _ => And.intro⟩⟩⟩
  · by_cases same : q = p
    · subst same
      have whole₁ : update w.told q (w.told q ++ raw) q = w.output q := by rw [Function.update_self, whole]
      exact whole₁ ▸ List.prefix_rfl
    · dsimp only
      rw [Function.update_of_ne same]
      exact sound.told q
  · have differ : q ≠ p := by
      rintro rfl
      cases free.symm.trans mine
    exact (Function.update_of_ne differ ..).trans (sound.silent q free)
  · have differ : q ≠ p := by
      rintro rfl
      exact other (Option.some.inj (theirs.symm.trans mine))
    exact ⟨theirs, rfl, Function.update_of_ne differ ..⟩

/-- What the others do not take away from `t`. -/
def Steady (t : Nat) (P : ConsoleWorld → Prop) : Prop := ∀ w w₁, Spared t w w₁ → P w → P w₁

abbrev ConsoleSafe {α : Type} (t : Nat) (post : α → ConsoleWorld → Prop) (program : Console α) (w : ConsoleWorld) : Prop :=
  (consoleTeam.rules t).Safe post program w

/-- The rule for one operation, from what is known before it. -/
theorem console_step {α : Type} {post : α → ConsoleWorld → Prop} {o : ConsoleOp} {rest : o.Res → Console α} {P : ConsoleWorld → Prop}
    (steady : Steady t P) (here : P w)
    (run : ∀ w answer w₁, ConsolesSound w → P w → consoleExec t o w answer w₁ →
      (ConsolesSound w₁ ∧ ∀ u, u ≠ t → Spared u w w₁) ∧ ConsoleSafe t post (rest answer) w₁) :
    ConsoleSafe t post (.op o rest) w := by
  intro w₁ moves sound answer w₂ exec
  obtain ⟨⟨sound₂, spared⟩, later⟩ := run w₁ answer w₂ sound (steady w w₁ moves here) exec
  exact ⟨sound₂, ⟨spared, trivial⟩, later⟩

theorem console_ret {α : Type} {value : α} {P : α → ConsoleWorld → Prop} (steady : Steady t (P value)) (here : P value w) :
    ConsoleSafe t P (.ret value) w := fun w₁ moves _ => steady w w₁ moves here

theorem sound_self (sound : ConsolesSound w) : ConsolesSound w ∧ ∀ u, u ≠ t → Spared u w w := ⟨sound, fun u _ => .refl u w⟩

/-- A frame that is written changes nothing here. -/
theorem send_safe {α : Type} {post : α → ConsoleWorld → Prop} {type id : String} {rest : Bool → Console α} {P : ConsoleWorld → Prop}
    (steady : Steady t P) (here : P w) (later : ∀ answer w, ConsolesSound w → P w → ConsoleSafe t post (rest answer) w) :
    ConsoleSafe t post (.op (.send type id) rest) w := by
  refine console_step steady here fun w answer w₁ sound here exec => ?_
  cases exec
  exact ⟨sound_self sound, later answer w sound here⟩

/-- What is known of a session that is being removed: `P` before it, `Q` after it. -/
structure Removing (t : Nat) (id : String) (P Q : ConsoleWorld → Prop) : Prop where
  before : Steady t P
  after : Steady t Q
  absent : ∀ w, P w → w.sessions id = none → Q w
  removed : ∀ w p, P w → Q { w with sessions := update w.sessions id none, holder := update w.holder p (some t) }
  closed : ∀ w p, Q w → Q { w with closed := update w.closed p (w.closed p + 1), holder := update w.holder p none }

/-- A terminal that `t` has in its hands, and no other one. -/
def Holding (t p : Nat) (w : ConsoleWorld) : Prop := w.holder p = some t ∧ ∀ q, w.holder q = some t → q = p

theorem holding_steady : Steady t (Holding t p) := fun _ _ spared holding =>
  ⟨(spared.holder p).mpr holding.1, fun q held => holding.2 q ((spared.holder q).mp held)⟩

theorem empty_steady : Steady t (Empty t) := fun _ _ spared empty => empty.spared spared

theorem Steady.and {P Q : ConsoleWorld → Prop} (first : Steady t P) (second : Steady t Q) : Steady t fun w => P w ∧ Q w :=
  fun w w₁ spared both => ⟨first w w₁ spared both.1, second w w₁ spared both.2⟩

theorem Holding.of_update {f : Nat → Option Nat} (empty : ∀ q, f q ≠ some t) :
    update f p (some t) p = some t ∧ ∀ q, update f p (some t) q = some t → q = p := by
  refine ⟨Function.update_self .., fun q held => ?_⟩
  by_contra differ
  exact empty q ((Function.update_of_ne differ ..).symm.trans held)

theorem Holding.released (holding : Holding t p w) (q : Nat) : update w.holder p none q ≠ some t := by
  intro held
  by_cases same : q = p
  · rw [same, Function.update_self] at held
    cases held
  · exact same (holding.2 q ((Function.update_of_ne same ..).symm.trans held))

theorem removeSession_safe {P Q : ConsoleWorld → Prop} (removing : Removing t id P Q) (empty : Empty t w) (here : P w) :
    ConsoleSafe t (fun _ w => Empty t w ∧ Q w) (removeSession id) w := by
  refine console_step (empty_steady.and removing.before) ⟨empty, here⟩ fun w answer w₁ sound both exec => ?_
  obtain ⟨empty, here⟩ := both
  cases exec with
  | absent none_ => exact ⟨sound_self sound, console_ret (empty_steady.and removing.after) ⟨empty, removing.absent w here none_⟩⟩
  | @remove _ p _ listed =>
    refine ⟨sound_remove sound listed, ?_⟩
    refine console_step (P := fun w => Holding t p w ∧ Q w) (holding_steady.and removing.after)
      ⟨Holding.of_update empty, removing.removed w p here⟩ fun w answer w₁ sound both exec => ?_
    obtain ⟨holding, here⟩ := both
    cases exec
    exact ⟨sound_close sound holding.1, console_ret (empty_steady.and removing.after) ⟨holding.released, removing.closed w p here⟩⟩

/-- The goroutine `t` serves the connection. -/
def Serving (t : Nat) (w : ConsoleWorld) : Prop := w.driver = some t ∧ w.ended = false

theorem serving_steady : Steady t (Serving t) := fun _ _ spared serving =>
  ⟨spared.driver serving.1, (spared.mine serving.1).2.1.trans serving.2⟩

/-- All the sessions that are left are in the list. -/
def Within (t : Nat) (rest : List String) (w : ConsoleWorld) : Prop := Serving t w ∧ ∀ id, id ∉ rest → w.sessions id = none

theorem within_steady {rest : List String} : Steady t (Within t rest) := fun w w₁ spared within =>
  ⟨serving_steady w w₁ spared within.1, fun id out => (spared.mine within.1.1).2.2.1 id (within.2 id out)⟩

theorem removing_serving : Removing t id (Serving t) (Serving t) :=
  ⟨serving_steady, serving_steady, fun _ here _ => here, fun _ _ here => here, fun _ _ here => here⟩

theorem removing_within {rest : List String} : Removing t id (Within t (id :: rest)) (Within t rest) where
  before := within_steady
  after := within_steady
  absent w within none_ := by
    refine ⟨within.1, fun i out => ?_⟩
    by_cases same : i = id
    · rw [same]
      exact none_
    · exact within.2 i (List.not_mem_cons_of_ne_of_not_mem same out)
  removed w p within := by
    refine ⟨within.1, fun i out => ?_⟩
    by_cases same : i = id
    · rw [same]
      exact Function.update_self ..
    · exact (Function.update_of_ne same ..).trans (within.2 i (List.not_mem_cons_of_ne_of_not_mem same out))
  closed _ _ within := within

theorem removeAll_safe (rest : List String) (empty : Empty t w) (within : Within t rest w) (sound : ConsolesSound w) :
    ConsoleSafe t (fun _ w => Empty t w ∧ Within t [] w) (removeAll rest) w := by
  induction rest generalizing w with
  | nil => exact console_ret (empty_steady.and within_steady) ⟨empty, within⟩
  | cons id rest ih =>
    exact Rules.Safe.bind (removeSession_safe removing_within empty within) sound fun _ w sound both => ih both.1 both.2 sound

theorem closeAll_safe (empty : Empty t w) (serving : Serving t w) :
    ConsoleSafe t (fun _ w => Empty t w ∧ Within t [] w) closeAll w := by
  refine console_step (empty_steady.and serving_steady) ⟨empty, serving⟩ fun w ids w₁ sound both exec => ?_
  cases exec with
  | ids listed =>
    refine ⟨sound_self sound, removeAll_safe ids both.1 ⟨both.2, fun id out => ?_⟩ sound⟩
    by_contra there
    exact out ((listed id).mpr there)

/-- A terminal of the serving goroutine that no pump has been started for. -/
def Unread (t : Nat) (id : String) (p : Nat) (w : ConsoleWorld) : Prop :=
  Serving t w ∧ w.spawned[p]? = some id ∧ w.reader p = none ∧ p ∉ w.pumps.map (·.2)

theorem unread_steady : Steady t (Unread t id p) := fun w w₁ spared unread => by
  obtain ⟨serving, known, free, new⟩ := unread
  obtain ⟨spawned, -, -, pumps⟩ := spared.mine serving.1
  exact ⟨serving_steady w w₁ spared serving, spawned ▸ known, pumps p free new⟩

theorem unlisted_steady : Steady t fun w => Serving t w ∧ w.sessions id = none := fun w w₁ spared both =>
  ⟨serving_steady w w₁ spared both.1, (spared.mine both.1.1).2.2.1 id both.2⟩

theorem sendError_safe (empty : Empty t w) (serving : Serving t w) :
    ConsoleSafe t (fun _ w => Empty t w ∧ Serving t w) (sendError id) w :=
  send_safe (empty_steady.and serving_steady) ⟨empty, serving⟩ fun _ _ _ both => console_ret (empty_steady.and serving_steady) both

theorem openSession_safe (fr : WsFrame) (empty : Empty t w) (serving : Serving t w) :
    ConsoleSafe t (fun _ w => Empty t w ∧ Serving t w) (openSession id fr) w := by
  refine console_step (empty_steady.and serving_steady) ⟨empty, serving⟩ fun w answer w₁ sound both exec => ?_
  obtain ⟨empty, serving⟩ := both
  cases exec with
  | lookup =>
    refine ⟨sound_self sound, ?_⟩
    cases free : w.sessions id with
    | some _ => exact sendError_safe empty serving
    | none =>
      refine console_step (empty_steady.and unlisted_steady) ⟨empty, serving, free⟩ fun w answer w₁ sound both exec => ?_
      obtain ⟨empty, serving, free⟩ := both
      cases exec with
      | notSpawned => exact ⟨sound_self sound, sendError_safe empty serving⟩
      | spawned =>
        refine ⟨sound_spawned sound serving.1 id, ?_⟩
        have fresh : w.spawned.length ∉ w.pumps.map (·.2) := by
          intro inside
          obtain ⟨j, member, is⟩ := List.mem_map.mp inside
          have known := (sound.queued j member).2
          rw [is] at known
          exact absurd (List.getElem?_eq_some_iff.mp known).1 (lt_irrefl _)
        have unread : Unread t id w.spawned.length
            { w with spawned := w.spawned ++ [id], holder := update w.holder w.spawned.length (some t) } :=
          ⟨serving, List.getElem?_concat_length .., (sound.unborn _ le_rfl).2, fresh⟩
        refine console_step (P := fun w' => Holding t w.spawned.length w' ∧ Unread t id w.spawned.length w' ∧ Serving t w' ∧ w'.sessions id = none)
          (holding_steady.and (unread_steady.and unlisted_steady)) ⟨Holding.of_update empty, unread, serving, free⟩
          fun w' answer w₁ sound both exec => ?_
        obtain ⟨holding, unread, -, free⟩ := both
        cases exec
        refine ⟨sound_insert sound unread.1.1 unread.1.2 holding.1 unread.2.1 free, ?_⟩
        refine send_safe (P := fun w' => Empty t w' ∧ Unread t id w.spawned.length w') (empty_steady.and unread_steady)
          ⟨holding.released, unread⟩ fun _ w' sound both => ?_
        refine console_step (empty_steady.and unread_steady) both fun w' answer w₁ sound both exec => ?_
        obtain ⟨empty, serving, known, free, new⟩ := both
        cases exec
        exact ⟨sound_go sound serving.1 known free new, console_ret (empty_steady.and serving_steady) ⟨empty, serving⟩⟩

/-- What is read off the registry stays known: the terminal was created for this session. -/
theorem known_steady : Steady t fun w => w.spawned[p]? = some id := fun w w₁ spared known => by
  obtain ⟨inside, is⟩ := List.getElem?_eq_some_iff.mp known
  obtain ⟨more, whole⟩ := spared.spawned
  rw [← whole, List.getElem?_append_left inside]
  exact known

/-- The rule for what is passed on to a terminal that has been looked up. -/
theorem input_safe {o : ConsoleOp} (passes : ∀ w answer w₁, consoleExec t o w answer w₁ → w₁ = { w with inputs := w.inputs ++ [(id, p)] })
    (empty : Empty t w) (serving : Serving t w) (known : w.spawned[p]? = some id) :
    ConsoleSafe t (fun _ w => Empty t w ∧ Serving t w) (.op o fun _ => .ret ()) w := by
  refine console_step (empty_steady.and (serving_steady.and known_steady)) ⟨empty, serving, known⟩ fun w answer w₁ sound both exec => ?_
  obtain ⟨empty, serving, known⟩ := both
  obtain rfl := passes w answer w₁ exec
  exact ⟨sound_input sound known, console_ret (empty_steady.and serving_steady) ⟨empty, serving⟩⟩

theorem handleInput_safe (fr : WsFrame) (empty : Empty t w) (serving : Serving t w) :
    ConsoleSafe t (fun _ w => Empty t w ∧ Serving t w) (handleInput id fr) w := by
  refine console_step (empty_steady.and serving_steady) ⟨empty, serving⟩ fun w answer w₁ sound both exec => ?_
  cases exec with
  | lookup =>
    have ends : ConsoleSafe t (fun _ w => Empty t w ∧ Serving t w) (.ret ()) w := console_ret (empty_steady.and serving_steady) both
    refine ⟨sound_self sound, ?_⟩
    cases found : w.sessions id with
    | none => exact ends
    | some p =>
      have known := (sound.listed id p found).1
      split
      · exact ends
      · split
        · exact ends
        · split
          · exact ends
          · exact input_safe (fun w answer w₁ exec => by cases exec; rfl) both.1 both.2 known

theorem handleResize_safe (fr : WsFrame) (empty : Empty t w) (serving : Serving t w) :
    ConsoleSafe t (fun _ w => Empty t w ∧ Serving t w) (handleResize id fr) w := by
  refine console_step (empty_steady.and serving_steady) ⟨empty, serving⟩ fun w answer w₁ sound both exec => ?_
  cases exec with
  | lookup =>
    have ends : ConsoleSafe t (fun _ w => Empty t w ∧ Serving t w) (.ret ()) w := console_ret (empty_steady.and serving_steady) both
    refine ⟨sound_self sound, ?_⟩
    cases found : w.sessions id with
    | none => exact ends
    | some p =>
      have known := (sound.listed id p found).1
      split
      · exact ends
      · split
        · exact ends
        · exact input_safe (fun w answer w₁ exec => by cases exec; rfl) both.1 both.2 known

theorem dispatch_safe (fr : WsFrame) (empty : Empty t w) (serving : Serving t w) :
    ConsoleSafe t (fun _ w => Empty t w ∧ Serving t w) (dispatch fr) w := by
  have ends : ConsoleSafe t (fun _ w => Empty t w ∧ Serving t w) (.ret ()) w :=
    console_ret (empty_steady.and serving_steady) ⟨empty, serving⟩
  unfold dispatch
  split
  · exact ends
  next id _ =>
  split
  · exact ends
  split
  · exact openSession_safe fr empty serving
  split
  · exact handleInput_safe fr empty serving
  split
  · exact handleResize_safe fr empty serving
  split
  · exact removeSession_safe removing_serving empty serving
  · exact ends

theorem serve_safe (received : List Received) (empty : Empty t w) (serving : Serving t w) (sound : ConsolesSound w) :
    ConsoleSafe t (fun _ w => Empty t w ∧ Serving t w) (serve received) w := by
  have steady := (empty_steady (t := t)).and serving_steady
  induction received generalizing w with
  | nil => exact console_ret steady ⟨empty, serving⟩
  | cons first rest ih =>
    cases first with
    | malformed => exact ih empty serving sound
    | frame fr =>
      rw [serve]
      split
      · refine send_safe steady ⟨empty, serving⟩ fun answer w sound both => ?_
        cases answer with
        | false => exact console_ret steady both
        | true => exact ih both.1 both.2 sound
      split
      · exact console_ret steady ⟨empty, serving⟩
      split
      · exact Rules.Safe.bind (dispatch_safe fr empty serving) sound fun _ w sound both => ih both.1 both.2 sound
      · exact ih empty serving sound

theorem runWSSession_safe (received : List Received) (empty : Empty t w) :
    ConsoleSafe t (fun _ => Empty t) (runWSSession received) w := by
  refine console_step empty_steady empty fun w answer w₁ sound empty exec => ?_
  cases exec with
  | refused => exact ⟨sound_self sound, console_ret empty_steady empty⟩
  | connected free =>
    refine ⟨sound_connected sound free, ?_⟩
    have serving : Serving t { w with driver := some t, ended := false } := ⟨rfl, rfl⟩
    have sound := (sound_connected (t := t) sound free).1
    have first : ConsoleSafe t (fun _ w => Empty t w ∧ Serving t w) (connected received) { w with driver := some t, ended := false } := by
      refine send_safe (empty_steady.and serving_steady) ⟨empty, serving⟩ fun answer w sound both => ?_
      cases answer with
      | false => exact console_ret (empty_steady.and serving_steady) both
      | true => exact serve_safe received both.1 both.2 sound
    change ConsoleSafe t _ ((connected received).bind fun _ => closeAll.bind fun _ => .op .finish .ret) _
    refine Rules.Safe.bind first sound fun _ w sound both => ?_
    refine Rules.Safe.bind (closeAll_safe both.1 both.2) sound fun _ w sound both => ?_
    refine console_step (empty_steady.and within_steady) both fun w answer w₁ sound both exec => ?_
    obtain ⟨empty, serving, none_⟩ := both
    cases exec
    exact ⟨sound_finish sound serving.1 fun id => none_ id List.not_mem_nil, console_ret empty_steady empty⟩

/-- The goroutine `t` reads a terminal; `raw` of what it has read is still to be told. -/
def Pumping (t p : Nat) (raw : List UInt8) (w : ConsoleWorld) : Prop := w.reader p = some t ∧ w.output p = w.told p ++ raw

theorem pumping_steady {raw : List UInt8} : Steady t (Pumping t p raw) := fun _ _ spared pumping => by
  obtain ⟨mine, output, told⟩ := spared.reader p pumping.1
  exact ⟨mine, by rw [output, told]; exact pumping.2⟩

theorem removing_anything : Removing t id (fun _ => True) fun _ => True :=
  ⟨fun _ _ _ _ => trivial, fun _ _ _ _ => trivial, fun _ _ _ => trivial, fun _ _ _ => trivial, fun _ _ _ => trivial⟩

theorem tell_safe {raw : List UInt8} (empty : Empty t w) (pumping : Pumping t p raw w) :
    ConsoleSafe t (fun told w => Empty t w ∧ (told = true → Pumping t p [] w))
      (tell id p raw) w := by
  have steady (told : Bool) : Steady t fun w => Empty t w ∧ (told = true → Pumping t p [] w) := fun w w₁ spared both =>
    ⟨both.1.spared spared, fun is => pumping_steady w w₁ spared (both.2 is)⟩
  unfold tell
  split
  · next nothing =>
    subst nothing
    exact console_ret (steady true) ⟨empty, fun _ => pumping⟩
  · refine console_step (empty_steady.and pumping_steady) ⟨empty, pumping⟩ fun w answer w₁ sound both exec => ?_
    obtain ⟨empty, mine, whole⟩ := both
    cases exec with
    | lost => exact ⟨sound_self sound, console_ret (steady false) ⟨empty, (by intro is; cases is)⟩⟩
    | data decoded =>
      rw [Base64.decode_encode] at decoded
      cases decoded
      refine ⟨sound_data sound mine whole, console_ret (steady true) ⟨empty, fun _ => ⟨mine, ?_⟩⟩⟩
      dsimp only
      rw [Function.update_self, List.append_nil]
      exact whole

theorem pumpPTY_safe (reads : Nat) (empty : Empty t w) (pumping : Pumping t p [] w) (sound : ConsolesSound w) :
    ConsoleSafe t (fun _ => Empty t) (pumpPTY id p reads) w := by
  induction reads generalizing w with
  | zero => exact console_ret empty_steady empty
  | succ reads ih =>
    refine console_step (empty_steady.and pumping_steady) ⟨empty, pumping⟩ fun w answer w₁ sound both exec => ?_
    obtain ⟨empty, mine, whole⟩ := both
    cases exec with
    | @read _ _ raw failed short =>
      refine ⟨sound_read sound mine raw, ?_⟩
      have next : Pumping t p raw { w with output := update w.output p (w.output p ++ raw) } := by
        refine ⟨mine, ?_⟩
        dsimp only
        rw [Function.update_self, whole, List.append_nil]
      have told : ConsoleSafe t (fun told w => Empty t w ∧ (told = true → Pumping t p [] w))
          (tell id p raw) { w with output := update w.output p (w.output p ++ raw) } :=
        tell_safe empty next
      change ConsoleSafe t _ ((tell id p raw).bind _) _
      refine Rules.Safe.bind told (sound_read sound mine raw).1 fun told w sound both => ?_
      obtain ⟨empty, further⟩ := both
      cases told with
      | false => exact console_ret empty_steady empty
      | true =>
        cases failed with
        | false => exact ih empty (further rfl) sound
        | true =>
          refine send_safe empty_steady empty fun _ w sound empty => ?_
          exact (removeSession_safe removing_anything empty trivial).weaken fun _ _ _ both => both.1

theorem pump_safe (reads : Nat) (empty : Empty t w) : ConsoleSafe t (fun _ => Empty t) (pump reads) w := by
  refine console_step empty_steady empty fun w answer w₁ sound empty exec => ?_
  cases exec with
  | idle => exact ⟨sound_self sound, console_ret empty_steady empty⟩
  | @take _ before job after queue =>
    refine ⟨sound_take sound queue, ?_⟩
    have member : job ∈ w.pumps := queue ▸ List.mem_append_right _ List.mem_cons_self
    have silent := sound.silent job.2 (sound.queued job member).1
    refine pumpPTY_safe reads empty ⟨Function.update_self .., ?_⟩ (sound_take sound queue).1
    dsimp only
    rw [silent, List.append_nil]

/-- A goroutine that dies leaves its terminals behind. -/
theorem sound_drop (sound : ConsolesSound w) : ConsolesSound (consoleThreads.drop t w) := by
  have released {q : Nat} (free : w.holder q = none) : (consoleThreads.drop t w).holder q = none := by
    change (if w.holder q = some t then none else w.holder q) = none
    rw [free]
    rfl
  have before {q u : Nat} (held : (consoleThreads.drop t w).holder q = some u) : w.holder q = some u := by
    have is : (if w.holder q = some t then none else w.holder q) = some u := held
    split at is
    · cases is
    · exact is
  refine ⟨fun i q there => ?_, fun q u held => sound.held q u (before held), sound.once, sound.unborn, fun q inside open_ => ?_, sound.ended,
    sound.inputs, sound.distinct, sound.queued, sound.told, sound.silent⟩
  · obtain ⟨known, open_, free⟩ := sound.listed i q there
    exact ⟨known, open_, released free⟩
  · rcases sound.cared q inside open_ with listed | held | gone
    · exact .inl listed
    · by_cases mine : w.holder q = some t
      · refine .inr (.inr ?_)
        change (w.abandoned q || decide (w.holder q = some t)) = true
        rw [mine, decide_eq_true rfl, Bool.or_true]
      · refine .inr (.inl ?_)
        change (if w.holder q = some t then none else w.holder q) ≠ none
        rwa [if_neg mine]
    · refine .inr (.inr ?_)
      change (w.abandoned q || decide (w.holder q = some t)) = true
      rw [gone, Bool.true_or]

theorem dropped_holder : (consoleThreads.drop t w).holder p ≠ some t := by
  change (if w.holder p = some t then none else w.holder p) ≠ some t
  split
  · exact (Option.some_ne_none t).symm
  · next other => exact other

theorem consoles_verified : consoleThreads.Verified consoleTeam where
  exec run := run
  env sound same := same ▸ ⟨sound, fun t => .refl t _⟩
  entry allowed sound empty := by
    rcases allowed with ⟨received, rfl⟩ | ⟨reads, rfl⟩
    · exact runWSSession_safe received (empty · )
    · exact pump_safe reads empty
  drop sound := by
    rename_i t w
    refine ⟨sound_drop sound, fun w₁ spared _ => Empty.spared (fun p => dropped_holder) spared, fun u other =>
      ⟨List.prefix_rfl, fun p => ?_, fun _ mine => ⟨mine, rfl, rfl⟩, fun mine => mine, fun _ => ⟨rfl, rfl, fun _ none_ => none_, fun _ => And.intro⟩⟩⟩
    change (if w.holder p = some t then none else w.holder p) = some u ↔ w.holder p = some u
    split
    · next held =>
      rw [held]
      exact iff_of_false (fun is => by cases is) fun is => other (Option.some.inj is).symm
    · exact Iff.rfl

theorem consoles_initial (w : ConsoleWorld) (start : w = consoleStart) :
    ConsolesSound w ∧ ∀ t w₁, Spared t w w₁ → ConsolesSound w₁ → Empty t w₁ := by
  subst start
  have empty {t : Nat} : Empty t consoleStart := fun p held => by cases held
  refine ⟨⟨fun _ _ listed => ?_, fun _ _ held => ?_, fun _ => Nat.zero_le 1, fun _ _ => ⟨rfl, rfl⟩, fun p inside => ?_, fun is => ?_, fun i member => ?_,
    List.nodup_nil, fun j member => ?_, fun _ => List.prefix_rfl, fun _ _ => rfl⟩, fun t w₁ spared _ => empty.spared spared⟩
  · cases listed
  · cases held
  · exact absurd inside (Nat.not_lt_zero p)
  · cases is
  · cases member
  · cases member

end

/-- At any time of any run: a terminal that is not closed is registered, or in the hands of a goroutine that is still at work on
it, or of one that died; what is passed on to it came with its own id, and its frames carry what has been read from it.
After the end of the connection every terminal has been closed exactly once. -/
theorem consoles_closed {c : Threads.Config ConsoleOp.Res ConsoleWorld} (reach : consoleThreads.Reach (· = consoleStart) c) :
    (∀ p, c.world.closed p ≤ 1) ∧
    (∀ p < c.world.spawned.length, c.world.closed p = 0 → (∃ id, c.world.sessions id = some p) ∨
      (∃ t, c.world.holder p = some t ∧ c.runs t ≠ .ret ()) ∨ c.world.abandoned p = true) ∧
    (∀ id p, c.world.sessions id = some p → c.world.spawned[p]? = some id ∧ c.world.closed p = 0) ∧
    (∀ i ∈ c.world.inputs, c.world.spawned[i.2]? = some i.1) ∧ (∀ p, c.world.told p <+: c.world.output p) ∧
    (c.world.ended = true → (∀ id, c.world.sessions id = none) ∧
      ((∀ t, c.runs t = .ret ()) → ∀ p < c.world.spawned.length, c.world.closed p = 1 ∨ c.world.abandoned p = true)) := by
  obtain ⟨sound, safe⟩ := reach.safe consoles_verified consoles_initial
  have cared : ∀ p < c.world.spawned.length, c.world.closed p = 0 → (∃ id, c.world.sessions id = some p) ∨
      (∃ t, c.world.holder p = some t ∧ c.runs t ≠ .ret ()) ∨ c.world.abandoned p = true := by
    intro p inside open_
    rcases sound.cared p inside open_ with listed | held | gone
    · exact .inl listed
    · obtain ⟨t, holds⟩ := Option.ne_none_iff_exists'.mp held
      refine .inr (.inl ⟨t, holds, fun idle => ?_⟩)
      have last := safe t
      rw [idle] at last
      exact last c.world (.refl t _) sound p holds
    · exact .inr (.inr gone)
  refine ⟨sound.once, cared, fun id p listed => ⟨(sound.listed id p listed).1, (sound.listed id p listed).2.1⟩, sound.inputs, sound.told,
    fun ended => ⟨sound.ended ended, fun idle p inside => ?_⟩⟩
  rcases Nat.le_one_iff_eq_zero_or_eq_one.mp (sound.once p) with open_ | closed
  · rcases cared p inside open_ with ⟨id, listed⟩ | ⟨t, _, busy⟩ | gone
    · cases (sound.ended ended id).symm.trans listed
    · exact absurd (idle t) busy
    · exact .inr gone
  · exact .inl closed

def consoleOpening : Received := .frame ⟨"console.open", some "7", "", 0, 0, none, none⟩

theorem console_closed : ∃ c, consoleThreads.Reach (· = consoleStart) c ∧ c.world.ended = true ∧ c.world.spawned = ["7"] ∧
    c.world.closed 0 = 1 := by
  have r : consoleThreads.Reach (· = consoleStart) ⟨consoleStart, fun _ => .ret ()⟩ := .init rfl
  have r := r.begins 0 (runWSSession [consoleOpening]) rfl (.inl ⟨_, rfl⟩)
  have r := r.perform 0 rfl true _ (.connected rfl)
  have r := r.perform 0 rfl true _ .send
  have r := r.perform 0 rfl none _ .lookup
  have r := r.perform 0 rfl (some 0) _ .spawned
  have r := r.perform 0 rfl () _ .insert
  have r := r.perform 0 rfl true _ .send
  have r := r.perform 0 rfl () _ .go
  have r := r.perform 0 rfl ["7"] _ (.ids fun id => ?_)
  · have r := r.perform 0 rfl (some 0) _ (.remove rfl)
    have r := r.perform 0 rfl true _ .close
    have r := r.perform 0 rfl () _ .finish
    refine ⟨_, r, rfl, rfl, ?_⟩
    refine (((consoles_closed r).2.2.2.2.2 rfl).2 (fun t => ?_) 0 Nat.zero_lt_one).resolve_right Bool.false_ne_true
    by_cases zero : t = 0
    · rw [zero]
      rfl
    · simp only [Function.update_of_ne zero]
  · rw [List.mem_singleton]
    refine ⟨fun is => ?_, fun listed => ?_⟩
    · rw [is]
      exact Option.some_ne_none 0
    · by_contra differ
      exact listed (Function.update_of_ne differ ..)

end Opale.AgentGo
