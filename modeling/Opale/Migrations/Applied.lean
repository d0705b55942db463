import Opale.Migrations.Runner

namespace Opale.Migrations

open Sql Js

def effectsOf (name : Units) (log : List Write) : List Statement :=
  log.filterMap fun
    | .effect other s => if other = name then some s else none
    | .recorded .. => none

def Recorded (name : Units) (log : List Write) : Prop := name ∈ (history log).map Prod.fst

def MigrationFile.effects (file : MigrationFile) : List Statement :=
  ((statementsOf file.sql).getD []).filter (kind · = .effect)

/-- The transactional files that are recorded are those whose effects are there, all of them and once. -/
def Whole (files : List MigrationFile) (log : List Write) : Prop :=
  ∀ file ∈ files, file.transactional = true → (Recorded file.name log → effectsOf file.name log = file.effects) ∧
    (¬Recorded file.name log → effectsOf file.name log = [])

/-- At each new write, the files in front of its own are recorded. -/
def InOrder (files : List MigrationFile) (log new : List Write) : Prop :=
  ∀ before w after, new = before ++ w :: after →
    ∀ file ∈ files.takeWhile (fun file => file.name ≠ w.name), Recorded file.name (log ++ before)

/-- What is missed of the file by the search for orders on transactions, or meddles with the runner's own means, is nothing. -/
def Guarded (meddles : Statement → Bool) (file : MigrationFile) : Prop :=
  findTransactionControl file.sql = none →
    ∀ s ∈ (statementsOf file.sql).getD [], kind s = .effect ∧ meddles s = false

/-- All the writes of a file. -/
def MigrationFile.writes (file : MigrationFile) : List Write :=
  file.effects.map (.effect file.name) ++ [.recorded file.name file.checksum]

variable {meddles : Statement → Bool} {files rest : List MigrationFile} {file : MigrationFile} {name : Units}
  {log log₀ new ws : List Write} {w w₁ w₂ : RunnerWorld} {t u : Nat}

theorem history_append (log ws : List Write) : history (log ++ ws) = history log ++ history ws := List.filterMap_append ..

theorem effectsOf_append (name : Units) (log ws : List Write) :
    effectsOf name (log ++ ws) = effectsOf name log ++ effectsOf name ws := List.filterMap_append ..

theorem recorded_append : Recorded name (log ++ ws) ↔ Recorded name log ∨ Recorded name ws := by
  rw [Recorded, history_append, List.map_append, List.mem_append]
  rfl

theorem name_of_recorded (recorded : Recorded name ws) : ∃ w ∈ ws, w.name = name := by
  obtain ⟨⟨name, checksum⟩, member, rfl⟩ := List.mem_map.mp recorded
  obtain ⟨w, inside, same⟩ := List.mem_filterMap.mp member
  cases w with
  | effect => cases same
  | recorded other sum =>
    cases same
    exact ⟨_, inside, rfl⟩

theorem not_recorded_of_names (names : ∀ w ∈ ws, w.name = file.name) (other : name ≠ file.name) : ¬Recorded name ws := by
  intro recorded
  obtain ⟨w, inside, same⟩ := name_of_recorded recorded
  exact other (same.symm.trans (names w inside))

theorem effectsOf_eq_nil (names : ∀ w ∈ ws, w.name = file.name) (other : name ≠ file.name) : effectsOf name ws = [] := by
  unfold effectsOf
  rw [List.filterMap_eq_nil_iff]
  intro w inside
  cases w with
  | effect owner s =>
    have same : owner = file.name := names _ inside
    exact if_neg fun mine => other (mine.symm.trans same)
  | recorded => rfl

theorem effectsOf_effects (name : Units) (ss : List Statement) : effectsOf name (ss.map (.effect name)) = ss := by
  unfold effectsOf
  rw [List.filterMap_map]
  exact (congrArg (List.filterMap · ss) (funext fun s => if_pos rfl)).trans (List.filterMap_some)

theorem names_effects (name : Units) (ss : List Statement) : ∀ w ∈ ss.map (Write.effect name), w.name = name := by
  intro w inside
  obtain ⟨s, -, rfl⟩ := List.mem_map.mp inside
  rfl

theorem names_writes (file : MigrationFile) : ∀ w ∈ file.writes, w.name = file.name := by
  intro w inside
  rcases List.mem_append.mp inside with effect | recorded
  · exact names_effects _ _ w effect
  · rw [List.mem_singleton.mp recorded]
    rfl

theorem not_recorded_effects (name other : Units) (ss : List Statement) : ¬Recorded name (ss.map (.effect other)) := by
  intro recorded
  obtain ⟨row, member, -⟩ := List.mem_map.mp recorded
  obtain ⟨w, inside, same⟩ := List.mem_filterMap.mp member
  obtain ⟨s, -, rfl⟩ := List.mem_map.mp inside
  cases same

theorem recorded_writes (file : MigrationFile) : Recorded file.name file.writes := by
  have own : Recorded file.name [.recorded file.name file.checksum] := List.mem_singleton_self _
  exact recorded_append.mpr (.inr own)

theorem InOrder.append (ordered : InOrder files log₀ new) (names : ∀ w ∈ ws, w.name = file.name)
    (earlier : ∀ g ∈ files.takeWhile (fun g => g.name ≠ file.name), Recorded g.name (log₀ ++ new)) :
    InOrder files log₀ (new ++ ws) := by
  intro before w after split g inside
  rcases List.append_eq_append_iff.mp split with ⟨more, rfl, rest⟩ | ⟨more, rfl, rest⟩
  · have member : w ∈ ws := by
      rw [rest]
      exact List.mem_append_right _ List.mem_cons_self
    rw [names w member] at inside
    rw [← List.append_assoc]
    exact recorded_append.mpr (.inl (earlier g inside))
  · cases more with
    | nil =>
      rw [List.nil_append] at rest
      have member : w ∈ ws := by
        rw [← rest]
        exact List.mem_cons_self
      rw [names w member] at inside
      rw [List.append_nil] at earlier
      exact earlier g inside
    | cons w' more =>
      cases rest
      exact ordered before w more rfl g inside

section

variable (distinct : (files.map (·.name)).Nodup)

include distinct

theorem Whole.append_other (whole : Whole files log) (member : file ∈ files) (loose : file.transactional = false)
    (names : ∀ w ∈ ws, w.name = file.name) : Whole files (log ++ ws) := by
  intro g inside transactional
  have other : g.name ≠ file.name := by
    intro same
    rw [List.inj_on_of_nodup_map distinct inside member same, loose] at transactional
    cases transactional
  have nothing := not_recorded_of_names names other
  rw [effectsOf_append, effectsOf_eq_nil names other, List.append_nil, recorded_append, or_iff_left nothing]
  exact whole g inside transactional

theorem Whole.append_writes (whole : Whole files log) (member : file ∈ files) (transactional : file.transactional = true)
    (fresh : ¬Recorded file.name log) : Whole files (log ++ file.writes) := by
  intro g inside transactional₁
  by_cases same : g.name = file.name
  · obtain rfl := List.inj_on_of_nodup_map distinct inside member same
    refine ⟨fun _ => ?_, fun none_ => absurd (recorded_append.mpr (.inr (recorded_writes g))) none_⟩
    rw [effectsOf_append, (whole g inside transactional₁).2 fresh, List.nil_append, MigrationFile.writes, effectsOf_append,
      effectsOf_effects]
    exact List.append_nil _
  · have nothing := not_recorded_of_names (names_writes file) same
    rw [effectsOf_append, effectsOf_eq_nil (names_writes file) same, List.append_nil, recorded_append, or_iff_left nothing]
    exact whole g inside transactional₁

theorem takeWhile_of_split {before after : List MigrationFile} (split : files = before ++ file :: after) :
    files.takeWhile (fun g => g.name ≠ file.name) = before := by
  subst split
  rw [List.map_append, List.nodup_append] at distinct
  have others : ∀ g ∈ before, decide (g.name ≠ file.name) = true := fun g inside =>
    decide_eq_true (distinct.2.2 _ (List.mem_map_of_mem inside) _ List.mem_cons_self)
  rw [List.takeWhile_append_of_pos others, List.takeWhile_cons_of_neg (by simp), List.append_nil]

end

/-- A text of effects alone, run to its end or not, in a block or by itself. -/
theorem turns_effects {p p₁ : Place} {ss : List Statement} {ok : Bool} (turns : Turns name p ss ok p₁)
    (effects : ∀ s ∈ ss, kind s = .effect) : p₁.log = p.log ∧ p₁.explicit = p.explicit ∧
      ∃ done, done <+: ss ∧ (ok = true → done = ss) ∧ p₁.pending = p.pending ++ done.map (.effect name) := by
  induction turns with
  | done => exact ⟨rfl, rfl, [], List.nil_prefix, fun _ => rfl, (List.append_nil _).symm⟩
  | error => exact ⟨rfl, rfl, [], List.nil_prefix, nofun, (List.append_nil _).symm⟩
  | @turn p p₁ p₂ s rest ok one _ ih =>
    obtain ⟨here, others⟩ := List.forall_mem_cons.mp effects
    obtain ⟨log, explicit, done, starts, all, pending⟩ := ih others
    cases one with
    | effect =>
      refine ⟨log, explicit, s :: done, List.cons_prefix_cons.mpr ⟨rfl, starts⟩, fun ended => by rw [all ended], ?_⟩
      rw [pending, List.append_assoc]
      rfl
    | begin other => exact absurd (here.symm.trans other) (by decide)
    | commit other => exact absurd (here.symm.trans other) (by decide)
    | rollback other => exact absurd (here.symm.trans other) (by decide)
    | other other => exact absurd (here.symm.trans other) (by decide)

/-- Who has a transaction has the lock; new writes are in order. -/
structure Kept (files : List MigrationFile) (log₀ : List Write) (w : RunnerWorld) : Prop where
  whole : Whole files w.log
  ordered : ∃ new, w.log = log₀ ++ new ∧ InOrder files log₀ new
  owner : ∀ t, w.block t ≠ none → w.owner = some t

/-- What the others do: nothing to a transaction, and nothing at all without the lock. -/
structure Leaves (t : Nat) (w w₁ : RunnerWorld) : Prop where
  block : w₁.block t = w.block t
  owns : w.owner = some t → w₁.owner = some t ∧ w₁.log = w.log ∧ (w.created = true → w₁.created = true)
  apart : w.owner ≠ some t → w₁.owner ≠ some t

theorem Leaves.refl (t : Nat) (w : RunnerWorld) : Leaves t w w := ⟨rfl, fun owner => ⟨owner, rfl, id⟩, id⟩

theorem Leaves.trans (first : Leaves t w w₁) (second : Leaves t w₁ w₂) : Leaves t w w₂ := by
  refine ⟨second.block.trans first.block, fun owner => ?_, fun other => second.apart (first.apart other)⟩
  obtain ⟨owner₁, log, created⟩ := first.owns owner
  obtain ⟨owner₂, log₁, created₁⟩ := second.owns owner₁
  exact ⟨owner₂, log₁.trans log, created₁ ∘ created⟩

/-- An operation of the owner of the lock, which does not concern the others. -/
theorem leaves_of_owner (owner : w.owner = some t) (owner₁ : w₁.owner = some t ∨ w₁.owner = none)
    (blocks : ∀ u, u ≠ t → w₁.block u = w.block u) (u : Nat) (other : u ≠ t) : Leaves u w w₁ := by
  have apart : w.owner ≠ some u := fun mine => other (Option.some.inj (mine.symm.trans owner))
  refine ⟨blocks u other, fun mine => absurd mine apart, fun _ mine => ?_⟩
  rcases owner₁ with own | none_
  · exact other (Option.some.inj (mine.symm.trans own))
  · cases none_.symm.trans mine

def runnerTeam (meddles : Statement → Bool) (files : List MigrationFile) (log₀ : List Write) :
    Threads.Team RunnerOp.Res RunnerWorld where
  exec := runnerExec meddles
  inv := Kept files log₀
  rely := Leaves
  guarantee _ _ _ _ _ := True
  idle t w := w.block t = none ∧ w.owner ≠ some t
  rely_refl := Leaves.refl
  rely_trans _ := Leaves.trans

/-- What the runner `t` knows between two files. -/
structure Holds (t : Nat) (log : List Write) (w : RunnerWorld) : Prop where
  owner : w.owner = some t
  log : w.log = log
  block : w.block t = none
  created : w.created = true

theorem Holds.leaves (holds : Holds t log w) (leaves : Leaves t w w₁) : Holds t log w₁ := by
  obtain ⟨owner, same, created⟩ := leaves.owns holds.owner
  exact ⟨owner, same.trans holds.log, leaves.block.trans holds.block, created holds.created⟩

/-- In the transaction of a file, with what it has written. -/
structure Inside (t : Nat) (log pending : List Write) (w : RunnerWorld) : Prop where
  owner : w.owner = some t
  log : w.log = log
  block : w.block t = some ⟨pending, false⟩
  created : w.created = true

theorem Inside.leaves {pending : List Write} (inside : Inside t log pending w) (leaves : Leaves t w w₁) :
    Inside t log pending w₁ := by
  obtain ⟨owner, same, created⟩ := leaves.owns inside.owner
  exact ⟨owner, same.trans inside.log, leaves.block.trans inside.block, created inside.created⟩

/-- The owner changes its own transaction. -/
theorem Kept.setBlock (kept : Kept files log₀ w) (owner : w.owner = some t) (b : Option Block) :
    Kept files log₀ (w.setBlock t b) := by
  refine ⟨kept.whole, kept.ordered, fun u opened => ?_⟩
  by_cases same : u = t
  · rw [same]
    exact owner
  · exact kept.owner u fun none_ => opened ((Function.update_of_ne same ..).trans none_)

/-- The owner writes for a file whose turn it is. -/
theorem Kept.write (kept : Kept files log₀ w) (whole : Whole files (w.log ++ ws)) (names : ∀ w ∈ ws, w.name = file.name)
    (earlier : ∀ g ∈ files.takeWhile (fun g => g.name ≠ file.name), Recorded g.name w.log) :
    Kept files log₀ { w with log := w.log ++ ws } := by
  obtain ⟨new, split, ordered⟩ := kept.ordered
  rw [split] at earlier
  refine ⟨whole, ⟨new ++ ws, ?_, ordered.append names earlier⟩, kept.owner⟩
  rw [split, List.append_assoc]

section

variable {α : Type} {post : α → RunnerWorld → Prop}

abbrev runnerRules (meddles : Statement → Bool) (files : List MigrationFile) (log₀ : List Write) (t : Nat) :=
  (runnerTeam meddles files log₀).rules t

/-- The rule for an operation of the owner of the lock. -/
theorem safe_owner {o : RunnerOp} {next : o.Res → Running α} {known : RunnerWorld → Prop} (here : known w)
    (stable : ∀ w w₁, known w → Leaves t w w₁ → known w₁)
    (step : ∀ w answer w₁, known w → Kept files log₀ w → runnerExec meddles t o w answer w₁ →
      Kept files log₀ w₁ ∧ (∀ u, u ≠ t → Leaves u w w₁) ∧
        (runnerRules meddles files log₀ t).Safe post (next answer) w₁) :
    (runnerRules meddles files log₀ t).Safe post (Program.bind (perform o) next) w := by
  intro w₁ leaves kept answer w₂ run
  obtain ⟨kept₂, others, later⟩ := step w₁ answer w₂ (stable w w₁ here leaves) kept run
  exact ⟨kept₂, ⟨others, trivial⟩, later⟩

end

/-- What the runner knows once it applies files no more. -/
def Over (t : Nat) (w : RunnerWorld) : Prop := w.owner = some t ∧ w.block t = none

theorem Over.leaves (resting : Over t w) (leaves : Leaves t w w₁) : Over t w₁ :=
  ⟨(leaves.owns resting.1).1, leaves.block.trans resting.2⟩

theorem Holds.rests (holds : Holds t log w) : Over t w := ⟨holds.owner, holds.block⟩

/-- The lock alone. -/
def Owns (t : Nat) (w : RunnerWorld) : Prop := w.owner = some t

theorem Owns.leaves (owns : Owns t w) (leaves : Leaves t w w₁) : Owns t w₁ := (leaves.owns owns).1

theorem leaves_setBlock (owner : w.owner = some t) (b : Option Block) (u : Nat) (other : u ≠ t) :
    Leaves u w (w.setBlock t b) := by
  refine leaves_of_owner owner (.inl ?_) (fun v apart => ?_) u other
  · exact owner
  · exact Function.update_of_ne apart ..

theorem leaves_write (owner : w.owner = some t) (log : List Write) (u : Nat) (other : u ≠ t) :
    Leaves u w { w with log := log } := by
  refine leaves_of_owner owner (.inl ?_) (fun v _ => ?_) u other
  · exact owner
  · rfl

/-- The statements of a file that the runner has not refused. -/
def Clean (meddles : Statement → Bool) (file : MigrationFile) : Prop :=
  ∀ s ∈ (statementsOf file.sql).getD [], kind s = .effect ∧ meddles s = false

theorem Clean.effects (clean : Clean meddles file) {ss : List Statement} (split : statementsOf file.sql = some ss) :
    file.effects = ss ∧ (∀ s ∈ ss, kind s = .effect) ∧ ss.any meddles = false := by
  unfold Clean at clean
  rw [split, Option.getD_some] at clean
  refine ⟨?_, fun s inside => (clean s inside).1, ?_⟩
  · rw [MigrationFile.effects, split, Option.getD_some, List.filter_eq_self]
    exact fun s inside => decide_eq_true (clean s inside).1
  · rw [List.any_eq_false]
    exact fun s inside => by rw [(clean s inside).2]; exact Bool.false_ne_true

/-- The text of a file in the transaction of the runner. -/
theorem script_inside {ok : Bool} (clean : Clean meddles file) (inside : Inside t log [] w)
    (run : runnerExec meddles t (.script file) w ok w₁) : ∃ b, w₁ = w.setBlock t b ∧
      (ok = true → b = some ⟨file.effects.map (.effect file.name), false⟩) := by
  unfold runnerExec at run
  dsimp only at run
  split at run
  · obtain ⟨rfl, rfl⟩ := run
    exact ⟨_, rfl, nofun⟩
  next ss split_ =>
    obtain ⟨all, effects, quiet⟩ := clean.effects split_
    rw [quiet] at run
    obtain ⟨ended, ran, answer⟩ := run.resolve_left Bool.false_ne_true
    unfold scriptExec at ran
    rw [inside.block] at ran
    obtain ⟨p, turns, rfl⟩ := ran
    obtain ⟨log, explicit, done, -, whole, pending⟩ := turns_effects turns effects
    dsimp only at log explicit pending
    rw [log, explicit, pending]
    refine ⟨_, rfl, fun told => ?_⟩
    rw [whole (answer told), all, answer told]
    rfl

theorem setBlock_self (none_ : w.block t = none) : w.setBlock t none = w := by
  unfold RunnerWorld.setBlock
  rw [← none_, Function.update_eq_self]

/-- The text of a file by itself: some of its effects are kept. -/
theorem script_outside {ok : Bool} (clean : Clean meddles file) (holds : Holds t log w)
    (run : runnerExec meddles t (.script file) w ok w₁) :
    ∃ ws : List Write, (∀ x ∈ ws, x.name = file.name) ∧ w₁ = { w with log := w.log ++ ws } := by
  unfold runnerExec at run
  dsimp only at run
  split at run
  · obtain ⟨rfl, rfl⟩ := run
    refine ⟨[], List.forall_mem_nil _, ?_⟩
    rw [holds.block, Option.map_none, setBlock_self holds.block, List.append_nil]
  next ss split_ =>
    obtain ⟨-, effects, quiet⟩ := clean.effects split_
    rw [quiet] at run
    obtain ⟨ended, ran, -⟩ := run.resolve_left Bool.false_ne_true
    unfold scriptExec at ran
    rw [holds.block] at ran
    obtain ⟨p, turns, ran⟩ := ran
    obtain ⟨log, explicit, done, -, -, pending⟩ := turns_effects turns effects
    dsimp only at log explicit pending
    rw [explicit, if_neg Bool.false_ne_true, log] at ran
    obtain ⟨kept, starts, -, rfl⟩ := ran
    rw [pending, List.nil_append] at starts
    exact ⟨kept, fun x inside => names_effects file.name done x (starts.subset inside), rfl⟩

/-- Where the transaction of a file ends. -/
def Committed (t : Nat) (log : List Write) (file : MigrationFile) : Bool → RunnerWorld → Prop
  | true, w => Holds t (log ++ file.writes) w
  | false, w => Owns t w

/-- Where a turn of the loop ends. -/
def Applied (t : Nat) (log : List Write) (file : MigrationFile) : Bool → RunnerWorld → Prop
  | true, w => ∃ ws, Recorded file.name ws ∧ (∀ x ∈ ws, x.name = file.name) ∧ Holds t (log ++ ws) w
  | false, w => Over t w

section

variable (distinct : (files.map (·.name)).Nodup) (member : file ∈ files) (clean : Clean meddles file)
  (fresh : ¬Recorded file.name log) (earlier : ∀ g ∈ files.takeWhile (fun g => g.name ≠ file.name), Recorded g.name log)

include distinct member clean fresh earlier

theorem inTransaction_safe (transactional : file.transactional = true) (holds : Holds t log w) :
    (runnerRules meddles files log₀ t).Safe (Committed t log file)
      (inTransaction file) w := by
  have fails : ∀ w₁, Owns t w₁ → (runnerRules meddles files log₀ t).Safe
      (Committed t log file) (.ret false) w₁ := by
    intro w₁ owns w₂ moves _
    exact owns.leaves moves
  refine safe_owner holds (fun _ _ => Holds.leaves) fun w ok w₁ holds kept run => ?_
  rcases run with rfl | ⟨rfl, rfl⟩
  swap
  · exact ⟨kept, fun u _ => Leaves.refl u w₁, fails w₁ holds.owner⟩
  rw [if_pos holds.block]
  have opened : Inside t log [] (w.setBlock t (some ⟨[], false⟩)) :=
    ⟨holds.owner, holds.log, Function.update_self .., holds.created⟩
  refine ⟨kept.setBlock holds.owner _, leaves_setBlock holds.owner _, ?_⟩
  cases ok with
  | false => exact fails _ holds.owner
  | true =>
  refine safe_owner opened (fun _ _ => Inside.leaves) fun w ok w₁ inside kept run => ?_
  obtain ⟨b, rfl, ran⟩ := script_inside clean inside run
  refine ⟨kept.setBlock inside.owner _, leaves_setBlock inside.owner _, ?_⟩
  cases ok with
  | false => exact fails _ inside.owner
  | true =>
    obtain rfl := ran rfl
    have written : Inside t log (file.effects.map (.effect file.name))
        (w.setBlock t (some ⟨file.effects.map (.effect file.name), false⟩)) :=
      ⟨inside.owner, inside.log, Function.update_self .., inside.created⟩
    refine safe_owner written (fun _ _ => Inside.leaves) fun w ok w₁ inside kept run => ?_
    rcases run with ⟨rfl, rfl⟩ | ⟨-, -, run⟩
    · exact ⟨kept.setBlock inside.owner _, leaves_setBlock inside.owner _, fails _ inside.owner⟩
    rw [inside.block] at run
    obtain rfl := run
    refine ⟨kept.setBlock inside.owner _, leaves_setBlock inside.owner _, ?_⟩
    cases ok with
    | false => exact fails _ inside.owner
    | true =>
    have recorded : Inside t log file.writes (w.setBlock t (some ⟨file.writes, false⟩)) :=
      ⟨inside.owner, inside.log, Function.update_self .., inside.created⟩
    refine safe_owner recorded (fun _ _ => Inside.leaves) fun w ok w₁ inside kept run => ?_
    unfold runnerExec at run
    dsimp only at run
    rw [inside.block] at run
    rcases run with rfl | ⟨rfl, rfl⟩
    · have same := inside.log
      have kept₁ : Kept files log₀ { w with log := w.log ++ file.writes } := by
        refine kept.write ?_ (names_writes file) ?_
        · exact kept.whole.append_writes distinct member transactional (by rwa [same])
        · rwa [same]
      have ended : Holds t (log ++ file.writes) ({ w with log := w.log ++ file.writes }.setBlock t none) :=
        ⟨inside.owner, congrArg (· ++ file.writes) same, Function.update_self .., inside.created⟩
      refine ⟨kept₁.setBlock inside.owner _, fun u other => (leaves_write inside.owner _ u other).trans
        (leaves_setBlock (by exact inside.owner) _ u other), fun w₂ moves _ => ?_⟩
      cases ok with
      | true => exact ended.leaves moves
      | false => exact (ended.leaves moves).owner
    · exact ⟨kept.setBlock inside.owner _, leaves_setBlock inside.owner _, fails _ inside.owner⟩

omit fresh in
theorem outside_safe (loose : file.transactional = false) (holds : Holds t log w) :
    (runnerRules meddles files log₀ t).Safe
      (Applied t log file)
      (do if ← perform (.script file) then perform (.record file) else return false) w := by
  refine safe_owner holds (fun _ _ => Holds.leaves) fun w ok w₁ holds kept run => ?_
  obtain ⟨ws, names, rfl⟩ := script_outside clean holds run
  have kept₁ : Kept files log₀ { w with log := w.log ++ ws } := by
    refine kept.write ?_ names ?_
    · exact kept.whole.append_other distinct member loose names
    · rwa [holds.log]
  refine ⟨kept₁, leaves_write holds.owner _, ?_⟩
  have half : Holds t (log ++ ws) { w with log := w.log ++ ws } :=
    ⟨holds.owner, congrArg (· ++ ws) holds.log, holds.block, holds.created⟩
  cases ok with
  | false => exact fun w₁ moves _ => half.rests.leaves moves
  | true =>
    refine safe_owner half (fun _ _ => Holds.leaves) fun w ok w₁ half kept run => ?_
    rcases run with ⟨rfl, rfl⟩ | ⟨-, -, run⟩
    · rw [half.block, Option.map_none, setBlock_self half.block]
      exact ⟨kept, fun u _ => Leaves.refl u w, fun w₁ moves _ => half.rests.leaves moves⟩
    · rw [half.block] at run
      obtain rfl := run
      have same : ∀ x ∈ [Write.recorded file.name file.checksum], x.name = file.name := by
        intro x inside
        rw [List.mem_singleton.mp inside]
        rfl
      have kept₁ : Kept files log₀ { w with log := w.log ++ [.recorded file.name file.checksum] } := by
        refine kept.write ?_ same ?_
        · exact kept.whole.append_other distinct member loose same
        · rw [half.log]
          exact fun g inside => recorded_append.mpr (.inl (earlier g inside))
      have ended : Holds t (log ++ (ws ++ [.recorded file.name file.checksum]))
          { w with log := w.log ++ [.recorded file.name file.checksum] } := by
        refine ⟨half.owner, ?_, half.block, half.created⟩
        rw [← List.append_assoc, ← half.log]
      refine ⟨kept₁, leaves_write half.owner _, fun w₁ moves _ => ?_⟩
      cases ok with
      | false => exact ended.rests.leaves moves
      | true =>
      refine ⟨ws ++ [.recorded file.name file.checksum], ?_, ?_, ?_⟩
      · exact recorded_append.mpr (.inr (List.mem_singleton_self _))
      · exact List.forall_mem_append.mpr ⟨names, same⟩
      · exact ended.leaves moves

theorem applyFile_safe (kept : Kept files log₀ w) (holds : Holds t log w) :
    (runnerRules meddles files log₀ t).Safe
      (Applied t log file)
      (applyFile file) w := by
  unfold applyFile
  by_cases transactional : file.transactional = true
  · rw [if_pos transactional]
    refine Rules.Safe.bind (inTransaction_safe distinct member clean fresh earlier transactional holds) kept
      fun ok w kept ended => ?_
    cases ok with
    | true => exact fun w₁ moves _ => ⟨file.writes, recorded_writes file, names_writes file, Holds.leaves ended moves⟩
    | false =>
      refine safe_owner ended (fun _ _ => Owns.leaves) fun w _ w₁ owns kept run => ?_
      obtain rfl : w₁ = w.setBlock t none := run
      have resting : Over t (w.setBlock t none) := ⟨owns, Function.update_self ..⟩
      exact ⟨kept.setBlock owns _, leaves_setBlock owns _, fun w₁ moves _ => resting.leaves moves⟩
  · rw [if_neg transactional]
    exact outside_safe distinct member clean earlier (Bool.eq_false_iff.mpr transactional) holds

end

/-- The files that the log has not recorded. -/
def waiting (files : List MigrationFile) (log : List Write) : List MigrationFile :=
  files.filter fun file => !((history log).map Prod.fst).contains file.name

theorem recorded_iff : ((history log).map Prod.fst).contains name = true ↔ Recorded name log := List.contains_iff_mem

/-- The next file that waits, and what is in front of it and behind. -/
theorem of_waiting (distinct : (files.map (·.name)).Nodup) (next : waiting files log = file :: rest) :
    file ∈ files ∧ ¬Recorded file.name log ∧
    (∀ g ∈ files.takeWhile (fun g => g.name ≠ file.name), Recorded g.name log) ∧
    ∀ ws, Recorded file.name ws → (∀ x ∈ ws, x.name = file.name) → waiting files (log ++ ws) = rest := by
  obtain ⟨before, after, split, done, fresh, others⟩ := List.filter_eq_cons_iff.mp next
  have ahead : ∀ g ∈ before, Recorded g.name log := fun g inside => recorded_iff.mp (by simpa using done g inside)
  refine ⟨?_, ?_, ?_, fun ws recorded names => ?_⟩
  · rw [split]
    exact List.mem_append_right _ List.mem_cons_self
  · rw [← recorded_iff]
    simpa using fresh
  · rw [takeWhile_of_split distinct split]
    exact ahead
  · subst split
    have behind : ∀ g ∈ after, g.name ≠ file.name := by
      rw [List.map_append, List.map_cons, List.nodup_append, List.nodup_cons] at distinct
      exact fun g inside same => distinct.2.1.1 (same ▸ List.mem_map_of_mem inside)
    have gone : ∀ g ∈ before ++ [file], Recorded g.name (log ++ ws) := by
      refine List.forall_mem_append.mpr ⟨fun g inside => recorded_append.mpr (.inl (ahead g inside)), ?_⟩
      exact List.forall_mem_singleton.mpr (recorded_append.mpr (.inr recorded))
    unfold waiting
    rw [← others, List.append_cons, List.filter_append, List.filter_eq_nil_iff.mpr fun g inside => ?_, List.nil_append]
    · refine List.filter_congr fun g inside => ?_
      have same : Recorded g.name (log ++ ws) ↔ Recorded g.name log := by
        rw [recorded_append, or_iff_left (not_recorded_of_names names (behind g inside))]
      rw [Bool.eq_iff_iff, Bool.not_eq_true', Bool.not_eq_true', ← Bool.not_eq_true, ← Bool.not_eq_true, recorded_iff,
        recorded_iff, same]
    · rw [recorded_iff.mpr (gone g inside)]
      exact Bool.false_ne_true

theorem applyAll_safe (distinct : (files.map (·.name)).Nodup) (kept : Kept files log₀ w)
    (clean : ∀ file ∈ rest, Clean meddles file) (next : waiting files log = rest) (holds : Holds t log w) :
    (runnerRules meddles files log₀ t).Safe (fun _ => Over t) (applyAll rest) w := by
  induction rest generalizing log w with
  | nil => exact fun w₁ moves _ => holds.rests.leaves moves
  | cons file rest ih =>
    obtain ⟨member, fresh, earlier, later⟩ := of_waiting distinct next
    have turn := applyFile_safe distinct member (clean file List.mem_cons_self) fresh earlier kept holds
    refine Rules.Safe.bind turn kept fun ok w₁ kept₁ ended => ?_
    cases ok with
    | false => exact fun w₂ moves _ => Over.leaves ended moves
    | true =>
      obtain ⟨ws, recorded, names, holds₁⟩ := ended
      exact ih kept₁ (fun g inside => clean g (List.mem_cons_of_mem _ inside)) (later ws recorded names) holds₁

/-- The same when `schema_migrations` is there. -/
def Ready (t : Nat) (w : RunnerWorld) : Prop := Over t w ∧ w.created = true

theorem Ready.leaves (ready : Ready t w) (leaves : Leaves t w w₁) : Ready t w₁ :=
  ⟨ready.1.leaves leaves, (leaves.owns ready.1.1).2.2 ready.2⟩

theorem control_of_refusal (none_ : refusal rest = none) (inside : file ∈ rest) : findTransactionControl file.sql = none := by
  have here := List.findSome?_eq_none_iff.mp none_ file inside
  exact Option.map_eq_none_iff.mp here

section

variable (distinct : (files.map (·.name)).Nodup) (guarded : ∀ file ∈ files, Guarded meddles file)

theorem readState_safe (resting : Over t w) : (runnerRules meddles files log₀ t).Safe (fun _ => Over t) readState w := by
  refine safe_owner resting (fun _ _ => Over.leaves) fun w answer w₁ resting kept run => ?_
  obtain rfl : w₁ = w := run
  refine ⟨kept, fun u _ => Leaves.refl u w₁, ?_⟩
  cases answer with
  | none => exact fun w₂ moves _ => resting.leaves moves
  | some there =>
    cases there with
    | false => exact fun w₂ moves _ => resting.leaves moves
    | true =>
      intro w₂ moves kept₂ answer w₃ run
      obtain rfl : w₃ = w₂ := run
      refine ⟨kept₂, ⟨fun u _ => Leaves.refl u w₃, trivial⟩, fun w₄ moves₁ _ => ?_⟩
      exact (resting.leaves moves).leaves moves₁

include distinct guarded

theorem applyPending_safe (kept : Kept files log₀ w) (resting : Over t w) :
    (runnerRules meddles files log₀ t).Safe (fun _ => Over t) (applyPending files) w := by
  have ends : ∀ (result : MigrationsResult) (w₁ : RunnerWorld), Over t w₁ →
      (runnerRules meddles files log₀ t).Safe (fun _ => Over t) (.ret result) w₁ :=
    fun _ w₁ resting w₂ moves _ => resting.leaves moves
  refine Rules.Safe.bind (readState_safe resting) kept fun read w kept resting => ?_
  cases read with
  | false => exact ends _ w resting
  | true =>
    refine safe_owner resting (fun _ _ => Over.leaves) fun w ok w₁ resting kept run => ?_
    rcases run with rfl | ⟨rfl, rfl⟩
    swap
    · exact ⟨kept, fun u _ => Leaves.refl u w₁, ends _ w₁ resting⟩
    refine ⟨⟨kept.whole, kept.ordered, kept.owner⟩, leaves_of_owner resting.1 (.inl resting.1) fun _ _ => rfl, ?_⟩
    cases ok with
    | false => exact ends _ _ resting
    | true =>
    have created : Ready t { w with created := true } := ⟨resting, rfl⟩
    refine safe_owner created (fun _ _ => Ready.leaves) fun w answer w₁ known kept run => ?_
    obtain ⟨rfl, run⟩ := run
    refine ⟨kept, fun u _ => Leaves.refl u w₁, ?_⟩
    rcases run with ⟨-, rfl⟩ | rfl
    · dsimp only
      unfold applyFiles
      split
      · exact ends _ w₁ known.1
      next none_ =>
        have clean : ∀ file ∈ waiting files w₁.log, Clean meddles file := fun file inside =>
          guarded file (List.mem_of_mem_filter inside) (control_of_refusal none_ inside)
        refine Rules.Safe.bind (applyAll_safe distinct kept clean rfl ⟨known.1.1, rfl, known.1.2, known.2⟩) kept
          fun result w kept resting => ?_
        cases result with
        | none => exact ends _ w resting
        | some file => exact ends _ w resting
    · exact ends _ w₁ known.1

theorem held_safe (resting : Over t w) : (runnerRules meddles files log₀ t).Safe (fun _ => Over t) (held files) w := by
  refine safe_owner resting (fun _ _ => Over.leaves) fun w ok w₁ resting kept run => ?_
  obtain rfl : w₁ = w := run
  refine ⟨kept, fun u _ => Leaves.refl u w₁, ?_⟩
  cases ok with
  | false => exact fun w₂ moves _ => resting.leaves moves
  | true => exact applyPending_safe distinct guarded kept resting

theorem locked_safe (kept : Kept files log₀ w) (resting : Over t w) :
    (runnerRules meddles files log₀ t).Safe (fun _ w => w.block t = none) (locked files) w := by
  refine Rules.Safe.bind (held_safe distinct guarded resting) kept fun result w kept resting => ?_
  refine safe_owner resting (fun _ _ => Over.leaves) fun w ok w₁ resting kept run => ?_
  rcases run with rfl | rfl
  · rw [if_pos resting.1]
    refine ⟨⟨kept.whole, kept.ordered, fun u opened => ?_⟩, leaves_of_owner resting.1 (.inr rfl) fun _ _ => rfl,
      fun w₁ moves _ => moves.block.trans resting.2⟩
    obtain rfl : u = t := Option.some.inj ((kept.owner u opened).symm.trans resting.1)
    exact absurd resting.2 opened
  · exact ⟨kept, fun u _ => Leaves.refl u w₁, fun w₂ moves _ => moves.block.trans resting.2⟩

end

/-- The runner that has no lock. -/
def Idle (t : Nat) (w : RunnerWorld) : Prop := w.block t = none ∧ w.owner ≠ some t

theorem Idle.leaves (idle : Idle t w) (leaves : Leaves t w w₁) : Idle t w₁ :=
  ⟨leaves.block.trans idle.1, leaves.apart idle.2⟩

theorem Kept.leave (kept : Kept files log₀ w) (t : Nat) :
    Kept files log₀ (w.leave t) ∧ Idle t (w.leave t) ∧ ∀ u, u ≠ t → Leaves u w (w.leave t) := by
  have own : (w.leave t).owner = if w.owner = some t then none else w.owner := rfl
  have block : ∀ u, u ≠ t → (w.leave t).block u = w.block u := fun u other => Function.update_of_ne other ..
  have mine : (w.leave t).block t = none := Function.update_self ..
  have others : ∀ u, u ≠ t → w.owner = some u → (w.leave t).owner = some u := by
    intro u other owner
    rw [own, owner, if_neg fun same => other (Option.some.inj same)]
  refine ⟨⟨kept.whole, kept.ordered, fun u opened => ?_⟩, ⟨mine, ?_⟩,
    fun u other => ⟨block u other, fun owner => ?_, ?_⟩⟩
  · have other : u ≠ t := fun same => opened (same ▸ mine)
    exact others u other (kept.owner u fun none_ => opened ((block u other).trans none_))
  · rw [own]
    split
    · exact nofun
    · assumption
  · exact ⟨others u other owner, rfl, id⟩
  · rw [own]
    split
    · exact fun _ => nofun
    · exact id

/-- A setting of the session. -/
theorem safe_set {α : Type} {post : α → RunnerWorld → Prop} {next : Bool → Running α} (idle : Idle t w)
    (fails : ∀ w, Idle t w → (runnerRules meddles files log₀ t).Safe post (next false) w)
    (later : ∀ w, Idle t w → (runnerRules meddles files log₀ t).Safe post (next true) w) :
    (runnerRules meddles files log₀ t).Safe post (Program.bind (perform .set) next) w := by
  refine safe_owner idle (fun _ _ => Idle.leaves) fun w ok w₁ idle kept run => ?_
  obtain rfl : w₁ = w := run
  refine ⟨kept, fun u _ => Leaves.refl u w₁, ?_⟩
  cases ok with
  | false => exact fails w₁ idle
  | true => exact later w₁ idle

section

variable (distinct : (files.map (·.name)).Nodup) (guarded : ∀ file ∈ files, Guarded meddles file)

include distinct guarded

theorem connected_safe (idle : Idle t w) :
    (runnerRules meddles files log₀ t).Safe (fun _ w => w.block t = none) (connected files) w := by
  have ends : ∀ (w₁ : RunnerWorld), w₁.block t = none →
      (runnerRules meddles files log₀ t).Safe (fun _ w => w.block t = none) (.ret MigrationsResult.threw) w₁ :=
    fun w₁ none_ w₂ moves _ => moves.block.trans none_
  refine safe_set idle (fun w idle => ends w idle.1) fun w idle => ?_
  refine safe_set idle (fun w idle => ends w idle.1) fun w idle => ?_
  refine safe_set idle (fun w idle => ends w idle.1) fun w idle => ?_
  refine safe_owner idle (fun _ _ => Idle.leaves) fun w ok w₁ idle kept run => ?_
  rcases run with ⟨free, rfl⟩ | ⟨rfl, rfl⟩
  swap
  · exact ⟨kept, fun u _ => Leaves.refl u w₁, ends w₁ idle.1⟩
  have free := free.resolve_right idle.2
  have kept₁ : Kept files log₀ { w with owner := some t } := by
    refine ⟨kept.whole, kept.ordered, fun u opened => ?_⟩
    cases free.symm.trans (kept.owner u opened)
  refine ⟨kept₁, fun u other => ⟨rfl, fun owner => ?_, fun _ same => other (Option.some.inj same).symm⟩, ?_⟩
  · cases free.symm.trans owner
  · cases ok with
    | false => exact ends _ idle.1
    | true => exact locked_safe distinct guarded kept₁ ⟨rfl, idle.1⟩

theorem runMigrations_safe (idle : Idle t w) :
    (runnerRules meddles files log₀ t).Safe (fun _ => Idle t) (runMigrations files) w := by
  refine safe_owner idle (fun _ _ => Idle.leaves) fun w ok w₁ idle kept run => ?_
  obtain rfl : w₁ = w := run
  refine ⟨kept, fun u _ => Leaves.refl u w₁, ?_⟩
  cases ok with
  | false => exact fun w₂ moves _ => idle.leaves moves
  | true =>
    refine Rules.Safe.bind (connected_safe distinct guarded idle) kept fun result w kept closed => ?_
    refine safe_owner closed (fun _ _ closed moves => moves.block.trans closed) fun w _ w₁ closed kept run => ?_
    obtain rfl : w₁ = w.leave t := run
    obtain ⟨kept₁, idle, others⟩ := kept.leave t
    exact ⟨kept₁, others, fun w₂ moves _ => idle.leaves moves⟩

theorem runners_verified : (runners meddles files).Verified (runnerTeam meddles files log₀) where
  exec run := run
  env _ moves := moves.elim
  entry := by
    rintro program t w rfl kept idle
    exact Rules.Safe.bind (runMigrations_safe distinct guarded idle) kept
      fun _ w₁ _ idle w₂ moves _ => idle.leaves moves
  drop := by
    intro t w kept
    obtain ⟨kept₁, idle, others⟩ := kept.leave t
    exact ⟨kept₁, fun w₁ moves _ => idle.leaves moves, others⟩

end

theorem names_listMigrationFiles (sha256 : List Char → Units) (dir : Directory) :
    ((listMigrationFiles sha256 dir).map (·.name)).Nodup := by
  have same : (listMigrationFiles sha256 dir).map (·.name) =
      ((dir.entries.filter fun e => FILE_RE e.1).insertionSort fun a b => a.1 ≤ b.1).map Prod.fst := List.map_map
  rw [same, ((List.perm_insertionSort ..).map Prod.fst).nodup_iff]
  exact dir.distinct.sublist (List.filter_sublist.map Prod.fst)

/-- A database with nobody at work in it. -/
def Quiet (created : Bool) (log : List Write) (w : RunnerWorld) : Prop := w = ⟨created, log, none, fun _ => none⟩

/-- In every run of the runners on files of which nothing is missed, what is committed is whole and in order. -/
theorem migrations_whole (meddles : Statement → Bool) (sha256 : List Char → Units) (dir : Directory) (created : Bool)
    (log₀ : List Write) (whole : Whole (listMigrationFiles sha256 dir) log₀)
    (guarded : ∀ file ∈ listMigrationFiles sha256 dir, Guarded meddles file)
    (c : Threads.Config RunnerOp.Res RunnerWorld)
    (reach : (runners meddles (listMigrationFiles sha256 dir)).Reach (Quiet created log₀) c) :
    Whole (listMigrationFiles sha256 dir) c.world.log ∧
      ∃ new, c.world.log = log₀ ++ new ∧ InOrder (listMigrationFiles sha256 dir) log₀ new := by
  have kept : Kept (listMigrationFiles sha256 dir) log₀ c.world := by
    refine reach.inv (runners_verified (names_listMigrationFiles sha256 dir) guarded) fun w start => ?_
    rw [start]
    have idle : ∀ t, Idle t ⟨created, log₀, none, fun _ => none⟩ := fun t => ⟨rfl, nofun⟩
    refine ⟨⟨whole, ⟨[], (List.append_nil _).symm, ?_⟩, fun t opened => absurd rfl opened⟩,
      fun t w₁ moves _ => (idle t).leaves moves⟩
    intro before w after split
    exact absurd split.symm (by simp)
  exact ⟨kept.whole, kept.ordered⟩

/-- A program that runs the text of a file in a transaction of its own. -/
def Applies {α : Type} (file : MigrationFile) (program : Running α) : Prop :=
  ∃ begun run recorded done, program = .op .begin begun ∧ begun true = .op (.script file) run ∧
    run true = .op (.record file) recorded ∧ recorded true = .op .commit done

theorem Applies.bind {α β : Type} {program : Running α} (applies : Applies file program) (next : α → Running β) :
    Applies file (program.bind next) := by
  obtain ⟨begun, run, recorded, done, rfl, script, record, commit⟩ := applies
  exact ⟨fun answer => (begun answer).bind next, fun answer => (run answer).bind next,
    fun answer => (recorded answer).bind next, fun answer => (done answer).bind next, rfl,
    congrArg (Program.bind · next) script, congrArg (Program.bind · next) record, congrArg (Program.bind · next) commit⟩

theorem applies_first {files rest : List MigrationFile} (clear : refusal (file :: rest) = none)
    (transactional : file.transactional = true) : Applies file (applyFiles files (file :: rest)) := by
  have first : Applies file (applyFile file) := by
    unfold applyFile
    rw [if_pos transactional]
    exact ⟨_, _, _, _, rfl, rfl, rfl, rfl⟩
  unfold applyFiles
  rw [clear]
  exact (first.bind _).bind _

/-- Two files, the second not in a transaction. -/
def plainDir : Directory :=
  ⟨[(ascii "2_b.sql", "-- opale:no-transaction\nCREATE INDEX CONCURRENTLY i ON a (x);".toList),
    (ascii "1_a.sql", "CREATE TABLE a (x INT); -- COMMIT;".toList)], by decide⟩

def plainFirst : MigrationFile := ⟨ascii "1_a.sql", "CREATE TABLE a (x INT); -- COMMIT;".toList, [], true⟩

def plainSecond : MigrationFile :=
  ⟨ascii "2_b.sql", "-- opale:no-transaction\nCREATE INDEX CONCURRENTLY i ON a (x);".toList, [], false⟩

theorem list_plainDir : listMigrationFiles (fun _ => []) plainDir = [plainFirst, plainSecond] := by decide

theorem refusal_plain : refusal [plainFirst, plainSecond] = none := by decide

def createPlain : Statement :=
  [.word "CREATE".toList, .word "TABLE".toList, .word "a".toList, .sym '(', .word "x".toList, .word "INT".toList, .sym ')']

theorem statements_plain : statementsOf plainFirst.sql = some [createPlain] := by decide

def ofHistory (s : Statement) : Bool := s.any (· = .word "schema_migrations".toList)

theorem guarded_plain : [plainFirst, plainSecond].all (fun file =>
    ((statementsOf file.sql).getD []).all fun s => kind s = .effect && !ofHistory s) = true := by
  decide

/-- The first file is applied, and the process dies. -/
theorem migrations_whole_two :
    Whole (listMigrationFiles (fun _ => []) plainDir)
        [.effect (ascii "1_a.sql") createPlain, .recorded (ascii "1_a.sql") []] ∧
      ∃ new, [.effect (ascii "1_a.sql") createPlain, .recorded (ascii "1_a.sql") []] = [] ++ new ∧
        InOrder (listMigrationFiles (fun _ => []) plainDir) [] new := by
  have guarded : ∀ file ∈ listMigrationFiles (fun _ => []) plainDir, Guarded ofHistory file := by
    rw [list_plainDir]
    intro file inside _ s member
    have here := List.all_eq_true.mp (List.all_eq_true.mp guarded_plain file inside) s member
    rwa [Bool.and_eq_true, decide_eq_true_eq, Bool.not_eq_true'] at here
  have whole : Whole (listMigrationFiles (fun _ => []) plainDir) [] := fun file _ _ => ⟨nofun, fun _ => rfl⟩
  have told := migrations_whole ofHistory (fun _ => []) plainDir false [] whole guarded
  rw [list_plainDir] at told ⊢
  have r : (runners ofHistory [plainFirst, plainSecond]).Reach (Quiet false [])
      ⟨⟨false, [], none, fun _ => none⟩, fun _ => .ret ()⟩ := .init rfl
  have r := r.begins 0 _ rfl rfl
  have r := r.perform 0 rfl true _ rfl
  have r := r.perform 0 rfl true _ rfl
  have r := r.perform 0 rfl true _ rfl
  have r := r.perform 0 rfl true _ rfl
  have r := r.perform 0 rfl true _ (.inl ⟨.inl rfl, rfl⟩)
  have r := r.perform 0 rfl true _ rfl
  have r := r.perform 0 rfl (some false) _ rfl
  have r := r.perform 0 rfl true _ (.inl rfl)
  have r := r.perform 0 rfl (some []) _ ⟨rfl, .inl ⟨rfl, rfl⟩⟩
  obtain ⟨begun, run, recorded, done, begins, script, record, commit⟩ :=
    (((applies_first refusal_plain rfl).bind _).bind _).bind fun _ => .ret ()
  have r := r.perform 0 begins true _ (.inl rfl)
  let opened : RunnerWorld := ⟨true, [], some 0, Function.update (fun _ => none) 0 (some ⟨[], false⟩)⟩
  have turns : Turns plainFirst.name ⟨[], true, []⟩ [createPlain] true ⟨[], true, [.effect plainFirst.name createPlain]⟩ :=
    .turn (.effect (by decide)) .done
  have ran : runnerExec ofHistory 0 (.script plainFirst) opened true
      (opened.setBlock 0 (some ⟨[.effect plainFirst.name createPlain], false⟩)) := by
    unfold runnerExec
    dsimp only
    rw [statements_plain]
    exact .inr ⟨true, ⟨_, turns, rfl⟩, id⟩
  have r := r.perform 0 script true _ ran
  have r := r.perform 0 record true _ (.inr ⟨rfl, List.not_mem_nil, rfl⟩)
  have r := r.perform 0 commit true _ (.inl rfl)
  exact told _ (r.step (.die 0))

/-- A file whose COMMIT is missed. -/
def commits : MigrationFile :=
  ⟨ascii "1_a.sql", "CREATE TABLE a ();/*/**/'*/COMMIT;--'".toList, ascii "s", true⟩

def commitsDir : Directory := ⟨[(commits.name, commits.sql)], by decide⟩

def create : Statement := [.word "CREATE".toList, .word "TABLE".toList, .word "a".toList, .sym '(', .sym ')']

theorem list_commits : listMigrationFiles (fun _ => ascii "s") commitsDir = [commits] := by decide

theorem statements_commits : statementsOf commits.sql = some [create, [.word "COMMIT".toList]] := by decide

theorem refusal_commits : refusal [commits] = none := by decide

/-- The transaction of the runner is over before it records the file. -/
theorem half_applied : ¬∀ (meddles : Statement → Bool) (sha256 : List Char → Units) (dir : Directory) (created : Bool)
    (log₀ : List Write), Whole (listMigrationFiles sha256 dir) log₀ → ∀ c : Threads.Config RunnerOp.Res RunnerWorld,
    (runners meddles (listMigrationFiles sha256 dir)).Reach (Quiet created log₀) c →
      Whole (listMigrationFiles sha256 dir) c.world.log ∧
        ∃ new, c.world.log = log₀ ++ new ∧ InOrder (listMigrationFiles sha256 dir) log₀ new := by
  intro all
  have told := all (fun _ => false) (fun _ => ascii "s") commitsDir false []
  rw [list_commits] at told
  have r : (runners (fun _ => false) [commits]).Reach (Quiet false [])
      ⟨⟨false, [], none, fun _ => none⟩, fun _ => .ret ()⟩ := .init rfl
  have r := r.begins 0 _ rfl rfl
  have r := r.perform 0 rfl true _ rfl
  have r := r.perform 0 rfl true _ rfl
  have r := r.perform 0 rfl true _ rfl
  have r := r.perform 0 rfl true _ rfl
  have r := r.perform 0 rfl true _ (.inl ⟨.inl rfl, rfl⟩)
  have r := r.perform 0 rfl true _ rfl
  have r := r.perform 0 rfl (some false) _ rfl
  have r := r.perform 0 rfl true _ (.inl rfl)
  have r := r.perform 0 rfl (some []) _ ⟨rfl, .inl ⟨rfl, rfl⟩⟩
  -- the search has found nothing: the file is run
  obtain ⟨begun, run, -, -, begins, script, -⟩ := (((applies_first refusal_commits rfl).bind _).bind _).bind fun _ => .ret ()
  have r := r.perform 0 begins true _ (.inl rfl)
  let opened : RunnerWorld := ⟨true, [], some 0, Function.update (fun _ => none) 0 (some ⟨[], false⟩)⟩
  have turns : Turns commits.name ⟨[], true, []⟩ [create, [.word "COMMIT".toList]] true
      ⟨[.effect commits.name create], false, []⟩ :=
    .turn (.effect (by decide)) (.turn (.commit (by decide)) .done)
  have ran : runnerExec (fun _ => false) 0 (.script commits) opened true
      ({ opened with log := [.effect commits.name create] }.setBlock 0 none) := by
    unfold runnerExec
    dsimp only
    rw [statements_commits]
    exact .inr ⟨true, ⟨_, turns, rfl⟩, id⟩
  have r := r.perform 0 script true _ ran
  have whole : Whole [commits] [] := fun file _ _ => ⟨nofun, fun _ => rfl⟩
  have none_ : effectsOf commits.name [.effect commits.name create] = [] :=
    ((told whole _ r).1 commits List.mem_cons_self rfl).2 (not_recorded_effects _ _ [create])
  cases (effectsOf_effects commits.name [create]).symm.trans none_

end Opale.Migrations
