import Opale.MigrateInstance.CopyTable

namespace Opale.MigrateInstance

variable {V : Type} {cfg : TableConfig} {columns : List Column} {driver : Driver V}

/-- The row `d` is still `old`: only the self-reference may differ, and in the mode `update` what the source overwrites. -/
def Persists (cfg : TableConfig) (columns : List Column) (d old : Row V) : Prop :=
  ∀ c, d c = old c ∨ cfg.selfRefColumn = some c ∨ (cfg.mode = .update ∧ c ∈ columns ∧ c ∉ cfg.conflictTarget)

/-- The row `d` holds all that was given for it. -/
def Holds (columns : List Column) (d row : Row V) : Prop := ∀ c ∈ columns, d c = row c

/-- What the rows `given` to the target have made of the rows `start` that were there. -/
structure Transferred (cfg : TableConfig) (columns : List Column) (start given now : List (Row V)) : Prop where
  arrived : ∀ row ∈ given, ∃ d ∈ now, Conflicts cfg.conflictTarget d row ∨ Holds columns d row
  whole : ∀ row ∈ given, (∀ other ∈ given, Conflicts cfg.conflictTarget other row → other = row) →
    (cfg.mode = .update ∨ ∀ old ∈ start, ¬Conflicts cfg.conflictTarget old row) → ∃ d ∈ now, Holds columns d row
  kept : ∀ old ∈ start, ∃ d ∈ now, Persists cfg columns d old
  origin : ∀ d ∈ now, (∃ old ∈ start, Persists cfg columns d old) ∨ ∃ row ∈ given, Holds columns d row

/-- What becomes of a row given: it is added, it takes the place of another one, or it is left out. -/
inductive Fate where
  | inserted | overwrote | skipped
  deriving DecidableEq

/-- The fate of a row, seen from the rows of the start and those of now. -/
inductive Meets (cfg : TableConfig) (columns : List Column) (start now : List (Row V)) (row : Row V) : Fate → Prop
  | inserted : (∀ old ∈ start, ¬Conflicts cfg.conflictTarget old row) → Meets cfg columns start now row .inserted
  | overwrote {d} : d ∈ now → Conflicts cfg.conflictTarget d row → cfg.mode = .update →
      columns.filter (· ∉ cfg.conflictTarget) ≠ [] → Meets cfg columns start now row .overwrote
  | skipped {d} : d ∈ now → Conflicts cfg.conflictTarget d row →
      (cfg.mode = .skip ∨ columns.filter (· ∉ cfg.conflictTarget) = []) → Meets cfg columns start now row .skipped

/-- Of the rows `given`, `copied` are the ones that were added or have taken the place of another one. -/
def Counted (cfg : TableConfig) (columns : List Column) (start given now : List (Row V)) (copied : Nat) : Prop :=
  ∃ fates, List.Forall₂ (Meets cfg columns start now) given fates ∧ fates.countP (· ≠ Fate.skipped) = copied ∧
    now.length = start.length + fates.count .inserted

/-- The columns of the collision are among those that are given. -/
def Sensible (cfg : TableConfig) (columns : List Column) : Prop :=
  ∀ c ∈ cfg.conflictTarget, c ∈ columns ∧ cfg.selfRefColumn ≠ some c

theorem Conflicts.congr {target : List Column} {a a' b b' : Row V} (conflicts : Conflicts target a b)
    (left : ∀ c ∈ target, a' c = a c) (right : ∀ c ∈ target, b' c = b c) : Conflicts target a' b' := by
  refine ⟨conflicts.1, fun c member => ?_⟩
  rw [left c member, right c member]
  exact conflicts.2 c member

theorem Conflicts.symm {target : List Column} {a b : Row V} (conflicts : Conflicts target a b) : Conflicts target b a := by
  refine ⟨conflicts.1, fun c member => ?_⟩
  obtain ⟨same, value⟩ := conflicts.2 c member
  exact ⟨same.symm, same ▸ value⟩

theorem Persists.refl (row : Row V) : Persists cfg columns row row := fun _ => .inl rfl

theorem transferred_nil (start : List (Row V)) : Transferred cfg columns start [] start where
  arrived _ member := absurd member List.not_mem_nil
  whole _ member := absurd member List.not_mem_nil
  kept old member := ⟨old, member, .refl old⟩
  origin d member := .inl ⟨d, member, .refl d⟩

section

variable {start given now now₁ : List (Row V)} {row new old : Row V} {before after : List (Row V)} {n : Nat}

/-- A collision with the proposed row is one with the given row. -/
theorem Proposed.conflicts_iff (proposed : Proposed driver columns row new) (sensible : Sensible cfg columns) {d : Row V} :
    Conflicts cfg.conflictTarget d new ↔ Conflicts cfg.conflictTarget d row := by
  have same : ∀ c ∈ cfg.conflictTarget, new c = row c := fun c member => proposed.given c (sensible c member).1
  exact ⟨fun conflicts => conflicts.congr (fun _ _ => rfl) fun c member => (same c member).symm,
    fun conflicts => conflicts.congr (fun _ _ => rfl) same⟩

/-- A row is added that collides with none. -/
theorem Transferred.fresh (done : Transferred cfg columns start given now) (proposed : Proposed driver columns row new) :
    Transferred cfg columns start (given ++ [row]) (now ++ [new]) where
  arrived p member := by
    rcases List.mem_append.mp member with earlier | last
    · obtain ⟨d, inside, arrived⟩ := done.arrived p earlier
      exact ⟨d, List.mem_append_left _ inside, arrived⟩
    · rw [List.mem_singleton.mp last]
      exact ⟨new, List.mem_append_right _ (List.mem_singleton_self new), .inr proposed.given⟩
  whole p member alone first := by
    rcases List.mem_append.mp member with earlier | last
    · obtain ⟨d, inside, holds⟩ := done.whole p earlier (fun q known => alone q (List.mem_append_left _ known)) first
      exact ⟨d, List.mem_append_left _ inside, holds⟩
    · rw [List.mem_singleton.mp last]
      exact ⟨new, List.mem_append_right _ (List.mem_singleton_self new), proposed.given⟩
  kept old member := by
    obtain ⟨d, inside, persists⟩ := done.kept old member
    exact ⟨d, List.mem_append_left _ inside, persists⟩
  origin d member := by
    rcases List.mem_append.mp member with earlier | last
    · exact (done.origin d earlier).imp_right fun ⟨p, known, holds⟩ => ⟨p, List.mem_append_left _ known, holds⟩
    · rw [List.mem_singleton.mp last]
      exact .inr ⟨row, List.mem_append_right _ (List.mem_singleton_self row), proposed.given⟩

/-- `d` holds `row` when it collides with it, unless it is an earlier row that does so. -/
theorem Transferred.settled (done : Transferred cfg columns start given now) (sensible : Sensible cfg columns)
    (inside : old ∈ now) (conflicts : Conflicts cfg.conflictTarget old row) (skips : cfg.mode = .skip)
    (alone : ∀ other ∈ given, Conflicts cfg.conflictTarget other row → other = row)
    (first : ∀ old ∈ start, ¬Conflicts cfg.conflictTarget old row) : Holds columns old row := by
  rcases done.origin old inside with ⟨d, known, persists⟩ | ⟨p, known, holds⟩
  · refine absurd (conflicts.congr (fun c member => ?_) fun _ _ => rfl) (first d known)
    rcases persists c with same | selfRef | overwritten
    · exact same.symm
    · exact absurd selfRef (sensible c member).2
    · exact absurd (skips.symm.trans overwritten.1) (by decide)
  · have same : p = row := alone p known (conflicts.congr (fun c member => (holds c (sensible c member).1).symm) fun _ _ => rfl)
    rwa [same] at holds

/-- Nothing is done with a row that collides. -/
theorem Transferred.nothing (done : Transferred cfg columns start given now) (sensible : Sensible cfg columns)
    (inside : old ∈ now) (conflicts : Conflicts cfg.conflictTarget old row)
    (why : cfg.mode = .skip ∨ columns.filter (· ∉ cfg.conflictTarget) = []) :
    Transferred cfg columns start (given ++ [row]) now where
  arrived p member := by
    rcases List.mem_append.mp member with earlier | last
    · exact done.arrived p earlier
    · rw [List.mem_singleton.mp last]
      exact ⟨old, inside, .inl conflicts⟩
  whole p member alone first := by
    have before : ∀ q ∈ given, Conflicts cfg.conflictTarget q p → q = p := fun q known => alone q (List.mem_append_left _ known)
    rcases List.mem_append.mp member with earlier | last
    · exact done.whole p earlier before first
    · obtain rfl := List.mem_singleton.mp last
      refine ⟨old, inside, ?_⟩
      have all (none : columns.filter (· ∉ cfg.conflictTarget) = []) : Holds columns old p := fun c member => by
        have target := List.filter_eq_nil_iff.mp none c member
        exact (conflicts.2 c (by simpa using target)).1
      rcases why with skips | none
      · rcases first with updates | first
        · exact absurd (skips.symm.trans updates) (by decide)
        · exact done.settled sensible inside conflicts skips before first
      · exact all none
  kept := done.kept
  origin d member := (done.origin d member).imp_right fun ⟨p, known, holds⟩ => ⟨p, List.mem_append_left _ known, holds⟩

/-- The row that an update leaves, and what becomes of what was known of the old one. -/
theorem overwritten_holds (proposed : Proposed driver columns row new)
    (conflicts : Conflicts cfg.conflictTarget old new) :
    Holds columns (overwritten (columns.filter (· ∉ cfg.conflictTarget)) old new) row := by
  intro c member
  unfold overwritten
  by_cases target : c ∈ cfg.conflictTarget
  · rw [if_neg (by simp [target]), (conflicts.2 c target).1]
    exact proposed.given c member
  · rw [if_pos (by simp [target, member])]
    exact proposed.given c member

theorem overwritten_target {c : Column} (target : c ∈ cfg.conflictTarget) :
    overwritten (columns.filter (· ∉ cfg.conflictTarget)) old new c = old c := if_neg (by simp [target])

/-- A row that collides takes the place of the other one. -/
theorem Transferred.updated (done : Transferred cfg columns start given (before ++ old :: after))
    (sensible : Sensible cfg columns) (proposed : Proposed driver columns row new)
    (conflicts : Conflicts cfg.conflictTarget old new) (updates : cfg.mode = .update) :
    Transferred cfg columns start (given ++ [row])
      (before ++ overwritten (columns.filter (· ∉ cfg.conflictTarget)) old new :: after) := by
  set replaced := overwritten (columns.filter (· ∉ cfg.conflictTarget)) old new with is
  have here : replaced ∈ before ++ replaced :: after := List.mem_append_right _ List.mem_cons_self
  have target : ∀ c ∈ cfg.conflictTarget, replaced c = old c := fun c member => overwritten_target member
  have holds : Holds columns replaced row := overwritten_holds proposed conflicts
  have collides : Conflicts cfg.conflictTarget old row := (proposed.conflicts_iff sensible).mp conflicts
  have stays {d : Row V} (inside : d ∈ before ++ old :: after) : d ∈ before ++ replaced :: after ∨ d = old := by
    rcases List.mem_append.mp inside with earlier | rest
    · exact .inl (List.mem_append_left _ earlier)
    · rcases List.mem_cons.mp rest with same | later
      · exact .inr same
      · exact .inl (List.mem_append_right _ (List.mem_cons_of_mem _ later))
  refine ⟨fun p member => ?_, fun p member alone first => ?_, fun p member => ?_, fun d member => ?_⟩
  · rcases List.mem_append.mp member with earlier | last
    · obtain ⟨d, inside, arrived⟩ := done.arrived p earlier
      rcases stays inside with inside | rfl
      · exact ⟨d, inside, arrived⟩
      · refine ⟨replaced, here, .inl ?_⟩
        rcases arrived with met | held
        · exact met.congr target fun _ _ => rfl
        · exact ⟨collides.1, fun c member => by
            rw [target c member]
            exact ⟨held c (sensible c member).1, (collides.2 c member).2⟩⟩
    · rw [List.mem_singleton.mp last]
      exact ⟨replaced, here, .inr holds⟩
  · rcases List.mem_append.mp member with earlier | last
    · obtain ⟨d, inside, held⟩ := done.whole p earlier (fun q known => alone q (List.mem_append_left _ known)) first
      rcases stays inside with inside | rfl
      · exact ⟨d, inside, held⟩
      · have met : Conflicts cfg.conflictTarget row p :=
          collides.symm.congr (fun _ _ => rfl) fun c member => (held c (sensible c member).1).symm
        have same := alone row (List.mem_append_right _ (List.mem_singleton_self row)) met
        exact ⟨replaced, here, same ▸ holds⟩
    · rw [List.mem_singleton.mp last]
      exact ⟨replaced, here, holds⟩
  · obtain ⟨d, inside, persists⟩ := done.kept p member
    rcases stays inside with inside | rfl
    · exact ⟨d, inside, persists⟩
    · refine ⟨replaced, here, fun c => ?_⟩
      by_cases changed : c ∈ columns.filter (· ∉ cfg.conflictTarget)
      · have both := List.mem_filter.mp changed
        exact .inr (.inr ⟨updates, both.1, by simpa using both.2⟩)
      · have same : replaced c = d c := if_neg changed
        rw [same]
        exact persists c
  · have known : d ∈ before ++ old :: after ∨ d = replaced := by
      rcases List.mem_append.mp member with earlier | rest
      · exact .inl (List.mem_append_left _ earlier)
      · rcases List.mem_cons.mp rest with same | later
        · exact .inr same
        · exact .inl (List.mem_append_right _ (List.mem_cons_of_mem _ later))
    rcases known with inside | rfl
    · exact (done.origin d inside).imp_right fun ⟨p, known, held⟩ => ⟨p, List.mem_append_left _ known, held⟩
    · exact .inr ⟨row, List.mem_append_right _ (List.mem_singleton_self row), holds⟩

/-- A row that persists collides as it did. -/
theorem Persists.conflicts {d : Row V} (persists : Persists cfg columns d old) (sensible : Sensible cfg columns)
    (conflicts : Conflicts cfg.conflictTarget old row) : Conflicts cfg.conflictTarget d row := by
  refine conflicts.congr (fun c member => ?_) fun _ _ => rfl
  rcases persists c with same | selfRef | overwritten
  · exact same
  · exact absurd selfRef (sensible c member).2
  · exact absurd member overwritten.2.2

theorem Transferred.insertsRow (done : Transferred cfg columns start given now) (sensible : Sensible cfg columns)
    (inserts : InsertsRow driver cfg columns row now now₁ n) : Transferred cfg columns start (given ++ [row]) now₁ := by
  cases inserts with
  | fresh proposed _ => exact done.fresh proposed
  | nothing proposed inside conflicts why =>
    exact done.nothing sensible inside ((proposed.conflicts_iff sensible).mp conflicts) why
  | updated proposed conflicts updates _ => exact done.updated sensible proposed conflicts updates

/-- What collides with a row goes on to do so. -/
theorem Meets.later {fate : Fate} (meets : Meets cfg columns start now row fate)
    (later : ∀ d ∈ now, ∃ d' ∈ now₁, ∀ c ∈ cfg.conflictTarget, d' c = d c) : Meets cfg columns start now₁ row fate := by
  cases meets with
  | inserted first => exact .inserted first
  | overwrote inside conflicts updates some_ =>
    obtain ⟨d', inside', same⟩ := later _ inside
    exact .overwrote inside' (conflicts.congr same fun _ _ => rfl) updates some_
  | skipped inside conflicts why =>
    obtain ⟨d', inside', same⟩ := later _ inside
    exact .skipped inside' (conflicts.congr same fun _ _ => rfl) why

theorem InsertsRow.later (inserts : InsertsRow driver cfg columns row now now₁ n) :
    ∀ d ∈ now, ∃ d' ∈ now₁, ∀ c ∈ cfg.conflictTarget, d' c = d c := by
  intro d member
  cases inserts with
  | fresh => exact ⟨d, List.mem_append_left _ member, fun _ _ => rfl⟩
  | nothing => exact ⟨d, member, fun _ _ => rfl⟩
  | @updated before old after new _ _ _ _ =>
    rcases List.mem_append.mp member with earlier | rest
    · exact ⟨d, List.mem_append_left _ earlier, fun _ _ => rfl⟩
    rcases List.mem_cons.mp rest with rfl | later
    · exact ⟨_, List.mem_append_right _ List.mem_cons_self, fun c target => overwritten_target target⟩
    · exact ⟨d, List.mem_append_right _ (List.mem_cons_of_mem _ later), fun _ _ => rfl⟩

/-- The number that one row adds to `rowCount` is that of its fate. -/
theorem Transferred.meets (done : Transferred cfg columns start given now) (sensible : Sensible cfg columns)
    (inserts : InsertsRow driver cfg columns row now now₁ n) : ∃ fate, Meets cfg columns start now₁ row fate ∧
      [fate].countP (· ≠ Fate.skipped) = n ∧ now₁.length = now.length + [fate].count .inserted := by
  cases inserts with
  | fresh proposed none =>
    refine ⟨.inserted, .inserted fun old member conflicts => ?_, rfl, List.length_append⟩
    obtain ⟨d, inside, persists⟩ := done.kept old member
    exact none d inside ((proposed.conflicts_iff sensible).mpr (persists.conflicts sensible conflicts))
  | nothing proposed inside conflicts why =>
    exact ⟨.skipped, .skipped inside ((proposed.conflicts_iff sensible).mp conflicts) why, rfl, rfl⟩
  | updated proposed conflicts updates some_ =>
    have collides := (proposed.conflicts_iff sensible).mp conflicts
    refine ⟨.overwrote, .overwrote (List.mem_append_right _ List.mem_cons_self)
      (collides.congr (fun c target => overwritten_target target) fun _ _ => rfl) updates some_, rfl, ?_⟩
    rw [List.length_append, List.length_append]
    rfl

theorem Counted.insertsRow {copied : Nat} (counted : Counted cfg columns start given now copied)
    (done : Transferred cfg columns start given now) (sensible : Sensible cfg columns)
    (inserts : InsertsRow driver cfg columns row now now₁ n) : Counted cfg columns start (given ++ [row]) now₁ (copied + n) := by
  obtain ⟨fates, meets, count, length⟩ := counted
  obtain ⟨fate, last, one, longer⟩ := done.meets sensible inserts
  refine ⟨fates ++ [fate], ?_, ?_, ?_⟩
  · exact List.rel_append (meets.imp fun _ _ earlier => earlier.later inserts.later) (.cons last .nil)
  · rw [List.countP_append, count, one]
  · rw [longer, length, List.count_append, Nat.add_assoc]

/-- One INSERT. -/
theorem Counted.inserts {rows : List (Row V)} {copied : Nat} (counted : Counted cfg columns start given now copied)
    (done : Transferred cfg columns start given now) (sensible : Sensible cfg columns)
    (inserts : Inserts driver cfg columns rows now now₁ n) :
    Transferred cfg columns start (given ++ rows) now₁ ∧ Counted cfg columns start (given ++ rows) now₁ (copied + n) := by
  induction inserts generalizing given copied with
  | nil => exact ⟨by rwa [List.append_nil], by rwa [List.append_nil]⟩
  | cons first _ ih =>
    obtain ⟨all, count⟩ := ih (counted.insertsRow done sensible first) (done.insertsRow sensible first)
    rw [List.append_assoc, List.singleton_append] at all count
    rw [Nat.add_assoc] at count
    exact ⟨all, count⟩

theorem counted_nil (start : List (Row V)) : Counted cfg columns start [] start 0 := ⟨[], .nil, rfl, rfl⟩

theorem Counted.le {copied : Nat} (counted : Counted cfg columns start given now copied) : copied ≤ given.length := by
  obtain ⟨fates, meets, rfl, -⟩ := counted
  rw [meets.length_eq]
  exact List.countP_le_length

/-- In the mode `skip`, nothing comes of rows that collide with what was there. -/
theorem Counted.of_known {copied : Nat} (counted : Counted cfg columns start given now copied) (skips : cfg.mode = .skip)
    (known : ∀ row ∈ given, ∃ old ∈ start, Conflicts cfg.conflictTarget old row) : copied = 0 ∧ now.length = start.length := by
  obtain ⟨fates, meets, rfl, length⟩ := counted
  have all : ∀ fate ∈ fates, fate = .skipped := by
    intro fate member
    obtain ⟨i, inside, rfl⟩ := List.getElem_of_mem member
    have meets := meets.get (meets.length_eq ▸ inside) inside
    cases is : fates.get ⟨i, inside⟩ with
    | skipped => exact is
    | inserted =>
      rw [is] at meets
      cases meets with
      | inserted first =>
        obtain ⟨old, earlier, conflicts⟩ := known _ (List.get_mem given _)
        exact absurd conflicts (first old earlier)
    | overwrote =>
      rw [is] at meets
      cases meets with
      | overwrote _ _ updates => exact absurd (skips.symm.trans updates) (by decide)
  have none : fates.count .inserted = 0 := List.count_eq_zero.mpr fun member => absurd (all _ member) (by decide)
  refine ⟨List.countP_eq_zero.mpr fun fate member => ?_, by rw [length, none, Nat.add_zero]⟩
  rw [all fate member]
  decide

theorem Counted.map {copied : Nat} (counted : Counted cfg columns start given now copied) (change : Row V → Row V)
    (only : ∀ d, ∀ c ∈ cfg.conflictTarget, change d c = d c) : Counted cfg columns start given (now.map change) copied := by
  obtain ⟨fates, meets, count, length⟩ := counted
  refine ⟨fates, meets.imp fun _ _ earlier => earlier.later fun d member => ?_, count, by rw [List.length_map, length]⟩
  exact ⟨change d, List.mem_map_of_mem member, only d⟩

/-- A change of the self-references alone. -/
theorem Transferred.map {selfRef : Column} (done : Transferred cfg columns start given now) (sensible : Sensible cfg columns)
    (mine : cfg.selfRefColumn = some selfRef) (apart : selfRef ∉ columns) (change : Row V → Row V)
    (only : ∀ d c, c ≠ selfRef → change d c = d c) : Transferred cfg columns start given (now.map change) := by
  have target (d : Row V) : ∀ c ∈ cfg.conflictTarget, change d c = d c := fun c member =>
    only d c fun same => (sensible c member).2 (same ▸ mine)
  have given' {d row : Row V} (holds : Holds columns d row) : Holds columns (change d) row := fun c member =>
    (only d c fun same => apart (same ▸ member)).trans (holds c member)
  have persists {d old : Row V} (persists : Persists cfg columns d old) : Persists cfg columns (change d) old := by
    intro c
    by_cases same : c = selfRef
    · exact .inr (.inl (same ▸ mine))
    · rw [only d c same]
      exact persists c
  refine ⟨fun p member => ?_, fun p member alone first => ?_, fun p member => ?_, fun d member => ?_⟩
  · obtain ⟨d, inside, arrived⟩ := done.arrived p member
    exact ⟨change d, List.mem_map_of_mem inside, arrived.imp (fun met => met.congr (target d) fun _ _ => rfl) given'⟩
  · obtain ⟨d, inside, holds⟩ := done.whole p member alone first
    exact ⟨change d, List.mem_map_of_mem inside, given' holds⟩
  · obtain ⟨d, inside, still⟩ := done.kept p member
    exact ⟨change d, List.mem_map_of_mem inside, persists still⟩
  · obtain ⟨d, inside, rfl⟩ := List.mem_map.mp member
    exact (done.origin d inside).imp (fun ⟨old, known, still⟩ => ⟨old, known, persists still⟩)
      fun ⟨p, known, holds⟩ => ⟨p, known, given' holds⟩

end

end Opale.MigrateInstance
