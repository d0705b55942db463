import Opale.Effects.Meanwhile
import Opale.MigrateInstance.Transferred

namespace Opale.MigrateInstance

open Relations

variable {V : Type}

/-- One copy of a table: what it meets, and of the rows of the source those that stay there all along (`stays`)
and those that are ever there (`seen`). The columns of the key and of the collision are on both sides, and
the driver hands over keys as they are. -/
structure Setting (V : Type) where
  driver : Driver V
  cfg : TableConfig
  srcCols : List Column
  target : Table V
  stays : Row V → Prop
  seen : Row V → Prop
  fit : ∀ c ∈ cfg.conflictTarget ++ target.primaryKey, c ∈ srcCols ∧ c ∈ target.columns ∧ cfg.selfRefColumn ≠ some c
  keys : ∀ c ∈ target.primaryKey, ∀ v, driver.carry c v = v

namespace Setting

variable (s : Setting V)

def key (row : Row V) : List (Cell V) := keyOf s.target.primaryKey row

def plan (batch : Option Int) : Plan :=
  let plan : Plan := ⟨s.cfg, s.srcCols.filter (s.target.columns.contains ·), s.target.primaryKey, none⟩
  { plan with batchSize := batchSize batch plan.insertColumns }

def insertColumns : List Column := (s.plan none).insertColumns

theorem mem_insertColumns {c : Column} (source : c ∈ s.srcCols) (target : c ∈ s.target.columns)
    (apart : s.cfg.selfRefColumn ≠ some c) : c ∈ s.insertColumns := by
  have both : c ∈ s.srcCols.filter (s.target.columns.contains ·) := List.mem_filter.mpr ⟨source, by simpa using target⟩
  unfold insertColumns Plan.insertColumns
  split
  · exact both
  · next selfRef is =>
    have mine : s.cfg.selfRefColumn = some selfRef := is
    refine List.mem_filter.mpr ⟨both, decide_eq_true ?_⟩
    rintro rfl
    exact apart mine

theorem selfRef_not_mem {selfRef : Column} (mine : s.cfg.selfRefColumn = some selfRef) : selfRef ∉ s.insertColumns := by
  have is : s.insertColumns = (s.srcCols.filter (s.target.columns.contains ·)).filter (· ≠ selfRef) := by
    have same : (s.plan none).cfg.selfRefColumn = some selfRef := mine
    unfold insertColumns Plan.insertColumns
    rw [same]
    rfl
  rw [is, List.mem_filter]
  simp

theorem sensible : Sensible s.cfg s.insertColumns := by
  intro c member
  obtain ⟨source, target, apart⟩ := s.fit c (List.mem_append_left _ member)
  exact ⟨s.mem_insertColumns source target apart, apart⟩

theorem key_carried (row : Row V) : s.key (s.driver.carried row) = s.key row :=
  List.map_congr_left fun c member => s.keys c member (row c)

/-- The source at any time of the copy. -/
def Source (w : CopyWorld V) : Prop :=
  ∃ table, w.source = some table ∧ table.columns = s.srcCols ∧ Keyed s.key table.rows ∧
    (∀ row, s.stays row → row ∈ table.rows) ∧ ∀ row ∈ table.rows, s.seen row

/-- What others may do meanwhile: they write to the source, the target is the copy's own. -/
structure Changes (w w₁ : CopyWorld V) : Prop where
  target : w₁.target = w.target
  block : w₁.block = w.block
  read : w₁.read = w.read
  source : s.Source w → s.Source w₁

/-- What others do not take away. -/
def Steady (P : CopyWorld V → Prop) : Prop := ∀ w w₁, s.Changes w w₁ → P w → P w₁

/-- The transaction is open on these rows, and nothing of it shows. -/
def Within (P : List (Row V) → List (Row V) → Prop) (w : CopyWorld V) : Prop :=
  w.target = some s.target ∧ ∃ rows, w.block = .opened rows ∧ P w.read rows

variable [LinearOrder V]

/-- What a finished copy has made of the rows of the target. -/
structure Complete (read rows : List (Row V)) : Prop where
  ordered : read.Pairwise fun a b => s.key a < s.key b
  all : ∀ row, s.stays row → row ∈ read
  seen : ∀ row ∈ read, s.seen row
  transferred : Transferred s.cfg s.insertColumns s.target.rows (read.map s.driver.carried) rows
  restored : ∀ selfRef, s.cfg.selfRefColumn = some selfRef → ∀ row, s.stays row → row selfRef ≠ ⊤ →
    ∀ d ∈ rows, s.key d = s.key row → d selfRef = s.driver.carry selfRef (row selfRef)

/-- The target is as it was, or it holds the whole copy. -/
def Whole (w : CopyWorld V) : Prop :=
  w.target = some s.target ∨ ∃ rows, w.target = some { s.target with rows := rows } ∧ s.Complete w.read rows

def rules : Rules (CopyOp.Res (V := V)) (CopyWorld V) where
  exec := copyExec s.driver s.cfg
  inv w := s.Source w ∧ s.Whole w
  rely := s.Changes
  guarantee _ _ _ _ := True
  rely_refl _ := ⟨rfl, rfl, rfl, id⟩
  rely_trans first second := ⟨second.target.trans first.target, second.block.trans first.block,
    second.read.trans first.read, second.source ∘ first.source⟩

end Setting

/-- What is known after a program that may throw. -/
def Ended {α : Type} (Q : α → CopyWorld V → Prop) (E : CopyWorld V → Prop) : Except Fault α → CopyWorld V → Prop
  | .ok value, w => Q value w
  | .error _, w => E w

section

variable {s : Setting V} {α : Type}

theorem quoting_eq {idents : List String} {program : Copying V (Except Fault α)}
    (plain : idents.all quotable = true) : quoting idents program = program := if_pos plain

theorem steady_true : s.Steady fun _ => True := fun _ _ _ _ => trivial

theorem within_steady {P : List (Row V) → List (Row V) → Prop} : s.Steady (s.Within P) := by
  rintro w w₁ moves ⟨target, rows, block, holds⟩
  exact ⟨moves.target.trans target, rows, moves.block.trans block, moves.read ▸ holds⟩

/-- A failed attempt leaves the page to be inserted, or a transaction in which nothing succeeds. -/
def Pending (s : Setting V) (P : List (Row V) → List (Row V) → Prop) (w : CopyWorld V) : Prop :=
  s.Within P w ∨ w.target = some s.target ∧ w.block = .aborted

theorem pending_steady {P : List (Row V) → List (Row V) → Prop} : s.Steady (Pending s P) := by
  rintro w w₁ moves (inside | ⟨target, block⟩)
  · exact .inl (within_steady w w₁ moves inside)
  · exact .inr ⟨moves.target.trans target, moves.block.trans block⟩

/-- Nothing has been done yet. -/
def Fresh (s : Setting V) (w : CopyWorld V) : Prop := w.target = some s.target ∧ w.block = .idle ∧ w.read = []

theorem fresh_steady : s.Steady (Fresh s) := by
  rintro w w₁ moves ⟨target, block, read⟩
  exact ⟨moves.target.trans target, moves.block.trans block, moves.read.trans read⟩

variable [LinearOrder V]

/-- The rule for one statement. -/
theorem ask_safe {o : CopyOp V} {P : CopyWorld V → Prop} {Q : o.Answer → CopyWorld V → Prop} {E : CopyWorld V → Prop}
    (steady : s.Steady P) (steadyQ : ∀ answer, s.Steady (Q answer)) (steadyE : s.Steady E)
    (ok : ∀ w answer w₁, s.rules.inv w → P w → Answers s.driver s.cfg o w answer w₁ → s.rules.inv w₁ ∧ Q answer w₁)
    (error : ∀ w w₁, s.rules.inv w → P w → Fails o w w₁ → s.rules.inv w₁ ∧ E w₁) {w : CopyWorld V} (holds : P w) :
    s.rules.Safe (Ended Q E) (Program.perform o) w := by
  intro w₁ moves kept answer w₂ run
  have here := steady w w₁ moves holds
  cases run with
  | ok answers =>
    obtain ⟨inv, post⟩ := ok _ _ _ kept here answers
    exact ⟨inv, trivial, fun w₃ later _ => steadyQ _ w₂ w₃ later post⟩
  | error fails =>
    obtain ⟨inv, post⟩ := error _ _ kept here fails
    exact ⟨inv, trivial, fun w₃ later _ => steadyE w₂ w₃ later post⟩

/-- The rule for a statement that is tried again: what it starts from is what a failed attempt leaves. -/
theorem retrying_safe {o : CopyOp V} {P : CopyWorld V → Prop} {Q : o.Answer → CopyWorld V → Prop}
    (steady : s.Steady P) (steadyQ : ∀ answer, s.Steady (Q answer))
    (ok : ∀ w answer w₁, s.rules.inv w → P w → Answers s.driver s.cfg o w answer w₁ → s.rules.inv w₁ ∧ Q answer w₁)
    (error : ∀ w w₁, s.rules.inv w → P w → Fails o w w₁ → s.rules.inv w₁ ∧ P w₁) (lastErr : Fault) (left : Nat)
    {w : CopyWorld V} (holds : P w) : s.rules.Safe (Ended Q fun _ => True) (retrying o lastErr left) w := by
  induction left generalizing w lastErr with
  | zero => exact fun _ _ _ => trivial
  | succ left ih =>
    intro w₁ moves kept answer w₂ run
    have here := steady w w₁ moves holds
    cases run with
    | ok answers =>
      obtain ⟨inv, post⟩ := ok _ _ _ kept here answers
      exact ⟨inv, trivial, fun w₃ later _ => steadyQ _ w₂ w₃ later post⟩
    | error fails =>
      rename_i fault
      obtain ⟨inv, post⟩ := error _ _ kept here fails
      cases fault with
      | lasting => exact ⟨inv, trivial, fun _ _ _ => trivial⟩
      | transient => exact ⟨inv, trivial, ih .transient post⟩

theorem quoting_safe {idents : List String} {program : Copying V (Except Fault α)} {Q : α → CopyWorld V → Prop}
    {w : CopyWorld V} (safe : s.rules.Safe (Ended Q fun _ => True) program w) :
    s.rules.Safe (Ended Q fun _ => True) (quoting idents program) w := by
  unfold quoting
  split
  · exact safe
  · exact fun _ _ _ => trivial

/-- The counts of a copy that has not ended, and what it has made of the rows so far. -/
structure Delivered (s : Setting V) (progress : Progress) (read rows : List (Row V)) : Prop where
  seen : ∀ row ∈ read, s.seen row
  total : progress.total = read.length
  inserted : Counted s.cfg s.insertColumns s.target.rows (read.map s.driver.carried) rows progress.inserted
  transferred : Transferred s.cfg s.insertColumns s.target.rows (read.map s.driver.carried) rows

/-- A copy at a cursor. -/
def At (s : Setting V) (cursor : Option (List (Cell V))) (progress : Progress) (read rows : List (Row V)) : Prop :=
  Scanned s.key s.stays cursor read ∧ Delivered s progress read rows

/-- A copy that has read all the pages. -/
def Filled (s : Setting V) (progress : Progress) (read rows : List (Row V)) : Prop :=
  (read.Pairwise fun a b => s.key a < s.key b) ∧ (∀ row, s.stays row → row ∈ read) ∧ Delivered s progress read rows

/-- The page `page` has been read and not been inserted yet. -/
structure Paged (s : Setting V) (limit : Option Nat) (progress : Progress) (page read rows : List (Row V)) : Prop where
  ordered : read.Pairwise fun a b => s.key a < s.key b
  next : ∀ last, page.getLast? = some last → Scanned s.key s.stays (some (s.key last)) read
  short : limit.any (page.length < ·) → ∀ row, s.stays row → row ∈ read
  bounded : ∃ n, limit = some n
  earlier : ∃ earlier, read = earlier ++ page ∧ (∀ row ∈ page, s.seen row) ∧ Delivered s progress earlier rows

variable {limit : Option Nat} {cursor : Option (List (Cell V))} {progress : Progress} {w w₁ : CopyWorld V}

theorem select_within {columns : List Column} {answer : List (Row V)} (kept : s.rules.inv w) (here : s.Within (At s cursor progress) w)
    (answers : Answers s.driver s.cfg (.select columns s.target.primaryKey cursor limit) w answer w₁) :
    s.rules.inv w₁ ∧ ∃ page, answer = page.map s.driver.carried ∧ s.Within (Paged s limit progress page) w₁ := by
  obtain ⟨target, rows, block, scanned, delivered⟩ := here
  obtain ⟨source, whole⟩ := kept
  obtain ⟨table, found, columns, keyed, stay, seen⟩ := source
  cases answers with
  | @select _ _ _ limit _ table' page found' _ paged =>
    obtain rfl : table = table' := Option.some.inj (found.symm.trans found')
    refine ⟨⟨⟨table, found, columns, keyed, stay, seen⟩, .inl target⟩, page, rfl, target, rows, block, ?_⟩
    refine ⟨scanned.appended paged keyed, fun last ends => scanned.next paged keyed stay ends, fun short row stays => ?_,
      ⟨limit, rfl⟩, w.read, rfl, fun row member => seen row (paged.mem member).1, delivered⟩
    exact scanned.all paged keyed stay (of_decide_eq_true short) stays

/-- A statement that is no COMMIT leaves the target as it is when it fails. -/
theorem fails_pending {o : CopyOp V} {P : List (Row V) → List (Row V) → Prop} (statement : o ≠ .commit) (kept : s.rules.inv w)
    (here : Pending s P w) (fails : Fails o w w₁) : s.rules.inv w₁ ∧ Pending s P w₁ := by
  have target : w.target = some s.target := here.elim And.left And.left
  cases fails with
  | harmless => exact ⟨kept, here⟩
  | aborted => exact ⟨⟨kept.1, .inl target⟩, .inr ⟨target, rfl⟩⟩
  | committed => exact absurd rfl statement

/-- What the loop knows after an INSERT of the page. -/
def Inserted (s : Setting V) (limit : Option Nat) (progress : Progress) (page read rows : List (Row V)) : Prop :=
  (∀ last, page.getLast? = some last → At s (some (s.key last)) progress read rows) ∧
    (limit.any (page.length < ·) → Filled s progress read rows)

theorem insert_within {page : List (Row V)} {count : Nat} (kept : s.rules.inv w)
    (here : Pending s (Paged s limit progress page) w)
    (answers : Answers s.driver s.cfg (.insert s.insertColumns (page.map s.driver.carried)) w count w₁) :
    s.rules.inv w₁ ∧ s.Within (Inserted s limit ⟨progress.total + page.length, progress.inserted + count⟩ page) w₁ := by
  cases answers with
  | @insert _ _ _ table before after _ block _ inserts _ _ =>
    rcases here with ⟨target, rows, opened, paged⟩ | ⟨_, aborted⟩
    swap
    · cases block.symm.trans aborted
    obtain rfl : before = rows := by
      cases block.symm.trans opened
      rfl
    obtain ⟨earlier, is, seen, delivered⟩ := paged.earlier
    obtain ⟨transferred, counted⟩ := delivered.inserted.inserts delivered.transferred s.sensible inserts
    rw [← List.map_append, ← is] at transferred counted
    have now : Delivered s ⟨progress.total + page.length, progress.inserted + count⟩ w.read after := by
      refine ⟨fun row member => ?_, ?_, counted, transferred⟩
      · rw [is] at member
        exact (List.mem_append.mp member).elim (delivered.seen row) (seen row)
      · rw [is, List.length_append, ← delivered.total]
    refine ⟨⟨kept.1, .inl target⟩, target, after, rfl, fun last ends => ⟨paged.next last ends, now⟩, fun short => ?_⟩
    exact ⟨paged.ordered, paged.short short, now⟩

/-- So many rows have been read, no two of one key. -/
def Long (s : Setting V) (n : Nat) (w : CopyWorld V) : Prop :=
  (w.read.Pairwise fun a b => s.key a < s.key b) ∧ (∀ row ∈ w.read, s.seen row) ∧ n ≤ w.read.length

theorem long_steady {n : Nat} : s.Steady (Long s n) := fun w w₁ moves long => by
  unfold Long
  rwa [moves.read]

/-- A loop that may have run out of fuel, after `n` rows at least. -/
def Loop (s : Setting V) (n : Nat) (Q : Progress → CopyWorld V → Prop) : Option (Except Fault Progress) → CopyWorld V → Prop
  | none, w => Long s n w
  | some result, w => Ended Q (fun _ => True) result w

theorem batchSize_pos {batch : Option Int} {insertColumns : List Column} {n : Nat} (is : batchSize batch insertColumns = some n) : 0 < n := by
  obtain ⟨size, -, rfl⟩ := Option.map_eq_some_iff.mp is
  omega

theorem copyRows_safe (batch : Option Int) (fuel : Nat) {n : Nat} (kept : s.rules.inv w) (here : s.Within (At s cursor progress) w)
    (enough : n ≤ progress.total + fuel) : s.rules.Safe (Loop s n fun progress => s.Within (Filled s progress)) (copyRows (s.plan batch) fuel cursor progress) w := by
  induction fuel generalizing w cursor progress with
  | zero =>
    obtain ⟨target, rows, block, scanned, delivered⟩ := here
    exact fun w₁ moves _ => long_steady w w₁ moves ⟨scanned.ordered, delivered.seen, delivered.total ▸ enough⟩
  | succ fuel ih =>
    have selects : s.rules.Safe (Ended (fun answer w => ∃ page, answer = page.map s.driver.carried ∧
        s.Within (Paged s (s.plan batch).batchSize progress page) w) fun _ => True)
        (withRetry (.select (s.plan batch).columns (s.plan batch).pk cursor (s.plan batch).batchSize)) w := by
      refine retrying_safe within_steady ?_ (fun _ _ _ kept here answers => select_within kept here answers) ?_ .lasting 5 here
      · rintro answer w w₁ moves ⟨page, is, inside⟩
        exact ⟨page, is, within_steady w w₁ moves inside⟩
      · intro w w₁ kept here fails
        cases fails with
        | harmless => exact ⟨kept, here⟩
        | aborted statement => cases statement
    refine Rules.Safe.bind (quoting_safe selects) kept fun answer w kept ended => ?_
    cases answer with
    | error fault => exact fun _ _ _ => trivial
    | ok answer =>
    obtain ⟨page, rfl, inside⟩ := ended
    dsimp only
    rw [List.getLast?_map]
    cases ends : page.getLast? with
    | none =>
      have empty : page = [] := List.getLast?_eq_none_iff.mp ends
      intro w₁ moves _
      obtain ⟨target, rows, block, paged⟩ := within_steady w w₁ moves inside
      obtain ⟨earlier, is, -, delivered⟩ := paged.earlier
      obtain ⟨n, limit⟩ := paged.bounded
      rw [empty, List.append_nil] at is
      refine ⟨target, rows, block, paged.ordered, paged.short ?_, is ▸ delivered⟩
      rw [limit, empty]
      exact decide_eq_true (batchSize_pos limit)
    | some last =>
    have inserts : s.rules.Safe (Ended (fun count => s.Within (Inserted s (s.plan batch).batchSize
        ⟨progress.total + page.length, progress.inserted + count⟩ page)) fun _ => True)
        (withRetry (.insert (s.plan batch).insertColumns (page.map s.driver.carried))) w :=
      retrying_safe pending_steady (fun _ => within_steady) (fun _ _ _ kept here answers => insert_within kept here answers)
        (fun _ _ kept here fails => fails_pending (fun same => by cases same) kept here fails) .lasting 5 (.inl inside)
    refine Rules.Safe.bind (quoting_safe inserts) kept fun count w kept ended => ?_
    cases count with
    | error fault => exact fun _ _ _ => trivial
    | ok count =>
    rw [List.length_map]
    dsimp only
    split
    · next short =>
      intro w₁ moves _
      obtain ⟨target, rows, block, -, filled⟩ := within_steady w w₁ moves ended
      exact ⟨target, rows, block, filled short⟩
    · obtain ⟨target, rows, block, continues, -⟩ := ended
      have at_ := continues last ends
      have cursor : keyOf (s.plan batch).pk (s.driver.carried last) = s.key last := s.key_carried last
      rw [cursor]
      have longer : 0 < page.length := List.length_pos_of_mem (List.mem_of_getLast? ends)
      have enough : n ≤ progress.total + page.length + fuel := by omega
      exact ih kept ⟨target, rows, block, at_⟩ enough

/-- The references of the rows `refs` are those of the source. -/
def Restored (s : Setting V) (selfRef : Column) (refs rows : List (Row V)) : Prop :=
  ∀ row ∈ refs, ∀ d ∈ rows, s.key d = s.key row → d selfRef = s.driver.carry selfRef (row selfRef)

theorem Restored.step {selfRef : Column} {refs rows : List (Row V)} {row : Row V} (restored : Restored s selfRef refs rows)
    (mine : s.cfg.selfRefColumn = some selfRef) (apart : ∀ p ∈ refs, s.key p ≠ s.key row) :
    Restored s selfRef (refs ++ [row])
      (referred selfRef (s.driver.carried row selfRef) s.target.primaryKey (s.key row) rows) := by
  have same (d : Row V) (value : Cell V) : s.key (Function.update d selfRef value) = s.key d := by
    refine List.map_congr_left fun c member => ?_
    have apart : c ≠ selfRef := by
      rintro rfl
      exact (s.fit c (List.mem_append_right _ member)).2.2 mine
    rw [Function.update_of_ne apart]
  intro p member d' inside equal
  obtain ⟨d, known, rfl⟩ := List.mem_map.mp inside
  by_cases hit : keyOf s.target.primaryKey d = s.key row
  · rw [if_pos hit] at equal ⊢
    rw [same] at equal
    rcases List.mem_append.mp member with earlier | last
    · exact absurd (equal.symm.trans hit) (apart p earlier)
    · rw [List.mem_singleton.mp last, Function.update_self]
      rfl
  · rw [if_neg hit] at equal ⊢
    rcases List.mem_append.mp member with earlier | last
    · exact restored p earlier d known equal
    · rw [List.mem_singleton.mp last] at equal
      exact absurd equal hit

theorem Filled.referred {selfRef : Column} {read rows : List (Row V)} {value : Cell V} {key : List (Cell V)}
    (filled : Filled s progress read rows) (mine : s.cfg.selfRefColumn = some selfRef) :
    Filled s progress read (referred selfRef value s.target.primaryKey key rows) := by
  obtain ⟨ordered, all, delivered⟩ := filled
  have only (d : Row V) (c : Column) (apart : c ≠ selfRef) :
      (if keyOf s.target.primaryKey d = key then Function.update d selfRef value else d) c = d c := by
    split
    · exact Function.update_of_ne apart value d
    · rfl
  refine ⟨ordered, all, delivered.seen, delivered.total, delivered.inserted.map _ fun d c target => only d c ?_,
    delivered.transferred.map s.sensible mine (s.selfRef_not_mem mine) _ only⟩
  rintro rfl
  exact (s.sensible c target).2 mine

theorem setRefs_safe {selfRef : Column} (mine : s.cfg.selfRefColumn = some selfRef) (batch : Option Int)
    (refs left : List (Row V)) (keyed : Keyed s.key (refs ++ left)) (kept : s.rules.inv w)
    (here : s.Within (fun read rows => Filled s progress read rows ∧ Restored s selfRef refs rows) w) :
    s.rules.Safe (Ended (fun _ => s.Within fun read rows => Filled s progress read rows ∧ Restored s selfRef (refs ++ left) rows)
      fun _ => True) (setRefs (s.plan batch) selfRef (left.map s.driver.carried)) w := by
  induction left generalizing w refs with
  | nil =>
    rw [List.append_nil]
    exact fun w₁ moves _ => within_steady w w₁ moves here
  | cons row left ih =>
    have updates : s.rules.Safe (Ended (fun _ => s.Within fun read rows => Filled s progress read rows ∧
        Restored s selfRef (refs ++ [row]) rows) fun _ => True)
        (Program.perform (.update selfRef (s.driver.carried row selfRef) s.target.primaryKey (s.key (s.driver.carried row)))) w := by
      refine ask_safe within_steady (fun _ => within_steady) steady_true ?_ ?_ here
      · rintro w count w₁ kept ⟨target, rows, block, filled, restored⟩ answers
        cases answers with
        | @update _ _ _ _ _ rows' block' =>
          obtain rfl : rows' = rows := by
            cases block'.symm.trans block
            rfl
          refine ⟨⟨kept.1, .inl target⟩, target, _, rfl, filled.referred mine, ?_⟩
          rw [s.key_carried]
          refine restored.step mine fun p member => ?_
          exact (List.pairwise_append.mp keyed).2.2 p member row List.mem_cons_self
      · intro w w₁ kept here fails
        exact ⟨(fails_pending (fun same => by cases same) kept (.inl here) fails).1, trivial⟩
    refine Rules.Safe.bind (quoting_safe updates) kept fun answer w kept ended => ?_
    cases answer with
    | error fault => exact fun _ _ _ => trivial
    | ok count =>
      have more : refs ++ row :: left = (refs ++ [row]) ++ left := by rw [List.append_assoc, List.singleton_append]
      rw [more] at keyed ⊢
      exact ih (refs ++ [row]) keyed kept ended

/-- All that is to be committed. -/
def Ready (s : Setting V) (progress : Progress) (read rows : List (Row V)) : Prop :=
  s.Complete read rows ∧ Delivered s progress read rows

theorem Filled.ready {read rows : List (Row V)} (filled : Filled s progress read rows)
    (restored : ∀ selfRef, s.cfg.selfRefColumn = some selfRef → ∀ row, s.stays row → row selfRef ≠ ⊤ →
      ∀ d ∈ rows, s.key d = s.key row → d selfRef = s.driver.carry selfRef (row selfRef)) : Ready s progress read rows := by
  obtain ⟨ordered, all, delivered⟩ := filled
  exact ⟨⟨ordered, all, delivered.seen, delivered.transferred, restored⟩, delivered⟩

theorem secondPass_safe (batch : Option Int) (kept : s.rules.inv w) (here : s.Within (Filled s progress) w) :
    s.rules.Safe (Ended (fun _ => s.Within (Ready s progress)) fun _ => True) (secondPass (s.plan batch) progress) w := by
  have now : (s.plan batch).cfg.selfRefColumn = s.cfg.selfRefColumn := rfl
  unfold secondPass
  split
  · next none =>
    intro w₁ moves _
    obtain ⟨target, rows, block, filled⟩ := within_steady w w₁ moves here
    exact ⟨target, rows, block, filled.ready fun selfRef mine => by cases mine.symm.trans none⟩
  · next selfRef mine =>
    split
    · next nothing =>
      intro w₁ moves _
      obtain ⟨target, rows, block, filled⟩ := within_steady w w₁ moves here
      refine ⟨target, rows, block, filled.ready fun selfRef _ row stay => ?_⟩
      have member := filled.2.1 row stay
      rw [List.eq_nil_of_length_eq_zero (filled.2.2.total.symm.trans nothing)] at member
      cases member
    · have selects : s.rules.Safe (Ended (fun answer w => ∃ refs, answer = refs.map s.driver.carried ∧ Keyed s.key refs ∧
          (∀ row, s.stays row → row selfRef ≠ ⊤ → row ∈ refs) ∧ s.Within (Filled s progress) w) fun _ => True)
          (Program.perform (.selectRefs (s.plan batch).pk selfRef)) w := by
        refine ask_safe within_steady ?_ steady_true ?_ ?_ here
        · rintro answer w w₁ moves ⟨refs, is, keyed, all, inside⟩
          exact ⟨refs, is, keyed, all, within_steady w w₁ moves inside⟩
        · intro w answer w₁ kept here answers
          obtain ⟨⟨table, found, columns, keyed, stay, seen⟩, whole⟩ := kept
          cases answers with
          | @selectRefs _ _ _ table' refs found' _ perm =>
            obtain rfl : table = table' := Option.some.inj (found.symm.trans found')
            refine ⟨⟨⟨table, found, columns, keyed, stay, seen⟩, whole⟩, refs, rfl, ?_, fun row stays value => ?_, here⟩
            · exact (keyed.filter _).perm perm.symm fun apart => apart.symm
            · exact perm.mem_iff.mpr (List.mem_filter.mpr ⟨stay row stays, decide_eq_true value⟩)
        · intro w w₁ kept here fails
          exact ⟨(fails_pending (fun same => by cases same) kept (.inl here) fails).1, trivial⟩
      refine Rules.Safe.bind (quoting_safe selects) kept fun answer w kept ended => ?_
      cases answer with
      | error fault => exact fun _ _ _ => trivial
      | ok answer =>
        obtain ⟨refs, rfl, keyed, all, target, rows, block, filled⟩ := ended
        have begun : s.Within (fun read rows => Filled s progress read rows ∧ Restored s selfRef [] rows) w :=
          ⟨target, rows, block, filled, fun row member => absurd member List.not_mem_nil⟩
        refine (setRefs_safe mine batch [] refs keyed kept begun).weaken fun result w₁ _ ended => ?_
        cases result with
        | error fault => trivial
        | ok _ =>
          obtain ⟨target, rows, block, filled, restored⟩ := ended
          refine ⟨target, rows, block, filled.ready fun selfRef' mine' row stay value => ?_⟩
          obtain rfl : selfRef' = selfRef := Option.some.inj (mine'.symm.trans mine)
          exact restored row (all row stay value)

/-- The copy is committed. -/
def Committed (s : Setting V) (progress : Progress) (w : CopyWorld V) : Prop :=
  ∃ rows, w.target = some { s.target with rows := rows } ∧ Ready s progress w.read rows

theorem committed_steady : s.Steady (Committed s progress) := by
  rintro w w₁ moves ⟨rows, target, ready⟩
  exact ⟨rows, moves.target.trans target, moves.read ▸ ready⟩

theorem commit_safe (here : s.Within (Ready s progress) w) :
    s.rules.Safe (Ended (fun _ => Committed s progress) fun _ => True) (Program.perform .commit) w := by
  refine ask_safe within_steady (fun _ => committed_steady) steady_true ?_ ?_ here
  · rintro w _ w₁ kept ⟨target, rows, block, ready⟩ answers
    cases answers with
    | @commit _ table rows' found block' =>
      obtain rfl : s.target = table := Option.some.inj (target.symm.trans found)
      obtain rfl : rows' = rows := by
        cases block'.symm.trans block
        rfl
      exact ⟨⟨kept.1, .inr ⟨rows', rfl, ready.1⟩⟩, rows', rfl, ready⟩
    | commitAborted aborted => cases block.symm.trans aborted
  · rintro w w₁ kept ⟨target, rows, block, ready⟩ fails
    cases fails with
    | harmless => exact ⟨kept, trivial⟩
    | aborted => exact ⟨⟨kept.1, .inl target⟩, trivial⟩
    | @committed _ table rows' found block' =>
      obtain rfl : s.target = table := Option.some.inj (target.symm.trans found)
      obtain rfl : rows' = rows := by
        cases block'.symm.trans block
        rfl
      exact ⟨⟨kept.1, .inr ⟨rows', rfl, ready.1⟩⟩, trivial⟩

theorem inTransaction_safe (batch : Option Int) (fuel : Nat) (kept : s.rules.inv w) (here : Fresh s w) :
    s.rules.Safe (Loop s fuel (Committed s)) (inTransaction (s.plan batch) fuel) w := by
  have begins : s.rules.Safe (Ended (fun _ => s.Within (At s none ⟨0, 0⟩)) fun _ => True) (Program.perform .begin) w := by
    refine ask_safe fresh_steady (fun _ => within_steady) steady_true ?_ ?_ here
    · rintro w _ w₁ kept ⟨target, block, read⟩ answers
      cases answers with
      | @begin _ table idle found =>
        obtain rfl : s.target = table := Option.some.inj (target.symm.trans found)
        refine ⟨⟨kept.1, .inl target⟩, target, s.target.rows, rfl, ?_⟩
        rw [read]
        exact ⟨scanned_nil, fun row member => absurd member List.not_mem_nil, rfl, counted_nil _, transferred_nil _⟩
    · intro w w₁ kept _ fails
      cases fails with
      | harmless => exact ⟨kept, trivial⟩
      | aborted statement => cases statement
  refine Rules.Safe.bind begins kept fun answer w kept ended => ?_
  cases answer with
  | error fault => exact fun _ _ _ => trivial
  | ok _ =>
  refine Rules.Safe.bind (copyRows_safe batch fuel kept ended (Nat.zero_add fuel).ge) kept fun result w kept ended => ?_
  cases result with
  | none => exact fun w₁ moves _ => long_steady w w₁ moves ended
  | some result =>
  cases result with
  | error fault => exact fun _ _ _ => trivial
  | ok progress =>
  refine Rules.Safe.bind (secondPass_safe batch kept ended) kept fun result w kept ended => ?_
  cases result with
  | error fault => exact fun _ _ _ => trivial
  | ok _ =>
  refine Rules.Safe.bind (commit_safe ended) kept fun result w kept ended => ?_
  cases result with
  | error fault => exact fun _ _ _ => trivial
  | ok _ => exact fun w₁ moves _ => committed_steady w w₁ moves ended

/-- What a copy that has ended has done. -/
def Returned (s : Setting V) (fuel : Nat) : Ending → CopyWorld V → Prop
  | .done result, w => result.skipped = false → Committed s ⟨result.total, result.copied⟩ w
  | .thrown _, _ => True
  | .unfinished, w => Long s fuel w

theorem transferred_safe (batch : Option Int) (fuel : Nat) (kept : s.rules.inv w) (here : Fresh s w) :
    s.rules.Safe (Returned s fuel) (transferred (s.plan batch) fuel) w := by
  have connects : s.rules.Safe (Ended (fun _ => Fresh s) fun _ => True) (Program.perform .connect) w := by
    refine ask_safe fresh_steady (fun _ => fresh_steady) steady_true ?_ ?_ here
    · rintro w _ w₁ kept here ⟨⟩
      exact ⟨kept, here⟩
    · intro w w₁ kept _ fails
      cases fails with
      | harmless => exact ⟨kept, trivial⟩
      | aborted statement => cases statement
  refine Rules.Safe.bind connects kept fun answer w kept ended => ?_
  cases answer with
  | error fault => exact fun _ _ _ => trivial
  | ok _ =>
  refine Rules.Safe.bind (inTransaction_safe batch fuel kept ended) kept fun result w kept ended => ?_
  cases result with
  | none => exact fun w₁ moves _ => long_steady w w₁ moves ended
  | some result =>
  cases result with
  | ok progress => exact fun w₁ moves _ _ => committed_steady w w₁ moves ended
  | error fault =>
    intro w₁ moves kept answer w₂ run
    refine ⟨?_, trivial, fun _ _ _ => trivial⟩
    cases run with
    | ok answers => cases answers; exact kept
    | error fails =>
      cases fails with
      | harmless => exact kept
      | aborted statement => cases statement

theorem copyTable_safe (batch : Option Int) (fuel : Nat) (kept : s.rules.inv w) (here : Fresh s w) :
    s.rules.Safe (Returned s fuel) (copyTable s.cfg batch fuel) w := by
  -- a query that only looks leaves everything to the next one
  have looks {o : CopyOp V} {P : o.Answer → Prop} {w : CopyWorld V} (statement : o.onTarget = false) (here : Fresh s w)
      (ok : ∀ w answer w₁, s.rules.inv w → Fresh s w → Answers s.driver s.cfg o w answer w₁ → w₁ = w ∧ P answer) :
      s.rules.Safe (Ended (fun answer w => P answer ∧ Fresh s w) fun _ => True) (Program.perform o) w := by
    refine ask_safe fresh_steady ?_ steady_true ?_ ?_ here
    · exact fun answer w w₁ moves both => ⟨both.1, fresh_steady w w₁ moves both.2⟩
    · intro w answer w₁ kept here answers
      obtain ⟨rfl, holds⟩ := ok w answer w₁ kept here answers
      exact ⟨kept, holds, here⟩
    · intro w w₁ kept here fails
      cases fails with
      | harmless => exact ⟨kept, trivial⟩
      | aborted loud => cases statement.symm.trans loud
      | committed => cases statement
  refine Rules.Safe.bind (looks (o := .tableExists .source) (P := fun _ => True) rfl here ?_) kept fun answer w kept ended => ?_
  · rintro w answer w₁ _ _ ⟨⟩
    exact ⟨rfl, trivial⟩
  cases answer with
  | error fault => exact fun _ _ _ => trivial
  | ok there =>
  cases there with
  | false => exact fun _ _ _ skipped => by cases skipped
  | true =>
  refine Rules.Safe.bind (looks (o := .tableExists .target) (P := fun _ => True) rfl ended.2 ?_) kept fun answer w kept ended => ?_
  · rintro w answer w₁ _ _ ⟨⟩
    exact ⟨rfl, trivial⟩
  cases answer with
  | error fault => exact fun _ _ _ => trivial
  | ok there =>
  cases there with
  | false => exact fun _ _ _ => trivial
  | true =>
  refine Rules.Safe.bind (looks (o := .getColumns .source) (P := fun cols => cols = s.srcCols) rfl ended.2 ?_) kept
    fun answer w kept ended => ?_
  · intro w answer w₁ kept _ answers
    obtain ⟨⟨table, found, columns, -⟩, -⟩ := kept
    cases answers with
    | @getColumns _ _ table' found' =>
      obtain rfl : table = table' := Option.some.inj (found.symm.trans found')
      exact ⟨rfl, columns⟩
  cases answer with
  | error fault => exact fun _ _ _ => trivial
  | ok srcCols =>
  obtain ⟨rfl, here⟩ := ended
  refine Rules.Safe.bind (looks (o := .getColumns .target) (P := fun cols => cols = s.target.columns) rfl here ?_) kept
    fun answer w kept ended => ?_
  · intro w answer w₁ kept here answers
    cases answers with
    | @getColumns _ _ table' found' =>
      obtain rfl : s.target = table' := Option.some.inj (here.1.symm.trans found')
      exact ⟨rfl, rfl⟩
  cases answer with
  | error fault => exact fun _ _ _ => trivial
  | ok dstCols =>
  obtain ⟨rfl, here⟩ := ended
  refine Rules.Safe.bind (looks (o := .getPrimaryKey) (P := fun pk => pk = s.target.primaryKey) rfl here ?_) kept
    fun answer w kept ended => ?_
  · intro w answer w₁ kept here answers
    cases answers with
    | @getPrimaryKey _ table' found' =>
      obtain rfl : s.target = table' := Option.some.inj (here.1.symm.trans found')
      exact ⟨rfl, rfl⟩
  cases answer with
  | error fault => exact fun _ _ _ => trivial
  | ok pk =>
  obtain ⟨rfl, here⟩ := ended
  dsimp only
  split
  · exact fun _ _ _ => trivial
  · exact transferred_safe batch fuel kept here

/-- One run of a copy, while others write to the source. -/
def Setting.Copies (s : Setting V) (batch : Option Int) (fuel : Nat) (start : CopyWorld V) (ending : Ending) (w : CopyWorld V) : Prop :=
  Rules.Ends (Rules.meanwhile s.Changes (copyExec s.driver s.cfg)) (copyTable s.cfg batch fuel) start ending w

variable {batch : Option Int} {fuel : Nat} {start : CopyWorld V} {ending : Ending}

theorem source_steady : s.Steady fun w => s.Source w ∧ s.Whole w := by
  rintro w w₁ moves ⟨source, whole⟩
  refine ⟨moves.source source, ?_⟩
  unfold Setting.Whole
  rwa [moves.target, moves.read]

theorem returned (fresh : Fresh s start) (source : s.Source start) (copies : s.Copies batch fuel start ending w) :
    Returned s fuel ending w :=
  have kept : s.rules.inv start := ⟨source, .inl fresh.1⟩
  ((copyTable_safe batch fuel kept fresh).ends_meanwhile kept source_steady copies).2

def tagRow (id name : Nat) : Row Nat := fun c => WithTop.some (if c = "id" then id else name)

/-- A tag of the source, and a target without tags. -/
def tag : Row Nat := tagRow 7 1

def tags (rows : List (Row Nat)) : Table Nat := ⟨["id", "name"], ["id"], rows⟩

def tagCopy : Setting Nat where
  driver := ⟨fun _ v => v, fun _ _ => True⟩
  cfg := ⟨"tags", ["name"], .skip, none⟩
  srcCols := ["id", "name"]
  target := tags []
  stays row := row = tag
  seen row := row = tag
  fit := by decide
  keys _ _ _ := rfl

def tagStart : CopyWorld Nat := ⟨some (tags [tag]), some (tags []), .idle, []⟩

def tagEnd : CopyWorld Nat := ⟨some (tags [tag]), some (tags [tag]), .idle, [tag]⟩

theorem tagCopy_source : tagCopy.Source tagStart :=
  ⟨tags [tag], rfl, rfl, List.pairwise_singleton .., fun _ is => List.mem_singleton.mpr is, fun _ => List.mem_singleton.mp⟩

theorem tagCopy_fresh : Fresh tagCopy tagStart := ⟨rfl, rfl, rfl⟩

theorem tag_page : Page (keyOf (V := Nat) ["id"]) [tag] none 500 [tag] :=
  ⟨[tag], .refl _, List.pairwise_singleton .., rfl⟩

theorem tagCopy_copies : tagCopy.Copies (some 500) 2 tagStart (.done ⟨1, 1, false⟩) tagEnd := by
  have still (w : CopyWorld Nat) : tagCopy.Changes w w := ⟨rfl, rfl, rfl, id⟩
  have selects : ["tags", "id", "name", "id"].all quotable = true := by decide
  have inserts : ["tags", "id", "name", "name"].all quotable = true := by decide
  refine .perform (.ok true) _ ⟨_, still _, .ok .tableExists⟩ ?_
  refine .perform (.ok true) _ ⟨_, still _, .ok .tableExists⟩ ?_
  refine .perform (.ok ["id", "name"]) _ ⟨_, still _, .ok (.getColumns (show _ = some (tags [tag]) from rfl))⟩ ?_
  refine .perform (.ok ["id", "name"]) _ ⟨_, still _, .ok (.getColumns (show _ = some (tags []) from rfl))⟩ ?_
  refine .perform (.ok ["id"]) _ ⟨_, still _, .ok (.getPrimaryKey (show _ = some (tags []) from rfl))⟩ ?_
  refine .perform (.ok ()) _ ⟨_, still _, .ok .connect⟩ ?_
  refine .perform (.ok ()) _ ⟨_, still _, .ok (.begin rfl (show _ = some (tags []) from rfl))⟩ ?_
  change Rules.Ends _ (((quoting ["tags", "id", "name", "id"] (withRetry (.select ["id", "name"] ["id"] none (some 500)))).bind _).bind _
    |>.bind _) _ _ _
  rw [quoting_eq selects]
  have columns : ∀ c ∈ ["id", "name"] ++ ["id"], c ∈ (tags [tag]).columns := by decide
  refine .perform (.ok [tag]) _ ⟨_, still _, .ok (.select (show _ = some (tags [tag]) from rfl) columns tag_page)⟩ ?_
  change Rules.Ends _ (((quoting ["tags", "id", "name", "name"] (withRetry (.insert ["id", "name"] [tag]))).bind _).bind _
    |>.bind _) _ _ _
  rw [quoting_eq inserts]
  have proposed : Proposed tagCopy.driver ["id", "name"] tag tag := ⟨fun _ _ => rfl, fun _ _ => trivial⟩
  have fresh : Inserts tagCopy.driver tagCopy.cfg ["id", "name"] [tag] [] [tag] 1 :=
    .cons (.fresh proposed fun _ member => absurd member List.not_mem_nil) .nil
  refine .perform (.ok 1) _ ⟨_, still _, .ok (.insert rfl (show _ = some (tags []) from rfl) fresh (fun update => by cases update)
    (List.pairwise_singleton ..))⟩ ?_
  refine .perform (.ok ()) _ ⟨_, still _, .ok (.commit (show _ = some (tags []) from rfl) rfl)⟩ ?_
  exact .ret

/-- The target has a tag of its own; one of the source comes while it is copied, and has the same name. -/
def tagsMeet : Setting Nat where
  driver := ⟨fun _ v => v, fun _ _ => True⟩
  cfg := ⟨"tags", ["name"], .skip, none⟩
  srcCols := ["id", "name"]
  target := tags [tagRow 3 2]
  stays row := row = tagRow 7 1
  seen row := row = tagRow 7 1 ∨ row = tagRow 9 2
  fit := by decide
  keys _ _ _ := rfl

def tagsBefore : CopyWorld Nat := ⟨some (tags [tagRow 7 1]), some (tags [tagRow 3 2]), .idle, []⟩

def tagsAfter : CopyWorld Nat :=
  ⟨some (tags [tagRow 7 1, tagRow 9 2]), some (tags [tagRow 3 2, tagRow 7 1]), .idle, [tagRow 7 1, tagRow 9 2]⟩

theorem tagRow_key (id name : Nat) : keyOf ["id"] (tagRow id name) = [WithTop.some id] := rfl

theorem tags_keyed {id name id' name' : Nat} (apart : id ≠ id') :
    Keyed (keyOf ["id"]) [tagRow id name, tagRow id' name'] := by
  refine List.pairwise_pair.mpr fun same => apart ?_
  rw [tagRow_key, tagRow_key] at same
  exact WithTop.coe_injective (List.cons.inj same).1

theorem tagsMeet_source : tagsMeet.Source tagsBefore :=
  ⟨tags [tagRow 7 1], rfl, rfl, List.pairwise_singleton .., fun _ is => List.mem_singleton.mpr is,
    fun _ member => .inl (List.mem_singleton.mp member)⟩

theorem tagsMeet_fresh : Fresh tagsMeet tagsBefore := ⟨rfl, rfl, rfl⟩

theorem tags_page : Page (keyOf (V := Nat) ["id"]) [tagRow 7 1] none 1 [tagRow 7 1] :=
  ⟨[tagRow 7 1], .refl _, List.pairwise_singleton .., rfl⟩

theorem tags_past {id name id' name' : Nat} :
    Past (some (keyOf ["id"] (tagRow id name))) (keyOf ["id"] (tagRow id' name')) ↔ id < id' := by
  rw [past_some, tagRow_key, tagRow_key]
  simp [List.cons_lt_cons_iff]

theorem tags_page_second :
    Page (keyOf (V := Nat) ["id"]) [tagRow 7 1, tagRow 9 2] (some (keyOf ["id"] (tagRow 7 1))) 1 [tagRow 9 2] := by
  refine ⟨[tagRow 9 2], ?_, List.pairwise_singleton .., rfl⟩
  rw [List.filter_cons_of_neg (by simp [tags_past]), List.filter_cons_of_pos (by simp [tags_past]), List.filter_nil]

theorem tags_page_third :
    Page (keyOf (V := Nat) ["id"]) [tagRow 7 1, tagRow 9 2] (some (keyOf ["id"] (tagRow 9 2))) 1 [] := by
  refine ⟨[], ?_, .nil, rfl⟩
  rw [List.filter_cons_of_neg (by simp [tags_past]), List.filter_cons_of_neg (by simp [tags_past]), List.filter_nil]

theorem tagsMeet_copies : tagsMeet.Copies (some 1) 3 tagsBefore (.done ⟨1, 2, false⟩) tagsAfter := by
  have still (w : CopyWorld Nat) : tagsMeet.Changes w w := ⟨rfl, rfl, rfl, id⟩
  have selects : ["tags", "id", "name", "id"].all quotable = true := by decide
  have inserts : ["tags", "id", "name", "name"].all quotable = true := by decide
  refine .perform (.ok true) _ ⟨_, still _, .ok .tableExists⟩ ?_
  refine .perform (.ok true) _ ⟨_, still _, .ok .tableExists⟩ ?_
  refine .perform (.ok ["id", "name"]) _ ⟨_, still _, .ok (.getColumns (show _ = some (tags [tagRow 7 1]) from rfl))⟩ ?_
  refine .perform (.ok ["id", "name"]) _ ⟨_, still _, .ok (.getColumns (show _ = some (tags [tagRow 3 2]) from rfl))⟩ ?_
  refine .perform (.ok ["id"]) _ ⟨_, still _, .ok (.getPrimaryKey (show _ = some (tags [tagRow 3 2]) from rfl))⟩ ?_
  refine .perform (.ok ()) _ ⟨_, still _, .ok .connect⟩ ?_
  refine .perform (.ok ()) _ ⟨_, still _, .ok (.begin rfl (show _ = some (tags [tagRow 3 2]) from rfl))⟩ ?_
  change Rules.Ends _ (((quoting ["tags", "id", "name", "id"] (withRetry (.select ["id", "name"] ["id"] none (some 1)))).bind _).bind _
    |>.bind _) _ _ _
  rw [quoting_eq selects]
  have columns (rows : List (Row Nat)) : ∀ c ∈ ["id", "name"] ++ ["id"], c ∈ (tags rows).columns := by
    change ∀ c ∈ ["id", "name"] ++ ["id"], c ∈ ["id", "name"]
    decide
  have proposed (row : Row Nat) : Proposed tagsMeet.driver ["id", "name"] row row := ⟨fun _ _ => rfl, fun _ _ => trivial⟩
  refine .perform (.ok [tagRow 7 1]) _ ⟨_, still _, .ok (.select (show _ = some (tags [tagRow 7 1]) from rfl) (columns _) tags_page)⟩ ?_
  change Rules.Ends _ (((quoting ["tags", "id", "name", "name"] (withRetry (.insert ["id", "name"] [tagRow 7 1]))).bind _).bind _
    |>.bind _) _ _ _
  rw [quoting_eq inserts]
  have apart : ∀ old ∈ [tagRow 3 2], ¬Conflicts ["name"] old (tagRow 7 1) := by
    intro old member conflicts
    rw [List.mem_singleton.mp member] at conflicts
    exact absurd (conflicts.2 "name" List.mem_cons_self).1 (by decide)
  have added : Inserts tagsMeet.driver tagsMeet.cfg ["id", "name"] [tagRow 7 1] [tagRow 3 2] [tagRow 3 2, tagRow 7 1] 1 :=
    .cons (.fresh (proposed _) apart) .nil
  refine .perform (.ok 1) _ ⟨_, still _, .ok (.insert rfl (show _ = some (tags [tagRow 3 2]) from rfl) added (fun update => by cases update)
    (tags_keyed (by decide)))⟩ ?_
  change Rules.Ends _ (((quoting ["tags", "id", "name", "id"] (withRetry (.select ["id", "name"] ["id"]
    (some (keyOf ["id"] (tagRow 7 1))) (some 1)))).bind _).bind _ |>.bind _) _ _ _
  rw [quoting_eq selects]
  have change : tagsMeet.Changes ⟨some (tags [tagRow 7 1]), some (tags [tagRow 3 2]), .opened [tagRow 3 2, tagRow 7 1], [tagRow 7 1]⟩
      ⟨some (tags [tagRow 7 1, tagRow 9 2]), some (tags [tagRow 3 2]), .opened [tagRow 3 2, tagRow 7 1], [tagRow 7 1]⟩ := by
    refine ⟨rfl, rfl, rfl, fun _ => ⟨_, rfl, rfl, tags_keyed (by decide), ?_, ?_⟩⟩
    · rintro row rfl
      exact List.mem_cons_self
    · intro row member
      exact (List.mem_cons.mp member).imp_right List.mem_singleton.mp
  refine .perform (.ok [tagRow 9 2]) _ ⟨_, change, .ok (.select rfl (columns _) tags_page_second)⟩ ?_
  change Rules.Ends _ (((quoting ["tags", "id", "name", "name"] (withRetry (.insert ["id", "name"] [tagRow 9 2]))).bind _).bind _
    |>.bind _) _ _ _
  rw [quoting_eq inserts]
  have meets : Conflicts ["name"] (tagRow 3 2) (tagRow 9 2) := by
    refine ⟨List.cons_ne_nil _ _, fun c member => ?_⟩
    rw [List.mem_singleton.mp member]
    exact ⟨rfl, WithTop.coe_ne_top⟩
  have left : Inserts tagsMeet.driver tagsMeet.cfg ["id", "name"] [tagRow 9 2] [tagRow 3 2, tagRow 7 1] [tagRow 3 2, tagRow 7 1] 0 :=
    .cons (.nothing (proposed _) List.mem_cons_self meets (.inl rfl)) .nil
  refine .perform (.ok 0) _ ⟨_, still _, .ok (.insert rfl (show _ = some (tags [tagRow 3 2]) from rfl) left (fun update => by cases update)
    (tags_keyed (by decide)))⟩ ?_
  change Rules.Ends _ (((quoting ["tags", "id", "name", "id"] (withRetry (.select ["id", "name"] ["id"]
    (some (keyOf ["id"] (tagRow 9 2))) (some 1)))).bind _).bind _ |>.bind _) _ _ _
  rw [quoting_eq selects]
  refine .perform (.ok []) _ ⟨_, still _, .ok (.select (show _ = some (tags [tagRow 7 1, tagRow 9 2]) from rfl) (columns _) tags_page_third)⟩ ?_
  refine .perform (.ok ()) _ ⟨_, still _, .ok (.commit (show _ = some (tags [tagRow 3 2]) from rfl) rfl)⟩ ?_
  exact .ret

/-- Wherever a copy stops, the target is untouched or holds all of it; and when it returns, it has
read every row that was in the source all along and no key twice. -/
theorem table_copied (fresh : Fresh s start) (source : s.Source start) :
    (∀ w, Rules.Stops (Rules.meanwhile s.Changes (copyExec s.driver s.cfg)) (fun _ _ _ => False) (copyTable s.cfg batch fuel) start w →
      s.Whole w) ∧
    ∀ w result, s.Copies batch fuel start (.done result) w → result.skipped = false →
      result.total = w.read.length ∧ result.copied ≤ result.total ∧
        ∃ rows, w.target = some { s.target with rows := rows } ∧ s.Complete w.read rows ∧
          Counted s.cfg s.insertColumns s.target.rows (w.read.map s.driver.carried) rows result.copied := by
  have kept : s.rules.inv start := ⟨source, .inl fresh.1⟩
  refine ⟨fun w stops => ?_, fun w result copies done => ?_⟩
  · exact ((copyTable_safe batch fuel kept fresh).stops_meanwhile kept source_steady stops).2
  · obtain ⟨rows, target, complete, delivered⟩ := returned fresh source copies done
    have most : result.copied ≤ w.read.length := delivered.inserted.le.trans_eq (List.length_map _)
    exact ⟨delivered.total, most.trans_eq delivered.total.symm, rows, target, complete, delivered.inserted⟩

/-- The second row is left out. -/
theorem table_copied_tags : 2 = tagsAfter.read.length ∧ 1 ≤ 2 ∧
    ∃ rows, tagsAfter.target = some { tagsMeet.target with rows := rows } ∧ tagsMeet.Complete tagsAfter.read rows ∧
      Counted tagsMeet.cfg tagsMeet.insertColumns tagsMeet.target.rows (tagsAfter.read.map tagsMeet.driver.carried) rows 1 :=
  (table_copied tagsMeet_fresh tagsMeet_source).2 tagsAfter ⟨1, 2, false⟩ tagsMeet_copies rfl

/-- A copy ends: with one turn more than there are rows, it does not run out of them. -/
theorem copy_finishes (fresh : Fresh s start) (source : s.Source start) (all : List (Row V)) (finite : ∀ row, s.seen row → row ∈ all)
    (enough : all.length < fuel) (copies : s.Copies batch fuel start ending w) : ending ≠ .unfinished := by
  rintro rfl
  obtain ⟨ordered, seen, long⟩ := returned fresh source copies
  have distinct : w.read.Nodup := ordered.imp fun less same => absurd (same ▸ less) (lt_irrefl _)
  have bound := (List.subperm_of_subset distinct fun row member => finite row (seen row member)).length_le
  omega

theorem copy_finishes_tags : Ending.done ⟨1, 2, false⟩ ≠ .unfinished :=
  copy_finishes tagsMeet_fresh tagsMeet_source [tagRow 7 1, tagRow 9 2]
    (fun _ is => List.mem_cons.mpr (is.imp_right List.mem_singleton.mpr)) (by decide) tagsMeet_copies

/-- The same copy of a target that has these rows. -/
def Setting.again (s : Setting V) (rows : List (Row V)) : Setting V :=
  { s with target := { s.target with rows := rows } }

/-- A second copy of a source that does not change inserts nothing. -/
theorem copied_again (skips : s.cfg.mode = .skip) (still : ∀ row, s.seen row → s.stays row) (target : s.cfg.conflictTarget ≠ [])
    (values : ∀ row, s.seen row → ∀ c ∈ s.cfg.conflictTarget, s.driver.carry c (row c) ≠ ⊤)
    (fresh : Fresh s start) (source : s.Source start) (result : Copied) (first : s.Copies batch fuel start (.done result) w)
    (done : result.skipped = false) :
    ∃ rows, w.target = some { s.target with rows := rows } ∧ ∀ start' w' batch' fuel' result', Fresh (s.again rows) start' →
      (s.again rows).Source start' → (s.again rows).Copies batch' fuel' start' (.done result') w' → result'.skipped = false →
        result'.copied = 0 ∧ ∃ rows', w'.target = some { s.target with rows := rows' } ∧ rows'.length = rows.length ∧
          ∀ old ∈ rows, ∃ d ∈ rows', ∀ c, s.cfg.selfRefColumn ≠ some c → d c = old c := by
  obtain ⟨rows, there, complete, delivered⟩ := returned fresh source first done
  refine ⟨rows, there, fun start' w' batch' fuel' result' fresh' source' second done' => ?_⟩
  obtain ⟨rows', there', complete', delivered'⟩ := returned fresh' source' second done'
  have known : ∀ row ∈ w'.read, ∃ old ∈ rows, Conflicts s.cfg.conflictTarget old (s.driver.carried row) := by
    intro row member
    have seen := complete'.seen row member
    have read := complete.all row (still row seen)
    obtain ⟨d, inside, conflicts | holds⟩ := complete.transferred.arrived _ (List.mem_map_of_mem read)
    · exact ⟨d, inside, conflicts⟩
    · refine ⟨d, inside, target, fun c column => ?_⟩
      have same := holds c (s.sensible c column).1
      exact ⟨same, same ▸ values row seen c column⟩
  obtain ⟨none, length⟩ := delivered'.inserted.of_known skips fun row member => by
    obtain ⟨p, inside, rfl⟩ := List.mem_map.mp member
    exact known p inside
  refine ⟨none, rows', there', length, fun old member => ?_⟩
  obtain ⟨d, inside, persists⟩ := complete'.transferred.kept old member
  refine ⟨d, inside, fun c apart => ?_⟩
  rcases persists c with same | selfRef | overwritten
  · exact same
  · exact absurd selfRef apart
  · exact absurd (skips.symm.trans overwritten.1) (by decide)

theorem copied_again_tags : ∃ rows, tagEnd.target = some { tagCopy.target with rows := rows } ∧
    ∀ start' w' batch' fuel' result', Fresh (tagCopy.again rows) start' → (tagCopy.again rows).Source start' →
      (tagCopy.again rows).Copies batch' fuel' start' (.done result') w' → result'.skipped = false →
        result'.copied = 0 ∧ ∃ rows', w'.target = some { tagCopy.target with rows := rows' } ∧ rows'.length = rows.length ∧
          ∀ old ∈ rows, ∃ d ∈ rows', ∀ c, tagCopy.cfg.selfRefColumn ≠ some c → d c = old c :=
  copied_again rfl (fun _ is => is) (by decide) (fun _ is _ _ => is ▸ WithTop.coe_ne_top) tagCopy_fresh tagCopy_source ⟨1, 1, false⟩ tagCopy_copies rfl

end

end Opale.MigrateInstance
