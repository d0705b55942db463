import Opale.Inventory.History
import Opale.Effects.Safety

namespace Opale.Inventory

open Sql

/-- The deployment is pending, of this package on this device. -/
def PendingIn (table : Table Deployment) (packageId deviceId id : Nat) : Prop :=
  ∃ d, table[id]? = some d ∧ d.packageId = packageId ∧ d.deviceId = deviceId ∧ d.status = .pending

/-- A deployment that may be played again: failed or cancelled, of an approved package, on a device that is not
pull-managed. -/
def Eligible (db : InventoryDb) (d : Deployment) : Prop :=
  (d.status = .failed ∨ d.status = .cancelled) ∧ (approvedContent db d.packageId).isSome ∧
    ∃ dev, db.devices[d.deviceId]? = some dev ∧ dev.managedBy ≠ some "pull"

/-- A listed deployment that may be played again, of a package that is not pending on its device. -/
structure Chosen (db : InventoryDb) (ids : List Nat) (id : Nat) (d : Deployment) : Prop where
  listed : id ∈ ids
  found : db.deployments[id]? = some d
  eligible : Eligible db d
  free : ∀ other, ¬PendingIn db.deployments d.packageId d.deviceId other

/-- No other request: an UPDATE finds every row, and a statement fails by itself alone. -/
def Undisturbed (o : InventoryOp) (db : InventoryDb) (answer : o.Res) (db₁ : InventoryDb) : Prop :=
  match o with
  | .sql (.query s) =>
    ∃ draw : InventoryDraw, (∀ id, db.deployments[id]? ≠ none → id ∈ draw.rows) ∧
      ((∃ out, s.run draw db = some out ∧ answer = some out.answer ∧ db₁ = inventorySchema.applyAll out.changes db) ∨
        s.run draw db = none ∧ answer = none ∧ db₁ = db)
  | _ => False

/-- The request succeeds, and each package is pending at most once on a device, exactly once where it was asked for. -/
structure Replayed (ids : List Nat) (db : InventoryDb) (reply : RouteReply) (db₁ : InventoryDb) : Prop where
  succeeds : ∃ retried skipped, reply = .counts retried skipped
  atMostOne : ∀ packageId deviceId id other, PendingIn db₁.deployments packageId deviceId id →
    PendingIn db₁.deployments packageId deviceId other → id = other
  exactlyOne : ∀ id ∈ ids, ∀ d, db.deployments[id]? = some d → Eligible db d →
    (∀ other, ¬PendingIn db.deployments d.packageId d.deviceId other) →
    ∃ one, PendingIn db₁.deployments d.packageId d.deviceId one ∧
      ∀ other, PendingIn db₁.deployments d.packageId d.deviceId other → other = one

/-- Of a package on a device, one of the listed deployments at most is to be played again. -/
def OneOfEach (db : InventoryDb) (ids : List Nat) : Prop :=
  ∀ id other d e, Chosen db ids id d → Chosen db ids other e → d.packageId = e.packageId → d.deviceId = e.deviceId →
    id = other

theorem pendingUnique_iff {table : Table Deployment} :
    pendingUnique table = true ↔ ∀ packageId deviceId id other, PendingIn table packageId deviceId id →
      PendingIn table packageId deviceId other → id = other := by
  constructor
  · intro unique packageId deviceId id other ⟨d, found, package, device, pending⟩ ⟨e, found₁, package₁, device₁, pending₁⟩
    exact pendingUnique_spec unique found found₁ pending pending₁ (package.trans package₁.symm) (device.trans device₁.symm)
  · intro once
    have distinct := List.Nodup.of_map _ (table.keys_select fun _ d => isPending d)
    unfold pendingUnique
    rw [decide_eq_true_eq]
    refine distinct.map_on fun first member second member₁ same => ?_
    obtain ⟨id, d⟩ := first
    obtain ⟨other, e⟩ := second
    obtain ⟨found, pending⟩ := Table.mem_select.mp member
    obtain ⟨found₁, pending₁⟩ := Table.mem_select.mp member₁
    simp only [Prod.mk.injEq] at same
    have key := once e.packageId e.deviceId id other ⟨d, found, same.1, same.2, of_decide_eq_true pending⟩
      ⟨e, found₁, rfl, rfl, of_decide_eq_true pending₁⟩
    subst key
    rw [found] at found₁
    cases found₁
    rfl

section

variable {db db₁ : InventoryDb} {ids : List Nat} {draw : InventoryDraw}

/-- The WHERE clause of the UPDATE. -/
def retriable (db : InventoryDb) (ids : List Nat) (draw : InventoryDraw) (id : Nat) (d : Deployment) : Bool :=
  ids.contains id && (d.status = .failed || d.status = .cancelled) && (approvedContent db d.packageId).isSome &&
    (db.devices[d.deviceId]?.any fun dev => dev.managedBy ≠ some "pull") &&
    !otherPending db d.packageId d.deviceId (some id) && draw.rows.contains id

theorem otherPending_iff {packageId deviceId id : Nat} :
    otherPending db packageId deviceId (some id) = true ↔
      ∃ other, other ≠ id ∧ PendingIn db.deployments packageId deviceId other := by
  unfold otherPending
  rw [List.any_eq_true]
  constructor
  · rintro ⟨⟨other, d⟩, member, same⟩
    rw [Std.ExtTreeMap.mem_toList_iff_getElem?_eq_some] at member
    simp only [isPending, Bool.and_eq_true, decide_eq_true_eq, ne_eq, Option.some.injEq] at same
    exact ⟨other, same.2, d, member, same.1.1.1, same.1.1.2, same.1.2⟩
  · rintro ⟨other, apart, d, found, package, device, pending⟩
    refine ⟨(other, d), Std.ExtTreeMap.mem_toList_iff_getElem?_eq_some.mpr found, ?_⟩
    simp only [isPending, Bool.and_eq_true, decide_eq_true_eq, ne_eq, Option.some.injEq]
    exact ⟨⟨⟨package, device⟩, pending⟩, apart⟩

theorem retriable_iff {id : Nat} {d : Deployment} (found : db.deployments[id]? = some d)
    (all : ∀ id, db.deployments[id]? ≠ none → id ∈ draw.rows) :
    retriable db ids draw id d = true ↔ Chosen db ids id d := by
  have row : id ∈ draw.rows := all id (by rw [found]; exact Option.some_ne_none d)
  have devices : (db.devices[d.deviceId]?.any fun dev => dev.managedBy ≠ some "pull") = true ↔
      ∃ dev, db.devices[d.deviceId]? = some dev ∧ dev.managedBy ≠ some "pull" := by
    cases db.devices[d.deviceId]? <;> simp
  simp only [retriable, Bool.and_eq_true, Bool.or_eq_true, decide_eq_true_eq, Bool.not_eq_true', List.contains_iff_mem,
    devices]
  constructor
  · intro ⟨⟨⟨⟨⟨listed, status⟩, approved⟩, unmanaged⟩, alone⟩, _⟩
    refine ⟨listed, found, ⟨status, approved, unmanaged⟩, fun other pending => ?_⟩
    have apart : other ≠ id := by
      rintro rfl
      obtain ⟨e, found₁, _, _, waits⟩ := pending
      rw [found] at found₁
      cases found₁
      rw [waits] at status
      simp at status
    rw [otherPending_iff.mpr ⟨other, apart, pending⟩] at alone
    cases alone
  · intro chosen
    refine ⟨⟨⟨⟨⟨chosen.listed, chosen.eligible.1⟩, chosen.eligible.2.1⟩, chosen.eligible.2.2⟩, ?_⟩, row⟩
    rw [Bool.eq_false_iff]
    intro waits
    obtain ⟨other, _, pending⟩ := otherPending_iff.mp waits
    exact chosen.free other pending

/-- What is pending after the UPDATE: what was, and what it has chosen. -/
theorem pendingIn_update {packageId deviceId id : Nat} (all : ∀ id, db.deployments[id]? ≠ none → id ∈ draw.rows) :
    PendingIn (Table.write (db.deployments.update (retriable db ids draw) (requeued draw.now)) db.deployments)
        packageId deviceId id ↔
      PendingIn db.deployments packageId deviceId id ∨
        ∃ d, Chosen db ids id d ∧ d.packageId = packageId ∧ d.deviceId = deviceId := by
  unfold PendingIn
  rw [Table.getElem?_write_update]
  constructor
  · intro ⟨e, found, package, device, pending⟩
    obtain ⟨d, before, rfl⟩ := Option.map_eq_some_iff.mp found
    by_cases satisfied : retriable db ids draw id d = true
    · rw [if_pos satisfied] at package device
      exact .inr ⟨d, (retriable_iff before all).mp satisfied, package, device⟩
    · rw [if_neg satisfied] at package device pending
      exact .inl ⟨d, before, package, device, pending⟩
  · intro waits
    rcases waits with ⟨d, found, package, device, pending⟩ | ⟨d, chosen, package, device⟩
    · rw [found, Option.map_some]
      by_cases satisfied : retriable db ids draw id d = true
      · rw [if_pos satisfied]
        exact ⟨_, rfl, package, device, rfl⟩
      · rw [if_neg satisfied]
        exact ⟨_, rfl, package, device, pending⟩
    · rw [chosen.found, Option.map_some, if_pos ((retriable_iff chosen.found all).mpr chosen)]
      exact ⟨_, rfl, package, device, rfl⟩

/-- The index lets the UPDATE pass when it chooses once of each package and device. -/
theorem pendingUnique_update (unique : pendingUnique db.deployments = true)
    (all : ∀ id, db.deployments[id]? ≠ none → id ∈ draw.rows) :
    pendingUnique (Table.write (db.deployments.update (retriable db ids draw) (requeued draw.now)) db.deployments) = true ↔
      OneOfEach db ids := by
  rw [pendingUnique_iff]
  simp only [pendingIn_update all]
  constructor
  · intro once id other d e chosen chosen₁ package device
    exact once d.packageId d.deviceId id other (.inr ⟨d, chosen, rfl, rfl⟩) (.inr ⟨e, chosen₁, package.symm, device.symm⟩)
  · intro once packageId deviceId id other first second
    rcases first with before | ⟨d, chosen, package, device⟩
    · rcases second with before₁ | ⟨e, chosen₁, rfl, rfl⟩
      · exact pendingUnique_iff.mp unique _ _ _ _ before before₁
      · exact absurd before (chosen₁.free id)
    · subst package device
      rcases second with before₁ | ⟨e, chosen₁, package₁, device₁⟩
      · exact absurd before₁ (chosen.free other)
      · exact once id other d e chosen chosen₁ package₁.symm device₁.symm

theorem ends_retryBulkRoute {reply : RouteReply} (some_ : ids ≠ []) :
    Rules.Ends Undisturbed (retryBulkRoute ids) db reply db₁ ↔
      ∃ draw : InventoryDraw, (∀ id, db.deployments[id]? ≠ none → id ∈ draw.rows) ∧
        ((∃ out : Outcome InventoryChange InventoryLock (List Nat),
          requeue db draw.now (retriable db ids draw) (fun rows => rows.map (·.1)) = some out ∧
            reply = .counts out.answer.length (ids.length - out.answer.length) ∧
            db₁ = inventorySchema.applyAll out.changes db) ∨
          requeue db draw.now (retriable db ids draw) (fun rows => rows.map (·.1)) = none ∧ reply = .threw ∧ db₁ = db) := by
  have present : ids.isEmpty = false := by simpa using some_
  have shape : retryBulkRoute ids = .op (.sql (.query (.retryBulk ids))) fun rows => .ret (countsOf ids rows) := by
    unfold retryBulkRoute
    rw [present]
    rfl
  rw [shape]
  constructor
  · intro ends
    obtain ⟨answer, w, ⟨draw, all, outcome⟩, last⟩ := ends.of_op
    cases last
    refine ⟨draw, all, ?_⟩
    rcases outcome with ⟨out, run, rfl, rfl⟩ | ⟨run, rfl, rfl⟩
    · exact .inl ⟨out, run, rfl, rfl⟩
    · exact .inr ⟨run, rfl, rfl⟩
  · intro ⟨draw, all, outcome⟩
    rcases outcome with ⟨out, run, rfl, rfl⟩ | ⟨run, rfl, rfl⟩
    · exact .op ⟨draw, all, .inl ⟨out, run, rfl, rfl⟩⟩ .ret
    · exact .op ⟨draw, all, .inr ⟨run, rfl, rfl⟩⟩ .ret

end

theorem requeue_isSome {α : Type} {db : InventoryDb} {now : Nat} {p : Nat → Deployment → Bool}
    (answer : List (Nat × Deployment) → α) :
    (∃ out, requeue db now p answer = some out) ↔
      pendingUnique (Table.write (db.deployments.update p (requeued now)) db.deployments) = true := by
  unfold requeue
  dsimp only
  split
  next unique => exact ⟨fun _ => unique, fun _ => ⟨_, rfl⟩⟩
  next twice => exact ⟨nofun, fun unique => absurd unique twice⟩

/-- Every key of the table, as what an UPDATE finds. -/
def everyRow (db : InventoryDb) : InventoryDraw := ⟨0, [], db.deployments.toList.map Prod.fst, []⟩

theorem mem_everyRow {db : InventoryDb} {id : Nat} (found : db.deployments[id]? ≠ none) : id ∈ (everyRow db).rows := by
  obtain ⟨d, found⟩ := Option.ne_none_iff_exists'.mp found
  exact List.mem_map_of_mem (Std.ExtTreeMap.mem_toList_iff_getElem?_eq_some.mpr found)

/-- A retry of several deployments does what it says exactly when it is to play one of each pair at most. -/
theorem retryBulk_iff {db : InventoryDb} {ids : List Nat} (unique : pendingUnique db.deployments = true)
    (some_ : ids ≠ []) :
    (∀ reply db₁, Rules.Ends Undisturbed (retryBulkRoute ids) db reply db₁ → Replayed ids db reply db₁) ↔
      OneOfEach db ids := by
  constructor
  · intro replays
    have all : ∀ id, db.deployments[id]? ≠ none → id ∈ (everyRow db).rows := fun id found => mem_everyRow found
    rw [← pendingUnique_update unique all, ← requeue_isSome (fun rows => rows.map (·.1)), ← not_forall_not]
    intro fails
    have none_ := Option.eq_none_iff_forall_not_mem.mpr fails
    obtain ⟨_, _, counted⟩ := (replays .threw db ((ends_retryBulkRoute some_).mpr ⟨_, all, .inr ⟨none_, rfl, rfl⟩⟩)).succeeds
    cases counted
  · intro once reply db₁ ends
    obtain ⟨draw, all, ⟨out, run, rfl, rfl⟩ | ⟨run, -, -⟩⟩ := (ends_retryBulkRoute some_).mp ends
    · obtain ⟨unique₁, table⟩ := deployments_requeue run
      have atMostOne := pendingUnique_iff.mp unique₁
      refine ⟨⟨_, _, rfl⟩, atMostOne, fun id listed d found eligible free => ⟨id, ?_, fun other pending => ?_⟩⟩
      · rw [table, pendingIn_update all]
        exact .inr ⟨d, ⟨listed, found, eligible, free⟩, rfl, rfl⟩
      · have one : PendingIn (inventorySchema.applyAll out.changes db).deployments d.packageId d.deviceId id := by
          rw [table, pendingIn_update all]
          exact .inr ⟨d, ⟨listed, found, eligible, free⟩, rfl, rfl⟩
        exact atMostOne _ _ _ _ pending one
    · obtain ⟨out, succeeds⟩ := (requeue_isSome fun rows => rows.map (·.1)).mpr
        ((pendingUnique_update unique all).mpr once)
      rw [run] at succeeds
      cases succeeds

section

def failedDeployment : Deployment := ⟨1, 5, .failed, some 1, none, 100, some 200, some 300⟩

def sevenZip : Snapshot := ⟨"7-Zip", "winget", some "7zip.7zip", none, none, none⟩

/-- The same package has failed twice on the same device. -/
def failedTwice : InventoryDb :=
  ⟨((∅ : Table _).insert 7 failedDeployment).insert 8 failedDeployment, ∅,
    (∅ : Table _).insert 1 ⟨sevenZip, .approved⟩, (∅ : Table _).insert 5 ⟨none⟩, ∅⟩

/-- Both are listed: the request fails. -/
theorem retryBulk_fails :
    pendingUnique failedTwice.deployments = true ∧
    Rules.Ends Undisturbed (retryBulkRoute [7, 8]) failedTwice .threw failedTwice ∧
    ¬Replayed [7, 8] failedTwice .threw failedTwice := by
  refine ⟨rfl, (ends_retryBulkRoute (List.cons_ne_nil _ _)).mpr
    ⟨everyRow failedTwice, fun id found => mem_everyRow found, .inr ⟨rfl, rfl, rfl⟩⟩, fun replayed => ?_⟩
  obtain ⟨_, _, counted⟩ := replayed.succeeds
  cases counted

/-- The same package has failed on two devices. -/
def failedApart : InventoryDb :=
  ⟨((∅ : Table _).insert 7 failedDeployment).insert 8 { failedDeployment with deviceId := 6 }, ∅,
    (∅ : Table _).insert 1 ⟨sevenZip, .approved⟩, ((∅ : Table _).insert 5 ⟨none⟩).insert 6 ⟨none⟩, ∅⟩

/-- Both are listed, one of them twice, with one that does not exist. -/
theorem retryBulk_iff_apart : OneOfEach failedApart [7, 8, 7, 9] ∧
    ∀ reply db₁, Rules.Ends Undisturbed (retryBulkRoute [7, 8, 7, 9]) failedApart reply db₁ →
      Replayed [7, 8, 7, 9] failedApart reply db₁ := by
  have known (id : Nat) (d : Deployment) (found : failedApart.deployments[id]? = some d) :
      id = 7 ∧ d.deviceId = 5 ∨ id = 8 ∧ d.deviceId = 6 := by
    by_cases second : id = 8
    · subst second
      cases (Table.getElem?_insert_self _ _ _).symm.trans found
      exact .inr ⟨rfl, rfl⟩
    · have first := (Table.getElem?_insert_of_ne _ second _).symm.trans found
      by_cases here : id = 7
      · subst here
        cases (Table.getElem?_insert_self _ _ _).symm.trans first
        exact .inl ⟨rfl, rfl⟩
      · cases (Table.getElem?_insert_of_ne _ here _).symm.trans first
  have one : OneOfEach failedApart [7, 8, 7, 9] := by
    intro id other d e chosen chosen₁ _ same
    rcases known id d chosen.found with ⟨rfl, five⟩ | ⟨rfl, six⟩ <;>
      rcases known other e chosen₁.found with ⟨rfl, five₁⟩ | ⟨rfl, six₁⟩
    · rfl
    · cases (five.symm.trans same).trans six₁
    · cases (six.symm.trans same).trans five₁
    · rfl
  exact ⟨one, (retryBulk_iff rfl (List.cons_ne_nil _ _)).mpr one⟩

end

end Opale.Inventory
