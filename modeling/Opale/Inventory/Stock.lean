import Opale.Effects.Runs
import Opale.Sql.Relational
import Opale.Sql.Transactions
import Mathlib.Algebra.BigOperators.Group.List.Basic
import Mathlib.Algebra.Order.Ring.Int

namespace Opale.Inventory.Stock

open Sql

inductive MovementType where
  | «in» | out
  deriving Repr, DecidableEq

/-- A row of `stock_items`. -/
structure StockItem where
  name : String
  category : Option String
  quantity : Int
  alertThreshold : Option Int
  threshold : Option Int
  unit : String
  description : Option String
  createdAt : Option Int
  updatedAt : Option Int
  lastMovementAt : Option Int
  deriving DecidableEq

/-- What is inserted into `stock_movements`; a quantity is at least 1. -/
structure NewMovement where
  itemId : Nat
  type : MovementType
  quantity : Nat
  positive : 0 < quantity
  note : Option String
  deviceId : Option Nat
  userId : Option Nat
  byName : Option String
  recipientUserId : Option Nat
  recipientLabel : Option String
  deriving DecidableEq

/-- A row of `stock_movements`. -/
structure StockMovement extends NewMovement where
  createdAt : Int
  deriving DecidableEq

/-- The tables that a movement reads and writes; of users and devices only the keys. -/
inductive StockTable where
  | items | movements | users | devices
  deriving Repr, DecidableEq

abbrev StockTable.Row : StockTable → Type
  | .items => StockItem
  | .movements => StockMovement
  | .users | .devices => Unit

abbrev StockDb := Tables StockTable.Row

inductive StockStmt where
  | selectItem (id : Nat)
  | userKnown (entraId : Nat)
  | insertMovement (m : NewMovement)
  | addQuantity (delta : Int) (id : Nat)
  deriving DecidableEq

abbrev StockStmt.Ans : StockStmt → Type
  | .selectItem _ | .addQuantity .. => Option StockItem
  | .userKnown _ => Bool
  | .insertMovement _ => Nat × StockMovement

structure StockDraw where
  now : Int
  id : Nat

abbrev StockOutcome := Outcome (RowChange StockTable.Row) (RowLock StockTable Empty)

/-- The range of the type INTEGER. -/
def isInteger (n : Int) : Bool := -2147483648 ≤ n && n ≤ 2147483647

def refers (db : StockDb) (n : StockTable) (id : Option Nat) : Bool := id.all fun key => (db n).contains key

def StockItem.moved (delta now : Int) (i : StockItem) : StockItem :=
  { i with quantity := i.quantity + delta, lastMovementAt := some now, updatedAt := some now }

def StockStmt.run : (s : StockStmt) → StockDraw → StockDb → Option (StockOutcome s.Ans)
  | .selectItem id, _, db => some ⟨(db .items)[id]?, [], []⟩
  | .userKnown entraId, _, db => some ⟨(db .users).contains entraId, [], []⟩
  | .insertMovement m, draw, db =>
    if isInteger m.quantity && (db .items).contains m.itemId && refers db .users m.userId && refers db .devices m.deviceId &&
        refers db .users m.recipientUserId && !(db .movements).contains draw.id then
      some ⟨(draw.id, ⟨m, draw.now⟩), [⟨.movements, draw.id, some ⟨m, draw.now⟩⟩], []⟩
    else none
  | .addQuantity delta id, draw, db =>
    match (db .items)[id]? with
    | none => some ⟨none, [], []⟩
    | some i =>
      if isInteger (i.quantity + delta) then
        some ⟨some (i.moved delta draw.now), [⟨.items, id, some (i.moved delta draw.now)⟩], []⟩
      else none

def stockSchema : Schema StockStmt.Ans StockDb (RowChange StockTable.Row) (RowLock StockTable Empty) StockDraw :=
  relational (fun _ _ => []) StockStmt.run

/-- The body of a request that its schema lets pass, with the identity of its author; a text that is
empty counts as none. -/
structure MovementRequest where
  itemId : Nat
  type : MovementType
  quantity : Nat
  positive : 0 < quantity
  note : Option String
  deviceId : Option Nat
  recipientUserId : Option Nat
  recipientLabel : Option String
  entraId : Option Nat
  displayName : Option String

def MovementRequest.movement (r : MovementRequest) : NewMovement :=
  ⟨r.itemId, r.type, r.quantity, r.positive, r.note, r.deviceId, r.entraId, r.displayName, r.recipientUserId, r.recipientLabel⟩

def MovementRequest.delta (r : MovementRequest) : Int := if r.type = .in then r.quantity else -r.quantity

inductive StockReply where
  | failed
  | notFound (error : String)
  | insufficient (error : String)
  | badRecipient (error : String)
  | created (movement : Nat × StockMovement) (item : Option StockItem)

abbrev StockApp := App StockStmt.Ans Empty.elim

/-- The two statements of an accepted movement, each committed by itself. -/
def recordMovement (r : MovementRequest) : StockApp StockReply := do
  match ← App.query (StockStmt.insertMovement r.movement) with
  | none => return .failed
  | some movement =>
    match ← App.query (StockStmt.addQuantity r.delta r.itemId) with
    | none => return .failed
    | some item => return .created movement item

/-- `POST /:id/movements` -/
def postMovement (r : MovementRequest) : StockApp StockReply := do
  match ← App.query (StockStmt.selectItem r.itemId) with
  | none => return .failed
  | some none => return .notFound "Article introuvable"
  | some (some item) =>
    if r.type = .out ∧ item.quantity < r.quantity then return .insufficient "Stock insuffisant"
    else
      match r.recipientUserId with
      | none => recordMovement r
      | some recipient =>
        match ← App.query (StockStmt.userKnown recipient) with
        | none => return .failed
        | some false => return .badRecipient "Destinataire introuvable dans l'annuaire"
        | some true => recordMovement r

abbrev StockStore := Store StockDb (RowChange StockTable.Row) (RowLock StockTable Empty)

abbrev StockThreads := Threads (AppOp.Res StockStmt.Ans Empty.elim) StockStore

/-- Any number of requests at the same time. -/
def stockThreads : StockThreads := stockSchema.threads fun program => ∃ r, program = do let _ ← postMovement r; return ()

/-- What the recorded movements of an item with this type add up to. -/
def recorded (type : MovementType) (db : StockDb) (id : Nat) : Int :=
  ((db .movements).toList.map fun e => if e.2.itemId = id ∧ e.2.type = type then (e.2.quantity : Int) else 0).sum

/-- Every quantity is the one at the start, with the entries recorded since and without the exits. -/
def Balanced (db₀ db : StockDb) : Prop :=
  ∀ (id : Nat) (i : StockItem), (db .items)[id]? = some i → 0 ≤ i.quantity ∧ ∃ i₀ : StockItem, (db₀ .items)[id]? = some i₀ ∧
    i.quantity = i₀.quantity + (recorded .in db id - recorded .in db₀ id) - (recorded .out db id - recorded .out db₀ id)

/-- No movement is recorded: its request is refused, or its INSERT fails. -/
def Unrecorded : (o : AppOp StockStmt Empty) → o.Res StockStmt.Ans Empty.elim → Prop
  | .sql (.query (.insertMovement _)), answer => answer = none
  | _, _ => True

variable {db db₀ : StockDb} {st st₁ : StockStore} {t : Nat} {draw : StockDraw}

theorem run_insertMovement {m : NewMovement} {out : StockOutcome (Nat × StockMovement)}
    (ran : (StockStmt.insertMovement m).run draw db = some out) : (∃ i : StockItem, (db .items)[m.itemId]? = some i) ∧
      (db .movements)[draw.id]? = none ∧ out.changes = [⟨.movements, draw.id, some ⟨m, draw.now⟩⟩] := by
  simp only [StockStmt.run] at ran
  split at ran
  case isTrue allowed =>
    cases ran
    simp only [Bool.and_eq_true, Bool.not_eq_true', Std.ExtTreeMap.contains_eq_isSome_getElem?,
      Option.isSome_eq_false_iff, Option.isNone_iff_eq_none, Option.isSome_iff_exists] at allowed
    exact ⟨allowed.1.1.1.1.2, allowed.2, rfl⟩
  case isFalse => cases ran

/-- A movement counts for its item and its type. -/
theorem recorded_insert {m : StockMovement} {key : Nat} (absent : (db .movements)[key]? = none) (type : MovementType)
    (id : Nat) : recorded type (RowChange.apply ⟨.movements, key, some m⟩ db) id =
      (if m.itemId = id ∧ m.type = type then (m.quantity : Int) else 0) + recorded type db id := by
  unfold recorded RowChange.apply
  rw [Function.update_self]
  exact ((Table.perm_toList_insert absent m).map _).sum_eq

theorem balanced_start (sound : ∀ (id : Nat) (i : StockItem), (db₀ .items)[id]? = some i → 0 ≤ i.quantity) :
    Balanced db₀ db₀ := by
  intro id i found
  exact ⟨sound id i found, i, found, by omega⟩

/-- A recorded movement leaves the quantity of its item for a later statement. -/
theorem not_balanced_insert {m : NewMovement} {out : StockOutcome (Nat × StockMovement)}
    (ran : (StockStmt.insertMovement m).run draw db₀ = some out) : ¬Balanced db₀ (stockSchema.applyAll out.changes db₀) := by
  obtain ⟨⟨i, found⟩, absent, changes⟩ := run_insertMovement ran
  rw [changes]
  intro balanced
  have still : (RowChange.apply ⟨.movements, draw.id, some ⟨m, draw.now⟩⟩ db₀ .items)[m.itemId]? = some i := by
    rw [RowChange.apply_of_ne (fun same => by cases same.1)]
    exact found
  obtain ⟨-, i₀, found₀, quantity⟩ := balanced m.itemId i still
  cases found.symm.trans found₀
  have entries := recorded_insert (m := ⟨m, draw.now⟩) absent .in m.itemId
  have exits := recorded_insert (m := ⟨m, draw.now⟩) absent .out m.itemId
  have positive := m.positive
  have applied : stockSchema.applyAll [⟨.movements, draw.id, some ⟨m, draw.now⟩⟩] db₀ =
    RowChange.apply ⟨.movements, draw.id, some ⟨m, draw.now⟩⟩ db₀ := rfl
  rw [applied, entries, exits] at quantity
  cases moved : m.type with
  | «in» =>
    have no : ¬(m.itemId = m.itemId ∧ m.type = .out) := by
      rw [moved]
      exact fun both => by cases both.2
    rw [if_pos ⟨rfl, moved⟩, if_neg no] at quantity
    dsimp only at quantity
    omega
  | out =>
    have no : ¬(m.itemId = m.itemId ∧ m.type = .in) := by
      rw [moved]
      exact fun both => by cases both.2
    rw [if_neg no, if_pos ⟨rfl, moved⟩] at quantity
    dsimp only at quantity
    omega

/-- As long as nothing is recorded, nothing is committed. -/
def untouched (db₀ : StockDb) : Threads.Team (AppOp.Res StockStmt.Ans Empty.elim) StockStore where
  exec t o st answer st₁ := stockSchema.app Empty.elim t o st answer st₁ ∧ Unrecorded o answer
  inv st := st.committed = db₀
  rely _ _ _ := True
  guarantee _ _ _ _ _ := True
  idle _ _ := True
  rely_refl _ _ := trivial
  rely_trans _ := fun _ _ => trivial

theorem safe_read {α : Type} {s : StockStmt} {rest : Option s.Ans → StockApp α}
    (reads : ∀ draw db out, s.run draw db = some out → out.changes = [])
    (later : ∀ answer st, (((untouched db₀).rules t).Safe (fun _ _ => True) (rest answer) st)) :
    ((untouched db₀).rules t).Safe (fun _ _ => True) (App.query s >>= rest) st := by
  intro st₁ _ kept answer st₂ ran
  refine ⟨?_, ⟨fun _ _ => trivial, trivial⟩, later answer st₂⟩
  obtain ⟨draw, out, executed, -, -, rfl⟩ | ⟨-, rfl⟩ := ran.1
  · have same : st₁.committed = db₀ := kept
    change stockSchema.applyAll out.changes st₁.committed = db₀
    rw [reads draw _ out executed]
    exact same
  · exact kept

theorem safe_recordMovement (r : MovementRequest) :
    ((untouched db₀).rules t).Safe (fun _ _ => True) (recordMovement r) st := by
  intro st₁ _ kept answer st₂ ⟨ran, unrecorded⟩
  have nothing : answer = none := unrecorded
  subst nothing
  obtain ⟨_, _, _, _, answered, _⟩ | ⟨-, rfl⟩ := ran
  · cases answered
  · exact ⟨kept, ⟨fun _ _ => trivial, trivial⟩, fun _ _ _ => trivial⟩

theorem safe_postMovement (r : MovementRequest) :
    ((untouched db₀).rules t).Safe (fun _ _ => True) (postMovement r) st := by
  have done {reply : StockReply} {st : StockStore} :
      ((untouched db₀).rules t).Safe (fun _ _ => True) (.ret reply : StockApp StockReply) st := fun _ _ _ => trivial
  refine safe_read (fun draw db out ran => by cases ran; rfl) fun found st₁ => ?_
  rcases found with _ | _ | item
  · exact done
  · exact done
  · dsimp only
    split
    · exact done
    · split
      · exact safe_recordMovement r
      · refine safe_read (fun draw db out ran => by cases ran; rfl) fun known st₂ => ?_
        rcases known with _ | _ | _
        · exact done
        · exact done
        · exact safe_recordMovement r

theorem untouched_reach {c : Threads.Config (AppOp.Res StockStmt.Ans Empty.elim) StockStore}
    (reach : (stockThreads.restrict fun _ o _ answer _ => Unrecorded o answer).Reach (fun st => st = .start db₀) c) :
    c.world.committed = db₀ := by
  have verified : (stockThreads.restrict fun _ o _ answer _ => Unrecorded o answer).Verified (untouched db₀) := by
    refine ⟨fun run => run, fun _ moves => absurd moves id, ?_, fun kept => ⟨kept, fun _ _ _ => trivial, fun _ _ => trivial⟩⟩
    rintro _ t st ⟨r, rfl⟩ kept -
    exact (safe_postMovement r).bind kept fun _ _ _ _ _ _ _ => trivial
  refine reach.inv verified fun st begun => ?_
  rw [begun]
  exact ⟨rfl, fun _ _ _ _ => trivial⟩

/-- The stock is the sum of its movements all along a run exactly when the run records none: the
movement and the quantity are committed one after the other. -/
theorem stock_balanced {events : List (Threads.Event (AppOp.Res StockStmt.Ans Empty.elim) StockStore)}
    {c : Threads.Config (AppOp.Res StockStmt.Ans Empty.elim) StockStore}
    (sound : ∀ (id : Nat) (i : StockItem), (db₀ .items)[id]? = some i → 0 ≤ i.quantity)
    (run : stockThreads.Run (fun st => st = .start db₀) events c) :
    (∀ e ∈ events, Balanced db₀ e.after.committed) ↔ ∀ e ∈ events, Unrecorded e.op e.answer := by
  have holds : ∀ c, (stockThreads.restrict fun _ o _ answer _ => Unrecorded o answer).Reach (fun st => st = .start db₀) c →
      Balanced db₀ c.world.committed := by
    intro c reach
    rw [untouched_reach reach]
    exact balanced_start sound
  refine Threads.Run.lawful_iff (fun st => Balanced db₀ st.committed) run holds fun t o st answer st₁ rest runs reach next ran recorded => ?_
  have before : st.committed = db₀ := untouched_reach reach
  rcases o with (s | _ | _ | _ | _) | c
  case sql.query =>
    cases s with
    | insertMovement m =>
      obtain ⟨draw, out, executed, -, -, rfl⟩ | ⟨nothing, -⟩ := ran
      · rw [before] at executed
        have broken := not_balanced_insert executed
        change ¬Balanced db₀ (stockSchema.applyAll out.changes st.committed)
        rw [before]
        exact broken
      · exact absurd nothing recorded
    | _ => exact absurd trivial recorded
  all_goals exact absurd trivial recorded

/-! Two requests take the last cartridge. -/

def cartridge : StockItem := ⟨"cartridge", none, 1, some 2, some 2, "pcs", none, none, none, none⟩

def lastOne : StockDb
  | .items => (∅ : Table _).insert 1 cartridge
  | .movements => ∅
  | .users | .devices => ∅

def takeOne : MovementRequest := ⟨1, .out, 1, by decide, none, none, none, none, none, none⟩

theorem lastOne_sound (id : Nat) (i : StockItem) (found : (lastOne .items)[id]? = some i) : 0 ≤ i.quantity := by
  by_cases same : id = 1
  · subst same
    cases (Table.getElem?_insert_self _ _ _).symm.trans found
    decide
  · cases (Table.getElem?_insert_of_ne _ same _).symm.trans found

theorem takeOne_entry : stockThreads.entry (do let _ ← postMovement takeOne; return ()) := ⟨takeOne, rfl⟩

def taken (id : Nat) (now : Int) : Nat × StockMovement := (id, ⟨takeOne.movement, now⟩)

def takeTwo : MovementRequest := ⟨1, .out, 2, by decide, none, none, none, none, none, none⟩

/-- A request for more than there is ends with the read of the item. -/
theorem stock_balanced_refused : ∃ events c, stockThreads.Run (fun st => st = .start lastOne) events c ∧ events ≠ [] ∧
    c.runs 0 = .ret () ∧
    ((∀ e ∈ events, Balanced lastOne e.after.committed) ↔ ∀ e ∈ events, Unrecorded e.op e.answer) := by
  have r : stockThreads.Run (fun st => st = .start lastOne) [] _ := .init rfl
  have r := r.begins 0 (do let _ ← postMovement takeTwo; return ()) rfl ⟨takeTwo, rfl⟩
  have r := r.perform 0 rfl (some (some cartridge)) _ (.inl ⟨⟨5, 7⟩, _, rfl, fun _ => nofun, rfl, rfl⟩)
  exact ⟨_, _, r, List.cons_ne_nil _ _, rfl, stock_balanced lastOne_sound r⟩

/-- Both read a quantity of 1, and leave one of -1. -/
theorem stock_negative : ¬∀ db₀ events c, (∀ (id : Nat) (i : StockItem), (db₀ .items)[id]? = some i → 0 ≤ i.quantity) →
    stockThreads.Run (fun st => st = .start db₀) events c → Balanced db₀ c.world.committed := by
  intro balanced
  have r : stockThreads.Run (fun st => st = .start lastOne) [] _ := .init rfl
  have r := r.begins 0 _ rfl takeOne_entry
  have r := r.begins 1 _ rfl takeOne_entry
  have r := r.perform 0 rfl (some (some cartridge)) _ (.inl ⟨⟨5, 7⟩, _, rfl, fun _ => nofun, rfl, rfl⟩)
  have r := r.perform 1 rfl (some (some cartridge)) _ (.inl ⟨⟨5, 7⟩, _, rfl, fun _ => nofun, rfl, rfl⟩)
  have r := r.perform 0 rfl (some (taken 7 5)) _ (.inl ⟨⟨5, 7⟩, _, rfl, fun _ _ => .inl rfl, rfl, rfl⟩)
  have r := r.perform 1 rfl (some (taken 8 5)) _ (.inl ⟨⟨5, 8⟩, _, rfl, fun _ _ => .inl rfl, rfl, rfl⟩)
  have r := r.perform 0 rfl (some (some (cartridge.moved (-1) 6))) _
    (.inl ⟨⟨6, 0⟩, _, rfl, fun _ _ => .inl rfl, rfl, rfl⟩)
  have r := r.perform 1 rfl (some (some ((cartridge.moved (-1) 6).moved (-1) 6))) _
    (.inl ⟨⟨6, 0⟩, _, rfl, fun _ _ => .inl rfl, rfl, rfl⟩)
  have quantity := (balanced _ _ _ lastOne_sound r 1 ((cartridge.moved (-1) 6).moved (-1) 6) rfl).1
  exact absurd quantity (by decide)

end Opale.Inventory.Stock
