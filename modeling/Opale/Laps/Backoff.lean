import Opale.Effects.Interruption
import Opale.Laps.Rotator
import Mathlib.Algebra.Order.Ring.Int
import Mathlib.Tactic.Linarith
import Mathlib.Tactic.Ring

namespace Opale.Laps

/-- An operation of a run, with its answer. -/
abbrev LapsEvent := (o : LapsOp) × o.Res

/-- The operations of a run, the last one first. -/
abbrev LapsLog := List LapsEvent

/-- Every operation goes to the log, whatever is answered. -/
def logs (o : LapsOp) (log : LapsLog) (answer : o.Res) (log₁ : LapsLog) : Prop := log₁ = ⟨o, answer⟩ :: log

inductive Verdict where
  | idle | failed | succeeded
  deriving DecidableEq

/-- What an operation says of its run: a rotation that begins has failed until its password is applied, a
legacy stash until the server takes it or refuses it for good. -/
def mark : (o : LapsOp) → o.Res → Option Verdict
  | .username, _ => some .failed
  | .apply .., res => if res.outcome = .ok then some .succeeded else none
  | .escrow .flushLegacyStash .., .ok () => some .succeeded
  | .escrow .flushLegacyStash .., .error err => if isPermanentEscrowRejection err then none else some .failed
  | _, _ => none

def verdict : LapsLog → Verdict
  | [] => .idle
  | e :: log => (mark e.1 e.2).getD (verdict log)

/-- The time at which a run was started. -/
def started : LapsLog → Option Time
  | [] => none
  | ⟨.now, now⟩ :: _ => some now
  | _ :: log => started log

/-- The last state that reached the disk. -/
def saved : LapsLog → Option State
  | [] => none
  | ⟨.save st, true⟩ :: _ => some st
  | _ :: log => saved log

def LapsOp.Posts : LapsOp → Prop
  | .escrow .. => True
  | _ => False

/-- The server has just taken the ciphertext of the password, and the disk the stash "escrowed" with it. -/
def Backed (log : LapsLog) (username password : String) : Prop :=
  ∃ enc st at_ before, log = ⟨.save st, true⟩ :: ⟨.escrow .rotate username enc, .ok ()⟩ :: before ∧
    ⟨.encrypt password, some enc⟩ ∈ before ∧ st.pendingAdminCred = some ⟨username, Base64.encode enc, at_, .escrowed⟩

/-- Every password is backed before it is applied. -/
def AppliesBacked : LapsLog → Prop
  | [] => True
  | ⟨.apply username password _, _⟩ :: log => Backed log username password ∧ AppliesBacked log
  | _ :: log => AppliesBacked log

/-- A run that has ended, or was cut off. -/
structure LapsRun where
  log : LapsLog
  ended : Bool

/-- The failures since the last success, and the time of the last one. -/
structure Tally where
  failures : Nat
  last : Time
  deriving DecidableEq

/-- The last run comes first. One that was cut off has not failed. -/
def tally : List LapsRun → Tally
  | [] => ⟨0, 0⟩
  | r :: runs =>
    match verdict r.log with
    | .idle => tally runs
    | .failed => if r.ended then ⟨(tally runs).failures + 1, (started r.log).getD 0⟩ else tally runs
    | .succeeded => ⟨0, 0⟩

/-- The runs of the agent, with its state in memory and the one on disk. It may die between any two
operations, when `dies` allows it after what it has done, and goes on from the disk. -/
inductive History (accounts : Bool) (dies : List LapsRun → State → LapsLog → State → Prop) (first : State) :
    List LapsRun → State → State → Prop
  | start : History accounts dies first [] first first
  | ends {runs st disk st₁ log} : History accounts dies first runs st disk →
      Rules.Ends logs (run accounts st) [] st₁ log →
      History accounts dies first (⟨log, true⟩ :: runs) st₁ ((saved log).getD disk)
  | dies {runs st disk log} : History accounts dies first runs st disk → dies runs st log disk →
      Rules.Stops logs (fun _ _ _ => False) (run accounts st) [] log →
      History accounts dies first (⟨log, false⟩ :: runs) ((saved log).getD disk) ((saved log).getD disk)

/-- The fields of the backoff. -/
def State.backoff (st : State) : Int × Time := (st.lapsFailures, st.lapsRetryAfter)

/-- The failures that are counted are on the disk that a run leaves: it has saved a state there, or the disk
had them before. -/
def Remembered (runs : List LapsRun) (st : State) (log : LapsLog) (disk : State) : Prop :=
  0 < (tally runs).failures → (saved log).isSome ∨ disk.backoff = st.backoff

/-- The clock has not been set back from one run to the next. -/
def Forward (runs : List LapsRun) : Prop := (runs.filterMap (started ·.log)).Pairwise (· ≥ ·)

instance (runs : List LapsRun) : Decidable (Forward runs) :=
  inferInstanceAs (Decidable ((runs.filterMap (started ·.log)).Pairwise (· ≥ ·)))

/-- A run that POSTs is late enough after the last of the failures. -/
def Waited (runs : List LapsRun) : Prop :=
  ∀ r before, r :: before <:+ runs → (∃ e ∈ r.log, e.1.Posts) → 0 < (tally before).failures →
    ∃ now, started r.log = some now ∧
      (tally before).last + min (15 * minute * 2 ^ ((tally before).failures - 1)) (24 * hour) ≤ now

/-- The doubling loop in the 64 bits of a `time.Duration`. -/
def lapsBackoffLoop64 : Nat → Int → Int
  | 0, d => d
  | n + 1, d =>
    if Int.bmod (2 * d) (2 ^ 64) ≥ lapsBackoffMax then lapsBackoffMax
    else lapsBackoffLoop64 n (Int.bmod (2 * d) (2 ^ 64))

theorem lapsBackoffLoop_eq {d : Int} (positive : 0 ≤ d) (below : d < lapsBackoffMax) (n : Nat) :
    lapsBackoffLoop n d = min (d * 2 ^ n) lapsBackoffMax := by
  induction n generalizing d with
  | zero => rw [pow_zero, mul_one, min_eq_left below.le, lapsBackoffLoop]
  | succ n ih =>
    have doubled : d * 2 ^ (n + 1) = 2 * d * 2 ^ n := by ring
    rw [lapsBackoffLoop, doubled]
    split
    case isTrue reached =>
      have one : (1 : Int) ≤ 2 ^ n := one_le_pow₀ (by decide)
      have grown : 2 * d ≤ 2 * d * 2 ^ n := le_mul_of_one_le_right (by omega) one
      exact (min_eq_right (reached.trans grown)).symm
    case isFalse short => exact ih (by omega) (by omega)

/-- No doubling leaves the 64 bits. -/
theorem lapsBackoffLoop64_eq {d : Int} (positive : 0 ≤ d) (below : d < lapsBackoffMax) (n : Nat) :
    lapsBackoffLoop64 n d = lapsBackoffLoop n d := by
  induction n generalizing d with
  | zero => rfl
  | succ n ih =>
    have most : lapsBackoffMax = 86400000000000 := rfl
    have fits : Int.bmod (2 * d) (2 ^ 64) = 2 * d := by
      refine Int.bmod_eq_of_le ?_ ?_ <;> omega
    rw [lapsBackoffLoop64, lapsBackoffLoop, fits]
    split
    · rfl
    · exact ih (by omega) (by omega)

theorem lapsBackoff_eq {n : Nat} (positive : 0 < n) :
    lapsBackoff n = min (15 * minute * 2 ^ (n - 1)) (24 * hour) := by
  have rounds : ((n : Int) - 1).toNat = n - 1 := by omega
  unfold lapsBackoff
  rw [rounds]
  exact lapsBackoffLoop_eq (by decide) (by decide) (n - 1)

theorem lapsBackoff_le (n : Int) : lapsBackoff n ≤ lapsBackoffMax := by
  unfold lapsBackoff
  rw [lapsBackoffLoop_eq (by decide) (by decide)]
  exact min_le_right _ _

theorem lapsBackoff_mono {m n : Int} (more : m ≤ n) : lapsBackoff m ≤ lapsBackoff n := by
  have rounds : (m - 1).toNat ≤ (n - 1).toNat := by omega
  have powers : (2 : Int) ^ (m - 1).toNat ≤ 2 ^ (n - 1).toNat := pow_le_pow_right₀ (by decide) rounds
  unfold lapsBackoff
  rw [lapsBackoffLoop_eq (by decide) (by decide), lapsBackoffLoop_eq (by decide) (by decide)]
  exact min_le_min_right _ (mul_le_mul_of_nonneg_left powers (by decide))

theorem lapsBackoff_nonneg (n : Int) : 0 ≤ lapsBackoff n := by
  unfold lapsBackoff
  rw [lapsBackoffLoop_eq (by decide) (by decide)]
  exact le_min (mul_nonneg (by decide) (pow_nonneg (by decide) _)) (by decide)

/-- The backoff still holds the rotation off. -/
def Waits (st : State) (now : Time) : Prop := st.lapsRetryAfter - now > 0 ∧ st.lapsRetryAfter - now ≤ lapsBackoffMax

/-- What a run makes of the backoff of the state that it starts from. -/
def Settled (st : State) (now : Time) : Verdict → State → Prop
  | .idle, st₁ => st₁.backoff = st.backoff
  | .failed, st₁ => st₁.backoff = (fail st now).backoff
  | .succeeded, st₁ => st₁.backoff = (0, 0)

/-- A log beyond the clock: what was saved has the backoff of the start, or that of the verdict. -/
structure InTurn (st : State) (now : Time) (log : LapsLog) : Prop where
  begun : started log = some now
  free : ¬Waits st now
  backed : AppliesBacked log
  written : ∀ s, saved log = some s → s.backoff = st.backoff ∨ Settled st now (verdict log) s

/-- A log on which nothing is settled yet. -/
structure Open (st : State) (now : Time) (v : Verdict) (log : LapsLog) : Prop where
  begun : started log = some now
  free : ¬Waits st now
  backed : AppliesBacked log
  judged : verdict log = v
  written : ∀ s, saved log = some s → s.backoff = st.backoff

/-- Before the backoff is looked at, a run has only read the clock. -/
def Sober (st : State) (log : LapsLog) : Prop := (∀ e ∈ log, e.1 = .now) ∨ ∃ now, InTurn st now log

def turnRules (st : State) : Rules LapsOp.Res LapsLog where
  exec := logs
  inv := Sober st
  rely := Eq
  guarantee _ _ _ _ := True
  rely_refl _ := rfl
  rely_trans := Eq.trans

/-- How a run ends. -/
def Turned (st st₁ : State) (log : LapsLog) : Prop := ∃ now, started log = some now ∧ Settled st now (verdict log) st₁

variable {st st₁ : State} {now : Time} {v : Verdict} {log : LapsLog} {α β : Type}

theorem Open.inTurn (here : Open st now v log) : InTurn st now log :=
  ⟨here.begun, here.free, here.backed, fun s last => .inl (here.written s last)⟩

/-- An operation that may come at any point of a run. -/
def LapsOp.Plain : LapsOp → Prop
  | .now | .save _ | .apply .. => False
  | _ => True

/-- One more operation that leaves the backoff alone. -/
theorem Open.step (here : Open st now v log) {o : LapsOp} (answer : o.Res)
    (begun : started (⟨o, answer⟩ :: log) = some now) (backed : AppliesBacked (⟨o, answer⟩ :: log))
    (same : ∀ s, saved (⟨o, answer⟩ :: log) = some s → s.backoff = st.backoff) :
    Open st now ((mark o answer).getD v) (⟨o, answer⟩ :: log) where
  begun := begun
  free := here.free
  backed := backed
  judged := by rw [verdict, here.judged]
  written := same

/-- The rule for such an operation in front of a program. -/
theorem safe_open {post : α → LapsLog → Prop} {o : LapsOp} {next : o.Res → Rotator α}
    (there : ∀ answer, Open st now ((mark o answer).getD v) (⟨o, answer⟩ :: log))
    (later : ∀ answer, Open st now ((mark o answer).getD v) (⟨o, answer⟩ :: log) →
      (turnRules st).Safe post (next answer) (⟨o, answer⟩ :: log)) :
    (turnRules st).Safe post (perform o >>= next) log := by
  refine Rules.Safe.perform fun log₁ moves _ answer log₂ ran => ?_
  cases moves
  cases ran
  exact ⟨.inr ⟨now, (there answer).inTurn⟩, trivial, later answer (there answer)⟩

theorem Open.call {post : α → LapsLog → Prop} {o : LapsOp} {next : o.Res → Rotator α} (here : Open st now v log)
    (plain : o.Plain) (later : ∀ answer, Open st now ((mark o answer).getD v) (⟨o, answer⟩ :: log) →
      (turnRules st).Safe post (next answer) (⟨o, answer⟩ :: log)) :
    (turnRules st).Safe post (perform o >>= next) log := by
  refine safe_open (fun answer => ?_) later
  cases o with
  | now | save | apply => exact plain.elim
  | username | lookup | genPassword | encrypt | escrow => exact here.step answer here.begun here.backed here.written

/-- A save that is not the last one. -/
theorem Open.save {post : α → LapsLog → Prop} {mem : State} {next : Bool → Rotator α} (here : Open st now v log)
    (same : mem.backoff = st.backoff) (later : ∀ answer, Open st now v (⟨.save mem, answer⟩ :: log) →
      (turnRules st).Safe post (next answer) (⟨.save mem, answer⟩ :: log)) :
    (turnRules st).Safe post (perform (.save mem) >>= next) log := by
  refine safe_open (fun answer => here.step answer here.begun here.backed fun s last => ?_) later
  cases answer with
  | true =>
    cases last
    exact same
  | false => exact here.written s last

theorem safe_ret {post : α → LapsLog → Prop} {value : α} (here : post value log) :
    (turnRules st).Safe post (.ret value) log := by
  rintro _ rfl -
  exact here

/-- The last save of a run, with what the run makes of the backoff. -/
theorem Open.settle (here : Open st now v log) (settled : Settled st now v st₁) :
    (turnRules st).Safe (Turned st) (saveState st₁) log := by
  rintro _ rfl - answer _ ⟨⟩
  have last : verdict (⟨.save st₁, answer⟩ :: log) = v := here.judged
  have there : InTurn st now (⟨.save st₁, answer⟩ :: log) := by
    refine ⟨here.begun, here.free, here.backed, fun s reached => ?_⟩
    cases answer with
    | true =>
      cases reached
      rw [last]
      exact .inr settled
    | false => exact .inl (here.written s reached)
  refine ⟨.inr ⟨now, there⟩, trivial, safe_ret ⟨now, there.begun, ?_⟩⟩
  rw [last]
  exact settled

variable {mem : State}

theorem settled_fail (same : mem.backoff = st.backoff) : Settled st now .failed (fail mem now) := by
  obtain ⟨failures, -⟩ := Prod.mk.inj same
  simp only [Settled, State.backoff, fail, failures]

theorem backoff_record (sid : String) : (recordLAPSManagedSID mem sid).backoff = mem.backoff := by
  unfold recordLAPSManagedSID
  split
  · rfl
  split <;> rfl

theorem Open.keep (here : Open st now v log) (same : mem.backoff = st.backoff) :
    (turnRules st).Safe (fun st₁ log₁ => st₁ = mem ∧ Open st now v log₁) (saveState mem) log :=
  here.save same fun _ there => safe_ret ⟨rfl, there⟩

theorem Open.restore (here : Open st now v log) :
    (turnRules st).Safe (fun _ log₁ => Open st now v log₁) (restoreCurrentEscrow mem) log := by
  unfold restoreCurrentEscrow
  split
  · exact safe_ret here
  split
  · exact safe_ret here
  refine here.call trivial fun answer there => ?_
  cases answer with
  | error err => exact safe_ret there
  | ok => exact safe_ret there

/-- After a restoration, a failure, whether the stash is settled or not. -/
theorem Open.giveUp (here : Open st now .failed log) {a b : State} (first : a.backoff = st.backoff)
    (second : b.backoff = st.backoff) :
    (turnRules st).Safe (Turned st) (do
      if ← restoreCurrentEscrow mem then saveState (fail a now) else saveState (fail b now)) log := by
  refine here.restore.bind (.inr ⟨now, here.inTurn⟩) fun restored log₁ _ there => ?_
  cases restored with
  | true => exact there.settle (settled_fail first)
  | false => exact there.settle (settled_fail second)

theorem Open.applyRotation {username password encB64 : String} {acct : LapsAccount} (here : Open st now .failed log)
    (same : mem.backoff = st.backoff) (backed : Backed log username password) :
    (turnRules st).Safe (Turned st) (Laps.applyRotation mem now username password encB64 acct) log := by
  refine safe_open (fun res => here.step res here.begun ⟨backed, here.backed⟩ here.written) ?_
  intro res there
  have recorded (sid : String) : (recordLAPSManagedSID mem sid).backoff = st.backoff := (backoff_record sid).trans same
  dsimp only
  cases outcome : res.outcome with
  | ok =>
    have succeeded : mark (.apply username password acct) res = some .succeeded := if_pos outcome
    rw [succeeded] at there
    exact there.settle rfl
  | changedPartial =>
    have failed : mark (.apply username password acct) res = none := if_neg (by rw [outcome]; nofun)
    rw [failed] at there
    exact there.settle (settled_fail (recorded _))
  | unchanged =>
    have failed : mark (.apply username password acct) res = none := if_neg (by rw [outcome]; nofun)
    rw [failed] at there
    exact there.giveUp same same
  | uncertain =>
    have failed : mark (.apply username password acct) res = none := if_neg (by rw [outcome]; nofun)
    rw [failed] at there
    exact there.settle (settled_fail same)

theorem Open.escrowRotation {username password : String} {encrypted : List UInt8} {acct : LapsAccount}
    (here : Open st now .failed log) (same : mem.backoff = st.backoff)
    (known : ⟨.encrypt password, some encrypted⟩ ∈ log) :
    (turnRules st).Safe (Turned st) (Laps.escrowRotation mem now username password encrypted acct) log := by
  unfold Laps.escrowRotation
  refine here.save same fun prepared there => ?_
  cases prepared with
  | false => exact safe_ret ⟨now, there.begun, by rw [there.judged]; exact settled_fail same⟩
  | true =>
    refine there.call trivial fun answer posted => ?_
    cases answer with
    | error err => exact posted.settle (settled_fail same)
    | ok =>
      refine posted.save same fun escrowed stashed => ?_
      cases escrowed with
      | true => exact stashed.applyRotation same ⟨_, _, _, _, rfl, List.mem_cons_of_mem _ known, rfl⟩
      | false => exact stashed.giveUp same same

theorem Open.rotate (here : Open st now v log) (same : mem.backoff = st.backoff) :
    (turnRules st).Safe (Turned st) (Laps.rotate mem now) log := by
  unfold Laps.rotate
  refine here.call trivial fun username there => ?_
  split
  · exact there.settle (settled_fail same)
  refine there.call trivial fun found there => ?_
  cases found with
  | error err => exact there.settle (settled_fail same)
  | ok acct =>
    dsimp only
    split
    · exact there.settle (settled_fail same)
    refine there.call trivial fun password there => ?_
    cases password with
    | none => exact there.settle (settled_fail same)
    | some password =>
      refine there.call trivial fun encrypted there => ?_
      cases encrypted with
      | none => exact there.settle (settled_fail same)
      | some encrypted => exact there.escrowRotation same List.mem_cons_self

theorem Open.rollForward {accounts force : Bool} (here : Open st now .idle log) (same : mem.backoff = st.backoff) :
    (turnRules st).Safe (Turned st) (Laps.rollForward accounts mem now force) log := by
  have idle : (turnRules st).Safe (Turned st) (.ret mem) log :=
    safe_ret ⟨now, here.begun, by rw [here.judged]; exact same⟩
  unfold Laps.rollForward
  split
  · exact idle
  split
  · dsimp only
    split
    · exact here.rotate same
    · exact idle
  split
  · refine here.restore.bind (.inr ⟨now, here.inTurn⟩) fun restored log₁ _ there => ?_
    cases restored with
    | false => exact there.rotate same
    | true =>
      have kept := there.keep (show ({ mem with pendingAdminCred := none } : State).backoff = st.backoff from same)
      refine kept.bind (.inr ⟨now, there.inTurn⟩) ?_
      rintro _ log₂ - ⟨rfl, there⟩
      exact there.rotate same
  · exact here.rotate same

/-- How a legacy stash is left: an abandoned one has settled nothing. -/
def Flushed (st : State) (now : Time) (result : State × Bool) (log : LapsLog) : Prop :=
  if result.2 then Open st now .idle log ∧ result.1.backoff = st.backoff else Turned st result.1 log

theorem mark_refused {username : String} {enc : List UInt8} {err : EscrowError} :
    mark (.escrow .flushLegacyStash username enc) (.error err) =
      if isPermanentEscrowRejection err then none else some .failed := rfl

theorem Open.flushLegacyStash {p : PendingAdminCred} (here : Open st now .idle log) (same : mem.backoff = st.backoff) :
    (turnRules st).Safe (Flushed st now) (Laps.flushLegacyStash mem p now) log := by
  have sober {v : Verdict} {log : LapsLog} (there : Open st now v log) : Sober st log := .inr ⟨now, there.inTurn⟩
  have last {v : Verdict} {log : LapsLog} (there : Open st now v log) {st₁ : State} (settled : Settled st now v st₁) :
      (turnRules st).Safe (Flushed st now) (do let st₂ ← saveState st₁; return (st₂, false)) log :=
    (there.settle settled).bind (sober there) fun _ _ _ turned => safe_ret turned
  have abandon {log : LapsLog} (there : Open st now .idle log) :
      (turnRules st).Safe (Flushed st now)
        (do let st₂ ← saveState { mem with pendingAdminCred := none }; return (st₂, true)) log := by
    have kept := there.keep (show ({ mem with pendingAdminCred := none } : State).backoff = st.backoff from same)
    refine kept.bind (sober there) ?_
    rintro _ log₁ - ⟨rfl, later⟩
    exact safe_ret ⟨later, same⟩
  unfold Laps.flushLegacyStash
  split
  · exact last here same
  split
  · exact abandon here
  · exact abandon here
  refine here.call trivial fun answer there => ?_
  cases answer with
  | ok => exact last there rfl
  | error err =>
    dsimp only
    cases permanent : isPermanentEscrowRejection err with
    | true =>
      rw [mark_refused, permanent] at there
      exact abandon there
    | false =>
      rw [mark_refused, permanent] at there
      exact last there (settled_fail same)

theorem safe_turn (accounts : Bool) (st : State) : (turnRules st).Safe (Turned st) (run accounts st) [] := by
  unfold run
  refine Rules.Safe.perform ?_
  rintro _ rfl - now _ ⟨⟩
  have clock : Sober st [⟨.now, now⟩] := .inl fun e member => by rw [List.mem_singleton.mp member]
  refine ⟨clock, trivial, ?_⟩
  dsimp only
  split
  case isTrue => exact safe_ret ⟨now, rfl, rfl⟩
  case isFalse free =>
    have here : Open st now .idle [⟨.now, now⟩] := ⟨rfl, free, trivial, rfl, fun s last => by cases last⟩
    split
    · refine (here.flushLegacyStash rfl).bind clock ?_
      rintro ⟨st₁, abandoned⟩ log₁ - flushed
      cases abandoned with
      | true => exact flushed.1.rollForward flushed.2
      | false => exact safe_ret flushed
    · exact here.rollForward rfl

variable {accounts : Bool} {runs : List LapsRun} {disk first : State}

theorem sober_nil : Sober st [] := .inl fun _ member => absurd member List.not_mem_nil

theorem turned_of_ends (ends : Rules.Ends logs (run accounts st) [] st₁ log) : Turned st st₁ log ∧ Sober st log :=
  ⟨(safe_turn accounts st).ends ends sober_nil, (safe_turn accounts st).stops sober_nil ends.stops⟩

theorem Sober.backed (sober : Sober st log) : AppliesBacked log := by
  obtain clock | ⟨now, turn⟩ := sober
  · induction log with
    | nil => trivial
    | cons e log ih =>
      obtain ⟨o, answer⟩ := e
      obtain rfl : o = .now := clock _ List.mem_cons_self
      exact ih fun e member => clock e (List.mem_cons_of_mem _ member)
  · exact turn.backed

/-- Whoever saves or POSTs has looked at the backoff. -/
theorem Sober.inTurn (sober : Sober st log) {e : LapsEvent} (member : e ∈ log) (other : e.1 ≠ .now) :
    ∃ now, InTurn st now log := sober.resolve_left fun clock => other (clock e member)

theorem mem_of_saved {s : State} (last : saved log = some s) : (⟨.save s, true⟩ : LapsEvent) ∈ log := by
  induction log with
  | nil => cases last
  | cons e log ih =>
    obtain ⟨o, answer⟩ := e
    cases o with
    | save written =>
      cases answer with
      | true =>
        cases last
        exact List.mem_cons_self
      | false => exact List.mem_cons_of_mem _ (ih last)
    | _ => exact List.mem_cons_of_mem _ (ih last)

/-- The times at which the runs were started. -/
def starts (runs : List LapsRun) : List Time := runs.filterMap (started ·.log)

/-- The state counts the failures of the runs, and holds off for as long as they ask. -/
structure Counts (runs : List LapsRun) (st : State) : Prop where
  nonneg : 0 ≤ st.lapsFailures
  counted : (tally runs).failures ≤ st.lapsFailures
  waits : 0 < (tally runs).failures →
    (tally runs).last + lapsBackoff (tally runs).failures ≤ st.lapsRetryAfter ∧
      ∃ t ∈ starts runs, st.lapsRetryAfter ≤ t + lapsBackoffMax

theorem Counts.of_backoff (counts : Counts runs st) (same : st₁.backoff = st.backoff) : Counts runs st₁ := by
  obtain ⟨failures, retry⟩ := Prod.mk.inj same
  refine ⟨?_, ?_, ?_⟩
  · rw [failures]
    exact counts.nonneg
  · rw [failures]
    exact counts.counted
  · rw [retry]
    exact counts.waits

theorem starts_subset (r : LapsRun) (runs : List LapsRun) : starts runs ⊆ starts (r :: runs) := by
  intro t member
  unfold starts at member ⊢
  rw [List.filterMap_cons]
  split
  · exact member
  · exact List.mem_cons_of_mem _ member

theorem Counts.same {r : LapsRun} (counts : Counts runs st) (same : tally (r :: runs) = tally runs) :
    Counts (r :: runs) st := by
  refine ⟨counts.nonneg, ?_, ?_⟩
  · rw [same]
    exact counts.counted
  · rw [same]
    intro some_
    obtain ⟨held, t, member, bound⟩ := counts.waits some_
    exact ⟨held, t, starts_subset r runs member, bound⟩

theorem Counts.none {r : LapsRun} (nonneg : 0 ≤ st.lapsFailures) (none_ : (tally (r :: runs)).failures = 0) :
    Counts (r :: runs) st := by
  refine ⟨nonneg, ?_, ?_⟩
  · rw [none_]
    exact nonneg
  · rw [none_]
    exact fun some_ => absurd some_ (lt_irrefl 0)

theorem starts_le {r : LapsRun} (forward : Forward (r :: runs)) (begun : started r.log = some now) :
    ∀ t ∈ starts runs, t ≤ now := by
  unfold Forward at forward
  rw [List.filterMap_cons, begun] at forward
  exact (List.pairwise_cons.mp forward).1

/-- A run that the backoff lets through comes after what it asks for. -/
theorem Counts.elapsed (counts : Counts runs st) (later : ∀ t ∈ starts runs, t ≤ now) (free : ¬Waits st now)
    (some_ : 0 < (tally runs).failures) : (tally runs).last + lapsBackoff (tally runs).failures ≤ now := by
  obtain ⟨held, t, member, bound⟩ := counts.waits some_
  have before := later t member
  have reached : st.lapsRetryAfter ≤ now := by
    by_contra ahead
    exact free ⟨by linarith, by linarith⟩
  exact held.trans reached

theorem Counts.failed {r : LapsRun} (counts : Counts runs st) (begun : started r.log = some now)
    (counted : tally (r :: runs) = ⟨(tally runs).failures + 1, now⟩) (settled : Settled st now .failed st₁) :
    Counts (r :: runs) st₁ := by
  obtain ⟨failures, retry⟩ := Prod.mk.inj settled
  simp only [fail] at failures retry
  have nonneg := counts.nonneg
  have known := counts.counted
  refine ⟨by omega, by rw [counted, failures]; push_cast; omega, fun _ => ?_⟩
  have most := lapsBackoff_le (st.lapsFailures + 1)
  have longer : lapsBackoff ((tally runs).failures + 1) ≤ lapsBackoff (st.lapsFailures + 1) :=
    lapsBackoff_mono (by omega)
  rw [counted, retry]
  refine ⟨?_, now, ?_, by linarith⟩
  · push_cast
    linarith
  · unfold starts
    rw [List.filterMap_cons, begun]
    exact List.mem_cons_self

/-- A failure that is saved but cut off before it counts. -/
theorem Counts.uncounted {r : LapsRun} (counts : Counts runs st) (forward : Forward (r :: runs))
    (turn : InTurn st now r.log) (same : tally (r :: runs) = tally runs) (settled : Settled st now .failed st₁) : Counts (r :: runs) st₁ := by
  obtain ⟨failures, retry⟩ := Prod.mk.inj settled
  simp only [fail] at failures retry
  have nonneg := counts.nonneg
  have known := counts.counted
  refine ⟨by omega, by rw [same, failures]; omega, fun some_ => ?_⟩
  rw [same] at some_
  have elapsed := counts.elapsed (starts_le forward turn.begun) turn.free some_
  have most := lapsBackoff_le (st.lapsFailures + 1)
  have held := lapsBackoff_nonneg (st.lapsFailures + 1)
  rw [same, retry]
  refine ⟨by linarith, now, ?_, by linarith⟩
  unfold starts
  rw [List.filterMap_cons, turn.begun]
  exact List.mem_cons_self

theorem tally_idle {r : LapsRun} (judged : verdict r.log = .idle) : tally (r :: runs) = tally runs := by
  simp only [tally, judged]

theorem tally_cut {r : LapsRun} (judged : verdict r.log = .failed) (cut : r.ended = false) :
    tally (r :: runs) = tally runs := by
  simp only [tally, judged, cut]
  rfl

theorem tally_failed {r : LapsRun} (judged : verdict r.log = .failed) (ended : r.ended = true)
    (begun : started r.log = some now) : tally (r :: runs) = ⟨(tally runs).failures + 1, now⟩ := by
  simp only [tally, judged, ended, begun]
  rfl

theorem tally_succeeded {r : LapsRun} (judged : verdict r.log = .succeeded) : tally (r :: runs) = ⟨0, 0⟩ := by
  simp only [tally, judged]

theorem Counts.onDisk {r : LapsRun} (counts : Counts runs st) (nonneg : 0 ≤ disk.lapsFailures)
    (remembered : Remembered runs st log disk) (unsaved : saved log = Option.none) (same : tally (r :: runs) = tally runs) :
    Counts (r :: runs) disk := by
  rcases Nat.eq_zero_or_pos (tally runs).failures with none_ | some_
  · exact .none nonneg (by rw [same]; exact none_)
  · obtain written | known := remembered some_
    · rw [unsaved] at written
      cases written
    · exact (counts.of_backoff known).same same

theorem Settled.nonneg (settled : Settled st now v st₁) (nonneg : 0 ≤ st.lapsFailures) : 0 ≤ st₁.lapsFailures := by
  cases v with
  | idle =>
    obtain ⟨failures, -⟩ := Prod.mk.inj settled
    omega
  | failed =>
    obtain ⟨failures, -⟩ := Prod.mk.inj settled
    simp only [fail] at failures
    omega
  | succeeded =>
    obtain ⟨failures, -⟩ := Prod.mk.inj settled
    omega

/-- What was saved last is a state that the run was started from, or one that it has settled. -/
theorem Sober.saved (sober : Sober st log) {s : State} (last : saved log = some s) :
    ∃ now, InTurn st now log ∧ (s.backoff = st.backoff ∨ Settled st now (verdict log) s) := by
  obtain ⟨now, turn⟩ := sober.inTurn (mem_of_saved last) nofun
  exact ⟨now, turn, turn.written s last⟩

theorem Sober.nonneg (sober : Sober st log) (nonneg : 0 ≤ st.lapsFailures) (disk_ : 0 ≤ disk.lapsFailures) :
    0 ≤ ((Laps.saved log).getD disk).lapsFailures := by
  cases last : Laps.saved log with
  | none => exact disk_
  | some s =>
    obtain ⟨now, turn, unchanged | settled⟩ := sober.saved last
    · have settled : Settled st now .idle s := unchanged
      exact settled.nonneg nonneg
    · exact settled.nonneg nonneg

/-- A process that dies leaves on the disk what the next one has to know. -/
theorem Counts.cut (counts : Counts runs st) (nonneg : 0 ≤ disk.lapsFailures) (remembered : Remembered runs st log disk)
    (sober : Sober st log) (forward : Forward (⟨log, false⟩ :: runs)) :
    Counts (⟨log, false⟩ :: runs) ((saved log).getD disk) := by
  cases judged : verdict log with
  | succeeded =>
    have none_ : tally (⟨log, false⟩ :: runs) = ⟨0, 0⟩ := tally_succeeded judged
    exact .none (sober.nonneg counts.nonneg nonneg) (by rw [none_])
  | idle =>
    have same : tally (⟨log, false⟩ :: runs) = tally runs := tally_idle judged
    cases last : saved log with
    | none => exact counts.onDisk nonneg remembered last same
    | some s =>
      obtain ⟨now, turn, unchanged | settled⟩ := sober.saved last
      · exact (counts.of_backoff unchanged).same same
      · rw [judged] at settled
        exact (counts.of_backoff settled).same same
  | failed =>
    have same : tally (⟨log, false⟩ :: runs) = tally runs := tally_cut judged rfl
    cases last : saved log with
    | none => exact counts.onDisk nonneg remembered last same
    | some s =>
      obtain ⟨now, turn, unchanged | settled⟩ := sober.saved last
      · exact (counts.of_backoff unchanged).same same
      · rw [judged] at settled
        exact counts.uncounted forward turn same settled

/-- A run that ends. -/
theorem Counts.ended (counts : Counts runs st) (turned : Turned st st₁ log) : Counts (⟨log, true⟩ :: runs) st₁ := by
  obtain ⟨now, begun, settled⟩ := turned
  cases judged : verdict log with
  | idle =>
    rw [judged] at settled
    exact (counts.of_backoff settled).same (tally_idle judged)
  | failed =>
    rw [judged] at settled
    exact counts.failed begun (tally_failed judged rfl begun) settled
  | succeeded =>
    rw [judged] at settled
    have none_ : tally (⟨log, true⟩ :: runs) = ⟨0, 0⟩ := tally_succeeded judged
    exact .none (settled.nonneg counts.nonneg) (by rw [none_])

/-- A run that POSTs has waited. -/
theorem Counts.waited {r : LapsRun} (counts : Counts runs st) (forward : Forward (r :: runs)) (sober : Sober st r.log)
    (earlier : Waited runs) : Waited (r :: runs) := by
  intro q before suffix posts some_
  obtain same | inside := List.suffix_cons_iff.mp suffix
  · cases same
    obtain ⟨e, member, post⟩ := posts
    have other : e.1 ≠ .now := by
      intro clock
      rw [clock] at post
      exact post
    obtain ⟨now, turn⟩ := sober.inTurn member other
    have elapsed := counts.elapsed (starts_le forward turn.begun) turn.free some_
    rw [lapsBackoff_eq some_] at elapsed
    exact ⟨now, turn.begun, elapsed⟩
  · exact earlier q before inside posts some_

theorem Forward.tail {r : LapsRun} (forward : Forward (r :: runs)) : Forward runs := by
  unfold Forward at forward ⊢
  rw [List.filterMap_cons] at forward
  split at forward
  · exact forward
  · exact (List.pairwise_cons.mp forward).2

/-- What holds along the runs, step by step. -/
theorem History.kept (history : History accounts Remembered first runs st disk) (counted : 0 ≤ first.lapsFailures)
    (forward : Forward runs) :
    Counts runs st ∧ 0 ≤ disk.lapsFailures ∧ Waited runs ∧ ∀ r ∈ runs, AppliesBacked r.log := by
  induction history with
  | start =>
    refine ⟨.mk counted counted fun some_ => absurd some_ (lt_irrefl 0), counted, fun r before suffix => ?_,
      fun _ member => absurd member List.not_mem_nil⟩
    cases List.suffix_nil.mp suffix
  | ends _ ran ih =>
    obtain ⟨counts, nonneg, waited, backed⟩ := ih forward.tail
    obtain ⟨turned, sober⟩ := turned_of_ends ran
    exact ⟨counts.ended turned, sober.nonneg counts.nonneg nonneg, counts.waited forward sober waited,
      List.forall_mem_cons.mpr ⟨sober.backed, backed⟩⟩
  | @dies runs st disk log _ remembered ran ih =>
    obtain ⟨counts, nonneg, waited, backed⟩ := ih forward.tail
    have sober : Sober st log := (safe_turn accounts st).stops sober_nil ran
    exact ⟨counts.cut nonneg remembered sober forward, sober.nonneg counts.nonneg nonneg,
      counts.waited forward sober waited, List.forall_mem_cons.mpr ⟨sober.backed, backed⟩⟩

/-- A password is applied once it is escrowed and stashed, no run POSTs before the backoff of the failures
has elapsed, and a success ends it. -/
def InOrder (runs : List LapsRun) (st : State) : Prop :=
  (∀ r ∈ runs, AppliesBacked r.log) ∧ Waited runs ∧
    ∀ r before, runs = r :: before → r.ended = true → verdict r.log = .succeeded → st.backoff = (0, 0)

/-- The runs are in order as long as no failure is forgotten and the clock is not set back; the backoff never
leaves the 64 bits of a duration. -/
theorem laps_order_and_backoff (counted : 0 ≤ first.lapsFailures)
    (history : History accounts Remembered first runs st disk) (forward : Forward runs) :
    InOrder runs st ∧ ∀ n, lapsBackoffLoop64 n lapsBackoffBase = lapsBackoffLoop n lapsBackoffBase := by
  obtain ⟨-, -, waited, backed⟩ := history.kept counted forward
  refine ⟨⟨backed, waited, ?_⟩, lapsBackoffLoop64_eq (by decide) (by decide)⟩
  rintro r before rfl ended succeeded
  cases history with
  | ends _ ran =>
    obtain ⟨⟨now, -, settled⟩, -⟩ := turned_of_ends ran
    rw [succeeded] at settled
    exact settled
  | dies => cases ended

/-! A new agent, whose account does not exist yet. -/

def newState : State := ⟨0, none, none, [], 0, 0⟩

/-- After a first rotation at the time 1, whose escrow was refused. -/
def refusedState : State := ⟨0, some ⟨"u", Base64.encode [1], 1, .prepared⟩, none, [], 1, 1 + 15 * minute⟩

/-- After one that has failed, and the stash of the next one. -/
def stashedState : State :=
  ⟨0, some ⟨"u", Base64.encode [2], 1 + 15 * minute, .prepared⟩, none, [], 1, 1 + 15 * minute⟩

theorem ends_op {program : Rotator α} {value : α} {log₁ : LapsLog} {o : LapsOp} {rest : o.Res → Rotator α}
    (next : program = .op o rest) (answer : o.Res)
    (later : Rules.Ends logs (rest answer) (⟨o, answer⟩ :: log) value log₁) :
    Rules.Ends logs program log value log₁ := by
  subst next
  exact .op rfl later

theorem stops_op {program : Rotator α} {log₁ : LapsLog} {o : LapsOp} {rest : o.Res → Rotator α}
    (next : program = .op o rest) (answer : o.Res)
    (later : Rules.Stops logs (fun _ _ _ => False) (rest answer) (⟨o, answer⟩ :: log) log₁) :
    Rules.Stops logs (fun _ _ _ => False) program log log₁ := by
  subst next
  exact .op rfl later

/-- The stash of its first rotation cannot be saved, that of the second one can; the process ends before the
POST, and the next run waits. -/
theorem laps_order_and_backoff_unsaved : ∃ r before st disk, History true Remembered newState (r :: before) st disk ∧
    (∃ e ∈ r.log, e.1.Posts) ∧ (tally before).failures = 1 ∧ InOrder (r :: before) st ∧
      ∀ n, lapsBackoffLoop64 n lapsBackoffBase = lapsBackoffLoop n lapsBackoffBase := by
  have unsaved : Rules.Ends logs (run true newState) [] (fail newState 1) _ :=
    ends_op rfl (1 : Int) <| ends_op rfl "u" <| ends_op rfl (.ok ⟨false, "", ""⟩) <| ends_op rfl (some "p1") <|
      ends_op rfl (some [1]) <| ends_op rfl false .ret
  have history : History true Remembered newState _ _ _ := .ends .start unsaved
  have stashed : Rules.Stops logs (fun _ _ _ => False) (run true (fail newState 1)) [] _ :=
    stops_op rfl (fail newState 1).lapsRetryAfter <| stops_op rfl "u" <| stops_op rfl (.ok ⟨false, "", ""⟩) <|
      stops_op rfl (some "p2") <| stops_op rfl (some [2]) <| stops_op rfl true .here
  have history := history.dies (fun _ => .inl rfl) stashed
  have again : Rules.Stops logs (fun _ _ _ => False) (run true stashedState) [] _ :=
    stops_op rfl stashedState.lapsRetryAfter <| stops_op rfl "u" <| stops_op rfl (.ok ⟨false, "", ""⟩) <|
      stops_op rfl (some "p3") <| stops_op rfl (some [3]) <| stops_op rfl true <| stops_op rfl (.ok ()) .here
  have history := history.dies (fun _ => .inl rfl) again
  exact ⟨_, _, _, _, history, ⟨_, List.mem_cons_self, trivial⟩, rfl,
    laps_order_and_backoff (by decide) history (by decide)⟩

/-- The times of the operations of each run, the last one first; the first one reads the clock. -/
def Timed (runs : List (LapsRun × List Time)) : Prop :=
  (∀ r ∈ runs, r.2.length = r.1.log.length ∧ r.2.getLast? = started r.1.log) ∧ (runs.flatMap (·.2)).Pairwise (· ≥ ·)

/-- The run makes a POST at the time `at_`. -/
def PostsAt (r : LapsRun × List Time) (at_ : Time) : Prop := ∃ e, (e, at_) ∈ r.1.log.zip r.2 ∧ e.1.Posts

/-- After failures every POST comes late enough behind the last POST. -/
def Spaced (runs : List (LapsRun × List Time)) : Prop :=
  ∀ r before, r :: before <:+ runs → 0 < (tally (before.map (·.1))).failures →
    ∀ p, PostsAt r p → ∀ q ∈ before, ∀ last, PostsAt q last →
      last + min (15 * minute * 2 ^ ((tally (before.map (·.1))).failures - 1)) (24 * hour) ≤ p

/-- The POST of a failed rotation is refused ten seconds after its start, that of the next one comes at once. -/
theorem not_spaced : ¬∀ accounts (runs : List (LapsRun × List Time)) first st disk, 0 ≤ first.lapsFailures →
    History accounts (fun _ _ _ _ => False) first (runs.map (·.1)) st disk → Timed runs → Spaced runs := by
  intro claim
  have refused : Rules.Ends logs (run true newState) [] refusedState _ :=
    ends_op rfl (1 : Int) <| ends_op rfl "u" <| ends_op rfl (.ok ⟨false, "", ""⟩) <| ends_op rfl (some "p1") <|
      ends_op rfl (some [1]) <| ends_op rfl true <| ends_op rfl (.error .other) <| ends_op rfl true .ret
  have history : History true (fun _ _ _ _ => False) newState _ _ _ := .ends .start refused
  have again : Rules.Ends logs (run true refusedState) [] _ _ :=
    ends_op rfl refusedState.lapsRetryAfter <| ends_op rfl "u" <| ends_op rfl (.ok ⟨false, "", ""⟩) <|
      ends_op rfl (some "p2") <| ends_op rfl (some [2]) <| ends_op rfl true <| ends_op rfl (.error .other) <|
      ends_op rfl true .ret
  have history := history.ends again
  let now : Time := refusedState.lapsRetryAfter
  let posted : Time := 1 + 10 * 1000000000
  have spaced := claim true [(_, [now, now, now, now, now, now, now, now]), (_, [posted, posted, 1, 1, 1, 1, 1, 1])] newState
    _ _ (by decide) history ?timed
  case timed =>
    constructor
    · simp only [List.forall_mem_cons]
      exact ⟨⟨rfl, rfl⟩, ⟨rfl, rfl⟩, fun r member => absurd member List.not_mem_nil⟩
    · show [now, now, now, now, now, now, now, now, posted, posted, 1, 1, 1, 1, 1, 1].Pairwise (· ≥ ·)
      decide
  have early := spaced _ _ (List.suffix_refl _) (by decide) now ⟨_, List.mem_cons_of_mem _ List.mem_cons_self, trivial⟩ _
    List.mem_cons_self posted ⟨_, List.mem_cons_of_mem _ List.mem_cons_self, trivial⟩
  exact absurd early (by decide)

/-- The stash of its first rotation cannot be saved, and the process ends: the next one POSTs at once. -/
theorem not_remembered : ¬∀ accounts first runs st disk, 0 ≤ first.lapsFailures →
    History accounts (fun _ _ _ _ => True) first runs st disk → Forward runs → InOrder runs st := by
  intro claim
  have unsaved : Rules.Ends logs (run true newState) [] (fail newState 1) _ :=
    ends_op rfl (1 : Int) <| ends_op rfl "u" <| ends_op rfl (.ok ⟨false, "", ""⟩) <| ends_op rfl (some "p1") <|
      ends_op rfl (some [1]) <| ends_op rfl false .ret
  have history : History true (fun _ _ _ _ => True) newState _ _ _ := .ends .start unsaved
  have history := history.dies trivial .here
  have next : Rules.Stops logs (fun _ _ _ => False) (run true newState) [] _ :=
    stops_op rfl (2 : Int) <| stops_op rfl "u" <| stops_op rfl (.ok ⟨false, "", ""⟩) <|
      stops_op rfl (some "p2") <| stops_op rfl (some [2]) <| stops_op rfl true <| stops_op rfl (.ok ()) .here
  have history := history.dies trivial next
  have order := claim true newState _ _ _ (by decide) history (by decide)
  obtain ⟨now, begun, waited⟩ := order.2.1 _ _ (List.suffix_refl _) ⟨_, List.mem_cons_self, trivial⟩ (by decide)
  cases begun
  exact absurd waited (by decide)

/-- The backoff is not one from POST to POST, though no process ever ends; nor does it last when one ends
whose failure was not saved. -/
theorem not_laps_order_and_backoff :
    (¬∀ accounts (runs : List (LapsRun × List Time)) first st disk, 0 ≤ first.lapsFailures →
      History accounts (fun _ _ _ _ => False) first (runs.map (·.1)) st disk → Timed runs → Spaced runs) ∧
    ¬∀ accounts first runs st disk, 0 ≤ first.lapsFailures →
      History accounts (fun _ _ _ _ => True) first runs st disk → Forward runs → InOrder runs st :=
  ⟨not_spaced, not_remembered⟩

end Opale.Laps
