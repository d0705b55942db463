import Opale.Js.Number
import Opale.Relations.Firsts
import Opale.Sql.Windows
import Mathlib.Data.List.Dedup
import Mathlib.Tactic.Common

namespace Opale.Monitoring.Bandwidth

open Js Sql Relations

/-- A row of `bandwidth_stats`: the counters of an adapter as an agent has read them, at a time in microseconds. -/
structure Sample (α : Type) where
  device : α
  adapter : List Char
  bytesSent : Option Int
  bytesRecv : Option Int
  sampledAt : Option Int
  deriving DecidableEq

/-- The alternatives of `PSEUDO_ADAPTER_REGEX`, all of them anchored at the start. -/
def PSEUDO_ADAPTERS : List String :=
  ["Loopback", "isatap", "Teredo", "vEthernet", "Microsoft Wi-Fi Direct", "Microsoft KM-TEST", "Bluetooth",
    "TAP-Windows", "TAP-Win", "VirtualBox", "VMware", "Netbird", "WireGuard", "Tailscale", "ZeroTier", "Hyper-V",
    "Local Area Connection*", "Pseudo-Interface"]

/-- `MIN_INTERVAL_SECONDS`, in microseconds. -/
def MIN_INTERVAL : Int := 60 * 1000000

/-- The operator `~*`, which ignores case. -/
def pseudo (adapter : List Char) : Bool :=
  PSEUDO_ADAPTERS.any fun name => (name.toList.map Char.toLower).isPrefixOf (adapter.map Char.toLower)

/-- The keys of `TOP_PERIODS`. -/
inductive Period where
  | hours4 | hours24 | days7
  deriving DecidableEq

/-- The keys of `TOP_SORTS`. -/
inductive TopSort where
  | total | sent | recv
  deriving DecidableEq

variable {α : Type}

/-- `COALESCE(bytes_sent, 0) + COALESCE(bytes_recv, 0)` -/
def Sample.bytes (s : Sample α) : Int := s.bytesSent.getD 0 + s.bytesRecv.getD 0

/-- The key of the windows; the rows of a window have a time. -/
def Sample.time (s : Sample α) : Int := s.sampledAt.getD 0

def recent (since : Int) (samples : List (Sample α)) : List (Sample α) :=
  samples.filter fun s => s.sampledAt.any fun t => decide (since < t)

/-- What the adapters of a device have counted, those that are left after the blacklist. -/
def listed [DecidableEq α] (since : Int) (samples : List (Sample α)) (device : α) : List (Sample α) :=
  (recent since samples).filter fun s => s.device = device ∧ pseudo s.adapter = false

def readings [DecidableEq α] (since : Int) (samples : List (Sample α)) (device : α) (adapter : List Char) :
    List (Sample α) :=
  (recent since samples).filter fun s => s.device = device ∧ s.adapter = adapter

/-- The groups by adapter, with the sum that orders them. -/
def adapterTotals (rows : List (Sample α)) : List (List Char × Int) :=
  (rows.map (·.adapter)).dedup.map fun a => (a, ((rows.filter fun s => s.adapter = a).map Sample.bytes).sum)

/-- A first row of the groups in descending order. -/
def Primary (rows : List (Sample α)) (adapter : List Char) : Prop :=
  ∃ bytes, Firsts (fun x y => y.2 ≤ x.2) 1 (adapterTotals rows) [(adapter, bytes)]

structure Delta where
  t : Int
  ds : Int
  dr : Int
  elapsed : Int
  deriving DecidableEq

/-- `CASE WHEN now >= prev THEN now - prev ELSE 0 END`; a comparison with NULL does not hold. -/
def growth : Option Int → Option Int → Int
  | some now, some prev => if prev ≤ now then now - prev else 0
  | _, _ => 0

/-- A row of the query on `ordered`, when its conditions keep it. -/
def delta : Option (Sample α) × Sample α → Option Delta
  | (some prev, s) => do
    let _ ← prev.bytesSent
    let since ← prev.sampledAt
    let t ← s.sampledAt
    if MIN_INTERVAL ≤ t - since then
      some ⟨t, growth s.bytesSent prev.bytesSent, growth s.bytesRecv prev.bytesRecv, t - since⟩
    else none
  | (none, _) => none

def deltas (ordered : List (Sample α)) : List Delta := (lag ordered).filterMap delta

/-- The sums of `fetchBandwidth`, as its columns of type `bigint`; a sum past 64 bits raises instead. -/
structure Summary where
  sent4h : Option Int
  recv4h : Option Int
  sent24h : Option Int
  recv24h : Option Int
  sent7d : Option Int
  recv7d : Option Int
  deriving DecidableEq

/-- `ago` gives the start of each period, for the fixed time of the query. -/
def summary (ago : Period → Int) (rows : List Delta) : Summary where
  sent4h := sumOf (rows.map fun d => if ago .hours4 < d.t then d.ds else 0)
  recv4h := sumOf (rows.map fun d => if ago .hours4 < d.t then d.dr else 0)
  sent24h := sumOf (rows.map fun d => if ago .hours24 < d.t then d.ds else 0)
  recv24h := sumOf (rows.map fun d => if ago .hours24 < d.t then d.dr else 0)
  sent7d := sumOf (rows.map (·.ds))
  recv7d := sumOf (rows.map (·.dr))

structure Payload where
  series : List Delta
  summary : Option Summary
  primaryAdapter : Option (List Char)
  deriving DecidableEq

/-- The payloads that `fetchBandwidth` may return: the queries order the samples each on its own. -/
inductive FetchBandwidth [DecidableEq α] (ago : Period → Int) (samples : List (Sample α)) (device : α) :
    Payload → Prop where
  | hidden (none : adapterTotals (listed (ago .days7) samples device) = []) :
      FetchBandwidth ago samples device ⟨[], .none, .none⟩
  | shown {adapter series sums} (primary : Primary (listed (ago .days7) samples device) adapter)
      (ordered : Ordered Sample.time (readings (ago .days7) samples device adapter) series)
      (ordered' : Ordered Sample.time (readings (ago .days7) samples device adapter) sums) :
      FetchBandwidth ago samples device ⟨deltas series, some (summary ago (deltas sums)), some adapter⟩

/-- The arguments of `fetchTopBandwidth`, as the whitelists and `parseInt` read them. -/
structure TopOptions where
  period : Option Period
  sort : Option TopSort
  limit : Option Int

/-- The traffic of a device in `aggregated`; `devices` and `users_cache` add its names to it. -/
structure TopRow (α : Type) where
  device : α
  adapter : List Char
  sentBytes : Int
  recvBytes : Int
  totalBytes : Int
  deriving DecidableEq

/-- What is returned of a row: `Number` of its columns of type `bigint`. -/
structure TopEntry (α : Type) where
  device : α
  adapter : List Char
  sentBytes : JsNumber
  recvBytes : JsNumber
  totalBytes : JsNumber

def TopRow.entry (row : TopRow α) : TopEntry α :=
  ⟨row.device, row.adapter, toDouble row.sentBytes, toDouble row.recvBytes, toDouble row.totalBytes⟩

def TopOptions.since (ago : Period → Int) (options : TopOptions) : Int := ago (options.period.getD .hours24)

def TopOptions.orderCol (options : TopOptions) (row : TopRow α) : Int :=
  match options.sort.getD .total with
  | .total => row.totalBytes
  | .sent => row.sentBytes
  | .recv => row.recvBytes

def TopOptions.lim (options : TopOptions) : Nat :=
  let n := (options.limit.filter (· ≠ 0)).getD 20
  (min (max n 1) 100).toNat

def Sample.coalesced (s : Sample α) : Sample α :=
  { s with bytesSent := some (s.bytesSent.getD 0), bytesRecv := some (s.bytesRecv.getD 0) }

/-- The rows that `fetchTopBandwidth` works on: a counter that is NULL is 0 in them. -/
def filtered (since : Int) (samples : List (Sample α)) : List (Sample α) :=
  ((recent since samples).filter fun s => pseudo s.adapter = false).map Sample.coalesced

/-- The row of a device, when some of its rates are left. -/
def aggregated (device : α) (adapter : List Char) (ordered : List (Sample α)) : Option (TopRow α) :=
  let rates := (deltas ordered).filter fun d => 0 < d.elapsed
  let sent := (rates.map (·.ds)).sum
  let recv := (rates.map (·.dr)).sum
  if rates = [] then none else some ⟨device, adapter, sent, recv, sent + recv⟩

/-- What `fetchTopBandwidth` may return: any adapter of a device may come first that no other one exceeds. -/
def FetchTopBandwidth [DecidableEq α] (ago : Period → Int) (samples : List (Sample α)) (options : TopOptions)
    (entries : List (TopEntry α)) : Prop :=
  ∃ (primary : α → List Char) (ordered : α → List (Sample α)) (rows : List (TopRow α)),
    (∀ d ∈ (filtered (options.since ago) samples).map (·.device),
      Primary ((filtered (options.since ago) samples).filter fun s => s.device = d) (primary d) ∧
      Ordered Sample.time ((filtered (options.since ago) samples).filter fun s =>
        s.device = d ∧ s.adapter = primary d) (ordered d)) ∧
    Firsts (fun x y => options.orderCol y ≤ options.orderCol x) options.lim
      (((filtered (options.since ago) samples).map (·.device)).dedup.filterMap fun d =>
        aggregated d (primary d) (ordered d)) rows ∧
    entries = rows.map TopRow.entry

/-- The number is the column of type `bigint`. -/
def SameValue (value : JsNumber) (column : Option Int) : Prop := ∃ n : Int, column = some n ∧ value = ((n : ℚ) : JsNumber)

/-- The two say the same of a device. -/
def Agree (entry : TopEntry α) (payload : Payload) : Prop :=
  payload.primaryAdapter = some entry.adapter ∧
    SameValue entry.sentBytes (payload.summary.bind (·.sent7d)) ∧ SameValue entry.recvBytes (payload.summary.bind (·.recv7d))

/-- A double holds the integer. -/
def Exact (n : Int) : Prop := toDouble n = ((n : ℚ) : JsNumber)

/-- The traffic of a series of samples, each NULL a 0, in two totals that doubles hold. -/
structure Held (ordered : List (Sample α)) : Prop where
  sent : Exact ((deltas (ordered.map Sample.coalesced)).map (·.ds)).sum
  recv : Exact ((deltas (ordered.map Sample.coalesced)).map (·.dr)).sum

/-- Two samples far enough apart for a rate. -/
def Spaced (prev s : Sample α) : Prop :=
  ∃ since t, prev.sampledAt = some since ∧ s.sampledAt = some t ∧ MIN_INTERVAL ≤ t - since

/-- In a series of samples, none of the NULL counters looks like traffic once it is 0. -/
structure Sound (ordered : List (Sample α)) : Prop where
  heard : ∃ prev s, (some prev, s) ∈ lag ordered ∧ Spaced prev s ∧ prev.bytesSent ≠ none
  sent : ∀ prev s, (some prev, s) ∈ lag ordered → Spaced prev s → prev.bytesSent = none ∨ s.bytesSent = none →
    s.bytesSent.getD 0 ≤ prev.bytesSent.getD 0
  recv : ∀ prev s, (some prev, s) ∈ lag ordered → Spaced prev s →
    prev.bytesSent = none ∨ prev.bytesRecv = none ∨ s.bytesRecv = none →
    s.bytesRecv.getD 0 ≤ prev.bytesRecv.getD 0

variable {since : Int} {samples rows ordered : List (Sample α)} {device : α} {adapter : List Char}
variable {s prev : Sample α}

@[simp] theorem time_coalesced : s.coalesced.time = s.time := rfl

theorem adapterTotals_coalesced : adapterTotals (rows.map Sample.coalesced) = adapterTotals rows := by
  have names : (rows.map Sample.coalesced).map (·.adapter) = rows.map (·.adapter) := by
    rw [List.map_map]
    rfl
  unfold adapterTotals
  rw [names]
  refine List.map_congr_left fun a _ => ?_
  rw [List.filter_map, List.map_map]
  rfl

theorem Primary.mem (primary : Primary rows adapter) : ∃ s ∈ rows, s.adapter = adapter := by
  obtain ⟨bytes, firsts⟩ := primary
  have member := firsts.subset _ List.mem_cons_self
  obtain ⟨a, named, same⟩ := List.mem_map.mp member
  obtain ⟨s, inside, rfl⟩ := List.mem_map.mp (List.mem_dedup.mp named)
  exact ⟨s, inside, (Prod.ext_iff.mp same).1⟩

theorem Primary.unique {adapter' : List Char} (primary : Primary rows adapter) (primary' : Primary rows adapter')
    (distinct : ((adapterTotals rows).map (·.2)).Nodup) : adapter = adapter' := by
  obtain ⟨bytes, firsts⟩ := primary
  obtain ⟨bytes', firsts'⟩ := primary'
  have same : [(adapter, bytes)] = [(adapter', bytes')] := by
    refine firsts.unique firsts' fun x inside y inside' below above => ?_
    exact List.inj_on_of_nodup_map distinct inside inside' (le_antisymm above below)
  exact (Prod.ext_iff.mp (List.cons.inj same).1).1

theorem filtered_device [DecidableEq α] :
    ((filtered since samples).filter fun s => s.device = device) = (listed since samples device).map Sample.coalesced := by
  unfold filtered listed
  rw [List.filter_map, List.filter_filter]
  refine congrArg _ (List.filter_congr fun s _ => ?_)
  by_cases same : s.device = device <;> simp [Sample.coalesced, same]

theorem filtered_adapter [DecidableEq α] (real : pseudo adapter = false) :
    ((filtered since samples).filter fun s => s.device = device ∧ s.adapter = adapter) =
      (readings since samples device adapter).map Sample.coalesced := by
  unfold filtered readings
  rw [List.filter_map, List.filter_filter]
  refine congrArg _ (List.filter_congr fun s _ => ?_)
  by_cases same : s.adapter = adapter
  · simp [Sample.coalesced, same, real]
  · simp [Sample.coalesced, same]

theorem delta_of_spaced (spaced : Spaced prev s) (heard : prev.bytesSent ≠ none) : ∃ t elapsed, 0 < elapsed ∧
    delta (some prev, s) = some ⟨t, growth s.bytesSent prev.bytesSent, growth s.bytesRecv prev.bytesRecv, elapsed⟩ := by
  obtain ⟨since, t, before, now, far⟩ := spaced
  obtain ⟨bytes, sent⟩ := Option.ne_none_iff_exists'.mp heard
  have later : 0 < t - since := by
    unfold MIN_INTERVAL at far
    omega
  refine ⟨t, t - since, later, ?_⟩
  simp [delta, before, now, sent, far]

theorem delta_of_silent (silent : prev.bytesSent = none) : delta (some prev, s) = none := by
  simp [delta, silent]

theorem delta_of_close (close : ¬Spaced prev s) : delta (some prev, s) = none := by
  by_contra kept
  obtain ⟨d, kept⟩ := Option.ne_none_iff_exists'.mp kept
  simp only [delta, Option.bind_eq_bind, Option.bind_eq_some_iff] at kept
  obtain ⟨-, -, since, before, t, now, kept⟩ := kept
  split at kept
  · next far => exact close ⟨since, t, before, now, far⟩
  · cases kept

theorem spaced_coalesced : Spaced prev.coalesced s.coalesced ↔ Spaced prev s := Iff.rfl

/-- The growth that a NULL hides is what the queries disagree on. -/
theorem growth_coalesced (now prev : Option Int) : growth now prev ≤ growth (some (now.getD 0)) (some (prev.getD 0)) ∧
    (growth now prev = growth (some (now.getD 0)) (some (prev.getD 0)) ↔
      (prev = none ∨ now = none → now.getD 0 ≤ prev.getD 0)) := by
  cases now <;> cases prev <;> simp [growth] <;> split <;> omega

theorem growth_nonneg (now prev : Option Int) : 0 ≤ growth now prev := by
  cases now <;> cases prev <;> simp [growth]
  split <;> omega

/-- What a pair of samples adds to a sum. -/
def counted (column : Delta → Int) (p : Option (Sample α) × Sample α) : Int := ((delta p).map column).getD 0

/-- A pair of samples as `fetchTopBandwidth` sees it. -/
def coalescedPair : Option (Sample α) × Sample α → Option (Sample α) × Sample α :=
  Prod.map (Option.map Sample.coalesced) Sample.coalesced

theorem counted_of_close {column : Delta → Int} (close : ¬Spaced prev s) : counted column (some prev, s) = 0 := by
  unfold counted
  rw [delta_of_close close]
  rfl

theorem sent_of_spaced (spaced : Spaced prev s) :
    counted (·.ds) (some prev, s) = growth s.bytesSent prev.bytesSent := by
  unfold counted
  by_cases silent : prev.bytesSent = none
  · rw [delta_of_silent silent, silent]
    cases s.bytesSent <;> rfl
  · obtain ⟨t, elapsed, -, kept⟩ := delta_of_spaced spaced silent
    rw [kept]
    rfl

theorem recv_of_spaced (spaced : Spaced prev s) :
    counted (·.dr) (some prev, s) = if prev.bytesSent = none then 0 else growth s.bytesRecv prev.bytesRecv := by
  unfold counted
  by_cases silent : prev.bytesSent = none
  · rw [delta_of_silent silent, if_pos silent]
    rfl
  · obtain ⟨t, elapsed, -, kept⟩ := delta_of_spaced spaced silent
    rw [kept, if_neg silent]
    rfl

theorem sent_coalesced (spaced : Spaced prev s) :
    counted (·.ds) (some prev, s) ≤ counted (·.ds) (coalescedPair (some prev, s)) ∧
      (counted (·.ds) (some prev, s) = counted (·.ds) (coalescedPair (some prev, s)) ↔
        (prev.bytesSent = none ∨ s.bytesSent = none → s.bytesSent.getD 0 ≤ prev.bytesSent.getD 0)) := by
  have whole : counted (·.ds) (coalescedPair (some prev, s)) =
      growth (some (s.bytesSent.getD 0)) (some (prev.bytesSent.getD 0)) :=
    sent_of_spaced (spaced_coalesced.mpr spaced)
  rw [sent_of_spaced spaced, whole]
  exact growth_coalesced s.bytesSent prev.bytesSent

theorem recv_coalesced (spaced : Spaced prev s) :
    counted (·.dr) (some prev, s) ≤ counted (·.dr) (coalescedPair (some prev, s)) ∧
      (counted (·.dr) (some prev, s) = counted (·.dr) (coalescedPair (some prev, s)) ↔
        (prev.bytesSent = none ∨ prev.bytesRecv = none ∨ s.bytesRecv = none →
          s.bytesRecv.getD 0 ≤ prev.bytesRecv.getD 0)) := by
  have whole : counted (·.dr) (coalescedPair (some prev, s)) =
      growth (some (s.bytesRecv.getD 0)) (some (prev.bytesRecv.getD 0)) :=
    (recv_of_spaced (spaced_coalesced.mpr spaced)).trans (if_neg (Option.some_ne_none _))
  rw [recv_of_spaced spaced, whole]
  by_cases silent : prev.bytesSent = none
  · have nonneg := growth_nonneg (some (s.bytesRecv.getD 0)) (some (prev.bytesRecv.getD 0))
    rw [if_pos silent]
    refine ⟨nonneg, ?_⟩
    simp only [growth, silent, true_or, forall_const]
    split <;> omega
  · have apart := growth_coalesced s.bytesRecv prev.bytesRecv
    simpa only [silent, if_false, false_or] using apart

/-- Pair by pair, the coalesced counters never count less; the sums agree when no pair counts more. -/
theorem sum_coalesced (ordered : List (Sample α)) {column : Delta → Int} {Good : Sample α → Sample α → Prop}
    (pairs : ∀ prev s, Spaced prev s → counted column (some prev, s) ≤ counted column (coalescedPair (some prev, s)) ∧
      (counted column (some prev, s) = counted column (coalescedPair (some prev, s)) ↔ Good prev s)) :
    ((deltas ordered).map column).sum = ((deltas (ordered.map Sample.coalesced)).map column).sum ↔
      ∀ prev s, (some prev, s) ∈ lag ordered → Spaced prev s → Good prev s := by
  have first (s : Sample α) : counted column (none, s) = counted column (coalescedPair (none, s)) := rfl
  have close {prev s : Sample α} (close : ¬Spaced prev s) :
      counted column (some prev, s) = counted column (coalescedPair (some prev, s)) :=
    (counted_of_close close).trans (counted_of_close fun near => close (spaced_coalesced.mp near)).symm
  have both : ((deltas (ordered.map Sample.coalesced)).map column).sum =
      ((lag ordered).map fun p => counted column (coalescedPair p)).sum := by
    unfold deltas
    rw [lag_map, sum_filterMap, List.map_map]
    rfl
  have here : ((deltas ordered).map column).sum = ((lag ordered).map (counted column)).sum := sum_filterMap _
  have le : ∀ p ∈ lag ordered, counted column p ≤ counted column (coalescedPair p) := by
    rintro ⟨_ | prev, s⟩ -
    · exact (first s).le
    · by_cases spaced : Spaced prev s
      · exact (pairs prev s spaced).1
      · exact (close spaced).le
  rw [here, both, sum_eq_iff le]
  constructor
  · intro same prev s member spaced
    exact (pairs prev s spaced).2.mp (same _ member)
  · rintro good ⟨_ | prev, s⟩ member
    · exact first s
    · by_cases spaced : Spaced prev s
      · exact (pairs prev s spaced).2.mpr (good prev s member spaced)
      · exact close spaced

theorem deltas_ne_nil : deltas ordered ≠ [] ↔
    ∃ prev s, (some prev, s) ∈ lag ordered ∧ Spaced prev s ∧ prev.bytesSent ≠ none := by
  constructor
  · intro some
    obtain ⟨d, member⟩ := List.exists_mem_of_ne_nil _ some
    obtain ⟨⟨_ | prev, s⟩, inside, kept⟩ := List.mem_filterMap.mp member
    · cases kept
    · refine ⟨prev, s, inside, ?_, fun silent => ?_⟩
      · by_contra close
        rw [delta_of_close close] at kept
        cases kept
      · rw [delta_of_silent silent] at kept
        cases kept
  · rintro ⟨prev, s, inside, spaced, heard⟩
    obtain ⟨t, elapsed, -, kept⟩ := delta_of_spaced spaced heard
    exact List.ne_nil_of_mem (List.mem_filterMap.mpr ⟨_, inside, kept⟩)

/-- The sums of a series with its NULLs and without them. -/
theorem sums_agree_iff : (sumOf ((deltas ordered).map (·.ds)) =
      some ((deltas (ordered.map Sample.coalesced)).map (·.ds)).sum ∧
    sumOf ((deltas ordered).map (·.dr)) = some ((deltas (ordered.map Sample.coalesced)).map (·.dr)).sum) ↔
      Sound ordered := by
  have sent := sum_coalesced ordered fun (_ _ : Sample α) => sent_coalesced
  have recv := sum_coalesced ordered fun (_ _ : Sample α) => recv_coalesced
  rw [sumOf_eq_some, sumOf_eq_some, sent, recv, Ne, Ne, List.map_eq_nil_iff, List.map_eq_nil_iff]
  constructor
  · rintro ⟨⟨some, sent⟩, -, recv⟩
    exact ⟨deltas_ne_nil.mp some, sent, recv⟩
  · rintro ⟨heard, sent, recv⟩
    have some := deltas_ne_nil.mpr heard
    exact ⟨⟨some, sent⟩, some, recv⟩

theorem elapsed_pos {d : Delta} (member : d ∈ deltas ordered) : 0 < d.elapsed := by
  obtain ⟨⟨_ | prev, s⟩, inside, kept⟩ := List.mem_filterMap.mp member
  · cases kept
  · simp only [delta, Option.bind_eq_bind, Option.bind_eq_some_iff] at kept
    obtain ⟨-, -, since, before, t, now, kept⟩ := kept
    split at kept
    · next far =>
      obtain rfl := Option.some.inj kept
      unfold MIN_INTERVAL at far
      show 0 < t - since
      omega
    · cases kept

theorem aggregated_eq_some {row : TopRow α} (found : aggregated device adapter ordered = some row) :
    row.device = device ∧ row.adapter = adapter ∧ row.sentBytes = ((deltas ordered).map (·.ds)).sum ∧
      row.recvBytes = ((deltas ordered).map (·.dr)).sum := by
  have all : ((deltas ordered).filter fun d => 0 < d.elapsed) = deltas ordered :=
    List.filter_eq_self.mpr fun d member => decide_eq_true (elapsed_pos member)
  unfold aggregated at found
  rw [all] at found
  dsimp only at found
  split at found
  · cases found
  · obtain rfl := Option.some.inj found
    exact ⟨rfl, rfl, rfl, rfl⟩

section

variable [DecidableEq α] {ago : Period → Int} {options : TopOptions} {top : List (TopEntry α)} {entry : TopEntry α}
variable {payload : Payload}

/-- What `fetchTopBandwidth` says of a device over seven days. -/
theorem FetchTopBandwidth.reads (fetched : FetchTopBandwidth ago samples options top)
    (week : options.period = some .days7) (member : entry ∈ top) : ∃ ordered,
      Primary (listed (ago .days7) samples entry.device) entry.adapter ∧
      Ordered Sample.time ((readings (ago .days7) samples entry.device entry.adapter).map Sample.coalesced) ordered ∧
      entry.sentBytes = toDouble (((deltas ordered).map (·.ds)).sum : Int) ∧
      entry.recvBytes = toDouble (((deltas ordered).map (·.dr)).sum : Int) := by
  obtain ⟨primary, ordered, rows, chosen, firsts, rfl⟩ := fetched
  obtain ⟨row, inside, rfl⟩ := List.mem_map.mp member
  have since : options.since ago = ago .days7 := by
    unfold TopOptions.since
    rw [week]
    rfl
  rw [since] at chosen firsts
  obtain ⟨d, listed, found⟩ := List.mem_filterMap.mp (firsts.subset row inside)
  obtain ⟨rfl, adapter, sent, recv⟩ := aggregated_eq_some found
  obtain ⟨first, order⟩ := chosen row.device (List.mem_dedup.mp listed)
  rw [← adapter] at first order
  rw [filtered_device] at first
  have first : Primary (Bandwidth.listed (ago .days7) samples row.device) row.adapter := by
    unfold Primary at first ⊢
    rwa [adapterTotals_coalesced] at first
  have real : pseudo row.adapter = false := by
    obtain ⟨s, inside, same⟩ := first.mem
    have kept := of_decide_eq_true (List.mem_filter.mp inside).2
    rw [← same]
    exact kept.2
  rw [filtered_adapter real] at order
  refine ⟨ordered row.device, first, order, ?_, ?_⟩
  · rw [← sent]
    rfl
  · rw [← recv]
    rfl

theorem value_inj {m n : Int} : ((m : ℚ) : JsNumber) = ((n : ℚ) : JsNumber) ↔ m = n :=
  ⟨fun same => Int.cast_injective (WithTop.coe_injective (WithBot.coe_injective same)), fun same => by rw [same]⟩

/-- A total that doubles hold is read as the column exactly when the column is that total. -/
theorem sameValue_of_exact {total : Int} {column : Option Int} (exact_ : Exact total) :
    SameValue (toDouble total) column ↔ column = some total := by
  unfold SameValue
  rw [exact_]
  constructor
  · rintro ⟨n, rfl, same⟩
    rw [value_inj.mp same]
  · exact fun same => ⟨total, same, rfl⟩

theorem sameValue_self {total : Int} : SameValue (toDouble total) (some total) ↔ Exact total := by
  constructor
  · rintro ⟨n, ⟨⟩, same⟩
    exact same
  · exact fun exact_ => ⟨total, rfl, exact_⟩

/-- The queries agree on a device when no NULL counter of its main adapter stands for traffic and doubles hold its
totals. Where doubles hold them, they agree in no other case, and where no NULL counter does, in no other case. -/
theorem totals_agree_iff (times : ∀ d a, ((readings (ago .days7) samples d a).map Sample.time).Nodup)
    (totals : ∀ d, ((adapterTotals (listed (ago .days7) samples d)).map (·.2)).Nodup)
    (fetched : FetchTopBandwidth ago samples options top) (week : options.period = some .days7) (member : entry ∈ top)
    (shown : FetchBandwidth ago samples entry.device payload) (primary : Primary (listed (ago .days7) samples entry.device) adapter)
    (order : Ordered Sample.time (readings (ago .days7) samples entry.device adapter) ordered) :
    (Held ordered → (Agree entry payload ↔ Sound ordered)) ∧ (Sound ordered → (Agree entry payload ↔ Held ordered)) := by
  obtain ⟨coalesced, primary₁, order₁, sent, recv⟩ := fetched.reads week member
  obtain rfl := primary.unique primary₁ (totals entry.device)
  have same : coalesced = ordered.map Sample.coalesced := by
    refine order₁.unique (order.map fun s => time_coalesced) ?_
    rw [List.map_map]
    exact times entry.device _
  rw [same] at sent recv
  cases shown with
  | hidden nothing =>
    obtain ⟨bytes, firsts⟩ := primary
    have inside := firsts.subset _ List.mem_cons_self
    rw [nothing] at inside
    cases inside
  | @shown _ series sums primary₂ series_ order₂ =>
    obtain rfl := primary₂.unique primary₁ (totals entry.device)
    obtain rfl := order₂.unique order (times entry.device _)
    have agree : Agree entry ⟨deltas series, some (summary ago (deltas sums)), some entry.adapter⟩ ↔
        SameValue entry.sentBytes (sumOf ((deltas sums).map (·.ds))) ∧
          SameValue entry.recvBytes (sumOf ((deltas sums).map (·.dr))) := and_iff_right rfl
    rw [agree, sent, recv]
    constructor
    · intro held
      rw [sameValue_of_exact held.sent, sameValue_of_exact held.recv]
      exact sums_agree_iff
    · intro sound
      obtain ⟨wholeSent, wholeRecv⟩ := sums_agree_iff.mpr sound
      rw [wholeSent, wholeRecv, sameValue_self, sameValue_self]
      exact ⟨fun both => ⟨both.1, both.2⟩, fun held => ⟨held.sent, held.recv⟩⟩

end

def wifi : List Char := "Wi-Fi".toList

/-- Two readings of an adapter, the first one with the given counter. -/
def twoReadings (sent : Option Int) : List (Sample Nat) :=
  [⟨7, wifi, sent, some 0, some 100000000⟩, ⟨7, wifi, some 100, some 0, some 200000000⟩]

theorem twoReadings_listed (sent : Option Int) (d : Nat) :
    listed 0 (twoReadings sent) d = if d = 7 then twoReadings sent else [] := by
  have real : pseudo wifi = false := by decide
  by_cases same : d = 7
  · simp [listed, recent, twoReadings, real, same]
  · simp [listed, recent, twoReadings, real, same, Ne.symm same]

theorem twoReadings_readings (sent : Option Int) : readings 0 (twoReadings sent) 7 wifi = twoReadings sent := by
  simp [readings, recent, twoReadings]

theorem twoReadings_filtered (sent : Option Int) :
    filtered 0 (twoReadings sent) = (twoReadings sent).map Sample.coalesced := by
  have real : pseudo wifi = false := by decide
  simp [filtered, recent, twoReadings, real]

theorem twoReadings_groups (sent : Option Int) : adapterTotals (twoReadings sent) = [(wifi, sent.getD 0 + 100)] := by
  simp [adapterTotals, twoReadings, Sample.bytes]

theorem twoReadings_primary (sent : Option Int) : Primary (twoReadings sent) wifi := by
  unfold Primary
  rw [twoReadings_groups]
  exact ⟨_, _, .refl _, List.pairwise_singleton _ _, rfl⟩

theorem twoReadings_ordered (sent : Option Int) : Ordered Sample.time (twoReadings sent) (twoReadings sent) := by
  refine ⟨.refl _, ?_⟩
  simp [twoReadings, Sample.time]

theorem twoReadings_times (sent : Option Int) (d : Nat) (a : List Char) :
    ((readings 0 (twoReadings sent) d a).map Sample.time).Nodup := by
  have all : ((twoReadings sent).map Sample.time).Nodup := by
    show ([100000000, 200000000] : List Int).Nodup
    decide
  exact all.sublist ((List.filter_sublist.trans List.filter_sublist).map _)

theorem twoReadings_totals (sent : Option Int) (d : Nat) :
    ((adapterTotals (listed 0 (twoReadings sent) d)).map (·.2)).Nodup := by
  rw [twoReadings_listed]
  by_cases same : d = 7
  · rw [if_pos same, twoReadings_groups]
    exact List.nodup_singleton _
  · rw [if_neg same]
    exact List.nodup_nil

theorem twoReadings_fetched {sent : Option Int} {row : TopRow Nat}
    (found : aggregated 7 wifi ((twoReadings sent).map Sample.coalesced) = some row) :
    FetchTopBandwidth (fun _ => 0) (twoReadings sent) ⟨some .days7, none, none⟩ [row.entry] := by
  have devices : ((twoReadings sent).map Sample.coalesced).map (·.device) = [7, 7] := rfl
  refine ⟨fun _ => wifi, fun _ => (twoReadings sent).map Sample.coalesced, [row], ?_, ?_, rfl⟩
  · intro d member
    simp only [TopOptions.since, twoReadings_filtered] at member ⊢
    rw [devices] at member
    have same : d = 7 := by simpa using member
    subst same
    have whole : ((twoReadings sent).map Sample.coalesced).filter (fun s => s.device = 7) =
        (twoReadings sent).map Sample.coalesced := by
      simp [twoReadings, Sample.coalesced]
    have whole' : ((twoReadings sent).map Sample.coalesced).filter (fun s => s.device = 7 ∧ s.adapter = wifi) =
        (twoReadings sent).map Sample.coalesced := by
      simp [twoReadings, Sample.coalesced]
    rw [whole, whole']
    refine ⟨?_, (twoReadings_ordered sent).map fun s => time_coalesced⟩
    unfold Primary
    rw [adapterTotals_coalesced]
    exact twoReadings_primary sent
  · simp only [TopOptions.since, twoReadings_filtered]
    have one : ([7, 7] : List Nat).dedup = [7] := by decide
    have single : ([7].filterMap fun d => aggregated d wifi ((twoReadings sent).map Sample.coalesced)) = [row] := by
      simp [found]
    rw [devices, one, single]
    exact ⟨_, .refl _, List.pairwise_singleton _ _, rfl⟩

theorem twoReadings_shown (sent : Option Int) : FetchBandwidth (fun _ => 0) (twoReadings sent) 7
    ⟨deltas (twoReadings sent), some (summary (fun _ => 0) (deltas (twoReadings sent))), some wifi⟩ := by
  have ordered : Ordered Sample.time (readings 0 (twoReadings sent) 7 wifi) (twoReadings sent) := by
    rw [twoReadings_readings]
    exact twoReadings_ordered sent
  refine .shown ?_ ordered ordered
  rw [twoReadings_listed, if_pos rfl]
  exact twoReadings_primary sent

theorem exact_natCast {n : Nat} (small : n < 2 ^ 53) : Exact n := by
  unfold Exact
  push_cast
  exact toDouble_natCast small

theorem held_twoReadings : Held (twoReadings (some 40)) := by
  have sent : ((deltas ((twoReadings (some 40)).map Sample.coalesced)).map (·.ds)).sum = (60 : Nat) := by decide
  have recv : ((deltas ((twoReadings (some 40)).map Sample.coalesced)).map (·.dr)).sum = (0 : Nat) := by decide
  constructor
  · rw [sent]
    exact exact_natCast (by norm_num)
  · rw [recv]
    exact exact_natCast (by norm_num)

theorem sound_twoReadings : Sound (twoReadings (some 40)) := by
  let first : Sample Nat := ⟨7, wifi, some 40, some 0, some 100000000⟩
  let second : Sample Nat := ⟨7, wifi, some 100, some 0, some 200000000⟩
  have pairs : lag (twoReadings (some 40)) = [(none, first), (some first, second)] := rfl
  constructor
  case heard =>
    refine ⟨first, second, ?_, ⟨100000000, 200000000, rfl, rfl, by decide⟩, Option.some_ne_none _⟩
    rw [pairs]
    exact .tail _ List.mem_cons_self
  all_goals
    intro prev s member _ silent
    rw [pairs] at member
    obtain ⟨rfl, rfl⟩ : prev = first ∧ s = second := by simpa using member
    simp [first, second] at silent

theorem totals_agree_iff_wifi : Agree (TopRow.entry ⟨7, wifi, 60, 0, 60⟩)
    ⟨deltas (twoReadings (some 40)), some (summary (fun _ => 0) (deltas (twoReadings (some 40)))), some wifi⟩ := by
  have primary : Primary (listed 0 (twoReadings (some 40)) 7) wifi := by
    rw [twoReadings_listed]
    exact twoReadings_primary _
  have order : Ordered Sample.time (readings 0 (twoReadings (some 40)) 7 wifi) (twoReadings (some 40)) := by
    rw [twoReadings_readings]
    exact twoReadings_ordered _
  exact ((totals_agree_iff (twoReadings_times _) (twoReadings_totals _) (twoReadings_fetched (by decide)) rfl
    (List.mem_singleton_self (TopRow.entry (⟨7, wifi, 60, 0, 60⟩ : TopRow Nat))) (twoReadings_shown _) primary order).1
    held_twoReadings).mpr sound_twoReadings

/-- After a sample without a counter, all that an adapter has ever sent counts as its traffic of the week. -/
theorem null_counted : ¬∀ (ago : Period → Int) (samples : List (Sample Nat)) (options : TopOptions)
    (top : List (TopEntry Nat)) (entry : TopEntry Nat) (payload : Payload),
    (∀ d a, ((readings (ago .days7) samples d a).map Sample.time).Nodup) →
    (∀ d, ((adapterTotals (listed (ago .days7) samples d)).map (·.2)).Nodup) →
    FetchTopBandwidth ago samples options top → options.period = some .days7 → entry ∈ top →
    FetchBandwidth ago samples entry.device payload → Agree entry payload := by
  intro all
  have agree := all (fun _ => 0) (twoReadings none) ⟨some .days7, none, none⟩ [TopRow.entry ⟨7, wifi, 100, 0, 100⟩]
    (TopRow.entry ⟨7, wifi, 100, 0, 100⟩) _ (twoReadings_times _) (twoReadings_totals _)
    (twoReadings_fetched (by decide)) rfl (List.mem_singleton_self _) (twoReadings_shown _)
  obtain ⟨-, ⟨n, column, -⟩, -⟩ := agree
  have sent : sumOf ((deltas (twoReadings none)).map (·.ds)) = none := by decide
  cases sent.symm.trans column

end Opale.Monitoring.Bandwidth
