import Opale.AgentGo.Restart

namespace Opale.AgentGo.Rollback

open Update

/-- What happens to the binaries of a computer, and the check-ins of its agent. -/
inductive Event where
  | started
  | checkin (response : Option (Option AgentUpdate))
  | downloaded (bin : Bytes) (time : Time)
  | swapped (version : List Char) (time : Time)
  | rolledBack (version : List Char) (time : Time)

/-- The last event first. -/
abbrev History := List Event

def Event.back? : Event → Option (List Char × Time)
  | .rolledBack version time => some (version, time)
  | _ => none

/-- The update that came with the last check-in. -/
def offered : History → Option AgentUpdate
  | [] => none
  | .checkin response :: _ => response.join
  | _ :: earlier => offered earlier

/-- The version of the last swap. -/
def installed : History → List Char
  | [] => []
  | .swapped version _ :: _ => version
  | _ :: earlier => installed earlier

/-- The binary of the last swap is in place. -/
def inPlace : History → Bool
  | [] => false
  | .swapped .. :: _ => true
  | .rolledBack .. :: _ => false
  | _ :: earlier => inPlace earlier

/-- The process runs the binary of the last swap: it was started while this one was in place. -/
def running : History → Bool
  | [] => false
  | .started :: earlier => inPlace earlier
  | .swapped .. :: _ => false
  | _ :: earlier => running earlier

/-- The outcomes of the check-ins that the binary of the last swap has made. -/
def own : History → List Bool
  | [] => []
  | .swapped .. :: _ => []
  | .checkin response :: earlier => if running earlier = true then response.isSome :: own earlier else own earlier
  | _ :: earlier => own earlier

/-- The binary of the last swap is in place and none of its check-ins has succeeded. -/
def Watched (h : History) : Prop := inPlace h = true ∧ true ∉ own h

/-- The last event is the second check-in of the binary of the last swap, and both have failed. -/
def Due : History → Prop
  | .checkin none :: earlier => running earlier = true ∧ own earlier = [false]
  | _ => False

/-- A version is rolled back whenever it is due, and never else. -/
def Decided (h : History) : Prop := ∀ event earlier, event :: earlier <:+ h → (event.back?.isSome = true ↔ Due earlier)

/-- Whatever was rolled back is not installed again within the delay. -/
def Spaced (h : History) : Prop :=
  ∀ version time earlier, .swapped version time :: earlier <:+ h →
    ∀ back, .rolledBack version back ∈ earlier → rolledBackRetryAfter ≤ time - back

/-- The version was rolled back less than the delay ago, and then another one was. -/
def Forgotten (version : List Char) (time : Time) (h : History) : Prop :=
  ∃ back later earlier, h = later ++ .rolledBack version back :: earlier ∧ time - back < rolledBackRetryAfter ∧
    ∃ other last, .rolledBack other last ∈ later ∧ other ≠ version

/-- What an operation adds to the history. -/
def record (h : History) (time : Time) : (o : Op) → o.Res → History
  | .load, _ => .started :: h
  | .checkin, response => .checkin response :: h
  | .download, some bin => .downloaded bin time :: h
  | .rename .update .forward, true => .swapped (((offered h).map (·.latestVersion)).getD []) time :: h
  | .rename .rollback .forward, true => .rolledBack (installed h) time :: h
  | _, _ => h

/-- The computer with its clock and its history; `answered` says that a check-in has had its answer
and that the agent has done nothing since. -/
structure Site where
  host : Host
  clock : Time
  answered : Bool
  history : History

/-- The operation asks the server for a check-in. -/
def asks : Op → Bool
  | .checkin => true
  | _ => false

/-- What is read on the clock is its time. -/
def Timed (clock : Time) : (o : Op) → o.Res → Prop
  | .now, now => now = clock
  | _, _ => True

section
variable (sha256 : Bytes → Bytes) (verifyBinarySignature : Bytes → Bytes → Bool) (built : Bytes → List Char)

/-- The files and the saves do not fail, and a process has the version that its binary was built with. -/
def Works : (o : Op) → Host → o.Res → Host → Prop
  | .load, host, loaded, _ => loaded = some host.state
  | .version, host, version, _ => ∀ bin ∈ host.files .binary, version = built bin
  | .save _, _, done, _ | .createNew, _, done, _ | .writeNew _, _, done, _ => done = true
  | .remove path, host, _, after => after = host.put path none
  | .statBackup, host, found, _ => found = true ↔ host.files .backup ≠ none
  | .rename x stage, host, done, _ => done = true ↔ host.files (x.source stage) ≠ none
  | _, _, _, _ => True

def exec (o : Op) (site : Site) (answer : o.Res) (after : Site) : Prop :=
  Update.exec sha256 o site.host answer after.host ∧ Works built o site.host answer after.host ∧
    site.clock ≤ after.clock ∧ Timed after.clock o answer ∧
    after.answered = asks o ∧ after.history = record site.history after.clock o answer

/-- The agent on its computer, with a history of what it did. -/
def computer : Process Op.Res Site Memory where
  exec := exec sha256 built
  env := fun _ _ => False
  main := cycle sha256 verifyBinarySignature
  recover := fun _ => .stopped

/-- No update is downloaded in order whose version has been forgotten. -/
def Remembered (h : History) : Prop :=
  ∀ bin time earlier upd, .downloaded bin time :: earlier <:+ h → offered earlier = some upd →
    verified sha256 verifyBinarySignature upd bin = true → ¬Forgotten upd.latestVersion time earlier

end

/-- A computer on which the agent has been installed. -/
def Start (c : Process.Config Op.Res Site Memory) : Prop :=
  c.run = .ret .stopped ∧ Settled c.world.host ∧ c.world.host.files .binary ≠ none ∧
    c.world.host.state.armed = false ∧ c.world.history = []

/-- A restart comes between the events: what the last check-in has shown is saved, a rollback that
is due is done, and no binary is being exchanged. -/
def Between (c : Process.Config Op.Res Site Memory) : Prop :=
  (c.world.answered = false ∨ ∃ memory, c.run = .ret memory) ∧ ¬Due c.world.history ∧ Settled c.world.host

section Histories

variable {h earlier : History} {event : Event}

theorem decided_cons : Decided (event :: h) ↔ (event.back?.isSome = true ↔ Due h) ∧ Decided h := by
  constructor
  · intro decided
    exact ⟨decided event h List.suffix_rfl, fun e earlier suffix => decided e earlier (suffix.trans (List.suffix_cons _ _))⟩
  · intro ⟨last, decided⟩ e earlier suffix
    rcases List.suffix_cons_iff.mp suffix with same | inside
    · obtain ⟨rfl, rfl⟩ := List.cons.inj same
      exact last
    · exact decided e earlier inside

theorem Decided.more (decided : Decided h) (due : ¬Due h) (other : event.back? = none) : Decided (event :: h) := by
  refine decided_cons.mpr ⟨⟨fun back => ?_, fun now => absurd now due⟩, decided⟩
  rw [other] at back
  cases back

theorem Decided.back (decided : Decided h) (due : Due h) {version : List Char} {time : Time} :
    Decided (.rolledBack version time :: h) :=
  decided_cons.mpr ⟨⟨fun _ => due, fun _ => rfl⟩, decided⟩

/-- A binary that still runs after its rollback has failed twice. -/
theorem Decided.own_of_running (decided : Decided h) (runs : running h = true) (gone : inPlace h = false) :
    2 ≤ (own h).length := by
  induction h with
  | nil => cases runs
  | cons event earlier ih =>
    obtain ⟨last, before⟩ := decided_cons.mp decided
    cases event with
    | started => cases gone.symm.trans runs
    | swapped => cases runs
    | rolledBack version time =>
      have due := last.mp rfl
      match earlier, due with
      | .checkin none :: first, due =>
        have both : own (.checkin none :: first) = [false, false] := by
          rw [own, if_pos due.1, due.2]
          rfl
        show 2 ≤ (own (.checkin none :: first)).length
        rw [both]
        rfl
    | downloaded => exact ih before runs gone
    | checkin response =>
      have runs : running earlier = true := runs
      have more := ih before runs gone
      rw [own, if_pos runs, List.length_cons]
      omega

/-- A binary that is watched has failed once at most, or its rollback is due. -/
theorem Decided.own_short (decided : Decided h) (due : ¬Due h) (watched : Watched h) : (own h).length ≤ 1 := by
  induction h with
  | nil => exact Nat.zero_le 1
  | cons event earlier ih =>
    obtain ⟨last, before⟩ := decided_cons.mp decided
    obtain ⟨here, none⟩ := watched
    have undue (other : event.back? = Option.none) : ¬Due earlier := fun now => by
      have back := last.mpr now
      rw [other] at back
      cases back
    cases event with
    | started => exact ih before (undue rfl) ⟨here, none⟩
    | swapped => exact Nat.zero_le 1
    | rolledBack => cases here
    | downloaded => exact ih before (undue rfl) ⟨here, none⟩
    | checkin response =>
      rw [own] at none ⊢
      split at none
      case isFalse still =>
        rw [if_neg still]
        exact ih before (undue rfl) ⟨here, none⟩
      case isTrue runs =>
        obtain ⟨failed, others⟩ := not_or.mp fun among => none (List.mem_cons.mpr among)
        have short := ih before (undue rfl) ⟨here, others⟩
        rw [if_pos runs]
        match same : own earlier with
        | [] => exact le_rfl
        | outcome :: rest =>
          exfalso
          rw [same] at short others
          have single : rest = [] := List.length_eq_zero_iff.mp (by simpa using short)
          have bad : outcome = false := by
            cases outcome with
            | false => rfl
            | true => exact absurd List.mem_cons_self others
          cases response with
          | some _ => exact failed rfl
          | none => exact due ⟨runs, by rw [same, single, bad]⟩

end Histories

/-- The last rollback. -/
def lastBack (h : History) : Option (List Char × Time) := h.findSome? Event.back?

/-- What a state says of the history. -/
structure Accord (st : State) (h : History) : Prop where
  armed : st.armed = true ↔ Watched h
  count : Watched h → st.failedSinceUpdate = (own h).length
  version : Watched h → st.lastUpdateVersion = installed h
  last : ∀ version back, lastBack h = some (version, back) → st.rolledBackVersion = version ∧ back ≤ st.rolledBackAt

/-- The disk agrees with the history, where nothing is under way. -/
def OnDisk (host : Host) (h : History) : Prop := Settled host → ¬Due h → Accord host.state h

section
variable (sha256 : Bytes → Bytes) (verifyBinarySignature : Bytes → Bytes → Bool) (built : Bytes → List Char)

structure Inv (site : Site) : Prop where
  binary : site.host.away = false → site.host.files .binary ≠ none
  backup : site.host.away = false → Watched site.history → site.host.files .backup ≠ none
  decided : Decided site.history
  past : ∀ version back, .rolledBack version back ∈ site.history → back ≤ site.clock
  latest : ∀ version back, .rolledBack version back ∈ site.history →
    ∃ other last, lastBack site.history = some (other, last) ∧ back ≤ last
  spaced : Remembered sha256 verifyBinarySignature site.history → Spaced site.history
  disk : site.answered = false → OnDisk site.host site.history

def rules : Rules Op.Res Site where
  exec := exec sha256 built
  inv := Inv sha256 verifyBinarySignature
  rely := Eq
  guarantee _ _ _ _ := True
  rely_refl _ := rfl
  rely_trans := Eq.trans

end

/-- The state in memory is the one on the disk, and agrees with the history. -/
structure Here (st : State) (site : Site) : Prop where
  settled : Settled site.host
  undue : ¬Due site.history
  state : site.host.state = st
  accord : Accord st site.history

/-- A process that has swapped its binary does not run the new one; another does, while it is in place. -/
structure Image (agent : Running) (h : History) : Prop where
  old : agent.swappedVersion ≠ [] → running h = false
  new : agent.swappedVersion = [] → inPlace h = true → running h = true

def Fit : Memory → Site → Prop
  | .stopped, site => Here site.host.state site
  | .running agent, site => Here agent.st site ∧ Image agent site.history

variable {sha256 : Bytes → Bytes} {verifyBinarySignature : Bytes → Bytes → Bool} {built : Bytes → List Char}
variable {host : Host} {clock : Time} {answered : Bool} {h : History} {st : State} {agent : Running}

/-- An operation that adds nothing to the history, and what it leaves of the host. -/
theorem Inv.move (inv : Inv sha256 verifyBinarySignature ⟨host, clock, answered, h⟩) (after : Host) {later : Time}
    (le : clock ≤ later) (binary : after.away = false → after.files .binary ≠ none)
    (backup : after.away = false → Watched h → after.files .backup ≠ none) (disk : OnDisk after h) {b : Bool} :
    Inv sha256 verifyBinarySignature ⟨after, later, b, h⟩ :=
  ⟨binary, backup, inv.decided, fun version back member => (inv.past version back member).trans le, inv.latest, inv.spaced,
    fun _ => disk⟩

theorem Inv.still (inv : Inv sha256 verifyBinarySignature ⟨host, clock, answered, h⟩) {later : Time} (le : clock ≤ later)
    (disk : OnDisk host h) {b : Bool} : Inv sha256 verifyBinarySignature ⟨host, later, b, h⟩ :=
  inv.move host le inv.binary inv.backup disk

theorem Here.onDisk (here : Here st ⟨host, clock, answered, h⟩) : OnDisk host h := fun _ _ => by
  obtain ⟨-, -, rfl, accord⟩ := here
  exact accord

theorem Here.later (here : Here st ⟨host, clock, answered, h⟩) {later : Time} {b : Bool} : Here st ⟨host, later, b, h⟩ :=
  ⟨here.settled, here.undue, here.state, here.accord⟩

/-- An operation that leaves the host and the history as they are. -/
theorem safe_still {o : Op} {β : Type} {post : β → Site → Prop} {next : o.Res → Updater β}
    (inv : Inv sha256 verifyBinarySignature ⟨host, clock, answered, h⟩) (disk : OnDisk host h)
    (idle : ∀ answer after, Update.exec sha256 o host answer after → after = host)
    (quiet : ∀ time answer, record h time o answer = h)
    (resume : ∀ answer later b, clock ≤ later → Timed later o answer → Update.exec sha256 o host answer host →
      Inv sha256 verifyBinarySignature ⟨host, later, b, h⟩ →
      (rules sha256 verifyBinarySignature built).Safe post (next answer) ⟨host, later, b, h⟩) :
    (rules sha256 verifyBinarySignature built).Safe post (perform o >>= next) ⟨host, clock, answered, h⟩ := by
  refine Rules.Safe.perform ?_
  rintro _ rfl - answer ⟨after, later, b, h₁⟩ ⟨run, -, le, timed, -, recorded⟩
  obtain rfl : after = host := idle answer after run
  obtain rfl : h₁ = h := recorded.trans (quiet later answer)
  have inv₁ : Inv sha256 verifyBinarySignature ⟨after, later, b, h₁⟩ := inv.still le disk
  exact ⟨inv₁, trivial, resume answer later b le timed run inv₁⟩

/-- A save makes the disk agree with what is saved. -/
theorem safe_saveState (inv : Inv sha256 verifyBinarySignature ⟨host, clock, answered, h⟩) (accord : ¬Due h → Accord st h) :
    (rules sha256 verifyBinarySignature built).Safe
      (fun _ site => ∃ later, clock ≤ later ∧ site = ⟨host.saved st, later, false, h⟩) (saveState st)
      ⟨host, clock, answered, h⟩ := by
  rintro _ rfl - done ⟨after, later, b, h₁⟩ ⟨run, works, le, -, same, recorded⟩
  obtain rfl : b = false := same
  obtain rfl : h₁ = h := recorded
  obtain rfl : done = true := works
  obtain ⟨-, rfl⟩ | ⟨failed, -⟩ := run
  · have inv₁ : Inv sha256 verifyBinarySignature ⟨host.saved st, later, false, h₁⟩ :=
      inv.move (host.saved st) le inv.binary inv.backup fun _ => accord
    refine ⟨inv₁, trivial, ?_⟩
    rintro _ rfl -
    exact ⟨later, le, rfl⟩
  · cases failed

section Events

variable {event : Event}

theorem Remembered.tail (remembered : Remembered sha256 verifyBinarySignature (event :: h)) :
    Remembered sha256 verifyBinarySignature h :=
  fun bin time earlier upd suffix => remembered bin time earlier upd (suffix.trans (List.suffix_cons _ _))

theorem Spaced.more (spaced : Spaced h)
    (last : ∀ version time, event = .swapped version time → ∀ back, .rolledBack version back ∈ h →
      rolledBackRetryAfter ≤ time - back) : Spaced (event :: h) := by
  intro version time earlier suffix back member
  rcases List.suffix_cons_iff.mp suffix with same | inside
  · obtain ⟨rfl, rfl⟩ := List.cons.inj same
    exact last version time rfl back member
  · exact spaced version time earlier inside back member

/-- Neither a swap nor a rollback. -/
def Event.plain : Event → Bool
  | .swapped .. | .rolledBack .. => false
  | _ => true

theorem back?_plain (plain : event.plain = true) : event.back? = none := by
  cases event with
  | swapped | rolledBack => cases plain
  | started | checkin | downloaded => rfl

theorem mem_of_plain (plain : event.plain = true) {version : List Char} {back : Time}
    (member : .rolledBack version back ∈ event :: h) : .rolledBack version back ∈ h := by
  rcases List.mem_cons.mp member with rfl | member
  · cases plain
  · exact member

theorem lastBack_plain (plain : event.plain = true) : lastBack (event :: h) = lastBack h := by
  unfold lastBack
  rw [List.findSome?_cons, back?_plain plain]

/-- An event that leaves the binaries where they are. -/
theorem Inv.happen (inv : Inv sha256 verifyBinarySignature ⟨host, clock, answered, h⟩) (plain : event.plain = true)
    (undue : ¬Due h) (watched : Watched (event :: h) → Watched h) (after : Host) (files : after.files = host.files)
    (away : after.away = host.away) {later : Time} (le : clock ≤ later) {b : Bool}
    (disk : b = false → OnDisk after (event :: h)) : Inv sha256 verifyBinarySignature ⟨after, later, b, event :: h⟩ where
  binary here := by
    show after.files .binary ≠ none
    rw [files]
    exact inv.binary (away.symm.trans here)
  backup here now := by
    show after.files .backup ≠ none
    rw [files]
    exact inv.backup (away.symm.trans here) (watched now)
  decided := inv.decided.more undue (back?_plain plain)
  past version back member := (inv.past version back (mem_of_plain plain member)).trans le
  latest version back member := by
    rw [lastBack_plain plain]
    exact inv.latest version back (mem_of_plain plain member)
  spaced remembered := (inv.spaced remembered.tail).more fun version time same => by
    rw [same] at plain
    cases plain
  disk := disk

end Events

section Exchanges

variable {x : Exchange}

theorem record_aside (time : Time) (answer : Bool) : record h time (.rename x .aside) answer = h := by
  cases x <;> rfl

/-- What a rename does whose source is there, and what it does not do else. -/
theorem exec_rename {stage : Stage} {answer : Bool} {after : Site}
    (run : exec sha256 built (.rename x stage) ⟨host, clock, answered, h⟩ answer after)
    (there : host.files (x.source stage) ≠ none) :
    answer = true ∧ ∃ later, clock ≤ later ∧
      after = ⟨(host.move (x.source stage) (x.target stage)).marked x stage, later, false,
        record h later (.rename x stage) true⟩ := by
  obtain ⟨after, later, b, h₁⟩ := after
  obtain ⟨run, works, le, -, same, recorded⟩ := run
  obtain rfl : b = false := same
  obtain rfl : answer = true := works.mpr there
  obtain rfl : h₁ = record h later (.rename x stage) true := recorded
  obtain ⟨-, -, rfl⟩ | ⟨failed, -⟩ := run
  · exact ⟨rfl, later, le, rfl⟩
  · cases failed

/-- The host once the binary has been exchanged. -/
def Host.exchanged (host : Host) (x : Exchange) : Host :=
  (((host.move .binary x.spare).marked x .aside).move x.next .binary).marked x .forward

theorem exchanged_binary : (Host.exchanged host x).files .binary = host.files x.next := by
  obtain ⟨nextBinary, -, nextSpare⟩ := @Exchange.apart x
  show ((host.move .binary x.spare).move x.next .binary).files .binary = host.files x.next
  rw [move_target nextBinary.symm, move_other nextBinary nextSpare]

/-- A rollback that is due. -/
theorem Inv.rolledBack (inv : Inv sha256 verifyBinarySignature ⟨host, clock, answered, h⟩) (due : Due h)
    (next : host.files .backup ≠ none) {later : Time} (le : clock ≤ later) :
    Inv sha256 verifyBinarySignature
      ⟨Host.exchanged host .rollback, later, false, .rolledBack (installed h) later :: h⟩ where
  binary _ := by
    show (Host.exchanged host .rollback).files .binary ≠ none
    rw [exchanged_binary]
    exact next
  backup _ watched := by
    obtain ⟨gone, -⟩ := watched
    cases gone
  decided := inv.decided.back due
  past version back member := by
    rcases List.mem_cons.mp member with same | member
    · cases same
      exact le_rfl
    · exact (inv.past version back member).trans le
  latest version back member := by
    refine ⟨installed h, later, rfl, ?_⟩
    rcases List.mem_cons.mp member with same | member
    · cases same
      exact le_rfl
    · exact (inv.past version back member).trans le
  spaced remembered := (inv.spaced remembered.tail).more fun _ _ same => by cases same
  disk _ settled := by
    obtain ⟨-, saved⟩ := settled
    cases saved

/-- A swap that comes late enough after each rollback of its version. -/
theorem Inv.swapped (inv : Inv sha256 verifyBinarySignature ⟨host, clock, answered, h⟩) (undue : ¬Due h)
    (here : host.files .binary ≠ none) (next : host.files .new ≠ none) {version : List Char} {later : Time} (le : clock ≤ later)
    (clear : Remembered sha256 verifyBinarySignature h → ∀ back, .rolledBack version back ∈ h →
      rolledBackRetryAfter ≤ clock - back) :
    Inv sha256 verifyBinarySignature ⟨Host.exchanged host .update, later, false, .swapped version later :: h⟩ where
  binary _ := by
    show (Host.exchanged host .update).files .binary ≠ none
    rw [exchanged_binary]
    exact next
  backup _ _ := by
    have moved : ((host.move .binary .backup).move .new .binary).files .backup = host.files .binary := by
      rw [move_other (by decide) (by decide), move_target (by decide)]
    show ((host.move .binary .backup).move .new .binary).files .backup ≠ none
    rw [moved]
    exact here
  decided := inv.decided.more undue rfl
  past other back member := by
    rcases List.mem_cons.mp member with same | member
    · cases same
    · exact (inv.past other back member).trans le
  latest other back member := by
    rcases List.mem_cons.mp member with same | member
    · cases same
    · exact inv.latest other back member
  spaced remembered := (inv.spaced remembered.tail).more fun other time same back member => by
    cases same
    exact (clear remembered.tail back member).trans (sub_le_sub_right le back)
  disk _ settled := by
    obtain ⟨-, saved⟩ := settled
    cases saved

/-- Where both binaries are there, an exchange succeeds. -/
theorem safe_exchange (inv : Inv sha256 verifyBinarySignature ⟨host, clock, answered, h⟩)
    (here : host.files .binary ≠ none) (next : host.files x.next ≠ none)
    (swap : ∀ later, clock ≤ later → Inv sha256 verifyBinarySignature
      ⟨Host.exchanged host x, later, false, record h later (.rename x .forward) true⟩) :
    (rules sha256 verifyBinarySignature built).Safe
      (fun done site => done = true ∧ ∃ later, clock ≤ later ∧
        site = ⟨Host.exchanged host x, later, false, record h later (.rename x .forward) true⟩)
      (exchange x) ⟨host, clock, answered, h⟩ := by
  obtain ⟨nextBinary, spareBinary, nextSpare⟩ := @Exchange.apart x
  have kept : ((host.move .binary x.spare).marked x .aside).files x.next ≠ none := by
    rw [marked_files, move_other nextBinary nextSpare]
    exact next
  unfold exchange
  refine Rules.Safe.perform ?_
  rintro _ rfl - answer after run
  obtain ⟨rfl, first, le, rfl⟩ := exec_rename run here
  rw [record_aside]
  have away : ((host.move .binary x.spare).marked x .aside).away ≠ false := fun back => by cases back
  have gone : Inv sha256 verifyBinarySignature ⟨(host.move .binary x.spare).marked x .aside, first, false, h⟩ :=
    inv.move _ le (fun back => absurd back away) (fun back => absurd back away) fun settled => absurd settled.1 away
  refine ⟨gone, trivial, ?_⟩
  refine Rules.Safe.perform ?_
  rintro _ rfl - answer after run
  obtain ⟨rfl, second, le₁, rfl⟩ := exec_rename run kept
  refine ⟨swap second (le.trans le₁), trivial, ?_⟩
  rintro _ rfl -
  exact ⟨rfl, second, le.trans le₁, rfl⟩

end Exchanges

section Cycle

/-- The end of a program that leaves an agent which fits its computer. -/
abbrev SafeAgent (sha256 : Bytes → Bytes) (verifyBinarySignature : Bytes → Bytes → Bool) (built : Bytes → List Char)
    (program : Updater Running) (site : Site) : Prop :=
  (rules sha256 verifyBinarySignature built).Safe (fun agent => Fit (.running agent)) program site

theorem safe_pure {site : Site} (here : Here agent.st site) (image : Image agent site.history) :
    SafeAgent sha256 verifyBinarySignature built (pure agent) site := by
  rintro _ rfl -
  exact ⟨here, image⟩

/-- The end of a change of binaries: the state that is saved goes with them. -/
theorem safe_saveAndRestart (inv : Inv sha256 verifyBinarySignature ⟨host, clock, answered, h⟩) (away : host.away = false)
    (undue : ¬Due h) (accord : Accord agent.st h) (image : Image agent h) :
    SafeAgent sha256 verifyBinarySignature built (saveAndRestart agent) ⟨host, clock, answered, h⟩ := by
  refine (safe_saveState inv fun _ => accord).bind inv ?_
  rintro _ _ inv₁ ⟨later, -, rfl⟩
  have here : Here agent.st ⟨host.saved agent.st, later, false, h⟩ := ⟨⟨away, rfl⟩, undue, rfl, accord⟩
  exact safe_still inv₁ here.onDisk (fun _ _ run => run) (fun _ _ => rfl) fun _ _ _ _ _ _ _ => safe_pure here.later image

theorem watched_iff_armed (accord : Accord st h) : Watched h ↔ st.lastUpdateAt ≠ 0 := by
  rw [← accord.armed, State.armed, decide_eq_true_eq]

/-- Nothing is watched by a state that the watch has left. -/
theorem accord_unwatched (none : ¬Watched h)
    (last : ∀ version back, lastBack h = some (version, back) → st.rolledBackVersion = version ∧ back ≤ st.rolledBackAt) :
    Accord (unwatched st) h := by
  have unarmed : (unwatched st).armed ≠ true := fun armed => of_decide_eq_true armed rfl
  exact ⟨⟨fun armed => absurd armed unarmed, fun watched => absurd watched none⟩, fun watched => absurd watched none,
    fun watched => absurd watched none, last⟩

/-- Once the binary is back, the rollback is noted and its watch ends. -/
theorem safe_recordRollback {back : Time}
    (inv : Inv sha256 verifyBinarySignature ⟨host, clock, answered, .rolledBack agent.st.lastUpdateVersion back :: h⟩)
    (away : host.away = false) (unsaved : host.unsaved = true) (unswapped : agent.swappedVersion = []) (past : back ≤ clock) :
    SafeAgent sha256 verifyBinarySignature built (recordRollback agent)
      ⟨host, clock, answered, .rolledBack agent.st.lastUpdateVersion back :: h⟩ := by
  have disk : OnDisk host (.rolledBack agent.st.lastUpdateVersion back :: h) := fun settled => by
    cases unsaved.symm.trans settled.2
  have noted (st : State) (version : st.rolledBackVersion = agent.st.lastUpdateVersion) (time : back ≤ st.rolledBackAt) :
      Accord (unwatched st) (.rolledBack agent.st.lastUpdateVersion back :: h) := by
    refine accord_unwatched (fun watched => by cases watched.1) fun other last found => ?_
    cases found
    exact ⟨version, time⟩
  have image (st : State) :
      Image { agent with st := unwatched st } (.rolledBack agent.st.lastUpdateVersion back :: h) :=
    ⟨fun swapped => absurd unswapped swapped, fun _ here => by cases here⟩
  unfold recordRollback
  refine safe_still inv disk (fun _ _ run => run.1) (fun _ _ => rfl) fun now later _ le timed _ inv₁ => ?_
  have late : back ≤ now := (past.trans le).trans_eq timed.symm
  refine safe_still inv₁ disk (fun _ _ run => run.1) (fun _ _ => rfl) fun sum _ _ _ _ _ inv₂ => ?_
  cases sum with
  | none => exact safe_saveAndRestart inv₂ away id (noted _ rfl late) (image _)
  | some sum =>
    refine safe_still inv₂ disk (fun _ _ run => run.1) (fun _ _ => rfl) fun now₁ _ _ _ _ _ inv₃ => ?_
    exact safe_saveAndRestart inv₃ away id (noted _ rfl late) (image _)

theorem put_other {path other : Path} {content : Option Bytes} (apart : other ≠ path) :
    (host.put path content).files other = host.files other := Function.update_of_ne apart _ _

/-- A file that is taken away, other than the binary and a backup that is needed. -/
theorem safe_remove {path : Path} {β : Type} {post : β → Site → Prop} {next : Unit → Updater β}
    (inv : Inv sha256 verifyBinarySignature ⟨host, clock, answered, h⟩) (disk : OnDisk host h) (other : path ≠ .binary)
    (spare : path = .backup → ¬Watched h)
    (resume : ∀ later, clock ≤ later → Inv sha256 verifyBinarySignature ⟨host.put path none, later, false, h⟩ →
      (rules sha256 verifyBinarySignature built).Safe post (next ()) ⟨host.put path none, later, false, h⟩) :
    (rules sha256 verifyBinarySignature built).Safe post (perform (.remove path) >>= next) ⟨host, clock, answered, h⟩ := by
  refine Rules.Safe.perform ?_
  rintro _ rfl - answer ⟨after, later, b, h₁⟩ ⟨-, works, le, -, same, recorded⟩
  obtain rfl : b = false := same
  obtain rfl : h₁ = h := recorded
  obtain rfl : after = host.put path none := works
  have binary : (host.put path none).files .binary = host.files .binary := put_other other.symm
  have inv₁ : Inv sha256 verifyBinarySignature ⟨host.put path none, later, false, h₁⟩ := by
    refine inv.move (host.put path none) le (fun away => ?_) (fun away watched => ?_) disk
    · rw [binary]
      exact inv.binary away
    · have kept : (host.put path none).files .backup = host.files .backup :=
        Function.update_of_ne (fun same => spare same.symm watched) _ _
      rw [kept]
      exact inv.backup away watched
  exact ⟨inv₁, trivial, resume later le inv₁⟩

/-- A rollback that is due succeeds. -/
theorem safe_rollback (inv : Inv sha256 verifyBinarySignature ⟨host, clock, answered, h⟩) (away : host.away = false)
    (due : Due h) (watched : Watched h) :
    (rules sha256 verifyBinarySignature built).Safe
      (fun done site => done = true ∧ ∃ host₁ back later, back ≤ later ∧ host₁.away = false ∧ host₁.unsaved = true ∧
        site = ⟨host₁, later, false, .rolledBack (installed h) back :: h⟩)
      rollback ⟨host, clock, answered, h⟩ := by
  have disk (host : Host) : OnDisk host h := fun _ undue => absurd due undue
  have backup := inv.backup away watched
  unfold rollback
  refine Rules.Safe.perform ?_
  rintro _ rfl - found ⟨after, later, b, h₁⟩ ⟨run, works, le, -, same, recorded⟩
  obtain rfl : b = false := same
  obtain rfl : h₁ = h := recorded
  obtain rfl : after = host := run.1
  obtain rfl : found = true := works.mpr backup
  have inv₁ : Inv sha256 verifyBinarySignature ⟨after, later, false, h₁⟩ := inv.still le (disk _)
  refine ⟨inv₁, trivial, ?_⟩
  refine safe_remove inv₁ (disk _) (by decide) (fun same => by cases same) fun second le₁ inv₂ => ?_
  have here : (after.put .failed none).files .binary ≠ none := inv₂.binary away
  have next : (after.put .failed none).files .backup ≠ none := inv₂.backup away watched
  have safe := @safe_exchange sha256 verifyBinarySignature built _ _ _ _ .rollback inv₂ here next fun third le₂ => ?_
  · refine safe.weaken fun done site _ ended => ?_
    obtain ⟨rfl, last, -, rfl⟩ := ended
    exact ⟨rfl, _, last, last, le_rfl, rfl, rfl, rfl⟩
  · exact inv₂.rolledBack due next le₂

theorem watched_checkin {response : Option (Option AgentUpdate)} :
    Watched (.checkin response :: h) ↔ Watched h ∧ (running h = true → response.isSome = false) := by
  have place : inPlace (.checkin response :: h) = inPlace h := rfl
  unfold Watched
  rw [place, own]
  split
  case isTrue runs =>
    have unmade : ¬true = response.isSome ↔ response.isSome = false := by cases response <;> simp
    rw [List.mem_cons, not_or]
    tauto
  case isFalse still => tauto

/-- A check-in that counts for nothing. -/
theorem Accord.uncounted {response : Option (Option AgentUpdate)} (accord : Accord st h)
    (out : ¬Watched h ∨ running h = false) : Accord st (.checkin response :: h) := by
  rcases out with gone | still
  · have gone₁ : ¬Watched (.checkin response :: h) := fun watched => gone (watched_checkin.mp watched).1
    exact ⟨⟨fun armed => absurd (accord.armed.mp armed) gone, fun watched => absurd watched gone₁⟩,
      fun watched => absurd watched gone₁, fun watched => absurd watched gone₁, accord.last⟩
  · have same : own (.checkin response :: h) = own h := if_neg (Bool.eq_false_iff.mp still)
    have watched : Watched (.checkin response :: h) ↔ Watched h := by
      unfold Watched
      rw [same]
      rfl
    exact ⟨accord.armed.trans watched.symm, fun now => by rw [same]; exact accord.count (watched.mp now),
      fun now => accord.version (watched.mp now), accord.last⟩

/-- The last check-in of a binary that is watched, and has failed once more. -/
theorem Accord.failed (accord : Accord st h) (watched : Watched h) (runs : running h = true) :
    Accord { st with failedSinceUpdate := st.failedSinceUpdate + 1 } (.checkin none :: h) := by
  have watched₁ : Watched (.checkin none :: h) := watched_checkin.mpr ⟨watched, fun _ => rfl⟩
  have more : own (.checkin none :: h) = false :: own h := if_pos runs
  refine ⟨⟨fun _ => watched₁, fun _ => accord.armed.mpr watched⟩, fun _ => ?_, fun _ => accord.version watched, accord.last⟩
  show st.failedSinceUpdate + 1 = _
  rw [more, accord.count watched, List.length_cons]
  rfl

theorem undue_of_unwatched (decided : Decided h) (gone : ¬Watched h) : ¬Due (.checkin none :: h) := by
  intro ⟨runs, once⟩
  have out : inPlace h = false := by
    cases here : inPlace h with
    | false => rfl
    | true => exact absurd ⟨here, by rw [once]; decide⟩ gone
  have twice := decided.own_of_running runs out
  rw [once] at twice
  exact absurd twice (by decide)

variable {before : Time} {b : Bool}

/-- A failed check-in counts if the binary that is watched has made it; the second one rolls back. -/
theorem safe_CheckRollback_failed (inv : Inv sha256 verifyBinarySignature ⟨host, clock, answered, .checkin none :: h⟩)
    (here : Here agent.st ⟨host, before, b, h⟩) (image : Image agent h) :
    SafeAgent sha256 verifyBinarySignature built (CheckRollback agent false)
      ⟨host, clock, answered, .checkin none :: h⟩ := by
  obtain ⟨settled, undue, state, accord⟩ := here
  have accord : Accord agent.st h := accord
  have decided : Decided h := (decided_cons.mp inv.decided).2
  have image₁ (st : State) : Image { agent with st := st } (.checkin none :: h) := ⟨image.old, image.new⟩
  unfold CheckRollback
  dsimp only
  split
  case isTrue none =>
    have gone : ¬Watched h := fun watched => (watched_iff_armed accord).mp watched none
    exact safe_pure ⟨settled, undue_of_unwatched decided gone, state, accord.uncounted (.inl gone)⟩ (image₁ _)
  case isFalse armed =>
    have watched : Watched h := (watched_iff_armed accord).mpr armed
    split
    case isTrue swapped =>
      have still := image.old swapped
      have undue₁ : ¬Due (.checkin none :: h) := fun due => by cases still.symm.trans due.1
      exact safe_pure ⟨settled, undue₁, state, accord.uncounted (.inr still)⟩ (image₁ _)
    case isFalse unswapped =>
      have unswapped : agent.swappedVersion = [] := not_not.mp unswapped
      have runs := image.new unswapped watched.1
      have counted := accord.failed watched runs
      refine (safe_saveState inv fun _ => counted).bind inv ?_
      rintro _ _ inv₁ ⟨later, -, rfl⟩
      have short := decided.own_short undue watched
      have count := accord.count watched
      split
      case isTrue few =>
        have fresh : own h = [] := by
          have few : agent.st.failedSinceUpdate + 1 < 2 := few
          exact List.length_eq_zero_iff.mp (by omega)
        have undue₁ : ¬Due (.checkin none :: h) := fun due => by cases fresh.symm.trans due.2
        exact safe_pure ⟨⟨settled.1, rfl⟩, undue₁, rfl, counted⟩ (image₁ _)
      case isFalse many =>
        have due : Due (.checkin none :: h) := by
          have many : ¬agent.st.failedSinceUpdate + 1 < 2 := many
          obtain ⟨outcome, once⟩ := List.length_eq_one_iff.mp (show (own h).length = 1 by omega)
          have failed : outcome = false := by
            cases outcome with
            | false => rfl
            | true => exact absurd (once ▸ List.mem_cons_self) watched.2
          exact ⟨runs, failed ▸ once⟩
        have watched₁ : Watched (.checkin none :: h) := watched_checkin.mpr ⟨watched, fun _ => rfl⟩
        refine (safe_rollback inv₁ settled.1 due watched₁).bind inv₁ ?_
        rintro _ _ inv₂ ⟨rfl, host₁, back, last, le, away, unsaved, rfl⟩
        have version : agent.st.lastUpdateVersion = installed (.checkin none :: h) := accord.version watched
        rw [← version] at inv₂ ⊢
        exact safe_recordRollback inv₂ away unsaved unswapped le

/-- A successful check-in ends the watch if the binary that is watched has made it. -/
theorem safe_CheckRollback_succeeded {upd : Option AgentUpdate}
    (inv : Inv sha256 verifyBinarySignature ⟨host, clock, answered, .checkin (some upd) :: h⟩)
    (here : Here agent.st ⟨host, before, b, h⟩) (image : Image agent h) :
    (rules sha256 verifyBinarySignature built).Safe
      (fun agent site => Fit (.running agent) site ∧ site.history = .checkin (some upd) :: h ∧
        (agent.swappedVersion = [] → ¬Watched site.history))
      (CheckRollback agent true) ⟨host, clock, answered, .checkin (some upd) :: h⟩ := by
  obtain ⟨settled, undue, state, accord⟩ := here
  have accord : Accord agent.st h := accord
  have image₁ (st : State) : Image { agent with st := st } (.checkin (some upd) :: h) := ⟨image.old, image.new⟩
  have ended (runs : running h = true) : ¬Watched (.checkin (some upd) :: h) := fun watched => by
    cases (watched_checkin.mp watched).2 runs
  unfold CheckRollback
  dsimp only
  split
  case isTrue none =>
    have gone : ¬Watched h := fun watched => (watched_iff_armed accord).mp watched none
    rintro _ rfl -
    exact ⟨⟨⟨settled, id, state, accord.uncounted (.inl gone)⟩, image₁ _⟩, rfl, fun _ watched => gone (watched_checkin.mp watched).1⟩
  case isFalse armed =>
    have watched : Watched h := (watched_iff_armed accord).mpr armed
    split
    case isTrue swapped =>
      rintro _ rfl -
      exact ⟨⟨⟨settled, id, state, accord.uncounted (.inr (image.old swapped))⟩, image₁ _⟩, rfl, fun unswapped => absurd unswapped swapped⟩
    case isFalse unswapped =>
      have unswapped : agent.swappedVersion = [] := not_not.mp unswapped
      have gone := ended (image.new unswapped watched.1)
      have accord₁ : Accord (unwatched agent.st) (.checkin (some upd) :: h) := accord_unwatched gone accord.last
      refine (safe_saveState inv fun _ => accord₁).bind inv ?_
      rintro _ _ inv₁ ⟨later, -, rfl⟩
      rintro _ rfl -
      exact ⟨⟨⟨⟨settled.1, rfl⟩, id, rfl, accord₁⟩, image₁ _⟩, rfl, fun _ => gone⟩

/-- Whatever is offered, it is not a version that was rolled back less than the delay ago, if another was
not rolled back since. -/
theorem clear_of_guard {version : List Char} {now : Time}
    (inv : Inv sha256 verifyBinarySignature ⟨host, clock, answered, h⟩) (accord : Accord st h) (some_ : version ≠ [])
    (passed : ¬(st.rolledBackVersion ≠ [] ∧ version = st.rolledBackVersion ∧ now - st.rolledBackAt < rolledBackRetryAfter))
    {time : Time} (le : now ≤ time) (known : ¬Forgotten version time h) :
    ∀ back, .rolledBack version back ∈ h → rolledBackRetryAfter ≤ time - back := by
  intro back member
  obtain ⟨other, last, found, le₁⟩ := inv.latest version back member
  obtain ⟨noted, le₂⟩ := accord.last other last found
  by_cases same : other = version
  · rw [same] at noted
    rw [noted] at passed
    have late : ¬(now - st.rolledBackAt < rolledBackRetryAfter) := fun early => passed ⟨some_, rfl, early⟩
    have late : rolledBackRetryAfter ≤ now - st.rolledBackAt := not_lt.mp late
    linarith
  · by_contra early
    obtain ⟨later, earlier, split⟩ := List.append_of_mem member
    refine known ⟨back, later, earlier, split, not_le.mp early, other, last, ?_, same⟩
    rw [split, lastBack, List.findSome?_append] at found
    obtain ⟨event, inside, back_⟩ := List.exists_of_findSome?_eq_some (show later.findSome? Event.back? = some (other, last) by
      cases first : later.findSome? Event.back? with
      | some _ => rw [first] at found; exact found
      | none =>
        rw [first] at found
        cases found
        exact absurd rfl same)
    cases event with
    | rolledBack =>
      cases back_
      exact inside
    | started | checkin | downloaded | swapped => cases back_

theorem Inv.put (inv : Inv sha256 verifyBinarySignature ⟨host, clock, answered, h⟩) (content : Option Bytes) {later : Time}
    (le : clock ≤ later) (disk : OnDisk host h) : Inv sha256 verifyBinarySignature ⟨host.put .new content, later, false, h⟩ := by
  have binary : (host.put .new content).files .binary = host.files .binary := put_other (by decide)
  have backup : (host.put .new content).files .backup = host.files .backup := put_other (by decide)
  refine inv.move (host.put .new content) le (fun away => ?_) (fun away watched => ?_) disk
  · rw [binary]
    exact inv.binary away
  · rw [backup]
    exact inv.backup away watched

/-- An update that is installed is watched from then on. -/
theorem safe_install {upd : AgentUpdate} {bin : Bytes} (inv : Inv sha256 verifyBinarySignature ⟨host, clock, answered, h⟩)
    (here : Here agent.st ⟨host, before, b, h⟩) (quiet : ¬Watched h) (offers : offered h = some upd)
    (some_ : upd.latestVersion ≠ [])
    (clear : Remembered sha256 verifyBinarySignature h → ∀ back, .rolledBack upd.latestVersion back ∈ h →
      rolledBackRetryAfter ≤ clock - back) (image : Image agent h) :
    SafeAgent sha256 verifyBinarySignature built (install agent upd bin) ⟨host, clock, answered, h⟩ := by
  have disk := here.onDisk
  obtain ⟨settled, undue, state, accord⟩ := here
  have away : host.away = false := settled.1
  unfold install
  refine Rules.Safe.perform ?_
  rintro _ rfl - done ⟨after, first, b₁, h₁⟩ ⟨run, works, le, -, same, recorded⟩
  obtain rfl : b₁ = false := same
  obtain rfl : h₁ = h := recorded
  obtain rfl : done = true := works
  obtain ⟨-, rfl⟩ | ⟨failed, -⟩ := run
  case inr => cases failed
  have inv₁ := inv.put (some []) le disk
  refine ⟨inv₁, trivial, ?_⟩
  refine Rules.Safe.perform ?_
  rintro _ rfl - done ⟨after, second, b₁, h₂⟩ ⟨run, works, le₁, -, same, recorded⟩
  obtain rfl : b₁ = false := same
  obtain rfl : h₂ = h₁ := recorded
  obtain rfl : done = true := works
  obtain ⟨-, rfl⟩ | ⟨failed, -⟩ := run
  case inr => cases failed
  have inv₂ := inv₁.put (some bin) le₁ disk
  refine ⟨inv₂, trivial, ?_⟩
  have replaced : (rules sha256 verifyBinarySignature built).Safe
      (fun done site => done = true ∧ ∃ host₁ swap later, swap ≤ later ∧ host₁.away = false ∧ host₁.unsaved = true ∧
        site = ⟨host₁, later, false, .swapped upd.latestVersion swap :: h₂⟩)
      atomicReplace ⟨(host.put .new (some [])).put .new (some bin), second, false, h₂⟩ := by
    unfold atomicReplace
    refine safe_remove inv₂ disk (by decide) (fun _ => quiet) fun third le₂ inv₃ => ?_
    have new : (((host.put .new (some [])).put .new (some bin)).put .backup none).files .new = some bin := by
      have kept : (((host.put .new (some [])).put .new (some bin)).put .backup none).files .new =
          ((host.put .new (some [])).put .new (some bin)).files .new := put_other (by decide)
      rw [kept, put_self]
    have some₁ : (((host.put .new (some [])).put .new (some bin)).put .backup none).files .new ≠ none := by
      rw [new]
      exact Option.some_ne_none _
    have noted (later : Time) : record h₂ later (.rename .update .forward) true = .swapped upd.latestVersion later :: h₂ := by
      show Event.swapped (((offered h₂).map (·.latestVersion)).getD []) later :: h₂ = _
      rw [offers]
      rfl
    have late := le.trans (le₁.trans le₂)
    have safe := @safe_exchange sha256 verifyBinarySignature built _ _ _ _ .update inv₃ (inv₃.binary away) some₁ fun fourth le₃ => ?_
    · refine safe.weaken fun done site _ ended => ?_
      obtain ⟨rfl, last, -, rfl⟩ := ended
      rw [noted]
      exact ⟨rfl, _, last, last, le_rfl, rfl, rfl, rfl⟩
    · rw [noted]
      refine inv₃.swapped undue (inv₃.binary away) some₁ le₃ fun remembered back member => ?_
      exact (clear remembered back member).trans (sub_le_sub_right late back)
  refine replaced.bind inv₂ ?_
  rintro _ _ inv₃ ⟨rfl, host₁, swap, last, le₂, away₁, unsaved, rfl⟩
  have pending : OnDisk host₁ (.swapped upd.latestVersion swap :: h₂) := fun settled => by
    cases unsaved.symm.trans settled.2
  refine safe_still inv₃ pending (fun _ _ run => run.1) (fun _ _ => rfl) fun now later _ _ _ run inv₄ => ?_
  have watched : Watched (.swapped upd.latestVersion swap :: h₂) := ⟨rfl, List.not_mem_nil⟩
  have armed : now ≠ 0 := ne_of_gt run.2
  refine safe_saveAndRestart inv₄ away₁ id ⟨⟨fun _ => watched, fun _ => decide_eq_true armed⟩, fun _ => rfl, fun _ => rfl, accord.last⟩
    ⟨fun _ => rfl, fun unswapped => absurd unswapped some_⟩

theorem safe_HandleAgentUpdate {upd : AgentUpdate} (inv : Inv sha256 verifyBinarySignature ⟨host, clock, answered, h⟩)
    (here : Here agent.st ⟨host, before, b, h⟩) (quiet : agent.swappedVersion = [] → ¬Watched h)
    (offers : offered h = some upd) (image : Image agent h) :
    SafeAgent sha256 verifyBinarySignature built (HandleAgentUpdate sha256 verifyBinarySignature agent upd)
      ⟨host, clock, answered, h⟩ := by
  have done {later : Time} {b : Bool} : SafeAgent sha256 verifyBinarySignature built (pure agent) ⟨host, later, b, h⟩ :=
    safe_pure here.later image
  unfold HandleAgentUpdate
  split
  · exact safe_still inv here.onDisk (fun _ _ run => run) (fun _ _ => rfl) fun _ _ _ _ _ _ _ => done
  rename_i unswapped
  have quiet := quiet (not_not.mp unswapped)
  split
  · exact done
  rename_i complete
  have some_ : upd.latestVersion ≠ [] := fun empty => complete (.inl empty)
  split
  swap
  · exact done
  refine safe_still inv here.onDisk (fun _ _ run => run.1) (fun _ _ => rfl) fun now first _ _ timed _ inv₁ => ?_
  obtain rfl : now = first := timed
  split
  · exact done
  rename_i passed
  refine Rules.Safe.perform ?_
  rintro _ rfl - downloaded ⟨after, second, b₁, h₁⟩ ⟨run, -, le, -, same, recorded⟩
  obtain rfl : b₁ = false := same
  obtain rfl : after = host := run
  cases downloaded with
  | none =>
    obtain rfl : h₁ = h := recorded
    exact ⟨inv₁.still le here.onDisk, trivial, done⟩
  | some bin =>
    obtain rfl : h₁ = .downloaded bin second :: h := recorded
    have here₁ : Here agent.st ⟨after, second, false, .downloaded bin second :: h⟩ :=
      ⟨here.settled, id, here.state, ⟨here.accord.armed, here.accord.count, here.accord.version, here.accord.last⟩⟩
    have image₁ : Image agent (.downloaded bin second :: h) := ⟨image.old, image.new⟩
    have inv₂ : Inv sha256 verifyBinarySignature ⟨after, second, false, .downloaded bin second :: h⟩ :=
      inv₁.happen rfl here.undue id _ rfl rfl le fun _ => here₁.onDisk
    refine ⟨inv₂, trivial, ?_⟩
    dsimp only
    split
    · rename_i checked
      refine safe_install inv₂ here₁ quiet offers some_ (fun remembered back member => ?_) image₁
      have known := remembered bin second h upd List.suffix_rfl offers checked
      exact clear_of_guard inv₁ here.accord some_ passed le known back (mem_of_plain rfl member)
    · exact safe_pure here₁ image₁

theorem safe_saves (n : Nat) (inv : Inv sha256 verifyBinarySignature ⟨host, clock, answered, h⟩)
    (here : Here st ⟨host, before, b, h⟩) :
    (rules sha256 verifyBinarySignature built).Safe
      (fun _ site => ∃ host₁ later b, site = ⟨host₁, later, b, h⟩ ∧ Here st ⟨host₁, later, b, h⟩) (saves st n)
      ⟨host, clock, answered, h⟩ := by
  induction n generalizing host clock answered before b with
  | zero =>
    rintro _ rfl -
    exact ⟨host, clock, answered, rfl, here.later⟩
  | succ n ih =>
    refine (safe_saveState inv fun _ => here.accord).bind inv ?_
    rintro _ _ inv₁ ⟨later, -, rfl⟩
    have here₁ : Here st ⟨host.saved st, later, false, h⟩ := ⟨⟨here.settled.1, rfl⟩, here.undue, rfl, here.accord⟩
    exact ih inv₁ here₁

theorem safe_runCheckin (inv : Inv sha256 verifyBinarySignature ⟨host, clock, answered, h⟩)
    (here : Here agent.st ⟨host, clock, answered, h⟩) (image : Image agent h) :
    SafeAgent sha256 verifyBinarySignature built (runCheckin sha256 verifyBinarySignature agent)
      ⟨host, clock, answered, h⟩ := by
  unfold runCheckin
  refine Rules.Safe.perform ?_
  rintro _ rfl - response ⟨after, later, b, h₁⟩ ⟨run, -, le, -, same, recorded⟩
  obtain rfl : b = true := same
  obtain rfl : h₁ = .checkin response :: h := recorded
  obtain rfl : after = { host with validated := host.validated || (response.isSome && host.fresh && host.trial) } := run
  have inv₁ : Inv sha256 verifyBinarySignature
      ⟨{ host with validated := host.validated || (response.isSome && host.fresh && host.trial) }, later, true,
        .checkin response :: h⟩ :=
    inv.happen rfl here.undue (fun watched => (watched_checkin.mp watched).1)
      { host with validated := host.validated || (response.isSome && host.fresh && host.trial) } rfl rfl le fun same => by cases same
  have here₁ : Here agent.st
      ⟨{ host with validated := host.validated || (response.isSome && host.fresh && host.trial) }, later, true, h⟩ :=
    ⟨here.settled, here.undue, here.state, here.accord⟩
  refine ⟨inv₁, trivial, ?_⟩
  cases response with
  | none => exact safe_CheckRollback_failed inv₁ here₁ image
  | some upd =>
    refine (safe_CheckRollback_succeeded inv₁ here₁ image).bind inv₁ ?_
    rintro agent₁ ⟨host₁, first, b₁, h₁⟩ inv₂ ⟨⟨here₂, image₂⟩, same, quiet⟩
    obtain rfl : h₁ = .checkin (some upd) :: h := same
    refine (safe_saveState inv₂ fun _ => here₂.accord).bind inv₂ ?_
    rintro _ _ inv₃ ⟨second, -, rfl⟩
    have here₃ : Here agent₁.st ⟨host₁.saved agent₁.st, second, false, .checkin (some upd) :: h⟩ :=
      ⟨⟨here₂.settled.1, rfl⟩, here₂.undue, rfl, here₂.accord⟩
    refine safe_still inv₃ here₃.onDisk (fun _ _ run => run) (fun _ _ => rfl) fun n third b₃ _ _ _ inv₄ => ?_
    refine (safe_saves n inv₄ here₃).bind inv₄ ?_
    rintro _ _ inv₅ ⟨host₂, fourth, b₂, rfl, here₄⟩
    cases upd with
    | none => exact safe_pure here₄ image₂
    | some upd => exact safe_HandleAgentUpdate inv₅ here₄ quiet rfl image₂

/-- A start finds the state that goes with the binary in place. -/
theorem safe_boot (inv : Inv sha256 verifyBinarySignature ⟨host, clock, answered, h⟩)
    (here : Here host.state ⟨host, clock, answered, h⟩) :
    SafeAgent sha256 verifyBinarySignature built boot ⟨host, clock, answered, h⟩ := by
  unfold boot
  refine Rules.Safe.perform ?_
  rintro _ rfl - loaded ⟨after, first, b, h₁⟩ ⟨run, works, le, -, same, recorded⟩
  obtain rfl : b = false := same
  obtain rfl : h₁ = .started :: h := recorded
  obtain rfl : loaded = some host.state := works
  obtain rfl : after = { host with fresh := true, validated := false } := run.2
  have here₁ : Here host.state ⟨{ host with fresh := true, validated := false }, first, false, .started :: h⟩ :=
    ⟨here.settled, id, rfl, ⟨here.accord.armed, here.accord.count, here.accord.version, here.accord.last⟩⟩
  have inv₁ : Inv sha256 verifyBinarySignature
      ⟨{ host with fresh := true, validated := false }, first, false, .started :: h⟩ :=
    inv.happen rfl here.undue id { host with fresh := true, validated := false } rfl rfl le fun _ => here₁.onDisk
  have image (st : State) (version : List Char) : Image ⟨st, version, []⟩ (.started :: h) :=
    ⟨fun swapped => absurd rfl swapped, fun _ place => place⟩
  refine ⟨inv₁, trivial, ?_⟩
  refine safe_still inv₁ here₁.onDisk (fun _ _ run => run) (fun _ _ => rfl) fun version second b _ _ _ inv₂ => ?_
  have checked : (rules sha256 verifyBinarySignature built).Safe
      (fun st site => Here st site ∧ site.history = .started :: h) (CheckBinaryIntegrity host.state)
      ⟨{ host with fresh := true, validated := false }, second, b, .started :: h⟩ := by
    unfold CheckBinaryIntegrity
    refine safe_still inv₂ here₁.onDisk (fun _ _ run => run.1) (fun _ _ => rfl) fun sum third _ _ _ _ inv₃ => ?_
    cases sum with
    | none =>
      rintro _ rfl -
      exact ⟨here₁.later, rfl⟩
    | some current =>
      dsimp only
      split
      · refine safe_still inv₃ here₁.onDisk (fun _ _ run => run.1) (fun _ _ => rfl) fun now fourth _ _ _ _ inv₄ => ?_
        have accord : Accord { host.state with binarySHA256 := current, binaryUpdatedAt := now } (.started :: h) :=
          ⟨here₁.accord.armed, here₁.accord.count, here₁.accord.version, here₁.accord.last⟩
        refine (safe_saveState inv₄ fun _ => accord).bind inv₄ ?_
        rintro _ _ - ⟨fifth, -, rfl⟩
        rintro _ rfl -
        exact ⟨⟨⟨here.settled.1, rfl⟩, id, rfl, accord⟩, rfl⟩
      · rintro _ rfl -
        exact ⟨here₁.later, rfl⟩
  refine checked.bind inv₂ ?_
  rintro st ⟨host₁, later, b₁, h₁⟩ - ⟨here₂, same⟩
  obtain rfl : h₁ = .started :: h := same
  exact safe_pure here₂ (image st version)

theorem safe_cycle (memory : Memory) (site : Site) (inv : Inv sha256 verifyBinarySignature site) (fit : Fit memory site) :
    (rules sha256 verifyBinarySignature built).Safe Fit (cycle sha256 verifyBinarySignature memory) site := by
  have running (program : Updater Running) (safe : SafeAgent sha256 verifyBinarySignature built program site) :
      (rules sha256 verifyBinarySignature built).Safe Fit (program >>= fun agent => pure (.running agent)) site := by
    refine safe.bind inv fun agent after _ fits => ?_
    rintro _ rfl -
    exact fits
  obtain ⟨host, clock, answered, h⟩ := site
  cases memory with
  | stopped => exact running _ (safe_boot inv fit)
  | running agent => exact running _ (safe_runCheckin inv fit.1 fit.2)

end Cycle

theorem start_safe (c : Process.Config Op.Res Site Memory) (start : Start c) :
    Inv sha256 verifyBinarySignature c.world ∧ (rules sha256 verifyBinarySignature built).Safe Fit c.run c.world := by
  obtain ⟨⟨host, clock, answered, h⟩, run⟩ := c
  obtain ⟨rfl, settled, binary, unarmed, rfl⟩ := start
  have unwatched : ¬Watched [] := fun watched => by cases watched.1
  have accord : Accord host.state [] :=
    ⟨⟨fun armed => absurd (unarmed.symm.trans armed) Bool.false_ne_true, fun watched => absurd watched unwatched⟩,
      fun watched => absurd watched unwatched, fun watched => absurd watched unwatched, fun _ _ found => by cases found⟩
  refine ⟨⟨fun _ => binary, fun _ watched => absurd watched unwatched, ?_, ?_, ?_, ?_, fun _ _ _ => accord⟩, ?_⟩
  · exact fun _ _ suffix => absurd (List.suffix_nil.mp suffix) (List.cons_ne_nil _ _)
  · exact fun _ _ member => absurd member List.not_mem_nil
  · exact fun _ _ member => absurd member List.not_mem_nil
  · exact fun _ _ _ _ suffix => absurd (List.suffix_nil.mp suffix) (List.cons_ne_nil _ _)
  · rintro _ rfl -
    exact ⟨settled, id, rfl, accord⟩

/-- A restart between the events finds the disk in agreement with them. -/
theorem between_safe (c : Process.Config Op.Res Site Memory) (between : Between c)
    (inv : Inv sha256 verifyBinarySignature c.world) (safe : (rules sha256 verifyBinarySignature built).Safe Fit c.run c.world) :
    (rules sha256 verifyBinarySignature built).Safe Fit (.ret .stopped) c.world := by
  obtain ⟨still, undue, settled⟩ := between
  obtain ⟨world, run⟩ := c
  rintro _ rfl -
  rcases still with unanswered | ⟨memory, rfl⟩
  · exact ⟨settled, undue, rfl, inv.disk unanswered settled undue⟩
  · have fit := safe world rfl inv
    cases memory with
    | stopped => exact fit
    | running agent =>
      obtain ⟨⟨-, -, same, accord⟩, -⟩ := fit
      exact ⟨settled, undue, rfl, same ▸ accord⟩

theorem computer_safe {c : Process.Config Op.Res Site Memory}
    (reach : (computer sha256 verifyBinarySignature built).ReachWhere Start Between c) :
    (rules sha256 verifyBinarySignature built).inv c.world ∧ (rules sha256 verifyBinarySignature built).Safe Fit c.run c.world :=
  reach.safe (fun run => run) (fun _ moves => moves.elim) safe_cycle between_safe start_safe

end Opale.AgentGo.Rollback
