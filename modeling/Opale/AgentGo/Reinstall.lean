import Opale.AgentGo.Rollback

namespace Opale.AgentGo.Rollback

open Update Rules

section

variable {sha256 : Bytes → Bytes} {verifyBinarySignature : Bytes → Bytes → Bool} {built : Bytes → List Char}
variable {host : Host} {clock time : Time} {answered : Bool} {h : History} {st : State} {agent : Running}
variable {α : Type} {value : α} {last : Site}

/-! What the agent does when nothing fails. -/

/-- An operation that only takes its answer from the host. -/
theorem ends_still {o : Op} {rest : o.Res → Updater α} (answer : o.Res) (idle : Update.exec sha256 o host answer host)
    (works : Works built o host answer host) (timed : Timed clock o answer) (quiet : asks o = false)
    (unrecorded : record h clock o answer = h)
    (later : Ends (exec sha256 built) (rest answer) ⟨host, clock, false, h⟩ value last) :
    Ends (exec sha256 built) (.op o rest) ⟨host, clock, answered, h⟩ value last :=
  .perform answer ⟨host, clock, false, h⟩ ⟨idle, works, le_rfl, timed, quiet.symm, unrecorded.symm⟩ later

theorem ends_saveState :
    Ends (exec sha256 built) (saveState st) ⟨host, clock, answered, h⟩ () ⟨host.saved st, clock, false, h⟩ :=
  have written : exec sha256 built (.save st) ⟨host, clock, answered, h⟩ true ⟨host.saved st, clock, false, h⟩ :=
    ⟨.inl ⟨rfl, rfl⟩, rfl, le_rfl, trivial, rfl, rfl⟩
  .op written .ret

theorem ends_saveAndRestart :
    Ends (exec sha256 built) (saveAndRestart agent) ⟨host, clock, answered, h⟩ agent
      ⟨host.saved agent.st, clock, false, h⟩ :=
  ends_saveState.bind <| ends_still () rfl trivial trivial rfl rfl .ret

theorem ends_remove {path : Path} {rest : Unit → Updater α}
    (later : Ends (exec sha256 built) (rest ()) ⟨host.put path none, clock, false, h⟩ value last) :
    Ends (exec sha256 built) (.op (.remove path) rest) ⟨host, clock, answered, h⟩ value last :=
  .perform () ⟨host.put path none, clock, false, h⟩ ⟨.inl rfl, rfl, le_rfl, trivial, rfl, rfl⟩ later

theorem ends_exchange {x : Exchange} (here : host.files .binary ≠ none) (next : host.files x.next ≠ none) :
    Ends (exec sha256 built) (exchange x) ⟨host, clock, answered, h⟩ true
      ⟨Host.exchanged host x, clock, false, record h clock (.rename x .forward) true⟩ := by
  obtain ⟨nextBinary, -, nextSpare⟩ := @Exchange.apart x
  have kept : ((host.move .binary x.spare).marked x .aside).files x.next ≠ none := by
    rw [marked_files, move_other nextBinary nextSpare]
    exact next
  have aside : exec sha256 built (.rename x .aside) ⟨host, clock, answered, h⟩ true
      ⟨(host.move .binary x.spare).marked x .aside, clock, false, h⟩ :=
    ⟨.inl ⟨rfl, here, rfl⟩, ⟨fun _ => here, fun _ => rfl⟩, le_rfl, trivial, rfl, (record_aside _ _).symm⟩
  have forward : exec sha256 built (.rename x .forward) ⟨(host.move .binary x.spare).marked x .aside, clock, false, h⟩ true
      ⟨Host.exchanged host x, clock, false, record h clock (.rename x .forward) true⟩ :=
    ⟨.inl ⟨rfl, kept, rfl⟩, ⟨fun _ => kept, fun _ => rfl⟩, le_rfl, trivial, rfl, rfl⟩
  exact .perform true _ aside <| .perform true _ forward .ret

/-- What the restarts find: a binary, the one before it, and a state. -/
structure Stands (host : Host) (bin : Bytes) (old : Option Bytes) (st : State) : Prop where
  binary : host.files .binary = some bin
  backup : host.files .backup = old
  settled : Settled host
  state : host.state = st

variable {bin new : Bytes} {old : Option Bytes} {upd : AgentUpdate}

theorem Stands.saved (stands : Stands host bin old st) {st₁ : State} : Stands (host.saved st₁) bin old st₁ :=
  ⟨stands.binary, stands.backup, ⟨stands.settled.1, rfl⟩, rfl⟩

/-- Whatever a check-in brings, at a time of its own. -/
def Host.asked (host : Host) (response : Option (Option AgentUpdate)) : Host :=
  { host with validated := host.validated || (response.isSome && host.fresh && host.trial) }

theorem Stands.asked (stands : Stands host bin old st) {response : Option (Option AgentUpdate)} :
    Stands (Host.asked host response) bin old st := ⟨stands.binary, stands.backup, stands.settled, stands.state⟩

theorem ends_checkin {rest : Option (Option AgentUpdate) → Updater α} (response : Option (Option AgentUpdate))
    (le : clock ≤ time)
    (later : Ends (exec sha256 built) (rest response) ⟨Host.asked host response, time, true, .checkin response :: h⟩ value last) :
    Ends (exec sha256 built) (.op .checkin rest) ⟨host, clock, answered, h⟩ value last :=
  .perform response ⟨Host.asked host response, time, true, .checkin response :: h⟩ ⟨rfl, trivial, le, trivial, rfl, rfl⟩ later

section Failures

variable {version : List Char}

theorem CheckRollback_failed (armed : st.lastUpdateAt ≠ 0) {failures : Int} (count : st.failedSinceUpdate + 1 = failures) :
    CheckRollback ⟨st, version, []⟩ false = (do
      saveState { st with failedSinceUpdate := failures }
      if failures < MaxFailedSinceUpdate then return ⟨{ st with failedSinceUpdate := failures }, version, []⟩
      else if ← rollback then recordRollback ⟨{ st with failedSinceUpdate := failures }, version, []⟩
      else return ⟨{ st with failedSinceUpdate := failures }, version, []⟩) := by
  subst count
  unfold CheckRollback
  dsimp only
  rw [if_neg armed, if_neg (not_not.mpr rfl), if_neg Bool.false_ne_true]

/-- The first check-in that a new binary fails. -/
theorem ends_first_failure (stands : Stands host bin old st) (armed : st.lastUpdateAt ≠ 0) (count : st.failedSinceUpdate = 0)
    (le : clock ≤ time) : ∃ host₁, Stands host₁ bin old { st with failedSinceUpdate := 1 } ∧
      Ends (exec sha256 built) (cycle sha256 verifyBinarySignature (.running ⟨st, version, []⟩))
        ⟨host, clock, answered, h⟩ (.running ⟨{ st with failedSinceUpdate := 1 }, version, []⟩)
        ⟨host₁, time, false, .checkin none :: h⟩ := by
  refine ⟨(Host.asked host none).saved { st with failedSinceUpdate := 1 }, stands.asked.saved, ?_⟩
  have failed : Ends (exec sha256 built) (CheckRollback ⟨st, version, []⟩ false)
      ⟨Host.asked host none, time, true, .checkin none :: h⟩ ⟨{ st with failedSinceUpdate := 1 }, version, []⟩
      ⟨(Host.asked host none).saved { st with failedSinceUpdate := 1 }, time, false, .checkin none :: h⟩ := by
    rw [CheckRollback_failed armed (show st.failedSinceUpdate + 1 = 1 by rw [count]; rfl)]
    exact ends_saveState.bind .ret
  exact Ends.bind (ends_checkin none le failed) .ret

/-- What a rollback leaves of the state. -/
def rolledBackState (sha256 : Bytes → Bytes) (st : State) (bin : Bytes) (time : Time) : State :=
  unwatched { st with
    failedSinceUpdate := 2
    rolledBackVersion := st.lastUpdateVersion
    rolledBackAt := time
    binarySHA256 := encodeToString (sha256 bin)
    binaryUpdatedAt := time }

/-- The second check-in that a new binary fails: the one before it is back. -/
theorem ends_second_failure (stands : Stands host new (some bin) st) (armed : st.lastUpdateAt ≠ 0)
    (count : st.failedSinceUpdate = 1) (le : clock ≤ time) (past : 0 < time) :
    ∃ host₁, Stands host₁ bin none (rolledBackState sha256 st bin time) ∧
      Ends (exec sha256 built) (cycle sha256 verifyBinarySignature (.running ⟨st, version, []⟩))
        ⟨host, clock, answered, h⟩ (.running ⟨rolledBackState sha256 st bin time, version, []⟩)
        ⟨host₁, time, false, .rolledBack (installed h) time :: .checkin none :: h⟩ := by
  let counted : State := { st with failedSinceUpdate := 2 }
  let before : Host := ((Host.asked host none).saved counted).put .failed none
  have binary : before.files .binary = some new := (put_other (by decide)).trans stands.binary
  have backup : before.files .backup = some bin := (put_other (by decide)).trans stands.backup
  have restored : (Host.exchanged before .rollback).files .binary = some bin := exchanged_binary.trans backup
  have none_ : (Host.exchanged before .rollback).files .backup = none := by
    show ((before.move .binary .failed).move .backup .binary).files .backup = none
    exact move_source
  refine ⟨(Host.exchanged before .rollback).saved (rolledBackState sha256 st bin time), ⟨restored, none_, ⟨rfl, rfl⟩, rfl⟩, ?_⟩
  have rolled : Ends (exec sha256 built) rollback ⟨(Host.asked host none).saved counted, time, false, .checkin none :: h⟩ true
      ⟨Host.exchanged before .rollback, time, false, .rolledBack (installed h) time :: .checkin none :: h⟩ := by
    have some_ : ((Host.asked host none).saved counted).files .backup ≠ none := by
      show host.files .backup ≠ none
      rw [stands.backup]
      exact Option.some_ne_none _
    refine ends_still true ⟨rfl, fun _ => some_⟩ ⟨fun _ => some_, fun _ => rfl⟩ trivial rfl rfl <| ends_remove <| ?_
    refine ends_exchange ?_ ?_
    · show before.files .binary ≠ none
      rw [binary]
      exact Option.some_ne_none _
    · show before.files .backup ≠ none
      rw [backup]
      exact Option.some_ne_none _
  have noted : Ends (exec sha256 built) (recordRollback ⟨counted, version, []⟩)
      ⟨Host.exchanged before .rollback, time, false, .rolledBack (installed h) time :: .checkin none :: h⟩
      ⟨rolledBackState sha256 st bin time, version, []⟩
      ⟨(Host.exchanged before .rollback).saved (rolledBackState sha256 st bin time), time, false,
        .rolledBack (installed h) time :: .checkin none :: h⟩ := by
    have sum : ∀ s ∈ some (encodeToString (sha256 bin)), ∃ bin, (Host.exchanged before .rollback).files .binary = some bin ∧
        s = encodeToString (sha256 bin) := fun s same => ⟨bin, restored, (Option.mem_some_iff.mp same).symm⟩
    refine ends_still time ⟨rfl, past⟩ trivial rfl rfl rfl <| ends_still (some _) ⟨rfl, sum⟩ trivial trivial rfl rfl <| ?_
    exact ends_still time ⟨rfl, past⟩ trivial rfl rfl rfl ends_saveAndRestart
  have failed : Ends (exec sha256 built) (CheckRollback ⟨st, version, []⟩ false)
      ⟨Host.asked host none, time, true, .checkin none :: h⟩ ⟨rolledBackState sha256 st bin time, version, []⟩
      ⟨(Host.exchanged before .rollback).saved (rolledBackState sha256 st bin time), time, false,
        .rolledBack (installed h) time :: .checkin none :: h⟩ := by
    rw [CheckRollback_failed armed (show st.failedSinceUpdate + 1 = 2 by rw [count]; rfl)]
    exact ends_saveState.bind (rolled.bind noted)
  exact Ends.bind (ends_checkin none le failed) .ret

end Failures

section Installs

variable {version : List Char}

/-- What an update leaves of the state. -/
def updatedState (st : State) (upd : AgentUpdate) (time : Time) : State :=
  { st with
    lastUpdateAt := time
    lastUpdateVersion := upd.latestVersion
    failedSinceUpdate := 0
    binarySHA256 := toLower upd.sha256
    binaryUpdatedAt := time }

theorem ends_install (stands : Stands host bin old st) (past : 0 < clock) (offers : offered h = some upd) :
    ∃ host₁, Stands host₁ new (some bin) (updatedState st upd clock) ∧
      Ends (exec sha256 built) (install ⟨st, version, []⟩ upd new) ⟨host, clock, answered, h⟩
        ⟨updatedState st upd clock, version, upd.latestVersion⟩
        ⟨host₁, clock, false, .swapped upd.latestVersion clock :: h⟩ := by
  let written : Host := (host.put .new (some [])).put .new (some new)
  let before : Host := written.put .backup none
  have there : before.files .new = some new := (put_other (by decide)).trans (put_self _ _)
  have binary : before.files .binary = some bin :=
    (put_other (by decide)).trans ((put_other (by decide)).trans ((put_other (by decide)).trans stands.binary))
  have updated : (Host.exchanged before .update).files .binary = some new := exchanged_binary.trans there
  have kept : (Host.exchanged before .update).files .backup = some bin := by
    show ((before.move .binary .backup).move .new .binary).files .backup = some bin
    rw [move_other (by decide) (by decide), move_target (by decide)]
    exact binary
  refine ⟨(Host.exchanged before .update).saved (updatedState st upd clock), ⟨updated, kept, ⟨rfl, rfl⟩, rfl⟩, ?_⟩
  have noted : record h clock (.rename .update .forward) true = .swapped upd.latestVersion clock :: h := by
    show Event.swapped (((offered h).map (·.latestVersion)).getD []) clock :: h = _
    rw [offers]
    rfl
  have replaced : Ends (exec sha256 built) atomicReplace ⟨written, clock, false, h⟩ true
      ⟨Host.exchanged before .update, clock, false, .swapped upd.latestVersion clock :: h⟩ := by
    rw [← noted]
    refine ends_remove (ends_exchange ?_ ?_)
    · show before.files .binary ≠ none
      rw [binary]
      exact Option.some_ne_none _
    · show before.files .new ≠ none
      rw [there]
      exact Option.some_ne_none _
  have created : exec sha256 built .createNew ⟨host, clock, answered, h⟩ true ⟨host.put .new (some []), clock, false, h⟩ :=
    ⟨.inl ⟨rfl, rfl⟩, rfl, le_rfl, trivial, rfl, rfl⟩
  have filled : exec sha256 built (.writeNew new) ⟨host.put .new (some []), clock, false, h⟩ true ⟨written, clock, false, h⟩ :=
    ⟨.inl ⟨rfl, rfl⟩, rfl, le_rfl, trivial, rfl, rfl⟩
  refine .perform true _ created <| .perform true _ filled <| replaced.bind ?_
  exact ends_still clock ⟨rfl, past⟩ trivial rfl rfl rfl ends_saveAndRestart

/-- An update that nothing speaks against is installed. -/
theorem ends_update (stands : Stands host bin old st) (unwatched : st.lastUpdateAt = 0) (le : clock ≤ time) (past : 0 < time)
    (complete : ¬(upd.latestVersion = [] ∨ upd.sha256 = [] ∨ upd.signature = ""))
    (newer : semverGT upd.latestVersion version = true)
    (passes : ¬(st.rolledBackVersion ≠ [] ∧ upd.latestVersion = st.rolledBackVersion ∧
      time - st.rolledBackAt < rolledBackRetryAfter))
    (checked : verified sha256 verifyBinarySignature upd new = true) :
    ∃ host₁, Stands host₁ new (some bin) (updatedState st upd time) ∧
      Ends (exec sha256 built) (cycle sha256 verifyBinarySignature (.running ⟨st, version, []⟩))
        ⟨host, clock, answered, h⟩ (.running ⟨updatedState st upd time, version, upd.latestVersion⟩)
        ⟨host₁, time, false, .swapped upd.latestVersion time :: .downloaded new time :: .checkin (some (some upd)) :: h⟩ := by
  have stands₁ : Stands ((Host.asked host (some (some upd))).saved st) bin old st := stands.asked.saved
  have installs : ∃ host₁, Stands host₁ new (some bin) (updatedState st upd time) ∧
      Ends (exec sha256 built) (install ⟨st, version, []⟩ upd new)
        ⟨(Host.asked host (some (some upd))).saved st, time, false, .downloaded new time :: .checkin (some (some upd)) :: h⟩
        ⟨updatedState st upd time, version, upd.latestVersion⟩
        ⟨host₁, time, false, .swapped upd.latestVersion time :: .downloaded new time :: .checkin (some (some upd)) :: h⟩ :=
    ends_install stands₁ past rfl
  obtain ⟨host₁, stands₂, installs⟩ := installs
  refine ⟨host₁, stands₂, Ends.bind (ends_checkin (some (some upd)) le ?_) .ret⟩
  have quiet : CheckRollback ⟨st, version, []⟩ true = pure ⟨st, version, []⟩ := if_pos unwatched
  have handled : Ends (exec sha256 built) (HandleAgentUpdate sha256 verifyBinarySignature ⟨st, version, []⟩ upd)
      ⟨(Host.asked host (some (some upd))).saved st, time, false, .checkin (some (some upd)) :: h⟩
      ⟨updatedState st upd time, version, upd.latestVersion⟩
      ⟨host₁, time, false, .swapped upd.latestVersion time :: .downloaded new time :: .checkin (some (some upd)) :: h⟩ := by
    unfold HandleAgentUpdate
    rw [if_neg (not_not.mpr rfl), if_neg complete, if_pos newer]
    refine ends_still time ⟨rfl, past⟩ trivial rfl rfl rfl ?_
    rw [Program.ret_bind, if_neg passes]
    refine .perform (some new) ⟨_, time, false, .downloaded new time :: .checkin (some (some upd)) :: h⟩
      ⟨rfl, trivial, le_rfl, trivial, rfl, rfl⟩ ?_
    rw [Program.ret_bind]
    dsimp only
    rw [if_pos checked]
    exact installs
  rw [Program.ret_bind]
  dsimp only
  rw [quiet]
  exact ends_saveState.bind <| ends_still (0 : Nat) rfl trivial trivial rfl rfl handled

end Installs

/-- A start, with a state that has its hash. -/
theorem ends_start (stands : Stands host bin old st) (hashed : st.binarySHA256 ≠ []) :
    ∃ host₁, Stands host₁ bin old st ∧ Ends (exec sha256 built) (cycle sha256 verifyBinarySignature .stopped)
      ⟨host, clock, answered, h⟩ (.running ⟨st, built bin, []⟩) ⟨host₁, clock, false, .started :: h⟩ := by
  obtain ⟨binary, backup, settled, rfl⟩ := stands
  refine ⟨{ host with fresh := true, validated := false }, ⟨binary, backup, settled, rfl⟩, Ends.bind ?_ .ret⟩
  have version : ∀ other ∈ host.files .binary, built bin = built other := fun other same => by
    rw [binary] at same
    cases same
    rfl
  have loaded : exec sha256 built .load ⟨host, clock, answered, h⟩ (some host.state)
      ⟨{ host with fresh := true, validated := false }, clock, false, .started :: h⟩ :=
    ⟨⟨.inl rfl, rfl⟩, rfl, le_rfl, trivial, rfl, rfl⟩
  refine .perform (some host.state) _ loaded <| ends_still (built bin) rfl version trivial rfl rfl ?_
  have sum : ∀ s ∈ some (encodeToString (sha256 bin)), ∃ bin, host.files .binary = some bin ∧ s = encodeToString (sha256 bin) :=
    fun s same => ⟨bin, binary, (Option.mem_some_iff.mp same).symm⟩
  refine ends_still (some (encodeToString (sha256 bin))) ⟨rfl, sum⟩ trivial trivial rfl rfl ?_
  simp only [Program.ret_bind, Option.getD_some, if_neg hashed]
  exact .ret

section Lives

variable (sha256 verifyBinarySignature built)

/-- Some run has led to this history, these binaries and this state. -/
def Lives (clock : Time) (h : History) (memory : Memory) (bin : Bytes) (old : Option Bytes) (st : State) : Prop :=
  ∃ host answered, (computer sha256 verifyBinarySignature built).ReachWhere Start Between ⟨⟨host, clock, answered, h⟩, .ret memory⟩ ∧
    Stands host bin old st

variable {sha256 verifyBinarySignature built}
variable {memory : Memory}

theorem Lives.cycle (lives : Lives sha256 verifyBinarySignature built clock h memory bin old st) {memory₁ : Memory} {h₁ : History}
    {bin₁ : Bytes} {old₁ : Option Bytes} {st₁ : State}
    (run : ∀ host answered, Stands host bin old st → ∃ host₁, Stands host₁ bin₁ old₁ st₁ ∧
      Ends (exec sha256 built) (cycle sha256 verifyBinarySignature memory) ⟨host, clock, answered, h⟩ memory₁
        ⟨host₁, time, false, h₁⟩) : Lives sha256 verifyBinarySignature built time h₁ memory₁ bin₁ old₁ st₁ := by
  obtain ⟨host, answered, reach, stands⟩ := lives
  obtain ⟨host₁, stands₁, ends⟩ := run host answered stands
  exact ⟨host₁, false, reach.cycle ends, stands₁⟩

theorem Lives.restart (lives : Lives sha256 verifyBinarySignature built clock h memory bin old st) (undue : ¬Due h) :
    Lives sha256 verifyBinarySignature built clock h .stopped bin old st := by
  obtain ⟨host, answered, reach, stands⟩ := lives
  exact ⟨host, answered, reach.crash ⟨.inr ⟨memory, rfl⟩, undue, stands.settled⟩, stands⟩

/-- An update is installed, fails twice and is rolled back. -/
theorem Lives.rejected {first second : Time} (lives : Lives sha256 verifyBinarySignature built clock h .stopped bin old st)
    (hashed : st.binarySHA256 ≠ []) (unwatched : st.lastUpdateAt = 0)
    (complete : ¬(upd.latestVersion = [] ∨ upd.sha256 = [] ∨ upd.signature = ""))
    (newer : semverGT upd.latestVersion (built bin) = true)
    (passes : ¬(st.rolledBackVersion ≠ [] ∧ upd.latestVersion = st.rolledBackVersion ∧
      time - st.rolledBackAt < rolledBackRetryAfter))
    (checked : verified sha256 verifyBinarySignature upd new = true) (past : 0 < time) (le : clock ≤ time)
    (le₁ : time ≤ first) (le₂ : first ≤ second) :
    Lives sha256 verifyBinarySignature built second
      (.rolledBack upd.latestVersion second :: .checkin none :: .checkin none :: .started ::
        .swapped upd.latestVersion time :: .downloaded new time :: .checkin (some (some upd)) :: .started :: h)
      .stopped bin none
      (rolledBackState sha256 { updatedState st upd time with failedSinceUpdate := 1 } bin second) := by
  have started := lives.cycle fun _ _ stands => ends_start stands hashed
  have updated := started.cycle fun _ _ stands => ends_update stands unwatched le past complete newer passes checked
  have hashed₁ : toLower upd.sha256 ≠ [] := fun empty => complete (.inr (.inl (List.map_eq_nil_iff.mp empty)))
  have armed : time ≠ 0 := ne_of_gt past
  have restarted := (updated.restart id).cycle fun _ _ stands => ends_start stands hashed₁
  have failed := restarted.cycle fun _ _ stands => ends_first_failure stands armed rfl le₁
  have back := failed.cycle fun _ _ stands => ends_second_failure stands armed rfl le₂ (past.trans_le (le₁.trans le₂))
  exact back.restart id

end Lives

end

/-! A computer with an empty binary, offered "a", then "b", then "a" again, a check-in every quarter of an hour. -/

def sampleSha256 (bin : Bytes) : Bytes :=
  if bin = [0x62] then
    [62, 35, 232, 22, 0, 57, 89, 74, 51, 137, 79, 101, 100, 225, 177, 52, 139, 189, 122, 0, 136, 212, 44, 74, 203, 115,
      238, 174, 213, 156, 0, 157]
  else demoSha256 bin

def sampleBuilt (bin : Bytes) : List Char :=
  if bin = [] then "1.0.0".toList else if bin = [0x61] then "1.1.0".toList else "1.2.0".toList

def sampleNext : AgentUpdate :=
  ⟨"1.2.0".toList, "3e23e8160039594a33894f6564e1b1348bbd7a0088d42c4acb73eeaed59c009d".toList, "AQ=="⟩

def quarter : Time := 15 * 60 * 1000000000

abbrev Sample := Lives sampleSha256 demoVerify sampleBuilt

theorem sample_start : Sample 0 [] .stopped [] none demoState :=
  ⟨{ demoHost with state := demoState }, false, .init ⟨rfl, ⟨rfl, rfl⟩, nofun, by decide, rfl⟩, ⟨rfl, rfl, ⟨rfl, rfl⟩, rfl⟩⟩

theorem sample_verified : verified sampleSha256 demoVerify demoUpdate [0x61] = true ∧
    verified sampleSha256 demoVerify sampleNext [0x62] = true := by decide

/-- What the first rollback leaves. -/
def sampleBack : State :=
  rolledBackState sampleSha256 { updatedState demoState demoUpdate quarter with failedSinceUpdate := 1 } [] (3 * quarter)

theorem sample_rejected : Sample (3 * quarter)
    [.rolledBack demoUpdate.latestVersion (3 * quarter), .checkin none, .checkin none, .started,
      .swapped demoUpdate.latestVersion quarter, .downloaded [0x61] quarter, .checkin (some (some demoUpdate)), .started]
    .stopped [] none sampleBack :=
  sample_start.rejected (by decide) rfl (by decide) (by decide) (by decide) sample_verified.1 (by decide) (by decide)
    (show quarter ≤ 2 * quarter by decide) (show 2 * quarter ≤ 3 * quarter by decide)


section

variable {sha256 : Bytes → Bytes} {verifyBinarySignature : Bytes → Bytes → Bool} {built : Bytes → List Char}

/-- In every run a version is rolled back exactly when its own binary has failed for the second time without a
success, and between two cycles the state watches it until then, or until its first success. -/
theorem rollback_decided {c : Process.Config Op.Res Site Memory}
    (reach : (computer sha256 verifyBinarySignature built).ReachWhere Start Between c) :
    Decided c.world.history ∧ ∀ memory, c.run = .ret memory → ¬Due c.world.history ∧
      (c.world.host.state.armed = true ↔ Watched c.world.history) ∧
      (Watched c.world.history → c.world.host.state.failedSinceUpdate = (own c.world.history).length) := by
  obtain ⟨inv, safe⟩ := computer_safe reach
  refine ⟨inv.decided, fun memory ended => ?_⟩
  rw [ended] at safe
  have here : Here c.world.host.state c.world := by
    have fit := safe c.world rfl inv
    cases memory with
    | stopped => exact fit
    | running agent =>
      obtain ⟨⟨settled, undue, same, accord⟩, -⟩ := fit
      exact ⟨settled, undue, rfl, same ▸ accord⟩
  exact ⟨here.undue, here.accord.armed, here.accord.count⟩

/-- Where no download brings a version back that another rollback has made the state forget too early,
nothing is installed again within the delay after its rollback. -/
theorem spaced_of_remembered {c : Process.Config Op.Res Site Memory}
    (reach : (computer sha256 verifyBinarySignature built).ReachWhere Start Between c)
    (remembered : Remembered sha256 verifyBinarySignature c.world.history) : Spaced c.world.history :=
  (computer_safe reach).1.spaced remembered

end

/-- The first binary that was offered has failed twice. -/
theorem rollback_decided_once : ∃ c : Process.Config Op.Res Site Memory,
    (computer sampleSha256 demoVerify sampleBuilt).ReachWhere Start Between c ∧
      .rolledBack demoUpdate.latestVersion (3 * quarter) ∈ c.world.history ∧ Decided c.world.history := by
  obtain ⟨host, answered, reach, -⟩ := sample_rejected
  exact ⟨_, reach, List.mem_cons_self, (rollback_decided reach).1⟩

theorem sample_remembered : Remembered sampleSha256 demoVerify
    [.rolledBack demoUpdate.latestVersion (3 * quarter), .checkin none, .checkin none, .started,
      .swapped demoUpdate.latestVersion quarter, .downloaded [0x61] quarter, .checkin (some (some demoUpdate)), .started] := by
  intro bin time earlier upd suffix _ _ forgotten
  obtain ⟨back, later, first, split, -⟩ := forgotten
  have member : .rolledBack upd.latestVersion back ∈ earlier := by
    rw [split]
    exact List.mem_append_right _ List.mem_cons_self
  simp only [List.suffix_cons_iff, List.cons.injEq, reduceCtorEq, false_and, false_or, Event.downloaded.injEq, List.suffix_nil,
    or_false] at suffix
  obtain ⟨-, rfl⟩ := suffix
  simp only [List.mem_cons, reduceCtorEq, List.not_mem_nil, or_self] at member

theorem spaced_of_remembered_once : ∃ c : Process.Config Op.Res Site Memory,
    (computer sampleSha256 demoVerify sampleBuilt).ReachWhere Start Between c ∧ Spaced c.world.history := by
  obtain ⟨host, answered, reach, -⟩ := sample_rejected
  exact ⟨_, reach, spaced_of_remembered reach sample_remembered⟩

theorem sample_rejected_next : ∃ h, .rolledBack demoUpdate.latestVersion (3 * quarter) ∈ h ∧
    Sample (6 * quarter) h .stopped [] none
      (rolledBackState sampleSha256 { updatedState sampleBack sampleNext (4 * quarter) with failedSinceUpdate := 1 } []
        (6 * quarter)) := by
  have rejected := sample_rejected.rejected (by decide) rfl (by decide) (by decide) (by decide)
    sample_verified.2 (show 0 < 4 * quarter by decide) (by decide) (show 4 * quarter ≤ 5 * quarter by decide)
    (show 5 * quarter ≤ 6 * quarter by decide)
  exact ⟨_, List.mem_append_right [_, _, _, _, _, _, _, _] List.mem_cons_self, rejected⟩

/-- After "b" has been rolled back as well, "a" is installed again, an hour after its rollback. -/
theorem reinstalled_early : ∃ c : Process.Config Op.Res Site Memory,
    (computer sampleSha256 demoVerify sampleBuilt).ReachWhere Start Between c ∧ ¬Spaced c.world.history := by
  obtain ⟨h, member, rejected⟩ := sample_rejected_next
  have started := rejected.cycle fun _ _ stands => ends_start stands (by decide)
  have updated := started.cycle fun _ _ stands => ends_update stands rfl (show 6 * quarter ≤ 7 * quarter by decide)
    (by decide) (show ¬(demoUpdate.latestVersion = [] ∨ demoUpdate.sha256 = [] ∨ demoUpdate.signature = "") by decide)
    (by decide) (by decide) sample_verified.1
  obtain ⟨host, answered, reach, -⟩ := updated
  refine ⟨_, reach, fun spaced => ?_⟩
  have late := spaced _ _ _ List.suffix_rfl (3 * quarter) (List.mem_cons_of_mem _ (List.mem_cons_of_mem _ (List.mem_cons_of_mem _ member)))
  exact absurd late (by decide)

end Opale.AgentGo.Rollback
