import Opale.AgentGo.Update

namespace Opale.AgentGo.Update

section
variable (sha256 : Bytes → Bytes) (verifyBinarySignature : Bytes → Bytes → Bool)

/-- The agent only starts where no change of binary was under way, with a state.json that it can
read; the hash of an update has no blanks around it; a rollback can read the binary it restored. -/
def InOrder : (o : Op) → Host → o.Res → Host → Prop
  | .load, host, loaded, _ => Settled host ∧ loaded ≠ none
  | .checkin, _, response, _ => ∀ upd, response = some (some upd) → trimSpace upd.sha256 = upd.sha256
  | .restoredSHA256, _, sum, _ => sum ≠ none
  | _, _, _, _ => True

def Signed (bin : Bytes) : Prop := ∃ signature, verifyBinarySignature bin signature = true

/-- Files and marks that the disk alone explains. -/
structure Inv (host : Host) : Prop where
  backup : ∀ bin, host.files .backup = some bin → Signed verifyBinarySignature bin
  gone : host.away = true → host.files .binary = none
  stands : host.away = false → ∃ bin, host.files .binary = some bin ∧ Signed verifyBinarySignature bin
  settled : Settled host → Consistent sha256 verifyBinarySignature host

/-- What a state in memory says of the binary at its path. -/
structure Tells (st : State) (host : Host) : Prop where
  hash : ∀ bin, host.files .binary = some bin → st.binarySHA256 = [] ∨ st.binarySHA256 = encodeToString (sha256 bin)
  armed : st.armed = true → host.trial = true ∧ host.validated = false
  quiet : st.armed = false → host.trial = true → host.validated = true

/-- A process that watches runs the binary it watches, unless it has put that one in its place. -/
structure Sound (agent : Running) (host : Host) : Prop where
  tells : Tells sha256 agent.st host
  own : agent.swappedVersion = [] → agent.st.armed = true → host.fresh = true
  other : agent.swappedVersion ≠ [] → host.fresh = false

/-- Nothing is asked once the binary could not be put back. -/
def SoundUnlessAway (agent : Running) (host : Host) : Prop := host.away = false → Sound sha256 agent host

def Fit : Memory → Host → Prop
  | .stopped, _ => True
  | .running agent, host => SoundUnlessAway sha256 agent host

def rules : Rules Op.Res Host where
  exec o host answer after := exec sha256 o host answer after ∧ InOrder o host answer after
  inv := Inv sha256 verifyBinarySignature
  rely := Eq
  guarantee _ _ _ _ := True
  rely_refl _ := rfl
  rely_trans := Eq.trans

end

/-- Two hosts that differ in files other than the binary. -/
def Like (a b : Host) : Prop := b.files .binary = a.files .binary ∧ b = { a with files := b.files }

theorem Like.refl (host : Host) : Like host host := ⟨rfl, rfl⟩

theorem Like.trans {a b c : Host} (first : Like a b) (second : Like b c) : Like a c := by
  obtain ⟨same, rest⟩ := second
  refine ⟨same.trans first.1, ?_⟩
  rw [rest, first.2]

theorem Like.put {host : Host} {path : Path} (other : path ≠ .binary) (content : Option Bytes) :
    Like host (host.put path content) := ⟨Function.update_of_ne other.symm _ _, rfl⟩

theorem put_self {host : Host} (path : Path) (content : Option Bytes) : (host.put path content).files path = content := by
  simp [Host.put]

section Hex

theorem hexDigit_of_idxOf {c : Char} {n : Nat} (found : hexDigits.idxOf? c = some n) : n < 16 ∧ hexDigit n = c := by
  obtain ⟨small, same, -⟩ := List.findIdx?_eq_some_iff_getElem.mp found
  refine ⟨small, ?_⟩
  unfold hexDigit
  rw [List.getD_eq_getElem?_getD, List.getElem?_eq_getElem small]
  exact beq_iff_eq.mp same

theorem encodeToString_of_decodeString {s : List Char} {bytes : Bytes} (decoded : decodeString s = some bytes) :
    encodeToString bytes = s := by
  fun_induction decodeString s generalizing bytes with
  | case1 =>
    cases decoded
    rfl
  | case2 x y rest ih =>
    obtain ⟨high, first, decoded⟩ := Option.bind_eq_some_iff.mp decoded
    obtain ⟨low, second, decoded⟩ := Option.bind_eq_some_iff.mp decoded
    obtain ⟨tail, last, same⟩ := Option.bind_eq_some_iff.mp decoded
    cases same
    obtain ⟨highSmall, highDigit⟩ := hexDigit_of_idxOf first
    obtain ⟨lowSmall, lowDigit⟩ := hexDigit_of_idxOf second
    have value : (UInt8.ofNat (high * 16 + low)).toNat = high * 16 + low := by
      rw [UInt8.toNat_ofNat']
      omega
    have quotient : (high * 16 + low) / 16 = high := by omega
    have remainder : (high * 16 + low) % 16 = low := by omega
    rw [encodeToString, value, quotient, remainder, highDigit, lowDigit, ih last]
  | case3 => cases decoded

/-- The hash that is recorded is the one that was compared, when no blanks stood around it. -/
theorem recorded_of_verified {sha256 : Bytes → Bytes} {verifyBinarySignature : Bytes → Bytes → Bool} {upd : AgentUpdate}
    {bin : Bytes} (checked : verified sha256 verifyBinarySignature upd bin = true) (bare : trimSpace upd.sha256 = upd.sha256) :
    toLower upd.sha256 = encodeToString (sha256 bin) ∧ Signed verifyBinarySignature bin := by
  unfold verified at checked
  rw [bare, Bool.and_eq_true, decide_eq_true_eq] at checked
  obtain ⟨hash, signature⟩ := checked
  obtain ⟨bytes, -, signed⟩ := (Option.any_eq_true _ _).mp signature
  exact ⟨(encodeToString_of_decodeString hash).symm, bytes, signed⟩

end Hex

variable {sha256 : Bytes → Bytes} {verifyBinarySignature : Bytes → Bytes → Bool}
variable {host after : Host} {st : State} {agent : Running}

section Marks

theorem Inv.like (inv : Inv sha256 verifyBinarySignature host) (like : Like host after)
    (backup : ∀ bin, after.files .backup = some bin → Signed verifyBinarySignature bin) :
    Inv sha256 verifyBinarySignature after := by
  obtain ⟨binary, rest⟩ := like
  have away : after.away = host.away := by rw [rest]
  have unsaved : after.unsaved = host.unsaved := by rw [rest]
  have state : after.state = host.state := by rw [rest]
  have trial : after.trial = host.trial := by rw [rest]
  refine ⟨backup, ?_, ?_, ?_⟩
  · rw [away, binary]
    exact inv.gone
  · rw [away, binary]
    exact inv.stands
  · unfold Settled Consistent
    rw [away, unsaved, binary, state, trial]
    exact inv.settled

theorem Inv.put (inv : Inv sha256 verifyBinarySignature host) {path : Path} (other : path ≠ .binary)
    {content : Option Bytes} (signed : path = .backup → content = none) :
    Inv sha256 verifyBinarySignature (host.put path content) := by
  refine inv.like (Like.put other content) fun bin backup => ?_
  by_cases same : path = .backup
  · subst same
    rw [signed rfl, put_self] at backup
    cases backup
  · exact inv.backup bin ((Function.update_of_ne (Ne.symm same) _ _).symm.trans backup)

theorem Tells.like (tells : Tells sha256 st host) (like : Like host after) : Tells sha256 st after := by
  obtain ⟨binary, rest⟩ := like
  have trial : after.trial = host.trial := by rw [rest]
  have validated : after.validated = host.validated := by rw [rest]
  refine ⟨?_, ?_, ?_⟩
  · rw [binary]
    exact tells.hash
  · rw [trial, validated]
    exact tells.armed
  · rw [trial, validated]
    exact tells.quiet

theorem SoundUnlessAway.like (sound : SoundUnlessAway sha256 agent host) (like : Like host after) :
    SoundUnlessAway sha256 agent after := by
  have away : after.away = host.away := by rw [like.2]
  have fresh : after.fresh = host.fresh := by rw [like.2]
  intro here
  obtain ⟨tells, own, other⟩ := sound (away ▸ here)
  exact ⟨tells.like like, fresh ▸ own, fresh ▸ other⟩

theorem Tells.saved (tells : Tells sha256 st host) : Tells sha256 st (host.saved st) := by
  refine ⟨tells.hash, fun armed => ?_, fun quiet trial => ?_⟩
  · obtain ⟨trial, validated⟩ := tells.armed armed
    refine ⟨?_, validated⟩
    show (host.trial && !host.validated) = true
    rw [trial, validated]
    rfl
  · obtain ⟨before, -⟩ := Bool.and_eq_true_iff.mp trial
    exact tells.quiet quiet before

/-- A state that tells the truth makes the disk consistent. -/
theorem Inv.saved (inv : Inv sha256 verifyBinarySignature host) (tells : host.away = false → Tells sha256 st host) :
    Inv sha256 verifyBinarySignature (host.saved st) := by
  refine ⟨inv.backup, inv.gone, inv.stands, fun settled => ?_⟩
  obtain ⟨bin, here, signed⟩ := inv.stands settled.1
  have truth := (tells settled.1).saved
  refine ⟨bin, here, signed, truth.hash bin here, fun armed => (truth.armed armed).1, fun trial => ?_⟩
  cases armed : st.armed with
  | true => exact armed
  | false =>
    obtain ⟨-, unconfirmed⟩ := Bool.and_eq_true_iff.mp trial
    have validated : host.validated = true := truth.quiet armed trial
    rw [validated] at unconfirmed
    cases unconfirmed

end Marks

section Exchanges

/-- The host once a binary stands in the place of another. -/
structure Replaced (x : Exchange) (host after : Host) : Prop where
  binary : after.files .binary = host.files x.next
  away : after.away = false
  trial : after.trial = decide (x = .update)
  fresh : after.fresh = false
  validated : after.validated = false

def Exchanged (x : Exchange) (host : Host) (done : Bool) (after : Host) : Prop :=
  if done = true then Replaced x host after else after.away = true ∨ Like host after

variable {x : Exchange} {stage : Stage} {source target path : Path}

theorem Exchange.apart : x.next ≠ .binary ∧ x.spare ≠ .binary ∧ x.next ≠ x.spare := by
  cases x <;> decide

@[simp] theorem marked_files : (host.marked x stage).files = host.files := by
  cases stage <;> rfl

@[simp] theorem move_source : (host.move source target).files source = none := Function.update_self _ _ _

theorem move_target (apart : target ≠ source) : (host.move source target).files target = host.files source :=
  (Function.update_of_ne apart _ _).trans (Function.update_self _ _ _)

theorem move_other (first : path ≠ source) (second : path ≠ target) :
    (host.move source target).files path = host.files path :=
  (Function.update_of_ne first _ _).trans (Function.update_of_ne second _ _)

theorem Inv.here (inv : Inv sha256 verifyBinarySignature host) (here : host.files .binary ≠ none) : host.away = false := by
  cases moved : host.away with
  | false => rfl
  | true => exact absurd (inv.gone moved) here

/-- A backup is what stood at the path of the binary, or an older one. -/
theorem Inv.backup_aside (inv : Inv sha256 verifyBinarySignature host) (away : host.away = false) :
    ∀ bin, (host.move .binary x.spare).files .backup = some bin → Signed verifyBinarySignature bin := by
  intro other backup
  by_cases same : Path.backup = x.spare
  · rw [same, move_target Exchange.apart.2.1] at backup
    obtain ⟨bin, stands, signed⟩ := inv.stands away
    rw [stands] at backup
    cases backup
    exact signed
  · rw [move_other (by decide) same] at backup
    exact inv.backup other backup

theorem Inv.backup_move (backup : ∀ bin, host.files .backup = some bin → Signed verifyBinarySignature bin) :
    ∀ bin, (host.move source .binary).files .backup = some bin → Signed verifyBinarySignature bin := by
  intro bin moved
  by_cases same : Path.backup = source
  · rw [same, move_source] at moved
    cases moved
  · rw [move_other same (by decide)] at moved
    exact backup bin moved

/-- Either the other binary is in place, or the first one is back, or none is there. -/
theorem safe_exchange (inv : Inv sha256 verifyBinarySignature host)
    (signed : ∀ bin, host.files x.next = some bin → Signed verifyBinarySignature bin) :
    (rules sha256 verifyBinarySignature).Safe (Exchanged x host) (exchange x) host := by
  obtain ⟨nextBinary, spareBinary, nextSpare⟩ := @Exchange.apart x
  unfold exchange
  refine Rules.Safe.perform ?_
  rintro _ rfl - done asideHost ⟨⟨rfl, here, rfl⟩ | ⟨rfl, rfl⟩, -⟩
  case inr =>
    refine ⟨inv, trivial, ?_⟩
    rintro _ rfl -
    exact Or.inr (Like.refl _)
  have away := inv.here here
  have backup := inv.backup_aside (x := x) away
  have next : (host.move .binary x.spare).files x.next = host.files x.next := move_other nextBinary nextSpare
  have spare : (host.move .binary x.spare).files x.spare = host.files .binary := move_target spareBinary
  have gone : Inv sha256 verifyBinarySignature ((host.move .binary x.spare).marked x .aside) := by
    refine ⟨backup, fun _ => ?_, nofun, fun settled => absurd settled.1 nofun⟩
    rw [marked_files, move_source]
  refine ⟨gone, trivial, ?_⟩
  refine Rules.Safe.perform ?_
  rintro _ rfl - done forwardHost ⟨⟨rfl, there, rfl⟩ | ⟨rfl, rfl⟩, -⟩
  case inl =>
    have binary : ((host.move .binary x.spare).move x.next .binary).files .binary = host.files x.next :=
      (move_target nextBinary.symm).trans next
    have inv₂ : Inv sha256 verifyBinarySignature
        ((((host.move .binary x.spare).marked x .aside).move x.next .binary).marked x .forward) := by
      refine ⟨Inv.backup_move backup, nofun, fun _ => ?_, fun settled => absurd settled.2 nofun⟩
      obtain ⟨bin, found⟩ := Option.ne_none_iff_exists'.mp there
      have same : host.files x.next = some bin := next.symm.trans found
      exact ⟨bin, binary.trans same, signed bin same⟩
    refine ⟨inv₂, trivial, ?_⟩
    rintro _ rfl -
    exact ⟨binary, rfl, rfl, rfl, rfl⟩
  case inr =>
    refine ⟨gone, trivial, ?_⟩
    refine Rules.Safe.perform ?_
    rintro _ rfl - done backHost ⟨⟨rfl, there, rfl⟩ | ⟨rfl, rfl⟩, -⟩
    · have binary : ((host.move .binary x.spare).move x.spare .binary).files .binary = host.files .binary :=
        (move_target spareBinary.symm).trans spare
      have like : Like host ((((host.move .binary x.spare).marked x .aside).move x.spare .binary).marked x .back) := by
        refine ⟨binary, ?_⟩
        rw [away]
        rfl
      refine ⟨inv.like like (Inv.backup_move backup), trivial, ?_⟩
      rintro _ rfl -
      exact Or.inr like
    · refine ⟨gone, trivial, ?_⟩
      rintro _ rfl -
      exact Or.inl rfl

end Exchanges

section Cycle

/-- The end of a program that leaves a sound agent in memory. -/
abbrev SafeAgent (sha256 : Bytes → Bytes) (verifyBinarySignature : Bytes → Bytes → Bool) (program : Updater Running)
    (host : Host) : Prop :=
  (rules sha256 verifyBinarySignature).Safe (SoundUnlessAway sha256) program host

theorem safe_pure (sound : SoundUnlessAway sha256 agent host) :
    SafeAgent sha256 verifyBinarySignature (pure agent) host := by
  rintro _ rfl -
  exact sound

theorem safe_saveState (inv : Inv sha256 verifyBinarySignature host) (sound : SoundUnlessAway sha256 agent host) :
    (rules sha256 verifyBinarySignature).Safe (fun _ => SoundUnlessAway sha256 agent) (saveState agent.st) host := by
  rintro _ rfl - done after ⟨⟨rfl, rfl⟩ | ⟨rfl, rfl⟩, -⟩
  · refine ⟨inv.saved fun away => (sound away).tells, trivial, ?_⟩
    rintro _ rfl - away
    obtain ⟨tells, own, other⟩ := sound away
    exact ⟨tells.saved, own, other⟩
  · refine ⟨inv, trivial, ?_⟩
    rintro _ rfl -
    exact sound

/-- An operation that leaves the host as it is. -/
theorem safe_idle {o : Op} {β : Type} {post : β → Host → Prop} {next : o.Res → Updater β}
    (inv : Inv sha256 verifyBinarySignature host) (idle : ∀ answer after, exec sha256 o host answer after → after = host)
    (resume : ∀ answer, exec sha256 o host answer host → InOrder o host answer host →
      (rules sha256 verifyBinarySignature).Safe post (next answer) host) :
    (rules sha256 verifyBinarySignature).Safe post (perform o >>= next) host := by
  refine Rules.Safe.perform ?_
  rintro _ rfl - answer after ⟨run, order⟩
  obtain rfl := idle answer after run
  exact ⟨inv, trivial, resume answer run order⟩

/-- A state without a watch, of a host that has nothing to watch. -/
theorem sound_unwatched {bin : Bytes} (stands : host.files .binary = some bin)
    (hash : agent.st.binarySHA256 = [] ∨ agent.st.binarySHA256 = encodeToString (sha256 bin))
    (unwatched : agent.st.lastUpdateAt = 0) (unswapped : agent.swappedVersion = [])
    (confirmed : host.trial = true → host.validated = true) : Sound sha256 agent host := by
  have unarmed : agent.st.armed = false := by
    unfold State.armed
    rw [unwatched]
    rfl
  refine ⟨⟨fun other here => ?_, fun armed => ?_, fun _ => confirmed⟩, fun _ armed => ?_, fun swapped => absurd unswapped swapped⟩
  · rw [stands] at here
    cases here
    exact hash
  · rw [unarmed] at armed
    cases armed
  · rw [unarmed] at armed
    cases armed

theorem safe_saveAndRestart (inv : Inv sha256 verifyBinarySignature host) (sound : SoundUnlessAway sha256 agent host) :
    SafeAgent sha256 verifyBinarySignature (saveAndRestart agent) host := by
  refine (safe_saveState inv sound).bind inv fun _ after inv₁ sound₁ => ?_
  exact safe_idle inv₁ (fun _ _ run => run) fun _ _ _ => safe_pure sound₁

theorem safe_recordRollback (inv : Inv sha256 verifyBinarySignature host) (trial : host.trial = false)
    (unswapped : agent.swappedVersion = []) :
    SafeAgent sha256 verifyBinarySignature (recordRollback agent) host := by
  unfold recordRollback
  refine safe_idle inv (fun _ _ run => run.1) fun now _ _ => ?_
  refine safe_idle inv (fun _ _ run => run.1) fun sum run order => ?_
  cases sum with
  | none => exact absurd rfl order
  | some sum =>
    obtain ⟨bin, stands, rfl⟩ := run.2 sum rfl
    refine safe_idle inv (fun _ _ run => run.1) fun later _ _ => ?_
    refine safe_saveAndRestart inv fun _ => sound_unwatched stands (Or.inr rfl) rfl unswapped fun on => ?_
    rw [trial] at on
    cases on

theorem safe_remove {path : Path} {β : Type} {post : β → Host → Prop} {next : Unit → Updater β} (other : path ≠ .binary)
    (inv : Inv sha256 verifyBinarySignature host)
    (resume : ∀ after, Inv sha256 verifyBinarySignature after → Like host after →
      (∀ p, p ≠ path → after.files p = host.files p) → (rules sha256 verifyBinarySignature).Safe post (next ()) after) :
    (rules sha256 verifyBinarySignature).Safe post (perform (.remove path) >>= next) host := by
  refine Rules.Safe.perform ?_
  rintro _ rfl - _ after ⟨rfl | rfl, -⟩
  · have inv₁ := inv.put other fun _ => rfl
    exact ⟨inv₁, trivial, resume _ inv₁ (Like.put other none) fun p apart => Function.update_of_ne apart _ _⟩
  · exact ⟨inv, trivial, resume _ inv (Like.refl _) fun _ _ => rfl⟩

theorem safe_rollback (inv : Inv sha256 verifyBinarySignature host) :
    (rules sha256 verifyBinarySignature).Safe
      (fun done after => if done = true then after.trial = false else after.away = true ∨ Like host after) rollback host := by
  unfold rollback
  refine safe_idle inv (fun _ _ run => run.1) fun found _ _ => ?_
  cases found with
  | false =>
    rintro _ rfl -
    exact Or.inr (Like.refl _)
  | true =>
    refine safe_remove (by decide) inv fun removed inv₁ like _ => ?_
    have safe := @safe_exchange sha256 verifyBinarySignature removed .rollback inv₁ inv₁.backup
    refine safe.weaken fun done after _ exchanged => ?_
    unfold Exchanged at exchanged
    cases done with
    | true => exact exchanged.trial
    | false => exact exchanged.imp_right like.trans

theorem safe_atomicReplace (inv : Inv sha256 verifyBinarySignature host) {bin : Bytes} (new : host.files .new = some bin)
    (signed : Signed verifyBinarySignature bin) :
    (rules sha256 verifyBinarySignature).Safe
      (fun done after => if done = true then
          after.files .binary = some bin ∧ after.trial = true ∧ after.fresh = false ∧ after.validated = false
        else after.away = true ∨ Like host after) atomicReplace host := by
  unfold atomicReplace
  refine safe_remove (by decide) inv fun removed inv₁ like others => ?_
  have new₁ : removed.files .new = some bin := (others .new (by decide)).trans new
  have safe := @safe_exchange sha256 verifyBinarySignature removed .update inv₁ fun other here => by
    cases new₁.symm.trans here
    exact signed
  refine safe.weaken fun done after _ exchanged => ?_
  unfold Exchanged at exchanged
  cases done with
  | true =>
    obtain ⟨binary, -, trial, fresh, validated⟩ := exchanged
    exact ⟨binary.trans new₁, trial, fresh, validated⟩
  | false => exact exchanged.imp_right like.trans

theorem safe_CheckRollback_failed (inv : Inv sha256 verifyBinarySignature host) (sound : SoundUnlessAway sha256 agent host) :
    SafeAgent sha256 verifyBinarySignature (CheckRollback agent false) host := by
  unfold CheckRollback
  dsimp only
  split
  · exact safe_pure sound
  split
  · exact safe_pure sound
  rename_i unswapped
  have unswapped : agent.swappedVersion = [] := not_not.mp unswapped
  have counted : SoundUnlessAway sha256
      { agent with st := { agent.st with failedSinceUpdate := agent.st.failedSinceUpdate + 1 } } host := fun away =>
    have ⟨⟨hash, armed, quiet⟩, own, other⟩ := sound away
    ⟨⟨hash, armed, quiet⟩, own, other⟩
  refine (safe_saveState inv counted).bind inv fun _ after inv₁ sound₁ => ?_
  split
  · exact safe_pure sound₁
  · refine (safe_rollback inv₁).bind inv₁ fun done last inv₂ ended => ?_
    cases done with
    | true => exact safe_recordRollback inv₂ ended unswapped
    | false =>
      refine safe_pure fun away => ?_
      rcases ended with gone | like
      · rw [gone] at away
        cases away
      · exact sound₁.like like away

/-- The host once a check-in has had its answer. -/
def validating (host : Host) : Host := { host with validated := host.validated || (host.fresh && host.trial) }

/-- A check-in confirms the binary that the process runs, and no other. -/
theorem safe_CheckRollback_succeeded (inv : Inv sha256 verifyBinarySignature (validating host))
    (sound : SoundUnlessAway sha256 agent host) :
    SafeAgent sha256 verifyBinarySignature (CheckRollback agent true) (validating host) := by
  unfold CheckRollback
  dsimp only
  split
  · rename_i unwatched
    refine safe_pure fun away => ?_
    obtain ⟨bin, stands, -⟩ := inv.stands away
    obtain ⟨tells, own, other⟩ := sound away
    have unarmed : agent.st.armed = false := by
      unfold State.armed
      rw [unwatched]
      rfl
    refine ⟨⟨tells.hash, fun armed => ?_, fun _ trial => ?_⟩, own, other⟩
    · rw [unarmed] at armed
      cases armed
    · exact Bool.or_eq_true_iff.mpr (Or.inl (tells.quiet unarmed trial))
  rename_i watched
  split
  · rename_i swapped
    refine safe_pure fun away => ?_
    obtain ⟨tells, own, other⟩ := sound away
    have same : validating host = host := by
      have unchanged : (host.validated || (host.fresh && host.trial)) = host.validated := by
        rw [other swapped, Bool.false_and, Bool.or_false]
      unfold validating
      rw [unchanged]
    rw [same]
    exact ⟨tells, own, other⟩
  · rename_i unswapped
    have unswapped : agent.swappedVersion = [] := not_not.mp unswapped
    have confirmed : SoundUnlessAway sha256 { agent with st := unwatched agent.st } (validating host) := by
      intro away
      obtain ⟨bin, stands, -⟩ := inv.stands away
      obtain ⟨tells, own, other⟩ := sound away
      have armed : agent.st.armed = true := decide_eq_true watched
      refine sound_unwatched stands (tells.hash bin stands) rfl unswapped fun _ => ?_
      show (host.validated || (host.fresh && host.trial)) = true
      rw [own unswapped armed, (tells.armed armed).1]
      exact Bool.or_true _
    exact (safe_saveState inv confirmed).bind inv fun _ _ _ sound₁ => safe_pure sound₁

/-- The new binary, its hash and the watch over it come with one save. -/
theorem safe_install (inv : Inv sha256 verifyBinarySignature host) (sound : SoundUnlessAway sha256 agent host)
    {upd : AgentUpdate} {bin : Bytes} (checked : verified sha256 verifyBinarySignature upd bin = true)
    (bare : trimSpace upd.sha256 = upd.sha256) (version : upd.latestVersion ≠ []) :
    SafeAgent sha256 verifyBinarySignature (install agent upd bin) host := by
  obtain ⟨recorded, signed⟩ := recorded_of_verified checked bare
  have put : ∀ {before : Host} content, Inv sha256 verifyBinarySignature before → SoundUnlessAway sha256 agent before →
      Inv sha256 verifyBinarySignature (before.put .new content) ∧ SoundUnlessAway sha256 agent (before.put .new content) :=
    fun content inv sound => ⟨inv.put (by decide) nofun, sound.like (Like.put (by decide) content)⟩
  unfold install
  refine Rules.Safe.perform ?_
  rintro _ rfl - done created ⟨⟨rfl, rfl⟩ | ⟨rfl, rfl⟩, -⟩
  case inr => exact ⟨inv, trivial, safe_pure sound⟩
  obtain ⟨inv₁, sound₁⟩ := put (some []) inv sound
  refine ⟨inv₁, trivial, ?_⟩
  refine Rules.Safe.perform ?_
  rintro _ rfl - done full ⟨⟨rfl, rfl⟩ | ⟨rfl, part, -, rfl⟩, -⟩
  case inr =>
    obtain ⟨inv₂, sound₂⟩ := put (some part) inv₁ sound₁
    exact ⟨inv₂, trivial, safe_pure sound₂⟩
  obtain ⟨inv₂, sound₂⟩ := put (some bin) inv₁ sound₁
  refine ⟨inv₂, trivial, ?_⟩
  have new : ((host.put .new (some [])).put .new (some bin)).files .new = some bin := put_self _ _
  refine (safe_atomicReplace inv₂ new signed).bind inv₂ fun done replaced inv₃ ended => ?_
  cases done with
  | true =>
    obtain ⟨stands, trial, fresh, validated⟩ := ended
    refine Rules.Safe.perform ?_
    rintro _ rfl - now _ ⟨⟨rfl, later⟩, -⟩
    refine ⟨inv₃, trivial, ?_⟩
    refine safe_saveAndRestart inv₃ fun _ => ⟨⟨fun other here => ?_, fun _ => ⟨trial, validated⟩, fun unarmed => ?_⟩, fun none => absurd none version, fun _ => fresh⟩
    · cases stands.symm.trans here
      exact Or.inr recorded
    · exact absurd (of_decide_eq_false unarmed) (not_not.mpr later.ne')
  | false =>
    have kept : SoundUnlessAway sha256 agent replaced := by
      intro away
      rcases ended with gone | like
      · rw [gone] at away
        cases away
      · exact sound₂.like like away
    exact safe_remove (by decide) inv₃ fun after _ like _ => safe_pure (kept.like like)

theorem safe_HandleAgentUpdate (inv : Inv sha256 verifyBinarySignature host) (sound : SoundUnlessAway sha256 agent host)
    {upd : AgentUpdate} (bare : trimSpace upd.sha256 = upd.sha256) :
    SafeAgent sha256 verifyBinarySignature (HandleAgentUpdate sha256 verifyBinarySignature agent upd) host := by
  unfold HandleAgentUpdate
  split
  · exact safe_idle inv (fun _ _ run => run) fun _ _ _ => safe_pure sound
  split
  · exact safe_pure sound
  rename_i complete
  split
  swap
  · exact safe_pure sound
  refine safe_idle inv (fun _ _ run => run.1) fun now _ _ => ?_
  split
  · exact safe_pure sound
  refine safe_idle inv (fun _ _ run => run) fun downloaded _ _ => ?_
  cases downloaded with
  | none => exact safe_pure sound
  | some bin =>
    dsimp only
    split
    · rename_i checked
      exact safe_install inv sound checked bare fun empty => complete (Or.inl empty)
    · exact safe_pure sound

theorem safe_saves (n : Nat) (inv : Inv sha256 verifyBinarySignature host) (sound : SoundUnlessAway sha256 agent host) :
    (rules sha256 verifyBinarySignature).Safe (fun _ => SoundUnlessAway sha256 agent) (saves agent.st n) host := by
  induction n generalizing host with
  | zero =>
    rintro _ rfl -
    exact sound
  | succ n ih => exact (safe_saveState inv sound).bind inv fun _ _ inv₁ sound₁ => ih inv₁ sound₁

theorem Inv.validating (inv : Inv sha256 verifyBinarySignature host) : Inv sha256 verifyBinarySignature (validating host) :=
  ⟨inv.backup, inv.gone, inv.stands, inv.settled⟩

theorem safe_runCheckin (inv : Inv sha256 verifyBinarySignature host) (sound : SoundUnlessAway sha256 agent host) :
    SafeAgent sha256 verifyBinarySignature (runCheckin sha256 verifyBinarySignature agent) host := by
  unfold runCheckin
  refine Rules.Safe.perform ?_
  rintro _ rfl - response after ⟨run, order⟩
  cases response with
  | none =>
    have unchanged : (host.validated || (false && host.fresh && host.trial)) = host.validated := by
      rw [Bool.false_and, Bool.false_and, Bool.or_false]
    have same : after = host := by
      rw [run, Option.isSome_none, unchanged]
    subst same
    exact ⟨inv, trivial, safe_CheckRollback_failed inv sound⟩
  | some offered =>
    obtain rfl : after = validating host := run
    refine ⟨inv.validating, trivial, ?_⟩
    refine (safe_CheckRollback_succeeded inv.validating sound).bind inv.validating fun agent₁ host₁ inv₁ sound₁ => ?_
    refine (safe_saveState inv₁ sound₁).bind inv₁ fun _ host₂ inv₂ sound₂ => ?_
    refine safe_idle inv₂ (fun _ _ run => run) fun n _ _ => ?_
    refine (safe_saves n inv₂ sound₂).bind inv₂ fun _ host₃ inv₃ sound₃ => ?_
    cases offered with
    | none => exact safe_pure sound₃
    | some upd => exact safe_HandleAgentUpdate inv₃ sound₃ (order upd rfl)

theorem safe_CheckBinaryIntegrity {version : List Char} (inv : Inv sha256 verifyBinarySignature host)
    (sound : SoundUnlessAway sha256 ⟨st, version, []⟩ host) :
    (rules sha256 verifyBinarySignature).Safe (fun st after => SoundUnlessAway sha256 ⟨st, version, []⟩ after)
      (CheckBinaryIntegrity st) host := by
  have idle : (rules sha256 verifyBinarySignature).Safe (fun st after => SoundUnlessAway sha256 ⟨st, version, []⟩ after)
      (pure st) host := by
    rintro _ rfl -
    exact sound
  unfold CheckBinaryIntegrity
  refine safe_idle inv (fun _ _ run => run.1) fun sum run _ => ?_
  cases sum with
  | none => exact idle
  | some current =>
    obtain ⟨bin, stands, rfl⟩ := run.2 current rfl
    dsimp only
    split
    · refine safe_idle inv (fun _ _ run => run.1) fun now _ _ => ?_
      have baseline : SoundUnlessAway sha256
          ⟨{ st with binarySHA256 := encodeToString (sha256 bin), binaryUpdatedAt := now }, version, []⟩ host := by
        intro away
        obtain ⟨⟨-, armed, quiet⟩, own, other⟩ := sound away
        refine ⟨⟨fun _ here => ?_, armed, quiet⟩, own, other⟩
        cases stands.symm.trans here
        exact Or.inr rfl
      refine (safe_saveState inv baseline).bind inv fun _ after inv₁ sound₁ => ?_
      rintro _ rfl -
      exact sound₁
    · exact idle

/-- A start from a consistent disk -/
theorem safe_boot (inv : Inv sha256 verifyBinarySignature host) : SafeAgent sha256 verifyBinarySignature boot host := by
  unfold boot
  refine Rules.Safe.perform ?_
  rintro _ rfl - loaded started ⟨⟨read, rfl⟩, settled, readable⟩
  obtain rfl := read.resolve_right readable
  obtain ⟨bin, stands, -, hash, watch⟩ := inv.settled settled
  have inv₁ : Inv sha256 verifyBinarySignature { host with fresh := true, validated := false } :=
    ⟨inv.backup, inv.gone, inv.stands, inv.settled⟩
  refine ⟨inv₁, trivial, ?_⟩
  refine safe_idle inv₁ (fun _ _ run => run) fun version _ _ => ?_
  have sound : SoundUnlessAway sha256 ⟨host.state, version, []⟩ { host with fresh := true, validated := false } := by
    refine fun _ => ⟨⟨fun other here => ?_, fun armed => ⟨watch.mp armed, rfl⟩, fun unarmed trial => ?_⟩, fun _ _ => rfl, fun swapped => absurd rfl swapped⟩
    · cases stands.symm.trans here
      exact hash
    · cases unarmed.symm.trans (watch.mpr trial)
  exact (safe_CheckBinaryIntegrity inv₁ sound).bind inv₁ fun st _ _ sound₁ => safe_pure sound₁

theorem safe_cycle (memory : Memory) (inv : Inv sha256 verifyBinarySignature host) (fit : Fit sha256 memory host) :
    (rules sha256 verifyBinarySignature).Safe (Fit sha256) (cycle sha256 verifyBinarySignature memory) host := by
  have running : ∀ program, SafeAgent sha256 verifyBinarySignature program host →
      (rules sha256 verifyBinarySignature).Safe (Fit sha256) (program >>= fun agent => pure (.running agent)) host := by
    refine fun program safe => safe.bind inv fun agent after _ sound => ?_
    rintro _ rfl -
    exact sound
  cases memory with
  | stopped => exact running _ (safe_boot inv)
  | running agent => exact running _ (safe_runCheckin inv fit)

end Cycle

/-- A computer on which the agent has been installed, about to start. -/
def Start (sha256 : Bytes → Bytes) (verifyBinarySignature : Bytes → Bytes → Bool)
    (c : Process.Config Op.Res Host Memory) : Prop :=
  c.run = .ret .stopped ∧ Settled c.world ∧ Consistent sha256 verifyBinarySignature c.world ∧ c.world.files .backup = none

theorem agent_verified :
    ((Update.agent sha256 verifyBinarySignature).restrict InOrder).Verified (rules sha256 verifyBinarySignature) (Fit sha256) where
  exec run := run
  env _ moves := moves.elim
  main memory _ inv fit := safe_cycle memory inv fit
  recover _ _ _ _ _ := trivial

theorem start_safe (c : Process.Config Op.Res Host Memory) (start : Start sha256 verifyBinarySignature c) :
    (rules sha256 verifyBinarySignature).inv c.world ∧
      (rules sha256 verifyBinarySignature).Safe (Fit sha256) c.run c.world := by
  obtain ⟨run, settled, consistent, backup⟩ := start
  have ⟨bin, stands, signed, _⟩ := consistent
  refine ⟨⟨fun other here => ?_, fun gone => ?_, fun _ => ⟨bin, stands, signed⟩, fun _ => consistent⟩, ?_⟩
  · cases backup.symm.trans here
  · cases settled.1.symm.trans gone
  · rw [run]
    exact fun _ _ _ => trivial

/-- Wherever the agent stops, but between the rename that takes its binary away and the save that
follows, the next start finds one binary, its hash and the watch that goes with it. -/
theorem restarts_consistent {c : Process.Config Op.Res Host Memory}
    (reach : ((Update.agent sha256 verifyBinarySignature).restrict InOrder).Reach (Start sha256 verifyBinarySignature) c)
    (settled : Settled c.world) : Consistent sha256 verifyBinarySignature c.world :=
  (reach.inv agent_verified start_safe).settled settled

/-! A computer with an empty binary, offered the binary "a" under a higher version. -/

def demoSha256 (bin : Bytes) : Bytes :=
  if bin = [] then
    [227, 176, 196, 66, 152, 252, 28, 20, 154, 251, 244, 200, 153, 111, 185, 36, 39, 174, 65, 228, 100, 155, 147, 76,
      164, 149, 153, 27, 120, 82, 184, 85]
  else if bin = [0x61] then
    [202, 151, 129, 18, 202, 27, 189, 202, 250, 194, 49, 179, 154, 35, 220, 77, 167, 134, 239, 248, 20, 124, 78, 114,
      185, 128, 119, 133, 175, 238, 72, 187]
  else []

def demoVerify (_ signature : Bytes) : Bool := signature = [1]

def demoUpdate : AgentUpdate :=
  ⟨"1.1.0".toList, "ca978112ca1bbdcafac231b39a23dc4da786eff8147c4e72b9807785afee48bb".toList, "AQ=="⟩

def demoFiles (path : Path) : Option Bytes := if path = .binary then some [] else none

def demoHost : Host := ⟨demoFiles, {}, false, false, false, false, false⟩

def demoState : State := { binarySHA256 := encodeToString (demoSha256 []), binaryUpdatedAt := 1 }

def demoRunning : Running := ⟨demoState, "1.0.0".toList, []⟩

theorem demo_start : Start demoSha256 demoVerify ⟨demoHost, .ret .stopped⟩ :=
  ⟨rfl, ⟨rfl, rfl⟩, ⟨[], rfl, ⟨[1], rfl⟩, Or.inl rfl, by decide⟩, rfl⟩

theorem demo_verified : verified demoSha256 demoVerify demoUpdate [0x61] = true := by decide

/-- What the cycle goes on with once the new binary is installed. -/
def demoInstall : Updater Memory :=
  install demoRunning demoUpdate [0x61] >>= fun agent => pure (.running agent)

theorem demo_reach : ∃ host : Host, host.files = demoFiles ∧
    ((Update.agent demoSha256 demoVerify).restrict InOrder).Reach (Start demoSha256 demoVerify) ⟨host, demoInstall⟩ := by
  have r := (show ((Update.agent demoSha256 demoVerify).restrict InOrder).Reach (Start demoSha256 demoVerify) _ from
    .init demo_start).again
  have r := r.perform (some ({} : State)) _ ⟨⟨Or.inl rfl, rfl⟩, ⟨rfl, rfl⟩, nofun⟩
  have r := r.perform "1.0.0".toList _ ⟨rfl, trivial⟩
  have r := r.perform (some (encodeToString (demoSha256 []))) _ ⟨⟨rfl, by rintro _ ⟨⟩; exact ⟨[], rfl, rfl⟩⟩, trivial⟩
  have r := r.perform (1 : Int) _ ⟨⟨rfl, by decide⟩, trivial⟩
  have r := r.perform true _ ⟨Or.inl ⟨rfl, rfl⟩, trivial⟩
  have r := r.again
  have r := r.perform (some (some demoUpdate)) _ ⟨rfl, by rintro _ ⟨⟩; decide⟩
  have r := r.perform true _ ⟨Or.inl ⟨rfl, rfl⟩, trivial⟩
  have r := r.perform (0 : Nat) _ ⟨rfl, trivial⟩
  have r := r.perform (2 : Int) _ ⟨⟨rfl, by decide⟩, trivial⟩
  have r := r.perform (some [0x61]) _ ⟨rfl, trivial⟩
  have chosen : demoInstall =
      (if verified demoSha256 demoVerify demoUpdate [0x61] then install demoRunning demoUpdate [0x61] else pure demoRunning) >>=
        fun agent => pure (.running agent) := by
    rw [if_pos demo_verified]
    rfl
  rw [chosen]
  exact ⟨_, by rfl, r⟩

theorem demo_aside {host : Host} (files : host.files = demoFiles) :
    (((host.put .new (some [])).put .new (some [0x61])).put .backup none).files .binary ≠ none := by
  simp [Host.put, files, demoFiles]

/-- The new binary in place, with its hash and the watch over it. -/
theorem restarts_consistent_updated : ∃ c : Process.Config Op.Res Host Memory,
    c.world.files .binary = some [0x61] ∧ Settled c.world ∧ Consistent demoSha256 demoVerify c.world := by
  obtain ⟨host, files, r⟩ := demo_reach
  have r := r.perform true _ ⟨Or.inl ⟨rfl, rfl⟩, trivial⟩
  have r := r.perform true _ ⟨Or.inl ⟨rfl, rfl⟩, trivial⟩
  have r := r.perform () _ ⟨Or.inl rfl, trivial⟩
  have r := r.perform true _ ⟨Or.inl ⟨rfl, demo_aside files, rfl⟩, trivial⟩
  have new : ((((host.put .new (some [])).put .new (some [0x61])).put .backup none).move .binary .backup).files .new ≠ none := by
    simp [Host.put, Host.move]
  have r := r.perform true _ ⟨Or.inl ⟨rfl, new, rfl⟩, trivial⟩
  have r := r.perform (3 : Int) _ ⟨⟨rfl, by decide⟩, trivial⟩
  have r := r.perform true _ ⟨Or.inl ⟨rfl, rfl⟩, trivial⟩
  refine ⟨_, ?_, ⟨by rfl, by rfl⟩, restarts_consistent r ⟨rfl, rfl⟩⟩
  simp [Host.put, Host.move, Host.marked, Host.saved, Exchange.source, Exchange.target, Exchange.next, Exchange.spare]

/-- A stop after the first of the two renames: nothing is left at the path of the binary. -/
theorem stop_loses_binary : ∃ c : Process.Config Op.Res Host Memory,
    (Update.agent demoSha256 demoVerify).Reach (Start demoSha256 demoVerify) c ∧ c.run = .ret .stopped ∧
      c.world.files .binary = none ∧ ¬Consistent demoSha256 demoVerify c.world := by
  obtain ⟨host, files, r⟩ := demo_reach
  have r := r.of_restrict
  have r := r.perform true _ (Or.inl ⟨rfl, rfl⟩)
  have r := r.perform true _ (Or.inl ⟨rfl, rfl⟩)
  have r := r.perform () _ (Or.inl rfl)
  have r := r.perform true _ (Or.inl ⟨rfl, demo_aside files, rfl⟩)
  have r := r.crash
  have gone : ((((host.put .new (some [])).put .new (some [0x61])).put .backup none).move .binary .backup).files .binary = none :=
    move_source
  refine ⟨_, r, rfl, gone, fun consistent => ?_⟩
  obtain ⟨bin, stands, -⟩ := consistent
  cases gone.symm.trans stands

end Opale.AgentGo.Update
