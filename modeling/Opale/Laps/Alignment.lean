import Opale.Laps.Rotator

namespace Opale.Laps

/-- One device: the only escrow slot of the server, the password really in place, and
`state.json` on disk. -/
structure Device where
  server : Option (String × List UInt8)
  machine : String
  disk : State
  deriving DecidableEq

section
variable (plain : List UInt8 → Option String)

/-- What each operation may answer and change; `plain` is the decryption by the key of
the server. A POST may be accepted although the agent sees an error, and an uncertain
local change may or may not have happened. -/
def exec : (o : LapsOp) → Device → o.Res → Device → Prop
  | .now, w, _, w₁ | .username, w, _, w₁ | .lookup _, w, _, w₁ | .genPassword, w, _, w₁ => w₁ = w
  | .encrypt password, w, encrypted, w₁ => w₁ = w ∧ ∀ enc ∈ encrypted, plain enc = some password
  | .save st, w, saved, w₁ =>
    saved = true ∧ w₁ = { w with disk := st } ∨ saved = false ∧ w₁ = w
  | .escrow _ username enc, w, answer, w₁ =>
    answer = .ok () ∧ w₁ = { w with server := some (username, enc) } ∨
      (∃ err, answer = .error err) ∧ (w₁ = w ∨ w₁ = { w with server := some (username, enc) })
  | .apply _ password _, w, res, w₁ =>
    match res.outcome with
    | .ok | .changedPartial => w₁ = { w with machine := password }
    | .unchanged => w₁ = w
    | .uncertain => w₁ = w ∨ w₁ = { w with machine := password }

/-- The agent: `run` again and again on the state in memory, which a crash replaces by
the one on disk. -/
def agent (accounts : Bool) : Process LapsOp.Res Device State where
  exec := exec plain
  env := fun _ _ => False
  main := run accounts
  recover := Device.disk

/-- The password in place is the one of `CurrentAdminCred`, when there is one. -/
def CurrentInPlace (st : State) (w : Device) : Prop :=
  ∀ cur, st.currentAdminCred = some cur →
    ∃ enc, Base64.decode cur.encB64 = some enc ∧ plain enc = some w.machine

/-- The server's escrow is the ciphertext of the password in place. -/
def EscrowAligned (w : Device) : Prop :=
  ∃ username enc, w.server = some (username, enc) ∧ plain enc = some w.machine

/-- Start of a run: no stash, escrow and machine aligned, nothing running. -/
def Start (c : Process.Config LapsOp.Res Device State) : Prop :=
  ∃ st, c.run = .ret st ∧ c.world.disk = st ∧ st.pendingAdminCred = none ∧
    CurrentInPlace plain st c.world ∧ EscrowAligned plain c.world

/-- The stash "escrowed": the new password may have been applied. -/
def Escrowed (st : State) : Prop := ∃ p, st.pendingAdminCred = some p ∧ p.phase = .escrowed

/-- What a state of the agent, on disk or in memory, says of the device. The phase
"escrowed" says nothing of the password in place; in memory it is also the one on disk. -/
def Sound (st : State) (w : Device) : Prop :=
  match st.pendingAdminCred with
  | none => CurrentInPlace plain st w ∧ (st.currentAdminCred ≠ none → EscrowAligned plain w)
  | some p =>
    match p.phase with
    | .legacy => False
    | .prepared => CurrentInPlace plain st w
    | .escrowed => Escrowed w.disk

/-- A stash "prepared" that overwrites a stash "escrowed" on disk finds in place the
password of the `CurrentAdminCred` it keeps. -/
def RollsForwardInPlace : (o : LapsOp) → Device → o.Res → Device → Prop
  | .save st, w, saved, _ =>
    saved = true → (∃ p, st.pendingAdminCred = some p ∧ p.phase = .prepared) → Escrowed w.disk →
      CurrentInPlace plain st w
  | _, _, _, _ => True

/-- `restoreCurrentEscrow` only re-posts the ciphertext of the password in place. -/
def RestoresInPlace : (o : LapsOp) → Device → o.Res → Device → Prop
  | .escrow .restoreCurrentEscrow _ enc, w, _, _ => plain enc = some w.machine
  | _, _, _, _ => True

def rules : Rules LapsOp.Res Device where
  exec o w answer w₁ := exec plain o w answer w₁ ∧ RollsForwardInPlace plain o w answer w₁
  inv w := Sound plain w.disk w
  rely := Eq
  guarantee := RestoresInPlace plain
  rely_refl _ := rfl
  rely_trans := Eq.trans

end

variable {plain : List UInt8 → Option String}

@[simp] theorem sound_fail {st : State} {now : Time} {w : Device} :
    Sound plain (fail st now) w ↔ Sound plain st w := Iff.rfl

@[simp] theorem sound_resetBackoff {st : State} {w : Device} :
    Sound plain (resetBackoff st) w ↔ Sound plain st w := Iff.rfl

/-- A state that is sound stays so once it is the one on disk. -/
theorem Sound.saved {st : State} {w : Device} (sound : Sound plain st w) :
    Sound plain st { w with disk := st } := by
  unfold Sound at sound ⊢
  split at sound
  · exact sound
  · rename_i p stash
    split at sound
    · exact sound
    · exact sound
    · exact ⟨p, stash, ‹_›⟩

theorem Sound.of_restored {st : State} {w : Device} {username : String} {enc : List UInt8}
    (sound : Sound plain st w) (same : plain enc = some w.machine) :
    Sound plain st { w with server := some (username, enc) } := by
  unfold Sound at sound ⊢
  split at sound
  · exact ⟨sound.1, fun _ => ⟨username, enc, rfl, same⟩⟩
  · exact sound

theorem safe_saveState {st : State} {w : Device} (kept : Sound plain w.disk w)
    (sound : Sound plain st w) : (rules plain).Safe (Sound plain) (saveState st) w := by
  rintro _ rfl - saved w₁ ⟨run, -⟩
  rcases run with ⟨rfl, rfl⟩ | ⟨rfl, rfl⟩
  · refine ⟨sound.saved, trivial, ?_⟩
    rintro _ rfl -
    exact sound.saved
  · refine ⟨kept, trivial, ?_⟩
    rintro _ rfl -
    exact sound

/-- A restoration from a state whose `CurrentAdminCred` is in place changes nothing but
the escrow, and aligns it when the server took it. -/
theorem safe_restoreCurrentEscrow {st : State} {w : Device} (kept : Sound plain w.disk w)
    (inPlace : CurrentInPlace plain st w) :
    (rules plain).Safe (fun restored w₁ => w₁.machine = w.machine ∧ w₁.disk = w.disk ∧
      (restored = true → EscrowAligned plain w₁)) (restoreCurrentEscrow st) w := by
  unfold restoreCurrentEscrow
  split
  · rintro _ rfl -
    exact ⟨rfl, rfl, nofun⟩
  · rename_i cur current
    obtain ⟨enc, decoded, same⟩ := inPlace cur current
    rw [decoded]
    rintro _ rfl - answer w₁ ⟨run, -⟩
    rcases run with ⟨rfl, rfl⟩ | ⟨⟨err, rfl⟩, rfl | rfl⟩
    · refine ⟨kept.of_restored same, same, ?_⟩
      rintro _ rfl -
      exact ⟨rfl, rfl, fun _ => ⟨_, _, rfl, same⟩⟩
    · refine ⟨kept, same, ?_⟩
      rintro _ rfl -
      exact ⟨rfl, rfl, nofun⟩
    · refine ⟨kept.of_restored same, same, ?_⟩
      rintro _ rfl -
      exact ⟨rfl, rfl, nofun⟩

/-- The state written once a password is applied, escrowed and recorded. -/
theorem Sound.of_applied {st : State} {w : Device} {username : String} {enc : List UInt8} {now : Time}
    (server : w.server = some (username, enc)) (same : plain enc = some w.machine)
    (pending : st.pendingAdminCred = none)
    (current : st.currentAdminCred = some ⟨username, Base64.encode enc, now⟩) : Sound plain st w := by
  unfold Sound
  rw [pending]
  refine ⟨fun cur hcur => ?_, fun _ => ⟨username, enc, server, same⟩⟩
  cases current.symm.trans hcur
  exact ⟨enc, Base64.decode_encode enc, same⟩

/-- Steps 5 and 6, once the server holds the ciphertext of the new password and the disk
the stash "escrowed". The old password is still the one of `CurrentAdminCred`. -/
theorem safe_applyRotation {st : State} {w : Device} {now : Time} {username password : String}
    {enc : List UInt8} {acct : LapsAccount} {p : PendingAdminCred}
    (stash : st.pendingAdminCred = some p) (phase : p.phase = .escrowed) (disk : w.disk = st)
    (server : w.server = some (username, enc)) (cipher : plain enc = some password)
    (inPlace : CurrentInPlace plain st w) :
    (rules plain).Safe (Sound plain)
      (applyRotation st now username password (Base64.encode enc) acct) w := by
  have unsettled : ∀ w₁ : Device, w₁.disk = st → Sound plain st w₁ := by
    intro w₁ disk₁
    unfold Sound
    simp only [stash, phase]
    exact ⟨p, disk₁ ▸ stash, phase⟩
  unfold applyRotation
  refine Rules.Safe.perform ?_
  rintro _ rfl - res w₁ ⟨run, -⟩
  simp only [exec] at run
  cases outcome : res.outcome with
  | ok =>
    simp only [outcome] at run
    subst run
    have kept : Sound plain w.disk { w with machine := password } :=
      disk.symm ▸ unsettled { w with machine := password } (by exact disk)
    exact ⟨kept, trivial, safe_saveState kept (.of_applied server cipher rfl rfl)⟩
  | changedPartial =>
    simp only [outcome] at run
    subst run
    have kept : Sound plain w.disk { w with machine := password } :=
      disk.symm ▸ unsettled { w with machine := password } (by exact disk)
    exact ⟨kept, trivial, safe_saveState kept (.of_applied server cipher rfl rfl)⟩
  | unchanged =>
    simp only [outcome] at run
    subst run
    have kept : Sound plain w₁.disk w₁ := disk ▸ unsettled w₁ disk
    refine ⟨kept, trivial, ?_⟩
    refine (safe_restoreCurrentEscrow kept inPlace).bind kept ?_
    rintro restored w₂ kept₂ ⟨machine, disk₂, aligned⟩
    split
    · rename_i accepted
      refine safe_saveState kept₂ ⟨fun cur current => ?_, fun _ => aligned accepted⟩
      rw [machine]
      exact inPlace cur current
    · exact safe_saveState kept₂ (unsettled w₂ (disk₂.trans disk))
  | uncertain =>
    simp only [outcome] at run
    have disk₁ : w₁.disk = st := by
      rcases run with rfl | rfl
      · exact disk
      · exact disk
    have kept : Sound plain w₁.disk w₁ := disk₁.symm ▸ unsettled w₁ disk₁
    exact ⟨kept, trivial, safe_saveState kept (unsettled w₁ disk₁)⟩

/-- Without a stash "escrowed" on disk, the password of `CurrentAdminCred` is in place. -/
theorem Sound.inPlace {st : State} {w : Device} (sound : Sound plain st w) (settled : ¬Escrowed w.disk) :
    CurrentInPlace plain st w := by
  unfold Sound at sound
  split at sound
  · exact sound.1
  · split at sound
    · exact sound.elim
    · exact sound
    · exact (settled sound).elim

/-- Steps 2 to 4. Only a stash "prepared" written over a stash "escrowed" needs the
condition: from there on the disk never says more than what is in place. -/
theorem safe_escrowRotation {st : State} {w : Device} {now : Time} {username password : String}
    {enc : List UInt8} {acct : LapsAccount} (kept : Sound plain w.disk w) (sound : Sound plain st w)
    (cipher : plain enc = some password) :
    (rules plain).Safe (Sound plain) (escrowRotation st now username password enc acct) w := by
  unfold escrowRotation
  refine Rules.Safe.perform ?_
  rintro _ rfl - saved w₁ ⟨⟨rfl, rfl⟩ | ⟨rfl, rfl⟩, prepared⟩
  case inr =>
    refine ⟨kept, trivial, ?_⟩
    rintro _ rfl -
    exact sound
  case inl =>
    have inPlace : CurrentInPlace plain st w := by
      by_cases escrowed : Escrowed w.disk
      · exact prepared rfl ⟨_, rfl, rfl⟩ escrowed
      · exact sound.inPlace escrowed
    refine ⟨inPlace, trivial, ?_⟩
    refine Rules.Safe.perform ?_
    rintro _ rfl - answer w₂ ⟨⟨rfl, rfl⟩ | ⟨⟨err, rfl⟩, rfl | rfl⟩, -⟩
    · refine ⟨inPlace, trivial, ?_⟩
      refine Rules.Safe.perform ?_
      rintro _ rfl - saved w₃ ⟨⟨rfl, rfl⟩ | ⟨rfl, rfl⟩, -⟩
      · exact ⟨⟨_, rfl, rfl⟩, trivial, safe_applyRotation rfl rfl rfl rfl cipher inPlace⟩
      · refine ⟨inPlace, trivial, ?_⟩
        refine (safe_restoreCurrentEscrow (by exact inPlace) (by exact inPlace)).bind (by exact inPlace) ?_
        rintro restored w₃ kept₃ ⟨machine, disk₃, aligned⟩
        have inPlace₃ : CurrentInPlace plain st w₃ := by
          intro cur current
          rw [machine]
          exact inPlace cur current
        split
        · rename_i accepted
          exact safe_saveState kept₃ ⟨inPlace₃, fun _ => aligned accepted⟩
        · exact safe_saveState kept₃ inPlace₃
    · exact ⟨inPlace, trivial, safe_saveState inPlace inPlace⟩
    · exact ⟨inPlace, trivial, safe_saveState inPlace inPlace⟩

theorem safe_rotate {st : State} {w : Device} {now : Time} (kept : Sound plain w.disk w)
    (sound : Sound plain st w) : (rules plain).Safe (Sound plain) (rotate st now) w := by
  have failed : (rules plain).Safe (Sound plain) (saveState (fail st now)) w := safe_saveState kept sound
  unfold rotate
  refine Rules.Safe.perform ?_
  rintro _ rfl - username _ ⟨rfl, -⟩
  refine ⟨kept, trivial, ?_⟩
  split
  · exact failed
  refine Rules.Safe.perform ?_
  rintro _ rfl - found _ ⟨rfl, -⟩
  refine ⟨kept, trivial, ?_⟩
  split
  · exact failed
  split
  · exact failed
  refine Rules.Safe.perform ?_
  rintro _ rfl - password _ ⟨rfl, -⟩
  refine ⟨kept, trivial, ?_⟩
  split
  · exact failed
  refine Rules.Safe.perform ?_
  rintro _ rfl - encrypted _ ⟨⟨rfl, cipher⟩, -⟩
  refine ⟨kept, trivial, ?_⟩
  split
  · exact failed
  · exact safe_escrowRotation kept sound (cipher _ rfl)

theorem safe_rollForward {accounts : Bool} {st : State} {w : Device} {now : Time} {force : Bool}
    (kept : Sound plain w.disk w) (sound : Sound plain st w) :
    (rules plain).Safe (Sound plain) (rollForward accounts st now force) w := by
  have idle : (rules plain).Safe (Sound plain) (.ret st) w := by
    rintro _ rfl -
    exact sound
  unfold rollForward
  split
  · exact idle
  split
  · dsimp only
    split
    · exact safe_rotate kept sound
    · exact idle
  · rename_i p stash
    split
    · rename_i phase
      have inPlace : CurrentInPlace plain st w := by
        unfold Sound at sound
        simpa only [stash, phase] using sound
      refine (safe_restoreCurrentEscrow kept inPlace).bind kept ?_
      rintro restored w₁ kept₁ ⟨machine, disk₁, aligned⟩
      have inPlace₁ : CurrentInPlace plain st w₁ := by
        intro cur current
        rw [machine]
        exact inPlace cur current
      split
      · rename_i accepted
        have settled : Sound plain { st with pendingAdminCred := none } w₁ :=
          ⟨inPlace₁, fun _ => aligned accepted⟩
        refine (safe_saveState kept₁ settled).bind kept₁ ?_
        intro st₁ w₂ kept₂ sound₂
        exact safe_rotate kept₂ sound₂
      · refine safe_rotate kept₁ ?_
        unfold Sound
        simpa only [stash, phase] using inPlace₁
    · exact safe_rotate kept sound

/-- One whole cycle, from a state that is sound to a state that is sound. A legacy stash
cannot be met: no run from a start without stash writes one. -/
theorem safe_run {accounts : Bool} {st : State} {w : Device} (kept : Sound plain w.disk w)
    (sound : Sound plain st w) : (rules plain).Safe (Sound plain) (run accounts st) w := by
  unfold run
  refine Rules.Safe.perform ?_
  rintro _ rfl - now _ ⟨rfl, -⟩
  refine ⟨kept, trivial, ?_⟩
  dsimp only
  split
  · rintro _ rfl -
    exact sound
  split
  · rename_i stash
    unfold Sound at sound
    simp only [stash] at sound
  · exact safe_rollForward kept sound

theorem agent_verified (accounts : Bool) :
    ((agent plain accounts).restrict (RollsForwardInPlace plain)).Verified (rules plain) (Sound plain) where
  exec run := run
  env _ moves := moves.elim
  main _ _ kept sound := safe_run kept sound
  recover := by
    rintro w kept _ rfl -
    exact kept

theorem start_safe (c : Process.Config LapsOp.Res Device State) (start : Start plain c) :
    (rules plain).inv c.world ∧ (rules plain).Safe (Sound plain) c.run c.world := by
  obtain ⟨st, run, disk, pending, inPlace, aligned⟩ := start
  have sound : Sound plain st c.world := by
    unfold Sound
    rw [pending]
    exact ⟨inPlace, fun _ => aligned⟩
  refine ⟨by rw [← disk] at sound; exact sound, ?_⟩
  rw [run]
  rintro _ rfl -
  exact sound

/-- In every run whose roll-forwards over a stash "escrowed" find the password of
`CurrentAdminCred` still in place, a restoration re-posts the ciphertext of the password
in place, and a disk without stash goes with an escrow of the password in place. -/
theorem agent_escrow_aligned (accounts : Bool) {c : Process.Config LapsOp.Res Device State}
    (reach : ((agent plain accounts).restrict (RollsForwardInPlace plain)).Reach (Start plain) c) :
    (∀ username enc rest, c.run = .op (.escrow .restoreCurrentEscrow username enc) rest →
      plain enc = some c.world.machine) ∧
    (c.world.disk.currentAdminCred ≠ none → c.world.disk.pendingAdminCred = none →
      EscrowAligned plain c.world) := by
  constructor
  · intro username enc rest next
    obtain ⟨w, program⟩ := c
    subst next
    have lost : exec plain (.escrow .restoreCurrentEscrow username enc) w (.error .other) w :=
      .inr ⟨⟨_, rfl⟩, .inl rfl⟩
    exact reach.guarantee (agent_verified accounts) start_safe ⟨lost, trivial⟩
  · intro current pending
    have sound : Sound plain c.world.disk c.world := reach.inv (agent_verified accounts) start_safe
    unfold Sound at sound
    rw [pending] at sound
    exact sound.2 current

/-! A device whose account "u" has the password "p0", and the ciphertexts of "p0" to "p2". -/

def demoPlain : List UInt8 → Option String
  | [] => some "p0"
  | [1] => some "p1"
  | [2] => some "p2"
  | _ => none

def demoState : State := ⟨0, none, some ⟨"u", "", 0⟩, [], 0, 0⟩

def demoDevice : Device := ⟨some ("u", []), "p0", demoState⟩

def demoAccount : LapsAccount := ⟨true, "S-1-5-21-1-2-3-1001", lapsAccountDescription⟩

theorem demo_start : Start demoPlain ⟨demoDevice, .ret demoState⟩ := by
  refine ⟨demoState, rfl, rfl, rfl, ?_, "u", [], rfl, rfl⟩
  rintro cur ⟨⟩
  exact ⟨[], rfl, rfl⟩

/-- A refused escrow, then the restoration of the next cycle. -/
theorem agent_escrow_aligned_refused : ∃ c : Process.Config LapsOp.Res Device State, ∃ rest,
    c.run = .op (.escrow .restoreCurrentEscrow "u" []) rest ∧ demoPlain [] = some c.world.machine := by
  have inPlace : ∀ disk, CurrentInPlace demoPlain ⟨0, some ⟨"u", "AQ==", 1, .prepared⟩,
      some ⟨"u", "", 0⟩, [], disk, 0⟩ demoDevice := by
    rintro _ cur ⟨⟩
    exact ⟨[], rfl, rfl⟩
  have r := (show ((agent demoPlain true).restrict (RollsForwardInPlace demoPlain)).Reach
    (Start demoPlain) _ from .init demo_start).again
  have r := r.perform (1 : Int) demoDevice ⟨rfl, trivial⟩
  have r := r.perform "u" demoDevice ⟨rfl, trivial⟩
  have r := r.perform (.ok ⟨false, "", ""⟩) demoDevice ⟨rfl, trivial⟩
  have r := r.perform (some "p1") demoDevice ⟨rfl, trivial⟩
  have r := r.perform (some [1]) demoDevice ⟨⟨rfl, by rintro _ ⟨⟩; rfl⟩, trivial⟩
  have r := r.perform true _ ⟨.inl ⟨rfl, rfl⟩, fun _ _ _ => inPlace 0⟩
  have r := r.perform (.error .other) _ ⟨.inr ⟨⟨_, rfl⟩, .inl rfl⟩, trivial⟩
  have r := r.perform true _ ⟨.inl ⟨rfl, rfl⟩, fun _ _ _ => inPlace 1⟩
  have r := r.again
  have r := r.perform (900000000001 : Int) _ ⟨rfl, trivial⟩
  exact ⟨_, _, rfl, (agent_escrow_aligned true r).1 "u" [] _ rfl⟩

/-- The new password is applied although the outcome is uncertain; the roll-forward
overwrites its stash with a fresh "prepared" one; its escrow is refused; the next cycle
takes the old password for the one in place and re-posts it. -/
theorem agent_restores_stale_escrow : ∃ c : Process.Config LapsOp.Res Device State,
    ∃ username enc rest, (agent demoPlain true).Reach (Start demoPlain) c ∧
      c.run = .op (.escrow .restoreCurrentEscrow username enc) rest ∧
      demoPlain enc ≠ some c.world.machine := by
  have r := (show (agent demoPlain true).Reach (Start demoPlain) _ from .init demo_start).again
  have r := r.perform (1 : Int) demoDevice rfl
  have r := r.perform "u" demoDevice rfl
  have r := r.perform (.ok ⟨false, "", ""⟩) demoDevice rfl
  have r := r.perform (some "p1") demoDevice rfl
  have r := r.perform (some [1]) demoDevice ⟨rfl, by rintro _ ⟨⟩; rfl⟩
  have r := r.perform true _ (.inl ⟨rfl, rfl⟩)
  have r := r.perform (.ok ()) _ (.inl ⟨rfl, rfl⟩)
  have r := r.perform true _ (.inl ⟨rfl, rfl⟩)
  have r := r.perform ⟨.uncertain, ""⟩ _ (.inr rfl)
  have r := r.perform true _ (.inl ⟨rfl, rfl⟩)
  have r := r.again
  have r := r.perform (900000000001 : Int) _ rfl
  have r := r.perform "u" _ rfl
  have r := r.perform (.ok demoAccount) _ rfl
  have r := r.perform (some "p2") _ rfl
  have r := r.perform (some [2]) _ ⟨rfl, by rintro _ ⟨⟩; rfl⟩
  have r := r.perform true _ (.inl ⟨rfl, rfl⟩)
  have r := r.perform (.error .other) _ (.inr ⟨⟨_, rfl⟩, .inl rfl⟩)
  have r := r.perform true _ (.inl ⟨rfl, rfl⟩)
  have r := r.again
  have r := r.perform (2700000000001 : Int) _ rfl
  exact ⟨_, "u", [], _, r, rfl, by decide⟩

end Opale.Laps
