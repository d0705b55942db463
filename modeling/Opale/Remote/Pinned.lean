import Opale.Remote.HostKey

namespace Opale.Remote

open Js (jsSpaces trim trim_self)

variable {Key : Type} {ssh : Ssh Key} {w w₁ w₂ : HostKeys Key} {t conn : Nat} {f : Text}

theorem withoutLabel_self {text : Text} (bare : ∀ c ∈ text, c.toLower ≠ ':') : withoutLabel text = text := by
  rw [withoutLabel, if_neg]
  intro label
  have colon : ':' ∈ (text.take 7).map Char.toLower := by
    rw [label]
    decide
  obtain ⟨c, member, lower⟩ := List.mem_map.mp colon
  exact bare c (List.mem_of_mem_take member) lower

theorem digit_bare : ∀ c ∈ Base64.alphabet, c ∉ jsSpaces ∧ c.toLower ≠ ':' ∧ c ≠ '\u00a0' ∧ c ≠ '=' := by
  have all : Base64.alphabet.all (fun c => c ∉ jsSpaces ∧ c.toLower ≠ ':' ∧ c ≠ '\u00a0' ∧ c ≠ '=') = true := by
    decide
  intro c member
  exact of_decide_eq_true (List.all_eq_true.mp all c member)

namespace Ssh

theorem fingerprint_mem (ssh : Ssh Key) (key : Key) : ∀ c ∈ ssh.hostKeyFingerprint key, c ∈ Base64.alphabet :=
  (Base64.unpad_encodeChars (ssh.sha256 key)).1

theorem fingerprint_ne_nil (ssh : Ssh Key) (key : Key) : ssh.hostKeyFingerprint key ≠ [] := by
  refine (Base64.unpad_encodeChars (ssh.sha256 key)).2 fun none_ => ?_
  have length := ssh.length key
  rw [none_] at length
  cases length

/-- A fingerprint that the guard has stored is read back as it is. -/
theorem normalize_fingerprint (ssh : Ssh Key) (key : Key) :
    normalizeFingerprint (some (ssh.hostKeyFingerprint key)) = some (ssh.hostKeyFingerprint key) := by
  have bare := fun c member => digit_bare c (ssh.fingerprint_mem key c member)
  have trimmed : trim (ssh.hostKeyFingerprint key) = ssh.hostKeyFingerprint key := trim_self fun c member => (bare c member).1
  have whole : Base64.unpad (ssh.hostKeyFingerprint key) = ssh.hostKeyFingerprint key := by
    rw [Base64.unpad, List.rdropWhile_eq_self_iff]
    intro nonempty last
    exact (bare _ (List.getLast_mem nonempty)).2.2.2 (of_decide_eq_true last)
  rw [normalizeFingerprint, trimmed, withoutLabel_self fun c member => (bare c member).2.1, trimmed, whole,
    if_neg (ssh.fingerprint_ne_nil key)]

/-- And the UPDATE does not take it for an absent one. -/
theorem fingerprint_present (ssh : Ssh Key) (key : Key) : ssh.space.absent (some (ssh.hostKeyFingerprint key)) = false := by
  have bare := fun c member => digit_bare c (ssh.fingerprint_mem key c member)
  have outside : ∀ c ∈ ssh.hostKeyFingerprint key, ssh.space.mem c = false := fun c member =>
    ssh.space.digit c (ssh.fingerprint_mem key c member)
  obtain ⟨c, rest, split⟩ := List.exists_cons_of_ne_nil (ssh.fingerprint_ne_nil key)
  have first : c ∈ ssh.hostKeyFingerprint key := by
    rw [split]
    exact List.mem_cons_self
  have kept : (ssh.hostKeyFingerprint key).dropWhile (fun c => ssh.space.mem c || c = '\u00a0') =
      ssh.hostKeyFingerprint key := by
    rw [split, List.dropWhile_cons_of_neg]
    simp [outside c first, (bare c first).2.2.1]
  rw [SpaceClass.absent, SpaceClass.blank, kept, withoutLabel_self fun c member => (bare c member).2.1]
  refine List.all_eq_false.mpr ⟨c, first, ?_⟩
  simp [outside c first, (bare c first).2.2.1, (bare c first).2.2.2]

/-- Two keys with one fingerprint are the same, but for a collision of the hash function. -/
theorem fingerprint_inj (ssh : Ssh Key) {key other : Key}
    (same : ssh.hostKeyFingerprint key = ssh.hostKeyFingerprint other) : ssh.sha256 key = ssh.sha256 other :=
  Base64.unpad_inj ((ssh.length key).trans (ssh.length other).symm) same

end Ssh

/-- The column holds a fingerprint that `normalizeFingerprint` reads as `f`. -/
def Known (w : HostKeys Key) (f : Text) : Prop := ∃ v, w.stored = some v ∧ normalizeFingerprint v = some f

/-- The UPDATE cannot replace a fingerprint that `normalizeFingerprint` keeps. -/
def Unlearned (ssh : Ssh Key) (w : HostKeys Key) : Prop :=
  ∀ v, w.stored = some v → normalizeFingerprint v = none ∨ ssh.space.absent v = false

/-- What the code relies on of each guard: it accepts one key, and holds on to it until the
column does. -/
structure Held (ssh : Ssh Key) (w : HostKeys Key) (g : Guard Key) : Prop where
  pending : g.pendingFp ≠ none → Unlearned ssh w
  accepted : ∀ f, g.acceptedFp = some f → (∃ key, g.key = some key ∧ f = ssh.hostKeyFingerprint key) ∧
    (g.pendingFp = some f ∨ g.pendingFp = none ∧ Known w f)
  unaccepted : g.acceptedFp = none → g.pendingFp = none
  confirmed : g.confirmed = true → g.acceptedFp ≠ none ∧ g.pendingFp = none

def AllHeld (ssh : Ssh Key) (w : HostKeys Key) : Prop := ∀ conn g, w.guards conn = some g → Held ssh w g

/-- A fingerprint that `normalizeFingerprint` keeps stays. -/
def Kept (w w₁ : HostKeys Key) : Prop :=
  ∀ v, w.stored = some v → normalizeFingerprint v ≠ none → w₁.stored = w.stored

/-- What the run `t` accepts of the others. -/
structure Keeps (ssh : Ssh Key) (t : Nat) (w w₁ : HostKeys Key) : Prop where
  kept : Kept w w₁
  unlearned : Unlearned ssh w → Unlearned ssh w₁
  accepted : ∀ conn g, w.guards conn = some g → g.acceptedFp ≠ none →
    ∃ g₁, w₁.guards conn = some g₁ ∧ g₁.acceptedFp ≠ none
  mine : ∀ conn g, w.guards conn = some g → g.owner = t →
    ∃ rejected, w₁.guards conn = some { g with rejected := rejected }

theorem Known.kept (known : Known w f) (kept : Kept w w₁) : Known w₁ f := by
  obtain ⟨v, stored, normal⟩ := known
  have same := kept v stored (by rw [normal]; exact nofun)
  exact ⟨v, same.trans stored, normal⟩

theorem Kept.trans (first : Kept w w₁) (second : Kept w₁ w₂) : Kept w w₂ := by
  intro v stored normal
  have same := first v stored normal
  exact (second v (same.trans stored) normal).trans same

theorem Keeps.refl (ssh : Ssh Key) (t : Nat) (w : HostKeys Key) : Keeps ssh t w w where
  kept _ _ _ := rfl
  unlearned h := h
  accepted _ g found some_ := ⟨g, found, some_⟩
  mine _ g found _ := ⟨g.rejected, found⟩

theorem Keeps.trans (first : Keeps ssh t w w₁) (second : Keeps ssh t w₁ w₂) : Keeps ssh t w w₂ where
  kept := first.kept.trans second.kept
  unlearned h := second.unlearned (first.unlearned h)
  accepted conn g found some_ := by
    obtain ⟨g₁, found₁, some₁⟩ := first.accepted conn g found some_
    exact second.accepted conn g₁ found₁ some₁
  mine conn g found own := by
    obtain ⟨rejected, found₁⟩ := first.mine conn g found own
    exact second.mine conn { g with rejected := rejected } found₁ own

/-- The connections to the device as a team. -/
def hostKeyTeam (ssh : Ssh Key) : Threads.Team (HostKeyOp.Res : HostKeyOp Key → Type) (HostKeys Key) where
  exec := ssh.exec
  inv := AllHeld ssh
  rely := Keeps ssh
  guarantee _ _ w _ w₁ := Kept w w₁
  idle _ _ := True
  rely_refl := Keeps.refl ssh
  rely_trans _ _ _ _ := Keeps.trans

variable {g : Guard Key}

theorem Held.congr (held : Held ssh w g) (same : w₁.stored = w.stored) : Held ssh w₁ g := by
  have unlearned : Unlearned ssh w → Unlearned ssh w₁ := by
    unfold Unlearned
    rw [same]
    exact id
  have known : ∀ f, Known w f → Known w₁ f := by
    unfold Known
    rw [same]
    exact fun _ known => known
  refine ⟨fun pending => unlearned (held.pending pending), fun f accepted => ?_, held.unaccepted, held.confirmed⟩
  obtain ⟨key, holds⟩ := held.accepted f accepted
  exact ⟨key, holds.imp_right fun stored => ⟨stored.1, known f stored.2⟩⟩

theorem setGuard_guards (w : HostKeys Key) (conn : Nat) (set : Guard Key → Guard Key) :
    (w.setGuard conn set).guards = Function.update w.guards conn ((w.guards conn).map set) := rfl

theorem setGuard_cases {set : Guard Key → Guard Key} {other : Nat}
    (found : (w.setGuard conn set).guards other = some g) :
    other = conn ∧ (∃ before, w.guards conn = some before ∧ g = set before) ∨ other ≠ conn ∧ w.guards other = some g := by
  by_cases same : other = conn
  · rw [same, setGuard_guards, Function.update_self] at found
    obtain ⟨before, known, rfl⟩ := Option.map_eq_some_iff.mp found
    exact .inl ⟨same, before, known, rfl⟩
  · rw [setGuard_guards, Function.update_of_ne same] at found
    exact .inr ⟨same, found⟩

theorem setGuard_self {set : Guard Key → Guard Key} (found : w.guards conn = some g) :
    (w.setGuard conn set).guards conn = some (set g) := by
  rw [setGuard_guards, Function.update_self, found]
  rfl

theorem setGuard_of_ne {set : Guard Key → Guard Key} {other : Nat} (apart : other ≠ conn) :
    (w.setGuard conn set).guards other = w.guards other := Function.update_of_ne apart _ _

theorem AllHeld.setGuard (all : AllHeld ssh w) {set : Guard Key → Guard Key}
    (held : ∀ g, w.guards conn = some g → Held ssh w (set g)) : AllHeld ssh (w.setGuard conn set) := by
  intro other g found
  obtain ⟨-, before, known, rfl⟩ | ⟨-, known⟩ := setGuard_cases found
  · exact (held before known).congr rfl
  · exact (all other g known).congr rfl

theorem keeps_setGuard {u : Nat} {set : Guard Key → Guard Key}
    (accepted : ∀ g, w.guards conn = some g → g.acceptedFp ≠ none → (set g).acceptedFp ≠ none)
    (mine : ∀ g, w.guards conn = some g → g.owner = u → ∃ rejected, set g = { g with rejected := rejected }) :
    Keeps ssh u w (w.setGuard conn set) where
  kept _ _ _ := rfl
  unlearned h := h
  accepted other g found some_ := by
    by_cases same : other = conn
    · subst same
      exact ⟨set g, setGuard_self found, accepted g found some_⟩
    · exact ⟨g, (setGuard_of_ne same).trans found, some_⟩
  mine other g found own := by
    by_cases same : other = conn
    · subst same
      obtain ⟨rejected, changed⟩ := mine g found own
      exact ⟨rejected, (setGuard_self found).trans (congrArg some changed)⟩
    · exact ⟨g.rejected, (setGuard_of_ne same).trans found⟩

/-- The operations that touch neither the column nor what a guard has accepted. -/
def Mild : HostKeyOp Key → Prop
  | .present _ | .authenticated _ | .rekey _ | .guard _ | .loadKnownHostKey | .reject .. | .logAudit _ => True
  | _ => False

theorem mild_exec {o : HostKeyOp Key} {answer : o.Res} (mild : Mild o) (run : ssh.exec t o w answer w₁)
    (all : AllHeld ssh w) : AllHeld ssh w₁ ∧ ∀ u, Keeps ssh u w w₁ := by
  cases o with
  | connect | accept _ _ _ | learn _ | learned _ | confirmed _ => exact mild.elim
  | present _ | authenticated _ =>
    cases run
    exact ⟨all, fun u => Keeps.refl ssh u w⟩
  | rekey _ | guard _ | loadKnownHostKey =>
    cases run.1
    exact ⟨all, fun u => Keeps.refl ssh u w⟩
  | reject conn message =>
    cases run
    refine ⟨all.setGuard fun g found => ?_, fun u => keeps_setGuard (fun _ _ some_ => some_) fun g _ _ => ⟨_, rfl⟩⟩
    have held := all conn g found
    exact ⟨held.pending, held.accepted, held.unaccepted, held.confirmed⟩
  | logAudit entry =>
    obtain rfl | rfl := run
    · exact ⟨all, fun u => Keeps.refl ssh u w₁⟩
    · refine ⟨fun conn g found => (all conn g found).congr rfl, fun u => ?_⟩
      exact ⟨fun _ _ _ => rfl, id, fun _ g found some_ => ⟨g, found, some_⟩, fun _ g found _ => ⟨g.rejected, found⟩⟩

variable {α : Type} {post : α → HostKeys Key → Prop}

/-- A mild operation in front of a program leaves what is known up to `Keeps`. -/
theorem safe_mild {o : HostKeyOp Key} {next : o.Res → HostKeyProgram Key α} (mild : Mild o)
    (resume : ∀ answer w₁ w₂, Keeps ssh t w w₁ → AllHeld ssh w₁ → ssh.exec t o w₁ answer w₂ → Keeps ssh t w₁ w₂ →
      AllHeld ssh w₂ → ((hostKeyTeam ssh).rules t).Safe post (next answer) w₂) :
    ((hostKeyTeam ssh).rules t).Safe post (Program.perform o >>= next) w := by
  intro w₁ keeps all answer w₂ run
  obtain ⟨all₂, keeps₂⟩ := mild_exec mild run all
  exact ⟨all₂, ⟨fun u _ => keeps₂ u, (keeps₂ t).kept⟩, resume answer w₁ w₂ keeps all run (keeps₂ t) all₂⟩

/-- The guard of a connection of the run `t`, and what it has accepted. -/
def Owns (w : HostKeys Key) (t conn : Nat) (pending accepted : Option Text) : Prop :=
  ∃ g, w.guards conn = some g ∧ g.owner = t ∧ g.pendingFp = pending ∧ g.acceptedFp = accepted

theorem Owns.keeps {pending accepted : Option Text} (owns : Owns w t conn pending accepted) (keeps : Keeps ssh t w w₁) :
    Owns w₁ t conn pending accepted := by
  obtain ⟨g, found, own, rest⟩ := owns
  obtain ⟨rejected, found₁⟩ := keeps.mine conn g found own
  exact ⟨_, found₁, own, rest⟩

theorem connect_step (run : ssh.exec t .connect w conn w₁) (all : AllHeld ssh w) :
    AllHeld ssh w₁ ∧ (∀ u, Keeps ssh u w w₁) ∧ Owns w₁ t conn none none := by
  obtain ⟨fresh, rfl⟩ := run
  have others : ∀ other g, w.guards other = some g → other ≠ conn := by
    rintro other g found rfl
    rw [fresh] at found
    cases found
  have stays : ∀ other g, w.guards other = some g →
      Function.update w.guards conn (some ⟨t, none, none, none, none, false⟩) other = some g := by
    intro other g found
    rw [Function.update_of_ne (others other g found)]
    exact found
  refine ⟨fun other g found => ?_, fun u => ⟨fun _ _ _ => rfl, id, ?_, ?_⟩, ?_⟩
  · change Function.update w.guards conn _ other = some g at found
    by_cases same : other = conn
    · rw [same, Function.update_self] at found
      cases found
      exact ⟨fun pending => absurd rfl pending, nofun, fun _ => rfl, nofun⟩
    · rw [Function.update_of_ne same] at found
      exact (all other g found).congr rfl
  · exact fun other g found some_ => ⟨g, stays other g found, some_⟩
  · exact fun other g found _ => ⟨g.rejected, stays other g found⟩
  · exact ⟨_, Function.update_self _ _ _, rfl, rfl, rfl⟩

theorem accept_step {key : Key} {pending : Bool} (run : ssh.exec t (.accept conn key pending) w () w₁)
    (all : AllHeld ssh w) (owns : Owns w t conn none none)
    (first : pending = true → Unlearned ssh w) (known : pending = false → Known w (ssh.hostKeyFingerprint key)) :
    AllHeld ssh w₁ ∧ (∀ u, u ≠ t → Keeps ssh u w w₁) ∧ Kept w w₁ ∧
    Owns w₁ t conn (if pending then some (ssh.hostKeyFingerprint key) else none)
      (some (ssh.hostKeyFingerprint key)) := by
  cases run
  obtain ⟨g, found, own, none_, unaccepted⟩ := owns
  refine ⟨all.setGuard fun g' found' => ?_, fun u apart => keeps_setGuard (fun _ _ _ => nofun) fun g' found' own' => ?_,
    fun _ _ _ => rfl, ⟨_, setGuard_self found, own, ?_, rfl⟩⟩
  · cases found.symm.trans found'
    have held := all conn g found
    refine ⟨fun waits => ?_, fun f accepted => ?_, nofun, fun confirmed => absurd unaccepted (held.confirmed confirmed).1⟩
    · cases pending with
      | true => exact first rfl
      | false => exact absurd none_ waits
    · cases accepted
      refine ⟨⟨key, rfl, rfl⟩, ?_⟩
      cases pending with
      | true => exact .inl rfl
      | false => exact .inr ⟨none_, known rfl⟩
  · cases found.symm.trans found'
    exact absurd (own'.symm.trans own) apart
  · cases pending with
    | true => rfl
    | false => exact none_

/-- The row after the UPDATE: untouched, or with a first fingerprint. -/
theorem learn_cases (ssh : Ssh Key) (fp : Text) (stored : Option (Option Text)) :
    (ssh.learn fp stored).2 = stored ∧ (ssh.learn fp stored).1 = 0 ∨
    (∃ v, stored = some v ∧ ssh.space.absent v = true) ∧ (ssh.learn fp stored).2 = some (some fp) := by
  unfold Ssh.learn
  split
  case h_1 => exact .inl ⟨rfl, rfl⟩
  case h_2 v =>
    split
    case isTrue absent => exact .inr ⟨⟨v, rfl, absent⟩, rfl⟩
    case isFalse => exact .inl ⟨rfl, rfl⟩

theorem learn_step {fp : Text} {answer : Option Nat} (run : ssh.exec t (.learn fp) w answer w₁) (all : AllHeld ssh w)
    (owns : Owns w t conn (some fp) (some fp)) :
    AllHeld ssh w₁ ∧ (∀ u, Keeps ssh u w w₁) ∧ (answer = some 1 → Known w₁ fp) := by
  obtain ⟨g, found, -, pending, accepted⟩ := owns
  have held := all conn g found
  have unlearned : Unlearned ssh w := held.pending (by rw [pending]; exact nofun)
  obtain ⟨⟨key, -, rfl⟩, -⟩ := held.accepted fp accepted
  obtain ⟨rfl, rfl⟩ | ⟨answered, rfl⟩ := run
  · exact ⟨all, fun u => Keeps.refl ssh u w₁, nofun⟩
  obtain ⟨same, zero⟩ | ⟨⟨v, stored, absent⟩, written⟩ := learn_cases ssh (ssh.hostKeyFingerprint key) w.stored
  · rw [same]
    refine ⟨all, fun u => Keeps.refl ssh u w, fun one => ?_⟩
    rw [one, zero] at answered
    rcases answered with none_ | zero
    · cases none_
    · cases zero
  · rw [written]
    have first : normalizeFingerprint v = none := by
      refine (unlearned v stored).resolve_right fun present => ?_
      rw [absent] at present
      cases present
    have after : Unlearned ssh { w with stored := some (some (ssh.hostKeyFingerprint key)) } := by
      intro v' stored'
      cases stored'
      exact .inr (ssh.fingerprint_present key)
    have kept : Kept w { w with stored := some (some (ssh.hostKeyFingerprint key)) } := by
      intro v' stored' normal
      cases stored.symm.trans stored'
      exact absurd first normal
    refine ⟨fun other g' found' => ?_, fun u => ⟨kept, fun _ => after, ?_, ?_⟩, fun _ => ?_⟩
    · have held := all other g' found'
      refine ⟨fun _ => after, fun f accepted => ?_, held.unaccepted, held.confirmed⟩
      obtain ⟨made, holds⟩ := held.accepted f accepted
      exact ⟨made, holds.imp_right fun known => ⟨known.1, known.2.kept kept⟩⟩
    · exact fun _ g found some_ => ⟨g, found, some_⟩
    · exact fun _ g found _ => ⟨g.rejected, found⟩
    · exact ⟨_, rfl, ssh.normalize_fingerprint key⟩

theorem learned_step {fp : Text} (run : ssh.exec t (.learned conn) w () w₁) (all : AllHeld ssh w)
    (owns : Owns w t conn (some fp) (some fp)) (known : Known w fp) :
    AllHeld ssh w₁ ∧ (∀ u, u ≠ t → Keeps ssh u w w₁) ∧ Kept w w₁ ∧ Owns w₁ t conn none (some fp) := by
  cases run
  obtain ⟨g, found, own, -, accepted⟩ := owns
  refine ⟨all.setGuard fun g' found' => ?_, fun u apart => keeps_setGuard (fun _ _ some_ => some_) fun g' found' own' => ?_,
    fun _ _ _ => rfl, ⟨_, setGuard_self found, own, rfl, accepted⟩⟩
  · cases found.symm.trans found'
    have held := all conn g found
    refine ⟨fun waits => absurd rfl waits, fun f accepted' => ?_, fun _ => rfl, fun confirmed => ?_⟩
    · cases accepted.symm.trans accepted'
      exact ⟨(held.accepted fp accepted).1, .inr ⟨rfl, known⟩⟩
    · exact ⟨(held.confirmed confirmed).1, rfl⟩
  · cases found.symm.trans found'
    exact absurd (own'.symm.trans own) apart

theorem confirmed_step {fp : Text} (run : ssh.exec t (.confirmed conn) w () w₁) (all : AllHeld ssh w)
    (owns : Owns w t conn none (some fp)) : AllHeld ssh w₁ ∧ (∀ u, u ≠ t → Keeps ssh u w w₁) ∧ Kept w w₁ := by
  cases run
  obtain ⟨g, found, own, pending, accepted⟩ := owns
  refine ⟨all.setGuard fun g' found' => ?_, fun u apart => keeps_setGuard (fun _ _ some_ => some_) fun g' found' own' => ?_,
    fun _ _ _ => rfl⟩
  · cases found.symm.trans found'
    have held := all conn g found
    refine ⟨held.pending, held.accepted, held.unaccepted, fun _ => ⟨?_, pending⟩⟩
    rw [accepted]
    exact nofun
  · cases found.symm.trans found'
    exact absurd (own'.symm.trans own) apart

theorem safe_ret {value : α} (ended : ∀ w₁, Keeps ssh t w w₁ → AllHeld ssh w₁ → post value w₁) :
    ((hostKeyTeam ssh).rules t).Safe post (.ret value) w := ended

theorem safe_refuse {post : Bool → HostKeys Key → Prop} {message : String} (refused : ∀ w, post false w) :
    ((hostKeyTeam ssh).rules t).Safe post (do HostKeyOp.perform (.reject conn message); return false) w :=
  safe_mild trivial fun _ _ _ _ _ _ _ _ => safe_ret fun w _ _ => refused w

theorem safe_mismatch {post : Bool → HostKeys Key → Prop} {expected : Option Text} {presented : Text}
    (refused : ∀ w, post false w) :
    ((hostKeyTeam ssh).rules t).Safe post (do ssh.mismatch conn expected presented; return false) w :=
  safe_mild trivial fun _ _ _ _ _ _ _ _ => safe_mild trivial fun _ _ _ _ _ _ _ _ => safe_ret fun w _ _ => refused w

/-- At a rekey the guard has accepted a key, so the handler does nothing but compare. -/
theorem safe_rehandshake {policy : HostKeyPolicy} {key : Key} {g : Guard Key} (found : w.guards conn = some g)
    (some_ : g.acceptedFp ≠ none) :
    ((hostKeyTeam ssh).rules t).Safe (fun _ _ => True) (ssh.hostVerifier policy conn key) w := by
  refine safe_mild trivial fun answer w₁ w₂ keeps _ run _ _ => ?_
  obtain ⟨-, g₁, found₁, rfl⟩ := run
  obtain ⟨g₁', found₁', accepted⟩ := keeps.accepted conn g found some_
  cases found₁.symm.trans found₁'
  cases is : g₁.acceptedFp with
  | none => exact absurd is accepted
  | some fp =>
    dsimp only
    split
    · exact safe_ret fun _ _ _ => trivial
    · exact safe_mismatch fun _ => trivial

theorem safe_rekeying (policy : HostKeyPolicy) : (hostKeyTeam ssh).Safe t (ssh.rekeying policy conn) w := by
  refine safe_mild trivial fun answer w₁ w₂ _ _ run _ all => ?_
  obtain ⟨rfl, live⟩ := run
  cases answer with
  | none => exact safe_ret fun _ _ _ => trivial
  | some key =>
    obtain ⟨g, found, some_⟩ := live rfl
    exact Rules.Safe.bind (safe_rehandshake found (Option.isSome_iff_ne_none.mp some_)) all
      fun _ _ _ _ => safe_ret fun _ _ _ => trivial

/-- What the handler of the initial handshake answers with true: the key is accepted. -/
def Accepts (t conn : Nat) (verified : Bool) (w : HostKeys Key) : Prop :=
  verified = true → ∃ fp pending, Owns w t conn pending (some fp) ∧ (pending = none ∨ pending = some fp)

theorem safe_accept {key : Key} {pending : Bool} (owns : Owns w t conn none none)
    (first : pending = true → Unlearned ssh w) (known : pending = false → Known w (ssh.hostKeyFingerprint key)) :
    ((hostKeyTeam ssh).rules t).Safe (Accepts t conn)
      (do HostKeyOp.perform (.accept conn key pending); return true) w := by
  intro w₁ keeps all _ w₂ run
  obtain ⟨all₂, others, kept, owns₂⟩ := accept_step run all (owns.keeps keeps)
    (fun h => keeps.unlearned (first h)) (fun h => (known h).kept keeps.kept)
  refine ⟨all₂, ⟨others, kept⟩, safe_ret fun w₃ keeps₃ _ _ => ⟨_, _, owns₂.keeps keeps₃, ?_⟩⟩
  cases pending with
  | true => exact .inr rfl
  | false => exact .inl rfl

/-- What a query that has not failed has read of the row. -/
theorem read_cases {known : Option (Option Text)}
    (read : some known = none ∨ some known = some (w.stored.map normalizeFingerprint)) :
    known = w.stored.map normalizeFingerprint := by
  rcases read with none_ | same
  · cases none_
  · exact Option.some.inj same

theorem safe_hostVerifier {policy : HostKeyPolicy} {key : Key} (owns : Owns w t conn none none) :
    ((hostKeyTeam ssh).rules t).Safe (Accepts t conn) (ssh.hostVerifier policy conn key) w := by
  have refused : ∀ w : HostKeys Key, Accepts t conn false w := fun _ => nofun
  refine safe_mild trivial fun answer w₁ w₂ keeps _ run keeps₂ _ => ?_
  obtain ⟨-, g, found, rfl⟩ := run
  have owns := owns.keeps keeps
  obtain ⟨g', found', -, -, unaccepted⟩ := id owns
  cases found.symm.trans found'
  simp only [unaccepted]
  refine safe_mild trivial fun answer w₃ w₄ keeps₃ _ run keeps₄ _ => ?_
  obtain ⟨rfl, read⟩ := run
  have owns := (owns.keeps keeps₂).keeps keeps₃
  rcases answer with _ | _ | _ | known
  · exact safe_refuse refused
  · exact safe_refuse refused
  · cases policy with
    | strict => exact safe_refuse refused
    | tofu =>
      refine safe_accept owns (fun _ v stored => .inl ?_) nofun
      have absent := read_cases read
      rw [stored] at absent
      exact (Option.some.inj absent).symm
  · dsimp only
    split
    case isFalse => exact safe_mismatch refused
    case isTrue same =>
      refine safe_accept owns nofun fun _ => ?_
      obtain ⟨v, stored, normal⟩ := Option.map_eq_some_iff.mp (read_cases read).symm
      rw [same]
      exact ⟨v, stored, normal⟩

/-- `confirm` answers with true when the key that the guard has accepted is the stored one. -/
def Confirms (t conn : Nat) (fp : Text) (ok : Bool) (w : HostKeys Key) : Prop :=
  ok = true → Owns w t conn none (some fp)

theorem safe_learned {fp : Text} {next : HostKeyProgram Key Bool} (owns : Owns w t conn (some fp) (some fp))
    (known : Known w fp) (resume : ∀ w₁, Owns w₁ t conn none (some fp) →
      ((hostKeyTeam ssh).rules t).Safe (Confirms t conn fp) next w₁) :
    ((hostKeyTeam ssh).rules t).Safe (Confirms t conn fp) (do HostKeyOp.perform (.learned conn); next) w := by
  intro w₁ keeps all _ w₂ run
  obtain ⟨all₂, others, kept, owns₂⟩ := learned_step run all (owns.keeps keeps) (known.kept keeps.kept)
  exact ⟨all₂, ⟨others, kept⟩, resume w₂ owns₂⟩

theorem safe_confirm {fp : Text} {pending : Option Text} (owns : Owns w t conn pending (some fp))
    (cases_ : pending = none ∨ pending = some fp) :
    ((hostKeyTeam ssh).rules t).Safe (Confirms t conn fp) (ssh.confirm conn) w := by
  have refused : ∀ w : HostKeys Key, Confirms t conn fp false w := fun _ => nofun
  refine safe_mild trivial fun answer w₁ w₂ keeps _ run keeps₂ _ => ?_
  obtain ⟨-, g, found, rfl⟩ := run
  have owns := owns.keeps keeps
  obtain ⟨g', found', -, waits, -⟩ := id owns
  cases found.symm.trans found'
  have owns := owns.keeps keeps₂
  cases g.rejected with
  | some _ => exact safe_ret fun w _ _ => refused w
  | none =>
    rw [waits]
    obtain rfl | rfl := cases_
    · exact safe_ret fun _ keeps _ _ => owns.keeps keeps
    intro w₃ keeps₃ all₃ rowCount w₄ run₄
    have owns := owns.keeps keeps₃
    obtain ⟨all₄, keeps₄, known⟩ := learn_step run₄ all₃ owns
    have owns := owns.keeps (keeps₄ t)
    refine ⟨all₄, ⟨fun u _ => keeps₄ u, (keeps₄ t).kept⟩, ?_⟩
    dsimp only
    rw [Program.ret_bind]
    split
    case h_1 => exact safe_refuse refused
    case h_2 =>
      refine safe_learned owns (known rfl) fun w₁ owns => ?_
      refine safe_mild trivial fun _ w₂ w₃ keeps _ _ keeps' _ => ?_
      exact safe_ret fun _ keeps'' _ _ => ((owns.keeps keeps).keeps keeps').keeps keeps''
    case h_3 =>
      refine safe_mild trivial fun answer w₅ w₆ keeps₅ _ run keeps₆ _ => ?_
      obtain ⟨rfl, read⟩ := run
      have owns := owns.keeps keeps₅
      rcases answer with _ | _ | stored
      · exact safe_refuse refused
      · exact safe_refuse refused
      · dsimp only
        split
        case isFalse => exact safe_mismatch refused
        case isTrue same =>
          subst same
          obtain ⟨v, row, normal⟩ := Option.map_eq_some_iff.mp (read_cases read).symm
          refine safe_learned owns ⟨v, row, normal⟩ fun w₁ owns => ?_
          exact safe_ret fun _ keeps _ _ => owns.keeps keeps

theorem safe_connection (policy : HostKeyPolicy) : (hostKeyTeam ssh).Safe t (ssh.connection policy) w := by
  intro w₁ keeps all conn w₂ run
  obtain ⟨all₂, keeps₂, owns⟩ := connect_step run all
  refine ⟨all₂, ⟨fun u _ => keeps₂ u, (keeps₂ t).kept⟩, ?_⟩
  refine safe_mild trivial fun key w₃ w₄ keeps₃ _ _ keeps₄ all₄ => ?_
  refine Rules.Safe.bind (safe_hostVerifier ((owns.keeps keeps₃).keeps keeps₄)) all₄ fun verified w₅ _ accepts => ?_
  cases verified with
  | false => exact safe_ret fun _ _ _ => trivial
  | true =>
    obtain ⟨fp, pending, owns, cases_⟩ := accepts rfl
    refine safe_mild trivial fun ready w₆ w₇ keeps₆ _ _ keeps₇ all₇ => ?_
    cases ready with
    | false => exact safe_ret fun _ _ _ => trivial
    | true =>
      refine Rules.Safe.bind (safe_confirm ((owns.keeps keeps₆).keeps keeps₇) cases_) all₇ fun ok w₈ _ confirms => ?_
      cases ok with
      | false => exact safe_ret fun _ _ _ => trivial
      | true =>
        intro w₉ keeps₉ all₉ _ w₁₀ run₁₀
        obtain ⟨all₁₀, others, kept⟩ := confirmed_step run₁₀ all₉ ((confirms rfl).keeps keeps₉)
        exact ⟨all₁₀, ⟨others, kept⟩, safe_ret fun _ _ _ => trivial⟩

theorem hostKeys_verified (ssh : Ssh Key) : ssh.connections.Verified (hostKeyTeam ssh) where
  exec run := run
  env _ moves := moves.elim
  entry allowed _ _ := by
    cases allowed with
    | connection => exact safe_connection _
    | rekeying => exact safe_rekeying _
  drop {_ w} all := ⟨all, fun _ _ _ => trivial, fun u _ => Keeps.refl ssh u w⟩

/-- Any row, and no connection yet. -/
def HostKeys.Start (w : HostKeys Key) : Prop := ∀ conn, w.guards conn = none

theorem hostKeys_initial (w : HostKeys Key) (start : w.Start) :
    AllHeld ssh w ∧ ∀ t w₁, Keeps ssh t w w₁ → AllHeld ssh w₁ → True := by
  refine ⟨fun conn g found => ?_, fun _ _ _ _ => trivial⟩
  rw [start conn] at found
  cases found

/-- Along every run, whatever the servers present and the database answers: the connections
that `confirm` has let through have accepted one key, but for a collision of the hash
function, and it is the stored one; and no step replaces a fingerprint that
`normalizeFingerprint` keeps. -/
theorem host_key_pinned {c : Threads.Config (HostKeyOp.Res : HostKeyOp Key → Type) (HostKeys Key)}
    (reach : ssh.connections.Reach HostKeys.Start c) :
    (∀ conn g, c.world.guards conn = some g → g.confirmed = true →
      ∃ key v, g.key = some key ∧ c.world.stored = some v ∧
        normalizeFingerprint v = some (ssh.hostKeyFingerprint key)) ∧
    (∀ conn other g g' key key', c.world.guards conn = some g → c.world.guards other = some g' →
      g.confirmed = true → g'.confirmed = true → g.key = some key → g'.key = some key' →
      key = key' ∨ key ≠ key' ∧ ssh.sha256 key = ssh.sha256 key') ∧
    ∀ c₁, ssh.connections.Step c c₁ → ∀ v, c.world.stored = some v → normalizeFingerprint v ≠ none →
      c₁.world.stored = c.world.stored := by
  have verified := hostKeys_verified ssh
  have all : AllHeld ssh c.world := reach.inv verified hostKeys_initial
  have pinned : ∀ conn g, c.world.guards conn = some g → g.confirmed = true →
      ∃ key v, g.key = some key ∧ c.world.stored = some v ∧
        normalizeFingerprint v = some (ssh.hostKeyFingerprint key) := by
    intro conn g found confirmed
    have held := all conn g found
    obtain ⟨some_, none_⟩ := held.confirmed confirmed
    obtain ⟨fp, accepted⟩ := Option.ne_none_iff_exists'.mp some_
    obtain ⟨⟨key, is, rfl⟩, pending | ⟨-, v, stored, normal⟩⟩ := held.accepted fp accepted
    · rw [none_] at pending
      cases pending
    · exact ⟨key, v, is, stored, normal⟩
  refine ⟨pinned, fun conn other g g' key key' found found' confirmed confirmed' is is' => ?_, fun c₁ step => ?_⟩
  · obtain ⟨k, v, same, stored, normal⟩ := pinned conn g found confirmed
    obtain ⟨k', v', same', stored', normal'⟩ := pinned other g' found' confirmed'
    cases is.symm.trans same
    cases is'.symm.trans same'
    cases stored.symm.trans stored'
    have hash := ssh.fingerprint_inj (Option.some.inj (normal.symm.trans normal'))
    by_cases one : key = key'
    · exact .inl one
    · exact .inr ⟨one, hash⟩
  · cases step with
    | start | die => exact fun _ _ _ => rfl
    | env moves => exact moves.elim
    | op t next run => exact reach.guarantee verified hostKeys_initial next run

/-- The device PC-7, and a server whose key is the empty text: the digest is its SHA-256. -/
def pc7 : Ssh (List UInt8) where
  hostname := "PC-7"
  sha256 _ := [227, 176, 196, 66, 152, 252, 28, 20, 154, 251, 244, 200, 153, 111, 185, 36, 39, 174, 65, 228, 100, 155,
    147, 76, 164, 149, 153, 27, 120, 82, 184, 85]
  length _ := rfl
  space.mem c := c ∈ ['\t', '\n', '\u000b', '\u000c', '\r', ' ']
  space.digit c member := by
    have all : Base64.alphabet.all (fun c => c ∉ ['\t', '\n', '\u000b', '\u000c', '\r', ' ']) = true := by
      decide
    exact decide_eq_false (of_decide_eq_true (List.all_eq_true.mp all c member))

/-- Its first contact: the guard has accepted the key, and `confirm` has stored it. -/
def contacted : HostKeys (List UInt8) :=
  let connected : HostKeys (List UInt8) := ⟨some none, Function.update (fun _ => none) 0
    (some ⟨0, none, none, none, none, false⟩), []⟩
  let accepted := connected.setGuard 0 fun g => { g with
    pendingFp := some (pc7.hostKeyFingerprint [])
    acceptedFp := some (pc7.hostKeyFingerprint [])
    key := some [] }
  let stored := { accepted with stored := (pc7.learn (pc7.hostKeyFingerprint []) (some none)).2 }
  (stored.setGuard 0 fun g => { g with pendingFp := none }).setGuard 0 fun g => { g with confirmed := true }

theorem contacted_reach : ∃ runs, pc7.connections.Reach HostKeys.Start ⟨contacted, runs⟩ := by
  have r : pc7.connections.Reach HostKeys.Start ⟨⟨some none, fun _ => none, []⟩, fun _ => .ret ()⟩ := .init fun _ => rfl
  have r := r.begins 0 (pc7.connection .tofu) rfl .connection
  have r := r.perform 0 rfl (0 : Nat) _ ⟨rfl, rfl⟩
  have r := r.perform 0 rfl ([] : List UInt8) _ rfl
  have r := r.perform 0 rfl (none, none, none) _ ⟨rfl, _, rfl, rfl⟩
  have r := r.perform 0 rfl (some (some none)) _ ⟨rfl, .inr rfl⟩
  have r := r.perform 0 rfl () _ rfl
  have r := r.perform 0 rfl true _ rfl
  have r := r.perform 0 rfl (some (pc7.hostKeyFingerprint []), some (pc7.hostKeyFingerprint []), none) _
    ⟨rfl, _, rfl, rfl⟩
  have r := r.perform 0 rfl (some 1) _ (.inr ⟨.inr rfl, rfl⟩)
  have r := r.perform 0 rfl () _ rfl
  have r := r.perform 0 rfl () _ (.inl rfl)
  have r := r.perform 0 rfl () _ rfl
  exact ⟨_, r⟩

theorem host_key_pinned_first : ∃ key v, some [] = some key ∧ contacted.stored = some v ∧
    normalizeFingerprint v = some (pc7.hostKeyFingerprint key) := by
  obtain ⟨runs, reach⟩ := contacted_reach
  exact (host_key_pinned reach).1 0 _ rfl rfl

end Opale.Remote
