import Opale.Codec.Base64
import Opale.Effects.Threads
import Opale.Js.Spaces

namespace Opale.Remote

open Js (trim)

abbrev Text := List Char

/-- `replace(/^SHA256:/i, '')` -/
def withoutLabel (text : Text) : Text :=
  if (text.take 7).map Char.toLower = "sha256:".toList then text.drop 7 else text

def normalizeFingerprint (fp : Option Text) : Option Text :=
  match fp with
  | none => none
  | some fp =>
    let v := Base64.unpad (trim (withoutLabel (trim fp)))
    if v = [] then none else some v

/-- The class `[[:space:]]` of PostgreSQL, which holds no letter, digit, plus or slash. -/
structure SpaceClass where
  mem : Char → Bool
  digit : ∀ c ∈ Base64.alphabet, mem c = false

/-- `~* '^[[:space:]\u00a0]*(sha256:)?[[:space:]\u00a0=]*$'` -/
def SpaceClass.blank (space : SpaceClass) (fp : Text) : Bool :=
  (withoutLabel (fp.dropWhile fun c => space.mem c || c = '\u00a0')).all fun c => space.mem c || c = '\u00a0' || c = '='

/-- The condition of the UPDATE on `ssh_host_key_fp`. -/
def SpaceClass.absent (space : SpaceClass) : Option Text → Bool
  | none => true
  | some fp => space.blank fp

inductive HostKeyPolicy where
  | tofu | strict
  deriving Repr, DecidableEq

inductive HostKeyAudit where
  | mismatch (expected : Option Text) (presented : Text)
  | learned (fingerprint : Text)
  deriving DecidableEq

/-- The variables of one `hostKeyGuard`. The first field and the last two are bookkeeping:
the run of its connection, the key accepted at the initial handshake, and whether `confirm`
has resolved true. -/
structure Guard (Key : Type) where
  owner : Nat
  pendingFp : Option Text
  acceptedFp : Option Text
  rejected : Option String
  key : Option Key
  confirmed : Bool

/-- The row of the device, if there is one, and the guards of the connections to it. -/
structure HostKeys (Key : Type) where
  stored : Option (Option Text)
  guards : Nat → Option (Guard Key)
  audits : List HostKeyAudit

/-- The device, its server's hash function and its database. -/
structure Ssh (Key : Type) where
  hostname : String
  sha256 : Key → List UInt8
  length : ∀ key, (sha256 key).length = 32
  space : SpaceClass

section

variable {Key : Type}

namespace Ssh

variable (ssh : Ssh Key)

def hostKeyFingerprint (key : Key) : Text := Base64.unpad (Base64.encodeChars (ssh.sha256 key))

def unexpected : String :=
  "Clé d'hôte SSH inattendue pour " ++ ssh.hostname ++ ". La connexion a été refusée. " ++
    "Si le poste a été réinstallé, réinitialisez son empreinte depuis sa fiche ; " ++
    "sinon, traitez l'incident comme une possible interception."

def impossible : String :=
  "Vérification de la clé d'hôte SSH de " ++ ssh.hostname ++ " impossible. La connexion a été refusée."

def notFound : String := "Poste " ++ ssh.hostname ++ " introuvable."

def unprovisioned : String :=
  "Aucune empreinte SSH enregistrée pour " ++ ssh.hostname ++ " et la politique est « strict ». " ++
    "Provisionnez l'empreinte avant de vous connecter."

/-- The UPDATE of `confirm` on the row: its `rowCount`, and what it leaves. -/
def learn (fp : Text) (stored : Option (Option Text)) : Nat × Option (Option Text) :=
  match stored with
  | none => (0, none)
  | some v => if ssh.space.absent v then (1, some (some fp)) else (0, some v)

end Ssh

/-- What a connection waits for, and the stretches of its code in between. The calls of ssh2
are operations too: the server presents a key at the handshake and at each rekey, and it may
accept the login. -/
inductive HostKeyOp (Key : Type) where
  | connect
  | present (conn : Nat)
  | authenticated (conn : Nat)
  | rekey (conn : Nat)
  | guard (conn : Nat)
  | loadKnownHostKey
  | accept (conn : Nat) (key : Key) (pending : Bool)
  | reject (conn : Nat) (message : String)
  | logAudit (entry : HostKeyAudit)
  | learn (fp : Text)
  | learned (conn : Nat)
  | confirmed (conn : Nat)

/-- A query answers none when it throws. -/
abbrev HostKeyOp.Res : HostKeyOp Key → Type
  | .connect => Nat
  | .present _ => Key
  | .authenticated _ => Bool
  | .rekey _ => Option Key
  | .guard _ => Option Text × Option Text × Option String
  | .loadKnownHostKey => Option (Option (Option Text))
  | .learn _ => Option Nat
  | .accept .. | .reject .. | .logAudit _ | .learned _ | .confirmed _ => Unit

namespace HostKeys

def setGuard (w : HostKeys Key) (conn : Nat) (set : Guard Key → Guard Key) : HostKeys Key :=
  { w with guards := Function.update w.guards conn ((w.guards conn).map set) }

end HostKeys

/-- What the operation of the run `t` may answer, and what it makes of the world. A query
that throws may have been carried out. -/
def Ssh.exec (ssh : Ssh Key) (t : Nat) : (o : HostKeyOp Key) → HostKeys Key → o.Res → HostKeys Key → Prop
  | .connect, w, conn, w₁ => w.guards conn = none ∧
    w₁ = { w with guards := Function.update w.guards conn (some ⟨t, none, none, none, none, false⟩) }
  | .present _, w, _, w₁ | .authenticated _, w, _, w₁ => w₁ = w
  | .rekey conn, w, answer, w₁ => w₁ = w ∧ (answer.isSome → ∃ g, w.guards conn = some g ∧ g.acceptedFp.isSome)
  | .guard conn, w, answer, w₁ => w₁ = w ∧ ∃ g, w.guards conn = some g ∧ answer = (g.pendingFp, g.acceptedFp, g.rejected)
  | .loadKnownHostKey, w, answer, w₁ => w₁ = w ∧ (answer = none ∨ answer = some (w.stored.map normalizeFingerprint))
  | .accept conn key pending, w, _, w₁ => w₁ = w.setGuard conn fun g => { g with
      pendingFp := if pending then some (ssh.hostKeyFingerprint key) else g.pendingFp
      acceptedFp := some (ssh.hostKeyFingerprint key)
      key := some key }
  | .reject conn message, w, _, w₁ =>
    w₁ = w.setGuard conn fun g => { g with rejected := some (g.rejected.getD message) }
  | .logAudit entry, w, _, w₁ => w₁ = w ∨ w₁ = { w with audits := entry :: w.audits }
  | .learn fp, w, answer, w₁ => answer = none ∧ w₁ = w ∨
    (answer = none ∨ answer = some (ssh.learn fp w.stored).1) ∧ w₁ = { w with stored := (ssh.learn fp w.stored).2 }
  | .learned conn, w, _, w₁ => w₁ = w.setGuard conn fun g => { g with pendingFp := none }
  | .confirmed conn, w, _, w₁ => w₁ = w.setGuard conn fun g => { g with confirmed := true }

abbrev HostKeyProgram (Key : Type) : Type → Type := Program (HostKeyOp.Res : HostKeyOp Key → Type)

abbrev HostKeyOp.perform (o : HostKeyOp Key) : HostKeyProgram Key o.Res := Program.perform o

namespace Ssh

variable (ssh : Ssh Key)

def mismatch (conn : Nat) (expected : Option Text) (presented : Text) : HostKeyProgram Key Unit := do
  HostKeyOp.perform (.logAudit (.mismatch expected presented))
  HostKeyOp.perform (.reject conn ssh.unexpected)

/-- The handler that ssh2 calls at each handshake of the connection. -/
def hostVerifier (policy : HostKeyPolicy) (conn : Nat) (key : Key) : HostKeyProgram Key Bool := do
  let (_, accepted, _) ← HostKeyOp.perform (.guard conn)
  match accepted with
  | some accepted =>
    -- A rekey has to present the key of the initial handshake.
    if ssh.hostKeyFingerprint key = accepted then return true
    else
      ssh.mismatch conn (some accepted) (ssh.hostKeyFingerprint key)
      return false
  | none =>
    match ← HostKeyOp.perform .loadKnownHostKey with
    | none =>
      HostKeyOp.perform (.reject conn ssh.impossible)
      return false
    | some none =>
      HostKeyOp.perform (.reject conn ssh.notFound)
      return false
    | some (some (some known)) =>
      if ssh.hostKeyFingerprint key = known then
        HostKeyOp.perform (.accept conn key false)
        return true
      else
        ssh.mismatch conn (some known) (ssh.hostKeyFingerprint key)
        return false
    | some (some none) =>
      match policy with
      | .strict =>
        HostKeyOp.perform (.reject conn ssh.unprovisioned)
        return false
      | .tofu =>
        HostKeyOp.perform (.accept conn key true)
        return true

def confirm (conn : Nat) : HostKeyProgram Key Bool := do
  let (pending, _, rejected) ← HostKeyOp.perform (.guard conn)
  match rejected, pending with
  | some _, _ => return false
  | none, none => return true
  | none, some fp =>
    match ← HostKeyOp.perform (.learn fp) with
    | none =>
      HostKeyOp.perform (.reject conn ssh.impossible)
      return false
    | some 1 =>
      HostKeyOp.perform (.learned conn)
      HostKeyOp.perform (.logAudit (.learned fp))
      return true
    | some _ =>
      -- Another connection has stored a fingerprint, or the device is gone.
      match ← HostKeyOp.perform .loadKnownHostKey with
      | none =>
        HostKeyOp.perform (.reject conn ssh.impossible)
        return false
      | some none =>
        HostKeyOp.perform (.reject conn ssh.notFound)
        return false
      | some (some known) =>
        if known = some fp then
          HostKeyOp.perform (.learned conn)
          return true
        else
          ssh.mismatch conn known fp
          return false

/-- A connection from its handshake to `confirm`. -/
def connection (policy : HostKeyPolicy) : HostKeyProgram Key Unit := do
  let conn ← HostKeyOp.perform .connect
  let key ← HostKeyOp.perform (.present conn)
  if ← ssh.hostVerifier policy conn key then
    if ← HostKeyOp.perform (.authenticated conn) then
      if ← ssh.confirm conn then HostKeyOp.perform (.confirmed conn)

/-- A later handshake of a connection, at any time. -/
def rekeying (policy : HostKeyPolicy) (conn : Nat) : HostKeyProgram Key Unit := do
  match ← HostKeyOp.perform (.rekey conn) with
  | some key =>
    let _ ← ssh.hostVerifier policy conn key
    return ()
  | none => return ()

inductive Entry : HostKeyProgram Key Unit → Prop
  | connection {policy} : Entry (ssh.connection policy)
  | rekeying {policy conn} : Entry (ssh.rekeying policy conn)

/-- Any number of connections to the device. -/
def connections : Threads (HostKeyOp.Res : HostKeyOp Key → Type) (HostKeys Key) where
  exec := ssh.exec
  env _ _ := False
  entry := ssh.Entry
  drop _ w := w

end Ssh

end

end Opale.Remote
