import Opale.Effects.Ledger
import Opale.Effects.Threads
import Opale.Linux.DeviceAuth

namespace Opale.Linux

/-- One API process: its clock, its nonce store, the signed requests recorded in it with
the time of their recording, and those that a request in progress has just recorded;
`used` are those handed to their route. -/
structure ApiProcess where
  clock : Int
  store : NonceStore
  recorded : List (Signed × Int)
  accepted : Ledger Signed

/-- The defaults of `createNonceStore`. -/
def nonceTtlMs : Int := 600000

def nonceMax : Nat := 50000

/-- What the operations of the request `t` answer and change. The key lookup may answer
anything: keys are enrolled, approved and revoked meanwhile. -/
def authExec (t : Nat) : (o : AuthOp) → ApiProcess → o.Res → ApiProcess → Prop
  | .now, w, millis, w₁ => millis = w.clock ∧ w₁ = w
  | .lookupKey _, w, _, w₁ | .reply _, w, _, w₁ => w₁ = w
  | .has signed, w, found, w₁ => ∃ time, w.clock ≤ time ∧ found = (w.store.has time signed.nonceId).1 ∧
      w₁ = { w with clock := time, store := (w.store.has time signed.nonceId).2 }
  | .seen signed, w, found, w₁ => ∃ time later, w.clock ≤ time ∧ time ≤ later ∧
      let answer := w.store.seen nonceTtlMs nonceMax time later signed.nonceId
      found = answer.1 ∧
        w₁ = if answer.1 then { w with clock := time, store := answer.2 }
          else ⟨later, answer.2, w.recorded ++ [(signed, later)], w.accepted.take t signed⟩
  | .accept signed _, w, _, w₁ => w₁ = { w with accepted := w.accepted.use signed }

/-- Deliveries of any requests, in any order and at any time of a clock that does not go
back; a connection may break at any point. -/
def api (node : Node) : Threads AuthOp.Res ApiProcess where
  exec := authExec
  env w w₁ := ∃ time, w.clock ≤ time ∧ w₁ = { w with clock := time }
  entry program := ∃ allowStatuses allowUnknown request,
    program = deviceAuth node allowStatuses allowUnknown request
  drop t w := { w with accepted := w.accepted.drop t }

def ApiStart (w : ApiProcess) : Prop :=
  w.store = .create ∧ w.recorded = [] ∧ w.accepted = .empty

/-- Fewer nonces are alive than the cap whenever one is recorded. -/
def FewAlive : Nat → (o : AuthOp) → ApiProcess → o.Res → ApiProcess → Prop
  | _, .seen _, w, _, _ => w.store.alive w.clock < nonceMax
  | _, _, _, _, _ => True

/-- A request that was recorded is not looked up again once its nonce has expired. -/
def RedeliveredInTime : Nat → (o : AuthOp) → ApiProcess → o.Res → ApiProcess → Prop
  | _, .seen signed, w, _, w₁ => ∀ at_, (signed, at_) ∈ w.recorded → w₁.clock < at_ + nonceTtlMs
  | _, _, _, _, _ => True

def Recorded (w : ApiProcess) (id : Text) (at_ : Int) : Prop :=
  ∃ signed, (signed, at_) ∈ w.recorded ∧ signed.nonceId = id

def Taken (w : ApiProcess) (signed : Signed) : Prop := ∃ at_, (signed, at_) ∈ w.recorded

/-- The store remembers what was recorded in its TTL, and every request accepted was
recorded, each once. -/
structure ApiInv (w : ApiProcess) : Prop where
  store : w.store.Sound nonceTtlMs w.clock (Recorded w)
  ledger : w.accepted.Valid (Taken w)

def apiTeam : Threads.Team AuthOp.Res ApiProcess where
  exec t o w answer w₁ :=
    (authExec t o w answer w₁ ∧ FewAlive t o w answer w₁) ∧ RedeliveredInTime t o w answer w₁
  inv := ApiInv
  rely t w w₁ := Ledger.Keeps t w.accepted w₁.accepted
  guarantee _ _ _ _ _ := True
  idle _ _ := True
  rely_refl t w := .refl t w.accepted
  rely_trans _ _ _ _ first second := first.trans second

variable {node : Node} {t : Nat} {w w₁ : ApiProcess}

theorem ApiInv.tick (inv : ApiInv w) {time : Int} (later : w.clock ≤ time) :
    ApiInv { w with clock := time } := ⟨inv.store.tick later, inv.ledger⟩

theorem ApiInv.has (inv : ApiInv w) {signed : Signed} {found : Bool}
    (run : authExec t (.has signed) w found w₁) : ApiInv w₁ ∧ ∀ u, Ledger.Keeps u w.accepted w₁.accepted := by
  obtain ⟨time, forward, -, rfl⟩ := run
  exact ⟨⟨(inv.store.has forward signed.nonceId).1, inv.ledger⟩, fun u => .refl u w.accepted⟩

/-- A request looked up in time is only recorded when it has never been recorded. -/
theorem ApiInv.seen (inv : ApiInv w) {signed : Signed} {found : Bool}
    (run : authExec t (.seen signed) w found w₁) (few : FewAlive t (.seen signed) w found w₁)
    (inTime : RedeliveredInTime t (.seen signed) w found w₁) :
    ApiInv w₁ ∧ (∀ u, Ledger.Keeps u w.accepted w₁.accepted) ∧
      (found = false → w₁.accepted.owner signed = some t) := by
  obtain ⟨time, later, forward, after, answer, world⟩ := run
  obtain ⟨again, fresh⟩ := inv.store.seen forward after few signed.nonceId
  cases result : (w.store.seen nonceTtlMs nonceMax time later signed.nonceId).1 with
  | true =>
    rw [result, if_pos rfl] at world
    rw [result] at answer
    subst world answer
    exact ⟨⟨again result, inv.ledger⟩, fun u => .refl u w.accepted, nofun⟩
  | false =>
    rw [result, if_neg Bool.false_ne_true] at world
    rw [result] at answer
    subst world answer
    obtain ⟨sound, forgotten⟩ := fresh result
    have never : ¬Taken w signed := by
      rintro ⟨at_, member⟩
      have early : later < at_ + nonceTtlMs := inTime at_ member
      have late := forgotten at_ ⟨signed, member, rfl⟩
      omega
    refine ⟨⟨?_, ?_⟩, fun u => Ledger.keeps_take (inv.ledger.free never), fun _ => Ledger.owner_take_self⟩
    · refine sound.mono ?_
      rintro id at_ ⟨other, member, rfl⟩
      rw [List.mem_append, List.mem_singleton, Prod.mk.injEq] at member
      rcases member with old | ⟨rfl, rfl⟩
      · exact .inl ⟨other, old, rfl⟩
      · exact .inr ⟨rfl, rfl⟩
    · refine inv.ledger.take never ?_ ?_
      · rintro other ⟨at_, member⟩
        exact ⟨at_, List.mem_append_left _ member⟩
      · exact ⟨later, List.mem_append_right _ (List.mem_singleton_self _)⟩

theorem ApiInv.accept (inv : ApiInv w) {signed : Signed} {key : Option DeviceKey} {answer : Unit}
    (owns : w.accepted.owner signed = some t) (run : authExec t (.accept signed key) w answer w₁) :
    ApiInv w₁ ∧ ∀ u, u ≠ t → Ledger.Keeps u w.accepted w₁.accepted := by
  subst run
  refine ⟨⟨inv.store, inv.ledger.use owns⟩, fun u other => Ledger.keeps_use ?_⟩
  rw [owns]
  exact fun same => other (Option.some.inj same).symm

/-- A request that is about to be accepted has just been recorded by its own thread. -/
def Acceptable (t : Nat) (request : DeviceRequest) (result : Except AuthFailure (Option DeviceKey))
    (w : ApiProcess) : Prop := ∀ key, result = .ok key → w.accepted.owner request.signed = some t

theorem safe_refused {request : DeviceRequest} (failure : AuthFailure) :
    (apiTeam.rules t).Safe (Acceptable t request) (.ret (.error failure)) w := by
  intro _ _ _ _ accepted
  cases accepted

theorem safe_verifySigned {request : DeviceRequest} {now timestamp : Int}
    {publicKeyRaw signatureBytes : List UInt8} {key : Option DeviceKey} :
    (apiTeam.rules t).Safe (Acceptable t request)
      (verifySigned node request now timestamp publicKeyRaw signatureBytes key) w := by
  unfold verifySigned
  split
  · exact safe_refused _
  refine Rules.Safe.perform ?_
  intro w₁ _ inv₁ found w₂ run
  obtain ⟨inv₂, others⟩ := inv₁.has run.1.1
  refine ⟨inv₂, ⟨fun u _ => others u, trivial⟩, ?_⟩
  split
  · exact safe_refused _
  dsimp only
  split
  · exact safe_refused _
  split
  · exact safe_refused _
  refine Rules.Safe.perform ?_
  intro w₃ _ inv₃ found w₄ run
  obtain ⟨inv₄, others, holds⟩ := inv₃.seen run.1.1 run.1.2 run.2
  refine ⟨inv₄, ⟨fun u _ => others u, trivial⟩, ?_⟩
  split
  · exact safe_refused _
  · rename_i answer
    rw [Bool.not_eq_true] at answer
    intro w₅ kept _ _ _
    exact kept _ (holds answer)

theorem safe_verifyDeviceRequest {request : DeviceRequest} {now : Int} {allowStatuses : List KeyStatus}
    {allowUnknown : Bool} :
    (apiTeam.rules t).Safe (Acceptable t request)
      (verifyDeviceRequest node request now allowStatuses allowUnknown) w := by
  unfold verifyDeviceRequest
  split
  · split
    · exact safe_refused _
    refine Rules.Safe.perform ?_
    rintro w₁ _ inv₁ found _ ⟨⟨rfl, -⟩, -⟩
    refine ⟨inv₁, ⟨fun u _ => .refl u _, trivial⟩, ?_⟩
    split
    · split
      · exact safe_refused _
      split
      · exact safe_refused _
      · exact safe_verifySigned
    · split
      · exact safe_refused _
      · exact safe_verifySigned
  · exact safe_refused _

theorem safe_deviceAuth {allowStatuses : List KeyStatus} {allowUnknown : Bool} {request : DeviceRequest} :
    apiTeam.Safe t (deviceAuth node allowStatuses allowUnknown request) w := by
  unfold deviceAuth
  refine Rules.Safe.perform ?_
  rintro w₁ _ inv₁ millis _ ⟨⟨⟨-, rfl⟩, -⟩, -⟩
  refine ⟨inv₁, ⟨fun u _ => .refl u _, trivial⟩, ?_⟩
  refine safe_verifyDeviceRequest.bind inv₁ ?_
  intro result w₂ inv₂ holds
  cases result with
  | error failure =>
    rintro w₃ _ inv₃ _ _ ⟨⟨rfl, -⟩, -⟩
    exact ⟨inv₃, ⟨fun u _ => .refl u _, trivial⟩, fun _ _ _ => trivial⟩
  | ok key =>
    intro w₃ kept inv₃ _ w₄ run
    obtain ⟨inv₄, others⟩ := inv₃.accept (kept _ (holds key rfl)) run.1.1
    exact ⟨inv₄, ⟨others, trivial⟩, fun _ _ _ => trivial⟩

theorem api_verified : (((api node).restrict FewAlive).restrict RedeliveredInTime).Verified apiTeam where
  exec run := run
  env := by
    rintro w _ inv ⟨time, later, rfl⟩
    exact ⟨inv.tick later, fun t => .refl t w.accepted⟩
  entry := by
    rintro _ t w ⟨allowStatuses, allowUnknown, request, rfl⟩ _ _
    exact safe_deviceAuth
  drop {t w} inv := by
    refine ⟨⟨inv.store, inv.ledger.drop t⟩, fun _ _ _ => trivial, fun u other => ?_⟩
    exact Ledger.keeps_drop other

theorem apiStart_inv (w : ApiProcess) (start : ApiStart w) :
    ApiInv w ∧ ∀ t w₁, apiTeam.rely t w w₁ → apiTeam.inv w₁ → apiTeam.idle t w₁ := by
  obtain ⟨store, recorded, accepted⟩ := start
  refine ⟨⟨?_, ?_⟩, fun _ _ _ _ => trivial⟩
  · rw [store]
    refine NonceStore.sound_create.mono ?_
    rintro id at_ ⟨signed, member, -⟩
    rw [recorded] at member
    exact absurd member List.not_mem_nil
  · rw [accepted]
    exact Ledger.valid_empty

/-- Whatever the deliveries, no signed request is accepted twice, as long as none is
looked up again once its recorded nonce has expired. -/
theorem accepted_once {c : Threads.Config AuthOp.Res ApiProcess}
    (reach : (((api node).restrict FewAlive).restrict RedeliveredInTime).Reach ApiStart c) : c.world.accepted.used.Nodup :=
  (reach.inv api_verified apiStart_inv).ledger.once

/-! One device whose request is signed by its key, the one of the all-zero seed. -/

def demoKey : DeviceKey where
  id := 1
  deviceId := some 1
  keyFingerprint := "139e3940e64b5491722088d9a0d741628fc826e09475d341a780acde3c4b8070".toList
  publicKey := [59, 106, 39, 188, 206, 182, 164, 45, 98, 163, 168, 208, 42, 111, 13, 115, 101, 50, 21, 119,
    29, 226, 67, 166, 58, 192, 72, 161, 139, 89, 218, 41]
  status := .approved
  serialClaimed := none

def demoSignature : List UInt8 :=
  [50, 176, 135, 144, 109, 45, 114, 93, 186, 245, 138, 51, 66, 197, 196, 83, 108, 224, 88, 152, 224, 1, 89,
    116, 43, 222, 55, 46, 228, 114, 240, 96, 190, 10, 88, 57, 184, 143, 176, 106, 140, 55, 126, 218, 41,
    253, 244, 103, 51, 91, 31, 203, 13, 229, 9, 247, 201, 46, 229, 191, 252, 90, 120, 0]

def demoRequest : DeviceRequest where
  method := "POST".toList
  target := "/api/linux/agent/checkin".toList
  key := some demoKey.keyFingerprint
  timestamp := some "1800000000".toList
  nonce := some "01010101010101010101010101010101".toList
  signature := some (Base64.encodeChars demoSignature)
  rawBody := []

/-- SHA-256 of the empty body and Ed25519 on the only message that was signed. -/
def demoNode : Node where
  sha256 _ := "e3b0c44298fc1c149afbf4c8996fb92427ae41e4649b934ca495991b7852b855".toList
  verify message publicKeyRaw signature :=
    message = ("opale-linux-v1\nPOST\n/api/linux/agent/checkin\n1800000000\n".toList ++
      "01010101010101010101010101010101\n".toList ++
      "e3b0c44298fc1c149afbf4c8996fb92427ae41e4649b934ca495991b7852b855".toList) &&
    publicKeyRaw = demoKey.publicKey && signature = demoSignature
  bodyPublicKey _ := none

/-- What is encoded is the canonical text of its bytes. -/
theorem canonicalBase64_encodeChars {bytes : List UInt8} {n pad : Nat} (whole : (bytes.length + 2) / 3 * 4 = n + pad)
    (padded : (3 - bytes.length % 3) % 3 = pad) : canonicalBase64 n pad (Base64.encodeChars bytes) = some bytes := by
  obtain ⟨body, split, inside, -⟩ := Base64.encodeChars_body bytes
  have length := (Base64.length_encodeChars bytes).trans whole
  rw [padded] at split
  have body_length : body.length = n := by
    rw [split, List.length_append, List.length_replicate] at length
    exact Nat.add_right_cancel length
  have digits : ((Base64.encodeChars bytes).take n).all (Base64.alphabet.contains ·) = true := by
    rw [split, ← body_length, List.take_left]
    exact List.all_eq_true.mpr fun c member => List.contains_iff_mem.mpr (inside c member)
  have signs : (Base64.encodeChars bytes).drop n = List.replicate pad '=' := by
    rw [split, ← body_length, List.drop_left]
  rw [canonicalBase64, if_pos ⟨length, digits, signs⟩, Base64.decodeChars_encodeChars, Option.filter_some]
  exact if_pos (decide_eq_true rfl)

theorem demo_signature : demoRequest.signature.bind (canonicalBase64 86 2) = some demoSignature := by
  have signed : demoRequest.signature = some (Base64.encodeChars demoSignature) := rfl
  rw [signed, Option.bind_some]
  exact canonicalBase64_encodeChars rfl rfl

theorem demo_timestamp : demoRequest.timestamp.bind safeInteger = some 1800000000 := by decide

theorem demo_hex : (! isHex 64 demoKey.keyFingerprint || ! isHex 32 demoRequest.signed.nonce) = false := by
  decide

theorem demo_signed : (! demoNode.verify (canonicalString demoRequest.method demoRequest.target
    demoRequest.signed.timestamp demoRequest.signed.nonce (demoNode.sha256 demoRequest.rawBody))
    demoKey.publicKey demoSignature) = false := by decide +kernel

/-- Well-formed headers lead to the lookup of the key, then to the checks. -/
theorem verifyDeviceRequest_eq {node : Node} {request : DeviceRequest} {fingerprint nonce : Text} {timestamp : Int}
    {signature : List UInt8} {key : DeviceKey} (named : request.key = some fingerprint)
    (timed : request.timestamp.bind safeInteger = some timestamp) (unique : request.nonce = some nonce)
    (signed : request.signature.bind (canonicalBase64 86 2) = some signature)
    (hex : (! isHex 64 fingerprint || ! isHex 32 nonce) = false) (approved : key.status = .approved) (now : Int) :
    ∃ rest, verifyDeviceRequest node request now [.approved] false = .op (.lookupKey (toLowerCase fingerprint)) rest ∧
      rest (some key) = verifySigned node request now timestamp key.publicKey signature (some key) := by
  unfold verifyDeviceRequest
  rw [signed, timed, named, unique]
  dsimp only
  rw [hex]
  refine ⟨_, rfl, if_neg ?_⟩
  rw [approved]
  decide

theorem demo_verifySigned {now : Int} (near : ¬(now - 1800000000).natAbs > 300) : ∃ rest rest₁,
    verifySigned demoNode demoRequest now 1800000000 demoKey.publicKey demoSignature (some demoKey) =
      .op (.has demoRequest.signed) rest ∧ rest true = .ret (.error (.fail .NONCE_REPLAY none)) ∧
    rest false = .op (.seen demoRequest.signed) rest₁ ∧ rest₁ false = .ret (.ok (some demoKey)) := by
  unfold verifySigned
  rw [if_neg near]
  dsimp only
  rw [demo_signed]
  exact ⟨_, _, rfl, rfl, rfl, rfl⟩

/-- The hook around `verifyDeviceRequest`. -/
theorem deviceAuth_eq (node : Node) (request : DeviceRequest) : ∃ finish,
    deviceAuth node [.approved] false request = .op .now (fun millis =>
      (verifyDeviceRequest node request (millis / 1000) [.approved] false).bind finish) ∧
    (∀ key, finish (.ok key) = .op (.accept request.signed key) .ret) ∧
    ∀ failure, finish (.error failure) = .op (.reply failure) .ret := ⟨_, rfl, fun _ => rfl, fun _ => rfl⟩

variable {cond : Nat → (o : AuthOp) → ApiProcess → o.Res → ApiProcess → Prop}

/-- The request delivered within 300 seconds of its timestamp to a store that does not
know its nonce. -/
theorem demo_delivery {runs : Nat → Auth Unit} {w : ApiProcess} {first second : NonceStore}
    (reach : (((api demoNode).restrict FewAlive).restrict cond).Reach ApiStart ⟨w, runs⟩)
    (idle : runs 0 = .ret ()) (near : ¬(w.clock / 1000 - 1800000000).natAbs > 300)
    (absent : w.store.has w.clock demoRequest.signed.nonceId = (false, first))
    (unseen : first.seen nonceTtlMs nonceMax w.clock w.clock demoRequest.signed.nonceId = (false, second))
    (few : first.alive w.clock < nonceMax)
    (meets : ∀ o w answer w₁, (∀ signed, o ≠ .seen signed) → cond 0 o w answer w₁)
    (inTime : ∀ w₁, w₁.clock = w.clock → cond 0 (.seen demoRequest.signed) { w with store := first } false w₁) :
    ∃ runs, runs 0 = .ret () ∧ (((api demoNode).restrict FewAlive).restrict cond).Reach ApiStart
      ⟨⟨w.clock, second, w.recorded ++ [(demoRequest.signed, w.clock)],
        (w.accepted.take 0 demoRequest.signed).use demoRequest.signed⟩, runs⟩ := by
  obtain ⟨rest, lookup, found⟩ := @verifyDeviceRequest_eq demoNode demoRequest _ _ _ _ demoKey rfl demo_timestamp rfl
    demo_signature demo_hex rfl (w.clock / 1000)
  obtain ⟨rest₁, rest₂, checked, -, recorded, accepted⟩ := demo_verifySigned near
  obtain ⟨finish, hook, handed, -⟩ := deviceAuth_eq demoNode demoRequest
  have r := reach.begins 0 (deviceAuth demoNode [.approved] false demoRequest) idle ⟨_, _, _, rfl⟩
  have r := r.perform 0 ((Function.update_self ..).trans hook) w.clock w
    ⟨⟨⟨rfl, rfl⟩, trivial⟩, meets _ _ _ _ nofun⟩
  rw [lookup] at r
  have r := r.perform 0 (Function.update_self ..) (some demoKey) w ⟨⟨rfl, trivial⟩, meets _ _ _ _ nofun⟩
  rw [found, checked] at r
  have r := r.perform 0 (Function.update_self ..) false { w with store := first }
    ⟨⟨⟨w.clock, Int.le_refl _, by rw [absent], by rw [absent]⟩, trivial⟩, meets _ _ _ _ nofun⟩
  rw [recorded] at r
  have r := r.perform 0 (Function.update_self ..) false
    ⟨w.clock, second, w.recorded ++ [(demoRequest.signed, w.clock)], w.accepted.take 0 demoRequest.signed⟩
    ⟨⟨⟨w.clock, w.clock, Int.le_refl _, Int.le_refl _, by rw [unseen], by rw [unseen]; rfl⟩, few⟩, inTime _ rfl⟩
  rw [accepted, Program.ret_bind, handed] at r
  have r := r.perform 0 (Function.update_self ..) () _ ⟨⟨rfl, trivial⟩, meets _ _ _ _ nofun⟩
  exact ⟨_, Function.update_self .., r⟩

/-- The same, delivered to a store that knows its nonce. -/
theorem demo_refusal {runs : Nat → Auth Unit} {w : ApiProcess} {first : NonceStore}
    (reach : (((api demoNode).restrict FewAlive).restrict cond).Reach ApiStart ⟨w, runs⟩)
    (idle : runs 0 = .ret ()) (near : ¬(w.clock / 1000 - 1800000000).natAbs > 300)
    (known : w.store.has w.clock demoRequest.signed.nonceId = (true, first))
    (meets : ∀ o w answer w₁, (∀ signed, o ≠ .seen signed) → cond 0 o w answer w₁) :
    ∃ runs, runs 0 = .ret () ∧
      (((api demoNode).restrict FewAlive).restrict cond).Reach ApiStart ⟨{ w with store := first }, runs⟩ := by
  obtain ⟨rest, lookup, found⟩ := @verifyDeviceRequest_eq demoNode demoRequest _ _ _ _ demoKey rfl demo_timestamp rfl
    demo_signature demo_hex rfl (w.clock / 1000)
  obtain ⟨rest₁, rest₂, checked, refused, -⟩ := demo_verifySigned near
  obtain ⟨finish, hook, -, answered⟩ := deviceAuth_eq demoNode demoRequest
  have r := reach.begins 0 (deviceAuth demoNode [.approved] false demoRequest) idle ⟨_, _, _, rfl⟩
  have r := r.perform 0 ((Function.update_self ..).trans hook) w.clock w
    ⟨⟨⟨rfl, rfl⟩, trivial⟩, meets _ _ _ _ nofun⟩
  rw [lookup] at r
  have r := r.perform 0 (Function.update_self ..) (some demoKey) w ⟨⟨rfl, trivial⟩, meets _ _ _ _ nofun⟩
  rw [found, checked] at r
  have r := r.perform 0 (Function.update_self ..) true { w with store := first }
    ⟨⟨⟨w.clock, Int.le_refl _, by rw [known], by rw [known]⟩, trivial⟩, meets _ _ _ _ nofun⟩
  rw [refused, Program.ret_bind, answered] at r
  have r := r.perform 0 (Function.update_self ..) () { w with store := first } ⟨⟨rfl, trivial⟩, meets _ _ _ _ nofun⟩
  exact ⟨_, Function.update_self .., r⟩

/-- An empty process five minutes before the timestamp of the request. -/
def demoProcess : ApiProcess := ⟨1799999700000, .create, [], .empty⟩

def demoRecorded : ApiProcess :=
  ⟨1799999700000, ⟨[(demoRequest.signed.nonceId, 1800000300000)], 2⟩,
    [] ++ [(demoRequest.signed, 1799999700000)],
    (Ledger.empty.take 0 demoRequest.signed).use demoRequest.signed⟩

theorem demo_first (meets : ∀ o w answer w₁, (∀ signed, o ≠ .seen signed) → cond 0 o w answer w₁)
    (inTime : ∀ w₁, w₁.clock = demoProcess.clock →
      cond 0 (.seen demoRequest.signed) { demoProcess with store := ⟨[], 1⟩ } false w₁) :
    ∃ runs, runs 0 = .ret () ∧
      (((api demoNode).restrict FewAlive).restrict cond).Reach ApiStart ⟨demoRecorded, runs⟩ :=
  demo_delivery (.init ⟨rfl, rfl, rfl⟩) rfl (by decide) rfl rfl (by decide) meets inTime

/-- Accepted at the first delivery, the request is refused a minute later. -/
theorem accepted_once_refused : ∃ c : Threads.Config AuthOp.Res ApiProcess, c.world.clock = 1799999760000 ∧
    c.runs 0 = .ret () ∧ c.world.accepted.used = [demoRequest.signed] ∧ c.world.accepted.used.Nodup := by
  have meets : ∀ o w answer w₁, (∀ signed, o ≠ .seen signed) → RedeliveredInTime 0 o w answer w₁ := by
    intro o w answer w₁ other
    cases o with
    | seen signed => exact absurd rfl (other signed)
    | _ => trivial
  obtain ⟨runs, idle, r⟩ := demo_first meets fun _ _ _ member => absurd member List.not_mem_nil
  have r := r.step (.env ⟨1799999760000, by decide, rfl⟩)
  obtain ⟨runs₁, idle₁, r⟩ := demo_refusal r idle (by decide) rfl meets
  exact ⟨_, rfl, idle₁, rfl, accepted_once r⟩

/-- Delivered again 600 seconds later to the millisecond, the request is within 300 seconds
of its timestamp both times, and its nonce expires at this very instant. -/
theorem accepted_twice : ¬∀ c : Threads.Config AuthOp.Res ApiProcess,
    ((api demoNode).restrict FewAlive).Reach ApiStart c → c.world.accepted.used.Nodup := by
  intro once
  obtain ⟨runs, idle, r⟩ := @demo_first (fun _ _ _ _ _ => True) (fun _ _ _ _ _ => trivial) fun _ _ => trivial
  have r := r.step (.env ⟨1800000300000, by decide, rfl⟩)
  obtain ⟨runs₁, -, r⟩ := demo_delivery r idle (by decide) rfl rfl (by decide)
    (fun _ _ _ _ _ => trivial) fun _ _ => trivial
  have twice : [demoRequest.signed, demoRequest.signed].Nodup := once _ r.of_restrict
  exact (List.nodup_cons.mp twice).1 (List.mem_singleton_self _)

end Opale.Linux
