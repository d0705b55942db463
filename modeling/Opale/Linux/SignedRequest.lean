import Opale.Effects.Safety
import Opale.Linux.Replay

namespace Opale.Linux

open Rules

/-- What the signature covers. -/
def DeviceRequest.canonical (node : Node) (request : DeviceRequest) : Text :=
  canonicalString request.method request.target request.signed.timestamp request.signed.nonce (node.sha256 request.rawBody)

/-- The headers pass the format checks. -/
def DeviceRequest.Formatted (request : DeviceRequest) : Prop :=
  ∃ fingerprint timestamp nonce signatureBytes, request.key = some fingerprint ∧
    request.timestamp.bind safeInteger = some timestamp ∧ request.nonce = some nonce ∧
    request.signature.bind (canonicalBase64 86 2) = some signatureBytes ∧
    isHex 64 fingerprint = true ∧ isHex 32 nonce = true

/-- What the HTTP parser lets through has no line feed in its method and its target. -/
def DeviceRequest.OneLine (request : DeviceRequest) : Prop := '\n' ∉ request.method ∧ '\n' ∉ request.target

/-- The same request, for whoever reads it. -/
structure DeviceRequest.Same (a b : DeviceRequest) : Prop where
  method : toUpperCase a.method = toUpperCase b.method
  target : a.target = b.target
  timestamp : a.timestamp = b.timestamp
  nonce : a.nonce = b.nonce

/-- The bodies of two requests do not collide, and no signature belongs to both of their texts. -/
structure Ideal (node : Node) (a b : DeviceRequest) : Prop where
  hash : node.sha256 a.rawBody = node.sha256 b.rawBody → a.rawBody = b.rawBody
  signature : ∀ publicKeyRaw signatureBytes, node.verify (a.canonical node) publicKeyRaw signatureBytes = true →
    node.verify (b.canonical node) publicKeyRaw signatureBytes = true → a.canonical node = b.canonical node

/-- The request is accepted with the signature of a key. -/
def DeviceRequest.Accepted (node : Node) (request : DeviceRequest) (publicKeyRaw signatureBytes : List UInt8) : Prop :=
  ∃ now statuses unknown key, request.signature.bind (canonicalBase64 86 2) = some signatureBytes ∧
    key.elim (bodyKey node request.rawBody request.signed.key) (fun k => some k.publicKey) = some publicKeyRaw ∧
    Ends (fun (_ : AuthOp) (_ : Unit) _ _ => True) (verifyDeviceRequest node request now statuses unknown) () (.ok key) ()

variable {node : Node} {a b request : DeviceRequest}

theorem toUpper_ne {c : Char} (other : c ≠ '\n') : c.toUpper ≠ '\n' := by
  unfold Char.toUpper
  split
  case isTrue lower =>
    intro same
    have least : 97 ≤ c.val.toNat := lower.1
    have most : c.val.toNat ≤ 122 := lower.2
    have value : (c.val + ('A'.val - 'a'.val)).toNat = 10 := congrArg (·.val.toNat) same
    have shift : ('A'.val - 'a'.val).toNat = 2 ^ 32 - 32 := by decide
    rw [UInt32.toNat_add, shift] at value
    omega
  case isFalse => exact other

theorem toUpperCase_oneLine {text : Text} (plain : '\n' ∉ text) : '\n' ∉ toUpperCase text := by
  intro member
  obtain ⟨c, inside, same⟩ := List.mem_map.mp member
  exact toUpper_ne (fun feed => plain (feed ▸ inside)) same

theorem digits_oneLine {text : Text} {n : Int} (integer : digits text = some n) : '\n' ∉ text := by
  unfold digits at integer
  split at integer
  case isTrue all =>
    intro feed
    exact absurd (List.all_eq_true.mp all.2 _ feed) (by decide)
  case isFalse => cases integer

theorem safeInteger_oneLine {text : Text} {n : Int} (integer : safeInteger text = some n) : '\n' ∉ text := by
  obtain ⟨number, -⟩ := Option.filter_eq_some_iff.mp integer
  split at number
  · rename_i rest
    obtain ⟨m, positive, -⟩ := Option.map_eq_some_iff.mp number
    intro feed
    rcases List.mem_cons.mp feed with sign | inside
    · cases sign
    · exact digits_oneLine positive inside
  · exact digits_oneLine number

theorem isHex_oneLine {n : Nat} {text : Text} (hex : isHex n text = true) : '\n' ∉ text := by
  obtain ⟨-, all⟩ := Bool.and_eq_true_iff.mp hex
  intro feed
  exact absurd (List.all_eq_true.mp all _ feed) (by decide)

/-- Two sequences with the same first separator. -/
theorem split_inj {α : Type} {x : α} {l₁ l₂ r₁ r₂ : List α} (first : x ∉ l₁) (second : x ∉ l₂)
    (same : l₁ ++ x :: r₁ = l₂ ++ x :: r₂) : l₁ = l₂ ∧ r₁ = r₂ := by
  induction l₁ generalizing l₂ with
  | nil =>
    cases l₂ with
    | nil => exact ⟨rfl, (List.cons.inj same).2⟩
    | cons c l₂ => exact absurd (List.cons.inj same).1 fun head => second (head ▸ List.mem_cons_self)
  | cons c l₁ ih =>
    cases l₂ with
    | nil => exact absurd (List.cons.inj same).1 fun head => first (head ▸ List.mem_cons_self)
    | cons c₂ l₂ =>
      obtain ⟨rfl, rest⟩ := List.cons.inj same
      obtain ⟨rfl, rfl⟩ := ih (fun inside => first (List.mem_cons_of_mem _ inside))
        (fun inside => second (List.mem_cons_of_mem _ inside)) rest
      exact ⟨rfl, rfl⟩

/-- The fields between line feeds can be read back. -/
theorem canonicalString_inj {method₁ target₁ timestamp₁ nonce₁ hash₁ method₂ target₂ timestamp₂ nonce₂ hash₂ : Text}
    (methods : '\n' ∉ method₁ ∧ '\n' ∉ method₂) (targets : '\n' ∉ target₁ ∧ '\n' ∉ target₂)
    (timestamps : '\n' ∉ timestamp₁ ∧ '\n' ∉ timestamp₂) (nonces : '\n' ∉ nonce₁ ∧ '\n' ∉ nonce₂)
    (same : canonicalString method₁ target₁ timestamp₁ nonce₁ hash₁ =
      canonicalString method₂ target₂ timestamp₂ nonce₂ hash₂) :
    toUpperCase method₁ = toUpperCase method₂ ∧ target₁ = target₂ ∧ timestamp₁ = timestamp₂ ∧ nonce₁ = nonce₂ ∧
      hash₁ = hash₂ := by
  unfold canonicalString at same
  simp only [List.append_assoc, List.cons_append] at same
  obtain ⟨method, same⟩ := split_inj (toUpperCase_oneLine methods.1) (toUpperCase_oneLine methods.2)
    (List.append_cancel_left same)
  obtain ⟨target, same⟩ := split_inj targets.1 targets.2 same
  obtain ⟨timestamp, same⟩ := split_inj timestamps.1 timestamps.2 same
  obtain ⟨nonce, hash⟩ := split_inj nonces.1 nonces.2 same
  exact ⟨method, target, timestamp, nonce, hash⟩

/-- What the format checks leave of the headers. -/
theorem DeviceRequest.Formatted.oneLine (formatted : request.Formatted) :
    ∃ timestamp nonce, request.timestamp = some timestamp ∧ request.nonce = some nonce ∧ '\n' ∉ timestamp ∧ '\n' ∉ nonce := by
  obtain ⟨_, n, nonce, _, -, integer, unique, -, -, hex⟩ := formatted
  obtain ⟨timestamp, some_, integer⟩ := Option.bind_eq_some_iff.mp integer
  exact ⟨timestamp, nonce, some_, unique, safeInteger_oneLine integer, isHex_oneLine hex⟩

/-- Requests with one canonical string are the same, and their bodies have one hash. -/
theorem same_of_canonical (first : a.Formatted) (second : b.Formatted) (plain₁ : a.OneLine) (plain₂ : b.OneLine)
    (same : a.canonical node = b.canonical node) : a.Same b ∧ node.sha256 a.rawBody = node.sha256 b.rawBody := by
  obtain ⟨timestamp₁, nonce₁, timed₁, unique₁, plainTimestamp₁, plainNonce₁⟩ := first.oneLine
  obtain ⟨timestamp₂, nonce₂, timed₂, unique₂, plainTimestamp₂, plainNonce₂⟩ := second.oneLine
  unfold DeviceRequest.canonical DeviceRequest.signed at same
  simp only [timed₁, timed₂, unique₁, unique₂, Option.getD_some] at same
  obtain ⟨method, target, timestamp, nonce, hash⟩ := canonicalString_inj ⟨plain₁.1, plain₂.1⟩ ⟨plain₁.2, plain₂.2⟩
    ⟨plainTimestamp₁, plainTimestamp₂⟩ ⟨plainNonce₁, plainNonce₂⟩ same
  refine ⟨⟨method, target, ?_, ?_⟩, hash⟩
  · rw [timed₁, timed₂, timestamp]
  · rw [unique₁, unique₂, nonce]

/-- The format checks come first. -/
theorem refused_of_not_formatted (unformatted : ¬request.Formatted) (now : Int) (statuses : List KeyStatus) (unknown : Bool) :
    verifyDeviceRequest node request now statuses unknown = Auth.fail .SIGNATURE_INVALID := by
  unfold verifyDeviceRequest
  split
  · rename_i fingerprint timestamp nonce signatureBytes named timed unique signed
    split
    · rfl
    · rename_i hex
      have hex : (! isHex 64 fingerprint || ! isHex 32 nonce) = false := Bool.eq_false_iff.mpr hex
      obtain ⟨first, second⟩ := Bool.or_eq_false_iff.mp hex
      exact absurd ⟨fingerprint, timestamp, nonce, signatureBytes, named, timed, unique, signed,
        by simpa using first, by simpa using second⟩ unformatted
  · rfl

theorem verified_of_ends {exec : (o : AuthOp) → Unit → o.Res → Unit → Prop} {now timestamp : Int} {publicKeyRaw signatureBytes : List UInt8}
    {key found : Option DeviceKey}
    (ends : Ends exec (verifySigned node request now timestamp publicKeyRaw signatureBytes key) () (.ok found) ()) :
    key = found ∧ node.verify (request.canonical node) publicKeyRaw signatureBytes = true := by
  unfold verifySigned at ends
  split at ends
  · cases ends
  obtain ⟨used, _, -, ends⟩ := Ends.of_op ends
  cases used with
  | true => cases ends
  | false =>
    replace ends : Ends exec (if publicKeyRaw.length ≠ 32 then _ else _) _ _ _ := ends
    split at ends
    · cases ends
    split at ends
    · cases ends
    rename_i checked
    have checked : node.verify (request.canonical node) publicKeyRaw signatureBytes = true := by
      unfold DeviceRequest.canonical
      simpa using checked
    obtain ⟨seen, _, -, ends⟩ := Ends.of_op ends
    cases seen with
    | true => cases ends
    | false =>
      cases ends
      exact ⟨rfl, checked⟩

/-- An accepted request is signed in full by the key it was accepted with. -/
theorem verified_of_accepted {publicKeyRaw signatureBytes : List UInt8}
    (accepted : request.Accepted node publicKeyRaw signatureBytes) :
    request.Formatted ∧ node.verify (request.canonical node) publicKeyRaw signatureBytes = true := by
  obtain ⟨now, statuses, unknown, key, signed, publicKey, ends⟩ := accepted
  by_cases formatted : request.Formatted
  swap
  · rw [refused_of_not_formatted formatted] at ends
    cases ends
  refine ⟨formatted, ?_⟩
  unfold verifyDeviceRequest at ends
  split at ends
  swap
  · cases ends
  rename_i fingerprint timestamp nonce signatureBytes₁ named timed unique signed₁
  cases signed.symm.trans signed₁
  split at ends
  · cases ends
  obtain ⟨found, _, -, ends⟩ := Ends.of_op ends
  cases found with
  | none =>
    replace ends : Ends _ (if (!unknown) = true then _ else _) _ _ _ := ends
    split at ends
    · cases ends
    have owner : request.signed.key = toLowerCase fingerprint := by
      unfold DeviceRequest.signed
      rw [named]
      rfl
    cases body : bodyKey node request.rawBody (toLowerCase fingerprint) with
    | none =>
      rw [body] at ends
      cases ends
    | some raw =>
      rw [body] at ends
      obtain ⟨rfl, checked⟩ := verified_of_ends ends
      have same : raw = publicKeyRaw := Option.some.inj (body.symm.trans (owner ▸ publicKey))
      exact same ▸ checked
  | some found =>
    replace ends : Ends _ (if (!statuses.contains found.status) = true then _ else _) _ _ _ := ends
    split at ends
    · cases ends
    · obtain ⟨rfl, checked⟩ := verified_of_ends ends
      have same : found.publicKey = publicKeyRaw := Option.some.inj publicKey
      exact same ▸ checked

/-- A request in order whose signature is that of an approved key is accepted. -/
theorem accepted_of_verified {fingerprint nonce : Text} {timestamp : Int} {signature : List UInt8} {key : DeviceKey}
    (named : request.key = some fingerprint) (timed : request.timestamp.bind safeInteger = some timestamp)
    (unique : request.nonce = some nonce) (signed : request.signature.bind (canonicalBase64 86 2) = some signature)
    (hex : (! isHex 64 fingerprint || ! isHex 32 nonce) = false) (approved : key.status = .approved)
    (long : key.publicKey.length = 32) (checked : node.verify (request.canonical node) key.publicKey signature = true) :
    request.Accepted node key.publicKey signature := by
  obtain ⟨rest, begins, found⟩ :=
    @verifyDeviceRequest_eq node request _ _ _ _ key named timed unique signed hex approved timestamp
  refine ⟨timestamp, [.approved], false, some key, signed, rfl, ?_⟩
  rw [begins]
  refine .perform (some key) () trivial ?_
  rw [found, verifySigned, if_neg (by rw [Int.sub_self]; decide)]
  refine .perform false () trivial ?_
  have checked : (! node.verify (canonicalString request.method request.target request.signed.timestamp request.signed.nonce
      (node.sha256 request.rawBody)) key.publicKey signature) = false := by
    rw [← DeviceRequest.canonical, checked]
    rfl
  show Ends _ (if key.publicKey.length ≠ 32 then _ else _) _ _ _
  rw [if_neg (not_not.mpr long), checked]
  exact .perform false () trivial .ret

/-- The text that is signed says which request it is for, so that a signature is accepted for one request only. -/
theorem signature_binds_request {node : Node} {a b : DeviceRequest} (plain₁ : a.OneLine) (plain₂ : b.OneLine) :
    (a.Formatted → b.Formatted → a.canonical node = b.canonical node →
      a.Same b ∧ node.sha256 a.rawBody = node.sha256 b.rawBody) ∧
    ∀ publicKeyRaw signatureBytes, Ideal node a b → a.Accepted node publicKeyRaw signatureBytes →
      b.Accepted node publicKeyRaw signatureBytes → a.Same b ∧ a.rawBody = b.rawBody := by
  refine ⟨fun first second same => same_of_canonical first second plain₁ plain₂ same, ?_⟩
  intro publicKeyRaw signatureBytes ideal first second
  obtain ⟨formatted₁, checked₁⟩ := verified_of_accepted first
  obtain ⟨formatted₂, checked₂⟩ := verified_of_accepted second
  obtain ⟨same, hash⟩ := same_of_canonical formatted₁ formatted₂ plain₁ plain₂ (ideal.signature _ _ checked₁ checked₂)
  exact ⟨same, ideal.hash hash⟩

/-- The same signature stands for the method in small letters. -/
theorem signature_binds_request_post : ∃ a b : DeviceRequest, a.method ≠ b.method ∧
    a.Accepted demoNode demoKey.publicKey demoSignature ∧ b.Accepted demoNode demoKey.publicKey demoSignature ∧
    a.Same b := by
  have first : demoRequest.Accepted demoNode demoKey.publicKey demoSignature :=
    accepted_of_verified rfl demo_timestamp rfl demo_signature demo_hex rfl rfl (by decide +kernel)
  have second : DeviceRequest.Accepted demoNode { demoRequest with method := "post".toList } demoKey.publicKey demoSignature :=
    accepted_of_verified rfl demo_timestamp rfl demo_signature demo_hex rfl rfl (by decide +kernel)
  have ideal : Ideal demoNode demoRequest { demoRequest with method := "post".toList } :=
    ⟨fun _ => rfl, fun _ _ _ _ => by decide +kernel⟩
  have same := (signature_binds_request ⟨by decide, by decide⟩ ⟨by decide, by decide⟩).2 _ _ ideal
    first second
  exact ⟨_, _, by decide, first, second, same.1⟩

end Opale.Linux
