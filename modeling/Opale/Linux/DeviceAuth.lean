import Opale.Codec.Base64
import Opale.Effects.Program
import Opale.Linux.NonceStore

namespace Opale.Linux

inductive KeyStatus where
  | pending | approved | rejected | revoked
  deriving Repr, DecidableEq

/-- What `lookupKey` selects of a row of `linux_device_keys`. -/
structure DeviceKey where
  id : Nat
  deviceId : Option Nat
  keyFingerprint : Text
  publicKey : List UInt8
  status : KeyStatus
  serialClaimed : Option Text
  deriving DecidableEq

inductive AuthCode where
  | SIGNATURE_INVALID | UNKNOWN_KEY | NOT_APPROVED | REVOKED | CLOCK_SKEW | NONCE_REPLAY
  deriving Repr, DecidableEq

def messages : AuthCode → String
  | .SIGNATURE_INVALID => "Signature invalide"
  | .UNKNOWN_KEY => "Clé inconnue"
  | .NOT_APPROVED => "Clé non approuvée"
  | .REVOKED => "Clé révoquée"
  | .CLOCK_SKEW => "Horloge du device désynchronisée"
  | .NONCE_REPLAY => "Nonce déjà utilisé"

/-- A 401 with its code and, for a clock skew, `server_time`; or the `TypeError` of a
stored public key that has not 32 bytes. -/
inductive AuthFailure where
  | fail (code : AuthCode) (serverTime : Option Int)
  | typeError
  deriving DecidableEq

/-- A request as the hook receives it. A header that is absent or repeated is no string. -/
structure DeviceRequest where
  method : Text
  target : Text
  key : Option Text
  timestamp : Option Text
  nonce : Option Text
  signature : Option Text
  rawBody : List UInt8
  deriving DecidableEq

/-- What identifies a signed request: its key, timestamp, nonce and signature. -/
structure Signed where
  key : Text
  timestamp : Text
  nonce : Text
  signature : Text
  deriving DecidableEq

def toLowerCase (text : Text) : Text := text.map Char.toLower

def toUpperCase (text : Text) : Text := text.map Char.toUpper

def DeviceRequest.signed (request : DeviceRequest) : Signed where
  key := toLowerCase (request.key.getD [])
  timestamp := request.timestamp.getD []
  nonce := request.nonce.getD []
  signature := request.signature.getD []

def Signed.nonceId (signed : Signed) : Text := signed.key ++ ':' :: toLowerCase signed.nonce

/-- What the code takes from Node: SHA-256 in hexadecimal, Ed25519, and the field
`public_key` of the JSON body (no answer when parsing throws). -/
structure Node where
  sha256 : List UInt8 → Text
  verify : (message : Text) → (publicKeyRaw signature : List UInt8) → Bool
  bodyPublicKey : List UInt8 → Option (Option Text)

/-- `/^[0-9a-f]{n}$/i` -/
def isHex (n : Nat) (text : Text) : Bool :=
  text.length = n && text.all fun c => c.isDigit || 'a' ≤ c && c ≤ 'f' || 'A' ≤ c && c ≤ 'F'

def MAX_SAFE_INTEGER : Int := 9007199254740991

def digits (text : Text) : Option Int :=
  if text ≠ [] ∧ text.all Char.isDigit then
    some (text.foldl (fun (n : Int) c => n * 10 + (c.toNat - '0'.toNat)) 0)
  else none

/-- `Number(text)` for a text `/^-?\d+$/` that is a safe integer. -/
def safeInteger (text : Text) : Option Int :=
  let number := match text with
    | '-' :: rest => (digits rest).map (- ·)
    | _ => digits text
  number.filter fun n => - MAX_SAFE_INTEGER ≤ n ∧ n ≤ MAX_SAFE_INTEGER

/-- `/^[A-Za-z0-9+/]{n}=…$/` with `pad` signs `=`, read as base64 when the text is the
canonical one of these bytes. -/
def canonicalBase64 (n pad : Nat) (text : Text) : Option (List UInt8) :=
  if text.length = n + pad ∧ (text.take n).all (Base64.alphabet.contains ·) ∧
      text.drop n = List.replicate pad '=' then
    (Base64.decodeChars text).filter fun bytes => Base64.encodeChars bytes = text
  else none

def canonicalString (method target timestamp nonce bodySha256Hex : Text) : Text :=
  "opale-linux-v1\n".toList ++ toUpperCase method ++ '\n' :: target ++ '\n' :: timestamp ++
    '\n' :: nonce ++ '\n' :: bodySha256Hex

/-- The operations of one request. `has` and `seen` are the two consultations of the
nonce store on behalf of a signed request; `accept` hands the request to its route and
`reply` answers 401. -/
inductive AuthOp where
  | now
  | lookupKey (fingerprint : Text)
  | has (signed : Signed)
  | seen (signed : Signed)
  | accept (signed : Signed) (key : Option DeviceKey)
  | reply (failure : AuthFailure)
  deriving DecidableEq

abbrev AuthOp.Res : AuthOp → Type
  | .now => Int
  | .lookupKey _ => Option DeviceKey
  | .has _ | .seen _ => Bool
  | .accept .. | .reply _ => Unit

abbrev Auth := Program AuthOp.Res

namespace Auth

abbrev perform (o : AuthOp) : Auth o.Res := Program.perform o

abbrev fail {α : Type} (code : AuthCode) : Auth (Except AuthFailure α) :=
  return .error (.fail code none)

end Auth

/-- The public key of an unknown device: the one of the body, when its fingerprint is the
one announced. -/
def bodyKey (node : Node) (rawBody : List UInt8) (fingerprint : Text) : Option (List UInt8) :=
  match node.bodyPublicKey rawBody with
  | none | some none => none
  | some (some encoded) =>
    (canonicalBase64 43 1 encoded).filter fun publicKeyRaw =>
      publicKeyRaw.length = 32 ∧ node.sha256 publicKeyRaw = fingerprint

/-- From the clock check on, with the key that must have signed. -/
def verifySigned (node : Node) (request : DeviceRequest) (now : Int) (timestamp : Int)
    (publicKeyRaw signatureBytes : List UInt8) (key : Option DeviceKey) :
    Auth (Except AuthFailure (Option DeviceKey)) := do
  if (now - timestamp).natAbs > 300 then
    return .error (.fail .CLOCK_SKEW (some now))
  else if ← Auth.perform (.has request.signed) then
    Auth.fail .NONCE_REPLAY
  else
    let canonical := canonicalString request.method request.target request.signed.timestamp
      request.signed.nonce (node.sha256 request.rawBody)
    if publicKeyRaw.length ≠ 32 then
      return .error .typeError
    else if ! node.verify canonical publicKeyRaw signatureBytes then
      Auth.fail .SIGNATURE_INVALID
    else if ← Auth.perform (.seen request.signed) then
      Auth.fail .NONCE_REPLAY
    else
      return .ok key

def verifyDeviceRequest (node : Node) (request : DeviceRequest) (now : Int)
    (allowStatuses : List KeyStatus) (allowUnknown : Bool) :
    Auth (Except AuthFailure (Option DeviceKey)) := do
  match request.key, request.timestamp.bind safeInteger, request.nonce,
      request.signature.bind (canonicalBase64 86 2) with
  | some fingerprint, some timestamp, some nonce, some signatureBytes =>
    if ! isHex 64 fingerprint || ! isHex 32 nonce then
      Auth.fail .SIGNATURE_INVALID
    else
      match ← Auth.perform (.lookupKey (toLowerCase fingerprint)) with
      | none =>
        if !allowUnknown then
          Auth.fail .UNKNOWN_KEY
        else
          match bodyKey node request.rawBody (toLowerCase fingerprint) with
          | none => Auth.fail .SIGNATURE_INVALID
          | some publicKeyRaw => verifySigned node request now timestamp publicKeyRaw signatureBytes none
      | some key =>
        if !allowStatuses.contains key.status then
          Auth.fail (if key.status = .revoked then .REVOKED else .NOT_APPROVED)
        else
          verifySigned node request now timestamp key.publicKey signatureBytes (some key)
  | _, _, _, _ => Auth.fail .SIGNATURE_INVALID

/-- The hook of the plugin: `now` is read before the key is looked up. -/
def deviceAuth (node : Node) (allowStatuses : List KeyStatus) (allowUnknown : Bool)
    (request : DeviceRequest) : Auth Unit := do
  let millis ← Auth.perform .now
  match ← verifyDeviceRequest node request (millis / 1000) allowStatuses allowUnknown with
  | .error failure => Auth.perform (.reply failure)
  | .ok key => Auth.perform (.accept request.signed key)

end Opale.Linux
