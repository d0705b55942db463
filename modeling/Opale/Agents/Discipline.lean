import Opale.Agents.Routes
import Opale.Effects.Discipline

namespace Opale.Agents

open Sql
open Linux (Text ClaimRefusal)

/-- The operations that only one route performs, and the reply, which none does. -/
inductive Kind where
  | rotates | exchanges | binds | replies
  deriving DecidableEq

def AgentStmt.kind : AgentStmt → Option Kind
  | .replaceToken .. => some .rotates
  | .insertIssued .. | .redeem _ => some .exchanges
  | .bindToken .. => some .binds
  | _ => none

def AgentOp.kind : AgentOp → Option Kind
  | .sql (.query s) | .sql (.within s) => s.kind
  | .commit (.rotation ..) => some .rotates
  | .commit (.exchange ..) => some .exchanges
  | .send _ => some .replies
  | _ => none

/-- Whether a transaction may be open after the operation. -/
def opens (opened : Bool) : AgentOp → Bool
  | .sql .begin => true
  | .sql .commit | .sql .rollback | .commit _ => false
  | _ => opened

/-- A program with the operations of one kind, besides those of every route. -/
def Orderly {α : Type} (kind : Kind) (a b : Bool) (program : Agent α) : Prop :=
  program.Follows (fun _ o => o.kind = none ∨ o.kind = some kind) opens a b

variable {fns : AgentFns} {kind : Kind} {a : Bool} {reply : AgentReply}

theorem orderly_authToken {plain : Option Text} : Orderly kind a a (authToken fns plain) := by
  cases plain with
  | none => exact .ret
  | some plain => exact ⟨.inl rfl, fun _ => .ret⟩

theorem orderly_abort : Orderly kind a false (abort reply) := ⟨.inl rfl, fun _ => .ret⟩

theorem orderly_authenticatedRoute {plain : Option Text} : Orderly kind false false (authenticatedRoute fns plain) := by
  refine orderly_authToken.bind fun answer => ?_
  rcases answer with _ | _ | _ <;> exact .ret

/-- A statement that ends its program when it throws. -/
theorem orderly_perform {o : AgentOp} {α : Type} {b : Bool} {next : o.Res → Agent α} (ok : o.kind = none ∨ o.kind = some kind)
    (rest : ∀ answer, Orderly kind (opens a o) b (next answer)) : Orderly kind a b (perform o >>= next) := ⟨ok, rest⟩

theorem orderly_rotate {t : TokenRow} {newToken : Text} {expiresAt : Int} :
    Orderly .rotates false false (rotate fns t newToken expiresAt) := by
  refine orderly_perform (.inl rfl) fun begun => ?_
  cases begun with
  | false => exact orderly_abort
  | true =>
    refine orderly_perform (.inl rfl) fun newId => ?_
    cases newId with
    | none => exact orderly_abort
    | some newId =>
      refine orderly_perform (.inr rfl) fun replaced => ?_
      cases replaced with
      | none => exact orderly_abort
      | some =>
        refine orderly_perform (.inr rfl) fun committed => ?_
        cases committed with
        | false => exact orderly_abort
        | true => exact orderly_perform (.inl rfl) fun _ => .ret

theorem orderly_rotateToken {plain : Option Text} : Orderly .rotates false false (rotateToken fns plain) := by
  refine orderly_authToken.bind fun answer => ?_
  rcases answer with _ | _ | t
  · exact .ret
  · exact .ret
  · exact orderly_perform (.inl rfl) fun _ => orderly_perform (.inl rfl) fun _ => orderly_rotate

theorem orderly_checkDeviceClaim {device : DeviceRow} {serial : Option Text} {excludeTokenId : Option Nat} :
    Orderly kind a a (checkDeviceClaim fns device serial excludeTokenId) := by
  unfold checkDeviceClaim
  cases serialRefusal fns device.2 serial with
  | some refusal => exact .ret
  | none =>
    refine orderly_perform (.inl rfl) fun answer => ?_
    cases answer <;> exact .ret

theorem orderly_issueToken {x : Exchange} {deviceId : Nat} {revokedUnused : List Nat} :
    Orderly .exchanges true false (issueToken fns x deviceId revokedUnused) := by
  refine orderly_perform (.inl rfl) fun _ => orderly_perform (.inl rfl) fun _ => ?_
  refine orderly_perform (.inr rfl) fun newId => ?_
  cases newId with
  | none => exact orderly_abort
  | some newId =>
    refine orderly_perform (.inr rfl) fun redeemed => ?_
    cases redeemed with
    | none => exact orderly_abort
    | some =>
      refine orderly_perform (.inr rfl) fun committed => ?_
      cases committed with
      | false => exact orderly_abort
      | true => exact orderly_perform (.inl rfl) fun _ => orderly_perform (.inl rfl) fun _ => .ret

theorem orderly_refuseExchange {x : Exchange} {deviceId : Nat} {refusal : ClaimRefusal} :
    Orderly kind a false (refuseExchange x deviceId refusal) :=
  orderly_perform (.inl rfl) fun _ => orderly_perform (.inl rfl) fun _ => .ret

theorem orderly_exchangeDevice {x : Exchange} : Orderly .exchanges true false (exchangeDevice fns x) := by
  refine orderly_perform (.inl rfl) fun found => ?_
  rcases found with _ | _ | dev
  · exact orderly_abort
  · refine orderly_perform (.inl rfl) fun deviceId => ?_
    cases deviceId with
    | none => exact orderly_abort
    | some deviceId => exact orderly_issueToken
  · refine orderly_checkDeviceClaim.bind fun claim => ?_
    rcases claim with _ | _ | refusal
    · exact orderly_abort
    · refine orderly_perform (.inl rfl) fun revoked => ?_
      cases revoked with
      | none => exact orderly_abort
      | some revoked => exact orderly_issueToken
    · exact orderly_refuseExchange

theorem orderly_exchangeToken {plain hostname serial : Option Text} :
    Orderly .exchanges false false (exchangeToken fns plain hostname serial) := by
  unfold exchangeToken
  cases plain with
  | none => exact .ret
  | some plain =>
    dsimp only
    split
    case isTrue => exact .ret
    case isFalse =>
      refine orderly_perform (.inl rfl) fun begun => ?_
      cases begun with
      | false => exact orderly_abort
      | true =>
        refine orderly_perform (.inl rfl) fun bootstrap => ?_
        rcases bootstrap with _ | _ | bootstrap
        · exact orderly_abort
        · exact orderly_abort
        · exact orderly_exchangeDevice

theorem orderly_lookup {c : Checkin} : Orderly kind a a (lookup c) := by
  unfold lookup
  cases c.serial with
  | none => exact orderly_perform (.inl rfl) fun _ => .ret
  | some serial =>
    refine orderly_perform (.inl rfl) fun found => ?_
    rcases found with _ | _ | device
    · exact .ret
    · exact orderly_perform (.inl rfl) fun _ => .ret
    · exact .ret

theorem orderly_inventoryDevice {c : Checkin} {known : Option DeviceRow} : Orderly kind a a (inventoryDevice c known) := by
  cases known with
  | none => exact orderly_perform (.inl rfl) fun _ => .ret
  | some device => exact orderly_perform (.inl rfl) fun _ => .ret

theorem orderly_finishCheckin {c : Checkin} {deviceId : Nat} : Orderly .binds false false (finishCheckin c deviceId) := by
  refine orderly_perform (.inl rfl) fun done => ?_
  cases done with
  | none => exact .ret
  | some =>
    refine orderly_perform (.inr rfl) fun bound => ?_
    cases bound with
    | none => exact .ret
    | some =>
      refine orderly_perform (.inl rfl) fun done => ?_
      cases done <;> exact .ret

theorem orderly_inventory {c : Checkin} {known : Option DeviceRow} : Orderly .binds false false (inventory c known) := by
  refine orderly_perform (.inl rfl) fun begun => ?_
  cases begun with
  | false => exact orderly_abort
  | true =>
    refine orderly_inventoryDevice.bind fun deviceId => ?_
    cases deviceId with
    | none => exact orderly_abort
    | some deviceId =>
      refine orderly_perform (.inl rfl) fun done => ?_
      cases done with
      | none => exact orderly_abort
      | some =>
        refine orderly_perform (.inl rfl) fun committed => ?_
        cases committed with
        | false => exact orderly_abort
        | true => exact orderly_finishCheckin

theorem orderly_refuseClaim {c : Checkin} {device : DeviceRow} {refusal : ClaimRefusal} :
    Orderly kind a false (refuseClaim c device refusal) := by
  refine orderly_perform (.inl rfl) fun committed => ?_
  cases committed with
  | false => exact orderly_abort
  | true => exact orderly_perform (.inl rfl) fun _ => .ret

theorem orderly_claimDevice {c : Checkin} {device : DeviceRow} :
    Orderly .binds false false (claimDevice fns c device) := by
  refine orderly_perform (.inl rfl) fun begun => ?_
  cases begun with
  | false => exact orderly_abort
  | true =>
    refine orderly_perform (.inl rfl) fun locked => ?_
    cases locked with
    | none => exact orderly_abort
    | some locked =>
      refine orderly_checkDeviceClaim.bind fun claim => ?_
      rcases claim with _ | _ | refusal
      · exact orderly_abort
      · refine orderly_perform (.inl rfl) fun bound => ?_
        rcases bound with _ | _ | _
        · exact orderly_abort
        · exact orderly_abort
        · refine orderly_perform (.inl rfl) fun revoked => ?_
          cases revoked with
          | none => exact orderly_abort
          | some revoked =>
            refine orderly_perform (.inl rfl) fun committed => ?_
            cases committed with
            | false => exact orderly_abort
            | true => exact orderly_perform (.inl rfl) fun _ => orderly_perform (.inl rfl) fun _ => orderly_inventory
      · exact orderly_refuseClaim

theorem orderly_checkin {plain hostname serial : Option Text} :
    Orderly .binds false false (checkin fns plain hostname serial) := by
  refine orderly_authToken.bind fun answer => ?_
  rcases answer with _ | _ | token
  · exact .ret
  · exact .ret
  · dsimp only
    cases hostname.filter (· ≠ []) with
    | none => exact .ret
    | some hostname =>
      refine orderly_perform (.inl rfl) fun done => ?_
      cases done with
      | none => exact .ret
      | some =>
        refine orderly_lookup.bind fun found => ?_
        rcases found with _ | _ | device
        · exact .ret
        · exact orderly_inventory
        · dsimp only
          split
          · split
            · exact .ret
            · exact orderly_inventory
          · exact orderly_claimDevice

theorem orderly_revokeToken {id : Nat} {displayName : Text} : Orderly kind false false (revokeToken id displayName) := by
  refine orderly_perform (.inl rfl) fun answer => ?_
  rcases answer with _ | _ | _
  · exact .ret
  · exact .ret
  · exact orderly_perform (.inl rfl) fun _ => orderly_perform (.inl rfl) fun _ => .ret

theorem orderly_createToken {label : Option Text} {displayName : Text} :
    Orderly kind false false (createToken fns label displayName) := by
  unfold createToken
  cases label.filter (· ≠ []) with
  | none => exact .ret
  | some label =>
    refine orderly_perform (.inl rfl) fun _ => orderly_perform (.inl rfl) fun id => ?_
    cases id with
    | none => exact .ret
    | some id => exact orderly_perform (.inl rfl) fun _ => .ret

end Opale.Agents
