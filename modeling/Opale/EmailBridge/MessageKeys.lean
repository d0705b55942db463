import Opale.Codec.Utf8
import Opale.EmailBridge.Threading

namespace Opale.EmailBridge

open Js

/-- `createHash('sha256').update(s).digest('hex')`, the digest being one of the bytes of the text. -/
def digest (sha256 : List UInt8 → Units) (id : Units) : Units := sha256 (Codec.utf8 (scalars id))

/-- An identifier that is stored by its digest. -/
def Long (id : Units) : Prop := MAX_STORED_MESSAGE_ID_BYTES < byteLength id

def digestKey (sha256 : List UInt8 → Units) (id : Units) : Units :=
  ascii "<sha256-" ++ digest sha256 id ++ ascii "@opale.invalid>"

/-- Two mails that the table and the look-ups tell apart. -/
structure ToldApart (sha256 : List UInt8 → Units) (a b : Units) : Prop where
  stored : storedMessageId (digest sha256) a ≠ storedMessageId (digest sha256) b
  lookup : ∀ key ∈ messageIdLookupKeys (digest sha256) a, key ∉ messageIdLookupKeys (digest sha256) b
  own : ∀ id, storedMessageId (digest sha256) id ∈ messageIdLookupKeys (digest sha256) id

variable {sha256 : List UInt8 → Units} {id a b key : Units}

theorem storedMessageId_of_long (long : Long id) : storedMessageId (digest sha256) id = digestKey sha256 id :=
  if_neg (Nat.not_le.mpr long)

theorem storedMessageId_of_short (short : ¬Long id) : storedMessageId (digest sha256) id = id :=
  if_pos (Nat.le_of_not_lt short)

theorem mem_lookupKeys :
    key ∈ messageIdLookupKeys (digest sha256) id ↔ key = id ∨ Long id ∧ key = digestKey sha256 id := by
  by_cases long : Long id
  · have stored : storedMessageId (digest sha256) id = digestKey sha256 id := storedMessageId_of_long long
    unfold messageIdLookupKeys
    split
    next same =>
      rw [stored] at same
      simp [same, long]
    next => simp [stored, long]
  · have stored : storedMessageId (digest sha256) id = id := storedMessageId_of_short long
    rw [messageIdLookupKeys, if_pos stored]
    simp [long]

theorem storedMessageId_mem (id : Units) : storedMessageId (digest sha256) id ∈ messageIdLookupKeys (digest sha256) id := by
  rw [mem_lookupKeys]
  by_cases long : Long id
  · exact .inr ⟨long, storedMessageId_of_long long⟩
  · exact .inl (storedMessageId_of_short long)

theorem digestKey_inj (injective : Function.Injective sha256) :
    digestKey sha256 a = digestKey sha256 b ↔ scalars a = scalars b := by
  unfold digestKey digest
  rw [List.append_left_inj, List.append_right_inj, injective.eq_iff, Codec.utf8_injective.eq_iff]

/-- Distinct identifiers are told apart unless one is the digest key of the other, a long one, or both are long and have the
same bytes, the halves of pairs being the same in UTF-8. -/
theorem toldApart_iff (sha256 : List UInt8 → Units) (injective : Function.Injective sha256) (a b : Units) (apart : a ≠ b) :
    ToldApart sha256 a b ↔ ¬(Long a ∧ b = digestKey sha256 a) ∧ ¬(Long b ∧ a = digestKey sha256 b) ∧
      ¬(Long a ∧ Long b ∧ scalars a = scalars b) := by
  constructor
  · rintro ⟨-, lookup, -⟩
    refine ⟨fun ⟨long, same⟩ => ?_, fun ⟨long, same⟩ => ?_, fun ⟨long, long', same⟩ => ?_⟩
    · exact lookup b (mem_lookupKeys.mpr (.inr ⟨long, same⟩)) (mem_lookupKeys.mpr (.inl rfl))
    · exact lookup a (mem_lookupKeys.mpr (.inl rfl)) (mem_lookupKeys.mpr (.inr ⟨long, same⟩))
    · have key := (digestKey_inj injective).mpr same
      exact lookup _ (mem_lookupKeys.mpr (.inr ⟨long, rfl⟩)) (mem_lookupKeys.mpr (.inr ⟨long', key⟩))
  · rintro ⟨first, second, both⟩
    have lookup : ∀ key ∈ messageIdLookupKeys (digest sha256) a, key ∉ messageIdLookupKeys (digest sha256) b := by
      intro key left right
      rcases mem_lookupKeys.mp left with rfl | ⟨long, rfl⟩
      · rcases mem_lookupKeys.mp right with same | same
        · exact apart same
        · exact second same
      · rcases mem_lookupKeys.mp right with same | ⟨long', same⟩
        · exact first ⟨long, same.symm⟩
        · exact both ⟨long, long', (digestKey_inj injective).mp same⟩
    refine ⟨fun same => ?_, lookup, storedMessageId_mem⟩
    exact lookup _ (storedMessageId_mem a) (same ▸ storedMessageId_mem b)

def longId : Units := List.replicate 1001 97

/-- The digest of `longId` as it is, and any others. -/
def someSha256 (bytes : List UInt8) : Units :=
  if bytes = Codec.utf8 (scalars longId) then ascii "bb0381c13e0817201355e7d700b7623f0e985287add78712a11407c9f754efc8"
  else 120 :: bytes.map UInt8.toUInt16

theorem someSha256_injective : Function.Injective someSha256 := by
  have others : Function.Injective (List.map UInt8.toUInt16) := List.map_injective_iff.mpr fun x y same => by
    have bytes := congrArg UInt16.toNat same
    rwa [UInt8.toNat_toUInt16, UInt8.toNat_toUInt16, UInt8.toNat_inj] at bytes
  intro x y same
  unfold someSha256 at same
  split at same
  next first =>
    split at same
    next second => rw [first, second]
    next => cases same
  next =>
    split at same
    next => cases same
    next => exact others (List.cons.inj same).2

theorem long_longId : Long longId := by
  unfold Long
  decide +kernel

theorem toldApart_iff_short : ToldApart someSha256 longId (ascii "<a@b>") :=
  (toldApart_iff someSha256 someSha256_injective longId (ascii "<a@b>") (by decide)).mpr
    ⟨fun same => absurd same.2 (by decide), fun other => absurd other.1 (by unfold Long; decide),
      fun both => absurd both.2.1 (by unfold Long; decide)⟩

/-- A sender may choose the digest key of another mail as an identifier. -/
theorem digest_key_taken : ¬∀ sha256 : List UInt8 → Units, Function.Injective sha256 → ∀ a b : Units, a ≠ b →
    ToldApart sha256 a b := by
  intro all
  have told := all someSha256 someSha256_injective longId (digestKey someSha256 longId) (by decide)
  exact told.lookup _ (mem_lookupKeys.mpr (.inr ⟨long_longId, rfl⟩)) (mem_lookupKeys.mpr (.inl rfl))

end Opale.EmailBridge
