/-
# Addresses, credentials and registration datums

What the follower reads from a row of db-sync: the reward address a credential stands for, the
stake credential of the address that holds a cNIGHT UTXO, and the datum of a registration.
Decoding bech32 text is left to the serialization library and is a parameter here.
-/
import MidnightNode.Cnight.Primitives

namespace MidnightNode.Cnight

/-- The hash of a key or a script, 28 bytes. -/
abbrev Hash28 : Type := BitVec 224

/-- The number that bytes stand for in big endian, in `w` bits. -/
def bytesToBitVec (w : ℕ) (bytes : List UInt8) : BitVec w :=
  BitVec.ofNat w (bytes.foldl (fun acc b => 256 * acc + b.toNat) 0)

/-- `Ed25519KeyHash::from_bytes` and `ScriptHash::from_bytes`: any 28 bytes. -/
def hash28FromBytes (bytes : List UInt8) : Option Hash28 :=
  if bytes.length = 28 then some (bytesToBitVec 224 bytes) else none

/-- A payment or stake credential. -/
inductive Credential
  | keyHash (hash : Hash28)
  | scriptHash (hash : Hash28)
deriving DecidableEq

namespace Credential

/-- `Credential::to_scripthash`. -/
def toScriptHash : Credential → Option Hash28
  | keyHash _ => none
  | scriptHash h => some h

/-- `Credential::kind`. -/
def kind : Credential → BitVec 8
  | keyHash _ => 0
  | scriptHash _ => 1

/-- The hash of the key or the script. -/
def hash : Credential → Hash28
  | keyHash h => h
  | scriptHash h => h

end Credential

/-- `RewardAddress::new(network, credential).to_address().to_bytes()`: a header byte with the
kind of the credential and the network, and the hash. -/
def rewardAddressBytes (network : BitVec 8) (credential : Credential) :
    CardanoRewardAddressBytes :=
  (0xe0#8 ||| (credential.kind <<< 4) ||| (network &&& 0x0f#8)) ++ credential.hash

/-- A Cardano address, by its kind. -/
inductive Address
  | base (network : BitVec 8) (payment stake : Credential)
  | enterprise (network : BitVec 8) (payment : Credential)
  | pointer (network : BitVec 8) (payment : Credential)
  | reward (network : BitVec 8) (stake : Credential)
  | byron (network : Option (BitVec 8))
  | malformed

namespace Address

/-- `Address::network_id`. -/
def networkId : Address → Option (BitVec 8)
  | base network _ _ => some network
  | enterprise network _ => some network
  | pointer network _ => some network
  | reward network _ => some network
  | byron network => network
  | malformed => none

/-- The payment credential of an `EnterpriseAddress`, if it is one. -/
def enterprisePaymentCred : Address → Option Credential
  | enterprise _ payment => some payment
  | _ => none

/-- The stake credential of a `BaseAddress`, if it is one. -/
def baseStakeCred : Address → Option Credential
  | base _ _ stake => some stake
  | _ => none

end Address

/-- The part of the serialization library that is not modelled. -/
structure SerializationLib where
  /-- `Address::from_bech32`, with the text of its error. -/
  fromBech32 : String → Except String Address

/-! ### Datums -/

/-- Plutus data. -/
inductive PlutusData
  | constr (alternative : ℕ) (data : List PlutusData)
  | map (entries : List (PlutusData × PlutusData))
  | list (items : List PlutusData)
  | integer (value : ℤ)
  | bytes (value : List UInt8)

namespace PlutusData

/-- `PlutusData::as_bytes`. -/
def asBytes : PlutusData → Option (List UInt8)
  | bytes value => some value
  | _ => none

/-- `PlutusData::as_constr_plutus_data`: the alternative and the fields. -/
def asConstrPlutusData : PlutusData → Option (ℕ × List PlutusData)
  | constr alternative data => some (alternative, data)
  | _ => none

/-- `PlutusData::as_list`. -/
def asList : PlutusData → Option (List PlutusData)
  | list items => some items
  | _ => none

/-- `PlutusData::as_integer`. -/
def asInteger : PlutusData → Option ℤ
  | integer value => some value
  | _ => none

/-- `PlutusData::as_map`. -/
def asMap : PlutusData → Option (List (PlutusData × PlutusData))
  | map entries => some entries
  | _ => none

end PlutusData

/-- Why a registration datum is rejected. -/
inductive RegistrationDatumDecodeError
  | cardanoCredentialNotBytes
  | cardanoCredentialInvalidTag (tag : ℕ)
  | cardanoCredentialInvalidKeyHash
  | cardanoCredentialInvalidScriptHash
  | dustAddressNotBytes
  | dustAddressInvalidLength (length : ℕ)
deriving DecidableEq

/-- The hash that the first field of a credential holds. -/
def credentialHash (fields : List PlutusData) : Option Hash28 :=
  (fields.head?.bind PlutusData.asBytes).bind hash28FromBytes

/-- The credential of a registration datum, by its alternative. -/
def decodeCredential (alternative : ℕ) (fields : List PlutusData) :
    Except RegistrationDatumDecodeError Credential :=
  match alternative with
  | 0 =>
    match credentialHash fields with
    | some h => .ok (.keyHash h)
    | none => .error .cardanoCredentialInvalidKeyHash
  | 1 =>
    match credentialHash fields with
    | some h => .ok (.scriptHash h)
    | none => .error .cardanoCredentialInvalidScriptHash
  | tag => .error (.cardanoCredentialInvalidTag tag)

/-- `decode_registration_datum` on the fields of the datum: a credential, and then the bytes
of a DUST address.  Further fields, and the alternative of the datum itself, are ignored. -/
def decodeRegistrationDatum (list : List PlutusData) :
    Except RegistrationDatumDecodeError (Credential × DustPublicKeyBytes) :=
  match list.head?.bind PlutusData.asConstrPlutusData with
  | none => .error .cardanoCredentialNotBytes
  | some (alternative, fields) => do
    let credential ← decodeCredential alternative fields
    match list[1]?.bind PlutusData.asBytes with
    | none => .error .dustAddressNotBytes
    | some dustAddress =>
      match DustPublicKeyBytes.tryFrom dustAddress with
      | none => .error (.dustAddressInvalidLength dustAddress.length)
      | some dustAddress => .ok (credential, dustAddress)

end MidnightNode.Cnight
