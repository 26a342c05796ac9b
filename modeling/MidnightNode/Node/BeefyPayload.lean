/-
# The payload of the commitments

A commitment of BEEFY signs the root of the MMR together with the authorities: the stakes of the
current validators and of the next ones, each with their authority set.  `payload` asks the runtime
for them, in the state of the block, and writes them in SCALE.  Where the session pallet has no next
committee yet, there is nothing about the next validators.

Each call of the runtime has an overlay of its own, which is dropped; so the out-of-session update
in `next_beefy_stakes` is not seen by the call that computes the next authority set.

The relay reads the payload back (`tryFrom_payload`): it finds the current stakes and their set, and
fails without a next committee.
-/
import Mathlib.Data.List.Sort
import MidnightNode.Lib.Codec
import MidnightNode.Relay.AuthoritiesProof

namespace MidnightNode.Node

open Beefy Relay Scale Traverse

/-! ### Encodings -/

/-- `encode` of a validator with its stake. -/
def encodeBeefyStake (beefyStake : BeefyId × Stake) : List UInt8 :=
  beefyStake.1.inner.toList ++ toLeBytes beefyStake.2

/-- `encode` of the stakes. -/
def encodeBeefyStakes : BeefyStakes → List UInt8 := encodeVec encodeBeefyStake

/-- `encode` of an authority set. -/
def encodeAuthoritySet (set : BeefyAuthoritySet) : List UInt8 :=
  toLeBytes set.id ++ (leBytes 4 set.len.toNat ++ set.keysetCommitment.toList)

/-- `u64::decode`. -/
def decodeU64 : Decoder UInt64 := decodeMap UInt64.ofNat (decodeLe 8)

/-- `decode` of the stakes. -/
def decodeBeefyStakes : Decoder BeefyStakes :=
  decodeVec (decodePair (decodeMap BeefyId.mk (decodeBytes 33)) decodeU64)

/-- `decode` of an authority set. -/
def decodeAuthoritySet : Decoder BeefyAuthoritySet :=
  decodeMap (fun (id, len, keysetCommitment) => ⟨id, len, keysetCommitment⟩)
    (decodePair decodeU64 (decodePair (decodeMap UInt32.ofNat (decodeLe 4)) (decodeBytes 32)))

/-- `from_single_entry`. -/
def fromSingleEntry (id : BeefyPayloadId) (value : List UInt8) : Payload := [(id, value)]

/-- The order of the entries, by their ids. -/
def EntryLe (a b : BeefyPayloadId × List UInt8) : Prop :=
  a.1.1 < b.1.1 ∨ a.1.1 = b.1.1 ∧ a.1.2 ≤ b.1.2

instance : DecidableRel EntryLe := fun a b =>
  inferInstanceAs (Decidable (a.1.1 < b.1.1 ∨ a.1.1 = b.1.1 ∧ a.1.2 ≤ b.1.2))

/-- `push_raw`: the entries are sorted again. -/
def pushRaw (payload : Payload) (id : BeefyPayloadId) (value : List UInt8) : Payload :=
  (payload ++ [(id, value)]).insertionSort EntryLe

/-- What the runtime answers at a block; a call can fail. -/
structure RuntimeApi where
  /-- `mmr_root`, without its errors. -/
  mmrRoot : Option Hash
  /-- `current_beefy_stakes`. -/
  currentBeefyStakes : Option BeefyStakes
  /-- `next_beefy_stakes`. -/
  nextBeefyStakes : Option (Option BeefyStakes)
  /-- `compute_current_authority_set`. -/
  computeCurrentAuthoritySet : BeefyStakes → Option BeefyAuthoritySet
  /-- `compute_next_authority_set`. -/
  computeNextAuthoritySet : BeefyStakes → Option BeefyAuthoritySet

/-- `payload` for a block with the root of the MMR in its digest, if it is there. -/
def payload (mmrRootDigest : Option Hash) (api : RuntimeApi) : Option Payload := do
  let mmrRoot ← mmrRootDigest.or api.mmrRoot
  let currentBeefyStakes ← api.currentBeefyStakes
  let currentAuthoritySet ← api.computeCurrentAuthoritySet currentBeefyStakes
  let current := pushRaw (pushRaw (fromSingleEntry mmrRootId mmrRoot.toList)
    currentBeefyStakesId (encodeBeefyStakes currentBeefyStakes))
    currentBeefyAuthoritySet (encodeAuthoritySet currentAuthoritySet)
  match api.nextBeefyStakes.getD none with
  | some nextBeefyStakes =>
    let nextAuthoritySet ← api.computeNextAuthoritySet nextBeefyStakes
    return pushRaw (pushRaw current nextBeefyStakesId (encodeBeefyStakes nextBeefyStakes))
      nextBeefyAuthoritySet (encodeAuthoritySet nextAuthoritySet)
  | none => return current

section Keccak

variable (keccak : List UInt8 → Hash)

/-- `compute_current_authority_set`: the id is that of the stored set. -/
def computeCurrentAuthoritySet (beefyStakes : BeefyStakes) (s : State) : BeefyAuthoritySet :=
  computeAuthoritySet keccak s.beefyAuthorities.id beefyStakes

/-- `compute_next_authority_set`. -/
def computeNextAuthoritySet (beefyStakes : BeefyStakes) (s : State) : BeefyAuthoritySet :=
  computeAuthoritySet keccak s.beefyNextAuthorities.id beefyStakes

/-- The calls of the runtime in the state of a block.  Each has an overlay of its own. -/
def RuntimeApi.ofState (mmrRoot : Hash) (s : State) : RuntimeApi where
  mmrRoot := some mmrRoot
  currentBeefyStakes := some (Beefy.currentBeefyStakes none s)
  nextBeefyStakes := some (Beefy.nextBeefyStakes keccak none s).2
  computeCurrentAuthoritySet := fun beefyStakes =>
    some (Node.computeCurrentAuthoritySet keccak beefyStakes s)
  computeNextAuthoritySet := fun beefyStakes =>
    some (Node.computeNextAuthoritySet keccak beefyStakes s)

/-- Some validators, each with the stake one. -/
def withStakeOne (validators : List BeefyId) : BeefyStakes :=
  validators.map fun validator => (validator, 1)

/-- The entries about the current validators and the root. -/
def currentEntries (mmrRoot : Hash) (s : State) : Payload :=
  [(currentBeefyAuthoritySet, encodeAuthoritySet
      (Node.computeCurrentAuthoritySet keccak (withStakeOne s.authorities) s)),
    (currentBeefyStakesId, encodeBeefyStakes (withStakeOne s.authorities)),
    (mmrRootId, mmrRoot.toList)]

/-- The entries about the next validators. -/
def nextEntries (s : State) : Payload :=
  [(nextBeefyAuthoritySet, encodeAuthoritySet
      (Node.computeNextAuthoritySet keccak (withStakeOne s.nextAuthorities) s)),
    (nextBeefyStakesId, encodeBeefyStakes (withStakeOne s.nextAuthorities))]

variable {keccak}

/-- The payload of a block, whether the digest has the root or not. -/
lemma payload_ofState {mmrRootDigest : Option Hash} {mmrRoot : Hash} (s : State)
    (hdigest : ∀ root, mmrRootDigest = some root → root = mmrRoot) :
    payload mmrRootDigest (RuntimeApi.ofState keccak mmrRoot s) =
      some (currentEntries keccak mmrRoot s ++
        if s.nextCommittee.isSome then nextEntries keccak s else []) := by
  have hroot : mmrRootDigest.or (some mmrRoot) = some mmrRoot := by
    cases mmrRootDigest with
    | none => rfl
    | some root => rw [hdigest root rfl]; rfl
  have hcurrent : Beefy.currentBeefyStakes none s = withStakeOne s.authorities :=
    computeBeefyStakes_eq s.authorities s.currentCommittee
  simp only [payload, RuntimeApi.ofState, hroot, hcurrent, Option.bind_eq_bind, Option.bind_some,
    Option.getD_some]
  cases hnext : s.nextCommittee with
  | none =>
    simp only [nextBeefyStakes, hnext]
    rfl
  | some committee =>
    have hstakes : (nextBeefyStakes keccak none s).2 = some (withStakeOne s.nextAuthorities) := by
      simp only [nextBeefyStakes, hnext, Option.getD_none, computeBeefyStakes_eq]
      rfl
    simp only [hstakes]
    rfl

/-! ### Reading it back -/

variable {verify : BeefyId → EcdsaSignature → List UInt8 → Bool}
  {encodeCommitment : Commitment → List UInt8}

/-- What a payload says about the state of its block. -/
def stakesInfoOf (keccak : List UInt8 → Hash) (s : State) : BeefyStakesInfo where
  currentStakes := withStakeOne s.authorities
  currentAuthoritySet := Node.computeCurrentAuthoritySet keccak (withStakeOne s.authorities) s
  nextStakes := withStakeOne s.nextAuthorities
  nextAuthoritySet := Node.computeNextAuthoritySet keccak (withStakeOne s.nextAuthorities) s

end Keccak

end MidnightNode.Node
