/-
# The authority sets of BEEFY

The MMR leaf of a block commits to the BEEFY validators, now and in the next session, by the root
of a Merkle tree over their keys and stakes.  The runtime defines a provider of these sets,
`AuthoritiesProvider`: when it is notified that the session changes, `on_new_validator_set`
recomputes both from the notified validators and from the committees kept by the session pallet.
The BEEFY pallet of the runtime notifies `BeefyMmrLeaf` instead, so that the runs below are those of
the provider where it is configured; the functions that it calls also serve the runtime API.

The stake of a validator is one, whether it is found in the committee or not.  But the next
committee may be absent, and then the set of the next session is left as it was.
-/
import MidnightNode.Lib.Merkle
import Mathlib.Data.Vector.Basic

namespace MidnightNode.Beefy

/-- The bytes of a compressed ECDSA public key. -/
abbrev EcdsaPublic : Type := List.Vector UInt8 33

/-- A BEEFY key. -/
structure BeefyId where
  /-- `into_inner`. -/
  inner : EcdsaPublic
deriving DecidableEq

/-- The cross-chain key of a committee member. -/
structure CrossChainPublic where
  /-- `into_inner`. -/
  inner : EcdsaPublic
deriving DecidableEq

/-- A hash of 32 bytes, `H256`. -/
abbrev Hash : Type := List.Vector UInt8 32

/-- The hash whose bytes are zero. -/
def zeroHash : Hash := List.Vector.replicate 32 0

/-- The stake of a validator, `u64`. -/
abbrev Stake : Type := UInt64

/-- `to_le_bytes` of a stake. -/
def toLeBytes (stake : Stake) : List UInt8 :=
  (List.range 8).map fun i => (stake >>> UInt64.ofNat (8 * i)).toUInt8

/-- A list of validators with their stakes. -/
abbrev BeefyStakes : Type := List (BeefyId × Stake)

/-- The id of a validator set, `u64`. -/
abbrev ValidatorSetId : Type := UInt64

/-- A validator set.  `ValidatorSet::new` refuses an empty list, and the BEEFY pallet keeps no more
than a `u32` of authorities. -/
structure ValidatorSet where
  /-- The validators. -/
  validators : List BeefyId
  /-- The id of the set. -/
  id : ValidatorSetId
  /-- There are validators. -/
  validators_ne_nil : validators ≠ []
  /-- They can be counted. -/
  length_lt : validators.length < 2 ^ 32

/-- `BeefyAuthoritySet`: the commitment to a validator set. -/
structure BeefyAuthoritySet where
  /-- The id of the set. -/
  id : ValidatorSetId
  /-- The number of its validators. -/
  len : UInt32
  /-- The root over their keys and stakes. -/
  keysetCommitment : Hash
deriving DecidableEq

/-- A member of a committee, as far as it is read. -/
inductive CommitteeMember
  | permissioned (id : CrossChainPublic)
  | registered (id : CrossChainPublic)

/-- The storage that is read and written. -/
structure State where
  /-- `Authorities` of the BEEFY pallet. -/
  authorities : List BeefyId
  /-- `NextAuthorities` of the BEEFY pallet. -/
  nextAuthorities : List BeefyId
  /-- `ValidatorSetId` of the BEEFY pallet. -/
  validatorSetId : ValidatorSetId
  /-- `current_committee_storage` of the session pallet. -/
  currentCommittee : List CommitteeMember
  /-- `next_committee_storage` of the session pallet. -/
  nextCommittee : Option (List CommitteeMember)
  /-- `BeefyAuthorities` of the BEEFY MMR pallet. -/
  beefyAuthorities : BeefyAuthoritySet
  /-- `BeefyNextAuthorities` of the BEEFY MMR pallet. -/
  beefyNextAuthorities : BeefyAuthoritySet

/-! ### Stakes -/

/-- `xchain_public_to_beefy`. -/
def xchainPublicToBeefy (xchainPubKey : CrossChainPublic) : BeefyId :=
  ⟨xchainPubKey.inner⟩

/-- `are_ids_equal`. -/
def areIdsEqual (committeeId : CrossChainPublic) (validator : BeefyId) : Bool :=
  xchainPublicToBeefy committeeId = validator

/-- Whether a member of the committee has the key of a validator. -/
def CommitteeMember.matches (validator : BeefyId) : CommitteeMember → Bool
  | permissioned id => areIdsEqual id validator
  | registered id => areIdsEqual id validator

/-- `compute_beefy_stakes`: a member that is found is removed, and the stake is one anyway. -/
def computeBeefyStakes : List BeefyId → List CommitteeMember → BeefyStakes
  | [], _ => []
  | validator :: validators, committeeMembers =>
    match committeeMembers.findIdx? (CommitteeMember.matches validator) with
    | some pos => (validator, 1) :: computeBeefyStakes validators (committeeMembers.eraseIdx pos)
    | none => (validator, 1) :: computeBeefyStakes validators committeeMembers

/-- `current_beefy_stakes`. -/
def currentBeefyStakes (validators : Option (List BeefyId)) (s : State) : BeefyStakes :=
  computeBeefyStakes (validators.getD s.authorities) s.currentCommittee

/-- The committee has no influence on the stakes. -/
lemma computeBeefyStakes_eq (validators : List BeefyId) (committee : List CommitteeMember) :
    computeBeefyStakes validators committee = validators.map fun validator => (validator, 1) := by
  induction validators generalizing committee with
  | nil => rfl
  | cons validator validators ih =>
    rw [computeBeefyStakes, List.map_cons]
    split <;> rw [ih]

/-! ### Authority sets -/

section Keccak

variable (keccak : List UInt8 → Hash)

/-- Two nodes of a tree, hashed together. -/
def combine (left right : Hash) : Hash := keccak (left.toList ++ right.toList)

/-- `binary_merkle_tree::merkle_root`: hash the leaves, then row after row.  The rows always
end. -/
def merkleRoot (leaves : List (List UInt8)) : Hash :=
  (Merkle.merkelize (combine keccak) zeroHash (leaves.map keccak)).getD zeroHash

/-- The bytes of the leaves, `beefy_stakes_as_bytes`: `BeefyAuthorityToMerkleLeaf` converts a key
to its raw bytes. -/
def beefyStakesAsBytes (beefyStakes : BeefyStakes) : List (List UInt8) :=
  beefyStakes.map fun (id, stake) => id.inner.toList ++ toLeBytes stake

/-- `compute_authority_set`. -/
def computeAuthoritySet (id : ValidatorSetId) (beefyStakes : BeefyStakes) : BeefyAuthoritySet where
  id := id
  len := UInt32.ofNat beefyStakes.length
  keysetCommitment := merkleRoot keccak (beefyStakesAsBytes beefyStakes)

/-- `next_beefy_stakes`, with its out-of-session update of a set that is not there yet. -/
def nextBeefyStakes (nextValidators : Option (List BeefyId)) (s : State) :
    State × Option BeefyStakes :=
  let nextValidators := nextValidators.getD s.nextAuthorities
  match s.nextCommittee with
  | none => (s, none)
  | some committee =>
    let beefyStakes := computeBeefyStakes nextValidators committee
    let s :=
      if s.beefyNextAuthorities.keysetCommitment = zeroHash then
        { s with
          beefyNextAuthorities := computeAuthoritySet keccak (s.validatorSetId + 1) beefyStakes }
      else s
    (s, some beefyStakes)

/-- `on_new_validator_set`. -/
def onNewValidatorSet (validatorSet nextValidatorSet : ValidatorSet) (s : State) : State :=
  let beefyStakes := currentBeefyStakes (some validatorSet.validators) s
  let currAuthoritySet := computeAuthoritySet keccak validatorSet.id beefyStakes
  let s :=
    match nextBeefyStakes keccak (some nextValidatorSet.validators) s with
    | (s, some nextBeefyStakes) =>
      { s with
        beefyNextAuthorities := computeAuthoritySet keccak nextValidatorSet.id nextBeefyStakes }
    | (s, none) => s
  { s with beefyAuthorities := currAuthoritySet }

/-! ### What a set commits to -/

/-- The hashed leaf of a validator with its stake. -/
def leafHash (beefyStake : BeefyId × Stake) : Hash :=
  keccak (beefyStake.1.inner.toList ++ toLeBytes beefyStake.2)

/-- A commitment describes a validator set: its id, its size, and the root over its validators in
order, each with the stake one. -/
structure Describes (set : BeefyAuthoritySet) (validatorSet : ValidatorSet) : Prop where
  id : set.id = validatorSet.id
  len : set.len.toNat = validatorSet.validators.length
  root : Merkle.HasRoot (combine keccak)
    (validatorSet.validators.map fun validator => leafHash keccak (validator, 1))
    set.keysetCommitment

variable {keccak}

lemma map_beefyStakesAsBytes (beefyStakes : BeefyStakes) :
    (beefyStakesAsBytes beefyStakes).map keccak = beefyStakes.map (leafHash keccak) := by
  rw [beefyStakesAsBytes, List.map_map]
  rfl

/-- The commitment of stakes is the root over their leaves. -/
lemma hasRoot_computeAuthoritySet (id : ValidatorSetId) {beefyStakes : BeefyStakes}
    (hne : beefyStakes ≠ []) :
    Merkle.HasRoot (combine keccak) (beefyStakes.map (leafHash keccak))
      (computeAuthoritySet keccak id beefyStakes).keysetCommitment := by
  have hleaves : (beefyStakesAsBytes beefyStakes).map keccak ≠ [] := by
    rw [map_beefyStakesAsBytes]
    simpa using hne
  obtain ⟨root, hroot, hhas⟩ := Merkle.merkelize_eq_some (combine keccak) zeroHash hleaves
  rw [map_beefyStakesAsBytes] at hhas
  rw [computeAuthoritySet, merkleRoot, hroot]
  exact hhas

/-- What is computed for the validators of a set, with any committee, describes it. -/
lemma describes_computeAuthoritySet (validatorSet : ValidatorSet)
    (committee : List CommitteeMember) :
    Describes keccak (computeAuthoritySet keccak validatorSet.id
      (computeBeefyStakes validatorSet.validators committee)) validatorSet := by
  rw [computeBeefyStakes_eq]
  refine ⟨rfl, ?_, ?_⟩
  · rw [computeAuthoritySet, List.length_map]
    exact UInt32.toNat_ofNat_of_lt' validatorSet.length_lt
  · have hne : validatorSet.validators.map (fun validator => (validator, (1 : UInt64))) ≠ [] := by
      simpa using validatorSet.validators_ne_nil
    have hroot : Merkle.HasRoot (combine keccak) _ _ :=
      hasRoot_computeAuthoritySet validatorSet.id hne
    rwa [List.map_map] at hroot

/-! ### Notifications -/

/-- A change of session: the notified sets, and what the other pallets have stored by then. -/
structure Notification where
  /-- The validators of the new session. -/
  validatorSet : ValidatorSet
  /-- Those of the session after it. -/
  nextValidatorSet : ValidatorSet
  /-- `Authorities`. -/
  authorities : List BeefyId
  /-- `NextAuthorities`. -/
  nextAuthorities : List BeefyId
  /-- `ValidatorSetId`. -/
  validatorSetId : ValidatorSetId
  /-- The committee of the session. -/
  currentCommittee : List CommitteeMember
  /-- The committee of the next one, if there is one. -/
  nextCommittee : Option (List CommitteeMember)

variable (keccak)

/-- A notification finds the storage of the other pallets as it is by then. -/
def notify (s : State) (n : Notification) : State :=
  onNewValidatorSet keccak n.validatorSet n.nextValidatorSet
    { s with
      authorities := n.authorities
      nextAuthorities := n.nextAuthorities
      validatorSetId := n.validatorSetId
      currentCommittee := n.currentCommittee
      nextCommittee := n.nextCommittee }

/-- A sequence of notifications. -/
def run (s : State) (notifications : List Notification) : State :=
  notifications.foldl (notify keccak) s

variable {keccak}

lemma run_append_singleton (s : State) (notifications : List Notification) (n : Notification) :
    run keccak s (notifications ++ [n]) = notify keccak (run keccak s notifications) n := by
  simp [run]

lemma notify_beefyAuthorities (s : State) (n : Notification) :
    (notify keccak s n).beefyAuthorities = computeAuthoritySet keccak n.validatorSet.id
      (computeBeefyStakes n.validatorSet.validators n.currentCommittee) :=
  rfl

lemma notify_beefyNextAuthorities_of_none (s : State) {n : Notification}
    (h : n.nextCommittee = none) :
    (notify keccak s n).beefyNextAuthorities = s.beefyNextAuthorities := by
  simp [notify, onNewValidatorSet, nextBeefyStakes, h]

/-- The out-of-session update is overwritten by the one of the session. -/
lemma notify_beefyNextAuthorities_of_some (s : State) {n : Notification}
    {committee : List CommitteeMember} (h : n.nextCommittee = some committee) :
    (notify keccak s n).beefyNextAuthorities = computeAuthoritySet keccak n.nextValidatorSet.id
      (computeBeefyStakes n.nextValidatorSet.validators committee) := by
  simp [notify, onNewValidatorSet, nextBeefyStakes, h]

/-- The last notification that came with a next committee. -/
def lastWithCommittee (notifications : List Notification) : Option Notification :=
  (notifications.filter fun n => n.nextCommittee.isSome).getLast?

/-- The set of the next session describes the next validators of the last notification that came
with a next committee. -/
lemma run_beefyNextAuthorities (s : State) (notifications : List Notification) :
    (∀ n, lastWithCommittee notifications = some n →
      Describes keccak (run keccak s notifications).beefyNextAuthorities n.nextValidatorSet) ∧
    (lastWithCommittee notifications = none →
      (run keccak s notifications).beefyNextAuthorities = s.beefyNextAuthorities) := by
  induction notifications using List.reverseRecOn with
  | nil => exact ⟨fun _ h => absurd h (by simp [lastWithCommittee]), fun _ => rfl⟩
  | append_singleton notifications n ih =>
    rw [run_append_singleton]
    cases hcommittee : n.nextCommittee with
    | none =>
      have hlast : lastWithCommittee (notifications ++ [n]) = lastWithCommittee notifications := by
        simp [lastWithCommittee, hcommittee]
      rw [hlast, notify_beefyNextAuthorities_of_none _ hcommittee]
      exact ih
    | some committee =>
      have hlast : lastWithCommittee (notifications ++ [n]) = some n := by
        simp [lastWithCommittee, hcommittee]
      rw [hlast, notify_beefyNextAuthorities_of_some _ hcommittee]
      refine ⟨fun n' h => ?_, fun h => absurd h (by simp)⟩
      cases h
      exact describes_computeAuthoritySet n.nextValidatorSet committee

/-- **What the authority sets describe.**  After every notification of every run, from any state
and with any committees, the current set describes the notified validators.  The next set describes
the next validators where there is a next committee, and then follows the current one by id; where
there is none it is as before, and so describes the next validators of the last notification that
came with a committee. -/
theorem authority_sets_after_run (keccak : List UInt8 → Hash) (s : State)
    (notifications : List Notification) (n : Notification) :
    Describes keccak (run keccak s (notifications ++ [n])).beefyAuthorities n.validatorSet ∧
    (n.nextCommittee ≠ none →
      Describes keccak (run keccak s (notifications ++ [n])).beefyNextAuthorities
        n.nextValidatorSet ∧
      (n.nextValidatorSet.id = n.validatorSet.id + 1 →
        (run keccak s (notifications ++ [n])).beefyNextAuthorities.id =
          (run keccak s (notifications ++ [n])).beefyAuthorities.id + 1)) ∧
    (n.nextCommittee = none →
      (run keccak s (notifications ++ [n])).beefyNextAuthorities =
        (run keccak s notifications).beefyNextAuthorities ∧
      ∀ last, lastWithCommittee notifications = some last →
        Describes keccak (run keccak s (notifications ++ [n])).beefyNextAuthorities
          last.nextValidatorSet) := by
  have hcurrent : Describes keccak (run keccak s (notifications ++ [n])).beefyAuthorities
      n.validatorSet := by
    rw [run_append_singleton, notify_beefyAuthorities]
    exact describes_computeAuthoritySet n.validatorSet n.currentCommittee
  refine ⟨hcurrent, fun hsome => ?_, fun hnone => ?_⟩
  · obtain ⟨committee, hcommittee⟩ := Option.ne_none_iff_exists'.1 hsome
    have hnext : Describes keccak (run keccak s (notifications ++ [n])).beefyNextAuthorities
        n.nextValidatorSet := by
      rw [run_append_singleton, notify_beefyNextAuthorities_of_some _ hcommittee]
      exact describes_computeAuthoritySet n.nextValidatorSet committee
    refine ⟨hnext, fun hid => ?_⟩
    rw [hnext.id, hcurrent.id, hid]
  · have hsame : (run keccak s (notifications ++ [n])).beefyNextAuthorities =
        (run keccak s notifications).beefyNextAuthorities := by
      rw [run_append_singleton, notify_beefyNextAuthorities_of_none _ hnone]
    rw [hsame]
    exact ⟨rfl, (run_beefyNextAuthorities s notifications).1⟩

end Keccak

/-! ### A session without a next committee -/

/-- Keep the first bytes. -/
def demoKeccak (bytes : List UInt8) : Hash :=
  ⟨(bytes ++ List.replicate 32 0).take 32, by simp⟩

/-- A key of equal bytes. -/
def demoKey (byte : UInt8) : BeefyId := ⟨List.Vector.replicate 33 byte⟩

/-- A set of one validator. -/
def demoValidatorSet (byte : UInt8) (id : ValidatorSetId) : ValidatorSet where
  validators := [demoKey byte]
  id := id
  validators_ne_nil := List.cons_ne_nil _ _
  length_lt := by simp

/-- The storage at the start of the chain. -/
def demoState : State where
  authorities := []
  nextAuthorities := []
  validatorSetId := 0
  currentCommittee := []
  nextCommittee := none
  beefyAuthorities := ⟨0, 0, zeroHash⟩
  beefyNextAuthorities := ⟨0, 0, zeroHash⟩

/-- The session `id` begins, with the validator `byte` and then the one after it. -/
def demoNotification (byte : UInt8) (id : ValidatorSetId)
    (nextCommittee : Option (List CommitteeMember)) : Notification where
  validatorSet := demoValidatorSet byte id
  nextValidatorSet := demoValidatorSet (byte + 1) (id + 1)
  authorities := [demoKey byte]
  nextAuthorities := [demoKey (byte + 1)]
  validatorSetId := id
  currentCommittee := [.permissioned ⟨(demoKey byte).inner⟩]
  nextCommittee := nextCommittee

/-- The session 1 begins with a next committee and the session 2 without one: then both sets have
the id 2, and the next set does not describe the next validators. -/
theorem next_set_stale_without_committee :
    (run demoKeccak demoState [demoNotification 7 1 (some []),
      demoNotification 8 2 none]).beefyAuthorities.id = 2 ∧
    (run demoKeccak demoState [demoNotification 7 1 (some []),
      demoNotification 8 2 none]).beefyNextAuthorities.id = 2 ∧
    ¬ Describes demoKeccak (run demoKeccak demoState [demoNotification 7 1 (some []),
      demoNotification 8 2 none]).beefyNextAuthorities
        (demoNotification 8 2 none).nextValidatorSet := by
  have hid : (run demoKeccak demoState [demoNotification 7 1 (some []),
      demoNotification 8 2 none]).beefyNextAuthorities.id = 2 := rfl
  refine ⟨rfl, hid, fun h => ?_⟩
  have hnext := h.id
  rw [hid] at hnext
  exact absurd hnext (by decide)

end MidnightNode.Beefy
