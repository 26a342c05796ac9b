/-
# The proof of the authorities that is relayed

For a justification of BEEFY the relay builds two things that are read together on Cardano: the
votes of the signed commitment, and a proof that the voting authorities are leaves of the tree the
chain commits to.  Both are made from the signatures of the commitment and from the validator set,
by separate traversals.

The signatures are checked with `verify_signatures`, which gives the votes that verify and fails
only where the commitment does not fit the validator set.  The relay drops the votes and keeps the
absence of an error.

The tree is built over the stakes in the payload, the indices come from the slots of the
commitment; nothing compares their numbers.  What is stated about the proof of a slot is about a
payload that lists a stake for it, as those of the node do.
-/
import MidnightNode.Beefy.AuthoritySets
import MidnightNode.Lib.Traverse
import MidnightNode.Lib.Vec

namespace MidnightNode.Relay

open MidnightNode.Beefy MidnightNode.Traverse

/-- An ECDSA signature: 65 bytes, the last of which is the recovery id. -/
abbrev EcdsaSignature : Type := List.Vector UInt8 65

/-- The two bytes of `BeefyPayloadId`. -/
abbrev BeefyPayloadId : Type := UInt8 × UInt8

/-- `MMR_ROOT_ID`, "mh". -/
def mmrRootId : BeefyPayloadId := (0x6d, 0x68)

/-- `CURRENT_BEEFY_STAKES_ID`, "cs". -/
def currentBeefyStakesId : BeefyPayloadId := (0x63, 0x73)

/-- `CURRENT_BEEFY_AUTHORITY_SET`, "cb". -/
def currentBeefyAuthoritySet : BeefyPayloadId := (0x63, 0x62)

/-- `NEXT_BEEFY_STAKES_ID`, "ns". -/
def nextBeefyStakesId : BeefyPayloadId := (0x6e, 0x73)

/-- `NEXT_BEEFY_AUTHORITY_SET`, "nb". -/
def nextBeefyAuthoritySet : BeefyPayloadId := (0x6e, 0x62)

/-- The payload of a commitment: raw data by id. -/
abbrev Payload : Type := List (BeefyPayloadId × List UInt8)

/-- The order of ids, that of their bytes. -/
def compareIds (a b : BeefyPayloadId) : Ordering := compare [a.1, a.2] [b.1, b.2]

/-- `get_raw`: a binary search for the id. -/
def Payload.getRaw (payload : Payload) (id : BeefyPayloadId) : Option (List UInt8) :=
  (Vec.binarySearchBy (fun entry => compareIds entry.1 id) payload).bind fun index =>
    payload[index]?.map Prod.snd

/-- `get_all_raw`. -/
def Payload.getAllRaw (payload : Payload) (id : BeefyPayloadId) : List (List UInt8) :=
  (payload.filter fun entry => entry.1 = id).map Prod.snd

/-- The ids of the payload are increasing. -/
def Payload.Sorted (payload : Payload) : Prop :=
  (payload.map Prod.fst).Pairwise fun a b => compareIds a b = .lt

lemma compareIds_eq_iff {a b : BeefyPayloadId} : compareIds a b = .eq ↔ a = b := by
  rw [compareIds, Std.LawfulEqCmp.compare_eq_iff_eq, Prod.ext_iff]
  simp

lemma compareIds_trans {a b c : BeefyPayloadId} (hab : compareIds a b = .lt)
    (hbc : compareIds b c ≠ .gt) : compareIds a c = .lt := by
  rw [compareIds] at hab hbc ⊢
  exact Std.TransCmp.lt_of_lt_of_isLE hab (Ordering.isLE_iff_ne_gt.2 hbc)

lemma Payload.Sorted.inOrder {payload : Payload} (h : payload.Sorted) (id : BeefyPayloadId) :
    Vec.InOrder (fun entry => compareIds entry.1 id) payload :=
  (List.pairwise_map.1 h).imp fun hlt hle => compareIds_trans hlt hle

/-- In a sorted payload an entry is found under its id. -/
lemma Payload.getRaw_of_mem {payload : Payload} (h : payload.Sorted) {id : BeefyPayloadId}
    {raw : List UInt8} (hmem : (id, raw) ∈ payload) : payload.getRaw id = some raw := by
  obtain ⟨index, hindex⟩ := List.mem_iff_getElem?.1 hmem
  have hfound : Vec.binarySearchBy (fun entry => compareIds entry.1 id) payload = some index := by
    refine (Vec.binarySearchBy_eq_some_iff (h.inOrder id)).2 ?_
    rw [hindex, Option.map_some, compareIds_eq_iff.2 rfl]
  rw [Payload.getRaw, hfound, Option.bind_some, hindex, Option.map_some]

/-- What the validators sign. -/
structure Commitment where
  /-- The data committed to. -/
  payload : Payload
  /-- The block. -/
  blockNumber : ℕ
  /-- The validator set that signs. -/
  validatorSetId : ValidatorSetId

/-- A commitment with a slot for the signature of each validator. -/
structure BeefySignedCommitment where
  /-- The commitment. -/
  commitment : Commitment
  /-- The signatures, in the order of the validators. -/
  signatures : List (Option EcdsaSignature)

/-- The functions of the libraries. -/
structure Primitives where
  /-- `keccak_256`. -/
  keccak256 : List UInt8 → Hash
  /-- Whether a signature of a message is that of a key. -/
  verify : BeefyId → EcdsaSignature → List UInt8 → Bool
  /-- The encoding of a commitment, the message that is signed. -/
  encodeCommitment : Commitment → List UInt8
  /-- The decoding of stakes. -/
  decodeBeefyStakes : List UInt8 → Option BeefyStakes
  /-- The decoding of an authority set. -/
  decodeAuthoritySet : List UInt8 → Option BeefyAuthoritySet

/-- The errors that are raised here. -/
inductive Error
  | noMatchingSignature (blockNumber : ℕ) (code : ℕ)
  | invalidAuthoritiesProofCreation
  | missingCurrentBeefyStakes
  | missingCurrentAuthoritySet
  | missingNextBeefyStakes
  | missingNextAuthoritySet
deriving DecidableEq, Repr

/-- What a payload says about the authorities. -/
structure BeefyStakesInfo where
  currentStakes : BeefyStakes
  currentAuthoritySet : BeefyAuthoritySet
  nextStakes : BeefyStakes
  nextAuthoritySet : BeefyAuthoritySet

variable (P : Primitives)

/-- `get_decoded`, and the error where there is nothing or nothing that decodes. -/
def getDecoded {α : Type} (decode : List UInt8 → Option α) (payload : Payload)
    (id : BeefyPayloadId) (missing : Error) : Except Error α :=
  match (payload.getRaw id).bind decode with
  | some value => .ok value
  | none => .error missing

lemma getDecoded_of_mem {α : Type} {decode : List UInt8 → Option α} {payload : Payload}
    {id : BeefyPayloadId} {missing : Error} {raw : List UInt8} {value : α}
    (hsorted : payload.Sorted) (hmem : (id, raw) ∈ payload) (hvalue : decode raw = some value) :
    getDecoded decode payload id missing = .ok value := by
  rw [getDecoded, Payload.getRaw_of_mem hsorted hmem, Option.bind_some, hvalue]

/-- The ids of the payloads of a node, in their order. -/
lemma pairwise_payloadIds : List.Pairwise (fun a b => compareIds a b = .lt)
    [currentBeefyAuthoritySet, currentBeefyStakesId, mmrRootId, nextBeefyAuthoritySet,
      nextBeefyStakesId] := by
  decide

/-- `BeefyStakesInfo::try_from`. -/
def BeefyStakesInfo.tryFrom (payload : Payload) : Except Error BeefyStakesInfo := do
  let currentStakes ← getDecoded P.decodeBeefyStakes payload currentBeefyStakesId
    .missingCurrentBeefyStakes
  let currentAuthoritySet ← getDecoded P.decodeAuthoritySet payload currentBeefyAuthoritySet
    .missingCurrentAuthoritySet
  let nextStakes ← getDecoded P.decodeBeefyStakes payload nextBeefyStakesId
    .missingNextBeefyStakes
  let nextAuthoritySet ← getDecoded P.decodeAuthoritySet payload nextBeefyAuthoritySet
    .missingNextAuthoritySet
  return { currentStakes, currentAuthoritySet, nextStakes, nextAuthoritySet }

/-! ### The proof of the authorities -/

/-- `verify_signatures` of a signed commitment: the keys and signatures that verify. -/
def verifySignatures (signed : BeefySignedCommitment) (targetNumber : ℕ)
    (validatorSet : ValidatorSet) : Except ℕ (List (BeefyId × EcdsaSignature)) :=
  if signed.signatures.length ≠ validatorSet.validators.length ∨
      signed.commitment.validatorSetId ≠ validatorSet.id ∨
      signed.commitment.blockNumber ≠ targetNumber then .error 0
  else
    .ok ((validatorSet.validators.zip signed.signatures).filterMap fun (id, maybeSignature) =>
      maybeSignature.bind fun signature =>
        if P.verify id signature (P.encodeCommitment signed.commitment) then some (id, signature)
        else none)

/-- The indices of the slots with a signature. -/
def signatureIndices (signatures : List (Option EcdsaSignature)) : List ℕ :=
  signatures.zipIdx.filterMap fun (sig, index) => sig.map fun _ => index

/-- `collect_signature_indices`.  Of the verification only the error is used. -/
def collectSignatureIndices (signed : BeefySignedCommitment) (validatorSet : ValidatorSet) :
    Except Error (List ℕ) := do
  let blockNumber := signed.commitment.blockNumber
  let _ ← (verifySignatures P signed blockNumber validatorSet).mapError
    (Error.noMatchingSignature blockNumber)
  return signatureIndices signed.signatures

/-- `prep_leaf_hash`. -/
def prepLeafHash (beefyStake : BeefyId × Stake) : Hash :=
  P.keccak256 (beefyStake.1.inner.toList ++ toLeBytes beefyStake.2)

/-- `prep_merkle_leaves`. -/
def prepMerkleLeaves (beefyStakes : BeefyStakes) : List Hash :=
  beefyStakes.map (prepLeafHash P)

/-- The proof tree that `ordered_proof_tree` makes of hashed leaves for some of their indices, as
what it is made from.  It stands for the tree where each of the indices is that of a leaf. -/
structure ProofTree where
  /-- The leaves of the tree. -/
  leaves : List Hash
  /-- The indices that are proven. -/
  indices : List ℕ
deriving DecidableEq

/-- The root over all authorities and the proof for those who signed. -/
structure AuthoritiesProof where
  root : Hash
  /-- The number of validators. -/
  totalLeaves : UInt32
  proof : ProofTree
deriving DecidableEq

/-- `AuthoritiesProof::try_new`. -/
def AuthoritiesProof.tryNew (signed : BeefySignedCommitment) (validatorSet : ValidatorSet) :
    Except Error AuthoritiesProof := do
  let sigIndices ← collectSignatureIndices P signed validatorSet
  let stakesInfo ← BeefyStakesInfo.tryFrom P signed.commitment.payload
  let keccakHashes := prepMerkleLeaves P stakesInfo.currentStakes
  match Merkle.treeRoot (combine P.keccak256) keccakHashes with
  | none => .error .invalidAuthoritiesProofCreation
  | some root =>
    return ⟨root, UInt32.ofNat validatorSet.validators.length, ⟨keccakHashes, sigIndices⟩⟩

/-! ### The votes -/

/-- A vote, as it is sent to Cardano. -/
structure Vote where
  signature : List UInt8
  authorityIndex : ℕ
  publicKey : List UInt8
deriving DecidableEq

/-- An entry of the payload, as it is sent to Cardano. -/
structure CardanoPayload where
  id : BeefyPayloadId
  data : List UInt8

/-- A commitment, as it is sent to Cardano. -/
structure CardanoCommitment where
  payloads : List CardanoPayload
  blockNumber : ℕ
  validatorSetId : ℕ

/-- A commitment with its votes, as it is sent to Cardano. -/
structure SignedCommitment where
  commitment : CardanoCommitment
  votes : List Vote

/-- The vote of a slot, if there is a signature; its last byte is dropped. -/
def voteOf (slot : (Option EcdsaSignature × ℕ) × BeefyId) : Option Vote :=
  slot.1.1.map fun sig => ⟨sig.toList.dropLast, slot.1.2, slot.2.inner.toList⟩

/-- `from_signed_commitment_and_validators`. -/
def SignedCommitment.fromSignedCommitmentAndValidators (signed : BeefySignedCommitment)
    (validators : List BeefyId) : SignedCommitment where
  commitment :=
    { payloads := (signed.commitment.payload.getAllRaw mmrRootId).map fun data =>
        ⟨mmrRootId, data⟩
      blockNumber := signed.commitment.blockNumber
      validatorSetId := signed.commitment.validatorSetId.toNat }
  votes := (signed.signatures.zipIdx.zip validators).filterMap voteOf

/-- What is relayed. -/
structure RelayChainProof where
  signedCommitment : SignedCommitment
  proof : AuthoritiesProof

/-- `RelayChainProof::generate`. -/
def RelayChainProof.generate (signed : BeefySignedCommitment) (validatorSet : ValidatorSet) :
    Except Error RelayChainProof := do
  let proof ← AuthoritiesProof.tryNew P signed validatorSet
  return ⟨.fromSignedCommitmentAndValidators signed validatorSet.validators, proof⟩

variable {P} {signed : BeefySignedCommitment} {validatorSet : ValidatorSet}

/-! ### The indices and the votes -/

/-- The slots with a signature, by the traversal of the indices. -/
lemma signatureIndices_eq (signatures : List (Option EcdsaSignature)) :
    signatureIndices signatures =
      (signatures.zipIdx.filter fun slot => slot.1.isSome).map Prod.snd := by
  rw [signatureIndices, ← List.filterMap_eq_map, List.filterMap_filter]
  refine List.filterMap_congr fun slot _ => ?_
  obtain ⟨sig, index⟩ := slot
  cases sig <;> rfl

lemma signatureIndices_sorted (signatures : List (Option EcdsaSignature)) :
    (signatureIndices signatures).Pairwise (· < ·) := by
  have hsub : (signatureIndices signatures).Sublist (List.range' 0 signatures.length) := by
    rw [signatureIndices_eq, ← List.zipIdx_map_snd 0 signatures]
    exact List.filter_sublist.map _
  exact List.Pairwise.sublist hsub List.pairwise_lt_range'

lemma mem_signatureIndices {signatures : List (Option EcdsaSignature)} {i : ℕ} :
    i ∈ signatureIndices signatures ↔ ∃ sig, signatures[i]? = some (some sig) := by
  simp only [signatureIndices, List.mem_filterMap, Prod.exists, Option.map_eq_some_iff,
    List.mem_zipIdx_iff_getElem?]
  constructor
  · rintro ⟨_, index, hslot, sig, rfl, rfl⟩
    exact ⟨sig, hslot⟩
  · rintro ⟨sig, hsig⟩
    exact ⟨some sig, i, hsig, sig, rfl, rfl⟩

/-- The votes are those of the slots with a signature. -/
lemma map_authorityIndex_votes (h : signed.signatures.length = validatorSet.validators.length) :
    (SignedCommitment.fromSignedCommitmentAndValidators signed
        validatorSet.validators).votes.map Vote.authorityIndex =
      signatureIndices signed.signatures := by
  have hzip : signed.signatures.zipIdx =
      (signed.signatures.zipIdx.zip validatorSet.validators).map Prod.fst := by
    rw [List.map_fst_zip]
    rw [List.length_zipIdx, h]
  rw [SignedCommitment.fromSignedCommitmentAndValidators, signatureIndices, hzip,
    List.filterMap_map, List.map_filterMap, ← hzip]
  refine List.filterMap_congr fun slot _ => ?_
  obtain ⟨⟨sig, index⟩, pk⟩ := slot
  cases sig <;> rfl

/-- Each vote is that of its validator. -/
lemma exists_of_mem_votes {vote : Vote}
    (h : vote ∈ (SignedCommitment.fromSignedCommitmentAndValidators signed
      validatorSet.validators).votes) :
    ∃ validator sig, validatorSet.validators[vote.authorityIndex]? = some validator ∧
      signed.signatures[vote.authorityIndex]? = some (some sig) ∧
      vote.publicKey = validator.inner.toList ∧ vote.signature = sig.toList.dropLast := by
  obtain ⟨⟨⟨maybeSig, index⟩, validator⟩, hslot, hvote⟩ := List.mem_filterMap.1 h
  obtain ⟨sig, rfl, rfl⟩ := Option.map_eq_some_iff.1 hvote
  obtain ⟨j, hj⟩ := List.mem_iff_getElem?.1 hslot
  obtain ⟨hsig, hvalidator⟩ := List.getElem?_zip_eq_some.1 hj
  rw [List.getElem?_zipIdx, Option.map_eq_some_iff] at hsig
  obtain ⟨_, hsig, heq⟩ := hsig
  cases heq
  rw [Nat.zero_add]
  exact ⟨validator, sig, hvalidator, hsig, rfl, rfl⟩

/-! ### What is proven and what is valid -/

/-- A commitment fits a validator set of its id with a slot for each validator. -/
lemma collectSignatureIndices_eq_ok {sigIndices : List ℕ} :
    collectSignatureIndices P signed validatorSet = .ok sigIndices ↔
      signed.signatures.length = validatorSet.validators.length ∧
      signed.commitment.validatorSetId = validatorSet.id ∧
      sigIndices = signatureIndices signed.signatures := by
  rw [collectSignatureIndices, verifySignatures]
  split
  · rename_i hmismatch
    refine ⟨fun h => absurd h (by simp [Except.mapError, bind, Except.bind]), ?_⟩
    rintro ⟨hlen, hid, -⟩
    exact absurd hmismatch (by simp [hlen, hid])
  · rename_i hmatch
    push Not at hmatch
    simp only [Except.mapError, bind, Except.bind, pure, Except.pure, Except.ok.injEq]
    exact ⟨fun h => ⟨hmatch.1, hmatch.2.1, h.symm⟩, fun h => h.2.2.symm⟩

/-- A proof is made for a commitment that fits, and proves the slots with a signature. -/
lemma AuthoritiesProof.tryNew_eq_ok {proof : AuthoritiesProof}
    (h : AuthoritiesProof.tryNew P signed validatorSet = .ok proof) :
    signed.signatures.length = validatorSet.validators.length ∧
      proof.proof.indices = signatureIndices signed.signatures := by
  obtain ⟨sigIndices, hindices, h⟩ := bind_eq_ok.1 h
  obtain ⟨stakesInfo, -, h⟩ := bind_eq_ok.1 h
  obtain ⟨hlen, -, rfl⟩ := collectSignatureIndices_eq_ok.1 hindices
  dsimp only at h
  split at h
  · cases h
  · cases h
    exact ⟨hlen, rfl⟩

/-- The proof and the votes cover the same authorities in order, each vote has the key of its
authority, and the signature of each authority verifies. -/
structure CoversValidVotes (P : Primitives) (signed : BeefySignedCommitment)
    (validatorSet : ValidatorSet) (proof : AuthoritiesProof) (votes : List Vote) : Prop where
  indices_eq : proof.proof.indices = votes.map Vote.authorityIndex
  increasing : proof.proof.indices.Pairwise (· < ·)
  publicKey : ∀ vote ∈ votes, ∃ validator,
    validatorSet.validators[vote.authorityIndex]? = some validator ∧
      vote.publicKey = validator.inner.toList
  verified : ∀ i ∈ proof.proof.indices, ∃ validator sig,
    validatorSet.validators[i]? = some validator ∧ signed.signatures[i]? = some (some sig) ∧
      P.verify validator sig (P.encodeCommitment signed.commitment) = true

/-- **When the relayed proof covers exactly the valid votes.**  For every validator set and every
commitment for which a proof is made, the proof and the votes cover the same authorities, in order
and with their keys, and all of their signatures verify, if and only if the commitment has no
signature that does not verify for the validator of its slot. -/
theorem relayed_proof_covers_valid_votes_iff (P : Primitives) (signed : BeefySignedCommitment)
    (validatorSet : ValidatorSet) {proof : AuthoritiesProof}
    (h : AuthoritiesProof.tryNew P signed validatorSet = .ok proof) :
    CoversValidVotes P signed validatorSet proof
        (SignedCommitment.fromSignedCommitmentAndValidators signed
          validatorSet.validators).votes ↔
      ∀ (i : ℕ) (validator : BeefyId) (sig : EcdsaSignature),
        validatorSet.validators[i]? = some validator → signed.signatures[i]? = some (some sig) →
          P.verify validator sig (P.encodeCommitment signed.commitment) = true := by
  obtain ⟨hlen, hindices⟩ := AuthoritiesProof.tryNew_eq_ok h
  constructor
  · intro hcovers i validator sig hvalidator hsig
    have hmem : i ∈ proof.proof.indices := by
      rw [hindices]
      exact mem_signatureIndices.2 ⟨sig, hsig⟩
    obtain ⟨validator', sig', hvalidator', hsig', hverify⟩ := hcovers.verified i hmem
    rw [hvalidator] at hvalidator'
    rw [hsig] at hsig'
    cases hvalidator'
    cases hsig'
    exact hverify
  · intro hvalid
    refine ⟨?_, ?_, fun vote hvote => ?_, fun i hi => ?_⟩
    · rw [hindices, map_authorityIndex_votes hlen]
    · rw [hindices]
      exact signatureIndices_sorted signed.signatures
    · obtain ⟨validator, _, hvalidator, -, hkey, -⟩ := exists_of_mem_votes hvote
      exact ⟨validator, hvalidator, hkey⟩
    · rw [hindices] at hi
      obtain ⟨sig, hsig⟩ := mem_signatureIndices.1 hi
      -- every slot has a validator
      obtain ⟨hi, -⟩ := List.getElem?_eq_some_iff.1 hsig
      have hvalidator := List.getElem?_eq_getElem (hlen ▸ hi)
      exact ⟨_, sig, hvalidator, hsig, hvalid i _ sig hvalidator hsig⟩

/-! ### The root -/

/-- The relay builds the leaves of the chain. -/
lemma prepMerkleLeaves_eq (beefyStakes : BeefyStakes) :
    prepMerkleLeaves P beefyStakes = (beefyStakesAsBytes beefyStakes).map P.keccak256 :=
  (map_beefyStakesAsBytes beefyStakes).symm

/-- The relay computes the root of the chain. -/
lemma treeRoot_prepMerkleLeaves {beefyStakes : BeefyStakes} (hne : beefyStakes ≠ [])
    (id : ValidatorSetId) :
    Merkle.treeRoot (combine P.keccak256) (prepMerkleLeaves P beefyStakes) =
      some (computeAuthoritySet P.keccak256 id beefyStakes).keysetCommitment := by
  have hleaves : prepMerkleLeaves P beefyStakes ≠ [] := by
    simpa [prepMerkleLeaves] using hne
  obtain ⟨root, hroot, hhas⟩ := Merkle.treeRoot_eq_some (combine P.keccak256) hleaves
  rw [hroot, hhas.unique (hasRoot_computeAuthoritySet id hne)]

/-- A commitment that fits the validator set, with the stakes of some validators, has a proof. -/
lemma AuthoritiesProof.tryNew_of_stakes {sigIndices : List ℕ}
    (hindices : collectSignatureIndices P signed validatorSet = .ok sigIndices)
    {stakesInfo : BeefyStakesInfo}
    (hinfo : BeefyStakesInfo.tryFrom P signed.commitment.payload = .ok stakesInfo)
    (hne : stakesInfo.currentStakes ≠ []) (id : ValidatorSetId) :
    AuthoritiesProof.tryNew P signed validatorSet =
      .ok ⟨(computeAuthoritySet P.keccak256 id stakesInfo.currentStakes).keysetCommitment,
        UInt32.ofNat validatorSet.validators.length,
        ⟨prepMerkleLeaves P stakesInfo.currentStakes, sigIndices⟩⟩ := by
  simp only [AuthoritiesProof.tryNew, hindices, hinfo, bind, Except.bind,
    treeRoot_prepMerkleLeaves hne id]
  rfl

/-- **The relay recomputes the commitment of the chain.**  For every commitment that fits the
validator set and whose payload has the stakes of any non-empty list of validators, `try_new` gives
a proof; its root is the `keyset_commitment` that the chain computes for the same list, under any
id, and the `i`-th leaf of both trees is the hash of the `i`-th key with its stake. -/
theorem relay_root_eq_keyset_commitment (P : Primitives) (signed : BeefySignedCommitment)
    (validatorSet : ValidatorSet) {sigIndices : List ℕ}
    (hindices : collectSignatureIndices P signed validatorSet = .ok sigIndices)
    {stakesInfo : BeefyStakesInfo}
    (hinfo : BeefyStakesInfo.tryFrom P signed.commitment.payload = .ok stakesInfo)
    (hne : stakesInfo.currentStakes ≠ []) (id : ValidatorSetId) :
    ∃ proof, AuthoritiesProof.tryNew P signed validatorSet = .ok proof ∧
      proof.root =
        (computeAuthoritySet P.keccak256 id stakesInfo.currentStakes).keysetCommitment ∧
      ∀ i : ℕ,
        proof.proof.leaves[i]? = stakesInfo.currentStakes[i]?.map (fun (id, stake) =>
          P.keccak256 (id.inner.toList ++ toLeBytes stake)) ∧
        ((beefyStakesAsBytes stakesInfo.currentStakes).map P.keccak256)[i]? =
          stakesInfo.currentStakes[i]?.map (fun (id, stake) =>
            P.keccak256 (id.inner.toList ++ toLeBytes stake)) := by
  refine ⟨_, AuthoritiesProof.tryNew_of_stakes hindices hinfo hne id, rfl, fun i => ⟨?_, ?_⟩⟩
  · exact List.getElem?_map
  · rw [← prepMerkleLeaves_eq]
    exact List.getElem?_map

/-! ### A forged signature -/

/-- A number from its bytes, the lowest first. -/
def leNat (bytes : List UInt8) : ℕ :=
  bytes.foldr (fun byte n => byte.toNat + 256 * n) 0

/-- The given number of keys with their stakes. -/
def demoDecodeStakes : ℕ → List UInt8 → Option BeefyStakes
  | 0, bytes => if bytes = [] then some [] else none
  | n + 1, bytes =>
    if h : (bytes.take 33).length = 33 then
      (demoDecodeStakes n (bytes.drop 41)).map fun stakes =>
        (⟨⟨bytes.take 33, h⟩⟩, UInt64.ofNat (leNat ((bytes.drop 33).take 8))) :: stakes
    else none

/-- A signature verifies when it begins with the key; the encodings are those of SCALE. -/
def demoPrimitives : Primitives where
  keccak256 := demoKeccak
  verify := fun id signature _ => signature.toList.take 33 = id.inner.toList
  encodeCommitment := fun commitment => [UInt8.ofNat commitment.blockNumber]
  decodeBeefyStakes := fun bytes =>
    match bytes with
    | [] => none
    | length :: bytes => demoDecodeStakes (length.toNat / 4) bytes
  decodeAuthoritySet := fun bytes =>
    if h : ((bytes.drop 12).take 32).length = 32 then
      some ⟨UInt64.ofNat (leNat (bytes.take 8)), UInt32.ofNat (leNat ((bytes.drop 8).take 4)),
        ⟨(bytes.drop 12).take 32, h⟩⟩
    else none

/-- Two validators. -/
def demoSet : ValidatorSet where
  validators := [demoKey 7, demoKey 8]
  id := 3
  validators_ne_nil := List.cons_ne_nil _ _
  length_lt := by simp

/-- The stakes of the two validators, encoded. -/
def demoStakes : List UInt8 :=
  8 :: (List.replicate 33 7 ++ [1, 0, 0, 0, 0, 0, 0, 0] ++
    List.replicate 33 8 ++ [1, 0, 0, 0, 0, 0, 0, 0])

/-- A signature by a key of equal bytes. -/
def demoSignature (byte : UInt8) : EcdsaSignature := List.Vector.replicate 65 byte

/-- A commitment of the two validators with the given signatures. -/
def demoSigned (signatures : List (Option EcdsaSignature)) : BeefySignedCommitment where
  commitment :=
    { payload := [(currentBeefyAuthoritySet, List.replicate 44 0),
        (currentBeefyStakesId, demoStakes), (mmrRootId, List.replicate 32 5),
        (nextBeefyAuthoritySet, List.replicate 44 0), (nextBeefyStakesId, demoStakes)]
      blockNumber := 9
      validatorSetId := 3 }
  signatures := signatures

/-- What the payload of the demonstration says. -/
def demoInfo : BeefyStakesInfo where
  currentStakes := [(demoKey 7, 1), (demoKey 8, 1)]
  currentAuthoritySet := ⟨0, 0, zeroHash⟩
  nextStakes := [(demoKey 7, 1), (demoKey 8, 1)]
  nextAuthoritySet := ⟨0, 0, zeroHash⟩

lemma tryFrom_demoSigned (signatures : List (Option EcdsaSignature)) :
    BeefyStakesInfo.tryFrom demoPrimitives (demoSigned signatures).commitment.payload =
      .ok demoInfo := by
  have hsorted : (demoSigned signatures).commitment.payload.Sorted := pairwise_payloadIds
  have hstakes : demoPrimitives.decodeBeefyStakes demoStakes = some demoInfo.currentStakes := rfl
  have hset : demoPrimitives.decodeAuthoritySet (List.replicate 44 0) =
      some demoInfo.currentAuthoritySet := rfl
  rw [BeefyStakesInfo.tryFrom, getDecoded_of_mem hsorted (by simp [demoSigned]) hstakes,
    getDecoded_of_mem hsorted (by simp [demoSigned]) hset,
    getDecoded_of_mem hsorted (by simp [demoSigned]) hstakes,
    getDecoded_of_mem hsorted (by simp [demoSigned]) hset]
  rfl

/-- The second signature alone, by the second validator. -/
theorem relayed_proof_covers_one_vote :
    ∃ proof, AuthoritiesProof.tryNew demoPrimitives
        (demoSigned [none, some (demoSignature 8)]) demoSet = .ok proof ∧
      CoversValidVotes demoPrimitives (demoSigned [none, some (demoSignature 8)]) demoSet proof
        [⟨List.replicate 64 8, 1, List.replicate 33 8⟩] := by
  have hindices : collectSignatureIndices demoPrimitives
      (demoSigned [none, some (demoSignature 8)]) demoSet = .ok [1] := rfl
  have hproof := AuthoritiesProof.tryNew_of_stakes hindices (tryFrom_demoSigned _)
    (List.cons_ne_nil _ _) 3
  refine ⟨_, hproof, (relayed_proof_covers_valid_votes_iff demoPrimitives _ demoSet hproof).2 ?_⟩
  intro i validator sig hvalidator hsig
  match i with
  | 0 => cases hsig
  | 1 =>
    cases hvalidator
    cases hsig
    rfl
  | i + 2 => cases hvalidator

/-- The root for two validators of stake one. -/
theorem relay_root_demo :
    ∃ proof, AuthoritiesProof.tryNew demoPrimitives
        (demoSigned [none, some (demoSignature 8)]) demoSet = .ok proof ∧
      proof.root = (computeAuthoritySet demoKeccak 3
        [(demoKey 7, 1), (demoKey 8, 1)]).keysetCommitment ∧
      proof.proof.leaves[1]? =
        some (demoKeccak ((demoKey 8).inner.toList ++ [1, 0, 0, 0, 0, 0, 0, 0])) := by
  have hindices : collectSignatureIndices demoPrimitives
      (demoSigned [none, some (demoSignature 8)]) demoSet = .ok [1] := rfl
  obtain ⟨proof, hproof, hroot, hleaves⟩ := relay_root_eq_keyset_commitment demoPrimitives _ demoSet
    hindices (tryFrom_demoSigned _) (List.cons_ne_nil _ _) 3
  exact ⟨proof, hproof, hroot, (hleaves 1).1⟩

/-- The second slot has a signature by another key.  The verification leaves it out, the proof and
the votes do not. -/
theorem forged_vote_relayed :
    verifySignatures demoPrimitives
        (demoSigned [some (demoSignature 7), some (demoSignature 9)]) 9 demoSet =
      .ok [(demoKey 7, demoSignature 7)] ∧
    ∃ proof, AuthoritiesProof.tryNew demoPrimitives
        (demoSigned [some (demoSignature 7), some (demoSignature 9)]) demoSet = .ok proof ∧
      proof.proof.indices = [0, 1] ∧
      ¬ CoversValidVotes demoPrimitives
        (demoSigned [some (demoSignature 7), some (demoSignature 9)]) demoSet proof
        (SignedCommitment.fromSignedCommitmentAndValidators
          (demoSigned [some (demoSignature 7), some (demoSignature 9)])
          demoSet.validators).votes := by
  have hindices : collectSignatureIndices demoPrimitives
      (demoSigned [some (demoSignature 7), some (demoSignature 9)]) demoSet = .ok [0, 1] := rfl
  refine ⟨rfl, _, AuthoritiesProof.tryNew_of_stakes hindices (tryFrom_demoSigned _)
    (List.cons_ne_nil _ _) 3, rfl, fun h => ?_⟩
  obtain ⟨validator, sig, hvalidator, hsig, hverify⟩ := h.verified 1 (by decide)
  cases hvalidator
  cases hsig
  revert hverify
  decide

end MidnightNode.Relay
