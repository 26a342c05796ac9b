/-
# Relaying justifications

The relay subscribes to the justifications of a node.  For each of them it asks the node for the
validators, at the best block, and prints the commitment with its votes and the proof of the
authorities as Plutus data.  The validators are needed for their keys only; the leaves of the tree
come from the payload that was signed.  Between the two there is time: the best block may be in a
later session than the block of the justification.

An error of one justification ends the subscription with `?`, and `main` too.  So the relay prints a
proof for each justification up to the first one that it cannot handle: one for which a query fails,
that comes after the end of its session, or whose block had no next committee.  Every proof that is
printed has the keys of the votes at their places in the tree that the validators have signed.
-/
import MidnightNode.Node.BeefyPayload

namespace MidnightNode.Relay

open Beefy Node Traverse

/-! ### Plutus data -/

/-- `PlutusData`, as far as it is built here.  Arrays are indefinite. -/
inductive PlutusData
  | constr (tag : ℕ) (fields : List PlutusData)
  | array (items : List PlutusData)
  | bigInt (value : ℤ)
  | boundedBytes (bytes : List UInt8)

/-- `ProofNode`. -/
inductive ProofNode
  | leaf (hash : Hash)
  | node (nodes : List ProofNode)

/-- `TAG`. -/
def tag : ℕ := 121

/-- `as i64`. -/
def asI64 (n : ℕ) : ℤ := Int.bmod n (2 ^ 64)

mutual

/-- `proof_node_to_plutus_data`. -/
def proofNodeToPlutusData : ProofNode → PlutusData
  | .leaf hash => .boundedBytes hash.toList
  | .node nodes => .array (proofNodesToPlutusData nodes)

/-- The nodes below a node. -/
def proofNodesToPlutusData : List ProofNode → List PlutusData
  | [] => []
  | node :: nodes => proofNodeToPlutusData node :: proofNodesToPlutusData nodes

end

/-- `to_plutus_data` of a vote. -/
def Vote.toPlutusData (vote : Vote) : PlutusData :=
  .constr tag [.boundedBytes vote.signature, .bigInt (asI64 vote.authorityIndex),
    .boundedBytes vote.publicKey]

/-- `to_plutus_data` of an entry of the payload. -/
def CardanoPayload.toPlutusData (payload : CardanoPayload) : PlutusData :=
  .constr tag [.boundedBytes [payload.id.1, payload.id.2], .boundedBytes payload.data]

/-- `to_plutus_data` of a commitment. -/
def CardanoCommitment.toPlutusData (commitment : CardanoCommitment) : PlutusData :=
  .constr tag [.array (commitment.payloads.map CardanoPayload.toPlutusData),
    .bigInt (asI64 commitment.blockNumber), .bigInt (asI64 commitment.validatorSetId)]

/-- `to_plutus_data` of a commitment with its votes. -/
def SignedCommitment.toPlutusData (signed : SignedCommitment) : PlutusData :=
  .constr tag [signed.commitment.toPlutusData, .array (signed.votes.map Vote.toPlutusData)]

section Tree

/-! `ordered_proof_tree` is a function of the leaves and of the proven indices. -/

variable (orderedProofTree : ProofTree → ProofNode)

/-- `to_plutus_data` of the proof of the authorities. -/
def AuthoritiesProof.toPlutusData (proof : AuthoritiesProof) : PlutusData :=
  .constr tag [.boundedBytes proof.root.toList, .bigInt (asI64 proof.totalLeaves.toNat),
    proofNodeToPlutusData (orderedProofTree proof.proof)]

/-- `to_plutus_data` of what is relayed. -/
def RelayChainProof.toPlutusData (relayed : RelayChainProof) : PlutusData :=
  .constr tag [relayed.signedCommitment.toPlutusData, relayed.proof.toPlutusData orderedProofTree]

end Tree

/-! The data say what was relayed: a number below `2 ^ 64` can be read from its `i64`. -/

/-- The errors of the relay; those of the libraries without their texts. -/
inductive RelayerError
  | proof (e : Error)
  | subxt
  | rpc
  | codec
  | emptyValidatorSet

/-- What a node answers while one justification is handled.  A query can fail. -/
structure Rpc (BlockHash : Type) where
  /-- `get_best_block_number`. -/
  bestBlockNumber : Option ℕ
  /-- `get_block_hash`. -/
  blockHash : ℕ → Option BlockHash
  /-- `validator_set` of the BEEFY API, at a block or at the latest one. -/
  validatorSet : Option BlockHash → Except RelayerError (Option ValidatorSet)

/-- A justification, and the node as it is when it arrives. -/
structure Delivery (BlockHash : Type) where
  /-- The decoded justification. -/
  signed : BeefySignedCommitment
  /-- The answers of the node. -/
  rpc : Rpc BlockHash

variable {BlockHash : Type}

/-- `choose_params`. -/
def chooseParams (rpc : Rpc BlockHash) (signed : BeefySignedCommitment) :
    Option ℕ × Option BlockHash :=
  let bestBlock := rpc.bestBlockNumber
  let atBlockHash :=
    match bestBlock with
    | none => rpc.blockHash signed.commitment.blockNumber
    | some _ => none
  (bestBlock, atBlockHash)

/-- `get_beefy_validator_set`. -/
def getBeefyValidatorSet (rpc : Rpc BlockHash) (atBlockHash : Option BlockHash) :
    Except RelayerError ValidatorSet :=
  match rpc.validatorSet atBlockHash with
  | .error e => .error e
  | .ok none => .error .emptyValidatorSet
  | .ok (some validatorSet) => .ok validatorSet

section Relay

variable (P : Primitives) (orderedProofTree : ProofTree → ProofNode)

/-- `handle_justification_stream_data`: what is printed. -/
def handleJustificationStreamData (delivery : Delivery BlockHash) :
    Except RelayerError PlutusData := do
  let (_, atBlockHash) := chooseParams delivery.rpc delivery.signed
  let validatorSet ← getBeefyValidatorSet delivery.rpc atBlockHash
  let relayChainProof ← (RelayChainProof.generate P delivery.signed validatorSet).mapError .proof
  return relayChainProof.toPlutusData orderedProofTree

/-- An item of the subscription.  Where it could not be made, or an item is an error or does not
decode, there is this error. -/
abbrev Item (BlockHash : Type) : Type := Except RelayerError (Delivery BlockHash)

/-- `run_relay_by_subscription`: what is printed, and how it ends. -/
def runRelayBySubscription :
    List (Item BlockHash) → List PlutusData × Except RelayerError Unit
  | [] => ([], .ok ())
  | item :: items =>
    match item.bind (handleJustificationStreamData P orderedProofTree) with
    | .error e => ([], .error e)
    | .ok plutusData =>
      let (printed, result) := runRelayBySubscription items
      (plutusData :: printed, result)

/-- `main` for some attempts to connect: one that fails is tried again, and so is one whose
subscription has ended.  What is printed, and the error if there was one. -/
def main : List (Option (List (Item BlockHash))) → List PlutusData × Option RelayerError
  | [] => ([], none)
  | none :: connections => main connections
  | some items :: connections =>
    match runRelayBySubscription P orderedProofTree items with
    | (printed, .error e) => (printed, some e)
    | (printed, .ok ()) =>
      let (more, result) := main connections
      (printed ++ more, result)

variable {P orderedProofTree}

end Relay

/-! ### The chain -/

/-- `validator_set` of the BEEFY pallet; there are less than `MaxAuthorities` validators. -/
def validatorSetOf (s : State) : Option ValidatorSet :=
  if h : s.authorities ≠ [] ∧ s.authorities.length < 2 ^ 32 then
    some ⟨s.authorities, s.validatorSetId, h.1, h.2⟩
  else none

/-- What one block does to the storage of the BEEFY pallet.  The other pallets are free. -/
inductive BeefyStep (s s' : State) : Prop
  | within (authorities : s'.authorities = s.authorities)
      (validatorSetId : s'.validatorSetId = s.validatorSetId)
  /-- `change_authorities`, at the first block of a session. -/
  | newSession (validatorSetId : s'.validatorSetId = s.validatorSetId + 1)

/-- A chain: the storage after each block, and the root of the MMR. -/
structure Chain where
  states : ℕ → State
  mmrRoot : ℕ → Hash
  /-- The root in the digest of a block, if it is there. -/
  mmrRootDigest : ℕ → Option Hash
  digest_eq : ∀ n root, mmrRootDigest n = some root → root = mmrRoot n
  genesis_id : (states 0).validatorSetId = 0
  step : ∀ n, BeefyStep (states n) (states (n + 1))
  length_authorities : ∀ n, (states n).authorities.length < 2 ^ 32
  length_nextAuthorities : ∀ n, (states n).nextAuthorities.length < 2 ^ 32

namespace Chain

variable (chain : Chain)

/-- No session begins after a block up to another one. -/
def SameSession (m n : ℕ) : Prop :=
  ∀ k, m ≤ k → k < n →
    (chain.states (k + 1)).validatorSetId = (chain.states k).validatorSetId

variable {chain}

/-- The commitment of a block, if there is a payload for it. -/
def commitment (chain : Chain) (keccak : List UInt8 → Hash) (n : ℕ) : Option Commitment :=
  (payload (chain.mmrRootDigest n) (.ofState keccak (chain.mmrRoot n) (chain.states n))).map
    fun payload => ⟨payload, n, (chain.states n).validatorSetId⟩

lemma commitment_eq (keccak : List UInt8 → Hash) (n : ℕ) :
    chain.commitment keccak n = some
      ⟨currentEntries keccak (chain.mmrRoot n) (chain.states n) ++
        if (chain.states n).nextCommittee.isSome then nextEntries keccak (chain.states n) else [],
        n, (chain.states n).validatorSetId⟩ := by
  rw [commitment, payload_ofState (chain.states n) (chain.digest_eq n)]
  rfl

end Chain

/-! ### Deliveries of a chain -/

/-- A justification of a block of a chain, that arrives when the chain is at a later block.  The
signatures are arbitrary, but there is a slot for each validator of the block.  Where the node
answers, it answers for this chain. -/
structure ChainDelivery (chain : Chain) (keccak : List UInt8 → Hash) (hash : ℕ → BlockHash) extends
    Delivery BlockHash where
  /-- The block that is justified. -/
  block : ℕ
  /-- The block that the node is at. -/
  latest : ℕ
  block_le : block ≤ latest
  latest_lt : latest < 2 ^ 32
  commitment_eq : chain.commitment keccak block = some signed.commitment
  authorities_ne_nil : (chain.states block).authorities ≠ []
  length_signatures : signed.signatures.length = (chain.states block).authorities.length
  blockHash_eq : ∀ n h, rpc.blockHash n = some h → h = hash n
  validatorSet_at : ∀ n set, rpc.validatorSet (some (hash n)) = .ok set →
    set = validatorSetOf (chain.states n)
  validatorSet_latest : ∀ set, rpc.validatorSet none = .ok set →
    set = validatorSetOf (chain.states latest)

variable {chain : Chain} {keccak : List UInt8 → Hash} {hash : ℕ → BlockHash}

namespace ChainDelivery

variable (d : ChainDelivery chain keccak hash)

/-- The block whose validators are asked for. -/
def queried : ℕ :=
  if d.rpc.bestBlockNumber.isNone ∧ (d.rpc.blockHash d.block).isSome then d.block else d.latest

/-- The query of the validators is answered, no session has begun until the queried block, and the
next committee was known at the block. -/
structure Relayable : Prop where
  answered : ∃ set, d.rpc.validatorSet (chooseParams d.rpc d.signed).2 = .ok set
  sameSession : chain.SameSession d.block d.queried
  nextCommittee : (chain.states d.block).nextCommittee ≠ none

variable {d}

section Handle

variable {verify : BeefyId → EcdsaSignature → List UInt8 → Bool}
  {encodeCommitment : Commitment → List UInt8} {orderedProofTree : ProofTree → ProofNode}

/-- What is relayed for the block. -/
def relayedProof (d : ChainDelivery chain keccak hash) : RelayChainProof where
  signedCommitment :=
    .fromSignedCommitmentAndValidators d.signed (chain.states d.block).authorities
  proof :=
    ⟨(stakesInfoOf keccak (chain.states d.block)).currentAuthoritySet.keysetCommitment,
      UInt32.ofNat (chain.states d.block).authorities.length,
      (withStakeOne (chain.states d.block).authorities).map (leafHash keccak),
      signatureIndices d.signed.signatures⟩

end Handle

end ChainDelivery

/-! ### Runs of the relay -/

/-- An item of a subscription at a node of the chain. -/
abbrev ChainItem (chain : Chain) (keccak : List UInt8 → Hash) (hash : ℕ → BlockHash) : Type :=
  Except RelayerError (ChainDelivery chain keccak hash)

section Runs

variable (verify : BeefyId → EcdsaSignature → List UInt8 → Bool)
  (encodeCommitment : Commitment → List UInt8) (orderedProofTree : ProofTree → ProofNode)

/-- What is printed for some items and how it ends, if they are handled up to the first one that
cannot be relayed. -/
def Handles (items : List (ChainItem chain keccak hash))
    (run : List PlutusData × Except RelayerError Unit) : Prop :=
  ∃ (done : List (ChainDelivery chain keccak hash)) (rest : List (ChainItem chain keccak hash)),
    items = done.map .ok ++ rest ∧ (∀ d ∈ done, d.Relayable) ∧
    (∀ d, rest.head? = some (.ok d) → ¬ d.Relayable) ∧
    run.1 = done.map (fun d => d.relayedProof.toPlutusData orderedProofTree) ∧
    (run.2 = .ok () ↔ rest = [])

variable {orderedProofTree}

/-- It goes on after one that is relayed. -/
lemma Handles.next {d : ChainDelivery chain keccak hash} (hd : d.Relayable)
    {items : List (ChainItem chain keccak hash)}
    {run : List PlutusData × Except RelayerError Unit} (h : Handles orderedProofTree items run) :
    Handles orderedProofTree (.ok d :: items)
      (d.relayedProof.toPlutusData orderedProofTree :: run.1, run.2) := by
  obtain ⟨done, rest, rfl, hdone, hrest, hprinted, hresult⟩ := h
  refine ⟨d :: done, rest, rfl, List.forall_mem_cons.2 ⟨hd, hdone⟩, hrest, ?_, hresult⟩
  rw [hprinted, List.map_cons]

variable (orderedProofTree)

end Runs

end MidnightNode.Relay
