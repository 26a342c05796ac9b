/-
# Ledger transactions and their unshielded UTXOs

The parts of a transaction that the node reads: the intents with their unshielded offers and
contract actions, segment by segment.  From them `unshieldedUtxos` derives the UTXOs that a
transaction creates and spends, and `checkUtxosResponseIntegrity` compares them with the UTXO
set the ledger arrived at.

The ledger crate itself is a parameter: its types are fields of `LedgerTypes`.
-/
import MidnightNode.Lib.ListMap
import Mathlib.Algebra.Group.Nat.Defs
import Mathlib.Data.Finset.Card
import Mathlib.Data.List.Dedup
import Mathlib.Data.List.Sort

namespace MidnightNode.Ledger

open ListMap

/-- Types of the ledger crate that the node passes on without looking inside. -/
structure LedgerTypes where
  /-- What else a transaction holds: proofs, signatures, binding commitments. -/
  Rest : Type
  /-- A shielded offer. -/
  Offer : Type
  /-- `MalformedTransaction`. -/
  Malformed : Type
  /-- `TransactionInvalid`. -/
  Invalid : Type

/-- A persistent hash, 32 bytes. -/
abbrev Hash : Type := BitVec 256

/-- The index of a segment, a `u16`. -/
abbrev SegmentId : Type := ℕ

/-- An unshielded output. -/
structure UtxoOutput where
  value : BitVec 128
  owner : Hash
  type_ : Hash
deriving DecidableEq

/-- An unshielded UTXO, as the ledger keys it. -/
structure Utxo where
  value : BitVec 128
  owner : Hash
  type_ : Hash
  intentHash : Hash
  outputNo : BitVec 32
deriving DecidableEq

/-- The spend of an unshielded UTXO. -/
structure UtxoSpend where
  /-- `Utxo::from(spend)`, the UTXO that is spent. -/
  toUtxo : Utxo
deriving DecidableEq

/-- A UTXO as the node reports it. -/
structure UtxoInfo where
  address : Hash
  tokenType : Hash
  intentHash : Hash
  value : BitVec 128
  outputNo : BitVec 32
deriving DecidableEq

/-- The ledger's UTXO for a reported one. -/
def UtxoInfo.toUtxo (info : UtxoInfo) : Utxo :=
  ⟨info.value, info.address, info.tokenType, info.intentHash, info.outputNo⟩

/-- `from_utxo_spend`. -/
def fromUtxoSpend (spend : UtxoSpend) : UtxoInfo :=
  ⟨spend.toUtxo.owner, spend.toUtxo.type_, spend.toUtxo.intentHash, spend.toUtxo.value,
    spend.toUtxo.outputNo⟩

lemma UtxoInfo.toUtxo_injective : Function.Injective UtxoInfo.toUtxo := by
  rintro ⟨a, b, c, d, e⟩ ⟨a', b', c', d', e'⟩ h
  simp only [toUtxo, Utxo.mk.injEq] at h
  obtain ⟨rfl, rfl, rfl, rfl, rfl⟩ := h
  rfl

@[simp] lemma toUtxo_fromUtxoSpend (spend : UtxoSpend) :
    (fromUtxoSpend spend).toUtxo = spend.toUtxo :=
  rfl

/-- A contract action of an intent. -/
inductive ContractAction
  | call (address : Hash) (entryPoint : List UInt8)
  | deploy (address : Hash)
  | maintain (address : Hash)
deriving DecidableEq

/-- An intent: its guaranteed and fallible unshielded offers and its actions. -/
structure Intent where
  guaranteedInputs : List UtxoSpend
  guaranteedOutputs : List UtxoOutput
  fallibleInputs : List UtxoSpend
  fallibleOutputs : List UtxoOutput
  actions : List ContractAction
  /-- `intent_hash(segment_id)` of the intent without proofs and signatures. -/
  intentHash : SegmentId → Hash

variable (L : LedgerTypes)

/-- A standard transaction. -/
structure StandardTransaction where
  /-- The intents by their segment, in the order of the ledger's map. -/
  intents : List (SegmentId × Intent)
  /-- They make up a map. -/
  intents_nodup : (intents.map Prod.fst).Nodup
  /-- The guaranteed shielded offer. -/
  guaranteedCoins : Option L.Offer
  /-- The fallible shielded offers by their segment. -/
  fallibleCoins : List (SegmentId × L.Offer)
  /-- The rest of the transaction. -/
  rest : L.Rest

/-- A transaction. -/
inductive Transaction
  | standard (tx : StandardTransaction L)
  | claimRewards (value : BitVec 128) (rest : L.Rest)

variable {L}

namespace StandardTransaction

/-- `segments`: the guaranteed segment and those of the intents and fallible offers, in
ascending order. -/
def segments (tx : StandardTransaction L) : List SegmentId :=
  (0 :: (tx.intents.map Prod.fst ++ tx.fallibleCoins.map Prod.fst)).dedup.insertionSort (· ≤ ·)

/-- `intents.get`. -/
def intent (tx : StandardTransaction L) (segmentId : SegmentId) : Option Intent :=
  (tx.intents.find? (fun e => e.1 == segmentId)).map Prod.snd

/-- `actions`: the contract actions with the segment of their intent. -/
def actions (tx : StandardTransaction L) : List (SegmentId × ContractAction) :=
  tx.intents.flatMap (fun e => e.2.actions.map (fun action => (e.1, action)))

lemma segments_nodup (tx : StandardTransaction L) : tx.segments.Nodup :=
  (List.perm_insertionSort _ _).nodup_iff.2 (List.nodup_dedup _)

lemma mem_segments {tx : StandardTransaction L} {s : SegmentId} :
    s ∈ tx.segments ↔ s = 0 ∨ s ∈ tx.intents.map Prod.fst ∨ s ∈ tx.fallibleCoins.map Prod.fst := by
  rw [segments, List.mem_insertionSort, List.mem_dedup, List.mem_cons, List.mem_append]

lemma intent_eq_none {tx : StandardTransaction L} {s : SegmentId}
    (h : s ∉ tx.intents.map Prod.fst) : tx.intent s = none := by
  refine Option.map_eq_none_iff.2 (List.find?_eq_none.2 (fun e he heq => h ?_))
  exact List.mem_map.2 ⟨e, he, by simpa using heq⟩

end StandardTransaction

/-! ### Derived UTXOs -/

/-- The UTXOs that a transaction creates and spends, by segment. -/
structure UnshieldedUtxos where
  outputs : Map UtxoInfo
  inputs : Map UtxoInfo

/-- `UnshieldedUtxos::default`. -/
def UnshieldedUtxos.empty : UnshieldedUtxos := ⟨Map.empty, Map.empty⟩

/-- One output with its index, if the index is a `u32`. -/
def utxoOutputInfo (intentHash : Hash) (output : UtxoOutput) (outputNo : ℕ) : Option UtxoInfo :=
  if outputNo < 2 ^ 32 then
    some ⟨output.owner, output.type_, intentHash, output.value, BitVec.ofNat 32 outputNo⟩
  else none

/-- `utxos_info_from_output`. -/
def utxosInfoFromOutput (outputs : List UtxoOutput) (intentHash : Hash) :
    Option (List UtxoInfo) :=
  outputs.zipIdx.mapM (fun o => utxoOutputInfo intentHash o.1 o.2)

/-- `utxos_info_from_inputs`. -/
def utxosInfoFromInputs (inputs : List UtxoSpend) : List UtxoInfo :=
  inputs.map fromUtxoSpend

/-- Append what one intent creates and spends in a segment, `none` if an output index exceeds
`u32::MAX`. -/
def UnshieldedUtxos.update (segmentId : SegmentId) (intent : Intent)
    (outputs : List UtxoOutput) (inputs : List UtxoSpend) (utxos : UnshieldedUtxos) :
    Option UnshieldedUtxos :=
  match utxosInfoFromOutput outputs (intent.intentHash segmentId) with
  | none => none
  | some outputsInfo =>
    some ⟨utxos.outputs.extend segmentId outputsInfo,
      utxos.inputs.extend segmentId (utxosInfoFromInputs inputs)⟩

/-- One round of the loop over the segments: the guaranteed segment has the guaranteed offers
of all intents, any other the fallible offers of its intent. -/
def UnshieldedUtxos.addSegment (tx : StandardTransaction L) (utxos : UnshieldedUtxos)
    (segmentId : SegmentId) : Option UnshieldedUtxos :=
  if segmentId = 0 then
    tx.intents.foldlM (fun utxos e =>
      utxos.update segmentId e.2 e.2.guaranteedOutputs e.2.guaranteedInputs) utxos
  else
    match tx.intent segmentId with
    | some intent => utxos.update segmentId intent intent.fallibleOutputs intent.fallibleInputs
    | none => some utxos

/-- `unshielded_utxos`: nothing for transactions that claim rewards, and nothing at all where an
output index exceeds `u32::MAX`. -/
def Transaction.unshieldedUtxos : Transaction L → UnshieldedUtxos
  | .standard tx =>
    (tx.segments.foldlM (UnshieldedUtxos.addSegment tx) .empty).getD .empty
  | .claimRewards _ _ => .empty

/-- The outcome of each segment of a transaction that succeeded partially. -/
abbrev SegmentResults (L : LedgerTypes) : Type := List (SegmentId × Except L.Invalid Unit)

/-- The segment failed. -/
def SegmentResults.failed (segments : SegmentResults L) (s : SegmentId) : Bool :=
  segments.any (fun e => e.1 == s && !e.2.toBool)

lemma SegmentResults.failed_cons (s k : SegmentId) (result : Except L.Invalid Unit)
    (segments : SegmentResults L) :
    SegmentResults.failed ((s, result) :: segments) k =
      ((s == k && !result.toBool) || SegmentResults.failed segments k) :=
  rfl

/-- One round of `remove_failed_segments`. -/
def UnshieldedUtxos.removeIfFailed (utxos : UnshieldedUtxos)
    (segment : SegmentId × Except L.Invalid Unit) : UnshieldedUtxos :=
  match segment.2 with
  | .error _ => ⟨utxos.outputs.remove segment.1, utxos.inputs.remove segment.1⟩
  | .ok _ => utxos

/-- `remove_failed_segments`. -/
def UnshieldedUtxos.removeFailedSegments (utxos : UnshieldedUtxos)
    (segments : SegmentResults L) : UnshieldedUtxos :=
  segments.foldl removeIfFailed utxos

/-! ### The integrity check -/

/-- The errors of the ledger bridge that occur here. -/
inductive LedgerApiError (L : LedgerTypes)
  | deserializationTransaction
  | deserializationTypedArenaKey
  | serializationTypedArenaKey
  | serializationContractAddress
  | malformed (reason : L.Malformed)
  | invalid (reason : L.Invalid)
  | noLedgerState
  | blockLimitExceededError
  | feeCalculationError
  | hostApiError
  | getTransactionContextError

/-- `check_utxos_response_integrity`, against the size of the UTXO set before and the set
after. -/
def UnshieldedUtxos.checkUtxosResponseIntegrity (L : LedgerTypes) (utxos : UnshieldedUtxos)
    (initialUtxosSize : ℕ) (finalUtxos : Finset Utxo) :
    Except (LedgerApiError L) (List UtxoInfo × List UtxoInfo) :=
  if utxos.outputs.flatten.any (fun info => info.toUtxo ∉ finalUtxos) then .error .hostApiError
  else if utxos.inputs.flatten.any (fun info => info.toUtxo ∈ finalUtxos) then
    .error .hostApiError
  else
    let utxoOutputs := utxos.outputs.flatten
    let utxoInputs := utxos.inputs.flatten
    if finalUtxos.card ≠ initialUtxosSize + utxoOutputs.length - utxoInputs.length then
      .error .hostApiError
    else .ok (utxoOutputs, utxoInputs)

end MidnightNode.Ledger
