/-
# The ledger bridge

The three entry points of the bridge between the runtime and the ledger crate:
`validateTransaction` for the transaction pool, `validateGuaranteedExecution` before a dispatch
and `applyTransaction` in it.  They share two caches, the strict one by the state and the
transaction and the soft one by the transaction alone.

The ledger crate, the storage and the hash functions are fields of `LedgerCrate`.
-/
import MidnightNode.Lib.Traverse
import MidnightNode.Lib.Vec
import MidnightNode.Ledger.NetEffect
import Mathlib.Logic.Function.Basic

namespace MidnightNode.Ledger

variable {L : LedgerTypes}

/-! ### Types of the ledger crate -/

/-- The block context of the node. -/
structure BlockContext where
  tblock : ℕ
  tblockErr : ℕ
  parentBlockHash : List UInt8
  lastBlockTime : ℕ
deriving DecidableEq

/-- The block context of the ledger crate, whose parent hash has 32 bytes. -/
structure OnchainBlockContext where
  tblock : ℕ
  tblockErr : ℕ
  parentBlockHash : { hash : List UInt8 // hash.length = 32 }
  lastBlockTime : ℕ

/-- The conversion of a block context. -/
def BlockContext.tryInto (ctx : BlockContext) : Option OnchainBlockContext :=
  if h : ctx.parentBlockHash.length = 32 then
    some ⟨ctx.tblock, ctx.tblockErr, ⟨ctx.parentBlockHash, h⟩, ctx.lastBlockTime⟩
  else none

/-- `TransactionContext`; there is never a whitelist. -/
structure TransactionContext (State : Type) where
  refState : State
  blockContext : OnchainBlockContext

/-- `TransactionResult` of the ledger crate. -/
inductive TransactionResult (L : LedgerTypes)
  | success
  | partialSuccess (segments : SegmentResults L)
  | failure (reason : L.Invalid)

/-- `SyntheticCost`: a cost in five dimensions. -/
structure SyntheticCost where
  readTime : ℕ
  computeTime : ℕ
  blockUsage : ℕ
  bytesWritten : ℕ
  bytesChurned : ℕ
deriving DecidableEq

/-- Costs are added exactly: the sums of a block are taken to stay in the range of the types of
the crate, where a saturating addition is the same. -/
instance : Add SyntheticCost where
  add c d := ⟨c.readTime + d.readTime, c.computeTime + d.computeTime,
    c.blockUsage + d.blockUsage, c.bytesWritten + d.bytesWritten,
    c.bytesChurned + d.bytesChurned⟩

/-- `SyntheticCost::ZERO`. -/
def SyntheticCost.zero : SyntheticCost := ⟨0, 0, 0, 0, 0⟩

/-- The order of UTXOs in the events of an old block. -/
structure UtxoOrdering where
  created : List (Hash × BitVec 32)
  spent : List (Hash × BitVec 32)

/-- `Ledger`: the ledger state and how full the block is. -/
structure StoredLedger (State : Type) where
  state : State
  blockFullness : SyntheticCost

/-- The functions of the ledger crate, of its storage and of the hashers that the bridge
calls. -/
structure LedgerCrate (L : LedgerTypes) where
  /-- `LedgerState`. -/
  State : Type
  /-- `VerifiedTransaction`. -/
  VerifiedTransaction : Type
  /-- What `state_hash` returns. -/
  StateHash : Type
  /-- What `Twox128` returns, as a wrapped hash. -/
  WrappedHash : Type
  /-- The storage arena. -/
  Storage : Type
  [decStateHash : DecidableEq StateHash]
  [decWrappedHash : DecidableEq WrappedHash]
  /-- The keys of `utxo.utxos`. -/
  utxos : State → Finset Utxo
  /-- `state_hash`. -/
  stateHash : State → StateHash
  /-- `well_formed` with the default strictness, at a block time. -/
  wellFormed : Transaction L → State → ℕ → Except L.Malformed VerifiedTransaction
  /-- `LedgerState::apply`. -/
  apply : State → VerifiedTransaction → TransactionContext State → State × TransactionResult L
  /-- `cost` with the parameters of the state. -/
  cost : Transaction L → State → Option SyntheticCost
  /-- `parameters.limits.block_limits`. -/
  blockLimits : State → SyntheticCost
  /-- `transaction_hash`. -/
  transactionHash : Transaction L → Hash
  /-- `tagged_deserialize` of a transaction. -/
  deserializeTransaction : List UInt8 → Option (Transaction L)
  /-- A `TypedArenaKey`. -/
  ArenaKey : Type
  /-- `tagged_deserialize` of an arena key. -/
  deserializeKey : List UInt8 → Option ArenaKey
  /-- `arena.get_lazy`. -/
  getLazy : Storage → ArenaKey → Option (StoredLedger State)
  /-- `persist`. -/
  persist : Storage → StoredLedger State → Storage
  /-- `tagged_serialize` of the arena key of a ledger. -/
  serializeKey : StoredLedger State → Option (List UInt8)
  /-- `tagged_serialize` of a contract address. -/
  serializeAddress : Hash → Option (List UInt8)
  /-- `Twox128::hash`, wrapped. -/
  twox128 : List UInt8 → WrappedHash
  /-- `utxo_ordering_override::get_override`. -/
  getOverride : Hash → Option UtxoOrdering

attribute [instance] LedgerCrate.decStateHash LedgerCrate.decWrappedHash

variable {C : LedgerCrate L}

/-- The stage that a result stands for, if the guaranteed part succeeded. -/
def TransactionResult.stage : TransactionResult L → Except L.Invalid (AppliedStage L)
  | .success => .ok .allApplied
  | .partialSuccess segments => .ok (.partialSuccess segments)
  | .failure reason => .error reason

/-! ### Order of the events of old blocks -/

/-- The loop of `reorder`.  If an entry is not found, the UTXOs that were taken out before are
gone. -/
def reorderLoop : List (Hash × BitVec 32) → List UtxoInfo → List UtxoInfo → List UtxoInfo
  | [], _, reordered => reordered
  | (intentHash, outputNo) :: expected, utxos, reordered =>
    let found := fun u : UtxoInfo => u.intentHash == intentHash && u.outputNo == outputNo
    match utxos.findIdx? found, utxos.find? found with
    | some pos, some u => reorderLoop expected (Vec.swapRemove utxos pos) (reordered ++ [u])
    | _, _ => utxos

/-- `reorder`. -/
def reorder (utxos : List UtxoInfo) (expected : List (Hash × BitVec 32)) : List UtxoInfo :=
  if expected.isEmpty || utxos.length != expected.length then utxos
  else reorderLoop expected utxos []

/-- `UtxoOrdering::apply`: only lists that span several segments are reordered. -/
def UtxoOrdering.apply (ordering : UtxoOrdering) (outputs : List UtxoInfo) (outputSegments : ℕ)
    (inputs : List UtxoInfo) (inputSegments : ℕ) : List UtxoInfo × List UtxoInfo :=
  (if 1 < outputSegments then reorder outputs ordering.created else outputs,
    if 1 < inputSegments then reorder inputs ordering.spent else inputs)

/-! ### The caches -/

/-- The caches for verified and for validated transactions. -/
structure Caches (C : LedgerCrate L) where
  /-- `STRICT_TX_VALIDATION_CACHE`, by the hashes of the state and of the transaction. -/
  strict : C.StateHash × C.WrappedHash → Option C.VerifiedTransaction
  /-- `SOFT_TX_VALIDATION_CACHE`, by the hash of the transaction. -/
  soft : C.WrappedHash → Option (Except (LedgerApiError L) Unit)

namespace Caches

/-- Caches without entries. -/
def empty : Caches C := ⟨fun _ => none, fun _ => none⟩

/-- Insert into the strict cache. -/
def insertStrict (caches : Caches C) (key : C.StateHash × C.WrappedHash)
    (verifiedTx : C.VerifiedTransaction) : Caches C :=
  { caches with strict := Function.update caches.strict key (some verifiedTx) }

/-- Insert into the soft cache. -/
def insertSoft (caches : Caches C) (key : C.WrappedHash)
    (result : Except (LedgerApiError L) Unit) : Caches C :=
  { caches with soft := Function.update caches.soft key (some result) }

/-- Remove from the soft cache. -/
def invalidateSoft (caches : Caches C) (key : C.WrappedHash) : Caches C :=
  { caches with soft := Function.update caches.soft key none }

end Caches

/-- A computation of the bridge, on the caches. -/
abbrev BridgeM (C : LedgerCrate L) : Type → Type :=
  ExceptT (LedgerApiError L) (StateM (Caches C))

/-- The result of a computation and the caches after it. -/
def BridgeM.exec {α : Type} (x : BridgeM C α) (caches : Caches C) :
    Except (LedgerApiError L) α × Caches C :=
  StateT.run (ExceptT.run x) caches

/-- A result that does not depend on the caches. -/
def BridgeM.ofExcept {α : Type} (x : Except (LedgerApiError L) α) : BridgeM C α :=
  ExceptT.mk (pure x)

namespace BridgeM

variable {α β : Type}

/-- A step that succeeds hands its caches on; one that fails ends the computation. -/
lemma exec_bind (x : BridgeM C α) (f : α → BridgeM C β) (caches : Caches C) :
    exec (x >>= f) caches =
      match exec x caches with
      | (.ok a, caches') => exec (f a) caches'
      | (.error e, caches') => (.error e, caches') := by
  show (StateT.run (ExceptT.run x) caches >>= fun p => StateT.run (ExceptT.bindCont f p.1) p.2) = _
  rcases h : StateT.run (ExceptT.run x) caches with ⟨a | a, caches'⟩
  · simp only [exec, h]
    rfl
  · simp only [exec, h]
    rfl

@[simp] lemma exec_pure (a : α) (caches : Caches C) :
    exec (pure a : BridgeM C α) caches = (.ok a, caches) :=
  rfl

@[simp] lemma exec_ofExcept (x : Except (LedgerApiError L) α) (caches : Caches C) :
    exec (ofExcept x) caches = (x, caches) :=
  rfl

@[simp] lemma exec_get (caches : Caches C) :
    exec (get : BridgeM C (Caches C)) caches = (.ok caches, caches) :=
  rfl

@[simp] lemma exec_modify (f : Caches C → Caches C) (caches : Caches C) :
    exec (modify f : BridgeM C PUnit) caches = (.ok ⟨⟩, f caches) :=
  rfl

/-- A step that does not depend on the caches. -/
lemma exec_ofExcept_bind (x : Except (LedgerApiError L) α) (f : α → BridgeM C β)
    (caches : Caches C) :
    exec (ofExcept x >>= f) caches =
      match x with
      | .ok a => exec (f a) caches
      | .error e => (.error e, caches) := by
  rw [exec_bind, exec_ofExcept]
  cases x <;> rfl

end BridgeM

/-- `ok_or`. -/
def okOr {α : Type} (o : Option α) (e : LedgerApiError L) : Except (LedgerApiError L) α :=
  o.elim (.error e) .ok

lemma okOr_eq_ok {α : Type} {o : Option α} {e : LedgerApiError L} {a : α} :
    okOr o e = .ok a ↔ o = some a := by
  cases o <;> simp [okOr]

/-! ### Verification -/

/-- `to_le_bytes` of a `u32`. -/
def toLeBytes (n : BitVec 32) : List UInt8 :=
  [UInt8.ofNat n.toNat, UInt8.ofNat (n.toNat / 2 ^ 8), UInt8.ofNat (n.toNat / 2 ^ 16),
    UInt8.ofNat (n.toNat / 2 ^ 24)]

/-- `tx_validation_cache_key`. -/
def txValidationCacheKey (C : LedgerCrate L) (runtimeVersion : BitVec 32)
    (txSerialized : List UInt8) : C.WrappedHash :=
  C.twox128 (toLeBytes runtimeVersion ++ txSerialized)

/-- `tagged_deserialize` of a transaction. -/
def deserializeTransaction (C : LedgerCrate L) (txSerialized : List UInt8) :
    Except (LedgerApiError L) (Transaction L) :=
  okOr (C.deserializeTransaction txSerialized) .deserializationTransaction

/-- `get_ledger`. -/
def getLedger (storage : C.Storage) (stateKey : List UInt8) :
    Except (LedgerApiError L) (StoredLedger C.State) := do
  let key ← okOr (C.deserializeKey stateKey) .deserializationTypedArenaKey
  okOr (C.getLazy storage key) .noLedgerState

/-- `get_transaction_context`. -/
def getTransactionContext (ledger : StoredLedger C.State) (blockContext : BlockContext) :
    Except (LedgerApiError L) (TransactionContext C.State) := do
  let blockContext ← okOr blockContext.tryInto .getTransactionContextError
  return ⟨ledger.state, blockContext⟩

/-- What `get_verified_transaction` computes if the strict cache has no entry. -/
def verifyTransaction (ledger : StoredLedger C.State) (tx : Transaction L)
    (blockContext : BlockContext) : Except (LedgerApiError L) C.VerifiedTransaction := do
  let ctx ← getTransactionContext ledger blockContext
  (C.wellFormed tx ctx.refState ctx.blockContext.tblock).mapError .malformed

/-- `get_verified_transaction`. -/
def getVerifiedTransaction (ledger : StoredLedger C.State) (tx : Transaction L)
    (blockContext : BlockContext) (txHash : C.WrappedHash) :
    BridgeM C C.VerifiedTransaction := do
  let strictKey := (C.stateHash ledger.state, txHash)
  match (← get).strict strictKey with
  | some verifiedTx => return verifiedTx
  | none =>
    let verifiedTx ← BridgeM.ofExcept (verifyTransaction ledger tx blockContext)
    modify (·.insertStrict strictKey verifiedTx)
    return verifiedTx

/-- The dry run of a transaction. -/
def dryRun (ledger : StoredLedger C.State) (verifiedTx : C.VerifiedTransaction)
    (blockContext : BlockContext) : Except (LedgerApiError L) Unit := do
  let ctx ← getTransactionContext ledger blockContext
  let _ ← (C.apply ledger.state verifiedTx ctx).2.stage.mapError LedgerApiError.invalid
  return ()

/-! ### Validation -/

/-- `do_validate_transaction`; whether the soft cache had the answer. -/
def doValidateTransaction (ledger : StoredLedger C.State) (tx : Transaction L)
    (blockContext : BlockContext) (txHash : C.WrappedHash) : BridgeM C Bool := do
  match (← get).soft txHash with
  | some cached =>
    BridgeM.ofExcept cached
    return true
  | none =>
    let verifiedTx ← getVerifiedTransaction ledger tx blockContext txHash
    BridgeM.ofExcept (dryRun ledger verifiedTx blockContext)
    -- Failures are not cached.
    modify (·.insertSoft txHash (.ok ()))
    return false

/-- `validate_transaction`, without details of the transaction. -/
def validateTransaction (storage : C.Storage) (stateKey txSerialized : List UInt8)
    (blockContext : BlockContext) (runtimeVersion : BitVec 32) : BridgeM C C.WrappedHash := do
  let tx ← BridgeM.ofExcept (deserializeTransaction C txSerialized)
  let ledger ← BridgeM.ofExcept (getLedger storage stateKey)
  let cacheKey := txValidationCacheKey C runtimeVersion txSerialized
  let _ ← doValidateTransaction ledger tx blockContext cacheKey
  return cacheKey

/-- `do_validate_guaranteed_execution`; whether the strict cache had the transaction. -/
def doValidateGuaranteedExecution (ledger : StoredLedger C.State) (tx : Transaction L)
    (blockContext : BlockContext) (txHash : C.WrappedHash) : BridgeM C Bool := do
  modify (·.invalidateSoft txHash)
  let wasCached := ((← get).strict (C.stateHash ledger.state, txHash)).isSome
  let verifiedTx ← getVerifiedTransaction ledger tx blockContext txHash
  BridgeM.ofExcept (dryRun ledger verifiedTx blockContext)
  return wasCached

/-- `validate_guaranteed_execution`. -/
def validateGuaranteedExecution (storage : C.Storage) (stateKey txSerialized : List UInt8)
    (blockContext : BlockContext) (runtimeVersion : BitVec 32) : BridgeM C Unit := do
  let tx ← BridgeM.ofExcept (deserializeTransaction C txSerialized)
  let ledger ← BridgeM.ofExcept (getLedger storage stateKey)
  let cacheKey := txValidationCacheKey C runtimeVersion txSerialized
  let _ ← doValidateGuaranteedExecution ledger tx blockContext cacheKey

/-! ### Application -/

/-- `apply_verified_transaction`. -/
def applyVerifiedTransaction (ledger : StoredLedger C.State) (tx : Transaction L)
    (verifiedTx : C.VerifiedTransaction) (ctx : TransactionContext C.State) :
    Except (LedgerApiError L) (StoredLedger C.State × AppliedStage L) := do
  let txCost ← okOr (C.cost tx ledger.state) .feeCalculationError
  let next := C.apply ledger.state verifiedTx ctx
  let nextBlockFullness := txCost + ledger.blockFullness
  let stage ← next.2.stage.mapError .invalid
  return (⟨next.1, nextBlockFullness⟩, stage)

/-- What a transaction does besides moving coins. -/
inductive Operation
  | call (address : Hash) (entryPoint : List UInt8)
  | deploy (address : Hash)
  | maintain (address : Hash)
  | claimRewards (value : BitVec 128)

/-- The operation of a contract action. -/
def ContractAction.operation : ContractAction → Operation
  | .call address entryPoint => .call address entryPoint
  | .deploy address => .deploy address
  | .maintain address => .maintain address

/-- `calls_and_deploys`. -/
def Transaction.callsAndDeploys (tx : Transaction L) (filterSegments : Option (List SegmentId)) :
    List Operation :=
  let filteredSegments := filterSegments.getD []
  match tx with
  | .standard tx =>
    (tx.actions.filter (fun a => !filteredSegments.contains a.1)).map (fun a => a.2.operation)
  | .claimRewards value _ => [.claimRewards value]

/-- `TransactionAppliedStateRoot`, the event of an applied transaction. -/
structure TransactionAppliedStateRoot where
  stateRoot : List UInt8
  txHash : Hash
  allApplied : Bool
  callAddresses : List (List UInt8)
  deployAddresses : List (List UInt8)
  maintainAddresses : List (List UInt8)
  claimRewards : List (BitVec 128)
  unshieldedUtxosCreated : List UtxoInfo
  unshieldedUtxosSpent : List UtxoInfo

/-- One round of the loop over the operations. -/
def TransactionAppliedStateRoot.push (C : LedgerCrate L) (event : TransactionAppliedStateRoot) :
    Operation → Except (LedgerApiError L) TransactionAppliedStateRoot
  | .call address _ => do
    let bytes ← okOr (C.serializeAddress address) .serializationContractAddress
    return { event with callAddresses := event.callAddresses ++ [bytes] }
  | .deploy address => do
    let bytes ← okOr (C.serializeAddress address) .serializationContractAddress
    return { event with deployAddresses := event.deployAddresses ++ [bytes] }
  | .maintain address => do
    let bytes ← okOr (C.serializeAddress address) .serializationContractAddress
    return { event with maintainAddresses := event.maintainAddresses ++ [bytes] }
  | .claimRewards value => return { event with claimRewards := event.claimRewards ++ [value] }

/-- The segments that `apply_transaction` takes for failed: all that the result lists. -/
def AppliedStage.failedSegments : AppliedStage L → Option (List SegmentId)
  | .allApplied => none
  | .partialSuccess segments => some (segments.map Prod.fst)

/-- The stage is `AllApplied`. -/
def AppliedStage.isAllApplied : AppliedStage L → Bool
  | .allApplied => true
  | .partialSuccess _ => false

/-- The part of `apply_transaction` that follows the application: check the UTXOs and build the
event. -/
def transactionEvent (tx : Transaction L) (initialUtxosSize : ℕ)
    (newLedger : StoredLedger C.State) (stage : AppliedStage L) (shouldSkipFailedSegments : Bool) :
    Except (LedgerApiError L) TransactionAppliedStateRoot := do
  let txHash := C.transactionHash tx
  let utxos := tx.appliedUtxos stage
  let operations := tx.callsAndDeploys
    (if shouldSkipFailedSegments then stage.failedSegments else none)
  let (utxoOutputs, utxoInputs) ←
    utxos.checkUtxosResponseIntegrity L initialUtxosSize (C.utxos newLedger.state)
  let (utxoOutputs, utxoInputs) := match C.getOverride txHash with
    | some ordering => ordering.apply utxoOutputs utxos.outputs.size utxoInputs utxos.inputs.size
    | none => (utxoOutputs, utxoInputs)
  let stateRoot ← okOr (C.serializeKey newLedger) .serializationTypedArenaKey
  operations.foldlM (TransactionAppliedStateRoot.push C)
    ⟨stateRoot, txHash, stage.isAllApplied, [], [], [], [], utxoOutputs, utxoInputs⟩

/-- The part of `apply_transaction` that follows the verification. -/
def applyVerified (ledger : StoredLedger C.State) (tx : Transaction L)
    (verifiedTx : C.VerifiedTransaction) (blockContext : BlockContext)
    (shouldSkipFailedSegments : Bool) :
    Except (LedgerApiError L) (TransactionAppliedStateRoot × StoredLedger C.State) := do
  let ctx ← getTransactionContext ledger blockContext
  let (newLedger, stage) ← applyVerifiedTransaction ledger tx verifiedTx ctx
  let event ← transactionEvent tx (C.utxos ledger.state).card newLedger stage
    shouldSkipFailedSegments
  return (event, newLedger)

/-- `apply_transaction`: the event and the ledger that is persisted. -/
def applyTransaction (storage : C.Storage) (stateKey txSerialized : List UInt8)
    (blockContext : BlockContext) (shouldSkipFailedSegments : Bool)
    (runtimeVersion : BitVec 32) :
    BridgeM C (TransactionAppliedStateRoot × StoredLedger C.State) := do
  let tx ← BridgeM.ofExcept (deserializeTransaction C txSerialized)
  let ledger ← BridgeM.ofExcept (getLedger storage stateKey)
  let cacheKey := txValidationCacheKey C runtimeVersion txSerialized
  let verifiedTx ← getVerifiedTransaction ledger tx blockContext cacheKey
  BridgeM.ofExcept (applyVerified ledger tx verifiedTx blockContext shouldSkipFailedSegments)

end MidnightNode.Ledger
