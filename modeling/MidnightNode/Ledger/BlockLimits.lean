/-
# Weights and the block limits of the ledger

The pallet declares for a transaction the largest of its five costs, each as a share of its
block limit, scaled to the block weight; where that fails, it declares a fixed weight.  Blocks
are filled up to three quarters of their weight.  If every transaction stays within the block
limits, the costs that the ledger adds up stay within three quarters of them; a transaction
beyond the limits is declared with the fixed weight and applied all the same.
-/
import MidnightNode.Ledger.Events
import MidnightNode.Lib.StorageLayer
import Mathlib.Algebra.Order.Floor.Semiring
import Mathlib.Data.Rat.Floor
import Mathlib.Tactic.Linarith
import Mathlib.Tactic.Positivity

namespace MidnightNode.Ledger

open StorageLayer Traverse

variable {L : LedgerTypes} {C : LedgerCrate L}

/-! ### Costs -/

/-- The dimensions of a cost. -/
inductive Dimension
  | readTime
  | computeTime
  | blockUsage
  | bytesWritten
  | bytesChurned

/-- The cost in a dimension. -/
def SyntheticCost.get (cost : SyntheticCost) : Dimension → ℕ
  | .readTime => cost.readTime
  | .computeTime => cost.computeTime
  | .blockUsage => cost.blockUsage
  | .bytesWritten => cost.bytesWritten
  | .bytesChurned => cost.bytesChurned

/-- No dimension exceeds its limit. -/
def SyntheticCost.Within (cost limits : SyntheticCost) : Prop :=
  cost.readTime ≤ limits.readTime ∧ cost.computeTime ≤ limits.computeTime ∧
    cost.blockUsage ≤ limits.blockUsage ∧ cost.bytesWritten ≤ limits.bytesWritten ∧
    cost.bytesChurned ≤ limits.bytesChurned

instance (cost limits : SyntheticCost) : Decidable (cost.Within limits) :=
  inferInstanceAs (Decidable (_ ∧ _ ∧ _ ∧ _ ∧ _))

/-- `NormalizedCost`: the share of each limit. -/
structure NormalizedCost where
  readTime : ℚ
  computeTime : ℚ
  blockUsage : ℚ
  bytesWritten : ℚ
  bytesChurned : ℚ

/-- `normalize`: the exact shares, or `none` if a dimension exceeds its limit. -/
def SyntheticCost.normalize (cost limits : SyntheticCost) : Option NormalizedCost :=
  if cost.Within limits then
    some ⟨cost.readTime / limits.readTime, cost.computeTime / limits.computeTime,
      cost.blockUsage / limits.blockUsage, cost.bytesWritten / limits.bytesWritten,
      cost.bytesChurned / limits.bytesChurned⟩
  else none

/-- The largest share. -/
def NormalizedCost.maxShare (normalized : NormalizedCost) : ℚ :=
  max normalized.readTime (max normalized.computeTime (max normalized.blockUsage
    (max normalized.bytesWritten normalized.bytesChurned)))

/-- `scale_normalized_cost`, by the ledger's `into_atomic_units`. -/
def scaleNormalizedCost (intoAtomicUnits : ℚ → ℕ → ℕ) (normalized : NormalizedCost)
    (maxWeight : ℕ) : ℕ :=
  min (intoAtomicUnits normalized.maxShare maxWeight) maxWeight

/-- The clamping of `clamp_and_normalize`. -/
def SyntheticCost.clamp (cost limits : SyntheticCost) : SyntheticCost :=
  ⟨min cost.readTime limits.readTime, min cost.computeTime limits.computeTime,
    min cost.blockUsage limits.blockUsage, min cost.bytesWritten limits.bytesWritten,
    min cost.bytesChurned limits.bytesChurned⟩

namespace SyntheticCost

@[simp] lemma get_add (c c' : SyntheticCost) (d : Dimension) :
    (c + c').get d = c.get d + c'.get d := by
  cases d <;> rfl

@[simp] lemma get_zero (d : Dimension) : zero.get d = 0 := by
  cases d <;> rfl

lemma within_iff {cost limits : SyntheticCost} :
    cost.Within limits ↔ ∀ d, cost.get d ≤ limits.get d := by
  constructor
  · rintro ⟨h₁, h₂, h₃, h₄, h₅⟩ d
    cases d <;> assumption
  · intro h
    exact ⟨h .readTime, h .computeTime, h .blockUsage, h .bytesWritten, h .bytesChurned⟩

/-- A cost within the limits is not clamped. -/
lemma clamp_eq_self {cost limits : SyntheticCost} (h : cost.Within limits) :
    cost.clamp limits = cost := by
  obtain ⟨h₁, h₂, h₃, h₄, h₅⟩ := h
  rw [clamp, min_eq_left h₁, min_eq_left h₂, min_eq_left h₃, min_eq_left h₄, min_eq_left h₅]

/-- Every share is at most the largest one, and that at most 1. -/
lemma share_le_maxShare {cost limits : SyntheticCost} {normalized : NormalizedCost}
    (h : cost.normalize limits = some normalized) (d : Dimension) :
    (cost.get d : ℚ) / limits.get d ≤ normalized.maxShare ∧ 0 ≤ normalized.maxShare ∧
      normalized.maxShare ≤ 1 := by
  rw [normalize] at h
  split at h
  · rename_i hwithin
    cases h
    have hle := within_iff.1 hwithin
    have hone : ∀ d, (cost.get d : ℚ) / limits.get d ≤ 1 := fun d =>
      div_le_one_of_le₀ (by exact_mod_cast hle d) (by positivity)
    have hzero : ∀ d, (0 : ℚ) ≤ (cost.get d : ℚ) / limits.get d := fun d => by positivity
    refine ⟨?_, le_max_of_le_left (hzero .readTime), ?_⟩
    · cases d with
      | readTime => exact le_max_left _ _
      | computeTime => exact le_max_of_le_right (le_max_left _ _)
      | blockUsage => exact le_max_of_le_right (le_max_of_le_right (le_max_left _ _))
      | bytesWritten =>
        exact le_max_of_le_right (le_max_of_le_right (le_max_of_le_right (le_max_left _ _)))
      | bytesChurned =>
        exact le_max_of_le_right (le_max_of_le_right (le_max_of_le_right (le_max_right _ _)))
    · exact max_le (hone .readTime) (max_le (hone .computeTime) (max_le (hone .blockUsage)
        (max_le (hone .bytesWritten) (hone .bytesChurned))))
  · cases h

end SyntheticCost

/-- `into_atomic_units` of a share does not round down. -/
def RoundsUp (intoAtomicUnits : ℚ → ℕ → ℕ) : Prop :=
  ∀ (x : ℚ) (m : ℕ), 0 ≤ x → x ≤ 1 → x * m ≤ intoAtomicUnits x m

/-- **Weight**: the scaled cost has at least the share of the weight that the cost has of its
limit, in every dimension. -/
lemma get_mul_le_scale {intoAtomicUnits : ℚ → ℕ → ℕ} (hunits : RoundsUp intoAtomicUnits)
    {cost limits : SyntheticCost} {normalized : NormalizedCost}
    (h : cost.normalize limits = some normalized) (maxWeight : ℕ) (d : Dimension) :
    cost.get d * maxWeight ≤
      scaleNormalizedCost intoAtomicUnits normalized maxWeight * limits.get d := by
  obtain ⟨hshare, hzero, hone⟩ := SyntheticCost.share_le_maxShare h d
  have hwithin : cost.get d ≤ limits.get d := by
    rw [SyntheticCost.normalize] at h
    split at h
    · rename_i hwithin
      exact SyntheticCost.within_iff.1 hwithin d
    · cases h
  have hscale : normalized.maxShare * maxWeight ≤
      (scaleNormalizedCost intoAtomicUnits normalized maxWeight : ℚ) := by
    rw [scaleNormalizedCost, Nat.cast_min]
    refine le_min (hunits _ _ hzero hone) ?_
    exact mul_le_of_le_one_left (by positivity) hone
  rcases Nat.eq_zero_or_pos (limits.get d) with hlim | hlim
  · have hcost : cost.get d = 0 := by omega
    rw [hcost, hlim, Nat.zero_mul, Nat.mul_zero]
  · have hlim' : (0 : ℚ) < limits.get d := by exact_mod_cast hlim
    have hcost : (cost.get d : ℚ) ≤ normalized.maxShare * limits.get d :=
      (div_le_iff₀ hlim').1 hshare
    have hchain : (cost.get d : ℚ) * maxWeight ≤
        scaleNormalizedCost intoAtomicUnits normalized maxWeight * limits.get d :=
      calc (cost.get d : ℚ) * maxWeight
          ≤ normalized.maxShare * limits.get d * maxWeight := by gcongr
        _ = normalized.maxShare * maxWeight * limits.get d := by ring
        _ ≤ scaleNormalizedCost intoAtomicUnits normalized maxWeight * limits.get d := by gcongr
    exact_mod_cast hchain

/-! ### The pallet -/

/-- Parameters of the runtime and of the block. -/
structure PalletParams where
  /-- `BlockWeights::max_block.ref_time()`. -/
  maxWeight : ℕ
  /-- `ConfigurableTransactionSizeWeight`. -/
  txSizeWeight : ℕ
  /-- `into_atomic_units` of the ledger's fixed-point numbers. -/
  intoAtomicUnits : ℚ → ℕ → ℕ
  /-- `get_block_context()`. -/
  blockContext : BlockContext
  /-- `spec_version`. -/
  runtimeVersion : BitVec 32

/-- The state of the pallet: the ledger storage and `StateKey`. -/
structure Pallet (C : LedgerCrate L) where
  storage : C.Storage
  stateKey : Option (List UInt8)

/-- `StateKeyLength`. -/
def stateKeyLength : ℕ := 1065

/-- `EXTRA_WEIGHT_TX_SIZE`. -/
def extraWeightTxSize : ℕ := 20000000000

/-- `get_transaction_cost` of the bridge. -/
def getTransactionCost (intoAtomicUnits : ℚ → ℕ → ℕ) (storage : C.Storage)
    (stateKey tx : List UInt8) (maxWeight : ℕ) : Except (LedgerApiError L) ℕ := do
  let (tx, ledger) ← loadCall storage stateKey tx
  let cost ← okOr (C.cost tx ledger.state) .feeCalculationError
  let normalized ← okOr (cost.normalize (C.blockLimits ledger.state)) .blockLimitExceededError
  return scaleNormalizedCost intoAtomicUnits normalized maxWeight

/-- `get_transaction_cost` of the pallet. -/
def Pallet.getTransactionCost (P : PalletParams) (pallet : Pallet C) (tx : List UInt8) :
    Except (LedgerApiError L) ℕ := do
  let stateKey ← okOr pallet.stateKey .noLedgerState
  Ledger.getTransactionCost P.intoAtomicUnits pallet.storage stateKey tx P.maxWeight

/-- `get_tx_weight`, a `u64` that is added up without a check. -/
def Pallet.getTxWeight (P : PalletParams) (pallet : Pallet C) (tx : List UInt8) : ℕ :=
  ((pallet.getTransactionCost P tx).toOption.getD extraWeightTxSize + P.txSizeWeight) % 2 ^ 64

/-- Errors of the dispatch. -/
inductive SendError (L : LedgerTypes)
  | noLedgerState
  | ledgerApi (error : LedgerApiError L)
  | newStateOutOfBounds

/-- `send_mn_transaction`, with the caches that it finds. -/
def sendMnTransaction (P : PalletParams) (caches : Caches C) (midnightTx : List UInt8) :
    Body (Pallet C) (SendError L) TransactionAppliedStateRoot := fun pallet =>
  match pallet.stateKey with
  | none => (pallet, .error .noLedgerState)
  | some stateKey =>
    match ((applyTransaction pallet.storage stateKey midnightTx P.blockContext true
      P.runtimeVersion).exec caches).1 with
    | .error e => (pallet, .error (.ledgerApi e))
    | .ok (result, newLedger) =>
      let storage := C.persist pallet.storage newLedger
      if result.stateRoot.length ≤ stateKeyLength then
        (⟨storage, some result.stateRoot⟩, .ok result)
      else ({ pallet with storage := storage }, .error .newStateOutOfBounds)

/-! ### Blocks -/

/-- A block in progress: the pallet and the weight declared so far. -/
structure Block (C : LedgerCrate L) where
  pallet : Pallet C
  weight : ℕ

/-- The block after a transaction, which is rolled back if it fails. -/
def Block.send (P : PalletParams) (block : Block C) (caches : Caches C) (tx : List UInt8) :
    Block C :=
  ⟨(withStorageLayer (sendMnTransaction P caches tx) block.pallet).1,
    block.weight + block.pallet.getTxWeight P tx⟩

/-- Blocks that transactions with the property `Q` lead to, each of which is admitted while the
declared weights are at most three quarters of the block weight.  The caches may be any. -/
inductive BlockRun (P : PalletParams) (Q : Pallet C → List UInt8 → Prop) (start : Block C) :
    Block C → Prop
  | start : BlockRun P Q start start
  | send {block : Block C} (caches : Caches C) (tx : List UInt8) :
    BlockRun P Q start block → Q block.pallet tx →
    4 * (block.weight + block.pallet.getTxWeight P tx) ≤ 3 * P.maxWeight →
    BlockRun P Q start (block.send P caches tx)

/-- The pallet refers to the ledger. -/
def Pallet.Has (pallet : Pallet C) (ledger : StoredLedger C.State) : Prop :=
  ∃ stateKey, pallet.stateKey = some stateKey ∧ getLedger pallet.storage stateKey = .ok ledger

/-- The transaction, if it has a cost, stays within the block limits, and its weight does not
overflow. -/
def StaysWithin (P : PalletParams) (pallet : Pallet C) (tx : List UInt8) : Prop :=
  ∀ ledger tx' cost, pallet.Has ledger → deserializeTransaction C tx = .ok tx' →
    C.cost tx' ledger.state = some cost →
    cost.Within (C.blockLimits ledger.state) ∧
      ∀ normalized, cost.normalize (C.blockLimits ledger.state) = some normalized →
        scaleNormalizedCost P.intoAtomicUnits normalized P.maxWeight + P.txSizeWeight < 2 ^ 64

/-- What is persisted is found under its key. -/
def Persists (C : LedgerCrate L) : Prop :=
  ∀ (storage : C.Storage) ledger bytes, C.serializeKey ledger = some bytes →
    getLedger (C.persist storage ledger) bytes = .ok ledger

/-- Applying transactions leaves the block limits. -/
def KeepsLimits (C : LedgerCrate L) : Prop :=
  ∀ state verifiedTx ctx, C.blockLimits (C.apply state verifiedTx ctx).1 = C.blockLimits state

/-! ### A dispatch -/

lemma push_stateRoot {event event' : TransactionAppliedStateRoot} {operation : Operation}
    (h : event.push C operation = .ok event') : event'.stateRoot = event.stateRoot := by
  cases operation with
  | claimRewards value =>
    cases h
    rfl
  | call | deploy | maintain =>
    obtain ⟨bytes, -, h⟩ := bind_eq_ok.1 h
    cases h
    rfl

lemma foldlM_push_stateRoot {operations : List Operation}
    {event event' : TransactionAppliedStateRoot}
    (h : operations.foldlM (TransactionAppliedStateRoot.push C) event = .ok event') :
    event'.stateRoot = event.stateRoot := by
  induction operations generalizing event with
  | nil =>
    cases h
    rfl
  | cons operation operations ih =>
    obtain ⟨event₁, hpush, hrest⟩ := bind_eq_ok.1 h
    rw [ih hrest, push_stateRoot hpush]

/-- The state root of the event is the key of the new ledger. -/
lemma transactionEvent_stateRoot {tx : Transaction L} {n : ℕ} {newLedger : StoredLedger C.State}
    {stage : AppliedStage L} {skip : Bool} {event : TransactionAppliedStateRoot}
    (h : transactionEvent tx n newLedger stage skip = .ok event) :
    C.serializeKey newLedger = some event.stateRoot := by
  obtain ⟨⟨created, spent⟩, -, h⟩ := bind_eq_ok.1 h
  obtain ⟨stateRoot, hroot, h⟩ := bind_eq_ok.1 h
  rw [foldlM_push_stateRoot h]
  exact okOr_eq_ok.1 hroot

/-- What `apply_transaction` did if it succeeded. -/
lemma applyTransaction_ok {storage : C.Storage} {stateKey txSerialized : List UInt8}
    {blockContext : BlockContext} {skip : Bool} {runtimeVersion : BitVec 32} {caches : Caches C}
    {event : TransactionAppliedStateRoot} {newLedger : StoredLedger C.State}
    (h : ((applyTransaction storage stateKey txSerialized blockContext skip
      runtimeVersion).exec caches).1 = .ok (event, newLedger)) :
    ∃ tx ledger verifiedTx ctx cost, loadCall storage stateKey txSerialized = .ok (tx, ledger) ∧
      C.cost tx ledger.state = some cost ∧
      newLedger = ⟨(C.apply ledger.state verifiedTx ctx).1, cost + ledger.blockFullness⟩ ∧
      C.serializeKey newLedger = some event.stateRoot := by
  rw [exec_applyTransaction] at h
  cases hload : loadCall storage stateKey txSerialized with
  | error e =>
    rw [hload] at h
    cases h
  | ok loaded =>
    rw [hload] at h
    obtain ⟨verifiedTx, -, happly⟩ := bind_eq_ok.1 h
    obtain ⟨ctx, stage, hctx, hstage⟩ := applyVerified_ok happly
    obtain ⟨cost, hcost, hnew, hevent⟩ := (applyVerified_eq_ok hctx hstage).1 happly
    exact ⟨loaded.1, loaded.2, verifiedTx, ctx, cost, rfl, hcost, hnew,
      transactionEvent_stateRoot hevent⟩

/-- A dispatch that succeeds adds the cost of its transaction. -/
lemma sendMnTransaction_ok (hpersist : Persists C) (hlimits : KeepsLimits C) {P : PalletParams}
    {caches : Caches C} {midnightTx : List UInt8} {pallet pallet' : Pallet C}
    {event : TransactionAppliedStateRoot}
    (h : sendMnTransaction P caches midnightTx pallet = (pallet', .ok event)) :
    ∃ ledger ledger' tx cost, pallet.Has ledger ∧ pallet'.Has ledger' ∧
      deserializeTransaction C midnightTx = .ok tx ∧ C.cost tx ledger.state = some cost ∧
      ledger'.blockFullness = cost + ledger.blockFullness ∧
      C.blockLimits ledger'.state = C.blockLimits ledger.state := by
  rw [sendMnTransaction] at h
  split at h
  · cases h
  · rename_i stateKey hkey
    split at h
    · cases h
    · rename_i event' newLedger happly
      simp only [] at h
      split at h
      · cases h
        obtain ⟨tx, ledger, verifiedTx, ctx, cost, hload, hcost, rfl, hroot⟩ :=
          applyTransaction_ok happly
        obtain ⟨htx, hledger⟩ := loadCall_eq_ok.1 hload
        exact ⟨ledger, _, tx, cost, ⟨stateKey, hkey, hledger⟩, ⟨_, rfl, hpersist _ _ _ hroot⟩, htx,
          hcost, rfl, hlimits _ _ _⟩
      · cases h

lemma Pallet.Has.unique {pallet : Pallet C} {ledger ledger' : StoredLedger C.State}
    (h : pallet.Has ledger) (h' : pallet.Has ledger') : ledger = ledger' := by
  obtain ⟨key, hkey, hget⟩ := h
  obtain ⟨key', hkey', hget'⟩ := h'
  cases hkey.symm.trans hkey'
  exact Except.ok.inj (hget.symm.trans hget')

/-- The declared weight of a transaction that stays within the limits covers its cost. -/
lemma get_mul_le_getTxWeight {P : PalletParams} (hunits : RoundsUp P.intoAtomicUnits)
    {pallet : Pallet C} {tx : List UInt8} (hwithin : StaysWithin P pallet tx)
    {ledger : StoredLedger C.State} {tx' : Transaction L} {cost : SyntheticCost}
    (hhas : pallet.Has ledger) (htx : deserializeTransaction C tx = .ok tx')
    (hcost : C.cost tx' ledger.state = some cost) (d : Dimension) :
    cost.get d * P.maxWeight ≤
      pallet.getTxWeight P tx * (C.blockLimits ledger.state).get d := by
  obtain ⟨hlimits, hoverflow⟩ := hwithin ledger tx' cost hhas htx hcost
  have hnorm : ∃ normalized, cost.normalize (C.blockLimits ledger.state) = some normalized :=
    ⟨_, if_pos hlimits⟩
  obtain ⟨normalized, hnorm⟩ := hnorm
  obtain ⟨key, hkey, hledger⟩ := hhas
  have hgas : pallet.getTransactionCost P tx =
      .ok (scaleNormalizedCost P.intoAtomicUnits normalized P.maxWeight) := by
    refine bind_eq_ok.2 ⟨key, okOr_eq_ok.2 hkey, bind_eq_ok.2 ⟨(tx', ledger), ?_, ?_⟩⟩
    · exact loadCall_eq_ok.2 ⟨htx, hledger⟩
    · exact bind_eq_ok.2 ⟨cost, okOr_eq_ok.2 hcost,
        bind_eq_ok.2 ⟨normalized, okOr_eq_ok.2 hnorm, rfl⟩⟩
  have hweight : pallet.getTxWeight P tx =
      scaleNormalizedCost P.intoAtomicUnits normalized P.maxWeight + P.txSizeWeight := by
    rw [Pallet.getTxWeight, hgas]
    exact Nat.mod_eq_of_lt (hoverflow normalized hnorm)
  calc cost.get d * P.maxWeight
      ≤ scaleNormalizedCost P.intoAtomicUnits normalized P.maxWeight *
          (C.blockLimits ledger.state).get d := get_mul_le_scale hunits hnorm P.maxWeight d
    _ ≤ pallet.getTxWeight P tx * (C.blockLimits ledger.state).get d := by
        rw [hweight]
        exact Nat.mul_le_mul_right _ (Nat.le_add_right _ _)

/-! ### A block -/

/-- The declared weight has at least the share of the block weight that the costs so far have of
the limits. -/
def Block.Accounted (P : PalletParams) (limits : SyntheticCost) (block : Block C) : Prop :=
  ∃ ledger, block.pallet.Has ledger ∧ C.blockLimits ledger.state = limits ∧
    ∀ d, ledger.blockFullness.get d * P.maxWeight ≤ block.weight * limits.get d

/-- **Step**: a transaction that stays within the limits keeps the costs accounted for, whether
its dispatch succeeds or not. -/
lemma Block.Accounted.send (hpersist : Persists C) (hlimits : KeepsLimits C) {P : PalletParams}
    (hunits : RoundsUp P.intoAtomicUnits) {limits : SyntheticCost} {block : Block C}
    (h : block.Accounted P limits) (caches : Caches C) {tx : List UInt8}
    (hwithin : StaysWithin P block.pallet tx) : (block.send P caches tx).Accounted P limits := by
  obtain ⟨ledger, hhas, hlim, hacc⟩ := h
  rcases hsend : sendMnTransaction P caches tx block.pallet with ⟨pallet', e | event⟩
  · -- The dispatch is rolled back; its weight counts.
    have hpallet : (block.send P caches tx).pallet = block.pallet := by
      rw [Block.send, withStorageLayer_of_error hsend]
    refine ⟨ledger, hpallet ▸ hhas, hlim, fun d => (hacc d).trans ?_⟩
    exact Nat.mul_le_mul_right _ (Nat.le_add_right _ _)
  · have hpallet : (block.send P caches tx).pallet = pallet' := by
      rw [Block.send, withStorageLayer_of_ok hsend]
    obtain ⟨ledger₁, ledger', tx', cost, hhas₁, hhas', htx, hcost, hfull, hlim'⟩ :=
      sendMnTransaction_ok hpersist hlimits hsend
    obtain rfl := hhas.unique hhas₁
    refine ⟨ledger', hpallet ▸ hhas', hlim'.trans hlim, fun d => ?_⟩
    have hadd := get_mul_le_getTxWeight hunits hwithin hhas htx hcost d
    rw [hlim] at hadd
    calc ledger'.blockFullness.get d * P.maxWeight
        = cost.get d * P.maxWeight + ledger.blockFullness.get d * P.maxWeight := by
          rw [hfull, SyntheticCost.get_add, Nat.add_mul]
      _ ≤ block.pallet.getTxWeight P tx * limits.get d + block.weight * limits.get d :=
          Nat.add_le_add hadd (hacc d)
      _ = (block.send P caches tx).weight * limits.get d := by
          rw [← Nat.add_mul, Nat.add_comm]
          rfl

/-- **Run**: the costs of a block are accounted for, and its weight is admitted. -/
lemma BlockRun.accounted (hpersist : Persists C) (hlimits : KeepsLimits C) {P : PalletParams}
    (hunits : RoundsUp P.intoAtomicUnits) {limits : SyntheticCost} {start block : Block C}
    (hstart : start.Accounted P limits) (hweight : 4 * start.weight ≤ 3 * P.maxWeight)
    (h : BlockRun P (StaysWithin P) start block) :
    block.Accounted P limits ∧ 4 * block.weight ≤ 3 * P.maxWeight := by
  induction h with
  | start => exact ⟨hstart, hweight⟩
  | send caches tx _ hwithin hadmitted ih =>
    exact ⟨ih.1.send hpersist hlimits hunits caches hwithin, hadmitted⟩

/-- **Block limits**: from the start of a block, transactions that stay within the block limits
and are admitted by their weights fill no dimension to more than three quarters of its limit,
so that the costs are not clamped. -/
theorem block_fullness_le_of_staysWithin (hpersist : Persists C) (hlimits : KeepsLimits C)
    {P : PalletParams} (hunits : RoundsUp P.intoAtomicUnits) (hmax : 0 < P.maxWeight)
    {pallet : Pallet C} {ledger : StoredLedger C.State} (hhas : pallet.Has ledger)
    (hzero : ledger.blockFullness = .zero) {block : Block C}
    (hrun : BlockRun P (StaysWithin P) ⟨pallet, 0⟩ block) :
    ∃ ledger', block.pallet.Has ledger' ∧
      C.blockLimits ledger'.state = C.blockLimits ledger.state ∧
      (∀ d, 4 * ledger'.blockFullness.get d ≤ 3 * (C.blockLimits ledger.state).get d) ∧
      ledger'.blockFullness.clamp (C.blockLimits ledger.state) = ledger'.blockFullness := by
  have hstart : (⟨pallet, 0⟩ : Block C).Accounted P (C.blockLimits ledger.state) :=
    ⟨ledger, hhas, rfl, fun d => by simp [hzero]⟩
  obtain ⟨⟨ledger', hhas', hlim, hacc⟩, hweight⟩ :=
    hrun.accounted hpersist hlimits hunits hstart (Nat.zero_le _)
  have hthree : ∀ d, 4 * ledger'.blockFullness.get d ≤ 3 * (C.blockLimits ledger.state).get d := by
    intro d
    refine Nat.le_of_mul_le_mul_right ?_ hmax
    calc 4 * ledger'.blockFullness.get d * P.maxWeight
        = 4 * (ledger'.blockFullness.get d * P.maxWeight) := Nat.mul_assoc _ _ _
      _ ≤ 4 * (block.weight * (C.blockLimits ledger.state).get d) :=
          Nat.mul_le_mul_left _ (hacc d)
      _ = 4 * block.weight * (C.blockLimits ledger.state).get d := (Nat.mul_assoc _ _ _).symm
      _ ≤ 3 * P.maxWeight * (C.blockLimits ledger.state).get d := Nat.mul_le_mul_right _ hweight
      _ = 3 * (C.blockLimits ledger.state).get d * P.maxWeight := Nat.mul_right_comm _ _ _
  refine ⟨ledger', hhas', hlim, hthree, SyntheticCost.clamp_eq_self ?_⟩
  exact SyntheticCost.within_iff.2 (fun d => by have := hthree d; omega)

/-! ### Blocks of the reference ledger, with limits of 100 -/

/-- The intent of segment 1 spends `coin 1` and creates `coin 3`. -/
def oneIntent : StandardTransaction unitTypes where
  intents := [(1, ⟨[], [], [⟨coin 1⟩], [⟨5, 0, 0⟩], [], fun _ => 3⟩)]
  intents_nodup := by simp
  guaranteedCoins := none
  fallibleCoins := []
  rest := ()

/-- The sample transactions, and one that spends an output of the first. -/
def costDecode : List UInt8 → Option (Transaction unitTypes)
  | [4] => some (.standard oneIntent)
  | bytes => sampleDecode bytes

/-- The reference ledger with a cost for all transactions. -/
def costCrate (cost : SyntheticCost) : LedgerCrate unitTypes :=
  { referenceCrate costDecode with cost := fun _ _ => some cost }

/-- A block weight of two seconds, and units rounded up. -/
def sampleParams : PalletParams where
  maxWeight := 2000000000000
  txSizeWeight := 0
  intoAtomicUnits x m := ⌈x * m⌉₊
  blockContext := sampleContext 12
  runtimeVersion := 1

/-- The block before any transaction. -/
def sampleBlock (cost : SyntheticCost) : Block (costCrate cost) :=
  ⟨⟨sampleStorage {coin 7}, some []⟩, 0⟩

/-- A block of two transactions, each with a cost of 1 in every dimension. -/
def twoTransactions : Block (costCrate ⟨1, 1, 1, 1, 1⟩) :=
  ((sampleBlock ⟨1, 1, 1, 1, 1⟩).send sampleParams .empty [1]).send sampleParams .empty [4]

lemma staysWithin_unit_cost (pallet : Pallet (costCrate ⟨1, 1, 1, 1, 1⟩)) (tx : List UInt8) :
    StaysWithin sampleParams pallet tx := by
  intro ledger tx' cost _ _ hcost
  cases hcost
  have hlimits : SyntheticCost.Within ⟨1, 1, 1, 1, 1⟩ ⟨100, 100, 100, 100, 100⟩ := by decide
  refine ⟨hlimits, fun normalized _ => ?_⟩
  exact lt_of_le_of_lt (Nat.add_le_add_right (min_le_right _ _) 0) (by decide)

/-- The second transaction spends an output of the first, the costs of the two add up, and the
block stays within three quarters of its limits. -/
theorem block_fullness_le_two_transactions :
    BlockRun sampleParams (StaysWithin sampleParams) (sampleBlock ⟨1, 1, 1, 1, 1⟩)
        twoTransactions ∧
      twoTransactions.pallet.Has ⟨({coin 2, coin 3} : Finset Utxo), ⟨2, 2, 2, 2, 2⟩⟩ ∧
      ∀ d, 4 * SyntheticCost.get ⟨2, 2, 2, 2, 2⟩ d ≤
        3 * SyntheticCost.get ⟨100, 100, 100, 100, 100⟩ d := by
  have hrun : BlockRun sampleParams (StaysWithin sampleParams) (sampleBlock ⟨1, 1, 1, 1, 1⟩)
      twoTransactions :=
    .send .empty [4] (.send .empty [1] .start (staysWithin_unit_cost _ _) (by decide +kernel))
      (staysWithin_unit_cost _ _) (by decide +kernel)
  have hunits : RoundsUp sampleParams.intoAtomicUnits := fun x m _ _ => Nat.le_ceil _
  obtain ⟨ledger', hhas, -, hfull, -⟩ := block_fullness_le_of_staysWithin
    (C := costCrate ⟨1, 1, 1, 1, 1⟩) (fun _ _ _ _ => rfl) (fun _ _ _ => rfl) hunits (by decide)
    ⟨[], rfl, rfl⟩ rfl hrun
  have hsame : twoTransactions.pallet.Has
      ⟨({coin 2, coin 3} : Finset Utxo), ⟨2, 2, 2, 2, 2⟩⟩ := ⟨[0], rfl, rfl⟩
  rw [hhas.unique hsame] at hfull
  exact ⟨hrun, hsame, hfull⟩

/-- A transaction that costs more than the limit is declared with the fixed weight, admitted and
applied, and the costs of the block are clamped. -/
theorem block_limit_exceeded :
    BlockRun sampleParams (fun _ _ => True) (sampleBlock ⟨101, 1, 1, 1, 1⟩)
        ((sampleBlock ⟨101, 1, 1, 1, 1⟩).send sampleParams .empty [1]) ∧
      ((sampleBlock ⟨101, 1, 1, 1, 1⟩).send sampleParams .empty [1]).pallet.Has
        ⟨({coin 1, coin 2} : Finset Utxo), ⟨101, 1, 1, 1, 1⟩⟩ ∧
      (costCrate ⟨101, 1, 1, 1, 1⟩).blockLimits ({coin 1, coin 2} : Finset Utxo) =
        ⟨100, 100, 100, 100, 100⟩ ∧
      SyntheticCost.clamp ⟨101, 1, 1, 1, 1⟩ ⟨100, 100, 100, 100, 100⟩ ≠ ⟨101, 1, 1, 1, 1⟩ :=
  ⟨.send .empty [1] .start trivial (by decide +kernel), ⟨[0], rfl, rfl⟩, rfl, by decide⟩

end MidnightNode.Ledger
