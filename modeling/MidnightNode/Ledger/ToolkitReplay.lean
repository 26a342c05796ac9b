/-
# The toolkit's replay of a block

The toolkit keeps a ledger of its own: it applies the transactions recorded in a block, adds up
their costs and ends the block as the node does.  The node rolls a failed extrinsic back, with
its cost; the toolkit counts the cost of a system transaction that fails, and it applies a
transaction that the node rolls back after it was applied.  Where no such transaction is in the
block, both ledgers agree after every transaction and at the end of the block.
-/
import MidnightNode.Ledger.BlockLimits
import MidnightNode.Ledger.Dispatch

namespace MidnightNode.Ledger

open Traverse

variable {L : LedgerTypes} {C : LedgerCrate L}

/-! ### The rest of the ledger crate -/

/-- The functions of the ledger crate that a block is ended with, that system transactions
need, and that only the toolkit calls. -/
structure ReplayCrate (C : LedgerCrate L) where
  /-- `SystemTransaction`. -/
  SystemTransaction : Type
  /-- `SystemTransactionError`. -/
  SystemTransactionError : Type
  /-- `cost` of a system transaction, with the parameters of the state. -/
  systemCost : SystemTransaction → C.State → SyntheticCost
  /-- `apply_system_tx` at a block time, without its events. -/
  applySystemTx : C.State → SystemTransaction → ℕ → Except SystemTransactionError C.State
  /-- `well_formed` with `enforce_balancing` off. -/
  wellFormedLax : Transaction L → C.State → ℕ → Except L.Malformed C.VerifiedTransaction
  /-- `cost(parameters, false)`. -/
  costLax : Transaction L → C.State → Option SyntheticCost
  /-- `compute_overall_fullness`: any function, the same one for the node and the toolkit. -/
  computeOverallFullness : NormalizedCost → ℚ
  /-- `post_block_update`, at a block time; `none` is an error. -/
  postBlockUpdate : C.State → ℕ → NormalizedCost → ℚ → Option C.State

/-- `SerdeTransaction`: a transaction as the block records it. -/
inductive SerdeTransaction (R : ReplayCrate C)
  | midnight (tx : Transaction L)
  | system (tx : R.SystemTransaction)

/-- `clamp_and_normalize`; the caller's name is only logged. -/
def clampAndNormalize (cost limits : SyntheticCost) : Option NormalizedCost :=
  (cost.clamp limits).normalize limits

/-! ### The toolkit -/

/-- Where the toolkit panics. -/
inductive Panic
  /-- `"applying invalid transaction"`. -/
  | applyingInvalidTransaction
  /-- `"error calculating fees"`. -/
  | errorCalculatingFees
  /-- `"clamped cost should always normalize successfully"`. -/
  | clampedCost
  /-- `"Error applying block updates"`. -/
  | errorApplyingBlockUpdates
deriving DecidableEq

/-- The parent hash of the first block, 32 zero bytes. -/
def OnchainBlockContext.IsGenesis (ctx : OnchainBlockContext) : Prop :=
  ctx.parentBlockHash.1 = List.replicate 32 0

instance (ctx : OnchainBlockContext) : Decidable ctx.IsGenesis :=
  inferInstanceAs (Decidable (_ = _))

/-- `well_formed` with the strictness that the toolkit chooses by the block. -/
def wellFormedIn (R : ReplayCrate C) (ctx : OnchainBlockContext) (tx : Transaction L)
    (state : C.State) : Except L.Malformed C.VerifiedTransaction :=
  if ctx.IsGenesis then R.wellFormedLax tx state ctx.tblock else C.wellFormed tx state ctx.tblock

/-- `update_from_tx`: the new ledger state and the cost to count. -/
def updateFromTx (R : ReplayCrate C) (ctx : OnchainBlockContext) (state : C.State) :
    SerdeTransaction R → Except Panic (C.State × SyntheticCost)
  | .midnight tx =>
    match wellFormedIn R ctx tx state with
    | .error _ => .error .applyingInvalidTransaction
    | .ok validTx =>
      match R.costLax tx state with
      | none => .error .errorCalculatingFees
      | some cost =>
        match C.apply state validTx ⟨state, ctx⟩ with
        | (newState, .success) => .ok (newState, cost)
        | (newState, .partialSuccess _) => .ok (newState, cost)
        | (newState, .failure _) => .ok (newState, .zero)
  | .system tx =>
    let cost := R.systemCost tx state
    match R.applySystemTx state tx ctx.tblock with
    | .ok newState => .ok (newState, cost)
    -- A failed system transaction is counted all the same.
    | .error _ => .ok (state, cost)

/-- A round of the loop of `update_ledger_state_from_txs`, on the ledger state and
`total_cost`. -/
def updateRound (R : ReplayCrate C) (ctx : OnchainBlockContext) (acc : C.State × SyntheticCost)
    (tx : SerdeTransaction R) : Except Panic (C.State × SyntheticCost) := do
  let (newState, cost) ← updateFromTx R ctx acc.1 tx
  return (newState, acc.2 + cost)

/-- `update_ledger_state_from_txs`. -/
def updateLedgerStateFromTxs (R : ReplayCrate C) (ctx : OnchainBlockContext) (state : C.State)
    (txs : List (SerdeTransaction R)) : Except Panic C.State := do
  let (state, totalCost) ← txs.foldlM (updateRound R ctx) (state, .zero)
  match clampAndNormalize totalCost (C.blockLimits state) with
  | none => .error .clampedCost
  | some normalizedFullness =>
    match R.postBlockUpdate state ctx.tblock normalizedFullness
      (R.computeOverallFullness normalizedFullness) with
    | none => .error .errorApplyingBlockUpdates
    | some state => .ok state

/-! ### The node -/

/-- What `apply_transaction` does to the ledger, without the caches. -/
def applyMidnightTransaction (ledger : StoredLedger C.State) (tx : Transaction L)
    (blockContext : BlockContext) (shouldSkipFailedSegments : Bool) :
    Except (LedgerApiError L) (StoredLedger C.State) := do
  let verifiedTx ← verifyTransaction ledger tx blockContext
  let (_, newLedger) ← applyVerified ledger tx verifiedTx blockContext shouldSkipFailedSegments
  return newLedger

/-- Why a system transaction is not applied. -/
inductive SystemError (R : ReplayCrate C)
  | systemTransaction (error : R.SystemTransactionError)
  | serializationTypedArenaKey

/-- What `apply_system_transaction` does to the ledger. -/
def applySystemTransaction (R : ReplayCrate C) (ledger : StoredLedger C.State)
    (tx : R.SystemTransaction) (tblock : ℕ) : Except (SystemError R) (StoredLedger C.State) :=
  let txCost := R.systemCost tx ledger.state
  match R.applySystemTx ledger.state tx tblock with
  | .error e => .error (.systemTransaction e)
  | .ok nextState =>
    let newLedger : StoredLedger C.State := ⟨nextState, txCost + ledger.blockFullness⟩
    match C.serializeKey newLedger with
    | none => .error .serializationTypedArenaKey
    | some _ => .ok newLedger

/-- An extrinsic of the node: one that fails is rolled back. -/
def applyExtrinsic (R : ReplayCrate C) (blockContext : BlockContext)
    (shouldSkipFailedSegments : Bool) (ledger : StoredLedger C.State) :
    SerdeTransaction R → StoredLedger C.State
  | .midnight tx =>
    (applyMidnightTransaction ledger tx blockContext shouldSkipFailedSegments).toOption.getD ledger
  | .system tx => (applySystemTransaction R ledger tx blockContext.tblock).toOption.getD ledger

/-- `post_block_update`. -/
def postBlockUpdate (R : ReplayCrate C) (ledger : StoredLedger C.State)
    (blockContext : BlockContext) : Option (StoredLedger C.State) := do
  let normalizedFullness ←
    clampAndNormalize ledger.blockFullness (C.blockLimits ledger.state)
  let nextState ← R.postBlockUpdate ledger.state blockContext.tblock normalizedFullness
    (R.computeOverallFullness normalizedFullness)
  return ⟨nextState, .zero⟩

/-- `apply_transaction` of the bridge on caches without an entry. -/
lemma exec_applyTransaction_empty {storage : C.Storage} {stateKey txSerialized : List UInt8}
    {blockContext : BlockContext} {runtimeVersion : BitVec 32} {skip : Bool} {tx : Transaction L}
    {ledger : StoredLedger C.State}
    (hload : loadCall storage stateKey txSerialized = .ok (tx, ledger)) :
    ((applyTransaction storage stateKey txSerialized blockContext skip runtimeVersion).exec
        .empty).1.map Prod.snd = applyMidnightTransaction ledger tx blockContext skip := by
  rw [exec_applyTransaction, hload, applyMidnightTransaction]
  simp only [Caches.verified, Caches.empty]
  cases verifyTransaction ledger tx blockContext with
  | error e => rfl
  | ok verifiedTx =>
    simp only [bind, Except.bind]
    cases applyVerified ledger tx verifiedTx blockContext skip <;> rfl

/-! ### What each side does with a transaction -/

namespace SyntheticCost

lemma add_def (c d : SyntheticCost) :
    c + d = ⟨c.readTime + d.readTime, c.computeTime + d.computeTime, c.blockUsage + d.blockUsage,
      c.bytesWritten + d.bytesWritten, c.bytesChurned + d.bytesChurned⟩ :=
  rfl

protected lemma add_comm (c d : SyntheticCost) : c + d = d + c := by
  simp only [add_def, Nat.add_comm]

@[simp] protected lemma add_zero (c : SyntheticCost) : c + zero = c :=
  rfl

protected lemma add_eq_left {c d : SyntheticCost} (h : c + d = c) : d = zero := by
  cases c
  cases d
  simp only [add_def, mk.injEq] at h
  simp only [zero, mk.injEq]
  omega

end SyntheticCost

/-- What is assumed of the ledger crate: serialization succeeds, a transaction that fails as a
whole leaves the state as it was, and where `cost(parameters, true)` succeeds,
`cost(parameters, false)` is the same. -/
structure ReplayAssumptions (R : ReplayCrate C) : Prop where
  serializes : Serializes C
  state_of_failure : ∀ state verifiedTx ctx reason,
    (C.apply state verifiedTx ctx).2.stage = .error reason →
      (C.apply state verifiedTx ctx).1 = state
  costLax_eq : ∀ tx state cost, C.cost tx state = some cost → R.costLax tx state = some cost

variable {R : ReplayCrate C} {blockContext : BlockContext} {ctx : OnchainBlockContext}
  {skip : Bool} {ledger : StoredLedger C.State}

lemma getTransactionContext_eq (hctx : blockContext.tryInto = some ctx) :
    getTransactionContext ledger blockContext = .ok ⟨ledger.state, ctx⟩ := by
  rw [getTransactionContext, hctx]
  rfl

lemma tblock_eq (hctx : blockContext.tryInto = some ctx) : ctx.tblock = blockContext.tblock := by
  rw [BlockContext.tryInto] at hctx
  split at hctx
  · rw [← Option.some.inj hctx]
  · exact absurd hctx (by simp)

/-- The node applies a transaction that is well formed, is not rejected as a whole, has a cost
and passes the check of its UTXOs. -/
lemma applyMidnightTransaction_eq_ok (hser : Serializes C)
    (hctx : blockContext.tryInto = some ctx) {tx : Transaction L}
    {newLedger : StoredLedger C.State} :
    applyMidnightTransaction ledger tx blockContext skip = .ok newLedger ↔
      ∃ verifiedTx stage cost, C.wellFormed tx ledger.state ctx.tblock = .ok verifiedTx ∧
        (C.apply ledger.state verifiedTx ⟨ledger.state, ctx⟩).2.stage = .ok stage ∧
        C.cost tx ledger.state = some cost ∧
        (tx.appliedUtxos stage).Passes (C.utxos ledger.state).card
          (C.utxos (C.apply ledger.state verifiedTx ⟨ledger.state, ctx⟩).1) ∧
        newLedger = ⟨(C.apply ledger.state verifiedTx ⟨ledger.state, ctx⟩).1,
          cost + ledger.blockFullness⟩ := by
  have hcontext : getTransactionContext ledger blockContext = .ok ⟨ledger.state, ctx⟩ :=
    getTransactionContext_eq hctx
  have hverify : ∀ verifiedTx, verifyTransaction ledger tx blockContext = .ok verifiedTx ↔
      C.wellFormed tx ledger.state ctx.tblock = .ok verifiedTx := by
    intro verifiedTx
    rw [verifyTransaction, hcontext]
    exact mapError_eq_ok
  constructor
  · intro h
    obtain ⟨verifiedTx, hverified, h⟩ := bind_eq_ok.1 h
    obtain ⟨⟨event, newLedger'⟩, happlied, h⟩ := bind_eq_ok.1 h
    obtain rfl := Except.ok.inj h
    obtain ⟨ctx', stage, hctx', hstage⟩ := applyVerified_ok happlied
    obtain rfl := Except.ok.inj (hcontext.symm.trans hctx')
    obtain ⟨cost, hcost, rfl, hevent⟩ := (applyVerified_eq_ok hcontext hstage).1 happlied
    exact ⟨verifiedTx, stage, cost, (hverify verifiedTx).1 hverified, hstage, hcost,
      hser.transactionEvent_ok_iff.1 ⟨event, hevent⟩, rfl⟩
  · rintro ⟨verifiedTx, stage, cost, hverified, hstage, hcost, hpasses, rfl⟩
    have hevent : ∃ event, transactionEvent tx (C.utxos ledger.state).card
        (⟨(C.apply ledger.state verifiedTx ⟨ledger.state, ctx⟩).1, cost + ledger.blockFullness⟩ :
          StoredLedger C.State) stage skip = .ok event :=
      hser.transactionEvent_ok_iff.2 hpasses
    obtain ⟨event, hevent⟩ := hevent
    have happlied := (applyVerified_eq_ok hcontext hstage).2 ⟨cost, hcost, rfl, hevent⟩
    exact bind_eq_ok.2 ⟨verifiedTx, (hverify verifiedTx).2 hverified,
      bind_eq_ok.2 ⟨_, happlied, rfl⟩⟩

/-- The cost that the toolkit counts for a result. -/
def TransactionResult.counted (result : TransactionResult L) (cost : SyntheticCost) :
    SyntheticCost :=
  match result.stage with
  | .ok _ => cost
  | .error _ => .zero

lemma updateFromTx_midnight {tx : Transaction L} {state : C.State}
    {validTx : C.VerifiedTransaction} {cost : SyntheticCost}
    (hvalid : wellFormedIn R ctx tx state = .ok validTx) (hcost : R.costLax tx state = some cost) :
    updateFromTx R ctx state (.midnight tx) =
      .ok ((C.apply state validTx ⟨state, ctx⟩).1,
        (C.apply state validTx ⟨state, ctx⟩).2.counted cost) := by
  simp only [updateFromTx, hvalid, hcost]
  rcases C.apply state validTx ⟨state, ctx⟩ with ⟨newState, _ | _ | _⟩ <;> rfl

/-- The toolkit panics on a transaction that is not well formed or has no cost. -/
lemma exists_of_updateFromTx_midnight {tx : Transaction L} {state : C.State}
    {result : C.State × SyntheticCost} (h : updateFromTx R ctx state (.midnight tx) = .ok result) :
    ∃ validTx cost, wellFormedIn R ctx tx state = .ok validTx ∧
      R.costLax tx state = some cost := by
  simp only [updateFromTx] at h
  cases hvalid : wellFormedIn R ctx tx state with
  | error e => simp [hvalid] at h
  | ok validTx =>
    cases hcost : R.costLax tx state with
    | none => simp [hvalid, hcost] at h
    | some cost => exact ⟨validTx, cost, rfl, rfl⟩

/-! ### Transactions that are replayed as they were applied -/

/-- The toolkit does with a transaction what the node does.  A system transaction is applied, or
costs nothing.  A Midnight transaction is well formed (in the first block also without the
balancing) and has a cost; and unless it fails as a whole, either the node does not roll it back
for its cost or its UTXOs, or it has no effect and costs nothing. -/
def Replayable (R : ReplayCrate C) (ctx : OnchainBlockContext) (ledger : StoredLedger C.State) :
    SerdeTransaction R → Prop
  | .midnight tx =>
    ∃ validTx cost, C.wellFormed tx ledger.state ctx.tblock = .ok validTx ∧
      (ctx.IsGenesis → R.wellFormedLax tx ledger.state ctx.tblock = .ok validTx) ∧
      R.costLax tx ledger.state = some cost ∧
      ∀ stage, (C.apply ledger.state validTx ⟨ledger.state, ctx⟩).2.stage = .ok stage →
        ((C.cost tx ledger.state).isSome ∧
            (tx.appliedUtxos stage).Passes (C.utxos ledger.state).card
              (C.utxos (C.apply ledger.state validTx ⟨ledger.state, ctx⟩).1)) ∨
          ((C.apply ledger.state validTx ⟨ledger.state, ctx⟩).1 = ledger.state ∧ cost = .zero)
  | .system tx =>
    (∃ newState, R.applySystemTx ledger.state tx ctx.tblock = .ok newState) ∨
      R.systemCost tx ledger.state = .zero

/-- The ledger state and the total of the costs, as the toolkit keeps them. -/
def StoredLedger.view {State : Type} (ledger : StoredLedger State) : State × SyntheticCost :=
  (ledger.state, ledger.blockFullness)

lemma updateRound_eq_ok {tx : SerdeTransaction R} {acc result : C.State × SyntheticCost} :
    updateRound R ctx acc tx = .ok result ↔
      ∃ cost, updateFromTx R ctx acc.1 tx = .ok (result.1, cost) ∧ result.2 = acc.2 + cost := by
  rw [updateRound]
  constructor
  · intro h
    obtain ⟨⟨newState, cost⟩, hupdate, h⟩ := bind_eq_ok.1 h
    obtain rfl := Except.ok.inj h
    exact ⟨cost, hupdate, rfl⟩
  · rintro ⟨cost, hupdate, hresult⟩
    refine bind_eq_ok.2 ⟨_, hupdate, ?_⟩
    exact congrArg Except.ok (Prod.ext rfl hresult.symm)

/-- The ledger after a system transaction. -/
lemma applyExtrinsic_system (hser : Serializes C) (tx : R.SystemTransaction) :
    applyExtrinsic R blockContext skip ledger (.system tx) =
      match R.applySystemTx ledger.state tx blockContext.tblock with
      | .ok newState => ⟨newState, R.systemCost tx ledger.state + ledger.blockFullness⟩
      | .error _ => ledger := by
  simp only [applyExtrinsic, applySystemTransaction]
  cases R.applySystemTx ledger.state tx blockContext.tblock with
  | error e => rfl
  | ok newState =>
    obtain ⟨bytes, hbytes⟩ := hser.key
      ⟨newState, R.systemCost tx ledger.state + ledger.blockFullness⟩
    simp only [hbytes]
    rfl

lemma round_system_iff (hser : Serializes C) (hctx : blockContext.tryInto = some ctx)
    (tx : R.SystemTransaction) :
    updateRound R ctx ledger.view (.system tx) =
        .ok (applyExtrinsic R blockContext skip ledger (.system tx)).view ↔
      Replayable R ctx ledger (.system tx) := by
  rw [updateRound_eq_ok, applyExtrinsic_system hser, ← tblock_eq hctx, Replayable]
  simp only [updateFromTx, StoredLedger.view]
  cases happly : R.applySystemTx ledger.state tx ctx.tblock with
  | ok newState =>
    refine iff_of_true ⟨_, rfl, ?_⟩ (Or.inl ⟨newState, rfl⟩)
    exact SyntheticCost.add_comm _ _
  | error e =>
    constructor
    · rintro ⟨cost, hupdate, hfull⟩
      obtain ⟨-, rfl⟩ := Prod.mk.inj (Except.ok.inj hupdate)
      exact Or.inr (SyntheticCost.add_eq_left hfull.symm)
    · rintro (⟨newState, hnew⟩ | hzero)
      · exact absurd hnew (by simp)
      · exact ⟨.zero, by rw [hzero], rfl⟩

/-- A Midnight transaction that the node rolls back. -/
lemma applyExtrinsic_midnight_of_not_ok {tx : Transaction L}
    (h : ∀ newLedger, applyMidnightTransaction ledger tx blockContext skip ≠ .ok newLedger) :
    applyExtrinsic R blockContext skip ledger (.midnight tx) = ledger := by
  rw [applyExtrinsic]
  cases happly : applyMidnightTransaction ledger tx blockContext skip with
  | error e => rfl
  | ok newLedger => exact absurd happly (h newLedger)

lemma applyExtrinsic_midnight_of_ok {tx : Transaction L} {newLedger : StoredLedger C.State}
    (h : applyMidnightTransaction ledger tx blockContext skip = .ok newLedger) :
    applyExtrinsic R blockContext skip ledger (.midnight tx) = newLedger := by
  rw [applyExtrinsic, h]
  rfl

/-- A transaction that the node applies has the same effect in the toolkit. -/
lemma view_of_applied (hR : ReplayAssumptions R) (hctx : blockContext.tryInto = some ctx)
    {tx : Transaction L} {validTx : C.VerifiedTransaction} {cost : SyntheticCost}
    (hstrict : C.wellFormed tx ledger.state ctx.tblock = .ok validTx)
    (hcost : R.costLax tx ledger.state = some cost) {newLedger : StoredLedger C.State}
    (hok : applyMidnightTransaction ledger tx blockContext skip = .ok newLedger) :
    newLedger.view = ((C.apply ledger.state validTx ⟨ledger.state, ctx⟩).1,
      ledger.blockFullness +
        (C.apply ledger.state validTx ⟨ledger.state, ctx⟩).2.counted cost) := by
  obtain ⟨verifiedTx, stage, cost', hverified, hstage, hcost', -, rfl⟩ :=
    (applyMidnightTransaction_eq_ok hR.serializes hctx).1 hok
  obtain rfl := Except.ok.inj (hstrict.symm.trans hverified)
  obtain rfl := Option.some.inj (hcost.symm.trans (hR.costLax_eq _ _ _ hcost'))
  rw [TransactionResult.counted, hstage]
  exact Prod.ext rfl (SyntheticCost.add_comm _ _)

lemma updateRound_midnight {tx : Transaction L} {validTx : C.VerifiedTransaction}
    {cost : SyntheticCost} (hvalid : wellFormedIn R ctx tx ledger.state = .ok validTx)
    (hcost : R.costLax tx ledger.state = some cost) :
    updateRound R ctx ledger.view (.midnight tx) =
      .ok ((C.apply ledger.state validTx ⟨ledger.state, ctx⟩).1, ledger.blockFullness +
        (C.apply ledger.state validTx ⟨ledger.state, ctx⟩).2.counted cost) :=
  updateRound_eq_ok.2 ⟨_, updateFromTx_midnight hvalid hcost, rfl⟩

/-- A replayable Midnight transaction does the same to both ledgers. -/
lemma Replayable.round_midnight (hR : ReplayAssumptions R) (hctx : blockContext.tryInto = some ctx)
    {tx : Transaction L} (h : Replayable R ctx ledger (.midnight tx)) :
    updateRound R ctx ledger.view (.midnight tx) =
      .ok (applyExtrinsic R blockContext skip ledger (.midnight tx)).view := by
  obtain ⟨validTx, cost, hstrict, hlax, hcost, hstages⟩ := h
  have hvalid : wellFormedIn R ctx tx ledger.state = .ok validTx := by
    rw [wellFormedIn]
    split
    · rename_i hgenesis
      exact hlax hgenesis
    · exact hstrict
  rw [updateRound_midnight hvalid hcost]
  by_cases hok : ∃ newLedger, applyMidnightTransaction ledger tx blockContext skip = .ok newLedger
  · obtain ⟨newLedger, hok⟩ := hok
    rw [applyExtrinsic_midnight_of_ok hok, view_of_applied hR hctx hstrict hcost hok]
  · rw [applyExtrinsic_midnight_of_not_ok fun newLedger hnew => hok ⟨newLedger, hnew⟩]
    -- The node rolls the transaction back, and the toolkit sees no effect either.
    have heffect : (C.apply ledger.state validTx ⟨ledger.state, ctx⟩).1 = ledger.state ∧
        (C.apply ledger.state validTx ⟨ledger.state, ctx⟩).2.counted cost = .zero := by
      rw [TransactionResult.counted]
      cases hstage : (C.apply ledger.state validTx ⟨ledger.state, ctx⟩).2.stage with
      | error reason => exact ⟨hR.state_of_failure _ _ _ _ hstage, rfl⟩
      | ok stage =>
        rcases hstages stage hstage with ⟨hsome, hpasses⟩ | ⟨hstate, hzero⟩
        · obtain ⟨cost', hcost'⟩ := Option.isSome_iff_exists.1 hsome
          exact absurd ⟨_, (applyMidnightTransaction_eq_ok hR.serializes hctx).2
            ⟨validTx, stage, cost', hstrict, hstage, hcost', hpasses, rfl⟩⟩ hok
        · exact ⟨hstate, hzero⟩
    rw [heffect.1, heffect.2]
    rfl

/-- After the first block, a Midnight transaction that does the same to both ledgers is
replayable. -/
lemma replayable_of_round_midnight (hR : ReplayAssumptions R)
    (hctx : blockContext.tryInto = some ctx) (hgenesis : ¬ ctx.IsGenesis) {tx : Transaction L}
    (h : updateRound R ctx ledger.view (.midnight tx) =
      .ok (applyExtrinsic R blockContext skip ledger (.midnight tx)).view) :
    Replayable R ctx ledger (.midnight tx) := by
  obtain ⟨_, hupdate, -⟩ := updateRound_eq_ok.1 h
  obtain ⟨validTx, cost, hvalid, hcost⟩ := exists_of_updateFromTx_midnight hupdate
  rw [updateRound_midnight hvalid hcost] at h
  rw [wellFormedIn, if_neg hgenesis] at hvalid
  refine ⟨validTx, cost, hvalid, fun hg => absurd hg hgenesis, hcost, fun stage hstage => ?_⟩
  by_cases hok : ∃ newLedger, applyMidnightTransaction ledger tx blockContext skip = .ok newLedger
  · obtain ⟨newLedger, hok⟩ := hok
    obtain ⟨verifiedTx, stage', cost', hverified, hstage', hcost', hpasses, -⟩ :=
      (applyMidnightTransaction_eq_ok hR.serializes hctx).1 hok
    obtain rfl := Except.ok.inj (hvalid.symm.trans hverified)
    obtain rfl := Except.ok.inj (hstage.symm.trans hstage')
    exact Or.inl ⟨by rw [hcost']; rfl, hpasses⟩
  · rw [applyExtrinsic_midnight_of_not_ok fun newLedger hnew => hok ⟨newLedger, hnew⟩,
      TransactionResult.counted, hstage] at h
    obtain ⟨hstate, hfull⟩ := Prod.mk.inj (Except.ok.inj h)
    exact Or.inr ⟨hstate, SyntheticCost.add_eq_left hfull⟩

lemma Replayable.round (hR : ReplayAssumptions R) (hctx : blockContext.tryInto = some ctx)
    (tx : SerdeTransaction R) (h : Replayable R ctx ledger tx) :
    updateRound R ctx ledger.view tx = .ok (applyExtrinsic R blockContext skip ledger tx).view := by
  cases tx with
  | midnight tx => exact h.round_midnight hR hctx
  | system tx => exact (round_system_iff hR.serializes hctx tx).2 h

lemma replayable_of_round (hR : ReplayAssumptions R) (hctx : blockContext.tryInto = some ctx)
    (hgenesis : ¬ ctx.IsGenesis) (tx : SerdeTransaction R)
    (h : updateRound R ctx ledger.view tx =
      .ok (applyExtrinsic R blockContext skip ledger tx).view) :
    Replayable R ctx ledger tx := by
  cases tx with
  | midnight tx => exact replayable_of_round_midnight hR hctx hgenesis h
  | system tx => exact (round_system_iff hR.serializes hctx tx).1 h

/-! ### Blocks -/

/-- The node's ledger after the extrinsics of a block. -/
def applyExtrinsics (R : ReplayCrate C) (blockContext : BlockContext) (skip : Bool)
    (state : C.State) (txs : List (SerdeTransaction R)) : StoredLedger C.State :=
  txs.foldl (applyExtrinsic R blockContext skip) ⟨state, .zero⟩

/-- The toolkit has the node's ledger state and the node's block fullness after the
transactions. -/
def Agrees (R : ReplayCrate C) (blockContext : BlockContext) (ctx : OnchainBlockContext)
    (skip : Bool) (state : C.State) (txs : List (SerdeTransaction R)) : Prop :=
  txs.foldlM (updateRound R ctx) (state, .zero) =
    .ok (applyExtrinsics R blockContext skip state txs).view

/-- Every transaction of a block is replayable on the ledger that the node has before it. -/
def ReplayableBlock (R : ReplayCrate C) (blockContext : BlockContext) (ctx : OnchainBlockContext)
    (skip : Bool) (state : C.State) (txs : List (SerdeTransaction R)) : Prop :=
  AtEachStep (applyExtrinsic R blockContext skip) (Replayable R ctx) ⟨state, .zero⟩ txs

/-- Where both sides agree after the transactions, they end the block alike. -/
lemma Agrees.end_block (hctx : blockContext.tryInto = some ctx) {state : C.State}
    {txs : List (SerdeTransaction R)} (h : Agrees R blockContext ctx skip state txs) :
    (updateLedgerStateFromTxs R ctx state txs).toOption =
      (postBlockUpdate R (applyExtrinsics R blockContext skip state txs) blockContext).map
        StoredLedger.state := by
  rw [updateLedgerStateFromTxs, h, postBlockUpdate, ← tblock_eq hctx]
  generalize applyExtrinsics R blockContext skip state txs = ledger
  simp only [StoredLedger.view, bind, Except.bind, Option.bind]
  cases clampAndNormalize ledger.blockFullness (C.blockLimits ledger.state) with
  | none => rfl
  | some normalizedFullness =>
    cases hpost : R.postBlockUpdate ledger.state ctx.tblock normalizedFullness
      (R.computeOverallFullness normalizedFullness) with
    | none => simp [hpost, Except.toOption]
    | some nextState => simp [hpost, Except.toOption]

/-- **Replay**: if each transaction of a block is replayable where it comes, the toolkit has the
node's state and fullness after each of them, and the node's state after the block.  After the
first block, it has them after each transaction only then. -/
theorem replay_agrees_iff (hR : ReplayAssumptions R) (blockContext : BlockContext)
    (ctx : OnchainBlockContext) (hctx : blockContext.tryInto = some ctx) (skip : Bool)
    (state : C.State) (txs : List (SerdeTransaction R)) :
    (ReplayableBlock R blockContext ctx skip state txs →
      (∀ pre post, txs = pre ++ post → Agrees R blockContext ctx skip state pre) ∧
        (updateLedgerStateFromTxs R ctx state txs).toOption =
          (postBlockUpdate R (applyExtrinsics R blockContext skip state txs) blockContext).map
            StoredLedger.state) ∧
    (¬ ctx.IsGenesis →
      ((∀ pre post, txs = pre ++ post → Agrees R blockContext ctx skip state pre) ↔
        ReplayableBlock R blockContext ctx skip state txs)) := by
  have hsteps : (∀ pre post, txs = pre ++ post → Agrees R blockContext ctx skip state pre) ↔
      AtEachStep (applyExtrinsic R blockContext skip)
        (fun ledger tx => updateRound R ctx ledger.view tx =
          .ok (applyExtrinsic R blockContext skip ledger tx).view) ⟨state, .zero⟩ txs :=
    foldlM_inStep_iff (f := updateRound R ctx) (s := ⟨state, .zero⟩) StoredLedger.view
  have hforward : ReplayableBlock R blockContext ctx skip state txs →
      ∀ pre post, txs = pre ++ post → Agrees R blockContext ctx skip state pre :=
    fun h => hsteps.2 (h.imp fun _ tx htx => htx.round hR hctx tx)
  refine ⟨fun h => ⟨hforward h, ?_⟩, fun hgenesis => ⟨fun h => ?_, hforward⟩⟩
  · exact (hforward h txs [] (List.append_nil txs).symm).end_block hctx
  · exact (hsteps.1 h).imp fun _ tx htx => replayable_of_round hR hctx hgenesis tx htx

/-! ### Blocks of the reference ledger -/

/-- System transactions that pay a reward, which fail if it was paid, and a block update that
leaves a mark if the block was not empty. -/
def sampleReplay : ReplayCrate (referenceCrate sampleDecode) where
  SystemTransaction := BitVec 128
  SystemTransactionError := Unit
  systemCost _ _ := ⟨1, 1, 1, 1, 1⟩
  applySystemTx (U : Finset Utxo) value _ :=
    if rewardUtxo value ∈ U then .error () else .ok (insert (rewardUtxo value) U : Finset Utxo)
  wellFormedLax := (referenceCrate sampleDecode).wellFormed
  costLax _ _ := some ⟨1, 1, 1, 1, 1⟩
  computeOverallFullness := NormalizedCost.maxShare
  postBlockUpdate (U : Finset Utxo) _ _ overallFullness :=
    some (if overallFullness = 0 then U else insert (coin 99) U : Finset Utxo)

/-- The state of the reference ledger with the given UTXOs. -/
def utxoState (U : Finset Utxo) : (referenceCrate sampleDecode).State := U

instance : DecidableEq (referenceCrate sampleDecode).State :=
  inferInstanceAs (DecidableEq (Finset Utxo))

/-- A block after the first one. -/
def secondBlock : BlockContext := ⟨12, 0, List.replicate 32 1, 0⟩

/-- Its context in the ledger crate. -/
def secondBlockCtx : OnchainBlockContext := ⟨12, 0, ⟨List.replicate 32 1, rfl⟩, 0⟩

lemma sampleReplay_assumptions : ReplayAssumptions sampleReplay where
  serializes := ⟨fun _ => ⟨_, rfl⟩, fun _ => ⟨_, rfl⟩⟩
  state_of_failure := by
    intro U tx ctx reason h
    cases tx with
    | standard tx =>
      simp only [referenceCrate, applyStandard] at h ⊢
      split at h
      · rename_i hfailed
        rw [if_pos hfailed]
      · split at h <;> cases h
    | claimRewards value rest =>
      simp only [referenceCrate] at h ⊢
      split at h
      · rename_i hpaid
        rw [if_pos hpaid]
      · cases h
  costLax_eq := fun _ _ _ h => h

/-- A transaction and a reward that are both applied. -/
def appliedBlock : List (SerdeTransaction sampleReplay) :=
  [.midnight (.standard (twoIntents (coin 7))), .system (5 : BitVec 128)]

theorem replay_agrees_applied_block :
    ReplayableBlock sampleReplay secondBlock secondBlockCtx true (utxoState {coin 7})
        appliedBlock ∧
      Agrees sampleReplay secondBlock secondBlockCtx true (utxoState {coin 7}) appliedBlock ∧
      (updateLedgerStateFromTxs sampleReplay secondBlockCtx (utxoState {coin 7})
          appliedBlock).toOption =
        (postBlockUpdate sampleReplay (applyExtrinsics sampleReplay secondBlock true
          (utxoState {coin 7}) appliedBlock) secondBlock).map StoredLedger.state := by
  have hblock : ReplayableBlock sampleReplay secondBlock secondBlockCtx true
      (utxoState {coin 7}) appliedBlock := by
    refine ⟨⟨.standard (twoIntents (coin 7)), ⟨1, 1, 1, 1, 1⟩, rfl, fun _ => rfl, rfl, ?_⟩,
      Or.inl ⟨_, rfl⟩, trivial⟩
    intro stage hstage
    obtain rfl : AppliedStage.allApplied = stage := Except.ok.inj hstage
    have hcheck : ((Transaction.standard (twoIntents (coin 7))).appliedUtxos
        .allApplied).checkUtxosResponseIntegrity unitTypes (Finset.card {coin 7})
        {coin 1, coin 2} = .ok ([⟨0, 0, 1, 5, 0⟩, ⟨0, 0, 2, 5, 0⟩], [⟨0, 0, 7, 5, 0⟩]) := rfl
    exact Or.inl ⟨rfl, (checkUtxosResponseIntegrity_ok hcheck).1⟩
  obtain ⟨hagrees, hend⟩ := (replay_agrees_iff sampleReplay_assumptions
    secondBlock secondBlockCtx rfl true (utxoState {coin 7}) appliedBlock).1 hblock
  exact ⟨hblock, hagrees appliedBlock [] rfl, hend⟩

/-- A reward that was paid before: the node rolls the system transaction back, the toolkit counts
its cost, and the states after the block differ.  A claim of rewards: the node rolls it back for
its UTXO, and the toolkit applies it. -/
theorem replay_counts_failed_transaction :
    applyExtrinsics sampleReplay secondBlock true (utxoState {rewardUtxo 5})
        [.system (5 : BitVec 128)] = ⟨utxoState {rewardUtxo 5}, .zero⟩ ∧
      List.foldlM (updateRound sampleReplay secondBlockCtx)
        (utxoState {rewardUtxo 5}, SyntheticCost.zero) [.system (5 : BitVec 128)] =
          .ok (utxoState {rewardUtxo 5}, ⟨1, 1, 1, 1, 1⟩) ∧
      (postBlockUpdate sampleReplay ⟨utxoState {rewardUtxo 5}, .zero⟩ secondBlock).map
        StoredLedger.state = some (utxoState {rewardUtxo 5}) ∧
      (updateLedgerStateFromTxs sampleReplay secondBlockCtx (utxoState {rewardUtxo 5})
        [.system (5 : BitVec 128)]).toOption = some (utxoState {coin 99, rewardUtxo 5}) ∧
      applyExtrinsics sampleReplay secondBlock true (utxoState ∅)
        [.midnight (.claimRewards 5 ())] = ⟨utxoState ∅, .zero⟩ ∧
      List.foldlM (updateRound sampleReplay secondBlockCtx)
        (utxoState ∅, SyntheticCost.zero) [.midnight (.claimRewards 5 ())] =
          .ok (utxoState {rewardUtxo 5}, ⟨1, 1, 1, 1, 1⟩) := by
  refine ⟨rfl, rfl, ?_, ?_, rfl, rfl⟩
  · decide +kernel
  · decide +kernel

end MidnightNode.Ledger
