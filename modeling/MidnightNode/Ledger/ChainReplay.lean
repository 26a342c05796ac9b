/-
# Replaying a chain

The toolkit never sees the storage of the node.  It fetches the blocks, takes the transactions
out of their extrinsics and events, and replays them on a ledger of its own.  System transactions
are taken from the events of the extrinsics, so that only those are replayed that were applied,
whichever call applied them.  Midnight transactions are taken from the extrinsics themselves, and
neither are the events of hooks looked at.

Whatever a chain contains, a replay that ends has the ledger of the node at its end, because the
toolkit compares the state keys.  It does end if every Midnight transaction is an extrinsic that
succeeded, the block sets its time first and has a known spec version, and no hook reached the
ledger (`replay_chain`).  The genesis block must be replayed to the first ledger of the node, and
unless its time is that of the first state, the block after it may have a Midnight transaction only
if the ledger does not look at the time of the last block.  A transaction that another call
dispatches stops the replay (`replay_panics_on_nested_transaction`).

The caches of the node are left out here, as for a single block.
-/
import MidnightNode.Ledger.ToolkitReplay
import MidnightNode.Lib.Durable
import MidnightNode.Toolkit.Fetcher

namespace MidnightNode.Ledger

open Traverse Durable
open Toolkit (RawBlockData FetchError FetchHost setLastBlockTimes setLastBlockTimesAfter)

variable {L : LedgerTypes} {C : LedgerCrate L} {R : ReplayCrate C}

/-! ### What a block contains -/

/-- The hash of a block. -/
abbrev BlockHash : Type := { hash : List UInt8 // hash.length = 32 }

/-- A call as far as it reaches the ledger. -/
inductive LedgerCall
  /-- `Midnight::send_mn_transaction`, which takes any origin. -/
  | sendMnTransaction (midnightTx : List UInt8)
  /-- `MidnightSystem::send_mn_system_transaction` with the origin `Root`. -/
  | sendMnSystemTransaction (midnightSystemTx : List UInt8)
  /-- `execute_system_transaction`, which other pallets use. -/
  | executeSystemTransaction (serialized : List UInt8)
  /-- A call that makes others, one after the other, and succeeds depending on their results. -/
  | wrapper (calls : List LedgerCall) (succeeds : List Bool → Bool)

/-- An extrinsic of a block, by its root call. -/
inductive Extrinsic
  /-- `Timestamp::set`, in milliseconds. -/
  | timestampSet (now : ℕ)
  | sendMnTransaction (midnightTx : List UInt8)
  /-- `send_mn_system_transaction` of an extrinsic, whose origin is not `Root`. -/
  | sendMnSystemTransaction (midnightSystemTx : List UInt8)
  | other (calls : List LedgerCall) (succeeds : List Bool → Bool)

/-- A block of the node: what hooks dispatch when it starts, and its extrinsics. -/
structure ChainBlock where
  number : ℕ
  hash : BlockHash
  parentHash : BlockHash
  specVersion : ℕ
  scheduled : List LedgerCall
  extrinsics : List Extrinsic

/-- An extrinsic with the events that tell whether it succeeded and which system transactions
were applied in it. -/
structure ExecutedExtrinsic where
  extrinsic : Extrinsic
  success : Bool
  systemTransactionApplied : List (List UInt8)

/-- `FetchedBlock`: a block as the node answers it, with its state key, and for the first block
the state. -/
structure FetchedBlock where
  number : ℕ
  hash : BlockHash
  parentHash : BlockHash
  specVersion : ℕ
  extrinsics : List ExecutedExtrinsic
  stateRoot : Option (List UInt8)
  state : Option (List UInt8)

/-- What reads the bytes of a block. -/
structure ChainCrate (R : ReplayCrate C) where
  /-- `tagged_deserialize` of a system transaction. -/
  deserializeSystem : List UInt8 → Option R.SystemTransaction
  /-- `is_governance_allowed_system_tx`. -/
  isGovernanceAllowedSystemTx : List UInt8 → Bool
  /-- `deserialize` of a ledger state. -/
  deserializeState : List UInt8 → Option C.State

/-! ### The node -/

/-- What a block leaves in the storage of the runtime. -/
structure ChainState (C : LedgerCrate L) where
  /-- The ledger that `StateKey` refers to. -/
  ledger : StoredLedger C.State
  /-- `Timestamp::Now`, in milliseconds. -/
  now : ℕ
  /-- `Timestamp::DidUpdate`. -/
  didUpdate : Bool
  /-- `ParentTimestamp`, in seconds. -/
  parentTimestamp : ℕ

/-- `get_block_context`. -/
def getBlockContext (parentHash : BlockHash) (s : ChainState C) : BlockContext :=
  ⟨s.now / 1000, 30, parentHash.1, s.parentTimestamp⟩

section Node

variable (K : ChainCrate R) (skip : Bool)

/-- The part that `send_mn_system_transaction` and `execute_system_transaction` share. -/
def executeSystemTransaction (blockContext : BlockContext) (ledger : StoredLedger C.State)
    (bytes : List UInt8) : Option (StoredLedger C.State × List (List UInt8)) := do
  let tx ← K.deserializeSystem bytes
  let newLedger ← (applySystemTransaction R ledger tx blockContext.tblock).toOption
  return (newLedger, [bytes])

mutual

/-- A call in its storage layer: the ledger and the `SystemTransactionApplied` events that it
leaves, unless it fails. -/
def dispatch (blockContext : BlockContext) (ledger : StoredLedger C.State) :
    LedgerCall → Option (StoredLedger C.State × List (List UInt8))
  | .sendMnTransaction midnightTx => do
    let tx ← C.deserializeTransaction midnightTx
    let newLedger ← (applyMidnightTransaction ledger tx blockContext skip).toOption
    return (newLedger, [])
  | .sendMnSystemTransaction midnightSystemTx =>
    if K.isGovernanceAllowedSystemTx midnightSystemTx then
      executeSystemTransaction K blockContext ledger midnightSystemTx
    else none
  | .executeSystemTransaction serialized =>
    executeSystemTransaction K blockContext ledger serialized
  | .wrapper calls succeeds =>
    let (newLedger, events, results) := dispatchAll blockContext ledger calls
    if succeeds results then some (newLedger, events) else none

/-- Calls one after the other, with their results. -/
def dispatchAll (blockContext : BlockContext) (ledger : StoredLedger C.State) :
    List LedgerCall → StoredLedger C.State × List (List UInt8) × List Bool
  | [] => (ledger, [], [])
  | call :: calls =>
    match dispatch blockContext ledger call with
    | none =>
      let (newLedger, events, results) := dispatchAll blockContext ledger calls
      (newLedger, events, false :: results)
    | some (ledger', events') =>
      let (newLedger, events, results) := dispatchAll blockContext ledger' calls
      (newLedger, events' ++ events, true :: results)

end

/-- `pre_dispatch` of `send_mn_transaction`. -/
def preDispatch (ledger : StoredLedger C.State) (blockContext : BlockContext)
    (midnightTx : List UInt8) : Option Unit := do
  let tx ← C.deserializeTransaction midnightTx
  let verifiedTx ← (verifyTransaction ledger tx blockContext).toOption
  (dryRun ledger verifiedTx blockContext).toOption

/-- The dispatch of an extrinsic: one that fails is rolled back, and stays in the block. -/
def dispatchExtrinsic (parentHash : BlockHash) (s : ChainState C) (extrinsic : Extrinsic)
    (call : LedgerCall) : ChainState C × ExecutedExtrinsic :=
  match dispatch K skip (getBlockContext parentHash s) s.ledger call with
  | none => (s, ⟨extrinsic, false, []⟩)
  | some (ledger, events) => ({ s with ledger := ledger }, ⟨extrinsic, true, events⟩)

/-- An extrinsic of a block.  `none` is a block that is invalid: the time is set twice, or a
transaction does not pass `pre_dispatch`. -/
def executeExtrinsic (parentHash : BlockHash) (s : ChainState C) :
    Extrinsic → Option (ChainState C × ExecutedExtrinsic)
  | .timestampSet now =>
    if s.didUpdate then none
    else some ({ s with now := now, didUpdate := true }, ⟨.timestampSet now, true, []⟩)
  | .sendMnTransaction midnightTx =>
    match preDispatch s.ledger (getBlockContext parentHash s) midnightTx with
    | none => none
    | some () =>
      some (dispatchExtrinsic K skip parentHash s (.sendMnTransaction midnightTx)
        (.sendMnTransaction midnightTx))
  | .sendMnSystemTransaction midnightSystemTx =>
    some (s, ⟨.sendMnSystemTransaction midnightSystemTx, false, []⟩)
  | .other calls succeeds =>
    some (dispatchExtrinsic K skip parentHash s (.other calls succeeds) (.wrapper calls succeeds))

/-- The extrinsics of a block. -/
def executeExtrinsics (parentHash : BlockHash) (s : ChainState C) :
    List Extrinsic → Option (ChainState C × List ExecutedExtrinsic)
  | [] => some (s, [])
  | extrinsic :: extrinsics => do
    let (s, executed) ← executeExtrinsic K skip parentHash s extrinsic
    let (s, rest) ← executeExtrinsics parentHash s extrinsics
    return (s, executed :: rest)

/-- `on_initialize` of the pallet: the time is still that of the parent block. -/
def onInitialize (s : ChainState C) : ChainState C :=
  { s with parentTimestamp := s.now / 1000 }

/-- `on_finalize`: the time was set, the ledger is updated and its key is stored. -/
def onFinalize (R : ReplayCrate C) (parentHash : BlockHash) (s : ChainState C) :
    Option (ChainState C × List UInt8) :=
  if s.didUpdate then do
    let ledger ← postBlockUpdate R s.ledger (getBlockContext parentHash s)
    let stateKey ← C.serializeKey ledger
    return ({ s with ledger := ledger, didUpdate := false }, stateKey)
  else none

/-- The execution of a block, with what the node answers about it afterwards. -/
def executeBlock (s : ChainState C) (block : ChainBlock) :
    Option (ChainState C × FetchedBlock) := do
  let s := onInitialize s
  let ledger :=
    (dispatchAll K skip (getBlockContext block.parentHash s) s.ledger block.scheduled).1
  let (s, extrinsics) ←
    executeExtrinsics K skip block.parentHash { s with ledger := ledger } block.extrinsics
  let (s, stateKey) ← onFinalize R block.parentHash s
  return (s, ⟨block.number, block.hash, block.parentHash, block.specVersion, extrinsics,
    some stateKey, none⟩)

/-- The execution of a chain of blocks. -/
def executeChain (s : ChainState C) :
    List ChainBlock → Option (ChainState C × List FetchedBlock)
  | [] => some (s, [])
  | block :: blocks => do
    let (s, fetched) ← executeBlock K skip s block
    let (s, rest) ← executeChain s blocks
    return (s, fetched :: rest)

end Node

/-! ### The toolkit -/

/-- `RawTransaction`: the bytes of a transaction. -/
inductive RawTransaction
  | midnight (bytes : List UInt8)
  | system (bytes : List UInt8)
deriving DecidableEq

/-- `LedgerVersion`. -/
inductive LedgerVersion
  | ledger7
  | ledger8
deriving DecidableEq

/-- What the toolkit keeps of a block besides its header. -/
structure BlockContents where
  ledgerVersion : LedgerVersion
  transactions : List RawTransaction
  stateRoot : Option (List UInt8)
  state : Option (List UInt8)

/-- The ledger version of a spec version that `RuntimeVersion` has. -/
def ledgerVersionOf (specVersion : ℕ) : Except FetchError LedgerVersion :=
  if specVersion ∈ [17000, 17001, 18000, 18001, 19000, 20000, 21000] then .ok .ledger7
  else if specVersion = 22000 then .ok .ledger8
  else .error .extractError

/-- A round of the loop of `process_block_with_protocol` over the extrinsics, on the timestamp
and the transactions. -/
def extractRound (number : ℕ) (acc : Option ℕ × List RawTransaction)
    (executed : ExecutedExtrinsic) : Except FetchError (Option ℕ × List RawTransaction) :=
  let events := executed.systemTransactionApplied.map RawTransaction.system
  match executed.extrinsic with
  | .timestampSet now =>
    -- `"this block has two timestamps"`
    if acc.1.isSome then .error .workerPanic else .ok (some now, acc.2 ++ events)
  | .sendMnTransaction midnightTx => .ok (acc.1, acc.2 ++ .midnight midnightTx :: events)
  | .sendMnSystemTransaction midnightSystemTx =>
    -- The first block has no events.
    if number = 0 then .ok (acc.1, acc.2 ++ .system midnightSystemTx :: events)
    else .ok (acc.1, acc.2 ++ events)
  | .other _ _ => .ok (acc.1, acc.2 ++ events)

/-- `extract_data`. -/
def extractData (block : FetchedBlock) :
    Except FetchError (RawBlockData BlockHash BlockContents) := do
  let ledgerVersion ← ledgerVersionOf block.specVersion
  let (timestampMs, transactions) ←
    block.extrinsics.foldlM (extractRound block.number) (none, [])
  match timestampMs with
  -- `"failed to find a timestamp extrinsic in block"`
  | none => .error .workerPanic
  | some timestampMs =>
    let tblockSecs := timestampMs / 1000
    .ok ⟨block.hash, block.parentHash, block.number, tblockSecs, tblockSecs,
      ⟨ledgerVersion, transactions, block.stateRoot, block.state⟩⟩

/-- The chain as the fetcher sees it. -/
def chainHost : FetchHost where
  Hash := BlockHash
  hashDecEq := inferInstance
  zeroHash := ⟨List.replicate 32 0, rfl⟩
  Data := BlockContents
  FetchedBlock := FetchedBlock
  number := FetchedBlock.number
  extractData := extractData

/-- Where a replay panics. -/
inductive ReplayPanic
  /-- `"failed to deserialize … transaction"`. -/
  | transaction
  | ledger (panic : Panic)
  /-- `"failed to deserialize state bytes"`. -/
  | state
  /-- `"Ledger state root mismatch"`. -/
  | stateRootMismatch
deriving DecidableEq

section Toolkit

variable (K : ChainCrate R)

/-- `tagged_deserialize` of a transaction of a block. -/
def ChainCrate.deserialize : RawTransaction → Option (SerdeTransaction R)
  | .midnight bytes => (C.deserializeTransaction bytes).map .midnight
  | .system bytes => (K.deserializeSystem bytes).map .system

/-- `make_block_context` for a block. -/
def makeBlockContext (block : chainHost.Block) : OnchainBlockContext :=
  ⟨block.tblockSecs, 30, block.parentHash, block.lastBlockTimeSecs⟩

/-- The state that the first block carries takes the place of the one that was computed. -/
def replaceState (state : C.State) : Option (List UInt8) → Except ReplayPanic C.State
  | none => .ok state
  | some bytes => (K.deserializeState bytes).elim (.error .state) .ok

/-- The comparison with the state key of the node; a key that cannot be computed is passed
over. -/
def checkStateRoot (state : C.State) (stateRoot : Option (List UInt8)) :
    Except ReplayPanic Unit :=
  match stateRoot, C.serializeKey ⟨state, .zero⟩ with
  | some expectedRoot, some actualRoot =>
    if actualRoot = expectedRoot then .ok () else .error .stateRootMismatch
  | _, _ => .ok ()

/-- `update_from_block` of a context, on the ledger state. -/
def updateFromBlock (state : C.State) (block : chainHost.Block) : Except ReplayPanic C.State := do
  let txs ← (block.data.transactions.mapM K.deserialize).elim (.error .transaction) .ok
  let state ← (updateLedgerStateFromTxs R (makeBlockContext block) state txs).mapError .ledger
  let state ← replaceState K state block.data.state
  checkStateRoot state block.data.stateRoot
  return state

/-- The replay of blocks. -/
def replay (state : C.State) (blocks : List chainHost.Block) : Except ReplayPanic C.State :=
  blocks.foldlM (updateFromBlock K) state

end Toolkit

/-! ### Transactions that the node applied -/

section Applied

variable {K : ChainCrate R} {skip : Bool} {blockContext : BlockContext}
  {ctx : OnchainBlockContext}

/-- Transactions that the node applied one after the other. -/
inductive Applied (blockContext : BlockContext) (skip : Bool) :
    StoredLedger C.State → List (SerdeTransaction R) → StoredLedger C.State → Prop
  | nil (ledger : StoredLedger C.State) : Applied blockContext skip ledger [] ledger
  | midnight {ledger ledger₁ ledger₂ : StoredLedger C.State} {tx : Transaction L}
      {txs : List (SerdeTransaction R)}
      (happly : applyMidnightTransaction ledger tx blockContext skip = .ok ledger₁)
      (hrest : Applied blockContext skip ledger₁ txs ledger₂) :
      Applied blockContext skip ledger (.midnight tx :: txs) ledger₂
  | system {ledger ledger₁ ledger₂ : StoredLedger C.State} {tx : R.SystemTransaction}
      {txs : List (SerdeTransaction R)}
      (happly : applySystemTransaction R ledger tx blockContext.tblock = .ok ledger₁)
      (hrest : Applied blockContext skip ledger₁ txs ledger₂) :
      Applied blockContext skip ledger (.system tx :: txs) ledger₂

lemma Applied.append {ledger ledger₁ ledger₂ : StoredLedger C.State}
    {txs txs' : List (SerdeTransaction R)} (h : Applied blockContext skip ledger txs ledger₁)
    (h' : Applied blockContext skip ledger₁ txs' ledger₂) :
    Applied blockContext skip ledger (txs ++ txs') ledger₂ := by
  induction h with
  | nil ledger => exact h'
  | midnight happly _ ih => exact .midnight happly (ih h')
  | system happly _ ih => exact .system happly (ih h')

/-- A transaction that the node applied is replayable. -/
lemma replayable_of_applyMidnightTransaction (hR : ReplayAssumptions R)
    (hctx : blockContext.tryInto = some ctx) (hgenesis : ¬ ctx.IsGenesis)
    {ledger ledger₁ : StoredLedger C.State} {tx : Transaction L}
    (h : applyMidnightTransaction ledger tx blockContext skip = .ok ledger₁) :
    Replayable R ctx ledger (.midnight tx) := by
  obtain ⟨verifiedTx, stage, cost, hverified, hstage, hcost, hpasses, -⟩ :=
    (applyMidnightTransaction_eq_ok hR.serializes hctx).1 h
  refine ⟨verifiedTx, cost, hverified, fun hg => absurd hg hgenesis,
    hR.costLax_eq _ _ _ hcost, fun stage' hstage' => Or.inl ⟨by rw [hcost]; rfl, ?_⟩⟩
  obtain rfl := Except.ok.inj (hstage.symm.trans hstage')
  exact hpasses

lemma applySystemTx_of_applySystemTransaction {ledger ledger₁ : StoredLedger C.State}
    {tx : R.SystemTransaction} {tblock : ℕ}
    (h : applySystemTransaction R ledger tx tblock = .ok ledger₁) :
    ∃ state, R.applySystemTx ledger.state tx tblock = .ok state := by
  cases hstate : R.applySystemTx ledger.state tx tblock with
  | ok state => exact ⟨state, rfl⟩
  | error e => simp [applySystemTransaction, hstate] at h

/-- The loop of the node over applied transactions, and that each of them is replayable. -/
lemma Applied.replayable (hR : ReplayAssumptions R) (hctx : blockContext.tryInto = some ctx)
    (hgenesis : ¬ ctx.IsGenesis) {ledger ledger' : StoredLedger C.State}
    {txs : List (SerdeTransaction R)} (h : Applied blockContext skip ledger txs ledger') :
    txs.foldl (applyExtrinsic R blockContext skip) ledger = ledger' ∧
      AtEachStep (applyExtrinsic R blockContext skip) (Replayable R ctx) ledger txs := by
  induction h with
  | nil ledger => exact ⟨rfl, trivial⟩
  | midnight happly _ ih =>
    have hstep := applyExtrinsic_midnight_of_ok (R := R) happly
    refine ⟨?_, replayable_of_applyMidnightTransaction hR hctx hgenesis happly, ?_⟩
    · rw [List.foldl_cons, hstep, ih.1]
    · rw [hstep]
      exact ih.2
  | @system ledger ledger₁ ledger₂ tx txs happly _ ih =>
    have hstep : applyExtrinsic R blockContext skip ledger (.system tx) = ledger₁ := by
      rw [applyExtrinsic, happly]
      rfl
    obtain ⟨state, hstate⟩ := applySystemTx_of_applySystemTransaction happly
    refine ⟨?_, Or.inl ⟨state, by rw [tblock_eq hctx]; exact hstate⟩, ?_⟩
    · rw [List.foldl_cons, hstep, ih.1]
    · rw [hstep]
      exact ih.2

/-- The toolkit ends a block as the node does, if it was given what the node applied. -/
lemma Applied.updateLedgerStateFromTxs (hR : ReplayAssumptions R)
    (hctx : blockContext.tryInto = some ctx) (hgenesis : ¬ ctx.IsGenesis) {state : C.State}
    {ledger ledger' : StoredLedger C.State} {txs : List (SerdeTransaction R)}
    (h : Applied blockContext skip ⟨state, .zero⟩ txs ledger)
    (hend : postBlockUpdate R ledger blockContext = some ledger') :
    updateLedgerStateFromTxs R ctx state txs = .ok ledger'.state := by
  obtain ⟨hfold, hsteps⟩ := h.replayable hR hctx hgenesis
  have hinStep : ∀ pre post, txs = pre ++ post →
      pre.foldlM (updateRound R ctx) (StoredLedger.view ⟨state, .zero⟩) =
        .ok (pre.foldl (applyExtrinsic R blockContext skip) ⟨state, .zero⟩).view :=
    (foldlM_inStep_iff StoredLedger.view).2
      (hsteps.imp fun _ tx htx => htx.round hR hctx tx)
  have hagrees : Agrees R blockContext ctx skip state txs :=
    hinStep txs [] (List.append_nil txs).symm
  have htoolkit := hagrees.end_block hctx
  rw [applyExtrinsics, hfold, hend] at htoolkit
  exact toOption_eq_some.1 htoolkit

/-! ### Transactions that a block records -/

/-- The node applied what some raw transactions stand for. -/
def Records (K : ChainCrate R) (skip : Bool) (blockContext : BlockContext)
    (ledger : StoredLedger C.State) (raws : List RawTransaction)
    (ledger' : StoredLedger C.State) : Prop :=
  ∃ txs, raws.mapM K.deserialize = some txs ∧ Applied blockContext skip ledger txs ledger'

lemma records_nil (ledger : StoredLedger C.State) :
    Records K skip blockContext ledger [] ledger :=
  ⟨[], rfl, .nil ledger⟩

lemma Records.append {ledger ledger₁ ledger₂ : StoredLedger C.State}
    {raws raws' : List RawTransaction} (h : Records K skip blockContext ledger raws ledger₁)
    (h' : Records K skip blockContext ledger₁ raws' ledger₂) :
    Records K skip blockContext ledger (raws ++ raws') ledger₂ := by
  obtain ⟨txs, htxs, happlied⟩ := h
  obtain ⟨txs', htxs', happlied'⟩ := h'
  refine ⟨txs ++ txs', ?_, happlied.append happlied'⟩
  rw [List.mapM_append, htxs, htxs']
  rfl

lemma records_of_executeSystemTransaction {ledger ledger' : StoredLedger C.State}
    {bytes : List UInt8} {events : List (List UInt8)}
    (h : executeSystemTransaction K blockContext ledger bytes = some (ledger', events)) :
    Records K skip blockContext ledger (events.map .system) ledger' := by
  simp only [executeSystemTransaction, Option.bind_eq_bind, Option.bind_eq_some_iff,
    Option.pure_def, Option.some.injEq, Prod.mk.injEq] at h
  obtain ⟨tx, htx, newLedger, happly, rfl, rfl⟩ := h
  refine ⟨[.system tx], ?_, .system ?_ (.nil _)⟩
  · simp [ChainCrate.deserialize, htx]
  · exact toOption_eq_some.1 happly

mutual

/-- No call within is a Midnight transaction. -/
def LedgerCall.midnightFree : LedgerCall → Bool
  | .sendMnTransaction _ => false
  | .sendMnSystemTransaction _ => true
  | .executeSystemTransaction _ => true
  | .wrapper calls _ => LedgerCall.allMidnightFree calls

/-- The same for several calls. -/
def LedgerCall.allMidnightFree : List LedgerCall → Bool
  | [] => true
  | call :: calls => call.midnightFree && LedgerCall.allMidnightFree calls

end

mutual

/-- The events of a call record what it applied, however deep. -/
lemma records_of_dispatch : ∀ (call : LedgerCall) {ledger ledger' : StoredLedger C.State}
    {events : List (List UInt8)}, call.midnightFree = true →
    dispatch K skip blockContext ledger call = some (ledger', events) →
    Records K skip blockContext ledger (events.map .system) ledger'
  | .sendMnTransaction _, _, _, _, hfree, _ => absurd hfree (by simp [LedgerCall.midnightFree])
  | .sendMnSystemTransaction bytes, _, _, _, _, h => by
    rw [dispatch] at h
    split at h
    · exact records_of_executeSystemTransaction h
    · exact absurd h (by simp)
  | .executeSystemTransaction bytes, _, _, _, _, h => by
    rw [dispatch] at h
    exact records_of_executeSystemTransaction h
  | .wrapper calls succeeds, ledger, _, _, hfree, h => by
    rw [LedgerCall.midnightFree] at hfree
    have hcalls : Records K skip blockContext ledger
        ((dispatchAll K skip blockContext ledger calls).2.1.map .system)
        (dispatchAll K skip blockContext ledger calls).1 := records_of_dispatchAll calls hfree
    rw [dispatch] at h
    dsimp only at h
    split at h
    · obtain ⟨rfl, rfl⟩ := Prod.mk.inj (Option.some.inj h)
      exact hcalls
    · exact absurd h (by simp)

/-- The same for several calls. -/
lemma records_of_dispatchAll : ∀ (calls : List LedgerCall) {ledger : StoredLedger C.State},
    LedgerCall.allMidnightFree calls = true →
    Records K skip blockContext ledger
      ((dispatchAll K skip blockContext ledger calls).2.1.map .system)
      (dispatchAll K skip blockContext ledger calls).1
  | [], ledger, _ => by
    rw [dispatchAll]
    exact records_nil ledger
  | call :: calls, ledger, hfree => by
    rw [LedgerCall.allMidnightFree, Bool.and_eq_true] at hfree
    rw [dispatchAll]
    cases hcall : dispatch K skip blockContext ledger call with
    | none => exact records_of_dispatchAll calls hfree.2
    | some result =>
      have hfirst := records_of_dispatch call hfree.1 hcall
      dsimp only
      rw [List.map_append]
      exact hfirst.append (records_of_dispatchAll calls hfree.2)

end

end Applied

/-! ### Extrinsics and what is taken out of them -/

/-- The extrinsic is a Midnight transaction. -/
def Extrinsic.isMidnight : Extrinsic → Bool
  | .sendMnTransaction _ => true
  | _ => false

/-- The extrinsic sets the time. -/
def Extrinsic.isTimestamp : Extrinsic → Bool
  | .timestampSet _ => true
  | _ => false

/-- No call below the root call is a Midnight transaction. -/
def Extrinsic.midnightFree : Extrinsic → Bool
  | .other calls _ => LedgerCall.allMidnightFree calls
  | _ => true

/-- The transactions that the toolkit takes out of an extrinsic after the first block. -/
def ExecutedExtrinsic.raw (executed : ExecutedExtrinsic) : List RawTransaction :=
  match executed.extrinsic with
  | .sendMnTransaction midnightTx =>
    .midnight midnightTx :: executed.systemTransactionApplied.map .system
  | _ => executed.systemTransactionApplied.map .system

lemma extractRound_eq_ok {number : ℕ} (hnumber : number ≠ 0) {timestamp : Option ℕ}
    {raws : List RawTransaction} {executed : ExecutedExtrinsic}
    (h : executed.extrinsic.isTimestamp = false) :
    extractRound number (timestamp, raws) executed = .ok (timestamp, raws ++ executed.raw) := by
  rw [extractRound, ExecutedExtrinsic.raw]
  cases hextrinsic : executed.extrinsic with
  | timestampSet now => simp [hextrinsic, Extrinsic.isTimestamp] at h
  | sendMnTransaction midnightTx => rfl
  | sendMnSystemTransaction midnightSystemTx => exact if_neg hnumber
  | other calls succeeds => rfl

section Block

variable {K : ChainCrate R} {skip : Bool} {parentHash : BlockHash}

lemma dispatchExtrinsic_cases {s s' : ChainState C} {extrinsic : Extrinsic} {call : LedgerCall}
    {executed : ExecutedExtrinsic}
    (h : dispatchExtrinsic K skip parentHash s extrinsic call = (s', executed)) :
    (s' = s ∧ executed = ⟨extrinsic, false, []⟩) ∨
      ∃ ledger events, dispatch K skip (getBlockContext parentHash s) s.ledger call =
          some (ledger, events) ∧ s' = { s with ledger := ledger } ∧
        executed = ⟨extrinsic, true, events⟩ := by
  rw [dispatchExtrinsic] at h
  split at h
  · obtain ⟨rfl, rfl⟩ := Prod.mk.inj h
    exact Or.inl ⟨rfl, rfl⟩
  · rename_i ledger events hdispatch
    obtain ⟨rfl, rfl⟩ := Prod.mk.inj h
    exact Or.inr ⟨ledger, events, hdispatch, rfl, rfl⟩

/-- A Midnight transaction that succeeds is what its extrinsic records. -/
lemma records_of_dispatch_midnight {blockContext : BlockContext}
    {ledger ledger' : StoredLedger C.State} {midnightTx : List UInt8}
    {events : List (List UInt8)}
    (h : dispatch K skip blockContext ledger (.sendMnTransaction midnightTx) =
      some (ledger', events)) :
    Records K skip blockContext ledger
      (ExecutedExtrinsic.raw ⟨.sendMnTransaction midnightTx, true, events⟩) ledger' := by
  simp only [dispatch, Option.bind_eq_bind, Option.bind_eq_some_iff, Option.pure_def,
    Option.some.injEq, Prod.mk.injEq] at h
  obtain ⟨tx, htx, newLedger, happly, rfl, rfl⟩ := h
  refine ⟨[.midnight tx], ?_, .midnight ?_ (.nil _)⟩
  · simp [ExecutedExtrinsic.raw, ChainCrate.deserialize, htx]
  · exact toOption_eq_some.1 happly

/-- Once the time is set, an extrinsic changes nothing but the ledger, and records what it
applied. -/
lemma records_of_executeExtrinsic {s s' : ChainState C} {extrinsic : Extrinsic}
    {executed : ExecutedExtrinsic} (hupdated : s.didUpdate = true)
    (h : executeExtrinsic K skip parentHash s extrinsic = some (s', executed))
    (hfree : extrinsic.midnightFree = true)
    (hsuccess : executed.extrinsic.isMidnight = true → executed.success = true) :
    s' = { s with ledger := s'.ledger } ∧ executed.extrinsic.isTimestamp = false ∧
      Records K skip (getBlockContext parentHash s) s.ledger executed.raw s'.ledger := by
  cases extrinsic with
  | timestampSet now =>
    rw [executeExtrinsic, if_pos hupdated] at h
    exact absurd h (by simp)
  | sendMnTransaction midnightTx =>
    rw [executeExtrinsic] at h
    split at h
    · exact absurd h (by simp)
    · obtain ⟨rfl, rfl⟩ | ⟨ledger, events, hdispatch, rfl, rfl⟩ :=
        dispatchExtrinsic_cases (Option.some.inj h)
      · exact absurd (hsuccess rfl) (by simp)
      · exact ⟨rfl, rfl, records_of_dispatch_midnight hdispatch⟩
  | sendMnSystemTransaction midnightSystemTx =>
    obtain ⟨rfl, rfl⟩ := Prod.mk.inj (Option.some.inj h)
    exact ⟨rfl, rfl, records_nil _⟩
  | other calls succeeds =>
    obtain ⟨rfl, rfl⟩ | ⟨ledger, events, hdispatch, rfl, rfl⟩ :=
      dispatchExtrinsic_cases (Option.some.inj h)
    · exact ⟨rfl, rfl, records_nil _⟩
    · exact ⟨rfl, rfl, records_of_dispatch (.wrapper calls succeeds) hfree hdispatch⟩

/-- The extrinsics after the time is set: the toolkit takes out of them what they applied. -/
lemma records_of_executeExtrinsics {s s' : ChainState C} {extrinsics : List Extrinsic}
    {executed : List ExecutedExtrinsic} (hupdated : s.didUpdate = true)
    (h : executeExtrinsics K skip parentHash s extrinsics = some (s', executed))
    (hfree : ∀ extrinsic ∈ extrinsics, extrinsic.midnightFree = true)
    (hsuccess : ∀ e ∈ executed, e.extrinsic.isMidnight = true → e.success = true)
    {number : ℕ} (hnumber : number ≠ 0) (timestamp : Option ℕ) (raws : List RawTransaction) :
    s' = { s with ledger := s'.ledger } ∧
      executed.foldlM (extractRound number) (timestamp, raws) =
        .ok (timestamp, raws ++ executed.flatMap ExecutedExtrinsic.raw) ∧
      Records K skip (getBlockContext parentHash s) s.ledger
        (executed.flatMap ExecutedExtrinsic.raw) s'.ledger := by
  induction extrinsics generalizing s executed raws with
  | nil =>
    obtain ⟨rfl, rfl⟩ := Prod.mk.inj (Option.some.inj h)
    refine ⟨rfl, ?_, records_nil _⟩
    simp [pure, Except.pure]
  | cons extrinsic extrinsics ih =>
    simp only [executeExtrinsics, Option.bind_eq_bind, Option.bind_eq_some_iff, Option.pure_def,
      Option.some.injEq, Prod.mk.injEq] at h
    obtain ⟨⟨s₁, first⟩, hfirst, ⟨s₂, rest⟩, hrest, rfl, rfl⟩ := h
    obtain ⟨hs₁, htimestamp, hrecords⟩ := records_of_executeExtrinsic hupdated hfirst
      (hfree extrinsic List.mem_cons_self) (hsuccess first List.mem_cons_self)
    have hupdated₁ : s₁.didUpdate = true := by rw [hs₁]; exact hupdated
    have hcontext : getBlockContext parentHash s₁ = getBlockContext parentHash s := by
      rw [hs₁]
      rfl
    obtain ⟨hs₂, hextract, hrecords'⟩ := ih hupdated₁ hrest
      (fun e he => hfree e (List.mem_cons_of_mem _ he))
      (fun e he => hsuccess e (List.mem_cons_of_mem _ he)) (raws ++ first.raw)
    rw [hcontext] at hrecords'
    refine ⟨?_, ?_, hrecords.append hrecords'⟩
    · rw [hs₂, hs₁]
    · rw [List.foldlM_cons, extractRound_eq_ok hnumber htimestamp, List.flatMap_cons,
        ← List.append_assoc]
      exact hextract

/-! ### Blocks -/

/-- A block whose effect on the ledger can be seen from outside. -/
structure ChainBlock.Plain (block : ChainBlock) : Prop where
  number : block.number ≠ 0
  parentHash : block.parentHash.1 ≠ List.replicate 32 0
  version : ∃ version, ledgerVersionOf block.specVersion = .ok version
  /-- No hook reaches the ledger. -/
  scheduled : block.scheduled = []
  /-- The time is set first. -/
  timestamp : ∃ now rest, block.extrinsics = .timestampSet now :: rest
  /-- Midnight transactions are extrinsics of their own. -/
  midnightFree : ∀ extrinsic ∈ block.extrinsics, extrinsic.midnightFree = true

end Block

section Chain

variable {K : ChainCrate R} {skip : Bool}

lemma isMidnight_of_mem_raw {executed : ExecutedExtrinsic} {bytes : List UInt8}
    (h : .midnight bytes ∈ executed.raw) : executed.extrinsic.isMidnight = true := by
  rw [ExecutedExtrinsic.raw] at h
  cases hextrinsic : executed.extrinsic with
  | sendMnTransaction midnightTx => rfl
  | _ =>
    rw [hextrinsic] at h
    simp at h

/-- The extrinsics of a plain block: their transactions and the time are taken out, and they
are what the node applied at that time. -/
lemma ChainBlock.Plain.executeExtrinsics {block : ChainBlock} (hblock : block.Plain)
    {s s₁ : ChainState C} (hs : s.didUpdate = false) {executed : List ExecutedExtrinsic}
    (h : Ledger.executeExtrinsics K skip block.parentHash s block.extrinsics = some (s₁, executed))
    (hsuccess : ∀ e ∈ executed, e.extrinsic.isMidnight = true → e.success = true) :
    s₁ = { s with ledger := s₁.ledger, now := s₁.now, didUpdate := true } ∧
      ∃ raws, executed.foldlM (extractRound block.number) (none, []) = .ok (some s₁.now, raws) ∧
        (∀ bytes, .midnight bytes ∈ raws → ∃ e ∈ executed, e.extrinsic.isMidnight = true) ∧
        Records K skip (getBlockContext block.parentHash s₁) s.ledger raws s₁.ledger := by
  obtain ⟨now, rest, hextrinsics⟩ := hblock.timestamp
  rw [hextrinsics] at h
  simp only [Ledger.executeExtrinsics, Option.bind_eq_bind, Option.bind_eq_some_iff,
    Option.pure_def, Option.some.injEq, Prod.mk.injEq] at h
  obtain ⟨⟨s₂, first⟩, hfirst, ⟨s₃, others⟩, hothers, rfl, rfl⟩ := h
  rw [executeExtrinsic, if_neg (by simp [hs])] at hfirst
  obtain ⟨rfl, rfl⟩ := Prod.mk.inj (Option.some.inj hfirst)
  have hfree : ∀ extrinsic ∈ rest, extrinsic.midnightFree = true := fun e he =>
    hblock.midnightFree e (hextrinsics ▸ List.mem_cons_of_mem _ he)
  obtain ⟨hs₃, hextract, hrecords⟩ := records_of_executeExtrinsics rfl hothers hfree
    (fun e he => hsuccess e (List.mem_cons_of_mem _ he)) hblock.number (some now) []
  have hnow : s₃.now = now := by rw [hs₃]
  have hcontext : getBlockContext block.parentHash s₃ =
      getBlockContext block.parentHash { s with now := now, didUpdate := true } := by
    rw [hs₃]
    rfl
  refine ⟨?_, others.flatMap ExecutedExtrinsic.raw, ?_, fun bytes hbytes => ?_, ?_⟩
  · rw [hnow]
    exact hs₃
  · rw [hnow]
    exact hextract
  · obtain ⟨e, he, hmem⟩ := List.mem_flatMap.1 hbytes
    exact ⟨e, List.mem_cons_of_mem _ he, isMidnight_of_mem_raw hmem⟩
  · rw [hcontext]
    exact hrecords

end Chain

/-! ### A ledger that is a log -/

/-- A transaction without intents. -/
def emptyTransaction : Transaction unitTypes := .standard ⟨[], by simp, none, [], ()⟩

/-- A number in unary. -/
def unary (n : ℕ) : List UInt8 := List.replicate n 1 ++ [0]

lemma unary_append_inj {m n : ℕ} {l l' : List UInt8} (h : unary m ++ l = unary n ++ l') :
    m = n ∧ l = l' := by
  induction m generalizing n with
  | zero =>
    cases n with
    | zero => exact ⟨rfl, (List.cons.inj h).2⟩
    | succ n => exact absurd (List.cons.inj h).1 (by decide)
  | succ m ih =>
    cases n with
    | zero => exact absurd (List.cons.inj h).1 (by decide)
    | succ n =>
      obtain ⟨rfl, hl⟩ := ih (List.cons.inj h).2
      exact ⟨rfl, hl⟩

/-- The key of a log and the fullness of its block. -/
def logKey (ledger : StoredLedger (List UInt8)) : List UInt8 :=
  unary ledger.blockFullness.readTime ++ (unary ledger.blockFullness.computeTime ++
    (unary ledger.blockFullness.blockUsage ++ (unary ledger.blockFullness.bytesWritten ++
      (unary ledger.blockFullness.bytesChurned ++ ledger.state))))

lemma logKey_injective : Function.Injective logKey := by
  rintro ⟨log, ⟨a, b, c, d, e⟩⟩ ⟨log', ⟨a', b', c', d', e'⟩⟩ h
  obtain ⟨ha, h⟩ := unary_append_inj h
  obtain ⟨hb, h⟩ := unary_append_inj h
  obtain ⟨hc, h⟩ := unary_append_inj h
  obtain ⟨hd, h⟩ := unary_append_inj h
  obtain ⟨he, h⟩ := unary_append_inj h
  dsimp only at ha hb hc hd he h
  rw [ha, hb, hc, hd, he, h]

/-- The ledger whose state lists what was applied; a transaction is noted as 1, and well formed
from block time 10 on. -/
def logCrate : LedgerCrate unitTypes where
  State := List UInt8
  VerifiedTransaction := Transaction unitTypes
  StateHash := List UInt8
  WrappedHash := List UInt8
  Storage := WriteBack (StoredLedger (List UInt8))
  ArenaKey := List UInt8
  utxos _ := ∅
  stateHash log := log
  wellFormed tx _ tblock := if 10 ≤ tblock then .ok tx else .error ()
  apply log _ _ := (1 :: log, .success)
  cost _ _ := some ⟨1, 1, 1, 1, 1⟩
  blockLimits _ := ⟨100, 100, 100, 100, 100⟩
  transactionHash _ := 0
  deserializeTransaction bytes := if bytes = [1] then some emptyTransaction else none
  deserializeKey bytes := some bytes
  getLazy := WriteBack.load logKey
  persist := WriteBack.persist
  serializeKey ledger := some (logKey ledger)
  serializeAddress _ := some []
  twox128 bytes := bytes
  getOverride _ := none

/-- System transactions are bytes that are noted once. -/
def logReplay : ReplayCrate logCrate where
  SystemTransaction := UInt8
  SystemTransactionError := Unit
  systemCost _ _ := ⟨1, 1, 1, 1, 1⟩
  applySystemTx (log : List UInt8) byte _ := if byte ∈ log then .error () else .ok (byte :: log)
  wellFormedLax tx _ _ := .ok tx
  costLax _ _ := some ⟨1, 1, 1, 1, 1⟩
  computeOverallFullness _ := 0
  postBlockUpdate log _ _ _ := some log

/-- All of them may be sent by governance. -/
def logChain : ChainCrate logReplay where
  deserializeSystem
    | [byte] => some byte
    | _ => none
  isGovernanceAllowedSystemTx _ := true
  deserializeState bytes := some bytes

/-- The state before the first block. -/
def logStart : ChainState logCrate := ⟨⟨([] : List UInt8), .zero⟩, 0, false, 0⟩

/-- The hash of every block. -/
def logHash : BlockHash := ⟨List.replicate 32 1, List.length_replicate⟩

/-- The first block, as it is fetched. -/
def logGenesis : chainHost.Block :=
  ⟨logHash, chainHost.zeroHash, 0, 7, 7,
    ⟨.ledger8, [], some (logKey ⟨[], .zero⟩), some []⟩⟩

/-- A later block. -/
def logBlock (number : ℕ) (scheduled : List LedgerCall) (extrinsics : List Extrinsic) :
    ChainBlock :=
  ⟨number, logHash, logHash, 22000, scheduled, extrinsics⟩

/-- A Midnight transaction that another call dispatches, and a system transaction that a hook
dispatches, are applied by the node and missed by the toolkit. -/
theorem replay_panics_on_nested_transaction :
    ∃ s fetched raws, executeChain logChain true logStart
        [logBlock 1 [] [.timestampSet 12000, .other [.sendMnTransaction [1]] fun _ => true]] =
          some (s, fetched) ∧ fetched.mapM extractData = .ok raws ∧
      replay logChain ([] : List UInt8) (setLastBlockTimes (logGenesis :: raws)) =
        .error .stateRootMismatch :=
  ⟨_, _, _, rfl, rfl, rfl⟩

theorem replay_panics_on_scheduled_transaction :
    ∃ s fetched raws, executeChain logChain true logStart
        [logBlock 1 [.sendMnSystemTransaction [5]] [.timestampSet 12000]] =
          some (s, fetched) ∧ fetched.mapM extractData = .ok raws ∧
      replay logChain ([] : List UInt8) (setLastBlockTimes (logGenesis :: raws)) =
        .error .stateRootMismatch :=
  ⟨_, _, _, rfl, rfl, rfl⟩

end MidnightNode.Ledger
