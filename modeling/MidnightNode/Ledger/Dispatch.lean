/-
# From pre-dispatch to dispatch

`pre_dispatch` verifies a transaction and dry-runs it; the dispatch then applies it for real and
checks the derived UTXOs against the new state.  A transaction that passed `pre_dispatch` fails
in the dispatch exactly if that check rejects it: always if it claims rewards, whose new UTXO is
not derived, and if one of its segments spends what another one created.
-/
import MidnightNode.Ledger.Events
import MidnightNode.Ledger.Transparency

namespace MidnightNode.Ledger

open SetRun Traverse

variable {L : LedgerTypes} {C : LedgerCrate L}

/-! ### The check, for each kind of transaction -/

/-- Serialization succeeds. -/
structure Serializes (C : LedgerCrate L) : Prop where
  key : ∀ ledger, ∃ bytes, C.serializeKey ledger = some bytes
  address : ∀ address, ∃ bytes, C.serializeAddress address = some bytes

/-- The loop over the operations succeeds. -/
lemma Serializes.foldlM_push (h : Serializes C) (operations : List Operation)
    (event : TransactionAppliedStateRoot) :
    ∃ event', operations.foldlM (TransactionAppliedStateRoot.push C) event = .ok event' := by
  induction operations generalizing event with
  | nil => exact ⟨event, rfl⟩
  | cons operation operations ih =>
    have hpush : ∃ event₁, event.push C operation = .ok event₁ := by
      cases operation with
      | claimRewards value => exact ⟨_, rfl⟩
      | call address | deploy address | maintain address =>
        obtain ⟨bytes, hbytes⟩ := h.address address
        exact ⟨_, bind_eq_ok.2 ⟨bytes, okOr_eq_ok.2 hbytes, rfl⟩⟩
    obtain ⟨event₁, hpush⟩ := hpush
    obtain ⟨event', hrest⟩ := ih event₁
    exact ⟨event', bind_eq_ok.2 ⟨event₁, hpush, hrest⟩⟩

/-- The event is built iff the integrity check passes. -/
lemma Serializes.transactionEvent_ok_iff (h : Serializes C) {tx : Transaction L} {n : ℕ}
    {newLedger : StoredLedger C.State} {stage : AppliedStage L} {skip : Bool} :
    (∃ event, transactionEvent tx n newLedger stage skip = .ok event) ↔
      (tx.appliedUtxos stage).Passes n (C.utxos newLedger.state) := by
  constructor
  · rintro ⟨event, hevent⟩
    obtain ⟨⟨created, spent⟩, hcheck, -⟩ := bind_eq_ok.1 hevent
    exact (checkUtxosResponseIntegrity_ok hcheck).1
  · intro hpass
    obtain ⟨root, hroot⟩ := h.key newLedger
    obtain ⟨event, hevent⟩ := h.foldlM_push (tx.callsAndDeploys
      (if skip then stage.failedSegments else none)) _
    exact ⟨event, bind_eq_ok.2 ⟨_, checkUtxosResponseIntegrity_of_passes hpass,
      bind_eq_ok.2 ⟨root, okOr_eq_ok.2 hroot, hevent⟩⟩⟩

/-- Claimed rewards never pass the check: their UTXO is not among the derived ones. -/
lemma claimRewards_not_passes {value : BitVec 128} {rest : L.Rest} {stage : AppliedStage L}
    {U V : Finset Utxo} {utxo : Utxo} (hnew : utxo ∉ U) (hV : V = insert utxo U) :
    ¬ ((Transaction.claimRewards value rest : Transaction L).appliedUtxos stage).Passes
      U.card V := by
  intro h
  have hget := appliedUtxos_get (Transaction.claimRewards value rest : Transaction L) stage
  simp only [Transaction.unshieldedUtxos, UnshieldedUtxos.empty, ListMap.Map.get_empty,
    ite_self] at hget
  have hcard := h.card_eq
  rw [ListMap.Map.flatten_eq_nil (fun k => (hget k).1),
    ListMap.Map.flatten_eq_nil (fun k => (hget k).2), hV,
    Finset.card_insert_of_notMem hnew] at hcard
  simp at hcard

/-- The condition under which the check accepts a standard transaction. -/
def StandardTransaction.ChecksOut (tx : StandardTransaction L) (stage : AppliedStage L)
    (U V : Finset Utxo) : Prop :=
  if tx.OutputsFit then tx.SpendsNoOutput stage else V.card = U.card

lemma StandardTransaction.passes_iff_checksOut {tx : StandardTransaction L}
    {stage : AppliedStage L} {U V : Finset Utxo} (hrun : Run (tx.steps stage) U V) :
    ((Transaction.standard tx).appliedUtxos stage).Passes U.card V ↔ tx.ChecksOut stage U V := by
  rw [ChecksOut]
  split
  · rename_i hfit
    exact passes_iff hfit hrun
  · rename_i hfit
    exact passes_iff_of_not_fits hfit

/-! ### Before the dispatch -/

/-- What the caches of a run give for a call, `well_formed` returned at some block time. -/
lemma CacheRun.wellFormed_of_verified (hstate : Function.Injective C.stateHash)
    (htwox : Function.Injective C.twox128) {calls : List (Call C)} {outcomes : List (Outcome C)}
    {caches : Caches C} (h : CacheRun calls outcomes caches) {call : Call C}
    {tx : Transaction L} {ledger : StoredLedger C.State} {verifiedTx : C.VerifiedTransaction}
    (hload : call.load = .ok (tx, ledger))
    (hverified : caches.verified ledger tx call.blockContext call.txHash = .ok verifiedTx) :
    ∃ tblock, C.wellFormed tx ledger.state tblock = .ok verifiedTx := by
  rw [Caches.verified] at hverified
  split at hverified
  · rename_i cached hstrict
    cases hverified
    obtain ⟨c, -, hverifies⟩ := h.verifiedBy _ _ hstrict
    obtain ⟨ledger', hload', hledger, hverify⟩ := hverifies.of_load hstate htwox hload
    exact ⟨_, hledger ▸ (verifyTransaction_eq_ok.1 hverify).2⟩
  · exact ⟨_, (verifyTransaction_eq_ok.1 hverified).2⟩

lemma dryRun_eq_ok {ledger : StoredLedger C.State} {verifiedTx : C.VerifiedTransaction}
    {blockContext : BlockContext} :
    dryRun ledger verifiedTx blockContext = .ok () ↔
      ∃ ctx stage, getTransactionContext ledger blockContext = .ok ctx ∧
        (C.apply ledger.state verifiedTx ctx).2.stage = .ok stage := by
  constructor
  · intro h
    obtain ⟨ctx, hctx, h⟩ := bind_eq_ok.1 h
    obtain ⟨stage, hstage, -⟩ := bind_eq_ok.1 h
    exact ⟨ctx, stage, hctx, mapError_eq_ok.1 hstage⟩
  · rintro ⟨ctx, stage, hctx, hstage⟩
    exact bind_eq_ok.2 ⟨ctx, hctx, bind_eq_ok.2 ⟨stage, mapError_eq_ok.2 hstage, rfl⟩⟩

/-- What passes `validate_guaranteed_execution`. -/
lemma guaranteed_ok {storage : C.Storage} {stateKey txSerialized : List UInt8}
    {blockContext : BlockContext} {runtimeVersion : BitVec 32} {caches : Caches C}
    (h : ((validateGuaranteedExecution storage stateKey txSerialized blockContext
      runtimeVersion).exec caches).1 = .ok ()) :
    ∃ tx ledger verifiedTx ctx stage,
      loadCall storage stateKey txSerialized = .ok (tx, ledger) ∧
      caches.verified ledger tx blockContext
        (txValidationCacheKey C runtimeVersion txSerialized) = .ok verifiedTx ∧
      getTransactionContext ledger blockContext = .ok ctx ∧
      (C.apply ledger.state verifiedTx ctx).2.stage = .ok stage := by
  rw [exec_validateGuaranteedExecution] at h
  cases hload : loadCall storage stateKey txSerialized with
  | error e =>
    rw [hload] at h
    cases h
  | ok loaded =>
    rw [hload] at h
    obtain ⟨verifiedTx, hverified, hdry⟩ := bind_eq_ok.1 h
    obtain ⟨ctx, stage, hctx, hstage⟩ := dryRun_eq_ok.1 hdry
    exact ⟨loaded.1, loaded.2, verifiedTx, ctx, stage, rfl, hverified, hctx, hstage⟩

/-- After `validate_guaranteed_execution` the dispatch works with the same verified
transaction. -/
lemma apply_after_guaranteed {storage : C.Storage} {stateKey txSerialized : List UInt8}
    {blockContext : BlockContext} {runtimeVersion : BitVec 32} {caches : Caches C} {skip : Bool}
    {tx : Transaction L} {ledger : StoredLedger C.State} {verifiedTx : C.VerifiedTransaction}
    (hload : loadCall storage stateKey txSerialized = .ok (tx, ledger))
    (hverified : caches.verified ledger tx blockContext
      (txValidationCacheKey C runtimeVersion txSerialized) = .ok verifiedTx) :
    ((applyTransaction storage stateKey txSerialized blockContext skip runtimeVersion).exec
      ((validateGuaranteedExecution storage stateKey txSerialized blockContext
        runtimeVersion).exec caches).2).1 =
      applyVerified ledger tx verifiedTx blockContext skip := by
  rw [exec_applyTransaction, exec_validateGuaranteedExecution, hload]
  simp only [Caches.verified_afterVerification]
  have hsoft : (caches.invalidateSoft (txValidationCacheKey C runtimeVersion txSerialized)).verified
      ledger tx blockContext (txValidationCacheKey C runtimeVersion txSerialized) =
        .ok verifiedTx := hverified
  rw [hsoft]
  rfl

/-! ### In the dispatch -/

/-- Every verified transaction has a cost. -/
def CostsVerified (C : LedgerCrate L) : Prop :=
  ∀ tx state tblock verifiedTx, C.wellFormed tx state tblock = .ok verifiedTx →
    ∃ cost, C.cost tx state = some cost

/-- A verified transaction that the dry run accepts is applied iff the check passes. -/
lemma applyVerified_ok_iff (hser : Serializes C) (hcost : CostsVerified C)
    {ledger : StoredLedger C.State} {tx : Transaction L} {verifiedTx : C.VerifiedTransaction}
    {blockContext : BlockContext} {skip : Bool} {ctx : TransactionContext C.State}
    {stage : AppliedStage L} {tblock : ℕ}
    (hwf : C.wellFormed tx ledger.state tblock = .ok verifiedTx)
    (hctx : getTransactionContext ledger blockContext = .ok ctx)
    (hstage : (C.apply ledger.state verifiedTx ctx).2.stage = .ok stage) :
    (∃ applied, applyVerified ledger tx verifiedTx blockContext skip = .ok applied) ↔
      (tx.appliedUtxos stage).Passes (C.utxos ledger.state).card
        (C.utxos (C.apply ledger.state verifiedTx ctx).1) := by
  obtain ⟨cost, hcost⟩ := hcost _ _ _ _ hwf
  constructor
  · rintro ⟨⟨event, newLedger⟩, happlied⟩
    obtain ⟨cost', -, rfl, hevent⟩ := (applyVerified_eq_ok hctx hstage).1 happlied
    exact hser.transactionEvent_ok_iff.1 ⟨event, hevent⟩
  · intro hpass
    have hevent : ∃ event, transactionEvent tx (C.utxos ledger.state).card
        (⟨(C.apply ledger.state verifiedTx ctx).1, cost + ledger.blockFullness⟩ :
          StoredLedger C.State) stage skip = .ok event :=
      hser.transactionEvent_ok_iff.2 hpass
    obtain ⟨event, hevent⟩ := hevent
    exact ⟨(event, _), (applyVerified_eq_ok hctx hstage).2 ⟨cost, hcost, rfl, hevent⟩⟩

/-- The dispatch succeeds: the transaction is a standard one, and the check accepts the run of
its segments. -/
def DispatchChecksOut (storage : C.Storage) (stateKey txSerialized : List UInt8)
    (blockContext : BlockContext) (runtimeVersion : BitVec 32) (caches : Caches C) : Prop :=
  ∃ tx ledger verifiedTx ctx stage,
    loadCall storage stateKey txSerialized = .ok (.standard tx, ledger) ∧
    caches.verified ledger (.standard tx) blockContext
      (txValidationCacheKey C runtimeVersion txSerialized) = .ok verifiedTx ∧
    getTransactionContext ledger blockContext = .ok ctx ∧
    (C.apply ledger.state verifiedTx ctx).2.stage = .ok stage ∧
    tx.ChecksOut stage (C.utxos ledger.state) (C.utxos (C.apply ledger.state verifiedTx ctx).1)

/-- **Dispatch after pre-dispatch**: for caches that any run of calls leaves, a transaction that
`validate_guaranteed_execution` accepts is then applied iff it is a standard one whose segments
spend nothing that the transaction creates (or, where an output index is not a `u32`, keep the
number of UTXOs). -/
theorem apply_ok_iff_of_guaranteed_ok (hstate : Function.Injective C.stateHash)
    (htwox : Function.Injective C.twox128) (hutxo : UtxoSemantics C) (hser : Serializes C)
    (hcost : CostsVerified C) {calls : List (Call C)} {outcomes : List (Outcome C)}
    {caches : Caches C} (hrun : CacheRun calls outcomes caches) (storage : C.Storage)
    (stateKey txSerialized : List UInt8) (blockContext : BlockContext)
    (runtimeVersion : BitVec 32) (skip : Bool)
    (hok : ((validateGuaranteedExecution storage stateKey txSerialized blockContext
      runtimeVersion).exec caches).1 = .ok ()) :
    (∃ applied, ((applyTransaction storage stateKey txSerialized blockContext skip
        runtimeVersion).exec ((validateGuaranteedExecution storage stateKey txSerialized
          blockContext runtimeVersion).exec caches).2).1 = .ok applied) ↔
      DispatchChecksOut storage stateKey txSerialized blockContext runtimeVersion caches := by
  obtain ⟨tx, ledger, verifiedTx, ctx, stage, hload, hverified, hctx, hstage⟩ := guaranteed_ok hok
  have hcall : (⟨.guaranteed, storage, stateKey, txSerialized, blockContext, runtimeVersion⟩ :
      Call C).load = .ok (tx, ledger) := hload
  obtain ⟨tblock, hwf⟩ := hrun.wellFormed_of_verified hstate htwox hcall hverified
  rw [apply_after_guaranteed hload hverified,
    applyVerified_ok_iff hser hcost hwf hctx hstage]
  cases tx with
  | standard tx =>
    rw [StandardTransaction.passes_iff_checksOut (hutxo.standard hwf hstage)]
    constructor
    · exact fun h => ⟨tx, ledger, verifiedTx, ctx, stage, hload, hverified, hctx, hstage, h⟩
    · rintro ⟨tx', ledger', verifiedTx', ctx', stage', hload', hverified', hctx', hstage', h⟩
      -- What the call refers to is determined by its arguments.
      cases hload.symm.trans hload'
      cases hverified.symm.trans hverified'
      cases hctx.symm.trans hctx'
      cases hstage.symm.trans hstage'
      exact h
  | claimRewards value rest =>
    obtain ⟨utxo, hnew, hinsert⟩ := hutxo.claimRewards hwf hstage
    refine iff_of_false (claimRewards_not_passes hnew hinsert) ?_
    rintro ⟨tx', ledger', verifiedTx', ctx', stage', hload', -⟩
    cases hload.symm.trans hload'

/-! ### The three sample transactions -/

/-- Pre-dispatch of a sample transaction at block time 12. -/
def samplePreDispatch (U : Finset Utxo) (txSerialized : List UInt8) :
    Except (LedgerApiError unitTypes) Unit × Caches (referenceCrate sampleDecode) :=
  (validateGuaranteedExecution (C := referenceCrate sampleDecode) (sampleStorage U) [] txSerialized
    (sampleContext 12) 1).exec .empty

/-- Its dispatch. -/
def sampleDispatch (U : Finset Utxo) (txSerialized : List UInt8) :
    Except (LedgerApiError unitTypes)
      (TransactionAppliedStateRoot × StoredLedger (referenceCrate sampleDecode).State) :=
  ((applyTransaction (C := referenceCrate sampleDecode) (sampleStorage U) [] txSerialized
    (sampleContext 12) true 1).exec (samplePreDispatch U txSerialized).2).1

/-- The transaction that spends an old UTXO passes pre-dispatch and is applied. -/
theorem apply_ok_old_utxo :
    (samplePreDispatch {coin 7} [1]).1 = .ok () ∧
      ∃ applied, sampleDispatch {coin 7} [1] = .ok applied := by
  refine ⟨rfl, ?_⟩
  refine (apply_ok_iff_of_guaranteed_ok (C := referenceCrate sampleDecode)
    Function.injective_id Function.injective_id (referenceCrate_utxoSemantics sampleDecode)
    ⟨fun _ => ⟨_, rfl⟩, fun _ => ⟨_, rfl⟩⟩ (fun _ _ _ _ _ => ⟨_, rfl⟩) CacheRun.nil
    (sampleStorage {coin 7}) [] [1] (sampleContext 12) 1 true rfl).2 ?_
  have hstage : ((referenceCrate sampleDecode).apply ({coin 7} : Finset Utxo)
      (.standard (twoIntents (coin 7)))
      ⟨({coin 7} : Finset Utxo), ⟨12, 0, ⟨List.replicate 32 0, rfl⟩, 0⟩⟩).2.stage =
        .ok .allApplied := rfl
  refine ⟨twoIntents (coin 7), sampleStorage {coin 7}, _, _, _, rfl, rfl, rfl, hstage, ?_⟩
  rw [StandardTransaction.ChecksOut, if_pos (by decide +kernel)]
  decide +kernel

/-- A claim of rewards, and a transaction that spends a UTXO of its own, pass pre-dispatch and
then fail in the dispatch. -/
theorem guaranteed_ok_then_apply_fails :
    (samplePreDispatch ∅ [3]).1 = .ok () ∧ sampleDispatch ∅ [3] = .error .hostApiError ∧
      (samplePreDispatch ∅ [2]).1 = .ok () ∧ sampleDispatch ∅ [2] = .error .hostApiError :=
  ⟨rfl, rfl, rfl, rfl⟩

end MidnightNode.Ledger
