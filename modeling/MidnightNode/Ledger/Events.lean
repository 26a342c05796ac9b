/-
# Contract events

The event of an applied transaction names the contracts that were called, deployed and
maintained.  `apply_transaction` leaves out the actions of every segment that the result of a
partial success lists, whether the segment failed or not; the UTXOs and the shielded offers of
a transaction are left out for the failed segments only.
-/
import MidnightNode.Ledger.Caches
import MidnightNode.Ledger.Semantics

namespace MidnightNode.Ledger

open Traverse

variable {L : LedgerTypes} {C : LedgerCrate L}

/-! ### Failed segments, as the wallets see them -/

/-- The failed segments that `successful_shielded_offers` collects, none for a transaction that
failed altogether. -/
def TransactionResult.failures : TransactionResult L → Option (List SegmentId)
  | .success => some []
  | .failure _ => none
  | .partialSuccess results => some ((results.filter (fun e => !e.2.toBool)).map Prod.fst)

/-- `successful_shielded_offers`. -/
def successfulShieldedOffers (tx : Transaction L) (result : TransactionResult L) :
    List L.Offer :=
  match result.failures, tx with
  | some failedSegments, .standard tx =>
    tx.guaranteedCoins.toList ++
      (tx.fallibleCoins.filter (fun e => !failedSegments.contains e.1)).map Prod.snd
  | _, _ => []

/-- The offers that are left out are those of the failed segments. -/
lemma successfulShieldedOffers_eq {tx : StandardTransaction L} {result : TransactionResult L}
    {stage : AppliedStage L} (h : result.stage = .ok stage) :
    successfulShieldedOffers (.standard tx) result = tx.guaranteedCoins.toList ++
      (tx.fallibleCoins.filter (fun e => !stage.failed e.1)).map Prod.snd := by
  cases result with
  | success =>
    cases h
    rfl
  | failure reason => cases h
  | partialSuccess results =>
    cases h
    have hfailed : ∀ s, ((results.filter (fun e => !e.2.toBool)).map Prod.fst).contains s =
        SegmentResults.failed results s := by
      intro s
      rw [Bool.eq_iff_iff]
      simp only [SegmentResults.failed, List.contains_iff_mem, List.mem_map, List.mem_filter,
        List.any_eq_true, Bool.and_eq_true, beq_iff_eq]
      constructor
      · rintro ⟨e, ⟨he, herr⟩, rfl⟩
        exact ⟨e, he, rfl, herr⟩
      · rintro ⟨e, he, rfl, herr⟩
        exact ⟨e, ⟨he, herr⟩, rfl⟩
    simp only [successfulShieldedOffers, TransactionResult.failures, hfailed]
    rfl

/-! ### Reported actions -/

namespace ContractAction

/-- The contract that is called. -/
def callAddress : ContractAction → Option Hash
  | .call address _ => some address
  | _ => none

/-- The contract that is deployed. -/
def deployAddress : ContractAction → Option Hash
  | .deploy address => some address
  | _ => none

/-- The contract that is maintained. -/
def maintainAddress : ContractAction → Option Hash
  | .maintain address => some address
  | _ => none

/-- Every action is of one of the three kinds. -/
lemma length_eq (actions : List ContractAction) :
    actions.length = (actions.filterMap callAddress).length +
      (actions.filterMap deployAddress).length + (actions.filterMap maintainAddress).length := by
  induction actions with
  | nil => rfl
  | cons action actions ih =>
    cases action <;>
    · simp only [List.filterMap_cons, callAddress, deployAddress, maintainAddress,
        List.length_cons, ih]
      omega

end ContractAction

/-- The event reports exactly the given actions, in order. -/
structure TransactionAppliedStateRoot.Reports (C : LedgerCrate L)
    (event : TransactionAppliedStateRoot) (actions : List ContractAction) : Prop where
  calls : event.callAddresses.map some =
    (actions.filterMap ContractAction.callAddress).map C.serializeAddress
  deploys : event.deployAddresses.map some =
    (actions.filterMap ContractAction.deployAddress).map C.serializeAddress
  maintains : event.maintainAddresses.map some =
    (actions.filterMap ContractAction.maintainAddress).map C.serializeAddress

namespace TransactionAppliedStateRoot

/-- **Step**: a round of the loop reports its action. -/
lemma Reports.push_ok {event event' : TransactionAppliedStateRoot} {actions : List ContractAction}
    (h : event.Reports C actions) {action : ContractAction}
    (hpush : event.push C action.operation = .ok event') :
    event'.Reports C (actions ++ [action]) := by
  cases action <;>
  · obtain ⟨bytes, hbytes, heq⟩ := bind_eq_ok.1 hpush
    rw [okOr_eq_ok] at hbytes
    cases heq
    exact ⟨by simp [h.calls, ContractAction.callAddress, hbytes],
      by simp [h.deploys, ContractAction.deployAddress, hbytes],
      by simp [h.maintains, ContractAction.maintainAddress, hbytes]⟩

/-- **Run**: the loop reports all its actions. -/
lemma Reports.foldlM_push {event event' : TransactionAppliedStateRoot}
    {before actions : List ContractAction} (h : event.Reports C before)
    (hfold : (actions.map ContractAction.operation).foldlM (push C) event = .ok event') :
    event'.Reports C (before ++ actions) := by
  induction actions generalizing event before with
  | nil =>
    cases hfold
    rwa [List.append_nil]
  | cons action actions ih =>
    rw [List.map_cons, List.foldlM_cons] at hfold
    obtain ⟨event₁, hpush, hrest⟩ := bind_eq_ok.1 hfold
    have hreports := ih (h.push_ok hpush) hrest
    rwa [List.append_assoc] at hreports

/-- An event reports lists of one length only. -/
lemma Reports.length_eq {event : TransactionAppliedStateRoot}
    {actions actions' : List ContractAction}
    (h : event.Reports C actions) (h' : event.Reports C actions') :
    actions.length = actions'.length := by
  have hcalls := congrArg List.length (h.calls.symm.trans h'.calls)
  have hdeploys := congrArg List.length (h.deploys.symm.trans h'.deploys)
  have hmaintains := congrArg List.length (h.maintains.symm.trans h'.maintains)
  simp only [List.length_map] at hcalls hdeploys hmaintains
  rw [ContractAction.length_eq actions, ContractAction.length_eq actions', hcalls, hdeploys,
    hmaintains]

end TransactionAppliedStateRoot

/-! ### The event of a transaction -/

/-- The result lists the segment, as failed or not. -/
def AppliedStage.lists (stage : AppliedStage L) (s : SegmentId) : Bool :=
  (stage.failedSegments.getD []).contains s

lemma AppliedStage.lists_of_failed {stage : AppliedStage L} {s : SegmentId}
    (h : stage.failed s = true) : stage.lists s = true := by
  cases stage with
  | allApplied => cases h
  | partialSuccess segments =>
    obtain ⟨e, he, hs⟩ := List.any_eq_true.1 h
    have hkey : e.1 = s := by
      rw [Bool.and_eq_true] at hs
      exact beq_iff_eq.1 hs.1
    exact List.contains_iff_mem.2 (List.mem_map.2 ⟨e, he, hkey⟩)

/-- The actions that are reported, those of segments that the result does not list. -/
def StandardTransaction.reportedActions (tx : StandardTransaction L) (stage : AppliedStage L) :
    List ContractAction :=
  (tx.actions.filter (fun a => !stage.lists a.1)).map Prod.snd

/-- The actions that took effect, those of segments that did not fail. -/
def StandardTransaction.effectiveActions (tx : StandardTransaction L) (stage : AppliedStage L) :
    List ContractAction :=
  (tx.actions.filter (fun a => !stage.failed a.1)).map Prod.snd

lemma transactionEvent_reports {tx : StandardTransaction L} {n : ℕ}
    {newLedger : StoredLedger C.State} {stage : AppliedStage L}
    {event : TransactionAppliedStateRoot}
    (h : transactionEvent (.standard tx) n newLedger stage true = .ok event) :
    event.Reports C (tx.reportedActions stage) := by
  obtain ⟨⟨created, spent⟩, -, h⟩ := bind_eq_ok.1 h
  obtain ⟨stateRoot, -, h⟩ := bind_eq_ok.1 h
  have hoperations : (Transaction.standard tx).callsAndDeploys stage.failedSegments =
      (tx.reportedActions stage).map ContractAction.operation := by
    rw [StandardTransaction.reportedActions, List.map_map]
    rfl
  rw [if_pos rfl, hoperations] at h
  have hempty : ∀ {root hash all c s}, TransactionAppliedStateRoot.Reports C
      ⟨root, hash, all, [], [], [], [], c, s⟩ [] := ⟨rfl, rfl, rfl⟩
  exact hempty.foldlM_push h

/-- What is reported is what took effect iff no action lies in a segment that is listed but did
not fail. -/
lemma reports_effectiveActions_iff {tx : StandardTransaction L} {stage : AppliedStage L}
    {event : TransactionAppliedStateRoot} (h : event.Reports C (tx.reportedActions stage)) :
    event.Reports C (tx.effectiveActions stage) ↔
      ∀ a ∈ tx.actions, stage.lists a.1 = true → stage.failed a.1 = true := by
  have hsub : (tx.actions.filter (fun a => !stage.lists a.1)).Sublist
      (tx.actions.filter (fun a => !stage.failed a.1)) := by
    refine List.monotone_filter_right _ (fun a ha => ?_)
    by_contra hfailed
    rw [AppliedStage.lists_of_failed (by simpa using hfailed)] at ha
    cases ha
  constructor
  · intro heffective a ha hlists
    -- A list of the same length drops nothing.
    have hlength := h.length_eq heffective
    rw [StandardTransaction.reportedActions, StandardTransaction.effectiveActions,
      List.length_map, List.length_map] at hlength
    have heq := hsub.eq_of_length hlength
    by_contra hfailed
    have hmem : a ∈ tx.actions.filter (fun a => !stage.failed a.1) :=
      List.mem_filter.2 ⟨ha, by simpa using hfailed⟩
    rw [← heq] at hmem
    simpa [hlists] using (List.mem_filter.1 hmem).2
  · intro hcond
    have heq : tx.effectiveActions stage = tx.reportedActions stage := by
      rw [StandardTransaction.effectiveActions, StandardTransaction.reportedActions]
      refine congrArg (List.map Prod.snd) (List.filter_congr (fun a ha => congrArg not ?_))
      rw [Bool.eq_iff_iff]
      exact ⟨AppliedStage.lists_of_failed, hcond a ha⟩
    rwa [heq]

/-- What follows the verification succeeds iff cost, application and event do. -/
lemma applyVerified_eq_ok {ledger : StoredLedger C.State} {tx : Transaction L}
    {verifiedTx : C.VerifiedTransaction} {blockContext : BlockContext} {skip : Bool}
    {ctx : TransactionContext C.State} {stage : AppliedStage L}
    {event : TransactionAppliedStateRoot} {newLedger : StoredLedger C.State}
    (hctx : getTransactionContext ledger blockContext = .ok ctx)
    (hstage : (C.apply ledger.state verifiedTx ctx).2.stage = .ok stage) :
    applyVerified ledger tx verifiedTx blockContext skip = .ok (event, newLedger) ↔
      ∃ cost, C.cost tx ledger.state = some cost ∧
        newLedger = ⟨(C.apply ledger.state verifiedTx ctx).1, cost + ledger.blockFullness⟩ ∧
        transactionEvent tx (C.utxos ledger.state).card newLedger stage skip = .ok event := by
  rw [applyVerified, hctx]
  constructor
  · intro h
    obtain ⟨_, heq, h⟩ := bind_eq_ok.1 h
    cases heq
    obtain ⟨⟨newLedger', stage'⟩, happlied, h⟩ := bind_eq_ok.1 h
    obtain ⟨event', hevent, h⟩ := bind_eq_ok.1 h
    obtain ⟨rfl, rfl⟩ := Prod.mk.inj (Except.ok.inj h)
    obtain ⟨cost, hcost, happlied⟩ := bind_eq_ok.1 happlied
    rw [okOr_eq_ok] at hcost
    simp only [hstage] at happlied
    obtain ⟨rfl, rfl⟩ := Prod.mk.inj (Except.ok.inj happlied)
    exact ⟨cost, hcost, rfl, hevent⟩
  · rintro ⟨cost, hcost, rfl, hevent⟩
    refine bind_eq_ok.2 ⟨ctx, rfl, bind_eq_ok.2 ⟨(_, stage), ?_, bind_eq_ok.2 ⟨event, hevent, rfl⟩⟩⟩
    refine bind_eq_ok.2 ⟨cost, okOr_eq_ok.2 hcost, ?_⟩
    simp only [hstage]
    rfl

lemma applyVerified_ok {ledger : StoredLedger C.State} {tx : Transaction L}
    {verifiedTx : C.VerifiedTransaction} {blockContext : BlockContext} {skip : Bool}
    {applied : TransactionAppliedStateRoot × StoredLedger C.State}
    (h : applyVerified ledger tx verifiedTx blockContext skip = .ok applied) :
    ∃ ctx stage, getTransactionContext ledger blockContext = .ok ctx ∧
      (C.apply ledger.state verifiedTx ctx).2.stage = .ok stage := by
  obtain ⟨ctx, hctx, h⟩ := bind_eq_ok.1 h
  obtain ⟨⟨newLedger, stage⟩, happlied, -⟩ := bind_eq_ok.1 h
  obtain ⟨cost, -, happlied⟩ := bind_eq_ok.1 happlied
  obtain ⟨stage', hstage, -⟩ := bind_eq_ok.1 happlied
  exact ⟨ctx, stage', hctx, mapError_eq_ok.1 hstage⟩

/-- **Contract events**: the event of a standard transaction reports exactly the actions that
took effect iff no action lies in a segment that the result lists without having failed.  The
UTXOs and the shielded offers that are left out are always those of the failed segments. -/
theorem contract_events_exact_iff {storage : C.Storage} {stateKey txSerialized : List UInt8}
    {blockContext : BlockContext} {runtimeVersion : BitVec 32} {caches : Caches C}
    {tx : StandardTransaction L} {ledger newLedger : StoredLedger C.State}
    {verifiedTx : C.VerifiedTransaction} {ctx : TransactionContext C.State}
    {stage : AppliedStage L} {event : TransactionAppliedStateRoot}
    (hload : loadCall storage stateKey txSerialized = .ok (.standard tx, ledger))
    (hverified : caches.verified ledger (.standard tx) blockContext
      (txValidationCacheKey C runtimeVersion txSerialized) = .ok verifiedTx)
    (hctx : getTransactionContext ledger blockContext = .ok ctx)
    (hstage : (C.apply ledger.state verifiedTx ctx).2.stage = .ok stage)
    (hok : ((applyTransaction storage stateKey txSerialized blockContext true
      runtimeVersion).exec caches).1 = .ok (event, newLedger)) :
    (event.Reports C (tx.effectiveActions stage) ↔
      ∀ a ∈ tx.actions, stage.lists a.1 = true → stage.failed a.1 = true) ∧
    (∀ s, ((Transaction.standard tx).appliedUtxos stage).outputs.get s =
        (if stage.failed s then [] else (Transaction.standard tx).unshieldedUtxos.outputs.get s) ∧
      ((Transaction.standard tx).appliedUtxos stage).inputs.get s =
        (if stage.failed s then [] else (Transaction.standard tx).unshieldedUtxos.inputs.get s)) ∧
    successfulShieldedOffers (.standard tx) (C.apply ledger.state verifiedTx ctx).2 =
      tx.guaranteedCoins.toList ++
        (tx.fallibleCoins.filter (fun e => !stage.failed e.1)).map Prod.snd := by
  refine ⟨?_, appliedUtxos_get _ stage, successfulShieldedOffers_eq hstage⟩
  rw [exec_applyTransaction, hload] at hok
  simp only [hverified] at hok
  obtain ⟨cost, -, -, hevent⟩ := (applyVerified_eq_ok hctx hstage).1 hok
  exact reports_effectiveActions_iff (transactionEvent_reports hevent)

/-- With `coin 7` in the UTXO set both intents succeed, and the deployment and the call are
reported. -/
theorem contract_events_exact_two_intents :
    ∃ event newLedger,
      ((applyTransaction (C := referenceCrate sampleDecode) (sampleStorage {coin 7}) [] [1]
        (sampleContext 12) true 1).exec .empty).1 = .ok (event, newLedger) ∧
      event.Reports (referenceCrate sampleDecode) [.deploy 8, .call 9 []] := by
  have hload : loadCall (C := referenceCrate sampleDecode) (sampleStorage {coin 7}) [] [1] =
      .ok (.standard (twoIntents (coin 7)), ⟨({coin 7} : Finset Utxo), .zero⟩) := rfl
  have hstage : ((referenceCrate sampleDecode).apply ({coin 7} : Finset Utxo)
      (.standard (twoIntents (coin 7)))
      ⟨({coin 7} : Finset Utxo), ⟨12, 0, ⟨List.replicate 32 0, rfl⟩, 0⟩⟩).2.stage =
        .ok .allApplied := rfl
  have hok : ((applyTransaction (C := referenceCrate sampleDecode) (sampleStorage {coin 7}) [] [1]
      (sampleContext 12) true 1).exec .empty).1 =
        .ok (⟨[0], 0, true, [[9]], [[8]], [], [], [⟨0, 0, 1, 5, 0⟩, ⟨0, 0, 2, 5, 0⟩],
          [⟨0, 0, 7, 5, 0⟩]⟩, ⟨({coin 1, coin 2} : Finset Utxo), ⟨1, 1, 1, 1, 1⟩⟩) := rfl
  refine ⟨_, _, hok, (contract_events_exact_iff hload rfl rfl hstage hok).1.2 ?_⟩
  intro a _ hlists
  cases hlists

/-- Without it only the second intent fails, but the deployment of the first is not
reported. -/
theorem deployed_contract_not_reported :
    ((referenceCrate sampleDecode).apply (∅ : Finset Utxo) (.standard (twoIntents (coin 7)))
        ⟨(∅ : Finset Utxo), ⟨12, 0, ⟨List.replicate 32 0, rfl⟩, 0⟩⟩).2 =
        .partialSuccess [(0, .ok ()), (1, .ok ()), (2, .error ())] ∧
      (twoIntents (coin 7)).effectiveActions
        (.partialSuccess [(0, .ok ()), (1, .ok ()), (2, .error ())]) = [.deploy 8] ∧
      ((applyTransaction (C := referenceCrate sampleDecode) (sampleStorage ∅) [] [1]
        (sampleContext 12) true 1).exec .empty).1 =
        .ok (⟨[0], 0, false, [], [], [], [], [⟨0, 0, 1, 5, 0⟩], []⟩,
          ⟨({coin 1} : Finset Utxo), ⟨1, 1, 1, 1, 1⟩⟩) :=
  ⟨rfl, rfl, rfl⟩

end MidnightNode.Ledger
