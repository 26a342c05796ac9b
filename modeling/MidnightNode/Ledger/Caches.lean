/-
# What the entry points do to the caches

The result of an entry point depends on the caches only through the verified transaction that
`get_verified_transaction` returns.  The strict cache only ever receives what `well_formed`
returned for the state and the transaction of its key, at the block time of some earlier call.
-/
import MidnightNode.Ledger.Bridge

namespace MidnightNode.Ledger

open Traverse

variable {L : LedgerTypes} {C : LedgerCrate L}

/-! ### Verified transactions -/

namespace Caches

/-- The verified transaction that the caches give: that of the strict cache if it has one. -/
def verified (caches : Caches C) (ledger : StoredLedger C.State) (tx : Transaction L)
    (blockContext : BlockContext) (txHash : C.WrappedHash) :
    Except (LedgerApiError L) C.VerifiedTransaction :=
  match caches.strict (C.stateHash ledger.state, txHash) with
  | some verifiedTx => .ok verifiedTx
  | none => verifyTransaction ledger tx blockContext

/-- The caches after a verification. -/
def afterVerification (caches : Caches C) (ledger : StoredLedger C.State) (tx : Transaction L)
    (blockContext : BlockContext) (txHash : C.WrappedHash) : Caches C :=
  match caches.strict (C.stateHash ledger.state, txHash),
    verifyTransaction ledger tx blockContext with
  | none, .ok verifiedTx => caches.insertStrict (C.stateHash ledger.state, txHash) verifiedTx
  | _, _ => caches

variable (caches : Caches C) (ledger : StoredLedger C.State) (tx : Transaction L)
  (blockContext : BlockContext) (txHash : C.WrappedHash)

/-- A verification leaves caches that give the same verified transaction. -/
lemma verified_afterVerification :
    (caches.afterVerification ledger tx blockContext txHash).verified ledger tx blockContext txHash
      = caches.verified ledger tx blockContext txHash := by
  cases hs : caches.strict (C.stateHash ledger.state, txHash) with
  | some verifiedTx => simp only [afterVerification, hs]
  | none =>
    cases hv : verifyTransaction ledger tx blockContext with
    | error e => simp only [afterVerification, hs, hv]
    | ok verifiedTx => simp [afterVerification, verified, hs, hv, insertStrict]

/-- Whatever the strict cache has after a verification it had before, or was verified. -/
lemma strict_afterVerification {key : C.StateHash × C.WrappedHash}
    {verifiedTx : C.VerifiedTransaction}
    (h : (caches.afterVerification ledger tx blockContext txHash).strict key = some verifiedTx) :
    caches.strict key = some verifiedTx ∨
      key = (C.stateHash ledger.state, txHash) ∧
        verifyTransaction ledger tx blockContext = .ok verifiedTx := by
  rw [afterVerification] at h
  split at h
  · rename_i verifiedTx' _ hv
    by_cases hkey : key = (C.stateHash ledger.state, txHash)
    · subst hkey
      simp only [insertStrict, Function.update_self, Option.some.injEq] at h
      exact Or.inr ⟨rfl, h ▸ hv⟩
    · rw [insertStrict] at h
      simp only [Function.update_of_ne hkey] at h
      exact Or.inl h
  · exact Or.inl h

end Caches

/-- `get_verified_transaction` on the caches. -/
lemma exec_getVerifiedTransaction (ledger : StoredLedger C.State) (tx : Transaction L)
    (blockContext : BlockContext) (txHash : C.WrappedHash) (caches : Caches C) :
    (getVerifiedTransaction ledger tx blockContext txHash).exec caches =
      (caches.verified ledger tx blockContext txHash,
        caches.afterVerification ledger tx blockContext txHash) := by
  rw [getVerifiedTransaction, BridgeM.exec_bind, BridgeM.exec_get, Caches.verified,
    Caches.afterVerification]
  simp only []
  cases hs : caches.strict (C.stateHash ledger.state, txHash) with
  | some verifiedTx => rfl
  | none =>
    simp only [BridgeM.exec_ofExcept_bind]
    cases verifyTransaction ledger tx blockContext <;> rfl

/-! ### The entry points -/

/-- What a call refers to: its transaction and the ledger of its state. -/
def loadCall (storage : C.Storage) (stateKey txSerialized : List UInt8) :
    Except (LedgerApiError L) (Transaction L × StoredLedger C.State) := do
  let tx ← deserializeTransaction C txSerialized
  let ledger ← getLedger storage stateKey
  return (tx, ledger)

lemma loadCall_eq_ok {storage : C.Storage} {stateKey txSerialized : List UInt8}
    {tx : Transaction L} {ledger : StoredLedger C.State} :
    loadCall storage stateKey txSerialized = .ok (tx, ledger) ↔
      deserializeTransaction C txSerialized = .ok tx ∧ getLedger storage stateKey = .ok ledger := by
  constructor
  · intro h
    obtain ⟨tx', htx, h⟩ := bind_eq_ok.1 h
    obtain ⟨ledger', hledger, h⟩ := bind_eq_ok.1 h
    cases h
    exact ⟨htx, hledger⟩
  · rintro ⟨htx, hledger⟩
    exact bind_eq_ok.2 ⟨tx, htx, bind_eq_ok.2 ⟨ledger, hledger, rfl⟩⟩

section EntryPoints

variable (storage : C.Storage) (stateKey txSerialized : List UInt8) (blockContext : BlockContext)
  (runtimeVersion : BitVec 32) (caches : Caches C)

/-- A computation that starts by loading its transaction and its ledger. -/
lemma exec_load_bind {α : Type} (f : Transaction L → StoredLedger C.State → BridgeM C α) :
    BridgeM.exec (do
        let tx ← BridgeM.ofExcept (deserializeTransaction C txSerialized)
        let ledger ← BridgeM.ofExcept (getLedger storage stateKey)
        f tx ledger) caches =
      match loadCall storage stateKey txSerialized with
      | .ok (tx, ledger) => (f tx ledger).exec caches
      | .error e => (.error e, caches) := by
  rw [BridgeM.exec_ofExcept_bind, loadCall]
  cases deserializeTransaction C txSerialized with
  | error e => rfl
  | ok tx =>
    simp only [BridgeM.exec_ofExcept_bind]
    cases getLedger storage stateKey <;> rfl

/-- `validate_guaranteed_execution` on the caches: it succeeds iff verification and dry run
do. -/
lemma exec_validateGuaranteedExecution :
    (validateGuaranteedExecution storage stateKey txSerialized blockContext runtimeVersion).exec
        caches =
      match loadCall storage stateKey txSerialized with
      | .ok (tx, ledger) =>
        let txHash := txValidationCacheKey C runtimeVersion txSerialized
        (caches.verified ledger tx blockContext txHash >>= fun verifiedTx =>
            dryRun ledger verifiedTx blockContext,
          (caches.invalidateSoft txHash).afterVerification ledger tx blockContext txHash)
      | .error e => (.error e, caches) := by
  rw [validateGuaranteedExecution, exec_load_bind]
  cases loadCall storage stateKey txSerialized with
  | error e => rfl
  | ok loaded =>
    obtain ⟨tx, ledger⟩ := loaded
    simp only [doValidateGuaranteedExecution, BridgeM.exec_bind, BridgeM.exec_modify,
      BridgeM.exec_get, exec_getVerifiedTransaction]
    -- The soft cache plays no part in the verification.
    have hsoft : ∀ txHash, (caches.invalidateSoft txHash).verified ledger tx blockContext txHash =
        caches.verified ledger tx blockContext txHash := fun _ => rfl
    rw [hsoft]
    cases caches.verified ledger tx blockContext
      (txValidationCacheKey C runtimeVersion txSerialized) with
    | error e => rfl
    | ok verifiedTx =>
      simp only [BridgeM.exec_ofExcept]
      cases hdry : dryRun ledger verifiedTx blockContext with
      | error e => simp [bind, Except.bind, hdry]
      | ok u => simp [bind, Except.bind, hdry]

/-- `apply_transaction` on the caches. -/
lemma exec_applyTransaction (skip : Bool) :
    (applyTransaction storage stateKey txSerialized blockContext skip runtimeVersion).exec caches =
      match loadCall storage stateKey txSerialized with
      | .ok (tx, ledger) =>
        let txHash := txValidationCacheKey C runtimeVersion txSerialized
        (caches.verified ledger tx blockContext txHash >>= fun verifiedTx =>
            applyVerified ledger tx verifiedTx blockContext skip,
          caches.afterVerification ledger tx blockContext txHash)
      | .error e => (.error e, caches) := by
  rw [applyTransaction, exec_load_bind]
  cases loadCall storage stateKey txSerialized with
  | error e => rfl
  | ok loaded =>
    obtain ⟨tx, ledger⟩ := loaded
    simp only [BridgeM.exec_bind, exec_getVerifiedTransaction]
    cases caches.verified ledger tx blockContext
      (txValidationCacheKey C runtimeVersion txSerialized) <;> rfl

/-- `validate_transaction` fills the strict cache as the other entry points do, or not at
all. -/
lemma strict_validateTransaction :
    ((validateTransaction storage stateKey txSerialized blockContext runtimeVersion).exec
        caches).2.strict = caches.strict ∨
      ∃ tx ledger, loadCall storage stateKey txSerialized = .ok (tx, ledger) ∧
        ((validateTransaction storage stateKey txSerialized blockContext runtimeVersion).exec
          caches).2.strict =
            (caches.afterVerification ledger tx blockContext
              (txValidationCacheKey C runtimeVersion txSerialized)).strict := by
  rw [validateTransaction, exec_load_bind]
  cases hload : loadCall storage stateKey txSerialized with
  | error e => exact Or.inl rfl
  | ok loaded =>
    obtain ⟨tx, ledger⟩ := loaded
    simp only [doValidateTransaction, BridgeM.exec_bind, BridgeM.exec_get]
    cases caches.soft (txValidationCacheKey C runtimeVersion txSerialized) with
    | some cached =>
      left
      simp only [BridgeM.exec_ofExcept_bind]
      cases cached <;> rfl
    | none =>
      right
      refine ⟨tx, ledger, rfl, ?_⟩
      simp only [BridgeM.exec_bind, exec_getVerifiedTransaction]
      cases caches.verified ledger tx blockContext
        (txValidationCacheKey C runtimeVersion txSerialized) with
      | error e => rfl
      | ok verifiedTx =>
        simp only [BridgeM.exec_ofExcept]
        cases dryRun ledger verifiedTx blockContext <;> rfl

end EntryPoints

/-! ### Calls -/

/-- The entry point of a call. -/
inductive CallKind
  | validate
  | guaranteed
  | apply (shouldSkipFailedSegments : Bool)
deriving DecidableEq

/-- A call of the runtime. -/
structure Call (C : LedgerCrate L) where
  kind : CallKind
  storage : C.Storage
  stateKey : List UInt8
  txSerialized : List UInt8
  blockContext : BlockContext
  runtimeVersion : BitVec 32

/-- What a call returns. -/
inductive Outcome (C : LedgerCrate L)
  | validated (result : Except (LedgerApiError L) C.WrappedHash)
  | guaranteed (result : Except (LedgerApiError L) Unit)
  | applied
    (result : Except (LedgerApiError L) (TransactionAppliedStateRoot × StoredLedger C.State))

namespace Call

variable (call : Call C) (caches : Caches C)

/-- What the call refers to. -/
def load : Except (LedgerApiError L) (Transaction L × StoredLedger C.State) :=
  loadCall call.storage call.stateKey call.txSerialized

/-- The cache key of its transaction. -/
def txHash : C.WrappedHash :=
  txValidationCacheKey C call.runtimeVersion call.txSerialized

/-- Make the call. -/
def exec : Outcome C × Caches C :=
  match call.kind with
  | .validate =>
    let (result, caches) := (validateTransaction call.storage call.stateKey call.txSerialized
      call.blockContext call.runtimeVersion).exec caches
    (.validated result, caches)
  | .guaranteed =>
    let (result, caches) := (validateGuaranteedExecution call.storage call.stateKey
      call.txSerialized call.blockContext call.runtimeVersion).exec caches
    (.guaranteed result, caches)
  | .apply skip =>
    let (result, caches) := (applyTransaction call.storage call.stateKey call.txSerialized
      call.blockContext skip call.runtimeVersion).exec caches
    (.applied result, caches)

/-- The call verifies its transaction, for the given key. -/
def Verifies (key : C.StateHash × C.WrappedHash) (verifiedTx : C.VerifiedTransaction) : Prop :=
  ∃ tx ledger, call.load = .ok (tx, ledger) ∧ key = (C.stateHash ledger.state, call.txHash) ∧
    verifyTransaction ledger tx call.blockContext = .ok verifiedTx

/-- **Step**: whatever the strict cache has after a call it had before, or the call verified
it. -/
lemma strict_exec {key : C.StateHash × C.WrappedHash} {verifiedTx : C.VerifiedTransaction}
    (h : (call.exec caches).2.strict key = some verifiedTx) :
    caches.strict key = some verifiedTx ∨ call.Verifies key verifiedTx := by
  have hverify : ∀ {tx ledger}, call.load = .ok (tx, ledger) →
      (caches.afterVerification ledger tx call.blockContext call.txHash).strict key =
        some verifiedTx →
      caches.strict key = some verifiedTx ∨ call.Verifies key verifiedTx := by
    intro tx ledger hload hstrict
    exact (caches.strict_afterVerification ledger tx _ _ hstrict).imp_right
      (fun hv => ⟨tx, ledger, hload, hv.1, hv.2⟩)
  obtain ⟨kind, storage, stateKey, txSerialized, blockContext, runtimeVersion⟩ := call
  cases kind with
  | validate =>
    rcases strict_validateTransaction storage stateKey txSerialized blockContext runtimeVersion
      caches with hsame | ⟨tx, ledger, hload, heq⟩
    · exact Or.inl (hsame ▸ h)
    · exact hverify hload (heq ▸ h)
  | guaranteed =>
    simp only [exec, exec_validateGuaranteedExecution] at h
    cases hload : loadCall storage stateKey txSerialized with
    | error e =>
      rw [hload] at h
      exact Or.inl h
    | ok loaded =>
      rw [hload] at h
      exact (Caches.strict_afterVerification _ _ _ _ _ h).imp_right
        (fun hv => ⟨loaded.1, loaded.2, hload, hv.1, hv.2⟩)
  | apply skip =>
    simp only [exec, exec_applyTransaction] at h
    cases hload : loadCall storage stateKey txSerialized with
    | error e =>
      rw [hload] at h
      exact Or.inl h
    | ok loaded =>
      rw [hload] at h
      exact hverify hload h

end Call

end MidnightNode.Ledger
