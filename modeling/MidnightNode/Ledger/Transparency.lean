/-
# When the validation caches are transparent

The strict cache is keyed by the state and the transaction, but `well_formed` also reads the
block time.  The pool validates at a block time that lies ahead of the one that `pre_dispatch`
and the dispatch use, so the entry that they find may be one that they would not have made.
Along runs in which `well_formed` returns at the later block time what it returned at the
earlier one, every result is the one without caches.
-/
import MidnightNode.Ledger.Caches
import MidnightNode.Ledger.Semantics

namespace MidnightNode.Ledger

open Traverse

variable {L : LedgerTypes} {C : LedgerCrate L}

/-! ### Runs of calls -/

/-- Some entries were evicted. -/
structure Caches.EvictsTo (caches evicted : Caches C) : Prop where
  strict : ∀ key, evicted.strict key = none ∨ evicted.strict key = caches.strict key
  soft : ∀ key, evicted.soft key = none ∨ evicted.soft key = caches.soft key

lemma Caches.EvictsTo.refl (caches : Caches C) : caches.EvictsTo caches :=
  ⟨fun _ => Or.inr rfl, fun _ => Or.inr rfl⟩

/-- A sequence of calls from empty caches, with their outcomes; any entry may be evicted before
a call. -/
inductive CacheRun : List (Call C) → List (Outcome C) → Caches C → Prop
  | nil : CacheRun [] [] .empty
  | snoc {calls : List (Call C)} {outcomes : List (Outcome C)} {caches evicted : Caches C}
    (call : Call C) :
    CacheRun calls outcomes caches → caches.EvictsTo evicted →
    CacheRun (calls ++ [call]) (outcomes ++ [(call.exec evicted).1]) (call.exec evicted).2

/-- Everything in the strict cache was verified by one of the calls. -/
def Caches.VerifiedBy (caches : Caches C) (calls : List (Call C)) : Prop :=
  ∀ key verifiedTx, caches.strict key = some verifiedTx → ∃ c ∈ calls, c.Verifies key verifiedTx

lemma Caches.VerifiedBy.evict {caches evicted : Caches C} {calls : List (Call C)}
    (h : caches.VerifiedBy calls) (he : caches.EvictsTo evicted) : evicted.VerifiedBy calls := by
  intro key verifiedTx hstrict
  rcases he.strict key with hnone | hsame
  · rw [hnone] at hstrict
    cases hstrict
  · exact h key verifiedTx (hsame ▸ hstrict)

/-- A call keeps the strict cache verified. -/
lemma Caches.VerifiedBy.exec {caches : Caches C} {calls : List (Call C)}
    (h : caches.VerifiedBy calls) (call : Call C) :
    (call.exec caches).2.VerifiedBy (calls ++ [call]) := by
  intro key verifiedTx hstrict
  rcases call.strict_exec caches hstrict with hbefore | hnow
  · obtain ⟨c, hc, hverifies⟩ := h key verifiedTx hbefore
    exact ⟨c, List.mem_append_left _ hc, hverifies⟩
  · exact ⟨call, List.mem_append_right _ List.mem_cons_self, hnow⟩

/-- **Invariant**: along every run the strict cache holds verified transactions. -/
lemma CacheRun.verifiedBy {calls : List (Call C)} {outcomes : List (Outcome C)}
    {caches : Caches C} (h : CacheRun calls outcomes caches) : caches.VerifiedBy calls := by
  induction h with
  | nil =>
    intro key verifiedTx hstrict
    cases hstrict
  | snoc call _ hevict ih => exact (ih.evict hevict).exec call

/-! ### Cache keys -/

lemma toLeBytes_injective : Function.Injective toLeBytes := by
  intro a b h
  simp only [toLeBytes, List.cons.injEq, ← UInt8.toNat_inj, UInt8.toNat_ofNat', and_true] at h
  have ha := a.isLt
  have hb := b.isLt
  refine BitVec.eq_of_toNat_eq ?_
  omega

/-- Calls with one cache key agree on the runtime version and the transaction. -/
lemma Call.eq_of_txHash_eq (htwox : Function.Injective C.twox128) {c d : Call C}
    (h : c.txHash = d.txHash) :
    c.runtimeVersion = d.runtimeVersion ∧ c.txSerialized = d.txSerialized := by
  have happ := htwox h
  obtain ⟨hv, hbytes⟩ := List.append_inj happ rfl
  exact ⟨toLeBytes_injective hv, hbytes⟩

/-! ### Transparency -/

/-- A transaction that the earlier call found well formed, in the same state, is found so by
the later one at its block time, with the same verified transaction. -/
def Call.SameVerdict (earlier later : Call C) : Prop :=
  ∀ tx ledger ledger' verifiedTx, earlier.load = .ok (tx, ledger) →
    later.load = .ok (tx, ledger') → ledger.state = ledger'.state →
    earlier.txSerialized = later.txSerialized → earlier.runtimeVersion = later.runtimeVersion →
    later.blockContext.parentBlockHash.length = 32 →
    C.wellFormed tx ledger.state earlier.blockContext.tblock = .ok verifiedTx →
    C.wellFormed tx ledger.state later.blockContext.tblock = .ok verifiedTx

/-- `verifyTransaction` asks the ledger crate, at the block time. -/
lemma verifyTransaction_eq {ledger : StoredLedger C.State} {tx : Transaction L}
    {blockContext : BlockContext} :
    verifyTransaction ledger tx blockContext =
      if blockContext.parentBlockHash.length = 32 then
        (C.wellFormed tx ledger.state blockContext.tblock).mapError .malformed
      else .error .getTransactionContextError := by
  rw [verifyTransaction, getTransactionContext, BlockContext.tryInto]
  split <;> rfl

lemma verifyTransaction_eq_ok {ledger : StoredLedger C.State} {tx : Transaction L}
    {blockContext : BlockContext} {verifiedTx : C.VerifiedTransaction} :
    verifyTransaction ledger tx blockContext = .ok verifiedTx ↔
      blockContext.parentBlockHash.length = 32 ∧
        C.wellFormed tx ledger.state blockContext.tblock = .ok verifiedTx := by
  rw [verifyTransaction_eq]
  split
  · rename_i hlen
    rw [mapError_eq_ok]
    exact (and_iff_right hlen).symm
  · rename_i hlen
    simp [hlen]

/-- Without a context, verification and everything after it fails. -/
lemma verified_bind_of_no_context {caches : Caches C} {ledger : StoredLedger C.State}
    {tx : Transaction L} {blockContext : BlockContext} {txHash : C.WrappedHash} {α : Type}
    {f : C.VerifiedTransaction → Except (LedgerApiError L) α}
    (hlen : blockContext.parentBlockHash.length ≠ 32)
    (hf : ∀ verifiedTx, f verifiedTx = .error .getTransactionContextError) :
    caches.verified ledger tx blockContext txHash >>= f = .error .getTransactionContextError := by
  rw [Caches.verified]
  split
  · exact hf _
  · rw [verifyTransaction_eq, if_neg hlen]
    rfl

lemma getTransactionContext_of_ne {ledger : StoredLedger C.State} {blockContext : BlockContext}
    (hlen : blockContext.parentBlockHash.length ≠ 32) :
    getTransactionContext ledger blockContext = .error .getTransactionContextError := by
  rw [getTransactionContext, BlockContext.tryInto, dif_neg hlen]
  rfl

section Transparency

variable (hstate : Function.Injective C.stateHash) (htwox : Function.Injective C.twox128)

include hstate htwox

/-- A call that verified for the key of a later call had the same transaction and state. -/
lemma Call.Verifies.of_load {c call : Call C} {tx : Transaction L} {ledger : StoredLedger C.State}
    {verifiedTx : C.VerifiedTransaction}
    (h : c.Verifies (C.stateHash ledger.state, call.txHash) verifiedTx)
    (hload : call.load = .ok (tx, ledger)) :
    ∃ ledger', c.load = .ok (tx, ledger') ∧ ledger'.state = ledger.state ∧
      verifyTransaction ledger' tx c.blockContext = .ok verifiedTx := by
  obtain ⟨tx', ledger', hload', hkey, hverify⟩ := h
  obtain ⟨hstate', hhash⟩ := Prod.mk.inj hkey
  have htx : tx' = tx := by
    have h₁ := (loadCall_eq_ok.1 hload').1
    rw [← (Call.eq_of_txHash_eq htwox hhash).2, (loadCall_eq_ok.1 hload).1] at h₁
    exact (Except.ok.inj h₁).symm
  subst htx
  exact ⟨ledger', hload', (hstate hstate').symm, hverify⟩

/-- What the caches give is what verification gives, if the context can be converted. -/
lemma verified_eq {caches : Caches C} {calls : List (Call C)} (hv : caches.VerifiedBy calls)
    {call : Call C} (hsame : ∀ c ∈ calls, c.SameVerdict call) {tx : Transaction L}
    {ledger : StoredLedger C.State} (hload : call.load = .ok (tx, ledger))
    (hlen : call.blockContext.parentBlockHash.length = 32) :
    caches.verified ledger tx call.blockContext call.txHash =
      verifyTransaction ledger tx call.blockContext := by
  rw [Caches.verified]
  split
  · rename_i verifiedTx hstrict
    obtain ⟨c, hc, hverifies⟩ := hv _ _ hstrict
    obtain ⟨ledger', hload', hledger, hverify⟩ := hverifies.of_load hstate htwox hload
    obtain ⟨_, _, _, hkey, _⟩ := hverifies
    obtain ⟨hversion, hbytes⟩ := Call.eq_of_txHash_eq htwox (Prod.mk.inj hkey).2
    -- The entry is for this state and transaction, so the verdicts agree.
    have hwf := hsame c hc _ _ _ _ hload' hload hledger hbytes.symm hversion.symm hlen
      (verifyTransaction_eq_ok.1 hverify).2
    exact (verifyTransaction_eq_ok.2 ⟨hlen, hledger ▸ hwf⟩).symm
  · rfl

/-- What follows the verification is what follows it without caches. -/
lemma verified_bind_eq {caches : Caches C} {calls : List (Call C)} (hv : caches.VerifiedBy calls)
    {call : Call C} (hsame : ∀ c ∈ calls, c.SameVerdict call) {tx : Transaction L}
    {ledger : StoredLedger C.State} (hload : call.load = .ok (tx, ledger)) {α : Type}
    {f : C.VerifiedTransaction → Except (LedgerApiError L) α}
    (hf : call.blockContext.parentBlockHash.length ≠ 32 →
      ∀ verifiedTx, f verifiedTx = .error .getTransactionContextError) :
    caches.verified ledger tx call.blockContext call.txHash >>= f =
      Caches.empty.verified ledger tx call.blockContext call.txHash >>= f := by
  by_cases hlen : call.blockContext.parentBlockHash.length = 32
  · rw [verified_eq hstate htwox hv hsame hload hlen]
    rfl
  · rw [verified_bind_of_no_context hlen (hf hlen), verified_bind_of_no_context hlen (hf hlen)]

/-- **Step**: the outcome of a call before or in a dispatch is the one without caches. -/
lemma outcome_eq_fresh {caches : Caches C} {calls : List (Call C)} (hv : caches.VerifiedBy calls)
    {call : Call C} (hsame : ∀ c ∈ calls, c.SameVerdict call) (hkind : call.kind ≠ .validate) :
    (call.exec caches).1 = (call.exec .empty).1 := by
  have hbind := fun tx ledger (hload : call.load = .ok (tx, ledger)) (α : Type)
    (f : C.VerifiedTransaction → Except (LedgerApiError L) α) hf =>
    verified_bind_eq hstate htwox hv hsame hload (f := f) hf
  obtain ⟨kind, storage, stateKey, txSerialized, blockContext, runtimeVersion⟩ := call
  cases kind with
  | validate => exact absurd rfl hkind
  | guaranteed =>
    simp only [Call.exec, exec_validateGuaranteedExecution]
    cases hload : loadCall storage stateKey txSerialized with
    | error e => rfl
    | ok loaded =>
      refine congrArg Outcome.guaranteed (hbind loaded.1 loaded.2 hload _ _ (fun hlen v => ?_))
      rw [dryRun, getTransactionContext_of_ne hlen]
      rfl
  | apply skip =>
    simp only [Call.exec, exec_applyTransaction]
    cases hload : loadCall storage stateKey txSerialized with
    | error e => rfl
    | ok loaded =>
      refine congrArg Outcome.applied (hbind loaded.1 loaded.2 hload _ _ (fun hlen v => ?_))
      rw [applyVerified, getTransactionContext_of_ne hlen]
      rfl

/-- **Run**: all outcomes before and in dispatches are those without caches. -/
lemma CacheRun.outcomes_fresh {calls : List (Call C)} {outcomes : List (Outcome C)}
    {caches : Caches C} (h : CacheRun calls outcomes caches)
    (hsame : calls.Pairwise (fun c d => d.kind ≠ .validate → c.SameVerdict d)) :
    List.Forall₂ (fun call outcome => call.kind ≠ .validate → outcome = (call.exec .empty).1)
      calls outcomes := by
  induction h with
  | nil => exact List.Forall₂.nil
  | @snoc calls outcomes caches evicted call hrun hevict ih =>
    obtain ⟨hbefore, -, hlast⟩ := List.pairwise_append.1 hsame
    refine List.rel_append (ih hbefore) (List.Forall₂.cons (fun hkind => ?_) List.Forall₂.nil)
    exact outcome_eq_fresh hstate htwox (hrun.verifiedBy.evict hevict)
      (fun c hc => hlast c hc call List.mem_cons_self hkind) hkind

end Transparency

/-- The same call on a node with another storage. -/
def Call.onStorage (call : Call C) (storage : C.Storage) : Call C :=
  { call with storage := storage }

/-- What a call returns without caches depends on the storage only through its ledger. -/
lemma exec_empty_storage (call : Call C) {storage : C.Storage}
    (h : getLedger call.storage call.stateKey = getLedger storage call.stateKey) :
    (call.exec .empty).1 = ((call.onStorage storage).exec .empty).1 := by
  have hload : loadCall call.storage call.stateKey call.txSerialized =
      loadCall storage call.stateKey call.txSerialized := by
    rw [loadCall, loadCall, h]
  obtain ⟨kind, storage', stateKey, txSerialized, blockContext, runtimeVersion⟩ := call
  simp only at hload
  cases kind with
  | validate => simp only [Call.onStorage, Call.exec, validateTransaction, exec_load_bind, hload]
  | guaranteed => simp only [Call.onStorage, Call.exec, exec_validateGuaranteedExecution, hload]
  | apply skip => simp only [Call.onStorage, Call.exec, exec_applyTransaction, hload]

/-- **The caches are transparent** along every run in which a transaction that an earlier call
found well formed is found so again, in the same state, at the block time of a later call of
`validate_guaranteed_execution` or `apply_transaction`: each of these returns what it returns
with empty caches.  Nodes with different histories of this kind therefore agree on the next
call. -/
theorem caches_transparent (hstate : Function.Injective C.stateHash)
    (htwox : Function.Injective C.twox128) :
    (∀ (calls : List (Call C)) (outcomes : List (Outcome C)) (caches : Caches C),
      CacheRun calls outcomes caches →
      calls.Pairwise (fun c d => d.kind ≠ .validate → c.SameVerdict d) →
      List.Forall₂ (fun call outcome => call.kind ≠ .validate → outcome = (call.exec .empty).1)
        calls outcomes) ∧
    ∀ (calls calls' : List (Call C)) (outcomes outcomes' : List (Outcome C))
      (caches caches' : Caches C) (call : Call C) (storage : C.Storage),
      CacheRun calls outcomes caches → CacheRun calls' outcomes' caches' →
      call.kind ≠ .validate →
      getLedger call.storage call.stateKey = getLedger storage call.stateKey →
      (∀ c ∈ calls, c.SameVerdict call) →
      (∀ c ∈ calls', c.SameVerdict (call.onStorage storage)) →
      (call.exec caches).1 = ((call.onStorage storage).exec caches').1 := by
  refine ⟨fun calls outcomes caches h hsame => h.outcomes_fresh hstate htwox hsame, ?_⟩
  intro calls calls' outcomes outcomes' caches caches' call storage h h' hkind hledger hsame hsame'
  have hkind' : (call.onStorage storage).kind ≠ .validate := hkind
  calc (call.exec caches).1
      = (call.exec .empty).1 := outcome_eq_fresh hstate htwox h.verifiedBy hsame hkind
    _ = ((call.onStorage storage).exec .empty).1 := exec_empty_storage call hledger
    _ = ((call.onStorage storage).exec caches').1 :=
        (outcome_eq_fresh hstate htwox h'.verifiedBy hsame' hkind').symm

/-! ### A transaction that is well formed from block time 10 on -/

/-- A call for the first sample transaction, with `coin 7` in the UTXO set. -/
def sampleCall (kind : CallKind) (tblock : ℕ) : Call (referenceCrate sampleDecode) where
  kind := kind
  storage := sampleStorage {coin 7}
  stateKey := []
  txSerialized := [1]
  blockContext := sampleContext tblock
  runtimeVersion := 1

/-- The transaction is validated for the pool and then found at a later block time. -/
lemma cacheRun_sample (kind : CallKind) (tblock : ℕ) :
    CacheRun [sampleCall .validate 20, sampleCall kind tblock]
      [((sampleCall .validate 20).exec .empty).1,
        ((sampleCall kind tblock).exec ((sampleCall .validate 20).exec .empty).2).1]
      ((sampleCall kind tblock).exec ((sampleCall .validate 20).exec .empty).2).2 :=
  CacheRun.snoc _ (CacheRun.snoc _ .nil (Caches.EvictsTo.refl _)) (Caches.EvictsTo.refl _)

lemma sampleCall_sameVerdict {kind kind' : CallKind} {tblock tblock' : ℕ} (h : 10 ≤ tblock') :
    (sampleCall kind tblock).SameVerdict (sampleCall kind' tblock') := by
  intro tx ledger ledger' verifiedTx _ _ _ _ _ _ hwf
  obtain rfl := referenceCrate_verified hwf
  exact if_pos h

/-- Applied at block time 12, the transaction that was validated at 20 is applied as it is with
empty caches, also on a node that never validated it. -/
theorem caches_transparent_sample :
    ((sampleCall (.apply true) 12).exec ((sampleCall .validate 20).exec .empty).2).1 =
        ((sampleCall (.apply true) 12).exec .empty).1 ∧
      ((sampleCall .guaranteed 12).exec ((sampleCall .validate 20).exec .empty).2).1 =
        ((sampleCall .guaranteed 12).exec .empty).1 := by
  have htransparent := caches_transparent (C := referenceCrate sampleDecode)
    Function.injective_id Function.injective_id
  constructor
  · have hall := htransparent.1 _ _ _ (cacheRun_sample (.apply true) 12)
      (List.pairwise_pair.2 (fun _ => sampleCall_sameVerdict (by decide)))
    obtain ⟨-, htail⟩ := List.forall₂_cons.1 hall
    exact (List.forall₂_cons.1 htail).1 (by decide)
  · have hvalidated : CacheRun [sampleCall .validate 20] [((sampleCall .validate 20).exec .empty).1]
        ((sampleCall .validate 20).exec .empty).2 :=
      CacheRun.snoc _ .nil (Caches.EvictsTo.refl _)
    exact htransparent.2 _ _ _ _ _ _ (sampleCall .guaranteed 12) _ hvalidated .nil (by decide) rfl
      (fun c hc => by
        obtain rfl := List.mem_singleton.1 hc
        exact sampleCall_sameVerdict (by decide))
      (fun c hc => absurd hc List.not_mem_nil)

/-- Before block time 10 the transaction is not well formed, but after it was validated for the
pool at 20 it passes `validate_guaranteed_execution`. -/
theorem stale_verdict_accepted :
    CacheRun [sampleCall .validate 20, sampleCall .guaranteed 5]
        [.validated (.ok [1, 0, 0, 0, 1]), .guaranteed (.ok ())]
        ((sampleCall .guaranteed 5).exec ((sampleCall .validate 20).exec .empty).2).2 ∧
      ((sampleCall .guaranteed 5).exec .empty).1 = .guaranteed (.error (.malformed ())) :=
  ⟨cacheRun_sample .guaranteed 5, rfl⟩

end MidnightNode.Ledger
