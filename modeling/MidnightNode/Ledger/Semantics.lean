/-
# What the ledger does to the UTXO set

The node relies on how the ledger crate applies a verified transaction to its UTXO set: the
segments of a standard transaction that did not fail are a run of steps, and a transaction that
claims rewards inserts one new UTXO.  `referenceCrate` is a small ledger of this kind: a segment
fails, without effect, if it spends what is not there or creates what is.
-/
import MidnightNode.Ledger.Bridge

namespace MidnightNode.Ledger

open SetRun

variable {L : LedgerTypes}

/-- How `apply` changes the UTXO set for transactions that `well_formed` accepts. -/
structure UtxoSemantics (C : LedgerCrate L) : Prop where
  /-- The segments that did not fail run one after the other. -/
  standard : ∀ {tx : StandardTransaction L} {state : C.State} {tblock : ℕ}
    {verifiedTx : C.VerifiedTransaction} {ctx : TransactionContext C.State}
    {stage : AppliedStage L}, C.wellFormed (.standard tx) state tblock = .ok verifiedTx →
    (C.apply state verifiedTx ctx).2.stage = .ok stage →
    Run (tx.steps stage) (C.utxos state) (C.utxos (C.apply state verifiedTx ctx).1)
  /-- Claimed rewards are one new UTXO. -/
  claimRewards : ∀ {value : BitVec 128} {rest : L.Rest} {state : C.State} {tblock : ℕ}
    {verifiedTx : C.VerifiedTransaction} {ctx : TransactionContext C.State}
    {stage : AppliedStage L},
    C.wellFormed (.claimRewards value rest) state tblock = .ok verifiedTx →
    (C.apply state verifiedTx ctx).2.stage = .ok stage →
    ∃ utxo ∉ C.utxos state,
      C.utxos (C.apply state verifiedTx ctx).1 = insert utxo (C.utxos state)

/-! ### A reference ledger -/

/-- Run segments one after the other; one that cannot be run fails. -/
def runSegments (tx : StandardTransaction unitTypes) :
    List SegmentId → Finset Utxo → Finset Utxo × SegmentResults unitTypes
  | [], U => (U, [])
  | s :: ss, U =>
    match exec [tx.segmentStep s] U with
    | some V => ((runSegments tx ss V).1, (s, .ok ()) :: (runSegments tx ss V).2)
    | none => ((runSegments tx ss U).1, (s, .error ()) :: (runSegments tx ss U).2)

/-- The result of a standard transaction, which fails as a whole if segment 0 does. -/
def applyStandard (tx : StandardTransaction unitTypes) (U : Finset Utxo) :
    Finset Utxo × TransactionResult unitTypes :=
  let (V, segments) := runSegments tx tx.segments U
  if segments.failed 0 then (U, .failure ())
  else if segments.all (fun e => e.2.toBool) then (V, .success)
  else (V, .partialSuccess segments)

/-- The UTXO of a claimed reward. -/
def rewardUtxo (value : BitVec 128) : Utxo := ⟨value, 0, 0, 0, 0⟩

/-- The ledger whose state is the UTXO set and whose transactions are well formed from block
time 10 on. -/
def referenceCrate (decode : List UInt8 → Option (Transaction unitTypes)) :
    LedgerCrate unitTypes where
  State := Finset Utxo
  VerifiedTransaction := Transaction unitTypes
  StateHash := Finset Utxo
  WrappedHash := List UInt8
  Storage := StoredLedger (Finset Utxo)
  ArenaKey := Unit
  utxos U := U
  stateHash U := U
  wellFormed tx _ tblock := if 10 ≤ tblock then .ok tx else .error ()
  apply U tx _ := match tx with
    | .standard tx => applyStandard tx U
    | .claimRewards value _ =>
      if rewardUtxo value ∈ U then (U, .failure ()) else (insert (rewardUtxo value) U, .success)
  cost _ _ := some ⟨1, 1, 1, 1, 1⟩
  blockLimits _ := ⟨100, 100, 100, 100, 100⟩
  transactionHash _ := 0
  deserializeTransaction := decode
  deserializeKey _ := some ()
  getLazy ledger _ := some ledger
  persist _ ledger := ledger
  serializeKey _ := some [0]
  serializeAddress address := some [UInt8.ofNat address.toNat]
  twox128 bytes := bytes
  getOverride _ := none

/-- Run segments report on no others. -/
lemma mem_of_mem_runSegments {tx : StandardTransaction unitTypes} {ss : List SegmentId}
    {U : Finset Utxo} {e : SegmentId × Except Unit Unit} (he : e ∈ (runSegments tx ss U).2) :
    e.1 ∈ ss := by
  induction ss generalizing U with
  | nil => exact absurd he List.not_mem_nil
  | cons s ss ih =>
    rw [runSegments] at he
    split at he <;>
    · rcases List.mem_cons.1 he with rfl | he
      · exact List.mem_cons_self
      · exact List.mem_cons_of_mem _ (ih he)

lemma failed_runSegments_of_not_mem {tx : StandardTransaction unitTypes} {ss : List SegmentId}
    {U : Finset Utxo} {s : SegmentId} (hs : s ∉ ss) :
    SegmentResults.failed (runSegments tx ss U).2 s = false := by
  refine List.any_eq_false.2 (fun e he => ?_)
  have hne : e.1 ≠ s := fun heq => hs (heq ▸ mem_of_mem_runSegments he)
  simp [hne]

/-- Three transactions: `twoIntents` with an old UTXO, with one of its own, and a claim. -/
def sampleDecode : List UInt8 → Option (Transaction unitTypes)
  | [1] => some (.standard (twoIntents (coin 7)))
  | [2] => some (.standard (twoIntents (coin 1)))
  | [3] => some (.claimRewards 5 ())
  | _ => none

/-- The storage of a ledger with the given UTXOs, at the start of a block. -/
def sampleStorage (U : Finset Utxo) : StoredLedger (Finset Utxo) := ⟨U, .zero⟩

/-- A block context at the given block time. -/
def sampleContext (tblock : ℕ) : BlockContext := ⟨tblock, 0, List.replicate 32 0, 0⟩

/-- The segments that are run are those that are not reported as failed. -/
lemma run_runSegments (tx : StandardTransaction unitTypes) {ss : List SegmentId} (hss : ss.Nodup)
    (U : Finset Utxo) :
    Run ((ss.filter (fun s => !SegmentResults.failed (runSegments tx ss U).2 s)).map tx.segmentStep)
      U (runSegments tx ss U).1 := by
  induction ss generalizing U with
  | nil => exact Run.nil U
  | cons s ss ih =>
    obtain ⟨hs, hss⟩ := List.nodup_cons.1 hss
    have hne : ∀ s' ∈ ss, (s == s') = false := fun s' hs' =>
      beq_eq_false_iff_ne.2 (fun heq => hs (heq ▸ hs'))
    rw [runSegments]
    cases hexec : exec [tx.segmentStep s] U with
    | some V =>
      have hself : SegmentResults.failed (runSegments tx ss V).2 s = false :=
        failed_runSegments_of_not_mem hs
      simp only [SegmentResults.failed_cons]
      rw [List.filter_cons_of_pos (by simp [hself, Except.toBool]), List.map_cons,
        List.filter_congr (fun s' hs' => by rw [hne s' hs', Bool.false_and, Bool.false_or])]
      exact Run.cons (takes_of_exec hexec) (ih hss V)
    | none =>
      simp only [SegmentResults.failed_cons]
      rw [List.filter_cons_of_neg (by simp [Except.toBool]),
        List.filter_congr (fun s' hs' => by rw [hne s' hs', Bool.false_and, Bool.false_or])]
      exact ih hss U

lemma failed_eq_false_of_all {segments : SegmentResults L}
    (h : segments.all (fun e => e.2.toBool)) (s : SegmentId) :
    SegmentResults.failed segments s = false := by
  refine List.any_eq_false.2 (fun e he => ?_)
  have hok := List.all_eq_true.1 h e he
  simp [hok]

/-- A standard transaction is a run of the segments that did not fail. -/
lemma run_applyStandard {tx : StandardTransaction unitTypes} {U : Finset Utxo}
    {stage : AppliedStage unitTypes} (h : (applyStandard tx U).2.stage = .ok stage) :
    Run (tx.steps stage) U (applyStandard tx U).1 := by
  have hrun := run_runSegments tx tx.segments_nodup U
  rw [applyStandard] at h ⊢
  simp only [] at h ⊢
  split at h
  · cases h
  · rename_i hzero
    rw [if_neg hzero]
    split at h
    · rename_i hall
      cases h
      rw [if_pos hall]
      have hnone := failed_eq_false_of_all hall
      simp only [hnone] at hrun
      exact hrun
    · rename_i hall
      cases h
      rw [if_neg hall]
      exact hrun

/-- Verification returns the transaction. -/
lemma referenceCrate_verified {decode : List UInt8 → Option (Transaction unitTypes)}
    {tx : Transaction unitTypes} {U : Finset Utxo} {tblock : ℕ}
    {verifiedTx : Transaction unitTypes}
    (h : (referenceCrate decode).wellFormed tx U tblock = .ok verifiedTx) : verifiedTx = tx := by
  simp only [referenceCrate] at h
  split at h
  · exact (Except.ok.inj h).symm
  · cases h

/-- The reference ledger changes the UTXO set as assumed. -/
lemma referenceCrate_utxoSemantics (decode : List UInt8 → Option (Transaction unitTypes)) :
    UtxoSemantics (referenceCrate decode) where
  standard := by
    intro tx state tblock verifiedTx ctx stage hwf hstage
    obtain rfl := referenceCrate_verified hwf
    exact run_applyStandard hstage
  claimRewards := by
    intro value rest state tblock verifiedTx ctx stage hwf hstage
    obtain rfl := referenceCrate_verified hwf
    refine ⟨rewardUtxo value, ?_⟩
    simp only [referenceCrate] at hstage ⊢
    split at hstage
    · cases hstage
    · rename_i hnew
      exact ⟨hnew, by rw [if_neg hnew]⟩

end MidnightNode.Ledger
