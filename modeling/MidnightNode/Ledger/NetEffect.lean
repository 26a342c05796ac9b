/-
# The reported UTXOs as the net effect on the UTXO set

`apply_transaction` derives the UTXOs of a transaction, drops those of the failed segments and
checks the rest against the new state.  The segments that did not fail are a run of steps on
the UTXO set.  The check accepts, and the reported lists are the exact net effect of that run,
unless a segment spends what the transaction itself creates: the check then asks for a UTXO to
be present and absent at once.
-/
import MidnightNode.Ledger.Utxos

namespace MidnightNode.Ledger

open ListMap SetRun

variable {L : LedgerTypes}

/-! ### Failed segments -/

/-- How far a transaction was applied. -/
inductive AppliedStage (L : LedgerTypes)
  | allApplied
  | partialSuccess (segments : SegmentResults L)

/-- The segment failed. -/
def AppliedStage.failed : AppliedStage L → SegmentId → Bool
  | .allApplied, _ => false
  | .partialSuccess segments, s => segments.failed s

/-- The derived UTXOs without those of the failed segments. -/
def Transaction.appliedUtxos (tx : Transaction L) : AppliedStage L → UnshieldedUtxos
  | .allApplied => tx.unshieldedUtxos
  | .partialSuccess segments => tx.unshieldedUtxos.removeFailedSegments segments

lemma removeFailedSegments_get (segments : SegmentResults L) (utxos : UnshieldedUtxos)
    (k : SegmentId) :
    (utxos.removeFailedSegments segments).outputs.get k =
        (if segments.failed k then [] else utxos.outputs.get k) ∧
      (utxos.removeFailedSegments segments).inputs.get k =
        (if segments.failed k then [] else utxos.inputs.get k) := by
  induction segments generalizing utxos with
  | nil => exact ⟨rfl, rfl⟩
  | cons e segments ih =>
    obtain ⟨s, result⟩ := e
    have hstep : utxos.removeFailedSegments ((s, result) :: segments) =
        (utxos.removeIfFailed (s, result)).removeFailedSegments segments := rfl
    rw [hstep, (ih _).1, (ih _).2, SegmentResults.failed_cons]
    cases result with
    | error reason =>
      simp only [UnshieldedUtxos.removeIfFailed, Map.get_remove]
      by_cases hk : k = s
      · simp [hk, Except.toBool]
      · simp [hk, Ne.symm hk]
    | ok u => simp [UnshieldedUtxos.removeIfFailed, Except.toBool]

/-- The outputs of the failed segments are dropped, and no others. -/
lemma appliedUtxos_get (tx : Transaction L) (stage : AppliedStage L) (k : SegmentId) :
    (tx.appliedUtxos stage).outputs.get k =
        (if stage.failed k then [] else tx.unshieldedUtxos.outputs.get k) ∧
      (tx.appliedUtxos stage).inputs.get k =
        (if stage.failed k then [] else tx.unshieldedUtxos.inputs.get k) := by
  cases stage with
  | allApplied => exact ⟨rfl, rfl⟩
  | partialSuccess segments => exact removeFailedSegments_get segments _ k

/-! ### The run of the ledger -/

/-- The UTXOs that the ledger makes of outputs. -/
def createdUtxos (outputs : List UtxoOutput) (intentHash : Hash) : List Utxo :=
  outputs.zipIdx.map (fun o =>
    ⟨o.1.value, o.1.owner, o.1.type_, intentHash, BitVec.ofNat 32 o.2⟩)

lemma map_toUtxo_outputInfos (outputs : List UtxoOutput) (intentHash : Hash) :
    (outputInfos outputs intentHash).map UtxoInfo.toUtxo = createdUtxos outputs intentHash := by
  rw [outputInfos, createdUtxos, List.map_map]
  rfl

lemma map_toUtxo_utxosInfoFromInputs (inputs : List UtxoSpend) :
    (utxosInfoFromInputs inputs).map UtxoInfo.toUtxo = inputs.map UtxoSpend.toUtxo := by
  rw [utxosInfoFromInputs, List.map_map]
  exact List.map_congr_left (fun spend _ => toUtxo_fromUtxoSpend spend)

namespace StandardTransaction

/-- The segments that did not fail, in ascending order. -/
def survivors (tx : StandardTransaction L) (stage : AppliedStage L) : List SegmentId :=
  tx.segments.filter (fun s => !stage.failed s)

/-- What the ledger does to the UTXO set in a segment: remove the spent UTXOs and insert the
created ones, of all intents in segment 0 and of its own intent in any other. -/
def segmentStep (tx : StandardTransaction L) (s : SegmentId) : Step Utxo :=
  if s = 0 then
    ⟨tx.intents.flatMap (fun e => e.2.guaranteedInputs.map UtxoSpend.toUtxo),
      tx.intents.flatMap (fun e => createdUtxos e.2.guaranteedOutputs (e.2.intentHash s))⟩
  else
    match tx.intent s with
    | some i => ⟨i.fallibleInputs.map UtxoSpend.toUtxo,
        createdUtxos i.fallibleOutputs (i.intentHash s)⟩
    | none => ⟨[], []⟩

/-- The steps of the segments that did not fail. -/
def steps (tx : StandardTransaction L) (stage : AppliedStage L) : List (Step Utxo) :=
  (tx.survivors stage).map tx.segmentStep

/-- No segment spends what the transaction creates. -/
def SpendsNoOutput (tx : StandardTransaction L) (stage : AppliedStage L) : Prop :=
  ∀ x ∈ allIns (tx.steps stage), x ∉ allOuts (tx.steps stage)

instance (tx : StandardTransaction L) (stage : AppliedStage L) :
    Decidable (tx.SpendsNoOutput stage) :=
  inferInstanceAs (Decidable (∀ x ∈ allIns (tx.steps stage), x ∉ allOuts (tx.steps stage)))

variable {tx : StandardTransaction L} {stage : AppliedStage L}

/-- The ledger inserts what is derived for the segment. -/
lemma segmentStep_outs (tx : StandardTransaction L) (s : SegmentId) :
    (tx.segmentStep s).outs = (tx.outputs s).map UtxoInfo.toUtxo := by
  rw [segmentStep, outputs]
  split
  · rw [List.map_flatMap]
    exact List.flatMap_congr (fun e _ => (map_toUtxo_outputInfos _ _).symm)
  · cases tx.intent s with
    | none => rfl
    | some i => exact (map_toUtxo_outputInfos _ _).symm

/-- The ledger removes what is derived for the segment. -/
lemma segmentStep_ins (tx : StandardTransaction L) (s : SegmentId) :
    (tx.segmentStep s).ins = (tx.inputs s).map UtxoInfo.toUtxo := by
  rw [segmentStep, inputs]
  split
  · rw [List.map_flatMap]
    exact List.flatMap_congr (fun e _ => (map_toUtxo_utxosInfoFromInputs _).symm)
  · cases tx.intent s with
    | none => rfl
    | some i => exact (map_toUtxo_utxosInfoFromInputs _).symm

/-- A map that has the UTXOs of the segments that did not fail has them all together. -/
lemma flatten_map_perm {m : Map UtxoInfo} {f : SegmentId → List UtxoInfo}
    (hm : ∀ k, m.get k = if stage.failed k then [] else f k)
    (hf : ∀ k, k ∉ tx.segments → f k = []) :
    (m.flatten.map UtxoInfo.toUtxo).Perm
      ((tx.survivors stage).flatMap (fun s => (f s).map UtxoInfo.toUtxo)) := by
  have hcover : ∀ k, m.get k ≠ [] → k ∈ tx.survivors stage := by
    intro k hk
    rw [hm] at hk
    have hfailed : ¬ stage.failed k := fun h => hk (if_pos h)
    rw [if_neg hfailed] at hk
    refine List.mem_filter.2 ⟨?_, by simpa using hfailed⟩
    by_contra habsent
    exact hk (hf k habsent)
  have hsurvive : ∀ k ∈ tx.survivors stage, m.get k = f k := by
    intro k hk
    have hfailed : stage.failed k = false := by simpa using (List.mem_filter.1 hk).2
    rw [hm, hfailed]
    rfl
  have hperm := (m.flatten_perm (tx.segments_nodup.filter _) hcover).map UtxoInfo.toUtxo
  rw [List.map_flatMap, List.flatMap_congr (fun k hk => by rw [hsurvive k hk])] at hperm
  exact hperm

/-- The reported outputs are the UTXOs that the steps insert. -/
lemma outputs_perm (h : tx.OutputsFit) (stage : AppliedStage L) :
    (((Transaction.standard tx).appliedUtxos stage).outputs.flatten.map UtxoInfo.toUtxo).Perm
      (allOuts (tx.steps stage)) := by
  rw [allOuts, steps, List.flatMap_map, List.flatMap_congr (fun s _ => segmentStep_outs tx s)]
  refine flatten_map_perm (fun k => ?_) (fun k hk => outputs_eq_nil hk)
  rw [(appliedUtxos_get _ stage k).1, (unshieldedUtxos_get h k).1]

/-- The reported inputs are the UTXOs that the steps remove. -/
lemma inputs_perm (h : tx.OutputsFit) (stage : AppliedStage L) :
    (((Transaction.standard tx).appliedUtxos stage).inputs.flatten.map UtxoInfo.toUtxo).Perm
      (allIns (tx.steps stage)) := by
  rw [allIns, steps, List.flatMap_map, List.flatMap_congr (fun s _ => segmentStep_ins tx s)]
  refine flatten_map_perm (fun k => ?_) (fun k hk => inputs_eq_nil hk)
  rw [(appliedUtxos_get _ stage k).2, (unshieldedUtxos_get h k).2]

/-- Nothing is reported where an output index is not a `u32`. -/
lemma appliedUtxos_of_not_fits (h : ¬ tx.OutputsFit) (stage : AppliedStage L) :
    ((Transaction.standard tx).appliedUtxos stage).outputs.flatten = [] ∧
      ((Transaction.standard tx).appliedUtxos stage).inputs.flatten = [] := by
  have hget := appliedUtxos_get (Transaction.standard tx) stage
  simp only [unshieldedUtxos_of_not_fits h, UnshieldedUtxos.empty, Map.get_empty, ite_self] at hget
  exact ⟨Map.flatten_eq_nil (fun k => (hget k).1), Map.flatten_eq_nil (fun k => (hget k).2)⟩

end StandardTransaction

/-! ### The check -/

/-- The conditions of the integrity check. -/
structure UnshieldedUtxos.Passes (utxos : UnshieldedUtxos) (initialUtxosSize : ℕ)
    (finalUtxos : Finset Utxo) : Prop where
  /-- Reported outputs are present. -/
  outputs_mem : ∀ info ∈ utxos.outputs.flatten, info.toUtxo ∈ finalUtxos
  /-- Reported inputs are absent. -/
  inputs_not_mem : ∀ info ∈ utxos.inputs.flatten, info.toUtxo ∉ finalUtxos
  /-- The size is what the reported lists make it. -/
  card_eq : finalUtxos.card =
    initialUtxosSize + utxos.outputs.flatten.length - utxos.inputs.flatten.length

lemma checkUtxosResponseIntegrity_of_passes {utxos : UnshieldedUtxos} {n : ℕ} {V : Finset Utxo}
    (h : utxos.Passes n V) :
    utxos.checkUtxosResponseIntegrity L n V =
      .ok (utxos.outputs.flatten, utxos.inputs.flatten) := by
  have hO : ¬ utxos.outputs.flatten.any (fun info => info.toUtxo ∉ V) := by
    simpa using h.outputs_mem
  have hI : ¬ utxos.inputs.flatten.any (fun info => info.toUtxo ∈ V) := by
    simpa using h.inputs_not_mem
  rw [UnshieldedUtxos.checkUtxosResponseIntegrity, if_neg hO, if_neg hI]
  exact if_neg (fun hne => hne h.card_eq)

lemma checkUtxosResponseIntegrity_ok {utxos : UnshieldedUtxos} {n : ℕ} {V : Finset Utxo}
    {created spent : List UtxoInfo}
    (h : utxos.checkUtxosResponseIntegrity L n V = .ok (created, spent)) :
    utxos.Passes n V ∧ created = utxos.outputs.flatten ∧ spent = utxos.inputs.flatten := by
  rw [UnshieldedUtxos.checkUtxosResponseIntegrity] at h
  split at h
  · cases h
  rename_i hO
  split at h
  · cases h
  rename_i hI
  simp only [] at h
  split at h
  · cases h
  rename_i hcard
  cases h
  exact ⟨⟨by simpa using hO, by simpa using hI, not_not.1 hcard⟩, rfl, rfl⟩

/-- **Rejection**: a UTXO that is reported both as created and as spent fails the check. -/
lemma UnshieldedUtxos.Passes.disjoint {utxos : UnshieldedUtxos} {n : ℕ} {V : Finset Utxo}
    (h : utxos.Passes n V) :
    ∀ x ∈ utxos.inputs.flatten.map UtxoInfo.toUtxo,
      x ∉ utxos.outputs.flatten.map UtxoInfo.toUtxo := by
  intro x hI hO
  obtain ⟨i, hi, rfl⟩ := List.mem_map.1 hI
  obtain ⟨o, ho, heq⟩ := List.mem_map.1 hO
  exact h.inputs_not_mem i hi (heq ▸ h.outputs_mem o ho)

/-- The reported lists, if the check accepts them, are the exact net effect. -/
def UnshieldedUtxos.ReportsNetEffect (L : LedgerTypes) (utxos : UnshieldedUtxos)
    (U V : Finset Utxo) : Prop :=
  ∃ created spent, utxos.checkUtxosResponseIntegrity L U.card V = .ok (created, spent) ∧
    created.Nodup ∧ spent.Nodup ∧ (created.map UtxoInfo.toUtxo).toFinset = V \ U ∧
    (spent.map UtxoInfo.toUtxo).toFinset = U \ V

namespace StandardTransaction

variable {tx : StandardTransaction L} {stage : AppliedStage L} {U V : Finset Utxo}

/-- A run that spends none of its outputs passes the check. -/
lemma passes_of_net (hfit : tx.OutputsFit)
    (h : Net (allIns (tx.steps stage)) (allOuts (tx.steps stage)) U V) :
    ((Transaction.standard tx).appliedUtxos stage).Passes U.card V := by
  have hO := outputs_perm hfit stage
  have hI := inputs_perm hfit stage
  refine ⟨fun info hinfo => ?_, fun info hinfo hV => ?_, ?_⟩
  · exact (h.mem_iff _).2 (Or.inl (hO.subset (List.mem_map_of_mem hinfo)))
  · have hin := hI.subset (List.mem_map_of_mem hinfo)
    rcases (h.mem_iff _).1 hV with ho | hu
    · exact h.outs_new _ ho (h.ins_mem _ hin)
    · exact hu.2 hin
  · rw [h.card_eq, ← hO.length_eq, ← hI.length_eq, List.length_map, List.length_map]

/-- With output indices that are `u32`s, the check accepts exactly the runs that spend none of
their outputs. -/
lemma passes_iff (hfit : tx.OutputsFit) (hrun : Run (tx.steps stage) U V) :
    ((Transaction.standard tx).appliedUtxos stage).Passes U.card V ↔ tx.SpendsNoOutput stage := by
  constructor
  · intro h x hI hO
    exact h.disjoint x ((inputs_perm hfit stage).mem_iff.2 hI)
      ((outputs_perm hfit stage).mem_iff.2 hO)
  · exact fun h => passes_of_net hfit (hrun.net h)

/-- Without, the check accepts exactly the runs that keep the size. -/
lemma passes_iff_of_not_fits (hfit : ¬ tx.OutputsFit) :
    ((Transaction.standard tx).appliedUtxos stage).Passes U.card V ↔ V.card = U.card := by
  obtain ⟨hO, hI⟩ := appliedUtxos_of_not_fits hfit stage
  constructor
  · intro h
    simpa [hO, hI] using h.card_eq
  · intro h
    exact ⟨by simp [hO], by simp [hI], by simpa [hO, hI] using h⟩

/-- The reported lists are the net effect under the same condition. -/
lemma reportsNetEffect_iff (hfit : tx.OutputsFit) (hrun : Run (tx.steps stage) U V) :
    ((Transaction.standard tx).appliedUtxos stage).ReportsNetEffect L U V ↔
      tx.SpendsNoOutput stage := by
  constructor
  · rintro ⟨created, spent, hcheck, -⟩
    exact (passes_iff hfit hrun).1 (checkUtxosResponseIntegrity_ok hcheck).1
  · intro h
    have hnet := hrun.net h
    have hO := outputs_perm hfit stage
    have hI := inputs_perm hfit stage
    refine ⟨_, _, checkUtxosResponseIntegrity_of_passes (passes_of_net hfit hnet), ?_, ?_, ?_, ?_⟩
    · exact List.Nodup.of_map _ (hO.nodup_iff.2 hnet.outs_nodup)
    · exact List.Nodup.of_map _ (hI.nodup_iff.2 hnet.ins_nodup)
    · rw [List.toFinset_eq_of_perm _ _ hO, hnet.outs_eq]
    · rw [List.toFinset_eq_of_perm _ _ hI, hnet.ins_eq]

lemma reportsNetEffect_iff_of_not_fits (hfit : ¬ tx.OutputsFit) :
    ((Transaction.standard tx).appliedUtxos stage).ReportsNetEffect L U V ↔ V = U := by
  obtain ⟨hO, hI⟩ := appliedUtxos_of_not_fits hfit stage
  constructor
  · rintro ⟨created, spent, hcheck, -, -, hc, hs⟩
    obtain ⟨-, rfl, rfl⟩ := checkUtxosResponseIntegrity_ok hcheck
    rw [hO] at hc
    rw [hI] at hs
    -- Nothing gained and nothing lost.
    exact Finset.Subset.antisymm (Finset.sdiff_eq_empty_iff_subset.1 hc.symm)
      (Finset.sdiff_eq_empty_iff_subset.1 hs.symm)
  · rintro rfl
    refine ⟨_, _, checkUtxosResponseIntegrity_of_passes ((passes_iff_of_not_fits hfit).2 rfl), ?_⟩
    rw [hO, hI]
    simp

end StandardTransaction

/-- **The reported UTXOs are the net effect** of the segments that did not fail iff no segment
spends what the transaction creates; where an output index is not a `u32` nothing is reported,
which is the net effect iff there is none.  Conversely, whatever set the check accepts that
holds nothing but old and reported UTXOs is the old set with the reported changes. -/
theorem unshielded_utxos_net_effect_iff :
    (∀ (tx : StandardTransaction L) (stage : AppliedStage L) (U V : Finset Utxo),
      Run (tx.steps stage) U V →
      (((Transaction.standard tx).appliedUtxos stage).ReportsNetEffect L U V ↔
        (tx.OutputsFit ∧ tx.SpendsNoOutput stage) ∨ (¬ tx.OutputsFit ∧ V = U))) ∧
    ∀ (utxos : UnshieldedUtxos) (U V : Finset Utxo) (created spent : List UtxoInfo),
      utxos.checkUtxosResponseIntegrity L U.card V = .ok (created, spent) →
      V ⊆ U ∪ (created.map UtxoInfo.toUtxo).toFinset → created.Nodup → spent.Nodup →
      (∀ info ∈ spent, info.toUtxo ∈ U) →
      V = (U \ (spent.map UtxoInfo.toUtxo).toFinset) ∪ (created.map UtxoInfo.toUtxo).toFinset := by
  constructor
  · intro tx stage U V hrun
    by_cases hfit : tx.OutputsFit
    · rw [StandardTransaction.reportsNetEffect_iff hfit hrun]
      simp [hfit]
    · rw [StandardTransaction.reportsNetEffect_iff_of_not_fits hfit]
      simp [hfit]
  · intro utxos U V created spent hcheck hsub hcreated hspent hU
    obtain ⟨hpass, rfl, rfl⟩ := checkUtxosResponseIntegrity_ok hcheck
    refine eq_of_card_eq ?_ ?_ hsub (hspent.map UtxoInfo.toUtxo_injective) ?_
    · exact List.forall_mem_map.2 hpass.inputs_not_mem
    · rw [List.length_map, List.length_map]
      exact hpass.card_eq
    · exact List.forall_mem_map.2 hU

/-! ### One intent that spends a UTXO, after another that creates one -/

/-- Types without content. -/
def unitTypes : LedgerTypes := ⟨Unit, Unit, Unit, Unit⟩

/-- A UTXO of value 5 that the intent with the given hash creates. -/
def coin (intentHash : Hash) : Utxo := ⟨5, 0, 0, intentHash, 0⟩

/-- The intent of segment 1 creates `coin 1`, that of segment 2 spends the given UTXO and
creates `coin 2`. -/
def twoIntents (spent : Utxo) : StandardTransaction unitTypes where
  intents :=
    [(1, ⟨[], [], [], [⟨5, 0, 0⟩], [.deploy 8], fun _ => 1⟩),
     (2, ⟨[], [], [⟨spent⟩], [⟨5, 0, 0⟩], [.call 9 []], fun _ => 2⟩)]
  intents_nodup := by simp
  guaranteedCoins := none
  fallibleCoins := []
  rest := ()

/-- Spending a UTXO that was there before is reported as the net effect, and the set that the
check accepts is the old one with the reported changes. -/
theorem unshielded_utxos_net_effect_two_intents :
    ((Transaction.standard (twoIntents (coin 7))).appliedUtxos .allApplied).ReportsNetEffect
        unitTypes {coin 7} {coin 1, coin 2} ∧
      ({coin 1, coin 2} : Finset Utxo) = ({coin 7} \ {coin 7}) ∪ {coin 1, coin 2} := by
  have hrun : Run ((twoIntents (coin 7)).steps .allApplied) {coin 7} {coin 1, coin 2} :=
    run_of_exec (by decide +kernel)
  have hreport := (unshielded_utxos_net_effect_iff.1 _ _ _ _ hrun).2 (Or.inl (by decide +kernel))
  refine ⟨hreport, ?_⟩
  have hcheck : ((Transaction.standard (twoIntents (coin 7))).appliedUtxos
      .allApplied).checkUtxosResponseIntegrity unitTypes (Finset.card {coin 7})
      {coin 1, coin 2} = .ok ([⟨0, 0, 1, 5, 0⟩, ⟨0, 0, 2, 5, 0⟩], [⟨0, 0, 7, 5, 0⟩]) := by
    rfl
  exact unshielded_utxos_net_effect_iff.2 _ {coin 7} _ _ _ hcheck (by decide +kernel)
    (by decide +kernel) (by decide +kernel) (by decide +kernel)

/-- Spending what the intent of segment 1 creates is a run of the ledger, but the check
rejects it. -/
theorem chained_intents_rejected :
    Run ((twoIntents (coin 1)).steps .allApplied) ∅ {coin 2} ∧
      ((Transaction.standard (twoIntents (coin 1))).appliedUtxos
        .allApplied).checkUtxosResponseIntegrity unitTypes (Finset.card (∅ : Finset Utxo))
          {coin 2} = .error .hostApiError := by
  refine ⟨run_of_exec (by decide +kernel), ?_⟩
  exact if_pos (by decide +kernel)

end MidnightNode.Ledger
