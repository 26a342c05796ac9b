/-
# Derived UTXOs and the effect of a transaction

The ledger runs the segments of a standard transaction one after the other, the failed ones
apart.  The UTXOs that `unshieldedUtxos` derives are, segment by segment, those the ledger
removes and inserts; what the integrity check makes of them depends on whether one segment
spends what another one created.
-/
import MidnightNode.Ledger.Transaction
import MidnightNode.Lib.SetRun

namespace MidnightNode.Ledger

open ListMap SetRun

variable {L : LedgerTypes}

/-! ### What a segment creates and spends -/

/-- The outputs with their indices. -/
def outputInfos (outputs : List UtxoOutput) (intentHash : Hash) : List UtxoInfo :=
  outputs.zipIdx.map (fun o =>
    ⟨o.1.owner, o.1.type_, intentHash, o.1.value, BitVec.ofNat 32 o.2⟩)

namespace StandardTransaction

/-- What the segment creates. -/
def outputs (tx : StandardTransaction L) (s : SegmentId) : List UtxoInfo :=
  if s = 0 then
    tx.intents.flatMap (fun e => outputInfos e.2.guaranteedOutputs (e.2.intentHash s))
  else
    (tx.intent s).elim [] (fun i => outputInfos i.fallibleOutputs (i.intentHash s))

/-- What the segment spends. -/
def inputs (tx : StandardTransaction L) (s : SegmentId) : List UtxoInfo :=
  if s = 0 then tx.intents.flatMap (fun e => utxosInfoFromInputs e.2.guaranteedInputs)
  else (tx.intent s).elim [] (fun i => utxosInfoFromInputs i.fallibleInputs)

/-- The indices of the outputs of the segment are `u32`s. -/
def SegmentFits (tx : StandardTransaction L) (s : SegmentId) : Prop :=
  if s = 0 then ∀ e ∈ tx.intents, e.2.guaranteedOutputs.length ≤ 2 ^ 32
  else ∀ i ∈ tx.intent s, i.fallibleOutputs.length ≤ 2 ^ 32

instance (tx : StandardTransaction L) (s : SegmentId) : Decidable (tx.SegmentFits s) :=
  inferInstanceAs (Decidable (if s = 0 then ∀ e ∈ tx.intents, e.2.guaranteedOutputs.length ≤ 2 ^ 32
    else ∀ i ∈ tx.intent s, i.fallibleOutputs.length ≤ 2 ^ 32))

/-- All output indices are `u32`s. -/
def OutputsFit (tx : StandardTransaction L) : Prop :=
  ∀ s ∈ tx.segments, tx.SegmentFits s

instance (tx : StandardTransaction L) : Decidable tx.OutputsFit :=
  inferInstanceAs (Decidable (∀ s ∈ tx.segments, tx.SegmentFits s))

lemma outputs_eq_nil {tx : StandardTransaction L} {s : SegmentId} (h : s ∉ tx.segments) :
    tx.outputs s = [] := by
  rw [mem_segments, not_or, not_or] at h
  rw [outputs, if_neg h.1, intent_eq_none h.2.1]
  rfl

lemma inputs_eq_nil {tx : StandardTransaction L} {s : SegmentId} (h : s ∉ tx.segments) :
    tx.inputs s = [] := by
  rw [mem_segments, not_or, not_or] at h
  rw [inputs, if_neg h.1, intent_eq_none h.2.1]
  rfl

end StandardTransaction

/-! ### The derivation, list by list -/

/-- A loop whose rounds succeed exactly on the elements with `P` fails if an element lacks
it. -/
lemma foldlM_eq_none {α β : Type*} (P : α → Prop) {f : β → α → Option β}
    (hok : ∀ x, P x → ∀ b, ∃ b', f b x = some b') (hfail : ∀ x, ¬ P x → ∀ b, f b x = none)
    {l : List α} (h : ¬ ∀ x ∈ l, P x) (b : β) : l.foldlM f b = none := by
  induction l generalizing b with
  | nil => exact absurd (by simp) h
  | cons x l ih =>
    rw [List.foldlM_cons]
    by_cases hx : P x
    · obtain ⟨b', hb'⟩ := hok x hx b
      rw [hb']
      exact ih (fun hall => h (List.forall_mem_cons.2 ⟨hx, hall⟩)) b'
    · rw [hfail x hx b]
      rfl

/-- Numbering from `n`, indices that stay below `2 ^ 32` are all found to be `u32`s. -/
lemma mapM_utxoOutputInfo_of_le (intentHash : Hash) (outputs : List UtxoOutput) (n : ℕ)
    (h : n + outputs.length ≤ 2 ^ 32) :
    (outputs.zipIdx n).mapM (fun o => utxoOutputInfo intentHash o.1 o.2) =
      some ((outputs.zipIdx n).map (fun o =>
        ⟨o.1.owner, o.1.type_, intentHash, o.1.value, BitVec.ofNat 32 o.2⟩)) := by
  induction outputs generalizing n with
  | nil => rfl
  | cons output outputs ih =>
    rw [List.length_cons] at h
    have hn : n < 2 ^ 32 := by omega
    rw [List.zipIdx_cons, List.mapM_cons, ih (n + 1) (by omega), utxoOutputInfo, if_pos hn]
    rfl

/-- Numbering from `n`, an index beyond is found. -/
lemma mapM_utxoOutputInfo_of_lt (intentHash : Hash) (outputs : List UtxoOutput) (n : ℕ)
    (hn : n ≤ 2 ^ 32) (h : 2 ^ 32 < n + outputs.length) :
    (outputs.zipIdx n).mapM (fun o => utxoOutputInfo intentHash o.1 o.2) = none := by
  induction outputs generalizing n with
  | nil =>
    rw [List.length_nil] at h
    omega
  | cons output outputs ih =>
    rw [List.length_cons] at h
    rw [List.zipIdx_cons, List.mapM_cons, utxoOutputInfo]
    by_cases hlt : n < 2 ^ 32
    · rw [if_pos hlt, ih (n + 1) (by omega) (by omega)]
      rfl
    · rw [if_neg hlt]
      rfl

lemma utxosInfoFromOutput_eq (outputs : List UtxoOutput) (intentHash : Hash) :
    utxosInfoFromOutput outputs intentHash =
      if outputs.length ≤ 2 ^ 32 then some (outputInfos outputs intentHash) else none := by
  split
  · exact mapM_utxoOutputInfo_of_le intentHash outputs 0 (by omega)
  · exact mapM_utxoOutputInfo_of_lt intentHash outputs 0 (by omega) (by omega)

namespace UnshieldedUtxos

/-- The second collection is the first with more outputs and inputs in one segment. -/
structure Adds (utxos : UnshieldedUtxos) (s : SegmentId) (O I : List UtxoInfo)
    (utxos' : UnshieldedUtxos) : Prop where
  outputs_get : ∀ k, utxos'.outputs.get k =
    if k = s then utxos.outputs.get s ++ O else utxos.outputs.get k
  inputs_get : ∀ k, utxos'.inputs.get k =
    if k = s then utxos.inputs.get s ++ I else utxos.inputs.get k

lemma Adds.refl (utxos : UnshieldedUtxos) (s : SegmentId) : utxos.Adds s [] [] utxos :=
  ⟨fun k => by split <;> simp_all, fun k => by split <;> simp_all⟩

lemma Adds.trans {u v w : UnshieldedUtxos} {s : SegmentId} {O I O' I' : List UtxoInfo}
    (h : u.Adds s O I v) (h' : v.Adds s O' I' w) : u.Adds s (O ++ O') (I ++ I') w := by
  constructor
  · intro k
    rw [h'.outputs_get, h.outputs_get, h.outputs_get]
    split <;> simp
  · intro k
    rw [h'.inputs_get, h.inputs_get, h.inputs_get]
    split <;> simp

lemma update_of_fits {s : SegmentId} (intent : Intent) {outputs : List UtxoOutput}
    (inputs : List UtxoSpend) (utxos : UnshieldedUtxos) (h : outputs.length ≤ 2 ^ 32) :
    ∃ utxos', utxos.update s intent outputs inputs = some utxos' ∧
      utxos.Adds s (outputInfos outputs (intent.intentHash s)) (utxosInfoFromInputs inputs)
        utxos' := by
  rw [update, utxosInfoFromOutput_eq, if_pos h]
  exact ⟨_, rfl, fun k => Map.get_extend _ _ _ k, fun k => Map.get_extend _ _ _ k⟩

lemma update_of_not_fits {s : SegmentId} (intent : Intent) {outputs : List UtxoOutput}
    (inputs : List UtxoSpend) (utxos : UnshieldedUtxos) (h : ¬ outputs.length ≤ 2 ^ 32) :
    utxos.update s intent outputs inputs = none := by
  rw [update, utxosInfoFromOutput_eq, if_neg h]

/-! ### The derivation, segment by segment -/

/-- The inner loop of the guaranteed segment. -/
lemma foldlM_update_of_fits {s : SegmentId} {intents : List (SegmentId × Intent)}
    (h : ∀ e ∈ intents, e.2.guaranteedOutputs.length ≤ 2 ^ 32) (utxos : UnshieldedUtxos) :
    ∃ utxos', intents.foldlM (fun utxos e =>
        utxos.update s e.2 e.2.guaranteedOutputs e.2.guaranteedInputs) utxos = some utxos' ∧
      utxos.Adds s (intents.flatMap (fun e => outputInfos e.2.guaranteedOutputs (e.2.intentHash s)))
        (intents.flatMap (fun e => utxosInfoFromInputs e.2.guaranteedInputs)) utxos' := by
  induction intents generalizing utxos with
  | nil => exact ⟨utxos, rfl, Adds.refl utxos s⟩
  | cons e intents ih =>
    obtain ⟨u, hu, hadds⟩ := update_of_fits e.2 e.2.guaranteedInputs utxos
      (h e List.mem_cons_self)
    obtain ⟨v, hv, hadds'⟩ := ih (fun e' he' => h e' (List.mem_cons_of_mem _ he')) u
    refine ⟨v, ?_, hadds.trans hadds'⟩
    rw [List.foldlM_cons, hu]
    exact hv

lemma foldlM_update_of_not_fits {s : SegmentId} {intents : List (SegmentId × Intent)}
    (h : ¬ ∀ e ∈ intents, e.2.guaranteedOutputs.length ≤ 2 ^ 32) (utxos : UnshieldedUtxos) :
    intents.foldlM (fun utxos e =>
      utxos.update s e.2 e.2.guaranteedOutputs e.2.guaranteedInputs) utxos = none :=
  foldlM_eq_none (fun e : SegmentId × Intent => e.2.guaranteedOutputs.length ≤ 2 ^ 32)
    (fun e he u => (update_of_fits e.2 _ u he).imp (fun _ h => h.1))
    (fun e he u => update_of_not_fits e.2 _ u he) h utxos

lemma addSegment_of_fits {tx : StandardTransaction L} {s : SegmentId} (h : tx.SegmentFits s)
    (utxos : UnshieldedUtxos) :
    ∃ utxos', utxos.addSegment tx s = some utxos' ∧
      utxos.Adds s (tx.outputs s) (tx.inputs s) utxos' := by
  rw [addSegment, StandardTransaction.outputs, StandardTransaction.inputs]
  rw [StandardTransaction.SegmentFits] at h
  by_cases hs : s = 0
  · rw [if_pos hs] at h
    rw [if_pos hs, if_pos hs, if_pos hs]
    exact foldlM_update_of_fits h utxos
  · rw [if_neg hs] at h
    rw [if_neg hs, if_neg hs, if_neg hs]
    cases hi : tx.intent s with
    | none => exact ⟨utxos, rfl, Adds.refl utxos s⟩
    | some i => exact update_of_fits i i.fallibleInputs utxos (h i hi)

lemma addSegment_of_not_fits {tx : StandardTransaction L} {s : SegmentId}
    (h : ¬ tx.SegmentFits s) (utxos : UnshieldedUtxos) : utxos.addSegment tx s = none := by
  rw [addSegment]
  rw [StandardTransaction.SegmentFits] at h
  by_cases hs : s = 0
  · rw [if_pos hs] at h ⊢
    exact foldlM_update_of_not_fits h utxos
  · rw [if_neg hs] at h ⊢
    cases hi : tx.intent s with
    | none => exact absurd (by simp [hi]) h
    | some i => exact update_of_not_fits i _ utxos (fun hle => h (by simpa [hi] using hle))

/-- The loop over distinct segments adds to each of them. -/
lemma foldlM_addSegment_of_fits {tx : StandardTransaction L} {ss : List SegmentId}
    (hss : ss.Nodup) (h : ∀ s ∈ ss, tx.SegmentFits s) (utxos : UnshieldedUtxos) :
    ∃ utxos', ss.foldlM (addSegment tx) utxos = some utxos' ∧
      (∀ k, utxos'.outputs.get k =
        if k ∈ ss then utxos.outputs.get k ++ tx.outputs k else utxos.outputs.get k) ∧
      ∀ k, utxos'.inputs.get k =
        if k ∈ ss then utxos.inputs.get k ++ tx.inputs k else utxos.inputs.get k := by
  induction ss generalizing utxos with
  | nil => exact ⟨utxos, rfl, by simp, by simp⟩
  | cons s ss ih =>
    obtain ⟨hs, hss⟩ := List.nodup_cons.1 hss
    obtain ⟨u, hu, hadds⟩ := addSegment_of_fits (h s List.mem_cons_self) utxos
    obtain ⟨v, hv, hO, hI⟩ := ih hss (fun s' hs' => h s' (List.mem_cons_of_mem _ hs')) u
    refine ⟨v, ?_, fun k => ?_, fun k => ?_⟩
    · rw [List.foldlM_cons, hu]
      exact hv
    · rw [hO, hadds.outputs_get]
      -- The segment just added does not come again.
      by_cases hk : k = s
      · simp [hk, hs]
      · simp [hk]
    · rw [hI, hadds.inputs_get]
      by_cases hk : k = s
      · simp [hk, hs]
      · simp [hk]

lemma foldlM_addSegment_of_not_fits {tx : StandardTransaction L} {ss : List SegmentId}
    (h : ¬ ∀ s ∈ ss, tx.SegmentFits s) (utxos : UnshieldedUtxos) :
    ss.foldlM (addSegment tx) utxos = none :=
  foldlM_eq_none tx.SegmentFits (fun _ hs u => (addSegment_of_fits hs u).imp (fun _ h => h.1))
    (fun _ hs u => addSegment_of_not_fits hs u) h utxos

end UnshieldedUtxos

namespace StandardTransaction

/-- **Derivation**: what is derived for a segment is what the segment creates and spends. -/
lemma unshieldedUtxos_get {tx : StandardTransaction L} (h : tx.OutputsFit) (k : SegmentId) :
    (Transaction.standard tx).unshieldedUtxos.outputs.get k = tx.outputs k ∧
      (Transaction.standard tx).unshieldedUtxos.inputs.get k = tx.inputs k := by
  obtain ⟨u, hu, hO, hI⟩ :=
    UnshieldedUtxos.foldlM_addSegment_of_fits tx.segments_nodup h .empty
  rw [Transaction.unshieldedUtxos, hu, Option.getD_some, hO, hI]
  by_cases hk : k ∈ tx.segments
  · rw [if_pos hk, if_pos hk]
    exact ⟨rfl, rfl⟩
  · rw [if_neg hk, if_neg hk, outputs_eq_nil hk, inputs_eq_nil hk]
    exact ⟨rfl, rfl⟩

lemma unshieldedUtxos_of_not_fits {tx : StandardTransaction L} (h : ¬ tx.OutputsFit) :
    (Transaction.standard tx).unshieldedUtxos = .empty := by
  rw [Transaction.unshieldedUtxos, UnshieldedUtxos.foldlM_addSegment_of_not_fits h,
    Option.getD_none]

end StandardTransaction

end MidnightNode.Ledger
