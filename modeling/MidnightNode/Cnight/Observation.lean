/-
# What a call to the data source returns

The truncation loop computes the first groups of the UTXOs it is given, where a group is what
was observed in one transaction.  The rows a call works on are those that the four queries keep;
the rows that their limit cuts off are named as well, and together they are everything in the
range of the call.
-/
import MidnightNode.Lib.Groups
import MidnightNode.Cnight.Follower
import Mathlib.Algebra.Order.Group.Multiset
import Mathlib.Tactic.Abel

namespace MidnightNode.Cnight

open Groups ObservedUtxo

/-! ### The truncation loop -/

/-- The truncation loop before the UTXOs `utxos`: it has included the transactions so far, and
they are fewer than the capacity. -/
structure LoopInv (txCapacity : ℕ) (t : Truncation) (utxos : List ObservedUtxo) : Prop where
  /-- The UTXOs come in the order of their transactions. -/
  sorted : (t.truncatedUtxos ++ utxos).Pairwise (fun u v => u.posKey ≤ v.posKey)
  /-- Every transaction included is counted. -/
  numTxs : t.numTxs = (keys posKey t.truncatedUtxos).card
  /-- The current transaction is that of the last UTXO included. -/
  curTx : t.curTx.map CardanoPosition.key = t.truncatedUtxos.getLast?.map posKey
  /-- The capacity is not reached. -/
  lt : t.numTxs < txCapacity

section Loop

variable {txCapacity : ℕ} {t : Truncation} {utxo : ObservedUtxo} {utxos : List ObservedUtxo}

lemma LoopInv.le_of_mem (h : LoopInv txCapacity t (utxo :: utxos)) {v : ObservedUtxo}
    (hv : v ∈ t.truncatedUtxos) : v.posKey ≤ utxo.posKey :=
  (List.pairwise_append.1 h.sorted).2.2 v hv utxo (by simp)

/-- A UTXO starts a transaction exactly if none of the same transaction is included. -/
lemma LoopInv.all_curTx_iff (h : LoopInv txCapacity t (utxo :: utxos)) :
    t.curTx.all (fun tx => tx < utxo.header.txPosition) = true ↔
      utxo.posKey ∉ keys posKey t.truncatedUtxos := by
  have hsorted := (List.pairwise_append.1 h.sorted).1
  have hcur := h.curTx
  rcases hlast : t.truncatedUtxos.getLast? with _ | last
  · rw [hlast, Option.map_none, Option.map_eq_none_iff] at hcur
    rw [hcur, List.getLast?_eq_none_iff.1 hlast]
    simp
  · rw [hlast, Option.map_some] at hcur
    obtain ⟨tx, htx, hkey⟩ := Option.map_eq_some_iff.1 hcur
    have hmem := List.mem_of_getLast? hlast
    rw [htx, Option.all_some, decide_eq_true_eq, CardanoPosition.lt_iff_key, hkey]
    constructor
    · intro hlt hin
      obtain ⟨v, hv, hvk⟩ := mem_keys.1 hin
      have hle := le_getLast_of_mem hsorted hlast hv
      rw [hvk] at hle
      exact absurd hlt (not_lt.2 hle)
    · intro hnin
      refine lt_of_le_of_ne (h.le_of_mem hmem) (fun heq => hnin ?_)
      exact mem_keys.2 ⟨last, hmem, heq⟩

lemma Truncation.enter_truncatedUtxos (t : Truncation) (utxo : ObservedUtxo) :
    (t.enter utxo).truncatedUtxos = t.truncatedUtxos := by
  rw [Truncation.enter]
  split <;> rfl

lemma LoopInv.enter_numTxs (h : LoopInv txCapacity t (utxo :: utxos)) :
    (t.enter utxo).numTxs = (keys posKey (t.truncatedUtxos ++ [utxo])).card := by
  have hkeys : keys posKey (t.truncatedUtxos ++ [utxo]) =
      insert utxo.posKey (keys posKey t.truncatedUtxos) := by
    rw [keys_append, keys_singleton, Finset.insert_eq, Finset.union_comm]
  rw [Truncation.enter, hkeys]
  split
  · rename_i hnew
    rw [Finset.card_insert_of_notMem (h.all_curTx_iff.1 hnew), ← h.numTxs]
  · rename_i hold
    have hin := not_not.1 (mt h.all_curTx_iff.2 hold)
    rw [Finset.insert_eq_of_mem hin, ← h.numTxs]

lemma LoopInv.enter_curTx (h : LoopInv txCapacity t (utxo :: utxos)) :
    (t.enter utxo).curTx.map CardanoPosition.key = some utxo.posKey := by
  rw [Truncation.enter]
  split
  · rfl
  · rename_i hold
    -- The UTXO belongs to the current transaction, that of the last UTXO included.
    obtain ⟨v, hv, hvk⟩ := mem_keys.1 (not_not.1 (mt h.all_curTx_iff.2 hold))
    obtain ⟨last, hlast⟩ : ∃ last, t.truncatedUtxos.getLast? = some last :=
      ⟨_, List.getLast?_eq_some_getLast (List.ne_nil_of_mem hv)⟩
    have hle := le_getLast_of_mem (List.pairwise_append.1 h.sorted).1 hlast hv
    have hge := h.le_of_mem (List.mem_of_getLast? hlast)
    rw [h.curTx, hlast, Option.map_some, le_antisymm hge (hvk ▸ hle)]

/-- The loop goes on with the invariant, unless the capacity is reached. -/
lemma LoopInv.push (h : LoopInv txCapacity t (utxo :: utxos))
    (hne : (t.enter utxo).numTxs ≠ txCapacity) :
    LoopInv txCapacity
      { t.enter utxo with truncatedUtxos := (t.enter utxo).truncatedUtxos ++ [utxo] } utxos where
  sorted := by
    rw [Truncation.enter_truncatedUtxos, List.append_assoc]
    exact h.sorted
  numTxs := by
    rw [Truncation.enter_truncatedUtxos]
    exact h.enter_numTxs
  curTx := by
    rw [h.enter_curTx, List.getLast?_concat, Option.map_some]
  lt := by
    have hle : (t.enter utxo).numTxs ≤ t.numTxs + 1 := by
      rw [Truncation.enter]
      split <;> simp
    exact lt_of_le_of_ne (le_trans hle h.lt) hne

/-- When the capacity is reached, what was included is the first groups. -/
lemma LoopInv.firstGroups_of_reached (h : LoopInv txCapacity t (utxo :: utxos))
    (hc : (t.enter utxo).numTxs = txCapacity) :
    firstGroups posKey (txCapacity - 1) (t.truncatedUtxos ++ utxo :: utxos) =
      t.truncatedUtxos := by
  have hcard := h.enter_numTxs
  rw [hc, keys_append] at hcard
  have hnin : utxo.posKey ∉ keys posKey t.truncatedUtxos := by
    intro hin
    have hsub : keys posKey [utxo] ⊆ keys posKey t.truncatedUtxos := by
      rwa [keys_singleton, Finset.singleton_subset_iff]
    rw [Finset.union_eq_left.2 hsub, ← h.numTxs] at hcard
    exact absurd h.lt (by omega)
  have hcount : (keys posKey t.truncatedUtxos).card = txCapacity - 1 := by
    rw [keys_singleton, Finset.union_comm, ← Finset.insert_eq,
      Finset.card_insert_of_notMem hnin] at hcard
    omega
  have hrank : rank posKey (t.truncatedUtxos ++ utxo :: utxos) utxo.posKey =
      txCapacity - 1 := by
    rw [rank_of_pairwise h.sorted, Finset.erase_eq_of_notMem hnin, hcount]
  have hleft : ∀ v ∈ t.truncatedUtxos,
      rank posKey (t.truncatedUtxos ++ utxo :: utxos) v.posKey < txCapacity - 1 := by
    intro v hv
    have hlt : v.posKey < utxo.posKey :=
      lt_of_le_of_ne (h.le_of_mem hv) (fun heq => hnin (mem_keys.2 ⟨v, hv, heq⟩))
    rw [← hrank]
    exact rank_lt_rank (mem_keys.2 ⟨v, by simp [hv], rfl⟩) hlt
  have hright : ∀ v ∈ utxo :: utxos,
      ¬ rank posKey (t.truncatedUtxos ++ utxo :: utxos) v.posKey < txCapacity - 1 := by
    intro v hv
    rw [← hrank, not_lt]
    refine rank_mono _ ?_
    rcases List.mem_cons.1 hv with rfl | hv
    · exact le_rfl
    · exact (List.pairwise_cons.1 (List.pairwise_append.1 h.sorted).2.1).1 v hv
  rw [firstGroups, List.filter_append, List.filter_eq_self.2 (by simpa using hleft),
    List.filter_eq_nil_iff.2 (by simpa using hright), List.append_nil]

end Loop

/-- The loop includes the UTXOs of the first `tx_capacity - 1` transactions, and counts the
transactions up to the capacity. -/
lemma truncateLoop_eq {txCapacity : ℕ} (utxos : List ObservedUtxo) {t : Truncation}
    (h : LoopInv txCapacity t utxos) :
    (truncateLoop txCapacity utxos t).truncatedUtxos =
        firstGroups posKey (txCapacity - 1) (t.truncatedUtxos ++ utxos) ∧
      (truncateLoop txCapacity utxos t).numTxs =
        min (keys posKey (t.truncatedUtxos ++ utxos)).card txCapacity := by
  induction utxos generalizing t with
  | nil =>
    have hlt := h.lt
    have hnum := h.numTxs
    rw [truncateLoop, List.append_nil]
    exact ⟨(firstGroups_eq_self (by omega)).symm, by omega⟩
  | cons utxo utxos ih =>
    rw [truncateLoop]
    by_cases hc : (t.enter utxo).numTxs = txCapacity
    · rw [if_pos hc, h.firstGroups_of_reached hc, Truncation.enter_truncatedUtxos, hc]
      refine ⟨rfl, (min_eq_right ?_).symm⟩
      calc txCapacity = (keys posKey (t.truncatedUtxos ++ [utxo])).card := by
            rw [← hc, h.enter_numTxs]
        _ ≤ (keys posKey (t.truncatedUtxos ++ utxo :: utxos)).card := by
            refine Finset.card_le_card (fun k hk => ?_)
            obtain ⟨v, hv, hvk⟩ := mem_keys.1 hk
            refine mem_keys.2 ⟨v, ?_, hvk⟩
            simp only [List.mem_append, List.mem_cons] at hv ⊢
            tauto
    · rw [if_neg hc]
      have happ : t.truncatedUtxos ++ utxo :: utxos =
          ((t.enter utxo).truncatedUtxos ++ [utxo]) ++ utxos := by
        rw [Truncation.enter_truncatedUtxos, List.append_assoc, List.singleton_append]
      rw [happ]
      exact ih (h.push hc)

/-! ### Rows that a call keeps and rows that its limits cut -/

/-- A configuration that the data source accepts. -/
structure Source where
  /-- The serialization library. -/
  lib : SerializationLib
  /-- What is observed. -/
  config : CNightAddresses
  /-- The network of the mapping validator. -/
  network : BitVec 8
  /-- The script hash of the mapping validator. -/
  policyId : Hash28
  /-- They are what the address of the mapping validator says. -/
  valid : mappingValidator lib config = .ok (network, policyId)

/-- A part of a list, whatever it is a list of. -/
abbrev Window : Type 1 := (R : Type) → List R → List R

section Rows

variable {R κ : Type} [LinearOrder κ] {blockNo blockIndex : R → ℕ} {orderBy : R → κ}
  {decode : R → Option ObservedUtxo}

/-- Decoding the rows of a range gives the decoded UTXOs of that range. -/
lemma filterMap_selectRange_perm
    (hdecode : ∀ r u, decode r = some u → u.posKey = toLex (blockNo r, blockIndex r))
    (rows : List R) (start «end» : CardanoPosition) :
    ((selectRange blockNo blockIndex orderBy rows start «end»).filterMap decode).Perm
      (between posKey start.key «end».key (rows.filterMap decode)) := by
  refine ((selectRange_perm _ _ _ rows start «end»).filterMap decode).trans (List.Perm.of_eq ?_)
  rw [between, List.filterMap_filter, List.filter_filterMap]
  refine List.filterMap_congr (fun r _ => ?_)
  have hrange := inRange_iff start «end» (blockNo r) (blockIndex r)
  rcases hd : decode r with _ | u
  · split <;> rfl
  · rw [← hdecode r u hd] at hrange
    by_cases hin : inRange start «end» (blockNo r) (blockIndex r) = true
    · rw [if_pos hin, Option.filter_some_pos (by simpa using hrange.1 hin)]
    · rw [if_neg hin, Option.filter_some_neg (by simpa using mt hrange.2 hin)]

end Rows

namespace Source

variable (S : Source) (db : CardanoDb)

/-- All decodable UTXOs of the history. -/
def utxos : List ObservedUtxo :=
  (db.registrations S.config.mappingValidatorAddress S.policyId
      S.config.authTokenAssetName).filterMap (registrationUtxo S.network) ++
    (db.deregistrations S.config.mappingValidatorAddress).filterMap
      (deregistrationUtxo S.network) ++
    (db.assetCreates S.config.cnightPolicyId S.config.cnightAssetName).filterMap
      (assetCreateUtxo S.lib S.network) ++
    (db.assetSpends S.config.cnightPolicyId S.config.cnightAssetName).filterMap
      (assetSpendUtxo S.lib S.network)

/-- The rows that `get_registrations` selects, before its limit. -/
def registrationRows (start «end» : CardanoPosition) : List RegistrationRow :=
  selectRange RegistrationRow.blockNumber RegistrationRow.txIndexInBlock
    (fun r => toLex (r.blockNumber, r.txIndexInBlock))
    (db.registrations S.config.mappingValidatorAddress S.policyId S.config.authTokenAssetName)
    start «end»

/-- The rows that `get_deregistrations` selects, before its limit. -/
def deregistrationRows (start «end» : CardanoPosition) : List DeregistrationRow :=
  selectRange DeregistrationRow.blockNumber DeregistrationRow.txIndexInBlock
    (fun r => toLex (r.blockNumber, r.txIndexInBlock))
    (db.deregistrations S.config.mappingValidatorAddress) start «end»

/-- The rows that `get_asset_creates` selects, before its limit. -/
def assetCreateRows (start «end» : CardanoPosition) : List AssetCreateRow :=
  selectRange AssetCreateRow.blockNumber AssetCreateRow.txIndexInBlock
    (fun r => toLex (r.blockNumber, toLex (r.txIndexInBlock, r.utxoIndex.toNat)))
    (db.assetCreates S.config.cnightPolicyId S.config.cnightAssetName) start «end»

/-- The rows that `get_asset_spends` selects, before its limit. -/
def assetSpendRows (start «end» : CardanoPosition) : List AssetSpendRow :=
  selectRange AssetSpendRow.blockNumber AssetSpendRow.txIndexInBlock
    (fun r => toLex (r.blockNumber, toLex (r.txIndexInBlock, r.utxoIndex.toNat)))
    (db.assetSpends S.config.cnightPolicyId S.config.cnightAssetName) start «end»

/-- The decodable UTXOs among a part of the rows that each query selects. -/
def windowUtxos (w : Window) (start «end» : CardanoPosition) : List ObservedUtxo :=
  (w _ (S.registrationRows db start «end»)).filterMap (registrationUtxo S.network) ++
    (w _ (S.deregistrationRows db start «end»)).filterMap (deregistrationUtxo S.network) ++
    (w _ (S.assetCreateRows db start «end»)).filterMap (assetCreateUtxo S.lib S.network) ++
    (w _ (S.assetSpendRows db start «end»)).filterMap (assetSpendUtxo S.lib S.network)

/-- The decodable UTXOs that the queries return under the limit of a call. -/
def kept (start «end» : CardanoPosition) (txCapacity : ℕ) : List ObservedUtxo :=
  S.windowUtxos db (fun _ => List.take (utxoCapacity txCapacity)) start «end»

/-- The decodable UTXOs in range that the limit cuts off. -/
def cut (start «end» : CardanoPosition) (txCapacity : ℕ) : List ObservedUtxo :=
  S.windowUtxos db (fun _ => List.drop (utxoCapacity txCapacity)) start «end»

variable {S db}

lemma windowUtxos_all_perm (start «end» : CardanoPosition) :
    (S.windowUtxos db (fun _ l => l) start «end»).Perm
      (between posKey start.key «end».key (S.utxos db)) := by
  rw [utxos, between, List.filter_append, List.filter_append, List.filter_append]
  refine ((List.Perm.append ?_ ?_).append ?_).append ?_
  · exact filterMap_selectRange_perm (fun _ _ h => posKey_registrationUtxo h) _ start «end»
  · exact filterMap_selectRange_perm (fun _ _ h => posKey_deregistrationUtxo h) _ start «end»
  · exact filterMap_selectRange_perm (fun _ _ h => posKey_assetCreateUtxo h) _ start «end»
  · exact filterMap_selectRange_perm (fun _ _ h => posKey_assetSpendUtxo h) _ start «end»

/-- What is kept and what is cut make up the decodable UTXOs in range. -/
lemma kept_append_cut_perm (start «end» : CardanoPosition) (txCapacity : ℕ) :
    (S.kept db start «end» txCapacity ++ S.cut db start «end» txCapacity).Perm
      (between posKey start.key «end».key (S.utxos db)) := by
  refine List.Perm.trans ?_ (windowUtxos_all_perm start «end»)
  have hsplit : ∀ {R : Type} (f : R → Option ObservedUtxo) (l : List R) (n : ℕ),
      ((l.filterMap f : List ObservedUtxo) : Multiset ObservedUtxo) =
        (((l.take n).filterMap f : List ObservedUtxo) : Multiset ObservedUtxo) +
          ((l.drop n).filterMap f : List ObservedUtxo) := by
    intro R f l n
    rw [Multiset.coe_add, ← List.filterMap_append, List.take_append_drop]
  refine Multiset.coe_eq_coe.1 ?_
  simp only [kept, cut, windowUtxos, ← Multiset.coe_add]
  rw [hsplit _ (S.registrationRows db start «end») (utxoCapacity txCapacity),
    hsplit _ (S.deregistrationRows db start «end») (utxoCapacity txCapacity),
    hsplit _ (S.assetCreateRows db start «end») (utxoCapacity txCapacity),
    hsplit _ (S.assetSpendRows db start «end») (utxoCapacity txCapacity)]
  abel

lemma mem_kept {start «end» : CardanoPosition} {txCapacity : ℕ} {u : ObservedUtxo}
    (hu : u ∈ S.kept db start «end» txCapacity) :
    start.key ≤ u.posKey ∧ u.posKey < «end».key := by
  have hmem := (kept_append_cut_perm start «end» txCapacity).mem_iff.1 (List.mem_append_left _ hu)
  exact (mem_between.1 hmem).2

lemma mem_cut {start «end» : CardanoPosition} {txCapacity : ℕ} {u : ObservedUtxo}
    (hu : u ∈ S.cut db start «end» txCapacity) :
    start.key ≤ u.posKey ∧ u.posKey < «end».key := by
  have hmem := (kept_append_cut_perm start «end» txCapacity).mem_iff.1 (List.mem_append_right _ hu)
  exact (mem_between.1 hmem).2

/-! ### The result of a call -/

variable (S db) in
/-- The UTXOs that the truncation loop runs over. -/
def ordered (start «end» : CardanoPosition) (txCapacity : ℕ) : List ObservedUtxo :=
  (S.kept db start «end» txCapacity).insertionSort Le

lemma ordered_perm (start «end» : CardanoPosition) (txCapacity : ℕ) :
    (S.ordered db start «end» txCapacity).Perm (S.kept db start «end» txCapacity) :=
  List.perm_insertionSort _ _

lemma ordered_pairwise (start «end» : CardanoPosition) (txCapacity : ℕ) :
    (S.ordered db start «end» txCapacity).Pairwise Le :=
  List.pairwise_insertionSort _ _

lemma ordered_pairwise_posKey (start «end» : CardanoPosition) (txCapacity : ℕ) :
    (S.ordered db start «end» txCapacity).Pairwise (fun u v => u.posKey ≤ v.posKey) :=
  (ordered_pairwise start «end» txCapacity).imp posKey_le_of_le

/-- A call returns unless an assertion on its capacity fails. -/
lemma getUtxosUpToCapacity_eq {start «end» : CardanoPosition} {tip : McBlockHash}
    {txCapacity : ℕ} (hend : tipEnd db tip = .ok «end») :
    getUtxosUpToCapacity S.lib db S.config start tip txCapacity =
      if utxoCapacity txCapacity < i32Max then
        .ok (truncateUtxos start «end» txCapacity (S.ordered db start «end» txCapacity))
      else .error (.assertionFailed "limit < i32::MAX as usize") := by
  rw [getUtxosUpToCapacity, S.valid, hend]
  by_cases hlt : utxoCapacity txCapacity < i32Max
  · rw [if_pos hlt]
    simp only [getRegistrationUtxos, getRegistrations, getDeregistrationUtxos,
      getDeregistrations, getAssetCreateUtxos, getAssetCreates, getAssetSpendUtxos,
      getAssetSpends, rangeQuery_zero _ _ _ hlt]
    rfl
  · rw [if_neg hlt]
    simp only [getRegistrationUtxos, getRegistrations, rangeQuery_of_not_lt _ _ _ hlt]
    rfl

variable (S db) in
/-- What a call with a positive capacity returns. -/
structure Returned (start «end» : CardanoPosition) (txCapacity : ℕ) (r : ObservedUtxos) :
    Prop where
  /-- It names the position it started from. -/
  start_eq : r.start = start
  /-- It returns the transactions below its capacity. -/
  utxos_eq : r.utxos =
    firstGroups posKey (txCapacity - 1) (S.ordered db start «end» txCapacity)
  /-- It resumes after the tip, or after what it returns if the capacity was reached. -/
  end_eq : r.end =
    if (keys posKey (S.kept db start «end» txCapacity)).card < txCapacity then «end»
    else ((r.utxos.getLast?.map (fun u => u.header.txPosition)).getD start).increment

variable {start «end» : CardanoPosition} {tip : McBlockHash} {txCapacity : ℕ} {r : ObservedUtxos}

lemma returned_truncateUtxos (hc : 0 < txCapacity) :
    S.Returned db start «end» txCapacity
      (truncateUtxos start «end» txCapacity (S.ordered db start «end» txCapacity)) := by
  have hinv : LoopInv txCapacity ⟨[], 0, none⟩ (S.ordered db start «end» txCapacity) :=
    ⟨ordered_pairwise_posKey _ _ _, rfl, rfl, hc⟩
  obtain ⟨hutxos, hnum⟩ := truncateLoop_eq _ hinv
  rw [List.nil_append] at hutxos hnum
  rw [keys_congr (ordered_perm _ _ _)] at hnum
  have hiff : (truncateLoop txCapacity (S.ordered db start «end» txCapacity)
        ⟨[], 0, none⟩).numTxs < txCapacity ↔
      (keys posKey (S.kept db start «end» txCapacity)).card < txCapacity := by
    omega
  refine ⟨?_, ?_, ?_⟩
  · rw [truncateUtxos]
    split <;> rfl
  · rw [truncateUtxos]
    split <;> exact hutxos
  · rw [truncateUtxos]
    split
    · rename_i h
      rw [if_pos (hiff.1 h)]
    · rename_i h
      rw [if_neg (mt hiff.2 h)]

lemma returned_of_ok (hc : 0 < txCapacity) (hend : tipEnd db tip = .ok «end»)
    (hr : getUtxosUpToCapacity S.lib db S.config start tip txCapacity = .ok r) :
    utxoCapacity txCapacity < i32Max ∧ S.Returned db start «end» txCapacity r := by
  rw [getUtxosUpToCapacity_eq hend] at hr
  split at hr
  · rename_i hlt
    rw [← Except.ok.inj hr]
    exact ⟨hlt, returned_truncateUtxos hc⟩
  · exact absurd hr (by simp)

namespace Returned

lemma pairwise (h : S.Returned db start «end» txCapacity r) : r.utxos.Pairwise Le := by
  rw [h.utxos_eq]
  exact (ordered_pairwise _ _ _).sublist (firstGroups_sublist _ _)

lemma mem_utxos (h : S.Returned db start «end» txCapacity r) {u : ObservedUtxo}
    (hu : u ∈ r.utxos) : u ∈ S.kept db start «end» txCapacity := by
  rw [h.utxos_eq, mem_firstGroups] at hu
  exact (ordered_perm _ _ _).mem_iff.1 hu.1

/-- Either all transactions in range were returned, or the call resumes after the last one
returned. -/
lemma cases (h : S.Returned db start «end» txCapacity r) (hc : 2 ≤ txCapacity) :
    ((keys posKey (S.kept db start «end» txCapacity)).card < txCapacity ∧ r.end = «end» ∧
        r.utxos = S.ordered db start «end» txCapacity) ∨
      (txCapacity ≤ (keys posKey (S.kept db start «end» txCapacity)).card ∧
        ∃ last, r.utxos.getLast? = some last ∧ r.end = last.header.txPosition.increment) := by
  have hcard : (keys posKey (S.ordered db start «end» txCapacity)).card =
      (keys posKey (S.kept db start «end» txCapacity)).card := by
    rw [keys_congr (ordered_perm _ _ _)]
  by_cases hlt : (keys posKey (S.kept db start «end» txCapacity)).card < txCapacity
  · refine Or.inl ⟨hlt, ?_, ?_⟩
    · rw [h.end_eq, if_pos hlt]
    · rw [h.utxos_eq]
      exact firstGroups_eq_self (by omega)
  · have hne : S.ordered db start «end» txCapacity ≠ [] := by
      intro hnil
      rw [hnil, keys_nil, Finset.card_empty] at hcard
      omega
    have hutxos : r.utxos ≠ [] := by
      rw [h.utxos_eq]
      exact firstGroups_ne_nil (by omega) hne
    refine Or.inr ⟨not_lt.1 hlt, _, List.getLast?_eq_some_getLast hutxos, ?_⟩
    rw [h.end_eq, if_neg hlt, List.getLast?_eq_some_getLast hutxos]
    rfl

lemma end_le (h : S.Returned db start «end» txCapacity r) (hc : 2 ≤ txCapacity) :
    r.end.key ≤ «end».key := by
  rcases h.cases hc with ⟨-, hend, -⟩ | ⟨-, last, hlast, hend⟩
  · rw [hend]
  · rw [hend, CardanoPosition.key_increment_le]
    exact (mem_kept (h.mem_utxos (List.mem_of_getLast? hlast))).2

lemma start_le (h : S.Returned db start «end» txCapacity r) (hc : 2 ≤ txCapacity)
    (hse : start.key ≤ «end».key) : start.key ≤ r.end.key := by
  rcases h.cases hc with ⟨-, hend, -⟩ | ⟨-, last, hlast, hend⟩
  · rw [hend]
    exact hse
  · rw [hend]
    refine le_trans (mem_kept (h.mem_utxos (List.mem_of_getLast? hlast))).1 (le_of_lt ?_)
    exact (CardanoPosition.lt_key_increment _ _).2 le_rfl

/-- A call returns what it kept before the position it resumes from. -/
lemma perm_filter (h : S.Returned db start «end» txCapacity r) (hc : 2 ≤ txCapacity) :
    r.utxos.Perm
      ((S.kept db start «end» txCapacity).filter (fun u => u.posKey < r.end.key)) := by
  rcases h.cases hc with ⟨-, hend, hutxos⟩ | ⟨-, last, hlast, hend⟩
  · rw [hutxos, hend, List.filter_eq_self.2]
    · exact ordered_perm _ _ _
    · exact fun u hu => by simpa using (mem_kept hu).2
  · have hlast' := hlast
    rw [h.utxos_eq] at hlast'
    rw [h.utxos_eq, firstGroups_eq_filter_le (ordered_pairwise_posKey _ _ _) hlast', hend]
    refine ((ordered_perm _ _ _).filter _).trans (List.Perm.of_eq (List.filter_congr ?_))
    intro u _
    rw [decide_eq_decide, CardanoPosition.lt_key_increment]
    exact Iff.rfl

/-- A position in range is left to the next call exactly if the capacity was reached by the
transactions kept, all but one of them before that position. -/
lemma end_le_iff (h : S.Returned db start «end» txCapacity r) (hc : 2 ≤ txCapacity)
    {k : ℕ ×ₗ ℕ} (hk : k < «end».key) :
    r.end.key ≤ k ↔
      txCapacity ≤ (keys posKey (S.kept db start «end» txCapacity)).card ∧
        txCapacity - 1 ≤ rank posKey (S.kept db start «end» txCapacity) k := by
  rcases h.cases hc with ⟨hlt, hend, -⟩ | ⟨hge, last, hlast, hend⟩
  · rw [hend]
    exact ⟨fun hle => absurd hk (not_lt.2 hle), fun hge => absurd hge.1 (not_le.2 hlt)⟩
  · rw [h.utxos_eq] at hlast
    have hcard : txCapacity - 1 ≤ (keys posKey (S.ordered db start «end» txCapacity)).card := by
      rw [keys_congr (ordered_perm _ _ _)]
      omega
    rw [hend, CardanoPosition.key_increment_le, ← rank_congr (ordered_perm _ _ _),
      le_rank_iff (ordered_pairwise_posKey _ _ _) hcard hlast]
    exact ⟨fun hlt => ⟨hge, hlt⟩, fun hlt => hlt.2⟩

end Returned

end Source

end MidnightNode.Cnight
