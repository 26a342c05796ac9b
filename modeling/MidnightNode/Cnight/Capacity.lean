/-
# Nothing is lost between two calls

A call is exact if it returns the decodable UTXOs from its start up to the position it resumes
from, in order.  The limit of a query may cut off rows before that position, and then they are
never observed.  This file says when that happens, for a single call and for calls chained one
after the other.
-/
import MidnightNode.Cnight.Observation

namespace MidnightNode.Cnight

open Groups ObservedUtxo

namespace Source

variable (S : Source) (db : CardanoDb)

/-- The call returned exactly the decodable UTXOs of its range, in order. -/
def Exact (r : ObservedUtxos) : Prop :=
  Lists Le r.utxos (between posKey r.start.key r.end.key (S.utxos db))

/-- Every decodable UTXO that a limit cuts off lies behind so many transactions that are kept
that the capacity stops the call before it. -/
def LimitsHarmless (start «end» : CardanoPosition) (txCapacity : ℕ) : Prop :=
  ∀ u ∈ S.cut db start «end» txCapacity,
    txCapacity ≤ (keys posKey (S.kept db start «end» txCapacity)).card ∧
      txCapacity - 1 ≤ rank posKey (S.kept db start «end» txCapacity) u.posKey

variable {S db}
variable {start «end» : CardanoPosition} {tip : McBlockHash} {txCapacity : ℕ} {r : ObservedUtxos}

lemma limitsHarmless_of_cut_eq_nil (h : S.cut db start «end» txCapacity = []) :
    S.LimitsHarmless db start «end» txCapacity := by
  intro u hu
  rw [h] at hu
  exact absurd hu (by simp)

/-! ### One call -/

namespace Returned

/-- What lies before the position a call resumes from: what it kept there, and what was cut. -/
lemma between_perm (h : S.Returned db start «end» txCapacity r) (hc : 2 ≤ txCapacity) :
    (between posKey start.key r.end.key (S.utxos db)).Perm
      ((S.kept db start «end» txCapacity).filter (fun u => u.posKey < r.end.key) ++
        (S.cut db start «end» txCapacity).filter (fun u => u.posKey < r.end.key)) := by
  rw [← filter_lt_between _ (h.end_le hc), ← List.filter_append]
  exact ((kept_append_cut_perm start «end» txCapacity).filter _).symm

lemma subperm (h : S.Returned db start «end» txCapacity r) (hc : 2 ≤ txCapacity) :
    r.utxos.Subperm (between posKey start.key r.end.key (S.utxos db)) := by
  refine (h.perm_filter hc).subperm.trans (List.Subperm.trans ?_ (h.between_perm hc).symm.subperm)
  exact (List.sublist_append_left _ _).subperm

/-- A call loses nothing exactly if the limits do no harm. -/
lemma perm_iff (h : S.Returned db start «end» txCapacity r) (hc : 2 ≤ txCapacity) :
    r.utxos.Perm (between posKey start.key r.end.key (S.utxos db)) ↔
      S.LimitsHarmless db start «end» txCapacity := by
  have hnil : r.utxos.Perm (between posKey start.key r.end.key (S.utxos db)) ↔
      (S.cut db start «end» txCapacity).filter (fun u => u.posKey < r.end.key) = [] := by
    constructor
    · intro hp
      have hlen := hp.length_eq
      rw [(h.perm_filter hc).length_eq, (h.between_perm hc).length_eq, List.length_append] at hlen
      exact List.length_eq_zero_iff.1 (by omega)
    · intro hempty
      have hb := h.between_perm hc
      rw [hempty, List.append_nil] at hb
      exact (h.perm_filter hc).trans hb.symm
  rw [hnil, List.filter_eq_nil_iff]
  refine forall₂_congr (fun u hu => ?_)
  rw [decide_eq_true_eq, not_lt, h.end_le_iff hc (mem_cut hu).2]

lemma exact_iff (h : S.Returned db start «end» txCapacity r) (hc : 2 ≤ txCapacity) :
    S.Exact db r ↔ S.LimitsHarmless db start «end» txCapacity := by
  rw [← h.perm_iff hc, Exact, h.start_eq]
  exact ⟨fun hl => hl.perm, fun hp => ⟨hp, h.pairwise⟩⟩

end Returned

lemma tipEnd_of_block {b : Block} (hb : getBlockByHash db tip = some b) :
    tipEnd db tip = .ok b.toPosition.increment := by
  rw [tipEnd, hb]

/-- A call returns, and returns exactly its range, if and only if its capacity passes the
assertions of the queries and their limits do no harm. -/
lemma call_exact_iff (hc : 2 ≤ txCapacity) (hend : tipEnd db tip = .ok «end») :
    (∃ r, getUtxosUpToCapacity S.lib db S.config start tip txCapacity = .ok r ∧
        r.start = start ∧ S.Exact db r) ↔
      utxoCapacity txCapacity < i32Max ∧ S.LimitsHarmless db start «end» txCapacity := by
  constructor
  · rintro ⟨r, hr, -, hexact⟩
    obtain ⟨hlt, hret⟩ := returned_of_ok (by omega) hend hr
    exact ⟨hlt, (hret.exact_iff hc).1 hexact⟩
  · rintro ⟨hlt, hharm⟩
    have hret : S.Returned db start «end» txCapacity
        (truncateUtxos start «end» txCapacity (S.ordered db start «end» txCapacity)) :=
      returned_truncateUtxos (by omega)
    refine ⟨_, ?_, hret.start_eq, (hret.exact_iff hc).2 hharm⟩
    rw [getUtxosUpToCapacity_eq hend, if_pos hlt]

/-! ### Chained calls -/

variable (S) in
/-- Two databases hold the same rows, in whatever order. -/
structure SameRows (db db' : CardanoDb) : Prop where
  registrations : (db.registrations S.config.mappingValidatorAddress S.policyId
    S.config.authTokenAssetName).Perm
      (db'.registrations S.config.mappingValidatorAddress S.policyId S.config.authTokenAssetName)
  deregistrations : (db.deregistrations S.config.mappingValidatorAddress).Perm
    (db'.deregistrations S.config.mappingValidatorAddress)
  assetCreates : (db.assetCreates S.config.cnightPolicyId S.config.cnightAssetName).Perm
    (db'.assetCreates S.config.cnightPolicyId S.config.cnightAssetName)
  assetSpends : (db.assetSpends S.config.cnightPolicyId S.config.cnightAssetName).Perm
    (db'.assetSpends S.config.cnightPolicyId S.config.cnightAssetName)

lemma SameRows.between_perm {db' : CardanoDb} (h : S.SameRows db db') (a b : ℕ ×ₗ ℕ) :
    (between posKey a b (S.utxos db')).Perm (between posKey a b (S.utxos db)) := by
  refine List.Perm.filter _ (((List.Perm.append ?_ ?_).append ?_).append ?_)
  · exact (h.registrations.filterMap _).symm
  · exact (h.deregistrations.filterMap _).symm
  · exact (h.assetCreates.filterMap _).symm
  · exact (h.assetSpends.filterMap _).symm

end Source

/-- A call of the data source, with what it returned. -/
structure Call where
  /-- The database at the time of the call. -/
  db : CardanoDb
  /-- The tip the call is made for. -/
  tip : McBlockHash
  /-- The position after the tip. -/
  tipEnd : CardanoPosition
  /-- The capacity in transactions. -/
  txCapacity : ℕ
  /-- What the call returned. -/
  result : ObservedUtxos

namespace Source

variable {S : Source} {db : CardanoDb}

variable (S db) in
/-- Calls on one history, each with a capacity of at least two, starting where the call before
it ended and at a tip that is not before the earlier ones. -/
def Chained : CardanoPosition → CardanoPosition → List Call → Prop
  | _, _, [] => True
  | start, earlierTip, call :: calls =>
    2 ≤ call.txCapacity ∧ S.SameRows db call.db ∧
      Cnight.tipEnd call.db call.tip = .ok call.tipEnd ∧ earlierTip ≤ call.tipEnd ∧
      getUtxosUpToCapacity S.lib call.db S.config start call.tip call.txCapacity =
        .ok call.result ∧
      Chained call.result.end call.tipEnd calls

/-- Where a chain of calls ends. -/
def lastEnd : CardanoPosition → List Call → CardanoPosition
  | start, [] => start
  | _, call :: calls => lastEnd call.result.end calls

/-- What a chain of calls returned, and what it lost: nothing exactly if no limit did harm. -/
structure ChainSpec (S : Source) (db : CardanoDb) (start : CardanoPosition)
    (calls : List Call) : Prop where
  /-- The calls move on. -/
  le : start.key ≤ (lastEnd start calls).key
  /-- Nothing is invented or returned twice. -/
  subperm : (calls.flatMap (fun call => call.result.utxos)).Subperm
    (between posKey start.key (lastEnd start calls).key (S.utxos db))
  /-- The results come in order. -/
  pairwise : (calls.flatMap (fun call => call.result.utxos)).Pairwise Le
  /-- Nothing is lost exactly if the limits do no harm. -/
  perm_iff : (calls.flatMap (fun call => call.result.utxos)).Perm
      (between posKey start.key (lastEnd start calls).key (S.utxos db)) ↔
    ∀ call ∈ calls, S.LimitsHarmless call.db call.result.start call.tipEnd call.txCapacity

lemma chainSpec_nil (start : CardanoPosition) : ChainSpec S db start [] := by
  have hempty : between posKey start.key start.key (S.utxos db) = [] :=
    List.filter_eq_nil_iff.2 (fun u _ => by simp)
  refine ⟨le_rfl, by simp, by simp, ?_⟩
  rw [lastEnd, hempty]
  simp

/-- One more call in front of a chain. -/
lemma ChainSpec.cons {start earlierTip : CardanoPosition} {call : Call} {calls : List Call}
    (hle : start.key ≤ earlierTip.key) (h : S.Chained db start earlierTip (call :: calls))
    (ih : ChainSpec S db call.result.end calls) : ChainSpec S db start (call :: calls) := by
  obtain ⟨hc, hrows, htip, hearlier, hr, -⟩ := h
  have hret := (returned_of_ok (by omega) htip hr).2
  have hstart : start.key ≤ call.result.end.key :=
    hret.start_le hc (le_trans hle ((CardanoPosition.le_iff_key _ _).1 hearlier))
  have hsub := (hret.subperm hc).trans (hrows.between_perm _ _).subperm
  have hsplit : (between posKey start.key call.result.end.key (S.utxos db) ++
      between posKey call.result.end.key (lastEnd call.result.end calls).key (S.utxos db)).Perm
        (between posKey start.key (lastEnd call.result.end calls).key (S.utxos db)) :=
    between_append_between _ hstart ih.le
  have hiff : call.result.utxos.Perm
      (between posKey start.key call.result.end.key (S.utxos db)) ↔
        S.LimitsHarmless call.db call.result.start call.tipEnd call.txCapacity := by
    rw [hret.start_eq, ← hret.perm_iff hc]
    exact ⟨fun hp => hp.trans (hrows.between_perm _ _).symm,
      fun hp => hp.trans (hrows.between_perm _ _)⟩
  refine ⟨le_trans hstart ih.le, ?_, ?_, ?_⟩
  · rw [List.flatMap_cons]
    exact (hsub.append ih.subperm).trans hsplit.subperm
  · rw [List.flatMap_cons]
    refine List.pairwise_append.2 ⟨hret.pairwise, ih.pairwise, fun u hu v hv => ?_⟩
    have hu' := (mem_between.1 (hsub.subset hu)).2.2
    have hv' := (mem_between.1 (ih.subperm.subset hv)).2.1
    exact le_of_posKey_lt (lt_of_lt_of_le hu' hv')
  · rw [List.flatMap_cons, lastEnd, List.forall_mem_cons, ← hiff, ← ih.perm_iff,
      ← append_perm_append_iff hsub ih.subperm]
    exact ⟨fun hp => hp.trans hsplit.symm, fun hp => hp.trans hsplit⟩

lemma Chained.spec {calls : List Call} : ∀ {start earlierTip : CardanoPosition},
    start.key ≤ earlierTip.key → S.Chained db start earlierTip calls →
      ChainSpec S db start calls := by
  induction calls with
  | nil => exact fun _ _ => chainSpec_nil _
  | cons call calls ih =>
    intro start earlierTip hle h
    refine ChainSpec.cons hle h ?_
    obtain ⟨hc, -, htip, -, hr, hcalls⟩ := h
    exact ih ((returned_of_ok (by omega) htip hr).2.end_le hc) hcalls

/-- **When observing in portions loses nothing.**  A call with a capacity of at least two
returns exactly the decodable UTXOs from its start up to its end if and only if the assertions
of the queries hold and no limit cuts off a UTXO that the capacity does not leave to the next
call.  Chained calls return exactly the decodable UTXOs between the first start and the last
end if and only if this holds of the limits in each of them. -/
theorem observation_exact_iff (S : Source) :
    (∀ (db : CardanoDb) (start : CardanoPosition) (tip : McBlockHash) (b : Block)
      (txCapacity : ℕ), getBlockByHash db tip = some b → 2 ≤ txCapacity →
      ((∃ r, getUtxosUpToCapacity S.lib db S.config start tip txCapacity = .ok r ∧
          r.start = start ∧ S.Exact db r) ↔
        utxoCapacity txCapacity < i32Max ∧
          S.LimitsHarmless db start b.toPosition.increment txCapacity)) ∧
    (∀ (db : CardanoDb) (start : CardanoPosition) (calls : List Call),
      S.Chained db start start calls →
      (Lists Le (calls.flatMap (fun call => call.result.utxos))
          (between posKey start.key (lastEnd start calls).key (S.utxos db)) ↔
        ∀ call ∈ calls,
          S.LimitsHarmless call.db call.result.start call.tipEnd call.txCapacity)) := by
  refine ⟨fun db start tip b txCapacity hb hc => call_exact_iff hc (tipEnd_of_block hb), ?_⟩
  intro db start calls hcalls
  have hspec := hcalls.spec le_rfl
  rw [← hspec.perm_iff]
  exact ⟨fun hl => hl.perm, fun hp => ⟨hp, hspec.pairwise⟩⟩

end Source

/-! ### A history that overflows a query -/

/-- Two readable addresses: one with a stake credential and one without. -/
def demoLib : SerializationLib where
  fromBech32 := fun s =>
    if s = "addr1validator" then .ok (.enterprise 1 (.scriptHash 0))
    else if s = "addr1holder" then .ok (.base 1 (.keyHash 1) (.keyHash 2))
    else .error "invalid bech32"

/-- An accepted configuration. -/
def demoSource : Source where
  lib := demoLib
  config := ⟨"addr1validator", "auth", 3, "NIGHT"⟩
  network := 1
  policyId := 0
  valid := by decide

/-- New cNIGHT in transaction `i` of block `1`. -/
def demoCreate (holderAddress : String) (i : ℕ) : AssetCreateRow :=
  ⟨1, 7, 1000, i, 5, holderAddress, BitVec.ofNat 256 i, 0⟩

/-- A history of new cNIGHT in block `1`. -/
def demoDb (creates : List AssetCreateRow) : CardanoDb where
  blocks := [⟨1, 7, 1000, 200⟩]
  registrations := fun _ _ _ => []
  deregistrations := fun _ => []
  assetCreates := fun _ _ => creates
  assetSpends := fun _ _ => []

/-- The position after the tip, block `1`. -/
def demoEnd : CardanoPosition := ⟨7, 1, 1000, 201⟩

/-- Three transactions to a holder. -/
def threeCreatesDb : CardanoDb :=
  demoDb ((List.range 3).map (demoCreate "addr1holder"))

/-- A call on the three transactions, with what it returns. -/
def demoCall (start : CardanoPosition) (txCapacity : ℕ) : Call :=
  ⟨threeCreatesDb, 7, demoEnd, txCapacity,
    truncateUtxos start demoEnd txCapacity
      (demoSource.ordered threeCreatesDb start demoEnd txCapacity)⟩

lemma demoCall_ok (start : CardanoPosition) {txCapacity : ℕ}
    (h : utxoCapacity txCapacity < i32Max) :
    getUtxosUpToCapacity demoSource.lib threeCreatesDb demoSource.config start 7 txCapacity =
      .ok (demoCall start txCapacity).result := by
  have hend : tipEnd threeCreatesDb 7 = .ok demoEnd := by decide
  rw [Source.getUtxosUpToCapacity_eq hend, if_pos h]
  rfl

theorem observation_exact_three_creates :
    (∃ r, getUtxosUpToCapacity demoSource.lib threeCreatesDb demoSource.config firstPosition 7 2 =
        .ok r ∧ r.start = firstPosition ∧ demoSource.Exact threeCreatesDb r) ∧
      demoSource.Chained threeCreatesDb firstPosition firstPosition
        [demoCall firstPosition 2, demoCall ⟨7, 1, 1000, 1⟩ 5] ∧
      Lists Le ((demoCall firstPosition 2).result.utxos ++
          (demoCall ⟨7, 1, 1000, 1⟩ 5).result.utxos)
        (between posKey firstPosition.key demoEnd.key (demoSource.utxos threeCreatesDb)) := by
  have hrows : demoSource.SameRows threeCreatesDb threeCreatesDb :=
    ⟨List.Perm.refl _, List.Perm.refl _, List.Perm.refl _, List.Perm.refl _⟩
  have hend : tipEnd threeCreatesDb 7 = .ok demoEnd := by decide
  have hfirst : (demoCall firstPosition 2).result.end = ⟨7, 1, 1000, 1⟩ := by decide +kernel
  have hchain : demoSource.Chained threeCreatesDb firstPosition firstPosition
      [demoCall firstPosition 2, demoCall ⟨7, 1, 1000, 1⟩ 5] := by
    refine ⟨by decide, hrows, hend, by decide, demoCall_ok _ (by decide), ?_⟩
    rw [hfirst]
    exact ⟨by decide, hrows, hend, by decide, demoCall_ok _ (by decide), trivial⟩
  have hcut : demoSource.cut threeCreatesDb firstPosition demoEnd 2 = [] := by decide +kernel
  have hcut' : demoSource.cut threeCreatesDb ⟨7, 1, 1000, 1⟩ demoEnd 5 = [] := by decide +kernel
  refine ⟨?_, hchain, ?_⟩
  · exact ((Source.observation_exact_iff demoSource).1 threeCreatesDb firstPosition 7
      ⟨1, 7, 1000, 200⟩ 2 rfl le_rfl).2 ⟨by decide, Source.limitsHarmless_of_cut_eq_nil hcut⟩
  · have hlists := ((Source.observation_exact_iff demoSource).2 threeCreatesDb firstPosition _
      hchain).2 (by
        simp only [List.forall_mem_cons]
        exact ⟨Source.limitsHarmless_of_cut_eq_nil hcut,
          Source.limitsHarmless_of_cut_eq_nil hcut', by simp⟩)
    have hlast : Source.lastEnd firstPosition
        [demoCall firstPosition 2, demoCall ⟨7, 1, 1000, 1⟩ 5] = demoEnd := by decide +kernel
    rw [hlast] at hlists
    simpa using hlists

/-- 128 transactions to an unreadable address, and then one to a holder. -/
def overflowingDb : CardanoDb :=
  demoDb ((List.range 128).map (demoCreate "addr1unreadable") ++ [demoCreate "addr1holder" 128])

/-- The UTXO of the last transaction. -/
def lostUtxo : ObservedUtxo :=
  ⟨⟨⟨7, 1, 1000, 128⟩, 128, 128, 0⟩,
    .assetCreate ⟨5, rewardAddressBytes 1 (.keyHash 2), 128, 0⟩⟩

theorem observation_loses_utxo :
    getUtxosUpToCapacity demoSource.lib overflowingDb demoSource.config firstPosition 7 2 =
        .ok ⟨firstPosition, demoEnd, []⟩ ∧
      lostUtxo ∈ between posKey firstPosition.key demoEnd.key (demoSource.utxos overflowingDb) ∧
      ¬ demoSource.Exact overflowingDb ⟨firstPosition, demoEnd, []⟩ := by
  have hend : tipEnd overflowingDb 7 = .ok demoEnd := by decide
  have hkept : demoSource.ordered overflowingDb firstPosition demoEnd 2 = [] := by decide +kernel
  have hall : demoSource.utxos overflowingDb = [lostUtxo] := by decide +kernel
  have hmem : lostUtxo ∈
      between posKey firstPosition.key demoEnd.key (demoSource.utxos overflowingDb) := by
    rw [hall]
    decide
  refine ⟨?_, hmem, fun hexact => ?_⟩
  · rw [Source.getUtxosUpToCapacity_eq hend, if_pos (by decide), hkept]
    rfl
  · exact absurd (hexact.perm.mem_iff.2 hmem) (by simp)

end MidnightNode.Cnight
