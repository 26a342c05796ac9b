/-
# Catching up with the tip

Calls that start where the one before ended reach the tip: each call that stops short of it
returns whole transactions, at least one, so that fewer are left for the next.  The limits of
the queries are assumed not to bind.
-/
import MidnightNode.Cnight.Capacity

namespace MidnightNode.Cnight

open Groups ObservedUtxo

namespace Source

variable (S : Source) (db : CardanoDb)

/-- No limit binds: each query of a call returns all the rows in range. -/
structure NoLimitBinds (start «end» : CardanoPosition) (txCapacity : ℕ) : Prop where
  registrations : getRegistrations db S.config.mappingValidatorAddress S.policyId
    S.config.authTokenAssetName start «end» (utxoCapacity txCapacity) 0 =
      .ok (S.registrationRows db start «end»)
  deregistrations : getDeregistrations db S.config.mappingValidatorAddress start «end»
    (utxoCapacity txCapacity) 0 = .ok (S.deregistrationRows db start «end»)
  assetCreates : getAssetCreates db S.config.cnightPolicyId S.config.cnightAssetName start «end»
    (utxoCapacity txCapacity) 0 = .ok (S.assetCreateRows db start «end»)
  assetSpends : getAssetSpends db S.config.cnightPolicyId S.config.cnightAssetName start «end»
    (utxoCapacity txCapacity) 0 = .ok (S.assetSpendRows db start «end»)

/-- Calls one after the other, each starting where the one before ended. -/
def catchUp (tip : McBlockHash) (txCapacity : ℕ) :
    ℕ → CardanoPosition → Except DataSourceError (List ObservedUtxos)
  | 0, _ => .ok []
  | n + 1, start => do
    let r ← getUtxosUpToCapacity S.lib db S.config start tip txCapacity
    let rs ← catchUp tip txCapacity n r.end
    return r :: rs

/-- The number of transactions with a decodable UTXO in a range. -/
def numTxs (start «end» : CardanoPosition) : ℕ :=
  (keys posKey (between posKey start.key «end».key (S.utxos db))).card

variable {S db}
variable {start «end» : CardanoPosition} {tip : McBlockHash} {txCapacity : ℕ} {r : ObservedUtxos}

/-! ### Limits that do not bind -/

section Window

variable {R κ : Type} [LinearOrder κ] {blockNo blockIndex : R → ℕ} {orderBy : R → κ}
  {rows : List R} {limit : ℕ}

/-- A query that returned all rows in range passed its assertions, and its limit is no smaller
than their number. -/
lemma le_of_rangeQuery_eq (h : rangeQuery blockNo blockIndex orderBy rows start «end» limit 0 =
      .ok (selectRange blockNo blockIndex orderBy rows start «end»)) :
    limit < i32Max ∧
      (selectRange blockNo blockIndex orderBy rows start «end»).length ≤ limit := by
  by_cases hlt : limit < i32Max
  · rw [rangeQuery_zero _ _ _ hlt] at h
    exact ⟨hlt, List.take_eq_self_iff _ |>.1 (Except.ok.inj h)⟩
  · rw [rangeQuery_of_not_lt _ _ _ hlt] at h
    exact absurd h (by simp)

/-- Fewer rows lie in a later range. -/
lemma length_selectRange_le {start' : CardanoPosition} (hle : start.key ≤ start'.key) :
    (selectRange blockNo blockIndex orderBy rows start' «end»).length ≤
      (selectRange blockNo blockIndex orderBy rows start «end»).length := by
  rw [(selectRange_perm _ _ _ _ _ _).length_eq, (selectRange_perm _ _ _ _ _ _).length_eq]
  refine (List.monotone_filter_right _ (fun r hr => ?_)).length_le
  rw [inRange_iff] at hr ⊢
  exact ⟨le_trans hle hr.1, hr.2⟩

lemma drop_selectRange_eq_nil {start' : CardanoPosition} (hle : start.key ≤ start'.key)
    (h : rangeQuery blockNo blockIndex orderBy rows start «end» limit 0 =
      .ok (selectRange blockNo blockIndex orderBy rows start «end»)) :
    (selectRange blockNo blockIndex orderBy rows start' «end»).drop limit = [] :=
  List.drop_eq_nil_of_le (le_trans (length_selectRange_le hle) (le_of_rangeQuery_eq h).2)

end Window

namespace NoLimitBinds

lemma utxoCapacity_lt (h : S.NoLimitBinds db start «end» txCapacity) :
    utxoCapacity txCapacity < i32Max :=
  (le_of_rangeQuery_eq h.registrations).1

/-- Where no limit binds, nothing is cut off by any call from a later position. -/
lemma cut_eq_nil (h : S.NoLimitBinds db start «end» txCapacity) {start' : CardanoPosition}
    (hle : start.key ≤ start'.key) : S.cut db start' «end» txCapacity = [] := by
  simp only [cut, windowUtxos, registrationRows, deregistrationRows, assetCreateRows,
    assetSpendRows]
  rw [drop_selectRange_eq_nil hle h.registrations, drop_selectRange_eq_nil hle h.deregistrations,
    drop_selectRange_eq_nil hle h.assetCreates, drop_selectRange_eq_nil hle h.assetSpends]
  rfl

end NoLimitBinds

/-! ### One call -/

/-- A call that reaches its capacity stops short of the tip, moves on, and returns one
transaction less than the capacity. -/
lemma Returned.short (h : S.Returned db start «end» txCapacity r) (hc : 2 ≤ txCapacity)
    (hge : txCapacity ≤ (keys posKey (S.kept db start «end» txCapacity)).card) :
    start.key < r.end.key ∧ r.end.key < «end».key ∧
      (keys posKey r.utxos).card = txCapacity - 1 := by
  have hcard : (keys posKey r.utxos).card = txCapacity - 1 := by
    rw [h.utxos_eq, card_keys_firstGroups, keys_congr (ordered_perm _ _ _)]
    omega
  refine ⟨?_, ?_, hcard⟩
  · rcases h.cases hc with ⟨hlt, -, -⟩ | ⟨-, last, hlast, hend⟩
    · exact absurd hge (not_le.2 hlt)
    · rw [hend, CardanoPosition.lt_key_increment]
      exact (mem_kept (h.mem_utxos (List.mem_of_getLast? hlast))).1
  · -- Some transaction that was kept is not returned, and lies before the tip.
    obtain ⟨k, hk, hnk⟩ := Finset.exists_mem_notMem_of_card_lt_card
      (lt_of_eq_of_lt hcard (by omega : txCapacity - 1 <
        (keys posKey (S.kept db start «end» txCapacity)).card))
    obtain ⟨u, hu, rfl⟩ := mem_keys.1 hk
    by_contra hle
    refine hnk (mem_keys.2 ⟨u, (h.perm_filter hc).mem_iff.2 ?_, rfl⟩)
    rw [List.mem_filter, decide_eq_true_eq]
    exact ⟨hu, lt_of_lt_of_le (mem_kept hu).2 (not_lt.1 hle)⟩

/-- An exact call returns whole transactions. -/
lemma Exact.whole (h : S.Exact db r) {u : ObservedUtxo} (hu : u ∈ r.utxos) :
    (r.utxos.filter (fun v => v.posKey = u.posKey)).Perm
      ((S.utxos db).filter (fun v => v.posKey = u.posKey)) := by
  have hrange := (mem_between.1 (h.perm.mem_iff.1 hu)).2
  refine (h.perm.filter _).trans (List.Perm.of_eq ?_)
  rw [between, List.filter_filter]
  refine List.filter_congr (fun v _ => ?_)
  by_cases hv : v.posKey = u.posKey
  · rw [hv]
    simpa using hrange
  · simp [hv]

/-- Fewer transactions are left after a call that moves on. -/
lemma numTxs_lt (hr : ∃ u ∈ S.utxos db, start.key ≤ u.posKey ∧ u.posKey < r.end.key)
    (hle : r.end.key ≤ «end».key) (hse : start.key ≤ r.end.key) :
    S.numTxs db r.end «end» < S.numTxs db start «end» := by
  obtain ⟨u, hu, hstart, hend⟩ := hr
  refine Finset.card_lt_card ⟨?_, fun hsub => ?_⟩
  · intro k hk
    obtain ⟨v, hv, rfl⟩ := mem_keys.1 hk
    obtain ⟨hmem, hge, hlt⟩ := mem_between.1 hv
    exact mem_keys.2 ⟨v, mem_between.2 ⟨hmem, le_trans hse hge, hlt⟩, rfl⟩
  · have hin : u.posKey ∈ keys posKey (between posKey start.key «end».key (S.utxos db)) :=
      mem_keys.2 ⟨u, mem_between.2 ⟨hu, hstart, lt_of_lt_of_le hend hle⟩, rfl⟩
    obtain ⟨v, hv, hvu⟩ := mem_keys.1 (hsub hin)
    have hge := (mem_between.1 hv).2.1
    rw [hvu] at hge
    exact absurd hend (not_lt.2 hge)

/-- What a call from a position before the tip's end does when no limit binds: it is exact and
moves on, either to the end or by some transactions. -/
lemma NoLimitBinds.call {first : CardanoPosition} (h : S.NoLimitBinds db first «end» txCapacity)
    (hc : 2 ≤ txCapacity) (htip : tipEnd db tip = .ok «end») (hfirst : first.key ≤ start.key)
    (hlt : start.key < «end».key) :
    ∃ r, getUtxosUpToCapacity S.lib db S.config start tip txCapacity = .ok r ∧
      r.start = start ∧ S.Exact db r ∧ start.key < r.end.key ∧
      (r.end = «end» ∨
        (r.end.key < «end».key ∧ 1 ≤ (keys posKey r.utxos).card ∧
          (keys posKey r.utxos).card ≤ txCapacity ∧
          S.numTxs db r.end «end» < S.numTxs db start «end»)) := by
  obtain ⟨r, hr, hstart, hexact⟩ := (call_exact_iff hc htip).2
    ⟨h.utxoCapacity_lt, limitsHarmless_of_cut_eq_nil (h.cut_eq_nil hfirst)⟩
  have hret := (returned_of_ok (by omega) htip hr).2
  refine ⟨r, hr, hstart, hexact, ?_⟩
  rcases hret.cases hc with ⟨-, hend, -⟩ | ⟨hge, last, hlast, hend⟩
  · rw [hend]
    exact ⟨hlt, Or.inl rfl⟩
  · obtain ⟨hmoves, hshort, hcard⟩ := hret.short hc hge
    refine ⟨hmoves, Or.inr ⟨hshort, by omega, by omega, numTxs_lt ?_ hshort.le hmoves.le⟩⟩
    have hmem := hexact.perm.mem_iff.1 (List.mem_of_getLast? hlast)
    rw [hstart] at hmem
    exact ⟨last, mem_between.1 hmem⟩

/-! ### Calls until the tip -/

variable (S db) in
/-- Calls from `start` on have caught up with the tip. -/
structure CaughtUp (start «end» : CardanoPosition) (txCapacity : ℕ)
    (rs : List ObservedUtxos) : Prop where
  /-- The last call ends after the tip. -/
  reaches : rs.getLast?.map ObservedUtxos.end = some «end»
  /-- The calls before it stop short of the tip. -/
  short : ∀ r ∈ rs.dropLast, r.end < «end»
  /-- The positions strictly increase. -/
  increasing : List.IsChain (· < ·) (start :: rs.map ObservedUtxos.end)
  /-- A call that stops short returns at least one transaction, and no more than the
  capacity. -/
  portions : ∀ r ∈ rs, r.end ≠ «end» →
    1 ≤ (keys posKey r.utxos).card ∧ (keys posKey r.utxos).card ≤ txCapacity
  /-- No transaction is split between two calls. -/
  whole : ∀ r ∈ rs, ∀ u ∈ r.utxos,
    (r.utxos.filter (fun v => v.posKey = u.posKey)).Perm
      ((S.utxos db).filter (fun v => v.posKey = u.posKey))
  /-- Together the calls return the decodable UTXOs up to the tip, in order. -/
  lists : Lists Le (rs.flatMap ObservedUtxos.utxos)
    (between posKey start.key «end».key (S.utxos db))

lemma caughtUp_singleton (hstart : r.start = start) (hexact : S.Exact db r)
    (hmoves : start.key < r.end.key) (hend : r.end = «end») :
    S.CaughtUp db start «end» txCapacity [r] where
  reaches := by simp [hend]
  short := by simp
  increasing := by simpa using (CardanoPosition.lt_iff_key _ _).2 hmoves
  portions := by simp [hend]
  whole := by simpa using fun u hu => hexact.whole hu
  lists := by
    rw [Exact, hstart, hend] at hexact
    simpa using hexact

lemma CaughtUp.cons {rs : List ObservedUtxos} (ih : S.CaughtUp db r.end «end» txCapacity rs)
    (hstart : r.start = start) (hexact : S.Exact db r) (hmoves : start.key < r.end.key)
    (hshort : r.end.key < «end».key)
    (hcard : 1 ≤ (keys posKey r.utxos).card ∧ (keys posKey r.utxos).card ≤ txCapacity) :
    S.CaughtUp db start «end» txCapacity (r :: rs) := by
  have hne : rs ≠ [] := by
    rintro rfl
    exact absurd ih.reaches (by simp)
  refine ⟨?_, ?_, ?_, ?_, ?_, ?_⟩
  · rw [List.getLast?_cons_of_ne_nil hne]
    exact ih.reaches
  · rw [List.dropLast_cons_of_ne_nil hne]
    exact List.forall_mem_cons.2 ⟨(CardanoPosition.lt_iff_key _ _).2 hshort, ih.short⟩
  · rw [List.map_cons, List.isChain_cons_cons]
    exact ⟨(CardanoPosition.lt_iff_key _ _).2 hmoves, ih.increasing⟩
  · exact List.forall_mem_cons.2 ⟨fun _ => hcard, ih.portions⟩
  · exact List.forall_mem_cons.2 ⟨fun u hu => hexact.whole hu, ih.whole⟩
  · rw [Exact, hstart] at hexact
    rw [List.flatMap_cons]
    refine (hexact.append ih.lists (fun u hu v hv => ?_)).congr
      (between_append_between _ hmoves.le hshort.le)
    exact le_of_posKey_lt (lt_of_lt_of_le (mem_between.1 hu).2.2 (mem_between.1 hv).2.1)

/-- Calls from any position before the tip catch up. -/
lemma NoLimitBinds.catchUp {first : CardanoPosition}
    (h : S.NoLimitBinds db first «end» txCapacity) (hc : 2 ≤ txCapacity)
    (htip : tipEnd db tip = .ok «end») (hfirst : first.key ≤ start.key)
    (hlt : start.key < «end».key) :
    ∃ n rs, n ≤ S.numTxs db start «end» + 1 ∧ S.catchUp db tip txCapacity n start = .ok rs ∧
      S.CaughtUp db start «end» txCapacity rs := by
  -- Induction on the number of transactions left.
  induction hm : S.numTxs db start «end» using Nat.strong_induction_on generalizing start with
  | h m ih =>
    obtain ⟨r, hr, hstart, hexact, hmoves, hend | ⟨hshort, hone, hcap, hless⟩⟩ :=
      h.call hc htip hfirst hlt
    · refine ⟨1, [r], by omega, ?_, caughtUp_singleton hstart hexact hmoves hend⟩
      rw [Source.catchUp, hr]
      rfl
    · obtain ⟨n, rs, hn, hrs, hcaught⟩ :=
        ih _ (hm ▸ hless) (le_trans hfirst hmoves.le) hshort rfl
      refine ⟨n + 1, r :: rs, by omega, ?_, hcaught.cons hstart hexact hmoves hshort ⟨hone, hcap⟩⟩
      rw [Source.catchUp, hr]
      simp only [bind, Except.bind, hrs]
      rfl

/-- The loop of the genesis generator ends after at most one call more than there are
transactions left. -/
lemma NoLimitBinds.genesisLoop {first : CardanoPosition} {b : Block}
    (h : S.NoLimitBinds db first b.toPosition.increment txCapacity) (hc : 2 ≤ txCapacity)
    (hb : getBlockByHash db tip = some b) (hfirst : first.key ≤ start.key)
    (hlt : start.key < b.toPosition.increment.key) (allUtxos : List ObservedUtxo) :
    ∃ result, ∀ fuel, S.numTxs db start b.toPosition.increment < fuel →
      genesisLoop S.lib db S.config tip txCapacity fuel start allUtxos = some (.ok result) := by
  induction hm : S.numTxs db start b.toPosition.increment using Nat.strong_induction_on
    generalizing start allUtxos with
  | h m ih =>
    obtain ⟨r, hr, -, -, hmoves, hnext⟩ := h.call hc (tipEnd_of_block hb) hfirst hlt
    by_cases hhash : r.end.blockHash = tip
    · refine ⟨(r.end, allUtxos ++ r.utxos), fun fuel hfuel => ?_⟩
      obtain ⟨fuel, rfl⟩ := Nat.exists_eq_succ_of_ne_zero (by omega : fuel ≠ 0)
      simp [genesisLoop_succ hr, hhash]
    · rcases hnext with hend | ⟨hshort, -, -, hless⟩
      · -- After the tip the block is the tip's.
        exact absurd (hend ▸ hash_of_getBlockByHash hb) hhash
      · obtain ⟨result, hresult⟩ := ih _ (hm ▸ hless) (le_trans hfirst hmoves.le) hshort
          (allUtxos ++ r.utxos) rfl
        refine ⟨result, fun fuel hfuel => ?_⟩
        obtain ⟨fuel, rfl⟩ := Nat.exists_eq_succ_of_ne_zero (by omega : fuel ≠ 0)
        have hrec := hresult fuel (by omega)
        simp [genesisLoop_succ hr, hhash, hrec]

/-- **Catching up ends, without skipping or splitting a transaction.**  Where no limit binds,
calls from any start up to the tip reach the position after the tip within one call more than
there are transactions in range; and the loop of the genesis generator ends. -/
theorem catch_up_reaches_tip {b : Block} (hb : getBlockByHash db tip = some b)
    (hstart : start ≤ b.toPosition) (hc : 2 ≤ txCapacity)
    (hlimit : S.NoLimitBinds db start b.toPosition.increment txCapacity) :
    (∃ n rs, n ≤ S.numTxs db start b.toPosition.increment + 1 ∧
      S.catchUp db tip txCapacity n start = .ok rs ∧
      S.CaughtUp db start b.toPosition.increment txCapacity rs) ∧
    (∃ result, ∀ fuel, S.numTxs db start b.toPosition.increment < fuel →
      Cnight.genesisLoop S.lib db S.config tip txCapacity fuel start [] =
        some (.ok result)) := by
  have hlt : start.key < b.toPosition.increment.key :=
    (CardanoPosition.lt_key_increment _ _).2 ((CardanoPosition.le_iff_key _ _).1 hstart)
  exact ⟨hlimit.catchUp hc (tipEnd_of_block hb) le_rfl hlt,
    hlimit.genesisLoop hc hb le_rfl hlt []⟩

end Source

theorem catch_up_three_creates :
    demoSource.NoLimitBinds threeCreatesDb firstPosition demoEnd 2 ∧
      (∃ n rs, n ≤ 4 ∧ demoSource.catchUp threeCreatesDb 7 2 n firstPosition = .ok rs ∧
        demoSource.CaughtUp threeCreatesDb firstPosition demoEnd 2 rs) ∧
      (∃ result, ∀ fuel, 3 < fuel →
        genesisLoop demoSource.lib threeCreatesDb demoSource.config 7 2 fuel firstPosition [] =
          some (.ok result)) := by
  have hlimit : demoSource.NoLimitBinds threeCreatesDb firstPosition demoEnd 2 :=
    ⟨rfl, rfl, rfl, rfl⟩
  have hnum : demoSource.numTxs threeCreatesDb firstPosition demoEnd = 3 := by decide +kernel
  have hb : getBlockByHash threeCreatesDb 7 = some ⟨1, 7, 1000, 200⟩ := rfl
  have h := Source.catch_up_reaches_tip hb (by decide) le_rfl hlimit
  rw [show (Block.toPosition ⟨1, 7, 1000, 200⟩).increment = demoEnd from rfl, hnum] at h
  exact ⟨hlimit, h.1, h.2⟩

end MidnightNode.Cnight
