/-
# The history that a genesis is generated from

The loop of `generate_cnight_genesis` calls the data source from where the last call ended, and
stops at the first call that ends in the tip's block.  A call that its capacity stops inside
that block ends there too, although transactions of the block are left.

Where the limits of the queries do not bind, calls that stop short take equally many
transactions, so that it can be told from the numbers of transactions before and in the tip's
block whether the loop stops too early.
-/
import MidnightNode.Cnight.CatchUp
import MidnightNode.Cnight.Genesis

namespace MidnightNode.Cnight

open Groups ObservedUtxo

section Rows

variable {R κ : Type} [LinearOrder κ] {blockNo blockIndex : R → ℕ} {orderBy : R → κ}
  {start start' «end» : CardanoPosition}

/-- The rows of a later range are a part of those of the whole range, in the same order. -/
lemma selectRange_later (rows : List R) (hle : start.key ≤ start'.key) :
    selectRange blockNo blockIndex orderBy rows start' «end» =
      (selectRange blockNo blockIndex orderBy rows start «end»).filter
        (fun r => start'.key ≤ toLex (blockNo r, blockIndex r)) := by
  have : IsTrans R (fun r r' => orderBy r ≤ orderBy r') := ⟨fun _ _ _ h h' => le_trans h h'⟩
  have : Std.Total (fun r r' => orderBy r ≤ orderBy r') := ⟨fun _ _ => le_total _ _⟩
  rw [selectRange, selectRange, filter_insertionSort, List.filter_filter]
  refine congrArg _ (List.filter_congr fun r _ => ?_)
  rw [Bool.eq_iff_iff, Bool.and_eq_true, decide_eq_true_iff, inRange_iff, inRange_iff]
  exact ⟨fun h => ⟨h.1, le_trans hle h.1, h.2⟩, fun h => ⟨h.1, h.2.2⟩⟩

lemma filter_filterMap_selectRange {decode : R → Option ObservedUtxo}
    (hdecode : ∀ r u, decode r = some u → u.posKey = toLex (blockNo r, blockIndex r))
    (rows : List R) (hle : start.key ≤ start'.key) :
    ((selectRange blockNo blockIndex orderBy rows start «end»).filterMap decode).filter
        (fun u => start'.key ≤ u.posKey) =
      (selectRange blockNo blockIndex orderBy rows start' «end»).filterMap decode := by
  rw [selectRange_later rows hle, List.filterMap_filter, List.filter_filterMap]
  refine List.filterMap_congr fun r _ => ?_
  rcases hd : decode r with _ | u
  · split <;> rfl
  · rw [← hdecode r u hd]
    by_cases hu : start'.key ≤ u.posKey
    · rw [Option.filter_some_pos (by simpa using hu), if_pos (by simpa using hu)]
    · rw [Option.filter_some_neg (by simpa using hu), if_neg (by simpa using hu)]

end Rows

/-- The position of the first transaction of a block. -/
def Block.firstPosition (b : Block) : CardanoPosition :=
  ⟨b.hash, b.blockNumber, b.time, 0⟩

namespace Source

variable (S : Source) (db : CardanoDb)

/-- The decodable UTXOs of a range, in the order in which they are observed. -/
def history (start «end» : CardanoPosition) : List ObservedUtxo :=
  (S.windowUtxos db (fun _ l => l) start «end»).insertionSort Le

variable {S db}
variable {start start' «end» : CardanoPosition} {tip : McBlockHash} {txCapacity : ℕ}
  {r : ObservedUtxos}

lemma history_perm (start «end» : CardanoPosition) :
    (S.history db start «end»).Perm (between posKey start.key «end».key (S.utxos db)) :=
  (List.perm_insertionSort _ _).trans (windowUtxos_all_perm start «end»)

lemma history_pairwise_posKey (start «end» : CardanoPosition) :
    (S.history db start «end»).Pairwise (fun u v => u.posKey ≤ v.posKey) :=
  (List.pairwise_insertionSort _ _).imp posKey_le_of_le

/-- The history from a later position is what is left of the whole. -/
lemma filter_history (hle : start.key ≤ start'.key) :
    (S.history db start «end»).filter (fun u => start'.key ≤ u.posKey) =
      S.history db start' «end» := by
  rw [history, filter_insertionSort, history]
  refine congrArg _ ?_
  simp only [windowUtxos, List.filter_append, registrationRows, deregistrationRows,
    assetCreateRows, assetSpendRows]
  rw [filter_filterMap_selectRange (fun _ _ h => posKey_registrationUtxo h) _ hle,
    filter_filterMap_selectRange (fun _ _ h => posKey_deregistrationUtxo h) _ hle,
    filter_filterMap_selectRange (fun _ _ h => posKey_assetCreateUtxo h) _ hle,
    filter_filterMap_selectRange (fun _ _ h => posKey_assetSpendUtxo h) _ hle]

/-! ### One call -/

section Window

variable {R κ : Type} [LinearOrder κ] {blockNo blockIndex : R → ℕ} {orderBy : R → κ}
  {rows : List R} {limit : ℕ}

lemma take_selectRange_eq_self (hle : start.key ≤ start'.key)
    (h : rangeQuery blockNo blockIndex orderBy rows start «end» limit 0 =
      .ok (selectRange blockNo blockIndex orderBy rows start «end»)) :
    (selectRange blockNo blockIndex orderBy rows start' «end»).take limit =
      selectRange blockNo blockIndex orderBy rows start' «end» :=
  List.take_of_length_le (le_trans (length_selectRange_le hle) (le_of_rangeQuery_eq h).2)

end Window

/-- Where no limit binds, a call sees the whole history. -/
lemma NoLimitBinds.ordered_eq {first : CardanoPosition}
    (h : S.NoLimitBinds db first «end» txCapacity) (hle : first.key ≤ start.key) :
    S.ordered db start «end» txCapacity = S.history db start «end» := by
  simp only [ordered, history, kept, windowUtxos, registrationRows, deregistrationRows,
    assetCreateRows, assetSpendRows]
  rw [take_selectRange_eq_self hle h.registrations,
    take_selectRange_eq_self hle h.deregistrations,
    take_selectRange_eq_self hle h.assetCreates, take_selectRange_eq_self hle h.assetSpends]

lemma NoLimitBinds.card_keys_kept {first : CardanoPosition}
    (h : S.NoLimitBinds db first «end» txCapacity) (hle : first.key ≤ start.key) :
    (keys posKey (S.kept db start «end» txCapacity)).card = S.numTxs db start «end» := by
  rw [← keys_congr (ordered_perm _ _ _), h.ordered_eq hle, keys_congr (history_perm _ _), numTxs]

/-- A call that stops short returns the front of the history. -/
lemma Returned.append_history (h : S.Returned db start «end» txCapacity r)
    (hordered : S.ordered db start «end» txCapacity = S.history db start «end»)
    (hle : start.key ≤ r.end.key) {last : ObservedUtxo} (hlast : r.utxos.getLast? = some last)
    (hend : r.end = last.header.txPosition.increment) :
    r.utxos ++ S.history db r.end «end» = S.history db start «end» := by
  have hutxos : r.utxos = (S.history db start «end»).filter (fun u => u.posKey < r.end.key) := by
    have hlast' := hlast
    rw [h.utxos_eq, hordered] at hlast'
    rw [h.utxos_eq, hordered, firstGroups_eq_filter_le (history_pairwise_posKey _ _) hlast', hend]
    refine List.filter_congr fun u _ => ?_
    rw [decide_eq_decide, CardanoPosition.lt_key_increment]
    exact Iff.rfl
  rw [hutxos, ← filter_history hle]
  exact filter_lt_append_filter_le (history_pairwise_posKey _ _) _

variable (S db) in
/-- A call that stops short of the end: it returns one transaction less than its capacity from
the front of the history, and ends after the last of them. -/
structure StopsShort (start «end» : CardanoPosition) (txCapacity : ℕ) (r : ObservedUtxos) :
    Prop where
  reached : txCapacity ≤ S.numTxs db start «end»
  moves : start.key < r.end.key
  short : r.end.key < «end».key
  front : r.utxos ++ S.history db r.end «end» = S.history db start «end»
  taken : S.numTxs db start r.end = txCapacity - 1
  last : ∃ last ∈ S.utxos db, start.key ≤ last.posKey ∧ r.end = last.header.txPosition.increment

/-- Where no limit binds, a call returns all the history that is left, or stops short. -/
lemma NoLimitBinds.call_history {first : CardanoPosition}
    (h : S.NoLimitBinds db first «end» txCapacity) (hc : 2 ≤ txCapacity)
    (htip : tipEnd db tip = .ok «end») (hfirst : first.key ≤ start.key)
    (hlt : start.key < «end».key) :
    ∃ r, getUtxosUpToCapacity S.lib db S.config start tip txCapacity = .ok r ∧
      ((S.numTxs db start «end» < txCapacity ∧ r.end = «end» ∧
          r.utxos = S.history db start «end») ∨
        S.StopsShort db start «end» txCapacity r) := by
  obtain ⟨r, hr, hstart, hexact, -⟩ := h.call hc htip hfirst hlt
  refine ⟨r, hr, ?_⟩
  have hret := (returned_of_ok (by omega) htip hr).2
  have hordered := h.ordered_eq hfirst
  rcases hret.cases hc with ⟨hcard, hend, hutxos⟩ | ⟨hge, last, hlast, hend⟩
  · rw [h.card_keys_kept hfirst] at hcard
    exact Or.inl ⟨hcard, hend, hutxos.trans hordered⟩
  · obtain ⟨hmoves, hshort, htaken⟩ := hret.short hc hge
    have hperm := hexact.perm
    rw [hstart] at hperm
    obtain ⟨hmem, hfrom, -⟩ := mem_between.1 (hperm.mem_iff.1 (List.mem_of_getLast? hlast))
    refine Or.inr ⟨?_, hmoves, hshort, hret.append_history hordered hmoves.le hlast hend, ?_,
      last, hmem, hfrom, hend⟩
    · rwa [h.card_keys_kept hfirst] at hge
    · rw [numTxs, ← keys_congr hperm, htaken]

/-! ### The loop -/

variable (S db) in
/-- The rows of the history name the hash of the block exactly if they are rows of it. -/
def NamesBlock (b : Block) : Prop :=
  ∀ u ∈ S.utxos db, u.header.txPosition.blockHash = b.hash ↔
    u.header.txPosition.blockNumber = b.blockNumber

/-- The capacities at which the loop does not stop inside the tip's block: the transactions
before it and in it take the same number of calls. -/
def ReachesTip (before total txCapacity : ℕ) : Prop :=
  total ≤ (before / (txCapacity - 1) + 1) * (txCapacity - 1)

instance (before total txCapacity : ℕ) : Decidable (ReachesTip before total txCapacity) :=
  inferInstanceAs (Decidable (_ ≤ _))

/-- A call that returns everything reaches the tip. -/
lemma reachesTip_of_lt {before total : ℕ} (h : total < txCapacity) :
    ReachesTip before total txCapacity := by
  have hle := Nat.le_mul_of_pos_left (txCapacity - 1) (Nat.add_one_pos (before / (txCapacity - 1)))
  rw [ReachesTip]
  omega

lemma not_reachesTip {before total : ℕ} (hb : before < txCapacity - 1) (h : txCapacity ≤ total) :
    ¬ ReachesTip before total txCapacity := by
  rw [ReachesTip, Nat.div_eq_of_lt hb]
  omega

/-- Where no transaction of the tip's block is relevant, the tip is reached. -/
lemma reachesTip_self {total : ℕ} (hc : 2 ≤ txCapacity) : ReachesTip total total txCapacity := by
  have hdiv := Nat.div_add_mod' total (txCapacity - 1)
  have hmod := Nat.mod_lt total (by omega : 0 < txCapacity - 1)
  rw [ReachesTip, Nat.add_mul]
  omega

/-- After a call that ends before the tip's block the question is the same. -/
lemma reachesTip_sub {before total : ℕ} (hc : 2 ≤ txCapacity) (hb : txCapacity - 1 ≤ before)
    (h : txCapacity - 1 ≤ total) :
    ReachesTip (before - (txCapacity - 1)) (total - (txCapacity - 1)) txCapacity ↔
      ReachesTip before total txCapacity := by
  rw [ReachesTip, ReachesTip, Nat.div_eq_sub_div (by omega) hb,
    Nat.add_mul (_ + 1) 1 (txCapacity - 1)]
  omega

lemma numTxs_add {mid : CardanoPosition} (hle : start.key ≤ mid.key) (hle' : mid.key ≤ «end».key) :
    S.numTxs db start mid + S.numTxs db mid «end» = S.numTxs db start «end» :=
  card_keys_between_add _ hle hle'

variable {b : Block}

/-- A call that stops short ends in the tip's block exactly if fewer transactions than it takes
were left before that block.  Otherwise it does not go beyond them. -/
lemma StopsShort.hash_eq_iff (h : S.StopsShort db start b.toPosition.increment txCapacity r)
    (hnames : S.NamesBlock db b) :
    (r.end.blockHash = b.hash ↔ S.numTxs db start b.firstPosition < txCapacity - 1) ∧
      (r.end.blockHash ≠ b.hash → r.end.key ≤ b.firstPosition.key) := by
  obtain ⟨last, hmem, hfrom, hend⟩ := h.last
  have hhash : r.end.blockHash = b.hash ↔ last.header.txPosition.blockNumber = b.blockNumber := by
    rw [hend]
    exact hnames last hmem
  have hlast : last.posKey < r.end.key := by
    rw [hend]
    exact (CardanoPosition.lt_key_increment _ _).2 le_rfl
  -- The transaction is not behind the tip's block.
  have hblock : last.header.txPosition.blockNumber ≤ b.blockNumber := by
    have hlt := lt_trans hlast h.short
    simp only [posKey, CardanoPosition.key, Prod.Lex.toLex_lt_toLex] at hlt
    exact hlt.elim le_of_lt (fun heq => heq.1.le)
  have hbefore : r.end.blockHash ≠ b.hash → r.end.key ≤ b.firstPosition.key := by
    intro hne
    have hlt : last.header.txPosition.blockNumber < b.blockNumber :=
      lt_of_le_of_ne hblock (mt hhash.2 hne)
    rw [hend, CardanoPosition.key_increment_le]
    exact Prod.Lex.toLex_lt_toLex.2 (Or.inl hlt)
  refine ⟨⟨fun heq => ?_, fun hless => ?_⟩, hbefore⟩
  · -- The transaction itself is not one before the block.
    have hkey : b.firstPosition.key ≤ last.posKey :=
      Prod.Lex.toLex_le_toLex.2 (Or.inr ⟨(hhash.1 heq).symm, Nat.zero_le _⟩)
    rw [← h.taken]
    exact card_keys_between_lt hmem hfrom hkey hlast
  · by_contra hne
    have hle : S.numTxs db start r.end ≤ S.numTxs db start b.firstPosition :=
      card_keys_between_le _ (hbefore hne)
    rw [h.taken] at hle
    omega

variable (S db) in
/-- The loop from a position ends with the UTXOs that it collected and the position reached. -/
def LoopEnds (tip : McBlockHash) («end» : CardanoPosition) (txCapacity : ℕ)
    (start p : CardanoPosition) (us : List ObservedUtxo) : Prop :=
  ∀ fuel allUtxos, S.numTxs db start «end» < fuel →
    genesisLoop S.lib db S.config tip txCapacity fuel start allUtxos =
      some (.ok (p, allUtxos ++ us))

/-- The last round of the loop. -/
lemma loopEnds_of_hash (hr : getUtxosUpToCapacity S.lib db S.config start tip txCapacity = .ok r)
    (hhash : r.end.blockHash = tip) : S.LoopEnds db tip «end» txCapacity start r.end r.utxos := by
  intro fuel allUtxos hfuel
  obtain ⟨fuel, rfl⟩ := Nat.exists_eq_succ_of_ne_zero (by omega : fuel ≠ 0)
  simp [genesisLoop_succ hr, hhash]

/-- Another round of the loop. -/
lemma LoopEnds.round (hr : getUtxosUpToCapacity S.lib db S.config start tip txCapacity = .ok r)
    (hhash : r.end.blockHash ≠ tip) (hless : S.numTxs db r.end «end» < S.numTxs db start «end»)
    {p : CardanoPosition} {us : List ObservedUtxo}
    (h : S.LoopEnds db tip «end» txCapacity r.end p us) :
    S.LoopEnds db tip «end» txCapacity start p (r.utxos ++ us) := by
  intro fuel allUtxos hfuel
  obtain ⟨fuel, rfl⟩ := Nat.exists_eq_succ_of_ne_zero (by omega : fuel ≠ 0)
  have hrec := h fuel (allUtxos ++ r.utxos) (by omega)
  simp [genesisLoop_succ hr, hhash, hrec]

/-- The loop ends, after the tip with the whole history or before it, as the numbers of
transactions say. -/
lemma NoLimitBinds.loopEnds {first : CardanoPosition}
    (h : S.NoLimitBinds db first b.toPosition.increment txCapacity) (hc : 2 ≤ txCapacity)
    (hb : getBlockByHash db tip = some b) (hnames : S.NamesBlock db b)
    (hfirst : first.key ≤ start.key) (hlt : start.key < b.toPosition.increment.key) :
    ∃ p us, S.LoopEnds db tip b.toPosition.increment txCapacity start p us ∧
      if ReachesTip (S.numTxs db start b.firstPosition)
          (S.numTxs db start b.toPosition.increment) txCapacity then
        p = b.toPosition.increment ∧ us = S.history db start b.toPosition.increment
      else p.key < b.toPosition.increment.key := by
  have hhash := hash_of_getBlockByHash hb
  -- Induction on the number of transactions left.
  induction hm : S.numTxs db start b.toPosition.increment using Nat.strong_induction_on
    generalizing start with
  | h m ih =>
    obtain ⟨r, hr, ⟨hall, hend, hutxos⟩ | hshort⟩ :=
      h.call_history hc (tipEnd_of_block hb) hfirst hlt
    · refine ⟨r.end, r.utxos, loopEnds_of_hash hr (by rw [hend]; exact hhash), ?_⟩
      rw [if_pos (reachesTip_of_lt (hm ▸ hall))]
      exact ⟨hend, hutxos⟩
    · obtain ⟨hiff, hbefore⟩ := hshort.hash_eq_iff hnames
      have htaken := hshort.taken
      have hreached := hshort.reached
      have htotal : S.numTxs db start r.end + S.numTxs db r.end b.toPosition.increment =
          S.numTxs db start b.toPosition.increment :=
        numTxs_add hshort.moves.le hshort.short.le
      by_cases hstop : r.end.blockHash = b.hash
      · -- The call ends inside the tip's block, and transactions of it are left.
        refine ⟨r.end, r.utxos, loopEnds_of_hash hr (hstop.trans hhash), ?_⟩
        rw [if_neg (not_reachesTip (hiff.1 hstop) (hm ▸ hreached))]
        exact hshort.short
      · have hsplit : S.numTxs db start r.end + S.numTxs db r.end b.firstPosition =
            S.numTxs db start b.firstPosition :=
          numTxs_add hshort.moves.le (hbefore hstop)
        have hless : S.numTxs db r.end b.toPosition.increment <
            S.numTxs db start b.toPosition.increment := by omega
        obtain ⟨p, us, hends, hif⟩ :=
          ih _ (hm ▸ hless) (le_trans hfirst hshort.moves.le) hshort.short rfl
        refine ⟨p, r.utxos ++ us, hends.round hr (hhash ▸ hstop) hless, ?_⟩
        have hnext : ReachesTip (S.numTxs db r.end b.firstPosition)
            (S.numTxs db r.end b.toPosition.increment) txCapacity ↔
            ReachesTip (S.numTxs db start b.firstPosition) m txCapacity := by
          rw [← reachesTip_sub hc (by omega) (by omega : txCapacity - 1 ≤ m), ← hsplit, ← hm,
            ← htotal, htaken, Nat.add_sub_cancel_left, Nat.add_sub_cancel_left]
        by_cases hreach : ReachesTip (S.numTxs db start b.firstPosition) m txCapacity
        · rw [if_pos (hnext.2 hreach)] at hif
          rw [if_pos hreach, hif.2]
          exact ⟨hif.1, hshort.front⟩
        · rw [if_neg (mt hnext.1 hreach)] at hif
          rw [if_neg hreach]
          exact hif

/-- The data source of the generator, with a given capacity. -/
def dbSync (S : Source) (db : CardanoDb) (tip : McBlockHash) (txCapacity : ℕ)
    (start : CardanoPosition) : Except DataSourceError ObservedUtxos :=
  getUtxosUpToCapacity S.lib db S.config start tip txCapacity

lemma LoopEnds.fetchUtxos_eq {p : CardanoPosition} {us : List ObservedUtxo}
    (h : S.LoopEnds db tip «end» txCapacity firstPosition p us) {fuel : ℕ}
    (hfuel : S.numTxs db firstPosition «end» < fuel) :
    fetchUtxos (S.dbSync db tip txCapacity) tip fuel firstPosition [] = some (.ok (p, us)) := by
  exact h fuel [] hfuel

/-- **When the genesis covers the history up to the tip.**  Where no limit binds, the loop of
the generator ends.  It has collected the whole ordered history and reached the position after
the tip exactly if the transactions before the tip's block and those up to the tip take equally
many calls; and at such capacities the genesis is the same. -/
theorem genesis_covers_tip_iff (S : Source) {db : CardanoDb} {tip : McBlockHash} {b : Block}
    (hb : getBlockByHash db tip = some b) (hnames : S.NamesBlock db b) :
    (∀ txCapacity, 2 ≤ txCapacity →
      S.NoLimitBinds db firstPosition b.toPosition.increment txCapacity →
      ∃ p us, S.LoopEnds db tip b.toPosition.increment txCapacity firstPosition p us ∧
        ((us = S.history db firstPosition b.toPosition.increment ∧
            p = b.toPosition.increment) ↔
          ReachesTip (S.numTxs db firstPosition b.firstPosition)
            (S.numTxs db firstPosition b.toPosition.increment) txCapacity)) ∧
    (∀ c c', 2 ≤ c → 2 ≤ c' →
      S.NoLimitBinds db firstPosition b.toPosition.increment c →
      S.NoLimitBinds db firstPosition b.toPosition.increment c' →
      ReachesTip (S.numTxs db firstPosition b.firstPosition)
        (S.numTxs db firstPosition b.toPosition.increment) c →
      ReachesTip (S.numTxs db firstPosition b.firstPosition)
        (S.numTxs db firstPosition b.toPosition.increment) c' →
      ∀ T fuel, S.numTxs db firstPosition b.toPosition.increment < fuel →
        generateCNightGenesis T S.config (S.dbSync db tip c) tip fuel =
          generateCNightGenesis T S.config (S.dbSync db tip c') tip fuel) := by
  have hlt : firstPosition.key < b.toPosition.increment.key :=
    (CardanoPosition.lt_key_increment _ _).2
      ((CardanoPosition.le_iff_key _ _).1 (firstPosition_le _))
  refine ⟨fun c hc hlimit => ?_, fun c c' hc hc' hlimit hlimit' hreach hreach' T fuel hfuel => ?_⟩
  · obtain ⟨p, us, hends, hif⟩ := hlimit.loopEnds hc hb hnames le_rfl hlt
    refine ⟨p, us, hends, fun hwhole => ?_, fun hreach => ?_⟩
    · by_contra hnot
      rw [if_neg hnot, hwhole.2] at hif
      exact absurd hif (lt_irrefl _)
    · rw [if_pos hreach] at hif
      exact ⟨hif.2, hif.1⟩
  · obtain ⟨p, us, hends, hif⟩ := hlimit.loopEnds hc hb hnames le_rfl hlt
    obtain ⟨p', us', hends', hif'⟩ := hlimit'.loopEnds hc' hb hnames le_rfl hlt
    rw [if_pos hreach] at hif
    rw [if_pos hreach'] at hif'
    rw [generateCNightGenesis, generateCNightGenesis, hends.fetchUtxos_eq hfuel,
      hends'.fetchUtxos_eq hfuel, hif.1, hif.2, hif'.1, hif'.2]

end Source

lemma namesBlock_threeCreates : demoSource.NamesBlock threeCreatesDb ⟨1, 7, 1000, 200⟩ := by
  unfold Source.NamesBlock
  decide +kernel

/-- Three transactions in the tip's block and none before: capacities above three reach the
tip. -/
theorem genesis_covers_tip_three_creates :
    ∃ p us, demoSource.LoopEnds threeCreatesDb 7 demoEnd 4 firstPosition p us ∧
      us = demoSource.history threeCreatesDb firstPosition demoEnd ∧ p = demoEnd := by
  have hb : getBlockByHash threeCreatesDb 7 = some ⟨1, 7, 1000, 200⟩ := rfl
  have hlimit : demoSource.NoLimitBinds threeCreatesDb firstPosition demoEnd 4 :=
    ⟨rfl, rfl, rfl, rfl⟩
  obtain ⟨p, us, hends, hiff⟩ :=
    (demoSource.genesis_covers_tip_iff hb namesBlock_threeCreates).1 4 (by decide) hlimit
  refine ⟨p, us, hends, hiff.2 ?_⟩
  decide +kernel

/-- A capacity of two stops inside the tip's block after the first of its three transactions,
and the loop ends there. -/
theorem genesis_stops_inside_tip :
    ∃ us, genesisLoop demoSource.lib threeCreatesDb demoSource.config 7 2 4 firstPosition [] =
        some (.ok (⟨7, 1, 1000, 1⟩, us)) ∧
      us.length = 1 ∧ (demoSource.history threeCreatesDb firstPosition demoEnd).length = 3 ∧
      (⟨7, 1, 1000, 1⟩ : CardanoPosition) ≠ demoEnd := by
  have hr := demoCall_ok firstPosition (show utxoCapacity 2 < i32Max by decide)
  have hend : (demoCall firstPosition 2).result.end = ⟨7, 1, 1000, 1⟩ := by decide +kernel
  refine ⟨(demoCall firstPosition 2).result.utxos, ?_, ?_, ?_, by decide⟩
  · rw [genesisLoop_succ hr]
    simp only [hend, List.nil_append]
    rfl
  · decide +kernel
  · decide +kernel

/-! ### Histories too long for a genesis -/

variable {T : PalletConfig}

lemma genesisOf_isSome_iff (addresses : CNightAddresses) (p : CardanoPosition)
    (us : List ObservedUtxo) :
    (genesisOf T addresses p us).isSome ↔ (retainRegistered us).length % 2 ^ 32 ≤ 200 * 64 := by
  rw [genesisOf, Option.isSome_map]
  by_cases h : (retainRegistered us).length % 2 ^ 32 ≤ 200 * 64
  · have hexec : execPallet T ⟨⟨0, 0, 0, 0⟩, p, retainRegistered us⟩ = _ := execPallet_eq_some h
    rw [hexec]
    exact iff_of_true rfl h
  · have hexec : execPallet T ⟨⟨0, 0, 0, 0⟩, p, retainRegistered us⟩ = none :=
      execPallet_eq_none h
    rw [hexec]
    exact iff_of_false (by simp) h

/-- **When a genesis is generated.**  Whatever history a data source returns to the loop, the
call on the mock runtime is accepted, and a genesis generated, exactly if the UTXOs that are
retained are no more than a block accepts by default, as a `u32`. -/
theorem genesis_generated_iff {ε : Type} (T : PalletConfig) (addresses : CNightAddresses)
    (source : CardanoPosition → Except ε ObservedUtxos) (tip : McBlockHash) (fuel : ℕ)
    {p : CardanoPosition} {us : List ObservedUtxo}
    (h : fetchUtxos source tip fuel firstPosition [] = some (.ok (p, us))) :
    ((∃ genesis, generateCNightGenesis T addresses source tip fuel = some (.ok genesis)) ↔
      (retainRegistered us).length % 2 ^ 32 ≤ 200 * 64) ∧
    (generateCNightGenesis T addresses source tip fuel = some (.error .panic) ↔
      ¬ (retainRegistered us).length % 2 ^ 32 ≤ 200 * 64) := by
  rw [generateCNightGenesis, h, Option.map_some, ← genesisOf_isSome_iff (T := T) addresses p us]
  cases hgenesis : genesisOf T addresses p us with
  | none => simp [hgenesis]
  | some genesis => simp [hgenesis]

theorem genesis_generated_plain :
    ∃ genesis, generateCNightGenesis plainPallet demoSource.config
      (fun start => (.ok ⟨start, demoEnd, plainHistory⟩ : Except Unit ObservedUtxos)) 7 1 =
        some (.ok genesis) :=
  (genesis_generated_iff plainPallet demoSource.config _ 7 1 rfl).1.2 (by decide)

/-- The registration in transaction `i % 100` of block `i / 100 + 1`. -/
def registrationAt (i : ℕ) : RegistrationRow :=
  { demoRegistration with
    blockNumber := i / 100 + 1
    blockHash := BitVec.ofNat 256 (i / 100 + 1)
    txIndexInBlock := i % 100
    txHash := BitVec.ofNat 256 i }

lemma observedKey_length_le : [(5 : UInt8)].length ≤ 33 := by decide

/-- What is observed of it. -/
def observedAt (i : ℕ) : ObservedUtxo :=
  ⟨⟨⟨BitVec.ofNat 256 (i / 100 + 1), i / 100 + 1, 1000, i % 100⟩, BitVec.ofNat 256 i,
    BitVec.ofNat 256 i, 200⟩,
    .registration ⟨rewardAddressBytes 1 (.keyHash (BitVec.ofNat 224 (2 ^ 224 / 255 * 4))),
      ⟨[5], observedKey_length_le⟩⟩⟩

/-- An empty block after the registrations. -/
def registrationsTip : Block := ⟨1000, 1000, 1000, 0⟩

/-- A history of registrations, in blocks of a hundred transactions. -/
def registrationsDb (n : ℕ) : CardanoDb where
  blocks := [registrationsTip]
  registrations := fun _ _ _ => (List.range n).map registrationAt
  deregistrations := fun _ => []
  assetCreates := fun _ _ => []
  assetSpends := fun _ _ => []

section Registrations

variable {n : ℕ}

lemma utxos_registrationsDb (n : ℕ) :
    demoSource.utxos (registrationsDb n) = (List.range n).map observedAt := by
  have hrows : ((List.range n).map registrationAt).filterMap (registrationUtxo 1) =
      (List.range n).map observedAt := by
    rw [List.filterMap_map]
    exact congrFun (List.filterMap_eq_map (f := observedAt)) (List.range n)
  rw [← hrows]
  simp [Source.utxos, registrationsDb, demoSource]

/-- All registrations lie before the tip's block. -/
lemma between_registrationsDb (hn : n ≤ 64000) {p : CardanoPosition} (hp : p.blockNumber = 1000) :
    between posKey firstPosition.key p.key (demoSource.utxos (registrationsDb n)) =
      demoSource.utxos (registrationsDb n) := by
  refine List.filter_eq_self.2 fun u hu => ?_
  rw [utxos_registrationsDb] at hu
  obtain ⟨i, hi, rfl⟩ := List.mem_map.1 hu
  have hlt := List.mem_range.1 hi
  rw [decide_eq_true_iff]
  refine ⟨(CardanoPosition.le_iff_key _ _).1 (firstPosition_le _), ?_⟩
  refine Prod.Lex.toLex_lt_toLex.2 (Or.inl ?_)
  rw [hp]
  show i / 100 + 1 < 1000
  omega

lemma namesBlock_registrationsDb (hn : n ≤ 64000) :
    demoSource.NamesBlock (registrationsDb n) registrationsTip := by
  intro u hu
  rw [utxos_registrationsDb] at hu
  obtain ⟨i, hi, rfl⟩ := List.mem_map.1 hu
  have hlt := List.mem_range.1 hi
  have hnumber : i / 100 + 1 ≠ 1000 := by omega
  refine iff_of_false (fun hhash => hnumber ?_) hnumber
  have hnat := congrArg BitVec.toNat hhash
  rw [show (observedAt i).header.txPosition.blockHash = BitVec.ofNat 256 (i / 100 + 1) from rfl,
    BitVec.toNat_ofNat, Nat.mod_eq_of_lt (by omega)] at hnat
  exact hnat

/-- A capacity of a thousand transactions leaves room for all of them. -/
lemma noLimitBinds_registrationsDb (hn : n ≤ 64000) :
    demoSource.NoLimitBinds (registrationsDb n) firstPosition
      registrationsTip.toPosition.increment genesisUtxoCapacity := by
  refine ⟨?_, rfl, rfl, rfl⟩
  refine (rangeQuery_zero _ _ _ (by decide) _ _ _).trans (congrArg _ ?_)
  refine List.take_of_length_le ?_
  refine (selectRange_perm _ _ _ _ _ _).length_eq.le.trans ((List.length_filter_le _ _).trans ?_)
  simpa [registrationsDb, utxoCapacity, genesisUtxoCapacity] using hn

/-- The loop collects all registrations. -/
lemma loopEnds_registrationsDb (hn : n ≤ 64000) :
    ∃ us, demoSource.LoopEnds (registrationsDb n) 1000 registrationsTip.toPosition.increment
        genesisUtxoCapacity firstPosition registrationsTip.toPosition.increment us ∧
      us.Perm ((List.range n).map observedAt) := by
  have hlt : firstPosition.key < registrationsTip.toPosition.increment.key := by decide
  have hb : getBlockByHash (registrationsDb n) 1000 = some registrationsTip := rfl
  obtain ⟨p, us, hends, hif⟩ := (noLimitBinds_registrationsDb hn).loopEnds (by decide) hb
    (namesBlock_registrationsDb hn) le_rfl hlt
  have hbefore : demoSource.numTxs (registrationsDb n) firstPosition
        registrationsTip.firstPosition =
      demoSource.numTxs (registrationsDb n) firstPosition
        registrationsTip.toPosition.increment := by
    rw [Source.numTxs, Source.numTxs, between_registrationsDb hn rfl,
      between_registrationsDb hn rfl]
  rw [hbefore, if_pos (Source.reachesTip_self (by decide))] at hif
  obtain ⟨rfl, rfl⟩ := hif
  refine ⟨_, hends, (Source.history_perm _ _).trans ?_⟩
  rw [between_registrationsDb hn rfl, utxos_registrationsDb]

/-- No registration is dropped. -/
lemma retainRegistered_of_perm {us : List ObservedUtxo}
    (h : us.Perm ((List.range n).map observedAt)) : retainRegistered us = us := by
  refine List.filter_eq_self.2 fun u hu => ?_
  obtain ⟨i, -, rfl⟩ := List.mem_map.1 (h.mem_iff.1 hu)
  rfl

end Registrations

/-- From a history of 12801 registrations no genesis is generated. -/
theorem genesis_panics :
    generateCNightGenesis plainPallet demoSource.config
        (demoSource.dbSync (registrationsDb 12801) 1000 genesisUtxoCapacity) 1000 12802 =
      some (.error .panic) := by
  obtain ⟨us, hends, hperm⟩ := loopEnds_registrationsDb (n := 12801) (by decide)
  have hfuel : demoSource.numTxs (registrationsDb 12801) firstPosition
      registrationsTip.toPosition.increment < 12802 := by
    rw [Source.numTxs, between_registrationsDb (by decide) rfl, utxos_registrationsDb]
    refine Nat.lt_succ_of_le ((List.toFinset_card_le _).trans ?_)
    rw [List.length_map, List.length_map, List.length_range]
  have hlength : us.length = 12801 := by
    rw [hperm.length_eq, List.length_map, List.length_range]
  have hnone : genesisOf plainPallet demoSource.config registrationsTip.toPosition.increment us =
      none := by
    rw [← Option.not_isSome_iff_eq_none, genesisOf_isSome_iff, retainRegistered_of_perm hperm,
      hlength]
    decide
  rw [generateCNightGenesis, hends.fetchUtxos_eq hfuel, Option.map_some]
  simp only [hnone]

end MidnightNode.Cnight
