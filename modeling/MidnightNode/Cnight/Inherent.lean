/-
# The inherent of a node's own observation

A node observes Cardano from the position the pallet stores, with the pallet's capacity, and
submits the result as the inherent of its block.  The pallet rejects it in only one case: the
queries are limited one by one while the pallet bounds the UTXOs of all of them together.
-/
import MidnightNode.Cnight.Capacity
import MidnightNode.Cnight.Pallet

namespace MidnightNode.Cnight

open StorageLayer MidnightNode.Frame Groups ObservedUtxo

variable {T : PalletConfig}

/-- The call failed with the given error of the pallet. -/
def FailsWith (error : PalletError)
    (result : Except (DispatchErrorWithPostInfo PalletError) PostDispatchInfo) : Prop :=
  result = .error (.ofError (.module error))

/-- The number of UTXOs within the capacity decides: `process_tokens` in a fresh block, from a
position that does not regress, fails with an error of the pallet only for that. -/
lemma processTokens_failsWith_iff (s : PalletState T) (hfresh : s.inherentExecutedThisBlock = false)
    (utxos : List ObservedUtxo) {next : CardanoPosition} (hnext : s.nextCardanoPosition ≤ next)
    (error : PalletError) :
    FailsWith error (executeProcessTokens .none utxos next s).2 ↔
      error = .tooManyUtxos ∧ ¬ utxos.length % 2 ^ 32 ≤ maxUtxoCount s := by
  rw [executeProcessTokens, withStorageLayer_snd, processTokens]
  by_cases hcount : utxos.length % 2 ^ 32 ≤ maxUtxoCount s
  · simp only [ne_eq, not_true, if_false, hcount, hfresh, hnext, Bool.false_eq_true, and_false,
      iff_false]
    split
    · simp [FailsWith, DispatchErrorWithPostInfo.ofError]
    · simp [FailsWith]
  · simp only [ne_eq, not_true, if_false, hcount, not_false_eq_true, if_true, and_true]
    simp only [FailsWith, DispatchErrorWithPostInfo.ofError, Except.error.injEq,
      DispatchErrorWithPostInfo.mk.injEq, DispatchError.module.injEq, true_and]
    exact eq_comm

namespace Source

variable {S : Source} {db : CardanoDb} {start «end» : CardanoPosition} {txCapacity : ℕ}
  {r : ObservedUtxos}

/-- With any positive capacity, a call does not end before its start. -/
lemma Returned.start_le_end (h : S.Returned db start «end» txCapacity r)
    (hse : start.key ≤ «end».key) : start.key ≤ r.end.key := by
  rw [h.end_eq]
  split
  · exact hse
  · refine le_of_lt ((CardanoPosition.lt_key_increment _ _).2 ?_)
    rcases hlast : r.utxos.getLast? with _ | last
    · exact le_rfl
    · exact (mem_kept (h.mem_utxos (List.mem_of_getLast? hlast))).1

lemma Returned.length_eq (h : S.Returned db start «end» txCapacity r) :
    r.utxos.length =
      (firstGroups posKey (txCapacity - 1) (S.kept db start «end» txCapacity)).length := by
  rw [h.utxos_eq]
  exact (firstGroups_perm (ordered_perm _ _ _)).length_eq

end Source

/-- **When the pallet accepts what its node observes.**  The UTXOs returned for the pallet's
position and capacity are rejected in a fresh block only as too many.  They are not rejected if
and only if the decodable rows that the queries return in the transactions below the capacity
are at most 64 for each transaction of the capacity, as a `u32`. -/
theorem inherent_accepted_iff (S : Source) (s : PalletState T) {db : CardanoDb}
    {tip : McBlockHash} {b : Block} {r : ObservedUtxos} (hb : getBlockByHash db tip = some b)
    (htip : s.nextCardanoPosition ≤ b.toPosition) (hc : 1 ≤ s.cardanoTxCapacityPerBlock.toNat)
    (hr : getUtxosUpToCapacity S.lib db S.config s.nextCardanoPosition tip
      s.cardanoTxCapacityPerBlock.toNat = .ok r) :
    ((∀ error, ¬ FailsWith error
        (executeProcessTokens .none r.utxos r.end (onFinalize s)).2) ↔
      (firstGroups posKey (s.cardanoTxCapacityPerBlock.toNat - 1)
          (S.kept db s.nextCardanoPosition b.toPosition.increment
            s.cardanoTxCapacityPerBlock.toNat)).length % 2 ^ 32 ≤
        s.cardanoTxCapacityPerBlock.toNat * 64) ∧
    (∀ error, FailsWith error
        (executeProcessTokens .none r.utxos r.end (onFinalize s)).2 → error = .tooManyUtxos) := by
  obtain ⟨hlt, hret⟩ := Source.returned_of_ok (by omega) (Source.tipEnd_of_block hb) hr
  have hend : s.nextCardanoPosition.key ≤ b.toPosition.increment.key :=
    ((CardanoPosition.lt_key_increment _ _).2 ((CardanoPosition.le_iff_key _ _).1 htip)).le
  have hnext : (onFinalize s).nextCardanoPosition ≤ r.end :=
    (CardanoPosition.le_iff_key _ _).2 (hret.start_le_end hend)
  have hfails := processTokens_failsWith_iff (onFinalize s) rfl r.utxos hnext
  have hmax : maxUtxoCount (onFinalize s) = s.cardanoTxCapacityPerBlock.toNat * 64 := by
    rw [utxoCapacity, i32Max] at hlt
    refine min_eq_left (le_trans hlt.le ?_)
    decide
  rw [hmax, hret.length_eq] at hfails
  refine ⟨?_, fun error h => ((hfails error).1 h).1⟩
  constructor
  · intro h
    by_contra hcount
    exact h .tooManyUtxos ((hfails _).2 ⟨rfl, hcount⟩)
  · intro hcount error h
    exact ((hfails error).1 h).2 hcount

/-! ### A transaction with too many UTXOs -/

/-- A configuration whose ledger accepts everything. -/
def demoPallet : PalletConfig where
  Hash := BitVec 368
  hashDecEq := inferInstance
  hash := id
  Ledger := Unit
  LedgerHash := Unit
  constructEvent := fun _ _ _ _ _ => some []
  constructSystemTx := fun _ => some []
  executeSystemTransaction := fun _ _ => .ok ((), ())
  weightProcessTokens := fun n => ⟨n, 0⟩

/-- A pallet that has observed nothing, with a capacity of two transactions. -/
def demoState : PalletState demoPallet where
  mappings := fun _ => none
  utxoOwners := fun _ => none
  nextCardanoPosition := firstPosition
  cardanoTxCapacityPerBlock := 2
  inherentExecutedThisBlock := false
  events := []
  ledger := ()

theorem inherent_accepted_three_creates :
    ∃ r, getUtxosUpToCapacity demoSource.lib threeCreatesDb demoSource.config
        demoState.nextCardanoPosition 7 demoState.cardanoTxCapacityPerBlock.toNat = .ok r ∧
      ∀ error, ¬ FailsWith error
        (executeProcessTokens .none r.utxos r.end (onFinalize demoState)).2 := by
  have hr := demoCall_ok firstPosition (show utxoCapacity 2 < i32Max by decide)
  refine ⟨_, hr, ?_⟩
  have hb : getBlockByHash threeCreatesDb 7 = some ⟨1, 7, 1000, 200⟩ := rfl
  refine (inherent_accepted_iff demoSource demoState hb (by decide) (by decide) hr).1.2 ?_
  decide +kernel

/-- A registration in transaction `0` of block `1`. -/
def demoRegistration : RegistrationRow :=
  ⟨.constr 0 [.constr 0 [.bytes (List.replicate 28 4)], .bytes [5]], 1, 7, 1000, 0, 0, 200⟩

/-- One transaction with 128 new cNIGHT UTXOs and a registration. -/
def crowdedDb : CardanoDb :=
  { demoDb ((List.range 128).map fun i =>
      { demoCreate "addr1holder" 0 with utxoIndex := BitVec.ofNat 16 i }) with
    registrations := fun _ _ _ => [demoRegistration] }

theorem inherent_rejected_crowded :
    ∃ r, getUtxosUpToCapacity demoSource.lib crowdedDb demoSource.config
        demoState.nextCardanoPosition 7 demoState.cardanoTxCapacityPerBlock.toNat = .ok r ∧
      r.end = demoEnd ∧ r.utxos.length = 129 ∧
      FailsWith .tooManyUtxos
        (executeProcessTokens .none r.utxos r.end (onFinalize demoState)).2 := by
  have hlength : (truncateUtxos firstPosition demoEnd 2
      (demoSource.ordered crowdedDb firstPosition demoEnd 2)).utxos.length = 129 := by
    decide +kernel
  have hend : (truncateUtxos firstPosition demoEnd 2
      (demoSource.ordered crowdedDb firstPosition demoEnd 2)).end = demoEnd := by
    decide +kernel
  have htip : tipEnd crowdedDb 7 = .ok demoEnd := by decide
  refine ⟨_, ?_, hend, hlength, ?_⟩
  · exact (Source.getUtxosUpToCapacity_eq htip).trans (if_pos (by decide))
  · rw [hend]
    refine (processTokens_failsWith_iff (onFinalize demoState) rfl _ (by decide) _).2 ⟨rfl, ?_⟩
    rw [hlength]
    decide

end MidnightNode.Cnight
