/-
# The locks of the ledger context

A `LedgerContext` is shared between threads; its ledger state and its wallets are behind a mutex
each.  The calls below take them for the scopes written in the code.  Most of them that need
both take the ledger state first and the wallets inside, but `UtxoSpendInfo::build` looks for
the best matching UTXO in the ledger state from inside the closure that holds the wallets.

The batches builder spawns tasks that build such inputs and gather dust spends, and applies the
transactions that are finished in the meantime.
-/
import MidnightNode.Lib.Locks

namespace MidnightNode.Toolkit

open Locks

/-- The mutexes of a context. -/
inductive ContextLock
  | ledgerState
  | wallets
  | latestBlockContext
deriving DecidableEq, Repr

open ContextLock

/-- A guard of a mutex that lives as long as `body` runs. -/
def locking (l : ContextLock) (body : Prog ContextLock) : Prog ContextLock := .lock l body .done

/-! ### The scopes in the code -/

/-- `with_ledger_state`. -/
def withLedgerState (f : Prog ContextLock) : Prog ContextLock := locking ledgerState f

/-- `with_wallet_from_seed`. -/
def withWalletFromSeed (f : Prog ContextLock) : Prog ContextLock := locking wallets f

/-- `UtxoSpendInfo::min_match_utxo`, which reads the UTXOs of the ledger state. -/
def minMatchUtxoLocks : Prog ContextLock := withLedgerState .done

/-- `UtxoSpendInfo::build`: an UTXO that is not identified is looked for while the wallets are
locked. -/
def buildLocks (intentHash outputNumber : Option ℕ) : Prog ContextLock :=
  withWalletFromSeed <|
    match intentHash, outputNumber with
    | some _, some _ => .done
    | _, _ => minMatchUtxoLocks

/-- `UtxoSpendInfo::utxos_to_cover_value`. -/
def utxosToCoverValueLocks : Prog ContextLock := withLedgerState (withWalletFromSeed .done)

/-- `gather_dust_spends`: both guards live to the end of the function. -/
def gatherDustSpendsLocks : Prog ContextLock := locking ledgerState (locking wallets .done)

/-- `confirm_dust_spends`. -/
def confirmDustSpendsLocks : Prog ContextLock := locking wallets .done

/-- `update_from_tx`: the ledger state is locked to the end of the function, the wallets during
the loop over them. -/
def updateFromTxLocks : Prog ContextLock := locking ledgerState (locking wallets .done)

/-- `update_ledger_state_from_txs`, for a number of transactions. -/
def updateLedgerStateFromTxsLocks : ℕ → Prog ContextLock
  | 0 => locking ledgerState .done
  | txs + 1 =>
      (updateFromTxLocks.seq (locking wallets .done)).seq (updateLedgerStateFromTxsLocks txs)

/-- `update_ledger_state_from_bytes`. -/
def updateLedgerStateFromBytesLocks : Prog ContextLock := locking ledgerState .done

/-- `update_from_block`, for a number of transactions and with or without a state. -/
def updateFromBlockLocks (txs : ℕ) (state : Bool) : Prog ContextLock :=
  (updateLedgerStateFromTxsLocks txs).seq <|
    (if state then updateLedgerStateFromBytesLocks else .done).seq <|
      locking ledgerState ((locking wallets .done).seq (locking latestBlockContext .done))

/-- The calls that threads make on a shared context. -/
inductive ContextCall
  | build (intentHash outputNumber : Option ℕ)
  | utxosToCoverValue
  | gatherDustSpends
  | confirmDustSpends
  | updateFromTx
  | updateFromBlock (txs : ℕ) (state : Bool)
deriving DecidableEq, Repr

namespace ContextCall

/-- What a call locks. -/
def locks : ContextCall → Prog ContextLock
  | build intentHash outputNumber => buildLocks intentHash outputNumber
  | utxosToCoverValue => utxosToCoverValueLocks
  | gatherDustSpends => gatherDustSpendsLocks
  | confirmDustSpends => confirmDustSpendsLocks
  | updateFromTx => updateFromTxLocks
  | updateFromBlock txs state => updateFromBlockLocks txs state

/-- The call builds an input whose UTXO is not identified. -/
def BuildsUnidentified : ContextCall → Prop
  | build intentHash outputNumber => ¬ (intentHash.isSome ∧ outputNumber.isSome)
  | _ => False

/-- The call locks the wallets while it holds the ledger state. -/
def LedgerFirst : ContextCall → Prop
  | utxosToCoverValue | gatherDustSpends | updateFromTx | updateFromBlock _ _ => True
  | _ => False

/-- What the calls of a thread lock, one after the other. -/
def locksOf (calls : List ContextCall) : Prog ContextLock :=
  calls.foldr (fun call rest => call.locks.seq rest) .done

end ContextCall

open ContextCall

/-! ### What is nested in what -/

lemma nests_updateLedgerStateFromTxsLocks {txs : ℕ} {l l' : ContextLock}
    (h : (updateLedgerStateFromTxsLocks txs).Nests l l') : l = ledgerState ∧ l' = wallets := by
  induction txs with
  | zero => simp [updateLedgerStateFromTxsLocks, locking] at h
  | succ txs ih =>
    rw [updateLedgerStateFromTxsLocks, Prog.nests_seq] at h
    rcases h with h | h
    · simpa [updateFromTxLocks, locking] using h
    · exact ih h

/-- The pairs of locks that a call nests. -/
lemma nests_locks {call : ContextCall} {l l' : ContextLock} (h : call.locks.Nests l l') :
    (call.BuildsUnidentified ∧ l = wallets ∧ l' = ledgerState) ∨
      (call.LedgerFirst ∧ l = ledgerState ∧ l' ≠ ledgerState) := by
  cases call with
  | build intentHash outputNumber =>
    left
    cases intentHash with
    | none => simpa [locks, buildLocks, withWalletFromSeed, minMatchUtxoLocks, withLedgerState,
        locking, BuildsUnidentified] using h
    | some hash =>
      cases outputNumber with
      | none => simpa [locks, buildLocks, withWalletFromSeed, minMatchUtxoLocks, withLedgerState,
          locking, BuildsUnidentified] using h
      | some k => simp [locks, buildLocks, withWalletFromSeed, locking] at h
  | utxosToCoverValue =>
    right
    obtain ⟨rfl, rfl⟩ : l = ledgerState ∧ l' = wallets := by
      simpa [locks, utxosToCoverValueLocks, withLedgerState, withWalletFromSeed, locking] using h
    exact ⟨trivial, rfl, by decide⟩
  | gatherDustSpends =>
    right
    obtain ⟨rfl, rfl⟩ : l = ledgerState ∧ l' = wallets := by
      simpa [locks, gatherDustSpendsLocks, locking] using h
    exact ⟨trivial, rfl, by decide⟩
  | confirmDustSpends => simp [locks, confirmDustSpendsLocks, locking] at h
  | updateFromTx =>
    right
    obtain ⟨rfl, rfl⟩ : l = ledgerState ∧ l' = wallets := by
      simpa [locks, updateFromTxLocks, locking] using h
    exact ⟨trivial, rfl, by decide⟩
  | updateFromBlock txs state =>
    right
    rw [locks, updateFromBlockLocks, Prog.nests_seq, Prog.nests_seq] at h
    rcases h with h | h | h
    · obtain ⟨rfl, rfl⟩ := nests_updateLedgerStateFromTxsLocks h
      exact ⟨trivial, rfl, by decide⟩
    · cases state <;> simp [updateLedgerStateFromBytesLocks, locking] at h
    · obtain ⟨rfl, hl'⟩ : l = ledgerState ∧ (l' = wallets ∨ l' = latestBlockContext) := by
        simpa [locking] using h
      refine ⟨trivial, rfl, ?_⟩
      rcases hl' with rfl | rfl <;> decide

/-- A call that builds an unidentified input takes the ledger state inside the wallets. -/
lemma opens_of_buildsUnidentified {call : ContextCall} (h : call.BuildsUnidentified) :
    call.locks.Opens wallets ledgerState := by
  cases call with
  | build intentHash outputNumber =>
    cases intentHash with
    | none => exact ⟨.done, .done, .done, .done, rfl⟩
    | some hash =>
      cases outputNumber with
      | none => exact ⟨.done, .done, .done, .done, rfl⟩
      | some k => exact absurd ⟨rfl, rfl⟩ h
  | _ => exact absurd h id

/-- The other calls that take both take the wallets inside the ledger state. -/
lemma opens_of_ledgerFirst {call : ContextCall} (h : call.LedgerFirst) :
    call.locks.Opens ledgerState wallets := by
  cases call with
  | utxosToCoverValue => exact ⟨.done, .done, .done, .done, rfl⟩
  | gatherDustSpends => exact ⟨.done, .done, .done, .done, rfl⟩
  | updateFromTx => exact ⟨.done, .done, .done, .done, rfl⟩
  | updateFromBlock txs state =>
    refine Prog.Opens.seq_right (Prog.Opens.seq_right ?_ _) _
    exact ⟨.done, .done, _, .done, rfl⟩
  | _ => exact absurd h id

lemma nests_locksOf {calls : List ContextCall} {l l' : ContextLock}
    (h : (locksOf calls).Nests l l') : ∃ call ∈ calls, call.locks.Nests l l' := by
  induction calls with
  | nil => exact absurd h Prog.not_nests_done
  | cons call calls ih =>
    rcases Prog.nests_seq.1 h with h | h
    · exact ⟨call, List.mem_cons_self, h⟩
    · obtain ⟨call', hmem, hcall'⟩ := ih h
      exact ⟨call', List.mem_cons_of_mem call hmem, hcall'⟩

lemma opens_locksOf {calls : List ContextCall} {call : ContextCall} (hmem : call ∈ calls)
    {l l' : ContextLock} (h : call.locks.Opens l l') : (locksOf calls).Opens l l' := by
  induction calls with
  | nil => simp at hmem
  | cons call' calls ih =>
    rcases List.mem_cons.1 hmem with rfl | hmem
    · exact h.seq_left _
    · exact (ih hmem).seq_right _

lemma not_nests_self (calls : List ContextCall) (l : ContextLock) :
    ¬ (locksOf calls).Nests l l := by
  intro h
  obtain ⟨call, -, hcall⟩ := nests_locksOf h
  rcases nests_locks hcall with ⟨-, hl, hl'⟩ | ⟨-, hl, hl'⟩
  · exact absurd (hl.symm.trans hl') (by decide)
  · exact hl' hl

/-! ### When sharing a context is safe -/

section
variable {ι : Type*} (calls : ι → List ContextCall)

/-- Some thread builds an unidentified input, and another one makes a call that takes the
wallets inside the ledger state. -/
def OppositeOrders : Prop :=
  ∃ i j, i ≠ j ∧ (∃ call ∈ calls i, call.BuildsUnidentified) ∧
    ∃ call ∈ calls j, call.LedgerFirst

/-- The place of a mutex in the order in which most calls take them. -/
def ContextLock.rank : ContextLock → ℕ
  | ledgerState => 0
  | wallets => 1
  | latestBlockContext => 2

/-- **When threads can share a context.**  Finitely many threads that make any calls on one
context never deadlock exactly if no thread builds an input whose UTXO is not identified while
another one makes a call that locks the wallets inside the ledger state. -/
theorem deadlockFree_iff_not_oppositeOrders [Fintype ι] [DecidableEq ι] :
    System.DeadlockFree (fun i => locksOf (calls i)) ↔ ¬ OppositeOrders calls := by
  constructor
  · rintro hfree ⟨i, j, hij, ⟨call, hcall, hbuild⟩, ⟨call', hcall', hledger⟩⟩
    have hi := opens_locksOf hcall (opens_of_buildsUnidentified hbuild)
    have hj := opens_locksOf hcall' (opens_of_ledgerFirst hledger)
    have hne : wallets ≠ ledgerState := by decide
    exact System.not_deadlockFree_of_opposite (fun i => not_nests_self (calls i)) hij hne hi hj
      hfree
  · intro hop
    by_cases hbuild : ∃ i, ∃ call ∈ calls i, call.BuildsUnidentified
    · obtain ⟨i₀, hi₀⟩ := hbuild
      by_cases hledger : ∃ call ∈ calls i₀, call.LedgerFirst
      · -- only one thread nests locks at all
        have honly : ∀ k l l', (locksOf (calls k)).Nests l l' → k = i₀ := by
          intro k l l' hnests
          by_contra hk
          obtain ⟨call, hcall, hnests⟩ := nests_locksOf hnests
          rcases nests_locks hnests with ⟨hb, -⟩ | ⟨hf, -⟩
          · exact hop ⟨k, i₀, hk, ⟨call, hcall, hb⟩, hledger⟩
          · exact hop ⟨i₀, k, Ne.symm hk, hi₀, ⟨call, hcall, hf⟩⟩
        exact System.deadlockFree_of_one_nests (fun i => not_nests_self (calls i)) i₀ honly
      · -- no thread takes the wallets inside the ledger state
        have hnone : ∀ k l l', (locksOf (calls k)).Nests l l' →
            l = wallets ∧ l' = ledgerState := by
          intro k l l' hnests
          obtain ⟨call, hcall, hnests⟩ := nests_locksOf hnests
          rcases nests_locks hnests with ⟨-, hl⟩ | ⟨hf, -⟩
          · exact hl
          · exfalso
            by_cases hk : k = i₀
            · subst hk
              exact hledger ⟨call, hcall, hf⟩
            · exact hop ⟨i₀, k, Ne.symm hk, hi₀, ⟨call, hcall, hf⟩⟩
        refine System.deadlockFree_of_rank (fun i => not_nests_self (calls i))
          (fun l => if l = ledgerState then 1 else 0) 1 (fun l => by split <;> omega) ?_
        intro k l l' hnests
        obtain ⟨rfl, rfl⟩ := hnone k l l' hnests
        decide
    · -- every thread takes the mutexes in the order of their ranks
      refine System.deadlockFree_of_rank (fun i => not_nests_self (calls i)) ContextLock.rank 2
        (fun l => by cases l <;> decide) ?_
      intro k l l' hnests
      obtain ⟨call, hcall, hnests⟩ := nests_locksOf hnests
      rcases nests_locks hnests with ⟨hb, -⟩ | ⟨-, rfl, hl'⟩
      · exact absurd ⟨k, call, hcall, hb⟩ hbuild
      · cases l' with
        | ledgerState => exact absurd rfl hl'
        | wallets => decide
        | latestBlockContext => decide

end

/-- What a task of the batches builder does while the builder applies a transaction of another
task that is finished. -/
def batchesCalls : Fin 2 → List ContextCall
  | 0 => [.build none none, .gatherDustSpends, .confirmDustSpends]
  | 1 => [.updateFromTx]

/-- The task holds the wallets and looks for an UTXO in the ledger state, the builder holds the
ledger state and is about to update the wallets: neither can go on. -/
theorem batches_builder_deadlock :
    (∃ s, (System.start fun i => locksOf (batchesCalls i)).Reaches s ∧
      s.Embrace 0 1 wallets ledgerState ∧ ∀ i, s.step i = none) ∧
    ¬ System.DeadlockFree (fun i => locksOf (batchesCalls i)) := by
  obtain ⟨s, hs, hembrace⟩ := System.exists_embrace
    (s := System.start fun i => locksOf (batchesCalls i)) (i := 0) (j := 1) (by decide)
    (show wallets ≠ ledgerState by decide) rfl rfl rfl rfl
  have hstuck : ∀ i, s.step i = none := by
    intro i
    match i with
    | 0 => exact hembrace.wants_left.step_eq_none hembrace.owner_right
    | 1 => exact hembrace.wants_right.step_eq_none hembrace.owner_left
  refine ⟨⟨s, hs, hembrace, hstuck⟩, ?_⟩
  intro hfree
  obtain ⟨body, next, scopes, ht⟩ := hembrace.wants_left
  obtain ⟨i, -, hi⟩ := hfree s hs ⟨0, by rw [ht]; rintro ⟨hcur, -⟩; cases hcur⟩
  rw [hstuck i] at hi
  exact absurd hi (by simp)

end MidnightNode.Toolkit
