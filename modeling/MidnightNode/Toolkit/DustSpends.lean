/-
# Gathering DUST

A transaction pays its fees in DUST.  `gather_dust_spends` goes through the wallets of the funding
seeds, and in each wallet `speculative_spend` goes through the DUST outputs that are not marked
spent, until the required amount is covered.  Both loops together cover the amount from the
unmarked outputs of all listed wallets, in their order.

The crate of the ledger is a parameter.  Amounts are natural numbers, with a panic where a
subtraction would go below zero.
-/
import MidnightNode.Lib.Cover
import MidnightNode.Lib.Traverse
import Mathlib.Data.Finset.Basic
import Mathlib.Data.List.Flatten

namespace MidnightNode.Toolkit

open Cover Traverse

/-- What the wallets use of the ledger crate. -/
structure DustCrate where
  /-- `DustLocalState`. -/
  LocalState : Type
  /-- `DustSecretKey`. -/
  SecretKey : Type
  /-- `QualifiedDustOutput`. -/
  Output : Type
  /-- `DustNullifier`. -/
  Nullifier : Type
  [decNullifier : DecidableEq Nullifier]
  /-- `DustGenerationInfo`. -/
  GenerationInfo : Type
  /-- `DustParameters`. -/
  Parameters : Type
  /-- `DustSpend`. -/
  Spend : Type
  /-- The error of `spend`. -/
  SpendError : Type
  /-- The fee that a spend pays. -/
  vFee : Spend → ℕ
  /-- The nullifier of the output that a spend spends. -/
  oldNullifier : Spend → Nullifier
  /-- `utxos`, in the order of the iterator. -/
  utxos : LocalState → List Output
  /-- `nullifier`. -/
  nullifier : Output → SecretKey → Nullifier
  /-- `generation_info`. -/
  generationInfo : LocalState → Output → Option GenerationInfo
  /-- `updated_value`, at a time. -/
  updatedValue : Output → GenerationInfo → ℕ → Parameters → ℕ
  /-- `spend`: an output, a fee and a time. -/
  spend : LocalState → SecretKey → Output → ℕ → ℕ → Except SpendError (LocalState × Spend)

attribute [instance] DustCrate.decNullifier

/-- A spend pays the fee that was asked for, from the output that was asked for. -/
structure DustCrate.Lawful (K : DustCrate) : Prop where
  vFee_spend : ∀ {st sk q v t st' sp}, K.spend st sk q v t = .ok (st', sp) → K.vFee sp = v
  oldNullifier_spend : ∀ {st sk q v t st' sp}, K.spend st sk q v t = .ok (st', sp) →
    K.oldNullifier sp = K.nullifier q sk

variable {K : DustCrate} {Seed : Type}

/-! ### The code -/

/-- `DustWallet`, without its public key. -/
structure DustWallet (K : DustCrate) where
  secretKey : Option K.SecretKey
  dustLocalState : Option K.LocalState
  /-- The nullifiers that are marked spent. -/
  spentUtxos : Finset K.Nullifier

/-- Why no spends are returned. -/
inductive GatherError (K : DustCrate)
  /-- `DustSpendError::MissingLocalState`. -/
  | missingLocalState
  /-- `DustSpendError::UnrecognizedDustOutput`. -/
  | unrecognizedDustOutput (qdo : K.Output)
  /-- `DustSpendError::Internal`. -/
  | internal (error : K.SpendError)
  /-- `"Unrecognized wallet seed"`. -/
  | unrecognizedWalletSeed
  /-- `"Insufficient DUST (trying to spend {required_amount}, need {remaining} more)"`. -/
  | insufficientDust (requiredAmount remaining : ℕ)
  /-- Not an error that is returned: a subtraction underflows. -/
  | underflow

/-- A subtraction of unsigned numbers. -/
def checkedSub (a b : ℕ) : Except (GatherError K) ℕ :=
  if b ≤ a then .ok (a - b) else .error .underflow

namespace DustWallet

/-- The loop of `speculative_spend`, over the outputs that are still to come. -/
def spendLoop (w : DustWallet K) (sk : K.SecretKey) (ctime : ℕ) (params : K.Parameters) :
    K.LocalState → ℕ → List K.Output → Except (GatherError K) (List K.Spend)
  | _, _, [] => .ok []
  | state, remainingAmount, qdo :: rest =>
    if K.nullifier qdo sk ∈ w.spentUtxos then w.spendLoop sk ctime params state remainingAmount rest
    else
      match K.generationInfo state qdo with
      | none => .error (.unrecognizedDustOutput qdo)
      | some genInfo =>
        let vFee := min remainingAmount (K.updatedValue qdo genInfo ctime params)
        if vFee = 0 then w.spendLoop sk ctime params state remainingAmount rest
        else do
          let (newState, spend) ← (K.spend state sk qdo vFee ctime).mapError .internal
          let remainingAmount ← checkedSub remainingAmount vFee
          if remainingAmount = 0 then .ok [spend]
          else do
            let spends ← w.spendLoop sk ctime params newState remainingAmount rest
            .ok (spend :: spends)

/-- `speculative_spend`. -/
def speculativeSpend (w : DustWallet K) (amount ctime : ℕ) (params : K.Parameters) :
    Except (GatherError K) (List K.Spend) :=
  match w.dustLocalState, w.secretKey with
  | none, _ => .error .missingLocalState
  | some _, none => .error .missingLocalState
  | some originalState, some sk =>
    w.spendLoop sk ctime params originalState amount (K.utxos originalState)

/-- `mark_spent`. -/
def markSpent (w : DustWallet K) (spends : List K.Spend) : DustWallet K :=
  let mark := fun spent spend => insert (K.oldNullifier spend) spent
  { w with spentUtxos := spends.foldl mark w.spentUtxos }

end DustWallet

/-- The wallets of a context, by their seed. -/
abbrev Wallets (K : DustCrate) (Seed : Type) := Seed → Option (DustWallet K)

/-- The loop of `gather_dust_spends`, over the seeds that are still to come: what remains at the
end, and the spends. -/
def gatherLoop (wallets : Wallets K Seed) (ctime : ℕ) (params : K.Parameters) :
    ℕ → List Seed → Except (GatherError K) (ℕ × List K.Spend)
  | remaining, [] => .ok (remaining, [])
  | remaining, seed :: seeds =>
    if remaining = 0 then .ok (0, [])
    else
      match wallets seed with
      | none => .error .unrecognizedWalletSeed
      | some wallet => do
        let newSpends ← wallet.speculativeSpend remaining ctime params
        let remaining ← newSpends.foldlM (fun r spend => checkedSub r (K.vFee spend)) remaining
        let (remaining, spends) ← gatherLoop wallets ctime params remaining seeds
        .ok (remaining, newSpends ++ spends)

/-- `gather_dust_spends`. -/
def gatherDustSpends (wallets : Wallets K Seed) (fundingSeeds : List Seed)
    (requiredAmount ctime : ℕ) (params : K.Parameters) :
    Except (GatherError K) (List K.Spend) := do
  let (remaining, spends) ← gatherLoop wallets ctime params requiredAmount fundingSeeds
  if 0 < remaining then .error (.insufficientDust requiredAmount remaining) else .ok spends

/-- `confirm_dust_spends`: every wallet of the context marks the spends. -/
def confirmDustSpends (wallets : Wallets K Seed) (spends : List K.Spend) : Wallets K Seed :=
  fun seed => (wallets seed).map fun w => w.markSpent spends

/-! ### What the wallets offer -/

/-- The nullifiers of the outputs of a wallet. -/
def DustWallet.nullifiers (w : DustWallet K) : List K.Nullifier :=
  match w.dustLocalState, w.secretKey with
  | some state, some sk => (K.utxos state).map fun q => K.nullifier q sk
  | _, _ => []

/-- The nullifiers of the outputs of a wallet that are not marked spent. -/
def DustWallet.unmarked (w : DustWallet K) : List K.Nullifier :=
  w.nullifiers.filter fun n => n ∉ w.spentUtxos

/-- Different outputs of the wallets of a context have different nullifiers. -/
structure DistinctNullifiers (wallets : Wallets K Seed) : Prop where
  within : ∀ seed w, wallets seed = some w → w.nullifiers.Nodup
  across : ∀ seed seed' w w', wallets seed = some w → wallets seed' = some w' → seed ≠ seed' →
    w.nullifiers.Disjoint w'.nullifiers

/-- The unmarked nullifiers of listed wallets. -/
def unmarkedOf (wallets : Wallets K Seed) (seeds : List Seed) : List K.Nullifier :=
  seeds.flatMap fun seed => ((wallets seed).map DustWallet.unmarked).getD []

/-- The current value of an output. -/
def currentValue (state : K.LocalState) (ctime : ℕ) (params : K.Parameters) (q : K.Output) : ℕ :=
  match K.generationInfo state q with
  | none => 0
  | some genInfo => K.updatedValue q genInfo ctime params

/-- The unmarked outputs of a wallet: the nullifier of each, and its current value. -/
def DustWallet.offers (w : DustWallet K) (ctime : ℕ) (params : K.Parameters) :
    List (K.Nullifier × ℕ) :=
  match w.dustLocalState, w.secretKey with
  | some state, some sk =>
    ((K.utxos state).filter fun q => K.nullifier q sk ∉ w.spentUtxos).map fun q =>
      (K.nullifier q sk, currentValue state ctime params q)
  | _, _ => []

/-- What listed wallets offer. -/
def offersOf (wallets : Wallets K Seed) (seeds : List Seed) (ctime : ℕ) (params : K.Parameters) :
    List (K.Nullifier × ℕ) :=
  seeds.flatMap fun seed => ((wallets seed).map fun w => w.offers ctime params).getD []

/-- Outputs can be spent one after the other: `generation_info` knows each of them, with a given
value, and `spend` succeeds for every fee up to that value, whatever was spent before. -/
def Spendable (sk : K.SecretKey) (ctime : ℕ) (params : K.Parameters) (value : K.Output → ℕ) :
    K.LocalState → List K.Output → Prop
  | _, [] => True
  | state, q :: rest =>
    (∃ genInfo, K.generationInfo state q = some genInfo ∧
      K.updatedValue q genInfo ctime params = value q) ∧
    Spendable sk ctime params value state rest ∧
    ∀ v, 0 < v → v ≤ value q → ∃ state' sp, K.spend state sk q v ctime = .ok (state', sp) ∧
      Spendable sk ctime params value state' rest

/-- A wallet with its local state and secret key, whose unmarked outputs can be spent. -/
structure DustWallet.Ready (w : DustWallet K) (ctime : ℕ) (params : K.Parameters) : Prop where
  complete : ∃ state sk, w.dustLocalState = some state ∧ w.secretKey = some sk ∧
    Spendable sk ctime params (currentValue state ctime params) state
      ((K.utxos state).filter fun q => K.nullifier q sk ∉ w.spentUtxos)

/-! ### The nullifiers of gathered spends -/

lemma checkedSub_eq_ok {a b c : ℕ} :
    (checkedSub a b : Except (GatherError K) ℕ) = .ok c ↔ b ≤ a ∧ c = a - b := by
  rw [checkedSub]
  split
  · rename_i h
    exact ⟨fun heq => ⟨h, (Except.ok.inj heq).symm⟩, fun heq => by rw [heq.2]⟩
  · rename_i h
    exact ⟨fun heq => absurd heq (by simp), fun heq => absurd heq.1 h⟩

lemma spendLoop_sublist (hK : K.Lawful) {w : DustWallet K} {sk : K.SecretKey} {ctime : ℕ}
    {params : K.Parameters} {state : K.LocalState} {remainingAmount : ℕ} {rest : List K.Output}
    {spends : List K.Spend}
    (h : w.spendLoop sk ctime params state remainingAmount rest = .ok spends) :
    (spends.map K.oldNullifier).Sublist
      ((rest.map fun q => K.nullifier q sk).filter fun n => n ∉ w.spentUtxos) := by
  induction rest generalizing state remainingAmount spends with
  | nil =>
    obtain rfl := Except.ok.inj h
    exact List.Sublist.refl _
  | cons q rest ih =>
    rw [DustWallet.spendLoop] at h
    rw [List.map_cons]
    split at h
    · rename_i hmarked
      rw [List.filter_cons_of_neg (by simpa using hmarked)]
      exact ih h
    · rename_i hunmarked
      rw [List.filter_cons_of_pos (by simpa using hunmarked)]
      split at h
      · exact absurd h (by simp)
      · dsimp only at h
        split at h
        · exact (ih h).cons _
        · obtain ⟨⟨newState, spend⟩, hspend, h⟩ := bind_eq_ok.1 h
          have hnull := hK.oldNullifier_spend (mapError_eq_ok.1 hspend)
          obtain ⟨remaining, -, h⟩ := bind_eq_ok.1 h
          split at h
          · obtain rfl := Except.ok.inj h
            rw [List.map_cons, hnull]
            exact (List.nil_sublist _).cons_cons _
          · obtain ⟨spends', hrest, h⟩ := bind_eq_ok.1 h
            obtain rfl := Except.ok.inj h
            rw [List.map_cons, hnull]
            exact (ih hrest).cons_cons _

/-- The spends of a wallet are of different unmarked outputs, in their order. -/
lemma speculativeSpend_sublist (hK : K.Lawful) {w : DustWallet K} {amount ctime : ℕ}
    {params : K.Parameters} {spends : List K.Spend}
    (h : w.speculativeSpend amount ctime params = .ok spends) :
    (spends.map K.oldNullifier).Sublist w.unmarked := by
  rw [DustWallet.speculativeSpend] at h
  rw [DustWallet.unmarked, DustWallet.nullifiers]
  split at h
  · exact absurd h (by simp)
  · exact absurd h (by simp)
  · rename_i state sk hstate hsk
    rw [hstate, hsk]
    exact spendLoop_sublist hK h

lemma unmarkedOf_cons {wallets : Wallets K Seed} {seed : Seed} {w : DustWallet K}
    (hw : wallets seed = some w) (seeds : List Seed) :
    unmarkedOf wallets (seed :: seeds) = w.unmarked ++ unmarkedOf wallets seeds := by
  rw [unmarkedOf, List.flatMap_cons, hw]
  rfl

lemma gatherLoop_sublist (hK : K.Lawful) {wallets : Wallets K Seed} {ctime : ℕ}
    {params : K.Parameters} {remaining : ℕ} {seeds : List Seed} {r : ℕ × List K.Spend}
    (h : gatherLoop wallets ctime params remaining seeds = .ok r) :
    (r.2.map K.oldNullifier).Sublist (unmarkedOf wallets seeds) := by
  induction seeds generalizing remaining r with
  | nil =>
    obtain rfl := Except.ok.inj h
    exact List.Sublist.refl _
  | cons seed seeds ih =>
    rw [gatherLoop] at h
    split at h
    · obtain rfl := Except.ok.inj h
      exact List.nil_sublist _
    · split at h
      · exact absurd h (by simp)
      · rename_i w hw
        obtain ⟨newSpends, hnew, h⟩ := bind_eq_ok.1 h
        obtain ⟨remaining', -, h⟩ := bind_eq_ok.1 h
        obtain ⟨⟨remaining'', spends⟩, hrest, h⟩ := bind_eq_ok.1 h
        obtain rfl := Except.ok.inj h
        rw [List.map_append, unmarkedOf_cons hw]
        exact (speculativeSpend_sublist hK hnew).append (ih hrest)

/-- Gathered spends are of different unmarked outputs of the listed wallets, in their order. -/
lemma gatherDustSpends_sublist (hK : K.Lawful) {wallets : Wallets K Seed}
    {fundingSeeds : List Seed} {requiredAmount ctime : ℕ} {params : K.Parameters}
    {spends : List K.Spend}
    (h : gatherDustSpends wallets fundingSeeds requiredAmount ctime params = .ok spends) :
    (spends.map K.oldNullifier).Sublist (unmarkedOf wallets fundingSeeds) := by
  obtain ⟨⟨remaining, spends'⟩, hloop, h⟩ := bind_eq_ok.1 h
  dsimp only at h
  split at h
  · exact absurd h (by simp)
  · obtain rfl := Except.ok.inj h
    exact gatherLoop_sublist hK hloop

lemma mem_getD_unmarked {o : Option (DustWallet K)} {n : K.Nullifier} :
    n ∈ (o.map DustWallet.unmarked).getD [] ↔
      ∃ w, o = some w ∧ n ∈ w.nullifiers ∧ n ∉ w.spentUtxos := by
  cases o with
  | none => simp
  | some w => simp [DustWallet.unmarked]

lemma mem_unmarkedOf {wallets : Wallets K Seed} {seeds : List Seed} {n : K.Nullifier} :
    n ∈ unmarkedOf wallets seeds ↔
      ∃ seed ∈ seeds, ∃ w, wallets seed = some w ∧ n ∈ w.nullifiers ∧ n ∉ w.spentUtxos := by
  rw [unmarkedOf, List.mem_flatMap]
  exact exists_congr fun seed => and_congr_right fun _ => mem_getD_unmarked

lemma DistinctNullifiers.nodup_unmarkedOf {wallets : Wallets K Seed}
    (h : DistinctNullifiers wallets) {seeds : List Seed} (hseeds : seeds.Nodup) :
    (unmarkedOf wallets seeds).Nodup := by
  rw [unmarkedOf, List.nodup_flatMap]
  constructor
  · intro seed _
    cases hw : wallets seed with
    | none => exact List.nodup_nil
    | some w => exact (h.within seed w hw).filter _
  · refine hseeds.imp fun {seed seed'} hne => ?_
    intro n hn hn'
    obtain ⟨w, hw, hn⟩ := mem_getD_unmarked.1 hn
    obtain ⟨w', hw', hn'⟩ := mem_getD_unmarked.1 hn'
    exact h.across seed seed' w w' hw hw' hne hn.1 hn'.1

/-! ### The amount -/

/-- A spend, as far as it counts here. -/
def outline (spend : K.Spend) : K.Nullifier × ℕ :=
  (K.oldNullifier spend, K.vFee spend)

/-- What is taken of an offer. -/
def taken (p : (K.Nullifier × ℕ) × ℕ) : K.Nullifier × ℕ :=
  (p.1.1, p.2)

lemma map_vFee_eq {spends : List K.Spend} {c : List ((K.Nullifier × ℕ) × ℕ)}
    (h : spends.map outline = c.map taken) : spends.map K.vFee = c.map Prod.snd := by
  have h' := congrArg (List.map Prod.snd) h
  rw [List.map_map, List.map_map] at h'
  exact h'

/-- The loop over the outputs covers the amount. -/
lemma spendLoop_eq_cover (hK : K.Lawful) {w : DustWallet K} {sk : K.SecretKey} {ctime : ℕ}
    {params : K.Parameters} {value : K.Output → ℕ} {state : K.LocalState} {amount : ℕ}
    {rest : List K.Output}
    (h : Spendable sk ctime params value state
      (rest.filter fun q => K.nullifier q sk ∉ w.spentUtxos)) :
    ∃ spends, w.spendLoop sk ctime params state amount rest = .ok spends ∧
      spends.map outline =
        (cover Prod.snd amount ((rest.filter fun q => K.nullifier q sk ∉ w.spentUtxos).map
          fun q => (K.nullifier q sk, value q))).map taken := by
  induction rest generalizing state amount with
  | nil => exact ⟨[], rfl, rfl⟩
  | cons q rest ih =>
    rw [DustWallet.spendLoop]
    by_cases hmarked : K.nullifier q sk ∈ w.spentUtxos
    · rw [List.filter_cons_of_neg (by simpa using hmarked)] at h ⊢
      rw [if_pos hmarked]
      exact ih h
    · rw [List.filter_cons_of_pos (by simpa using hmarked)] at h ⊢
      obtain ⟨⟨genInfo, hgen, hvalue⟩, hskip, hspend⟩ := h
      rw [if_neg hmarked, hgen, List.map_cons]
      dsimp only
      rw [hvalue]
      by_cases hzero : min amount (value q) = 0
      · -- nothing is taken of this output, and the state stays as it is
        have hskipped : min amount (K.nullifier q sk, value q).2 = 0 := hzero
        rw [if_pos hzero, cover_cons_skip hskipped]
        exact ih hskip
      · obtain ⟨state', sp, hok, hrest⟩ := hspend (min amount (value q))
          (Nat.pos_of_ne_zero hzero) (Nat.min_le_right _ _)
        have htaken : min amount (K.nullifier q sk, value q).2 ≠ 0 := hzero
        have hsub : (checkedSub amount (min amount (value q)) : Except (GatherError K) ℕ) =
            .ok (amount - min amount (value q)) :=
          checkedSub_eq_ok.2 ⟨Nat.min_le_left _ _, rfl⟩
        have hsp : outline sp = (K.nullifier q sk, min amount (value q)) := by
          rw [outline, hK.oldNullifier_spend hok, hK.vFee_spend hok]
        rw [if_neg hzero, cover_cons_take htaken, hok, List.map_cons]
        simp only [Except.mapError, bind, Except.bind, hsub]
        by_cases hdone : amount - min amount (value q) = 0
        · refine ⟨[sp], if_pos hdone, ?_⟩
          rw [hdone, cover_zero, List.map_singleton, hsp]
          rfl
        · obtain ⟨spends, hloop, hspends⟩ := ih hrest
          refine ⟨sp :: spends, ?_, ?_⟩
          · rw [if_neg hdone, hloop]
          · rw [List.map_cons, hsp, hspends]
            rfl

lemma speculativeSpend_eq_cover (hK : K.Lawful) {w : DustWallet K} {ctime : ℕ}
    {params : K.Parameters} (h : w.Ready ctime params) (amount : ℕ) :
    ∃ spends, w.speculativeSpend amount ctime params = .ok spends ∧
      spends.map outline = (cover Prod.snd amount (w.offers ctime params)).map taken := by
  obtain ⟨state, sk, hstate, hsk, hspendable⟩ := h.complete
  rw [DustWallet.speculativeSpend, DustWallet.offers, hstate, hsk]
  exact spendLoop_eq_cover hK hspendable

/-- Subtracting fees one after the other. -/
lemma foldlM_checkedSub {spends : List K.Spend} {remaining : ℕ}
    (h : (spends.map K.vFee).sum ≤ remaining) :
    spends.foldlM (fun r spend => checkedSub r (K.vFee spend)) remaining =
      (.ok (remaining - (spends.map K.vFee).sum) : Except (GatherError K) ℕ) := by
  induction spends generalizing remaining with
  | nil => rfl
  | cons spend spends ih =>
    rw [List.map_cons, List.sum_cons] at h ⊢
    rw [List.foldlM_cons, checkedSub_eq_ok.2 ⟨Nat.le_of_add_right_le h, rfl⟩]
    rw [Nat.sub_add_eq]
    exact ih (Nat.le_sub_of_add_le' h)

lemma offersOf_cons {wallets : Wallets K Seed} {seed : Seed} {w : DustWallet K}
    (hw : wallets seed = some w) (seeds : List Seed) (ctime : ℕ) (params : K.Parameters) :
    offersOf wallets (seed :: seeds) ctime params =
      w.offers ctime params ++ offersOf wallets seeds ctime params := by
  rw [offersOf, List.flatMap_cons, hw]
  rfl

/-- Both loops together cover the amount. -/
lemma gatherLoop_eq_cover (hK : K.Lawful) {wallets : Wallets K Seed} {ctime : ℕ}
    {params : K.Parameters} {seeds : List Seed}
    (hready : ∀ seed ∈ seeds, ∃ w, wallets seed = some w ∧ w.Ready ctime params)
    (remaining : ℕ) :
    ∃ spends, gatherLoop wallets ctime params remaining seeds =
        .ok (remaining - ((offersOf wallets seeds ctime params).map Prod.snd).sum, spends) ∧
      spends.map outline =
        (cover Prod.snd remaining (offersOf wallets seeds ctime params)).map taken := by
  induction seeds generalizing remaining with
  | nil => exact ⟨[], rfl, rfl⟩
  | cons seed seeds ih =>
    obtain ⟨w, hw, hwready⟩ := hready seed List.mem_cons_self
    rw [gatherLoop]
    by_cases hzero : remaining = 0
    · subst hzero
      refine ⟨[], ?_, ?_⟩
      · rw [if_pos rfl, Nat.zero_sub]
      · rw [cover_zero]
        rfl
    · obtain ⟨newSpends, hnew, hcover⟩ := speculativeSpend_eq_cover hK hwready remaining
      have hsum : (newSpends.map K.vFee).sum =
          min remaining ((w.offers ctime params).map Prod.snd).sum := by
        rw [map_vFee_eq hcover, sum_cover]
      obtain ⟨spends, hloop, hspends⟩ :=
        ih (fun seed' hseed' => hready seed' (List.mem_cons_of_mem seed hseed'))
          (remaining - ((w.offers ctime params).map Prod.snd).sum)
      have hremaining : remaining - (newSpends.map K.vFee).sum =
          remaining - ((w.offers ctime params).map Prod.snd).sum := by
        rw [hsum]
        omega
      refine ⟨newSpends ++ spends, ?_, ?_⟩
      · rw [if_neg hzero, hw]
        dsimp only
        rw [hnew]
        simp only [bind, Except.bind]
        rw [foldlM_checkedSub (by rw [hsum]; exact Nat.min_le_left _ _), hremaining]
        dsimp only
        rw [hloop, offersOf_cons hw, List.map_append, List.sum_append, Nat.sub_add_eq]
      · rw [offersOf_cons hw, cover_append, List.map_append, List.map_append, hcover, hspends]

/-- `gather_dust_spends` covers the required amount from what the listed wallets offer, or says
how much is missing. -/
lemma gatherDustSpends_eq_cover (hK : K.Lawful) {wallets : Wallets K Seed} {ctime : ℕ}
    {params : K.Parameters} {seeds : List Seed}
    (hready : ∀ seed ∈ seeds, ∃ w, wallets seed = some w ∧ w.Ready ctime params)
    (requiredAmount : ℕ) :
    let total := ((offersOf wallets seeds ctime params).map Prod.snd).sum
    (total < requiredAmount ∧ gatherDustSpends wallets seeds requiredAmount ctime params =
      .error (.insufficientDust requiredAmount (requiredAmount - total))) ∨
    (requiredAmount ≤ total ∧ ∃ spends,
      gatherDustSpends wallets seeds requiredAmount ctime params = .ok spends ∧
      spends.map outline =
        (cover Prod.snd requiredAmount (offersOf wallets seeds ctime params)).map taken) := by
  obtain ⟨spends, hloop, hspends⟩ := gatherLoop_eq_cover hK hready requiredAmount
  simp only [gatherDustSpends, hloop, bind, Except.bind]
  rcases Nat.lt_or_ge ((offersOf wallets seeds ctime params).map Prod.snd).sum
    requiredAmount with hlt | hle
  · exact .inl ⟨hlt, if_pos (Nat.sub_pos_of_lt hlt)⟩
  · exact .inr ⟨hle, spends, if_neg (by omega), hspends⟩

lemma mem_offersOf {wallets : Wallets K Seed} {seeds : List Seed} {ctime : ℕ}
    {params : K.Parameters} {p : K.Nullifier × ℕ} (h : p ∈ offersOf wallets seeds ctime params) :
    ∃ seed ∈ seeds, ∃ w state sk q, wallets seed = some w ∧ w.dustLocalState = some state ∧
      w.secretKey = some sk ∧ q ∈ K.utxos state ∧ p.1 = K.nullifier q sk ∧
      p.2 = currentValue state ctime params q ∧ p.1 ∉ w.spentUtxos := by
  rw [offersOf, List.mem_flatMap] at h
  obtain ⟨seed, hseed, hp⟩ := h
  cases hw : wallets seed with
  | none =>
    rw [hw] at hp
    exact absurd hp List.not_mem_nil
  | some w =>
    rw [hw] at hp
    change p ∈ w.offers ctime params at hp
    rw [DustWallet.offers] at hp
    split at hp
    · rename_i state sk hstate hsk
      obtain ⟨q, hq, rfl⟩ := List.mem_map.1 hp
      obtain ⟨hq, hunmarked⟩ := List.mem_filter.1 hq
      exact ⟨seed, hseed, w, state, sk, q, hw, hstate, hsk, hq, rfl, rfl, by simpa using hunmarked⟩
    · exact absurd hp List.not_mem_nil

/-- A gathered spend is of an unmarked output of a listed wallet, and pays at most its current
value. -/
def SpendsOffer (wallets : Wallets K Seed) (seeds : List Seed) (ctime : ℕ) (params : K.Parameters)
    (spend : K.Spend) : Prop :=
  ∃ seed ∈ seeds, ∃ w state sk q, wallets seed = some w ∧ w.dustLocalState = some state ∧
    w.secretKey = some sk ∧ q ∈ K.utxos state ∧ K.oldNullifier spend = K.nullifier q sk ∧
    K.vFee spend ≤ currentValue state ctime params q ∧ K.oldNullifier spend ∉ w.spentUtxos

/-- DUST gathering is exact: it never underflows; it succeeds exactly if the unmarked outputs of
the listed wallets have the required amount; and then the fees are positive and sum up to it, and
the spends are of different unmarked outputs whose current values suffice. -/
theorem gatherDustSpends_exact (hK : K.Lawful) (wallets : Wallets K Seed)
    (hdistinct : DistinctNullifiers wallets) (fundingSeeds : List Seed)
    (hseeds : fundingSeeds.Nodup) (ctime : ℕ) (params : K.Parameters)
    (hready : ∀ seed ∈ fundingSeeds, ∃ w, wallets seed = some w ∧ w.Ready ctime params)
    (requiredAmount : ℕ) :
    gatherDustSpends wallets fundingSeeds requiredAmount ctime params ≠ .error .underflow ∧
    ((∃ spends, gatherDustSpends wallets fundingSeeds requiredAmount ctime params = .ok spends) ↔
      requiredAmount ≤ ((offersOf wallets fundingSeeds ctime params).map Prod.snd).sum) ∧
    ∀ spends, gatherDustSpends wallets fundingSeeds requiredAmount ctime params = .ok spends →
      (∀ spend ∈ spends, 0 < K.vFee spend ∧
        SpendsOffer wallets fundingSeeds ctime params spend) ∧
      (spends.map K.vFee).sum = requiredAmount ∧ (spends.map K.oldNullifier).Nodup := by
  rcases gatherDustSpends_eq_cover hK hready requiredAmount with ⟨hlt, herr⟩ | ⟨hle, ss, hok, hss⟩
  · rw [herr]
    refine ⟨by simp, iff_of_false (by simp) (Nat.not_le_of_lt hlt), fun spends h => ?_⟩
    exact absurd h (by simp)
  · refine ⟨by rw [hok]; simp, iff_of_true ⟨ss, hok⟩ hle, fun spends h => ?_⟩
    obtain rfl := Except.ok.inj (hok.symm.trans h)
    refine ⟨fun spend hspend => ?_, ?_, ?_⟩
    · have hmem : outline spend ∈
          (cover Prod.snd requiredAmount (offersOf wallets fundingSeeds ctime params)).map
            taken := by
        rw [← hss]
        exact List.mem_map_of_mem hspend
      obtain ⟨p, hp, hpt⟩ := List.mem_map.1 hmem
      obtain ⟨hnull, hfee⟩ := Prod.mk.inj hpt
      obtain ⟨hoffer, hpos, hbound⟩ := bounds_of_mem_cover hp
      obtain ⟨seed, hseed, w, state, sk, q, hw, hstate, hsk, hq, hn, hv, hunmarked⟩ :=
        mem_offersOf hoffer
      rw [hnull] at hn hunmarked
      exact ⟨hfee ▸ hpos, seed, hseed, w, state, sk, q, hw, hstate, hsk, hq, hn,
        hfee ▸ hv ▸ hbound, hunmarked⟩
    · rw [map_vFee_eq hss, sum_cover]
      exact Nat.min_eq_left hle
    · exact (hdistinct.nodup_unmarkedOf hseeds).sublist (gatherDustSpends_sublist hK hok)

/-! ### A small crate -/

/-- A small DUST crate: an output has a number and a value, and spending it removes it from the
local state. -/
@[reducible] def smallDust : DustCrate where
  LocalState := List (ℕ × ℕ)
  SecretKey := ℕ
  Output := ℕ × ℕ
  Nullifier := ℕ × ℕ
  GenerationInfo := Unit
  Parameters := Unit
  Spend := (ℕ × ℕ) × ℕ
  SpendError := Unit
  vFee := Prod.snd
  oldNullifier := Prod.fst
  utxos := id
  nullifier q sk := (sk, q.1)
  generationInfo _ _ := some ()
  updatedValue q _ _ _ := q.2
  spend state sk q v _ :=
    if q ∈ state ∧ v ≤ q.2 then .ok (state.erase q, ((sk, q.1), v)) else .error ()

lemma eq_of_smallDust_spend {state state' : List (ℕ × ℕ)} {sk v t : ℕ} {q : ℕ × ℕ}
    {sp : (ℕ × ℕ) × ℕ} (h : smallDust.spend state sk q v t = .ok (state', sp)) :
    sp = ((sk, q.1), v) := by
  dsimp only at h
  split at h
  · exact (Prod.mk.inj (Except.ok.inj h)).2.symm
  · exact absurd h (by simp)

lemma smallDust_lawful : smallDust.Lawful where
  vFee_spend h := by rw [eq_of_smallDust_spend h]
  oldNullifier_spend h := by rw [eq_of_smallDust_spend h]

lemma smallDust_spendable (sk : ℕ) {state outputs : List (ℕ × ℕ)} (hsub : outputs ⊆ state)
    (hnodup : outputs.Nodup) : @Spendable smallDust sk 0 () Prod.snd state outputs := by
  induction outputs generalizing state with
  | nil => trivial
  | cons q outputs ih =>
    obtain ⟨hq, hnodup⟩ := List.nodup_cons.1 hnodup
    have hrest : outputs ⊆ state := fun q' hq' => hsub (List.mem_cons_of_mem q hq')
    refine ⟨⟨(), rfl, rfl⟩, ih hrest hnodup, fun v _ hv => ?_⟩
    refine ⟨state.erase q, ((sk, q.1), v), if_pos ⟨hsub List.mem_cons_self, hv⟩, ih ?_ hnodup⟩
    intro q' hq'
    have hne : q' ≠ q := by
      rintro rfl
      exact hq hq'
    exact (List.mem_erase_of_ne hne).2 (hrest hq')

/-- Two wallets.  One output of the first is marked spent. -/
def smallWallets : Wallets smallDust Bool
  | false => some ⟨some 10, some [(1, 5), (2, 0), (3, 4)], {(10, 1)}⟩
  | true => some ⟨some 20, some [(1, 7)], ∅⟩

lemma fst_of_mem_nullifiers {seed : Bool} {w : DustWallet smallDust}
    (hw : smallWallets seed = some w) {n : ℕ × ℕ} (hn : n ∈ w.nullifiers) :
    n.1 = if seed then 20 else 10 := by
  cases seed <;> cases hw <;> obtain ⟨q, -, rfl⟩ := List.mem_map.1 hn <;> rfl

lemma smallWallets_distinct : DistinctNullifiers smallWallets where
  within := by
    intro seed w hw
    cases seed <;> cases hw <;> decide
  across := by
    intro seed seed' w w' hw hw' hne n hn hn'
    have hkey := (fst_of_mem_nullifiers hw hn).symm.trans (fst_of_mem_nullifiers hw' hn')
    cases seed <;> cases seed' <;> first | exact hne rfl | exact absurd hkey (by decide)

lemma smallWallets_ready (seed : Bool) :
    ∃ w, smallWallets seed = some w ∧ w.Ready 0 () := by
  cases seed with
  | false =>
    exact ⟨_, rfl, ⟨_, _, rfl, rfl, smallDust_spendable 10 (by decide) (by decide)⟩⟩
  | true =>
    exact ⟨_, rfl, ⟨_, _, rfl, rfl, smallDust_spendable 20 (by decide) (by decide)⟩⟩

/-- Both wallets together have eleven DUST in unmarked outputs. -/
theorem gatherDustSpends_smallWallets :
    ∃ spends, gatherDustSpends smallWallets [false, true] 6 0 () = .ok spends ∧
      (spends.map smallDust.vFee).sum = 6 ∧ (spends.map smallDust.oldNullifier).Nodup := by
  have h := gatherDustSpends_exact smallDust_lawful smallWallets smallWallets_distinct
    [false, true] (by decide) 0 () (fun seed _ => smallWallets_ready seed) 6
  obtain ⟨spends, hok⟩ := h.2.1.2 (by decide)
  exact ⟨spends, hok, (h.2.2 spends hok).2⟩

end MidnightNode.Toolkit
