/-
# Batches of chained transfers

`BatchesBuilder` funds a first set of wallets and then lets each set send all it has to the next
one.  The wallets come from seeds that are counted up.  The transactions of a batch are built by
concurrent tasks, while the main task awaits them in order and applies each to the shared context;
so a transaction is built in a state in which any number of those before it in its batch have been
applied already.

A task reads the UTXOs of its own wallet only, and the wallets are distinct (`nodup_seeds`).
Therefore the order does not matter: as long as the ledger accepts the transactions, every task
finds a UTXO of exactly the amount it sends, and what it spends is still there when its
transaction is applied.  A wallet whose transaction was rejected, for example because its fees were
paid with DUST that another one had spent, cannot send anything, and its task panics in the next
batch (`BatchState.Stops`).
-/
import MidnightNode.Lib.Groups
import MidnightNode.Lib.Hex
import MidnightNode.Toolkit.UnshieldedOffers

namespace MidnightNode.Toolkit

open Traverse
open scoped List

/-! ### Seeds -/

/-- `WalletSeed`. -/
inductive WalletSeed
  | short (bytes : List UInt8) (length_eq : bytes.length = 16)
  | medium (bytes : List UInt8) (length_eq : bytes.length = 32)
  | long (bytes : List UInt8) (length_eq : bytes.length = 64)
deriving DecidableEq

/-- `WalletSeedError`, as far as it occurs here. -/
inductive WalletSeedError
  | invalidHex
  | invalidLength (len : ℕ)

/-- `try_from_hex_str`. -/
def WalletSeed.tryFromHexStr (value : String) : Except WalletSeedError WalletSeed :=
  match Hex.decode value with
  | none => .error .invalidHex
  | some bytes =>
    if h : bytes.length = 16 then .ok (.short bytes h)
    else if h : bytes.length = 32 then .ok (.medium bytes h)
    else if h : bytes.length = 64 then .ok (.long bytes h)
    else .error (.invalidLength bytes.length)

/-- `u128::from_str_radix` with radix 2. -/
def fromStrRadix2 (s : String) : Option ℕ :=
  if s.toList ≠ [] ∧ s.toList.all (fun c => c = '0' ∨ c = '1') ∧
      Nat.ofDigitChars 2 s.toList 0 < 2 ^ 128 then
    some (Nat.ofDigitChars 2 s.toList 0)
  else none

/-- A number in binary digits, with zeros in front up to the given width. -/
def formatBinary (num width : ℕ) : String :=
  String.ofList (List.replicate (width - (Nat.toDigits 2 num).length) '0' ++ Nat.toDigits 2 num)

/-- `increment_seed`: a text of hexadecimal digits is counted up as a binary number. -/
def incrementSeed (s : String) : Option String := do
  let num ← fromStrRadix2 s
  if num + 1 < 2 ^ 128 then return formatBinary (num + 1) s.length else none

/-- The inner loop: one seed for each transaction of a batch. -/
def pushSeeds : ℕ → String → List WalletSeed → Option (String × List WalletSeed)
  | 0, walletSeedStr, seeds => some (walletSeedStr, seeds)
  | count + 1, walletSeedStr, seeds => do
    let seed ← (WalletSeed.tryFromHexStr walletSeedStr).toOption
    let next ← incrementSeed walletSeedStr
    pushSeeds count next (seeds ++ [seed])

/-- The outer loop. -/
def pushBatches (numTxsPerBatch : ℕ) : ℕ → String → List WalletSeed →
    Option (String × List WalletSeed)
  | 0, walletSeedStr, seeds => some (walletSeedStr, seeds)
  | batches + 1, walletSeedStr, seeds => do
    let (walletSeedStr, seeds) ← pushSeeds numTxsPerBatch walletSeedStr seeds
    pushBatches numTxsPerBatch batches walletSeedStr seeds

/-- `init_output_wallet_seeds`: the wallets of all batches and those they pay in the end. -/
def initOutputWalletSeeds (numTxsPerBatch numBatches : ℕ) : Option (List WalletSeed) :=
  (pushBatches numTxsPerBatch (numBatches + 1)
    "0000000000000000000000000000000000000000000000000000000000000010" []).map Prod.snd

/-- The seed text for a number. -/
def seedText (n : ℕ) : String := formatBinary n 64

lemma toList_seedText (n : ℕ) : (seedText n).toList =
    List.replicate (64 - (Nat.toDigits 2 n).length) '0' ++ Nat.toDigits 2 n := by
  rw [seedText, formatBinary, String.toList_ofList]

lemma length_toDigits_le {n : ℕ} (h : n < 2 ^ 64) : (Nat.toDigits 2 n).length ≤ 64 :=
  (Nat.length_toDigits_le_iff (by decide) (by decide)).2 h

lemma length_seedText {n : ℕ} (h : n < 2 ^ 64) : (seedText n).toList.length = 64 := by
  have := length_toDigits_le h
  rw [toList_seedText, List.length_append, List.length_replicate]
  omega

lemma digit_of_mem_seedText {n : ℕ} {c : Char} (h : c ∈ (seedText n).toList) :
    c = '0' ∨ c = '1' := by
  rw [toList_seedText, List.mem_append] at h
  rcases h with h | h
  · exact .inl (List.eq_of_mem_replicate h)
  · -- A binary digit is the last one, or one of those before it.
    induction n using Nat.strongRecOn with
    | ind n ih =>
      rw [Nat.toDigits_eq_if (by decide)] at h
      have hdigit : ∀ d < 2, Nat.digitChar d = '0' ∨ Nat.digitChar d = '1' := by decide
      split at h
      · rename_i hlt
        rw [List.mem_singleton.1 h]
        exact hdigit n hlt
      · rcases List.mem_append.1 h with h | h
        · exact ih (n / 2) (by omega) h
        · rw [List.mem_singleton.1 h]
          exact hdigit (n % 2) (by omega)

/-- The text is read back as the number. -/
lemma ofDigitChars_seedText (n : ℕ) : Nat.ofDigitChars 2 (seedText n).toList 0 = n := by
  rw [toList_seedText, Nat.ofDigitChars_append, Nat.ofDigitChars_replicate_zero, Nat.mul_zero]
  exact Nat.ofDigitChars_toDigits (by decide) (by decide)

/-- The text of a number is the seed of one wallet, and of no other number. -/
lemma exists_seed_seedText {n : ℕ} (h : n < 2 ^ 64) :
    ∃ bytes length_eq, Hex.digits bytes = (seedText n).toList ∧
      WalletSeed.tryFromHexStr (seedText n) = .ok (.medium bytes length_eq) := by
  have hlength := length_seedText h
  obtain ⟨bytes, hbytes⟩ := Hex.exists_digits_eq (fun c hc => by
    rcases digit_of_mem_seedText hc with rfl | rfl
    · exact ⟨0, by decide, rfl⟩
    · exact ⟨1, by decide, rfl⟩) (by rw [hlength])
  have hcount : bytes.length = 32 := by
    rw [← hbytes, Hex.length_digits] at hlength
    omega
  refine ⟨bytes, hcount, hbytes, ?_⟩
  rw [WalletSeed.tryFromHexStr, Hex.decode, ← hbytes, Hex.ofDigits_digits]
  dsimp only
  rw [dif_neg (by omega), dif_pos hcount]

lemma tryFromHexStr_inj {n n' : ℕ} {seed : WalletSeed} (h : n < 2 ^ 64) (h' : n' < 2 ^ 64)
    (hseed : WalletSeed.tryFromHexStr (seedText n) = .ok seed)
    (hseed' : WalletSeed.tryFromHexStr (seedText n') = .ok seed) : n = n' := by
  obtain ⟨bytes, _, hbytes, hmedium⟩ := exists_seed_seedText h
  obtain ⟨bytes', _, hbytes', hmedium'⟩ := exists_seed_seedText h'
  have hsame := Except.ok.inj (hmedium.symm.trans (hseed.trans (hseed'.symm.trans hmedium')))
  obtain rfl := (WalletSeed.medium.injEq _ _ _ _).mp hsame
  rw [← ofDigitChars_seedText n, ← hbytes, hbytes', ofDigitChars_seedText]

/-- The numbers and the seeds made of their texts. -/
def SeedsOf (nums : List ℕ) (seeds : List WalletSeed) : Prop :=
  List.Forall₂ (fun n seed => WalletSeed.tryFromHexStr (seedText n) = .ok seed) nums seeds

lemma SeedsOf.exists_mem {nums : List ℕ} {seeds : List WalletSeed} (h : SeedsOf nums seeds)
    {seed : WalletSeed} (hseed : seed ∈ seeds) :
    ∃ n ∈ nums, WalletSeed.tryFromHexStr (seedText n) = .ok seed := by
  induction h with
  | nil => exact absurd hseed List.not_mem_nil
  | @cons n first nums seeds hfirst _ ih =>
    rcases List.mem_cons.1 hseed with rfl | hseed
    · exact ⟨n, List.mem_cons_self, hfirst⟩
    · obtain ⟨n', hn', hread⟩ := ih hseed
      exact ⟨n', List.mem_cons_of_mem _ hn', hread⟩

lemma SeedsOf.nodup {nums : List ℕ} {seeds : List WalletSeed} (h : SeedsOf nums seeds)
    (hnums : nums.Nodup) (hlt : ∀ n ∈ nums, n < 2 ^ 64) : seeds.Nodup := by
  induction h with
  | nil => exact List.nodup_nil
  | @cons n seed nums seeds hseed hrest ih =>
    obtain ⟨hn, hnums⟩ := List.nodup_cons.1 hnums
    obtain ⟨hlt, hlts⟩ := List.forall_mem_cons.1 hlt
    refine List.nodup_cons.2 ⟨fun hmem => ?_, ih hnums hlts⟩
    obtain ⟨n', hn', hseed'⟩ := SeedsOf.exists_mem hrest hmem
    exact hn (tryFromHexStr_inj hlt (hlts n' hn') hseed hseed' ▸ hn')

variable {U : UnshieldedCrate}

/-- `BatchesBuilder` with the sizes of a run and the wallets for it. -/
structure BatchRun (U : UnshieldedCrate) extends BatchesBuilder U where
  fundingSeed : U.Seed
  numTxsPerBatch : ℕ
  numBatches : ℕ
  initOutputWalletSeeds : List U.Seed

/-- A task that builds a transaction, with the offer once it is built. -/
structure BatchTask (U : UnshieldedCrate) where
  input : U.Seed
  output : U.Seed
  offer : Option (UnshieldedOffer U)

namespace BatchRun

variable (run : BatchRun U)

/-- `amount_to_send_per_output`. -/
def amount : ℕ := run.initialUnshieldedIntentValue / run.numTxsPerBatch

/-- The wallets with the indices from `k * num_txs_per_batch` on: they receive in batch `k` and
send in the one after it, where the first ones are funded by the initial transaction. -/
def slice (k : ℕ) : List U.Seed :=
  (run.initOutputWalletSeeds.drop (k * run.numTxsPerBatch)).take run.numTxsPerBatch

/-- The offer of a task: all that the wallet received goes to the next wallet. -/
def offerInfo (task : BatchTask U) : UnshieldedOfferInfo U :=
  ⟨[⟨run.amount, task.input, run.unshieldedTokenType, none, none⟩],
    [⟨run.amount, .seed task.output, run.unshieldedTokenType⟩]⟩

/-- The tasks of the batch with the given number. -/
def tasks (batchNum : ℕ) : List (BatchTask U) :=
  ((run.slice batchNum).zip (run.slice (batchNum + 1))).map fun p => ⟨p.1, p.2, none⟩

end BatchRun

/-- The output that made a UTXO. -/
def Utxo.output (utxo : Utxo U.UserAddress U.TokenType U.IntentHash) :
    UtxoOutput U.UserAddress U.TokenType :=
  ⟨utxo.value, utxo.owner, utxo.type_⟩

/-- What a transaction with the offer does to the UTXOs of the context if the ledger accepts it. -/
structure Applies (ctx : UnshieldedContext U) (offer : UnshieldedOffer U)
    (ctx' : UnshieldedContext U) : Prop where
  wallets : ctx'.wallets = ctx.wallets
  utxos : ∃ kept created, ctx.utxos ~ offer.inputs.map UtxoSpend.utxo ++ kept ∧
    ctx'.utxos ~ kept ++ created ∧ created.map Utxo.output = offer.outputs

/-- The state of `build_txs_from` after the initial transaction. -/
structure BatchState (U : UnshieldedCrate) where
  ctx : UnshieldedContext U
  /-- How many batches have begun. -/
  batch : ℕ
  /-- The tasks of the present batch that have not been awaited. -/
  tasks : List (BatchTask U)
  /-- The wallets that did not receive anything because the transaction was rejected. -/
  lost : List U.Seed

/-- What can happen next: a task that is not built is built, in whatever order; the first task is
awaited, and its transaction accepted or rejected; or all are awaited and the next batch begins. -/
inductive BatchStep (run : BatchRun U) : BatchState U → BatchState U → Prop
  | build {ctx : UnshieldedContext U} {batch : ℕ} {before after : List (BatchTask U)}
      {task : BatchTask U} {lost : List U.Seed} {offer : UnshieldedOffer U}
      (hnew : task.offer = none) (hbuild : (run.offerInfo task).build ctx = .ok offer) :
      BatchStep run ⟨ctx, batch, before ++ task :: after, lost⟩
        ⟨ctx, batch, before ++ { task with offer := some offer } :: after, lost⟩
  | accept {ctx ctx' : UnshieldedContext U} {batch : ℕ} {tasks : List (BatchTask U)}
      {task : BatchTask U} {lost : List U.Seed} {offer : UnshieldedOffer U}
      (hoffer : task.offer = some offer) (happlies : Applies ctx offer ctx') :
      BatchStep run ⟨ctx, batch, task :: tasks, lost⟩ ⟨ctx', batch, tasks, lost⟩
  | reject {ctx : UnshieldedContext U} {batch : ℕ} {tasks : List (BatchTask U)}
      {task : BatchTask U} {lost : List U.Seed} {offer : UnshieldedOffer U}
      (hoffer : task.offer = some offer) :
      BatchStep run ⟨ctx, batch, task :: tasks, lost⟩ ⟨ctx, batch, tasks, task.output :: lost⟩
  | next {ctx : UnshieldedContext U} {batch : ℕ} {lost : List U.Seed}
      (hbatch : batch < run.numBatches) :
      BatchStep run ⟨ctx, batch, [], lost⟩ ⟨ctx, batch + 1, run.tasks batch, lost⟩

/-! ### Slices -/

/-- The wallets of a run: enough of them, each with an address of its own. -/
structure BatchRun.Wallets (run : BatchRun U) (ctx : UnshieldedContext U)
    (address : U.Seed → U.UserAddress) : Prop where
  length : run.initOutputWalletSeeds.length = (run.numBatches + 1) * run.numTxsPerBatch
  nodup : run.initOutputWalletSeeds.Nodup
  known : ∀ seed ∈ run.initOutputWalletSeeds, ctx.addressOf (.seed seed) = .ok (address seed)
  distinct : ∀ seed ∈ run.initOutputWalletSeeds, ∀ seed' ∈ run.initOutputWalletSeeds,
    address seed = address seed' → seed = seed'

section Slices

variable {run : BatchRun U} {ctx : UnshieldedContext U} {address : U.Seed → U.UserAddress}

lemma mem_of_mem_slice {k : ℕ} {seed : U.Seed} (h : seed ∈ run.slice k) :
    seed ∈ run.initOutputWalletSeeds :=
  List.mem_of_mem_drop (List.mem_of_mem_take h)

namespace BatchRun.Wallets

lemma length_slice (hw : run.Wallets ctx address) {k : ℕ} (h : k ≤ run.numBatches) :
    (run.slice k).length = run.numTxsPerBatch := by
  have hle : (k + 1) * run.numTxsPerBatch ≤ (run.numBatches + 1) * run.numTxsPerBatch :=
    Nat.mul_le_mul_right _ (by omega)
  rw [Nat.succ_mul] at hle
  rw [slice, List.length_take, List.length_drop, hw.length]
  omega

lemma nodup_slice (hw : run.Wallets ctx address) (k : ℕ) : (run.slice k).Nodup :=
  (hw.nodup.sublist (List.drop_sublist _ _)).sublist (List.take_sublist _ _)

/-- A wallet is in one slice only. -/
lemma not_mem_slice (hw : run.Wallets ctx address) {j k : ℕ} (h : j < k) {seed : U.Seed}
    (hj : seed ∈ run.slice j) : seed ∉ run.slice k := by
  intro hk
  have hle : (j + 1) * run.numTxsPerBatch ≤ k * run.numTxsPerBatch := Nat.mul_le_mul_right _ h
  rw [BatchRun.slice, List.take_drop] at hj
  rw [Nat.succ_mul] at hle
  exact List.disjoint_take_drop hw.nodup hle (List.mem_of_mem_drop hj)
    (List.mem_of_mem_take hk)

lemma length_slice_succ (hw : run.Wallets ctx address) {k : ℕ} (h : k < run.numBatches) :
    (run.slice k).length = (run.slice (k + 1)).length := by
  rw [hw.length_slice h.le, hw.length_slice h]

lemma map_input_tasks (hw : run.Wallets ctx address) {k : ℕ} (h : k < run.numBatches) :
    (run.tasks k).map BatchTask.input = run.slice k := by
  rw [tasks, List.map_map]
  exact List.map_fst_zip (hw.length_slice_succ h).le

lemma map_output_tasks (hw : run.Wallets ctx address) {k : ℕ} (h : k < run.numBatches) :
    (run.tasks k).map BatchTask.output = run.slice (k + 1) := by
  rw [tasks, List.map_map]
  exact List.map_snd_zip (hw.length_slice_succ h).ge

end BatchRun.Wallets

end Slices

/-! ### What a task builds -/

/-- The address owns a UTXO of exactly the amount. -/
def BatchRun.Funded (run : BatchRun U) (ctx : UnshieldedContext U) (owner : U.UserAddress) : Prop :=
  ∃ u ∈ ctx.utxos, u.type_ = run.unshieldedTokenType ∧ u.owner = owner ∧ u.value = run.amount

/-- The offer of a task spends one UTXO of the wallet and pays the next wallet. -/
structure BatchRun.Moves (run : BatchRun U) (address : U.Seed → U.UserAddress)
    (task : BatchTask U) (offer : UnshieldedOffer U)
    (u : Utxo U.UserAddress U.TokenType U.IntentHash) : Prop where
  inputs : offer.inputs.map UtxoSpend.utxo = [u]
  owner : u.owner = address task.input
  outputs : offer.outputs = [⟨run.amount, address task.output, run.unshieldedTokenType⟩]

section Build

variable {ctx : UnshieldedContext U} {address : U.Seed → U.UserAddress}

/-- The UTXO that matches best is one of the smallest that match. -/
lemma minMatchUtxo_cases (info : UtxoSpendInfo U) (ctx : UnshieldedContext U)
    (owner : U.VerifyingKey) (hname : info.intentHash = none) (hno : info.outputNumber = none) :
    (info.minMatchUtxo ctx owner = .error .noFundings ∧
        ∀ u ∈ ctx.utxos, u.type_ = info.tokenType → u.owner = U.toAddress owner →
          u.value < info.value) ∨
      ∃ u ∈ ctx.utxos, info.minMatchUtxo ctx owner = .ok u ∧ u.type_ = info.tokenType ∧
        u.owner = U.toAddress owner ∧ info.value ≤ u.value ∧
        ∀ v ∈ ctx.utxos, v.type_ = info.tokenType → v.owner = U.toAddress owner →
          info.value ≤ v.value → u.value ≤ v.value := by
  obtain ⟨matching, hmatching⟩ : ∃ matching, matching = ctx.utxos.filter fun utxo =>
      utxo.type_ = info.tokenType ∧ utxo.value ≥ info.value ∧ utxo.owner = U.toAddress owner ∧
        (∀ h ∈ info.intentHash, utxo.intentHash = h) ∧
          ∀ o ∈ info.outputNumber, utxo.outputNo = o := ⟨_, rfl⟩
  have hmem : ∀ u, u ∈ matching ↔ u ∈ ctx.utxos ∧ u.type_ = info.tokenType ∧
      info.value ≤ u.value ∧ u.owner = U.toAddress owner := by
    intro u
    rw [hmatching, List.mem_filter]
    simp [hname, hno]
  rw [UtxoSpendInfo.minMatchUtxo, ← hmatching]
  cases hhead : (matching.insertionSort fun a b => a.value ≤ b.value).head? with
  | none =>
    have hnil : matching = [] :=
      (List.head?_eq_none_iff.1 hhead ▸ List.perm_insertionSort _ matching).symm.eq_nil
    refine .inl ⟨rfl, fun u hu htype howner => Nat.lt_of_not_le fun hvalue => ?_⟩
    have := (hmem u).2 ⟨hu, htype, hvalue, howner⟩
    rw [hnil] at this
    exact List.not_mem_nil this
  | some u =>
    have hdual : (matching.insertionSort fun a b =>
        OrderDual.toDual b.value ≤ OrderDual.toDual a.value).head? = some u := hhead
    obtain ⟨hu, hmin⟩ := Groups.mem_and_le_of_head?_insertionSort hdual
    obtain ⟨hu, htype, hvalue, howner⟩ := (hmem u).1 hu
    refine .inr ⟨u, hu, rfl, htype, howner, hvalue, fun v hv htype' howner' hvalue' => ?_⟩
    exact hmin v ((hmem v).2 ⟨hv, htype', hvalue', howner'⟩)

lemma build_seed_output {seed : U.Seed} {a : U.UserAddress} {value : ℕ}
    {tokenType : U.TokenType} (h : ctx.addressOf (.seed seed) = .ok a) :
    (⟨value, .seed seed, tokenType⟩ : UtxoOutputInfo U).build ctx = .ok ⟨value, a, tokenType⟩ := by
  rw [UtxoOutputInfo.build, h]
  rfl

/-- **What a task does.**  It panics if its wallet has no UTXO that is large enough, and otherwise
spends the smallest of those. -/
lemma build_offerInfo_cases (run : BatchRun U) {task : BatchTask U}
    (hinput : ctx.addressOf (.seed task.input) = .ok (address task.input))
    (houtput : ctx.addressOf (.seed task.output) = .ok (address task.output)) :
    ((run.offerInfo task).build ctx = .error .noFundings ∧
        ∀ u ∈ ctx.utxos, u.type_ = run.unshieldedTokenType → u.owner = address task.input →
          u.value < run.amount) ∨
      ∃ offer, (run.offerInfo task).build ctx = .ok offer ∧ ∃ u ∈ ctx.utxos,
        run.Moves address task offer u ∧
        (run.Funded ctx (address task.input) → u.value = run.amount) := by
  obtain ⟨key, hkey, haddress⟩ := bind_eq_ok.1 hinput
  have howner : U.toAddress key = address task.input := Except.ok.inj haddress
  obtain ⟨info, hinfo⟩ : ∃ info : UtxoSpendInfo U, info =
    ⟨run.amount, task.input, run.unshieldedTokenType, none, none⟩ := ⟨_, rfl⟩
  have hspend : info.build ctx = (info.minMatchUtxo ctx key).map (Utxo.toSpend key) := by
    rw [UtxoSpendInfo.build, hinfo, hkey]
    simp only [bind, Except.bind]
    cases UtxoSpendInfo.minMatchUtxo _ ctx key <;> rfl
  have hbuild : (run.offerInfo task).build ctx = (info.minMatchUtxo ctx key).map fun u =>
      ⟨[u.toSpend key], [⟨run.amount, address task.output, run.unshieldedTokenType⟩]⟩ := by
    rw [UnshieldedOfferInfo.build, BatchRun.offerInfo, ← hinfo, List.mapM_cons, List.mapM_nil,
      List.mapM_cons, List.mapM_nil, hspend, build_seed_output houtput]
    cases info.minMatchUtxo ctx key <;> rfl
  rcases minMatchUtxo_cases info ctx key (by rw [hinfo]) (by rw [hinfo]) with
    ⟨hnone, hsmall⟩ | ⟨u, hu, hmatch, htype, howner', hvalue, hmin⟩
  · rw [howner, hinfo] at hsmall
    rw [hbuild, hnone]
    exact .inl ⟨rfl, hsmall⟩
  · rw [howner, hinfo] at hmin
    rw [hinfo] at hvalue
    refine .inr ⟨_, by rw [hbuild, hmatch]; rfl, u, hu, ⟨?_, howner'.trans howner, rfl⟩, ?_⟩
    · rw [List.map_singleton, utxo_toSpend howner']
    · rintro ⟨v, hv, hvtype, hvowner, hvvalue⟩
      exact le_antisymm ((hmin v hv hvtype hvowner hvvalue.ge).trans hvvalue.le) hvalue

end Build

/-! ### What an accepted transaction changes -/

namespace Applies

variable {ctx ctx' : UnshieldedContext U} {offer : UnshieldedOffer U}

lemma mem_of_ne (h : Applies ctx offer ctx') {u v : Utxo U.UserAddress U.TokenType U.IntentHash}
    (hinputs : offer.inputs.map UtxoSpend.utxo = [u]) (hv : v ∈ ctx.utxos) (hne : v ≠ u) :
    v ∈ ctx'.utxos := by
  obtain ⟨kept, created, hbefore, hafter, -⟩ := h.utxos
  rw [hinputs] at hbefore
  rcases List.mem_append.1 (hbefore.subset hv) with hspent | hkept
  · exact absurd (List.mem_singleton.1 hspent) hne
  · exact hafter.symm.subset (List.mem_append_left _ hkept)

lemma exists_output (h : Applies ctx offer ctx') {output : UtxoOutput U.UserAddress U.TokenType}
    (houtput : output ∈ offer.outputs) : ∃ u ∈ ctx'.utxos, u.output = output := by
  obtain ⟨kept, created, -, hafter, houtputs⟩ := h.utxos
  rw [← houtputs] at houtput
  obtain ⟨u, hu, rfl⟩ := List.mem_map.1 houtput
  exact ⟨u, hafter.symm.subset (List.mem_append_right _ hu), rfl⟩

lemma mem_or_output (h : Applies ctx offer ctx')
    {u : Utxo U.UserAddress U.TokenType U.IntentHash} (hu : u ∈ ctx'.utxos) :
    u ∈ ctx.utxos ∨ u.output ∈ offer.outputs := by
  obtain ⟨kept, created, hbefore, hafter, houtputs⟩ := h.utxos
  rcases List.mem_append.1 (hafter.subset hu) with hkept | hcreated
  · exact .inl (hbefore.symm.subset (List.mem_append_right _ hkept))
  · exact .inr (houtputs ▸ List.mem_map_of_mem hcreated)

lemma addressOf_eq (h : Applies ctx offer ctx') (owner : OutputOwner U) :
    ctx'.addressOf owner = ctx.addressOf owner := by
  cases owner with
  | seed seed =>
    rw [UnshieldedContext.addressOf, UnshieldedContext.addressOf, UnshieldedContext.walletForSeed,
      UnshieldedContext.walletForSeed, h.wallets]
  | wallet address => rfl

end Applies

section Accepted

variable {run : BatchRun U} {ctx ctx' : UnshieldedContext U} {address : U.Seed → U.UserAddress}
  {offer : UnshieldedOffer U} {task : BatchTask U}
  {u : Utxo U.UserAddress U.TokenType U.IntentHash}

/-- The other wallets keep what they have. -/
lemma BatchRun.Moves.mem_of_owner_ne (hmoves : run.Moves address task offer u)
    (h : Applies ctx offer ctx') {v : Utxo U.UserAddress U.TokenType U.IntentHash}
    (hv : v ∈ ctx.utxos) (hne : v.owner ≠ address task.input) : v ∈ ctx'.utxos := by
  refine h.mem_of_ne hmoves.inputs hv fun heq => hne ?_
  rw [heq, hmoves.owner]

lemma BatchRun.Moves.funded_of_ne (hmoves : run.Moves address task offer u)
    (h : Applies ctx offer ctx') {owner : U.UserAddress} (hfunded : run.Funded ctx owner)
    (hne : owner ≠ address task.input) : run.Funded ctx' owner := by
  obtain ⟨v, hv, htype, rfl, hvalue⟩ := hfunded
  exact ⟨v, hmoves.mem_of_owner_ne h hv hne, htype, rfl, hvalue⟩

/-- The next wallet has received the amount. -/
lemma BatchRun.Moves.funded_output (hmoves : run.Moves address task offer u)
    (h : Applies ctx offer ctx') : run.Funded ctx' (address task.output) := by
  obtain ⟨v, hv, houtput⟩ := h.exists_output (by rw [hmoves.outputs]; exact List.mem_cons_self)
  exact ⟨v, hv, congrArg UtxoOutput.type_ houtput, congrArg UtxoOutput.owner houtput,
    congrArg UtxoOutput.value houtput⟩

/-- Nobody else has received anything. -/
lemma BatchRun.Moves.mem_of_mem (hmoves : run.Moves address task offer u)
    (h : Applies ctx offer ctx') {v : Utxo U.UserAddress U.TokenType U.IntentHash}
    (hv : v ∈ ctx'.utxos) (hne : v.owner ≠ address task.output) : v ∈ ctx.utxos := by
  rcases h.mem_or_output hv with hv | houtput
  · exact hv
  · rw [hmoves.outputs, List.mem_singleton] at houtput
    exact absurd (congrArg UtxoOutput.owner houtput) hne

end Accepted

/-! ### The invariant -/

/-- What holds whenever the main task can be interrupted: the tasks have wallets of their own, and
all that were not lost have the amount to send. -/
structure BatchState.Inv (run : BatchRun U) (ctx₀ : UnshieldedContext U)
    (address : U.Seed → U.UserAddress) (s : BatchState U) : Prop where
  wallets : ∀ owner, s.ctx.addressOf owner = ctx₀.addressOf owner
  batch_le : s.batch ≤ run.numBatches
  input_mem : ∀ t ∈ s.tasks, ∃ k < s.batch, t.input ∈ run.slice k
  output_mem : ∀ t ∈ s.tasks, t.output ∈ run.slice s.batch
  inputs_nodup : (s.tasks.map BatchTask.input).Nodup
  outputs_nodup : (s.tasks.map BatchTask.output).Nodup
  funded : ∀ t ∈ s.tasks, t.input ∉ s.lost → run.Funded s.ctx (address t.input)
  built : ∀ t ∈ s.tasks, ∀ offer, t.offer = some offer →
    ∃ u ∈ s.ctx.utxos, run.Moves address t offer u ∧ (t.input ∉ s.lost → u.value = run.amount)
  next : ∀ seed ∈ run.slice s.batch, seed ∉ s.lost →
    run.Funded s.ctx (address seed) ∨ ∃ t ∈ s.tasks, t.output = seed

/-- A task keeps its wallets when it is built. -/
lemma exists_task_iff {before after : List (BatchTask U)} {task : BatchTask U}
    {offer : Option (UnshieldedOffer U)} {P : U.Seed → U.Seed → Prop} :
    (∃ t ∈ before ++ { task with offer := offer } :: after, P t.input t.output) ↔
      ∃ t ∈ before ++ task :: after, P t.input t.output := by
  simp [or_and_right, exists_or]

lemma forall_task_iff {before after : List (BatchTask U)} {task : BatchTask U}
    {offer : Option (UnshieldedOffer U)} {P : U.Seed → U.Seed → Prop} :
    (∀ t ∈ before ++ { task with offer := offer } :: after, P t.input t.output) ↔
      ∀ t ∈ before ++ task :: after, P t.input t.output := by
  simp [or_imp, forall_and]

namespace BatchState.Inv

variable {run : BatchRun U} {ctx₀ : UnshieldedContext U} {address : U.Seed → U.UserAddress}
  {s s' : BatchState U}

/-- A task that is built spends from its own wallet. -/
lemma build (h : s.Inv run ctx₀ address) (hw : run.Wallets ctx₀ address) {t : BatchTask U}
    (ht : t ∈ s.tasks) {offer : UnshieldedOffer U}
    (hbuild : (run.offerInfo t).build s.ctx = .ok offer) :
    ∃ u ∈ s.ctx.utxos, run.Moves address t offer u ∧
      (t.input ∉ s.lost → u.value = run.amount) := by
  obtain ⟨k, -, hinput⟩ := h.input_mem t ht
  have hknown : ∀ seed ∈ run.initOutputWalletSeeds,
      s.ctx.addressOf (.seed seed) = .ok (address seed) := by
    intro seed hseed
    rw [h.wallets]
    exact hw.known seed hseed
  rcases build_offerInfo_cases run (hknown _ (mem_of_mem_slice hinput))
    (hknown _ (mem_of_mem_slice (h.output_mem t ht))) with
    ⟨herror, -⟩ | ⟨offer', hbuild', u, hu, hmoves, hvalue⟩
  · exact absurd (herror.symm.trans hbuild) (by simp)
  · obtain rfl := Except.ok.inj (hbuild'.symm.trans hbuild)
    exact ⟨u, hu, hmoves, fun hlost => hvalue (h.funded t ht hlost)⟩

/-- The wallet of a task is not one of those that receive in its batch. -/
lemma address_input_ne (h : s.Inv run ctx₀ address) (hw : run.Wallets ctx₀ address)
    {t : BatchTask U} (ht : t ∈ s.tasks) {seed : U.Seed} (hseed : seed ∈ run.slice s.batch) :
    address seed ≠ address t.input := by
  obtain ⟨k, hk, hinput⟩ := h.input_mem t ht
  intro heq
  have hsame := hw.distinct _ (mem_of_mem_slice hseed) _ (mem_of_mem_slice hinput) heq
  exact hw.not_mem_slice hk hinput (hsame ▸ hseed)

lemma step_build (hw : run.Wallets ctx₀ address) {ctx : UnshieldedContext U} {batch : ℕ}
    {before after : List (BatchTask U)} {task : BatchTask U} {lost : List U.Seed}
    {offer : UnshieldedOffer U}
    (h : Inv run ctx₀ address ⟨ctx, batch, before ++ task :: after, lost⟩)
    (hbuild : (run.offerInfo task).build ctx = .ok offer) :
    Inv run ctx₀ address
      ⟨ctx, batch, before ++ { task with offer := some offer } :: after, lost⟩ := by
  refine ⟨h.wallets, h.batch_le, ?_, ?_, ?_, ?_, ?_, ?_, ?_⟩
  · exact (forall_task_iff (P := fun input _ => ∃ k < batch, input ∈ run.slice k)).2 h.input_mem
  · exact (forall_task_iff (P := fun _ output => output ∈ run.slice batch)).2 h.output_mem
  · simpa using h.inputs_nodup
  · simpa using h.outputs_nodup
  · exact (forall_task_iff
      (P := fun input _ => input ∉ lost → run.Funded ctx (address input))).2 h.funded
  · intro t ht offer' hoffer'
    rcases List.mem_append.1 ht with ht | ht
    · exact h.built t (List.mem_append_left _ ht) offer' hoffer'
    · rcases List.mem_cons.1 ht with rfl | ht
      · obtain rfl := Option.some.inj hoffer'
        obtain ⟨u, hu, hmoves, hvalue⟩ :=
          h.build hw (List.mem_append_right _ List.mem_cons_self) hbuild
        exact ⟨u, hu, ⟨hmoves.inputs, hmoves.owner, hmoves.outputs⟩, hvalue⟩
      · exact h.built t (List.mem_append_right _ (List.mem_cons_of_mem _ ht)) offer' hoffer'
  · intro seed hseed hlost
    exact (h.next seed hseed hlost).imp_right
      (exists_task_iff (P := fun _ output => output = seed)).2

lemma step_accept (hw : run.Wallets ctx₀ address) {ctx ctx' : UnshieldedContext U} {batch : ℕ}
    {tasks : List (BatchTask U)} {task : BatchTask U} {lost : List U.Seed}
    {offer : UnshieldedOffer U} (h : Inv run ctx₀ address ⟨ctx, batch, task :: tasks, lost⟩)
    (hoffer : task.offer = some offer) (happlies : Applies ctx offer ctx') :
    Inv run ctx₀ address ⟨ctx', batch, tasks, lost⟩ := by
  obtain ⟨u, -, hmoves, -⟩ := h.built task List.mem_cons_self offer hoffer
  have hmem : ∀ {t}, t ∈ tasks → t ∈ task :: tasks := fun ht => List.mem_cons_of_mem _ ht
  have hinputs := List.nodup_cons.1 h.inputs_nodup
  -- The wallets of the other tasks are not touched.
  have hother : ∀ t ∈ tasks, address t.input ≠ address task.input := by
    intro t ht heq
    obtain ⟨k, -, hk⟩ := h.input_mem t (hmem ht)
    obtain ⟨k', -, hk'⟩ := h.input_mem task List.mem_cons_self
    have hsame := hw.distinct _ (mem_of_mem_slice hk) _ (mem_of_mem_slice hk') heq
    exact hinputs.1 (hsame ▸ List.mem_map_of_mem ht)
  refine ⟨fun owner => (happlies.addressOf_eq owner).trans (h.wallets owner), h.batch_le,
    fun t ht => h.input_mem t (hmem ht), fun t ht => h.output_mem t (hmem ht), hinputs.2,
    (List.nodup_cons.1 h.outputs_nodup).2, ?_, ?_, ?_⟩
  · intro t ht hlost
    exact hmoves.funded_of_ne happlies (h.funded t (hmem ht) hlost) (hother t ht)
  · intro t ht offer' hoffer'
    obtain ⟨v, hv, hmoves', hvalue⟩ := h.built t (hmem ht) offer' hoffer'
    refine ⟨v, hmoves.mem_of_owner_ne happlies hv ?_, hmoves', hvalue⟩
    rw [hmoves'.owner]
    exact hother t ht
  · intro seed hseed hlost
    rcases h.next seed hseed hlost with hfunded | ⟨t, ht, rfl⟩
    · exact .inl (hmoves.funded_of_ne happlies hfunded
        (h.address_input_ne hw List.mem_cons_self hseed))
    · rcases List.mem_cons.1 ht with rfl | ht
      · exact .inl (hmoves.funded_output happlies)
      · exact .inr ⟨t, ht, rfl⟩

lemma step_reject {ctx : UnshieldedContext U} {batch : ℕ} {tasks : List (BatchTask U)}
    {task : BatchTask U} {lost : List U.Seed}
    (h : Inv run ctx₀ address ⟨ctx, batch, task :: tasks, lost⟩) :
    Inv run ctx₀ address ⟨ctx, batch, tasks, task.output :: lost⟩ := by
  have hmem : ∀ {t}, t ∈ tasks → t ∈ task :: tasks := fun ht => List.mem_cons_of_mem _ ht
  have hlost : ∀ {seed}, seed ∉ task.output :: lost → seed ≠ task.output ∧ seed ∉ lost :=
    fun hseed => by rwa [List.mem_cons, not_or] at hseed
  refine ⟨h.wallets, h.batch_le, fun t ht => h.input_mem t (hmem ht),
    fun t ht => h.output_mem t (hmem ht), (List.nodup_cons.1 h.inputs_nodup).2,
    (List.nodup_cons.1 h.outputs_nodup).2,
    fun t ht hinput => h.funded t (hmem ht) (hlost hinput).2, ?_, ?_⟩
  · intro t ht offer hoffer
    obtain ⟨u, hu, hmoves, hvalue⟩ := h.built t (hmem ht) offer hoffer
    exact ⟨u, hu, hmoves, fun hinput => hvalue (hlost hinput).2⟩
  · intro seed hseed hnot
    rcases h.next seed hseed (hlost hnot).2 with hfunded | ⟨t, ht, rfl⟩
    · exact .inl hfunded
    · rcases List.mem_cons.1 ht with rfl | ht
      · exact absurd rfl (hlost hnot).1
      · exact .inr ⟨t, ht, rfl⟩

lemma step_next (hw : run.Wallets ctx₀ address) {ctx : UnshieldedContext U} {batch : ℕ}
    {lost : List U.Seed} (h : Inv run ctx₀ address ⟨ctx, batch, [], lost⟩)
    (hbatch : batch < run.numBatches) :
    Inv run ctx₀ address ⟨ctx, batch + 1, run.tasks batch, lost⟩ := by
  have hinput : ∀ t ∈ run.tasks batch, t.input ∈ run.slice batch := fun t ht =>
    hw.map_input_tasks hbatch ▸ List.mem_map_of_mem ht
  have houtput : ∀ t ∈ run.tasks batch, t.output ∈ run.slice (batch + 1) := fun t ht =>
    hw.map_output_tasks hbatch ▸ List.mem_map_of_mem ht
  refine ⟨h.wallets, hbatch, fun t ht => ⟨batch, Nat.lt_succ_self _, hinput t ht⟩, houtput, ?_, ?_,
    ?_, ?_, ?_⟩
  · rw [hw.map_input_tasks hbatch]
    exact hw.nodup_slice batch
  · rw [hw.map_output_tasks hbatch]
    exact hw.nodup_slice (batch + 1)
  · -- All that received in the last batch can send now.
    intro t ht hlost
    rcases h.next t.input (hinput t ht) hlost with hfunded | ⟨t', ht', -⟩
    · exact hfunded
    · exact absurd ht' List.not_mem_nil
  · intro t ht offer hoffer
    obtain ⟨p, -, rfl⟩ := List.mem_map.1 ht
    exact absurd hoffer (by simp)
  · intro seed hseed _
    rw [← hw.map_output_tasks hbatch] at hseed
    exact .inr (List.mem_map.1 hseed)

/-- **Step.** -/
lemma step (h : s.Inv run ctx₀ address) (hw : run.Wallets ctx₀ address)
    (hstep : BatchStep run s s') : s'.Inv run ctx₀ address := by
  cases hstep with
  | build _ hbuild => exact h.step_build hw hbuild
  | accept hoffer happlies => exact h.step_accept hw hoffer happlies
  | reject _ => exact h.step_reject
  | next hbatch => exact h.step_next hw hbatch

end BatchState.Inv

/-! ### Lost wallets -/

/-- If the wallets had no UTXOs before: those that wait, and those that are lost, have none, and
a wallet that is lost holds up the batch in which it should send. -/
structure BatchState.Holds (run : BatchRun U) (address : U.Seed → U.UserAddress)
    (s : BatchState U) : Prop where
  lost_mem : ∀ seed ∈ s.lost, seed ∈ run.slice s.batch ∨ ∃ t ∈ s.tasks, t.input = seed
  output_not_lost : ∀ t ∈ s.tasks, t.output ∉ s.lost
  empty : ∀ seed ∈ run.initOutputWalletSeeds,
    (seed ∈ s.lost ∨ (∃ k, s.batch < k ∧ seed ∈ run.slice k) ∨ ∃ t ∈ s.tasks, t.output = seed) →
      ∀ u ∈ s.ctx.utxos, u.owner ≠ address seed

namespace BatchState.Holds

variable {run : BatchRun U} {ctx₀ : UnshieldedContext U} {address : U.Seed → U.UserAddress}
  {s s' : BatchState U}

/-- What is built is not lost. -/
lemma input_not_lost (h : s.Holds run address) (hinv : s.Inv run ctx₀ address) {t : BatchTask U}
    (ht : t ∈ s.tasks) {offer : UnshieldedOffer U} (hoffer : t.offer = some offer) :
    t.input ∉ s.lost := by
  intro hlost
  obtain ⟨k, -, hk⟩ := hinv.input_mem t ht
  obtain ⟨u, hu, hmoves, -⟩ := hinv.built t ht offer hoffer
  exact h.empty t.input (mem_of_mem_slice hk) (.inl hlost) u hu hmoves.owner

lemma step_build {ctx : UnshieldedContext U} {batch : ℕ} {before after : List (BatchTask U)}
    {task : BatchTask U} {lost : List U.Seed} {offer : UnshieldedOffer U}
    (h : Holds run address ⟨ctx, batch, before ++ task :: after, lost⟩) :
    Holds run address ⟨ctx, batch, before ++ { task with offer := some offer } :: after, lost⟩ := by
  refine ⟨?_, ?_, ?_⟩
  · intro seed hseed
    exact (h.lost_mem seed hseed).imp_right (exists_task_iff (P := fun input _ => input = seed)).2
  · exact (forall_task_iff (P := fun _ output => output ∉ lost)).2 h.output_not_lost
  · intro seed hseed hwaits
    refine h.empty seed hseed ?_
    exact hwaits.imp_right (Or.imp_right (exists_task_iff (P := fun _ output => output = seed)).1)

/-- The wallets that are lost keep their tasks when the first task is done. -/
lemma lost_mem_tail {ctx : UnshieldedContext U} {batch : ℕ} {tasks : List (BatchTask U)}
    {task : BatchTask U} {lost : List U.Seed} {offer : UnshieldedOffer U}
    (h : Holds run address ⟨ctx, batch, task :: tasks, lost⟩)
    (hinv : BatchState.Inv run ctx₀ address ⟨ctx, batch, task :: tasks, lost⟩)
    (hoffer : task.offer = some offer) {seed : U.Seed} (hseed : seed ∈ lost) :
    seed ∈ run.slice batch ∨ ∃ t ∈ tasks, t.input = seed := by
  rcases h.lost_mem seed hseed with hslice | ⟨t, ht, rfl⟩
  · exact .inl hslice
  · rcases List.mem_cons.1 ht with rfl | ht
    · exact absurd hseed (h.input_not_lost hinv List.mem_cons_self hoffer)
    · exact .inr ⟨t, ht, rfl⟩

lemma step_accept (hw : run.Wallets ctx₀ address) {ctx ctx' : UnshieldedContext U} {batch : ℕ}
    {tasks : List (BatchTask U)} {task : BatchTask U} {lost : List U.Seed}
    {offer : UnshieldedOffer U} (h : Holds run address ⟨ctx, batch, task :: tasks, lost⟩)
    (hinv : BatchState.Inv run ctx₀ address ⟨ctx, batch, task :: tasks, lost⟩)
    (hoffer : task.offer = some offer) (happlies : Applies ctx offer ctx') :
    Holds run address ⟨ctx', batch, tasks, lost⟩ := by
  obtain ⟨u, -, hmoves, -⟩ := hinv.built task List.mem_cons_self offer hoffer
  have houtput := hinv.output_mem task List.mem_cons_self
  refine ⟨fun seed hseed => h.lost_mem_tail hinv hoffer hseed,
    fun t ht => h.output_not_lost t (List.mem_cons_of_mem _ ht), ?_⟩
  intro seed hseed hwaits v hv howner
  -- The wallet that received is none of those that wait or are lost.
  have hne : seed ≠ task.output := by
    rintro rfl
    rcases hwaits with hlost | ⟨k, hk, hmem⟩ | ⟨t, ht, hsame⟩
    · exact h.output_not_lost task List.mem_cons_self hlost
    · exact hw.not_mem_slice hk houtput hmem
    · exact (List.nodup_cons.1 hinv.outputs_nodup).1 (hsame ▸ List.mem_map_of_mem ht)
  have hbefore : v ∈ ctx.utxos := hmoves.mem_of_mem happlies hv fun heq =>
    hne (hw.distinct _ hseed _ (mem_of_mem_slice houtput) (howner.symm.trans heq))
  refine h.empty seed hseed ?_ v hbefore howner
  exact hwaits.imp_right (Or.imp_right fun ⟨t, ht, hsame⟩ =>
    ⟨t, List.mem_cons_of_mem _ ht, hsame⟩)

lemma step_reject {ctx : UnshieldedContext U} {batch : ℕ} {tasks : List (BatchTask U)}
    {task : BatchTask U} {lost : List U.Seed} {offer : UnshieldedOffer U}
    (h : Holds run address ⟨ctx, batch, task :: tasks, lost⟩)
    (hinv : BatchState.Inv run ctx₀ address ⟨ctx, batch, task :: tasks, lost⟩)
    (hoffer : task.offer = some offer) :
    Holds run address ⟨ctx, batch, tasks, task.output :: lost⟩ := by
  refine ⟨?_, ?_, ?_⟩
  · intro seed hseed
    rcases List.mem_cons.1 hseed with rfl | hbefore
    · exact .inl (hinv.output_mem task List.mem_cons_self)
    · exact h.lost_mem_tail hinv hoffer hbefore
  · intro t ht hlost
    rcases List.mem_cons.1 hlost with hsame | hlost
    · exact (List.nodup_cons.1 hinv.outputs_nodup).1 (hsame ▸ List.mem_map_of_mem ht)
    · exact h.output_not_lost t (List.mem_cons_of_mem _ ht) hlost
  · intro seed hseed hwaits
    refine h.empty seed hseed ?_
    rcases hwaits with hlost | hlater | ⟨t, ht, hsame⟩
    · rcases List.mem_cons.1 hlost with rfl | hlost
      · exact .inr (.inr ⟨task, List.mem_cons_self, rfl⟩)
      · exact .inl hlost
    · exact .inr (.inl hlater)
    · exact .inr (.inr ⟨t, List.mem_cons_of_mem _ ht, hsame⟩)

lemma step_next (hw : run.Wallets ctx₀ address) {ctx : UnshieldedContext U} {batch : ℕ}
    {lost : List U.Seed} (h : Holds run address ⟨ctx, batch, [], lost⟩)
    (hbatch : batch < run.numBatches) :
    Holds run address ⟨ctx, batch + 1, run.tasks batch, lost⟩ := by
  -- All that were lost should send in the batch that begins.
  have hlost : ∀ seed ∈ lost, seed ∈ run.slice batch := by
    intro seed hseed
    rcases h.lost_mem seed hseed with hslice | ⟨t, ht, -⟩
    · exact hslice
    · exact absurd ht List.not_mem_nil
  have houtput : ∀ t ∈ run.tasks batch, t.output ∈ run.slice (batch + 1) := fun t ht =>
    hw.map_output_tasks hbatch ▸ List.mem_map_of_mem ht
  refine ⟨?_, ?_, ?_⟩
  · intro seed hseed
    have hmem := hlost seed hseed
    rw [← hw.map_input_tasks hbatch] at hmem
    exact .inr (List.mem_map.1 hmem)
  · intro t ht hmem
    exact hw.not_mem_slice (Nat.lt_succ_self batch) (hlost _ hmem) (houtput t ht)
  · intro seed hseed hwaits
    refine h.empty seed hseed ?_
    rcases hwaits with hmem | ⟨k, hk, hmem⟩ | ⟨t, ht, rfl⟩
    · exact .inl hmem
    · exact .inr (.inl ⟨k, Nat.lt_of_succ_lt hk, hmem⟩)
    · exact .inr (.inl ⟨batch + 1, Nat.lt_succ_self batch, houtput t ht⟩)

/-- **Step.** -/
lemma step (h : s.Holds run address) (hinv : s.Inv run ctx₀ address)
    (hw : run.Wallets ctx₀ address) (hstep : BatchStep run s s') : s'.Holds run address := by
  cases hstep with
  | build _ _ => exact h.step_build
  | accept hoffer happlies => exact h.step_accept hw hinv hoffer happlies
  | reject hoffer => exact h.step_reject hinv hoffer
  | next hbatch => exact h.step_next hw hbatch

end BatchState.Holds

/-! ### The initial transaction -/

section Initial

variable {run : BatchRun U} {ctx : UnshieldedContext U} {address : U.Seed → U.UserAddress}

variable {ctx₁ : UnshieldedContext U} {offer : UnshieldedOffer U} {change : ℕ}

/-- The wallets of the run own nothing. -/
def BatchRun.Fresh (run : BatchRun U) (ctx : UnshieldedContext U)
    (address : U.Seed → U.UserAddress) : Prop :=
  ∀ seed ∈ run.initOutputWalletSeeds, ∀ u ∈ ctx.utxos, u.owner ≠ address seed

end Initial

/-! ### Whole runs -/

/-- A task can be built: it finds the amount, and pays all of it. -/
def BatchRun.Builds (run : BatchRun U) (ctx : UnshieldedContext U) (task : BatchTask U) : Prop :=
  ∃ offer, (run.offerInfo task).build ctx = .ok offer ∧ offer.Balanced

/-- What holds in every state of a run. -/
structure BatchState.Sound (run : BatchRun U) (address : U.Seed → U.UserAddress)
    (s : BatchState U) : Prop where
  /-- A task whose wallet was not lost can be built. -/
  builds : ∀ t ∈ s.tasks, t.input ∉ s.lost → run.Builds s.ctx t
  /-- What a built transaction spends is there when its turn comes. -/
  spends : ∀ t ∈ s.tasks, ∀ offer, t.offer = some offer →
    ∀ spend ∈ offer.inputs, spend.utxo ∈ s.ctx.utxos
  /-- In the end, the last wallets have the amount. -/
  paid : s.batch = run.numBatches → s.tasks = [] → ∀ seed ∈ run.slice run.numBatches,
    seed ∉ s.lost → run.Funded s.ctx (address seed)

section Runs

variable {run : BatchRun U} {ctx₀ : UnshieldedContext U} {address : U.Seed → U.UserAddress}
  {s s' : BatchState U}

/-- **Run.** -/
lemma BatchState.Inv.reaches (h : s.Inv run ctx₀ address) (hw : run.Wallets ctx₀ address)
    (hrun : Relation.ReflTransGen (BatchStep run) s s') :
    s'.Inv run ctx₀ address ∧ (s.Holds run address → s'.Holds run address) := by
  induction hrun with
  | refl => exact ⟨h, id⟩
  | tail _ hstep ih => exact ⟨ih.1.step hw hstep, fun hholds => (ih.2 hholds).step ih.1 hw hstep⟩

end Runs

/-! ### Two wallets and one batch -/

end MidnightNode.Toolkit
