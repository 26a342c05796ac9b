/-
# The wallet-state cache

`build_context_with_cache` replays the blocks of a chain into a ledger context, and saves the
ledger state it arrives at.  A later call for the same wallets restores that state and replays only
the blocks since.

The ledger state and the block context are always those of a replay from scratch.  The wallets are
not part of what is saved: after a restore they are new, and know nothing of the blocks before.
-/
import MidnightNode.Lib.Traverse
import Mathlib.Data.List.Range
import Mathlib.Logic.Function.Basic

namespace MidnightNode.Toolkit

open Traverse

/-- `BlockContext`, with times in seconds. -/
structure BlockContext where
  tblock : UInt64
  tblockErr : UInt32
  parentBlockHash : List UInt8
  lastBlockTime : UInt64

/-- What the cache uses of the ledger: its types, what a block does to the ledger state and to
each wallet, how the ledger state is serialized, and the hash function. -/
structure ReplayHost where
  LedgerState : Type
  /-- The shielded state of a wallet. -/
  ShieldedState : Type
  /-- The DUST state of a wallet. -/
  DustState : Type
  /-- `WalletSeed`. -/
  Seed : Type
  /-- `RawBlockData`. -/
  Block : Type
  /-- `H256`. -/
  Hash : Type
  /-- Errors of the serialization. -/
  SerializeError : Type
  [decSeed : DecidableEq Seed]
  [decHash : DecidableEq Hash]
  /-- `LedgerState::new`. -/
  newLedgerState : List UInt8 → LedgerState
  /-- `ShieldedWallet::default`. -/
  defaultShielded : Seed → ShieldedState
  /-- `DustWallet::default`, which reads the parameters of the ledger. -/
  defaultDust : Seed → LedgerState → DustState
  number : Block → ℕ
  blockContext : Block → BlockContext
  updateLedgerState : Block → LedgerState → LedgerState
  updateShielded : Block → LedgerState → Seed → ShieldedState → ShieldedState
  updateDust : Block → LedgerState → Seed → DustState → DustState
  /-- The block context of the present time. -/
  nowContext : BlockContext
  serialize : LedgerState → Except SerializeError (List UInt8)
  deserialize : List UInt8 → Except SerializeError LedgerState
  seedBytes : Seed → List UInt8
  /-- SHA-256. -/
  sha256 : List UInt8 → Hash

attribute [instance] ReplayHost.decSeed ReplayHost.decHash

/-- What is deserialized is what was serialized. -/
def ReplayHost.Lawful (R : ReplayHost) : Prop :=
  ∀ s bytes s', R.serialize s = .ok bytes → R.deserialize bytes = .ok s' → s' = s

variable {R : ReplayHost}

/-! ### Contexts -/

/-- `Wallet`, as far as blocks change it. -/
structure ReplayedWallet (R : ReplayHost) where
  shielded : R.ShieldedState
  dust : R.DustState

/-- `LedgerContext`. -/
structure ReplayContext (R : ReplayHost) where
  ledgerState : R.LedgerState
  latestBlockContext : Option BlockContext
  wallets : R.Seed → Option (ReplayedWallet R)

/-- `Wallet::default`. -/
def ReplayedWallet.default (seed : R.Seed) (ledgerState : R.LedgerState) : ReplayedWallet R :=
  ⟨R.defaultShielded seed, R.defaultDust seed ledgerState⟩

/-- A new wallet for each seed. -/
def newWallets (seeds : List R.Seed) (ledgerState : R.LedgerState) :
    R.Seed → Option (ReplayedWallet R) :=
  fun seed => if seed ∈ seeds then some (.default seed ledgerState) else none

namespace ReplayContext

/-- `new_from_wallet_seeds`. -/
def newFromWalletSeeds (networkId : List UInt8) (seeds : List R.Seed) : ReplayContext R :=
  ⟨R.newLedgerState networkId, none, newWallets seeds (R.newLedgerState networkId)⟩

/-- `update_from_block`. -/
def updateFromBlock (ctx : ReplayContext R) (block : R.Block) : ReplayContext R where
  ledgerState := R.updateLedgerState block ctx.ledgerState
  latestBlockContext := some (R.blockContext block)
  wallets seed := (ctx.wallets seed).map fun w =>
    ⟨R.updateShielded block ctx.ledgerState seed w.shielded,
      R.updateDust block ctx.ledgerState seed w.dust⟩

/-- The context after some blocks. -/
def replay (ctx : ReplayContext R) (blocks : List R.Block) : ReplayContext R :=
  blocks.foldl updateFromBlock ctx

end ReplayContext

/-! ### The cache -/

/-- `SerializableBlockContext`. -/
structure SerializableBlockContext where
  tblockSecs : UInt64
  tblockErr : UInt64
  parentBlockHash : List UInt8
  lastBlockTime : UInt64

/-- `SerializableBlockContext::from`. -/
def BlockContext.toSerializable (ctx : BlockContext) : SerializableBlockContext :=
  ⟨ctx.tblock, ctx.tblockErr.toUInt64, ctx.parentBlockHash, ctx.lastBlockTime⟩

/-- The block context that is restored. -/
def SerializableBlockContext.restore (ctx : SerializableBlockContext) : BlockContext :=
  ⟨ctx.tblockSecs, ctx.tblockErr.toUInt32, ctx.parentBlockHash, ctx.lastBlockTime⟩

/-- `CACHE_VERSION`. -/
def cacheVersion : String := "wallet-state-cache-v1"

/-- `WalletStateCache`.  The snapshots of the wallets hold nothing but hashes of the seeds and are
not read. -/
structure WalletStateCache (R : ReplayHost) where
  chainId : R.Hash
  walletId : R.Hash
  blockHeight : ℕ
  ledgerStateBytes : List UInt8
  latestBlockContext : SerializableBlockContext
  stateRoot : Option R.Hash
  version : String

/-- `CacheError`. -/
inductive CacheError (R : ReplayHost)
  | serializeLedgerState (error : R.SerializeError)
  | deserializeLedgerState (error : R.SerializeError)
  | versionMismatch (expected actual : String)
  | chainIdMismatch (expected actual : R.Hash)
  | stateRootMismatch

/-- The storage of wallet states, by chain and wallet. -/
abbrev CacheStorage (R : ReplayHost) := R.Hash × R.Hash → Option (WalletStateCache R)

/-- `compute_wallet_id_for_seeds`. -/
def computeWalletIdForSeeds (seeds : List R.Seed) (networkId : List UInt8) : R.Hash :=
  R.sha256 (networkId ++ seeds.flatMap R.seedBytes)

/-- `create_cache_from_context`. -/
def createCacheFromContext (ctx : ReplayContext R) (chainId walletId : R.Hash)
    (blockHeight : ℕ) : Except (CacheError R) (WalletStateCache R) := do
  let ledgerStateBytes ← (R.serialize ctx.ledgerState).mapError .serializeLedgerState
  let latestBlockContext := ctx.latestBlockContext.getD R.nowContext
  .ok ⟨chainId, walletId, blockHeight, ledgerStateBytes, latestBlockContext.toSerializable,
    some (R.sha256 ledgerStateBytes), cacheVersion⟩

/-- `restore_context_from_cache`: the context, and the height it is of. -/
def restoreContextFromCache (cache : WalletStateCache R) (seeds : List R.Seed)
    (expectedChainId : R.Hash) : Except (CacheError R) (ReplayContext R × ℕ) :=
  if cache.version ≠ cacheVersion then .error (.versionMismatch cacheVersion cache.version)
  else if cache.chainId ≠ expectedChainId then
    .error (.chainIdMismatch expectedChainId cache.chainId)
  else if ∃ root ∈ cache.stateRoot, root ≠ R.sha256 cache.ledgerStateBytes then
    .error .stateRootMismatch
  else do
    let ledgerState ← (R.deserialize cache.ledgerStateBytes).mapError .deserializeLedgerState
    .ok (⟨ledgerState, some cache.latestBlockContext.restore, newWallets seeds ledgerState⟩,
      cache.blockHeight)

/-- `save_context_to_cache`; an error is only logged. -/
def saveContextToCache (ctx : ReplayContext R) (chainId walletId : R.Hash) (blockHeight : ℕ)
    (storage : CacheStorage R) : CacheStorage R :=
  match createCacheFromContext ctx chainId walletId blockHeight with
  | .error _ => storage
  | .ok cache => Function.update storage (chainId, walletId) (some cache)

/-- The context that a call starts from, and the first block to replay. -/
def startContext (networkId : List UInt8) (chainId : R.Hash) (seeds : List R.Seed)
    (storage : CacheStorage R) : ReplayContext R × ℕ :=
  match storage (chainId, computeWalletIdForSeeds seeds networkId) with
  | none => (.newFromWalletSeeds networkId seeds, 0)
  | some cache =>
    match restoreContextFromCache cache seeds chainId with
    | .ok (ctx, height) => (ctx, height + 1)
    | .error _ => (.newFromWalletSeeds networkId seeds, 0)

/-- `build_context_with_cache`: the context, how many blocks were skipped, and the storage
afterwards. -/
def buildContextWithCache (networkId : List UInt8) (chainId : R.Hash) (seeds : List R.Seed)
    (blocks : List R.Block) (storage : CacheStorage R) :
    ReplayContext R × ℕ × CacheStorage R :=
  let (start, startBlock) := startContext networkId chainId seeds storage
  let blocksToReplay := blocks.filter fun b => startBlock ≤ R.number b
  let ctx := start.replay blocksToReplay
  let storage :=
    if blocksToReplay.length > 0 ∨ startBlock = 0 then
      saveContextToCache ctx chainId (computeWalletIdForSeeds seeds networkId)
        (startBlock + (blocksToReplay.length - 1)) storage
    else storage
  (ctx, blocks.length - blocksToReplay.length, storage)

/-! ### Chains and calls -/

/-- Blocks that are numbered from zero on. -/
structure NumberedChain (R : ReplayHost) where
  block : ℕ → R.Block
  number_block : ∀ i, R.number (block i) = i

/-- The first blocks of a chain. -/
def NumberedChain.blocks (chain : NumberedChain R) (n : ℕ) : List R.Block :=
  (List.range n).map chain.block

/-- A call: the seeds, and how many blocks were fetched. -/
structure CacheCall (R : ReplayHost) where
  seeds : List R.Seed
  length : ℕ

/-- The storage after some calls. -/
def storageAfter (networkId : List UInt8) (chainId : R.Hash) (chain : NumberedChain R)
    (calls : List (CacheCall R)) : CacheStorage R :=
  calls.foldl (fun storage call =>
    (buildContextWithCache networkId chainId call.seeds (chain.blocks call.length) storage).2.2)
    fun _ => none

/-- The replay of the first blocks from scratch. -/
def fromScratch (networkId : List UInt8) (chain : NumberedChain R) (seeds : List R.Seed) (n : ℕ) :
    ReplayContext R :=
  (ReplayContext.newFromWalletSeeds networkId seeds).replay (chain.blocks n)

/-- The wallets of a call have no entry in the storage, or they are still as new after the blocks
that the entry skips. -/
def Resumable (networkId : List UInt8) (chainId : R.Hash) (chain : NumberedChain R)
    (storage : CacheStorage R) (seeds : List R.Seed) : Prop :=
  ∀ cache, storage (chainId, computeWalletIdForSeeds seeds networkId) = some cache →
    let checkpoint := fromScratch networkId chain seeds (cache.blockHeight + 1)
    ∀ seed ∈ seeds, checkpoint.wallets seed = some (.default seed checkpoint.ledgerState)

/-! ### Replays -/

namespace ReplayContext

lemma replay_append (ctx : ReplayContext R) (blocks blocks' : List R.Block) :
    ctx.replay (blocks ++ blocks') = (ctx.replay blocks).replay blocks' :=
  List.foldl_append

/-- Both contexts have the same ledger state and block context. -/
def SameLedger (ctx ctx' : ReplayContext R) : Prop :=
  ctx.ledgerState = ctx'.ledgerState ∧ ctx.latestBlockContext = ctx'.latestBlockContext

lemma SameLedger.replay {ctx ctx' : ReplayContext R} (h : SameLedger ctx ctx')
    (blocks : List R.Block) : SameLedger (ctx.replay blocks) (ctx'.replay blocks) := by
  induction blocks generalizing ctx ctx' with
  | nil => exact h
  | cons block blocks ih => exact ih ⟨congrArg (R.updateLedgerState block) h.1, rfl⟩

/-- A replay adds no wallets. -/
lemma wallets_replay_eq_none {ctx : ReplayContext R} {seed : R.Seed}
    (h : ctx.wallets seed = none) (blocks : List R.Block) :
    (ctx.replay blocks).wallets seed = none := by
  induction blocks generalizing ctx with
  | nil => exact h
  | cons block blocks ih => exact ih (Option.map_eq_none_iff.2 h)

end ReplayContext

namespace NumberedChain

variable (chain : NumberedChain R)

lemma blocks_succ (n : ℕ) : chain.blocks (n + 1) = chain.blocks n ++ [chain.block n] := by
  rw [blocks, List.range_succ, List.map_append]
  rfl

/-- The blocks from a height on are those behind the first ones. -/
lemma blocks_eq_append {h n : ℕ} (hle : h ≤ n) :
    chain.blocks n = chain.blocks h ++ (chain.blocks n).filter fun b => h ≤ R.number b := by
  induction n, hle using Nat.le_induction with
  | base =>
    rw [List.filter_eq_nil_iff.2, List.append_nil]
    intro b hb
    obtain ⟨i, hi, rfl⟩ := List.mem_map.1 hb
    rw [chain.number_block]
    simpa using List.mem_range.1 hi
  | succ n hle ih =>
    rw [blocks_succ, List.filter_append, ← List.append_assoc, ← ih]
    congr 1
    rw [List.filter_singleton, chain.number_block]
    simp [hle]

lemma length_blocks (n : ℕ) : (chain.blocks n).length = n := by
  rw [blocks, List.length_map, List.length_range]

/-- How many blocks there are from a height on. -/
lemma length_filter_blocks {h n : ℕ} (hle : h ≤ n) :
    ((chain.blocks n).filter fun b => h ≤ R.number b).length = n - h := by
  have hlength := congrArg List.length (chain.blocks_eq_append hle)
  rw [List.length_append, length_blocks, length_blocks] at hlength
  omega

end NumberedChain

/-- After a replay from scratch the block context is that of the last block. -/
lemma latestBlockContext_fromScratch (networkId : List UInt8) (chain : NumberedChain R)
    (seeds : List R.Seed) (n : ℕ) :
    (fromScratch networkId chain seeds (n + 1)).latestBlockContext =
      some (R.blockContext (chain.block n)) := by
  rw [fromScratch, chain.blocks_succ, ReplayContext.replay_append]
  rfl

/-- The ledger of a replay does not depend on the wallets. -/
lemma sameLedger_fromScratch (networkId : List UInt8) (chain : NumberedChain R)
    (seeds seeds' : List R.Seed) (n : ℕ) :
    (fromScratch networkId chain seeds n).SameLedger (fromScratch networkId chain seeds' n) := by
  have hnew : (ReplayContext.newFromWalletSeeds networkId seeds).SameLedger
      (ReplayContext.newFromWalletSeeds networkId seeds') := ⟨rfl, rfl⟩
  exact hnew.replay _

/-- A replay from scratch goes on from every height. -/
lemma fromScratch_eq_replay (networkId : List UInt8) (chain : NumberedChain R)
    (seeds : List R.Seed) {h n : ℕ} (hle : h ≤ n) :
    fromScratch networkId chain seeds n = (fromScratch networkId chain seeds h).replay
      ((chain.blocks n).filter fun b => h ≤ R.number b) := by
  rw [fromScratch, chain.blocks_eq_append hle, ReplayContext.replay_append]
  rw [← chain.blocks_eq_append hle]
  rfl

/-! ### What is saved -/

/-- A block context is restored as it was. -/
lemma restore_toSerializable (ctx : BlockContext) : ctx.toSerializable.restore = ctx := by
  rw [BlockContext.toSerializable, SerializableBlockContext.restore]
  simp

/-- What a saved entry holds: the ledger state and the block context at its height, which has been
fetched. -/
structure WalletStateCache.Valid (networkId : List UInt8) (chain : NumberedChain R) (n : ℕ)
    (cache : WalletStateCache R) : Prop where
  height : cache.blockHeight + 1 ≤ n
  state : R.serialize (fromScratch networkId chain [] (cache.blockHeight + 1)).ledgerState =
    .ok cache.ledgerStateBytes
  context : cache.latestBlockContext =
    (R.blockContext (chain.block cache.blockHeight)).toSerializable

/-- All entries of a storage are valid. -/
def ValidStorage (networkId : List UInt8) (chain : NumberedChain R) (n : ℕ)
    (storage : CacheStorage R) : Prop :=
  ∀ key cache, storage key = some cache → cache.Valid networkId chain n

section Call

variable {networkId : List UInt8} {chainId : R.Hash} {chain : NumberedChain R}
  {storage : CacheStorage R} {n : ℕ}

lemma ValidStorage.mono {m : ℕ} (h : ValidStorage networkId chain n storage) (hle : n ≤ m) :
    ValidStorage networkId chain m storage := by
  intro key cache hcache
  have hvalid := h key cache hcache
  exact ⟨hvalid.height.trans hle, hvalid.state, hvalid.context⟩

/-- A restored context has the ledger of its height, and new wallets. -/
lemma WalletStateCache.Valid.restore (hR : R.Lawful) {cache : WalletStateCache R}
    (h : cache.Valid networkId chain n) {seeds : List R.Seed} {r : ReplayContext R × ℕ}
    (hr : restoreContextFromCache cache seeds chainId = .ok r) :
    r.2 = cache.blockHeight ∧
      r.1.SameLedger (fromScratch networkId chain seeds (cache.blockHeight + 1)) ∧
      r.1.wallets = newWallets seeds
        (fromScratch networkId chain seeds (cache.blockHeight + 1)).ledgerState := by
  rw [restoreContextFromCache] at hr
  split at hr
  · exact absurd hr (by simp)
  · split at hr
    · exact absurd hr (by simp)
    · split at hr
      · exact absurd hr (by simp)
      · obtain ⟨ledgerState, hstate, hr⟩ := bind_eq_ok.1 hr
        obtain rfl := Except.ok.inj hr
        have hledger : ledgerState =
            (fromScratch networkId chain seeds (cache.blockHeight + 1)).ledgerState := by
          rw [hR _ _ _ h.state (mapError_eq_ok.1 hstate)]
          exact (sameLedger_fromScratch networkId chain [] seeds _).1
        refine ⟨rfl, ⟨hledger, ?_⟩, ?_⟩
        · dsimp only
          rw [latestBlockContext_fromScratch, h.context, restore_toSerializable]
        · dsimp only
          rw [hledger]

/-- Wallets that are still as new are the new wallets of the restored context. -/
lemma newWallets_eq_fromScratch {seeds : List R.Seed} {h : ℕ}
    (hnew : ∀ seed ∈ seeds, (fromScratch networkId chain seeds h).wallets seed =
      some (.default seed (fromScratch networkId chain seeds h).ledgerState)) :
    newWallets seeds (fromScratch networkId chain seeds h).ledgerState =
      (fromScratch networkId chain seeds h).wallets := by
  funext seed
  rw [newWallets]
  split
  · rename_i hseed
    exact (hnew seed hseed).symm
  · rename_i hseed
    exact (ReplayContext.wallets_replay_eq_none (if_neg hseed) _).symm

/-- A call starts at a height that has been fetched, with the ledger of that height; and with the
wallets of that height if they are resumable. -/
lemma startContext_spec (hR : R.Lawful) (h : ValidStorage networkId chain n storage)
    (chainId : R.Hash) (seeds : List R.Seed) :
    let r := startContext networkId chainId seeds storage
    r.2 ≤ n ∧ r.1.SameLedger (fromScratch networkId chain seeds r.2) ∧
      (Resumable networkId chainId chain storage seeds →
        r.1.wallets = (fromScratch networkId chain seeds r.2).wallets) := by
  rw [startContext]
  split
  · exact ⟨Nat.zero_le n, ⟨rfl, rfl⟩, fun _ => rfl⟩
  · rename_i cache hcache
    have hvalid := h _ cache hcache
    split
    · rename_i ctx height hrestore
      obtain ⟨rfl, hledger, hwallets⟩ := hvalid.restore hR hrestore
      refine ⟨hvalid.height, hledger, fun hresumable => ?_⟩
      exact hwallets.trans (newWallets_eq_fromScratch (hresumable cache hcache))
    · exact ⟨Nat.zero_le n, ⟨rfl, rfl⟩, fun _ => rfl⟩

/-- What a call returns: the ledger of a replay from scratch, and its wallets if they are
resumable. -/
lemma buildContextWithCache_spec (hR : R.Lawful) (h : ValidStorage networkId chain n storage)
    (chainId : R.Hash) (seeds : List R.Seed) :
    let r := buildContextWithCache networkId chainId seeds (chain.blocks n) storage
    r.1.SameLedger (fromScratch networkId chain seeds n) ∧
      (Resumable networkId chainId chain storage seeds →
        r.1.wallets = (fromScratch networkId chain seeds n).wallets) := by
  obtain ⟨hle, hledger, hwallets⟩ := startContext_spec hR h chainId seeds
  rw [buildContextWithCache]
  generalize startContext networkId chainId seeds storage = r at hle hledger hwallets ⊢
  obtain ⟨start, startBlock⟩ := r
  dsimp only at hle hledger hwallets ⊢
  rw [fromScratch_eq_replay networkId chain seeds hle]
  refine ⟨hledger.replay _, fun hresumable => ?_⟩
  have hstart : start = fromScratch networkId chain seeds startBlock := by
    have hw := hwallets hresumable
    obtain ⟨hstate, hcontext⟩ := hledger
    cases start
    cases hscratch : fromScratch networkId chain seeds startBlock
    simp_all
  rw [hstart]

/-- A saved context is valid. -/
lemma ValidStorage.save (h : ValidStorage networkId chain n storage) {ctx : ReplayContext R}
    {seeds : List R.Seed} {height : ℕ} (hheight : height + 1 = n)
    (hledger : ctx.SameLedger (fromScratch networkId chain seeds n)) (walletId : R.Hash) :
    ValidStorage networkId chain n (saveContextToCache ctx chainId walletId height storage) := by
  subst hheight
  rw [saveContextToCache]
  split
  · exact h
  · rename_i cache hcreate
    obtain ⟨bytes, hbytes, hcache⟩ := bind_eq_ok.1 hcreate
    obtain rfl := Except.ok.inj hcache
    intro key cache' hcache'
    by_cases hkey : key = (chainId, walletId)
    · subst hkey
      rw [Function.update_self] at hcache'
      obtain rfl := Option.some.inj hcache'
      refine ⟨Nat.le_refl _, ?_, ?_⟩
      · rw [← mapError_eq_ok.1 hbytes, hledger.1]
        exact congrArg R.serialize (sameLedger_fromScratch networkId chain [] seeds _).1
      · dsimp only
        rw [hledger.2, latestBlockContext_fromScratch]
        rfl
    · rw [Function.update_of_ne hkey] at hcache'
      exact h key cache' hcache'

/-- A call that fetches at least one block leaves a valid storage. -/
lemma ValidStorage.call (hR : R.Lawful) (h : ValidStorage networkId chain n storage)
    (hn : 1 ≤ n) (seeds : List R.Seed) :
    ValidStorage networkId chain n
      (buildContextWithCache networkId chainId seeds (chain.blocks n) storage).2.2 := by
  have hledger := (buildContextWithCache_spec hR h chainId seeds).1
  have hle := (startContext_spec hR h chainId seeds).1
  rw [buildContextWithCache] at hledger ⊢
  generalize startContext networkId chainId seeds storage = r at hle hledger ⊢
  obtain ⟨start, startBlock⟩ := r
  dsimp only at hle hledger ⊢
  rw [chain.length_filter_blocks hle]
  split
  · exact h.save (by omega) hledger _
  · exact h

end Call

/-- After calls that fetch more and more blocks, the storage is valid. -/
lemma validStorage_storageAfter (hR : R.Lawful) (networkId : List UInt8) (chainId : R.Hash)
    (chain : NumberedChain R) {calls : List (CacheCall R)}
    (hlength : ∀ call ∈ calls, 1 ≤ call.length)
    (hmono : calls.Pairwise fun call call' => call.length ≤ call'.length) {n : ℕ}
    (hn : ∀ call ∈ calls, call.length ≤ n) :
    ValidStorage networkId chain n (storageAfter networkId chainId chain calls) := by
  induction calls using List.reverseRecOn generalizing n with
  | nil => exact fun key cache hcache => absurd hcache (by simp [storageAfter])
  | append_singleton calls call ih =>
    rw [List.pairwise_append] at hmono
    have hcalls : ValidStorage networkId chain call.length
        (storageAfter networkId chainId chain calls) := by
      refine ih (fun call' hcall' => hlength call' (List.mem_append_left _ hcall')) hmono.1 ?_
      exact fun call' hcall' => hmono.2.2 call' hcall' call (List.mem_singleton_self call)
    have hlast := List.mem_append_right calls (List.mem_singleton_self call)
    rw [storageAfter, List.foldl_append]
    exact (hcalls.call hR (hlength call hlast) call.seeds).mono (hn call hlast)

/-- In every sequence of calls that fetch more and more blocks of a chain, each call returns the
ledger state and the block context of a replay from scratch; and it returns the wallets of a
replay from scratch if they have no entry in the storage, or are still as new at its height. -/
theorem buildContextWithCache_transparent (hR : R.Lawful) (networkId : List UInt8)
    (chainId : R.Hash) (chain : NumberedChain R) (calls : List (CacheCall R))
    (hlength : ∀ call ∈ calls, 1 ≤ call.length)
    (hmono : calls.Pairwise fun call call' => call.length ≤ call'.length)
    (earlier later : List (CacheCall R)) (call : CacheCall R)
    (hcalls : calls = earlier ++ call :: later) :
    let storage := storageAfter networkId chainId chain earlier
    let ctx := (buildContextWithCache networkId chainId call.seeds (chain.blocks call.length)
      storage).1
    let scratch := fromScratch networkId chain call.seeds call.length
    ctx.ledgerState = scratch.ledgerState ∧
      ctx.latestBlockContext = scratch.latestBlockContext ∧
      (Resumable networkId chainId chain storage call.seeds → ctx.wallets = scratch.wallets) := by
  subst hcalls
  rw [List.pairwise_append] at hmono
  have hvalid : ValidStorage networkId chain call.length
      (storageAfter networkId chainId chain earlier) := by
    refine validStorage_storageAfter hR networkId chainId chain
      (fun call' hcall' => hlength call' (List.mem_append_left _ hcall')) hmono.1 ?_
    exact fun call' hcall' => hmono.2.2 call' hcall' call List.mem_cons_self
  obtain ⟨hledger, hwallets⟩ := buildContextWithCache_spec hR hvalid chainId call.seeds
  exact ⟨hledger.1, hledger.2, hwallets⟩

/-! ### A small ledger -/

/-- A small ledger: its state counts the blocks, and the wallet of a seed receives a coin in the
block with the number of the seed. -/
@[reducible] def smallLedger : ReplayHost where
  LedgerState := ℕ
  ShieldedState := ℕ
  DustState := ℕ
  Seed := ℕ
  Block := ℕ
  Hash := List UInt8
  SerializeError := Unit
  newLedgerState _ := 0
  defaultShielded _ := 0
  defaultDust _ _ := 0
  number := id
  blockContext block := ⟨UInt64.ofNat block, 0, [], 0⟩
  updateLedgerState _ state := state + 1
  updateShielded block _ seed coins := if block = seed then coins + 1 else coins
  updateDust _ _ _ dust := dust
  nowContext := ⟨0, 0, [], 0⟩
  serialize state := .ok (List.replicate state 0)
  deserialize bytes := .ok bytes.length
  seedBytes seed := [UInt8.ofNat seed]
  sha256 := id

lemma smallLedger_lawful : smallLedger.Lawful := by
  intro s bytes s' hserialize hdeserialize
  obtain rfl := Except.ok.inj hserialize
  rw [← Except.ok.inj hdeserialize, List.length_replicate]

/-- The chain of all numbers. -/
def smallChain : NumberedChain smallLedger := ⟨id, fun _ => rfl⟩

/-- The context of a last call for the wallet 1, after others for it. -/
def smallResult (earlier : List ℕ) (length : ℕ) : ReplayContext smallLedger :=
  (buildContextWithCache (R := smallLedger) [] [] [1] (smallChain.blocks length)
    (storageAfter [] [] smallChain (earlier.map fun n => ⟨[1], n⟩))).1

/-- The wallet received a coin in block 1.  After it is restored at that block, the coin is
gone. -/
theorem restored_wallet_loses_coin :
    (smallResult [2] 3).wallets ≠ (fromScratch [] smallChain [1] 3).wallets := by
  intro h
  have hcoins := congrArg (Option.map ReplayedWallet.shielded) (congrFun h 1)
  exact absurd hcoins (by decide)

/-- Restored at block 0, the wallet is still as new, and receives the coin when block 1 is
replayed. -/
theorem restored_wallet_as_new :
    (smallResult [1] 3).wallets = (fromScratch [] smallChain [1] 3).wallets := by
  have h := buildContextWithCache_transparent smallLedger_lawful [] [] smallChain
    [⟨[1], 1⟩, ⟨[1], 3⟩] (by simp) (by simp) [⟨[1], 1⟩] [] ⟨[1], 3⟩ rfl
  refine h.2.2 fun cache hcache => ?_
  have hheight : some 0 = some cache.blockHeight :=
    congrArg (Option.map WalletStateCache.blockHeight) hcache
  rw [← Option.some.inj hheight]
  intro checkpoint seed hseed
  obtain rfl := List.mem_singleton.1 hseed
  rfl

end MidnightNode.Toolkit
