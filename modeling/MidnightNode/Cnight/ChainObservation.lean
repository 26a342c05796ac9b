/-
# Observations along the chain

The author of a block reads its own db-sync database up to a Cardano block that the block refers
to and submits what it observed; every other node reads its own database up to the same Cardano
block and compares.  The databases need not be the same: each node may be ahead of the Cardano
block, by as much as it likes, and keeps its rows in an order of its own.

Nodes whose databases agree up to the Cardano block still agree on the observation, unless the
limit of a query falls between two rows that its order leaves tied (`verifies_iff_proposed`).
Along a chain of blocks that are imported this way, whoever wrote and imported them, the pallet
processes the Cardano history exactly once and in order, if no limit of a query loses anything that
the capacity would not leave to the next block (`book_of_importRun`).

A block is imported as FRAME does it: the inherents are checked against the data of the node, and
a mandatory call that fails invalidates its block.
-/
import MidnightNode.Cnight.Book
import MidnightNode.Cnight.CanonicalOrder
import MidnightNode.Cnight.Inherent
import MidnightNode.Lib.Traverse

namespace MidnightNode.Cnight

open Groups ObservedUtxo Traverse

variable {T : PalletConfig}

/-! ### The data of a node -/

/-- The storage of the pallet that says what is observed. -/
structure ObservationStorage where
  /-- `MainChainMappingValidatorAddress`. -/
  mainChainMappingValidatorAddress : List UInt8
  /-- `MainChainAuthTokenAssetName`. -/
  mainChainAuthTokenAssetName : List UInt8
  /-- `CNightIdentifier`: the policy id and the asset name. -/
  cNightIdentifier : List UInt8 × List UInt8

/-- Why a node has no data for the inherent. -/
inductive IDPCreationError
  | dataSourceError (e : DataSourceError)
  | stringDecodeError
  | invalidOnchainStateCNight (field : String)
  | authTokenAssetNameNotString
deriving DecidableEq

/-- `String::from_utf8`. -/
def stringFromUtf8 (bytes : List UInt8) : Option String :=
  String.fromUTF8? ⟨bytes.toArray⟩

/-- The addresses that the state of the parent block names. -/
def ObservationStorage.addresses (storage : ObservationStorage) :
    Except IDPCreationError CNightAddresses :=
  match stringFromUtf8 storage.mainChainMappingValidatorAddress with
  | none => .error .stringDecodeError
  | some mappingValidatorAddress =>
    match stringFromUtf8 storage.mainChainAuthTokenAssetName with
    | none => .error .authTokenAssetNameNotString
    | some authTokenAssetName =>
      match hash28FromBytes storage.cNightIdentifier.1 with
      | none => .error (.invalidOnchainStateCNight "cnight_policy_id")
      | some cnightPolicyId =>
        match stringFromUtf8 storage.cNightIdentifier.2 with
        | none => .error (.invalidOnchainStateCNight "cnight_asset_name")
        | some cnightAssetName =>
          .ok ⟨mappingValidatorAddress, authTokenAssetName, cnightPolicyId, cnightAssetName⟩

/-- `MidnightObservationTokenMovement`. -/
structure MidnightObservationTokenMovement where
  utxos : List ObservedUtxo
  nextCardanoPosition : CardanoPosition
deriving DecidableEq

/-- `MidnightCNightObservationInherentDataProvider::new`: observe from the position of the parent
block's state up to a Cardano block. -/
def InherentDataProvider.new (lib : SerializationLib) (db : CardanoDb)
    (storage : ObservationStorage) (s : PalletState T) (mcHash : McBlockHash) :
    Except IDPCreationError MidnightObservationTokenMovement := do
  let config ← storage.addresses
  let observed ← (getUtxosUpToCapacity lib db config s.nextCardanoPosition mcHash
    s.cardanoTxCapacityPerBlock.toNat).mapError .dataSourceError
  return ⟨observed.utxos, observed.end⟩

lemma InherentDataProvider.new_eq_ok_iff {lib : SerializationLib} {db : CardanoDb}
    {storage : ObservationStorage} {s : PalletState T} {mcHash : McBlockHash}
    {config : CNightAddresses} (hstorage : storage.addresses = .ok config)
    {data : MidnightObservationTokenMovement} :
    InherentDataProvider.new lib db storage s mcHash = .ok data ↔
      ∃ r, getUtxosUpToCapacity lib db config s.nextCardanoPosition mcHash
          s.cardanoTxCapacityPerBlock.toNat = .ok r ∧ data = ⟨r.utxos, r.end⟩ := by
  rw [InherentDataProvider.new, hstorage]
  constructor
  · intro h
    obtain ⟨_, hconfig, h⟩ := bind_eq_ok.1 h
    obtain rfl := Except.ok.inj hconfig
    obtain ⟨r, hr, h⟩ := bind_eq_ok.1 h
    exact ⟨r, mapError_eq_ok.1 hr, (Except.ok.inj h).symm⟩
  · rintro ⟨r, hr, rfl⟩
    exact bind_eq_ok.2 ⟨config, rfl, bind_eq_ok.2 ⟨r, mapError_eq_ok.2 hr, rfl⟩⟩

/-! ### The inherent of the pallet -/

/-- The calls of the pallet. -/
inductive PalletCall
  | processTokens (utxos : List ObservedUtxo) (nextCardanoPosition : CardanoPosition)
  | setMappingValidatorContractAddress (address : List UInt8)
deriving DecidableEq

/-- `InherentError`, as far as the pallet returns it. -/
inductive InherentError
  | missing
  | other
deriving DecidableEq

/-- `create_inherent`. -/
def createInherent (data : Option MidnightObservationTokenMovement) : Option PalletCall :=
  data.map fun data => .processTokens data.utxos data.nextCardanoPosition

/-- `check_inherent`. -/
def checkInherent (call : PalletCall) (data : Option MidnightObservationTokenMovement) :
    Except InherentError Unit :=
  match call with
  | .processTokens utxos nextCardanoPosition =>
    match data with
    | none => .error .other
    | some parsed =>
      if parsed.utxos ≠ utxos ∨ parsed.nextCardanoPosition ≠ nextCardanoPosition then
        .error .other
      else .ok ()
  | .setMappingValidatorContractAddress _ => .ok ()

/-- `is_inherent`. -/
def PalletCall.isInherent : PalletCall → Bool
  | .processTokens _ _ => true
  | .setMappingValidatorContractAddress _ => false

/-- `is_inherent_required`. -/
def isInherentRequired (data : Option MidnightObservationTokenMovement) : Option InherentError :=
  if data.isSome then some .missing else none

/-- What FRAME checks of the unsigned calls of a block: each inherent, and that a required one is
there. -/
def checkInherents (data : Option MidnightObservationTokenMovement) (calls : List PalletCall) :
    Except InherentError Unit := do
  (calls.filter PalletCall.isInherent).forM fun call => checkInherent call data
  match isInherentRequired data with
  | none => .ok ()
  | some e => if calls.any PalletCall.isInherent then .ok () else .error e

/-- Why a node does not accept the inherents of a block. -/
inductive VerificationError
  | creation (e : IDPCreationError)
  | inherent (e : InherentError)
deriving DecidableEq

/-- The inherent that the author of a block adds to it, with the data of `ProposalCIDP`. -/
def proposeInherent (lib : SerializationLib) (db : CardanoDb) (storage : ObservationStorage)
    (s : PalletState T) (mcHash : McBlockHash) : Except IDPCreationError (Option PalletCall) := do
  let data ← InherentDataProvider.new lib db storage s mcHash
  return createInherent (some data)

/-- The check of another node, with the data of `VerifierCIDP`. -/
def verifyInherents (lib : SerializationLib) (db : CardanoDb) (storage : ObservationStorage)
    (s : PalletState T) (mcHash : McBlockHash) (calls : List PalletCall) :
    Except VerificationError Unit := do
  let data ← (InherentDataProvider.new lib db storage s mcHash).mapError .creation
  (checkInherents (some data) calls).mapError .inherent

lemma checkInherent_eq_ok_iff {call : PalletCall} {data : MidnightObservationTokenMovement}
    (hcall : call.isInherent = true) :
    checkInherent call (some data) = .ok () ↔
      call = .processTokens data.utxos data.nextCardanoPosition := by
  cases call with
  | processTokens utxos next =>
    rw [checkInherent]
    split
    · rename_i hne
      refine iff_of_false (by simp) fun heq => ?_
      obtain ⟨rfl, rfl⟩ := PalletCall.processTokens.inj heq
      simp at hne
    · rename_i heq
      simp only [not_or, not_not] at heq
      obtain ⟨rfl, rfl⟩ := heq
      exact iff_of_true rfl rfl
  | setMappingValidatorContractAddress address =>
    exact absurd hcall (by simp [PalletCall.isInherent])

/-- The inherents of a block pass for a node's data exactly if the inherent of that data is there
and no other one. -/
lemma checkInherents_eq_ok_iff {data : MidnightObservationTokenMovement}
    {calls : List PalletCall} :
    checkInherents (some data) calls = .ok () ↔
      .processTokens data.utxos data.nextCardanoPosition ∈ calls ∧
        ∀ call ∈ calls, call.isInherent = true →
          call = .processTokens data.utxos data.nextCardanoPosition := by
  have hchecks : (calls.filter PalletCall.isInherent).forM
      (fun call => checkInherent call (some data)) = .ok () ↔
      ∀ call ∈ calls, call.isInherent = true →
        call = .processTokens data.utxos data.nextCardanoPosition := by
    rw [forM_eq_ok_iff]
    simp only [List.mem_filter, and_imp]
    exact forall₃_congr fun call _ hcall => checkInherent_eq_ok_iff hcall
  constructor
  · intro h
    obtain ⟨⟨⟩, hforM, hrequired⟩ := bind_eq_ok.1 h
    have hall := hchecks.1 hforM
    refine ⟨?_, hall⟩
    simp only [isInherentRequired, Option.isSome_some, if_true] at hrequired
    split at hrequired
    · rename_i hany
      obtain ⟨call, hmem, hcall⟩ := List.any_eq_true.1 hany
      exact hall call hmem hcall ▸ hmem
    · exact absurd hrequired (by simp)
  · rintro ⟨hmem, hall⟩
    refine bind_eq_ok.2 ⟨(), hchecks.2 hall, ?_⟩
    simp only [isInherentRequired, Option.isSome_some, if_true]
    exact if_pos (List.any_eq_true.2 ⟨_, hmem, rfl⟩)

/-! ### Databases that agree up to a Cardano block -/

section Rows

variable {R κ : Type} [LinearOrder κ] {blockNo blockIndex : R → ℕ} {orderBy : R → κ}
  {rows rows' : List R}

/-- The rows of a table before a position. -/
def rowsBefore (blockNo blockIndex : R → ℕ) (k : ℕ ×ₗ ℕ) (rows : List R) : List R :=
  rows.filter (fun r => toLex (blockNo r, blockIndex r) < k)

/-- Tables that agree before a position select the same rows of every range that ends there. -/
lemma selectRange_perm_of_before {k : ℕ ×ₗ ℕ} {start «end» : CardanoPosition}
    (h : (rowsBefore blockNo blockIndex k rows).Perm (rowsBefore blockNo blockIndex k rows'))
    (hk : «end».key ≤ k) :
    (selectRange blockNo blockIndex orderBy rows start «end»).Perm
      (selectRange blockNo blockIndex orderBy rows' start «end») := by
  have hbefore : ∀ l : List R,
      l.filter (fun r => inRange start «end» (blockNo r) (blockIndex r)) =
        (rowsBefore blockNo blockIndex k l).filter
          (fun r => inRange start «end» (blockNo r) (blockIndex r)) := by
    intro l
    rw [rowsBefore, List.filter_filter]
    refine List.filter_congr fun r _ => ?_
    by_cases hr : inRange start «end» (blockNo r) (blockIndex r) = true
    · have hlt := lt_of_lt_of_le ((inRange_iff _ _ _ _).1 hr).2 hk
      simp [hr, hlt]
    · simp [hr]
  refine (selectRange_perm _ _ _ rows start «end»).trans ?_
  refine List.Perm.trans ?_ (selectRange_perm _ _ _ rows' start «end»).symm
  rw [hbefore rows, hbefore rows']
  exact h.filter _

lemma selectRange_pairwise (start «end» : CardanoPosition) :
    (selectRange blockNo blockIndex orderBy rows start «end»).Pairwise
      (fun r r' => orderBy r ≤ orderBy r') := by
  have : IsTrans R (fun r r' => orderBy r ≤ orderBy r') := ⟨fun _ _ _ => le_trans⟩
  have : Std.Total (fun r r' : R => orderBy r ≤ orderBy r') :=
    ⟨fun r r' => le_total (orderBy r) (orderBy r')⟩
  exact List.pairwise_insertionSort _ _

end Rows

namespace Source

variable (S : Source)

/-- Two databases hold the same rows before a position, each in its own order. -/
structure SameRowsBefore (k : ℕ ×ₗ ℕ) (db db' : CardanoDb) : Prop where
  registrations :
    (rowsBefore RegistrationRow.blockNumber RegistrationRow.txIndexInBlock k
      (db.registrations S.config.mappingValidatorAddress S.policyId
        S.config.authTokenAssetName)).Perm
    (rowsBefore RegistrationRow.blockNumber RegistrationRow.txIndexInBlock k
      (db'.registrations S.config.mappingValidatorAddress S.policyId
        S.config.authTokenAssetName))
  deregistrations :
    (rowsBefore DeregistrationRow.blockNumber DeregistrationRow.txIndexInBlock k
      (db.deregistrations S.config.mappingValidatorAddress)).Perm
    (rowsBefore DeregistrationRow.blockNumber DeregistrationRow.txIndexInBlock k
      (db'.deregistrations S.config.mappingValidatorAddress))
  assetCreates :
    (rowsBefore AssetCreateRow.blockNumber AssetCreateRow.txIndexInBlock k
      (db.assetCreates S.config.cnightPolicyId S.config.cnightAssetName)).Perm
    (rowsBefore AssetCreateRow.blockNumber AssetCreateRow.txIndexInBlock k
      (db'.assetCreates S.config.cnightPolicyId S.config.cnightAssetName))
  assetSpends :
    (rowsBefore AssetSpendRow.blockNumber AssetSpendRow.txIndexInBlock k
      (db.assetSpends S.config.cnightPolicyId S.config.cnightAssetName)).Perm
    (rowsBefore AssetSpendRow.blockNumber AssetSpendRow.txIndexInBlock k
      (db'.assetSpends S.config.cnightPolicyId S.config.cnightAssetName))

/-- No limit of a call falls between two rows that the order of its query leaves tied. -/
structure LimitsSeparate (db : CardanoDb) (start «end» : CardanoPosition) (txCapacity : ℕ) :
    Prop where
  registrations : CutsBetweenKeys (fun r => toLex (r.blockNumber, r.txIndexInBlock))
    (utxoCapacity txCapacity) (S.registrationRows db start «end»)
  deregistrations : CutsBetweenKeys (fun r => toLex (r.blockNumber, r.txIndexInBlock))
    (utxoCapacity txCapacity) (S.deregistrationRows db start «end»)
  assetCreates : CutsBetweenKeys
    (fun r => toLex (r.blockNumber, toLex (r.txIndexInBlock, r.utxoIndex.toNat)))
    (utxoCapacity txCapacity) (S.assetCreateRows db start «end»)
  assetSpends : CutsBetweenKeys
    (fun r => toLex (r.blockNumber, toLex (r.txIndexInBlock, r.utxoIndex.toNat)))
    (utxoCapacity txCapacity) (S.assetSpendRows db start «end»)

variable {S} {db db' : CardanoDb} {start «end» : CardanoPosition} {txCapacity : ℕ}
  {k : ℕ ×ₗ ℕ}

namespace SameRowsBefore

/-- The same decodable UTXOs lie in every range that ends before the position. -/
lemma between_perm (h : S.SameRowsBefore k db db') (hk : «end».key ≤ k) :
    (between posKey start.key «end».key (S.utxos db)).Perm
      (between posKey start.key «end».key (S.utxos db')) := by
  refine (windowUtxos_all_perm start «end»).symm.trans ?_
  refine List.Perm.trans ?_ (windowUtxos_all_perm start «end»)
  refine ((List.Perm.append ?_ ?_).append ?_).append ?_
  · exact (selectRange_perm_of_before h.registrations hk).filterMap _
  · exact (selectRange_perm_of_before h.deregistrations hk).filterMap _
  · exact (selectRange_perm_of_before h.assetCreates hk).filterMap _
  · exact (selectRange_perm_of_before h.assetSpends hk).filterMap _

/-- The queries return the same decodable UTXOs where no limit separates tied rows. -/
lemma kept_perm (h : S.SameRowsBefore k db db') (hk : «end».key ≤ k)
    (hlimits : S.LimitsSeparate db start «end» txCapacity) :
    (S.kept db start «end» txCapacity).Perm (S.kept db' start «end» txCapacity) := by
  refine ((List.Perm.append ?_ ?_).append ?_).append ?_
  · exact (hlimits.registrations.take_perm (selectRange_perm_of_before h.registrations hk)
      (selectRange_pairwise _ _) (selectRange_pairwise _ _)).filterMap _
  · exact (hlimits.deregistrations.take_perm (selectRange_perm_of_before h.deregistrations hk)
      (selectRange_pairwise _ _) (selectRange_pairwise _ _)).filterMap _
  · exact (hlimits.assetCreates.take_perm (selectRange_perm_of_before h.assetCreates hk)
      (selectRange_pairwise _ _) (selectRange_pairwise _ _)).filterMap _
  · exact (hlimits.assetSpends.take_perm (selectRange_perm_of_before h.assetSpends hk)
      (selectRange_pairwise _ _) (selectRange_pairwise _ _)).filterMap _

/-- The call returns the same for both databases. -/
lemma getUtxosUpToCapacity_eq {H : CardanoHistory} {tip : McBlockHash} {b : Block}
    (h : S.SameRowsBefore b.toPosition.increment.key db db') (hdb : H.Recorded db)
    (hb : getBlockByHash db tip = some b) (hb' : getBlockByHash db' tip = some b)
    (hlimits : S.LimitsSeparate db start b.toPosition.increment txCapacity) :
    getUtxosUpToCapacity S.lib db' S.config start tip txCapacity =
      getUtxosUpToCapacity S.lib db S.config start tip txCapacity := by
  have hobserves : ∀ u ∈ S.kept db start b.toPosition.increment txCapacity, S.Observes H u := by
    intro u hu
    have hmem := (kept_append_cut_perm start b.toPosition.increment txCapacity).mem_iff.1
      (List.mem_append_left _ hu)
    exact observes_of_mem_utxos hdb (mem_between.1 hmem).1
  have hordered : S.ordered db' start b.toPosition.increment txCapacity =
      S.ordered db start b.toPosition.increment txCapacity :=
    insertionSort_eq_of_perm (sortKey_inj hobserves) (h.kept_perm le_rfl hlimits).symm
  rw [Source.getUtxosUpToCapacity_eq (tipEnd_of_block hb),
    Source.getUtxosUpToCapacity_eq (tipEnd_of_block hb'), hordered]

end SameRowsBefore

end Source

/-- **Proposer and verifier agree.**  Let the databases of two nodes agree up to the Cardano block
that a block refers to, and let no limit of the proposer's queries separate tied rows.  Then the
other node accepts exactly the blocks that contain the proposer's inherent and no other one. -/
theorem verifies_iff_proposed {S : Source} {H : CardanoHistory} {db db' : CardanoDb}
    {storage : ObservationStorage} {s : PalletState T} {mcHash : McBlockHash} {b : Block}
    (hstorage : storage.addresses = .ok S.config) (hdb : H.Recorded db)
    (hb : getBlockByHash db mcHash = some b) (hb' : getBlockByHash db' mcHash = some b)
    (hrows : S.SameRowsBefore b.toPosition.increment.key db db')
    (hlimits : S.LimitsSeparate db s.nextCardanoPosition b.toPosition.increment
      s.cardanoTxCapacityPerBlock.toNat)
    {call : Option PalletCall} (hcall : proposeInherent S.lib db storage s mcHash = .ok call)
    (calls : List PalletCall) :
    verifyInherents S.lib db' storage s mcHash calls = .ok () ↔
      ∃ proposed, call = some proposed ∧ proposed ∈ calls ∧
        ∀ c ∈ calls, c.isInherent = true → c = proposed := by
  obtain ⟨data, hdata, hcreate⟩ := bind_eq_ok.1 hcall
  obtain rfl := Except.ok.inj hcreate
  have hdata' : InherentDataProvider.new S.lib db' storage s mcHash = .ok data := by
    rw [InherentDataProvider.new_eq_ok_iff hstorage] at hdata ⊢
    rwa [hrows.getUtxosUpToCapacity_eq hdb hb hb' hlimits]
  have hverify : verifyInherents S.lib db' storage s mcHash calls = .ok () ↔
      checkInherents (some data) calls = .ok () := by
    rw [verifyInherents, hdata']
    exact mapError_eq_ok
  rw [hverify, checkInherents_eq_ok_iff]
  constructor
  · intro h
    exact ⟨_, rfl, h⟩
  · rintro ⟨proposed, hproposed, h⟩
    obtain rfl := Option.some.inj hproposed
    exact h

/-! ### Blocks -/

/-- What a block says about the pallet: the Cardano block it refers to, and its unsigned calls. -/
structure MidnightBlock where
  mcHash : McBlockHash
  calls : List PalletCall

/-- An unsigned call of a block.  `none` is a block that is invalid: a mandatory call failed, or
the call is not one that a block may contain unsigned. -/
def executeUnsigned (s : PalletState T) : PalletCall → Option (PalletState T)
  | .processTokens utxos nextCardanoPosition =>
    match executeProcessTokens .none utxos nextCardanoPosition s with
    | (s', .ok _) => some s'
    | (_, .error _) => none
  | .setMappingValidatorContractAddress _ => none

/-- The import of a block by a node: the inherents are checked and executed, and the block
ends. -/
def importBlock (lib : SerializationLib) (db : CardanoDb) (storage : ObservationStorage)
    (block : MidnightBlock) (s : PalletState T) : Option (PalletState T) :=
  match verifyInherents lib db storage s block.mcHash block.calls with
  | .error _ => none
  | .ok () => (block.calls.foldlM executeUnsigned s).map onFinalize

/-- The UTXOs that a block processes. -/
def MidnightBlock.observed (block : MidnightBlock) : List ObservedUtxo :=
  block.calls.flatMap fun
    | .processTokens utxos _ => utxos
    | .setMappingValidatorContractAddress _ => []

/-- A call that is accepted notes that the inherent of the block was executed. -/
lemma inherentExecuted_of_ok {us : List ObservedUtxo} {next : CardanoPosition}
    {s s' : PalletState T} {info : Frame.PostDispatchInfo}
    (h : executeProcessTokens .none us next s = (s', .ok info)) :
    s'.inherentExecutedThisBlock = true := by
  have hadm : Admissible .none us next s := by
    by_contra hadm
    obtain ⟨e, he⟩ := executeProcessTokens_of_not_admissible hadm
    exact absurd (congrArg Prod.snd (h.symm.trans he)) (by simp)
  have hbook : (PalletState.book { s with inherentExecutedThisBlock := true }) = s.book := rfl
  rcases hp : processTokens .none us next s with ⟨s₁, e | info₁⟩
  · rw [executeProcessTokens, StorageLayer.withStorageLayer_of_error hp] at h
    exact absurd (congrArg Prod.snd h) (by simp)
  · rw [executeProcessTokens, StorageLayer.withStorageLayer_of_ok hp] at h
    obtain ⟨rfl, -⟩ := Prod.mk.inj h
    simp only [processTokens, hadm.count, hadm.fresh, hadm.position, ne_eq, not_true, if_false,
      Bool.false_eq_true, foldl_processUtxo_eq, List.nil_append, hbook] at hp
    split at hp
    · exact absurd (congrArg Prod.snd hp) (by simp)
    · rename_i s₂ hok
      obtain ⟨⟨es, hs₂, -⟩, -⟩ := applySystemTransaction_ok hok
      obtain ⟨rfl, -⟩ := Prod.mk.inj hp
      rw [hs₂]
      rfl

/-- What an unsigned call does to the pallet, if the block stays valid. -/
lemma executeUnsigned_eq_some {us : List ObservedUtxo} {next : CardanoPosition}
    {s s' : PalletState T}
    (h : executeUnsigned s (.processTokens us next) = some s') :
    Admissible .none us next s ∧ Accepted s us next s' ∧ s'.inherentExecutedThisBlock = true := by
  by_cases hadm : Admissible .none us next s
  · obtain ⟨s₁, info, hexec, hacc⟩ := executeProcessTokens_of_admissible hadm
    simp only [executeUnsigned, hexec, Option.some.injEq] at h
    subst h
    exact ⟨hadm, hacc, inherentExecuted_of_ok hexec⟩
  · obtain ⟨e, hexec⟩ := executeProcessTokens_of_not_admissible hadm
    simp only [executeUnsigned, hexec] at h
    exact absurd h (by simp)

/-- What the import of a block does: its only unsigned call is the inherent of the node's data,
which is accepted. -/
lemma importBlock_eq_some {lib : SerializationLib} {db : CardanoDb} {storage : ObservationStorage}
    {block : MidnightBlock} {s s' : PalletState T}
    (h : importBlock lib db storage block s = some s') :
    ∃ data s₁, InherentDataProvider.new lib db storage s block.mcHash = .ok data ∧
      block.calls = [.processTokens data.utxos data.nextCardanoPosition] ∧
      Admissible .none data.utxos data.nextCardanoPosition s ∧
      Accepted s data.utxos data.nextCardanoPosition s₁ ∧ s' = onFinalize s₁ := by
  rw [importBlock] at h
  split at h
  · exact absurd h (by simp)
  · rename_i hverify
    obtain ⟨data, hdata, hcheck⟩ := bind_eq_ok.1 hverify
    obtain ⟨hmem, hall⟩ := checkInherents_eq_ok_iff.1 (mapError_eq_ok.1 hcheck)
    obtain ⟨s₂, hfold, rfl⟩ := Option.map_eq_some_iff.1 h
    -- Every call is an inherent, for another one would invalidate the block.
    obtain ⟨first, rest, hcalls⟩ := List.exists_cons_of_ne_nil (List.ne_nil_of_mem hmem)
    rw [hcalls, List.foldlM_cons] at hfold
    obtain ⟨s₁, hfirst, hrest⟩ := Option.bind_eq_some_iff.1 hfold
    have hinherent : ∀ {t t' : PalletState T} {call : PalletCall}, call ∈ block.calls →
        executeUnsigned t call = some t' →
          call = .processTokens data.utxos data.nextCardanoPosition := by
      intro t t' call hcall hexec
      cases call with
      | processTokens utxos next => exact hall _ hcall rfl
      | setMappingValidatorContractAddress address => exact absurd hexec (by simp [executeUnsigned])
    obtain rfl := hinherent (by rw [hcalls]; exact List.mem_cons_self) hfirst
    obtain ⟨hadm, hacc, hexecuted⟩ := executeUnsigned_eq_some hfirst
    cases rest with
    | nil =>
      obtain rfl := Option.some.inj hrest
      exact ⟨data, s₁, mapError_eq_ok.1 hdata, hcalls, hadm, hacc, rfl⟩
    | cons second rest =>
      -- A second inherent finds that one was executed.
      rw [List.foldlM_cons] at hrest
      obtain ⟨s₃, hsecond, -⟩ := Option.bind_eq_some_iff.1 hrest
      obtain rfl := hinherent (by rw [hcalls]; simp) hsecond
      have hfresh := (executeUnsigned_eq_some hsecond).1.fresh
      rw [hexecuted] at hfresh
      exact absurd hfresh (by simp)

/-! ### Chains -/

/-- Blocks imported one after the other.  Each is imported by some node, whose database agrees
with the Cardano history `full` up to the Cardano block that the block refers to, and whose
queries lose nothing by their limits. -/
inductive ImportRun (S : Source) (full : CardanoDb) (storage : ObservationStorage) :
    PalletState T → List MidnightBlock → PalletState T → Prop
  | nil (s : PalletState T) : ImportRun S full storage s [] s
  | cons {db : CardanoDb} {b : Block} {s s₁ s₂ : PalletState T} {block : MidnightBlock}
      {blocks : List MidnightBlock} (hb : getBlockByHash db block.mcHash = some b)
      (hrows : S.SameRowsBefore b.toPosition.increment.key full db)
      (hlimits : S.LimitsHarmless db s.nextCardanoPosition b.toPosition.increment
        s.cardanoTxCapacityPerBlock.toNat)
      (himport : importBlock S.lib db storage block s = some s₁)
      (hrun : ImportRun S full storage s₁ blocks s₂) :
      ImportRun S full storage s (block :: blocks) s₂

/-- What a chain has made of the Cardano history `full` between the positions of two states. -/
structure Observed (S : Source) (full : CardanoDb) (s : PalletState T)
    (utxos : List ObservedUtxo) (s' : PalletState T) : Prop where
  capacity : s'.cardanoTxCapacityPerBlock = s.cardanoTxCapacityPerBlock
  le : s.nextCardanoPosition.key ≤ s'.nextCardanoPosition.key
  book : s'.book = s.book.run T utxos
  lists : Lists Le utxos
    (between posKey s.nextCardanoPosition.key s'.nextCardanoPosition.key (S.utxos full))

lemma observed_refl (S : Source) (full : CardanoDb) (s : PalletState T) :
    Observed S full s [] s where
  capacity := rfl
  le := le_rfl
  book := rfl
  lists := by
    have hempty : between posKey s.nextCardanoPosition.key s.nextCardanoPosition.key
        (S.utxos full) = [] :=
      List.filter_eq_nil_iff.2 (fun u _ => by simp)
    rw [hempty]
    exact ⟨List.Perm.refl _, List.Pairwise.nil⟩

/-- Observations of neighbouring ranges are put together. -/
lemma Observed.trans {S : Source} {full : CardanoDb} {s₁ s₂ s₃ : PalletState T}
    {utxos utxos' : List ObservedUtxo} (h : Observed S full s₁ utxos s₂)
    (h' : Observed S full s₂ utxos' s₃) : Observed S full s₁ (utxos ++ utxos') s₃ where
  capacity := h'.capacity.trans h.capacity
  le := h.le.trans h'.le
  book := by rw [Book.run_append, ← h.book, h'.book]
  lists := by
    refine (h.lists.append h'.lists fun u hu v hv => ?_).congr
      (between_append_between _ h.le h'.le)
    have hlt := (mem_between.1 hu).2.2
    have hge := (mem_between.1 hv).2.1
    exact le_of_posKey_lt (lt_of_lt_of_le hlt hge)

/-- The import of one block. -/
lemma observed_of_importBlock {S : Source} {full db : CardanoDb} {storage : ObservationStorage}
    {b : Block} {block : MidnightBlock} {s s' : PalletState T}
    (hstorage : storage.addresses = .ok S.config)
    (hc : 2 ≤ s.cardanoTxCapacityPerBlock.toNat)
    (hb : getBlockByHash db block.mcHash = some b)
    (hrows : S.SameRowsBefore b.toPosition.increment.key full db)
    (hlimits : S.LimitsHarmless db s.nextCardanoPosition b.toPosition.increment
      s.cardanoTxCapacityPerBlock.toNat)
    (h : importBlock S.lib db storage block s = some s') :
    Observed S full s block.observed s' := by
  obtain ⟨data, s₁, hdata, hcalls, hadm, hacc, rfl⟩ := importBlock_eq_some h
  obtain ⟨r, hr, rfl⟩ := (InherentDataProvider.new_eq_ok_iff hstorage).1 hdata
  have hret := (Source.returned_of_ok (by omega) (Source.tipEnd_of_block hb) hr).2
  have hexact := (hret.exact_iff hc).2 hlimits
  rw [Source.Exact, hret.start_eq] at hexact
  have hobserved : block.observed = r.utxos := by
    rw [MidnightBlock.observed, hcalls]
    simp
  have hposition : (onFinalize s₁).nextCardanoPosition = r.end := hacc.position
  rw [hobserved]
  refine ⟨hacc.capacity, ?_, hacc.book, ?_⟩
  · rw [hposition]
    exact (CardanoPosition.le_iff_key _ _).1 hadm.position
  · rw [hposition]
    exact hexact.congr (hrows.between_perm (hret.end_le hc)).symm

lemma ImportRun.observed {S : Source} {full : CardanoDb} {storage : ObservationStorage}
    {s s' : PalletState T} {blocks : List MidnightBlock}
    (hstorage : storage.addresses = .ok S.config) (hrun : ImportRun S full storage s blocks s')
    (hc : 2 ≤ s.cardanoTxCapacityPerBlock.toNat) :
    Observed S full s (blocks.flatMap MidnightBlock.observed) s' := by
  induction hrun with
  | nil s => exact observed_refl S full s
  | cons hb hrows hlimits himport hrun ih =>
    have hblock := observed_of_importBlock hstorage hc hb hrows hlimits himport
    exact hblock.trans (ih (hblock.capacity ▸ hc))

/-- **A chain processes the Cardano history once.**  Whoever wrote and imported its blocks, and
whatever their databases held beyond the Cardano blocks they refer to: if the observed addresses
stay the same, the capacity is at least two and no query of an importing node lost anything by its
limit, a chain has processed exactly the UTXOs of the history between the first and the last
position, in the one order they are sorted in; the mappings and the owners are those that this list
leads to, however it was divided between blocks. -/
theorem book_of_importRun {S : Source} {H : CardanoHistory} {full : CardanoDb}
    {storage : ObservationStorage} {s s' : PalletState T} {blocks : List MidnightBlock}
    (hstorage : storage.addresses = .ok S.config) (hfull : H.Recorded full)
    (hrun : ImportRun S full storage s blocks s')
    (hc : 2 ≤ s.cardanoTxCapacityPerBlock.toNat) :
    s.nextCardanoPosition ≤ s'.nextCardanoPosition ∧
      blocks.flatMap MidnightBlock.observed =
        (between posKey s.nextCardanoPosition.key s'.nextCardanoPosition.key
          (S.utxos full)).insertionSort Le ∧
      s'.book = s.book.run T
        ((between posKey s.nextCardanoPosition.key s'.nextCardanoPosition.key
          (S.utxos full)).insertionSort Le) := by
  have hobserved := hrun.observed hstorage hc
  have hutxos : ∀ u ∈ between posKey s.nextCardanoPosition.key s'.nextCardanoPosition.key
      (S.utxos full), S.Observes H u :=
    fun u hu => Source.observes_of_mem_utxos hfull (mem_between.1 hu).1
  have hsorted : (blocks.flatMap MidnightBlock.observed).insertionSort Le =
      blocks.flatMap MidnightBlock.observed :=
    hobserved.lists.pairwise.insertionSort_eq
  have heq : blocks.flatMap MidnightBlock.observed =
      (between posKey s.nextCardanoPosition.key s'.nextCardanoPosition.key
        (S.utxos full)).insertionSort Le := by
    rw [← hsorted]
    exact insertionSort_eq_of_perm (Source.sortKey_inj hutxos) hobserved.lists.perm
  refine ⟨(CardanoPosition.le_iff_key _ _).2 hobserved.le, heq, ?_⟩
  rw [← heq]
  exact hobserved.book

/-! ### Two nodes -/

/-- The storage for the sample configuration. -/
def demoStorage : ObservationStorage where
  mainChainMappingValidatorAddress := [97, 100, 100, 114, 49, 118, 97, 108, 105, 100, 97, 116, 111,
    114]
  mainChainAuthTokenAssetName := [97, 117, 116, 104]
  cNightIdentifier := (List.replicate 27 0 ++ [3], [78, 73, 71, 72, 84])

lemma demoStorage_addresses : demoStorage.addresses = .ok demoSource.config := by
  have haddress : stringFromUtf8 demoStorage.mainChainMappingValidatorAddress =
      some "addr1validator" := by decide +kernel
  have hauth : stringFromUtf8 demoStorage.mainChainAuthTokenAssetName = some "auth" := by
    decide +kernel
  have hpolicy : hash28FromBytes demoStorage.cNightIdentifier.1 = some 3 := by decide +kernel
  have hname : stringFromUtf8 demoStorage.cNightIdentifier.2 = some "NIGHT" := by decide +kernel
  rw [ObservationStorage.addresses, haddress, hauth, hpolicy, hname]
  rfl

/-- The database of another node, which is a block ahead and keeps the new UTXOs in another
order. -/
def aheadDb : CardanoDb :=
  { spentDb with
    blocks := [⟨2, 8, 2000, 1⟩, ⟨1, 7, 1000, 200⟩]
    assetCreates := fun policyId name =>
      ⟨2, 8, 2000, 0, 9, "addr1holder", 3, 0⟩ :: (spentDb.assetCreates policyId name).reverse }

lemma sameRowsBefore_aheadDb :
    demoSource.SameRowsBefore (⟨7, 1, 1000, 200⟩ : CardanoPosition).increment.key spentDb
      aheadDb where
  registrations := List.Perm.refl _
  deregistrations := List.Perm.refl _
  assetCreates := by
    have hahead : rowsBefore AssetCreateRow.blockNumber AssetCreateRow.txIndexInBlock
        (⟨7, 1, 1000, 200⟩ : CardanoPosition).increment.key (aheadDb.assetCreates
          demoSource.config.cnightPolicyId demoSource.config.cnightAssetName) =
        (rowsBefore AssetCreateRow.blockNumber AssetCreateRow.txIndexInBlock
          (⟨7, 1, 1000, 200⟩ : CardanoPosition).increment.key (spentDb.assetCreates
            demoSource.config.cnightPolicyId demoSource.config.cnightAssetName)).reverse := by
      rw [rowsBefore, rowsBefore, ← List.filter_reverse]
      exact List.filter_cons_of_neg (by decide)
    rw [hahead]
    exact (List.reverse_perm _).symm
  assetSpends := List.Perm.refl _

/-- What the first block processes. -/
def firstCall : PalletCall := .processTokens (spentUtxos.take 2) ⟨7, 1, 1000, 1⟩

theorem verifies_iff_proposed_ahead :
    proposeInherent demoSource.lib spentDb demoStorage demoState 7 = .ok (some firstCall) ∧
      verifyInherents demoSource.lib aheadDb demoStorage demoState 7 [firstCall] = .ok () := by
  have hcall : proposeInherent demoSource.lib spentDb demoStorage demoState 7 =
      .ok (some firstCall) := by
    rw [proposeInherent, InherentDataProvider.new, demoStorage_addresses]
    decide +kernel
  have hlimits : demoSource.LimitsSeparate spentDb demoState.nextCardanoPosition
      (⟨7, 1, 1000, 200⟩ : CardanoPosition).increment 2 :=
    ⟨cutsBetweenKeys_of_length_le (by decide +kernel),
      cutsBetweenKeys_of_length_le (by decide +kernel),
      cutsBetweenKeys_of_length_le (by decide +kernel),
      cutsBetweenKeys_of_length_le (by decide +kernel)⟩
  refine ⟨hcall, (verifies_iff_proposed (b := ⟨1, 7, 1000, 200⟩) demoStorage_addresses
    recorded_spentDb rfl rfl sameRowsBefore_aheadDb hlimits hcall [firstCall]).2 ?_⟩
  exact ⟨firstCall, rfl, by simp, by simp⟩

/-- Registrations of one transaction, in the order of a table. -/
def tiedDb (indices : List ℕ) : CardanoDb :=
  { demoDb [] with
    registrations := fun _ _ _ =>
      indices.map fun i => { demoRegistration with utxoIndex := BitVec.ofNat 16 i } }

/-- What a node observes of them. -/
def tiedData (indices : List ℕ) : MidnightObservationTokenMovement :=
  let r := truncateUtxos firstPosition demoEnd 2
    (demoSource.ordered (tiedDb indices) firstPosition demoEnd 2)
  ⟨r.utxos, r.end⟩

lemma new_tiedDb (indices : List ℕ) :
    InherentDataProvider.new demoSource.lib (tiedDb indices) demoStorage demoState 7 =
      .ok (tiedData indices) := by
  refine (InherentDataProvider.new_eq_ok_iff demoStorage_addresses).2 ⟨_, ?_, rfl⟩
  have htip : tipEnd (tiedDb indices) 7 = .ok demoEnd := by
    rw [tipEnd]
    rfl
  exact (Source.getUtxosUpToCapacity_eq htip).trans (if_pos (by decide))

lemma verifyInherents_of_utxos_ne {lib : SerializationLib} {db : CardanoDb}
    {storage : ObservationStorage} {s : PalletState T} {mcHash : McBlockHash}
    {data : MidnightObservationTokenMovement} {us : List ObservedUtxo} {next : CardanoPosition}
    (hnew : InherentDataProvider.new lib db storage s mcHash = .ok data)
    (hne : data.utxos ≠ us) :
    verifyInherents lib db storage s mcHash [.processTokens us next] =
      .error (.inherent .other) := by
  have hcheck : checkInherent (.processTokens us next) (some data) = .error .other :=
    if_pos (Or.inl hne)
  have hfilter : [PalletCall.processTokens us next].filter PalletCall.isInherent =
      [.processTokens us next] := rfl
  have hchecks : checkInherents (some data) [.processTokens us next] = .error .other := by
    rw [checkInherents, hfilter, List.forM, hcheck]
    rfl
  rw [verifyInherents, hnew]
  exact congrArg (Except.mapError VerificationError.inherent) hchecks

/-- Where the limit separates tied rows, a node that has the same rows in another order rejects
the inherent. -/
theorem verifier_rejects_tied_rows :
    ∃ call, proposeInherent demoSource.lib (tiedDb (List.range 129)) demoStorage demoState 7 =
        .ok (some call) ∧
      verifyInherents demoSource.lib (tiedDb ((List.range 129).rotate 1)) demoStorage demoState 7
        [call] = .error (.inherent .other) := by
  refine ⟨.processTokens (tiedData (List.range 129)).utxos
    (tiedData (List.range 129)).nextCardanoPosition, ?_, ?_⟩
  · rw [proposeInherent, new_tiedDb]
    rfl
  · have hne : (tiedData ((List.range 129).rotate 1)).utxos ≠
        (tiedData (List.range 129)).utxos := by decide +kernel
    exact verifyInherents_of_utxos_ne (new_tiedDb ((List.range 129).rotate 1)) hne

/-- What the second block processes. -/
def secondCall : PalletCall := .processTokens (spentUtxos.drop 2) demoEnd

/-- The pallet after the first block. -/
def afterFirst : PalletState demoPallet :=
  onFinalize (executeProcessTokens .none (spentUtxos.take 2) ⟨7, 1, 1000, 1⟩ demoState).1

/-- The pallet after the second block. -/
def afterSecond : PalletState demoPallet :=
  onFinalize (executeProcessTokens .none (spentUtxos.drop 2) demoEnd afterFirst).1

/-- Two blocks, the second imported by the node that is ahead. -/
lemma importRun_two_blocks :
    ImportRun demoSource spentDb demoStorage demoState [⟨7, [firstCall]⟩, ⟨7, [secondCall]⟩]
      afterSecond := by
  have hself : demoSource.SameRowsBefore (⟨7, 1, 1000, 200⟩ : CardanoPosition).increment.key spentDb
      spentDb := ⟨.refl _, .refl _, .refl _, .refl _⟩
  have hfirst : verifyInherents demoSource.lib spentDb demoStorage demoState 7 [firstCall] =
      .ok () := by
    rw [verifyInherents, InherentDataProvider.new, demoStorage_addresses]
    decide +kernel
  have hsecond : verifyInherents demoSource.lib aheadDb demoStorage afterFirst 7 [secondCall] =
      .ok () := by
    rw [verifyInherents, InherentDataProvider.new, demoStorage_addresses]
    decide +kernel
  have himport : importBlock demoSource.lib spentDb demoStorage ⟨7, [firstCall]⟩ demoState =
      some afterFirst := by
    rw [importBlock, hfirst]
    rfl
  have himport' : importBlock demoSource.lib aheadDb demoStorage ⟨7, [secondCall]⟩ afterFirst =
      some afterSecond := by
    rw [importBlock, hsecond]
    rfl
  refine .cons (b := ⟨1, 7, 1000, 200⟩) rfl hself ?_ himport
    (.cons (b := ⟨1, 7, 1000, 200⟩) rfl sameRowsBefore_aheadDb ?_ himport' (.nil _))
  · exact Source.limitsHarmless_of_cut_eq_nil (by decide +kernel)
  · exact Source.limitsHarmless_of_cut_eq_nil (by decide +kernel)

theorem book_of_two_blocks :
    ImportRun demoSource spentDb demoStorage demoState [⟨7, [firstCall]⟩, ⟨7, [secondCall]⟩]
        afterSecond ∧
      afterSecond.book = demoState.book.run demoPallet
        ((between posKey demoState.nextCardanoPosition.key afterSecond.nextCardanoPosition.key
          (demoSource.utxos spentDb)).insertionSort Le) :=
  ⟨importRun_two_blocks, (book_of_importRun demoStorage_addresses recorded_spentDb
    importRun_two_blocks (by decide)).2.2⟩

end MidnightNode.Cnight
