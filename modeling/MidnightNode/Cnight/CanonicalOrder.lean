/-
# The order of observed UTXOs is canonical

The data source merges the results of four queries and sorts them by `ObservedUtxo::cmp`, which
looks at headers only.  Over one history of Cardano no two observed UTXOs share what they are
compared by: a position has one transaction, a transaction does not spend what it creates, and
an output lies at one address, which is either the mapping validator's or a holder's.  So the
sorted list depends neither on the order of rows within a query nor on the order in which the
results are put together, and in it a UTXO is created before it is spent.
-/
import MidnightNode.Cnight.CatchUp

namespace MidnightNode.Cnight

/-! ### A history of Cardano -/

/-- The transaction that created a UTXO, and the index of the UTXO in it. -/
abbrev UtxoRef : Type := McTxHash × BitVec 16

/-- An output of a transaction. -/
structure TxOut where
  address : String
  datum : Option PlutusData
  /-- How much it holds of an asset, by policy and name. -/
  quantity : Hash28 → String → Option ℤ

/-- A transaction of Cardano. -/
structure CardanoTx where
  position : CardanoPosition
  hash : McTxHash
  /-- The UTXOs it spends. -/
  inputs : List UtxoRef
  /-- Its outputs, by index. -/
  outputs : BitVec 16 → Option TxOut

/-- A history of Cardano: the transactions of its blocks. -/
structure CardanoHistory where
  txs : List CardanoTx
  /-- A position has one transaction. -/
  position_inj : ∀ t ∈ txs, ∀ t' ∈ txs, t.position.key = t'.position.key → t = t'
  /-- A UTXO is created once. -/
  hash_inj : ∀ t ∈ txs, ∀ t' ∈ txs, t.hash = t'.hash → t = t'
  /-- What a transaction spends was created by one before it. -/
  inputs_earlier : ∀ t ∈ txs, ∀ x ∈ t.inputs, ∃ t' ∈ txs, t'.hash = x.1 ∧
    (t'.outputs x.2).isSome ∧ t'.position.key < t.position.key

namespace CardanoHistory

variable (H : CardanoHistory)

/-- The transaction `t` creates the UTXO `x`, its output `out`. -/
def Creates (t : CardanoTx) (x : UtxoRef) (out : TxOut) : Prop :=
  t ∈ H.txs ∧ t.hash = x.1 ∧ t.outputs x.2 = some out

/-- The transaction `t` spends the UTXO `x`, the output `out` of some transaction. -/
def Spends (t : CardanoTx) (x : UtxoRef) (out : TxOut) : Prop :=
  t ∈ H.txs ∧ x ∈ t.inputs ∧ ∃ creator, H.Creates creator x out

variable {H} {t t' : CardanoTx} {x : UtxoRef} {out out' : TxOut}

lemma Creates.out_unique (h : H.Creates t x out) (h' : H.Creates t' x out') : out = out' := by
  obtain ⟨hmem, hhash, hout⟩ := h
  obtain ⟨hmem', hhash', hout'⟩ := h'
  obtain rfl := H.hash_inj t hmem t' hmem' (hhash.trans hhash'.symm)
  exact Option.some.inj (hout.symm.trans hout')

/-- A UTXO is created at an earlier position than it is spent at. -/
lemma Creates.key_lt (h : H.Creates t x out) (h' : H.Spends t' x out') :
    t.position.key < t'.position.key := by
  obtain ⟨hmem, hhash, -⟩ := h
  obtain ⟨hmem', hinput, -⟩ := h'
  obtain ⟨creator, hcreator, hhash', -, hlt⟩ := H.inputs_earlier t' hmem' x hinput
  obtain rfl := H.hash_inj t hmem creator hcreator (hhash.trans hhash'.symm)
  exact hlt

/-- No transaction spends its own outputs. -/
lemma Spends.hash_ne (h : H.Spends t x out) : t.hash ≠ x.1 := by
  obtain ⟨hmem, hinput, -⟩ := h
  obtain ⟨creator, hcreator, hhash, -, hlt⟩ := H.inputs_earlier t hmem x hinput
  intro heq
  obtain rfl := H.hash_inj t hmem creator hcreator (heq.trans hhash.symm)
  exact lt_irrefl _ hlt

/-! ### The rows of a history -/

variable (H)

/-- A row of `get_registrations`. -/
def IsRegistration (address : String) (policyId : Hash28) (authTokenAssetName : String)
    (row : RegistrationRow) : Prop :=
  ∃ t out, H.Creates t (row.txHash, row.utxoIndex) out ∧
    t.position = ⟨row.blockHash, row.blockNumber, row.blockTimestamp, row.txIndexInBlock⟩ ∧
    out.address = address ∧ out.quantity policyId authTokenAssetName = some 1 ∧
    out.datum = some row.fullDatum

/-- A row of `get_deregistrations`. -/
def IsDeregistration (address : String) (row : DeregistrationRow) : Prop :=
  ∃ t out, H.Spends t (row.utxoTxHash, row.utxoIndex) out ∧ t.hash = row.txHash ∧
    t.position = ⟨row.blockHash, row.blockNumber, row.blockTimestamp, row.txIndexInBlock⟩ ∧
    out.address = address ∧ out.datum = some row.fullDatum

/-- A row of `get_asset_creates`. -/
def IsAssetCreate (policyId : Hash28) (assetName : String) (row : AssetCreateRow) : Prop :=
  ∃ t out, H.Creates t (row.txHash, row.utxoIndex) out ∧
    t.position = ⟨row.blockHash, row.blockNumber, row.blockTimestamp, row.txIndexInBlock⟩ ∧
    out.address = row.holderAddress ∧ out.quantity policyId assetName = some row.quantity

/-- A row of `get_asset_spends`. -/
def IsAssetSpend (policyId : Hash28) (assetName : String) (row : AssetSpendRow) : Prop :=
  ∃ t out, H.Spends t (row.utxoTxHash, row.utxoIndex) out ∧ t.hash = row.spendingTxHash ∧
    t.position = ⟨row.blockHash, row.blockNumber, row.blockTimestamp, row.txIndexInBlock⟩ ∧
    out.address = row.holderAddress ∧ out.quantity policyId assetName = some row.quantity

/-- Every row of a database is one of the history. -/
structure Recorded (db : CardanoDb) : Prop where
  registrations : ∀ address policyId assetName,
    ∀ row ∈ db.registrations address policyId assetName,
      H.IsRegistration address policyId assetName row
  deregistrations : ∀ address, ∀ row ∈ db.deregistrations address, H.IsDeregistration address row
  assetCreates : ∀ policyId assetName, ∀ row ∈ db.assetCreates policyId assetName,
    H.IsAssetCreate policyId assetName row
  assetSpends : ∀ policyId assetName, ∀ row ∈ db.assetSpends policyId assetName,
    H.IsAssetSpend policyId assetName row

end CardanoHistory

/-! ### What is observed of a history -/

/-- A creation: of a registration or of cNIGHT. -/
def ObservedUtxoData.isCreation : ObservedUtxoData → Bool
  | registration _ => true
  | deregistration _ => false
  | assetCreate _ => true
  | assetSpend _ => false

/-- The UTXO an observation is about. -/
def ObservedUtxo.utxoRef (u : ObservedUtxo) : UtxoRef :=
  (u.header.utxoTxHash, u.header.utxoIndex)

namespace Source

variable (S : Source) (H : CardanoHistory)

/-- A UTXO that the data source observes of a history. -/
inductive Observes : ObservedUtxo → Prop
  | registration {row : RegistrationRow} {u : ObservedUtxo}
      (hrow : H.IsRegistration S.config.mappingValidatorAddress S.policyId
        S.config.authTokenAssetName row)
      (hu : registrationUtxo S.network row = some u) : Observes u
  | deregistration {row : DeregistrationRow} {u : ObservedUtxo}
      (hrow : H.IsDeregistration S.config.mappingValidatorAddress row)
      (hu : deregistrationUtxo S.network row = some u) : Observes u
  | assetCreate {row : AssetCreateRow} {u : ObservedUtxo}
      (hrow : H.IsAssetCreate S.config.cnightPolicyId S.config.cnightAssetName row)
      (hu : assetCreateUtxo S.lib S.network row = some u) : Observes u
  | assetSpend {row : AssetSpendRow} {u : ObservedUtxo}
      (hrow : H.IsAssetSpend S.config.cnightPolicyId S.config.cnightAssetName row)
      (hu : assetSpendUtxo S.lib S.network row = some u) : Observes u

/-- What an observation says of an output, by its header: at the address of the mapping
validator the datum decides, and elsewhere the holder and the quantity. -/
def dataOf (header : ObservedUtxoHeader) (out : TxOut) : Option ObservedUtxoData :=
  if out.address = S.config.mappingValidatorAddress then
    (out.datum.bind decodedDatum).map fun pair =>
      if header.isCreate then .registration ⟨rewardAddressBytes S.network pair.1, pair.2⟩
      else .deregistration ⟨rewardAddressBytes S.network pair.1, pair.2⟩
  else
    (holderRewardAddress S.lib S.network out.address).bind fun owner =>
      (out.quantity S.config.cnightPolicyId S.config.cnightAssetName).map fun quantity =>
        if header.isCreate then
          .assetCreate ⟨BitVec.ofInt 128 quantity, owner, header.utxoTxHash, header.utxoIndex⟩
        else
          .assetSpend ⟨BitVec.ofInt 128 quantity, owner, header.utxoTxHash, header.utxoIndex,
            header.txHash⟩

/-- An observation of the output `out`, made in the transaction `t`. -/
structure ObservedIn (u : ObservedUtxo) (t : CardanoTx) (out : TxOut) : Prop where
  position_eq : u.header.txPosition = t.position
  hash_eq : u.header.txHash = t.hash
  creates : u.data.isCreation = true → H.Creates t u.utxoRef out
  spends : u.data.isCreation = false → H.Spends t u.utxoRef out
  data_eq : S.dataOf u.header out = some u.data

variable {S H}

/-- The address of the mapping validator is no base address. -/
lemma holderRewardAddress_mappingValidator (S : Source) :
    holderRewardAddress S.lib S.network S.config.mappingValidatorAddress = none := by
  have hvalid := S.valid
  rw [mappingValidator] at hvalid
  rw [holderRewardAddress]
  cases haddress : S.lib.fromBech32 S.config.mappingValidatorAddress with
  | error e => rfl
  | ok address =>
    rw [haddress] at hvalid
    -- An address with a stake credential is a base address, and so has no enterprise part.
    cases address with
    | base network payment stake =>
      simp [Address.networkId, Address.enterprisePaymentCred] at hvalid
    | enterprise network payment => rfl
    | pointer network payment => rfl
    | reward network stake => rfl
    | byron network => rfl
    | malformed => rfl

lemma address_ne_of_holderRewardAddress {address : String} {owner : CardanoRewardAddressBytes}
    (h : holderRewardAddress S.lib S.network address = some owner) :
    address ≠ S.config.mappingValidatorAddress := by
  rintro rfl
  rw [holderRewardAddress_mappingValidator] at h
  exact absurd h (by simp)

/-- Whatever is observed is an output of the history, created or spent where it is observed. -/
lemma Observes.observedIn {u : ObservedUtxo} (h : S.Observes H u) :
    ∃ t out, S.ObservedIn H u t out := by
  cases h with
  | @registration row _ hrow hu =>
    obtain ⟨t, out, hcreates, hpos, haddress, -, hdatum⟩ := hrow
    rw [registrationUtxo_eq] at hu
    obtain ⟨pair, hpair, rfl⟩ := Option.map_eq_some_iff.1 hu
    refine ⟨t, out, hpos.symm, hcreates.2.1.symm, fun _ => hcreates, fun hfalse => ?_, ?_⟩
    · exact absurd hfalse (by simp [ObservedUtxoData.isCreation])
    · simp [dataOf, haddress, hdatum, hpair, ObservedUtxoHeader.isCreate]
  | @deregistration row _ hrow hu =>
    obtain ⟨t, out, hspends, hhash, hpos, haddress, hdatum⟩ := hrow
    rw [deregistrationUtxo_eq] at hu
    obtain ⟨pair, hpair, rfl⟩ := Option.map_eq_some_iff.1 hu
    refine ⟨t, out, hpos.symm, hhash.symm, fun htrue => ?_, fun _ => hspends, ?_⟩
    · exact absurd htrue (by simp [ObservedUtxoData.isCreation])
    · have hne : row.txHash ≠ row.utxoTxHash := hhash ▸ hspends.hash_ne
      simp [dataOf, haddress, hdatum, hpair, ObservedUtxoHeader.isCreate, hne]
  | @assetCreate row _ hrow hu =>
    obtain ⟨t, out, hcreates, hpos, haddress, hquantity⟩ := hrow
    obtain ⟨owner, howner, rfl⟩ := Option.map_eq_some_iff.1 hu
    refine ⟨t, out, hpos.symm, hcreates.2.1.symm, fun _ => hcreates, fun hfalse => ?_, ?_⟩
    · exact absurd hfalse (by simp [ObservedUtxoData.isCreation])
    · have hne := address_ne_of_holderRewardAddress howner
      simp [dataOf, haddress, hne, howner, hquantity, ObservedUtxoHeader.isCreate]
  | @assetSpend row _ hrow hu =>
    obtain ⟨t, out, hspends, hhash, hpos, haddress, hquantity⟩ := hrow
    obtain ⟨owner, howner, rfl⟩ := Option.map_eq_some_iff.1 hu
    refine ⟨t, out, hpos.symm, hhash.symm, fun htrue => ?_, fun _ => hspends, ?_⟩
    · exact absurd htrue (by simp [ObservedUtxoData.isCreation])
    · have hne := address_ne_of_holderRewardAddress howner
      have hhash_ne : row.spendingTxHash ≠ row.utxoTxHash := hhash ▸ hspends.hash_ne
      simp [dataOf, haddress, hne, howner, hquantity, ObservedUtxoHeader.isCreate, hhash_ne]

namespace ObservedIn

variable {u v : ObservedUtxo} {t t' : CardanoTx} {out out' : TxOut}

lemma mem (h : S.ObservedIn H u t out) : t ∈ H.txs := by
  cases hdata : u.data.isCreation with
  | true => exact (h.creates hdata).1
  | false => exact (h.spends hdata).1

/-- The header tells creations from consumptions. -/
lemma isCreate_eq (h : S.ObservedIn H u t out) : u.header.isCreate = u.data.isCreation := by
  cases hdata : u.data.isCreation with
  | true =>
    have hhash : t.hash = u.header.utxoTxHash := (h.creates hdata).2.1
    simpa [ObservedUtxoHeader.isCreate, h.hash_eq] using hhash
  | false =>
    have hhash : t.hash ≠ u.header.utxoTxHash := (h.spends hdata).hash_ne
    simpa [ObservedUtxoHeader.isCreate, h.hash_eq] using hhash

lemma exists_creates (h : S.ObservedIn H u t out) : ∃ creator, H.Creates creator u.utxoRef out := by
  cases hdata : u.data.isCreation with
  | true => exact ⟨t, h.creates hdata⟩
  | false => exact (h.spends hdata).2.2

/-- Two observations that compare as equal are the same. -/
lemma eq_of_sortKey_eq (h : S.ObservedIn H u t out) (h' : S.ObservedIn H v t' out')
    (hkey : u.header.sortKey = v.header.sortKey) : u = v := by
  simp only [ObservedUtxoHeader.sortKey, EmbeddingLike.apply_eq_iff_eq, Prod.mk.injEq] at hkey
  obtain ⟨hpos, -, htx, hindex⟩ := hkey
  -- They were made in the same transaction ...
  have ht : t = t' := by
    refine H.position_inj t h.mem t' h'.mem ?_
    rw [← h.position_eq, ← h'.position_eq]
    exact hpos
  subst ht
  have hheader : u.header = v.header := by
    obtain ⟨⟨upos, uhash, utx, uindex⟩, udata⟩ := u
    obtain ⟨⟨vpos, vhash, vtx, vindex⟩, vdata⟩ := v
    have hp : upos = vpos := h.position_eq.trans h'.position_eq.symm
    have hh : uhash = vhash := h.hash_eq.trans h'.hash_eq.symm
    have hx : utx = vtx := BitVec.eq_of_toNat_eq htx
    have hi : uindex = vindex := BitVec.eq_of_toNat_eq hindex
    rw [hp, hh, hx, hi]
  -- ... about the same output.
  have hout : out = out' := by
    obtain ⟨creator, hcreator⟩ := h.exists_creates
    obtain ⟨creator', hcreator'⟩ := h'.exists_creates
    rw [ObservedUtxo.utxoRef, hheader] at hcreator
    exact hcreator.out_unique hcreator'
  have hdata : u.data = v.data := by
    have hu := h.data_eq
    rw [hheader, hout, h'.data_eq] at hu
    exact (Option.some.inj hu).symm
  cases u
  cases v
  exact congrArg₂ ObservedUtxo.mk hheader hdata

end ObservedIn

end Source

/-! ### The order -/

/-- A comparison that orders the members of a list strictly and totally. -/
structure StrictTotalOn {α : Type} (cmp : α → α → Ordering) (l : List α) : Prop where
  swap : ∀ a ∈ l, ∀ b ∈ l, cmp b a = (cmp a b).swap
  eq_iff : ∀ a ∈ l, ∀ b ∈ l, cmp a b = .eq ↔ a = b
  trans : ∀ a ∈ l, ∀ b ∈ l, ∀ c ∈ l, cmp a b = .lt → cmp b c = .lt → cmp a c = .lt

namespace ObservedUtxo

/-- In a list, each transaction's creations precede its consumptions, and each UTXO's creation
precedes its spend. -/
def CreationsFirst (l : List ObservedUtxo) : Prop :=
  ∀ (i j : ℕ) (u v : ObservedUtxo), l[i]? = some u → l[j]? = some v → u.data.isCreation = true →
    v.data.isCreation = false →
    (u.header.txHash = v.header.txHash ∨ u.utxoRef = v.utxoRef) → i < j

lemma cmp_eq_compare (u v : ObservedUtxo) :
    u.cmp v = compare u.header.sortKey v.header.sortKey :=
  ObservedUtxoHeader.partialCmp_eq _ _

lemma strictTotalOn_of_sortKey_inj {l : List ObservedUtxo}
    (hinj : ∀ u ∈ l, ∀ v ∈ l, u.header.sortKey = v.header.sortKey → u = v) :
    StrictTotalOn cmp l where
  swap := by
    intro u _ v _
    rw [cmp_eq_compare, cmp_eq_compare]
    exact Std.OrientedCmp.eq_swap
  eq_iff := by
    intro u hu v hv
    rw [cmp_eq_compare, compare_eq_iff_eq]
    constructor
    · exact hinj u hu v hv
    · rintro rfl
      rfl
  trans := by
    intro u _ v _ w _ huv hvw
    rw [cmp_eq_compare, compare_lt_iff_lt] at huv hvw ⊢
    exact huv.trans hvw

lemma insertionSort_eq_of_perm {l l' : List ObservedUtxo}
    (hinj : ∀ u ∈ l, ∀ v ∈ l, u.header.sortKey = v.header.sortKey → u = v) (h : l'.Perm l) :
    l'.insertionSort Le = l.insertionSort Le := by
  have hperm : (l'.insertionSort Le).Perm (l.insertionSort Le) :=
    (List.perm_insertionSort _ l').trans (h.trans (List.perm_insertionSort _ l).symm)
  refine hperm.eq_of_pairwise ?_ (List.pairwise_insertionSort _ l')
    (List.pairwise_insertionSort _ l)
  intro u v hu hv huv hvu
  rw [List.mem_insertionSort] at hu hv
  rw [le_iff_sortKey] at huv hvu
  exact hinj u (h.mem_iff.1 hu) v hv (le_antisymm huv hvu)

/-- In a sorted list, what does not come after another member comes before it. -/
lemma index_lt_of_not_le {l : List ObservedUtxo} (hl : l.Pairwise Le) {i j : ℕ}
    {u v : ObservedUtxo} (hi : l[i]? = some u) (hj : l[j]? = some v) (hnot : ¬ v.Le u) : i < j := by
  obtain ⟨hilt, rfl⟩ := List.getElem?_eq_some_iff.1 hi
  obtain ⟨hjlt, rfl⟩ := List.getElem?_eq_some_iff.1 hj
  by_contra hle
  rcases Nat.lt_or_eq_of_le (Nat.not_lt.1 hle) with hlt | rfl
  · exact hnot (List.pairwise_iff_getElem.1 hl j i hjlt hilt hlt)
  · exact hnot ((le_iff_sortKey _ _).2 le_rfl)

end ObservedUtxo

namespace Source

open ObservedUtxo

variable {S : Source} {H : CardanoHistory} {utxos : List ObservedUtxo}

lemma sortKey_inj (hutxos : ∀ u ∈ utxos, S.Observes H u) :
    ∀ u ∈ utxos, ∀ v ∈ utxos, u.header.sortKey = v.header.sortKey → u = v := by
  intro u hu v hv hkey
  obtain ⟨t, out, hin⟩ := (hutxos u hu).observedIn
  obtain ⟨t', out', hin'⟩ := (hutxos v hv).observedIn
  exact hin.eq_of_sortKey_eq hin' hkey

/-- A consumption compares above the creations of its transaction and of its UTXO. -/
lemma ObservedIn.not_le_creation {u v : ObservedUtxo} {t t' : CardanoTx} {out out' : TxOut}
    (h : S.ObservedIn H u t out) (h' : S.ObservedIn H v t' out')
    (hu : u.data.isCreation = true) (hv : v.data.isCreation = false)
    (hsame : u.header.txHash = v.header.txHash ∨ u.utxoRef = v.utxoRef) : ¬ v.Le u := by
  rw [le_iff_sortKey, not_le]
  simp only [ObservedUtxoHeader.sortKey, Prod.Lex.toLex_lt_toLex, h.position_eq, h'.position_eq,
    h.isCreate_eq, h'.isCreate_eq, hu, hv]
  rcases hsame with hhash | href
  · -- In one transaction the creation flag decides.
    rw [h.hash_eq, h'.hash_eq] at hhash
    obtain rfl := H.hash_inj t h.mem t' h'.mem hhash
    exact Or.inr ⟨rfl, Or.inl (by decide)⟩
  · -- The creation of a UTXO has the earlier position.
    have hcreates := h.creates hu
    rw [href] at hcreates
    exact Or.inl (hcreates.key_lt (h'.spends hv))

lemma creationsFirst_insertionSort (hutxos : ∀ u ∈ utxos, S.Observes H u) :
    CreationsFirst (utxos.insertionSort Le) := by
  intro i j u v hi hj hu hv hsame
  have hmem : u ∈ utxos := (List.mem_insertionSort _).1 (List.mem_of_getElem? hi)
  have hmem' : v ∈ utxos := (List.mem_insertionSort _).1 (List.mem_of_getElem? hj)
  obtain ⟨t, out, hin⟩ := (hutxos u hmem).observedIn
  obtain ⟨t', out', hin'⟩ := (hutxos v hmem').observedIn
  exact index_lt_of_not_le (List.pairwise_insertionSort _ _) hi hj
    (hin.not_le_creation hin' hu hv hsame)

/-! ### The results of the queries -/

lemma mem_of_rangeQuery {R κ : Type} [LinearOrder κ] {blockNo blockIndex : R → ℕ}
    {orderBy : R → κ} {rows result : List R} {start «end» : CardanoPosition} {limit offset : ℕ}
    (h : rangeQuery blockNo blockIndex orderBy rows start «end» limit offset = .ok result) {r : R}
    (hr : r ∈ result) : r ∈ rows := by
  rw [rangeQuery] at h
  split at h
  · exact absurd h (by simp)
  · split at h
    · exact absurd h (by simp)
    · rw [← Except.ok.inj h] at hr
      have hselect := List.mem_of_mem_drop (List.mem_of_mem_take hr)
      exact List.mem_of_mem_filter ((selectRange_perm _ _ _ _ _ _).mem_iff.1 hselect)

/-- What a reader returns was decoded from the rows of its table. -/
lemma mem_filterMap_of_reader {R κ : Type} [LinearOrder κ] {blockNo blockIndex : R → ℕ}
    {orderBy : R → κ} {rows : List R} {decode : R → Option ObservedUtxo}
    {result : List ObservedUtxo} {start «end» : CardanoPosition} {limit offset : ℕ}
    (h : (do
      let selected ← rangeQuery blockNo blockIndex orderBy rows start «end» limit offset
      return selected.filterMap decode) = Except.ok result)
    {u : ObservedUtxo} (hu : u ∈ result) : u ∈ rows.filterMap decode := by
  cases hquery : rangeQuery blockNo blockIndex orderBy rows start «end» limit offset with
  | error e =>
    rw [hquery] at h
    exact absurd h (by simp [bind, Except.bind])
  | ok selected =>
    rw [hquery] at h
    rw [← Except.ok.inj h] at hu
    obtain ⟨row, hrow, hdecode⟩ := List.mem_filterMap.1 hu
    exact List.mem_filterMap.2 ⟨row, mem_of_rangeQuery hquery hrow, hdecode⟩

variable (S) in
/-- The results of the four readers of a call. -/
structure Queried (db : CardanoDb) (start «end» : CardanoPosition) (limit offset : ℕ)
    (registrations deregistrations creates spends : List ObservedUtxo) : Prop where
  registrations_eq : getRegistrationUtxos db S.network S.policyId S.config.mappingValidatorAddress
    S.config.authTokenAssetName start «end» limit offset = .ok registrations
  deregistrations_eq : getDeregistrationUtxos db S.network S.config.mappingValidatorAddress start
    «end» limit offset = .ok deregistrations
  creates_eq : getAssetCreateUtxos S.lib db S.network S.config.cnightPolicyId
    S.config.cnightAssetName start «end» limit offset = .ok creates
  spends_eq : getAssetSpendUtxos S.lib db S.network S.config.cnightPolicyId
    S.config.cnightAssetName start «end» limit offset = .ok spends

variable {db : CardanoDb} {start «end» : CardanoPosition} {limit offset : ℕ}
  {registrations deregistrations creates spends : List ObservedUtxo}

/-- What a database of the history decodes to is observed of it. -/
lemma observes_of_mem_utxos (hdb : H.Recorded db) {u : ObservedUtxo} (hu : u ∈ S.utxos db) :
    S.Observes H u := by
  simp only [utxos, List.mem_append, List.mem_filterMap, or_assoc] at hu
  rcases hu with ⟨row, hrow, hdecode⟩ | ⟨row, hrow, hdecode⟩ | ⟨row, hrow, hdecode⟩ |
    ⟨row, hrow, hdecode⟩
  · exact .registration (hdb.registrations _ _ _ row hrow) hdecode
  · exact .deregistration (hdb.deregistrations _ row hrow) hdecode
  · exact .assetCreate (hdb.assetCreates _ _ row hrow) hdecode
  · exact .assetSpend (hdb.assetSpends _ _ row hrow) hdecode

lemma Queried.mem_utxos
    (h : S.Queried db start «end» limit offset registrations deregistrations creates spends) :
    ∀ u ∈ registrations ++ deregistrations ++ creates ++ spends, u ∈ S.utxos db := by
  intro u hu
  simp only [utxos, List.mem_append, or_assoc] at hu ⊢
  rcases hu with hu | hu | hu | hu
  · exact Or.inl (mem_filterMap_of_reader h.registrations_eq hu)
  · exact Or.inr (Or.inl (mem_filterMap_of_reader h.deregistrations_eq hu))
  · exact Or.inr (Or.inr (Or.inl (mem_filterMap_of_reader h.creates_eq hu)))
  · exact Or.inr (Or.inr (Or.inr (mem_filterMap_of_reader h.spends_eq hu)))

/-- Over any finite set of UTXOs observed of one history `ObservedUtxo::cmp` is a strict total
order, so that sorting gives one list for every arrangement of the set; and the results of the
four queries, with their rows in any order and put together in any order, sort to one list, in
which creations come first. -/
theorem observation_order_canonical (S : Source) (H : CardanoHistory) :
    (∀ utxos : List ObservedUtxo, (∀ u ∈ utxos, S.Observes H u) →
      StrictTotalOn ObservedUtxo.cmp utxos ∧
        (∀ utxos' : List ObservedUtxo, utxos'.Perm utxos →
          utxos'.insertionSort Le = utxos.insertionSort Le) ∧
        CreationsFirst (utxos.insertionSort Le)) ∧
    (∀ db start «end» limit offset registrations deregistrations creates spends,
      H.Recorded db →
      S.Queried db start «end» limit offset registrations deregistrations creates spends →
      (∀ u ∈ registrations ++ deregistrations ++ creates ++ spends, S.Observes H u) ∧
      ∀ registrations' deregistrations' creates' spends' : List ObservedUtxo,
        registrations'.Perm registrations → deregistrations'.Perm deregistrations →
        creates'.Perm creates → spends'.Perm spends →
        ∀ results : List (List ObservedUtxo),
          results.Perm [registrations', deregistrations', creates', spends'] →
          results.flatten.insertionSort Le =
              (registrations ++ deregistrations ++ creates ++ spends).insertionSort Le ∧
            CreationsFirst (results.flatten.insertionSort Le)) := by
  constructor
  · intro utxos hutxos
    exact ⟨strictTotalOn_of_sortKey_inj (sortKey_inj hutxos),
      fun utxos' hperm => insertionSort_eq_of_perm (sortKey_inj hutxos) hperm,
      creationsFirst_insertionSort hutxos⟩
  · intro db start «end» limit offset regs deregs creates spends hdb hqueried
    have hobserves : ∀ u ∈ regs ++ deregs ++ creates ++ spends, S.Observes H u :=
      fun u hu => observes_of_mem_utxos hdb (hqueried.mem_utxos u hu)
    refine ⟨hobserves, ?_⟩
    intro regs' deregs' creates' spends' hregs hderegs hcreates hspends results hresults
    have hperm : results.flatten.Perm (regs ++ deregs ++ creates ++ spends) := by
      refine hresults.flatten.trans ?_
      simp only [List.flatten_cons, List.flatten_nil, List.append_nil, ← List.append_assoc]
      exact ((hregs.append hderegs).append hcreates).append hspends
    have heq := insertionSort_eq_of_perm (sortKey_inj hobserves) hperm
    refine ⟨heq, ?_⟩
    rw [heq]
    exact creationsFirst_insertionSort hobserves

end Source

/-! ### A history in which everything is spent -/

/-- An output at the mapping validator, with its auth token. -/
def registeredOut : TxOut where
  address := "addr1validator"
  datum := some (.constr 0 [.constr 0 [.bytes (List.replicate 28 0)], .bytes []])
  quantity := fun policyId name => if policyId = 0 ∧ name = "auth" then some 1 else none

/-- An output of cNIGHT to a holder. -/
def heldOut : TxOut where
  address := "addr1holder"
  datum := none
  quantity := fun policyId name => if policyId = 3 ∧ name = "NIGHT" then some 5 else none

/-- A transaction that registers and pays. -/
def registeringTx : CardanoTx where
  position := ⟨7, 1, 1000, 0⟩
  hash := 1
  inputs := []
  outputs := fun i => if i = 0 then some registeredOut else if i = 1 then some heldOut else none

/-- A transaction that spends both outputs and pays again. -/
def spendingTx : CardanoTx where
  position := ⟨7, 1, 1000, 1⟩
  hash := 2
  inputs := [(1, 0), (1, 1)]
  outputs := fun i => if i = 0 then some heldOut else none

/-- The two transactions, one after the other. -/
def spentHistory : CardanoHistory where
  txs := [registeringTx, spendingTx]
  position_inj := by
    intro t ht t' ht' hkey
    simp only [List.mem_cons, List.not_mem_nil, or_false] at ht ht'
    rcases ht with rfl | rfl <;> rcases ht' with rfl | rfl <;>
      first | rfl | exact absurd hkey (by decide)
  hash_inj := by
    intro t ht t' ht' hhash
    simp only [List.mem_cons, List.not_mem_nil, or_false] at ht ht'
    rcases ht with rfl | rfl <;> rcases ht' with rfl | rfl <;>
      first | rfl | exact absurd hhash (by decide)
  inputs_earlier := by
    intro t ht x hx
    simp only [List.mem_cons, List.not_mem_nil, or_false] at ht
    rcases ht with rfl | rfl
    · exact absurd hx (by simp [registeringTx])
    · refine ⟨registeringTx, by simp, ?_⟩
      simp only [spendingTx, List.mem_cons, List.not_mem_nil, or_false] at hx
      rcases hx with rfl | rfl <;> decide

/-- Its rows. -/
def spentDb : CardanoDb where
  blocks := [⟨1, 7, 1000, 200⟩]
  registrations := fun address policyId name =>
    if address = "addr1validator" ∧ policyId = 0 ∧ name = "auth" then
      [⟨.constr 0 [.constr 0 [.bytes (List.replicate 28 0)], .bytes []], 1, 7, 1000, 0, 1, 0⟩]
    else []
  deregistrations := fun address =>
    if address = "addr1validator" then
      [⟨.constr 0 [.constr 0 [.bytes (List.replicate 28 0)], .bytes []], 1, 7, 1000, 1, 2, 1, 0⟩]
    else []
  assetCreates := fun policyId name =>
    if policyId = 3 ∧ name = "NIGHT" then
      [⟨1, 7, 1000, 0, 5, "addr1holder", 1, 1⟩, ⟨1, 7, 1000, 1, 5, "addr1holder", 2, 0⟩]
    else []
  assetSpends := fun policyId name =>
    if policyId = 3 ∧ name = "NIGHT" then [⟨1, 7, 1000, 1, 5, "addr1holder", 1, 1, 2⟩] else []

lemma creates_registered : spentHistory.Creates registeringTx (1, 0) registeredOut :=
  ⟨by simp [spentHistory], rfl, rfl⟩

lemma creates_held : spentHistory.Creates registeringTx (1, 1) heldOut :=
  ⟨by simp [spentHistory], rfl, rfl⟩

lemma recorded_spentDb : spentHistory.Recorded spentDb where
  registrations := by
    intro address policyId name row hrow
    simp only [spentDb] at hrow
    split at hrow
    · rename_i h
      obtain ⟨rfl, rfl, rfl⟩ := h
      obtain rfl := List.mem_singleton.1 hrow
      exact ⟨registeringTx, registeredOut, creates_registered, rfl, rfl, by simp [registeredOut],
        rfl⟩
    · exact absurd hrow (by simp)
  deregistrations := by
    intro address row hrow
    simp only [spentDb] at hrow
    split at hrow
    · rename_i h
      subst h
      obtain rfl := List.mem_singleton.1 hrow
      exact ⟨spendingTx, registeredOut, ⟨by simp [spentHistory], by simp [spendingTx],
        registeringTx, creates_registered⟩, rfl, rfl, rfl, rfl⟩
    · exact absurd hrow (by simp)
  assetCreates := by
    intro policyId name row hrow
    simp only [spentDb] at hrow
    split at hrow
    · rename_i h
      obtain ⟨rfl, rfl⟩ := h
      simp only [List.mem_cons, List.not_mem_nil, or_false] at hrow
      rcases hrow with rfl | rfl
      · exact ⟨registeringTx, heldOut, creates_held, rfl, rfl, by simp [heldOut]⟩
      · exact ⟨spendingTx, heldOut, ⟨by simp [spentHistory], rfl, rfl⟩, rfl, rfl,
          by simp [heldOut]⟩
    · exact absurd hrow (by simp)
  assetSpends := by
    intro policyId name row hrow
    simp only [spentDb] at hrow
    split at hrow
    · rename_i h
      obtain ⟨rfl, rfl⟩ := h
      obtain rfl := List.mem_singleton.1 hrow
      exact ⟨spendingTx, heldOut, ⟨by simp [spentHistory], by simp [spendingTx], registeringTx,
        creates_held⟩, rfl, rfl, rfl, by simp [heldOut]⟩
    · exact absurd hrow (by simp)

/-- What is observed of it, in order. -/
def spentUtxos : List ObservedUtxo :=
  let owner := rewardAddressBytes 1 (.keyHash 2)
  let registrant := rewardAddressBytes 1 (.keyHash 0)
  let dustPublicKey : DustPublicKeyBytes := ⟨[], by decide⟩
  [⟨⟨⟨7, 1, 1000, 0⟩, 1, 1, 0⟩, .registration ⟨registrant, dustPublicKey⟩⟩,
    ⟨⟨⟨7, 1, 1000, 0⟩, 1, 1, 1⟩, .assetCreate ⟨5, owner, 1, 1⟩⟩,
    ⟨⟨⟨7, 1, 1000, 1⟩, 2, 2, 0⟩, .assetCreate ⟨5, owner, 2, 0⟩⟩,
    ⟨⟨⟨7, 1, 1000, 1⟩, 2, 1, 0⟩, .deregistration ⟨registrant, dustPublicKey⟩⟩,
    ⟨⟨⟨7, 1, 1000, 1⟩, 2, 1, 1⟩, .assetSpend ⟨5, owner, 1, 1, 2⟩⟩]

theorem observation_order_spent_history :
    spentHistory.Recorded spentDb ∧
      (∃ registrations deregistrations creates spends,
        demoSource.Queried spentDb firstPosition demoEnd 64 0 registrations deregistrations creates
            spends ∧
          [spends, creates.reverse, deregistrations, registrations].flatten.insertionSort
            ObservedUtxo.Le = spentUtxos) ∧
      StrictTotalOn ObservedUtxo.cmp spentUtxos ∧ ObservedUtxo.CreationsFirst spentUtxos := by
  have hqueried : demoSource.Queried spentDb firstPosition demoEnd 64 0
      (spentUtxos.take 1) ((spentUtxos.drop 3).take 1) ((spentUtxos.drop 1).take 2)
      (spentUtxos.drop 4) :=
    ⟨by decide +kernel, by decide +kernel, by decide +kernel, by decide +kernel⟩
  have hsort : (spentUtxos.take 1 ++ (spentUtxos.drop 3).take 1 ++ (spentUtxos.drop 1).take 2 ++
      spentUtxos.drop 4).insertionSort ObservedUtxo.Le = spentUtxos := by
    decide +kernel
  obtain ⟨hobserves, hresults⟩ := (Source.observation_order_canonical demoSource spentHistory).2
    spentDb _ _ _ _ _ _ _ _ recorded_spentDb hqueried
  obtain ⟨heq, hfirst⟩ := hresults _ _ _ _ (.refl _) (.refl _)
    (List.reverse_perm ((spentUtxos.drop 1).take 2)) (.refl _)
    [spentUtxos.drop 4, ((spentUtxos.drop 1).take 2).reverse, (spentUtxos.drop 3).take 1,
      spentUtxos.take 1]
    (List.reverse_perm [spentUtxos.take 1, (spentUtxos.drop 3).take 1,
      ((spentUtxos.drop 1).take 2).reverse, spentUtxos.drop 4])
  rw [heq, hsort] at hfirst
  have hspent : ∀ u ∈ spentUtxos, demoSource.Observes spentHistory u := by
    intro u hu
    rw [← hsort, List.mem_insertionSort] at hu
    exact hobserves u hu
  exact ⟨recorded_spentDb, ⟨_, _, _, _, hqueried, heq.trans hsort⟩,
    ((Source.observation_order_canonical demoSource spentHistory).1 spentUtxos hspent).1, hfirst⟩

end MidnightNode.Cnight
