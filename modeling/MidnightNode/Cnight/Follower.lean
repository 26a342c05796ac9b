/-
# The cNIGHT observation data source

`getUtxosUpToCapacity` reads the four kinds of rows between a start position and the tip of
Cardano, keeps those that decode, merges them in one order and cuts the result so that it holds
whole transactions, fewer than the capacity.  It also says where the next call resumes.
-/
import MidnightNode.Cnight.Queries

namespace MidnightNode.Cnight

/-- What is observed on Cardano. -/
structure CNightAddresses where
  /-- Address of the mapping validator, in bech32. -/
  mappingValidatorAddress : String
  /-- Asset name of the auth token. -/
  authTokenAssetName : String
  /-- Policy of cNIGHT. -/
  cnightPolicyId : Hash28
  /-- Asset name of cNIGHT. -/
  cnightAssetName : String

/-! ### Rows that decode -/

/-- The observed UTXO of a registration row, if its datum decodes. -/
def registrationUtxo (cardanoNetwork : BitVec 8) (row : RegistrationRow) : Option ObservedUtxo :=
  let header : ObservedUtxoHeader :=
    { txPosition := ⟨row.blockHash, row.blockNumber, row.blockTimestamp, row.txIndexInBlock⟩
      txHash := row.txHash
      utxoTxHash := row.txHash
      utxoIndex := row.utxoIndex }
  match row.fullDatum.asConstrPlutusData with
  | none => none
  | some (_, fields) =>
    match decodeRegistrationDatum fields with
    | .error _ => none
    | .ok (credential, dustPublicKey) =>
      some ⟨header, .registration ⟨rewardAddressBytes cardanoNetwork credential, dustPublicKey⟩⟩

/-- The observed UTXO of a deregistration row, if its datum decodes. -/
def deregistrationUtxo (cardanoNetwork : BitVec 8) (row : DeregistrationRow) :
    Option ObservedUtxo :=
  let header : ObservedUtxoHeader :=
    { txPosition := ⟨row.blockHash, row.blockNumber, row.blockTimestamp, row.txIndexInBlock⟩
      txHash := row.txHash
      utxoTxHash := row.utxoTxHash
      utxoIndex := row.utxoIndex }
  match row.fullDatum.asConstrPlutusData with
  | none => none
  | some (_, fields) =>
    match decodeRegistrationDatum fields with
    | .error _ => none
    | .ok (credential, dustPublicKey) =>
      some ⟨header, .deregistration ⟨rewardAddressBytes cardanoNetwork credential, dustPublicKey⟩⟩

/-- The reward address of the holder of a UTXO, if it is held at a base address. -/
def holderRewardAddress (lib : SerializationLib) (cardanoNetwork : BitVec 8)
    (holderAddress : String) : Option CardanoRewardAddressBytes :=
  match lib.fromBech32 holderAddress with
  | .error _ => none
  | .ok cardanoAddress =>
    cardanoAddress.baseStakeCred.map (rewardAddressBytes cardanoNetwork)

/-- The observed UTXO of a row for new cNIGHT, if its holder decodes. -/
def assetCreateUtxo (lib : SerializationLib) (cardanoNetwork : BitVec 8) (row : AssetCreateRow) :
    Option ObservedUtxo :=
  let header : ObservedUtxoHeader :=
    { txPosition := ⟨row.blockHash, row.blockNumber, row.blockTimestamp, row.txIndexInBlock⟩
      txHash := row.txHash
      utxoTxHash := row.txHash
      utxoIndex := row.utxoIndex }
  (holderRewardAddress lib cardanoNetwork row.holderAddress).map fun owner =>
    ⟨header, .assetCreate
      { value := BitVec.ofInt 128 row.quantity
        owner := owner
        utxoTxHash := row.txHash
        utxoTxIndex := row.utxoIndex }⟩

/-- The observed UTXO of a row for spent cNIGHT, if its holder decodes. -/
def assetSpendUtxo (lib : SerializationLib) (cardanoNetwork : BitVec 8) (row : AssetSpendRow) :
    Option ObservedUtxo :=
  let header : ObservedUtxoHeader :=
    { txPosition := ⟨row.blockHash, row.blockNumber, row.blockTimestamp, row.txIndexInBlock⟩
      txHash := row.spendingTxHash
      utxoTxHash := row.utxoTxHash
      utxoIndex := row.utxoIndex }
  (holderRewardAddress lib cardanoNetwork row.holderAddress).map fun owner =>
    ⟨header, .assetSpend
      { value := BitVec.ofInt 128 row.quantity
        owner := owner
        utxoTxHash := row.utxoTxHash
        utxoTxIndex := row.utxoIndex
        spendingTxHash := row.spendingTxHash }⟩

/-- The contents of the datum of a registration, if it is one. -/
def decodedDatum (datum : PlutusData) : Option (Credential × DustPublicKeyBytes) :=
  match datum.asConstrPlutusData with
  | none => none
  | some (_, fields) => (decodeRegistrationDatum fields).toOption

lemma decodedDatum_eq_some_iff {datum : PlutusData} {pair : Credential × DustPublicKeyBytes} :
    decodedDatum datum = some pair ↔ ∃ alternative fields,
      datum = .constr alternative fields ∧ decodeRegistrationDatum fields = .ok pair := by
  cases datum with
  | constr alternative fields =>
    have hconstr : decodedDatum (.constr alternative fields) =
        (decodeRegistrationDatum fields).toOption := rfl
    rw [hconstr]
    cases hdecode : decodeRegistrationDatum fields <;> simp [hdecode, Except.toOption]
  | map entries => simp [decodedDatum, PlutusData.asConstrPlutusData]
  | list items => simp [decodedDatum, PlutusData.asConstrPlutusData]
  | integer value => simp [decodedDatum, PlutusData.asConstrPlutusData]
  | bytes value => simp [decodedDatum, PlutusData.asConstrPlutusData]

lemma registrationUtxo_eq (network : BitVec 8) (row : RegistrationRow) :
    registrationUtxo network row = (decodedDatum row.fullDatum).map fun pair =>
      ⟨⟨⟨row.blockHash, row.blockNumber, row.blockTimestamp, row.txIndexInBlock⟩, row.txHash,
        row.txHash, row.utxoIndex⟩,
        .registration ⟨rewardAddressBytes network pair.1, pair.2⟩⟩ := by
  rw [registrationUtxo, decodedDatum]
  rcases row.fullDatum.asConstrPlutusData with _ | ⟨_, fields⟩
  · rfl
  · rcases hpair : decodeRegistrationDatum fields with _ | ⟨_, _⟩ <;>
      simp [hpair, Except.toOption]

lemma deregistrationUtxo_eq (network : BitVec 8) (row : DeregistrationRow) :
    deregistrationUtxo network row = (decodedDatum row.fullDatum).map fun pair =>
      ⟨⟨⟨row.blockHash, row.blockNumber, row.blockTimestamp, row.txIndexInBlock⟩, row.txHash,
        row.utxoTxHash, row.utxoIndex⟩,
        .deregistration ⟨rewardAddressBytes network pair.1, pair.2⟩⟩ := by
  rw [deregistrationUtxo, decodedDatum]
  rcases row.fullDatum.asConstrPlutusData with _ | ⟨_, fields⟩
  · rfl
  · rcases hpair : decodeRegistrationDatum fields with _ | ⟨_, _⟩ <;>
      simp [hpair, Except.toOption]

lemma posKey_registrationUtxo {network : BitVec 8} {row : RegistrationRow} {u : ObservedUtxo}
    (h : registrationUtxo network row = some u) :
    u.posKey = toLex (row.blockNumber, row.txIndexInBlock) := by
  rw [registrationUtxo_eq] at h
  obtain ⟨_, -, rfl⟩ := Option.map_eq_some_iff.1 h
  rfl

lemma posKey_deregistrationUtxo {network : BitVec 8} {row : DeregistrationRow}
    {u : ObservedUtxo} (h : deregistrationUtxo network row = some u) :
    u.posKey = toLex (row.blockNumber, row.txIndexInBlock) := by
  rw [deregistrationUtxo_eq] at h
  obtain ⟨_, -, rfl⟩ := Option.map_eq_some_iff.1 h
  rfl

lemma posKey_assetCreateUtxo {lib : SerializationLib} {network : BitVec 8}
    {row : AssetCreateRow} {u : ObservedUtxo} (h : assetCreateUtxo lib network row = some u) :
    u.posKey = toLex (row.blockNumber, row.txIndexInBlock) := by
  obtain ⟨_, -, rfl⟩ := Option.map_eq_some_iff.1 h
  rfl

lemma posKey_assetSpendUtxo {lib : SerializationLib} {network : BitVec 8}
    {row : AssetSpendRow} {u : ObservedUtxo} (h : assetSpendUtxo lib network row = some u) :
    u.posKey = toLex (row.blockNumber, row.txIndexInBlock) := by
  obtain ⟨_, -, rfl⟩ := Option.map_eq_some_iff.1 h
  rfl

/-! ### The readers -/

/-- `get_registration_utxos`: rows whose datum does not decode are skipped. -/
def getRegistrationUtxos (db : CardanoDb) (cardanoNetwork : BitVec 8)
    (mappingValidatorPolicyId : Hash28) (address authAssetName : String)
    (start «end» : CardanoPosition) (limit offset : ℕ) :
    Except DataSourceError (List ObservedUtxo) := do
  let rows ← getRegistrations db address mappingValidatorPolicyId authAssetName start «end» limit
    offset
  return rows.filterMap (registrationUtxo cardanoNetwork)

/-- `get_deregistration_utxos`. -/
def getDeregistrationUtxos (db : CardanoDb) (cardanoNetwork : BitVec 8) (address : String)
    (start «end» : CardanoPosition) (limit offset : ℕ) :
    Except DataSourceError (List ObservedUtxo) := do
  let rows ← getDeregistrations db address start «end» limit offset
  return rows.filterMap (deregistrationUtxo cardanoNetwork)

/-- `get_asset_create_utxos`: rows whose holder has no stake credential are skipped. -/
def getAssetCreateUtxos (lib : SerializationLib) (db : CardanoDb) (cardanoNetwork : BitVec 8)
    (policyId : Hash28) (assetName : String) (start «end» : CardanoPosition)
    (limit offset : ℕ) : Except DataSourceError (List ObservedUtxo) := do
  let rows ← getAssetCreates db policyId assetName start «end» limit offset
  return rows.filterMap (assetCreateUtxo lib cardanoNetwork)

/-- `get_asset_spend_utxos`. -/
def getAssetSpendUtxos (lib : SerializationLib) (db : CardanoDb) (cardanoNetwork : BitVec 8)
    (policyId : Hash28) (assetName : String) (start «end» : CardanoPosition)
    (limit offset : ℕ) : Except DataSourceError (List ObservedUtxo) := do
  let rows ← getAssetSpends db policyId assetName start «end» limit offset
  return rows.filterMap (assetSpendUtxo lib cardanoNetwork)

/-! ### Truncation -/

/-- The variables of the truncation loop. -/
structure Truncation where
  /-- `truncated_utxos`. -/
  truncatedUtxos : List ObservedUtxo
  /-- `num_txs`. -/
  numTxs : ℕ
  /-- `cur_tx`. -/
  curTx : Option CardanoPosition

/-- A UTXO of a later transaction than the current one starts a new transaction. -/
def Truncation.enter (t : Truncation) (utxo : ObservedUtxo) : Truncation :=
  if t.curTx.all (fun tx => tx < utxo.header.txPosition) then
    { t with numTxs := t.numTxs + 1, curTx := some utxo.header.txPosition }
  else t

/-- The loop that includes full transactions until the capacity is reached. -/
def truncateLoop (txCapacity : ℕ) : List ObservedUtxo → Truncation → Truncation
  | [], t => t
  | utxo :: utxos, t =>
    let t := t.enter utxo
    if t.numTxs = txCapacity then t
    else truncateLoop txCapacity utxos { t with truncatedUtxos := t.truncatedUtxos ++ [utxo] }

/-- The result for UTXOs in order: if the capacity was not reached the call is up to date with
the tip, and otherwise the next call resumes after the last UTXO returned. -/
def truncateUtxos (startPosition «end» : CardanoPosition) (txCapacity : ℕ)
    (utxos : List ObservedUtxo) : ObservedUtxos :=
  let t := truncateLoop txCapacity utxos ⟨[], 0, none⟩
  if t.numTxs < txCapacity then
    { start := startPosition, «end» := «end», utxos := t.truncatedUtxos }
  else
    { start := startPosition
      «end» := ((t.truncatedUtxos.getLast?.map (fun u => u.header.txPosition)).getD
        startPosition).increment
      utxos := t.truncatedUtxos }

/-! ### The data source -/

/-- The network and the script hash of the mapping validator's address. -/
def mappingValidator (lib : SerializationLib) (config : CNightAddresses) :
    Except DataSourceError (BitVec 8 × Hash28) :=
  match lib.fromBech32 config.mappingValidatorAddress with
  | .error e => .error (.mappingValidatorInvalidAddress e)
  | .ok address =>
    match address.networkId with
    | none => .error (.cardanoNetworkError config.mappingValidatorAddress)
    | some cardanoNetwork =>
      match address.enterprisePaymentCred with
      | none => .error (.mappingValidatorInvalidAddress "Not EnterpriseAddress")
      | some paymentCred =>
        match paymentCred.toScriptHash with
        | none => .error (.mappingValidatorInvalidAddress
            "MappingValidator address does not contain a script hash")
        | some policyId => .ok (cardanoNetwork, policyId)

/-- The position after the tip. -/
def tipEnd (db : CardanoDb) (currentTip : McBlockHash) : Except DataSourceError CardanoPosition :=
  match getBlockByHash db currentTip with
  | none => .error (.missingBlockReference currentTip)
  | some b => .ok b.toPosition.increment

/-- The capacity of a query: a generous overestimate of the UTXOs in `tx_capacity`
transactions. -/
def utxoCapacity (txCapacity : ℕ) : ℕ := txCapacity * 64

/-- `get_utxos_up_to_capacity`. -/
def getUtxosUpToCapacity (lib : SerializationLib) (db : CardanoDb) (config : CNightAddresses)
    (startPosition : CardanoPosition) (currentTip : McBlockHash) (txCapacity : ℕ) :
    Except DataSourceError ObservedUtxos := do
  let (cardanoNetwork, policyId) ← mappingValidator lib config
  let «end» ← tipEnd db currentTip
  let registrationUtxos ← getRegistrationUtxos db cardanoNetwork policyId
    config.mappingValidatorAddress config.authTokenAssetName startPosition «end»
    (utxoCapacity txCapacity) 0
  let deregistrationUtxos ← getDeregistrationUtxos db cardanoNetwork
    config.mappingValidatorAddress startPosition «end» (utxoCapacity txCapacity) 0
  let assetCreateUtxos ← getAssetCreateUtxos lib db cardanoNetwork config.cnightPolicyId
    config.cnightAssetName startPosition «end» (utxoCapacity txCapacity) 0
  let assetSpendUtxos ← getAssetSpendUtxos lib db cardanoNetwork config.cnightPolicyId
    config.cnightAssetName startPosition «end» (utxoCapacity txCapacity) 0
  let utxos := registrationUtxos ++ deregistrationUtxos ++ assetCreateUtxos ++ assetSpendUtxos
  return truncateUtxos startPosition «end» txCapacity (utxos.insertionSort ObservedUtxo.Le)

/-! ### Genesis -/

/-- The position that `generate_cnight_genesis` starts from. -/
def firstPosition : CardanoPosition := ⟨0, 0, 0, 0⟩

/-- The loop of `generate_cnight_genesis` over a data source: calls from the current position
until one ends in the tip's block.  `none` is a loop that has not ended after `fuel` calls. -/
def fetchUtxos {ε : Type} (source : CardanoPosition → Except ε ObservedUtxos)
    (cardanoTip : McBlockHash) :
    (fuel : ℕ) → CardanoPosition → List ObservedUtxo →
      Option (Except ε (CardanoPosition × List ObservedUtxo))
  | 0, _, _ => none
  | fuel + 1, currentPosition, allUtxos =>
    match source currentPosition with
    | .error e => some (.error e)
    | .ok observed =>
      if observed.end.blockHash == cardanoTip then
        some (.ok (observed.end, allUtxos ++ observed.utxos))
      else
        fetchUtxos source cardanoTip fuel observed.end (allUtxos ++ observed.utxos)

/-- The loop over the db-sync data source. -/
def genesisLoop (lib : SerializationLib) (db : CardanoDb) (addresses : CNightAddresses)
    (cardanoTip : McBlockHash) (txCapacity : ℕ) :
    (fuel : ℕ) → CardanoPosition → List ObservedUtxo →
      Option (Except DataSourceError (CardanoPosition × List ObservedUtxo)) :=
  fetchUtxos (fun start => getUtxosUpToCapacity lib db addresses start cardanoTip txCapacity)
    cardanoTip

/-- A round of the loop whose call succeeds. -/
lemma genesisLoop_succ {lib : SerializationLib} {db : CardanoDb} {addresses : CNightAddresses}
    {cardanoTip : McBlockHash} {txCapacity fuel : ℕ} {currentPosition : CardanoPosition}
    {allUtxos : List ObservedUtxo} {observed : ObservedUtxos}
    (h : getUtxosUpToCapacity lib db addresses currentPosition cardanoTip txCapacity =
      .ok observed) :
    genesisLoop lib db addresses cardanoTip txCapacity (fuel + 1) currentPosition allUtxos =
      if observed.end.blockHash == cardanoTip then
        some (.ok (observed.end, allUtxos ++ observed.utxos))
      else
        genesisLoop lib db addresses cardanoTip txCapacity fuel observed.end
          (allUtxos ++ observed.utxos) := by
  rw [genesisLoop, fetchUtxos, h]

end MidnightNode.Cnight
