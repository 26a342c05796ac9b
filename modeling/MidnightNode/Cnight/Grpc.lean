/-
# Observations over gRPC

The second backend of the observation: an indexer delivers the events of a range as protobuf
messages, and `observed_utxo_from_event` converts each of them.  The db-sync backend reads the
same events from rows.

A row that does not decode is skipped, while a message that does not decode makes the whole
call fail.  The two backends therefore agree exactly on the histories in which everything
decodes.
-/
import MidnightNode.Lib.Traverse
import MidnightNode.Cnight.Inherent

namespace MidnightNode.Cnight

open Traverse

/-! ### Messages -/

/-- The codes of a `tonic::Status`. -/
inductive StatusCode
  | internal
  | invalidArgument
  /-- The codes that only the server or the transport returns. -/
  | other (code : ℕ)
deriving DecidableEq

/-- `tonic::Status`. -/
structure Status where
  code : StatusCode
  message : String
deriving DecidableEq

/-- `Status::internal`. -/
def Status.internal (message : String) : Status := ⟨.internal, message⟩

/-- The fields that all events share. -/
structure EventBlock where
  blockNumber : UInt64
  blockHash : List UInt8
  txIndex : UInt32
  blockTimestampUnixMillis : ℤ

/-- `AssetCreate`. -/
structure AssetCreateEvent extends EventBlock where
  address : List UInt8
  quantity : UInt64
  txHash : List UInt8
  outputIndex : UInt32

/-- `AssetSpend`. -/
structure AssetSpendEvent extends EventBlock where
  address : List UInt8
  quantity : UInt64
  spendingTxHash : List UInt8
  utxoTxHash : List UInt8
  utxoIndex : UInt32

/-- `Registration`. -/
structure RegistrationEvent extends EventBlock where
  fullDatum : List UInt8
  txHash : List UInt8
  outputIndex : UInt32

/-- `Deregistration`. -/
structure DeregistrationEvent extends EventBlock where
  fullDatum : List UInt8
  txHash : List UInt8
  utxoTxHash : List UInt8
  utxoIndex : UInt32

/-- `utxo_event::Kind`. -/
inductive UtxoEventKind
  | assetCreate (e : AssetCreateEvent)
  | assetSpend (e : AssetSpendEvent)
  | registration (e : RegistrationEvent)
  | deregistration (e : DeregistrationEvent)

/-- `UtxoEvent`: a `oneof` may be absent. -/
structure UtxoEvent where
  kind : Option UtxoEventKind

/-- `midnight_state::CardanoPosition`. -/
structure GrpcCardanoPosition where
  blockHash : List UInt8
  blockNumber : UInt32
  txIndex : UInt32
  blockTimestampUnixMillis : ℤ

/-- `UtxoEventsRequest`. -/
structure UtxoEventsRequest where
  txCapacity : UInt32
  endBlockHash : McBlockHash
  startPosition : CardanoPosition

/-- `UtxoEventsResponse`. -/
structure UtxoEventsResponse where
  events : List UtxoEvent
  nextPosition : Option GrpcCardanoPosition

/-- The serialization library with the reader of CBOR. -/
structure CborLib extends SerializationLib where
  /-- `PlutusData::from_bytes`, with the text of its error. -/
  fromBytes : List UInt8 → Except String PlutusData

/-! ### Conversions -/

/-- The text of a `RegistrationDatumDecodeError`. -/
def RegistrationDatumDecodeError.message : RegistrationDatumDecodeError → String
  | cardanoCredentialNotBytes => "Cardano credential not bytes"
  | cardanoCredentialInvalidTag _ => "Cardano credential invalid tag"
  | cardanoCredentialInvalidKeyHash => "Cardano credential invalid key hash"
  | cardanoCredentialInvalidScriptHash => "Cardano credential invalid script hash"
  | dustAddressNotBytes => "Dust address not bytes"
  | dustAddressInvalidLength _ => "Dust address invalid length"

/-- `try_into` to 32 bytes, with the text of the error. -/
def bytes32 (message : String) (bytes : List UInt8) : Except Status (BitVec 256) :=
  if bytes.length = 32 then .ok (bytesToBitVec 256 bytes) else .error (.internal message)

/-- `hash32`. -/
def hash32 (bytes : List UInt8) : Except Status (BitVec 256) :=
  bytes32 "invalid hash length" bytes

/-- `try_into` to the 29 bytes of a reward address. -/
def rewardAddressFromBytes (bytes : List UInt8) : Except Status CardanoRewardAddressBytes :=
  if bytes.length = 29 then .ok (bytesToBitVec 232 bytes)
  else .error (.internal "Invalid address length")

/-- The header of an event: `block_number as u32`, and an index `as u16`. -/
def EventBlock.header (block : EventBlock) (txHash utxoTxHash : List UInt8) (index : UInt32) :
    Except Status ObservedUtxoHeader := do
  let blockHash ← hash32 block.blockHash
  let txHash ← hash32 txHash
  let utxoTxHash ← hash32 utxoTxHash
  return {
    txPosition := ⟨blockHash, block.blockNumber.toNat % 2 ^ 32, block.blockTimestampUnixMillis,
      block.txIndex.toNat⟩
    txHash := txHash
    utxoTxHash := utxoTxHash
    utxoIndex := BitVec.ofNat 16 index.toNat }

/-- The datum of a registration or a deregistration. -/
def decodeEventDatum (lib : CborLib) (fullDatum : List UInt8) :
    Except Status (Credential × DustPublicKeyBytes) :=
  match lib.fromBytes fullDatum with
  | .error e => .error (.internal ("Invalid CBOR datum: " ++ e))
  | .ok datum =>
    match datum.asConstrPlutusData with
    | none => .error (.internal "Deregistration datum not Constr")
    | some (_, fields) =>
      match decodeRegistrationDatum fields with
      | .error e => .error (.internal ("Datum decode error: " ++ e.message))
      | .ok pair => .ok pair

/-- `observed_utxo_from_event`. -/
def observedUtxoFromEvent (lib : CborLib) (cardanoNetwork : BitVec 8) (event : UtxoEvent) :
    Except Status ObservedUtxo :=
  match event.kind with
  | none => .error (.internal "missing utxo event kind")
  | some (.assetCreate e) => do
    let header ← e.header e.txHash e.txHash e.outputIndex
    let owner ← rewardAddressFromBytes e.address
    let utxoTxHash ← bytes32 "Invalid tx hash length" e.txHash
    return ⟨header, .assetCreate
      ⟨BitVec.ofNat 128 e.quantity.toNat, owner, utxoTxHash, BitVec.ofNat 16 e.outputIndex.toNat⟩⟩
  | some (.assetSpend e) => do
    let header ← e.header e.spendingTxHash e.utxoTxHash e.utxoIndex
    let owner ← rewardAddressFromBytes e.address
    let utxoTxHash ← hash32 e.utxoTxHash
    let spendingTxHash ← hash32 e.spendingTxHash
    return ⟨header, .assetSpend
      ⟨BitVec.ofNat 128 e.quantity.toNat, owner, utxoTxHash, BitVec.ofNat 16 e.utxoIndex.toNat,
        spendingTxHash⟩⟩
  | some (.registration e) => do
    let header ← e.header e.txHash e.txHash e.outputIndex
    let (credential, dustPublicKey) ← decodeEventDatum lib e.fullDatum
    return ⟨header, .registration
      ⟨rewardAddressBytes cardanoNetwork credential, dustPublicKey⟩⟩
  | some (.deregistration e) => do
    let header ← e.header e.txHash e.utxoTxHash e.utxoIndex
    let (credential, dustPublicKey) ← decodeEventDatum lib e.fullDatum
    return ⟨header, .deregistration
      ⟨rewardAddressBytes cardanoNetwork credential, dustPublicKey⟩⟩

/-- `cardano_position_from_response`. -/
def cardanoPositionFromResponse (position : GrpcCardanoPosition) :
    Except Status CardanoPosition := do
  let blockHash ← bytes32 "invalid block hash length in next_position" position.blockHash
  return ⟨blockHash, position.blockNumber.toNat, position.blockTimestampUnixMillis,
    position.txIndex.toNat⟩

/-- `get_utxo_events`, with the call to the server as a parameter. -/
def getUtxoEvents (lib : CborLib)
    (client : UtxoEventsRequest → Except Status UtxoEventsResponse) (cardanoNetwork : BitVec 8)
    (startPosition : CardanoPosition) (txCapacity : ℕ) (endBlockHash : McBlockHash) :
    Except Status (List ObservedUtxo × CardanoPosition) := do
  if ¬ txCapacity < 2 ^ 32 then
    throw ⟨.invalidArgument, "utxo_capacity too large"⟩
  let response ← client ⟨UInt32.ofNat txCapacity, endBlockHash, startPosition⟩
  let utxos ← response.events.mapM (observedUtxoFromEvent lib cardanoNetwork)
  match response.nextPosition with
  | none => .error (.internal "missing next_position in UtxoEventsResponse")
  | some position =>
    let nextPosition ← cardanoPositionFromResponse position
    return (utxos, nextPosition)

/-! ### The same events from both backends -/

/-- An event on Cardano, as a row of db-sync has it. -/
inductive ChainEvent
  | registration (row : RegistrationRow)
  | deregistration (row : DeregistrationRow)
  | assetCreate (row : AssetCreateRow)
  | assetSpend (row : AssetSpendRow)

namespace ChainEvent

variable (lib : CborLib) (network : BitVec 8)

/-- What the readers of db-sync make of a row: it is skipped if it does not decode. -/
def dbSyncUtxo : ChainEvent → Option ObservedUtxo
  | registration row => registrationUtxo network row
  | deregistration row => deregistrationUtxo network row
  | assetCreate row => assetCreateUtxo lib.toSerializationLib network row
  | assetSpend row => assetSpendUtxo lib.toSerializationLib network row

/-- The event decodes: its datum is that of a registration, or its holder has a stake
credential. -/
def Decodes : ChainEvent → Prop
  | registration row => ∃ alternative fields pair, row.fullDatum = .constr alternative fields ∧
      decodeRegistrationDatum fields = .ok pair
  | deregistration row => ∃ alternative fields pair, row.fullDatum = .constr alternative fields ∧
      decodeRegistrationDatum fields = .ok pair
  | assetCreate row => ∃ network payment stake,
      lib.fromBech32 row.holderAddress = .ok (.base network payment stake)
  | assetSpend row => ∃ network payment stake,
      lib.fromBech32 row.holderAddress = .ok (.base network payment stake)

end ChainEvent

/-- A message has the block of a row. -/
structure EventBlock.IsBlock (block : EventBlock) (hash : McBlockHash) (number : ℕ) (time : ℤ)
    (txIndex : ℕ) : Prop where
  hash_eq : hash32 block.blockHash = .ok hash
  number_eq : block.blockNumber.toNat = number
  number_lt : number < 2 ^ 32
  time_eq : block.blockTimestampUnixMillis = time
  txIndex_eq : block.txIndex.toNat = txIndex

/-- A message has the reward address of a holder, if there is one. -/
def IsOwner (lib : CborLib) (network : BitVec 8) (address : List UInt8) (holder : String) :
    Prop :=
  ∀ owner, holderRewardAddress lib.toSerializationLib network holder = some owner →
    rewardAddressFromBytes address = .ok owner

/-- The message delivers the event: it has the same block, hashes, indices, quantities and
datum. -/
inductive Delivers (lib : CborLib) (network : BitVec 8) : ChainEvent → UtxoEvent → Prop
  | registration {row : RegistrationRow} {e : RegistrationEvent}
      (block : e.IsBlock row.blockHash row.blockNumber row.blockTimestamp row.txIndexInBlock)
      (txHash : hash32 e.txHash = .ok row.txHash)
      (index : e.outputIndex.toNat = row.utxoIndex.toNat)
      (datum : lib.fromBytes e.fullDatum = .ok row.fullDatum) :
      Delivers lib network (.registration row) ⟨some (.registration e)⟩
  | deregistration {row : DeregistrationRow} {e : DeregistrationEvent}
      (block : e.IsBlock row.blockHash row.blockNumber row.blockTimestamp row.txIndexInBlock)
      (txHash : hash32 e.txHash = .ok row.txHash)
      (utxoTxHash : hash32 e.utxoTxHash = .ok row.utxoTxHash)
      (index : e.utxoIndex.toNat = row.utxoIndex.toNat)
      (datum : lib.fromBytes e.fullDatum = .ok row.fullDatum) :
      Delivers lib network (.deregistration row) ⟨some (.deregistration e)⟩
  | assetCreate {row : AssetCreateRow} {e : AssetCreateEvent}
      (block : e.IsBlock row.blockHash row.blockNumber row.blockTimestamp row.txIndexInBlock)
      (txHash : hash32 e.txHash = .ok row.txHash)
      (index : e.outputIndex.toNat = row.utxoIndex.toNat)
      (quantity : (e.quantity.toNat : ℤ) = row.quantity)
      (owner : IsOwner lib network e.address row.holderAddress) :
      Delivers lib network (.assetCreate row) ⟨some (.assetCreate e)⟩
  | assetSpend {row : AssetSpendRow} {e : AssetSpendEvent}
      (block : e.IsBlock row.blockHash row.blockNumber row.blockTimestamp row.txIndexInBlock)
      (spendingTxHash : hash32 e.spendingTxHash = .ok row.spendingTxHash)
      (utxoTxHash : hash32 e.utxoTxHash = .ok row.utxoTxHash)
      (index : e.utxoIndex.toNat = row.utxoIndex.toNat)
      (quantity : (e.quantity.toNat : ℤ) = row.quantity)
      (owner : IsOwner lib network e.address row.holderAddress) :
      Delivers lib network (.assetSpend row) ⟨some (.assetSpend e)⟩

section Agreement

variable {lib : CborLib} {network : BitVec 8}

lemma bytes32_of_hash32 {bytes : List UInt8} {h : BitVec 256} (hb : hash32 bytes = .ok h)
    (message : String) : bytes32 message bytes = .ok h := by
  rw [hash32, bytes32] at hb
  rw [bytes32]
  split at hb
  · rename_i hlength
    rw [if_pos hlength]
    exact hb
  · exact absurd hb (by simp)

/-- The header of a message is that of the row. -/
lemma EventBlock.IsBlock.header_eq {block : EventBlock} {hash txHash utxoTxHash : BitVec 256}
    {number txIndex : ℕ} {time : ℤ} (h : block.IsBlock hash number time txIndex)
    {txHashBytes utxoTxHashBytes : List UInt8} (htx : hash32 txHashBytes = .ok txHash)
    (hutxo : hash32 utxoTxHashBytes = .ok utxoTxHash) {index : UInt32} {utxoIndex : BitVec 16}
    (hindex : index.toNat = utxoIndex.toNat) :
    block.header txHashBytes utxoTxHashBytes index =
      .ok ⟨⟨hash, number, time, txIndex⟩, txHash, utxoTxHash, utxoIndex⟩ := by
  simp only [EventBlock.header, h.hash_eq, htx, hutxo, h.number_eq, h.time_eq, h.txIndex_eq,
    hindex, Nat.mod_eq_of_lt h.number_lt, BitVec.ofNat_toNat, BitVec.setWidth_eq]
  rfl

/-- The datum of a message decodes as that of the row. -/
lemma decodeEventDatum_eq {fullDatum : List UInt8} {datum : PlutusData}
    (h : lib.fromBytes fullDatum = .ok datum) {pair : Credential × DustPublicKeyBytes}
    (hpair : decodedDatum datum = some pair) : decodeEventDatum lib fullDatum = .ok pair := by
  obtain ⟨alternative, fields, rfl, hdecode⟩ := decodedDatum_eq_some_iff.1 hpair
  simp only [decodeEventDatum, h, PlutusData.asConstrPlutusData, hdecode]

lemma ofNat_quantity {n : ℕ} {q : ℤ} (h : (n : ℤ) = q) :
    BitVec.ofNat 128 n = BitVec.ofInt 128 q := by
  rw [← h, BitVec.ofInt_natCast]

/-- What db-sync observes of an event is what its message is converted to. -/
lemma Delivers.observedUtxoFromEvent_eq {chain : ChainEvent} {event : UtxoEvent}
    (h : Delivers lib network chain event) {u : ObservedUtxo}
    (hu : chain.dbSyncUtxo lib network = some u) :
    observedUtxoFromEvent lib network event = .ok u := by
  cases h with
  | registration block txHash index datum =>
    rw [ChainEvent.dbSyncUtxo, registrationUtxo_eq] at hu
    obtain ⟨pair, hpair, rfl⟩ := Option.map_eq_some_iff.1 hu
    rw [observedUtxoFromEvent]
    simp only [block.header_eq txHash txHash index, decodeEventDatum_eq datum hpair]
    rfl
  | deregistration block txHash utxoTxHash index datum =>
    rw [ChainEvent.dbSyncUtxo, deregistrationUtxo_eq] at hu
    obtain ⟨pair, hpair, rfl⟩ := Option.map_eq_some_iff.1 hu
    rw [observedUtxoFromEvent]
    simp only [block.header_eq txHash utxoTxHash index, decodeEventDatum_eq datum hpair]
    rfl
  | assetCreate block txHash index quantity owner =>
    obtain ⟨address, haddress, rfl⟩ := Option.map_eq_some_iff.1 hu
    rw [observedUtxoFromEvent]
    simp only [block.header_eq txHash txHash index, owner address haddress,
      bytes32_of_hash32 txHash, index, ofNat_quantity quantity, BitVec.ofNat_toNat,
      BitVec.setWidth_eq]
    rfl
  | assetSpend block spendingTxHash utxoTxHash index quantity owner =>
    obtain ⟨address, haddress, rfl⟩ := Option.map_eq_some_iff.1 hu
    rw [observedUtxoFromEvent]
    simp only [block.header_eq spendingTxHash utxoTxHash index, owner address haddress,
      utxoTxHash, spendingTxHash, index, ofNat_quantity quantity, BitVec.ofNat_toNat,
      BitVec.setWidth_eq]
    rfl

lemma isSome_decodedDatum_iff (datum : PlutusData) :
    (decodedDatum datum).isSome ↔ ∃ alternative fields pair,
      datum = .constr alternative fields ∧ decodeRegistrationDatum fields = .ok pair := by
  rw [Option.isSome_iff_exists]
  constructor
  · rintro ⟨pair, hpair⟩
    obtain ⟨alternative, fields, hdatum, hdecode⟩ := decodedDatum_eq_some_iff.1 hpair
    exact ⟨alternative, fields, pair, hdatum, hdecode⟩
  · rintro ⟨alternative, fields, pair, hdatum, hdecode⟩
    exact ⟨pair, decodedDatum_eq_some_iff.2 ⟨alternative, fields, hdatum, hdecode⟩⟩

lemma isSome_holderRewardAddress_iff (holder : String) :
    (holderRewardAddress lib.toSerializationLib network holder).isSome ↔
      ∃ network' payment stake, lib.fromBech32 holder = .ok (.base network' payment stake) := by
  rw [holderRewardAddress]
  cases lib.fromBech32 holder with
  | error e => simp
  | ok address => cases address <;> simp [Address.baseStakeCred]

/-- An event is observed from db-sync exactly if it decodes. -/
lemma ChainEvent.isSome_dbSyncUtxo_iff (chain : ChainEvent) :
    (chain.dbSyncUtxo lib network).isSome ↔ chain.Decodes lib := by
  cases chain with
  | registration row =>
    rw [dbSyncUtxo, registrationUtxo_eq, Option.isSome_map]
    exact isSome_decodedDatum_iff row.fullDatum
  | deregistration row =>
    rw [dbSyncUtxo, deregistrationUtxo_eq, Option.isSome_map]
    exact isSome_decodedDatum_iff row.fullDatum
  | assetCreate row =>
    rw [dbSyncUtxo, assetCreateUtxo, Option.isSome_map]
    exact isSome_holderRewardAddress_iff row.holderAddress
  | assetSpend row =>
    rw [dbSyncUtxo, assetSpendUtxo, Option.isSome_map]
    exact isSome_holderRewardAddress_iff row.holderAddress

end Agreement

/-- A call whose response is complete returns the conversion of its events. -/
lemma getUtxoEvents_eq {lib : CborLib} {network : BitVec 8}
    {client : UtxoEventsRequest → Except Status UtxoEventsResponse}
    {startPosition : CardanoPosition} {txCapacity : ℕ} {endBlockHash : McBlockHash}
    (hcapacity : txCapacity < 2 ^ 32) {response : UtxoEventsResponse}
    (hresponse : client ⟨UInt32.ofNat txCapacity, endBlockHash, startPosition⟩ = .ok response)
    {position : GrpcCardanoPosition} {next : CardanoPosition}
    (hposition : response.nextPosition = some position)
    (hnext : cardanoPositionFromResponse position = .ok next) :
    getUtxoEvents lib client network startPosition txCapacity endBlockHash =
      (response.events.mapM (observedUtxoFromEvent lib network)).map (·, next) := by
  rw [getUtxoEvents, if_neg (not_not.2 hcapacity)]
  cases hutxos : response.events.mapM (observedUtxoFromEvent lib network) <;>
    simp [hresponse, hposition, hnext, hutxos, bind, Except.bind, Except.map, pure, Except.pure]

/-- **When the two backends observe the same.**  Let a server deliver the events that db-sync
has rows of, in the same order.  The conversion of its response returns exactly what the
readers of db-sync return if and only if every event decodes: where a datum is not that of a
registration, or a holder has no stake credential, db-sync leaves the event out. -/
theorem backends_observe_same_iff (lib : CborLib) (network : BitVec 8)
    (client : UtxoEventsRequest → Except Status UtxoEventsResponse)
    (startPosition : CardanoPosition) {txCapacity : ℕ} (endBlockHash : McBlockHash)
    (hcapacity : txCapacity < 2 ^ 32) {response : UtxoEventsResponse}
    (hresponse : client ⟨UInt32.ofNat txCapacity, endBlockHash, startPosition⟩ = .ok response)
    {chain : List ChainEvent}
    (hevents : List.Forall₂ (Delivers lib network) chain response.events)
    {position : GrpcCardanoPosition} {next : CardanoPosition}
    (hposition : response.nextPosition = some position)
    (hnext : cardanoPositionFromResponse position = .ok next) :
    getUtxoEvents lib client network startPosition txCapacity endBlockHash =
        .ok (chain.filterMap (ChainEvent.dbSyncUtxo lib network), next) ↔
      ∀ e ∈ chain, e.Decodes lib := by
  have hconvert : List.Forall₂ (fun e m => ∀ u, ChainEvent.dbSyncUtxo lib network e = some u →
      observedUtxoFromEvent lib network m = .ok u) chain response.events :=
    hevents.imp fun _ _ h u => h.observedUtxoFromEvent_eq (u := u)
  have hall : (∀ e ∈ chain, (e.dbSyncUtxo lib network).isSome) ↔ ∀ e ∈ chain, e.Decodes lib :=
    forall₂_congr fun e _ => e.isSome_dbSyncUtxo_iff
  rw [← hall, ← mapM_eq_ok_filterMap_iff hconvert,
    getUtxoEvents_eq hcapacity hresponse hposition hnext]
  cases response.events.mapM (observedUtxoFromEvent lib network) <;> simp [Except.map]

/-! ### A datum that does not decode -/

/-- The CBOR of a registration datum. -/
def demoDatumBytes : List UInt8 :=
  [0xd8, 0x79, 0x9f, 0xd8, 0x79, 0x9f, 0x58, 0x1c] ++ List.replicate 28 4 ++
    [0xff, 0x41, 0x05, 0xff]

/-- A library that reads this datum and small integers. -/
def demoCborLib : CborLib where
  toSerializationLib := demoLib
  fromBytes := fun bytes =>
    if bytes = demoDatumBytes then .ok demoRegistration.fullDatum
    else
      match bytes with
      | [b] => if b < 24 then .ok (.integer b.toNat) else .error "unexpected type"
      | _ => .error "not read"

/-- A registration in the first transaction of block `1`, as a message. -/
def demoRegistrationEvent (fullDatum : List UInt8) : RegistrationEvent where
  blockNumber := 1
  blockHash := List.replicate 31 0 ++ [7]
  txIndex := 0
  blockTimestampUnixMillis := 1000
  fullDatum := fullDatum
  txHash := List.replicate 32 0
  outputIndex := 200

/-- The response of a server to the question for one registration. -/
def demoResponse (fullDatum : List UInt8) : UtxoEventsResponse where
  events := [⟨some (.registration (demoRegistrationEvent fullDatum))⟩]
  nextPosition := some ⟨List.replicate 31 0 ++ [7], 1, 201, 1000⟩

lemma demoEvent_isBlock (fullDatum : List UInt8) :
    (demoRegistrationEvent fullDatum).IsBlock 7 1 1000 0 :=
  ⟨rfl, rfl, by decide, rfl, rfl⟩

/-- New cNIGHT in the next transaction of the block, as a message.  Its address is the reward
address of the holder. -/
def demoCreateEvent : AssetCreateEvent where
  blockNumber := 1
  blockHash := List.replicate 31 0 ++ [7]
  txIndex := 1
  blockTimestampUnixMillis := 1000
  quantity := 5
  address := [0xe1] ++ List.replicate 27 0 ++ [2]
  txHash := List.replicate 31 0 ++ [1]
  outputIndex := 0

/-- The two events, as db-sync has them. -/
def demoEvents : List ChainEvent :=
  [.registration demoRegistration, .assetCreate (demoCreate "addr1holder" 1)]

/-- The response of a server that delivers both. -/
def demoTwoEvents : UtxoEventsResponse where
  events := [⟨some (.registration (demoRegistrationEvent demoDatumBytes))⟩,
    ⟨some (.assetCreate demoCreateEvent)⟩]
  nextPosition := some ⟨List.replicate 31 0 ++ [7], 1, 201, 1000⟩

lemma demoCreate_isOwner : IsOwner demoCborLib 1 demoCreateEvent.address "addr1holder" := by
  intro owner howner
  cases howner
  rfl

lemma demoTwoEvents_delivers :
    List.Forall₂ (Delivers demoCborLib 1) demoEvents demoTwoEvents.events :=
  .cons (.registration (demoEvent_isBlock _) rfl rfl rfl)
    (.cons (.assetCreate ⟨rfl, rfl, by decide, rfl, rfl⟩ rfl rfl rfl demoCreate_isOwner) .nil)

/-- A registration and new cNIGHT: both backends return the two UTXOs. -/
theorem backends_observe_same_demo :
    (demoEvents.filterMap (ChainEvent.dbSyncUtxo demoCborLib 1)).length = 2 ∧
      getUtxoEvents demoCborLib (fun _ => .ok demoTwoEvents) 1 firstPosition 200 7 =
        .ok (demoEvents.filterMap (ChainEvent.dbSyncUtxo demoCborLib 1), demoEnd) := by
  refine ⟨rfl, (backends_observe_same_iff demoCborLib 1 _ firstPosition 7 (by decide) rfl
    demoTwoEvents_delivers rfl rfl).2 ?_⟩
  intro e he
  rcases List.mem_pair.1 he with rfl | rfl
  · exact ⟨_, _, _, rfl, rfl⟩
  · exact ⟨_, _, _, rfl⟩

/-- A registration whose datum is an integer: db-sync observes nothing, and the call over gRPC
fails. -/
theorem backends_differ :
    List.Forall₂ (Delivers demoCborLib 1) [.registration { demoRegistration with
        fullDatum := .integer 3 }] (demoResponse [3]).events ∧
      [ChainEvent.registration { demoRegistration with fullDatum := .integer 3 }].filterMap
        (ChainEvent.dbSyncUtxo demoCborLib 1) = [] ∧
      getUtxoEvents demoCborLib (fun _ => .ok (demoResponse [3])) 1 firstPosition 200 7 =
        .error (.internal "Deregistration datum not Constr") :=
  ⟨.cons (.registration (demoEvent_isBlock [3]) rfl rfl rfl) .nil, rfl, rfl⟩

end MidnightNode.Cnight
