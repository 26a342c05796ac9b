/-
# The cNIGHT observation pallet

`process_tokens` is the inherent that brings the UTXOs observed on Cardano into a block.  It
keeps the mappings from reward addresses to DUST public keys, opens and closes the generation
of DUST for cNIGHT UTXOs of registered owners, and hands the resulting events to the ledger in
one system transaction.

The ledger bridge and the executor of system transactions are parameters of the configuration.
-/
import MidnightNode.Frame.Dispatch
import MidnightNode.Cnight.Primitives
import Mathlib.Algebra.Group.Int.Defs
import Mathlib.Logic.Function.Basic

namespace MidnightNode.Cnight

open StorageLayer MidnightNode.Frame

/-- What happens to the DUST generation of a UTXO. -/
inductive UtxoActionType
  | create
  | destroy
deriving DecidableEq

/-- `UTXO_PER_TX_OVERESTIMATE`. -/
def utxoPerTxOverestimate : ℕ := 64

/-- The configuration of the pallet, with the parts of the ledger that it calls. -/
structure PalletConfig where
  /-- The hashes of the runtime. -/
  Hash : Type
  /-- Hashes are compared. -/
  hashDecEq : DecidableEq Hash
  /-- `T::Hashing::hash` on the preimage of a nonce. -/
  hash : BitVec 368 → Hash
  /-- The state of the ledger. -/
  Ledger : Type
  /-- The hash of a system transaction. -/
  LedgerHash : Type
  /-- `LedgerApi::construct_cnight_generates_dust_event`, `none` if it fails. -/
  constructEvent : BitVec 128 → DustPublicKeyBytes → ℕ → UtxoActionType → Hash →
    Option (List UInt8)
  /-- `LedgerApi::construct_cnight_generates_dust_system_tx`, `none` if it fails. -/
  constructSystemTx : List (List UInt8) → Option (List UInt8)
  /-- `MidnightSystemTransactionExecutor::execute_system_transaction`, with the code of its
  error. -/
  executeSystemTransaction : Ledger → List UInt8 → Except ℕ (Ledger × LedgerHash)
  /-- `T::WeightInfo::process_tokens`. -/
  weightProcessTokens : ℕ → Weight

instance (T : PalletConfig) : DecidableEq T.Hash := T.hashDecEq

/-- A stored mapping. -/
structure MappingEntry where
  cardanoRewardAddress : CardanoRewardAddressBytes
  dustPublicKey : DustPublicKeyBytes
  utxoTxHash : McTxHash
  utxoIndex : BitVec 16
deriving DecidableEq

/-- The events of the pallet. -/
inductive PalletEvent (T : PalletConfig)
  | registration (cardanoRewardAddress : CardanoRewardAddressBytes)
      (dustPublicKey : DustPublicKeyBytes)
  | deregistration (cardanoRewardAddress : CardanoRewardAddressBytes)
      (dustPublicKey : DustPublicKeyBytes)
  | mappingAdded (entry : MappingEntry)
  | mappingRemoved (entry : MappingEntry)
  | systemTransactionApplied (blockHash : McBlockHash) (txIndexInBlock : ℕ)
      (systemTransactionHash : T.LedgerHash)

/-- The errors of the pallet. -/
inductive PalletError
  | inherentAlreadyExecuted
  | cardanoPositionRegression
  | tooManyUtxos
deriving DecidableEq

/-- The origins a call is dispatched with. -/
inductive RawOrigin
  | root
  | signed (who : ℕ)
  | none
deriving DecidableEq

/-- The storage of the pallet, the events deposited so far, and the ledger. -/
structure PalletState (T : PalletConfig) where
  /-- `Mappings`. -/
  mappings : CardanoRewardAddressBytes → Option (List MappingEntry)
  /-- `UtxoOwners`. -/
  utxoOwners : T.Hash → Option DustPublicKeyBytes
  /-- `NextCardanoPosition`. -/
  nextCardanoPosition : CardanoPosition
  /-- `CardanoTxCapacityPerBlock`. -/
  cardanoTxCapacityPerBlock : UInt32
  /-- `InherentExecutedThisBlock`. -/
  inherentExecutedThisBlock : Bool
  /-- The events deposited in this block. -/
  events : List (PalletEvent T)
  /-- The state of the ledger. -/
  ledger : T.Ledger

variable {T : PalletConfig}

namespace PalletState

/-- `Mappings::get`: an address without mappings has the empty list. -/
def getMappings (s : PalletState T) (a : CardanoRewardAddressBytes) : List MappingEntry :=
  (s.mappings a).getD []

/-- `Mappings::insert`. -/
def insertMappings (s : PalletState T) (a : CardanoRewardAddressBytes)
    (mappings : List MappingEntry) : PalletState T :=
  { s with mappings := Function.update s.mappings a (some mappings) }

/-- `Mappings::remove`. -/
def removeMappings (s : PalletState T) (a : CardanoRewardAddressBytes) : PalletState T :=
  { s with mappings := Function.update s.mappings a none }

/-- `UtxoOwners::insert`, and `UtxoOwners::take` with `none`. -/
def setUtxoOwner (s : PalletState T) (nonce : T.Hash) (owner : Option DustPublicKeyBytes) :
    PalletState T :=
  { s with utxoOwners := Function.update s.utxoOwners nonce owner }

/-- `deposit_event`. -/
def depositEvent (s : PalletState T) (e : PalletEvent T) : PalletState T :=
  { s with events := s.events ++ [e] }

/-- `deposit_event` under a condition. -/
def depositEventIf (s : PalletState T) (e : Option (PalletEvent T)) : PalletState T :=
  match e with
  | some e => s.depositEvent e
  | none => s

/-- `get_registration`: a registration is valid if it is the only one. -/
def getRegistration (s : PalletState T) (wallet : CardanoRewardAddressBytes) :
    Option DustPublicKeyBytes :=
  match s.getMappings wallet with
  | [entry] => some entry.dustPublicKey
  | _ => none

/-- `is_registered`. -/
def isRegistered (s : PalletState T) (utxoHolder : CardanoRewardAddressBytes) : Bool :=
  (s.getMappings utxoHolder).length == 1

end PalletState

/-! ### The handlers -/

/-- `handle_registration`: the new mapping is stored behind the others.  A first mapping is a
registration, and a second one ends it. -/
def handleRegistration (header : ObservedUtxoHeader) (data : RegistrationData)
    (s : PalletState T) :
    PalletState T × Option (CardanoRewardAddressBytes × List MappingEntry) :=
  let address := data.cardanoRewardAddress
  let newReg : MappingEntry :=
    ⟨address, data.dustPublicKey, header.utxoTxHash, header.utxoIndex⟩
  let previousRegistration := s.getRegistration address
  let mappings := s.getMappings address ++ [newReg]
  let s := s.insertMappings address mappings
  let isRegistered := s.isRegistered address
  let s := s.depositEventIf
    (if previousRegistration.isNone && isRegistered then
      some (.registration address data.dustPublicKey)
    else none)
  let s := s.depositEventIf
    (match previousRegistration with
    | some previousDustPublicKey =>
      if !isRegistered then some (.deregistration address previousDustPublicKey) else none
    | none => none)
  (s.depositEvent (.mappingAdded newReg), some (address, mappings))

/-- `handle_registration_removal`: the first mapping equal to the removed one goes, if there is
one.  `MappingRemoved` is deposited in either case. -/
def handleRegistrationRemoval (header : ObservedUtxoHeader) (data : DeregistrationData)
    (s : PalletState T) : PalletState T :=
  let address := data.cardanoRewardAddress
  let regEntry : MappingEntry :=
    ⟨address, data.dustPublicKey, header.utxoTxHash, header.utxoIndex⟩
  let wasRegistered := s.isRegistered address
  let mappings := (s.getMappings address).erase regEntry
  let s :=
    if mappings.isEmpty then s.removeMappings address else s.insertMappings address mappings
  let registration := s.getRegistration address
  let s := s.depositEventIf
    (match registration with
    | some registeredDustPublicKey =>
      if !wasRegistered then some (.registration address registeredDustPublicKey) else none
    | none => none)
  let s := s.depositEventIf
    (if wasRegistered && registration.isNone then
      some (.deregistration address data.dustPublicKey)
    else none)
  s.depositEvent (.mappingRemoved regEntry)

/-- The nonce of a cNIGHT UTXO: the hash of `asset_create`, the hash of its transaction and
its index in big endian. -/
def assetCreateNonce (T : PalletConfig) (utxoTxHash : McTxHash) (utxoTxIndex : BitVec 16) :
    T.Hash :=
  T.hash (0x61737365745f637265617465#96 ++ utxoTxHash ++ utxoTxIndex)

/-- `handle_create`: the UTXO of a registered owner opens DUST generation. -/
def handleCreate (curTime : ℕ) (data : CreateData) (s : PalletState T) :
    PalletState T × Option (List UInt8) :=
  match s.getRegistration data.owner with
  | none => (s, none)
  | some dustPublicKey =>
    let nonce := assetCreateNonce T data.utxoTxHash data.utxoTxIndex
    match T.constructEvent data.value dustPublicKey curTime .create nonce with
    | some eventBytes => (s.setUtxoOwner nonce (some dustPublicKey), some eventBytes)
    | none => (s, none)

/-- `handle_spend`: the owner noted at the creation is taken, and DUST generation closed. -/
def handleSpend (curTime : ℕ) (data : SpendData) (s : PalletState T) :
    PalletState T × Option (List UInt8) :=
  let nonce := assetCreateNonce T data.utxoTxHash data.utxoTxIndex
  match s.utxoOwners nonce with
  | none => (s, none)
  | some dustPublicKey =>
    (s.setUtxoOwner nonce none,
      T.constructEvent data.value dustPublicKey curTime .destroy nonce)

/-- The block timestamp in seconds, `block_timestamp.0 as u64 / 1000`. -/
def timestampSeconds (p : CardanoPosition) : ℕ :=
  (p.blockTimestamp % 2 ^ 64).toNat / 1000

/-- One round of the loop of `process_tokens`, with the DUST events collected so far. -/
def processUtxo (acc : PalletState T × List (List UInt8)) (utxo : ObservedUtxo) :
    PalletState T × List (List UInt8) :=
  let now := timestampSeconds utxo.header.txPosition
  match utxo.data with
  | .registration data => ((handleRegistration utxo.header data acc.1).1, acc.2)
  | .deregistration data => (handleRegistrationRemoval utxo.header data acc.1, acc.2)
  | .assetCreate data =>
    let (s, event) := handleCreate now data acc.1
    (s, acc.2 ++ event.toList)
  | .assetSpend data =>
    let (s, event) := handleSpend now data acc.1
    (s, acc.2 ++ event.toList)

/-- The system transaction for the DUST events, if there are any.  A transaction that cannot be
constructed is only logged; one that the executor rejects is an error. -/
def applySystemTransaction (nextCardanoPosition : CardanoPosition) (events : List (List UInt8))
    (s : PalletState T) : Except ℕ (PalletState T) :=
  if events.isEmpty then .ok s
  else
    match T.constructSystemTx events with
    | none => .ok s
    | some midnightSystemTx =>
      match T.executeSystemTransaction s.ledger midnightSystemTx with
      | .error code => .error code
      | .ok (ledger, systemTransactionHash) =>
        .ok ({ s with ledger := ledger }.depositEvent
          (.systemTransactionApplied nextCardanoPosition.blockHash
            nextCardanoPosition.txIndexInBlock systemTransactionHash))

/-! ### The inherent -/

/-- The largest number of UTXOs a block accepts, a saturating `u32` product. -/
def maxUtxoCount (s : PalletState T) : ℕ :=
  min (s.cardanoTxCapacityPerBlock.toNat * utxoPerTxOverestimate) (2 ^ 32 - 1)

/-- `process_tokens`. -/
def processTokens (origin : RawOrigin) (utxos : List ObservedUtxo)
    (nextCardanoPosition : CardanoPosition) :
    Body (PalletState T) (DispatchErrorWithPostInfo PalletError) PostDispatchInfo := fun s =>
  if origin ≠ .none then (s, .error (.ofError .badOrigin))
  else
    let utxoCount := utxos.length % 2 ^ 32
    if ¬ utxoCount ≤ maxUtxoCount s then (s, .error (.ofError (.module .tooManyUtxos)))
    else if s.inherentExecutedThisBlock then
      (s, .error (.ofError (.module .inherentAlreadyExecuted)))
    else
      let s := { s with inherentExecutedThisBlock := true }
      if ¬ s.nextCardanoPosition ≤ nextCardanoPosition then
        (s, .error (.ofError (.module .cardanoPositionRegression)))
      else
        let (s, events) := utxos.foldl processUtxo (s, [])
        let s := { s with nextCardanoPosition := nextCardanoPosition }
        match applySystemTransaction nextCardanoPosition events s with
        | .error code => (s, .error (.ofError (.other code)))
        | .ok s => (s, .ok ⟨some (T.weightProcessTokens utxoCount), .no⟩)

/-- `process_tokens` as the runtime executes it, in a storage layer of its own. -/
def executeProcessTokens (origin : RawOrigin) (utxos : List ObservedUtxo)
    (nextCardanoPosition : CardanoPosition) (s : PalletState T) :
    PalletState T × Except (DispatchErrorWithPostInfo PalletError) PostDispatchInfo :=
  withStorageLayer (processTokens origin utxos nextCardanoPosition) s

/-- `on_finalize`. -/
def onFinalize (s : PalletState T) : PalletState T :=
  { s with inherentExecutedThisBlock := false }

end MidnightNode.Cnight
