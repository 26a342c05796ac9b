/-
# Candidate registrations from both backends

Committee selection reads the registrations of an epoch and the stake of their pools, from
db-sync or over gRPC.  Both backends group the registrations by the key of their pool and look
up its stake.

A registration UTXO whose datum is missing or not that of a registration is left out by
db-sync, with a line in the log, and makes the call over gRPC fail.
-/
import MidnightNode.Lib.Traverse
import MidnightNode.Cnight.Grpc

namespace MidnightNode.Authority

open Traverse Cnight

/-! ### Types of the domain -/

/-- `StakePoolPublicKey`. -/
abbrev StakePoolPublicKey : Type := BitVec 256

/-- `MainchainKeyHash`. -/
abbrev MainchainKeyHash : Type := BitVec 224

/-- `UtxoId`. -/
structure UtxoId where
  txHash : McTxHash
  index : BitVec 16
deriving DecidableEq

/-- `UtxoInfo`. -/
structure UtxoInfo where
  utxoId : UtxoId
  epochNumber : ℕ
  blockNumber : ℕ
  slotNumber : ℕ
  txIndexWithinBlock : ℕ
deriving DecidableEq

/-- `CandidateKey`: the type of a key, and its bytes. -/
structure CandidateKey where
  id : String
  bytes : List UInt8
deriving DecidableEq

/-- `RegisterValidatorDatum`, in its two versions. -/
inductive RegisterValidatorDatum
  | v0 (stakePubKey : StakePoolPublicKey) (stakeSignature sidechainPubKey : List UInt8)
      (sidechainSignature : List UInt8) (registrationUtxo : UtxoId) (ownPkh : MainchainKeyHash)
      (auraPubKey grandpaPubKey : List UInt8)
  | v1 (stakePubKey : StakePoolPublicKey) (stakeSignature sidechainPubKey : List UInt8)
      (sidechainSignature : List UInt8) (registrationUtxo : UtxoId) (ownPkh : MainchainKeyHash)
      (keys : List CandidateKey)

/-- `RegistrationData`. -/
structure RegistrationData where
  registrationUtxo : UtxoId
  sidechainSignature : List UInt8
  mainchainSignature : List UInt8
  crossChainSignature : List UInt8
  sidechainPubKey : List UInt8
  crossChainPubKey : List UInt8
  keys : List CandidateKey
  utxoInfo : UtxoInfo
  txInputs : List UtxoId
deriving DecidableEq

/-- `CandidateRegistrations`. -/
structure CandidateRegistrations where
  stakePoolPublicKey : StakePoolPublicKey
  registrations : List RegistrationData
  stakeDelegation : Option ℕ
deriving DecidableEq

/-- The libraries that both backends call. -/
structure CandidateLib extends CborLib where
  /-- `RegisterValidatorDatum::try_from`. -/
  registerValidatorDatum : PlutusData → Option RegisterValidatorDatum
  /-- `MainchainKeyHash::from_vkey`. -/
  fromVkey : StakePoolPublicKey → MainchainKeyHash
  /-- `offset_data_epoch`, with the offset if the epoch is too small. -/
  offsetDataEpoch : ℕ → Except ℕ ℕ

/-- Why a call returns no candidates. -/
inductive CandidatesError
  /-- The epoch has no data epoch, with the text of the error. -/
  | badEpoch (message : String)
  | grpcQueryError (status : Status)
deriving DecidableEq

/-! ### The stake of a pool -/

/-- A `HashMap` collected from entries: a later entry replaces an earlier one. -/
def lookupStake (stakeMap : List (MainchainKeyHash × ℕ)) (h : MainchainKeyHash) : Option ℕ :=
  (stakeMap.reverse.find? fun e => e.1 = h).map Prod.snd

/-- `get_stake_delegation`, which both backends have. -/
def getStakeDelegation (lib : CandidateLib) (stakeMap : List (MainchainKeyHash × ℕ))
    (stakePoolPubKey : StakePoolPublicKey) : Option ℕ :=
  if stakeMap.isEmpty then none
  else some ((lookupStake stakeMap (lib.fromVkey stakePoolPubKey)).getD 0)

/-! ### db-sync -/

namespace DbSync

/-- `MainchainTxOutput`. -/
structure MainchainTxOutput where
  utxoId : UtxoId
  txBlockNo : ℕ
  txSlotNo : ℕ
  txEpochNo : ℕ
  txIndexInBlock : ℕ
  datum : Option PlutusData
  txInputs : List UtxoId

/-- `StakePoolEntry`. -/
structure StakePoolEntry where
  poolHash : MainchainKeyHash
  stake : ℕ

/-- `ParsedCandidate`. -/
structure ParsedCandidate where
  utxoInfo : UtxoInfo
  datum : RegisterValidatorDatum
  txInputs : List UtxoId

/-- `RegisteredCandidate`. -/
structure RegisteredCandidate where
  stakePoolPubKey : StakePoolPublicKey
  registrationUtxo : UtxoId
  txInputs : List UtxoId
  sidechainSignature : List UInt8
  mainchainSignature : List UInt8
  crossChainSignature : List UInt8
  sidechainPubKey : List UInt8
  crossChainPubKey : List UInt8
  keys : List CandidateKey
  utxoInfo : UtxoInfo

/-- The candidate of an output, if its datum is there and that of a registration. -/
def parseCandidate (lib : CandidateLib) (output : MainchainTxOutput) : Option ParsedCandidate := do
  let datum ← output.datum
  let registerValidatorDatum ← lib.registerValidatorDatum datum
  return {
    utxoInfo := ⟨output.utxoId, output.txEpochNo, output.txBlockNo, output.txSlotNo,
      output.txIndexInBlock⟩
    datum := registerValidatorDatum
    txInputs := output.txInputs }

/-- `parse_candidates`: the others are logged and left out. -/
def parseCandidates (lib : CandidateLib) (outputs : List MainchainTxOutput) :
    List ParsedCandidate :=
  outputs.filterMap (parseCandidate lib)

/-- `convert_utxos_to_candidates`, for one candidate. -/
def convertCandidate (c : ParsedCandidate) : RegisteredCandidate :=
  match c.datum with
  | .v0 stakePubKey stakeSignature sidechainPubKey sidechainSignature registrationUtxo _
      auraPubKey grandpaPubKey =>
    { stakePoolPubKey := stakePubKey
      mainchainSignature := stakeSignature
      crossChainPubKey := sidechainPubKey
      crossChainSignature := sidechainSignature
      sidechainSignature := sidechainSignature
      sidechainPubKey := sidechainPubKey
      keys := [⟨"aura", auraPubKey⟩, ⟨"gran", grandpaPubKey⟩]
      registrationUtxo := registrationUtxo
      txInputs := c.txInputs
      utxoInfo := c.utxoInfo }
  | .v1 stakePubKey stakeSignature sidechainPubKey sidechainSignature registrationUtxo _ keys =>
    { stakePoolPubKey := stakePubKey
      mainchainSignature := stakeSignature
      crossChainPubKey := sidechainPubKey
      crossChainSignature := sidechainSignature
      sidechainSignature := sidechainSignature
      sidechainPubKey := sidechainPubKey
      keys := keys
      registrationUtxo := registrationUtxo
      txInputs := c.txInputs
      utxoInfo := c.utxoInfo }

/-- `convert_utxos_to_candidates`. -/
def convertUtxosToCandidates (lib : CandidateLib) (outputs : List MainchainTxOutput) :
    List RegisteredCandidate :=
  (parseCandidates lib outputs).map convertCandidate

/-- `group_candidates_by_mc_pub_key`. -/
def groupCandidatesByMcPubKey (candidates : List RegisteredCandidate) :
    List (StakePoolPublicKey × List RegisteredCandidate) :=
  pushAll (candidates.map fun c => (c.stakePoolPubKey, c)) []

/-- `make_registration_data`. -/
def makeRegistrationData (c : RegisteredCandidate) : RegistrationData where
  registrationUtxo := c.registrationUtxo
  sidechainSignature := c.sidechainSignature
  mainchainSignature := c.mainchainSignature
  crossChainSignature := c.crossChainSignature
  sidechainPubKey := c.sidechainPubKey
  crossChainPubKey := c.crossChainPubKey
  keys := c.keys
  utxoInfo := c.utxoInfo
  txInputs := c.txInputs

/-- `make_stake_map`. -/
def makeStakeMap (entries : List StakePoolEntry) : List (MainchainKeyHash × ℕ) :=
  entries.map fun e => (e.poolHash, e.stake)

/-- What the queries return for a data epoch. -/
structure EpochData where
  /-- The outputs at the candidates' address, none if the epoch has no block. -/
  utxos : List MainchainTxOutput
  stakeDistribution : List StakePoolEntry

/-- `get_candidates`.  The order in which a `HashMap` is iterated is a parameter. -/
def getCandidates (lib : CandidateLib) (db : ℕ → EpochData)
    (order : List (StakePoolPublicKey × List RegisteredCandidate) →
      List (StakePoolPublicKey × List RegisteredCandidate)) (epoch : ℕ) :
    Except CandidatesError (List CandidateRegistrations) :=
  match lib.offsetDataEpoch epoch with
  | .error offset => .error (.badEpoch ("Minimum supported epoch of data usage is " ++
      toString offset ++ ", but " ++ toString epoch ++ " was provided"))
  | .ok dataEpoch =>
    let candidates := convertUtxosToCandidates lib (db dataEpoch).utxos
    let stakeMap := makeStakeMap (db dataEpoch).stakeDistribution
    .ok ((order (groupCandidatesByMcPubKey candidates)).map fun (mainchainPubKey, registrations) =>
      ⟨mainchainPubKey, registrations.map makeRegistrationData,
        getStakeDelegation lib stakeMap mainchainPubKey⟩)

end DbSync

/-! ### gRPC -/

namespace Grpc

/-- `CandidateConversionError`. -/
inductive CandidateConversionError
  | missingStakeKey
  | invalidDatum
  | invalidHashLength
  | invalidIndex
deriving DecidableEq

/-- The `Debug` text of the error. -/
def CandidateConversionError.name : CandidateConversionError → String
  | missingStakeKey => "MissingStakeKey"
  | invalidDatum => "InvalidDatum"
  | invalidHashLength => "InvalidHashLength"
  | invalidIndex => "InvalidIndex"

/-- `Status::internal(format!("candidate conversion failed: …"))`. -/
def CandidateConversionError.status (e : CandidateConversionError) : Status :=
  .internal ("candidate conversion failed: " ++ e.name)

/-- `midnight_state::UtxoId`. -/
structure UtxoIdProto where
  txHash : List UInt8
  index : UInt32

/-- `EpochCandidate`. -/
structure EpochCandidate where
  fullDatum : List UInt8
  utxoTxHash : List UInt8
  utxoIndex : UInt32
  txInputs : List UtxoIdProto
  epochNumber : UInt64
  blockNumber : UInt64
  slotNumber : UInt64
  txIndex : UInt32

/-- `midnight_state::StakePoolEntry`. -/
structure StakePoolEntry where
  poolHash : List UInt8
  stake : UInt64

/-- `EpochCandidatesResponse`. -/
structure EpochCandidatesResponse where
  candidates : List EpochCandidate
  stakeDistribution : List StakePoolEntry

/-- `try_into` to a hash of 32 bytes. -/
def txHashOf (bytes : List UInt8) : Except CandidateConversionError McTxHash :=
  if bytes.length = 32 then .ok (bytesToBitVec 256 bytes) else .error .invalidHashLength

/-- `try_into` to a number of `w` bits. -/
def fits (w n : ℕ) : Except CandidateConversionError ℕ :=
  if n < 2 ^ w then .ok n else .error .invalidIndex

/-- `TryFrom<UtxoIdProto> for UtxoId`. -/
def UtxoIdProto.tryInto (value : UtxoIdProto) : Except CandidateConversionError UtxoId := do
  let txHash ← txHashOf value.txHash
  let index ← fits 16 value.index.toNat
  return ⟨txHash, BitVec.ofNat 16 index⟩

/-- `TryFrom<&EpochCandidate> for UtxoInfo`. -/
def EpochCandidate.utxoInfo (value : EpochCandidate) :
    Except CandidateConversionError UtxoInfo := do
  let txHash ← txHashOf value.utxoTxHash
  let index ← fits 16 value.utxoIndex.toNat
  let epochNumber ← fits 32 value.epochNumber.toNat
  let blockNumber ← fits 32 value.blockNumber.toNat
  return ⟨⟨txHash, BitVec.ofNat 16 index⟩, epochNumber, blockNumber, value.slotNumber.toNat,
    value.txIndex.toNat⟩

/-- The datum of a candidate. -/
def EpochCandidate.datum (lib : CandidateLib) (value : EpochCandidate) :
    Except CandidateConversionError RegisterValidatorDatum :=
  match lib.fromBytes value.fullDatum with
  | .error _ => .error .invalidDatum
  | .ok datum =>
    match lib.registerValidatorDatum datum with
    | none => .error .invalidDatum
    | some registerValidatorDatum => .ok registerValidatorDatum

/-- `TryFrom<EpochCandidate> for (StakePoolPublicKey, RegistrationData)`. -/
def EpochCandidate.tryInto (lib : CandidateLib) (value : EpochCandidate) :
    Except CandidateConversionError (StakePoolPublicKey × RegistrationData) := do
  let utxoInfo ← value.utxoInfo
  let txInputs ← value.txInputs.mapM UtxoIdProto.tryInto
  let datum ← value.datum lib
  match datum with
  | .v0 stakePubKey stakeSignature sidechainPubKey sidechainSignature registrationUtxo _
      auraPubKey grandpaPubKey =>
    return (stakePubKey,
      { mainchainSignature := stakeSignature
        crossChainPubKey := sidechainPubKey
        crossChainSignature := sidechainSignature
        sidechainSignature := sidechainSignature
        sidechainPubKey := sidechainPubKey
        keys := [⟨"aura", auraPubKey⟩, ⟨"gran", grandpaPubKey⟩]
        registrationUtxo := registrationUtxo
        txInputs := txInputs
        utxoInfo := utxoInfo })
  | .v1 stakePubKey stakeSignature sidechainPubKey sidechainSignature registrationUtxo _ keys =>
    return (stakePubKey,
      { mainchainSignature := stakeSignature
        crossChainPubKey := sidechainPubKey
        crossChainSignature := sidechainSignature
        sidechainSignature := sidechainSignature
        sidechainPubKey := sidechainPubKey
        keys := keys
        registrationUtxo := registrationUtxo
        txInputs := txInputs
        utxoInfo := utxoInfo })

/-- An entry of the stake map. -/
def StakePoolEntry.tryInto (e : StakePoolEntry) :
    Except CandidateConversionError (MainchainKeyHash × ℕ) :=
  match hash28FromBytes e.poolHash with
  | none => .error .invalidHashLength
  | some hash => .ok (hash, e.stake.toNat)

/-- `make_stake_map`. -/
def makeStakeMap (entries : List StakePoolEntry) :
    Except CandidateConversionError (List (MainchainKeyHash × ℕ)) :=
  entries.mapM StakePoolEntry.tryInto

/-- `get_candidates` of the request, with the call to the server as a parameter. -/
def requestCandidates (lib : CandidateLib)
    (client : ℕ → Except Status EpochCandidatesResponse)
    (order : List (StakePoolPublicKey × List RegistrationData) →
      List (StakePoolPublicKey × List RegistrationData)) (epoch : ℕ) :
    Except Status (List CandidateRegistrations) := do
  let response ← client epoch
  let stakeMap ← (makeStakeMap response.stakeDistribution).mapError CandidateConversionError.status
  let grouped ← response.candidates.foldlM (fun grouped candidate =>
    ((candidate.tryInto lib).mapError CandidateConversionError.status).map fun kv =>
      push kv.1 kv.2 grouped) []
  return (order grouped).map fun (stakePoolPublicKey, registrations) =>
    ⟨stakePoolPublicKey, registrations, getStakeDelegation lib stakeMap stakePoolPublicKey⟩

/-- `get_candidates` of the data source. -/
def getCandidates (lib : CandidateLib) (client : ℕ → Except Status EpochCandidatesResponse)
    (order : List (StakePoolPublicKey × List RegistrationData) →
      List (StakePoolPublicKey × List RegistrationData)) (epoch : ℕ) :
    Except CandidatesError (List CandidateRegistrations) :=
  match lib.offsetDataEpoch epoch with
  | .error offset => .error (.badEpoch ("Cannot derive authority-selection data epoch for " ++
      toString epoch ++ "; expected at least offset " ++ toString offset))
  | .ok queryEpoch => (requestCandidates lib client order queryEpoch).mapError .grpcQueryError

end Grpc

/-! ### The same data from both backends -/

/-- The message has the id of a UTXO. -/
structure IsUtxoId (proto : Grpc.UtxoIdProto) (id : UtxoId) : Prop where
  txHash : Grpc.txHashOf proto.txHash = .ok id.txHash
  index : proto.index.toNat = id.index.toNat

/-- The message delivers an output: the same id, position and inputs, and the bytes of the
datum if there is one. -/
structure Delivers (lib : CandidateLib) (output : DbSync.MainchainTxOutput)
    (candidate : Grpc.EpochCandidate) : Prop where
  utxoId : IsUtxoId ⟨candidate.utxoTxHash, candidate.utxoIndex⟩ output.utxoId
  epoch : candidate.epochNumber.toNat = output.txEpochNo
  epoch_lt : output.txEpochNo < 2 ^ 32
  block : candidate.blockNumber.toNat = output.txBlockNo
  block_lt : output.txBlockNo < 2 ^ 32
  slot : candidate.slotNumber.toNat = output.txSlotNo
  txIndex : candidate.txIndex.toNat = output.txIndexInBlock
  txInputs : List.Forall₂ IsUtxoId candidate.txInputs output.txInputs
  datum : match output.datum with
    | some datum => lib.fromBytes candidate.fullDatum = .ok datum
    | none => ∃ e, lib.fromBytes candidate.fullDatum = .error e

/-- The message delivers an entry of the stake distribution. -/
structure DeliversStake (entry : DbSync.StakePoolEntry) (message : Grpc.StakePoolEntry) : Prop where
  poolHash : hash28FromBytes message.poolHash = some entry.poolHash
  stake : message.stake.toNat = entry.stake

/-- The response delivers what db-sync has for an epoch. -/
structure DeliversEpoch (lib : CandidateLib) (data : DbSync.EpochData)
    (response : Grpc.EpochCandidatesResponse) : Prop where
  candidates : List.Forall₂ (Delivers lib) data.utxos response.candidates
  stakes : List.Forall₂ DeliversStake data.stakeDistribution response.stakeDistribution

/-- The datum of an output is there and that of a registration. -/
def DbSync.MainchainTxOutput.Decodes (lib : CandidateLib) (output : DbSync.MainchainTxOutput) :
    Prop :=
  ∃ datum registerValidatorDatum, output.datum = some datum ∧
    lib.registerValidatorDatum datum = some registerValidatorDatum

/-- The registration of an output, and the pool it is for. -/
def DbSync.MainchainTxOutput.registration (lib : CandidateLib)
    (output : DbSync.MainchainTxOutput) : Option (StakePoolPublicKey × RegistrationData) :=
  (DbSync.parseCandidate lib output).map fun c =>
    ((DbSync.convertCandidate c).stakePoolPubKey,
      DbSync.makeRegistrationData (DbSync.convertCandidate c))

section Agreement

variable {lib : CandidateLib}

lemma fits_of_lt {w n : ℕ} (h : n < 2 ^ w) : Grpc.fits w n = .ok n :=
  if_pos h

lemma IsUtxoId.tryInto_eq {proto : Grpc.UtxoIdProto} {id : UtxoId} (h : IsUtxoId proto id) :
    proto.tryInto = .ok id := by
  simp only [Grpc.UtxoIdProto.tryInto, h.txHash, h.index, fits_of_lt id.index.isLt, bind,
    Except.bind, pure, Except.pure, BitVec.ofNat_toNat, BitVec.setWidth_eq]

namespace Delivers

variable {output : DbSync.MainchainTxOutput} {candidate : Grpc.EpochCandidate}

lemma utxoInfo_eq (h : Delivers lib output candidate) :
    candidate.utxoInfo = .ok ⟨output.utxoId, output.txEpochNo, output.txBlockNo,
      output.txSlotNo, output.txIndexInBlock⟩ := by
  have hindex : candidate.utxoIndex.toNat = output.utxoId.index.toNat := h.utxoId.index
  have hhash : Grpc.txHashOf candidate.utxoTxHash = .ok output.utxoId.txHash := h.utxoId.txHash
  simp only [Grpc.EpochCandidate.utxoInfo, hhash, hindex, fits_of_lt output.utxoId.index.isLt,
    h.epoch, fits_of_lt h.epoch_lt, h.block, fits_of_lt h.block_lt, h.slot, h.txIndex, bind,
    Except.bind, pure, Except.pure, BitVec.ofNat_toNat, BitVec.setWidth_eq]

lemma txInputs_eq (h : Delivers lib output candidate) :
    candidate.txInputs.mapM Grpc.UtxoIdProto.tryInto = .ok output.txInputs :=
  mapM_eq_ok_iff.2 (h.txInputs.imp fun _ _ hid => hid.tryInto_eq)

/-- The registration of an output is what its message is converted to. -/
lemma tryInto_eq (h : Delivers lib output candidate)
    {kv : StakePoolPublicKey × RegistrationData} (hkv : output.registration lib = some kv) :
    candidate.tryInto lib = .ok kv := by
  obtain ⟨c, hc, rfl⟩ := Option.map_eq_some_iff.1 hkv
  obtain ⟨datum, hdatum, hc⟩ := Option.bind_eq_some_iff.1 hc
  obtain ⟨registration, hregistration, hc⟩ := Option.bind_eq_some_iff.1 hc
  obtain rfl := Option.some.inj hc
  have hbytes := h.datum
  rw [hdatum] at hbytes
  have hread : candidate.datum lib = .ok registration := by
    simp only [Grpc.EpochCandidate.datum, hbytes, hregistration]
  simp only [Grpc.EpochCandidate.tryInto, h.utxoInfo_eq, h.txInputs_eq, hread, bind, Except.bind]
  cases registration <;> rfl

/-- The message of an output that does not decode is not converted. -/
lemma tryInto_error (h : Delivers lib output candidate) (hnot : ¬ output.Decodes lib) :
    candidate.tryInto lib = .error .invalidDatum := by
  have hread : candidate.datum lib = .error .invalidDatum := by
    have hbytes := h.datum
    rw [Grpc.EpochCandidate.datum]
    cases hdatum : output.datum with
    | none =>
      rw [hdatum] at hbytes
      obtain ⟨e, he⟩ := hbytes
      rw [he]
    | some datum =>
      rw [hdatum] at hbytes
      have hnone : lib.registerValidatorDatum datum = none := by
        by_contra hsome
        obtain ⟨registration, hregistration⟩ := Option.ne_none_iff_exists'.1 hsome
        exact hnot ⟨datum, registration, hdatum, hregistration⟩
      simp only [show lib.fromBytes candidate.fullDatum = .ok datum from hbytes, hnone]
  simp only [Grpc.EpochCandidate.tryInto, h.utxoInfo_eq, h.txInputs_eq, hread, bind, Except.bind]

end Delivers

/-- db-sync leaves out exactly the outputs that do not decode. -/
lemma isSome_registration_iff (output : DbSync.MainchainTxOutput) :
    (output.registration lib).isSome ↔ output.Decodes lib := by
  rw [DbSync.MainchainTxOutput.registration, Option.isSome_map, DbSync.parseCandidate,
    DbSync.MainchainTxOutput.Decodes]
  cases output.datum with
  | none => simp
  | some datum => cases hd : lib.registerValidatorDatum datum <;> simp [hd]

/-- The groups of db-sync, once their candidates are made registrations. -/
lemma groupCandidates_map (outputs : List DbSync.MainchainTxOutput) :
    (DbSync.groupCandidatesByMcPubKey (DbSync.convertUtxosToCandidates lib outputs)).map
        (fun e => (e.1, e.2.map DbSync.makeRegistrationData)) =
      pushAll (outputs.filterMap (DbSync.MainchainTxOutput.registration lib)) [] := by
  have hregistrations : outputs.filterMap (DbSync.MainchainTxOutput.registration lib) =
      (DbSync.convertUtxosToCandidates lib outputs).map fun c =>
        (c.stakePoolPubKey, DbSync.makeRegistrationData c) := by
    rw [DbSync.convertUtxosToCandidates, DbSync.parseCandidates, List.map_map,
      List.map_filterMap]
    rfl
  rw [DbSync.groupCandidatesByMcPubKey, map_pushAll, hregistrations, List.map_map]
  rfl

variable {data : DbSync.EpochData} {response : Grpc.EpochCandidatesResponse}

lemma DeliversStake.tryInto_eq {entry : DbSync.StakePoolEntry} {message : Grpc.StakePoolEntry}
    (h : DeliversStake entry message) : message.tryInto = .ok (entry.poolHash, entry.stake) := by
  rw [Grpc.StakePoolEntry.tryInto, h.poolHash, h.stake]

namespace DeliversEpoch

lemma makeStakeMap_eq (h : DeliversEpoch lib data response) :
    Grpc.makeStakeMap response.stakeDistribution =
      .ok (DbSync.makeStakeMap data.stakeDistribution) := by
  refine mapM_eq_ok_iff.2 ?_
  rw [DbSync.makeStakeMap, List.forall₂_map_right_iff]
  exact (h.stakes.imp fun _ _ hstake => hstake.tryInto_eq).flip

/-- The conversion of a message, with the status it fails with. -/
def convert (lib : CandidateLib) (candidate : Grpc.EpochCandidate) :
    Except Status (StakePoolPublicKey × RegistrationData) :=
  (candidate.tryInto lib).mapError Grpc.CandidateConversionError.status

/-- Where all outputs decode, the messages are converted to their registrations. -/
lemma mapM_convert_eq (h : DeliversEpoch lib data response)
    (hall : ∀ output ∈ data.utxos, output.Decodes lib) :
    response.candidates.mapM (convert lib) =
      .ok (data.utxos.filterMap (DbSync.MainchainTxOutput.registration lib)) := by
  have hconvert : List.Forall₂ (fun output candidate =>
      ∀ kv, DbSync.MainchainTxOutput.registration lib output = some kv →
        convert lib candidate = .ok kv) data.utxos response.candidates :=
    h.candidates.imp fun _ _ hd kv hkv => mapError_eq_ok.2 (hd.tryInto_eq hkv)
  exact (mapM_eq_ok_filterMap_iff hconvert).2
    fun output houtput => (isSome_registration_iff output).2 (hall output houtput)

/-- Where one does not, the conversion fails. -/
lemma mapM_convert_error (h : DeliversEpoch lib data response)
    {output : DbSync.MainchainTxOutput} (houtput : output ∈ data.utxos)
    (hnot : ¬ output.Decodes lib) : ∃ e, response.candidates.mapM (convert lib) = .error e := by
  obtain ⟨i, hi, rfl⟩ := List.getElem_of_mem houtput
  obtain ⟨hlength, hget⟩ := List.forall₂_iff_get.1 h.candidates
  have hi' : i < response.candidates.length := hlength ▸ hi
  have hdelivered : Delivers lib data.utxos[i] response.candidates[i] := hget i hi hi'
  have herror : convert lib response.candidates[i] =
      .error (Grpc.CandidateConversionError.status .invalidDatum) := by
    rw [convert, hdelivered.tryInto_error hnot]
    rfl
  exact mapM_eq_error (List.getElem_mem hi') herror

/-- The request returns the groups of what is converted. -/
lemma requestCandidates_eq (h : DeliversEpoch lib data response)
    {client : ℕ → Except Status Grpc.EpochCandidatesResponse} {epoch : ℕ}
    (hclient : client epoch = .ok response)
    (order : List (StakePoolPublicKey × List RegistrationData) →
      List (StakePoolPublicKey × List RegistrationData)) :
    Grpc.requestCandidates lib client order epoch =
      (response.candidates.mapM (convert lib)).map fun kvs =>
        (order (pushAll kvs [])).map fun e => ⟨e.1, e.2,
          getStakeDelegation lib (DbSync.makeStakeMap data.stakeDistribution) e.1⟩ := by
  have hgroups : response.candidates.foldlM (fun grouped candidate =>
      ((candidate.tryInto lib).mapError Grpc.CandidateConversionError.status).map fun kv =>
        push kv.1 kv.2 grouped) [] =
      (response.candidates.mapM (convert lib)).map fun kvs => pushAll kvs [] :=
    foldlM_push _ _
  have hstakes : (Grpc.makeStakeMap response.stakeDistribution).mapError
      Grpc.CandidateConversionError.status =
      .ok (DbSync.makeStakeMap data.stakeDistribution) :=
    mapError_eq_ok.2 h.makeStakeMap_eq
  simp only [Grpc.requestCandidates, hclient, bind, Except.bind, hstakes, hgroups]
  cases response.candidates.mapM (convert lib) <;> rfl

end DeliversEpoch

end Agreement

/-- The outcomes of two calls are the same: the same candidates in any order, or both fail. -/
def SameCandidates (x y : Except CandidatesError (List CandidateRegistrations)) : Prop :=
  match x, y with
  | .ok l, .ok l' => l.Perm l'
  | .error _, .error _ => True
  | _, _ => False

/-- **When the two backends return the same candidates.**  Let a server deliver for every epoch
what db-sync has.  However the tables are iterated, the two calls have the same outcome if and
only if every registration UTXO of the data epoch decodes: db-sync leaves the others out, and
over gRPC the call fails. -/
theorem backends_return_same_candidates_iff (lib : CandidateLib) (db : ℕ → DbSync.EpochData)
    (client : ℕ → Except Status Grpc.EpochCandidatesResponse)
    (hdelivers : ∀ e, ∃ response, client e = .ok response ∧ DeliversEpoch lib (db e) response)
    {order : List (StakePoolPublicKey × List RegistrationData) →
      List (StakePoolPublicKey × List RegistrationData)} (horder : ∀ es, (order es).Perm es)
    {order' : List (StakePoolPublicKey × List DbSync.RegisteredCandidate) →
      List (StakePoolPublicKey × List DbSync.RegisteredCandidate)}
    (horder' : ∀ es, (order' es).Perm es) (epoch : ℕ) :
    SameCandidates (Grpc.getCandidates lib client order epoch)
        (DbSync.getCandidates lib db order' epoch) ↔
      ∀ dataEpoch, lib.offsetDataEpoch epoch = .ok dataEpoch →
        ∀ output ∈ (db dataEpoch).utxos, output.Decodes lib := by
  rw [Grpc.getCandidates, DbSync.getCandidates]
  cases hepoch : lib.offsetDataEpoch epoch with
  | error offset => exact iff_of_true trivial (by simp)
  | ok dataEpoch =>
    obtain ⟨response, hclient, hdata⟩ := hdelivers dataEpoch
    simp only [hdata.requestCandidates_eq hclient order, Except.ok.injEq, forall_eq']
    by_cases hall : ∀ output ∈ (db dataEpoch).utxos, output.Decodes lib
    · refine iff_of_true ?_ hall
      rw [hdata.mapM_convert_eq hall]
      -- The two tables have the same groups, and each is iterated in some order.
      refine ((horder _).map _).trans (List.Perm.trans ?_ ((horder' _).map _).symm)
      rw [← groupCandidates_map, List.map_map]
      exact List.Perm.refl _
    · refine iff_of_false ?_ hall
      push Not at hall
      obtain ⟨output, houtput, hnot⟩ := hall
      obtain ⟨e, he⟩ := hdata.mapM_convert_error houtput hnot
      rw [he]
      exact id

/-! ### A registration that does not decode -/

/-- A reader of the datum of the first version. -/
def demoRegisterValidatorDatum : PlutusData → Option RegisterValidatorDatum
  | .constr 0 [.constr 0 [.bytes stakePubKey, .bytes stakeSignature], .bytes sidechainPubKey,
      .bytes sidechainSignature, .constr 0 [.constr 0 [.bytes txHash], .integer index],
      .bytes ownPkh, .bytes auraPubKey, .bytes grandpaPubKey] =>
    some (.v0 (bytesToBitVec 256 stakePubKey) stakeSignature sidechainPubKey sidechainSignature
      ⟨bytesToBitVec 256 txHash, BitVec.ofInt 16 index⟩ (bytesToBitVec 224 ownPkh) auraPubKey
      grandpaPubKey)
  | _ => none

/-- The datum of a registration. -/
def demoCandidateDatum : PlutusData :=
  .constr 0 [.constr 0 [.bytes (List.replicate 32 1), .bytes [1]], .bytes [2], .bytes [3],
    .constr 0 [.constr 0 [.bytes (List.replicate 32 7)], .integer 0],
    .bytes (List.replicate 28 6), .bytes [4], .bytes [5]]

/-- Its CBOR. -/
def demoCandidateBytes : List UInt8 :=
  [0xd8, 0x79, 0x9f, 0xd8, 0x79, 0x9f, 0x58, 0x20] ++ List.replicate 32 1 ++
    [0x41, 1, 0xff, 0x41, 2, 0x41, 3, 0xd8, 0x79, 0x9f, 0xd8, 0x79, 0x9f, 0x58, 0x20] ++
    List.replicate 32 7 ++ [0xff, 0x00, 0xff, 0x58, 0x1c] ++ List.replicate 28 6 ++
    [0x41, 4, 0x41, 5, 0xff]

/-- The libraries, as far as the example needs them. -/
def demoCandidateLib : CandidateLib where
  toCborLib := { demoCborLib with
    fromBytes := fun bytes =>
      if bytes = demoCandidateBytes then .ok demoCandidateDatum
      else demoCborLib.fromBytes bytes }
  registerValidatorDatum := demoRegisterValidatorDatum
  fromVkey := BitVec.setWidth 224
  offsetDataEpoch := fun e => if 2 ≤ e then .ok (e - 2) else .error 2

/-- A registration UTXO, as db-sync has it. -/
def demoOutput (datum : PlutusData) : DbSync.MainchainTxOutput :=
  ⟨⟨bytesToBitVec 256 (List.replicate 32 9), 0⟩, 10, 100, 1, 0, some datum,
    [⟨bytesToBitVec 256 (List.replicate 32 7), 0⟩]⟩

/-- The same UTXO as a message. -/
def demoCandidate (fullDatum : List UInt8) : Grpc.EpochCandidate :=
  ⟨fullDatum, List.replicate 32 9, 0, [⟨List.replicate 32 7, 0⟩], 1, 10, 100, 0⟩

lemma demoCandidate_delivers {fullDatum : List UInt8} {datum : PlutusData}
    (h : demoCandidateLib.fromBytes fullDatum = .ok datum) :
    Delivers demoCandidateLib (demoOutput datum) (demoCandidate fullDatum) where
  utxoId := ⟨rfl, rfl⟩
  epoch := rfl
  epoch_lt := by simp [demoOutput]
  block := rfl
  block_lt := by simp [demoOutput]
  slot := rfl
  txIndex := rfl
  txInputs := .cons ⟨rfl, rfl⟩ .nil
  datum := h

/-- The stake of one pool. -/
def demoStakes : List DbSync.StakePoolEntry := [⟨bytesToBitVec 224 (List.replicate 28 1), 50⟩]

/-- The stake of one pool, as a message. -/
def demoStakeMessages : List Grpc.StakePoolEntry := [⟨List.replicate 28 1, 50⟩]

lemma demoStakes_deliver : List.Forall₂ DeliversStake demoStakes demoStakeMessages :=
  .cons ⟨rfl, rfl⟩ .nil

/-- A second registration of the pool, in the next output of the transaction. -/
def demoSecondOutput : DbSync.MainchainTxOutput :=
  { demoOutput demoCandidateDatum with utxoId := ⟨bytesToBitVec 256 (List.replicate 32 9), 1⟩ }

/-- The second registration as a message. -/
def demoSecondCandidate : Grpc.EpochCandidate :=
  { demoCandidate demoCandidateBytes with utxoIndex := 1 }

lemma demoSecondCandidate_delivers :
    Delivers demoCandidateLib demoSecondOutput demoSecondCandidate := by
  have hfirst : Delivers demoCandidateLib (demoOutput demoCandidateDatum)
      (demoCandidate demoCandidateBytes) := demoCandidate_delivers rfl
  exact { hfirst with utxoId := ⟨rfl, rfl⟩ }

/-- Two registrations of one pool: both backends return one candidate with the two. -/
theorem backends_return_same_candidates_demo :
    (∃ candidate, DbSync.getCandidates demoCandidateLib
        (fun _ => ⟨[demoOutput demoCandidateDatum, demoSecondOutput], demoStakes⟩) id 5 =
          .ok [candidate] ∧ candidate.registrations.length = 2) ∧
      SameCandidates
        (Grpc.getCandidates demoCandidateLib
          (fun _ => .ok ⟨[demoCandidate demoCandidateBytes, demoSecondCandidate],
            demoStakeMessages⟩) id 5)
        (DbSync.getCandidates demoCandidateLib
          (fun _ => ⟨[demoOutput demoCandidateDatum, demoSecondOutput], demoStakes⟩) id 5) := by
  refine ⟨⟨_, rfl, rfl⟩, (backends_return_same_candidates_iff demoCandidateLib
    (fun _ => ⟨[demoOutput demoCandidateDatum, demoSecondOutput], demoStakes⟩) _
    (fun _ => ⟨_, rfl, .cons (demoCandidate_delivers rfl)
      (.cons demoSecondCandidate_delivers .nil), demoStakes_deliver⟩)
    (fun _ => List.Perm.refl _) (fun _ => List.Perm.refl _) 5).2 ?_⟩
  intro dataEpoch _ output houtput
  rcases List.mem_pair.1 houtput with rfl | rfl <;> exact ⟨_, _, rfl, rfl⟩

/-- Two registration UTXOs, the second with an integer as its datum: db-sync returns the
candidate of the first, and the call over gRPC fails. -/
theorem backends_return_different_candidates :
    DeliversEpoch demoCandidateLib
        ⟨[demoOutput demoCandidateDatum, demoOutput (.integer 3)], demoStakes⟩
        ⟨[demoCandidate demoCandidateBytes, demoCandidate [3]], demoStakeMessages⟩ ∧
      (∃ candidate, DbSync.getCandidates demoCandidateLib
        (fun _ => ⟨[demoOutput demoCandidateDatum, demoOutput (.integer 3)], demoStakes⟩) id 5 =
          .ok [candidate]) ∧
      Grpc.getCandidates demoCandidateLib
        (fun _ => .ok ⟨[demoCandidate demoCandidateBytes, demoCandidate [3]],
          demoStakeMessages⟩) id 5 =
        .error (.grpcQueryError (.internal "candidate conversion failed: InvalidDatum")) := by
  refine ⟨⟨.cons (demoCandidate_delivers rfl) (.cons (demoCandidate_delivers rfl) .nil),
    demoStakes_deliver⟩, ⟨_, rfl⟩, ?_⟩
  rfl

end MidnightNode.Authority
