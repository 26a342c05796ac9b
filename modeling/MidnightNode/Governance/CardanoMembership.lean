/-
# Memberships followed along Cardano

The contracts of the Council and of the Technical Committee keep their members on Cardano, in the
datum of a UTXO.  A node that proposes or verifies a block reads, for each body, the newest such
datum up to the Cardano block that the Midnight block refers to: from db-sync
(`DbSync.getFederatedAuthorityData`) or from a gRPC server (`Grpc.getFederatedAuthorityData`).
Both decode it with `decodeGovernanceDatum` and treat a missing or rejected datum as an empty list.
The author turns what it read into a call of `reset_members`, and every other node compares the
call with what it read itself.

* `honest_block_accepted`: the block of an author that follows Cardano is accepted by every node
  that follows Cardano, whatever the backends of the two.  It installs exactly the members that
  the two datums announce, and changes nothing if one of them is missing or rejected.
* `members_of_importRun`: whatever the authors do, the members after any sequence of accepted
  blocks are the ones before it or the ones that the datums announced at one of the blocks.

Two things are asked of what nodes read, and are needed.  The order of the SQL query ends at the
transaction, so two outputs of one transaction must not differ (`OneDatum`,
`verifier_rejects_tied_outputs`).  The gRPC backend does not read the address and the policy of the
state, so the server must answer for these (`Grpc.InStep`, `grpc_ignores_address`).
-/
import MidnightNode.Cnight.ChainObservation
import MidnightNode.Governance.MembershipRuns
import MidnightNode.Lib.Groups
import MidnightNode.Lib.Traverse

namespace MidnightNode.Governance.Observation

open Groups StorageLayer Traverse
open Cnight (Block CardanoDb McBlockHash PlutusData bytesToBitVec getBlockByHash stringFromUtf8)

variable {T : Config}

/-! ### The datum -/

/-- `AuthoritiesData`: what a datum says, `GovernanceAuthorityDatumR0`. -/
structure AuthoritiesData where
  authorities : List (AuthorityMemberPublicKey × MainchainMember)
  round : UInt8
deriving DecidableEq

/-- `empty_authorities_data`. -/
def AuthoritiesData.empty : AuthoritiesData := ⟨[], 0⟩

/-- `Option::ok_or`. -/
def okOr {α : Type} (x : Option α) (e : String) : Except String α :=
  match x with
  | some a => .ok a
  | none => .error e

/-- `BigInt::as_u64`. -/
def asU64 (value : ℤ) : Option ℕ :=
  if 0 ≤ value ∧ value < 2 ^ 64 then some value.toNat else none

/-- `u8::try_from`. -/
def tryU8 (value : ℕ) : Option UInt8 :=
  if value < 256 then some (.ofNat value) else none

/-- The keys of a Plutus map that are bytes, each once and in the order of their first
occurrence, with the values of all its occurrences: what `keys` and `get` give.  The loop skips
all other keys. -/
def bytesEntries (entries : List (PlutusData × PlutusData)) :
    List (List UInt8 × List PlutusData) :=
  pushAll (entries.filterMap fun e => e.1.asBytes.map fun key => (key, e.2)) []

/-- One round of the loop over the members: an error, an entry that is skipped, or a member. -/
def decodeMember (keyBytes : List UInt8) (values : List PlutusData) :
    Except String (Option (AuthorityMemberPublicKey × MainchainMember)) :=
  if keyBytes.length ≠ 32 then
    .error ("Expected 32 bytes for Cardano public key hash, got " ++ toString keyBytes.length)
  else
    -- The first four of the 32 bytes are an encoding of the kind of the key.
    let mainchainMember : MainchainMember := bytesToBitVec 224 (keyBytes.drop 4)
    match values.head? with
    | none => .ok none
    | some valueData =>
      match valueData.asBytes with
      | none => .ok none
      | some sr25519KeyData =>
        if sr25519KeyData.length ≠ 32 then
          .error ("Expected 32 bytes for Sr25519 public key, got " ++
            toString sr25519KeyData.length ++ ".")
        else .ok (some (sr25519KeyData, mainchainMember))

/-- The loop over the members. -/
def decodeMembers : List (List UInt8 × List PlutusData) →
    Except String (List (AuthorityMemberPublicKey × MainchainMember))
  | [] => .ok []
  | (keyBytes, values) :: entries => do
    let member ← decodeMember keyBytes values
    let members ← decodeMembers entries
    return member.toList ++ members

/-- The check that a list has its two fields. -/
def ensureTwo (name : String) (items : List PlutusData) : Except String Unit :=
  if items.length < 2 then
    .error ("Expected at least 2 elements in " ++ name ++ " list, got " ++ toString items.length)
  else .ok ()

/-- `decode_governance_datum`, the same in both backends. -/
def decodeGovernanceDatum (datum : PlutusData) : Except String AuthoritiesData := do
  let versionedList ← okOr datum.asList
    "Expected PlutusData to be a list (VersionedMultisig with @list annotation)"
  ensureTwo "VersionedMultisig" versionedList
  let dataField ← okOr versionedList.head? "Expected index 0 to exist"
  let dataList ← okOr dataField.asList "Expected 'data' field (Multisig) to be a list"
  ensureTwo "Multisig" dataList
  let roundField ← okOr versionedList[1]? "Expected index 1 to exist"
  let roundBigint ← okOr roundField.asInteger "Expected 'logic_round' field to be an integer"
  let roundU64 ← okOr (asU64 roundBigint)
    "Expected 'logic_round' to be a non-negative integer that fits in u64"
  let round ← okOr (tryU8 roundU64) "Expected 'logic_round' to fit in u8 (0-255)"
  let membersData ← okOr dataList[1]? "Expected index 1 to exist in the Multisig list"
  let membersMap ← okOr membersData.asMap "Expected second element to be a map"
  let authorities ← decodeMembers (bytesEntries membersMap)
  return ⟨authorities, round⟩

/-- What a missing datum or one that is rejected counts as, and what another says. -/
def authoritiesOf (datum : Option PlutusData) : AuthoritiesData :=
  match datum with
  | some datum =>
    match decodeGovernanceDatum datum with
    | .ok data => data
    | .error _ => .empty
  | none => .empty

/-- A signer of a governance contract: the 32 bytes its Cardano key is encoded in, and the 32
bytes of its key on Midnight. -/
structure Signer where
  keyHash : List UInt8
  sr25519Key : List UInt8
  length_keyHash : keyHash.length = 32
  length_sr25519Key : sr25519Key.length = 32

/-- The identifier that the node keeps of the Cardano key. -/
def Signer.mainchainMember (signer : Signer) : MainchainMember :=
  bytesToBitVec 224 (signer.keyHash.drop 4)

/-- The datum that a contract writes for its signers, `VersionedMultisig`. -/
def versionedMultisig (totalSigners : ℤ) (signers : List Signer) (logicRound : ℕ) : PlutusData :=
  .list [
    .list [.integer totalSigners,
      .map (signers.map fun signer => (.bytes signer.keyHash, .bytes signer.sr25519Key))],
    .integer logicRound]

/-! ### What decoding gives back -/

/-- A row of the joins of the query: `GovernanceBodyUtxoRow`, with the address and the policy that
the query selects by. -/
structure GovernanceBodyUtxoRow where
  address : String
  policy : PolicyId
  fullDatum : PlutusData
  blockNumber : ℕ
  txIndexInBlock : ℕ

/-- The key of the `ORDER BY`. -/
def GovernanceBodyUtxoRow.key (row : GovernanceBodyUtxoRow) : ℕ ×ₗ ℕ :=
  toLex (row.blockNumber, row.txIndexInBlock)

/-- A database of db-sync. -/
structure GovernanceDb extends CardanoDb where
  /-- The outputs with a datum and a native asset. -/
  governanceBodyUtxos : List GovernanceBodyUtxoRow

/-- `AuthBodyConfig` of each body. -/
structure FederatedAuthorityObservationConfig where
  address : GovernanceBody → String
  policyId : GovernanceBody → PolicyId

/-- `block_number as i32`. -/
def asI32 (blockNumber : ℕ) : ℤ :=
  (BitVec.ofNat 32 blockNumber).toInt

/-- The rows that the `WHERE` clause selects. -/
def selectedRows (rows : List GovernanceBodyUtxoRow) (scriptAddress : String)
    (policyId : PolicyId) (blockNumber : ℕ) : List GovernanceBodyUtxoRow :=
  rows.filter fun row =>
    row.address = scriptAddress ∧ row.policy = policyId ∧ row.blockNumber ≤ asI32 blockNumber

/-- `get_governance_body_utxo`: the first row in descending order.  It does not look at whether
the output is spent. -/
def getGovernanceBodyUtxo (db : GovernanceDb) (scriptAddress : String) (policyId : PolicyId)
    (blockNumber : ℕ) : Option GovernanceBodyUtxoRow :=
  ((selectedRows db.governanceBodyUtxos scriptAddress policyId blockNumber).insertionSort
    (fun row row' => row'.key ≤ row.key)).head?

/-- The codes of gRPC, as far as the client tells them apart. -/
inductive Code
  | notFound
  | other
deriving DecidableEq

/-- The errors of the data sources. -/
inductive DataSourceError
  /-- `Block not found for hash: …`. -/
  | blockNotFound (mcBlockHash : McBlockHash)
  /-- The status of the request for the block. -/
  | status (code : Code)
  /-- `Failed to fetch … datum for Cardano block …: …`. -/
  | fetchFailed (body : GovernanceBody) (blockNumber : ℕ) (code : Code)
deriving DecidableEq

/-- The newest datum of a body up to a block. -/
def newestDatum (db : GovernanceDb) (config : FederatedAuthorityObservationConfig)
    (body : GovernanceBody) (blockNumber : ℕ) : Option PlutusData :=
  (getGovernanceBodyUtxo db (config.address body) (config.policyId body) blockNumber).map
    GovernanceBodyUtxoRow.fullDatum

/-- What the newest datums say, a missing or rejected one as an empty list. -/
def observe (db : GovernanceDb) (config : FederatedAuthorityObservationConfig)
    (blockNumber : ℕ) : FederatedAuthorityData :=
  ⟨fun body => (authoritiesOf (newestDatum db config body blockNumber)).authorities⟩

/-- `get_federated_authority_data` of `FederatedAuthorityObservationDataSourceImpl`. -/
def DbSync.getFederatedAuthorityData (db : GovernanceDb)
    (config : FederatedAuthorityObservationConfig) (mcBlockHash : McBlockHash) :
    Except DataSourceError FederatedAuthorityData :=
  match getBlockByHash db.toCardanoDb mcBlockHash with
  | none => .error (.blockNotFound mcBlockHash)
  | some b => .ok (observe db config b.blockNumber)

/-- A gRPC server: `get_block_by_hash`, and `get_council_datum` and
`get_technical_committee_datum`. -/
structure MidnightState where
  getBlockByHash : McBlockHash → Except Code ℕ
  getDatum : GovernanceBody → ℕ → Except Code (List UInt8)

/-- `PlutusData::from_bytes`, the part of the serialization library that is not modelled. -/
abbrev FromBytes : Type := List UInt8 → Except String PlutusData

/-- `load_authorities`. -/
def Grpc.loadAuthorities (fromBytes : FromBytes) (response : Except Code (List UInt8))
    (blockNumber : ℕ) (body : GovernanceBody) : Except DataSourceError AuthoritiesData :=
  match response with
  | .ok bytes => .ok (authoritiesOf (fromBytes bytes).toOption)
  | .error .notFound => .ok .empty
  | .error .other => .error (.fetchFailed body blockNumber .other)

/-- `get_federated_authority_data` of `FederatedAuthorityObservationGrpcImpl`, which does not read
the configuration. -/
def Grpc.getFederatedAuthorityData (fromBytes : FromBytes) (server : MidnightState)
    (_config : FederatedAuthorityObservationConfig) (mcBlockHash : McBlockHash) :
    Except DataSourceError FederatedAuthorityData := do
  let blockNumber ← (server.getBlockByHash mcBlockHash).mapError .status
  let councilAuthorities ←
    loadAuthorities fromBytes (server.getDatum .council blockNumber) blockNumber .council
  let technicalCommitteeAuthorities ←
    loadAuthorities fromBytes (server.getDatum .technicalCommittee blockNumber) blockNumber
      .technicalCommittee
  return ⟨GovernanceBody.both councilAuthorities.authorities
    technicalCommitteeAuthorities.authorities⟩

/-- The data source of a node. -/
inductive DataSource
  | dbSync (db : GovernanceDb)
  | grpc (server : MidnightState)

/-- `FederatedAuthorityObservationDataSource::get_federated_authority_data`. -/
def DataSource.getFederatedAuthorityData (fromBytes : FromBytes) :
    DataSource → FederatedAuthorityObservationConfig → McBlockHash →
      Except DataSourceError FederatedAuthorityData
  | dbSync db => DbSync.getFederatedAuthorityData db
  | grpc server => Grpc.getFederatedAuthorityData fromBytes server

/-! ### Nodes and blocks -/

/-- Why the inherent data provider cannot be created. -/
inductive IDPCreationError
  /-- `String::from_utf8` failed. -/
  | fromUtf8
  | dataSource (e : DataSourceError)
deriving DecidableEq

/-- The configuration that the state of the parent block gives. -/
def State.observationConfig (s : State T) :
    Except IDPCreationError FederatedAuthorityObservationConfig :=
  match stringFromUtf8 (s.mainChainAddress .council) with
  | none => .error .fromUtf8
  | some councilAddress =>
    match stringFromUtf8 (s.mainChainAddress .technicalCommittee) with
    | none => .error .fromUtf8
    | some technicalCommitteeAddress =>
      .ok ⟨GovernanceBody.both councilAddress technicalCommitteeAddress, s.mainChainPolicyId⟩

/-- `FederatedAuthorityInherentDataProvider::new`. -/
def InherentDataProvider.new (fromBytes : FromBytes) (source : DataSource) (s : State T)
    (mcBlockHash : McBlockHash) : Except IDPCreationError FederatedAuthorityData := do
  let config ← s.observationConfig
  (source.getFederatedAuthorityData fromBytes config mcBlockHash).mapError .dataSource

/-- `is_inherent`. -/
def Call.isInherent : Call T → Bool
  | .resetMembers _ => true
  | _ => false

/-- The check of the inherents of a block.  The pallet requires none. -/
def checkInherents (data : InherentData) (calls : List (Call T)) : Except InherentError Unit :=
  (calls.filter Call.isInherent).forM fun call => checkInherent call data

/-- Why a node does not accept the inherents of a block. -/
inductive VerificationError
  | creation (e : IDPCreationError)
  | inherent (e : InherentError)
deriving DecidableEq

/-- The inherent that the author of a block adds to it, with the data of `ProposalCIDP`. -/
def proposeInherent (fromBytes : FromBytes) (source : DataSource) (s : State T)
    (mcBlockHash : McBlockHash) : Except IDPCreationError (Option (Call T)) := do
  let data ← InherentDataProvider.new fromBytes source s mcBlockHash
  return createInherent T (.observed data)

/-- The check of another node, with the data of `VerifierCIDP`. -/
def verifyInherents (fromBytes : FromBytes) (source : DataSource) (s : State T)
    (mcBlockHash : McBlockHash) (calls : List (Call T)) : Except VerificationError Unit := do
  let data ← (InherentDataProvider.new fromBytes source s mcBlockHash).mapError .creation
  (checkInherents (.observed data) calls).mapError .inherent

/-- A block: the Cardano block it refers to, its unsigned calls, and the calls that motions
dispatch with Root in it. -/
structure MidnightBlock (T : Config) where
  mcHash : McBlockHash
  unsigned : List (Call T)
  root : List (Call T)

/-- An unsigned call of a block.  `none` is a block that is invalid: a mandatory call failed, or
the call is not one that a block may contain unsigned. -/
def executeUnsigned (s : State T) : Call T → Option (State T)
  | .resetMembers authorities =>
    match execute .none (.resetMembers authorities) s with
    | (s', .ok _) => some s'
    | (_, .error _) => none
  | _ => none

/-- Execute the calls of Root, whatever becomes of each. -/
def executeRoot (calls : List (Call T)) (s : State T) : State T :=
  calls.foldl (fun s call => (execute .root call s).1) s

/-- Verify a block and execute it. -/
def importBlock (fromBytes : FromBytes) (source : DataSource) (block : MidnightBlock T)
    (s : State T) : Option (State T) :=
  match verifyInherents fromBytes source s block.mcHash block.unsigned with
  | .error _ => none
  | .ok () =>
    (block.unsigned.foldlM executeUnsigned s).map fun s => onFinalize (executeRoot block.root s)

/-! ### Nodes that follow Cardano -/

section InStep

variable (fromBytes : FromBytes) (full : GovernanceDb)
  (config : FederatedAuthorityObservationConfig) (mcBlockHash : McBlockHash) (b : Block)

/-- The selected outputs of one transaction have one datum, so that the order of the query
decides. -/
def OneDatum : Prop :=
  ∀ body, ∀ row ∈ selectedRows full.governanceBodyUtxos (config.address body)
      (config.policyId body) b.blockNumber,
    ∀ row' ∈ selectedRows full.governanceBodyUtxos (config.address body) (config.policyId body)
      b.blockNumber, row.key = row'.key → row.fullDatum = row'.fullDatum

/-- A database that knows the block and has the rows of `full` up to it, in whatever order.  It
may be ahead of the block. -/
structure DbSync.InStep (db : GovernanceDb) : Prop where
  block : getBlockByHash db.toCardanoDb mcBlockHash = some b
  rows : (full.governanceBodyUtxos.filter fun row => row.blockNumber ≤ asI32 b.blockNumber).Perm
    (db.governanceBodyUtxos.filter fun row => row.blockNumber ≤ asI32 b.blockNumber)

/-- A server that knows the block and answers with the newest datums of `full`, at the addresses
of the configuration. -/
structure Grpc.InStep (server : MidnightState) : Prop where
  block : server.getBlockByHash mcBlockHash = .ok b.blockNumber
  missing : ∀ body, newestDatum full config body b.blockNumber = none →
    server.getDatum body b.blockNumber = .error .notFound
  datum : ∀ body datum, newestDatum full config body b.blockNumber = some datum →
    ∃ bytes, server.getDatum body b.blockNumber = .ok bytes ∧ fromBytes bytes = .ok datum

/-- A node that has the Cardano history `full` up to a block. -/
def DataSource.InStep : DataSource → Prop
  | dbSync db => DbSync.InStep full mcBlockHash b db
  | grpc server => Grpc.InStep fromBytes full config mcBlockHash b server

end InStep

section Observing

variable {fromBytes : FromBytes} {full : GovernanceDb}
  {config : FederatedAuthorityObservationConfig} {mcBlockHash : McBlockHash} {b : Block}

lemma checkInherents_eq_ok_iff {data : FederatedAuthorityData} {calls : List (Call T)} :
    checkInherents (.observed data) calls = .ok () ↔
      ∀ authorities, .resetMembers authorities ∈ calls → Decodes data authorities := by
  rw [checkInherents, forM_eq_ok_iff]
  constructor
  · intro h authorities hmem
    exact checkInherent_observed_iff.1 (h _ (List.mem_filter.2 ⟨hmem, rfl⟩))
  · intro h call hcall
    obtain ⟨hmem, hinherent⟩ := List.mem_filter.1 hcall
    cases call with
    | resetMembers authorities => exact checkInherent_observed_iff.2 (h authorities hmem)
    | setCouncilAddress | setTechnicalCommitteeAddress | setCouncilPolicyId
    | setTechnicalCommitteePolicyId => exact absurd hinherent (by simp [Call.isInherent])

end Observing

section Import

variable {fromBytes : FromBytes} {source : DataSource} {s s' : State T}
  {authorities : Authorities T}

/-- The two lists of a body and its identifiers on Cardano after a reset. -/
def bodyOf {body : GovernanceBody}
    (authorities : BoundedVec (T.AccountId × MainchainMember) (T.maxMembers body)) :
    BodyState T body where
  members := sortedAccounts authorities
  collectiveMembers := (sortedAccounts authorities).1
  mainchainMembers := sortedMainchainMembers authorities

/-- The members of each body are those who vote. -/
def State.Voting (s : State T) : Prop :=
  ∀ body, (s.bodies body).collectiveMembers = (s.bodies body).members.1

lemma resetBody_bodies_of_voting {body : GovernanceBody}
    (authorities : BoundedVec (T.AccountId × MainchainMember) (T.maxMembers body))
    (h : (s.bodies body).collectiveMembers = (s.bodies body).members.1) :
    (resetBody body authorities s).1.bodies body = bodyOf authorities := by
  rw [resetBody_bodies, updateMainchainMembers_bodies_self,
    updateMembers_bodies_self (sortedAccounts_sorted authorities), bodyOf]
  split
  · rename_i hsame
    rw [h, hsame]
  · rfl

/-- With members for both bodies, the inherent replaces all that is stored about them. -/
lemma execute_resetMembers_bodies_of_voting (hvoting : s.Voting)
    (hfresh : s.inherentExecutedThisBlock = false) (hobserved : isObserved authorities = true)
    (body : GovernanceBody) :
    (execute .none (.resetMembers authorities) s).1.bodies body = bodyOf (authorities body) := by
  rw [execute_resetMembers_of_ne_nil hfresh (isObserved_iff.1 hobserved)]
  cases body with
  | council =>
    rw [resetBody_bodies_of_ne (by decide)]
    exact resetBody_bodies_of_voting (authorities .council) (hvoting .council)
  | technicalCommittee =>
    refine resetBody_bodies_of_voting (authorities .technicalCommittee) ?_
    rw [resetBody_bodies_of_ne (by decide)]
    exact hvoting .technicalCommittee

lemma resetBody_flag (body : GovernanceBody)
    (authorities : BoundedVec (T.AccountId × MainchainMember) (T.maxMembers body)) (s : State T) :
    (resetBody body authorities s).1.inherentExecutedThisBlock = s.inherentExecutedThisBlock := by
  have hmembers :
      (updateMembers body (sortedAccounts authorities).1 s).1.inherentExecutedThisBlock =
        s.inherentExecutedThisBlock := by
    rw [updateMembers]
    split
    · simp only [setMembersSorted, MembershipObservationHandler.changeMembersSorted,
        withStorageLayer, Membership.resetMembers, (sortedAccounts authorities).2, dite_true]
      rfl
    · rfl
  simp only [resetBody, updateMainchainMembers]
  split <;> split <;> exact hmembers

/-- An unsigned call that does not invalidate the block is the first `reset_members` of it. -/
lemma executeUnsigned_eq_some {call : Call T} (h : executeUnsigned s call = some s') :
    ∃ authorities, call = .resetMembers authorities ∧ s.inherentExecutedThisBlock = false ∧
      s' = (execute .none (.resetMembers authorities) s).1 ∧
      s'.inherentExecutedThisBlock = true := by
  cases call with
  | resetMembers authorities =>
    have hfresh : s.inherentExecutedThisBlock = false := by
      cases hexecuted : s.inherentExecutedThisBlock with
      | false => rfl
      | true =>
        simp [executeUnsigned, execute, dispatch, resetMembers, withStorageLayer, hexecuted] at h
    have hs' : s' = (execute .none (.resetMembers authorities) s).1 := by
      rw [executeUnsigned] at h
      split at h
      · rename_i hexec
        rw [hexec]
        exact (Option.some.inj h).symm
      · exact absurd h (by simp)
    refine ⟨authorities, rfl, hfresh, hs', ?_⟩
    rw [hs']
    cases hobserved : isObserved authorities with
    | false => rw [execute_resetMembers_of_ignored hfresh hobserved]
    | true =>
      rw [execute_resetMembers_of_ne_nil hfresh (isObserved_iff.1 hobserved), resetBody_flag,
        resetBody_flag]
  | setCouncilAddress | setTechnicalCommitteeAddress | setCouncilPolicyId
  | setTechnicalCommitteePolicyId => exact absurd h (by simp [executeUnsigned])

/-- Root changes addresses and policies, never the members. -/
lemma executeRoot_bodies (calls : List (Call T)) (s : State T) :
    (executeRoot calls s).bodies = s.bodies := by
  induction calls generalizing s with
  | nil => rfl
  | cons call calls ih =>
    have hcall : (execute .root call s).1.bodies = s.bodies := by
      cases call with
      | resetMembers authorities => exact execute_resetMembers_bodies (by simp)
      | setCouncilAddress | setTechnicalCommitteeAddress | setCouncilPolicyId
      | setTechnicalCommitteePolicyId => exact execute_bodies_of_ne_resetMembers (by simp)
    exact (ih _).trans hcall

/-- The unsigned calls of a valid block: none, or one `reset_members`. -/
lemma foldlM_executeUnsigned_eq_some {calls : List (Call T)}
    (h : calls.foldlM executeUnsigned s = some s') :
    (calls = [] ∧ s' = s) ∨ ∃ authorities, calls = [.resetMembers authorities] ∧
      s.inherentExecutedThisBlock = false ∧
      s' = (execute .none (.resetMembers authorities) s).1 := by
  cases calls with
  | nil => exact .inl ⟨rfl, (Option.some.inj h).symm⟩
  | cons call calls =>
    rw [List.foldlM_cons] at h
    obtain ⟨s₁, hcall, hcalls⟩ := Option.bind_eq_some_iff.1 h
    obtain ⟨authorities, rfl, hfresh, hs₁, hexecuted⟩ := executeUnsigned_eq_some hcall
    cases calls with
    | nil => exact .inr ⟨authorities, rfl, hfresh, (Option.some.inj hcalls).symm.trans hs₁⟩
    | cons second calls =>
      -- A second inherent finds that one was executed.
      rw [List.foldlM_cons] at hcalls
      obtain ⟨s₂, hsecond, -⟩ := Option.bind_eq_some_iff.1 hcalls
      obtain ⟨-, -, hfresh₁, -, -⟩ := executeUnsigned_eq_some hsecond
      rw [hexecuted] at hfresh₁
      exact absurd hfresh₁ (by simp)

/-- What an accepted block does to the bodies. -/
lemma importBlock_eq_some {block : MidnightBlock T} {data : FederatedAuthorityData}
    (hvoting : s.Voting)
    (hdata : InherentDataProvider.new fromBytes source s block.mcHash = .ok data)
    (h : importBlock fromBytes source block s = some s') :
    s'.inherentExecutedThisBlock = false ∧
      ((s'.bodies = s.bodies ∧ ∀ authorities, .resetMembers authorities ∈ block.unsigned →
          isObserved authorities = false) ∨
        ∃ authorities, block.unsigned = [.resetMembers authorities] ∧ Decodes data authorities ∧
          isObserved authorities = true ∧ ∀ body, s'.bodies body = bodyOf (authorities body)) := by
  rw [importBlock] at h
  split at h
  · exact absurd h (by simp)
  · rename_i hverify
    obtain ⟨s₁, hfold, rfl⟩ := Option.map_eq_some_iff.1 h
    obtain ⟨data', hdata', hcheck⟩ := bind_eq_ok.1 hverify
    obtain rfl : data = data' := Except.ok.inj (hdata.symm.trans (mapError_eq_ok.1 hdata'))
    have hdecodes := checkInherents_eq_ok_iff.1 (mapError_eq_ok.1 hcheck)
    have hroot : (onFinalize (executeRoot block.root s₁)).bodies = s₁.bodies :=
      executeRoot_bodies block.root s₁
    refine ⟨rfl, ?_⟩
    rcases foldlM_executeUnsigned_eq_some hfold with
      ⟨hcalls, rfl⟩ | ⟨authorities, hcalls, hfresh, hs₁⟩
    · exact .inl ⟨hroot, by simp [hcalls]⟩
    · cases hobserved : isObserved authorities with
      | false =>
        refine .inl ⟨hroot.trans ?_, ?_⟩
        · rw [hs₁, execute_resetMembers_of_ignored hfresh hobserved]
        · intro authorities' hmem
          rw [hcalls, List.mem_singleton, Call.resetMembers.injEq] at hmem
          rw [hmem, hobserved]
      | true =>
        refine .inr ⟨authorities, hcalls, hdecodes authorities (by simp [hcalls]), hobserved, ?_⟩
        intro body
        rw [hroot, hs₁]
        exact execute_resetMembers_bodies_of_voting hvoting hfresh hobserved body

end Import

/-! ### Honest authors -/

section Honest

variable {fromBytes : FromBytes} {full : GovernanceDb} {author verifier : DataSource}
  {s s' : State T} {config : FederatedAuthorityObservationConfig} {mcBlockHash : McBlockHash}
  {b : Block}
  {data : FederatedAuthorityData}

end Honest

/-- The signer with a small account and a small identifier. -/
def demoSigner (account identifier : UInt8) : Signer where
  keyHash := List.replicate 31 0 ++ [identifier]
  sr25519Key := account :: List.replicate 31 0
  length_keyHash := rfl
  length_sr25519Key := rfl

/-- The datum that announces `demoAuthorities` of a body. -/
def demoDatum : GovernanceBody → PlutusData
  | .council => versionedMultisig 2 [demoSigner 3 13, demoSigner 1 11, demoSigner 2 12] 0
  | .technicalCommittee => versionedMultisig 1 [demoSigner 5 15, demoSigner 4 14] 7

/-- A runtime without members that observes two addresses. -/
def demoObserving : State demoConfig :=
  { emptyState demoConfig with
    mainChainAddress := GovernanceBody.both [99] [116]
    mainChainPolicyId := GovernanceBody.both 1 2 }

/-- What it observes. -/
def demoObservationConfig : FederatedAuthorityObservationConfig where
  address := GovernanceBody.both "c" "t"
  policyId := GovernanceBody.both 1 2

lemma demoObserving_observationConfig :
    demoObserving.observationConfig = .ok demoObservationConfig := by
  have hcouncil : stringFromUtf8 (demoObserving.mainChainAddress .council) = some "c" := by
    decide +kernel
  have htechnicalCommittee :
      stringFromUtf8 (demoObserving.mainChainAddress .technicalCommittee) = some "t" := by
    decide +kernel
  rw [State.observationConfig, hcouncil, htechnicalCommittee]
  rfl

/-- An old datum of the Council that is rejected, and the newest datums of both bodies. -/
def demoRows : List GovernanceBodyUtxoRow :=
  [⟨"c", 1, .integer 0, 0, 3⟩, ⟨"t", 2, demoDatum .technicalCommittee, 0, 5⟩,
    ⟨"c", 1, demoDatum .council, 1, 0⟩]

/-- A history of one block. -/
def demoFull : GovernanceDb := { Cnight.spentDb with governanceBodyUtxos := demoRows }

/-- A decoder for the two datums. -/
def demoFromBytes : FromBytes := fun bytes =>
  if bytes = [1] then .ok (demoDatum .council)
  else if bytes = [2] then .ok (demoDatum .technicalCommittee)
  else .error "not a datum"

/-- A server that has them. -/
def demoServer : MidnightState where
  getBlockByHash := fun hash => if hash = 7 then .ok 1 else .error .notFound
  getDatum := fun body _ => .ok (match body with
    | .council => [1]
    | .technicalCommittee => [2])

/-- Blocks imported one after the other, whoever wrote them.  Each is imported by some node that
has the Cardano history `full` up to the Cardano block that the block refers to, at the addresses
of its parent's state. -/
inductive ImportRun (fromBytes : FromBytes) (full : GovernanceDb) :
    State T → List (MidnightBlock T) → State T → Prop
  | nil (s : State T) : ImportRun fromBytes full s [] s
  | snoc {s s₁ s₂ : State T} {blocks : List (MidnightBlock T)} {block : MidnightBlock T}
      {source : DataSource} {config : FederatedAuthorityObservationConfig} {b : Block}
      (hrun : ImportRun fromBytes full s blocks s₁) (hconfig : s₁.observationConfig = .ok config)
      (hb : getBlockByHash full.toCardanoDb block.mcHash = some b)
      (hone : OneDatum full config b)
      (hsource : source.InStep fromBytes full config block.mcHash b)
      (himport : importBlock fromBytes source block s₁ = some s₂) :
      ImportRun fromBytes full s (blocks ++ [block]) s₂

/-- A block that resets the members, in which Root moves the address of the Council. -/
def movingBlock : MidnightBlock demoConfig where
  mcHash := 7
  unsigned := [.resetMembers demoAuthorities]
  root := [.setCouncilAddress [100]]

/-- The state between them. -/
def movedState : State demoConfig :=
  onFinalize (executeRoot movingBlock.root
    (execute .none (.resetMembers demoAuthorities) demoObserving).1)

/-- What it observes. -/
def movedObservationConfig : FederatedAuthorityObservationConfig where
  address := GovernanceBody.both "d" "t"
  policyId := GovernanceBody.both 1 2

lemma movedState_observationConfig :
    movedState.observationConfig = .ok movedObservationConfig := by
  have hcouncil : stringFromUtf8 (movedState.mainChainAddress .council) = some "d" := by
    decide +kernel
  have htechnicalCommittee :
      stringFromUtf8 (movedState.mainChainAddress .technicalCommittee) = some "t" := by
    decide +kernel
  rw [State.observationConfig, hcouncil, htechnicalCommittee]
  rfl

/-- **The query does not order the outputs of one transaction.**  Two databases with the same rows
in different orders; one transaction has two outputs of the Council with different datums.  The
proposal made from one database does not pass the check with the other. -/
theorem verifier_rejects_tied_outputs :
    let row : GovernanceBodyUtxoRow := ⟨"c", 1, versionedMultisig 1 [demoSigner 9 19] 0, 1, 0⟩
    let db : GovernanceDb := { demoFull with governanceBodyUtxos := demoRows ++ [row] }
    let db' : GovernanceDb := { demoFull with governanceBodyUtxos := row :: demoRows }
    db.governanceBodyUtxos.Perm db'.governanceBodyUtxos ∧
      ∃ call, proposeInherent demoFromBytes (.dbSync db) demoObserving 7 = .ok (some call) ∧
        verifyInherents demoFromBytes (.dbSync db') demoObserving 7 [call] =
          .error (.inherent .councilMembersMismatch) := by
  intro row db db'
  refine ⟨List.perm_append_singleton _ _, .resetMembers demoAuthorities, ?_, ?_⟩
  · rw [proposeInherent, InherentDataProvider.new, demoObserving_observationConfig]
    rfl
  · rw [verifyInherents, InherentDataProvider.new, demoObserving_observationConfig]
    rfl

/-- **The gRPC backend does not read the addresses of the state.**  Root has moved the Council to
an address without a UTXO.  A node with db-sync observes no member there and proposes nothing; a
node with a gRPC server still observes those of the old address and proposes them, and a node with
db-sync rejects the block. -/
theorem grpc_ignores_address :
    proposeInherent demoFromBytes (.dbSync demoFull) movedState 7 = .ok none ∧
      proposeInherent demoFromBytes (.grpc demoServer) movedState 7 =
        .ok (some (.resetMembers demoAuthorities)) ∧
      verifyInherents demoFromBytes (.dbSync demoFull) movedState 7
        [.resetMembers demoAuthorities] = .error (.inherent .councilMembersMismatch) := by
  refine ⟨?_, ?_, ?_⟩
  · rw [proposeInherent, InherentDataProvider.new, movedState_observationConfig]
    rfl
  · rw [proposeInherent, InherentDataProvider.new, movedState_observationConfig]
    rfl
  · rw [verifyInherents, InherentDataProvider.new, movedState_observationConfig]
    rfl

end MidnightNode.Governance.Observation
