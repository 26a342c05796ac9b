/-
# The queries to db-sync

A database is given by the rows that the joins of the four queries produce, before positions
are looked at.  Each query selects the rows between two positions, orders them, and returns a
window of them; where the order leaves rows tied, they keep the order of the table, and tables
in any order are considered.
-/
import MidnightNode.Cnight.Datum
import Mathlib.Data.List.Sort

namespace MidnightNode.Cnight

/-- `i32::MAX`. -/
def i32Max : ℕ := 2 ^ 31 - 1

/-- A Cardano block. -/
structure Block where
  blockNumber : ℕ
  hash : McBlockHash
  /-- The time of the block, in milliseconds since the Unix epoch. -/
  time : ℤ
  txCount : ℕ

/-- `From<Block> for CardanoPosition`: the position after the last transaction. -/
def Block.toPosition (b : Block) : CardanoPosition :=
  ⟨b.hash, b.blockNumber, b.time, b.txCount⟩

/-- A UTXO with an auth token at the mapping validator. -/
structure RegistrationRow where
  fullDatum : PlutusData
  blockNumber : ℕ
  blockHash : McBlockHash
  blockTimestamp : ℤ
  txIndexInBlock : ℕ
  txHash : McTxHash
  utxoIndex : BitVec 16

/-- A UTXO of the mapping validator that is spent. -/
structure DeregistrationRow where
  fullDatum : PlutusData
  blockNumber : ℕ
  blockHash : McBlockHash
  blockTimestamp : ℤ
  txIndexInBlock : ℕ
  txHash : McTxHash
  utxoTxHash : McTxHash
  utxoIndex : BitVec 16

/-- A new UTXO that holds cNIGHT. -/
structure AssetCreateRow where
  blockNumber : ℕ
  blockHash : McBlockHash
  blockTimestamp : ℤ
  txIndexInBlock : ℕ
  quantity : ℤ
  holderAddress : String
  txHash : McTxHash
  utxoIndex : BitVec 16

/-- A UTXO that holds cNIGHT and is spent. -/
structure AssetSpendRow where
  blockNumber : ℕ
  blockHash : McBlockHash
  blockTimestamp : ℤ
  txIndexInBlock : ℕ
  quantity : ℤ
  holderAddress : String
  utxoTxHash : McTxHash
  utxoIndex : BitVec 16
  spendingTxHash : McTxHash

/-- The rows of db-sync, by what the joins of each query select them by. -/
structure CardanoDb where
  /-- The blocks. -/
  blocks : List Block
  /-- By the address, and the policy and name of the auth token. -/
  registrations : String → Hash28 → String → List RegistrationRow
  /-- By the address. -/
  deregistrations : String → List DeregistrationRow
  /-- By the policy and name of the asset. -/
  assetCreates : Hash28 → String → List AssetCreateRow
  /-- By the policy and name of the asset. -/
  assetSpends : Hash28 → String → List AssetSpendRow

/-- Why a call to the data source returns nothing. -/
inductive DataSourceError
  | missingBlockReference (hash : McBlockHash)
  | cardanoNetworkError (address : String)
  | mappingValidatorInvalidAddress (reason : String)
  /-- An `assert!` of a query panics. -/
  | assertionFailed (condition : String)
deriving DecidableEq

/-- `get_block_by_hash`. -/
def getBlockByHash (db : CardanoDb) (hash : McBlockHash) : Option Block :=
  db.blocks.find? (fun b => b.hash == hash)

lemma hash_of_getBlockByHash {db : CardanoDb} {hash : McBlockHash} {b : Block}
    (h : getBlockByHash db hash = some b) : b.hash = hash := by
  simpa using List.find?_some h

/-! ### Windows of a table -/

/-- The `WHERE` clause on positions. -/
def inRange (start «end» : CardanoPosition) (blockNo blockIndex : ℕ) : Bool :=
  blockNo ≥ start.blockNumber && blockNo ≤ «end».blockNumber &&
    (blockNo > start.blockNumber ||
      (blockNo == start.blockNumber && blockIndex ≥ start.txIndexInBlock)) &&
    (blockNo < «end».blockNumber ||
      (blockNo == «end».blockNumber && blockIndex < «end».txIndexInBlock))

/-- The clause selects the positions from `start` on and before `end`. -/
lemma inRange_iff (start «end» : CardanoPosition) (blockNo blockIndex : ℕ) :
    inRange start «end» blockNo blockIndex = true ↔
      start.key ≤ toLex (blockNo, blockIndex) ∧ toLex (blockNo, blockIndex) < «end».key := by
  simp only [inRange, CardanoPosition.key, Prod.Lex.toLex_le_toLex, Prod.Lex.toLex_lt_toLex,
    Bool.and_eq_true, Bool.or_eq_true, decide_eq_true_eq, beq_iff_eq]
  omega

section Window

variable {R κ : Type} [LinearOrder κ] (blockNo blockIndex : R → ℕ) (orderBy : R → κ)

/-- `SELECT … WHERE … ORDER BY …`. -/
def selectRange (rows : List R) (start «end» : CardanoPosition) : List R :=
  (rows.filter (fun r => inRange start «end» (blockNo r) (blockIndex r))).insertionSort
    (fun r r' => orderBy r ≤ orderBy r')

/-- A query: `selectRange … LIMIT limit OFFSET offset`, after the two assertions. -/
def rangeQuery (rows : List R) (start «end» : CardanoPosition) (limit offset : ℕ) :
    Except DataSourceError (List R) :=
  if ¬ limit < i32Max then .error (.assertionFailed "limit < i32::MAX as usize")
  else if ¬ offset < i32Max then .error (.assertionFailed "offset < i32::MAX as usize")
  else .ok (((selectRange blockNo blockIndex orderBy rows start «end»).drop offset).take limit)

lemma rangeQuery_zero {limit : ℕ} (h : limit < i32Max) (rows : List R)
    (start «end» : CardanoPosition) :
    rangeQuery blockNo blockIndex orderBy rows start «end» limit 0 =
      .ok ((selectRange blockNo blockIndex orderBy rows start «end»).take limit) := by
  have h0 : 0 < i32Max := by decide
  simp [rangeQuery, h, h0]

lemma rangeQuery_of_not_lt {limit : ℕ} (h : ¬ limit < i32Max) (rows : List R)
    (start «end» : CardanoPosition) (offset : ℕ) :
    rangeQuery blockNo blockIndex orderBy rows start «end» limit offset =
      .error (.assertionFailed "limit < i32::MAX as usize") := by
  simp [rangeQuery, h]

lemma selectRange_perm (rows : List R) (start «end» : CardanoPosition) :
    (selectRange blockNo blockIndex orderBy rows start «end»).Perm
      (rows.filter (fun r => inRange start «end» (blockNo r) (blockIndex r))) :=
  List.perm_insertionSort _ _

end Window

/-! ### The four queries -/

/-- Registrations, in the order of their transactions. -/
def getRegistrations (db : CardanoDb) (smartContractAddress : String)
    (mappingValidatorPolicyId : Hash28) (authTokenAssetName : String)
    (start «end» : CardanoPosition) (limit offset : ℕ) :
    Except DataSourceError (List RegistrationRow) :=
  rangeQuery RegistrationRow.blockNumber RegistrationRow.txIndexInBlock
    (fun r => toLex (r.blockNumber, r.txIndexInBlock))
    (db.registrations smartContractAddress mappingValidatorPolicyId authTokenAssetName)
    start «end» limit offset

/-- Deregistrations, in the order of their transactions. -/
def getDeregistrations (db : CardanoDb) (smartContractAddress : String)
    (start «end» : CardanoPosition) (limit offset : ℕ) :
    Except DataSourceError (List DeregistrationRow) :=
  rangeQuery DeregistrationRow.blockNumber DeregistrationRow.txIndexInBlock
    (fun r => toLex (r.blockNumber, r.txIndexInBlock))
    (db.deregistrations smartContractAddress) start «end» limit offset

/-- New cNIGHT UTXOs, in the order of their transactions and then by their index. -/
def getAssetCreates (db : CardanoDb) (policyId : Hash28) (assetName : String)
    (start «end» : CardanoPosition) (limit offset : ℕ) :
    Except DataSourceError (List AssetCreateRow) :=
  rangeQuery AssetCreateRow.blockNumber AssetCreateRow.txIndexInBlock
    (fun r => toLex (r.blockNumber, toLex (r.txIndexInBlock, r.utxoIndex.toNat)))
    (db.assetCreates policyId assetName) start «end» limit offset

/-- Spent cNIGHT UTXOs, in the order of the spending transactions and then by their index. -/
def getAssetSpends (db : CardanoDb) (policyId : Hash28) (assetName : String)
    (start «end» : CardanoPosition) (limit offset : ℕ) :
    Except DataSourceError (List AssetSpendRow) :=
  rangeQuery AssetSpendRow.blockNumber AssetSpendRow.txIndexInBlock
    (fun r => toLex (r.blockNumber, toLex (r.txIndexInBlock, r.utxoIndex.toNat)))
    (db.assetSpends policyId assetName) start «end» limit offset

end MidnightNode.Cnight
