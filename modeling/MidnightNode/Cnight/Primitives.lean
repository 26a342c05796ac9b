/-
# Observed UTXOs and Cardano positions

The types that the Cardano follower and the cNIGHT observation pallet share, with the two
orders of the source: positions are compared by block number and transaction index alone, and
observed UTXOs by position, creations first, and then by the UTXO they are about.

Byte arrays of a fixed length are bit vectors read in big endian, so that their lexicographic
order is that of the numbers they stand for.  Block numbers and transaction indices are natural
numbers: db-sync keeps both as signed 32-bit integers, and an index increased by one does not
leave `u32`.
-/
import Mathlib.Algebra.Group.Nat.Defs
import Mathlib.Data.Prod.Lex
import Mathlib.Order.Compare
import Mathlib.Tactic.Lemma

namespace MidnightNode.Cnight

/-- The hash of a Cardano block, 32 bytes. -/
abbrev McBlockHash : Type := BitVec 256

/-- The hash of a Cardano transaction, 32 bytes. -/
abbrev McTxHash : Type := BitVec 256

/-- A Cardano reward address, 29 bytes. -/
abbrev CardanoRewardAddressBytes : Type := BitVec 232

/-- A DUST public key of at most 33 bytes. -/
structure DustPublicKeyBytes where
  /-- The bytes of the key. -/
  bytes : List UInt8
  /-- `BoundedVec<u8, ConstU32<33>>`. -/
  length_le : bytes.length ≤ 33
deriving DecidableEq

/-- `<DustPublicKeyBytes>::try_from`. -/
def DustPublicKeyBytes.tryFrom (bytes : List UInt8) : Option DustPublicKeyBytes :=
  if h : bytes.length ≤ 33 then some ⟨bytes, h⟩ else none

/-! ### Positions -/

/-- A position on Cardano: the next transaction to process in a block. -/
structure CardanoPosition where
  /-- Hash of the last processed block. -/
  blockHash : McBlockHash
  /-- Number of the last processed block. -/
  blockNumber : ℕ
  /-- Timestamp of that block, in milliseconds since the Unix epoch. -/
  blockTimestamp : ℤ
  /-- The index of the next transaction to process in the block. -/
  txIndexInBlock : ℕ
deriving DecidableEq

namespace CardanoPosition

/-- The next transaction index of the same block. -/
def increment (p : CardanoPosition) : CardanoPosition :=
  { p with txIndexInBlock := p.txIndexInBlock + 1 }

/-- `PartialOrd for CardanoPosition`: the block number decides, then the transaction index. -/
def partialCmp (p q : CardanoPosition) : Ordering :=
  match compare p.blockNumber q.blockNumber with
  | .eq => compare p.txIndexInBlock q.txIndexInBlock
  | ord => ord

instance : LT CardanoPosition := ⟨fun p q => p.partialCmp q = .lt⟩

instance : LE CardanoPosition := ⟨fun p q => p.partialCmp q ≠ .gt⟩

instance (p q : CardanoPosition) : Decidable (p < q) :=
  inferInstanceAs (Decidable (p.partialCmp q = .lt))

instance (p q : CardanoPosition) : Decidable (p ≤ q) :=
  inferInstanceAs (Decidable (p.partialCmp q ≠ .gt))

/-- What two positions are compared by. -/
def key (p : CardanoPosition) : ℕ ×ₗ ℕ :=
  toLex (p.blockNumber, p.txIndexInBlock)

lemma partialCmp_eq (p q : CardanoPosition) : p.partialCmp q = compare p.key q.key := by
  rw [partialCmp, Prod.Lex.compare_def, compareLex, compareOn, compareOn]
  simp only [key, ofLex_toLex]
  cases compare p.blockNumber q.blockNumber <;> rfl

lemma lt_iff_key (p q : CardanoPosition) : p < q ↔ p.key < q.key := by
  rw [← compare_lt_iff_lt, ← partialCmp_eq]
  exact Iff.rfl

lemma le_iff_key (p q : CardanoPosition) : p ≤ q ↔ p.key ≤ q.key := by
  rw [← compare_le_iff_le, ← partialCmp_eq]
  exact Iff.rfl

/-- Nothing lies between a position and the next one. -/
lemma lt_key_increment (k : ℕ ×ₗ ℕ) (p : CardanoPosition) :
    k < p.increment.key ↔ k ≤ p.key := by
  simp only [key, increment, Prod.Lex.lt_iff, Prod.Lex.le_iff, ofLex_toLex]
  omega

lemma key_increment_le (k : ℕ ×ₗ ℕ) (p : CardanoPosition) :
    p.increment.key ≤ k ↔ p.key < k := by
  rw [← not_lt, lt_key_increment, not_le]

end CardanoPosition

/-! ### Observed UTXOs -/

/-- A registration of a DUST public key for a reward address. -/
structure RegistrationData where
  cardanoRewardAddress : CardanoRewardAddressBytes
  dustPublicKey : DustPublicKeyBytes
deriving DecidableEq

/-- The removal of such a registration. -/
structure DeregistrationData where
  cardanoRewardAddress : CardanoRewardAddressBytes
  dustPublicKey : DustPublicKeyBytes
deriving DecidableEq

/-- A new cNIGHT UTXO. -/
structure CreateData where
  value : BitVec 128
  owner : CardanoRewardAddressBytes
  utxoTxHash : McTxHash
  utxoTxIndex : BitVec 16
deriving DecidableEq

/-- A spent cNIGHT UTXO. -/
structure SpendData where
  value : BitVec 128
  owner : CardanoRewardAddressBytes
  utxoTxHash : McTxHash
  utxoTxIndex : BitVec 16
  spendingTxHash : McTxHash
deriving DecidableEq

/-- What was observed. -/
inductive ObservedUtxoData
  | registration (data : RegistrationData)
  | deregistration (data : DeregistrationData)
  | assetCreate (data : CreateData)
  | assetSpend (data : SpendData)
deriving DecidableEq

/-- Where it was observed, and which UTXO it is about. -/
structure ObservedUtxoHeader where
  /-- The position of the observed transaction. -/
  txPosition : CardanoPosition
  /-- The hash of the observed transaction. -/
  txHash : McTxHash
  /-- The hash of the transaction which created the UTXO. -/
  utxoTxHash : McTxHash
  /-- The index of the UTXO within the transaction which created it. -/
  utxoIndex : BitVec 16
deriving DecidableEq

/-- An observed UTXO. -/
structure ObservedUtxo where
  header : ObservedUtxoHeader
  data : ObservedUtxoData
deriving DecidableEq

/-- All UTXOs of a range of positions. -/
structure ObservedUtxos where
  /-- The first position of the range. -/
  start : CardanoPosition
  /-- The position to resume from. -/
  «end» : CardanoPosition
  /-- What was observed in between. -/
  utxos : List ObservedUtxo

namespace ObservedUtxoHeader

/-- The observed transaction created the UTXO. -/
def isCreate (h : ObservedUtxoHeader) : Bool :=
  h.txHash == h.utxoTxHash

/-- `PartialOrd for ObservedUtxoHeader`. -/
def partialCmp (h h' : ObservedUtxoHeader) : Ordering :=
  match h.txPosition.partialCmp h'.txPosition with
  | .eq =>
    if h.isCreate && !h'.isCreate then .lt
    else if !h.isCreate && h'.isCreate then .gt
    else
      match compare h.utxoTxHash.toNat h'.utxoTxHash.toNat with
      | .eq => compare h.utxoIndex.toNat h'.utxoIndex.toNat
      | ord => ord
  | ord => ord

/-- What two headers are compared by. -/
def sortKey (h : ObservedUtxoHeader) : (ℕ ×ₗ ℕ) ×ₗ Bool ×ₗ ℕ ×ₗ ℕ :=
  toLex (h.txPosition.key, toLex (!h.isCreate, toLex (h.utxoTxHash.toNat, h.utxoIndex.toNat)))

lemma partialCmp_eq (h h' : ObservedUtxoHeader) :
    h.partialCmp h' = compare h.sortKey h'.sortKey := by
  simp only [partialCmp, sortKey, Prod.Lex.compare_def, compareLex, compareOn, ofLex_toLex,
    ← CardanoPosition.partialCmp_eq]
  cases h.txPosition.partialCmp h'.txPosition with
  | lt => rfl
  | gt => rfl
  | eq =>
    cases h.isCreate <;> cases h'.isCreate <;>
      cases compare h.utxoTxHash.toNat h'.utxoTxHash.toNat <;> rfl

end ObservedUtxoHeader

namespace ObservedUtxo

/-- `Ord for ObservedUtxo`: headers are compared, the data is not. -/
def cmp (u v : ObservedUtxo) : Ordering :=
  u.header.partialCmp v.header

/-- The order `sort` puts observed UTXOs in. -/
def Le (u v : ObservedUtxo) : Prop :=
  u.cmp v ≠ .gt

instance : DecidableRel Le := fun u v => inferInstanceAs (Decidable (u.cmp v ≠ .gt))

/-- The position of the transaction a UTXO was observed in, as far as positions are
compared. -/
def posKey (u : ObservedUtxo) : ℕ ×ₗ ℕ :=
  u.header.txPosition.key

lemma le_iff_sortKey (u v : ObservedUtxo) : u.Le v ↔ u.header.sortKey ≤ v.header.sortKey := by
  rw [Le, cmp, ObservedUtxoHeader.partialCmp_eq, compare_le_iff_le]

instance : Std.Total Le := ⟨fun u v => by simpa only [le_iff_sortKey] using le_total _ _⟩

instance : IsTrans ObservedUtxo Le :=
  ⟨fun u v w huv hvw => by
    rw [le_iff_sortKey] at *
    exact le_trans huv hvw⟩

/-- The order of observed UTXOs refines that of their positions. -/
lemma posKey_le_of_le {u v : ObservedUtxo} (h : u.Le v) : u.posKey ≤ v.posKey := by
  rw [le_iff_sortKey, ObservedUtxoHeader.sortKey, ObservedUtxoHeader.sortKey,
    Prod.Lex.toLex_le_toLex] at h
  rcases h with hlt | ⟨heq, -⟩
  · exact hlt.le
  · exact heq.le

lemma le_of_posKey_lt {u v : ObservedUtxo} (h : u.posKey < v.posKey) : u.Le v := by
  rw [le_iff_sortKey, ObservedUtxoHeader.sortKey, ObservedUtxoHeader.sortKey,
    Prod.Lex.toLex_le_toLex]
  exact Or.inl h

end ObservedUtxo

end MidnightNode.Cnight
