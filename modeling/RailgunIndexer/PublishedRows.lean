import RailgunIndexer.Config
import RailgunIndexer.PublicTxid
import RailgunIndexer.Lib.SortByKey

/-!
# Reading rows for publication

Public TXID rows have no stored index. A query numbers the rows of a contract up to a block, without
the omitted ones, in the order of block, first log, outer transaction and inner index, and returns a
page of them.
-/

namespace RailgunIndexer

open Lib

/-- A row of the public TXID table with its primary key, the outer transaction and the inner index. -/
abbrev PublicTxidEntry := (Bytes32 ×ₗ Nat) × PublicTxidRow

def PublicTxidCompatibilityOmission.omits (omission : PublicTxidCompatibilityOmission)
    (entry : PublicTxidEntry) : Bool :=
  omission.blockNumber.toNat == entry.2.blockNumber
    && omission.transactionHash == (ofLex entry.1).1
    && omission.railgunTransactionIndex.toNat == (ofLex entry.1).2

def publicTxidOrder (entry : PublicTxidEntry) : Nat ×ₗ Nat ×ₗ Bytes32 ×ₗ Nat :=
  toLex (entry.2.blockNumber, toLex (entry.2.firstLogIndex, entry.1))

def isPublished (maxBlock : Option Nat) (omissions : List PublicTxidCompatibilityOmission)
    (entry : PublicTxidEntry) : Bool :=
  maxBlock.all (fun block => entry.2.blockNumber ≤ block)
    && !(omissions.any fun omission => omission.omits entry)

/-- The columns of a numbered row. An unshield with an empty preimage is read as one without. -/
def readPublicTxidRow (txidIndex : Nat) (entry : PublicTxidEntry) : StoredPublicTxidRow :=
  let unshieldData := if entry.2.hasUnshield then some (entry.2.unshieldPreimage.getD []) else none
  { txidIndex
    id := entry.2.rowId
    blockNumber := entry.2.blockNumber
    blockTimestamp := entry.2.blockTimestamp
    blockHash := entry.2.blockHash
    transactionHash := (ofLex entry.1).1
    firstLogIndex := entry.2.firstLogIndex
    lastLogIndex := entry.2.lastLogIndex
    nullifiers := entry.2.nullifiers
    commitments := entry.2.commitments
    boundParamsHash := entry.2.boundParamsHash
    hasUnshield := unshieldData.isSome
    unshieldPreimage := unshieldData.filter fun bytes => !bytes.isEmpty
    utxoTreeIn := entry.2.utxoTreeIn
    utxoTreeOut := entry.2.utxoTreeOut
    utxoBatchStartPositionOut := entry.2.utxoBatchStartPositionOut }

def numberedPublicTxidRows (maxBlock : Option Nat) (omissions : List PublicTxidCompatibilityOmission)
    (tables : IndexedTables) : List StoredPublicTxidRow :=
  (sortByKey publicTxidOrder
    (tables.publicTxidRows.entries.filter (isPublished maxBlock omissions))).mapIdx readPublicTxidRow

def publicTxidRowsWithMaxBlockAndOmissions (key : ContractKey) (offset limit : Nat)
    (maxBlock : Option Nat) (omissions : List PublicTxidCompatibilityOmission) (store : Store) :
    Except StoreError (List StoredPublicTxidRow) := do
  let _ ← u64ToI64 key.chainId "chain_id"
  let offset ← u64ToI64 offset "offset"
  let limit ← u64ToI64 limit "limit"
  let maxBlock ← maxBlock.mapM fun block => u64ToI64 block "max_block"
  let _ ← omissions.mapM fun omission =>
    u64ToI64 omission.blockNumber.toNat "omission_block_number"
  let _ ← omissions.mapM fun omission =>
    u64ToI64 omission.railgunTransactionIndex.toNat "omission_railgun_transaction_index"
  pure (((numberedPublicTxidRows maxBlock omissions (store.indexed key)).filter fun row =>
    offset ≤ row.txidIndex).take limit)

def publishedPublicTxidRowsThroughBlock (key : ContractKey) (offset limit maxBlock : Nat)
    (omissions : List PublicTxidCompatibilityOmission) (store : Store) :
    Except StoreError (List StoredPublicTxidRow) :=
  publicTxidRowsWithMaxBlockAndOmissions key offset limit (some maxBlock) omissions store

def publicTxidCompatibilityOmissionMatchCount (key : ContractKey)
    (omission : PublicTxidCompatibilityOmission) (store : Store) : Except StoreError Nat := do
  let _ ← u64ToI64 key.chainId "chain_id"
  let _ ← u64ToI64 omission.blockNumber.toNat "omission_block_number"
  let _ ← u64ToI64 omission.railgunTransactionIndex.toNat "omission_railgun_transaction_index"
  pure ((store.indexed key).publicTxidRows.entries.countP omission.omits)

end RailgunIndexer
