import RailgunIndexer.Types
import RailgunIndexer.Lib.OrdMap
import Mathlib.Data.Prod.Lex
import Mathlib.Logic.Function.Basic

/-!
# The store of indexed rows

The tables the chain indexer writes, each a map from its primary key within a contract or a chain to
its other columns, and the statements the indexer runs on them: upserts of a batch of logs, of a block
header and of a contract's progress, and the rewind that drops everything from a block on. Chain types
are left out: a check on every table admits one only.
-/

namespace RailgunIndexer

open Lib

inductive StoreError where
  | integerOutOfRange (field : String) (value : Nat)
  | globalTreePositionOutOfRange (treeNumber treePosition : Nat)
  | commitmentTreePositionOutOfRange (treeNumber actual leafCount : Nat)
  | duplicateCommitmentTreePosition (treeNumber position : Nat)
  | missingBlockTimestamp (blockNumber : Nat) (blockHash : Bytes32)
  | eventIndexOutOfRange (startIndex offset : Nat)
  | hex (field : String)
  | hexLength (field : String) (expected actual : Nat)
  | rowNotFound
  | poiEventConflict (chainId eventIndex : Nat)
  | incompletePoiEvent (chainId eventIndex : Nat)
  | chainTipRegression (listKey : Bytes32) (chainId : Nat) (upstreamUrl : String) (proposed : Nat)
  | uniqueViolation
  | checkViolation
  deriving DecidableEq

def u64ToI64 (value : Nat) (field : String) : Except StoreError Nat :=
  if i64Bound ≤ value then .error (.integerOutOfRange field value) else .ok value

/-! ### Tables -/

structure ContractKey where
  chainId : Nat
  railgunContract : Address
  deriving DecidableEq

abbrev TreeKey := Nat ×ₗ Nat

structure SourceColumns where
  blockNumber : Nat
  blockTimestamp : Nat
  blockHash : Bytes32
  transactionHash : Bytes32
  logIndex : Nat
  deriving DecidableEq

/-- A row made from one log: its source and its own columns. -/
structure IndexedRow (π : Type) where
  source : SourceColumns
  columns : π
  deriving DecidableEq

structure TransactColumns where
  commitmentHash : Bytes32
  ciphertext : Option Bytes
  deriving DecidableEq

structure ShieldColumns where
  commitmentHash : Bytes32
  preimage : Bytes
  shieldCiphertext : Bytes
  deriving DecidableEq

structure LegacyEncryptedColumns where
  commitmentHash : Bytes32
  ciphertext : Bytes
  deriving DecidableEq

structure LegacyGeneratedColumns where
  commitmentHash : Bytes32
  preimage : Bytes
  encryptedRandom : U256 × U256
  deriving DecidableEq

structure PublicTransactionRow where
  blockNumber : Nat
  blockTimestamp : Nat
  blockHash : Bytes32
  firstLogIndex : Nat
  lastLogIndex : Nat
  deriving DecidableEq

structure PublicTxidRow where
  blockNumber : Nat
  blockTimestamp : Nat
  blockHash : Bytes32
  firstLogIndex : Nat
  lastLogIndex : Nat
  rowId : String
  nullifiers : List Bytes32
  commitments : List Bytes32
  boundParamsHash : Bytes32
  hasUnshield : Bool
  unshieldPreimage : Option Bytes
  utxoTreeIn : Nat
  utxoTreeOut : Nat
  utxoBatchStartPositionOut : Nat
  deriving DecidableEq

abbrev PublicTransactions := OrdMap Bytes32 PublicTransactionRow

structure IndexedTables where
  transactCommitments : OrdMap TreeKey (IndexedRow TransactColumns) := OrdMap.empty
  shieldCommitments : OrdMap TreeKey (IndexedRow ShieldColumns) := OrdMap.empty
  nullifiers : OrdMap (Nat ×ₗ Bytes32) (IndexedRow Unit) := OrdMap.empty
  legacyEncryptedCommitments : OrdMap TreeKey (IndexedRow LegacyEncryptedColumns) := OrdMap.empty
  legacyGeneratedCommitments : OrdMap TreeKey (IndexedRow LegacyGeneratedColumns) := OrdMap.empty
  publicTransactions : PublicTransactions := OrdMap.empty
  publicTxidRows : OrdMap (Bytes32 ×ₗ Nat) PublicTxidRow := OrdMap.empty

inductive DatasetKind where
  | walletScan
  | commitments
  | merkleCheckpoint
  | publicTxid
  deriving DecidableEq

def DatasetKind.all : List DatasetKind := [.walletScan, .commitments, .merkleCheckpoint, .publicTxid]

structure ChainIndexingProgress where
  indexedThroughBlock : Nat
  indexedThroughBlockHash : Bytes32
  deriving DecidableEq

structure HeaderRow where
  blockHash : Bytes32
  parentHash : Bytes32
  deriving DecidableEq

structure Store where
  indexed : ContractKey → IndexedTables := fun _ => {}
  headers : Nat → OrdMap Nat HeaderRow := fun _ => OrdMap.empty
  progress : ContractKey → DatasetKind → Option ChainIndexingProgress := fun _ _ => none

/-! ### Persisting a batch -/

def sourceBlockTimestamp (source : IndexedLogSource) : Except StoreError Nat :=
  match source.blockTimestamp with
  | none => .error (.missingBlockTimestamp source.blockNumber source.blockHash)
  | some timestamp => u64ToI64 timestamp "block_timestamp"

def sourceColumns (source : IndexedLogSource) : Except StoreError SourceColumns := do
  let blockNumber ← u64ToI64 source.blockNumber "block_number"
  let blockTimestamp ← sourceBlockTimestamp source
  let logIndex ← u64ToI64 source.logIndex "log_index"
  pure ⟨blockNumber, blockTimestamp, source.blockHash, source.transactionHash, logIndex⟩

def sourceRow (columns : SourceColumns) : PublicTransactionRow where
  blockNumber := columns.blockNumber
  blockTimestamp := columns.blockTimestamp
  blockHash := columns.blockHash
  firstLogIndex := columns.logIndex
  lastLogIndex := columns.logIndex

/-- What a further log of a known outer transaction leaves of its row. -/
def mergeSourceRow (found new : PublicTransactionRow) : PublicTransactionRow where
  blockNumber := min found.blockNumber new.blockNumber
  blockTimestamp := new.blockTimestamp
  blockHash := new.blockHash
  firstLogIndex := min found.firstLogIndex new.firstLogIndex
  lastLogIndex := max found.lastLogIndex new.lastLogIndex

def recordSourceTransaction (table : PublicTransactions) (columns : SourceColumns) :
    PublicTransactions :=
  table.upsert columns.transactionHash fun
    | none => sourceRow columns
    | some found => mergeSourceRow found (sourceRow columns)

/-- The loop over one family of items: each enters its outer transaction and then its own row. -/
def persistItems {ω κ π : Type} [LinearOrder κ] (source : ω → IndexedLogSource)
    (key : ω → Except StoreError κ) (columns : ω → π) (items : List ω)
    (publicTransactions : PublicTransactions) (table : OrdMap κ (IndexedRow π)) :
    Except StoreError (PublicTransactions × OrdMap κ (IndexedRow π)) :=
  items.foldlM (fun (publicTransactions, table) item => do
    let sourceColumns ← sourceColumns (source item)
    let publicTransactions := recordSourceTransaction publicTransactions sourceColumns
    let key ← key item
    pure (publicTransactions, table.insert key ⟨sourceColumns, columns item⟩))
    (publicTransactions, table)

def treeKey (treeNumber treePosition : Nat) : Except StoreError TreeKey := do
  let treePosition ← u64ToI64 treePosition "tree_position"
  pure (toLex (treeNumber, treePosition))

def persistTransactCommitments : List IndexedTransactCommitment → PublicTransactions →
    OrdMap TreeKey (IndexedRow TransactColumns) →
      Except StoreError (PublicTransactions × OrdMap TreeKey (IndexedRow TransactColumns)) :=
  persistItems (fun item => item.source) (fun item => treeKey item.treeNumber item.treePosition)
    fun item => ⟨item.hash, item.ciphertext⟩

def persistShieldCommitments (contracts : Contracts) : List IndexedShieldCommitment →
    PublicTransactions → OrdMap TreeKey (IndexedRow ShieldColumns) →
      Except StoreError (PublicTransactions × OrdMap TreeKey (IndexedRow ShieldColumns)) :=
  persistItems (fun item => item.source) (fun item => treeKey item.treeNumber item.treePosition)
    fun item => ⟨contracts.preimageHash item.preimage, contracts.encodePreimage item.preimage,
      item.shieldCiphertext⟩

def persistNullifiers : List IndexedNullifier → PublicTransactions →
    OrdMap (Nat ×ₗ Bytes32) (IndexedRow Unit) →
      Except StoreError (PublicTransactions × OrdMap (Nat ×ₗ Bytes32) (IndexedRow Unit)) :=
  persistItems (fun item => item.source)
    (fun item => .ok (toLex (item.treeNumber, item.nullifier))) fun _ => ()

def persistLegacyEncryptedCommitments : List IndexedLegacyEncryptedCommitment →
    PublicTransactions → OrdMap TreeKey (IndexedRow LegacyEncryptedColumns) →
      Except StoreError (PublicTransactions × OrdMap TreeKey (IndexedRow LegacyEncryptedColumns)) :=
  persistItems (fun item => item.source) (fun item => treeKey item.treeNumber item.treePosition)
    fun item => ⟨item.hash, item.ciphertext⟩

def persistLegacyGeneratedCommitments (contracts : Contracts) :
    List IndexedLegacyGeneratedCommitment → PublicTransactions →
      OrdMap TreeKey (IndexedRow LegacyGeneratedColumns) →
        Except StoreError (PublicTransactions × OrdMap TreeKey (IndexedRow LegacyGeneratedColumns)) :=
  persistItems (fun item => item.source) (fun item => treeKey item.treeNumber item.treePosition)
    fun item => ⟨contracts.legacyPreimageHash item.preimage, item.preimage.abi,
      item.encryptedRandom⟩

/-- The key and the columns of a public TXID row. An unshield preimage needs an unshield. -/
def publicTxidEntry (item : IndexedPublicTransaction) :
    Except StoreError ((Bytes32 ×ₗ Nat) × PublicTxidRow) := do
  let blockNumber ← u64ToI64 item.source.blockNumber "block_number"
  let blockTimestamp ← u64ToI64 item.blockTimestamp "block_timestamp"
  let firstLogIndex ← u64ToI64 item.firstLogIndex "first_log_index"
  let lastLogIndex ← u64ToI64 item.lastLogIndex "last_log_index"
  let railgunTransactionIndex ← u64ToI64 item.railgunTransactionIndex "railgun_transaction_index"
  let utxoTreeIn ← u64ToI64 item.utxoTreeIn "utxo_tree_in"
  let utxoTreeOut ← u64ToI64 item.utxoTreeOut "utxo_tree_out"
  let utxoBatchStartPositionOut ← u64ToI64 item.utxoBatchStartPositionOut
    "utxo_batch_start_position_out"
  if item.hasUnshield || item.unshieldPreimage.isNone then
    pure (toLex (item.source.transactionHash, railgunTransactionIndex),
      { blockNumber
        blockTimestamp
        blockHash := item.source.blockHash
        firstLogIndex
        lastLogIndex
        rowId := item.id
        nullifiers := item.nullifiers
        commitments := item.commitments
        boundParamsHash := item.boundParamsHash
        hasUnshield := item.hasUnshield
        unshieldPreimage := item.unshieldPreimage
        utxoTreeIn
        utxoTreeOut
        utxoBatchStartPositionOut })
  else
    .error .checkViolation

def persistPublicTransactions (items : List IndexedPublicTransaction)
    (table : OrdMap (Bytes32 ×ₗ Nat) PublicTxidRow) :
    Except StoreError (OrdMap (Bytes32 ×ₗ Nat) PublicTxidRow) :=
  items.foldlM (fun table item => do
    let (key, row) ← publicTxidEntry item
    pure (table.insert key row)) table

def persistTables (contracts : Contracts) (batch : IndexedLogBatch) (tables : IndexedTables) :
    Except StoreError IndexedTables := do
  let (publicTransactions, transactCommitments) ← persistTransactCommitments
    batch.transactCommitments tables.publicTransactions tables.transactCommitments
  let (publicTransactions, shieldCommitments) ← persistShieldCommitments contracts
    batch.shieldCommitments publicTransactions tables.shieldCommitments
  let (publicTransactions, nullifiers) ← persistNullifiers batch.nullifiers publicTransactions
    tables.nullifiers
  let (publicTransactions, legacyEncryptedCommitments) ← persistLegacyEncryptedCommitments
    batch.legacyEncryptedCommitments publicTransactions tables.legacyEncryptedCommitments
  let (publicTransactions, legacyGeneratedCommitments) ← persistLegacyGeneratedCommitments
    contracts batch.legacyGeneratedCommitments publicTransactions tables.legacyGeneratedCommitments
  let publicTxidRows ← persistPublicTransactions batch.publicTransactions tables.publicTxidRows
  pure
    { transactCommitments
      shieldCommitments
      nullifiers
      legacyEncryptedCommitments
      legacyGeneratedCommitments
      publicTransactions
      publicTxidRows }

def persistIndexedLogBatch (contracts : Contracts) (key : ContractKey) (batch : IndexedLogBatch)
    (store : Store) : Except StoreError Store := do
  let _ ← u64ToI64 key.chainId "chain_id"
  let tables ← persistTables contracts batch (store.indexed key)
  pure { store with indexed := Function.update store.indexed key tables }

/-! ### Headers and progress -/

/-- Upsert by block number. Within a chain a block hash is stored once. -/
def recordIndexedBlockHeader (chainId blockNumber : Nat) (header : HeaderRow) (store : Store) :
    Except StoreError Store := do
  let _ ← u64ToI64 chainId "chain_id"
  let blockNumber ← u64ToI64 blockNumber "block_number"
  if (store.headers chainId).entries.any fun (number, found) =>
      number != blockNumber && found.blockHash == header.blockHash then
    .error .uniqueViolation
  else
    pure { store with
      headers := Function.update store.headers chainId
        ((store.headers chainId).insert blockNumber header) }

/-- Progress never moves back. -/
def advanceProgress (new : ChainIndexingProgress) :
    Option ChainIndexingProgress → ChainIndexingProgress
  | some found => if found.indexedThroughBlock ≤ new.indexedThroughBlock then new else found
  | none => new

def recordChainIndexingProgress (key : ContractKey) (kind : DatasetKind)
    (new : ChainIndexingProgress) (store : Store) : Except StoreError Store := do
  let _ ← u64ToI64 key.chainId "chain_id"
  let _ ← u64ToI64 new.indexedThroughBlock "indexed_through_block"
  pure { store with
    progress := Function.update store.progress key (Function.update (store.progress key) kind
      (some (advanceProgress new (store.progress key kind)))) }

def chainIndexingProgress (key : ContractKey) (kind : DatasetKind) (store : Store) :
    Except StoreError (Option ChainIndexingProgress) := do
  let _ ← u64ToI64 key.chainId "chain_id"
  pure (store.progress key kind)

/-! ### Rewinding -/

structure ChainIndexingRewind where
  deletedIndexedRows : Nat
  deletedPublicTransactions : Nat
  deletedBlockHeaders : Nat
  rewoundProgressRows : Nat
  deletedProgressRows : Nat
  deriving DecidableEq

def deleteFrom {κ ν : Type} [LinearOrder κ] (blockNumber : ν → Nat) (replayFromBlock : Nat)
    (table : OrdMap κ ν) : OrdMap κ ν :=
  table.filter fun _ row => blockNumber row < replayFromBlock

def countFrom {κ ν : Type} [LinearOrder κ] (blockNumber : ν → Nat) (replayFromBlock : Nat)
    (table : OrdMap κ ν) : Nat :=
  table.entries.countP fun entry => replayFromBlock ≤ blockNumber entry.2

def IndexedRow.blockNumber {π : Type} (row : IndexedRow π) : Nat := row.source.blockNumber

def IndexedTables.deleteFrom (replayFromBlock : Nat) (tables : IndexedTables) : IndexedTables where
  transactCommitments :=
    RailgunIndexer.deleteFrom IndexedRow.blockNumber replayFromBlock tables.transactCommitments
  shieldCommitments :=
    RailgunIndexer.deleteFrom IndexedRow.blockNumber replayFromBlock tables.shieldCommitments
  nullifiers := RailgunIndexer.deleteFrom IndexedRow.blockNumber replayFromBlock tables.nullifiers
  legacyEncryptedCommitments := RailgunIndexer.deleteFrom IndexedRow.blockNumber replayFromBlock
    tables.legacyEncryptedCommitments
  legacyGeneratedCommitments := RailgunIndexer.deleteFrom IndexedRow.blockNumber replayFromBlock
    tables.legacyGeneratedCommitments
  publicTransactions := RailgunIndexer.deleteFrom PublicTransactionRow.blockNumber replayFromBlock
    tables.publicTransactions
  publicTxidRows := RailgunIndexer.deleteFrom PublicTxidRow.blockNumber replayFromBlock
    tables.publicTxidRows

def IndexedTables.countIndexedFrom (replayFromBlock : Nat) (tables : IndexedTables) : Nat :=
  countFrom IndexedRow.blockNumber replayFromBlock tables.transactCommitments
    + countFrom IndexedRow.blockNumber replayFromBlock tables.shieldCommitments
    + countFrom IndexedRow.blockNumber replayFromBlock tables.nullifiers
    + countFrom IndexedRow.blockNumber replayFromBlock tables.legacyEncryptedCommitments
    + countFrom IndexedRow.blockNumber replayFromBlock tables.legacyGeneratedCommitments

def IndexedTables.countPublicFrom (replayFromBlock : Nat) (tables : IndexedTables) : Nat :=
  countFrom PublicTransactionRow.blockNumber replayFromBlock tables.publicTransactions
    + countFrom PublicTxidRow.blockNumber replayFromBlock tables.publicTxidRows

/-- The progress a rewind falls back to: the block before, when its header is known. -/
def previousProgress (headers : OrdMap Nat HeaderRow) (replayFromBlock : Nat) :
    Option ChainIndexingProgress :=
  if replayFromBlock = 0 then none
  else (headers.get? (replayFromBlock - 1)).map fun header =>
    ⟨replayFromBlock - 1, header.blockHash⟩

/-- What becomes of a progress row that reaches the replayed blocks. -/
def rewindProgress (replayFromBlock : Nat) (previous : Option ChainIndexingProgress) :
    Option ChainIndexingProgress → Option ChainIndexingProgress
  | some found => if replayFromBlock ≤ found.indexedThroughBlock then previous else some found
  | none => none

/-- Drop everything a contract has from a block on, the chain's headers included. -/
def rewindChainIndexingToReplayBlock (key : ContractKey) (replayFromBlock : Nat) (store : Store) :
    Except StoreError (Store × ChainIndexingRewind) := do
  let _ ← u64ToI64 key.chainId "chain_id"
  let replayFromBlock ← u64ToI64 replayFromBlock "replay_from_block"
  let headers := store.headers key.chainId
  let previous := previousProgress headers replayFromBlock
  let reached := DatasetKind.all.countP fun kind =>
    (store.progress key kind).any fun found => replayFromBlock ≤ found.indexedThroughBlock
  pure (
    { indexed := Function.update store.indexed key
        ((store.indexed key).deleteFrom replayFromBlock)
      headers := Function.update store.headers key.chainId
        (headers.filter fun number _ => number < replayFromBlock)
      progress := Function.update store.progress key fun kind =>
        rewindProgress replayFromBlock previous (store.progress key kind) },
    { deletedIndexedRows := (store.indexed key).countIndexedFrom replayFromBlock
      deletedPublicTransactions := (store.indexed key).countPublicFrom replayFromBlock
      deletedBlockHeaders := headers.entries.countP fun entry => replayFromBlock ≤ entry.1
      rewoundProgressRows := if previous.isSome then reached else 0
      deletedProgressRows := if previous.isSome then 0 else reached })

end RailgunIndexer
