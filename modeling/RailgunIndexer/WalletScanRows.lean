import RailgunIndexer.Store
import RailgunIndexer.Lib.SortByKey

/-!
# Reading rows for wallet scans

A wallet scans the rows of five tables: commitments of transactions that have a ciphertext, shields,
nullifiers, and the commitments of the two legacy events. One query per table returns the rows of a
range of blocks in the order of their logs. Another query groups the blocks of all five tables into
buckets and returns of each the first and the last block.
-/

namespace RailgunIndexer

open Lib

/-! ### Rows -/

/-- The source of a row. The column of the timestamp may be null. -/
structure StoredIndexedLogSourceRow where
  blockNumber : Nat
  blockTimestamp : Option Nat
  blockHash : Bytes32
  transactionHash : Bytes32
  logIndex : Nat
  deriving DecidableEq

structure StoredTransactCommitmentRow where
  source : StoredIndexedLogSourceRow
  treeNumber : Nat
  treePosition : Nat
  commitmentHash : Bytes32
  ciphertext : Bytes
  deriving DecidableEq

structure StoredShieldCommitmentRow where
  source : StoredIndexedLogSourceRow
  treeNumber : Nat
  treePosition : Nat
  commitmentHash : Bytes32
  preimage : Bytes
  shieldCiphertext : Bytes
  deriving DecidableEq

structure StoredNullifierRow where
  source : StoredIndexedLogSourceRow
  treeNumber : Nat
  nullifier : Bytes32
  deriving DecidableEq

structure StoredLegacyEncryptedCommitmentRow where
  source : StoredIndexedLogSourceRow
  treeNumber : Nat
  treePosition : Nat
  commitmentHash : Bytes32
  ciphertext : Bytes
  deriving DecidableEq

structure StoredLegacyGeneratedCommitmentRow where
  source : StoredIndexedLogSourceRow
  treeNumber : Nat
  treePosition : Nat
  commitmentHash : Bytes32
  preimage : Bytes
  encryptedRandom : U256 × U256
  deriving DecidableEq

structure StoredWalletScanRows where
  transactCommitments : List StoredTransactCommitmentRow := []
  shieldCommitments : List StoredShieldCommitmentRow := []
  nullifiers : List StoredNullifierRow := []
  legacyEncryptedCommitments : List StoredLegacyEncryptedCommitmentRow := []
  legacyGeneratedCommitments : List StoredLegacyGeneratedCommitmentRow := []
  deriving DecidableEq

def StoredWalletScanRows.isEmpty (rows : StoredWalletScanRows) : Bool :=
  rows.transactCommitments.isEmpty && rows.shieldCommitments.isEmpty && rows.nullifiers.isEmpty
    && rows.legacyEncryptedCommitments.isEmpty && rows.legacyGeneratedCommitments.isEmpty

/-! ### One table -/

/-- How the rows of a table are scanned: which rows, and what is read from a row. A row is an entry
with the key of the table. -/
structure ScanTable (κ π ρ : Type) [LinearOrder κ] where
  table : IndexedTables → OrdMap κ (IndexedRow π)
  scannable : π → Bool
  treeNumber : κ → Nat
  row : κ → StoredIndexedLogSourceRow → π → ρ

def indexedSourceRow (source : SourceColumns) : StoredIndexedLogSourceRow :=
  ⟨source.blockNumber, some source.blockTimestamp, source.blockHash, source.transactionHash,
    source.logIndex⟩

section Scan

variable {κ π ρ : Type} [LinearOrder κ] (scan : ScanTable κ π ρ) (startBlock endBlock : Nat)

def ScanTable.stored (entry : κ × IndexedRow π) : ρ :=
  scan.row entry.1 (indexedSourceRow entry.2.source) entry.2.columns

def ScanTable.selects (entry : κ × IndexedRow π) : Bool :=
  scan.scannable entry.2.columns
    && startBlock ≤ entry.2.source.blockNumber && entry.2.source.blockNumber ≤ endBlock

def ScanTable.read (entry : κ × IndexedRow π) : Except StoreError ρ :=
  if u32Bound ≤ scan.treeNumber entry.1 then
    .error (.integerOutOfRange "tree_number" (scan.treeNumber entry.1))
  else
    .ok (scan.stored entry)

/-- Rows are ordered by block, log and primary key. -/
def logOrder (entry : κ × IndexedRow π) : Nat ×ₗ Nat ×ₗ κ :=
  toLex (entry.2.source.blockNumber, toLex (entry.2.source.logIndex, entry.1))

def ScanTable.rows (tables : IndexedTables) : Except StoreError (List ρ) :=
  (sortByKey logOrder ((scan.table tables).entries.filter (scan.selects startBlock endBlock))).mapM
    scan.read

def ScanTable.blocks (tables : IndexedTables) : List Nat :=
  ((scan.table tables).entries.filter (scan.selects startBlock endBlock)).map fun entry =>
    entry.2.source.blockNumber

end Scan

/-! ### The five tables -/

def transactScan : ScanTable TreeKey TransactColumns StoredTransactCommitmentRow where
  table tables := tables.transactCommitments
  scannable columns := columns.ciphertext.isSome
  treeNumber key := (ofLex key).1
  row key source columns :=
    ⟨source, (ofLex key).1, (ofLex key).2, columns.commitmentHash, columns.ciphertext.getD []⟩

def shieldScan : ScanTable TreeKey ShieldColumns StoredShieldCommitmentRow where
  table tables := tables.shieldCommitments
  scannable _ := true
  treeNumber key := (ofLex key).1
  row key source columns :=
    ⟨source, (ofLex key).1, (ofLex key).2, columns.commitmentHash, columns.preimage,
      columns.shieldCiphertext⟩

def nullifierScan : ScanTable (Nat ×ₗ Bytes32) Unit StoredNullifierRow where
  table tables := tables.nullifiers
  scannable _ := true
  treeNumber key := (ofLex key).1
  row key source _ := ⟨source, (ofLex key).1, (ofLex key).2⟩

def legacyEncryptedScan :
    ScanTable TreeKey LegacyEncryptedColumns StoredLegacyEncryptedCommitmentRow where
  table tables := tables.legacyEncryptedCommitments
  scannable _ := true
  treeNumber key := (ofLex key).1
  row key source columns :=
    ⟨source, (ofLex key).1, (ofLex key).2, columns.commitmentHash, columns.ciphertext⟩

def legacyGeneratedScan :
    ScanTable TreeKey LegacyGeneratedColumns StoredLegacyGeneratedCommitmentRow where
  table tables := tables.legacyGeneratedCommitments
  scannable _ := true
  treeNumber key := (ofLex key).1
  row key source columns :=
    ⟨source, (ofLex key).1, (ofLex key).2, columns.commitmentHash, columns.preimage,
      columns.encryptedRandom⟩

def walletScanRows (key : ContractKey) (startBlock endBlock : Nat) (store : Store) :
    Except StoreError StoredWalletScanRows := do
  let _ ← u64ToI64 key.chainId "chain_id"
  let startBlock ← u64ToI64 startBlock "start_block"
  let endBlock ← u64ToI64 endBlock "end_block"
  let transactCommitments ← transactScan.rows startBlock endBlock (store.indexed key)
  let shieldCommitments ← shieldScan.rows startBlock endBlock (store.indexed key)
  let nullifiers ← nullifierScan.rows startBlock endBlock (store.indexed key)
  let legacyEncryptedCommitments ← legacyEncryptedScan.rows startBlock endBlock (store.indexed key)
  let legacyGeneratedCommitments ← legacyGeneratedScan.rows startBlock endBlock (store.indexed key)
  pure
    { transactCommitments
      shieldCommitments
      nullifiers
      legacyEncryptedCommitments
      legacyGeneratedCommitments }

/-! ### Populated ranges -/

structure StoredBlockRange where
  startBlock : Nat
  endBlock : Nat
  deriving DecidableEq

def walletScanBlocks (startBlock endBlock : Nat) (tables : IndexedTables) : List Nat :=
  transactScan.blocks startBlock endBlock tables ++ shieldScan.blocks startBlock endBlock tables
    ++ nullifierScan.blocks startBlock endBlock tables
    ++ legacyEncryptedScan.blocks startBlock endBlock tables
    ++ legacyGeneratedScan.blocks startBlock endBlock tables

def blockBucket (startBlock bucketSpan block : Nat) : Nat := (block - startBlock) / bucketSpan

/-- The first and the last block of a bucket, which has a block. -/
def bucketRange (startBlock bucketSpan : Nat) (blocks : List Nat) (bucket : Nat) : StoredBlockRange :=
  let group := blocks.filter fun block => blockBucket startBlock bucketSpan block == bucket
  ⟨group.min?.getD 0, group.max?.getD 0⟩

def walletScanPopulatedBlockRanges (key : ContractKey) (startBlock endBlock bucketSpan : Nat)
    (store : Store) : Except StoreError (List StoredBlockRange) :=
  if endBlock < startBlock then .ok []
  else if bucketSpan = 0 then .error (.integerOutOfRange "bucket_span" bucketSpan)
  else do
    let _ ← u64ToI64 key.chainId "chain_id"
    let startBlock ← u64ToI64 startBlock "start_block"
    let endBlock ← u64ToI64 endBlock "end_block"
    let bucketSpan ← u64ToI64 bucketSpan "bucket_span"
    let blocks := walletScanBlocks startBlock endBlock (store.indexed key)
    pure (sortByKey StoredBlockRange.startBlock
      ((blocks.map (blockBucket startBlock bucketSpan)).dedup.map
        (bucketRange startBlock bucketSpan blocks)))

end RailgunIndexer
