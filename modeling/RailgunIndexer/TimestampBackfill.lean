import RailgunIndexer.Store
import RailgunIndexer.Lib.Agreement

/-!
# Backfilling block timestamps from local rows

Rows written before timestamps were stored have a null timestamp. A backfill looks in seven tables of
the contract for timestamps of the same block and fills the five tables a wallet scans, one `UPDATE`
after the other. Each `UPDATE` collects its sources anew, those filled before it included. Of the two
tables it only reads, the columns it reads are kept.
-/

namespace RailgunIndexer

open Lib Lib.Agreement

/-! ### Rows and tables -/

abbrev BlockKey := Nat × Bytes32

structure StampedRow (π : Type) where
  blockNumber : Nat
  blockHash : Bytes32
  blockTimestamp : Option Nat
  columns : π
  deriving DecidableEq

def StampedRow.blockKey {π : Type} (row : StampedRow π) : BlockKey := (row.blockNumber, row.blockHash)

/-- The columns of a row made from one log: its place in the chain and its own columns. -/
structure LogColumns (π : Type) where
  transactionHash : Bytes32
  logIndex : Nat
  own : π
  deriving DecidableEq

structure StampedTables where
  transactCommitments : OrdMap TreeKey (StampedRow (LogColumns TransactColumns)) := OrdMap.empty
  shieldCommitments : OrdMap TreeKey (StampedRow (LogColumns ShieldColumns)) := OrdMap.empty
  nullifiers : OrdMap (Nat ×ₗ Bytes32) (StampedRow (LogColumns Unit)) := OrdMap.empty
  legacyEncryptedCommitments : OrdMap TreeKey (StampedRow (LogColumns LegacyEncryptedColumns)) :=
    OrdMap.empty
  legacyGeneratedCommitments : OrdMap TreeKey (StampedRow (LogColumns LegacyGeneratedColumns)) :=
    OrdMap.empty
  publicTransactions : OrdMap Bytes32 (StampedRow Unit) := OrdMap.empty
  publicTxidRows : OrdMap (Bytes32 ×ₗ Nat) (StampedRow Unit) := OrdMap.empty

/-! ### Sources -/

section Sources

variable {κ π : Type} [LinearOrder κ] (startBlock endBlock : Nat)

def StampedRow.within (row : StampedRow π) : Bool :=
  startBlock ≤ row.blockNumber && row.blockNumber ≤ endBlock

def StampedRow.source (row : StampedRow π) : BlockKey × Option Nat :=
  (row.blockKey, row.blockTimestamp)

def selectSources (table : OrdMap κ (StampedRow π)) : List (BlockKey × Option Nat) :=
  (table.values.filter fun row => row.within startBlock endBlock).map StampedRow.source

def selectStampedSources (table : OrdMap κ (StampedRow π)) : List (BlockKey × Option Nat) :=
  (table.values.filter fun row =>
    row.blockTimestamp.isSome && row.within startBlock endBlock).map StampedRow.source

/-- The union of the seven tables. Public TXID rows are not tested for a timestamp. -/
def timestampSourceRows (tables : StampedTables) : List (BlockKey × Option Nat) :=
  selectSources startBlock endBlock tables.publicTxidRows
    ++ selectStampedSources startBlock endBlock tables.publicTransactions
    ++ selectStampedSources startBlock endBlock tables.transactCommitments
    ++ selectStampedSources startBlock endBlock tables.shieldCommitments
    ++ selectStampedSources startBlock endBlock tables.nullifiers
    ++ selectStampedSources startBlock endBlock tables.legacyEncryptedCommitments
    ++ selectStampedSources startBlock endBlock tables.legacyGeneratedCommitments

/-- The timestamp of a block whose least and greatest source agree. -/
def timestampSources (tables : StampedTables) : BlockKey → Option Nat :=
  agreed? (timestampSourceRows startBlock endBlock tables)

end Sources

/-! ### Updates -/

section Update

variable {κ π : Type} [LinearOrder κ] (sources : BlockKey → Option Nat) (eligible : π → Bool)

/-- The row is matched by an `UPDATE`: its timestamp is null and its block has a source. -/
def StampedRow.updated (row : StampedRow π) : Bool :=
  row.blockTimestamp.isNone && eligible row.columns && (sources row.blockKey).isSome

def StampedRow.setTimestamp (row : StampedRow π) : StampedRow π :=
  if row.updated sources eligible then { row with blockTimestamp := sources row.blockKey } else row

def updateTable (table : OrdMap κ (StampedRow π)) : OrdMap κ (StampedRow π) :=
  table.mapValues (StampedRow.setTimestamp sources eligible)

def rowsAffected (table : OrdMap κ (StampedRow π)) : Nat :=
  table.values.countP (StampedRow.updated sources eligible)

end Update

inductive WalletScanTable where
  | transactCommitments
  | shieldCommitments
  | nullifiers
  | legacyEncryptedCommitments
  | legacyGeneratedCommitments
  deriving DecidableEq

def WalletScanTable.all : List WalletScanTable :=
  [.transactCommitments, .shieldCommitments, .nullifiers, .legacyEncryptedCommitments,
    .legacyGeneratedCommitments]

/-- Wallets scan only the commitments of transactions that have a ciphertext. -/
def hasCiphertext (columns : LogColumns TransactColumns) : Bool := columns.own.ciphertext.isSome

def everyRow {π : Type} (_ : LogColumns π) : Bool := true

def setTimestamps (sources : BlockKey → Option Nat) (tables : StampedTables) :
    WalletScanTable → StampedTables
  | .transactCommitments =>
      { tables with
        transactCommitments := updateTable sources hasCiphertext tables.transactCommitments }
  | .shieldCommitments =>
      { tables with shieldCommitments := updateTable sources everyRow tables.shieldCommitments }
  | .nullifiers => { tables with nullifiers := updateTable sources everyRow tables.nullifiers }
  | .legacyEncryptedCommitments =>
      { tables with
        legacyEncryptedCommitments := updateTable sources everyRow tables.legacyEncryptedCommitments }
  | .legacyGeneratedCommitments =>
      { tables with
        legacyGeneratedCommitments := updateTable sources everyRow tables.legacyGeneratedCommitments }

def affectedBy (sources : BlockKey → Option Nat) (tables : StampedTables) : WalletScanTable → Nat
  | .transactCommitments => rowsAffected sources hasCiphertext tables.transactCommitments
  | .shieldCommitments => rowsAffected sources everyRow tables.shieldCommitments
  | .nullifiers => rowsAffected sources everyRow tables.nullifiers
  | .legacyEncryptedCommitments => rowsAffected sources everyRow tables.legacyEncryptedCommitments
  | .legacyGeneratedCommitments => rowsAffected sources everyRow tables.legacyGeneratedCommitments

def saturatingAdd (left right : Nat) : Nat := min (left + right) (u64Bound - 1)

/-- One turn of the loop: collect the sources, update a table and count its rows. -/
def backfillTable (startBlock endBlock : Nat) (state : StampedTables × Nat)
    (table : WalletScanTable) : StampedTables × Nat :=
  let sources := timestampSources startBlock endBlock state.1
  (setTimestamps sources state.1 table, saturatingAdd state.2 (affectedBy sources state.1 table))

def backfillTables (startBlock endBlock : Nat) (order : List WalletScanTable)
    (tables : StampedTables) : StampedTables × Nat :=
  order.foldl (backfillTable startBlock endBlock) (tables, 0)

def backfillInOrder (order : List WalletScanTable) (key : ContractKey) (startBlock endBlock : Nat)
    (store : ContractKey → StampedTables) :
    Except StoreError ((ContractKey → StampedTables) × Nat) :=
  if endBlock < startBlock then .ok (store, 0)
  else do
    let _ ← u64ToI64 key.chainId "chain_id"
    let startBlock ← u64ToI64 startBlock "start_block"
    let endBlock ← u64ToI64 endBlock "end_block"
    let (tables, updated) := backfillTables startBlock endBlock order (store key)
    pure (Function.update store key tables, updated)

def backfillWalletScanTimestampsFromLocalSources (key : ContractKey) (startBlock endBlock : Nat)
    (store : ContractKey → StampedTables) :
    Except StoreError ((ContractKey → StampedTables) × Nat) :=
  backfillInOrder WalletScanTable.all key startBlock endBlock store

end RailgunIndexer
