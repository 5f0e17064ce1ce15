import RailgunIndexer.MerkleCheckpoint
import RailgunIndexer.Store
import RailgunIndexer.Lib.SortByKey

/-!
# Reading commitments for publication

The commitments of a contract are in four tables. Two queries read their union: one returns the rows of
a range of global positions in order, the other groups the rows by tree. A checkpoint places the rows of
a tree over a layer of zero values. Tree numbers are written from 32-bit values, so the products of the
queries cannot overflow.
-/

namespace RailgunIndexer

open Lib

inductive StoredCommitmentFamily where
  | transact
  | shield
  | legacyEncrypted
  | legacyGenerated
  deriving DecidableEq

/-- Where the name of a family comes in the order of the names. -/
def StoredCommitmentFamily.nameOrder : StoredCommitmentFamily → Nat
  | .legacyEncrypted => 0
  | .legacyGenerated => 1
  | .shield => 2
  | .transact => 3

structure CommitmentColumns where
  family : StoredCommitmentFamily
  blockNumber : Nat
  treeNumber : Nat
  treePosition : Nat
  commitmentHash : Bytes32
  deriving DecidableEq

def CommitmentColumns.globalPosition (commitment : CommitmentColumns) : Nat :=
  commitment.treeNumber * treeLeafCount + commitment.treePosition

def familyCommitments {π : Type} (family : StoredCommitmentFamily) (hash : π → Bytes32)
    (indexedThroughBlock : Option Nat) (table : OrdMap TreeKey (IndexedRow π)) :
    List CommitmentColumns :=
  (table.entries.filter fun entry =>
    indexedThroughBlock.all fun block => entry.2.source.blockNumber ≤ block).map fun entry =>
      ⟨family, entry.2.source.blockNumber, (ofLex entry.1).1, (ofLex entry.1).2,
        hash entry.2.columns⟩

def allCommitments (indexedThroughBlock : Option Nat) (tables : IndexedTables) :
    List CommitmentColumns :=
  familyCommitments .transact (fun columns => columns.commitmentHash) indexedThroughBlock
      tables.transactCommitments
    ++ familyCommitments .shield (fun columns => columns.commitmentHash) indexedThroughBlock
      tables.shieldCommitments
    ++ familyCommitments .legacyEncrypted (fun columns => columns.commitmentHash)
      indexedThroughBlock tables.legacyEncryptedCommitments
    ++ familyCommitments .legacyGenerated (fun columns => columns.commitmentHash)
      indexedThroughBlock tables.legacyGeneratedCommitments

/-! ### Rows of a range -/

structure StoredCommitmentRow where
  globalPosition : Nat
  blockNumber : Nat
  family : StoredCommitmentFamily
  treeNumber : Nat
  treePosition : Nat
  commitmentHash : Bytes32
  deriving DecidableEq

def commitmentOrder (commitment : CommitmentColumns) : Nat ×ₗ Nat ×ₗ Nat :=
  toLex (commitment.globalPosition,
    toLex (commitment.blockNumber, commitment.family.nameOrder))

def storedGlobalTreePosition (treeNumber treePosition : Nat) : Except StoreError Nat :=
  if u64Bound ≤ treeNumber * treeLeafCount + treePosition then
    .error (.globalTreePositionOutOfRange treeNumber treePosition)
  else
    .ok (treeNumber * treeLeafCount + treePosition)

def readCommitment (commitment : CommitmentColumns) : Except StoreError StoredCommitmentRow :=
  if u32Bound ≤ commitment.treeNumber then
    .error (.integerOutOfRange "tree_number" commitment.treeNumber)
  else do
    let globalPosition ←
      storedGlobalTreePosition commitment.treeNumber commitment.treePosition
    pure
      { globalPosition
        blockNumber := commitment.blockNumber
        family := commitment.family
        treeNumber := commitment.treeNumber
        treePosition := commitment.treePosition
        commitmentHash := commitment.commitmentHash }

def commitmentRows (key : ContractKey) (startGlobalPosition endGlobalPosition : Nat)
    (indexedThroughBlock : Option Nat) (store : Store) :
    Except StoreError (List StoredCommitmentRow) := do
  let _ ← u64ToI64 key.chainId "chain_id"
  let startGlobalPosition ← u64ToI64 startGlobalPosition "start_global_position"
  let endGlobalPosition ← u64ToI64 endGlobalPosition "end_global_position"
  let indexedThroughBlock ← indexedThroughBlock.mapM fun block =>
    u64ToI64 block "indexed_through_block"
  (sortByKey commitmentOrder
    ((allCommitments indexedThroughBlock (store.indexed key)).filter fun commitment =>
      startGlobalPosition ≤ commitment.globalPosition
        && commitment.globalPosition ≤ endGlobalPosition)).mapM readCommitment

/-! ### Summaries of the trees -/

structure StoredCommitmentTreeSummary where
  treeNumber : Nat
  leafCount : Nat
  lastIndexedBlock : Nat
  deriving DecidableEq

def treeSummary (commitments : List CommitmentColumns) (treeNumber : Nat) :
    Except StoreError StoredCommitmentTreeSummary :=
  let group := commitments.filter fun commitment => commitment.treeNumber == treeNumber
  if u32Bound ≤ treeNumber then
    .error (.integerOutOfRange "tree_number" treeNumber)
  else
    .ok ⟨treeNumber, group.foldl (fun last commitment => max last commitment.treePosition) 0 + 1,
      group.foldl (fun last commitment => max last commitment.blockNumber) 0⟩

def commitmentTreeSummaries (key : ContractKey) (indexedThroughBlock : Option Nat) (store : Store) :
    Except StoreError (List StoredCommitmentTreeSummary) := do
  let _ ← u64ToI64 key.chainId "chain_id"
  let indexedThroughBlock ← indexedThroughBlock.mapM fun block =>
    u64ToI64 block "indexed_through_block"
  let commitments := allCommitments indexedThroughBlock (store.indexed key)
  (sortByKey id (commitments.map fun commitment => commitment.treeNumber).dedup).mapM
    (treeSummary commitments)

/-! ### Checkpoints of a tree -/

structure StoredCommitmentTreeCheckpoint where
  treeNumber : Nat
  leafCount : Nat
  lastIndexedBlock : Nat
  leaves : List Bytes32
  deriving DecidableEq

structure LeafPlacement where
  leaves : List Bytes32
  seen : List Bool
  deriving DecidableEq

def placeCommitment (summary : StoredCommitmentTreeSummary) (placement : LeafPlacement)
    (row : StoredCommitmentRow) : Except StoreError LeafPlacement :=
  if row.treeNumber ≠ summary.treeNumber ∨ summary.leafCount ≤ row.treePosition then
    .error (.commitmentTreePositionOutOfRange summary.treeNumber row.treePosition summary.leafCount)
  else if placement.seen.getD row.treePosition false then
    .error (.duplicateCommitmentTreePosition summary.treeNumber row.treePosition)
  else
    .ok ⟨placement.leaves.set row.treePosition row.commitmentHash,
      placement.seen.set row.treePosition true⟩

def commitmentTreeCheckpoint (library : TreeLibrary) (key : ContractKey)
    (summary : StoredCommitmentTreeSummary) (indexedThroughBlock : Option Nat) (store : Store) :
    Except StoreError StoredCommitmentTreeCheckpoint := do
  if summary.leafCount = 0 then .error (.integerOutOfRange "leaf_count" summary.leafCount)
  else
    let startGlobalPosition ← storedGlobalTreePosition summary.treeNumber 0
    let endGlobalPosition ← storedGlobalTreePosition summary.treeNumber (summary.leafCount - 1)
    let rows ← commitmentRows key startGlobalPosition endGlobalPosition indexedThroughBlock store
    let placement ← rows.foldlM (placeCommitment summary)
      ⟨List.replicate summary.leafCount library.merkleZeroValue,
        List.replicate summary.leafCount false⟩
    pure ⟨summary.treeNumber, summary.leafCount, summary.lastIndexedBlock, placement.leaves⟩

end RailgunIndexer
