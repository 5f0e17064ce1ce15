import RailgunIndexer.CommitmentChunk
import RailgunIndexer.PublicationSnapshot
import RailgunIndexer.PublishedRows
import RailgunIndexer.WalletScanChunk
import RailgunIndexer.Lib.Loop
import RailgunIndexer.Lib.Tiling

/-!
# The public TXID catalog

Publication pages through the numbered rows, plans each page, and reads every planned chunk again
before it is encoded and pinned. A page never reaches over the end of a TXID tree.
-/

namespace RailgunIndexer

open Lib

inductive PublicationError where
  | context (text : String) (error : PublicationError)
  | store (error : StoreError)
  | publicTxidChunk (error : PublicTxidChunkError)
  | planChunks
  | checkpointRequiresRows
  | omissionMatches (chainId : Nat) (omission : PublicTxidCompatibilityOmission) (matchCount : Nat)
  | commitmentChunk (error : CommitmentChunkError)
  | treeSummaryHasZeroLeaves
  | treeGlobalPositionOverflow
  | walletScanChunk (error : WalletScanChunkError)
  | catalogSerialization
  | catalogMixedDatasetOrScope
  | catalogEmpty
  | catalogMixedRangeKind
  | catalogCoverageUnsupported
  | catalogCoverageReversed (startBlock indexedThroughBlock : Nat)
  | catalogChunkOutsideCoverage (startBlock indexedThroughBlock : Nat)
  | catalogRowCountOverflow
  | catalogByteSizeOverflow
  | pin

def wrapErr {ε α : Type} (text : String) (kind : ε → PublicationError) (result : Except ε α) :
    Except PublicationError α :=
  result.mapError fun error => .context text (kind error)

/-- The libraries and the pinning service of a publisher. Looking up a pin that can be used again, or
pinning the bytes, gives the CID of a chunk. -/
structure Publisher where
  contracts : Contracts
  library : ArtifactLibrary
  reuseOrPinIndexedArtifact : IndexedArtifactDescriptor → Bytes → Except PublicationError String

def reuseOrPinChunk (publisher : Publisher) (descriptor : IndexedArtifactDescriptor)
    (compressedBytes : Bytes) : Except PublicationError IndexedArtifactDescriptor := do
  let cid ← publisher.reuseOrPinIndexedArtifact descriptor compressedBytes
  pure { descriptor with cid }

def publicTxidPlanningRowUnit : Nat := 1000

def publicTxidChunkRowLimit (offset configuredLimit : Nat) : Nat :=
  min configuredLimit (treeLeafCount - offset % treeLeafCount)

def publicTxidPlanItems (publisher : Publisher) (scope : ContractKey)
    (rows : List StoredPublicTxidRow) : Except PublicationError (List ChunkPlanItem) :=
  (chunksOf publicTxidPlanningRowUnit rows).mapM fun rows =>
    wrapErr "plan public TXID artifact chunk unit" .publicTxidChunk
      (publicTxidChunkPlanItem publisher.contracts publisher.library scope rows .zstd)

def planPublicTxidChunks (publisher : Publisher) (items : List ChunkPlanItem) :
    Except PublicationError (List PlannedChunk) :=
  match publisher.library.planChunks items with
  | some planned => .ok planned
  | none => .error (.context "plan public TXID artifact chunks" .planChunks)

def validatePublicTxidCompatibilityOmission (chain : ChainIndexedChainConfig) (maxBlock : Nat)
    (store : Store) (omission : PublicTxidCompatibilityOmission) : Except PublicationError Unit :=
  if maxBlock < omission.blockNumber.toNat then .ok ()
  else do
    let matchCount ← wrapErr "validate public TXID compatibility omission" .store
      (publicTxidCompatibilityOmissionMatchCount chain.key omission store)
    if matchCount ≠ 1 then .error (.omissionMatches chain.chainId omission matchCount) else .ok ()

def validatePublicTxidCompatibilityOmissions (chain : ChainIndexedChainConfig) (maxBlock : Nat)
    (store : Store) : Except PublicationError Unit :=
  chain.publicTxidCompatibilityOmissions.forM
    (validatePublicTxidCompatibilityOmission chain maxBlock store)

section Catalog

variable (publisher : Publisher) (config : ChainIndexedDatasetConfig)
  (chain : ChainIndexedChainConfig) (scope : ContractKey) (maxBlock : Nat) (store : Store)

def checkpointRootThroughRow (rows : List StoredPublicTxidRow) : Except PublicationError Bytes32 :=
  match rows.getLast? with
  | none => .error .checkpointRequiresRows
  | some last => do
      let treeStart := last.txidIndex / treeLeafCount * treeLeafCount
      let rowCount := last.txidIndex - treeStart + 1
      let checkpointRows ← wrapErr "read public TXID checkpoint rows" .store
        (publishedPublicTxidRowsThroughBlock chain.key treeStart rowCount maxBlock
          chain.publicTxidCompatibilityOmissions store)
      wrapErr "derive public TXID checkpoint root" .publicTxidChunk
        (publicTxidCheckpointRoot publisher.contracts publisher.library checkpointRows)

structure CatalogState where
  offset : Nat
  chunks : List IndexedArtifactDescriptor
  deriving DecidableEq

def publishPlannedChunk (state : CatalogState) (planned : PlannedChunk) :
    Except PublicationError CatalogState := do
  let chunkRows ← wrapErr "read planned public TXID rows for artifact publication" .store
    (publishedPublicTxidRowsThroughBlock chain.key planned.range.start planned.rowCount maxBlock
      chain.publicTxidCompatibilityOmissions store)
  let checkpointRoot ← wrapErr "compute public TXID checkpoint root" id
    (checkpointRootThroughRow publisher chain maxBlock store chunkRows)
  let published ← wrapErr "publish public TXID chunk" .publicTxidChunk
    (preparePublicTxidChunk publisher.contracts publisher.library scope chunkRows checkpointRoot .zstd)
  let descriptor ← reuseOrPinChunk publisher published.descriptor published.compressedBytes
  pure ⟨min (descriptor.range.end + 1) (u64Bound - 1), state.chunks ++ [descriptor]⟩

def publicTxidTurn (state : CatalogState) :
    Except PublicationError (Loop.Turn CatalogState (List IndexedArtifactDescriptor)) := do
  let rowLimit := publicTxidChunkRowLimit state.offset config.publicTxidChunkRowLimit
  let rows ← wrapErr "read public TXID rows for artifact publication" .store
    (publishedPublicTxidRowsThroughBlock chain.key state.offset rowLimit maxBlock
      chain.publicTxidCompatibilityOmissions store)
  if rows.isEmpty then pure (.done state.chunks)
  else
    let planItems ← publicTxidPlanItems publisher scope rows
    let plannedChunks ← planPublicTxidChunks publisher planItems
    let state ← plannedChunks.foldlM (publishPlannedChunk publisher chain scope maxBlock store) state
    if rows.length < rowLimit then pure (.done state.chunks) else pure (.again state)

def publishPublicTxidChunks (fuel : Nat) :
    Option (Except PublicationError (List IndexedArtifactDescriptor)) :=
  match validatePublicTxidCompatibilityOmissions chain maxBlock store with
  | .error error => some (.error error)
  | .ok () =>
      (Loop.run (publicTxidTurn publisher config chain scope maxBlock store) fuel ⟨0, []⟩).map
        Prod.snd

end Catalog

end RailgunIndexer
