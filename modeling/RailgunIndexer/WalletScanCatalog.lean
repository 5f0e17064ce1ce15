import RailgunIndexer.Catalog

/-!
# The wallet-scan catalog

Planning reads the rows of every populated range of blocks. A planned chunk spans some of these ranges
with the gaps between them, and its rows are read again before it is encoded and pinned.
-/

namespace RailgunIndexer

open Lib

def walletScanPlanningBlockSpan : Nat := 100

section Catalog

variable (publisher : Publisher) (chain : ChainIndexedChainConfig) (scope : ContractKey)

def planWalletScanRange (store : Store) (items : List ChunkPlanItem) (range : StoredBlockRange) :
    Except PublicationError (List ChunkPlanItem) := do
  let rows ← wrapErr "read wallet scan rows for artifact planning" .store
    (walletScanRows chain.key range.startBlock range.endBlock store)
  if rows.isEmpty then pure items
  else
    let item ← wrapErr "plan wallet-scan artifact chunk unit" .walletScanChunk
      (walletScanChunkPlanItem publisher.library scope range.startBlock range.endBlock rows .zstd)
    pure (items ++ [item])

def walletScanPlanItems (bucketSpan startBlock endBlock : Nat) (store : Store) :
    Except PublicationError (List ChunkPlanItem) := do
  let ranges ← wrapErr "read populated wallet-scan block ranges" .store
    (walletScanPopulatedBlockRanges chain.key startBlock endBlock bucketSpan store)
  ranges.foldlM (planWalletScanRange publisher chain scope store) []

def planWalletScanChunks (items : List ChunkPlanItem) :
    Except PublicationError (List PlannedChunk) :=
  match publisher.library.planChunks items with
  | some planned => .ok planned
  | none => .error (.context "plan wallet-scan artifact chunks" .planChunks)

def publishPlannedWalletScan (store : Store) (chunks : List IndexedArtifactDescriptor)
    (planned : PlannedChunk) : Except PublicationError (List IndexedArtifactDescriptor) := do
  let rows ← wrapErr "read planned wallet scan rows for artifact publication" .store
    (walletScanRows chain.key planned.range.start planned.range.end store)
  if rows.isEmpty then pure chunks
  else
    let published ← wrapErr "publish wallet-scan chunk" .walletScanChunk
      (prepareWalletScanChunk publisher.library scope planned.range.start planned.range.end rows .zstd)
    let descriptor ← reuseOrPinChunk publisher published.descriptor published.compressedBytes
    pure (chunks ++ [descriptor])

def walletScanChunks (bucketSpan maxBlock : Nat) (store : Store) :
    Except PublicationError (List IndexedArtifactDescriptor) := do
  let planItems ← walletScanPlanItems publisher chain scope bucketSpan chain.startBlock.toNat maxBlock
    store
  let plannedChunks ← planWalletScanChunks publisher planItems
  plannedChunks.foldlM (publishPlannedWalletScan publisher chain scope store) []

def publishWalletScanCatalog (library : CatalogLibrary) (maxBlock : Nat) (store : Store) :
    Except PublicationError (List PublishedCatalog) :=
  if maxBlock < chain.startBlock.toNat then .ok []
  else do
    let chunks ← walletScanChunks publisher chain scope walletScanPlanningBlockSpan maxBlock store
    publishCatalogs library scope .walletScan chunks
      (.explicitBlockRange chain.startBlock.toNat maxBlock)

end Catalog

end RailgunIndexer
