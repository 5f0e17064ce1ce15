import RailgunIndexer.PublicTxidCatalog

/-!
# The commitment catalog

Publication goes through the global positions of the commitments in windows of a configured number of
positions. A window without rows is skipped; the rows of any other are planned, and every planned chunk is
read again by its range before it is encoded and pinned. The next window starts after the last position
published.
-/

namespace RailgunIndexer

open Lib

def commitmentPlanningRowUnit : Nat := 1000

def commitmentPlanItems (publisher : Publisher) (scope : ContractKey)
    (rows : List StoredCommitmentRow) : Except PublicationError (List ChunkPlanItem) :=
  (chunksOf commitmentPlanningRowUnit rows).mapM fun rows =>
    wrapErr "plan commitment artifact chunk unit" .commitmentChunk
      (commitmentChunkPlanItem publisher.library scope rows .zstd)

def planCommitmentChunks (publisher : Publisher) (items : List ChunkPlanItem) :
    Except PublicationError (List PlannedChunk) :=
  match publisher.library.planChunks items with
  | some planned => .ok planned
  | none => .error (.context "plan commitment artifact chunks" .planChunks)

def maxPositionStep (maxPosition : Option Nat) (summary : StoredCommitmentTreeSummary) :
    Except PublicationError (Option Nat) :=
  if summary.leafCount = 0 then .error .treeSummaryHasZeroLeaves
  else
    let globalPosition := summary.treeNumber * treeLeafCount + (summary.leafCount - 1)
    if u64Bound ≤ globalPosition then .error .treeGlobalPositionOverflow
    else .ok (some (max (maxPosition.getD globalPosition) globalPosition))

section Catalog

variable (publisher : Publisher) (config : ChainIndexedDatasetConfig)
  (chain : ChainIndexedChainConfig) (scope : ContractKey) (maxBlock : Nat) (store : Store)

structure CommitmentCatalogState where
  startPosition : Nat
  chunks : List IndexedArtifactDescriptor
  deriving DecidableEq

def publishPlannedCommitments (state : CommitmentCatalogState) (planned : PlannedChunk) :
    Except PublicationError CommitmentCatalogState := do
  let chunkRows ← wrapErr "read planned commitment rows for artifact publication" .store
    (commitmentRows chain.key planned.range.start planned.range.end (some maxBlock) store)
  let published ← wrapErr "publish commitment chunk" .commitmentChunk
    (prepareCommitmentChunk publisher.library scope chunkRows .zstd)
  let descriptor ← reuseOrPinChunk publisher published.descriptor published.compressedBytes
  pure ⟨min (descriptor.range.end + 1) (u64Bound - 1), state.chunks ++ [descriptor]⟩

def commitmentWindowEnd (startPosition maxPosition : Nat) : Nat :=
  min (min (startPosition + (config.commitmentChunkRowLimit - 1)) (u64Bound - 1)) maxPosition

def commitmentTurn (maxPosition : Nat) (state : CommitmentCatalogState) :
    Except PublicationError
      (Loop.Turn CommitmentCatalogState (List IndexedArtifactDescriptor)) :=
  if maxPosition < state.startPosition then .ok (.done state.chunks)
  else do
    let endPosition := commitmentWindowEnd config state.startPosition maxPosition
    let rows ← wrapErr "read commitment rows for artifact publication" .store
      (commitmentRows chain.key state.startPosition endPosition (some maxBlock) store)
    if rows.isEmpty then
      pure (.again { state with startPosition := min (endPosition + 1) (u64Bound - 1) })
    else
      let planItems ← commitmentPlanItems publisher scope rows
      let plannedChunks ← planCommitmentChunks publisher planItems
      let state ← plannedChunks.foldlM (publishPlannedCommitments publisher chain scope maxBlock store)
        state
      pure (.again state)

def commitmentMaxPosition : Except PublicationError (Option Nat) := do
  let summaries ← wrapErr "read commitment tree summaries for commitment publication" .store
    (commitmentTreeSummaries chain.key (some maxBlock) store)
  summaries.foldlM maxPositionStep none

def publishCommitmentChunks (fuel : Nat) :
    Option (Except PublicationError (List IndexedArtifactDescriptor)) :=
  match commitmentMaxPosition chain maxBlock store with
  | .error error => some (.error error)
  | .ok none => some (.ok [])
  | .ok (some maxPosition) =>
      (Loop.run (commitmentTurn publisher config chain scope maxBlock store maxPosition) fuel
        ⟨0, []⟩).map Prod.snd

end Catalog

end RailgunIndexer
