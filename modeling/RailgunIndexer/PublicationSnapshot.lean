import RailgunIndexer.Config
import Mathlib.Data.List.ReduceOption

/-!
# Watermarks of a publication

A published chain entry names, for each dataset, the block it was read through and the hash stored as
progress there. Before the entry is published each of these watermarks is compared with the stored
header of its block.
-/

namespace RailgunIndexer

open Lib

structure LatestIndexedHeight where
  datasetKind : DatasetKind
  blockNumber : Nat
  blockHash : Bytes32
  deriving DecidableEq

inductive SnapshotError where
  | store (context : String) (error : StoreError)
  | watermarkRewound (blockNumber : Nat) (datasetKind : DatasetKind)
  | watermarkChanged (blockNumber : Nat) (datasetKind : DatasetKind)
  | unconfiguredChain (chainId : Nat) (railgunContract : Address)
  deriving DecidableEq

def ChainIndexedChainConfig.key (chain : ChainIndexedChainConfig) : ContractKey where
  chainId := chain.chainId
  railgunContract := chain.railgunContract

def indexedBlockHeader (chainId blockNumber : Nat) (store : Store) :
    Except StoreError (Option HeaderRow) := do
  let _ ← u64ToI64 chainId "chain_id"
  let blockNumber ← u64ToI64 blockNumber "block_number"
  pure ((store.headers chainId).get? blockNumber)

def latestIndexedHeight (chain : ChainIndexedChainConfig) (store : Store) (dataset : DatasetKind) :
    Except SnapshotError (Option LatestIndexedHeight) := do
  let progress ← (chainIndexingProgress chain.key dataset store).mapError
    (.store "read latest indexed height")
  pure (progress.map fun progress =>
    ⟨dataset, progress.indexedThroughBlock, progress.indexedThroughBlockHash⟩)

/-- The progress of the configured datasets. A dataset without progress has no height. -/
def latestIndexedHeights (chain : ChainIndexedChainConfig) (store : Store) :
    Except SnapshotError (List LatestIndexedHeight) := do
  let latest ← chain.datasets.mapM (latestIndexedHeight chain store)
  pure latest.reduceOption

def validatePublicationWatermark (height : LatestIndexedHeight) (header : Option HeaderRow) :
    Except SnapshotError Unit :=
  match header with
  | none => .error (.watermarkRewound height.blockNumber height.datasetKind)
  | some header =>
      if header.blockHash = height.blockHash then .ok ()
      else .error (.watermarkChanged height.blockNumber height.datasetKind)

def validateStoredWatermark (chain : ChainIndexedChainConfig) (store : Store)
    (height : LatestIndexedHeight) : Except SnapshotError Unit := do
  let header ← (indexedBlockHeader chain.chainId height.blockNumber store).mapError
    (.store "revalidate chain-indexed publication watermark")
  validatePublicationWatermark height header

def validateChainSnapshot (chain : ChainIndexedChainConfig) (latestIndexed : List LatestIndexedHeight)
    (store : Store) : Except SnapshotError Unit :=
  latestIndexed.forM (validateStoredWatermark chain store)

end RailgunIndexer
