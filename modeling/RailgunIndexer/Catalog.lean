import RailgunIndexer.PublicTxidCatalog
import Mathlib.Data.String.Basic

/-!
# Catalogs

A catalog lists the chunks of a dataset. Its descriptor covers the range of the chunks, or a range of
blocks that is given: only the catalog of wallet scans has such a range, and may then have no chunk.
-/

namespace RailgunIndexer

open Lib

structure IndexedArtifactCatalog where
  datasetKind : DatasetKind
  scope : ContractKey
  chunks : List IndexedArtifactDescriptor
  deriving DecidableEq

inductive CatalogCoverage where
  | derivedFromChunks
  | explicitBlockRange (startBlock indexedThroughBlock : Nat)
  deriving DecidableEq

/-- What publishing a catalog takes from the libraries and the pinning service. -/
structure CatalogLibrary where
  deterministicBodyBytes : IndexedArtifactCatalog → Option Bytes
  contentHash : Bytes → Bytes32
  catalogFormatVersion : Nat
  reuseOrPinCatalog : IndexedArtifactDescriptor → Bytes → Except PublicationError String

def chunkOrder (chunk : IndexedArtifactDescriptor) : Nat ×ₗ Nat ×ₗ String :=
  toLex (chunk.range.start, toLex (chunk.range.end, chunk.cid))

def catalogRange (datasetKind : DatasetKind) (chunks : List IndexedArtifactDescriptor) :
    CatalogCoverage → Except PublicationError IndexedArtifactRange
  | .derivedFromChunks =>
      match chunks.head?, chunks.getLast? with
      | some first, some last =>
          if chunks.any fun chunk => chunk.range.kind ≠ first.range.kind then
            .error .catalogMixedRangeKind
          else
            .ok ⟨first.range.kind, first.range.start, last.range.end⟩
      | _, _ => .error .catalogEmpty
  | .explicitBlockRange startBlock indexedThroughBlock =>
      if datasetKind ≠ .walletScan then .error .catalogCoverageUnsupported
      else if indexedThroughBlock < startBlock then
        .error (.catalogCoverageReversed startBlock indexedThroughBlock)
      else if chunks.any fun chunk => chunk.range.kind ≠ .block ∨ chunk.range.start < startBlock
          ∨ indexedThroughBlock < chunk.range.end then
        .error (.catalogChunkOutsideCoverage startBlock indexedThroughBlock)
      else
        .ok ⟨.block, startBlock, indexedThroughBlock⟩

def catalogMetadata (chunks : List IndexedArtifactDescriptor) :
    CatalogCoverage → DatasetDescriptorMetadata
  | .derivedFromChunks =>
      let lastIndexedBlock := (chunks.filterMap fun chunk => chunk.metadata.lastIndexedBlock).max?
      { startBlock := (chunks.filterMap fun chunk => chunk.metadata.startBlock).min?
        endBlock := (chunks.filterMap fun chunk => chunk.metadata.endBlock).max?
        lastIndexedBlock
        checkpointBlock := lastIndexedBlock }
  | .explicitBlockRange startBlock indexedThroughBlock =>
      { startBlock := some startBlock
        endBlock := some indexedThroughBlock
        lastIndexedBlock := some indexedThroughBlock
        checkpointBlock := some indexedThroughBlock }

section Publish

variable (library : CatalogLibrary)

def catalogDescriptor (catalog : IndexedArtifactCatalog) (byteSize : Nat) (contentHash : Bytes32)
    (coverage : CatalogCoverage) : Except PublicationError IndexedArtifactDescriptor :=
  let chunks := sortByKey chunkOrder catalog.chunks
  if chunks.any fun chunk => chunk.datasetKind ≠ catalog.datasetKind ∨ chunk.scope ≠ catalog.scope then
    .error .catalogMixedDatasetOrScope
  else do
    let range ← catalogRange catalog.datasetKind chunks coverage
    let rowCount ← (chunks.map fun chunk => chunk.rowCount).foldlM
      (addChecked PublicationError.catalogRowCountOverflow) 0
    pure
      { datasetKind := catalog.datasetKind
        scope := catalog.scope
        range
        rowCount
        cid := ""
        sha256 := contentHash
        byteSize
        encodingVersion := library.catalogFormatVersion
        compression := .none
        metadata := catalogMetadata chunks coverage }

def prepareCatalogArtifact (catalog : IndexedArtifactCatalog) (coverage : CatalogCoverage) :
    Except PublicationError (Bytes × IndexedArtifactDescriptor) :=
  match library.deterministicBodyBytes catalog with
  | none => .error .catalogSerialization
  | some catalogBytes => do
      let descriptor ← catalogDescriptor library catalog catalogBytes.length
        (library.contentHash catalogBytes) coverage
      pure (catalogBytes, descriptor)

structure PublishedCatalog where
  descriptor : IndexedArtifactDescriptor
  artifactCids : List String
  deriving DecidableEq

def publishCatalogs (scope : ContractKey) (datasetKind : DatasetKind)
    (chunks : List IndexedArtifactDescriptor) (coverage : CatalogCoverage) :
    Except PublicationError (List PublishedCatalog) :=
  if chunks = [] ∧ coverage = .derivedFromChunks then .ok []
  else do
    let (catalogBytes, descriptor) ← prepareCatalogArtifact library ⟨datasetKind, scope, chunks⟩ coverage
    let _ ← (chunks.map fun chunk => chunk.byteSize).foldlM
      (addChecked PublicationError.catalogByteSizeOverflow) 0
    let cid ← library.reuseOrPinCatalog descriptor catalogBytes
    pure [⟨{ descriptor with cid }, (chunks.map fun chunk => chunk.cid) ++ [cid]⟩]

end Publish

end RailgunIndexer
