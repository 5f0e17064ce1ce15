import RailgunIndexer.Store

/-!
# Chunks and their descriptors

The artifact types shared by the published datasets. A dataset is cut into chunks; each chunk is an
envelope of sections, encoded and pinned, and a descriptor says what it covers.
-/

namespace RailgunIndexer

inductive IndexedArtifactRangeKind where
  | block
  | treePosition
  | txidIndex
  | poiEventIndex
  deriving DecidableEq

structure IndexedArtifactRange where
  kind : IndexedArtifactRangeKind
  start : Nat
  «end» : Nat
  deriving DecidableEq

inductive CompressionAlgorithm where
  | none
  | zstd
  deriving DecidableEq

structure DatasetDescriptorMetadata where
  root : Option Bytes32 := .none
  checkpointBlock : Option Nat := .none
  treeNumber : Option Nat := .none
  leafCount : Option Nat := .none
  startBlock : Option Nat := .none
  endBlock : Option Nat := .none
  lastIndexedBlock : Option Nat := .none
  deriving DecidableEq

structure IndexedArtifactDescriptor where
  datasetKind : DatasetKind
  scope : ContractKey
  range : IndexedArtifactRange
  rowCount : Nat
  cid : String
  sha256 : Bytes32
  byteSize : Nat
  encodingVersion : Nat
  compression : CompressionAlgorithm
  metadata : DatasetDescriptorMetadata
  deriving DecidableEq

structure ChunkSection where
  sectionId : Nat
  offset : Nat
  byteLength : Nat
  deriving DecidableEq

structure ChunkEnvelope where
  datasetKind : DatasetKind
  scope : ContractKey
  range : IndexedArtifactRange
  rowCount : Nat
  payloadLength : Nat
  sections : List ChunkSection
  payload : Bytes
  deriving DecidableEq

structure ChunkPlanItem where
  range : IndexedArtifactRange
  rowCount : Nat
  compressedByteSize : Nat
  deriving DecidableEq

structure PlannedChunk where
  range : IndexedArtifactRange
  rowCount : Nat
  deriving DecidableEq

/-- What publication takes from its libraries: the chunk encoding and its limit, the planner that
groups chunks, the digest, and the hashes of the TXID tree. -/
structure ArtifactLibrary where
  encodeChunkBytes : ChunkEnvelope → CompressionAlgorithm → Option Bytes
  planChunks : List ChunkPlanItem → Option (List PlannedChunk)
  chunkFormatVersion : Nat
  maxCompressedChunkBytes : Nat
  sha256 : Bytes → Bytes32
  railgunTxidLeafHashWithOutputStart : U256 → Nat → U256 → U256
  denseMerkleRoot : List U256 → Nat → U256

/-- A sum of sizes that fails when it overflows. -/
def addChecked {ε : Type} (overflow : ε) (total count : Nat) : Except ε Nat :=
  if u64Bound ≤ total + count then .error overflow else .ok (total + count)

end RailgunIndexer
