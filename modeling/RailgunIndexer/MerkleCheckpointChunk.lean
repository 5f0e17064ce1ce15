import RailgunIndexer.MerkleCheckpoint
import RailgunIndexer.PublicTxid

/-!
# Checkpoint chunks

A checkpoint of a commitment tree is published as a chunk of one section: the number of the tree, its
leaves and the root the publisher computes from them.
-/

namespace RailgunIndexer

/-- Why a checkpoint cannot be prepared. `encoding` stands for the errors of the chunk encoder. -/
inductive MerkleCheckpointArtifactError where
  | emptyCheckpoint
  | leafCountTooLarge (leafCount maximum : Nat)
  | leafCountMismatch (declared actual : Nat)
  | treeNumberOutOfRange (treeNumber : Nat)
  | rangeOverflow
  | chunkTooLarge (actual maximum : Nat)
  | encoding
  deriving DecidableEq

def validateCheckpoint (checkpoint : MerkleCheckpointArtifact) :
    Except MerkleCheckpointArtifactError Unit :=
  if checkpoint.leafCount = 0 then
    .error .emptyCheckpoint
  else if treeLeafCount < checkpoint.leafCount then
    .error (.leafCountTooLarge checkpoint.leafCount treeLeafCount)
  else if checkpoint.leaves.length ≠ checkpoint.leafCount then
    .error (.leafCountMismatch checkpoint.leafCount checkpoint.leaves.length)
  else
    .ok ()

def checkpointRange (checkpoint : MerkleCheckpointArtifact) :
    Except MerkleCheckpointArtifactError IndexedArtifactRange :=
  let start := checkpoint.treeNumber * treeLeafCount
  if u64Bound ≤ start then
    .error .rangeOverflow
  else if u64Bound ≤ start + (checkpoint.leafCount - 1) then
    .error .rangeOverflow
  else
    .ok ⟨.treePosition, start, start + (checkpoint.leafCount - 1)⟩

def encodeMerkleCheckpoint (checkpoint : MerkleCheckpointArtifact) (root : Bytes32) : Bytes :=
  writeLittleEndian 4 checkpoint.treeNumber ++ writeLittleEndian 8 checkpoint.leafCount
    ++ writeBytes32 root ++ writeLittleEndian 8 checkpoint.lastIndexedBlock
    ++ checkpoint.leaves.flatMap writeBytes32

def merkleCheckpointSectionId : Nat := 1

def merkleCheckpointEnvelope (scope : ContractKey) (range : IndexedArtifactRange) (leafCount : Nat)
    (payload : Bytes) : ChunkEnvelope where
  datasetKind := .merkleCheckpoint
  scope
  range
  rowCount := leafCount
  payloadLength := payload.length
  sections := [⟨merkleCheckpointSectionId, 0, payload.length⟩]
  payload

structure PublishedMerkleCheckpointArtifact where
  descriptor : IndexedArtifactDescriptor
  compressedBytes : Bytes
  deriving DecidableEq

/-- The descriptor has the number of the tree in sixteen bits. -/
def prepareMerkleCheckpointArtifact (library : ArtifactLibrary) (trees : TreeLibrary)
    (scope : ContractKey) (checkpoint : MerkleCheckpointArtifact)
    (compression : CompressionAlgorithm) :
    Except MerkleCheckpointArtifactError PublishedMerkleCheckpointArtifact := do
  validateCheckpoint checkpoint
  let root := checkpointRoot trees checkpoint
  let range ← checkpointRange checkpoint
  let envelope := merkleCheckpointEnvelope scope range checkpoint.leafCount
    (encodeMerkleCheckpoint checkpoint root)
  match library.encodeChunkBytes envelope compression with
  | none => .error .encoding
  | some compressedBytes =>
      if library.maxCompressedChunkBytes < compressedBytes.length then
        .error (.chunkTooLarge compressedBytes.length library.maxCompressedChunkBytes)
      else if 2 ^ 16 ≤ checkpoint.treeNumber then
        .error (.treeNumberOutOfRange checkpoint.treeNumber)
      else
        pure
          { descriptor :=
              { datasetKind := .merkleCheckpoint
                scope
                range
                rowCount := checkpoint.leafCount
                cid := ""
                sha256 := library.sha256 compressedBytes
                byteSize := compressedBytes.length
                encodingVersion := library.chunkFormatVersion
                compression
                metadata :=
                  { root := some root
                    checkpointBlock := some checkpoint.lastIndexedBlock
                    treeNumber := some checkpoint.treeNumber
                    leafCount := some checkpoint.leafCount
                    lastIndexedBlock := some checkpoint.lastIndexedBlock } }
            compressedBytes }

end RailgunIndexer
