import RailgunIndexer.Artifacts
import RailgunIndexer.CommitmentRows
import RailgunIndexer.PublicTxid

/-!
# Commitment chunks

A chunk holds rows at strictly increasing global positions, with any gaps between them, in one section of
records of a fixed width.
-/

namespace RailgunIndexer

/-- Why a chunk cannot be prepared. `encoding` stands for the errors of the chunk encoder. -/
inductive CommitmentChunkError where
  | emptyChunk
  | nonIncreasingGlobalPosition (previous actual : Nat)
  | chunkTooLarge (actual maximum : Nat)
  | encoding
  deriving DecidableEq

def commitmentRangeStep (previousPosition : Nat) (record : StoredCommitmentRow) :
    Except CommitmentChunkError Nat :=
  if record.globalPosition ≤ previousPosition then
    .error (.nonIncreasingGlobalPosition previousPosition record.globalPosition)
  else
    .ok record.globalPosition

def commitmentRange (records : List StoredCommitmentRow) :
    Except CommitmentChunkError IndexedArtifactRange :=
  match records with
  | [] => .error .emptyChunk
  | first :: rest => do
      let previousPosition ← rest.foldlM commitmentRangeStep first.globalPosition
      pure ⟨.treePosition, first.globalPosition, previousPosition⟩

def commitmentFamilyId : StoredCommitmentFamily → UInt8
  | .transact => 0
  | .shield => 1
  | .legacyEncrypted => 2
  | .legacyGenerated => 3

def encodeCommitmentRecord (record : StoredCommitmentRow) : Bytes :=
  writeLittleEndian 8 record.globalPosition ++ writeLittleEndian 8 record.blockNumber
    ++ [commitmentFamilyId record.family] ++ writeLittleEndian 4 record.treeNumber
    ++ writeLittleEndian 8 record.treePosition ++ writeBytes32 record.commitmentHash

def encodeCommitmentRecords (records : List StoredCommitmentRow) : Bytes :=
  writeLittleEndian 8 records.length ++ records.flatMap encodeCommitmentRecord

def commitmentRecordSectionId : Nat := 1

def commitmentEnvelope (scope : ContractKey) (range : IndexedArtifactRange) (rowCount : Nat)
    (payload : Bytes) : ChunkEnvelope where
  datasetKind := .commitments
  scope
  range
  rowCount
  payloadLength := payload.length
  sections := [⟨commitmentRecordSectionId, 0, payload.length⟩]
  payload

def encodeCommitmentEnvelope (library : ArtifactLibrary) (scope : ContractKey)
    (range : IndexedArtifactRange) (rowCount : Nat) (payload : Bytes)
    (compression : CompressionAlgorithm) : Except CommitmentChunkError Bytes :=
  match library.encodeChunkBytes (commitmentEnvelope scope range rowCount payload) compression with
  | some bytes => .ok bytes
  | none => .error .encoding

def encodeCommitmentChunk (library : ArtifactLibrary) (scope : ContractKey)
    (records : List StoredCommitmentRow) (compression : CompressionAlgorithm) :
    Except CommitmentChunkError (IndexedArtifactRange × Bytes) := do
  let range ← commitmentRange records
  let compressedBytes ← encodeCommitmentEnvelope library scope range records.length
    (encodeCommitmentRecords records) compression
  pure (range, compressedBytes)

def commitmentChunkPlanItem (library : ArtifactLibrary) (scope : ContractKey)
    (records : List StoredCommitmentRow) (compression : CompressionAlgorithm) :
    Except CommitmentChunkError ChunkPlanItem := do
  let (range, compressedBytes) ← encodeCommitmentChunk library scope records compression
  pure ⟨range, records.length, compressedBytes.length⟩

structure PublishedCommitmentChunk where
  descriptor : IndexedArtifactDescriptor
  compressedBytes : Bytes
  deriving DecidableEq

/-- The blocks are read from a list the range check has found not to be empty. -/
def prepareCommitmentChunk (library : ArtifactLibrary) (scope : ContractKey)
    (records : List StoredCommitmentRow) (compression : CompressionAlgorithm) :
    Except CommitmentChunkError PublishedCommitmentChunk := do
  let (range, compressedBytes) ← encodeCommitmentChunk library scope records compression
  let blocks := records.map fun record => record.blockNumber
  let maxBlock := blocks.foldl max 0
  let minBlock := blocks.foldl min maxBlock
  if library.maxCompressedChunkBytes < compressedBytes.length then
    .error (.chunkTooLarge compressedBytes.length library.maxCompressedChunkBytes)
  else
    pure
      { descriptor :=
          { datasetKind := .commitments
            scope
            range
            rowCount := records.length
            cid := ""
            sha256 := library.sha256 compressedBytes
            byteSize := compressedBytes.length
            encodingVersion := library.chunkFormatVersion
            compression
            metadata :=
              { checkpointBlock := some maxBlock
                startBlock := some minBlock
                endBlock := some maxBlock
                lastIndexedBlock := some maxBlock } }
        compressedBytes }

end RailgunIndexer
