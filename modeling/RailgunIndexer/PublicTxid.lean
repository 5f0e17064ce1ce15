import RailgunIndexer.Artifacts
import RailgunIndexer.Ingest

/-!
# Public TXID chunks

A chunk holds consecutive rows of one TXID tree: a section of records and, unless a preimage is
missing, a section of the unshield preimages, each checked against its row's last commitment. One row
that fails a check stops the chunk.
-/

namespace RailgunIndexer

/-- A public transaction row as read back from the database, with its index in the TXID tree. -/
structure StoredPublicTxidRow where
  txidIndex : Nat
  id : String
  blockNumber : Nat
  blockTimestamp : Nat
  blockHash : Bytes32
  transactionHash : Bytes32
  firstLogIndex : Nat
  lastLogIndex : Nat
  nullifiers : List Bytes32
  commitments : List Bytes32
  boundParamsHash : Bytes32
  hasUnshield : Bool
  unshieldPreimage : Option Bytes
  utxoTreeIn : Nat
  utxoTreeOut : Nat
  utxoBatchStartPositionOut : Nat
  deriving DecidableEq

def storedPublicTxidRow (txidIndex : Nat) (row : IndexedPublicTransaction) : StoredPublicTxidRow where
  txidIndex
  id := row.id
  blockNumber := row.source.blockNumber
  blockTimestamp := row.blockTimestamp
  blockHash := row.source.blockHash
  transactionHash := row.source.transactionHash
  firstLogIndex := row.firstLogIndex
  lastLogIndex := row.lastLogIndex
  nullifiers := row.nullifiers
  commitments := row.commitments
  boundParamsHash := row.boundParamsHash
  hasUnshield := row.hasUnshield
  unshieldPreimage := row.unshieldPreimage
  utxoTreeIn := row.utxoTreeIn
  utxoTreeOut := row.utxoTreeOut
  utxoBatchStartPositionOut := row.utxoBatchStartPositionOut

/-- Why a chunk cannot be prepared. `encoding` stands for the errors of the chunk encoder. -/
inductive PublicTxidChunkError where
  | emptyChunk
  | nonContiguousTxidIndex (expected actual : Nat)
  | txidIndexOverflow
  | crossesTxidTreeBoundary (start «end» : Nat)
  | checkpointDoesNotStartAtTreePrefix (start : Nat)
  | payloadTooLarge
  | stringTooLong (field : String) (length : Nat)
  | chunkTooLarge (actual maximum : Nat)
  | encoding
  | unexpectedUnshieldPreimage (txidIndex : Nat)
  | invalidUnshieldPreimage (txidIndex : Nat)
  | missingUnshieldCommitment (txidIndex : Nat)
  | unshieldCommitmentMismatch (txidIndex : Nat)
  deriving DecidableEq

def writeLittleEndian (width value : Nat) : Bytes :=
  (List.range width).map fun index => UInt8.ofNat (value / 256 ^ index)

/-! ### The unshield section -/

/-- The bytes of one row, or `none` when its preimage is missing from the section. -/
def encodeUnshieldPreimage (contracts : Contracts) (record : StoredPublicTxidRow) :
    Except PublicTxidChunkError (Option Bytes) :=
  match record.unshieldPreimage with
  | none => .ok (if record.hasUnshield then none else some [])
  | some encoded =>
      if !record.hasUnshield then
        .error (.unexpectedUnshieldPreimage record.txidIndex)
      else
        match contracts.decodePreimage encoded with
        | none => .error (.invalidUnshieldPreimage record.txidIndex)
        | some preimage =>
            match record.commitments.getLast? with
            | none => .error (.missingUnshieldCommitment record.txidIndex)
            | some expectedCommitment =>
                if contracts.preimageHash preimage ≠ expectedCommitment then
                  .error (.unshieldCommitmentMismatch record.txidIndex)
                else
                  let encoded := contracts.encodePreimage preimage
                  if 2 ^ 16 ≤ encoded.length then
                    .error .payloadTooLarge
                  else
                    .ok (some (writeLittleEndian 8 record.txidIndex
                      ++ writeLittleEndian 2 encoded.length ++ encoded))

/-- The section of a list of rows; no section at all when a row with an unshield has no preimage. -/
def encodePublicTxidUnshieldPreimages (contracts : Contracts)
    (records : List StoredPublicTxidRow) : Except PublicTxidChunkError (Option Bytes) :=
  let count := records.countP fun record => record.hasUnshield
  if u32Bound ≤ count then
    .error .payloadTooLarge
  else do
    let parts ← records.mapM (encodeUnshieldPreimage contracts)
    pure ((parts.mapM id).map fun parts => writeLittleEndian 4 count ++ parts.flatten)

/-! ### The record section -/

def writeBytes32 (word : Bytes32) : Bytes :=
  (List.range 32).map fun index => UInt8.ofNat (word.val / 256 ^ (31 - index))

def writeString (value : String) : Except PublicTxidChunkError Bytes :=
  let bytes := value.toUTF8.data.toList
  if 2 ^ 16 ≤ bytes.length then .error (.stringTooLong "public_txid.id" bytes.length)
  else .ok (writeLittleEndian 2 bytes.length ++ bytes)

def writeFixedBytesVec (values : List Bytes32) : Except PublicTxidChunkError Bytes :=
  if u32Bound ≤ values.length then .error .payloadTooLarge
  else .ok (writeLittleEndian 4 values.length ++ values.flatMap writeBytes32)

def encodePublicTxidRecord (record : StoredPublicTxidRow) : Except PublicTxidChunkError Bytes := do
  let id ← writeString record.id
  let nullifiers ← writeFixedBytesVec record.nullifiers
  let commitments ← writeFixedBytesVec record.commitments
  pure (writeLittleEndian 8 record.txidIndex ++ id
    ++ writeLittleEndian 8 record.blockNumber ++ writeLittleEndian 8 record.blockTimestamp
    ++ writeBytes32 record.blockHash ++ writeBytes32 record.transactionHash
    ++ writeLittleEndian 8 record.firstLogIndex ++ writeLittleEndian 8 record.lastLogIndex
    ++ nullifiers ++ commitments ++ writeBytes32 record.boundParamsHash
    ++ [if record.hasUnshield then 1 else 0]
    ++ writeLittleEndian 8 record.utxoTreeIn ++ writeLittleEndian 8 record.utxoTreeOut
    ++ writeLittleEndian 8 record.utxoBatchStartPositionOut)

def encodePublicTxidRecords (records : List StoredPublicTxidRow) :
    Except PublicTxidChunkError Bytes := do
  let parts ← records.mapM encodePublicTxidRecord
  pure parts.flatten

/-! ### Ranges -/

def publicTxidRangeStep (expectedIndex : Nat) (record : StoredPublicTxidRow) :
    Except PublicTxidChunkError Nat :=
  if record.txidIndex ≠ expectedIndex then
    .error (.nonContiguousTxidIndex expectedIndex record.txidIndex)
  else if u64Bound ≤ expectedIndex + 1 then
    .error .txidIndexOverflow
  else
    .ok (expectedIndex + 1)

def publicTxidRange (records : List StoredPublicTxidRow) :
    Except PublicTxidChunkError IndexedArtifactRange :=
  match records with
  | [] => .error .emptyChunk
  | first :: rest => do
      let _ ← (first :: rest).foldlM publicTxidRangeStep first.txidIndex
      pure ⟨.txidIndex, first.txidIndex, (rest.getLastD first).txidIndex⟩

def validateSingleTxidTree (range : IndexedArtifactRange) : Except PublicTxidChunkError Unit :=
  if range.start / treeLeafCount ≠ range.end / treeLeafCount then
    .error (.crossesTxidTreeBoundary range.start range.end)
  else
    .ok ()

/-! ### Chunks -/

def publicTxidRecordSectionId : Nat := 3

def publicTxidUnshieldPreimageSectionId : Nat := 2

def publicTxidEnvelope (scope : ContractKey) (range : IndexedArtifactRange) (rowCount : Nat)
    (recordPayload : Bytes) (unshieldPayload : Option Bytes) : ChunkEnvelope where
  datasetKind := .publicTxid
  scope
  range
  rowCount
  payloadLength := recordPayload.length + (unshieldPayload.map List.length).getD 0
  sections := ⟨publicTxidRecordSectionId, 0, recordPayload.length⟩
    :: (unshieldPayload.map fun payload =>
      ⟨publicTxidUnshieldPreimageSectionId, recordPayload.length, payload.length⟩).toList
  payload := recordPayload ++ unshieldPayload.getD []

def encodePublicTxidEnvelope (library : ArtifactLibrary) (scope : ContractKey)
    (range : IndexedArtifactRange) (rowCount : Nat) (recordPayload : Bytes)
    (unshieldPayload : Option Bytes) (compression : CompressionAlgorithm) :
    Except PublicTxidChunkError Bytes :=
  match library.encodeChunkBytes
      (publicTxidEnvelope scope range rowCount recordPayload unshieldPayload) compression with
  | some bytes => .ok bytes
  | none => .error .encoding

def encodePublicTxidChunk (contracts : Contracts) (library : ArtifactLibrary) (scope : ContractKey)
    (records : List StoredPublicTxidRow) (compression : CompressionAlgorithm) :
    Except PublicTxidChunkError (IndexedArtifactRange × Bytes) := do
  let range ← publicTxidRange records
  validateSingleTxidTree range
  let recordPayload ← encodePublicTxidRecords records
  let unshieldPayload ← encodePublicTxidUnshieldPreimages contracts records
  let compressedBytes ← encodePublicTxidEnvelope library scope range records.length recordPayload
    unshieldPayload compression
  pure (range, compressedBytes)

def publicTxidChunkPlanItem (contracts : Contracts) (library : ArtifactLibrary) (scope : ContractKey)
    (records : List StoredPublicTxidRow) (compression : CompressionAlgorithm) :
    Except PublicTxidChunkError ChunkPlanItem := do
  let (range, compressedBytes) ← encodePublicTxidChunk contracts library scope records compression
  pure ⟨range, records.length, compressedBytes.length⟩

structure PublishedPublicTxidChunk where
  descriptor : IndexedArtifactDescriptor
  compressedBytes : Bytes
  deriving DecidableEq

def preparePublicTxidChunk (contracts : Contracts) (library : ArtifactLibrary) (scope : ContractKey)
    (records : List StoredPublicTxidRow) (checkpointRoot : Bytes32)
    (compression : CompressionAlgorithm) :
    Except PublicTxidChunkError PublishedPublicTxidChunk := do
  let (range, compressedBytes) ← encodePublicTxidChunk contracts library scope records compression
  if library.maxCompressedChunkBytes < compressedBytes.length then
    .error (.chunkTooLarge compressedBytes.length library.maxCompressedChunkBytes)
  else
    let maxBlock := records.foldl (fun block record => max block record.blockNumber) 0
    pure
      { descriptor :=
          { datasetKind := .publicTxid
            scope
            range
            rowCount := records.length
            cid := ""
            sha256 := library.sha256 compressedBytes
            byteSize := compressedBytes.length
            encodingVersion := library.chunkFormatVersion
            compression
            metadata :=
              { root := some checkpointRoot
                checkpointBlock := some maxBlock
                lastIndexedBlock := some maxBlock } }
        compressedBytes }

/-! ### Checkpoints -/

def publicTxidLeafHash (contracts : Contracts) (library : ArtifactLibrary)
    (record : StoredPublicTxidRow) : U256 :=
  let railgunTxid := contracts.railgunTxidParts record.nullifiers record.commitments
    record.boundParamsHash
  let treeStart := min (record.utxoTreeOut * treeLeafCount) (2 ^ 128 - 1)
  let outputStart := min (treeStart + record.utxoBatchStartPositionOut) (2 ^ 128 - 1)
  library.railgunTxidLeafHashWithOutputStart railgunTxid record.utxoTreeIn
    (FixedBytes.ofNat outputStart)

def publicTxidCheckpointRoot (contracts : Contracts) (library : ArtifactLibrary)
    (records : List StoredPublicTxidRow) : Except PublicTxidChunkError Bytes32 := do
  let range ← publicTxidRange records
  validateSingleTxidTree range
  if range.start % treeLeafCount ≠ 0 then
    .error (.checkpointDoesNotStartAtTreePrefix range.start)
  else
    pure (library.denseMerkleRoot (records.map (publicTxidLeafHash contracts library))
      records.length)

end RailgunIndexer
