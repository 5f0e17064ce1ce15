import RailgunIndexer.Artifacts
import RailgunIndexer.PublicTxid
import RailgunIndexer.WalletScanRows

/-!
# Wallet-scan chunks

A chunk of a range of blocks has five sections, one for each table. The blocks of its rows must lie in
the range, and every row must have a timestamp.
-/

namespace RailgunIndexer

/-- Why a chunk cannot be prepared. `encoding` stands for the errors of the chunk encoder. -/
inductive WalletScanChunkError where
  | invalidBlockRange (start stop : Nat)
  | recordOutOfRange (name : String) (blockNumber start stop : Nat)
  | missingBlockTimestamp (name : String) (blockNumber : Nat)
  | payloadTooLarge
  | chunkTooLarge (actual maximum : Nat)
  | encoding
  deriving DecidableEq

/-! ### Rows in range -/

section Range

variable (startBlock endBlock : Nat)

def validateSourceInRange (name : String) (source : StoredIndexedLogSourceRow) :
    Except WalletScanChunkError Unit :=
  if source.blockNumber < startBlock ∨ endBlock < source.blockNumber then
    .error (.recordOutOfRange name source.blockNumber startBlock endBlock)
  else
    .ok ()

def validateRowsInRange (rows : StoredWalletScanRows) : Except WalletScanChunkError Unit := do
  rows.transactCommitments.forM fun record =>
    validateSourceInRange startBlock endBlock "transact" record.source
  rows.shieldCommitments.forM fun record =>
    validateSourceInRange startBlock endBlock "shield" record.source
  rows.nullifiers.forM fun record =>
    validateSourceInRange startBlock endBlock "nullifier" record.source
  rows.legacyEncryptedCommitments.forM fun record =>
    validateSourceInRange startBlock endBlock "legacy_encrypted" record.source
  rows.legacyGeneratedCommitments.forM fun record =>
    validateSourceInRange startBlock endBlock "legacy_generated" record.source

end Range

/-! ### Records -/

def writeSource (name : String) (source : StoredIndexedLogSourceRow) :
    Except WalletScanChunkError Bytes :=
  match source.blockTimestamp with
  | none => .error (.missingBlockTimestamp name source.blockNumber)
  | some blockTimestamp =>
      .ok (writeLittleEndian 8 source.blockNumber ++ writeLittleEndian 8 blockTimestamp
        ++ writeBytes32 source.transactionHash)

def writeScanBytes (value : Bytes) : Except WalletScanChunkError Bytes :=
  if u32Bound ≤ value.length then .error .payloadTooLarge
  else .ok (writeLittleEndian 4 value.length ++ value)

def writeRecords {ρ : Type} (write : ρ → Except WalletScanChunkError Bytes) (records : List ρ) :
    Except WalletScanChunkError Bytes := do
  let parts ← records.mapM write
  pure (writeLittleEndian 8 records.length ++ parts.flatten)

def writeTransactRecord (record : StoredTransactCommitmentRow) : Except WalletScanChunkError Bytes := do
  let source ← writeSource "transact" record.source
  let ciphertext ← writeScanBytes record.ciphertext
  pure (source ++ writeLittleEndian 4 record.treeNumber ++ writeLittleEndian 8 record.treePosition
    ++ writeBytes32 record.commitmentHash ++ ciphertext)

def writeShieldRecord (record : StoredShieldCommitmentRow) : Except WalletScanChunkError Bytes := do
  let source ← writeSource "shield" record.source
  let preimage ← writeScanBytes record.preimage
  let shieldCiphertext ← writeScanBytes record.shieldCiphertext
  pure (source ++ writeLittleEndian 4 record.treeNumber ++ writeLittleEndian 8 record.treePosition
    ++ writeBytes32 record.commitmentHash ++ preimage ++ shieldCiphertext)

def writeNullifierRecord (record : StoredNullifierRow) : Except WalletScanChunkError Bytes := do
  let source ← writeSource "nullifier" record.source
  pure (source ++ writeLittleEndian 4 record.treeNumber ++ writeBytes32 record.nullifier)

def writeLegacyEncryptedRecord (record : StoredLegacyEncryptedCommitmentRow) :
    Except WalletScanChunkError Bytes := do
  let source ← writeSource "legacy_encrypted" record.source
  let ciphertext ← writeScanBytes record.ciphertext
  pure (source ++ writeLittleEndian 4 record.treeNumber ++ writeLittleEndian 8 record.treePosition
    ++ writeBytes32 record.commitmentHash ++ ciphertext)

def writeLegacyGeneratedRecord (record : StoredLegacyGeneratedCommitmentRow) :
    Except WalletScanChunkError Bytes := do
  let source ← writeSource "legacy_generated" record.source
  let preimage ← writeScanBytes record.preimage
  pure (source ++ writeLittleEndian 4 record.treeNumber ++ writeLittleEndian 8 record.treePosition
    ++ writeBytes32 record.commitmentHash ++ preimage
    ++ (writeBytes32 record.encryptedRandom.1 ++ writeBytes32 record.encryptedRandom.2))

/-! ### Sections -/

def transactSectionId : Nat := 1

def shieldSectionId : Nat := 2

def nullifierSectionId : Nat := 3

def legacyEncryptedSectionId : Nat := 4

def legacyGeneratedSectionId : Nat := 5

structure WalletScanPayload where
  payload : Bytes
  sections : List ChunkSection
  deriving DecidableEq

def appendSection (sectionId : Nat) (written : Except WalletScanChunkError Bytes)
    (before : WalletScanPayload) : Except WalletScanChunkError WalletScanPayload := do
  let bytes ← written
  pure ⟨before.payload ++ bytes,
    before.sections ++ [⟨sectionId, before.payload.length, bytes.length⟩]⟩

def encodeWalletScanRecords (rows : StoredWalletScanRows) :
    Except WalletScanChunkError (WalletScanPayload × Nat) := do
  let sections ← appendSection transactSectionId
    (writeRecords writeTransactRecord rows.transactCommitments) ⟨[], []⟩
  let sections ← appendSection shieldSectionId
    (writeRecords writeShieldRecord rows.shieldCommitments) sections
  let sections ← appendSection nullifierSectionId
    (writeRecords writeNullifierRecord rows.nullifiers) sections
  let sections ← appendSection legacyEncryptedSectionId
    (writeRecords writeLegacyEncryptedRecord rows.legacyEncryptedCommitments) sections
  let sections ← appendSection legacyGeneratedSectionId
    (writeRecords writeLegacyGeneratedRecord rows.legacyGeneratedCommitments) sections
  let rowCount ← [rows.transactCommitments.length, rows.shieldCommitments.length,
    rows.nullifiers.length, rows.legacyEncryptedCommitments.length,
    rows.legacyGeneratedCommitments.length].foldlM (addChecked WalletScanChunkError.payloadTooLarge) 0
  pure (sections, rowCount)

/-! ### Chunks -/

def encodeWalletScanEnvelope (library : ArtifactLibrary) (scope : ContractKey)
    (range : IndexedArtifactRange) (rowCount : Nat) (encoded : WalletScanPayload)
    (compression : CompressionAlgorithm) : Except WalletScanChunkError Bytes :=
  match library.encodeChunkBytes ⟨.walletScan, scope, range, rowCount, encoded.payload.length,
    encoded.sections, encoded.payload⟩ compression with
  | some bytes => .ok bytes
  | none => .error .encoding

structure EncodedWalletScanChunk where
  range : IndexedArtifactRange
  rowCount : Nat
  payload : Bytes
  compressedBytes : Bytes
  deriving DecidableEq

/-- What a planned and a published chunk have in common: the checks and the encoded envelope. -/
def encodeWalletScanChunk (library : ArtifactLibrary) (scope : ContractKey) (startBlock endBlock : Nat)
    (rows : StoredWalletScanRows) (compression : CompressionAlgorithm) :
    Except WalletScanChunkError EncodedWalletScanChunk :=
  if endBlock < startBlock then .error (.invalidBlockRange startBlock endBlock)
  else do
    validateRowsInRange startBlock endBlock rows
    let (encoded, rowCount) ← encodeWalletScanRecords rows
    let range := ⟨.block, startBlock, endBlock⟩
    let compressedBytes ← encodeWalletScanEnvelope library scope range rowCount encoded compression
    pure ⟨range, rowCount, encoded.payload, compressedBytes⟩

def walletScanChunkPlanItem (library : ArtifactLibrary) (scope : ContractKey)
    (startBlock endBlock : Nat) (rows : StoredWalletScanRows) (compression : CompressionAlgorithm) :
    Except WalletScanChunkError ChunkPlanItem := do
  let chunk ← encodeWalletScanChunk library scope startBlock endBlock rows compression
  pure ⟨chunk.range, chunk.rowCount, chunk.compressedBytes.length⟩

structure PublishedWalletScanChunk where
  descriptor : IndexedArtifactDescriptor
  compressedBytes : Bytes
  deriving DecidableEq

def prepareWalletScanChunk (library : ArtifactLibrary) (scope : ContractKey)
    (startBlock endBlock : Nat) (rows : StoredWalletScanRows) (compression : CompressionAlgorithm) :
    Except WalletScanChunkError PublishedWalletScanChunk := do
  let chunk ← encodeWalletScanChunk library scope startBlock endBlock rows compression
  if library.maxCompressedChunkBytes < chunk.compressedBytes.length then
    .error (.chunkTooLarge chunk.compressedBytes.length library.maxCompressedChunkBytes)
  else
    pure
      { descriptor :=
          { datasetKind := .walletScan
            scope
            range := chunk.range
            rowCount := chunk.rowCount
            cid := ""
            sha256 := library.sha256 chunk.compressedBytes
            byteSize := chunk.compressedBytes.length
            encodingVersion := library.chunkFormatVersion
            compression
            metadata :=
              { root := some (library.sha256 chunk.payload)
                checkpointBlock := some endBlock
                lastIndexedBlock := some endBlock } }
        compressedBytes := chunk.compressedBytes }

end RailgunIndexer
