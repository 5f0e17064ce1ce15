import RailgunIndexer.TxidParity
import RailgunIndexer.Proof.PublicTxidCatalog

/-!
# What the TXID parity verifier reads

The verifier reads the record layout that the publisher writes: field by field the two agree. But it
looks for the records in section 1, and the publisher has them in section 3, so it rejects every chunk.
-/

namespace RailgunIndexer

open Lib Fallible Cursor

/-! ### Rows -/

variable {bytes : Bytes}

def StoredPublicTxidRow.txidRow (record : StoredPublicTxidRow) : TxidRow where
  txidIndex := record.txidIndex
  id := record.id
  blockNumber := record.blockNumber
  blockTimestamp := record.blockTimestamp
  transactionHash := record.transactionHash
  nullifiers := record.nullifiers
  commitments := record.commitments
  boundParamsHash := record.boundParamsHash
  hasUnshield := record.hasUnshield
  utxoTreeIn := record.utxoTreeIn
  utxoTreeOut := record.utxoTreeOut
  utxoBatchStartPositionOut := record.utxoBatchStartPositionOut

theorem readTxidRow_eq : readTxidRow = (do
    let record ← readWrittenRow
    pure record.txidRow) := by
  simp only [readTxidRow, readWrittenRow, StoredPublicTxidRow.txidRow, bind_assoc, pure_bind]

/-- **A row is read as it was written**, whatever stands before and after it. -/
theorem reads_txidRow {record : StoredPublicTxidRow} (hfits : record.FitsWords)
    (hok : encodePublicTxidRecord record = .ok bytes) : Reads readTxidRow bytes record.txidRow := by
  rw [readTxidRow_eq]
  exact (reads_writtenRow hfits hok).map

/-! ### Chunks -/

structure Describes (library : ArtifactLibrary) (descriptor : IndexedArtifactDescriptor)
    (envelope : ChunkEnvelope) (bytes : Bytes) : Prop where
  datasetKind : descriptor.datasetKind = envelope.datasetKind
  scope : descriptor.scope = envelope.scope
  range : descriptor.range = envelope.range
  rowCount : descriptor.rowCount = envelope.rowCount
  sha256 : descriptor.sha256 = library.sha256 bytes
  byteSize : descriptor.byteSize = bytes.length
  encodingVersion : descriptor.encodingVersion = library.chunkFormatVersion

def DecodesChunks (library : ArtifactLibrary)
    (decodeChunkBytes : IndexedArtifactDescriptor → Bytes → Option ChunkEnvelope) : Prop :=
  ∀ descriptor envelope bytes, Describes library descriptor envelope bytes →
    library.encodeChunkBytes envelope descriptor.compression = some bytes →
      decodeChunkBytes descriptor bytes = some envelope

section Chunks

variable {contracts : Contracts} {library : ArtifactLibrary} {scope : ContractKey}
  {records : List StoredPublicTxidRow} {checkpointRoot : Bytes32}
  {compression : CompressionAlgorithm} {chunk : PublishedPublicTxidChunk}
  {decodeChunkBytes : IndexedArtifactDescriptor → Bytes → Option ChunkEnvelope}
  {range : IndexedArtifactRange} {recordPayload : Bytes} {unshieldPayload : Option Bytes}

theorem publicTxidRange_kind (hok : publicTxidRange records = .ok range) :
    range.kind = .txidIndex := by
  cases records with
  | nil => cases hok
  | cons first rest =>
      obtain ⟨_, -, hok⟩ := bind_eq_ok.mp hok
      rw [← Except.ok.inj hok]

theorem decodeChunkBytes_prepared (hdecodes : DecodesChunks library decodeChunkBytes)
    (hprepared : preparePublicTxidChunk contracts library scope records checkpointRoot compression
      = .ok chunk) :
    ∃ recordPayload unshieldPayload, chunk.descriptor.datasetKind = .publicTxid
      ∧ chunk.descriptor.range.kind = .txidIndex
      ∧ decodeChunkBytes chunk.descriptor chunk.compressedBytes
        = some (publicTxidEnvelope scope chunk.descriptor.range records.length recordPayload
          unshieldPayload) := by
  obtain ⟨⟨range, compressedBytes⟩, hencoded, hprepared⟩ := bind_eq_ok.mp hprepared
  obtain ⟨recordPayload, unshieldPayload, hencodes⟩ := encodePublicTxidChunk_eq_ok hencoded
  dsimp only at hprepared
  split_ifs at hprepared
  cases hprepared
  refine ⟨recordPayload, unshieldPayload, rfl, publicTxidRange_kind hencodes.ranges, ?_⟩
  exact hdecodes _ _ _ ⟨rfl, rfl, rfl, rfl, rfl, rfl, rfl⟩ hencodes.encodes

/-- The lookup finds no section that the envelope does not list. -/
def FindsListedSections (sectionPayload : ChunkEnvelope → Nat → Option Bytes) : Prop :=
  ∀ envelope sectionId, (∀ found ∈ envelope.sections, found.sectionId ≠ sectionId) →
    sectionPayload envelope sectionId = none

theorem ne_one_of_mem_sections {rowCount : Nat} :
    ∀ found ∈ (publicTxidEnvelope scope range rowCount recordPayload unshieldPayload).sections,
      found.sectionId ≠ 1 := by
  cases unshieldPayload <;> simp [publicTxidEnvelope, publicTxidRecordSectionId,
    publicTxidUnshieldPreimageSectionId]

/-- **The verifier rejects every chunk the publisher writes**: it finds no section 1. -/
theorem parsePublicTxidPayload_rejects {sectionPayload : ChunkEnvelope → Nat → Option Bytes}
    (hsections : FindsListedSections sectionPayload)
    (hdecodes : DecodesChunks library decodeChunkBytes)
    (hprepared : preparePublicTxidChunk contracts library scope records checkpointRoot compression
      = .ok chunk) :
    ∃ envelope, decodeChunkBytes chunk.descriptor chunk.compressedBytes = some envelope
      ∧ parsePublicTxidPayload sectionPayload envelope chunk.descriptor
        = .error .recordSectionMissing := by
  obtain ⟨_, _, hdataset, hkind, hdecoded⟩ := decodeChunkBytes_prepared hdecodes hprepared
  refine ⟨_, hdecoded, ?_⟩
  rw [parsePublicTxidPayload, if_neg (by simp [hdataset, hkind]),
    hsections _ 1 ne_one_of_mem_sections]

end Chunks

/-! ### One row -/

section One

def parityRecord : StoredPublicTxidRow where
  txidIndex := 0
  id := ""
  blockNumber := 1
  blockTimestamp := 2
  blockHash := 3
  transactionHash := 4
  firstLogIndex := 5
  lastLogIndex := 6
  nullifiers := [7]
  commitments := [8]
  boundParamsHash := 9
  hasUnshield := false
  unshieldPreimage := none
  utxoTreeIn := 0
  utxoTreeOut := 0
  utxoBatchStartPositionOut := 0

def parityEnvelope : ChunkEnvelope :=
  publicTxidEnvelope ⟨1, 1⟩ ⟨.txidIndex, 0, 0⟩ 1
    ((encodePublicTxidRecords [parityRecord]).toOption.getD []) (some (writeLittleEndian 4 0))

def parityLibrary : ArtifactLibrary :=
  { toyLibrary with
    encodeChunkBytes := fun envelope _ => if envelope = parityEnvelope then some [] else none }

def parityDecode (_ : IndexedArtifactDescriptor) (_ : Bytes) : Option ChunkEnvelope :=
  some parityEnvelope

def firstSection (envelope : ChunkEnvelope) (sectionId : Nat) : Option Bytes :=
  (envelope.sections.find? fun candidate => candidate.sectionId = sectionId).map fun found =>
    (envelope.payload.drop found.offset).take found.byteLength

theorem findsListedSections_firstSection : FindsListedSections firstSection := by
  intro envelope sectionId hmissing
  rw [firstSection, Option.map_eq_none_iff, List.find?_eq_none]
  intro found hfound
  simpa using hmissing found hfound

theorem decodesChunks_parity : DecodesChunks parityLibrary parityDecode := by
  intro descriptor envelope bytes _ hencode
  dsimp only [parityLibrary] at hencode
  split_ifs at hencode with hsame
  rw [hsame, parityDecode]

def parityChunk : PublishedPublicTxidChunk where
  descriptor :=
    { datasetKind := .publicTxid
      scope := ⟨1, 1⟩
      range := ⟨.txidIndex, 0, 0⟩
      rowCount := 1
      cid := ""
      sha256 := 0
      byteSize := 0
      encodingVersion := 1
      compression := .none
      metadata := { root := some 0, checkpointBlock := some 1, lastIndexedBlock := some 1 } }
  compressedBytes := []

theorem parityChunk_prepared :
    preparePublicTxidChunk toyContracts parityLibrary ⟨1, 1⟩ [parityRecord] 0 .none
      = .ok parityChunk := by
  decide +kernel

theorem parity_rejects_row :
    preparePublicTxidChunk toyContracts parityLibrary ⟨1, 1⟩ [parityRecord] 0 .none = .ok parityChunk
      ∧ parityDecode parityChunk.descriptor parityChunk.compressedBytes = some parityEnvelope
      ∧ parsePublicTxidPayload firstSection parityEnvelope parityChunk.descriptor
        ≠ .ok [parityRecord.txidRow] :=
  ⟨parityChunk_prepared, rfl, by decide +kernel⟩

theorem parsePublicTxidPayload_rejects_row :
    ∃ envelope, parityDecode parityChunk.descriptor parityChunk.compressedBytes = some envelope
      ∧ parsePublicTxidPayload firstSection envelope parityChunk.descriptor
        = .error .recordSectionMissing :=
  parsePublicTxidPayload_rejects findsListedSections_firstSection decodesChunks_parity
    parityChunk_prepared

theorem reads_txidRow_one :
    ∃ bytes, encodePublicTxidRecord parityRecord = .ok bytes
      ∧ Reads readTxidRow bytes parityRecord.txidRow :=
  ⟨_, rfl, reads_txidRow (by constructor <;> decide) rfl⟩

end One

end RailgunIndexer
