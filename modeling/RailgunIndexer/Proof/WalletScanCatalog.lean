import RailgunIndexer.WalletScanCatalog
import RailgunIndexer.Proof.CommitmentCatalog
import RailgunIndexer.Proof.WalletScanLayout
import Mathlib.Algebra.Group.Action.Defs
import Mathlib.Algebra.Order.BigOperators.Group.List

/-!
# The wallet-scan catalog holds every scannable row once

The populated ranges, the planned chunks and the published chunks are intervals of blocks in order, each
joined from the ones before, so every scannable block stays in one of them. The rows of a table are
sorted by block, and are what the chunks read one after the other.
-/

namespace RailgunIndexer

open Lib Lib.Fallible

/-! ### Sections -/

section Sections

variable {before after encoded : WalletScanPayload} {sectionId other : Nat} {bytes : Bytes}
  {written : Except WalletScanChunkError Bytes} {rows : StoredWalletScanRows}

def HoldsSection (encoded : WalletScanPayload) (sectionId : Nat) (bytes : Bytes) : Prop :=
  ∃ front back, encoded.payload = front ++ bytes ++ back
    ∧ ⟨sectionId, front.length, bytes.length⟩ ∈ encoded.sections

def WritesSection (encoded : WalletScanPayload) (sectionId : Nat)
    (written : Except WalletScanChunkError Bytes) : Prop :=
  ∃ bytes, written = .ok bytes ∧ HoldsSection encoded sectionId bytes

theorem appendSection_eq_ok (hok : appendSection sectionId written before = .ok after) :
    WritesSection after sectionId written
      ∧ ∀ other earlier, WritesSection before other earlier → WritesSection after other earlier := by
  obtain ⟨bytes, hwritten, hok⟩ := bind_eq_ok.mp hok
  cases hok
  constructor
  · refine ⟨bytes, hwritten, before.payload, [], ?_, ?_⟩
    · rw [List.append_nil]
    · exact List.mem_append_right _ List.mem_cons_self
  · rintro other earlier ⟨found, hearlier, front, back, hpayload, hsection⟩
    refine ⟨found, hearlier, front, back ++ bytes, ?_, List.mem_append_left _ hsection⟩
    rw [hpayload, List.append_assoc]

theorem exists_appendSection (before : WalletScanPayload) (sectionId : Nat)
    (hwritten : ∃ bytes, written = .ok bytes) :
    ∃ after, appendSection sectionId written before = .ok after := by
  obtain ⟨bytes, rfl⟩ := hwritten
  exact ⟨_, rfl⟩

/-- The payload has a section for every table. The sections, as far as the fields of their rows fit, are
read back as the rows. -/
structure EncodesScan (rows : StoredWalletScanRows) (encoded : WalletScanPayload) : Prop where
  transact : WritesSection encoded transactSectionId
    (writeRecords writeTransactRecord rows.transactCommitments)
  shield : WritesSection encoded shieldSectionId
    (writeRecords writeShieldRecord rows.shieldCommitments)
  nullifier : WritesSection encoded nullifierSectionId
    (writeRecords writeNullifierRecord rows.nullifiers)
  legacyEncrypted : WritesSection encoded legacyEncryptedSectionId
    (writeRecords writeLegacyEncryptedRecord rows.legacyEncryptedCommitments)
  legacyGenerated : WritesSection encoded legacyGeneratedSectionId
    (writeRecords writeLegacyGeneratedRecord rows.legacyGeneratedCommitments)
  parsed : SquidParity.FitsScan rows → ∀ decodeCiphertext,
    (∀ record ∈ rows.transactCommitments, (decodeCiphertext record.ciphertext).isSome = true) →
      SquidParity.Parsed decodeCiphertext encoded (SquidParity.walletArtifacts decodeCiphertext rows)

theorem encodeWalletScanRecords_eq_ok {rowCount : Nat}
    (hok : encodeWalletScanRecords rows = .ok (encoded, rowCount)) :
    EncodesScan rows encoded ∧ rowCount = rows.count := by
  have hparsed := fun hfits decodeCiphertext hciphertexts =>
    @SquidParity.parsed_encodeWalletScanRecords decodeCiphertext rows encoded rowCount hfits
      hciphertexts hok
  obtain ⟨_, htransact, hok⟩ := bind_eq_ok.mp hok
  obtain ⟨_, hshield, hok⟩ := bind_eq_ok.mp hok
  obtain ⟨_, hnullifier, hok⟩ := bind_eq_ok.mp hok
  obtain ⟨_, hencrypted, hok⟩ := bind_eq_ok.mp hok
  obtain ⟨_, hgenerated, hok⟩ := bind_eq_ok.mp hok
  obtain ⟨total, hcount, hok⟩ := bind_eq_ok.mp hok
  cases hok
  obtain ⟨htransact, -⟩ := appendSection_eq_ok htransact
  obtain ⟨hshield, hkeepShield⟩ := appendSection_eq_ok hshield
  obtain ⟨hnullifier, hkeepNullifier⟩ := appendSection_eq_ok hnullifier
  obtain ⟨hencrypted, hkeepEncrypted⟩ := appendSection_eq_ok hencrypted
  obtain ⟨hgenerated, hkeepGenerated⟩ := appendSection_eq_ok hgenerated
  refine ⟨⟨?_, ?_, ?_, ?_, hgenerated, hparsed⟩, ?_⟩
  · apply hkeepGenerated
    apply hkeepEncrypted
    apply hkeepNullifier
    exact hkeepShield _ _ htransact
  · apply hkeepGenerated
    apply hkeepEncrypted
    exact hkeepNullifier _ _ hshield
  · apply hkeepGenerated
    exact hkeepEncrypted _ _ hnullifier
  · exact hkeepGenerated _ _ hencrypted
  · rw [foldlM_addChecked hcount, sum_counts]

end Sections

/-! ### Writing records -/

section Records

variable {name : String} {rows : StoredWalletScanRows}

structure ByteColumnsFit (rows : StoredWalletScanRows) : Prop where
  transact : ∀ record ∈ rows.transactCommitments, record.ciphertext.length < u32Bound
  shield : ∀ record ∈ rows.shieldCommitments,
    record.preimage.length < u32Bound ∧ record.shieldCiphertext.length < u32Bound
  legacyEncrypted : ∀ record ∈ rows.legacyEncryptedCommitments, record.ciphertext.length < u32Bound
  legacyGenerated : ∀ record ∈ rows.legacyGeneratedCommitments, record.preimage.length < u32Bound

structure Timestamped (rows : StoredWalletScanRows) : Prop where
  transact : ∀ record ∈ rows.transactCommitments, record.source.blockTimestamp.isSome = true
  shield : ∀ record ∈ rows.shieldCommitments, record.source.blockTimestamp.isSome = true
  nullifier : ∀ record ∈ rows.nullifiers, record.source.blockTimestamp.isSome = true
  legacyEncrypted : ∀ record ∈ rows.legacyEncryptedCommitments,
    record.source.blockTimestamp.isSome = true
  legacyGenerated : ∀ record ∈ rows.legacyGeneratedCommitments,
    record.source.blockTimestamp.isSome = true

theorem exists_writeSource {source : StoredIndexedLogSourceRow}
    (hsource : source.blockTimestamp.isSome = true) (name : String) :
    ∃ bytes, writeSource name source = .ok bytes := by
  obtain ⟨timestamp, htimestamp⟩ := Option.isSome_iff_exists.mp hsource
  rw [writeSource, htimestamp]
  exact ⟨_, rfl⟩

theorem writeScanBytes_eq {value : Bytes} (hfits : value.length < u32Bound) :
    writeScanBytes value = .ok (writeLittleEndian 4 value.length ++ value) :=
  if_neg (Nat.not_le.mpr hfits)

theorem exists_writeRecords {ρ : Type} {write : ρ → Except WalletScanChunkError Bytes}
    {records : List ρ} (hwrite : ∀ record ∈ records, ∃ bytes, write record = .ok bytes) :
    ∃ bytes, writeRecords write records = .ok bytes := by
  obtain ⟨parts, hparts⟩ := exists_mapM_eq_ok.mpr hwrite
  rw [writeRecords, hparts, ok_bind]
  exact ⟨_, rfl⟩

theorem exists_writeRecord {source : StoredIndexedLogSourceRow} {value : Bytes}
    {make : Bytes → Bytes → Bytes}
    (hsource : source.blockTimestamp.isSome = true) (hvalue : value.length < u32Bound) (name : String) :
    ∃ bytes, (do
      let written ← writeSource name source
      let content ← writeScanBytes value
      pure (make written content)) = .ok bytes := by
  obtain ⟨written, hwritten⟩ := exists_writeSource hsource name
  rw [hwritten, ok_bind, writeScanBytes_eq hvalue, ok_bind]
  exact ⟨_, rfl⟩

theorem exists_writeShieldRecord {record : StoredShieldCommitmentRow}
    (hsource : record.source.blockTimestamp.isSome = true)
    (hpreimage : record.preimage.length < u32Bound)
    (hciphertext : record.shieldCiphertext.length < u32Bound) :
    ∃ bytes, writeShieldRecord record = .ok bytes := by
  obtain ⟨source, hwritten⟩ := exists_writeSource hsource "shield"
  rw [writeShieldRecord, hwritten, ok_bind, writeScanBytes_eq hpreimage, ok_bind,
    writeScanBytes_eq hciphertext, ok_bind]
  exact ⟨_, rfl⟩

theorem exists_writeNullifierRecord {record : StoredNullifierRow}
    (hsource : record.source.blockTimestamp.isSome = true) :
    ∃ bytes, writeNullifierRecord record = .ok bytes := by
  obtain ⟨source, hwritten⟩ := exists_writeSource hsource "nullifier"
  rw [writeNullifierRecord, hwritten, ok_bind]
  exact ⟨_, rfl⟩

theorem exists_encodeWalletScanRecords (hbytes : ByteColumnsFit rows) (htimestamps : Timestamped rows)
    (hcount : rows.count < u64Bound) :
    ∃ encoded, encodeWalletScanRecords rows = .ok (encoded, rows.count) := by
  obtain ⟨first, hfirst⟩ := exists_appendSection ⟨[], []⟩ transactSectionId
    (@exists_writeRecords _ writeTransactRecord _ fun record hrecord => exists_writeRecord
      (htimestamps.transact record hrecord) (hbytes.transact record hrecord) "transact")
  obtain ⟨second, hsecond⟩ := exists_appendSection first shieldSectionId
    (exists_writeRecords fun record hrecord => exists_writeShieldRecord
      (htimestamps.shield record hrecord) (hbytes.shield record hrecord).1
      (hbytes.shield record hrecord).2)
  obtain ⟨third, hthird⟩ := exists_appendSection second nullifierSectionId
    (exists_writeRecords fun record hrecord => exists_writeNullifierRecord
      (htimestamps.nullifier record hrecord))
  obtain ⟨fourth, hfourth⟩ := exists_appendSection third legacyEncryptedSectionId
    (@exists_writeRecords _ writeLegacyEncryptedRecord _ fun record hrecord => exists_writeRecord
      (htimestamps.legacyEncrypted record hrecord) (hbytes.legacyEncrypted record hrecord)
      "legacy_encrypted")
  obtain ⟨fifth, hfifth⟩ := exists_appendSection fourth legacyGeneratedSectionId
    (@exists_writeRecords _ writeLegacyGeneratedRecord _ fun record hrecord => exists_writeRecord
      (htimestamps.legacyGenerated record hrecord) (hbytes.legacyGenerated record hrecord)
      "legacy_generated")
  rw [← sum_counts] at hcount
  have htotal := exists_foldlM_addChecked WalletScanChunkError.payloadTooLarge hcount
  rw [sum_counts] at htotal
  refine ⟨fifth, ?_⟩
  rw [encodeWalletScanRecords, hfirst, ok_bind, hsecond, ok_bind, hthird, ok_bind, hfourth, ok_bind,
    hfifth, ok_bind, htotal, ok_bind, pure_eq_ok]

end Records

/-! ### Chunks -/

section Chunks

variable {library : ArtifactLibrary} {scope : ContractKey} {startBlock endBlock : Nat}
  {rows : StoredWalletScanRows} {compression : CompressionAlgorithm}

theorem validateSourceInRange_eq_ok {name : String} {source : StoredIndexedLogSourceRow}
    (hsource : startBlock ≤ source.blockNumber ∧ source.blockNumber ≤ endBlock) :
    validateSourceInRange startBlock endBlock name source = .ok () :=
  if_neg (by omega)

theorem validateRowsInRange_scannedRows {tables : IndexedTables} :
    validateRowsInRange startBlock endBlock (scannedRows startBlock endBlock tables) = .ok () := by
  refine bind_eq_ok.mpr ⟨(), forM_eq_ok_iff.mpr fun record hrecord =>
    validateSourceInRange_eq_ok (transactScan_blocks.mem_range hrecord), ?_⟩
  refine bind_eq_ok.mpr ⟨(), forM_eq_ok_iff.mpr fun record hrecord =>
    validateSourceInRange_eq_ok (shieldScan_blocks.mem_range hrecord), ?_⟩
  refine bind_eq_ok.mpr ⟨(), forM_eq_ok_iff.mpr fun record hrecord =>
    validateSourceInRange_eq_ok (nullifierScan_blocks.mem_range hrecord), ?_⟩
  refine bind_eq_ok.mpr ⟨(), forM_eq_ok_iff.mpr fun record hrecord =>
    validateSourceInRange_eq_ok (legacyEncryptedScan_blocks.mem_range hrecord), ?_⟩
  exact forM_eq_ok_iff.mpr fun record hrecord =>
    validateSourceInRange_eq_ok (legacyGeneratedScan_blocks.mem_range hrecord)

structure ScanChunk (library : ArtifactLibrary) (scope : ContractKey) (startBlock endBlock : Nat)
    (rows : StoredWalletScanRows) (compression : CompressionAlgorithm)
    (chunk : EncodedWalletScanChunk) : Prop where
  range : chunk.range = ⟨.block, startBlock, endBlock⟩
  rowCount : chunk.rowCount = rows.count
  encodes : ∃ encoded, EncodesScan rows encoded
    ∧ encodeWalletScanEnvelope library scope chunk.range chunk.rowCount encoded compression
      = .ok chunk.compressedBytes

theorem encodeWalletScanChunk_eq_ok {chunk : EncodedWalletScanChunk}
    (hok : encodeWalletScanChunk library scope startBlock endBlock rows compression = .ok chunk) :
    ScanChunk library scope startBlock endBlock rows compression chunk := by
  rw [encodeWalletScanChunk] at hok
  split_ifs at hok
  obtain ⟨_, -, hok⟩ := bind_eq_ok.mp hok
  obtain ⟨⟨encoded, rowCount⟩, hencoded, hok⟩ := bind_eq_ok.mp hok
  obtain ⟨compressedBytes, hcompressed, hok⟩ := bind_eq_ok.mp hok
  cases hok
  obtain ⟨hsections, rfl⟩ := encodeWalletScanRecords_eq_ok hencoded
  exact ⟨rfl, rfl, encoded, hsections, hcompressed⟩

theorem exists_encodeWalletScanChunk (hle : startBlock ≤ endBlock)
    (hrange : validateRowsInRange startBlock endBlock rows = .ok ()) (hbytes : ByteColumnsFit rows)
    (htimestamps : Timestamped rows) (hcount : rows.count < u64Bound)
    (hlibrary : ∀ encoded, EncodesScan rows encoded → ∃ compressedBytes, encodeWalletScanEnvelope
        library scope ⟨.block, startBlock, endBlock⟩ rows.count encoded compression
          = .ok compressedBytes) :
    ∃ chunk, encodeWalletScanChunk library scope startBlock endBlock rows compression
      = .ok chunk := by
  obtain ⟨encoded, hencoded⟩ := exists_encodeWalletScanRecords hbytes htimestamps hcount
  obtain ⟨compressedBytes, hcompressed⟩ := hlibrary encoded (encodeWalletScanRecords_eq_ok hencoded).1
  refine ⟨⟨⟨.block, startBlock, endBlock⟩, rows.count, encoded.payload, compressedBytes⟩, ?_⟩
  rw [encodeWalletScanChunk, if_neg (Nat.not_lt.mpr hle), hrange, ok_bind, hencoded, ok_bind]
  exact bind_eq_ok.mpr ⟨compressedBytes, hcompressed, rfl⟩

structure WalletScanChunkOf (publisher : Publisher) (scope : ContractKey) (startBlock endBlock : Nat)
    (rows : StoredWalletScanRows) (descriptor : IndexedArtifactDescriptor) : Prop where
  dataset : descriptor.datasetKind = .walletScan ∧ descriptor.scope = scope
  range : descriptor.range = ⟨.block, startBlock, endBlock⟩
  rowCount : descriptor.rowCount = rows.count
  encodes : ∃ encoded compressedBytes, EncodesScan rows encoded
    ∧ encodeWalletScanEnvelope publisher.library scope descriptor.range descriptor.rowCount encoded
      .zstd = .ok compressedBytes
    ∧ descriptor.byteSize = compressedBytes.length
    ∧ descriptor.sha256 = publisher.library.sha256 compressedBytes
    ∧ publisher.reuseOrPinIndexedArtifact { descriptor with cid := "" } compressedBytes
      = .ok descriptor.cid

theorem walletScanChunkOf_of_pinned {publisher : Publisher} {published : PublishedWalletScanChunk}
    {descriptor : IndexedArtifactDescriptor}
    (hprepared : prepareWalletScanChunk publisher.library scope startBlock endBlock rows .zstd
      = .ok published)
    (hpinned : reuseOrPinChunk publisher published.descriptor published.compressedBytes
      = .ok descriptor) :
    WalletScanChunkOf publisher scope startBlock endBlock rows descriptor := by
  obtain ⟨chunk, hchunk, hprepared⟩ := bind_eq_ok.mp hprepared
  have hscan := encodeWalletScanChunk_eq_ok hchunk
  split_ifs at hprepared
  cases hprepared
  obtain ⟨hset, hblank, hcid⟩ := reuseOrPinChunk_eq_ok rfl hpinned
  obtain ⟨encoded, hencodes, hcompressed⟩ := hscan.encodes
  constructor
  · rw [hset]
    exact ⟨rfl, rfl⟩
  · rw [hset]
    exact hscan.range
  · rw [hset]
    exact hscan.rowCount
  · refine ⟨encoded, chunk.compressedBytes, hencodes, ?_, ?_, ?_, ?_⟩
    · rw [hset]
      exact hcompressed
    · rw [hset]
    · rw [hset]
    · rw [hblank]
      exact hcid

end Chunks

/-! ### From the ranges to the chunks -/

section Plan

variable {publisher : Publisher} {chain : ChainIndexedChainConfig} {scope : ContractKey}
  {store : Store} {bucketSpan startBlock endBlock : Nat} {items : List ChunkPlanItem}
  {chunks : List IndexedArtifactDescriptor}

theorem planWalletScanRange_eq_ok {after : List ChunkPlanItem} {range : StoredBlockRange}
    (hpopulated : ScannableBlock (store.indexed chain.key) range.startBlock)
    (hproper : range.startBlock ≤ range.endBlock)
    (hok : planWalletScanRange publisher chain scope store items range = .ok after) :
    ∃ item, after = items ++ [item]
      ∧ item.range.start = range.startBlock ∧ item.range.end = range.endBlock := by
  obtain ⟨rows, hread, hok⟩ := bind_eq_ok.mp hok
  obtain rfl := walletScanRows_eq_ok (mapError_eq_ok.mp hread)
  rw [if_neg (isEmpty_scannedRows hpopulated le_rfl hproper)] at hok
  obtain ⟨item, hitem, hok⟩ := bind_eq_ok.mp hok
  obtain ⟨chunk, hchunk, hitem⟩ := bind_eq_ok.mp (mapError_eq_ok.mp hitem)
  cases hitem
  have hrange := (encodeWalletScanChunk_eq_ok hchunk).range
  refine ⟨_, (Except.ok.inj hok).symm, ?_, ?_⟩
  · rw [hrange]
  · rw [hrange]

theorem walletScanPlanItems_eq_ok (hle : startBlock ≤ endBlock)
    (hok : walletScanPlanItems publisher chain scope bucketSpan startBlock endBlock store = .ok
      items) :
    CoversScans (fun item : ChunkPlanItem => item.range.start) (fun item => item.range.end)
      startBlock endBlock (store.indexed chain.key) items := by
  obtain ⟨ranges, hranges, hok⟩ := bind_eq_ok.mp hok
  have hcovers := walletScanPopulatedBlockRanges_eq_ok hle (mapError_eq_ok.mp hranges)
  obtain ⟨added, hitems, hsame⟩ := foldlM_forall₂ (fun items => items) hok
    fun _ range hrange _ hstep => planWalletScanRange_eq_ok (hcovers.populated range hrange)
      (hcovers.inOrder.proper range hrange) hstep
  obtain rfl : items = added := hitems
  rw [← flatten_singletons ranges] at hcovers
  exact hcovers.joins (joins_singletons hsame)

theorem planWalletScanChunks_eq_ok {planned : List PlannedChunk}
    (hok : planWalletScanChunks publisher items = .ok planned) :
    publisher.library.planChunks items = some planned := by
  rw [planWalletScanChunks] at hok
  split at hok
  · rename_i found hfound
    rw [hfound, Except.ok.inj hok]
  · cases hok

theorem publishPlannedWalletScan_eq_ok {after : List IndexedArtifactDescriptor}
    {planned : PlannedChunk}
    (hpopulated : ScannableBlock (store.indexed chain.key) planned.range.start)
    (hproper : planned.range.start ≤ planned.range.end)
    (hok : publishPlannedWalletScan publisher chain scope store chunks planned = .ok after) :
    ∃ chunk, after = chunks ++ [chunk]
      ∧ WalletScanChunkOf publisher scope planned.range.start planned.range.end
        (scannedRows planned.range.start planned.range.end (store.indexed chain.key)) chunk := by
  obtain ⟨rows, hread, hok⟩ := bind_eq_ok.mp hok
  obtain rfl := walletScanRows_eq_ok (mapError_eq_ok.mp hread)
  rw [if_neg (isEmpty_scannedRows hpopulated le_rfl hproper)] at hok
  obtain ⟨published, hprepared, hok⟩ := bind_eq_ok.mp hok
  obtain ⟨descriptor, hpinned, hok⟩ := bind_eq_ok.mp hok
  exact ⟨descriptor, (Except.ok.inj hok).symm,
    walletScanChunkOf_of_pinned (mapError_eq_ok.mp hprepared) hpinned⟩

/-- The chunks cover the scannable blocks of the range, and each is made of the rows of its range. -/
structure CoversChunks (publisher : Publisher) (scope : ContractKey) (startBlock endBlock : Nat)
    (tables : IndexedTables) (chunks : List IndexedArtifactDescriptor) : Prop where
  covers : CoversScans (fun chunk : IndexedArtifactDescriptor => chunk.range.start)
    (fun chunk => chunk.range.end) startBlock endBlock tables chunks
  encodes : ∀ chunk ∈ chunks, WalletScanChunkOf publisher scope chunk.range.start chunk.range.end
    (scannedRows chunk.range.start chunk.range.end tables) chunk

theorem walletScanChunks_eq_ok (hplanner : GroupsItems publisher.library)
    (hle : chain.startBlock.toNat ≤ endBlock)
    (hok : walletScanChunks publisher chain scope bucketSpan endBlock store = .ok chunks) :
    CoversChunks publisher scope chain.startBlock.toNat endBlock (store.indexed chain.key) chunks := by
  obtain ⟨items, hitems, hok⟩ := bind_eq_ok.mp hok
  obtain ⟨planned, hplanned, hok⟩ := bind_eq_ok.mp hok
  have hcoversItems := walletScanPlanItems_eq_ok hle hitems
  obtain ⟨groups, hgroups, hjoins⟩ := hplanner.joins (planWalletScanChunks_eq_ok hplanned)
  rw [← hgroups] at hcoversItems
  have hcovers := hcoversItems.joins hjoins
  obtain ⟨added, hchunks, hsame⟩ := foldlM_forall₂ (fun chunks => chunks) hok
    fun _ chunk hchunk _ hstep => publishPlannedWalletScan_eq_ok (hcovers.populated chunk hchunk)
      (hcovers.inOrder.proper chunk hchunk) hstep
  obtain rfl : chunks = added := hchunks
  constructor
  · rw [← flatten_singletons planned] at hcovers
    apply hcovers.joins
    apply joins_singletons
    apply hsame.imp
    intro planned chunk hchunk
    rw [hchunk.range]
    exact ⟨rfl, rfl⟩
  · intro chunk hchunk
    obtain ⟨planned, -, hchunkOf⟩ := exists_of_forall₂_right hsame hchunk
    have hrange := hchunkOf.range
    have hstart : chunk.range.start = planned.range.start := by rw [hrange]
    have hend : chunk.range.end = planned.range.end := by rw [hrange]
    rw [hstart, hend]
    exact hchunkOf

end Plan

/-! ### Every row once -/

section Once

variable {startBlock endBlock : Nat} {tables : IndexedTables}

def ScanTable.Once {κ π ρ : Type} [LinearOrder κ] (scan : ScanTable κ π ρ) (startBlock endBlock : Nat)
    (tables : IndexedTables) (rows : List ρ) : Prop :=
  rows.Perm (((scan.table tables).entries.filter (scan.selects startBlock endBlock)).map scan.stored)

/-- The parts have every scannable row of the range of blocks once, in the list of its table. -/
structure ScansOnce (startBlock endBlock : Nat) (tables : IndexedTables)
    (parts : List StoredWalletScanRows) : Prop where
  transact : transactScan.Once startBlock endBlock tables
    (parts.flatMap StoredWalletScanRows.transactCommitments)
  shield : shieldScan.Once startBlock endBlock tables
    (parts.flatMap StoredWalletScanRows.shieldCommitments)
  nullifier : nullifierScan.Once startBlock endBlock tables
    (parts.flatMap StoredWalletScanRows.nullifiers)
  legacyEncrypted : legacyEncryptedScan.Once startBlock endBlock tables
    (parts.flatMap StoredWalletScanRows.legacyEncryptedCommitments)
  legacyGenerated : legacyGeneratedScan.Once startBlock endBlock tables
    (parts.flatMap StoredWalletScanRows.legacyGeneratedCommitments)

variable {α : Type} {first last : α → Nat} {items : List α}

section

variable (hcovers : CoversScans first last startBlock endBlock tables items)

include hcovers

section

variable {κ π ρ : Type} [LinearOrder κ] {scan : ScanTable κ π ρ} {block : ρ → Nat}
  (hblocks : scan.Blocks block)
  (hscan : ∀ block, scan.HasBlock tables block → ScannableBlock tables block)

include hblocks hscan

theorem CoversScans.flatMap_listed :
    items.flatMap (fun item => scan.listed (first item) (last item) tables)
      = scan.listed startBlock endBlock tables := by
  have hread : ∀ item ∈ items, scan.listed (first item) (last item) tables
      = within block (scan.listed startBlock endBlock tables) (first item) (last item) := by
    intro item hitem
    obtain ⟨hlow, hhigh⟩ := hcovers.inside item hitem
    exact hblocks.listed_eq_within hlow hhigh
  rw [List.flatMap_congr hread]
  apply hcovers.inOrder.flatMap_within (hblocks.sorted_listed _ _ _)
  intro row hrow
  obtain ⟨hblock, hlow, hhigh⟩ := ScanTable.mem_blocks_iff.mp (hblocks.mem_blocks hrow)
  exact hcovers.holds _ (hscan _ hblock) hlow hhigh

theorem CoversScans.once :
    scan.Once startBlock endBlock tables
      (items.flatMap fun item => scan.listed (first item) (last item) tables) := by
  rw [ScanTable.Once, ← (scan.perm_listed _ _ _).congr_right]
  exact .of_eq (hcovers.flatMap_listed hblocks hscan)

theorem CoversScans.sum_length :
    (items.map fun item => (scan.listed (first item) (last item) tables).length).sum
      = (scan.listed startBlock endBlock tables).length := by
  rw [← hcovers.flatMap_listed hblocks hscan, List.length_flatMap]

end

theorem CoversScans.scansOnce :
    ScansOnce startBlock endBlock tables
      (items.map fun item => scannedRows (first item) (last item) tables) := by
  constructor <;> rw [List.flatMap_map]
  · exact hcovers.once transactScan_blocks fun _ hblock => .inl hblock
  · exact hcovers.once shieldScan_blocks fun _ hblock => .inr (.inl hblock)
  · exact hcovers.once nullifierScan_blocks fun _ hblock => .inr (.inr (.inl hblock))
  · exact hcovers.once legacyEncryptedScan_blocks fun _ hblock => .inr (.inr (.inr (.inl hblock)))
  · exact hcovers.once legacyGeneratedScan_blocks fun _ hblock => .inr (.inr (.inr (.inr hblock)))

theorem CoversScans.sum_count :
    (items.map fun item => (scannedRows (first item) (last item) tables).count).sum
      = (walletScanBlocks startBlock endBlock tables).length := by
  rw [← count_scannedRows]
  simp only [StoredWalletScanRows.count, scannedRows, List.sum_map_add]
  rw [hcovers.sum_length transactScan_blocks fun _ hblock => .inl hblock,
    hcovers.sum_length shieldScan_blocks fun _ hblock => .inr (.inl hblock),
    hcovers.sum_length nullifierScan_blocks fun _ hblock => .inr (.inr (.inl hblock)),
    hcovers.sum_length legacyEncryptedScan_blocks fun _ hblock => .inr (.inr (.inr (.inl hblock))),
    hcovers.sum_length legacyGeneratedScan_blocks fun _ hblock => .inr (.inr (.inr (.inr hblock)))]

end

end Once

/-! ### The catalog -/

section Catalog

variable {library : CatalogLibrary} {scope : ContractKey} {startBlock endBlock : Nat}
  {chunks : List IndexedArtifactDescriptor} {datasetKind : DatasetKind}

structure CatalogOf (startBlock endBlock : Nat) (chunks : List IndexedArtifactDescriptor)
    (catalog : PublishedCatalog) : Prop where
  range : catalog.descriptor.range = ⟨.block, startBlock, endBlock⟩
  rowCount : catalog.descriptor.rowCount = (chunks.map fun chunk => chunk.rowCount).sum
  artifactCids : catalog.artifactCids
    = (chunks.map fun chunk => chunk.cid) ++ [catalog.descriptor.cid]

theorem catalogRange_explicit_eq_ok {range : IndexedArtifactRange}
    (hok : catalogRange datasetKind chunks (.explicitBlockRange startBlock endBlock) = .ok range) :
    range = ⟨.block, startBlock, endBlock⟩ := by
  rw [catalogRange] at hok
  split_ifs at hok
  exact (Except.ok.inj hok).symm

theorem sum_sortByKey_chunkOrder (size : IndexedArtifactDescriptor → Nat) :
    ((sortByKey chunkOrder chunks).map size).sum = (chunks.map size).sum :=
  ((sortByKey_perm chunkOrder chunks).map size).sum_nat

theorem publishCatalogs_explicit_eq_ok {catalogs : List PublishedCatalog}
    (hok : publishCatalogs library scope datasetKind chunks (.explicitBlockRange startBlock
      endBlock) = .ok catalogs) :
    ∃ catalog, catalogs = [catalog] ∧ CatalogOf startBlock endBlock chunks catalog := by
  rw [publishCatalogs, if_neg (by simp)] at hok
  obtain ⟨⟨catalogBytes, descriptor⟩, hprepared, hok⟩ := bind_eq_ok.mp hok
  obtain ⟨_, -, hok⟩ := bind_eq_ok.mp hok
  obtain ⟨cid, -, hok⟩ := bind_eq_ok.mp hok
  refine ⟨_, (Except.ok.inj hok).symm, ?_⟩
  rw [prepareCatalogArtifact] at hprepared
  split at hprepared
  · cases hprepared
  · obtain ⟨found, hdescriptor, hprepared⟩ := bind_eq_ok.mp hprepared
    cases hprepared
    rw [catalogDescriptor] at hdescriptor
    split_ifs at hdescriptor
    obtain ⟨range, hrange, hdescriptor⟩ := bind_eq_ok.mp hdescriptor
    obtain ⟨rowCount, hcount, hdescriptor⟩ := bind_eq_ok.mp hdescriptor
    cases hdescriptor
    refine ⟨catalogRange_explicit_eq_ok hrange, ?_, rfl⟩
    have htotal := foldlM_addChecked hcount
    rw [sum_sortByKey_chunkOrder, Nat.zero_add] at htotal
    exact htotal

theorem exists_publishCatalogs (hle : startBlock ≤ endBlock)
    (hdataset : ∀ chunk ∈ chunks, chunk.datasetKind = .walletScan ∧ chunk.scope = scope)
    (hinside : ∀ chunk ∈ chunks, chunk.range.kind = .block ∧ startBlock ≤ chunk.range.start
      ∧ chunk.range.end ≤ endBlock)
    (hrows : (chunks.map fun chunk => chunk.rowCount).sum < u64Bound)
    (hbytes : (chunks.map fun chunk => chunk.byteSize).sum < u64Bound)
    (hserializes : ∀ catalog, ∃ bytes, library.deterministicBodyBytes catalog = some bytes)
    (hpins : ∀ descriptor bytes, ∃ cid, library.reuseOrPinCatalog descriptor bytes = .ok cid) :
    ∃ catalogs, publishCatalogs library scope .walletScan chunks
      (.explicitBlockRange startBlock endBlock) = .ok catalogs := by
  have hsubset := (sortByKey_perm chunkOrder chunks).subset
  have hsame : ¬((sortByKey chunkOrder chunks).any fun chunk =>
      chunk.datasetKind ≠ .walletScan ∨ chunk.scope ≠ scope) = true := by
    rw [List.any_eq_true]
    rintro ⟨chunk, hchunk, hdiffers⟩
    obtain ⟨hkind, hscope⟩ := hdataset chunk (hsubset hchunk)
    rcases of_decide_eq_true hdiffers with hne | hne
    · exact hne hkind
    · exact hne hscope
  have hcovered : ¬((sortByKey chunkOrder chunks).any fun chunk => chunk.range.kind ≠ .block
      ∨ chunk.range.start < startBlock ∨ endBlock < chunk.range.end) = true := by
    rw [List.any_eq_true]
    rintro ⟨chunk, hchunk, hdiffers⟩
    obtain ⟨hkind, hlow, hhigh⟩ := hinside chunk (hsubset hchunk)
    rcases of_decide_eq_true hdiffers with hne | hout | hout
    · exact hne hkind
    · omega
    · omega
  have hrange : catalogRange .walletScan (sortByKey chunkOrder chunks)
      (.explicitBlockRange startBlock endBlock) = .ok ⟨.block, startBlock, endBlock⟩ := by
    rw [catalogRange, if_neg (by simp), if_neg (Nat.not_lt.mpr hle), if_neg hcovered]
  have hcount := @exists_foldlM_addChecked _
    ((sortByKey chunkOrder chunks).map fun chunk => chunk.rowCount) 0
    PublicationError.catalogRowCountOverflow (by
      rw [sum_sortByKey_chunkOrder, Nat.zero_add]
      exact hrows)
  have hsize := @exists_foldlM_addChecked _ (chunks.map fun chunk => chunk.byteSize) 0
    PublicationError.catalogByteSizeOverflow (by rwa [Nat.zero_add])
  obtain ⟨bytes, hserialized⟩ := hserializes ⟨.walletScan, scope, chunks⟩
  have hprepared : ∃ prepared, prepareCatalogArtifact library ⟨.walletScan, scope, chunks⟩
      (.explicitBlockRange startBlock endBlock) = .ok prepared := by
    rw [prepareCatalogArtifact, hserialized]
    simp only [catalogDescriptor]
    rw [if_neg hsame, hrange, ok_bind, hcount, ok_bind]
    exact ⟨_, rfl⟩
  obtain ⟨⟨catalogBytes, descriptor⟩, hprepared⟩ := hprepared
  obtain ⟨cid, hcid⟩ := hpins descriptor catalogBytes
  rw [publishCatalogs, if_neg (by simp), hprepared, ok_bind]
  exact ⟨_, bind_eq_ok.mpr ⟨_, hsize, bind_eq_ok.mpr ⟨cid, hcid, rfl⟩⟩⟩

end Catalog

/-! ### Nothing stops the publication -/

section Success

variable {publisher : Publisher} {library : CatalogLibrary} {chain : ChainIndexedChainConfig}
  {scope : ContractKey} {store : Store} {bucketSpan maxBlock : Nat} {a b : Nat}
  {chunks : List IndexedArtifactDescriptor} {tables : IndexedTables}

/-- The chain and the block fit their columns, tree numbers are 32-bit values, byte columns have 32-bit
lengths, the rows of every range of blocks encode within the size limit, the planner plans items in order
within the limit, the sums do not overflow, and catalogs serialize and pins succeed. -/
structure ScansPublishable (publisher : Publisher) (library : CatalogLibrary)
    (chain : ChainIndexedChainConfig) (scope : ContractKey) (maxBlock : Nat) (store : Store) :
    Prop where
  chainId : chain.key.chainId < i64Bound
  block : maxBlock < i64Bound
  trees : ScansFit (store.indexed chain.key)
  bytes : ByteColumnsFit (scannedRows chain.startBlock.toNat maxBlock (store.indexed chain.key))
  encodes : ∀ a b encoded, EncodesScan (scannedRows a b (store.indexed chain.key)) encoded →
    ∃ compressedBytes, encodeWalletScanEnvelope publisher.library scope ⟨.block, a, b⟩
        (scannedRows a b (store.indexed chain.key)).count encoded .zstd = .ok compressedBytes
      ∧ compressedBytes.length ≤ publisher.library.maxCompressedChunkBytes
  plans : ∀ items : List ChunkPlanItem,
    InOrder (fun item : ChunkPlanItem => item.range.start) (fun item => item.range.end) items →
    (∀ item ∈ items, item.compressedByteSize ≤ publisher.library.maxCompressedChunkBytes) →
      ∃ planned, publisher.library.planChunks items = some planned
  sums : (walletScanBlocks chain.startBlock.toNat maxBlock (store.indexed chain.key)).length
    * max 1 publisher.library.maxCompressedChunkBytes < u64Bound
  pins : ∀ descriptor compressedBytes,
    ∃ cid, publisher.reuseOrPinIndexedArtifact descriptor compressedBytes = .ok cid
  serializes : ∀ catalog, ∃ bytes, library.deterministicBodyBytes catalog = some bytes
  pinsCatalog : ∀ descriptor bytes, ∃ cid, library.reuseOrPinCatalog descriptor bytes = .ok cid

theorem timestamped_scannedRows (a b : Nat) (tables : IndexedTables) :
    Timestamped (scannedRows a b tables) := by
  constructor
  all_goals
    intro record hrecord
    obtain ⟨entry, -, rfl⟩ := List.mem_map.mp hrecord
    rfl

section Narrower

variable {a b startBlock endBlock : Nat} {tables : IndexedTables}

theorem ByteColumnsFit.narrower (hbytes : ByteColumnsFit (scannedRows startBlock endBlock tables))
    (hlow : startBlock ≤ a) (hhigh : b ≤ endBlock) : ByteColumnsFit (scannedRows a b tables) := by
  refine ⟨fun record hrecord => hbytes.transact record ?_, fun record hrecord =>
    hbytes.shield record ?_, fun record hrecord => hbytes.legacyEncrypted record ?_,
    fun record hrecord => hbytes.legacyGenerated record ?_⟩
  · exact (transactScan_blocks.listed_sublist hlow hhigh tables).subset hrecord
  · exact (shieldScan_blocks.listed_sublist hlow hhigh tables).subset hrecord
  · exact (legacyEncryptedScan_blocks.listed_sublist hlow hhigh tables).subset hrecord
  · exact (legacyGeneratedScan_blocks.listed_sublist hlow hhigh tables).subset hrecord

theorem count_narrower (hlow : startBlock ≤ a) (hhigh : b ≤ endBlock) :
    (scannedRows a b tables).count ≤ (scannedRows startBlock endBlock tables).count := by
  have htransact := (transactScan_blocks.listed_sublist hlow hhigh tables).length_le
  have hshield := (shieldScan_blocks.listed_sublist hlow hhigh tables).length_le
  have hnullifier := (nullifierScan_blocks.listed_sublist hlow hhigh tables).length_le
  have hencrypted := (legacyEncryptedScan_blocks.listed_sublist hlow hhigh tables).length_le
  have hgenerated := (legacyGeneratedScan_blocks.listed_sublist hlow hhigh tables).length_le
  simp only [StoredWalletScanRows.count, scannedRows]
  omega

end Narrower

section

variable (hpublishable : ScansPublishable publisher library chain scope maxBlock store)

include hpublishable

theorem ScansPublishable.exists_chunk
    (hlow : chain.startBlock.toNat ≤ a) (hab : a ≤ b) (hhigh : b ≤ maxBlock) :
    ∃ chunk, encodeWalletScanChunk publisher.library scope a b
      (scannedRows a b (store.indexed chain.key)) .zstd = .ok chunk := by
  have hcount := @count_narrower _ _ _ _ (store.indexed chain.key) hlow hhigh
  have hsums := hpublishable.sums
  rw [← count_scannedRows] at hsums
  have hle := Nat.le_mul_of_pos_right
    (scannedRows chain.startBlock.toNat maxBlock (store.indexed chain.key)).count
    (Nat.lt_of_lt_of_le Nat.zero_lt_one (Nat.le_max_left 1 publisher.library.maxCompressedChunkBytes))
  apply exists_encodeWalletScanChunk hab validateRowsInRange_scannedRows
    (hpublishable.bytes.narrower hlow hhigh) (timestamped_scannedRows a b _) (by omega)
  intro encoded hencoded
  exact (hpublishable.encodes a b encoded hencoded).imp fun _ hcompressed => hcompressed.1

theorem ScansPublishable.size_le {chunk : EncodedWalletScanChunk}
    (hchunk : encodeWalletScanChunk publisher.library scope a b (scannedRows a b (store.indexed
      chain.key)) .zstd = .ok chunk) :
    chunk.compressedBytes.length ≤ publisher.library.maxCompressedChunkBytes := by
  have hscan := encodeWalletScanChunk_eq_ok hchunk
  obtain ⟨encoded, hencodes, hcompressed⟩ := hscan.encodes
  rw [hscan.range, hscan.rowCount] at hcompressed
  obtain ⟨compressedBytes, hfound, hsize⟩ := hpublishable.encodes a b encoded hencodes
  rw [Except.ok.inj (hcompressed.symm.trans hfound)]
  exact hsize

theorem ScansPublishable.rows_eq (hab : a ≤ b) (hhigh : b ≤ maxBlock) :
    walletScanRows chain.key a b store = .ok (scannedRows a b (store.indexed chain.key)) := by
  have hblock := hpublishable.block
  exact hpublishable.trees.walletScanRows_eq hpublishable.chainId (by omega) (by omega)

theorem ScansPublishable.exists_planItems
    (hle : chain.startBlock.toNat ≤ maxBlock) (hspan : 0 < bucketSpan)
    (hspanFits : bucketSpan < i64Bound) :
    ∃ items, walletScanPlanItems publisher chain scope bucketSpan chain.startBlock.toNat maxBlock store
        = .ok items
      ∧ ∀ item ∈ items, item.compressedByteSize ≤ publisher.library.maxCompressedChunkBytes := by
  obtain ⟨ranges, hranges⟩ := @exists_walletScanPopulatedBlockRanges chain.startBlock.toNat maxBlock
    bucketSpan chain.key store hpublishable.chainId hle hpublishable.block hspan hspanFits
  have hcovers := walletScanPopulatedBlockRanges_eq_ok hle hranges
  have hstep : ∀ items, ∀ range ∈ ranges, ∃ item,
      planWalletScanRange publisher chain scope store items range = .ok (items ++ [item])
        ∧ item.compressedByteSize ≤ publisher.library.maxCompressedChunkBytes := by
    intro items range hrange
    obtain ⟨hlow, hhigh⟩ := hcovers.inside range hrange
    have hproper := hcovers.inOrder.proper range hrange
    obtain ⟨chunk, hchunk⟩ := hpublishable.exists_chunk hlow hproper hhigh
    have hitem : walletScanChunkPlanItem publisher.library scope range.startBlock range.endBlock
        (scannedRows range.startBlock range.endBlock (store.indexed chain.key)) .zstd
          = .ok ⟨chunk.range, chunk.rowCount, chunk.compressedBytes.length⟩ :=
      bind_eq_ok.mpr ⟨chunk, hchunk, rfl⟩
    refine ⟨⟨chunk.range, chunk.rowCount, chunk.compressedBytes.length⟩, ?_,
      hpublishable.size_le hchunk⟩
    refine bind_eq_ok.mpr ⟨_, mapError_eq_ok.mpr (hpublishable.rows_eq hproper hhigh), ?_⟩
    rw [if_neg (isEmpty_scannedRows (hcovers.populated range hrange) le_rfl hproper)]
    exact bind_eq_ok.mpr ⟨_, mapError_eq_ok.mpr hitem, rfl⟩
  have hruns : ∀ items, ∀ range ∈ ranges, ∃ after,
      planWalletScanRange publisher chain scope store items range = .ok after := by
    intro items range hrange
    obtain ⟨item, hitem, -⟩ := hstep items range hrange
    exact ⟨_, hitem⟩
  obtain ⟨items, hitems⟩ := exists_foldlM_eq_ok hruns []
  refine ⟨items, bind_eq_ok.mpr ⟨ranges, mapError_eq_ok.mpr hranges, hitems⟩, ?_⟩
  apply @foldlM_invariant _ _ _ _ (fun items : List ChunkPlanItem => ∀ item ∈ items,
    item.compressedByteSize ≤ publisher.library.maxCompressedChunkBytes) _ _ _ hitems (by simp)
  intro before range hrange after hbefore hok
  obtain ⟨item, hadded, hsize⟩ := hstep before range hrange
  cases hadded.symm.trans hok
  intro other hother
  rcases List.mem_append.mp hother with hother | hother
  · exact hbefore other hother
  · rw [List.mem_singleton.mp hother]
    exact hsize

theorem ScansPublishable.exists_publishPlanned
    {planned : PlannedChunk} (hlow : chain.startBlock.toNat ≤ planned.range.start)
    (hproper : planned.range.start ≤ planned.range.end) (hhigh : planned.range.end ≤ maxBlock)
    (hpopulated : ScannableBlock (store.indexed chain.key) planned.range.start)
    (chunks : List IndexedArtifactDescriptor) :
    ∃ after, publishPlannedWalletScan publisher chain scope store chunks planned = .ok after := by
  obtain ⟨chunk, hchunk⟩ := hpublishable.exists_chunk hlow hproper hhigh
  have hprepared : ∃ published, prepareWalletScanChunk publisher.library scope planned.range.start
      planned.range.end (scannedRows planned.range.start planned.range.end
        (store.indexed chain.key)) .zstd = .ok published := by
    rw [prepareWalletScanChunk, hchunk, ok_bind, if_neg (Nat.not_lt.mpr (hpublishable.size_le hchunk))]
    exact ⟨_, rfl⟩
  obtain ⟨published, hprepared⟩ := hprepared
  obtain ⟨cid, hcid⟩ := hpublishable.pins published.descriptor published.compressedBytes
  have hpinned : reuseOrPinChunk publisher published.descriptor published.compressedBytes
      = .ok { published.descriptor with cid } := bind_eq_ok.mpr ⟨cid, hcid, rfl⟩
  refine ⟨chunks ++ [{ published.descriptor with cid }],
    bind_eq_ok.mpr ⟨_, mapError_eq_ok.mpr (hpublishable.rows_eq hproper hhigh), ?_⟩⟩
  rw [if_neg (isEmpty_scannedRows hpopulated le_rfl hproper)]
  exact bind_eq_ok.mpr ⟨_, mapError_eq_ok.mpr hprepared, bind_eq_ok.mpr ⟨_, hpinned, rfl⟩⟩

theorem ScansPublishable.exists_chunks
    (hplanner : GroupsItems publisher.library) (hle : chain.startBlock.toNat ≤ maxBlock)
    (hspan : 0 < bucketSpan) (hspanFits : bucketSpan < i64Bound) :
    ∃ chunks, walletScanChunks publisher chain scope bucketSpan maxBlock store = .ok chunks := by
  obtain ⟨items, hitems, hsizes⟩ := hpublishable.exists_planItems hle hspan hspanFits
  have hcoversItems := walletScanPlanItems_eq_ok hle hitems
  obtain ⟨planned, hplanned⟩ := hpublishable.plans items hcoversItems.inOrder hsizes
  have hplan : planWalletScanChunks publisher items = .ok planned := by
    rw [planWalletScanChunks, hplanned]
  obtain ⟨groups, hgroups, hjoins⟩ := hplanner.joins hplanned
  rw [← hgroups] at hcoversItems
  have hcovers := hcoversItems.joins hjoins
  obtain ⟨chunks, hchunks⟩ := exists_foldlM_eq_ok (fun before chunk hchunk =>
    hpublishable.exists_publishPlanned (hcovers.inside chunk hchunk).1
      (hcovers.inOrder.proper chunk hchunk) (hcovers.inside chunk hchunk).2
      (hcovers.populated chunk hchunk) before) []
  exact ⟨chunks, bind_eq_ok.mpr ⟨items, hitems, bind_eq_ok.mpr ⟨planned, hplan, hchunks⟩⟩⟩

end

theorem CoversChunks.sum_rowCount {startBlock endBlock : Nat}
    (hcovers : CoversChunks publisher scope startBlock endBlock tables chunks) :
    (chunks.map fun chunk => chunk.rowCount).sum
      = (walletScanBlocks startBlock endBlock tables).length := by
  rw [← hcovers.covers.sum_count]
  congr 1
  apply List.map_congr_left
  intro chunk hchunk
  exact (hcovers.encodes chunk hchunk).rowCount

theorem CoversChunks.length_le {startBlock endBlock : Nat}
    (hcovers : CoversChunks publisher scope startBlock endBlock tables chunks) :
    chunks.length ≤ (walletScanBlocks startBlock endBlock tables).length := by
  rw [← hcovers.sum_rowCount, ← List.length_map]
  apply List.length_le_sum_of_one_le
  intro rowCount hrowCount
  obtain ⟨chunk, hchunk, rfl⟩ := List.mem_map.mp hrowCount
  rw [(hcovers.encodes chunk hchunk).rowCount, count_scannedRows]
  exact List.length_pos_of_mem (mem_walletScanBlocks.mpr ⟨hcovers.covers.populated chunk hchunk,
    le_rfl, hcovers.covers.inOrder.proper chunk hchunk⟩)

section

variable (hpublishable : ScansPublishable publisher library chain scope maxBlock store)

include hpublishable

section

variable (hcovers : CoversChunks publisher scope chain.startBlock.toNat maxBlock
  (store.indexed chain.key) chunks)

include hcovers

theorem ScansPublishable.sum_byteSize_lt :
    (chunks.map fun chunk => chunk.byteSize).sum < u64Bound := by
  have hsize : ∀ size ∈ chunks.map fun chunk => chunk.byteSize,
      size ≤ max 1 publisher.library.maxCompressedChunkBytes := by
    intro size hmem
    obtain ⟨chunk, hchunk, rfl⟩ := List.mem_map.mp hmem
    have hchunkOf := hcovers.encodes chunk hchunk
    obtain ⟨encoded, compressedBytes, hencodes, hcompressed, hbytes, -⟩ := hchunkOf.encodes
    rw [hchunkOf.range, hchunkOf.rowCount] at hcompressed
    obtain ⟨found, hfound, hle⟩ := hpublishable.encodes _ _ encoded hencodes
    rw [hbytes, Except.ok.inj (hcompressed.symm.trans hfound)]
    exact hle.trans (Nat.le_max_right _ _)
  calc (chunks.map fun chunk => chunk.byteSize).sum
      ≤ (chunks.map fun chunk => chunk.byteSize).length
          • max 1 publisher.library.maxCompressedChunkBytes := List.sum_le_card_nsmul _ _ hsize
    _ = chunks.length * max 1 publisher.library.maxCompressedChunkBytes := by
        rw [List.length_map, smul_eq_mul]
    _ ≤ (walletScanBlocks chain.startBlock.toNat maxBlock (store.indexed chain.key)).length
          * max 1 publisher.library.maxCompressedChunkBytes :=
        Nat.mul_le_mul_right _ hcovers.length_le
    _ < u64Bound := hpublishable.sums

theorem ScansPublishable.sum_rowCount_lt :
    (chunks.map fun chunk => chunk.rowCount).sum < u64Bound := by
  rw [hcovers.sum_rowCount]
  apply lt_of_le_of_lt _ hpublishable.sums
  exact Nat.le_mul_of_pos_right _ (Nat.lt_of_lt_of_le Nat.zero_lt_one (Nat.le_max_left _ _))

end

end

end Success

/-! ### The whole catalog -/

section Whole

variable {publisher : Publisher} {library : CatalogLibrary} {chain : ChainIndexedChainConfig}
  {scope : ContractKey} {store : Store} {bucketSpan maxBlock : Nat}

/-- The chunks are apart, in order and inside the range of blocks. They have every scannable row of the
range once, in the section of its table, and count them. -/
structure PublishesScans (publisher : Publisher) (scope : ContractKey) (startBlock endBlock : Nat)
    (tables : IndexedTables) (chunks : List IndexedArtifactDescriptor) : Prop where
  inOrder : InOrder (fun chunk : IndexedArtifactDescriptor => chunk.range.start)
    (fun chunk => chunk.range.end) chunks
  inside : ∀ chunk ∈ chunks, startBlock ≤ chunk.range.start ∧ chunk.range.end ≤ endBlock
  encodes : ∃ parts, List.Forall₂ (fun part (chunk : IndexedArtifactDescriptor) =>
      WalletScanChunkOf publisher scope chunk.range.start chunk.range.end part chunk) parts chunks
    ∧ ScansOnce startBlock endBlock tables parts
  total : (chunks.map fun chunk => chunk.rowCount).sum
    = (walletScanBlocks startBlock endBlock tables).length

theorem CoversChunks.publishes {startBlock endBlock : Nat} {tables : IndexedTables}
    {chunks : List IndexedArtifactDescriptor}
    (hcovers : CoversChunks publisher scope startBlock endBlock tables chunks) :
    PublishesScans publisher scope startBlock endBlock tables chunks := by
  refine ⟨hcovers.covers.inOrder, hcovers.covers.inside, ⟨_, ?_, hcovers.covers.scansOnce⟩,
    hcovers.sum_rowCount⟩
  rw [List.forall₂_map_left_iff, List.forall₂_same]
  exact hcovers.encodes

end Whole

/-! ### A small store -/

section Small

def smallSource (blockNumber logIndex : Nat) : SourceColumns :=
  ⟨blockNumber, 1, 0, 0, logIndex⟩

def scanTables : IndexedTables where
  transactCommitments := (OrdMap.empty.insert (toLex (0, 0)) ⟨smallSource 5 0, 7, some [1]⟩).insert
    (toLex (0, 1)) ⟨smallSource 5 1, 8, none⟩
  shieldCommitments := OrdMap.empty.insert (toLex (0, 2)) ⟨smallSource 6 0, 9, [2], [3]⟩
  nullifiers := OrdMap.empty.insert (toLex (0, 4)) ⟨smallSource 300 0, ()⟩

def scanStore : Store where
  indexed _ := scanTables

def toyCatalogLibrary : CatalogLibrary where
  deterministicBodyBytes _ := some []
  contentHash _ := 0
  catalogFormatVersion := 1
  reuseOrPinCatalog _ _ := .ok "catalog"

theorem scansPublishable_small :
    ScansPublishable toyPublisher toyCatalogLibrary smallChain ⟨1, 1⟩ 400 scanStore where
  chainId := by decide
  block := by decide
  trees := by
    constructor <;> (unfold ScanTable.Fits; decide +kernel)
  bytes := by
    constructor <;> decide +kernel
  encodes _ _ _ _ := ⟨_, rfl, List.length_take_le _ _⟩
  plans _ _ _ := ⟨_, rfl⟩
  sums := by decide +kernel
  pins _ _ := ⟨_, rfl⟩
  serializes _ := ⟨_, rfl⟩
  pinsCatalog _ _ := ⟨_, rfl⟩

end Small

end RailgunIndexer
