import RailgunIndexer.SquidParity
import RailgunIndexer.Proof.CommitmentCatalog
import RailgunIndexer.Proof.MerkleCheckpoint
import RailgunIndexer.Proof.PublicTxidPayload
import RailgunIndexer.Proof.WalletScanCatalog

/-!
# What the Squid parity verifier reads

The verifier reads back what the publisher writes: the rows of the five wallet-scan sections, the rows
of a commitment chunk and the leaves of a checkpoint, whose root it computes again.
-/

namespace RailgunIndexer

namespace SquidParity

open Lib Fallible Cursor

/-! ### Chunks -/

section Chunks

variable {library : ArtifactLibrary} {trees : TreeLibrary} {scope : ContractKey}
  {compression : CompressionAlgorithm}
  {decodeChunkBytes : IndexedArtifactDescriptor → Bytes → Option ChunkEnvelope}
  {decodeCiphertext : Bytes → Option TransactCiphertextOverlap}
  {checkpoint : MerkleCheckpointArtifact}

structure ReadsScan (decodeChunkBytes : IndexedArtifactDescriptor → Bytes → Option ChunkEnvelope)
    (decodeCiphertext : Bytes → Option TransactCiphertextOverlap) (rows : StoredWalletScanRows)
    (chunk : PublishedWalletScanChunk) (envelope : ChunkEnvelope) : Prop where
  decodes : decodeChunkBytes chunk.descriptor chunk.compressedBytes = some envelope
  parses : parseWalletPayload decodeCiphertext envelope = .ok (walletArtifacts decodeCiphertext rows)
  tiles : SectionsTile envelope.sections envelope.payload
  rowCount : envelope.rowCount = rows.count ∧ chunk.descriptor.rowCount = rows.count

theorem readsScan {startBlock endBlock : Nat} {rows : StoredWalletScanRows}
    {chunk : PublishedWalletScanChunk} (hdecodes : DecodesChunks library decodeChunkBytes)
    (hprepared : prepareWalletScanChunk library scope startBlock endBlock rows compression
      = .ok chunk)
    (hfits : FitsScan rows) (hciphertexts : ∀ record ∈ rows.transactCommitments,
      (decodeCiphertext record.ciphertext).isSome = true) :
    ∃ envelope, ReadsScan decodeChunkBytes decodeCiphertext rows chunk envelope := by
  obtain ⟨encodedChunk, hencodedChunk, hprepared⟩ := bind_eq_ok.mp hprepared
  split_ifs at hprepared
  cases hprepared
  have hscan := encodeWalletScanChunk_eq_ok hencodedChunk
  obtain ⟨encoded, hencodes, hbytes⟩ := hscan.encodes
  have hparsed := hencodes.parsed hfits decodeCiphertext hciphertexts
  rw [encodeWalletScanEnvelope] at hbytes
  split at hbytes
  · rename_i found hencode
    cases hbytes
    refine ⟨_, hdecodes _ _ _ ⟨rfl, rfl, rfl, rfl, rfl, rfl, rfl⟩ hencode, ?_, hparsed.tiles,
      hscan.rowCount, hscan.rowCount⟩
    have hparses := hparsed.parses []
    rwa [List.append_nil] at hparses
  · cases hbytes

def commitmentRow (record : StoredCommitmentRow) : CommitmentRow where
  globalPosition := record.globalPosition
  blockNumber := record.blockNumber
  treeNumber := record.treeNumber
  treePosition := record.treePosition
  hash := record.commitmentHash

theorem readCommitmentRow_eq : readCommitmentRow = (do
    let record ← readStoredCommitment
    pure (commitmentRow record)) := by
  simp only [readCommitmentRow, readStoredCommitment, commitmentRow, bind_assoc, pure_bind]

theorem reads_commitmentRows {records : List StoredCommitmentRow} (hfits : FitsCommitments records) :
    Reads (readRows readCommitmentRow) (encodeCommitmentRecords records)
      (records.map commitmentRow) := by
  apply reads_encodeCommitmentRecords hfits.length
  intro record hrecord
  rw [readCommitmentRow_eq]
  exact (reads_storedCommitment hfits hrecord).map

theorem parseCommitmentPayload_prepared {records : List StoredCommitmentRow}
    {chunk : PublishedCommitmentChunk} (hdecodes : DecodesChunks library decodeChunkBytes)
    (hprepared : prepareCommitmentChunk library scope records compression = .ok chunk)
    (hfits : FitsCommitments records) :
    ∃ envelope, decodeChunkBytes chunk.descriptor chunk.compressedBytes = some envelope
      ∧ parseCommitmentPayload envelope = .ok (records.map commitmentRow) := by
  obtain ⟨⟨range, compressedBytes⟩, hencoded, hprepared⟩ := bind_eq_ok.mp hprepared
  obtain ⟨-, hencode⟩ := encodeCommitmentChunk_eq_ok hencoded
  dsimp only at hprepared
  split_ifs at hprepared
  cases hprepared
  refine ⟨_, hdecodes _ _ _ ⟨rfl, rfl, rfl, rfl, rfl, rfl, rfl⟩ hencode, ?_⟩
  rw [parseCommitmentPayload, commitmentEnvelope, (reads_commitmentRows hfits).whole, ok_bind]
  dsimp only
  rw [expectEnd_whole, ok_bind, List.length_map, if_neg (not_not.mpr rfl), pure_eq_ok]

structure FitsCheckpoint (checkpoint : MerkleCheckpointArtifact) : Prop where
  treeNumber : checkpoint.treeNumber < u32Bound
  lastIndexedBlock : checkpoint.lastIndexedBlock < u64Bound

theorem validateCheckpoint_eq_ok (hok : validateCheckpoint checkpoint = .ok ()) :
    checkpoint.leaves ≠ [] ∧ checkpoint.leaves.length ≤ treeLeafCount
      ∧ checkpoint.leaves.length = checkpoint.leafCount := by
  rw [validateCheckpoint] at hok
  split_ifs at hok with hempty hlarge hlength
  rw [ne_eq, not_not] at hlength
  refine ⟨?_, by omega, hlength⟩
  rintro hnil
  rw [hnil, List.length_nil] at hlength
  exact hempty hlength.symm

theorem reads_checkpoint {root : Bytes32}
    (descriptor : IndexedArtifactDescriptor) (hfits : FitsCheckpoint checkpoint)
    (hlength : checkpoint.leaves.length = checkpoint.leafCount)
    (hcount : checkpoint.leafCount < u64Bound) :
    Reads (readCheckpoint descriptor) (encodeMerkleCheckpoint checkpoint root)
      ⟨descriptor, checkpoint.treeNumber, checkpoint.leafCount, root, checkpoint.lastIndexedBlock,
        checkpoint.leaves⟩ := by
  have hleaves : List.Forall₂ (Reads readFixed32) (checkpoint.leaves.map writeBytes32)
      checkpoint.leaves := by
    rw [List.forall₂_map_left_iff, List.forall₂_same]
    exact fun leaf _ => reads_fixed32 leaf
  have hmany := Reads.many hleaves
  rw [hlength] at hmany
  refine (reads_u32 hfits.treeNumber).bind ((reads_u64 hcount).bind ?_)
  exact (reads_fixed32 root).bind ((reads_u64 hfits.lastIndexedBlock).bind hmany.map)

theorem parseMerkleCheckpointPayload_of_reads {descriptor : IndexedArtifactDescriptor}
    {envelope : ChunkEnvelope} {artifact : CheckpointArtifact}
    (hreads : Reads (readCheckpoint descriptor) envelope.payload artifact)
    (hroot : merkleRoot trees artifact.leaves = .ok artifact.root) :
    parseMerkleCheckpointPayload trees descriptor envelope = .ok artifact := by
  rw [parseMerkleCheckpointPayload, hreads.whole, ok_bind]
  dsimp only
  rw [expectEnd_whole, ok_bind, hroot]
  exact if_neg (not_not.mpr rfl)

theorem parseMerkleCheckpointPayload_prepared {published : PublishedMerkleCheckpointArtifact}
    (hdecodes : DecodesChunks library decodeChunkBytes)
    (hprepared : prepareMerkleCheckpointArtifact library trees scope checkpoint compression
      = .ok published)
    (hfits : FitsCheckpoint checkpoint) :
    ∃ envelope, decodeChunkBytes published.descriptor published.compressedBytes = some envelope
      ∧ parseMerkleCheckpointPayload trees published.descriptor envelope
        = .ok ⟨published.descriptor, checkpoint.treeNumber, checkpoint.leafCount,
          checkpointRoot trees checkpoint, checkpoint.lastIndexedBlock, checkpoint.leaves⟩ := by
  obtain ⟨⟨⟩, hvalid, hprepared⟩ := bind_eq_ok.mp hprepared
  obtain ⟨range, hrange, hprepared⟩ := bind_eq_ok.mp hprepared
  obtain ⟨hne, htree, hlength⟩ := validateCheckpoint_eq_ok hvalid
  have hcount : checkpoint.leafCount < u64Bound := by
    rw [← hlength]
    exact htree.trans_lt (by decide)
  have hroot := merkleRoot_eq_checkpointRoot trees hne htree
  generalize checkpointRoot trees checkpoint = root at hroot hprepared ⊢
  dsimp only at hprepared
  split at hprepared
  · cases hprepared
  · rename_i bytes hencode
    split_ifs at hprepared
    cases hprepared
    refine ⟨_, hdecodes _ _ _ ⟨rfl, rfl, rfl, rfl, rfl, rfl, rfl⟩ hencode, ?_⟩
    exact parseMerkleCheckpointPayload_of_reads (reads_checkpoint _ hfits hlength hcount) hroot

/-- **The verifier reads back what the publisher encodes**, in all three layouts. -/
theorem payloads_roundTrip (hdecodes : DecodesChunks library decodeChunkBytes) :
    (∀ (startBlock endBlock : Nat) (rows : StoredWalletScanRows) (chunk : PublishedWalletScanChunk),
      prepareWalletScanChunk library scope startBlock endBlock rows compression = .ok chunk →
      FitsScan rows →
      (∀ record ∈ rows.transactCommitments,
        (decodeCiphertext record.ciphertext).isSome = true) →
      ∃ envelope, ReadsScan decodeChunkBytes decodeCiphertext rows chunk envelope)
    ∧ (∀ (records : List StoredCommitmentRow) (chunk : PublishedCommitmentChunk),
      prepareCommitmentChunk library scope records compression = .ok chunk →
      FitsCommitments records →
      ∃ envelope, decodeChunkBytes chunk.descriptor chunk.compressedBytes = some envelope
        ∧ parseCommitmentPayload envelope = .ok (records.map commitmentRow))
    ∧ ∀ (checkpoint : MerkleCheckpointArtifact) (published : PublishedMerkleCheckpointArtifact),
      prepareMerkleCheckpointArtifact library trees scope checkpoint compression = .ok published →
      FitsCheckpoint checkpoint →
      ∃ envelope, decodeChunkBytes published.descriptor published.compressedBytes = some envelope
        ∧ parseMerkleCheckpointPayload trees published.descriptor envelope
          = .ok ⟨published.descriptor, checkpoint.treeNumber, checkpoint.leafCount,
            checkpointRoot trees checkpoint, checkpoint.lastIndexedBlock, checkpoint.leaves⟩ := by
  refine ⟨?_, ?_, ?_⟩
  · intro startBlock endBlock rows chunk hprepared hfits hciphertexts
    exact readsScan hdecodes hprepared hfits hciphertexts
  · intro records chunk hprepared hfits
    exact parseCommitmentPayload_prepared hdecodes hprepared hfits
  · intro checkpoint published hprepared hfits
    exact parseMerkleCheckpointPayload_prepared hdecodes hprepared hfits

end Chunks

/-! ### Two of each -/

section Two

def scannedSource : StoredIndexedLogSourceRow := ⟨1, some 2, 3, 4, 5⟩

def twoScans : StoredWalletScanRows where
  transactCommitments := [⟨scannedSource, 0, 3, 5, [1, 2]⟩, ⟨scannedSource, 0, 4, 7, []⟩]
  nullifiers := [⟨scannedSource, 0, 6⟩, ⟨scannedSource, 0, 8⟩]

def twoCommitments : List StoredCommitmentRow :=
  [⟨3, 1, .transact, 0, 3, 5⟩, ⟨4, 1, .shield, 0, 4, 7⟩]

def twoLeaves : MerkleCheckpointArtifact := ⟨0, 2, 1, [5, 7]⟩

def knownEnvelopes : List ChunkEnvelope :=
  let scan := ((encodeWalletScanRecords twoScans).toOption.getD (⟨[], []⟩, 0)).1
  [⟨.walletScan, ⟨1, 1⟩, ⟨.block, 1, 1⟩, 4, scan.payload.length, scan.sections, scan.payload⟩,
    commitmentEnvelope ⟨1, 1⟩ ⟨.treePosition, 3, 4⟩ 2 (encodeCommitmentRecords twoCommitments),
    merkleCheckpointEnvelope ⟨1, 1⟩ ⟨.treePosition, 0, 1⟩ 2
      (encodeMerkleCheckpoint twoLeaves (checkpointRoot mixLibrary twoLeaves))]

def tableLibrary : ArtifactLibrary :=
  { toyLibrary with
    encodeChunkBytes := fun envelope _ =>
      (knownEnvelopes.findIdx? fun known => known = envelope).map fun position =>
        List.replicate position 0
    maxCompressedChunkBytes := 2 }

def tableDecode (_ : IndexedArtifactDescriptor) (bytes : Bytes) : Option ChunkEnvelope :=
  knownEnvelopes[bytes.length]?

def plainOverlap (memo : Bytes) : Option TransactCiphertextOverlap :=
  some ⟨Vector.replicate 4 0, 0, memo⟩

theorem decodesChunks_table : DecodesChunks tableLibrary tableDecode := by
  intro descriptor envelope bytes _ hencode
  obtain ⟨position, hposition, rfl⟩ := Option.map_eq_some_iff.mp hencode
  obtain ⟨hlt, hknown, -⟩ := List.findIdx?_eq_some_iff_getElem.mp hposition
  rw [tableDecode, List.length_replicate, List.getElem?_eq_getElem hlt, of_decide_eq_true hknown]

theorem fitsSource_scanned : FitsSource scannedSource where
  blockNumber := by decide
  blockTimestamp := by
    rintro timestamp htimestamp
    cases htimestamp
    decide

theorem fitsScan_two : FitsScan twoScans where
  transact := by
    rw [twoScans, List.forall_mem_cons, List.forall_mem_singleton]
    exact ⟨⟨fitsSource_scanned, by decide, by decide⟩, fitsSource_scanned, by decide, by decide⟩
  shield := List.forall_mem_nil _
  nullifier := by
    rw [twoScans, List.forall_mem_cons, List.forall_mem_singleton]
    exact ⟨⟨fitsSource_scanned, by decide⟩, fitsSource_scanned, by decide⟩
  legacyEncrypted := List.forall_mem_nil _
  legacyGenerated := List.forall_mem_nil _

theorem fitsCommitments_two : FitsCommitments twoCommitments := by
  constructor
  · decide
  all_goals
    decide

theorem payloads_roundTrip_two : (∃ chunk envelope,
      prepareWalletScanChunk tableLibrary ⟨1, 1⟩ 1 1 twoScans .none = .ok chunk
        ∧ ReadsScan tableDecode plainOverlap twoScans chunk envelope)
    ∧ (∃ chunk envelope,
      prepareCommitmentChunk tableLibrary ⟨1, 1⟩ twoCommitments .none = .ok chunk
        ∧ tableDecode chunk.descriptor chunk.compressedBytes = some envelope
        ∧ parseCommitmentPayload envelope = .ok [⟨3, 1, 0, 3, 5⟩, ⟨4, 1, 0, 4, 7⟩])
    ∧ ∃ published envelope artifact,
      prepareMerkleCheckpointArtifact tableLibrary mixLibrary ⟨1, 1⟩ twoLeaves .none = .ok published
        ∧ tableDecode published.descriptor published.compressedBytes = some envelope
        ∧ parseMerkleCheckpointPayload mixLibrary published.descriptor envelope = .ok artifact := by
  obtain ⟨hscans, hcommitments, hcheckpoints⟩ :=
    @payloads_roundTrip tableLibrary mixLibrary ⟨1, 1⟩ .none tableDecode plainOverlap
      decodesChunks_table
  obtain ⟨scan, hscan⟩ : ∃ chunk,
      prepareWalletScanChunk tableLibrary ⟨1, 1⟩ 1 1 twoScans .none = .ok chunk :=
    exists_eq_ok_of_isSome (by decide +kernel)
  obtain ⟨commitments, hcommitment⟩ : ∃ chunk,
      prepareCommitmentChunk tableLibrary ⟨1, 1⟩ twoCommitments .none = .ok chunk :=
    exists_eq_ok_of_isSome (by decide +kernel)
  obtain ⟨checkpoint, hcheckpoint⟩ : ∃ published,
      prepareMerkleCheckpointArtifact tableLibrary mixLibrary ⟨1, 1⟩ twoLeaves .none
        = .ok published :=
    exists_eq_ok_of_isSome (by decide +kernel)
  obtain ⟨scanEnvelope, hreads⟩ := hscans 1 1 twoScans scan hscan fitsScan_two fun _ _ => rfl
  obtain ⟨rowsEnvelope, hrows⟩ := hcommitments _ _ hcommitment fitsCommitments_two
  obtain ⟨leafEnvelope, hdecoded, hleaf⟩ := hcheckpoints _ _ hcheckpoint ⟨by decide, by decide⟩
  exact ⟨⟨scan, scanEnvelope, hscan, hreads⟩, ⟨commitments, rowsEnvelope, hcommitment, hrows⟩,
    checkpoint, leafEnvelope, _, hcheckpoint, hdecoded, hleaf⟩

end Two

end SquidParity

end RailgunIndexer
