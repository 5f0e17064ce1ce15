import RailgunIndexer.CommitmentChunk
import RailgunIndexer.SquidParity
import RailgunIndexer.TxidParity
import RailgunIndexer.Lib.Fallible
import RailgunIndexer.Lib.Tiling

/-!
# Records read back

A record is written field by field, and a reader that keeps every field takes it back. The rows of a
public TXID chunk and of a commitment chunk are what these readers take from their sections.
-/

namespace RailgunIndexer

open Lib Fallible Cursor

/-! ### Fields -/

variable {bytes : Bytes}

theorem length_writeLittleEndian (width value : Nat) :
    (writeLittleEndian width value).length = width := by
  rw [writeLittleEndian, List.length_map, List.length_range]

theorem reads_integer {width value : Nat} (hvalue : value < 256 ^ width) :
    Reads (readInteger width) (writeLittleEndian width value) value :=
  reads_littleEndian TxidParityError.unexpectedEnd hvalue

theorem reads_u64 {ε : Type} {short : ε} {value : Nat} (hvalue : value < u64Bound) :
    Reads (readLittleEndian short 8) (writeLittleEndian 8 value) value :=
  reads_littleEndian short hvalue

theorem fromUtf8_toUTF8 (text : String) : fromUtf8 text.toUTF8.data.toList = pure text := by
  have hbytes : (⟨text.toUTF8.data.toList.toArray⟩ : ByteArray) = text.toByteArray := by
    rfl
  have hvalid : String.fromUTF8? text.toByteArray = some text := by
    rw [String.fromUTF8?, dif_pos text.isValidUTF8]
    rfl
  rw [fromUtf8, hbytes, hvalid]

theorem reads_string {text : String} (hok : writeString text = .ok bytes) :
    Reads readString bytes text := by
  rw [writeString] at hok
  split_ifs at hok with hlength
  cases hok
  have htext : Reads (do
      let bytes ← readExact .unexpectedEnd text.toUTF8.data.toList.length
      fromUtf8 bytes) text.toUTF8.data.toList text := by
    have hvalid : Reads (fromUtf8 text.toUTF8.data.toList) [] text := by
      rw [fromUtf8_toUTF8]
      exact Reads.pure text
    have hboth := (reads_exact TxidParityError.unexpectedEnd text.toUTF8.data.toList).bind hvalid
    rwa [List.append_nil] at hboth
  exact (reads_integer (Nat.lt_of_not_le hlength)).bind htext

theorem reads_fixed32 {ε : Type} {short : ε} (word : Bytes32) :
    Reads (do
      let bytes ← readExact short 32
      pure (FixedBytes.ofNat (bigEndian bytes) : Bytes32)) (writeBytes32 word) word := by
  have hlength : (writeBytes32 word).length = 32 := by
    rw [writeBytes32, List.length_map, List.length_range]
  have hbytes := reads_exact short (writeBytes32 word)
  have hread := @Reads.map _ _ _ _ _ _ (fun bytes => (FixedBytes.ofNat (bigEndian bytes) : Bytes32))
    hbytes
  have hvalue : bigEndian (writeBytes32 word) = word.val := bigEndian_range word.isLt
  rwa [hvalue, FixedBytes.ofNat, Fin.ofNat_val_eq_self] at hread

theorem reads_fixedVec {values : List Bytes32} (hok : writeFixedBytesVec values = .ok bytes) :
    Reads readFixedVec bytes values := by
  rw [writeFixedBytesVec] at hok
  split_ifs at hok with hlength
  cases hok
  have hwords : List.Forall₂ (Reads readFixed32) (values.map writeBytes32) values := by
    rw [List.forall₂_map_left_iff, List.forall₂_same]
    exact fun word _ => reads_fixed32 word
  exact (reads_integer (Nat.lt_of_not_le hlength)).bind (Reads.many hwords)

theorem reads_flag (flag : Bool) :
    Reads readU8 [if flag then 1 else 0] (if flag then 1 else 0) := by
  cases flag
  · exact @reads_integer 1 0 (by decide)
  · exact @reads_integer 1 1 (by decide)

/-! ### Public TXID rows -/

structure StoredPublicTxidRow.FitsWords (record : StoredPublicTxidRow) : Prop where
  txidIndex : record.txidIndex < u64Bound
  blockNumber : record.blockNumber < u64Bound
  blockTimestamp : record.blockTimestamp < u64Bound
  firstLogIndex : record.firstLogIndex < u64Bound
  lastLogIndex : record.lastLogIndex < u64Bound
  utxoTreeIn : record.utxoTreeIn < u64Bound
  utxoTreeOut : record.utxoTreeOut < u64Bound
  utxoBatchStartPositionOut : record.utxoBatchStartPositionOut < u64Bound

def StoredPublicTxidRow.written (record : StoredPublicTxidRow) : StoredPublicTxidRow :=
  { record with unshieldPreimage := none }

def readWrittenRow : TxidReader StoredPublicTxidRow := do
  let txidIndex ← readU64
  let id ← readString
  let blockNumber ← readU64
  let blockTimestamp ← readU64
  let blockHash ← readFixed32
  let transactionHash ← readFixed32
  let firstLogIndex ← readU64
  let lastLogIndex ← readU64
  let nullifiers ← readFixedVec
  let commitments ← readFixedVec
  let boundParamsHash ← readFixed32
  let hasUnshield ← readU8
  let utxoTreeIn ← readU64
  let utxoTreeOut ← readU64
  let utxoBatchStartPositionOut ← readU64
  pure
    { txidIndex, id, blockNumber, blockTimestamp, blockHash, transactionHash, firstLogIndex,
      lastLogIndex, nullifiers, commitments, boundParamsHash, hasUnshield := hasUnshield ≠ 0,
      unshieldPreimage := none, utxoTreeIn, utxoTreeOut, utxoBatchStartPositionOut }

theorem reads_writtenRow {record : StoredPublicTxidRow} (hfits : record.FitsWords)
    (hok : encodePublicTxidRecord record = .ok bytes) :
    Reads readWrittenRow bytes record.written := by
  obtain ⟨id, hid, hok⟩ := bind_eq_ok.mp hok
  obtain ⟨nullifiers, hnullifiers, hok⟩ := bind_eq_ok.mp hok
  obtain ⟨commitments, hcommitments, hok⟩ := bind_eq_ok.mp hok
  cases hok
  have hflag : decide ((if record.hasUnshield then 1 else 0) ≠ 0) = record.hasUnshield := by
    cases record.hasUnshield <;> rfl
  have hrow : record.written = { record.written with
      hasUnshield := decide ((if record.hasUnshield then 1 else 0) ≠ 0) } := by
    rw [hflag]
    rfl
  rw [hrow]
  simp only [List.append_assoc]
  refine (reads_u64 hfits.txidIndex).bind ((reads_string hid).bind ?_)
  refine (reads_u64 hfits.blockNumber).bind ((reads_u64 hfits.blockTimestamp).bind ?_)
  refine (reads_fixed32 record.blockHash).bind ((reads_fixed32 record.transactionHash).bind ?_)
  refine (reads_u64 hfits.firstLogIndex).bind ((reads_u64 hfits.lastLogIndex).bind ?_)
  refine (reads_fixedVec hnullifiers).bind ((reads_fixedVec hcommitments).bind ?_)
  refine (reads_fixed32 record.boundParamsHash).bind ((reads_flag record.hasUnshield).bind ?_)
  refine (reads_u64 hfits.utxoTreeIn).bind ((reads_u64 hfits.utxoTreeOut).bind ?_)
  exact (reads_u64 hfits.utxoBatchStartPositionOut).map

theorem reads_writtenRows {records : List StoredPublicTxidRow}
    (hfits : ∀ record ∈ records, record.FitsWords)
    (hok : encodePublicTxidRecords records = .ok bytes) :
    Reads (readMany readWrittenRow records.length) bytes
      (records.map StoredPublicTxidRow.written) := by
  obtain ⟨parts, hparts, hok⟩ := bind_eq_ok.mp hok
  cases hok
  have hread := Reads.many (forall₂_of_mapM hparts fun record hrecord _ =>
    reads_writtenRow (hfits record hrecord))
  rwa [List.length_map] at hread

/-! ### Sections -/

theorem writeLittleEndian_append_ne_nil {width value : Nat} (rest : Bytes) (hwidth : 0 < width) :
    writeLittleEndian width value ++ rest ≠ [] := by
  apply List.append_ne_nil_of_left_ne_nil
  rw [← List.length_pos_iff, length_writeLittleEndian]
  exact hwidth

/-- Each section starts where the one before ends, and the last ends with the payload. -/
structure SectionsTile (sections : List ChunkSection) (payload : Bytes) : Prop where
  nonempty : ∀ found ∈ sections, 0 < found.byteLength
  tiles : Tiles ChunkSection.offset (fun found => found.offset + found.byteLength - 1) 0
    payload.length sections

theorem sectionsTile_nil : SectionsTile [] [] :=
  ⟨List.forall_mem_nil _, .nil⟩

theorem SectionsTile.append {sections : List ChunkSection} {payload bytes : Bytes}
    (htile : SectionsTile sections payload) (hbytes : bytes ≠ []) (sectionId : Nat) :
    SectionsTile (sections ++ [⟨sectionId, payload.length, bytes.length⟩]) (payload ++ bytes) := by
  have hpositive := List.length_pos_iff.mpr hbytes
  have hend : payload.length + bytes.length - 1 + 1 = (payload ++ bytes).length := by
    rw [List.length_append]
    omega
  refine ⟨?_, ?_⟩
  · rw [List.forall_mem_append, List.forall_mem_singleton]
    exact ⟨htile.nonempty, hpositive⟩
  · have hlast : Tiles ChunkSection.offset (fun found => found.offset + found.byteLength - 1)
        payload.length (payload.length + bytes.length - 1 + 1)
        [⟨sectionId, payload.length, bytes.length⟩] :=
      .cons rfl (Nat.le_sub_one_of_lt (Nat.lt_add_of_pos_right hpositive)) .nil
    rw [← hend]
    exact htile.tiles.append hlast

namespace SquidParity

/-! ### Counted rows -/

theorem reads_u32 {value : Nat} (hvalue : value < u32Bound) :
    Reads readU32 (writeLittleEndian 4 value) value :=
  reads_littleEndian ParityError.unexpectedEof hvalue

theorem reads_rows {ρ σ : Type} {read : ParityReader σ} {parts : List Bytes} {records : List ρ}
    {row : ρ → σ} (hlength : records.length < u64Bound)
    (hparts : List.Forall₂ (Reads read) parts (records.map row)) :
    Reads (readRows read) (writeLittleEndian 8 records.length ++ parts.flatten)
      (records.map row) := by
  have hmany := Reads.many hparts
  rw [List.length_map] at hmany
  exact (reads_u64 hlength).bind hmany

/-! ### Commitments -/

structure FitsCommitments (records : List StoredCommitmentRow) : Prop where
  length : records.length < u64Bound
  globalPosition : ∀ record ∈ records, record.globalPosition < u64Bound
  blockNumber : ∀ record ∈ records, record.blockNumber < u64Bound
  treeNumber : ∀ record ∈ records, record.treeNumber < u32Bound
  treePosition : ∀ record ∈ records, record.treePosition < u64Bound

theorem reads_family (family : StoredCommitmentFamily) :
    Reads readU8 [commitmentFamilyId family] (commitmentFamilyId family).toNat := by
  have hbyte : [commitmentFamilyId family]
      = writeLittleEndian 1 (commitmentFamilyId family).toNat := by
    cases family <;> rfl
  rw [hbyte]
  exact reads_littleEndian ParityError.unexpectedEof (commitmentFamilyId family).toNat_lt

def familyOfId : Nat → StoredCommitmentFamily
  | 0 => .transact
  | 1 => .shield
  | 2 => .legacyEncrypted
  | _ => .legacyGenerated

theorem familyOfId_commitmentFamilyId (family : StoredCommitmentFamily) :
    familyOfId (commitmentFamilyId family).toNat = family := by
  cases family <;> rfl

def readStoredCommitment : ParityReader StoredCommitmentRow := do
  let globalPosition ← readU64
  let blockNumber ← readU64
  let familyId ← readU8
  let treeNumber ← readU32
  let treePosition ← readU64
  let commitmentHash ← readFixed32
  pure
    { globalPosition, blockNumber, family := familyOfId familyId, treeNumber, treePosition,
      commitmentHash }

theorem reads_storedCommitment {records : List StoredCommitmentRow} {record : StoredCommitmentRow}
    (hfits : FitsCommitments records) (hrecord : record ∈ records) :
    Reads readStoredCommitment (encodeCommitmentRecord record) record := by
  have hread : Reads readStoredCommitment (encodeCommitmentRecord record) { record with
      family := familyOfId (commitmentFamilyId record.family).toNat } := by
    refine (reads_u64 (hfits.globalPosition record hrecord)).bind ?_
    refine (reads_u64 (hfits.blockNumber record hrecord)).bind ((reads_family record.family).bind ?_)
    refine (reads_u32 (hfits.treeNumber record hrecord)).bind ?_
    exact (reads_u64 (hfits.treePosition record hrecord)).bind (reads_fixed32 _).map
  rwa [familyOfId_commitmentFamilyId] at hread

theorem reads_encodeCommitmentRecords {σ : Type} {records : List StoredCommitmentRow}
    {read : ParityReader σ} {row : StoredCommitmentRow → σ} (hlength : records.length < u64Bound)
    (hrow : ∀ record ∈ records, Reads read (encodeCommitmentRecord record) (row record)) :
    Reads (readRows read) (encodeCommitmentRecords records) (records.map row) := by
  apply reads_rows hlength
  rw [List.forall₂_map_left_iff, List.forall₂_map_right_iff, List.forall₂_same]
  exact hrow

/-- **A commitment payload reads back as its rows.** -/
theorem reads_storedCommitments {records : List StoredCommitmentRow}
    (hfits : FitsCommitments records) :
    Reads (readRows readStoredCommitment) (encodeCommitmentRecords records) records := by
  have hrows := @reads_encodeCommitmentRecords _ records _ id hfits.length fun _ hrecord =>
    reads_storedCommitment hfits hrecord
  rwa [List.map_id] at hrows

end SquidParity

end RailgunIndexer
