import RailgunIndexer.Lib.Tiling
import RailgunIndexer.Proof.TxidParity
import RailgunIndexer.Proof.UnshieldPreimage

/-!
# What a public TXID payload determines

A reader that keeps every field takes each record back from its bytes, so two chunks with the same
sections hold the same rows. The unshield section holds an entry for each row with an unshield, or is
left out when one of them has no preimage.
-/

namespace RailgunIndexer

open Lib Fallible Cursor

/-! ### Records -/

theorem encodePublicTxidRecord_ne_nil {record : StoredPublicTxidRow} {bytes : Bytes}
    (hok : encodePublicTxidRecord record = .ok bytes) : bytes ≠ [] := by
  obtain ⟨id, -, hok⟩ := bind_eq_ok.mp hok
  obtain ⟨nullifiers, -, hok⟩ := bind_eq_ok.mp hok
  obtain ⟨commitments, -, hok⟩ := bind_eq_ok.mp hok
  cases hok
  simp only [List.append_assoc]
  exact writeLittleEndian_append_ne_nil _ (by decide)

section Records

variable {records others : List StoredPublicTxidRow} {payload otherPayload : Bytes}

theorem encodePublicTxidRecords_eq_ok (hok : encodePublicTxidRecords records = .ok payload) :
    ∃ parts, records.mapM encodePublicTxidRecord = .ok parts ∧ (∀ part ∈ parts, part ≠ [])
      ∧ payload = parts.flatten := by
  obtain ⟨parts, hparts, hok⟩ := bind_eq_ok.mp hok
  cases hok
  have hne := forall_mem_of_mapM hparts fun _ _ => encodePublicTxidRecord_ne_nil
  exact ⟨parts, hparts, hne, rfl⟩

theorem encodePublicTxidRecords_injective (hfits : ∀ record ∈ records, record.FitsWords)
    (hotherFits : ∀ record ∈ others, record.FitsWords)
    (hok : encodePublicTxidRecords records = .ok payload)
    (hother : encodePublicTxidRecords others = .ok payload) :
    records.map StoredPublicTxidRow.written = others.map StoredPublicTxidRow.written := by
  obtain ⟨parts, hparts, hne, hpayload⟩ := encodePublicTxidRecords_eq_ok hok
  obtain ⟨otherParts, hotherParts, hotherNe, hotherPayload⟩ := encodePublicTxidRecords_eq_ok hother
  have hread := forall₂_of_mapM hparts fun record hrecord _ => reads_writtenRow (hfits record hrecord)
  have hotherRead := forall₂_of_mapM hotherParts fun record hrecord _ =>
    reads_writtenRow (hotherFits record hrecord)
  exact Reads.flatten_injective hread hotherRead hne hotherNe (hpayload.symm.trans hotherPayload)

end Records

/-! ### Unshield entries -/

structure UnshieldEntry where
  txidIndex : Nat
  preimage : CommitmentPreimage

section Entries

variable {contracts : Contracts} {record : StoredPublicTxidRow} {entry : UnshieldEntry}

def UnshieldEntry.bytes (contracts : Contracts) (entry : UnshieldEntry) : Bytes :=
  writeLittleEndian 8 entry.txidIndex
    ++ writeLittleEndian 2 (contracts.encodePreimage entry.preimage).length
    ++ contracts.encodePreimage entry.preimage

structure EntryOf (contracts : Contracts) (record : StoredPublicTxidRow) (entry : UnshieldEntry) :
    Prop where
  txidIndex : entry.txidIndex = record.txidIndex
  preimage : record.unshieldPreimage.bind contracts.decodePreimage = some entry.preimage
  commitment : record.commitments.getLast? = some (contracts.preimageHash entry.preimage)

theorem encodeUnshieldPreimage_eq_ok {part : Option Bytes}
    (hok : encodeUnshieldPreimage contracts record = .ok part) :
    (record.hasUnshield = true ∧ record.unshieldPreimage = none ∧ part = none)
      ∨ (record.hasUnshield = false ∧ record.unshieldPreimage = none ∧ part = some [])
      ∨ (record.hasUnshield = true ∧ record.unshieldPreimage.isSome = true
        ∧ ∃ entry, EntryOf contracts record entry
          ∧ (contracts.encodePreimage entry.preimage).length < 2 ^ 16
          ∧ part = some (entry.bytes contracts)) := by
  unfold encodeUnshieldPreimage at hok
  split at hok
  · rename_i hmissing
    rw [← Except.ok.inj hok]
    cases hunshield : record.hasUnshield with
    | true => exact .inl ⟨rfl, hmissing, rfl⟩
    | false => exact .inr (.inl ⟨rfl, hmissing, rfl⟩)
  · rename_i encoded hencoded
    split_ifs at hok with hunshield
    split at hok
    · cases hok
    · rename_i preimage hpreimage
      split at hok
      · cases hok
      · rename_i commitment hcommitment
        split_ifs at hok with hhash
        dsimp only at hok
        split_ifs at hok with hlength
        have hentry : EntryOf contracts record ⟨record.txidIndex, preimage⟩ := by
          refine ⟨rfl, ?_, ?_⟩
          · rw [hencoded, Option.bind_some, hpreimage]
          · rw [hcommitment, not_not.mp hhash]
        refine .inr (.inr ⟨by simpa using hunshield, by rw [hencoded, Option.isSome_some], ?_⟩)
        exact ⟨_, hentry, Nat.lt_of_not_le hlength, (Except.ok.inj hok).symm⟩

def readUnshieldEntry : TxidReader (Nat × Bytes) := do
  let txidIndex ← readU64
  let length ← readU16
  let encoded ← readExact .unexpectedEnd length
  pure (txidIndex, encoded)

theorem reads_unshieldEntry (hindex : entry.txidIndex < u64Bound)
    (hlength : (contracts.encodePreimage entry.preimage).length < 2 ^ 16) :
    Reads readUnshieldEntry (entry.bytes contracts)
      (entry.txidIndex, contracts.encodePreimage entry.preimage) := by
  refine (reads_u64 hindex).bind ((reads_integer hlength).bind ?_)
  exact (reads_exact _ _).map

theorem UnshieldEntry.bytes_ne_nil : entry.bytes contracts ≠ [] := by
  rw [UnshieldEntry.bytes, List.append_assoc]
  exact writeLittleEndian_append_ne_nil _ (by decide)

end Entries

/-! ### The unshield section -/

section Unshields

variable {contracts : Contracts} {records others : List StoredPublicTxidRow}
  {entries : List UnshieldEntry}

def PreimagesComplete (records : List StoredPublicTxidRow) : Prop :=
  ∀ record ∈ records, record.hasUnshield = true → record.unshieldPreimage.isSome = true

/-- The bytes hold the number of the entries and then each of them, one for every row with an
unshield. -/
structure HoldsEntries (contracts : Contracts) (records : List StoredPublicTxidRow) (bytes : Bytes)
    (entries : List UnshieldEntry) : Prop where
  rows : List.Forall₂ (EntryOf contracts) (records.filter fun record => record.hasUnshield) entries
  count : littleEndian (bytes.take 4) = entries.length
  bytes : bytes.drop 4 = (entries.map (UnshieldEntry.bytes contracts)).flatten

theorem preimagesComplete_cons {record : StoredPublicTxidRow} :
    PreimagesComplete (record :: records)
      ↔ (record.hasUnshield = true → record.unshieldPreimage.isSome = true)
        ∧ PreimagesComplete records :=
  List.forall_mem_cons

theorem mapM_id_cons (bytes : Bytes) (parts : List (Option Bytes)) :
    (some bytes :: parts).mapM id = (parts.mapM id).map (List.cons bytes) := by
  rw [List.mapM_cons]
  cases hparts : parts.mapM id <;> rfl

theorem preimagesComplete_of_parts {parts : List (Option Bytes)}
    (hparts : List.Forall₂ (fun record part => encodeUnshieldPreimage contracts record = .ok part)
      records parts) : (parts.mapM id).isSome = true ↔ PreimagesComplete records := by
  induction hparts with
  | nil => simp [PreimagesComplete]
  | @cons record part records parts hpart _ ih =>
      rw [preimagesComplete_cons, ← ih]
      obtain ⟨hunshield, hmissing, rfl⟩ | ⟨hunshield, -, rfl⟩ | ⟨-, hpresent, entry, -, -, rfl⟩ :=
        encodeUnshieldPreimage_eq_ok hpart
      · simp [List.mapM_cons, hunshield, hmissing]
      · rw [mapM_id_cons, Option.isSome_map]
        simp [hunshield]
      · rw [mapM_id_cons, Option.isSome_map]
        simp [hpresent]

theorem entries_of_parts {parts : List (Option Bytes)} {written : List Bytes}
    (hparts : List.Forall₂ (fun record part => encodeUnshieldPreimage contracts record = .ok part)
      records parts) (hwritten : parts.mapM id = some written) :
    ∃ entries,
      List.Forall₂ (EntryOf contracts) (records.filter fun record => record.hasUnshield) entries
      ∧ (∀ entry ∈ entries, (contracts.encodePreimage entry.preimage).length < 2 ^ 16)
      ∧ written.flatten = (entries.map (UnshieldEntry.bytes contracts)).flatten := by
  induction hparts generalizing written with
  | nil =>
      cases hwritten
      exact ⟨[], .nil, by simp, rfl⟩
  | @cons record part records parts hpart _ ih =>
      obtain ⟨-, -, rfl⟩ | ⟨hunshield, -, rfl⟩ | ⟨hunshield, -, entry, hentry, hlength, rfl⟩ :=
        encodeUnshieldPreimage_eq_ok hpart
      · cases hwritten
      · rw [mapM_id_cons] at hwritten
        obtain ⟨rest, hrest, rfl⟩ := Option.map_eq_some_iff.mp hwritten
        obtain ⟨entries, hentries, hfit, hflatten⟩ := ih hrest
        refine ⟨entries, ?_, hfit, hflatten⟩
        rw [List.filter_cons_of_neg (by simp [hunshield])]
        exact hentries
      · rw [mapM_id_cons] at hwritten
        obtain ⟨rest, hrest, rfl⟩ := Option.map_eq_some_iff.mp hwritten
        obtain ⟨entries, hentries, hfit, hflatten⟩ := ih hrest
        refine ⟨entry :: entries, ?_, List.forall_mem_cons.mpr ⟨hlength, hfit⟩, ?_⟩
        · rw [List.filter_cons_of_pos hunshield]
          exact .cons hentry hentries
        · rw [List.flatten_cons, hflatten, List.map_cons, List.flatten_cons]

theorem encodePublicTxidUnshieldPreimages_eq_ok {found : Option Bytes}
    (hok : encodePublicTxidUnshieldPreimages contracts records = .ok found) :
    (found.isSome = true ↔ PreimagesComplete records)
      ∧ (∀ record ∈ records, record.hasUnshield = false → record.unshieldPreimage = none)
      ∧ ∀ bytes, found = some bytes → ∃ entries, HoldsEntries contracts records bytes entries
        ∧ (∀ entry ∈ entries, (contracts.encodePreimage entry.preimage).length < 2 ^ 16)
        ∧ bytes ≠ [] := by
  rw [encodePublicTxidUnshieldPreimages] at hok
  split_ifs at hok with hcount
  obtain ⟨parts, hparts, hok⟩ := bind_eq_ok.mp hok
  cases hok
  rw [mapM_eq_ok_iff] at hparts
  refine ⟨?_, ?_, ?_⟩
  · rw [Option.isSome_map]
    exact preimagesComplete_of_parts hparts
  · intro record hrecord hunshield
    obtain ⟨part, -, hpart⟩ := exists_of_forall₂_left hparts hrecord
    obtain ⟨hother, -⟩ | ⟨-, hmissing, -⟩ | ⟨hother, -⟩ := encodeUnshieldPreimage_eq_ok hpart
    · rw [hother] at hunshield
      cases hunshield
    · exact hmissing
    · rw [hother] at hunshield
      cases hunshield
  · intro bytes hbytes
    obtain ⟨written, hwritten, rfl⟩ := Option.map_eq_some_iff.mp hbytes
    obtain ⟨entries, hentries, hfit, hflatten⟩ := entries_of_parts hparts hwritten
    have hlength : records.countP (fun record => record.hasUnshield) = entries.length := by
      rw [List.countP_eq_length_filter, hentries.length_eq]
    have hfour := length_writeLittleEndian 4 (records.countP fun record => record.hasUnshield)
    refine ⟨entries, ⟨hentries, ?_, ?_⟩, hfit, writeLittleEndian_append_ne_nil _ (by decide)⟩
    · rw [List.take_left' hfour, ← hlength]
      exact littleEndian_range (Nat.lt_of_not_le hcount)
    · rw [List.drop_left' hfour, hflatten]

theorem HoldsEntries.reads {bytes : Bytes} (hholds : HoldsEntries contracts records bytes entries)
    (hfits : ∀ record ∈ records, record.FitsWords)
    (hlengths : ∀ entry ∈ entries, (contracts.encodePreimage entry.preimage).length < 2 ^ 16) :
    List.Forall₂ (Reads readUnshieldEntry) (entries.map (UnshieldEntry.bytes contracts))
      (entries.map fun entry => (entry.txidIndex, contracts.encodePreimage entry.preimage)) := by
  rw [List.forall₂_map_left_iff, List.forall₂_map_right_iff, List.forall₂_same]
  intro entry hentry
  obtain ⟨record, hrecord, hof⟩ := exists_of_forall₂_right hholds.rows hentry
  refine reads_unshieldEntry ?_ (hlengths entry hentry)
  rw [hof.txidIndex]
  exact (hfits record (List.mem_filter.mp hrecord).1).txidIndex

theorem HoldsEntries.unique {bytes : Bytes} {otherEntries : List UnshieldEntry}
    (hinjective : Function.Injective contracts.encodePreimage)
    (hfits : ∀ record ∈ records, record.FitsWords)
    (hotherFits : ∀ record ∈ others, record.FitsWords)
    (hholds : HoldsEntries contracts records bytes entries)
    (hother : HoldsEntries contracts others bytes otherEntries)
    (hlengths : ∀ entry ∈ entries, (contracts.encodePreimage entry.preimage).length < 2 ^ 16)
    (hotherLengths : ∀ entry ∈ otherEntries,
      (contracts.encodePreimage entry.preimage).length < 2 ^ 16) :
    entries = otherEntries := by
  have hne : ∀ (entries : List UnshieldEntry),
      ∀ encoding ∈ entries.map (UnshieldEntry.bytes contracts), encoding ≠ [] := by
    intro entries encoding hencoding
    obtain ⟨entry, -, rfl⟩ := List.mem_map.mp hencoding
    exact UnshieldEntry.bytes_ne_nil
  have hpairs := Reads.flatten_injective (hholds.reads hfits hlengths)
    (hother.reads hotherFits hotherLengths) (hne _) (hne _)
    (hholds.bytes.symm.trans hother.bytes)
  apply List.map_injective_iff.mpr _ hpairs
  rintro ⟨index, preimage⟩ ⟨otherIndex, otherPreimage⟩ hpair
  obtain ⟨hindex, hencoded⟩ := Prod.mk.inj hpair
  rw [UnshieldEntry.mk.injEq]
  exact ⟨hindex, hinjective hencoded⟩

theorem preimages_eq_of_entries
    (hrows : records.map StoredPublicTxidRow.written = others.map StoredPublicTxidRow.written)
    (hrecords : List.Forall₂ (EntryOf contracts)
      (records.filter fun record => record.hasUnshield) entries)
    (hothers : List.Forall₂ (EntryOf contracts)
      (others.filter fun record => record.hasUnshield) entries)
    (hnone : ∀ record ∈ records, record.hasUnshield = false → record.unshieldPreimage = none)
    (hotherNone : ∀ record ∈ others, record.hasUnshield = false → record.unshieldPreimage = none) :
    records.map (fun record => record.unshieldPreimage.bind contracts.decodePreimage)
      = others.map fun record => record.unshieldPreimage.bind contracts.decodePreimage := by
  induction records generalizing others entries with
  | nil =>
      rw [List.map_nil, eq_comm, List.map_eq_nil_iff] at hrows
      rw [hrows]
  | cons record records ih =>
      cases others with
      | nil => cases hrows
      | cons other others =>
          rw [List.map_cons, List.map_cons, List.cons.injEq] at hrows
          rw [List.forall_mem_cons] at hnone hotherNone
          have hflag : record.written.hasUnshield = other.written.hasUnshield := by rw [hrows.1]
          change record.hasUnshield = other.hasUnshield at hflag
          rw [List.map_cons, List.map_cons]
          cases hunshield : record.hasUnshield with
          | false =>
              rw [List.filter_cons_of_neg (by simp [hunshield])] at hrecords
              rw [List.filter_cons_of_neg (by simp [← hflag, hunshield])] at hothers
              rw [hnone.1 hunshield, hotherNone.1 (by rw [← hflag, hunshield]),
                ih hrows.2 hrecords hothers hnone.2 hotherNone.2]
          | true =>
              rw [List.filter_cons_of_pos hunshield] at hrecords
              rw [List.filter_cons_of_pos (by rw [← hflag, hunshield])] at hothers
              cases hrecords with
              | cons hentry hrecords =>
                  cases hothers with
                  | cons hotherEntry hothers =>
                      rw [hentry.preimage, hotherEntry.preimage,
                        ih hrows.2 hrecords hothers hnone.2 hotherNone.2]

end Unshields

/-! ### Envelopes -/

def publicTxidChunkEnvelope (contracts : Contracts) (scope : ContractKey)
    (records : List StoredPublicTxidRow) : Except PublicTxidChunkError ChunkEnvelope := do
  let range ← publicTxidRange records
  validateSingleTxidTree range
  let recordPayload ← encodePublicTxidRecords records
  let unshieldPayload ← encodePublicTxidUnshieldPreimages contracts records
  pure (publicTxidEnvelope scope range records.length recordPayload unshieldPayload)

section Envelopes

variable {contracts : Contracts} {library : ArtifactLibrary} {scope otherScope : ContractKey}
  {records others : List StoredPublicTxidRow} {checkpointRoot : Bytes32}
  {compression : CompressionAlgorithm} {chunk : PublishedPublicTxidChunk}
  {envelope otherEnvelope : ChunkEnvelope}
  {range : IndexedArtifactRange} {rowCount : Nat} {recordPayload : Bytes} {unshieldPayload : Option Bytes}

theorem preparePublicTxidChunk_envelope
    (hprepared : preparePublicTxidChunk contracts library scope records checkpointRoot compression
      = .ok chunk) :
    ∃ envelope, publicTxidChunkEnvelope contracts scope records = .ok envelope
      ∧ library.encodeChunkBytes envelope compression = some chunk.compressedBytes := by
  obtain ⟨hencoded, -⟩ := preparePublicTxidChunk_eq_ok hprepared
  obtain ⟨recordPayload, unshieldPayload, hencodes⟩ := encodePublicTxidChunk_eq_ok hencoded
  refine ⟨_, ?_, hencodes.encodes⟩
  rw [publicTxidChunkEnvelope, hencodes.ranges, ok_bind, hencodes.oneTree, ok_bind, hencodes.payload,
    ok_bind, hencodes.preimages, ok_bind, pure_eq_ok]

theorem publicTxidChunkEnvelope_eq_ok
    (hok : publicTxidChunkEnvelope contracts scope records = .ok envelope) :
    ∃ range recordPayload unshieldPayload, records ≠ []
      ∧ encodePublicTxidRecords records = .ok recordPayload
      ∧ encodePublicTxidUnshieldPreimages contracts records = .ok unshieldPayload
      ∧ envelope
        = publicTxidEnvelope scope range records.length recordPayload unshieldPayload := by
  obtain ⟨range, hrange, hok⟩ := bind_eq_ok.mp hok
  obtain ⟨⟨⟩, -, hok⟩ := bind_eq_ok.mp hok
  obtain ⟨recordPayload, hrecords, hok⟩ := bind_eq_ok.mp hok
  obtain ⟨unshieldPayload, hunshields, hok⟩ := bind_eq_ok.mp hok
  refine ⟨range, recordPayload, unshieldPayload, ?_, hrecords, hunshields,
    (Except.ok.inj hok).symm⟩
  rintro rfl
  cases hrange

theorem sectionsTile_publicTxidEnvelope (hrecords : recordPayload ≠ [])
    (hunshields : ∀ bytes, unshieldPayload = some bytes → bytes ≠ []) :
    SectionsTile
      (publicTxidEnvelope scope range rowCount recordPayload unshieldPayload).sections
      (publicTxidEnvelope scope range rowCount recordPayload unshieldPayload).payload := by
  have hrecord := sectionsTile_nil.append hrecords publicTxidRecordSectionId
  cases unshieldPayload with
  | none =>
      rw [publicTxidEnvelope, Option.getD_none, List.append_nil]
      exact hrecord
  | some bytes => exact hrecord.append (hunshields bytes rfl) publicTxidUnshieldPreimageSectionId

theorem encodePublicTxidRecords_ne_nil {payload : Bytes} (hne : records ≠ [])
    (hok : encodePublicTxidRecords records = .ok payload) : payload ≠ [] := by
  obtain ⟨parts, hparts, hpartNe, rfl⟩ := encodePublicTxidRecords_eq_ok hok
  cases mapM_eq_ok_iff.mp hparts with
  | nil => exact absurd rfl hne
  | cons _ _ =>
      exact List.append_ne_nil_of_left_ne_nil (hpartNe _ List.mem_cons_self) _

theorem mem_sections_unshield
    :
    (∃ found ∈ (publicTxidEnvelope scope range rowCount recordPayload unshieldPayload).sections,
      found.sectionId = publicTxidUnshieldPreimageSectionId) ↔ unshieldPayload.isSome = true := by
  cases unshieldPayload <;> simp [publicTxidEnvelope, publicTxidUnshieldPreimageSectionId,
    publicTxidRecordSectionId]

theorem unshieldPayload_eq_some {found : ChunkSection}
    (hfound : found ∈
      (publicTxidEnvelope scope range rowCount recordPayload unshieldPayload).sections)
    (hid : found.sectionId = publicTxidUnshieldPreimageSectionId) :
    unshieldPayload = some (((publicTxidEnvelope scope range rowCount recordPayload
      unshieldPayload).payload.drop found.offset).take found.byteLength) := by
  rcases List.mem_cons.mp hfound with rfl | hfound
  · cases hid
  · cases unshieldPayload with
    | none => cases hfound
    | some bytes =>
        obtain rfl := List.mem_singleton.mp hfound
        simp [publicTxidEnvelope]

/-! ### Consistency -/

/-- The sections tile the payload. There is an unshield section when every row with an unshield has
its preimage, and it holds their entries. -/
structure PayloadConsistent (contracts : Contracts) (records : List StoredPublicTxidRow)
    (envelope : ChunkEnvelope) : Prop where
  tiles : SectionsTile envelope.sections envelope.payload
  present : (∃ found ∈ envelope.sections, found.sectionId = publicTxidUnshieldPreimageSectionId)
    ↔ PreimagesComplete records
  entries : ∀ found ∈ envelope.sections, found.sectionId = publicTxidUnshieldPreimageSectionId →
    ∃ entries, HoldsEntries contracts records
      ((envelope.payload.drop found.offset).take found.byteLength) entries

theorem payloadConsistent (hok : publicTxidChunkEnvelope contracts scope records = .ok envelope) :
    PayloadConsistent contracts records envelope := by
  obtain ⟨range, recordPayload, unshieldPayload, hne, hrecords, hunshields, rfl⟩ :=
    publicTxidChunkEnvelope_eq_ok hok
  obtain ⟨hpresent, -, hholds⟩ := encodePublicTxidUnshieldPreimages_eq_ok hunshields
  refine ⟨?_, ?_, ?_⟩
  · apply sectionsTile_publicTxidEnvelope (encodePublicTxidRecords_ne_nil hne hrecords)
    intro bytes hbytes
    obtain ⟨_, -, -, hbytesNe⟩ := hholds bytes hbytes
    exact hbytesNe
  · rw [mem_sections_unshield, hpresent]
  · intro found hfound hid
    obtain ⟨entries, hentries, -⟩ := hholds _ (unshieldPayload_eq_some hfound hid)
    exact ⟨entries, hentries⟩

/-! ### Injectivity -/

/-- The rows agree in the fields of the records and, where there is an unshield section, in their
preimages. -/
structure SameRows (contracts : Contracts) (envelope : ChunkEnvelope)
    (records others : List StoredPublicTxidRow) : Prop where
  written : records.map StoredPublicTxidRow.written = others.map StoredPublicTxidRow.written
  preimages : (∃ found ∈ envelope.sections,
      found.sectionId = publicTxidUnshieldPreimageSectionId) →
    records.map (fun record => record.unshieldPreimage.bind contracts.decodePreimage)
      = others.map fun record => record.unshieldPreimage.bind contracts.decodePreimage

theorem publicTxidEnvelope_injective {otherRange : IndexedArtifactRange}
    {otherCount : Nat} {otherPayload : Bytes}
    {otherUnshields : Option Bytes}
    (hpayload : (publicTxidEnvelope scope range rowCount recordPayload unshieldPayload).payload
      = (publicTxidEnvelope otherScope otherRange otherCount otherPayload otherUnshields).payload)
    (hsections : (publicTxidEnvelope scope range rowCount recordPayload unshieldPayload).sections
      = (publicTxidEnvelope otherScope otherRange otherCount otherPayload otherUnshields).sections) :
    recordPayload = otherPayload ∧ unshieldPayload = otherUnshields := by
  have hlength : recordPayload.length = otherPayload.length := by
    have hfirst := congrArg (fun sections => (sections.map ChunkSection.byteLength).head?) hsections
    simpa [publicTxidEnvelope] using hfirst
  have hpresent : unshieldPayload.isSome = otherUnshields.isSome := by
    rw [Bool.eq_iff_iff, ← mem_sections_unshield, ← mem_sections_unshield, hsections]
  obtain ⟨hrecords, hunshields⟩ := List.append_inj hpayload hlength
  refine ⟨hrecords, ?_⟩
  cases unshieldPayload with
  | none =>
      cases otherUnshields with
      | none => rfl
      | some _ => cases hpresent
  | some bytes =>
      cases otherUnshields with
      | none => cases hpresent
      | some otherBytes =>
          rw [Option.getD_some, Option.getD_some] at hunshields
          rw [hunshields]

theorem sameRows (hinjective : Function.Injective contracts.encodePreimage)
    (hfits : ∀ record ∈ records, record.FitsWords)
    (hotherFits : ∀ record ∈ others, record.FitsWords)
    (hok : publicTxidChunkEnvelope contracts scope records = .ok envelope)
    (hother : publicTxidChunkEnvelope contracts otherScope others = .ok otherEnvelope)
    (hpayload : envelope.payload = otherEnvelope.payload)
    (hsections : envelope.sections = otherEnvelope.sections) :
    SameRows contracts envelope records others := by
  obtain ⟨range, recordPayload, unshieldPayload, -, hrecords, hunshields, rfl⟩ :=
    publicTxidChunkEnvelope_eq_ok hok
  obtain ⟨otherRange, otherPayload, otherUnshields, -, hotherRecords, hotherUnshields, rfl⟩ :=
    publicTxidChunkEnvelope_eq_ok hother
  obtain ⟨rfl, rfl⟩ := publicTxidEnvelope_injective hpayload hsections
  have hwritten := encodePublicTxidRecords_injective hfits hotherFits hrecords hotherRecords
  refine ⟨hwritten, fun hfound => ?_⟩
  obtain ⟨bytes, hbytes⟩ := Option.isSome_iff_exists.mp (mem_sections_unshield.mp hfound)
  obtain ⟨-, hnone, hholds⟩ := encodePublicTxidUnshieldPreimages_eq_ok hunshields
  obtain ⟨-, hotherNone, hotherHolds⟩ := encodePublicTxidUnshieldPreimages_eq_ok hotherUnshields
  obtain ⟨entries, hentries, hlengths, -⟩ := hholds bytes hbytes
  obtain ⟨otherEntries, hotherEntries, hotherLengths, -⟩ := hotherHolds bytes hbytes
  obtain rfl := hentries.unique hinjective hfits hotherFits hotherEntries hlengths hotherLengths
  exact preimages_eq_of_entries hwritten hentries.rows hotherEntries.rows hnone hotherNone

/-- **Public TXID payloads are self-consistent and determine their rows.** -/
theorem publicTxidPayload_determines (hinjective : Function.Injective contracts.encodePreimage)
    (hfits : ∀ record ∈ records, record.FitsWords)
    (hprepared : preparePublicTxidChunk contracts library scope records checkpointRoot compression
      = .ok chunk) :
    ∃ envelope, publicTxidChunkEnvelope contracts scope records = .ok envelope
      ∧ library.encodeChunkBytes envelope compression = some chunk.compressedBytes
      ∧ PayloadConsistent contracts records envelope
      ∧ ∀ otherScope others otherEnvelope, (∀ record ∈ others, record.FitsWords) →
        publicTxidChunkEnvelope contracts otherScope others = .ok otherEnvelope →
        envelope.payload = otherEnvelope.payload → envelope.sections = otherEnvelope.sections →
          SameRows contracts envelope records others := by
  obtain ⟨envelope, henvelope, hencoded⟩ := preparePublicTxidChunk_envelope hprepared
  refine ⟨envelope, henvelope, hencoded, payloadConsistent henvelope, ?_⟩
  intro otherScope others otherEnvelope hotherFits hother hpayload hsections
  exact sameRows hinjective hfits hotherFits henvelope hother hpayload hsections

end Envelopes

def unshieldedRecord : StoredPublicTxidRow :=
  { parityRecord with commitments := [0], hasUnshield := true, unshieldPreimage := some [] }

def publishedRecords : List StoredPublicTxidRow :=
  [unshieldedRecord, { parityRecord with txidIndex := 1 }]

theorem publicTxidPayload_determines_two :
    ∃ envelope, publicTxidChunkEnvelope (unshieldingContracts (unshieldingTransaction 8 8)) ⟨1, 1⟩
        publishedRecords = .ok envelope
      ∧ PayloadConsistent (unshieldingContracts (unshieldingTransaction 8 8)) publishedRecords
        envelope
      ∧ ∀ otherScope others otherEnvelope, (∀ record ∈ others, record.FitsWords) →
        publicTxidChunkEnvelope (unshieldingContracts (unshieldingTransaction 8 8)) otherScope others
          = .ok otherEnvelope →
        envelope.payload = otherEnvelope.payload → envelope.sections = otherEnvelope.sections →
          SameRows (unshieldingContracts (unshieldingTransaction 8 8)) envelope publishedRecords
            others := by
  have hinjective : Function.Injective
      (unshieldingContracts (unshieldingTransaction 8 8)).encodePreimage := by
    intro preimage other hsame
    have hdecoded := decode_encode_unshieldingContracts (unshieldingTransaction 8 8) preimage
    rw [hsame, decode_encode_unshieldingContracts] at hdecoded
    exact (Option.some.inj hdecoded).symm
  have hfits : ∀ record ∈ publishedRecords, record.FitsWords := by
    rw [publishedRecords, List.forall_mem_cons, List.forall_mem_singleton]
    constructor <;> constructor <;> decide
  obtain ⟨chunk, hprepared⟩ : ∃ chunk,
      preparePublicTxidChunk (unshieldingContracts (unshieldingTransaction 8 8)) toyLibrary ⟨1, 1⟩
        publishedRecords 0 .none = .ok chunk := exists_eq_ok_of_isSome (by decide +kernel)
  obtain ⟨envelope, henvelope, -, hdetermines⟩ :=
    publicTxidPayload_determines hinjective hfits hprepared
  exact ⟨envelope, henvelope, hdetermines⟩

end RailgunIndexer
