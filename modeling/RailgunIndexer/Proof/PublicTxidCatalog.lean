import RailgunIndexer.PublicTxidCatalog
import RailgunIndexer.Proof.RecordLayout
import RailgunIndexer.Proof.Store

/-!
# The public TXID catalog is a partition

The numbered rows hold the indices `0` up to their number. Every page, every planned chunk and every
checkpoint is the list of rows between two indices, so the chunks of a catalog tile the indices, and
each holds the rows of its range. Blocks are numbered before the blocks after them, so a catalog
through a later block starts with the same rows.
-/

namespace RailgunIndexer

open Lib Fallible Cursor

/-! ### Numbered rows -/

section Rows

variable {maxBlock : Option Nat} {omissions : List PublicTxidCompatibilityOmission}
  {tables : IndexedTables} {left right : PublicTxidEntry} {later : IndexedTables}

theorem length_numberedPublicTxidRows : (numberedPublicTxidRows maxBlock omissions tables).length
      = tables.publicTxidRows.entries.countP (isPublished maxBlock omissions) := by
  rw [numberedPublicTxidRows, List.length_mapIdx, (sortByKey_perm _ _).length_eq,
    List.countP_eq_length_filter]

theorem tiles_numberedPublicTxidRows :
    Tiles StoredPublicTxidRow.txidIndex StoredPublicTxidRow.txidIndex 0
      (numberedPublicTxidRows maxBlock omissions tables).length
      (numberedPublicTxidRows maxBlock omissions tables) := by
  have htiles := @tiles_mapIdx _ _ 0 StoredPublicTxidRow.txidIndex readPublicTxidRow
    (sortByKey publicTxidOrder
      (tables.publicTxidRows.entries.filter (isPublished maxBlock omissions)))
    fun position _ => (Nat.zero_add position).symm
  rw [Nat.zero_add] at htiles
  rw [numberedPublicTxidRows, List.length_mapIdx]
  exact htiles

/-! ### Later blocks -/

/-- The later table has the earlier rows, and its other rows are of blocks above the given one. -/
structure ExtendedAbove (maxBlock : Nat) (tables later : IndexedTables) : Prop where
  kept : ∀ key row, tables.publicTxidRows.get? key = some row →
    later.publicTxidRows.get? key = some row
  above : ∀ key row, later.publicTxidRows.get? key = some row →
    tables.publicTxidRows.get? key = some row ∨ maxBlock < row.blockNumber

theorem publicTxidOrder_injOn (hkey : publicTxidOrder left = publicTxidOrder right) :
    left.1 = right.1 := by
  simp only [publicTxidOrder, toLex_inj, Prod.mk.injEq] at hkey
  exact hkey.2.2

theorem pairwise_lt_sortByKey {entries : List PublicTxidEntry}
    (hkeys : entries.Pairwise fun left right => left.1 ≠ right.1) :
    (sortByKey publicTxidOrder entries).Pairwise fun left right =>
      publicTxidOrder left < publicTxidOrder right := by
  have hne : (sortByKey publicTxidOrder entries).Pairwise fun left right => left.1 ≠ right.1 :=
    ((sortByKey_perm publicTxidOrder entries).pairwise_iff fun hne => hne.symm).mpr hkeys
  exact ((pairwise_sortByKey publicTxidOrder entries).and hne).imp fun hboth =>
    lt_of_le_of_ne hboth.1 fun heq => hboth.2 (publicTxidOrder_injOn heq)

theorem nodup_entries : tables.publicTxidRows.entries.Nodup :=
  tables.publicTxidRows.sorted.imp fun hlt heq => absurd (heq ▸ hlt) (lt_irrefl _)

theorem isPublished_iff {maxBlock : Nat} {entry : PublicTxidEntry} :
    isPublished (some maxBlock) omissions entry = true
      ↔ entry.2.blockNumber ≤ maxBlock ∧ ∀ omission ∈ omissions, omission.omits entry = false := by
  simp [isPublished]

def publishedAfter (maxBlock laterBlock : Nat) (omissions : List PublicTxidCompatibilityOmission)
    (tables : IndexedTables) : List PublicTxidEntry :=
  tables.publicTxidRows.entries.filter fun entry =>
    isPublished (some laterBlock) omissions entry && decide (maxBlock < entry.2.blockNumber)

theorem publishedEntries_perm {maxBlock laterBlock : Nat} (hblock : maxBlock ≤ laterBlock)
    (hextended : ExtendedAbove maxBlock tables later) :
    (later.publicTxidRows.entries.filter (isPublished (some laterBlock) omissions)).Perm
      (tables.publicTxidRows.entries.filter (isPublished (some maxBlock) omissions)
        ++ publishedAfter maxBlock laterBlock omissions later) := by
  have hdisjoint : ∀ entry,
      entry ∈ tables.publicTxidRows.entries.filter (isPublished (some maxBlock) omissions) →
        entry ∉ publishedAfter maxBlock laterBlock omissions later := by
    intro entry hbelow habove
    have hle := (isPublished_iff.mp (List.mem_filter.mp hbelow).2).1
    have hgt := (List.mem_filter.mp habove).2
    simp only [Bool.and_eq_true, decide_eq_true_eq] at hgt
    omega
  refine (List.perm_ext_iff_of_nodup (nodup_entries.filter _)
    (List.nodup_append'.mpr ⟨nodup_entries.filter _, nodup_entries.filter _, hdisjoint⟩)).mpr ?_
  rintro ⟨key, row⟩
  simp only [List.mem_append, List.mem_filter, Bool.and_eq_true, decide_eq_true_eq,
    ← OrdMap.get?_eq_some_iff, isPublished_iff]
  constructor
  · rintro ⟨hrow, hlater, homitted⟩
    by_cases habove : maxBlock < row.blockNumber
    · exact .inr ⟨hrow, ⟨hlater, homitted⟩, habove⟩
    · have hfound := (hextended.above key row hrow).resolve_right habove
      exact .inl ⟨hfound, Nat.le_of_not_lt habove, homitted⟩
  · rintro (⟨hrow, hle, homitted⟩ | ⟨hrow, hpublished, -⟩)
    · exact ⟨hextended.kept key row hrow, hle.trans hblock, homitted⟩
    · exact ⟨hrow, hpublished⟩

theorem publicTxidOrder_lt_of_blockNumber (hlt : left.2.blockNumber < right.2.blockNumber) :
    publicTxidOrder left < publicTxidOrder right :=
  Prod.Lex.toLex_lt_toLex.mpr (.inl hlt)

/-- **Rows keep their index.** The rows through a block start the rows through every later block. -/
theorem numberedPublicTxidRows_isPrefix {maxBlock laterBlock : Nat} (hblock : maxBlock ≤ laterBlock)
    (hextended : ExtendedAbove maxBlock tables later) :
    numberedPublicTxidRows (some maxBlock) omissions tables
      <+: numberedPublicTxidRows (some laterBlock) omissions later := by
  set before := tables.publicTxidRows.entries.filter (isPublished (some maxBlock) omissions)
    with hbefore
  set after := publishedAfter maxBlock laterBlock omissions later with hafter
  have hkeys : ∀ (tables : IndexedTables) (published : PublicTxidEntry → Bool),
      (tables.publicTxidRows.entries.filter published).Pairwise fun left right =>
        left.1 ≠ right.1 :=
    fun tables published => (tables.publicTxidRows.sorted.imp ne_of_lt).filter _
  have hsorted : (sortByKey publicTxidOrder before ++ sortByKey publicTxidOrder after).Pairwise
      fun left right => publicTxidOrder left < publicTxidOrder right := by
    refine List.pairwise_append.mpr ⟨pairwise_lt_sortByKey (hkeys tables _),
      pairwise_lt_sortByKey (hkeys later _), fun left hleft right hright => ?_⟩
    have hle := (isPublished_iff.mp
      (List.mem_filter.mp ((sortByKey_perm _ _).subset hleft)).2).1
    have hgt := (List.mem_filter.mp ((sortByKey_perm _ _).subset hright)).2
    simp only [Bool.and_eq_true, decide_eq_true_eq] at hgt
    exact publicTxidOrder_lt_of_blockNumber (by omega)
  have hperm := (publishedEntries_perm hblock hextended).trans
    ((sortByKey_perm publicTxidOrder before).symm.append (sortByKey_perm publicTxidOrder after).symm)
  rw [numberedPublicTxidRows, numberedPublicTxidRows, sortByKey_eq_of_perm hperm hsorted,
    List.mapIdx_append]
  exact List.prefix_append _ _

end Rows

/-! ### Pages -/

section Pages

variable {rows : List StoredPublicTxidRow} {a b : Nat}

def rowsBetween (rows : List StoredPublicTxidRow) (a b : Nat) : List StoredPublicTxidRow :=
  rows.filter fun row => a ≤ row.txidIndex ∧ row.txidIndex < b

structure QueryFits (key : ContractKey) (maxBlock : Nat)
    (omissions : List PublicTxidCompatibilityOmission) : Prop where
  chainId : key.chainId < i64Bound
  maxBlock : maxBlock < i64Bound
  omissions : ∀ omission ∈ omissions, omission.blockNumber.toNat < i64Bound
    ∧ omission.railgunTransactionIndex.toNat < i64Bound

theorem exists_u64ToI64_eq_ok {value : Nat} {field : String} :
    (∃ found, u64ToI64 value field = .ok found) ↔ value < i64Bound := by
  simp only [u64ToI64_eq_ok, exists_and_left, exists_eq, and_true]

theorem mapM_maxBlock_eq_ok {maxBlock : Nat} {found : Option Nat} :
    (some maxBlock).mapM (fun block => u64ToI64 block "max_block") = .ok found
      ↔ maxBlock < i64Bound ∧ found = some maxBlock := by
  have hmap : (some maxBlock).mapM (fun block => u64ToI64 block "max_block")
      = (u64ToI64 maxBlock "max_block") >>= fun block => .ok (some block) := rfl
  rw [hmap, bind_eq_ok]
  constructor
  · rintro ⟨block, hblock, heq⟩
    obtain ⟨hfits, rfl⟩ := u64ToI64_eq_ok.mp hblock
    exact ⟨hfits, (Except.ok.inj heq).symm⟩
  · rintro ⟨hfits, rfl⟩
    exact ⟨maxBlock, u64ToI64_eq_ok.mpr ⟨hfits, rfl⟩, rfl⟩

theorem publishedRows_eq_ok {key : ContractKey} {offset limit maxBlock : Nat}
    {omissions : List PublicTxidCompatibilityOmission} {store : Store} :
    publishedPublicTxidRowsThroughBlock key offset limit maxBlock omissions store = .ok rows
      ↔ QueryFits key maxBlock omissions ∧ offset < i64Bound ∧ limit < i64Bound
        ∧ rows = rowsBetween (numberedPublicTxidRows (some maxBlock) omissions (store.indexed key))
          offset (offset + limit) := by
  have hpage := @Tiles.page_eq_filter _ _ _ _ _ _ limit
    (@tiles_numberedPublicTxidRows (some maxBlock) omissions (store.indexed key))
    (Nat.zero_le offset)
  constructor
  · intro hok
    obtain ⟨_, hchain, hread⟩ := bind_eq_ok.mp hok
    obtain ⟨_, hoffset, hread⟩ := bind_eq_ok.mp hread
    obtain ⟨_, hlimit, hread⟩ := bind_eq_ok.mp hread
    obtain ⟨_, hblock, hread⟩ := bind_eq_ok.mp hread
    obtain ⟨_, hnumbers, hread⟩ := bind_eq_ok.mp hread
    obtain ⟨_, hindices, hread⟩ := bind_eq_ok.mp hread
    rw [(u64ToI64_eq_ok.mp hoffset).2, (u64ToI64_eq_ok.mp hlimit).2, (mapM_maxBlock_eq_ok.mp hblock).2,
      hpage] at hread
    refine ⟨⟨(u64ToI64_eq_ok.mp hchain).1, (mapM_maxBlock_eq_ok.mp hblock).1, ?_⟩,
      (u64ToI64_eq_ok.mp hoffset).1, (u64ToI64_eq_ok.mp hlimit).1, (Except.ok.inj hread).symm⟩
    intro omission homission
    exact ⟨exists_u64ToI64_eq_ok.mp (exists_mapM_eq_ok.mp ⟨_, hnumbers⟩ omission homission),
      exists_u64ToI64_eq_ok.mp (exists_mapM_eq_ok.mp ⟨_, hindices⟩ omission homission)⟩
  · rintro ⟨hfits, hoffset, hlimit, rfl⟩
    obtain ⟨numbers, hnumbers⟩ := exists_mapM_eq_ok.mpr fun omission homission =>
      (@exists_u64ToI64_eq_ok _ "omission_block_number").mpr (hfits.omissions omission homission).1
    obtain ⟨indices, hindices⟩ := exists_mapM_eq_ok.mpr fun omission homission =>
      (@exists_u64ToI64_eq_ok _ "omission_railgun_transaction_index").mpr
        (hfits.omissions omission homission).2
    refine bind_eq_ok.mpr ⟨_, u64ToI64_eq_ok.mpr ⟨hfits.chainId, rfl⟩, ?_⟩
    refine bind_eq_ok.mpr ⟨_, u64ToI64_eq_ok.mpr ⟨hoffset, rfl⟩, ?_⟩
    refine bind_eq_ok.mpr ⟨_, u64ToI64_eq_ok.mpr ⟨hlimit, rfl⟩, ?_⟩
    refine bind_eq_ok.mpr ⟨_, mapM_maxBlock_eq_ok.mpr ⟨hfits.maxBlock, rfl⟩, ?_⟩
    refine bind_eq_ok.mpr ⟨_, hnumbers, bind_eq_ok.mpr ⟨_, hindices, ?_⟩⟩
    exact congrArg Except.ok hpage

end Pages

/-! ### Chunks of consecutive rows -/

section Chunks

variable {rows records : List StoredPublicTxidRow} {a b : Nat} {range : IndexedArtifactRange}
  {compression : CompressionAlgorithm} {contracts : Contracts} {library : ArtifactLibrary}
  {scope : ContractKey}

abbrev Numbered (a b : Nat) (rows : List StoredPublicTxidRow) : Prop :=
  Tiles StoredPublicTxidRow.txidIndex StoredPublicTxidRow.txidIndex a b rows

theorem foldlM_publicTxidRangeStep (hrecords : Numbered a b records) (hfits : b < u64Bound) :
    records.foldlM publicTxidRangeStep a = .ok b := by
  induction hrecords with
  | nil => rfl
  | @cons start stop record records hindex hle hrest ih =>
      have hstop := hrest.le
      have hstep : publicTxidRangeStep start record = .ok (record.txidIndex + 1) := by
        rw [publicTxidRangeStep, if_neg (not_not.mpr hindex), if_neg (by omega), hindex]
      rw [List.foldlM_cons, hstep, ok_bind]
      exact ih hfits

theorem publicTxidRange_eq_ok (hrecords : Numbered a b records) (hlt : a < b)
    (hfits : b < u64Bound) : publicTxidRange records = .ok ⟨.txidIndex, a, b - 1⟩ := by
  cases records with
  | nil =>
      have hlength := hrecords.stop_eq
      rw [List.length_nil] at hlength
      omega
  | cons first rest =>
      have hfold := foldlM_publicTxidRangeStep hrecords hfits
      have hlast := (hrecords.getLast_eq (List.cons_ne_nil first rest)).2
      rw [List.getLast_eq_getLastD] at hlast
      cases hrecords with
      | cons hfirst _ _ =>
          rw [publicTxidRange, hfirst, hfold, ok_bind, pure_eq_ok]
          congr 2
          omega

theorem validateSingleTxidTree_eq_ok :
    validateSingleTxidTree range = .ok ()
      ↔ range.start / treeLeafCount = range.end / treeLeafCount := by
  rw [validateSingleTxidTree]
  split_ifs with hcrosses
  · exact iff_of_false (by simp) hcrosses
  · exact iff_of_true rfl (not_not.mp hcrosses)

def treeRootThrough (publisher : Publisher) (rows : List StoredPublicTxidRow) (index : Nat) : Bytes32 :=
  let treeRows := rowsBetween rows (index / treeLeafCount * treeLeafCount) (index + 1)
  publisher.library.denseMerkleRoot
    (treeRows.map (publicTxidLeafHash publisher.contracts publisher.library)) treeRows.length

theorem numbered_rowsBetween {count : Nat} (hrows : Numbered 0 count rows) (hab : a ≤ b)
    (hb : b ≤ count) : Numbered a b (rowsBetween rows a b) :=
  hrows.between (Nat.zero_le a) hab hb

theorem publicTxidCheckpointRoot_eq_ok (publisher : Publisher) {count index : Nat}
    (hrows : Numbered 0 count rows) (hindex : index < count) (hfits : index + 1 < u64Bound) :
    publicTxidCheckpointRoot publisher.contracts publisher.library
        (rowsBetween rows (index / treeLeafCount * treeLeafCount) (index + 1))
      = .ok (treeRootThrough publisher rows index) := by
  have hstart : index / treeLeafCount * treeLeafCount ≤ index := Nat.div_mul_le_self _ _
  have hrange := publicTxidRange_eq_ok
    (numbered_rowsBetween hrows (Nat.le_succ_of_le hstart) hindex) (by omega) hfits
  have htree : validateSingleTxidTree
      ⟨.txidIndex, index / treeLeafCount * treeLeafCount, index + 1 - 1⟩ = .ok () :=
    validateSingleTxidTree_eq_ok.mpr (Nat.mul_div_cancel _ (by decide))
  rw [publicTxidCheckpointRoot, hrange, ok_bind, htree, ok_bind,
    if_neg (not_not.mpr (Nat.mul_mod_left _ _))]
  rfl

/-- What the chunk encoder is given: the range of the records in one tree and the two sections. -/
structure EncodesTxidRows (contracts : Contracts) (library : ArtifactLibrary) (scope : ContractKey)
    (records : List StoredPublicTxidRow) (compression : CompressionAlgorithm)
    (range : IndexedArtifactRange) (compressedBytes : Bytes) (recordPayload : Bytes)
    (unshieldPayload : Option Bytes) : Prop where
  ranges : publicTxidRange records = .ok range
  oneTree : validateSingleTxidTree range = .ok ()
  payload : encodePublicTxidRecords records = .ok recordPayload
  preimages : encodePublicTxidUnshieldPreimages contracts records = .ok unshieldPayload
  encodes : library.encodeChunkBytes
    (publicTxidEnvelope scope range records.length recordPayload unshieldPayload) compression
      = some compressedBytes

theorem encodePublicTxidChunk_eq_ok {compressedBytes : Bytes}
    (hok : encodePublicTxidChunk contracts library scope records compression = .ok (range,
      compressedBytes)) :
    ∃ recordPayload unshieldPayload, EncodesTxidRows contracts library scope records compression range
      compressedBytes recordPayload unshieldPayload := by
  obtain ⟨found, hrange, hok⟩ := bind_eq_ok.mp hok
  obtain ⟨⟨⟩, htree, hok⟩ := bind_eq_ok.mp hok
  obtain ⟨recordPayload, hrecords, hok⟩ := bind_eq_ok.mp hok
  obtain ⟨unshieldPayload, hunshields, hok⟩ := bind_eq_ok.mp hok
  obtain ⟨bytes, hbytes, hok⟩ := bind_eq_ok.mp hok
  cases hok
  refine ⟨recordPayload, unshieldPayload, hrange, htree, hrecords, hunshields, ?_⟩
  rw [encodePublicTxidEnvelope] at hbytes
  split at hbytes
  · rename_i encoded hencode
    rw [hencode, Except.ok.inj hbytes]
  · cases hbytes

theorem preparePublicTxidChunk_eq_ok {checkpointRoot : Bytes32}
    {published : PublishedPublicTxidChunk}
    (hok : preparePublicTxidChunk contracts library scope records checkpointRoot compression = .ok
      published) :
    encodePublicTxidChunk contracts library scope records compression
        = .ok (published.descriptor.range, published.compressedBytes)
      ∧ published.compressedBytes.length ≤ library.maxCompressedChunkBytes
      ∧ published.descriptor.cid = ""
      ∧ published.descriptor.metadata.root = some checkpointRoot := by
  obtain ⟨⟨range, compressedBytes⟩, hencoded, hok⟩ := bind_eq_ok.mp hok
  simp only [] at hok
  split_ifs at hok with hsize
  cases hok
  exact ⟨hencoded, Nat.le_of_not_lt hsize, rfl, rfl⟩

end Chunks

/-! ### One planned chunk -/

section Planned

variable {publisher : Publisher} {chain : ChainIndexedChainConfig} {scope : ContractKey}
  {maxBlock : Nat} {store : Store} {a b : Nat}

def catalogRows (chain : ChainIndexedChainConfig) (maxBlock : Nat) (store : Store) :
    List StoredPublicTxidRow :=
  numberedPublicTxidRows (some maxBlock) chain.publicTxidCompatibilityOmissions
    (store.indexed chain.key)

theorem numbered_catalogRows :
    Numbered 0 (catalogRows chain maxBlock store).length (catalogRows chain maxBlock store) :=
  tiles_numberedPublicTxidRows

theorem treeStart_add_rowCount (index : Nat) :
    index / treeLeafCount * treeLeafCount + (index - index / treeLeafCount * treeLeafCount + 1)
      = index + 1 := by
  have hstart : index / treeLeafCount * treeLeafCount ≤ index := Nat.div_mul_le_self _ _
  omega

theorem rowCount_lt (index : Nat) :
    index - index / treeLeafCount * treeLeafCount + 1 < i64Bound := by
  have hbound : treeLeafCount + 1 < i64Bound := by decide
  have hmod : index % treeLeafCount < treeLeafCount := Nat.mod_lt _ (by decide)
  have hdiv := Nat.div_add_mod' index treeLeafCount
  omega

theorem checkpointRootThroughRow_eq_ok {root : Bytes32} (hab : a ≤ b)
    (hb : b < (catalogRows chain maxBlock store).length) (hfits : b + 1 < u64Bound) :
    checkpointRootThroughRow publisher chain maxBlock store
        (rowsBetween (catalogRows chain maxBlock store) a (b + 1)) = .ok root
      ↔ QueryFits chain.key maxBlock chain.publicTxidCompatibilityOmissions
        ∧ b / treeLeafCount * treeLeafCount < i64Bound
        ∧ root = treeRootThrough publisher (catalogRows chain maxBlock store) b := by
  have hchunk := @numbered_rowsBetween _ a (b + 1) _ (@numbered_catalogRows chain maxBlock store)
    (by omega) hb
  have hne : rowsBetween (catalogRows chain maxBlock store) a (b + 1) ≠ [] := by
    intro hnil
    have hlength := hchunk.stop_eq
    rw [hnil, List.length_nil] at hlength
    omega
  have hlast := (hchunk.getLast_eq hne).2
  have hroot := publicTxidCheckpointRoot_eq_ok publisher (@numbered_catalogRows chain maxBlock store)
    hb hfits
  rw [checkpointRootThroughRow, List.getLast?_eq_some_getLast hne]
  simp only [Nat.add_right_cancel hlast, wrapErr]
  rw [bind_eq_ok]
  simp only [mapError_eq_ok, publishedRows_eq_ok, treeStart_add_rowCount]
  constructor
  · rintro ⟨_, ⟨hquery, hstart, -, rfl⟩, hok⟩
    exact ⟨hquery, hstart, (Except.ok.inj (hroot.symm.trans hok)).symm⟩
  · rintro ⟨hquery, hstart, rfl⟩
    exact ⟨_, ⟨hquery, hstart, rowCount_lt b, rfl⟩, hroot⟩

/-- The bytes encode an envelope whose record section reads back as the rows, if these fit their
fields. -/
def HoldsTxidRows (library : ArtifactLibrary) (rows : List StoredPublicTxidRow)
    (compressedBytes : Bytes) : Prop :=
  ∃ envelope payload rest, library.encodeChunkBytes envelope .zstd = some compressedBytes
    ∧ envelope.payload = payload ++ rest
    ∧ ⟨publicTxidRecordSectionId, 0, payload.length⟩ ∈ envelope.sections
    ∧ ((∀ record ∈ rows, record.FitsWords) →
      Reads (readMany readWrittenRow rows.length) payload (rows.map StoredPublicTxidRow.written))

structure ChunkOf (publisher : Publisher) (scope : ContractKey) (rows : List StoredPublicTxidRow)
    (descriptor : IndexedArtifactDescriptor) : Prop where
  oneTree : descriptor.range.start / treeLeafCount = descriptor.range.end / treeLeafCount
  encodes : ∃ compressedBytes, preparePublicTxidChunk publisher.contracts publisher.library scope
      (rowsBetween rows descriptor.range.start (descriptor.range.end + 1))
      (treeRootThrough publisher rows descriptor.range.end) .zstd
        = .ok ⟨{ descriptor with cid := "" }, compressedBytes⟩
    ∧ publisher.reuseOrPinIndexedArtifact { descriptor with cid := "" } compressedBytes
        = .ok descriptor.cid
    ∧ HoldsTxidRows publisher.library
        (rowsBetween rows descriptor.range.start (descriptor.range.end + 1)) compressedBytes
  root : descriptor.metadata.root
    = some (treeRootThrough publisher rows descriptor.range.end)

structure PlansRows (count : Nat) (planned : PlannedChunk) : Prop where
  ordered : planned.range.start ≤ planned.range.end
  below : planned.range.end < count
  rowCount : planned.range.start + planned.rowCount = planned.range.end + 1

theorem reuseOrPinChunk_eq_ok {prepared descriptor : IndexedArtifactDescriptor}
    {compressedBytes : Bytes} (hcid : prepared.cid = "")
    (hok : reuseOrPinChunk publisher prepared compressedBytes = .ok descriptor) :
    descriptor = { prepared with cid := descriptor.cid }
      ∧ { descriptor with cid := "" } = prepared
      ∧ publisher.reuseOrPinIndexedArtifact prepared compressedBytes = .ok descriptor.cid := by
  obtain ⟨cid, hpinned, hok⟩ := bind_eq_ok.mp hok
  cases hok
  refine ⟨rfl, ?_, hpinned⟩
  rw [← hcid]

theorem publishPlannedChunk_eq_ok {state next : CatalogState} {planned : PlannedChunk}
    (hplanned : PlansRows (catalogRows chain maxBlock store).length planned)
    (hfits : planned.range.end + 1 < u64Bound)
    (hok : publishPlannedChunk publisher chain scope maxBlock store state planned = .ok next) :
    ∃ descriptor, descriptor.range.start = planned.range.start
      ∧ descriptor.range.end = planned.range.end
      ∧ ChunkOf publisher scope (catalogRows chain maxBlock store) descriptor
      ∧ next = ⟨planned.range.end + 1, state.chunks ++ [descriptor]⟩ := by
  obtain ⟨chunkRows, hread, hok⟩ := bind_eq_ok.mp hok
  obtain ⟨-, -, -, hrows⟩ := publishedRows_eq_ok.mp (mapError_eq_ok.mp hread)
  rw [hplanned.rowCount] at hrows
  obtain rfl : chunkRows = rowsBetween (catalogRows chain maxBlock store) planned.range.start
    (planned.range.end + 1) := hrows
  obtain ⟨root, hroot, hok⟩ := bind_eq_ok.mp hok
  obtain ⟨-, -, rfl⟩ := (checkpointRootThroughRow_eq_ok hplanned.ordered hplanned.below hfits).mp
    (mapError_eq_ok.mp hroot)
  obtain ⟨published, hprepared, hok⟩ := bind_eq_ok.mp hok
  have hprepared := mapError_eq_ok.mp hprepared
  obtain ⟨hencoded, -, hcid, hmetadata⟩ := preparePublicTxidChunk_eq_ok hprepared
  obtain ⟨recordPayload, unshieldPayload, hencodes⟩ := encodePublicTxidChunk_eq_ok hencoded
  have hnumbered := numbered_rowsBetween (@numbered_catalogRows chain maxBlock store)
    (Nat.le_succ_of_le hplanned.ordered) hplanned.below
  have hfound := publicTxidRange_eq_ok hnumbered (Nat.lt_succ_of_le hplanned.ordered) hfits
  have hrange := Except.ok.inj (hencodes.ranges.symm.trans hfound)
  obtain ⟨descriptor, hpinned, hok⟩ := bind_eq_ok.mp hok
  obtain ⟨hset, hblank, hcidOk⟩ := reuseOrPinChunk_eq_ok hcid hpinned
  cases hok
  have hstart : descriptor.range.start = planned.range.start := by rw [hset, hrange]
  have hend : descriptor.range.end = planned.range.end := by
    rw [hset, hrange]
    rfl
  refine ⟨descriptor, hstart, hend,
    ⟨?_, ⟨published.compressedBytes, ?_, ?_, ?_⟩, ?_⟩, ?_⟩
  · rw [hset]
    exact validateSingleTxidTree_eq_ok.mp hencodes.oneTree
  · rw [hstart, hend, hblank]
    exact hprepared
  · rw [hblank]
    exact hcidOk
  · rw [hstart, hend]
    exact ⟨_, recordPayload, unshieldPayload.getD [], hencodes.encodes, rfl, List.mem_cons_self,
      fun hfits => reads_writtenRows hfits hencodes.payload⟩
  · rw [hend, hset]
    exact hmetadata
  · rw [hend, Nat.min_eq_left (by omega)]

/-- Nothing stops the publication: the query's arguments and the indices fit their columns, every
omission in reach matches one row, consecutive rows of one tree encode within the size limit, the
planner plans consecutive items within the limit, and pins succeed. -/
structure Publishable (publisher : Publisher) (chain : ChainIndexedChainConfig) (scope : ContractKey)
    (maxBlock : Nat) (store : Store) : Prop where
  fits : QueryFits chain.key maxBlock chain.publicTxidCompatibilityOmissions
  count : (catalogRows chain maxBlock store).length < i64Bound
  omitted : ∀ omission ∈ chain.publicTxidCompatibilityOmissions,
    omission.blockNumber.toNat ≤ maxBlock →
      (store.indexed chain.key).publicTxidRows.entries.countP omission.omits = 1
  encodes : ∀ a b, a ≤ b → b < (catalogRows chain maxBlock store).length →
    a / treeLeafCount = b / treeLeafCount →
      ∃ published, preparePublicTxidChunk publisher.contracts publisher.library scope
        (rowsBetween (catalogRows chain maxBlock store) a (b + 1))
        (treeRootThrough publisher (catalogRows chain maxBlock store) b) .zstd = .ok published
  plans : ∀ (items : List ChunkPlanItem) (a b : Nat), a < b →
    Tiles (fun item : ChunkPlanItem => item.range.start) (fun item => item.range.end) a b items →
    (∀ item ∈ items, item.compressedByteSize ≤ publisher.library.maxCompressedChunkBytes) →
      ∃ planned, publisher.library.planChunks items = some planned
  pins : ∀ descriptor compressedBytes,
    ∃ cid, publisher.reuseOrPinIndexedArtifact descriptor compressedBytes = .ok cid

theorem exists_publishPlannedChunk (hpublishable : Publishable publisher chain scope maxBlock store)
    {state : CatalogState} {planned : PlannedChunk}
    (hplanned : PlansRows (catalogRows chain maxBlock store).length planned)
    (htree : planned.range.start / treeLeafCount = planned.range.end / treeLeafCount) :
    ∃ next, publishPlannedChunk publisher chain scope maxBlock store state planned = .ok next := by
  have hcount := hpublishable.count
  have hbelow := hplanned.below
  have hordered := hplanned.ordered
  have hrowCount := hplanned.rowCount
  have hbounds : i64Bound + i64Bound = u64Bound := by decide
  have hstart : planned.range.end / treeLeafCount * treeLeafCount ≤ planned.range.end :=
    Nat.div_mul_le_self _ _
  obtain ⟨published, hprepared⟩ := hpublishable.encodes _ _ hordered hbelow htree
  obtain ⟨cid, hcid⟩ := hpublishable.pins published.descriptor published.compressedBytes
  refine ⟨⟨min (published.descriptor.range.end + 1) (u64Bound - 1),
    state.chunks ++ [{ published.descriptor with cid }]⟩, bind_eq_ok.mpr ⟨_, mapError_eq_ok.mpr
      (publishedRows_eq_ok.mpr ⟨hpublishable.fits, by omega, by omega, rfl⟩), ?_⟩⟩
  rw [hrowCount]
  refine bind_eq_ok.mpr ⟨_, mapError_eq_ok.mpr ((checkpointRootThroughRow_eq_ok hordered hbelow
    (by omega)).mpr ⟨hpublishable.fits, by omega, rfl⟩), ?_⟩
  refine bind_eq_ok.mpr ⟨published, mapError_eq_ok.mpr hprepared, ?_⟩
  exact bind_eq_ok.mpr ⟨_, bind_eq_ok.mpr ⟨cid, hcid, rfl⟩, rfl⟩

end Planned

/-! ### One turn -/

section Turn

variable {publisher : Publisher} {config : ChainIndexedDatasetConfig}
  {chain : ChainIndexedChainConfig} {scope : ContractKey} {maxBlock : Nat} {store : Store}
  {a b : Nat} {items : List ChunkPlanItem} {planned : List PlannedChunk} {state : CatalogState}

/-- The planner groups consecutive items, and reports of each group its range and its rows. -/
def GroupsItems (library : ArtifactLibrary) : Prop :=
  ∀ items planned, library.planChunks items = some planned →
    ∃ groups : List (List ChunkPlanItem), groups.flatten = items
      ∧ List.Forall₂ (fun group chunk => ∃ hne : group ≠ [],
        chunk.range.start = (group.head hne).range.start
          ∧ chunk.range.end = (group.getLast hne).range.end
          ∧ chunk.rowCount = (group.map ChunkPlanItem.rowCount).sum) groups planned

theorem publicTxidRange_ends {records : List StoredPublicTxidRow} {range : IndexedArtifactRange}
    (hok : publicTxidRange records = .ok range) :
    ∃ hne : records ≠ [], range.start = (records.head hne).txidIndex
      ∧ range.end = (records.getLast hne).txidIndex := by
  cases records with
  | nil => cases hok
  | cons first rest =>
      obtain ⟨_, -, hok⟩ := bind_eq_ok.mp hok
      cases hok
      refine ⟨List.cons_ne_nil _ _, rfl, ?_⟩
      rw [List.getLast_eq_getLastD]

/-- The ranges tile the indices, and each has as many indices as there are rows. -/
structure TilesRows {α : Type} (range : α → IndexedArtifactRange) (rowCount : α → Nat) (a b : Nat)
    (items : List α) : Prop where
  tiles : Tiles (fun item => (range item).start) (fun item => (range item).end) a b items
  sizes : ∀ item ∈ items, (range item).start + rowCount item = (range item).end + 1

abbrev PlanTiles (a b : Nat) (planned : List PlannedChunk) : Prop :=
  TilesRows PlannedChunk.range PlannedChunk.rowCount a b planned

theorem publicTxidPlanItems_eq_ok {rows : List StoredPublicTxidRow} (hrows : Numbered a b rows)
    (hok : publicTxidPlanItems publisher scope rows = .ok items) :
    TilesRows ChunkPlanItem.range ChunkPlanItem.rowCount a b items := by
  have hflatten : (chunksOf publicTxidPlanningRowUnit rows).flatten = rows :=
    flatten_chunksOf (by decide) rows
  have hparts : Numbered a b (chunksOf publicTxidPlanningRowUnit rows).flatten := by
    rwa [hflatten]
  have hitems := mapM_eq_ok_iff.mp hok
  have hends : ∀ {part item}, wrapErr "plan public TXID artifact chunk unit" .publicTxidChunk
      (publicTxidChunkPlanItem publisher.contracts publisher.library scope part .zstd) = .ok item →
        item.rowCount = part.length ∧ ∃ hne : part ≠ [],
          item.range.start = (part.head hne).txidIndex
            ∧ item.range.end = (part.getLast hne).txidIndex := by
    intro part item hitem
    obtain ⟨⟨range, compressedBytes⟩, hencoded, heq⟩ := bind_eq_ok.mp (mapError_eq_ok.mp hitem)
    cases heq
    obtain ⟨_, _, hencodes⟩ := encodePublicTxidChunk_eq_ok hencoded
    exact ⟨rfl, publicTxidRange_ends hencodes.ranges⟩
  refine ⟨hparts.join (hitems.imp fun _ _ hitem => (hends hitem).2), ?_⟩
  intro item hitem
  obtain ⟨part, hpart, hplanned⟩ := exists_of_forall₂_right hitems hitem
  obtain ⟨hcount, hne, hstart, hend⟩ := hends hplanned
  obtain ⟨-, -, low, high, -, -, htiles, -⟩ := hparts.part hpart
  have hlow := htiles.head_eq hne
  have hhigh := (htiles.getLast_eq hne).2
  have hlength := htiles.stop_eq
  omega

theorem GroupsItems.planTiles {library : ArtifactLibrary} (hplanner : GroupsItems library)
    (hitems : TilesRows ChunkPlanItem.range ChunkPlanItem.rowCount a b items)
    (hplanned : library.planChunks items = some planned) : PlanTiles a b planned := by
  obtain ⟨groups, rfl, hgroups⟩ := hplanner _ _ hplanned
  constructor
  · apply hitems.tiles.join
    apply hgroups.imp
    rintro group chunk ⟨hne, hstart, hend, -⟩
    exact ⟨hne, hstart, hend⟩
  intro chunk hchunk
  obtain ⟨group, hgroup, hne, hstart, hend, hcount⟩ := exists_of_forall₂_right hgroups hchunk
  obtain ⟨-, -, low, high, -, -, htiles, -⟩ := hitems.tiles.part hgroup
  have hlow := htiles.head_eq hne
  have hhigh := (htiles.getLast_eq hne).2
  have hsum := htiles.sum_sizes fun item hitem =>
    hitems.sizes item (List.mem_flatten.mpr ⟨group, hgroup, hitem⟩)
  omega

theorem planPublicTxidChunks_eq_ok {rows : List StoredPublicTxidRow}
    (hplanner : GroupsItems publisher.library) (hrows : Numbered a b rows)
    (hitems : publicTxidPlanItems publisher scope rows = .ok items)
    (hplanned : planPublicTxidChunks publisher items = .ok planned) : PlanTiles a b planned := by
  rw [planPublicTxidChunks] at hplanned
  split at hplanned
  · rename_i found hfound
    cases hplanned
    exact hplanner.planTiles (publicTxidPlanItems_eq_ok hrows hitems) hfound
  · cases hplanned

theorem foldlM_publishPlannedChunk {next : CatalogState} (hplan : PlanTiles a b planned)
    (hcount : b ≤ (catalogRows chain maxBlock store).length) (hfits : b < u64Bound)
    (hoffset : state.offset = a)
    (hok : planned.foldlM (publishPlannedChunk publisher chain scope maxBlock store) state = .ok
      next) :
    ∃ descriptors, next = ⟨b, state.chunks ++ descriptors⟩
      ∧ Tiles (fun descriptor : IndexedArtifactDescriptor => descriptor.range.start)
        (fun descriptor => descriptor.range.end) a b descriptors
      ∧ ∀ descriptor ∈ descriptors,
        ChunkOf publisher scope (catalogRows chain maxBlock store) descriptor := by
  obtain ⟨htiles, hsizes⟩ := hplan
  induction htiles generalizing state with
  | nil =>
      cases hok
      refine ⟨[], ?_, .nil, by simp⟩
      rw [List.append_nil, ← hoffset]
  | @cons a b chunk planned hfirst hle hrest ih =>
      have hlast := hrest.le
      obtain ⟨middle, hstep, hok⟩ := bind_eq_ok.mp hok
      have hplans : PlansRows (catalogRows chain maxBlock store).length chunk :=
        ⟨hfirst ▸ hle, by omega, hsizes chunk List.mem_cons_self⟩
      obtain ⟨descriptor, hstart, hend, hchunk, rfl⟩ :=
        publishPlannedChunk_eq_ok hplans (by omega) hstep
      obtain ⟨descriptors, rfl, hdescriptors, hchunks⟩ :=
        ih hcount hfits rfl hok fun other hother => hsizes other (List.mem_cons_of_mem _ hother)
      refine ⟨descriptor :: descriptors, by simp, ?_, ?_⟩
      · refine .cons (hstart.trans hfirst) (by omega) ?_
        rw [hend]
        exact hdescriptors
      · intro other hother
        rcases List.mem_cons.mp hother with rfl | hother
        · exact hchunk
        · exact hchunks other hother

structure PublishedBetween (publisher : Publisher) (scope : ContractKey)
    (rows : List StoredPublicTxidRow) (a b : Nat) (descriptors : List IndexedArtifactDescriptor) :
    Prop where
  tiles : Tiles (fun descriptor : IndexedArtifactDescriptor => descriptor.range.start)
    (fun descriptor => descriptor.range.end) a b descriptors
  chunks : ∀ descriptor ∈ descriptors, ChunkOf publisher scope rows descriptor

theorem publicTxidChunkRowLimit_pos {offset configuredLimit : Nat} (hlimit : 0 < configuredLimit) :
    0 < publicTxidChunkRowLimit offset configuredLimit := by
  have hmod : offset % treeLeafCount < treeLeafCount := Nat.mod_lt _ (by decide)
  rw [publicTxidChunkRowLimit]
  omega

theorem div_eq_of_page {offset configuredLimit index : Nat} (hle : offset ≤ index)
    (hlt : index < offset + publicTxidChunkRowLimit offset configuredLimit) :
    index / treeLeafCount = offset / treeLeafCount := by
  have hdiv := Nat.div_add_mod offset treeLeafCount
  rw [publicTxidChunkRowLimit] at hlt
  apply Nat.div_eq_of_lt_le
  · rw [Nat.mul_comm]
    omega
  · rw [Nat.succ_mul, Nat.mul_comm]
    omega

def catalogPage (config : ChainIndexedDatasetConfig) (chain : ChainIndexedChainConfig)
    (maxBlock : Nat) (store : Store) (offset : Nat) : List StoredPublicTxidRow :=
  rowsBetween (catalogRows chain maxBlock store) offset
    (offset + publicTxidChunkRowLimit offset config.publicTxidChunkRowLimit)

def catalogPageEnd (config : ChainIndexedDatasetConfig) (chain : ChainIndexedChainConfig)
    (maxBlock : Nat) (store : Store) (offset : Nat) : Nat :=
  min (offset + publicTxidChunkRowLimit offset config.publicTxidChunkRowLimit)
    (catalogRows chain maxBlock store).length

theorem numbered_catalogPage {offset : Nat}
    (hoffset : offset ≤ (catalogRows chain maxBlock store).length) :
    Numbered offset (catalogPageEnd config chain maxBlock store offset)
      (catalogPage config chain maxBlock store offset) := by
  have hsame : catalogPage config chain maxBlock store offset
      = rowsBetween (catalogRows chain maxBlock store) offset
        (catalogPageEnd config chain maxBlock store offset) := by
    apply List.filter_congr
    intro row hrow
    have hbound := (numbered_catalogRows.bounds hrow).2.2
    congr 1
    rw [eq_iff_iff, catalogPageEnd]
    omega
  rw [hsame]
  apply numbered_rowsBetween numbered_catalogRows
  · rw [catalogPageEnd]
    omega
  · exact Nat.min_le_right _ _

theorem publicTxidTurn_eq_ok {turn : Loop.Turn CatalogState (List IndexedArtifactDescriptor)}
    (hlimit : 0 < config.publicTxidChunkRowLimit) (hplanner : GroupsItems publisher.library)
    (hoffset : state.offset ≤ (catalogRows chain maxBlock store).length)
    (hok : publicTxidTurn publisher config chain scope maxBlock store state = .ok turn) :
    ∃ stop descriptors, stop ≤ (catalogRows chain maxBlock store).length
      ∧ PublishedBetween publisher scope (catalogRows chain maxBlock store) state.offset stop
        descriptors
      ∧ ((turn = .done (state.chunks ++ descriptors)
          ∧ stop = (catalogRows chain maxBlock store).length)
        ∨ (turn = .again ⟨stop, state.chunks ++ descriptors⟩ ∧ state.offset < stop)) := by
  have hpositive := @publicTxidChunkRowLimit_pos state.offset _ hlimit
  obtain ⟨rows, hread, hok⟩ := bind_eq_ok.mp hok
  obtain ⟨-, hfits, -, hrows⟩ := publishedRows_eq_ok.mp (mapError_eq_ok.mp hread)
  obtain rfl : rows = catalogPage config chain maxBlock store state.offset := hrows
  have hnumbered := @numbered_catalogPage config chain maxBlock store _ hoffset
  have hlength := hnumbered.stop_eq
  have hend : catalogPageEnd config chain maxBlock store state.offset < u64Bound := by
    have hbounds : i64Bound + treeLeafCount < u64Bound := by decide
    rw [catalogPageEnd, publicTxidChunkRowLimit]
    omega
  by_cases hempty : (catalogPage config chain maxBlock store state.offset).isEmpty = true
  · rw [if_pos hempty] at hok
    rw [List.isEmpty_iff] at hempty
    rw [hempty, List.length_nil, catalogPageEnd] at hlength
    cases hok
    refine ⟨state.offset, [], hoffset, ⟨.nil, by simp⟩, .inl ⟨?_, by omega⟩⟩
    rw [List.append_nil]
  · rw [if_neg hempty] at hok
    obtain ⟨items, hitems, hok⟩ := bind_eq_ok.mp hok
    obtain ⟨planned, hplanned, hok⟩ := bind_eq_ok.mp hok
    obtain ⟨next, hnext, hok⟩ := bind_eq_ok.mp hok
    have hplan := planPublicTxidChunks_eq_ok hplanner hnumbered hitems hplanned
    obtain ⟨descriptors, rfl, hdescriptors, hchunks⟩ :=
      foldlM_publishPlannedChunk hplan (Nat.min_le_right _ _) hend rfl hnext
    refine ⟨catalogPageEnd config chain maxBlock store state.offset, descriptors,
      Nat.min_le_right _ _, ⟨hdescriptors, hchunks⟩, ?_⟩
    split_ifs at hok with hshort
    · cases hok
      refine .inl ⟨rfl, ?_⟩
      rw [catalogPageEnd] at hlength ⊢
      omega
    · cases hok
      refine .inr ⟨rfl, ?_⟩
      omega

/-! ### Publication succeeds -/

theorem part_of_catalogPage {offset : Nat} {part : List StoredPublicTxidRow}
    (hoffset : offset ≤ (catalogRows chain maxBlock store).length)
    (hpart : part ∈ chunksOf publicTxidPlanningRowUnit
      (catalogPage config chain maxBlock store offset)) :
    ∃ a b, a ≤ b ∧ b < (catalogRows chain maxBlock store).length
      ∧ a / treeLeafCount = b / treeLeafCount
      ∧ part = rowsBetween (catalogRows chain maxBlock store) a (b + 1) := by
  have hflatten : (chunksOf publicTxidPlanningRowUnit
      (catalogPage config chain maxBlock store offset)).flatten
        = catalogPage config chain maxBlock store offset :=
    flatten_chunksOf (by decide) _
  have hpage := @numbered_catalogPage config chain maxBlock store _ hoffset
  rw [← hflatten] at hpage
  obtain ⟨a, stop, hstart, hstop, htiles, heq⟩ := hpage.part_eq_filter hpart
  have hlength := htiles.stop_eq
  have hpositive := List.length_pos_of_ne_nil (ne_nil_of_mem_chunksOf (by decide) hpart)
  have hend := hstop
  rw [catalogPageEnd] at hend
  refine ⟨a, stop - 1, by omega, by omega, ?_, ?_⟩
  · rw [@div_eq_of_page offset config.publicTxidChunkRowLimit a hstart (by omega),
      @div_eq_of_page offset config.publicTxidChunkRowLimit (stop - 1) (by omega) (by omega)]
  · rw [heq, hflatten, catalogPage, rowsBetween, rowsBetween, List.filter_filter]
    apply List.filter_congr
    intro row _
    rw [← Bool.decide_and]
    congr 1
    rw [eq_iff_iff]
    omega

theorem exists_publicTxidPlanItems {offset : Nat}
    (hpublishable : Publishable publisher chain scope maxBlock store)
    (hoffset : offset ≤ (catalogRows chain maxBlock store).length) :
    ∃ items, publicTxidPlanItems publisher scope (catalogPage config chain maxBlock store offset)
        = .ok items
      ∧ ∀ item ∈ items,
        item.compressedByteSize ≤ publisher.library.maxCompressedChunkBytes := by
  apply exists_mapM_forall
  intro part hpart
  obtain ⟨a, b, hab, hb, htree, rfl⟩ := part_of_catalogPage hoffset hpart
  obtain ⟨published, hprepared⟩ := hpublishable.encodes a b hab hb htree
  obtain ⟨hencoded, hsize, -, -⟩ := preparePublicTxidChunk_eq_ok hprepared
  exact ⟨_, mapError_eq_ok.mpr (bind_eq_ok.mpr ⟨_, hencoded, rfl⟩), hsize⟩

theorem exists_publicTxidTurn {state : CatalogState} (hplanner : GroupsItems publisher.library)
    (hpublishable : Publishable publisher chain scope maxBlock store)
    (hoffset : state.offset ≤ (catalogRows chain maxBlock store).length) :
    ∃ turn, publicTxidTurn publisher config chain scope maxBlock store state = .ok turn := by
  have hcount := hpublishable.count
  have hbounds : treeLeafCount < i64Bound := by decide
  have hread : publishedPublicTxidRowsThroughBlock chain.key state.offset
      (publicTxidChunkRowLimit state.offset config.publicTxidChunkRowLimit) maxBlock
      chain.publicTxidCompatibilityOmissions store
        = .ok (catalogPage config chain maxBlock store state.offset) := by
    refine publishedRows_eq_ok.mpr ⟨hpublishable.fits, by omega, ?_, rfl⟩
    rw [publicTxidChunkRowLimit]
    omega
  by_cases hempty : (catalogPage config chain maxBlock store state.offset).isEmpty = true
  · refine ⟨.done state.chunks, bind_eq_ok.mpr ⟨_, mapError_eq_ok.mpr hread, ?_⟩⟩
    rw [if_pos hempty]
    rfl
  · have hpage := @numbered_catalogPage config chain maxBlock store _ hoffset
    have hlength := hpage.stop_eq
    have hpositive := List.length_pos_of_ne_nil fun hnil => hempty (List.isEmpty_iff.mpr hnil)
    obtain ⟨items, hitems, hsizes⟩ :=
      @exists_publicTxidPlanItems _ config _ _ _ _ _ hpublishable hoffset
    obtain ⟨planned, hplanned⟩ := hpublishable.plans items _ _ (by omega)
      (publicTxidPlanItems_eq_ok hpage hitems).tiles hsizes
    have hplan : planPublicTxidChunks publisher items = .ok planned := by
      rw [planPublicTxidChunks, hplanned]
    obtain ⟨htiles, hrowCounts⟩ := planPublicTxidChunks_eq_ok hplanner hpage hitems hplan
    have hplans : ∀ chunk ∈ planned, PlansRows (catalogRows chain maxBlock store).length chunk
        ∧ chunk.range.start / treeLeafCount = chunk.range.end / treeLeafCount := by
      intro chunk hchunk
      obtain ⟨hstart, hordered, hend⟩ := htiles.bounds hchunk
      rw [catalogPageEnd] at hend
      refine ⟨⟨hordered, by omega, hrowCounts chunk hchunk⟩, ?_⟩
      rw [@div_eq_of_page state.offset config.publicTxidChunkRowLimit chunk.range.start hstart
          (by omega),
        @div_eq_of_page state.offset config.publicTxidChunkRowLimit chunk.range.end (by omega)
          (by omega)]
    obtain ⟨next, hnext⟩ := exists_foldlM_eq_ok (fun _ chunk hchunk =>
      exists_publishPlannedChunk hpublishable (hplans chunk hchunk).1 (hplans chunk hchunk).2) state
    refine ⟨if (catalogPage config chain maxBlock store state.offset).length
        < publicTxidChunkRowLimit state.offset config.publicTxidChunkRowLimit
      then .done next.chunks else .again next, bind_eq_ok.mpr ⟨_, mapError_eq_ok.mpr hread, ?_⟩⟩
    rw [if_neg hempty]
    refine bind_eq_ok.mpr ⟨_, hitems, bind_eq_ok.mpr ⟨_, hplan, bind_eq_ok.mpr ⟨_, hnext, ?_⟩⟩⟩
    split_ifs <;> rfl

end Turn

/-! ### The whole catalog -/

section Catalog

variable {publisher : Publisher} {config : ChainIndexedDatasetConfig}
  {chain : ChainIndexedChainConfig} {scope : ContractKey} {maxBlock : Nat} {store : Store}

theorem PublishedBetween.append {rows : List StoredPublicTxidRow} {a b c : Nat}
    {descriptors later : List IndexedArtifactDescriptor}
    (hdescriptors : PublishedBetween publisher scope rows a b descriptors)
    (hlater : PublishedBetween publisher scope rows b c later) :
    PublishedBetween publisher scope rows a c (descriptors ++ later) := by
  refine ⟨hdescriptors.tiles.append hlater.tiles, fun descriptor hmem => ?_⟩
  rcases List.mem_append.mp hmem with hmem | hmem
  · exact hdescriptors.chunks descriptor hmem
  · exact hlater.chunks descriptor hmem

theorem publicTxidLoop_ends (hlimit : 0 < config.publicTxidChunkRowLimit)
    (hplanner : GroupsItems publisher.library) (state : CatalogState)
    (hoffset : state.offset ≤ (catalogRows chain maxBlock store).length) :
    ∃ after outcome,
      Loop.Ends (publicTxidTurn publisher config chain scope maxBlock store) state after outcome
      ∧ (∀ chunks, outcome = .ok chunks → ∃ descriptors, chunks = state.chunks ++ descriptors
        ∧ PublishedBetween publisher scope (catalogRows chain maxBlock store) state.offset
          (catalogRows chain maxBlock store).length descriptors)
      ∧ (Publishable publisher chain scope maxBlock store → ∃ chunks, outcome = .ok chunks) := by
  induction hleft : (catalogRows chain maxBlock store).length - state.offset
    using Nat.strong_induction_on generalizing state with
  | _ left ih =>
      cases hturn : publicTxidTurn publisher config chain scope maxBlock store state with
      | error error =>
          refine ⟨state, .error error, (Loop.Returns.error hturn).ends_iff.mpr ⟨rfl, rfl⟩, ?_, ?_⟩
          · intro chunks herror
            cases herror
          · intro hpublishable
            obtain ⟨turn, hok⟩ := @exists_publicTxidTurn _ config _ _ _ _ _ hplanner hpublishable
              hoffset
            rw [hturn] at hok
            cases hok
      | ok turn =>
          obtain ⟨stop, descriptors, hstop, hpublished, hnext⟩ :=
            publicTxidTurn_eq_ok hlimit hplanner hoffset hturn
          rcases hnext with ⟨rfl, rfl⟩ | ⟨rfl, hlt⟩
          · refine ⟨state, _, (Loop.Returns.done hturn).ends_iff.mpr ⟨rfl, rfl⟩, ?_, fun _ => ⟨_, rfl⟩⟩
            intro chunks hchunks
            exact ⟨descriptors, (Except.ok.inj hchunks).symm, hpublished⟩
          · have hshorter : (catalogRows chain maxBlock store).length - stop < left := by omega
            obtain ⟨after, outcome, hends, hresult, hsuccess⟩ :=
              ih _ hshorter ⟨stop, state.chunks ++ descriptors⟩ hstop rfl
            refine ⟨after, outcome, (Loop.ends_of_again hturn).mpr hends, ?_, hsuccess⟩
            intro chunks hchunks
            obtain ⟨later, rfl, hlater⟩ := hresult chunks hchunks
            exact ⟨descriptors ++ later, by rw [List.append_assoc], hpublished.append hlater⟩

theorem validateOmissions_eq_ok (hpublishable : Publishable publisher chain scope maxBlock store) :
    validatePublicTxidCompatibilityOmissions chain maxBlock store = .ok () := by
  rw [validatePublicTxidCompatibilityOmissions, forM_eq_ok_iff]
  intro omission homission
  rw [validatePublicTxidCompatibilityOmission]
  split_ifs with hblock
  · rfl
  · obtain ⟨hnumber, hindex⟩ := hpublishable.fits.omissions omission homission
    have hcount : publicTxidCompatibilityOmissionMatchCount chain.key omission store = .ok 1 := by
      refine bind_eq_ok.mpr ⟨_, u64ToI64_eq_ok.mpr ⟨hpublishable.fits.chainId, rfl⟩, ?_⟩
      refine bind_eq_ok.mpr ⟨_, u64ToI64_eq_ok.mpr ⟨hnumber, rfl⟩, ?_⟩
      refine bind_eq_ok.mpr ⟨_, u64ToI64_eq_ok.mpr ⟨hindex, rfl⟩, ?_⟩
      rw [hpublishable.omitted omission homission (Nat.le_of_not_lt hblock)]
      rfl
    rw [hcount]
    rfl

end Catalog

/-! ### A small catalog -/

section Small

def toyLibrary : ArtifactLibrary where
  encodeChunkBytes envelope _ := some (envelope.payload.take 512)
  planChunks items := some (items.map fun item => ⟨item.range, item.rowCount⟩)
  chunkFormatVersion := 1
  maxCompressedChunkBytes := 512
  sha256 _ := 0
  railgunTxidLeafHashWithOutputStart railgunTxid _ _ := railgunTxid
  denseMerkleRoot leaves _ := leaves.headD 0

theorem groupsItems_toyLibrary : GroupsItems toyLibrary := by
  intro items planned hplanned
  cases hplanned
  refine ⟨items.map fun item => [item], ?_, ?_⟩
  · exact List.flatMap_singleton' items
  rw [List.forall₂_map_left_iff, List.forall₂_map_right_iff]
  exact List.forall₂_same.mpr fun item _ => ⟨List.cons_ne_nil _ _, rfl, rfl, by simp⟩

def toyPublisher : Publisher where
  contracts := toyContracts
  library := toyLibrary
  reuseOrPinIndexedArtifact _ _ := .ok "cid"

def smallRow (blockNumber firstLogIndex : Nat) : PublicTxidRow where
  blockNumber
  blockTimestamp := 0
  blockHash := 0
  firstLogIndex
  lastLogIndex := firstLogIndex
  rowId := ""
  nullifiers := []
  commitments := []
  boundParamsHash := 0
  hasUnshield := false
  unshieldPreimage := none
  utxoTreeIn := 0
  utxoTreeOut := 0
  utxoBatchStartPositionOut := 0

def smallTables : IndexedTables :=
  { publicTxidRows := (((OrdMap.empty.insert (toLex (1, 0)) (smallRow 6 0)).insert (toLex (2, 0))
      (smallRow 5 1)).insert (toLex (3, 0)) (smallRow 5 0)).insert (toLex (4, 0)) (smallRow 7 0) }

def smallStore : Store := { indexed := fun _ => smallTables }

def smallChain : ChainIndexedChainConfig :=
  { toySettings 0 with publicTxidCompatibilityOmissions := [⟨5, 3, 0⟩] }

def smallConfig : ChainIndexedDatasetConfig := { toyConfig 0 0 with chains := [smallChain] }

theorem length_smallRows : (catalogRows smallChain 6 smallStore).length = 2 := by decide +kernel

theorem publishable_small : Publishable toyPublisher smallChain ⟨1, 1⟩ 6 smallStore where
  fits := ⟨by decide, by decide, by decide⟩
  count := by
    decide
  omitted := by decide +kernel
  encodes a b hab hb _ := by
    rw [length_smallRows] at hb
    obtain ⟨rfl, rfl⟩ | ⟨rfl, rfl⟩ | ⟨rfl, rfl⟩ :
        (a = 0 ∧ b = 0) ∨ (a = 0 ∧ b = 1) ∨ (a = 1 ∧ b = 1) := by omega
    all_goals exact exists_eq_ok_of_isSome (by decide +kernel)
  plans items _ _ _ _ _ := ⟨_, rfl⟩
  pins _ _ := ⟨_, rfl⟩

end Small

end RailgunIndexer
