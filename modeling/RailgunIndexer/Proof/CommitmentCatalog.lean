import RailgunIndexer.CommitmentCatalog
import RailgunIndexer.Lib.Intervals
import RailgunIndexer.Proof.CommitmentRows
import RailgunIndexer.Proof.PublicTxidCatalog
import RailgunIndexer.Proof.TreeCheckpoint

/-!
# The commitment catalog holds every commitment once

The commitments of a contract are points in order of their global position. A window, a planning unit and
a planned chunk are all what the points have in an interval. The planned chunks of a window are in order
and hold all of its points, so a turn of the loop leaves no point behind, whatever the gaps.
-/

namespace RailgunIndexer

open Lib Lib.Fallible Cursor SquidParity
open StoredCommitmentRow (globalPosition)

def PositionsDistinct (tables : IndexedTables) (through : Option Nat) : Prop :=
  ∀ left ∈ allCommitments through tables, ∀ right ∈ allCommitments through tables,
    left.globalPosition = right.globalPosition → left = right

/-- The rows are all commitments within the bound, in increasing global position. -/
structure CommitmentList (tables : IndexedTables) (through : Option Nat)
    (rows : List StoredCommitmentRow) : Prop where
  increasing : rows.Pairwise fun left right => left.globalPosition < right.globalPosition
  complete : ∀ row, row ∈ rows
    ↔ row.globalPosition = row.treeNumber * treeLeafCount + row.treePosition
      ∧ commitmentAt tables (toLex (row.treeNumber, row.treePosition)) row.family
        = some (row.blockNumber, row.commitmentHash)
      ∧ ∀ bound ∈ through, row.blockNumber ≤ bound

/-! ### All commitments in order -/

section Commitments

variable {tables : IndexedTables} {through : Option Nat}

def commitmentsInOrder (through : Option Nat) (tables : IndexedTables) : List StoredCommitmentRow :=
  (sortByKey commitmentOrder (allCommitments through tables)).map storedRow

section

variable (hdistinct : PositionsDistinct tables through)

include hdistinct

theorem pairwise_commitmentOrder :
    (sortByKey commitmentOrder (allCommitments through tables)).Pairwise fun left right =>
      left.globalPosition < right.globalPosition := by
  have hperm := sortByKey_perm commitmentOrder (allCommitments through tables)
  have hnodup := hperm.nodup_iff.mpr nodup_allCommitments
  apply ((pairwise_sortByKey commitmentOrder _).and hnodup).imp_of_mem
  rintro left right hleft hright ⟨hle, hne⟩
  apply lt_of_le_of_ne
  · exact (Prod.Lex.toLex_le_toLex.mp hle).elim le_of_lt fun heq => heq.1.le
  · intro heq
    exact hne (hdistinct left (hperm.subset hleft) right (hperm.subset hright) heq)

theorem inOrder_commitments :
    InOrder globalPosition globalPosition
      (commitmentsInOrder through tables) :=
  inOrder_points_iff.mpr (List.pairwise_map.mpr (pairwise_commitmentOrder hdistinct))

theorem rowsIn_eq_within (a b : Nat) :
    rowsIn through tables a b = within globalPosition
      (commitmentsInOrder through tables) a b := by
  have hsorted : sortByKey commitmentOrder ((allCommitments through tables).filter fun commitment =>
      a ≤ commitment.globalPosition && commitment.globalPosition ≤ b)
        = (sortByKey commitmentOrder (allCommitments through tables)).filter fun commitment =>
          a ≤ commitment.globalPosition && commitment.globalPosition ≤ b := by
    apply sortByKey_eq_of_perm
    · exact ((sortByKey_perm _ _).filter _).symm
    · apply ((pairwise_commitmentOrder hdistinct).filter _).imp
      intro left right hlt
      exact Prod.Lex.toLex_lt_toLex.mpr (.inl hlt)
  rw [rowsIn, hsorted, within, commitmentsInOrder, List.filter_map]
  rfl

theorem commitmentList_inOrder :
    CommitmentList tables through (commitmentsInOrder through tables) := by
  refine ⟨(inOrder_commitments hdistinct).apart, ?_⟩
  intro row
  rw [commitmentsInOrder, List.mem_map]
  simp only [(sortByKey_perm _ _).mem_iff, mem_allCommitments]
  constructor
  · rintro ⟨commitment, hcommitment, rfl⟩
    exact ⟨rfl, hcommitment⟩
  · rintro ⟨hposition, hcommitment⟩
    refine ⟨⟨row.family, row.blockNumber, row.treeNumber, row.treePosition, row.commitmentHash⟩,
      hcommitment, ?_⟩
    rw [storedRow, CommitmentColumns.globalPosition, ← hposition]

end

end Commitments

/-! ### Chunks -/

section Chunks

variable {records : List StoredCommitmentRow} {first : StoredCommitmentRow}
  {range : IndexedArtifactRange} {compression : CompressionAlgorithm} {library : ArtifactLibrary}
  {scope : ContractKey}

theorem foldlM_commitmentRangeStep {position : Nat} (hfirst : first.globalPosition = position)
    (hincreasing : (first :: records).Pairwise fun left right => left.globalPosition <
      right.globalPosition) :
    records.foldlM commitmentRangeStep position
      = .ok ((first :: records).getLast (List.cons_ne_nil _ _)).globalPosition := by
  induction records generalizing first position with
  | nil =>
      rw [← hfirst]
      rfl
  | cons record records ih =>
      obtain ⟨hbefore, hrest⟩ := List.pairwise_cons.mp hincreasing
      have hlt := hbefore record List.mem_cons_self
      have hstep : commitmentRangeStep position record = .ok record.globalPosition := by
        rw [commitmentRangeStep, if_neg (by omega)]
      rw [List.foldlM_cons, hstep, ok_bind, ih rfl hrest, List.getLast_cons (List.cons_ne_nil _ _)]

theorem commitmentRange_of_increasing (hne : records ≠ [])
    (hincreasing : records.Pairwise fun left right => left.globalPosition < right.globalPosition) :
    commitmentRange records = .ok ⟨.treePosition, (records.head hne).globalPosition,
      (records.getLast hne).globalPosition⟩ := by
  cases records with
  | nil => exact absurd rfl hne
  | cons first rest =>
      rw [commitmentRange, foldlM_commitmentRangeStep rfl hincreasing]
      rfl

theorem getLast_of_commitmentRangeStep {position : Nat}
    (hok : records.foldlM commitmentRangeStep first.globalPosition = .ok position) :
    position = ((first :: records).getLast (List.cons_ne_nil _ _)).globalPosition := by
  induction records generalizing first with
  | nil => exact (Except.ok.inj hok).symm
  | cons record records ih =>
      obtain ⟨middle, hstep, hok⟩ := bind_eq_ok.mp hok
      rw [commitmentRangeStep] at hstep
      split_ifs at hstep
      cases hstep
      rw [ih hok, List.getLast_cons (List.cons_ne_nil _ _)]

theorem commitmentRange_ends (hok : commitmentRange records = .ok range) :
    ∃ hne : records ≠ [], range.start = (records.head hne).globalPosition
      ∧ range.end = (records.getLast hne).globalPosition := by
  cases records with
  | nil => cases hok
  | cons first rest =>
      obtain ⟨position, hfold, hok⟩ := bind_eq_ok.mp hok
      cases hok
      exact ⟨List.cons_ne_nil _ _, rfl, getLast_of_commitmentRangeStep hfold⟩

theorem encodeCommitmentChunk_eq_ok {compressedBytes : Bytes}
    (hok : encodeCommitmentChunk library scope records compression = .ok (range, compressedBytes)) :
    commitmentRange records = .ok range
      ∧ library.encodeChunkBytes (commitmentEnvelope scope range records.length
        (encodeCommitmentRecords records)) compression = some compressedBytes := by
  obtain ⟨found, hrange, hok⟩ := bind_eq_ok.mp hok
  obtain ⟨bytes, hbytes, hok⟩ := bind_eq_ok.mp hok
  cases hok
  refine ⟨hrange, ?_⟩
  rw [encodeCommitmentEnvelope] at hbytes
  split at hbytes
  · rename_i encoded hencode
    rw [hencode, Except.ok.inj hbytes]
  · cases hbytes

theorem prepareCommitmentChunk_eq_ok {published : PublishedCommitmentChunk}
    (hok : prepareCommitmentChunk library scope records compression = .ok published) :
    encodeCommitmentChunk library scope records compression
        = .ok (published.descriptor.range, published.compressedBytes)
      ∧ published.compressedBytes.length ≤ library.maxCompressedChunkBytes
      ∧ published.descriptor.cid = "" := by
  obtain ⟨⟨range, compressedBytes⟩, hencoded, hok⟩ := bind_eq_ok.mp hok
  simp only [] at hok
  split_ifs at hok with hsize
  cases hok
  exact ⟨hencoded, Nat.le_of_not_lt hsize, rfl⟩

end Chunks

/-! ### One planned chunk -/

section Planned

variable {publisher : Publisher} {chain : ChainIndexedChainConfig} {scope : ContractKey}
  {maxBlock : Nat} {store : Store} {planned : PlannedChunk} {next state : CommitmentCatalogState}

def catalogCommitments (chain : ChainIndexedChainConfig) (maxBlock : Nat) (store : Store) :
    List StoredCommitmentRow :=
  commitmentsInOrder (some maxBlock) (store.indexed chain.key)

def window (chain : ChainIndexedChainConfig) (maxBlock : Nat) (store : Store) (a b : Nat) :
    List StoredCommitmentRow :=
  within globalPosition (catalogCommitments chain maxBlock store) a b

/-- What the store has to hold for its commitments to be numbered by their global positions. -/
structure Positioned (chain : ChainIndexedChainConfig) (maxBlock : Nat) (store : Store) : Prop where
  fits : CommitmentsFit (store.indexed chain.key)
  distinct : PositionsDistinct (store.indexed chain.key) (some maxBlock)

section

variable (hpositioned : Positioned chain maxBlock store)
  {rows : List StoredCommitmentRow}

include hpositioned

theorem Positioned.inOrder :
    InOrder globalPosition globalPosition
      (catalogCommitments chain maxBlock store) :=
  inOrder_commitments hpositioned.distinct

theorem Positioned.lt_i64Bound
    {row : StoredCommitmentRow} (hrow : row ∈ catalogCommitments chain maxBlock store) :
    row.globalPosition < i64Bound := by
  obtain ⟨commitment, hcommitment, rfl⟩ := List.mem_map.mp hrow
  exact (hpositioned.fits.of_mem ((sortByKey_perm _ _).subset hcommitment)).2

theorem Positioned.length_lt
    (hrows : rows.Sublist (catalogCommitments chain maxBlock store)) : rows.length < u64Bound := by
  have hnodup : (rows.map globalPosition).Nodup :=
    List.pairwise_map.mpr ((hpositioned.inOrder.apart.sublist hrows).imp Nat.ne_of_lt)
  have hsubset : rows.map globalPosition ⊆ List.range i64Bound := by
    intro position hposition
    obtain ⟨row, hrow, rfl⟩ := List.mem_map.mp hposition
    exact List.mem_range.mpr (hpositioned.lt_i64Bound (hrows.subset hrow))
  have hle := (List.subperm_of_subset hnodup hsubset).length_le
  rw [List.length_map, List.length_range] at hle
  exact hle.trans_lt (by decide)

theorem Positioned.fitsCommitments (hblock : maxBlock < i64Bound)
    (hrows : rows.Sublist (catalogCommitments chain maxBlock store)) : FitsCommitments rows := by
  have hbounds : i64Bound < u64Bound := by decide
  have hcolumns : ∀ row ∈ rows, row.globalPosition < i64Bound ∧ row.blockNumber ≤ maxBlock
      ∧ row.treeNumber < u32Bound
      ∧ row.globalPosition = row.treeNumber * treeLeafCount + row.treePosition := by
    intro row hrow
    have hmem := hrows.subset hrow
    obtain ⟨hposition, -, hthrough⟩ :=
      ((commitmentList_inOrder hpositioned.distinct).complete row).mp hmem
    obtain ⟨commitment, hcommitment, rfl⟩ := List.mem_map.mp hmem
    have hfits := hpositioned.fits.of_mem ((sortByKey_perm _ _).subset hcommitment)
    exact ⟨hfits.2, hthrough maxBlock rfl, hfits.1, hposition⟩
  refine ⟨hpositioned.length_lt hrows, ?_, ?_, ?_, ?_⟩
  all_goals
    intro row hrow
    obtain ⟨hposition, hrowBlock, htree, hplace⟩ := hcolumns row hrow
    omega

theorem Positioned.rows_eq_ok {a b : Nat} :
    commitmentRows chain.key a b (some maxBlock) store = .ok rows
      ↔ RangeFits chain.key (some maxBlock) a b
        ∧ rows = window chain maxBlock store a b := by
  rw [commitmentRows_eq_ok hpositioned.fits, rowsIn_eq_within hpositioned.distinct]
  rfl

end

/-- The chunk is of the rows: its bytes encode an envelope whose payload reads back as them. -/
def CommitmentChunkOf (publisher : Publisher) (scope : ContractKey)
    (rows : List StoredCommitmentRow) (descriptor : IndexedArtifactDescriptor) : Prop :=
  ∃ compressedBytes envelope, prepareCommitmentChunk publisher.library scope rows .zstd
      = .ok ⟨{ descriptor with cid := "" }, compressedBytes⟩
    ∧ publisher.reuseOrPinIndexedArtifact { descriptor with cid := "" } compressedBytes
      = .ok descriptor.cid
    ∧ publisher.library.encodeChunkBytes envelope .zstd = some compressedBytes
    ∧ Reads (readRows readStoredCommitment) envelope.payload rows

structure PlansCommitments (rows : List StoredCommitmentRow) (planned : PlannedChunk) : Prop where
  first : ∃ row ∈ rows, planned.range.start = row.globalPosition
  last : ∃ row ∈ rows, planned.range.end = row.globalPosition
  ordered : planned.range.start ≤ planned.range.end

theorem PlansCommitments.range_eq (hpositioned : Positioned chain maxBlock store)
    (hplanned : PlansCommitments (catalogCommitments chain maxBlock store) planned) :
    commitmentRange (window chain maxBlock store planned.range.start planned.range.end)
      = .ok ⟨.treePosition, planned.range.start, planned.range.end⟩ := by
  obtain ⟨first, hfirst, hstart⟩ := hplanned.first
  obtain ⟨last, hlast, hend⟩ := hplanned.last
  have hordered := hplanned.ordered
  rw [hstart, hend] at hordered ⊢
  obtain ⟨hne, hhead, htail⟩ := hpositioned.inOrder.within_ends hfirst hlast hordered
  rw [window, commitmentRange_of_increasing hne (hpositioned.inOrder.within _ _).apart, hhead, htail]

theorem publishPlannedCommitments_eq_ok (hpositioned : Positioned chain maxBlock store)
    (hplanned : PlansCommitments (catalogCommitments chain maxBlock store) planned)
    (hok : publishPlannedCommitments publisher chain scope maxBlock store state planned = .ok
      next) :
    ∃ descriptor, descriptor.range.start = planned.range.start
      ∧ descriptor.range.end = planned.range.end
      ∧ CommitmentChunkOf publisher scope
        (window chain maxBlock store planned.range.start planned.range.end) descriptor
      ∧ next = ⟨planned.range.end + 1, state.chunks ++ [descriptor]⟩ := by
  obtain ⟨chunkRows, hread, hok⟩ := bind_eq_ok.mp hok
  obtain ⟨hrangeFits, rfl⟩ := hpositioned.rows_eq_ok.mp (mapError_eq_ok.mp hread)
  obtain ⟨published, hprepared, hok⟩ := bind_eq_ok.mp hok
  have hprepared := mapError_eq_ok.mp hprepared
  obtain ⟨hencoded, -, hcid⟩ := prepareCommitmentChunk_eq_ok hprepared
  obtain ⟨hrange, hencode⟩ := encodeCommitmentChunk_eq_ok hencoded
  have hrange := Except.ok.inj (hrange.symm.trans (hplanned.range_eq hpositioned))
  obtain ⟨descriptor, hpinned, hok⟩ := bind_eq_ok.mp hok
  obtain ⟨hset, hblank, hcidOk⟩ := reuseOrPinChunk_eq_ok hcid hpinned
  cases hok
  obtain ⟨last, hlast, hend⟩ := hplanned.last
  have hbound := hpositioned.lt_i64Bound hlast
  have hfits : i64Bound < u64Bound := by decide
  have hstart : descriptor.range.start = planned.range.start := by rw [hset, hrange]
  have hstop : descriptor.range.end = planned.range.end := by rw [hset, hrange]
  refine ⟨descriptor, hstart, hstop, ⟨published.compressedBytes, _, ?_, ?_, hencode, ?_⟩, ?_⟩
  · rw [hblank]
    exact hprepared
  · rw [hblank]
    exact hcidOk
  · exact reads_storedCommitments
      (hpositioned.fitsCommitments (hrangeFits.through _ rfl) List.filter_sublist)
  · rw [hstop, Nat.min_eq_left (by omega)]

/-- The chunks are of the commitments below a position: in order, and none is left out. -/
structure CommitmentsBelow (publisher : Publisher) (scope : ContractKey)
    (rows : List StoredCommitmentRow) (stop : Nat) (chunks : List IndexedArtifactDescriptor) : Prop where
  inOrder : InOrder (fun chunk : IndexedArtifactDescriptor => chunk.range.start)
    (fun chunk => chunk.range.end) chunks
  below : ∀ chunk ∈ chunks, chunk.range.end < stop
  holds : ∀ row ∈ rows, row.globalPosition < stop →
    Holds (fun chunk : IndexedArtifactDescriptor => chunk.range.start) (fun chunk => chunk.range.end)
      chunks row.globalPosition
  encodes : ∀ chunk ∈ chunks, CommitmentChunkOf publisher scope
    (within globalPosition rows chunk.range.start chunk.range.end) chunk

theorem CommitmentsBelow.add {rows : List StoredCommitmentRow} {stop : Nat}
    {chunks : List IndexedArtifactDescriptor} {chunk : IndexedArtifactDescriptor}
    (hbelow : CommitmentsBelow publisher scope rows stop chunks) (hstart : stop ≤ chunk.range.start)
    (hordered : chunk.range.start ≤ chunk.range.end)
    (hnext : ∀ row ∈ rows, stop ≤ row.globalPosition → row.globalPosition ≤ chunk.range.end →
      chunk.range.start ≤ row.globalPosition)
    (hencodes : CommitmentChunkOf publisher scope
      (within globalPosition rows chunk.range.start chunk.range.end) chunk) :
    CommitmentsBelow publisher scope rows (chunk.range.end + 1) (chunks ++ [chunk]) := by
  refine ⟨inOrder_append.mpr ⟨hbelow.inOrder, ?_, ?_⟩, ?_, ?_, ?_⟩
  · exact inOrder_cons.mpr ⟨hordered, fun _ hmem => absurd hmem List.not_mem_nil, inOrder_nil⟩
  · intro earlier hearlier later hlater
    obtain rfl := List.mem_singleton.mp hlater
    exact lt_of_lt_of_le (hbelow.below earlier hearlier) hstart
  · rw [List.forall_mem_append, List.forall_mem_singleton]
    refine ⟨fun earlier hearlier => ?_, Nat.lt_succ_self _⟩
    have hlt := hbelow.below earlier hearlier
    omega
  · intro row hrow hlt
    by_cases hbefore : row.globalPosition < stop
    · obtain ⟨earlier, hearlier, hbounds⟩ := hbelow.holds row hrow hbefore
      exact ⟨earlier, List.mem_append_left _ hearlier, hbounds⟩
    · have hle := Nat.le_of_lt_succ hlt
      exact ⟨chunk, List.mem_append_right _ List.mem_cons_self,
        hnext row hrow (Nat.le_of_not_lt hbefore) hle, hle⟩
  · rw [List.forall_mem_append, List.forall_mem_singleton]
    exact ⟨hbelow.encodes, hencodes⟩

abbrev PlannedInOrder (planned : List PlannedChunk) : Prop :=
  InOrder (fun chunk : PlannedChunk => chunk.range.start) (fun chunk => chunk.range.end) planned

abbrev PlannedHolds (planned : List PlannedChunk) (position : Nat) : Prop :=
  Holds (fun chunk : PlannedChunk => chunk.range.start) (fun chunk => chunk.range.end) planned position

/-- The planned chunks of a window are in order, each goes from one commitment to another, and they hold
every commitment of the window. -/
structure PlanOf (chain : ChainIndexedChainConfig) (maxBlock : Nat) (store : Store) (a b : Nat)
    (planned : List PlannedChunk) : Prop where
  inOrder : PlannedInOrder planned
  plans : ∀ chunk ∈ planned, PlansCommitments (catalogCommitments chain maxBlock store) chunk
    ∧ a ≤ chunk.range.start ∧ chunk.range.end ≤ b
  holds : ∀ row ∈ catalogCommitments chain maxBlock store, a ≤ row.globalPosition →
    row.globalPosition ≤ b → PlannedHolds planned row.globalPosition

theorem PlanOf.tail {chunk : PlannedChunk} {planned : List PlannedChunk} {a b : Nat}
    (hplan : PlanOf chain maxBlock store a b (chunk :: planned)) :
    PlanOf chain maxBlock store (chunk.range.end + 1) b planned := by
  obtain ⟨hinOrder, hplans, hholds⟩ := hplan
  obtain ⟨hordered, hbefore, hrest⟩ := inOrder_cons.mp hinOrder
  obtain ⟨⟨-, hstart, -⟩, hlater⟩ := List.forall_mem_cons.mp hplans
  refine ⟨hrest, ?_, ?_⟩
  · intro other hother
    exact ⟨(hlater other hother).1, hbefore other hother, (hlater other hother).2.2⟩
  · intro row hrow hlow hhigh
    obtain ⟨holder, hholder, hfirst, hlast⟩ := hholds row hrow (by omega) hhigh
    dsimp only at hlast
    rcases List.mem_cons.mp hholder with rfl | hholder
    · omega
    · exact ⟨holder, hholder, hfirst, hlast⟩

theorem foldlM_publishPlannedCommitments (hpositioned : Positioned chain maxBlock store)
    {planned : List PlannedChunk} {last : Nat}
    (hplan : PlanOf chain maxBlock store state.startPosition last planned)
    (hbelow : CommitmentsBelow publisher scope (catalogCommitments chain maxBlock store)
      state.startPosition state.chunks)
    (hok : planned.foldlM (publishPlannedCommitments publisher chain scope maxBlock store) state =
      .ok next) :
    CommitmentsBelow publisher scope (catalogCommitments chain maxBlock store) next.startPosition
        next.chunks
      ∧ state.startPosition ≤ next.startPosition
      ∧ (planned ≠ [] → state.startPosition < next.startPosition) := by
  induction planned generalizing state with
  | nil =>
      cases hok
      exact ⟨hbelow, le_rfl, fun hne => absurd rfl hne⟩
  | cons chunk planned ih =>
      obtain ⟨middle, hstep, hok⟩ := bind_eq_ok.mp hok
      obtain ⟨hplans, hstart, hend⟩ := hplan.plans chunk List.mem_cons_self
      obtain ⟨hordered, hbefore, -⟩ := inOrder_cons.mp hplan.inOrder
      obtain ⟨descriptor, hdescriptorStart, hdescriptorEnd, hencodes, rfl⟩ :=
        publishPlannedCommitments_eq_ok hpositioned hplans hstep
      rw [← hdescriptorStart, ← hdescriptorEnd] at hencodes
      have hnext : ∀ row ∈ catalogCommitments chain maxBlock store,
          state.startPosition ≤ row.globalPosition → row.globalPosition ≤ descriptor.range.end →
            descriptor.range.start ≤ row.globalPosition := by
        intro row hrow hlow hhigh
        obtain ⟨holder, hholder, hfirst, -⟩ := hplan.holds row hrow hlow (by omega)
        dsimp only at hfirst
        rcases List.mem_cons.mp hholder with rfl | hholder
        · omega
        · have hapart := hbefore holder hholder
          omega
      have hadded := hbelow.add (by omega) (by omega) hnext hencodes
      rw [hdescriptorEnd] at hadded
      obtain ⟨hdone, hle, -⟩ := ih hplan.tail hadded hok
      dsimp only at hle
      exact ⟨hdone, by omega, fun _ => by omega⟩

end Planned

/-! ### The plan of a window -/

section Window

variable {publisher : Publisher} {chain : ChainIndexedChainConfig} {scope : ContractKey}
  {maxBlock : Nat} {store : Store} {items : List ChunkPlanItem} {planned : List PlannedChunk}

def windowUnits (chain : ChainIndexedChainConfig) (maxBlock : Nat) (store : Store) (a b : Nat) :
    List (List StoredCommitmentRow) :=
  chunksOf commitmentPlanningRowUnit (window chain maxBlock store a b)

theorem flatten_windowUnits (a b : Nat) :
    (windowUnits chain maxBlock store a b).flatten = window chain maxBlock store a b :=
  flatten_chunksOf (by decide) _

theorem Positioned.units_inOrder (hpositioned : Positioned chain maxBlock store) (a b : Nat) :
    InOrder globalPosition globalPosition
      (windowUnits chain maxBlock store a b).flatten := by
  rw [flatten_windowUnits]
  exact hpositioned.inOrder.within a b

theorem commitmentPlanItems_joins {a b : Nat}
    (hitems : commitmentPlanItems publisher scope (window chain maxBlock store a b) = .ok items) :
    Joins globalPosition globalPosition
      (fun item : ChunkPlanItem => item.range.start) (fun item => item.range.end)
      (windowUnits chain maxBlock store a b) items := by
  apply (mapM_eq_ok_iff.mp hitems).imp
  intro unit item hitem
  obtain ⟨⟨range, compressedBytes⟩, hencoded, heq⟩ := bind_eq_ok.mp (mapError_eq_ok.mp hitem)
  cases heq
  exact commitmentRange_ends (encodeCommitmentChunk_eq_ok hencoded).1

theorem planCommitmentChunks_eq_ok (hok : planCommitmentChunks publisher items = .ok planned) :
    publisher.library.planChunks items = some planned := by
  rw [planCommitmentChunks] at hok
  split at hok
  · rename_i found hfound
    rw [hfound, Except.ok.inj hok]
  · cases hok

theorem GroupsItems.joins {library : ArtifactLibrary} (hplanner : GroupsItems library)
    (hplanned : library.planChunks items = some planned) :
    ∃ groups, groups.flatten = items
      ∧ Joins (fun item : ChunkPlanItem => item.range.start) (fun item => item.range.end)
        (fun chunk : PlannedChunk => chunk.range.start) (fun chunk => chunk.range.end)
        groups planned := by
  obtain ⟨groups, hgroups, hforall⟩ := hplanner _ _ hplanned
  refine ⟨groups, hgroups, hforall.imp ?_⟩
  rintro group chunk ⟨hne, hstart, hend, -⟩
  exact ⟨hne, hstart, hend⟩

theorem planOf_window (hpositioned : Positioned chain maxBlock store)
    (hplanner : GroupsItems publisher.library) {a b : Nat}
    (hitems : commitmentPlanItems publisher scope (window chain maxBlock store a b) = .ok items)
    (hplanned : planCommitmentChunks publisher items = .ok planned) :
    PlanOf chain maxBlock store a b planned := by
  have hjoins := commitmentPlanItems_joins hitems
  have hunits := hpositioned.units_inOrder a b
  have hitemsInOrder := hjoins.inOrder hunits
  obtain ⟨groups, hgroups, hgroupJoins⟩ := hplanner.joins (planCommitmentChunks_eq_ok hplanned)
  have hrow : ∀ row ∈ (windowUnits chain maxBlock store a b).flatten,
      row ∈ catalogCommitments chain maxBlock store
        ∧ a ≤ row.globalPosition ∧ row.globalPosition ≤ b := by
    intro row hmem
    rw [flatten_windowUnits] at hmem
    exact mem_within.mp hmem
  have hinOrder := hgroupJoins.inOrder (hgroups ▸ hitemsInOrder)
  refine ⟨hinOrder, ?_, ?_⟩
  · intro chunk hchunk
    obtain ⟨⟨first, hfirst, hstart⟩, last, hlast, hend⟩ := hgroupJoins.exists_ends hchunk
    rw [hgroups] at hfirst hlast
    obtain ⟨⟨firstRow, hfirstRow, hfirstStart⟩, -⟩ := hjoins.exists_ends hfirst
    obtain ⟨-, lastRow, hlastRow, hlastEnd⟩ := hjoins.exists_ends hlast
    obtain ⟨hfirstMem, hlow, -⟩ := hrow firstRow hfirstRow
    obtain ⟨hlastMem, -, hhigh⟩ := hrow lastRow hlastRow
    refine ⟨⟨⟨firstRow, hfirstMem, hstart.trans hfirstStart⟩,
      ⟨lastRow, hlastMem, hend.trans hlastEnd⟩, hinOrder.proper chunk hchunk⟩, ?_, ?_⟩
    · rw [hstart.trans hfirstStart]
      exact hlow
    · rw [hend.trans hlastEnd]
      exact hhigh
  · intro row hmem hlow hhigh
    apply hgroupJoins.holds (hgroups ▸ hitemsInOrder)
    rw [hgroups]
    apply hjoins.holds hunits
    rw [flatten_windowUnits]
    exact ⟨row, mem_within.mpr ⟨hmem, hlow, hhigh⟩, le_rfl, le_rfl⟩

end Window

/-! ### The highest position -/

section MaxPosition

variable {chain : ChainIndexedChainConfig} {maxBlock : Nat} {store : Store}
  {found start through : Option Nat} {summary : StoredCommitmentTreeSummary}
  {summaries : List StoredCommitmentTreeSummary}

def lastPosition (summary : StoredCommitmentTreeSummary) : Nat :=
  summary.treeNumber * treeLeafCount + (summary.leafCount - 1)

theorem maxPositionStep_eq_ok :
    maxPositionStep start summary = .ok found
      ↔ (summary.leafCount ≠ 0 ∧ lastPosition summary < u64Bound)
        ∧ found = some (max (start.getD (lastPosition summary)) (lastPosition summary)) := by
  have hstep : maxPositionStep start summary
      = if summary.leafCount = 0 then .error .treeSummaryHasZeroLeaves
        else if u64Bound ≤ lastPosition summary then .error .treeGlobalPositionOverflow
        else .ok (some (max (start.getD (lastPosition summary)) (lastPosition summary))) := rfl
  rw [hstep]
  split_ifs with hzero hover
  · exact iff_of_false (by simp) fun hboth => hboth.1.1 hzero
  · exact iff_of_false (by simp) fun hboth => absurd hboth.1.2 (Nat.not_lt.mpr hover)
  · rw [Except.ok.injEq, eq_comm]
    exact (and_iff_right ⟨hzero, Nat.lt_of_not_le hover⟩).symm

theorem foldlM_maxPositionStep (hok : summaries.foldlM maxPositionStep start = .ok found) :
    (∀ position ∈ start, ∃ last ∈ found, position ≤ last)
      ∧ (∀ summary ∈ summaries, ∃ last ∈ found, lastPosition summary ≤ last)
      ∧ ∀ last ∈ found, last ∈ start ∨ ∃ summary ∈ summaries, lastPosition summary = last := by
  induction summaries generalizing start with
  | nil =>
      cases hok
      exact ⟨fun position hposition => ⟨position, hposition, le_rfl⟩,
        fun _ hmem => absurd hmem List.not_mem_nil, fun _ hlast => .inl hlast⟩
  | cons summary summaries ih =>
      obtain ⟨middle, hstep, hok⟩ := bind_eq_ok.mp hok
      obtain ⟨-, rfl⟩ := maxPositionStep_eq_ok.mp hstep
      obtain ⟨hstart, hrest, hreached⟩ := ih hok
      obtain ⟨last, hlast, hle⟩ := hstart _ rfl
      refine ⟨?_, ?_, ?_⟩
      · rintro position hposition
        obtain rfl := hposition
        exact ⟨last, hlast, (Nat.le_max_left _ _).trans hle⟩
      · rw [List.forall_mem_cons]
        exact ⟨⟨last, hlast, (Nat.le_max_right _ _).trans hle⟩, hrest⟩
      · intro other hother
        rcases hreached other hother with hmiddle | ⟨reached, hmem, heq⟩
        · cases hmiddle
          cases start with
          | none => exact .inr ⟨summary, List.mem_cons_self, (Nat.max_self _).symm⟩
          | some position =>
              rcases Nat.le_total position (lastPosition summary) with hbelow | habove
              · exact .inr ⟨summary, List.mem_cons_self, (Nat.max_eq_right hbelow).symm⟩
              · exact .inl (congrArg some (Nat.max_eq_left habove).symm)
        · exact .inr ⟨reached, List.mem_cons_of_mem _ hmem, heq⟩

theorem exists_foldlM_maxPositionStep
    (hfits : ∀ summary ∈ summaries, summary.leafCount ≠ 0 ∧ lastPosition summary < i64Bound)
    (start : Option Nat) : ∃ found, summaries.foldlM maxPositionStep start = .ok found := by
  have hbound : i64Bound < u64Bound := by decide
  apply exists_foldlM_eq_ok
  intro state summary hsummary
  obtain ⟨hleaves, hlt⟩ := hfits summary hsummary
  exact ⟨_, maxPositionStep_eq_ok.mpr ⟨⟨hleaves, hlt.trans hbound⟩, rfl⟩⟩

theorem fits_of_commitmentTreeSummaries {key : ContractKey}
    (hok : commitmentTreeSummaries key through store = .ok summaries) :
    key.chainId < i64Bound ∧ ∀ bound ∈ through, bound < i64Bound := by
  obtain ⟨_, hchain, hok⟩ := bind_eq_ok.mp hok
  obtain ⟨_, hthrough, -⟩ := bind_eq_ok.mp hok
  exact ⟨(u64ToI64_eq_ok.mp hchain).1, (mapM_u64ToI64_eq_ok.mp hthrough).1⟩

theorem summariesOf_of_eq_ok {key : ContractKey} (hfits : CommitmentsFit (store.indexed key))
    (hok : commitmentTreeSummaries key through store = .ok summaries) :
    SummariesOf (store.indexed key) through summaries := by
  obtain ⟨hchain, hthrough⟩ := fits_of_commitmentTreeSummaries hok
  obtain ⟨found, hfound, hsummaries⟩ := exists_commitmentTreeSummaries hfits hchain hthrough
  cases hfound.symm.trans hok
  exact hsummaries

theorem mem_catalogCommitments {row : StoredCommitmentRow} :
    row ∈ catalogCommitments chain maxBlock store
      ↔ ∃ commitment ∈ allCommitments (some maxBlock) (store.indexed chain.key),
        storedRow commitment = row := by
  rw [catalogCommitments, commitmentsInOrder, List.mem_map]
  simp only [(sortByKey_perm _ _).mem_iff]

theorem lastPosition_lt (hpositioned : Positioned chain maxBlock store)
    (hsummary : SummaryOf (store.indexed chain.key) (some maxBlock) summary) :
    summary.leafCount ≠ 0 ∧ lastPosition summary < i64Bound := by
  obtain ⟨treePosition, family, hash, ⟨_, hfound, -⟩, hcount⟩ := hsummary.reached
  have hbound := (hpositioned.fits _ _ _ _ hfound).2
  refine ⟨by omega, ?_⟩
  rw [lastPosition, ← hcount]
  exact hbound

theorem commitmentMaxPosition_eq_ok (hpositioned : Positioned chain maxBlock store)
    (hok : commitmentMaxPosition chain maxBlock store = .ok found) :
    (∀ row ∈ catalogCommitments chain maxBlock store, ∃ last ∈ found, row.globalPosition ≤ last)
      ∧ ∀ last ∈ found, last < i64Bound := by
  obtain ⟨summaries, hread, hok⟩ := bind_eq_ok.mp hok
  have hsummaries := summariesOf_of_eq_ok hpositioned.fits (mapError_eq_ok.mp hread)
  obtain ⟨-, hall, hreached⟩ := foldlM_maxPositionStep hok
  constructor
  · intro row hrow
    obtain ⟨commitment, hcommitment, rfl⟩ := mem_catalogCommitments.mp hrow
    have hcommits := hasCommitment_of_mem hcommitment rfl
    obtain ⟨summary, hsummary, htree⟩ := (hsummaries.trees _).mpr ⟨_, _, _, hcommits⟩
    rw [← htree] at hcommits
    have hbelow := (hsummaries.counts summary hsummary).below _ _ _ hcommits
    obtain ⟨last, hlast, hle⟩ := hall summary hsummary
    refine ⟨last, hlast, le_trans ?_ hle⟩
    change commitment.treeNumber * treeLeafCount + commitment.treePosition ≤ _
    rw [lastPosition, htree]
    omega
  · intro last hlast
    rcases hreached last hlast with hnone | ⟨summary, hsummary, rfl⟩
    · cases hnone
    · exact (lastPosition_lt hpositioned (hsummaries.counts summary hsummary)).2

end MaxPosition

/-! ### One turn -/

section Turn

variable {publisher : Publisher} {config : ChainIndexedDatasetConfig}
  {chain : ChainIndexedChainConfig} {scope : ContractKey} {maxBlock : Nat} {store : Store}
  {maxPosition : Nat} {state : CommitmentCatalogState}

theorem CommitmentsBelow.skip {rows : List StoredCommitmentRow} {stop next : Nat}
    {chunks : List IndexedArtifactDescriptor}
    (hbelow : CommitmentsBelow publisher scope rows stop chunks) (hle : stop ≤ next)
    (hnone : ∀ row ∈ rows, stop ≤ row.globalPosition → next ≤ row.globalPosition) :
    CommitmentsBelow publisher scope rows next chunks := by
  refine ⟨hbelow.inOrder, ?_, ?_, hbelow.encodes⟩
  · intro chunk hchunk
    exact lt_of_lt_of_le (hbelow.below chunk hchunk) hle
  · intro row hrow hlt
    apply hbelow.holds row hrow
    by_contra hnot
    have hpast := hnone row hrow (Nat.le_of_not_lt hnot)
    omega

theorem le_commitmentWindowEnd (hle : state.startPosition ≤ maxPosition) (hmax : maxPosition < i64Bound) :
    state.startPosition ≤ commitmentWindowEnd config state.startPosition maxPosition
      ∧ commitmentWindowEnd config state.startPosition maxPosition < i64Bound
      ∧ commitmentWindowEnd config state.startPosition maxPosition ≤ maxPosition := by
  have hbound : i64Bound < u64Bound := by decide
  rw [commitmentWindowEnd]
  omega

theorem commitmentTurn_eq_ok (hpositioned : Positioned chain maxBlock store)
    (hplanner : GroupsItems publisher.library) (hmax : maxPosition < i64Bound)
    (hbelow : CommitmentsBelow publisher scope (catalogCommitments chain maxBlock store)
      state.startPosition state.chunks)
    {turn : Loop.Turn CommitmentCatalogState (List IndexedArtifactDescriptor)}
    (hok : commitmentTurn publisher config chain scope maxBlock store maxPosition state = .ok turn) :
    (turn = .done state.chunks ∧ maxPosition < state.startPosition)
      ∨ ∃ next, turn = .again next ∧ state.startPosition < next.startPosition
        ∧ state.startPosition ≤ maxPosition
        ∧ CommitmentsBelow publisher scope (catalogCommitments chain maxBlock store)
          next.startPosition next.chunks := by
  rw [commitmentTurn] at hok
  split_ifs at hok with hpast
  · exact .inl ⟨(Except.ok.inj hok).symm, hpast⟩
  · have hle := Nat.le_of_not_lt hpast
    obtain ⟨hstart, hend, -⟩ := @le_commitmentWindowEnd config _ _ hle hmax
    set last := commitmentWindowEnd config state.startPosition maxPosition with hlast
    obtain ⟨rows, hread, hok⟩ := bind_eq_ok.mp hok
    obtain ⟨-, rfl⟩ := hpositioned.rows_eq_ok.mp (mapError_eq_ok.mp hread)
    right
    by_cases hempty : (window chain maxBlock store state.startPosition last).isEmpty = true
    · rw [if_pos hempty] at hok
      cases hok
      have hbound : i64Bound < u64Bound := by decide
      have hnext : min (last + 1) (u64Bound - 1) = last + 1 := by omega
      refine ⟨_, rfl, ?_, hle, ?_⟩
      · dsimp only
        omega
      · dsimp only
        rw [hnext]
        apply hbelow.skip (by omega)
        intro row hrow hlow
        by_contra hnot
        have hmem : row ∈ window chain maxBlock store state.startPosition last :=
          mem_within.mpr ⟨hrow, hlow, Nat.le_of_lt_succ (Nat.lt_of_not_le hnot)⟩
        rw [List.isEmpty_iff.mp hempty] at hmem
        cases hmem
    · rw [if_neg hempty] at hok
      obtain ⟨items, hitems, hok⟩ := bind_eq_ok.mp hok
      obtain ⟨planned, hplanned, hok⟩ := bind_eq_ok.mp hok
      obtain ⟨next, hnext, hok⟩ := bind_eq_ok.mp hok
      cases hok
      have hplan := planOf_window hpositioned hplanner hitems hplanned
      have hne : planned ≠ [] := by
        obtain ⟨row, hrow⟩ := List.exists_mem_of_ne_nil _ fun hnil => hempty (List.isEmpty_iff.mpr hnil)
        obtain ⟨hrow, hlow, hhigh⟩ := mem_within.mp hrow
        obtain ⟨holder, hholder, -⟩ := hplan.holds row hrow hlow hhigh
        exact List.ne_nil_of_mem hholder
      obtain ⟨hdone, -, hlt⟩ := foldlM_publishPlannedCommitments hpositioned hplan hbelow hnext
      exact ⟨next, rfl, hlt hne, hle, hdone⟩

/-- Nothing stops the publication: the chain and the block fit their columns, the commitments of every
window encode within the size limit, the planner plans items in order within the limit, and pins
succeed. -/
structure CommitmentsPublishable (publisher : Publisher) (chain : ChainIndexedChainConfig)
    (scope : ContractKey) (maxBlock : Nat) (store : Store) : Prop where
  chainId : chain.key.chainId < i64Bound
  block : maxBlock < i64Bound
  encodes : ∀ a b range, commitmentRange (window chain maxBlock store a b) = .ok range →
    ∃ compressedBytes, encodeCommitmentEnvelope publisher.library scope range
        (window chain maxBlock store a b).length
        (encodeCommitmentRecords (window chain maxBlock store a b)) .zstd = .ok compressedBytes
      ∧ compressedBytes.length ≤ publisher.library.maxCompressedChunkBytes
  plans : ∀ items : List ChunkPlanItem, items ≠ [] →
    InOrder (fun item : ChunkPlanItem => item.range.start) (fun item => item.range.end) items →
    (∀ item ∈ items, item.compressedByteSize ≤ publisher.library.maxCompressedChunkBytes) →
      ∃ planned, publisher.library.planChunks items = some planned
  pins : ∀ descriptor compressedBytes,
    ∃ cid, publisher.reuseOrPinIndexedArtifact descriptor compressedBytes = .ok cid

theorem CommitmentsPublishable.through
    (hpublishable : CommitmentsPublishable publisher chain scope maxBlock store) :
    ∀ bound ∈ some maxBlock, bound < i64Bound := by
  intro bound hbound
  cases hbound
  exact hpublishable.block

section

variable (hpositioned : Positioned chain maxBlock store)

include hpositioned

theorem exists_prepareCommitmentChunk
    (hpublishable : CommitmentsPublishable publisher chain scope maxBlock store) {a b : Nat}
    (hne : window chain maxBlock store a b ≠ []) :
    ∃ published, prepareCommitmentChunk publisher.library scope (window chain maxBlock store a b) .zstd
      = .ok published := by
  have hincreasing := (hpositioned.inOrder.within a b).apart
  have hrange := commitmentRange_of_increasing hne hincreasing
  obtain ⟨compressedBytes, hencoded, hsize⟩ := hpublishable.encodes a b _ hrange
  have hchunk : encodeCommitmentChunk publisher.library scope (window chain maxBlock store a b) .zstd
      = .ok (_, compressedBytes) :=
    bind_eq_ok.mpr ⟨_, hrange, bind_eq_ok.mpr ⟨_, hencoded, rfl⟩⟩
  rw [prepareCommitmentChunk, hchunk, ok_bind]
  simp only [if_neg (Nat.not_lt.mpr hsize)]
  exact ⟨_, rfl⟩

theorem unit_eq_window {a b : Nat}
    {unit : List StoredCommitmentRow} (hunit : unit ∈ windowUnits chain maxBlock store a b) :
    ∃ first last, unit = window chain maxBlock store first last := by
  have hne : unit ≠ [] := ne_nil_of_mem_chunksOf (by decide) hunit
  have hinOrder := hpositioned.units_inOrder a b
  have hmem : ∀ row ∈ unit, a ≤ row.globalPosition ∧ row.globalPosition ≤ b := by
    intro row hrow
    have hrow := List.mem_flatten.mpr ⟨unit, hunit, hrow⟩
    rw [flatten_windowUnits] at hrow
    exact (mem_within.mp hrow).2
  refine ⟨(unit.head hne).globalPosition, (unit.getLast hne).globalPosition, ?_⟩
  have hinside : within globalPosition (window chain maxBlock store a b)
      (unit.head hne).globalPosition (unit.getLast hne).globalPosition = unit := by
    rw [← flatten_windowUnits]
    obtain ⟨before, after, hsplit⟩ := List.append_of_mem hunit
    rw [hsplit, List.flatten_append, List.flatten_cons] at hinOrder ⊢
    exact hinOrder.within_part hne
  rw [window, within_within (hmem _ (List.head_mem hne)).1 (hmem _ (List.getLast_mem hne)).2]
    at hinside
  exact hinside.symm

theorem exists_commitmentPlanItems
    (hpublishable : CommitmentsPublishable publisher chain scope maxBlock store) (a b : Nat) :
    ∃ items, commitmentPlanItems publisher scope (window chain maxBlock store a b) = .ok items
      ∧ ∀ item ∈ items, item.compressedByteSize ≤ publisher.library.maxCompressedChunkBytes := by
  apply exists_mapM_forall
  intro unit hunit
  have hne : unit ≠ [] := ne_nil_of_mem_chunksOf (by decide) hunit
  obtain ⟨first, last, rfl⟩ := unit_eq_window hpositioned hunit
  obtain ⟨published, hprepared⟩ := exists_prepareCommitmentChunk hpositioned hpublishable hne
  obtain ⟨hencoded, hsize, -⟩ := prepareCommitmentChunk_eq_ok hprepared
  exact ⟨_, mapError_eq_ok.mpr (bind_eq_ok.mpr ⟨_, hencoded, rfl⟩), hsize⟩

theorem exists_publishPlannedCommitments
    (hpublishable : CommitmentsPublishable publisher chain scope maxBlock store)
    {planned : PlannedChunk}
    (hplanned : PlansCommitments (catalogCommitments chain maxBlock store) planned) :
    ∃ next, publishPlannedCommitments publisher chain scope maxBlock store state planned
      = .ok next := by
  obtain ⟨first, hfirst, hstart⟩ := hplanned.first
  obtain ⟨last, hlast, hend⟩ := hplanned.last
  have hfirstFits := hpositioned.lt_i64Bound hfirst
  have hlastFits := hpositioned.lt_i64Bound hlast
  have hordered := hplanned.ordered
  have hread := hpositioned.rows_eq_ok.mpr ⟨⟨hpublishable.chainId, hstart ▸ hfirstFits,
    hend ▸ hlastFits, hpublishable.through⟩, rfl⟩
  have hmem : first ∈ window chain maxBlock store planned.range.start planned.range.end :=
    mem_within.mpr ⟨hfirst, hstart.le, by omega⟩
  obtain ⟨published, hprepared⟩ :=
    exists_prepareCommitmentChunk hpositioned hpublishable (List.ne_nil_of_mem hmem)
  obtain ⟨cid, hcid⟩ := hpublishable.pins published.descriptor published.compressedBytes
  have hpinned : reuseOrPinChunk publisher published.descriptor published.compressedBytes
      = .ok { published.descriptor with cid } := bind_eq_ok.mpr ⟨cid, hcid, rfl⟩
  exact ⟨⟨min (published.descriptor.range.end + 1) (u64Bound - 1), _⟩,
    bind_eq_ok.mpr ⟨_, mapError_eq_ok.mpr hread, bind_eq_ok.mpr ⟨_, mapError_eq_ok.mpr hprepared,
      bind_eq_ok.mpr ⟨_, hpinned, rfl⟩⟩⟩⟩

theorem exists_commitmentTurn (hplanner : GroupsItems publisher.library)
    (hpublishable : CommitmentsPublishable publisher chain scope maxBlock store)
    (hmax : maxPosition < i64Bound) :
    ∃ turn, commitmentTurn publisher config chain scope maxBlock store maxPosition state = .ok turn := by
  rw [commitmentTurn]
  split_ifs with hpast
  · exact ⟨_, rfl⟩
  · obtain ⟨hstart, hend, -⟩ := @le_commitmentWindowEnd config _ _ (Nat.le_of_not_lt hpast) hmax
    set last := commitmentWindowEnd config state.startPosition maxPosition with hlast
    have hread : commitmentRows chain.key state.startPosition last (some maxBlock) store
        = .ok (window chain maxBlock store state.startPosition last) :=
      hpositioned.rows_eq_ok.mpr ⟨⟨hpublishable.chainId, by omega, hend, hpublishable.through⟩, rfl⟩
    by_cases hempty : (window chain maxBlock store state.startPosition last).isEmpty = true
    · refine ⟨.again { state with startPosition := min (last + 1) (u64Bound - 1) },
        bind_eq_ok.mpr ⟨_, mapError_eq_ok.mpr hread, ?_⟩⟩
      rw [if_pos hempty]
      rfl
    · obtain ⟨items, hitems, hsizes⟩ :=
        exists_commitmentPlanItems hpositioned hpublishable state.startPosition last
      have hjoins := commitmentPlanItems_joins hitems
      have hitemsNe : items ≠ [] := by
        rintro rfl
        obtain ⟨row, hrow⟩ := List.exists_mem_of_ne_nil _ fun hnil => hempty (List.isEmpty_iff.mpr hnil)
        obtain ⟨_, hholder, -⟩ := hjoins.holds (hpositioned.units_inOrder _ _) ⟨row, by
          rw [flatten_windowUnits]
          exact hrow, le_rfl, le_rfl⟩
        cases hholder
      obtain ⟨planned, hplanned⟩ := hpublishable.plans items hitemsNe
        (hjoins.inOrder (hpositioned.units_inOrder _ _)) hsizes
      have hplan : planCommitmentChunks publisher items = .ok planned := by
        rw [planCommitmentChunks, hplanned]
      have hplanOf := planOf_window hpositioned hplanner hitems hplan
      obtain ⟨next, hnext⟩ := exists_foldlM_eq_ok (fun _ chunk hchunk =>
        exists_publishPlannedCommitments hpositioned hpublishable (hplanOf.plans chunk hchunk).1) state
      refine ⟨.again next, bind_eq_ok.mpr ⟨_, mapError_eq_ok.mpr hread, ?_⟩⟩
      rw [if_neg hempty]
      exact bind_eq_ok.mpr ⟨_, hitems, bind_eq_ok.mpr ⟨_, hplan, bind_eq_ok.mpr ⟨_, hnext, rfl⟩⟩⟩

end

end Turn

/-! ### The whole catalog -/

section Catalog

variable {publisher : Publisher} {config : ChainIndexedDatasetConfig}
  {chain : ChainIndexedChainConfig} {scope : ContractKey} {maxBlock : Nat} {store : Store}

theorem exists_commitmentMaxPosition (hpositioned : Positioned chain maxBlock store)
    (hpublishable : CommitmentsPublishable publisher chain scope maxBlock store) :
    ∃ found, commitmentMaxPosition chain maxBlock store = .ok found := by
  obtain ⟨summaries, hread, hsummaries⟩ := exists_commitmentTreeSummaries hpositioned.fits
    hpublishable.chainId hpublishable.through
  obtain ⟨found, hfound⟩ := exists_foldlM_maxPositionStep (fun summary hsummary =>
    lastPosition_lt hpositioned (hsummaries.counts summary hsummary)) none
  exact ⟨found, bind_eq_ok.mpr ⟨_, mapError_eq_ok.mpr hread, hfound⟩⟩

theorem commitmentsBelow_zero (publisher : Publisher) (scope : ContractKey)
    (rows : List StoredCommitmentRow) : CommitmentsBelow publisher scope rows 0 [] :=
  ⟨inOrder_nil, by simp, fun _ _ hlt => absurd hlt (Nat.not_lt_zero _), by simp⟩

theorem commitmentLoop_ends (hpositioned : Positioned chain maxBlock store)
    (hplanner : GroupsItems publisher.library) {maxPosition : Nat} (hmax : maxPosition < i64Bound)
    (state : CommitmentCatalogState)
    (hbelow : CommitmentsBelow publisher scope (catalogCommitments chain maxBlock store)
      state.startPosition state.chunks) :
    ∃ after outcome, Loop.Ends (commitmentTurn publisher config chain scope maxBlock store maxPosition)
        state after outcome
      ∧ (∀ chunks, outcome = .ok chunks → ∃ stop, maxPosition < stop
        ∧ CommitmentsBelow publisher scope (catalogCommitments chain maxBlock store) stop chunks)
      ∧ (CommitmentsPublishable publisher chain scope maxBlock store →
        ∃ chunks, outcome = .ok chunks) := by
  induction hleft : maxPosition + 1 - state.startPosition using Nat.strong_induction_on
    generalizing state with
  | _ left ih =>
      cases hturn : commitmentTurn publisher config chain scope maxBlock store maxPosition state with
      | error error =>
          refine ⟨state, .error error, (Loop.Returns.error hturn).ends_iff.mpr ⟨rfl, rfl⟩, ?_, ?_⟩
          · intro chunks herror
            cases herror
          · intro hpublishable
            obtain ⟨turn, hok⟩ := @exists_commitmentTurn publisher config chain scope maxBlock store
              maxPosition state hpositioned hplanner hpublishable hmax
            rw [hturn] at hok
            cases hok
      | ok turn =>
          rcases commitmentTurn_eq_ok hpositioned hplanner hmax hbelow hturn with
            ⟨rfl, hpast⟩ | ⟨next, rfl, hlt, hle, hnext⟩
          · refine ⟨state, _, (Loop.Returns.done hturn).ends_iff.mpr ⟨rfl, rfl⟩, ?_, fun _ => ⟨_, rfl⟩⟩
            intro chunks hchunks
            cases hchunks
            exact ⟨state.startPosition, hpast, hbelow⟩
          · obtain ⟨after, outcome, hends, hresult⟩ := ih (maxPosition + 1 - next.startPosition)
              (by omega) next hnext rfl
            exact ⟨after, outcome, (Loop.ends_of_again hturn).mpr hends, hresult⟩

/-- The chunks are published in order, and their rows are all the commitments. -/
structure PublishesCommitments (publisher : Publisher) (scope : ContractKey) (tables : IndexedTables)
    (through : Option Nat) (chunks : List IndexedArtifactDescriptor) : Prop where
  inOrder : InOrder (fun chunk : IndexedArtifactDescriptor => chunk.range.start)
    (fun chunk => chunk.range.end) chunks
  encodes : ∃ parts, List.Forall₂ (CommitmentChunkOf publisher scope) parts chunks
    ∧ CommitmentList tables through parts.flatten

theorem CommitmentsBelow.publishes (hpositioned : Positioned chain maxBlock store) {stop : Nat}
    {chunks : List IndexedArtifactDescriptor}
    (hbelow : CommitmentsBelow publisher scope (catalogCommitments chain maxBlock store) stop chunks)
    (hall : ∀ row ∈ catalogCommitments chain maxBlock store, row.globalPosition < stop) :
    PublishesCommitments publisher scope (store.indexed chain.key) (some maxBlock) chunks := by
  refine ⟨hbelow.inOrder, chunks.map fun chunk =>
    window chain maxBlock store chunk.range.start chunk.range.end, ?_, ?_⟩
  · rw [List.forall₂_map_left_iff, List.forall₂_same]
    exact hbelow.encodes
  · have hread := hbelow.inOrder.flatMap_within (hpositioned.inOrder.apart.imp le_of_lt)
      fun row hrow => hbelow.holds row hrow (hall row hrow)
    rw [← List.flatMap_def]
    simp only [window, hread]
    exact commitmentList_inOrder hpositioned.distinct

/-- **The catalog holds every commitment once.** The loop ends. The ranges of the chunks it returns are
apart and in order, and the rows of the chunks, one after the other, are all commitments through the
block in increasing global position. Nothing but a failing read, encoding, plan or pin keeps it from
returning chunks. -/
theorem commitmentCatalog_complete (hpositioned : Positioned chain maxBlock store)
    (hplanner : GroupsItems publisher.library) :
    ∃ fuel outcome,
      publishCommitmentChunks publisher config chain scope maxBlock store fuel = some outcome
      ∧ (∀ chunks, outcome = .ok chunks →
        PublishesCommitments publisher scope (store.indexed chain.key) (some maxBlock) chunks)
      ∧ (CommitmentsPublishable publisher chain scope maxBlock store →
        ∃ chunks, outcome = .ok chunks) := by
  cases hposition : commitmentMaxPosition chain maxBlock store with
  | error error =>
      refine ⟨0, .error error, ?_, ?_, ?_⟩
      · rw [publishCommitmentChunks, hposition]
      · intro chunks herror
        cases herror
      · intro hpublishable
        obtain ⟨found, hfound⟩ := exists_commitmentMaxPosition hpositioned hpublishable
        rw [hposition] at hfound
        cases hfound
  | ok found =>
      obtain ⟨hall, hfits⟩ := commitmentMaxPosition_eq_ok hpositioned hposition
      cases found with
      | none =>
          have hempty : ∀ row, row ∉ catalogCommitments chain maxBlock store := by
            intro row hrow
            obtain ⟨last, hlast, -⟩ := hall row hrow
            cases hlast
          refine ⟨0, .ok [], ?_, ?_, fun _ => ⟨[], rfl⟩⟩
          · rw [publishCommitmentChunks, hposition]
          · intro chunks hchunks
            cases hchunks
            exact (commitmentsBelow_zero publisher scope _).publishes hpositioned
              fun row hrow => absurd hrow (hempty row)
      | some maxPosition =>
          obtain ⟨after, outcome, ⟨fuel, hrun⟩, hok, hpublishable⟩ := commitmentLoop_ends hpositioned
            hplanner (hfits _ rfl) ⟨0, []⟩ (commitmentsBelow_zero publisher scope _)
          refine ⟨fuel, outcome, ?_, ?_, hpublishable⟩
          · rw [publishCommitmentChunks, hposition]
            exact congrArg (Option.map Prod.snd) hrun
          · intro chunks hchunks
            obtain ⟨stop, hstop, hbelow⟩ := hok chunks hchunks
            apply hbelow.publishes hpositioned
            intro row hrow
            obtain ⟨last, hlast, hle⟩ := hall row hrow
            cases hlast
            exact lt_of_le_of_lt hle hstop

end Catalog

/-! ### A small store -/

def sparseStore : Store where
  indexed _ := sparseTables

theorem positioned_sparseStore : Positioned smallChain 6 sparseStore where
  fits := inTrees_sparseTables.commitmentsFit
  distinct := by
    unfold PositionsDistinct
    decide +kernel

theorem commitmentsPublishable_sparse :
    CommitmentsPublishable toyPublisher smallChain ⟨1, 1⟩ 6 sparseStore where
  chainId := by decide
  block := by decide
  encodes _ _ _ _ := ⟨_, rfl, List.length_take_le _ _⟩
  plans items _ _ _ := ⟨_, rfl⟩
  pins _ _ := ⟨_, rfl⟩

theorem commitmentCatalog_complete_sparse : ∃ fuel chunks,
    publishCommitmentChunks toyPublisher smallConfig smallChain ⟨1, 1⟩ 6 sparseStore fuel
      = some (.ok chunks)
    ∧ PublishesCommitments toyPublisher ⟨1, 1⟩ sparseTables (some 6) chunks := by
  obtain ⟨fuel, outcome, hrun, hresult, hsuccess⟩ := @commitmentCatalog_complete toyPublisher
    smallConfig smallChain ⟨1, 1⟩ 6 sparseStore positioned_sparseStore groupsItems_toyLibrary
  obtain ⟨chunks, rfl⟩ := hsuccess commitmentsPublishable_sparse
  exact ⟨fuel, chunks, hrun, hresult chunks rfl⟩

end RailgunIndexer
