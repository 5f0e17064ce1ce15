import RailgunIndexer.Proof.CommitmentRows

/-!
# Checkpoints hold the stored commitments

A checkpoint reads the rows from the first place of its tree through the last leaf and writes each over a
layer of zero values. Positions of a tree are below its size, so the range of global positions has the
rows of that tree only. A row whose place is written already stops it, so it succeeds exactly when no two
tables have a commitment at one place.
-/

namespace RailgunIndexer

open Lib Lib.Fallible

/-! ### Placing rows -/

section Placement

variable {summary : StoredCommitmentTreeSummary} {rows : List StoredCommitmentRow}
  {row : StoredCommitmentRow} {placement after : LeafPlacement}

theorem placeCommitment_eq_ok :
    placeCommitment summary placement row = .ok after
      ↔ (row.treeNumber = summary.treeNumber ∧ row.treePosition < summary.leafCount)
        ∧ placement.seen.getD row.treePosition false = false
        ∧ after = ⟨placement.leaves.set row.treePosition row.commitmentHash,
          placement.seen.set row.treePosition true⟩ := by
  rw [placeCommitment]
  split_ifs with hrange hseen
  · refine iff_of_false (by simp) fun hboth => ?_
    rcases hrange with htree | hposition
    · exact htree hboth.1.1
    · exact absurd hboth.1.2 (Nat.not_lt.mpr hposition)
  · exact iff_of_false (by simp) fun hboth => absurd hseen (by rw [hboth.2.1]; decide)
  · rw [not_or, not_not, Nat.not_le] at hrange
    rw [Except.ok.injEq, eq_comm]
    exact (and_iff_right_of_imp fun _ => hrange).symm.trans
      (and_congr_right fun _ => (and_iff_right (Bool.eq_false_iff.mpr hseen)).symm)

structure LeafPlacement.Sized (placement : LeafPlacement) (leafCount : Nat) : Prop where
  leaves : placement.leaves.length = leafCount
  seen : placement.seen.length = leafCount

theorem LeafPlacement.Sized.place (hsized : placement.Sized summary.leafCount)
    (hok : placeCommitment summary placement row = .ok after) : after.Sized summary.leafCount := by
  obtain ⟨-, -, rfl⟩ := placeCommitment_eq_ok.mp hok
  exact ⟨List.length_set.trans hsized.leaves, List.length_set.trans hsized.seen⟩

theorem getD_set_seen {seen : List Bool} {position other : Nat} (hlt : position < seen.length) :
    (seen.set position true).getD other false = false
      ↔ position ≠ other ∧ seen.getD other false = false := by
  rw [List.getD_eq_getElem?_getD, List.getD_eq_getElem?_getD]
  by_cases heq : position = other
  · subst heq
    rw [List.getElem?_set_self hlt]
    simp
  · rw [List.getElem?_set_ne heq]
    exact (and_iff_right heq).symm

theorem exists_foldlM_placeCommitment (hsized : placement.Sized summary.leafCount) :
    (∃ after, rows.foldlM (placeCommitment summary) placement = .ok after)
      ↔ (∀ row ∈ rows, row.treeNumber = summary.treeNumber ∧ row.treePosition < summary.leafCount)
        ∧ rows.Pairwise (fun left right => left.treePosition ≠ right.treePosition)
        ∧ ∀ row ∈ rows, placement.seen.getD row.treePosition false = false := by
  induction rows generalizing placement with
  | nil => simp
  | cons row rest ih =>
      constructor
      · rintro ⟨after, hok⟩
        obtain ⟨middle, hplace, hok⟩ := bind_eq_ok.mp hok
        obtain ⟨hrange, hdistinct, hfree⟩ := (ih (hsized.place hplace)).mp ⟨after, hok⟩
        obtain ⟨hhere, hseen, rfl⟩ := placeCommitment_eq_ok.mp hplace
        have hlt : row.treePosition < placement.seen.length := hsized.seen ▸ hhere.2
        have hboth := fun other hmem => (getD_set_seen hlt).mp (hfree other hmem)
        refine ⟨List.forall_mem_cons.mpr ⟨hhere, hrange⟩, List.pairwise_cons.mpr ⟨?_, hdistinct⟩,
          List.forall_mem_cons.mpr ⟨hseen, ?_⟩⟩
        · exact fun other hmem => (hboth other hmem).1
        · exact fun other hmem => (hboth other hmem).2
      · rintro ⟨hrange, hdistinct, hfree⟩
        rw [List.forall_mem_cons] at hrange hfree
        rw [List.pairwise_cons] at hdistinct
        have hlt : row.treePosition < placement.seen.length := hsized.seen ▸ hrange.1.2
        have hplace := placeCommitment_eq_ok.mpr ⟨hrange.1, hfree.1, rfl⟩
        obtain ⟨after, hok⟩ := (ih (hsized.place hplace)).mpr ⟨hrange.2, hdistinct.2,
          fun other hmem => (getD_set_seen hlt).mpr ⟨hdistinct.1 other hmem, hfree.2 other hmem⟩⟩
        exact ⟨after, bind_eq_ok.mpr ⟨_, hplace, hok⟩⟩

theorem leaves_of_foldlM_placeCommitment (hsized : placement.Sized summary.leafCount)
    (hok : rows.foldlM (placeCommitment summary) placement = .ok after) :
    after.leaves.length = summary.leafCount
      ∧ (∀ row ∈ rows, after.leaves[row.treePosition]? = some row.commitmentHash)
      ∧ ∀ position, (∀ row ∈ rows, row.treePosition ≠ position) →
        after.leaves[position]? = placement.leaves[position]? := by
  induction rows generalizing placement with
  | nil =>
      cases hok
      exact ⟨hsized.leaves, fun _ hmem => absurd hmem List.not_mem_nil, fun _ _ => rfl⟩
  | cons row rest ih =>
      have hdistinct := ((exists_foldlM_placeCommitment hsized).mp ⟨after, hok⟩).2.1
      obtain ⟨middle, hplace, hok⟩ := bind_eq_ok.mp hok
      obtain ⟨hlength, hrest, hother⟩ := ih (hsized.place hplace) hok
      obtain ⟨hhere, -, rfl⟩ := placeCommitment_eq_ok.mp hplace
      rw [List.pairwise_cons] at hdistinct
      refine ⟨hlength, ?_, ?_⟩
      · rw [List.forall_mem_cons]
        refine ⟨?_, hrest⟩
        rw [hother row.treePosition fun other hmem => (hdistinct.1 other hmem).symm,
          List.getElem?_set_self (by rw [hsized.leaves]; exact hhere.2)]
      · intro position hnone
        rw [List.forall_mem_cons] at hnone
        rw [hother position hnone.2, List.getElem?_set_ne hnone.1]

end Placement

/-! ### Checkpoints -/

section Checkpoint

variable {library : TreeLibrary} {key : ContractKey} {through : Option Nat} {store : Store}
  {tables : IndexedTables} {summary : StoredCommitmentTreeSummary}

def InTrees (tables : IndexedTables) : Prop :=
  ∀ family treeNumber treePosition found,
    commitmentAt tables (toLex (treeNumber, treePosition)) family = some found →
      treeNumber < u32Bound ∧ treePosition < treeLeafCount

theorem InTrees.commitmentsFit (hplaces : InTrees tables) : CommitmentsFit tables := by
  intro family treeNumber treePosition found hfound
  obtain ⟨htree, hposition⟩ := hplaces family treeNumber treePosition found hfound
  refine ⟨htree, ?_⟩
  have hmul : treeNumber * treeLeafCount ≤ u32Bound * treeLeafCount :=
    Nat.mul_le_mul_right _ htree.le
  calc treeNumber * treeLeafCount + treePosition
      < u32Bound * treeLeafCount + treeLeafCount := Nat.add_lt_add_of_le_of_lt hmul hposition
    _ ≤ i64Bound := by decide

theorem InTrees.of_mem (hplaces : InTrees tables) {commitment : CommitmentColumns}
    (hmem : commitment ∈ allCommitments through tables) : commitment.treePosition < treeLeafCount :=
  (hplaces _ _ _ _ (mem_allCommitments.mp hmem).1).2

def OneFamily (tables : IndexedTables) (through : Option Nat) (treeNumber : Nat) : Prop :=
  ∀ treePosition left right hash other, HasCommitment tables through treeNumber treePosition left hash →
    HasCommitment tables through treeNumber treePosition right other → left = right

/-- The checkpoint has the stored hash at every place with a commitment and the zero value at the
others. -/
structure CheckpointOf (library : TreeLibrary) (tables : IndexedTables) (through : Option Nat)
    (summary : StoredCommitmentTreeSummary) (checkpoint : StoredCommitmentTreeCheckpoint) : Prop where
  treeNumber : checkpoint.treeNumber = summary.treeNumber
  leafCount : checkpoint.leafCount = summary.leafCount
  length : checkpoint.leaves.length = summary.leafCount
  stored : ∀ treePosition family hash,
    HasCommitment tables through summary.treeNumber treePosition family hash →
      checkpoint.leaves[treePosition]? = some hash
  empty : ∀ treePosition < summary.leafCount,
    (∀ family hash, ¬ HasCommitment tables through summary.treeNumber treePosition family hash) →
      checkpoint.leaves[treePosition]? = some library.merkleZeroValue

def treeRows (tables : IndexedTables) (through : Option Nat) (summary : StoredCommitmentTreeSummary) :
    List StoredCommitmentRow :=
  rowsIn through tables (summary.treeNumber * treeLeafCount + 0)
    (summary.treeNumber * treeLeafCount + (summary.leafCount - 1))

theorem mem_treeRows (hplaces : InTrees tables) (hsummary : SummaryOf tables through summary)
    {row : StoredCommitmentRow} :
    row ∈ treeRows tables through summary
      ↔ ∃ commitment ∈ allCommitments through tables,
        commitment.treeNumber = summary.treeNumber ∧ row = storedRow commitment := by
  have hleaves : treeLeafCount = 65536 := rfl
  obtain ⟨last, _, _, hlast, hcount⟩ := hsummary.reached
  obtain ⟨highest, hhighest, -, -, rfl, -⟩ := hasCommitment_iff.mp hlast
  have hsize := hplaces.of_mem hhighest
  rw [treeRows, mem_rowsIn]
  constructor
  · rintro ⟨commitment, hmem, hlow, hhigh, rfl⟩
    have hposition := hplaces.of_mem hmem
    rw [CommitmentColumns.globalPosition, hleaves] at hlow hhigh
    exact ⟨commitment, hmem, by omega, rfl⟩
  · rintro ⟨commitment, hmem, htree, rfl⟩
    have hbelow := hsummary.below _ _ _ (hasCommitment_of_mem hmem htree)
    refine ⟨commitment, hmem, ?_, ?_, rfl⟩
    · rw [CommitmentColumns.globalPosition, htree]
      omega
    · rw [CommitmentColumns.globalPosition, htree]
      omega

theorem storedRow_injective : Function.Injective storedRow := by
  rintro ⟨_, _, _, _, _⟩ ⟨_, _, _, _, _⟩ heq
  simp only [storedRow, StoredCommitmentRow.mk.injEq] at heq
  simp only [CommitmentColumns.mk.injEq]
  exact ⟨heq.2.2.1, heq.2.1, heq.2.2.2⟩

theorem nodup_rowsIn (a b : Nat) : (rowsIn through tables a b).Nodup :=
  ((sortByKey_perm _ _).nodup_iff.mpr (nodup_allCommitments.filter _)).map storedRow_injective

theorem pairwise_treeRows_iff (hplaces : InTrees tables) (hsummary : SummaryOf tables through summary) :
    (treeRows tables through summary).Pairwise
        (fun left right => left.treePosition ≠ right.treePosition)
      ↔ OneFamily tables through summary.treeNumber := by
  rw [← List.pairwise_map, ← List.nodup_iff_pairwise_ne]
  constructor
  · intro hnodup treePosition left right hash other hleft hright
    obtain ⟨first, hfirst, rfl, hfirstTree, rfl, -⟩ := hasCommitment_iff.mp hleft
    obtain ⟨second, hsecond, rfl, hsecondTree, hposition, -⟩ := hasCommitment_iff.mp hright
    have hrow := List.inj_on_of_nodup_map hnodup
      ((mem_treeRows hplaces hsummary).mpr ⟨first, hfirst, hfirstTree, rfl⟩)
      ((mem_treeRows hplaces hsummary).mpr ⟨second, hsecond, hsecondTree, rfl⟩) hposition.symm
    rw [storedRow_injective hrow]
  · intro hone
    apply (nodup_rowsIn _ _).map_on
    intro left hleft right hright hposition
    obtain ⟨first, hfirst, hfirstTree, rfl⟩ := (mem_treeRows hplaces hsummary).mp hleft
    obtain ⟨second, hsecond, hsecondTree, rfl⟩ := (mem_treeRows hplaces hsummary).mp hright
    have hsecondCommits := hasCommitment_of_mem hsecond hsecondTree
    have hfamily := hone _ _ _ _ _ (hasCommitment_of_mem hfirst hfirstTree) (by
      rw [show first.treePosition = second.treePosition from hposition]
      exact hsecondCommits)
    rw [eq_of_place hfirst hsecond hfamily (hfirstTree.trans hsecondTree.symm) hposition]

def emptyPlacement (library : TreeLibrary) (leafCount : Nat) : LeafPlacement :=
  ⟨List.replicate leafCount library.merkleZeroValue, List.replicate leafCount false⟩

theorem sized_emptyPlacement (leafCount : Nat) : (emptyPlacement library leafCount).Sized leafCount :=
  ⟨List.length_replicate, List.length_replicate⟩

theorem commitmentTreeCheckpoint_eq_ok {checkpoint : StoredCommitmentTreeCheckpoint}
    (hplaces : InTrees (store.indexed key)) (hchain : key.chainId < i64Bound)
    (hthrough : ∀ bound ∈ through, bound < i64Bound)
    (hsummary : SummaryOf (store.indexed key) through summary) :
    commitmentTreeCheckpoint library key summary through store = .ok checkpoint
      ↔ ∃ placement, (treeRows (store.indexed key) through summary).foldlM (placeCommitment summary)
          (emptyPlacement library summary.leafCount) = .ok placement
        ∧ checkpoint = ⟨summary.treeNumber, summary.leafCount, summary.lastIndexedBlock,
          placement.leaves⟩ := by
  obtain ⟨last, family, hash, hlast, hcount⟩ := hsummary.reached
  obtain ⟨_, hfound, -⟩ := hlast
  have hend := (hplaces.commitmentsFit _ _ _ _ hfound).2
  have hbound : i64Bound ≤ u64Bound := by decide
  rw [commitmentTreeCheckpoint, if_neg (by omega),
    storedGlobalTreePosition_eq_ok.mpr ⟨by omega, rfl⟩, ok_bind,
    storedGlobalTreePosition_eq_ok.mpr ⟨by omega, rfl⟩, ok_bind,
    (commitmentRows_eq_ok hplaces.commitmentsFit).mpr ⟨⟨hchain, by omega, by omega, hthrough⟩, rfl⟩,
    ok_bind, bind_eq_ok]
  simp only [pure_eq_ok, Except.ok.injEq]
  exact exists_congr fun placement => and_congr_right fun _ => eq_comm

end Checkpoint

/-- **Checkpoints hold the stored commitments.** The summaries are of the trees with a commitment, each
with its number of leaves. The checkpoint of a tree fails exactly when two tables have a commitment at
one place, and has otherwise the stored hash at every place with one and the zero value elsewhere. -/
theorem checkpoints_faithful (library : TreeLibrary) {key : ContractKey} {through : Option Nat}
    {store : Store} (hplaces : InTrees (store.indexed key)) (hchain : key.chainId < i64Bound)
    (hthrough : ∀ bound ∈ through, bound < i64Bound) :
    ∃ summaries, commitmentTreeSummaries key through store = .ok summaries
      ∧ SummariesOf (store.indexed key) through summaries
      ∧ ∀ summary ∈ summaries,
        ((∃ checkpoint, commitmentTreeCheckpoint library key summary through store = .ok checkpoint)
          ↔ OneFamily (store.indexed key) through summary.treeNumber)
        ∧ ∀ checkpoint, commitmentTreeCheckpoint library key summary through store = .ok checkpoint →
          CheckpointOf library (store.indexed key) through summary checkpoint := by
  obtain ⟨summaries, hok, hsummaries⟩ :=
    exists_commitmentTreeSummaries hplaces.commitmentsFit hchain hthrough
  refine ⟨summaries, hok, hsummaries, ?_⟩
  intro summary hmem
  have hsummary := hsummaries.counts summary hmem
  have hsized : (emptyPlacement library summary.leafCount).Sized summary.leafCount :=
    sized_emptyPlacement _
  have hplaced := @exists_foldlM_placeCommitment summary
    (treeRows (store.indexed key) through summary) _ hsized
  simp only [commitmentTreeCheckpoint_eq_ok hplaces hchain hthrough hsummary]
  constructor
  · rw [← pairwise_treeRows_iff hplaces hsummary]
    constructor
    · rintro ⟨_, placement, hfold, -⟩
      exact (hplaced.mp ⟨placement, hfold⟩).2.1
    · intro hdistinct
      have hrange : ∀ row ∈ treeRows (store.indexed key) through summary,
          row.treeNumber = summary.treeNumber ∧ row.treePosition < summary.leafCount := by
        intro row hrow
        obtain ⟨commitment, hcommitment, htree, rfl⟩ := (mem_treeRows hplaces hsummary).mp hrow
        exact ⟨htree, hsummary.below _ _ _ (hasCommitment_of_mem hcommitment htree)⟩
      have hfree : ∀ row ∈ treeRows (store.indexed key) through summary,
          (emptyPlacement library summary.leafCount).seen.getD row.treePosition false = false := by
        intro row hrow
        rw [emptyPlacement, List.getD_eq_getElem?_getD,
          List.getElem?_replicate_of_lt (hrange row hrow).2]
        rfl
      obtain ⟨placement, hfold⟩ := hplaced.mpr ⟨hrange, hdistinct, hfree⟩
      exact ⟨_, placement, hfold, rfl⟩
  · rintro checkpoint ⟨placement, hfold, rfl⟩
    obtain ⟨hlength, hstored, hother⟩ := leaves_of_foldlM_placeCommitment hsized hfold
    refine ⟨rfl, rfl, hlength, ?_, ?_⟩
    · intro treePosition family hash hcommits
      obtain ⟨commitment, hcommitment, -, htree, rfl, rfl⟩ := hasCommitment_iff.mp hcommits
      exact hstored _ ((mem_treeRows hplaces hsummary).mpr ⟨commitment, hcommitment, htree, rfl⟩)
    · intro treePosition hlt hnone
      rw [hother treePosition, emptyPlacement, List.getElem?_replicate_of_lt hlt]
      rintro row hrow rfl
      obtain ⟨commitment, hcommitment, htree, rfl⟩ := (mem_treeRows hplaces hsummary).mp hrow
      exact hnone _ _ (hasCommitment_of_mem hcommitment htree)

def committedRow (blockNumber : Nat) : IndexedRow TransactColumns :=
  ⟨⟨blockNumber, 0, 0, 0, 0⟩, ⟨7, none⟩⟩

def shieldedRow (blockNumber : Nat) : IndexedRow ShieldColumns :=
  ⟨⟨blockNumber, 0, 0, 0, 0⟩, ⟨8, [], []⟩⟩

/-- A transaction and a shield in one tree, with a gap between them, and a later block's commitment at
the shield's place. -/
def sparseTables : IndexedTables where
  transactCommitments := (OrdMap.empty.insert (toLex (0, 0)) (committedRow 5)).insert (toLex (0, 2))
    (committedRow 9)
  shieldCommitments := OrdMap.empty.insert (toLex (0, 2)) (shieldedRow 6)

theorem inTrees_sparseTables : InTrees sparseTables := by
  have hall : ∀ commitment ∈ allCommitments none sparseTables,
      commitment.treeNumber < u32Bound ∧ commitment.treePosition < treeLeafCount := by
    decide +kernel
  rintro family treeNumber treePosition ⟨block, hash⟩ hfound
  apply hall ⟨family, block, treeNumber, treePosition, hash⟩
  exact mem_allCommitments.mpr ⟨hfound, fun _ hnone => absurd hnone (Option.not_mem_none _)⟩

theorem checkpoints_faithful_sparse :
    let library : TreeLibrary := ⟨fun left _ => left, 0⟩
    let store : Store := { indexed := fun _ => sparseTables }
    commitmentTreeSummaries ⟨1, 1⟩ (some 6) store = .ok [⟨0, 3, 6⟩]
      ∧ SummariesOf sparseTables (some 6) [⟨0, 3, 6⟩]
      ∧ CheckpointOf library sparseTables (some 6) ⟨0, 3, 6⟩ ⟨0, 3, 6, [7, 0, 8]⟩ := by
  intro library store
  obtain ⟨summaries, hok, hsummaries, hall⟩ := @checkpoints_faithful library ⟨1, 1⟩ (some 6) store
    inTrees_sparseTables (by decide) (by rintro _ ⟨⟩; decide)
  have hrun : commitmentTreeSummaries ⟨1, 1⟩ (some 6) store = .ok [⟨0, 3, 6⟩] := by
    decide +kernel
  cases hok.symm.trans hrun
  refine ⟨hrun, hsummaries, (hall ⟨0, 3, 6⟩ List.mem_cons_self).2 _ ?_⟩
  decide +kernel

end RailgunIndexer
