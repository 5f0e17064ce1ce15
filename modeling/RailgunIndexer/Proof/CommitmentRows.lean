import RailgunIndexer.CommitmentRows
import RailgunIndexer.Proof.Store
import Mathlib.Data.List.Dedup

/-!
# What the commitment queries read

A place of the forest holds at most one commitment of each family. The union of the four tables lists
every commitment of a family at a place once, and a query that succeeds returns the ones in its range in
order.
-/

namespace RailgunIndexer

open Lib Lib.Fallible

def commitmentAt (tables : IndexedTables) (place : TreeKey) :
    StoredCommitmentFamily → Option (Nat × Bytes32)
  | .transact => (tables.transactCommitments.get? place).map fun row =>
      (row.source.blockNumber, row.columns.commitmentHash)
  | .shield => (tables.shieldCommitments.get? place).map fun row =>
      (row.source.blockNumber, row.columns.commitmentHash)
  | .legacyEncrypted => (tables.legacyEncryptedCommitments.get? place).map fun row =>
      (row.source.blockNumber, row.columns.commitmentHash)
  | .legacyGenerated => (tables.legacyGeneratedCommitments.get? place).map fun row =>
      (row.source.blockNumber, row.columns.commitmentHash)

def HasCommitment (tables : IndexedTables) (through : Option Nat) (treeNumber treePosition : Nat)
    (family : StoredCommitmentFamily) (hash : Bytes32) : Prop :=
  ∃ block, commitmentAt tables (toLex (treeNumber, treePosition)) family = some (block, hash)
    ∧ ∀ bound ∈ through, block ≤ bound

section Union

variable {tables : IndexedTables} {through : Option Nat} {commitment : CommitmentColumns}
  {family : StoredCommitmentFamily}

theorem mem_familyCommitments {π : Type} {hash : π → Bytes32}
    {table : OrdMap TreeKey (IndexedRow π)} :
    commitment ∈ familyCommitments family hash through table
      ↔ commitment.family = family
        ∧ (table.get? (toLex (commitment.treeNumber, commitment.treePosition))).map
          (fun row => (row.source.blockNumber, hash row.columns))
            = some (commitment.blockNumber, commitment.commitmentHash)
        ∧ ∀ bound ∈ through, commitment.blockNumber ≤ bound := by
  rw [familyCommitments, List.mem_map]
  constructor
  · rintro ⟨⟨place, row⟩, hentry, rfl⟩
    rw [List.mem_filter, ← OrdMap.get?_eq_some_iff] at hentry
    refine ⟨rfl, ?_, ?_⟩
    · change (table.get? place).map _ = _
      rw [hentry.1, Option.map_some]
    · intro bound hbound
      exact of_decide_eq_true ((Option.all_eq_true _ _).mp hentry.2 bound hbound)
  · obtain ⟨_, block, treeNumber, treePosition, found⟩ := commitment
    rintro ⟨rfl, hrow, hbound⟩
    obtain ⟨row, hget, hcolumns⟩ := Option.map_eq_some_iff.mp hrow
    cases hcolumns
    refine ⟨(toLex (treeNumber, treePosition), row), ?_, rfl⟩
    rw [List.mem_filter, ← OrdMap.get?_eq_some_iff]
    exact ⟨hget, (Option.all_eq_true _ _).mpr fun bound hmem => decide_eq_true (hbound bound hmem)⟩

theorem mem_allCommitments :
    commitment ∈ allCommitments through tables
      ↔ commitmentAt tables (toLex (commitment.treeNumber, commitment.treePosition))
          commitment.family = some (commitment.blockNumber, commitment.commitmentHash)
        ∧ ∀ bound ∈ through, commitment.blockNumber ≤ bound := by
  simp only [allCommitments, List.mem_append, mem_familyCommitments]
  cases hfamily : commitment.family <;> simp [commitmentAt]

theorem nodup_familyCommitments {π : Type} {hash : π → Bytes32}
    {table : OrdMap TreeKey (IndexedRow π)} :
    (familyCommitments family hash through table).Nodup := by
  rw [familyCommitments, List.nodup_iff_pairwise_ne, List.pairwise_map]
  apply (table.sorted.filter _).imp
  intro left right hlt heq
  apply ne_of_lt hlt
  have htree := congrArg CommitmentColumns.treeNumber heq
  have hposition := congrArg CommitmentColumns.treePosition heq
  exact ofLex.injective (Prod.ext htree hposition)

theorem nodup_allCommitments : (allCommitments through tables).Nodup := by
  refine List.nodup_append'.mpr ⟨List.nodup_append'.mpr ⟨List.nodup_append'.mpr
    ⟨nodup_familyCommitments, nodup_familyCommitments, ?_⟩, nodup_familyCommitments, ?_⟩,
    nodup_familyCommitments, ?_⟩
  all_goals
    intro commitment hleft hright
    simp only [List.mem_append, mem_familyCommitments] at hleft hright
    rw [hright.1] at hleft
    simp at hleft

theorem eq_of_place {left right : CommitmentColumns} (hleft : left ∈ allCommitments through tables)
    (hright : right ∈ allCommitments through tables) (hfamily : left.family = right.family)
    (htree : left.treeNumber = right.treeNumber) (hposition : left.treePosition = right.treePosition) :
    left = right := by
  have hrow := (mem_allCommitments.mp hleft).1
  rw [hfamily, htree, hposition, (mem_allCommitments.mp hright).1] at hrow
  obtain ⟨_, _, _, _, _⟩ := left
  obtain ⟨_, _, _, _, _⟩ := right
  simp_all

theorem hasCommitment_iff {treeNumber treePosition : Nat} {hash : Bytes32} :
    HasCommitment tables through treeNumber treePosition family hash
      ↔ ∃ commitment ∈ allCommitments through tables, commitment.family = family
        ∧ commitment.treeNumber = treeNumber ∧ commitment.treePosition = treePosition
        ∧ commitment.commitmentHash = hash := by
  constructor
  · rintro ⟨block, hrow, hbound⟩
    exact ⟨⟨family, block, treeNumber, treePosition, hash⟩, mem_allCommitments.mpr ⟨hrow, hbound⟩, rfl,
      rfl, rfl, rfl⟩
  · rintro ⟨commitment, hmem, rfl, rfl, rfl, rfl⟩
    exact ⟨commitment.blockNumber, mem_allCommitments.mp hmem⟩

theorem hasCommitment_of_mem {treeNumber : Nat} (hmem : commitment ∈ allCommitments through tables)
    (htree : commitment.treeNumber = treeNumber) :
    HasCommitment tables through treeNumber commitment.treePosition commitment.family
      commitment.commitmentHash :=
  hasCommitment_iff.mpr ⟨commitment, hmem, rfl, htree, rfl, rfl⟩

end Union

/-! ### Rows of a range -/

section Rows

variable {key : ContractKey} {through : Option Nat} {store : Store} {a b : Nat}
  {commitment : CommitmentColumns} {tables : IndexedTables}

def CommitmentsFit (tables : IndexedTables) : Prop :=
  ∀ family treeNumber treePosition found,
    commitmentAt tables (toLex (treeNumber, treePosition)) family = some found →
      treeNumber < u32Bound ∧ treeNumber * treeLeafCount + treePosition < i64Bound

theorem CommitmentsFit.of_mem (hfits : CommitmentsFit tables)
    (hmem : commitment ∈ allCommitments through tables) :
    commitment.treeNumber < u32Bound ∧ commitment.globalPosition < i64Bound :=
  hfits _ _ _ _ (mem_allCommitments.mp hmem).1

def storedRow (commitment : CommitmentColumns) : StoredCommitmentRow where
  globalPosition := commitment.globalPosition
  blockNumber := commitment.blockNumber
  family := commitment.family
  treeNumber := commitment.treeNumber
  treePosition := commitment.treePosition
  commitmentHash := commitment.commitmentHash

def rowsIn (through : Option Nat) (tables : IndexedTables) (a b : Nat) : List StoredCommitmentRow :=
  (sortByKey commitmentOrder ((allCommitments through tables).filter fun commitment =>
    a ≤ commitment.globalPosition && commitment.globalPosition ≤ b)).map storedRow

theorem mapM_u64ToI64_eq_ok {field : String} {found : Option Nat} :
    through.mapM (fun block => u64ToI64 block field) = .ok found
      ↔ (∀ bound ∈ through, bound < i64Bound) ∧ found = through := by
  cases through with
  | none => simp [eq_comm]
  | some block =>
      have hmap : (some block).mapM (fun block => u64ToI64 block field)
          = u64ToI64 block field >>= fun block => .ok (some block) := rfl
      rw [hmap, bind_eq_ok]
      simp only [u64ToI64_eq_ok, Option.mem_some_iff]
      constructor
      · rintro ⟨_, ⟨hfits, rfl⟩, heq⟩
        exact ⟨fun _ hbound => hbound ▸ hfits, (Except.ok.inj heq).symm⟩
      · rintro ⟨hfits, rfl⟩
        exact ⟨block, ⟨hfits block rfl, rfl⟩, rfl⟩

theorem storedGlobalTreePosition_eq_ok {treeNumber treePosition global : Nat} :
    storedGlobalTreePosition treeNumber treePosition = .ok global
      ↔ treeNumber * treeLeafCount + treePosition < u64Bound
        ∧ global = treeNumber * treeLeafCount + treePosition := by
  rw [storedGlobalTreePosition]
  split_ifs with hover
  · exact iff_of_false (by simp) fun hboth => absurd hboth.1 (Nat.not_lt.mpr hover)
  · rw [Except.ok.injEq, eq_comm]
    exact (and_iff_right (Nat.lt_of_not_le hover)).symm

theorem readCommitment_eq_ok (htree : commitment.treeNumber < u32Bound)
    (hglobal : commitment.globalPosition < i64Bound) :
    readCommitment commitment = .ok (storedRow commitment) := by
  have hfits : i64Bound ≤ u64Bound := by decide
  rw [readCommitment, if_neg (Nat.not_le.mpr htree),
    storedGlobalTreePosition_eq_ok.mpr ⟨lt_of_lt_of_le hglobal hfits, rfl⟩]
  rfl

structure RangeFits (key : ContractKey) (through : Option Nat) (a b : Nat) : Prop where
  chainId : key.chainId < i64Bound
  first : a < i64Bound
  last : b < i64Bound
  through : ∀ bound ∈ through, bound < i64Bound

theorem commitmentRows_eq_ok {rows : List StoredCommitmentRow}
    (hfits : CommitmentsFit (store.indexed key)) :
    commitmentRows key a b through store = .ok rows
      ↔ RangeFits key through a b ∧ rows = rowsIn through (store.indexed key) a b := by
  have hread : (sortByKey commitmentOrder ((allCommitments through (store.indexed key)).filter
      fun commitment => a ≤ commitment.globalPosition && commitment.globalPosition ≤ b)).mapM
        readCommitment = .ok (rowsIn through (store.indexed key) a b) := by
    rw [mapM_eq_ok_iff, rowsIn, List.forall₂_map_right_iff, List.forall₂_same]
    intro commitment hmem
    have hmem := (List.mem_filter.mp ((sortByKey_perm _ _).subset hmem)).1
    exact readCommitment_eq_ok (hfits.of_mem hmem).1 (hfits.of_mem hmem).2
  constructor
  · intro hok
    obtain ⟨_, hchain, hok⟩ := bind_eq_ok.mp hok
    obtain ⟨_, hfirst, hok⟩ := bind_eq_ok.mp hok
    obtain ⟨_, hlast, hok⟩ := bind_eq_ok.mp hok
    obtain ⟨_, hthrough, hok⟩ := bind_eq_ok.mp hok
    rw [(u64ToI64_eq_ok.mp hfirst).2, (u64ToI64_eq_ok.mp hlast).2, (mapM_u64ToI64_eq_ok.mp hthrough).2,
      hread] at hok
    exact ⟨⟨(u64ToI64_eq_ok.mp hchain).1, (u64ToI64_eq_ok.mp hfirst).1, (u64ToI64_eq_ok.mp hlast).1,
      (mapM_u64ToI64_eq_ok.mp hthrough).1⟩, (Except.ok.inj hok).symm⟩
  · rintro ⟨hrange, rfl⟩
    refine bind_eq_ok.mpr ⟨_, u64ToI64_eq_ok.mpr ⟨hrange.chainId, rfl⟩, ?_⟩
    refine bind_eq_ok.mpr ⟨_, u64ToI64_eq_ok.mpr ⟨hrange.first, rfl⟩, ?_⟩
    refine bind_eq_ok.mpr ⟨_, u64ToI64_eq_ok.mpr ⟨hrange.last, rfl⟩, ?_⟩
    exact bind_eq_ok.mpr ⟨_, mapM_u64ToI64_eq_ok.mpr ⟨hrange.through, rfl⟩, hread⟩

theorem mem_rowsIn {row : StoredCommitmentRow} :
    row ∈ rowsIn through tables a b
      ↔ ∃ commitment ∈ allCommitments through tables,
        a ≤ commitment.globalPosition ∧ commitment.globalPosition ≤ b ∧ row = storedRow commitment := by
  rw [rowsIn, List.mem_map]
  simp only [(sortByKey_perm _ _).mem_iff, List.mem_filter, Bool.and_eq_true, decide_eq_true_eq]
  constructor
  · rintro ⟨commitment, ⟨hmem, hlow, hhigh⟩, rfl⟩
    exact ⟨commitment, hmem, hlow, hhigh, rfl⟩
  · rintro ⟨commitment, hmem, hlow, hhigh, rfl⟩
    exact ⟨commitment, ⟨hmem, hlow, hhigh⟩, rfl⟩

end Rows

/-! ### Summaries of the trees -/

section Summaries

variable {key : ContractKey} {through : Option Nat} {store : Store}
  {summary : StoredCommitmentTreeSummary}

theorem foldl_max_spec {α : Type} (value : α → Nat) (items : List α) (start : Nat) :
    (∀ item ∈ items, value item ≤ items.foldl (fun last item => max last (value item)) start)
      ∧ start ≤ items.foldl (fun last item => max last (value item)) start
      ∧ (items.foldl (fun last item => max last (value item)) start = start
        ∨ ∃ item ∈ items, value item = items.foldl (fun last item => max last (value item)) start) := by
  induction items generalizing start with
  | nil => exact ⟨fun _ hmem => absurd hmem List.not_mem_nil, le_rfl, .inl rfl⟩
  | cons item rest ih =>
      obtain ⟨hall, hstart, hreached⟩ := ih (max start (value item))
      rw [List.foldl_cons]
      refine ⟨?_, (Nat.le_max_left _ _).trans hstart, ?_⟩
      · rw [List.forall_mem_cons]
        exact ⟨(Nat.le_max_right _ _).trans hstart, hall⟩
      · rcases hreached with heq | ⟨other, hother, heq⟩
        · rw [heq]
          rcases Nat.le_total (value item) start with hle | hle
          · exact .inl (Nat.max_eq_left hle)
          · exact .inr ⟨item, List.mem_cons_self, (Nat.max_eq_right hle).symm⟩
        · exact .inr ⟨other, List.mem_cons_of_mem _ hother, heq⟩

structure SummaryOf (tables : IndexedTables) (through : Option Nat)
    (summary : StoredCommitmentTreeSummary) : Prop where
  reached : ∃ treePosition family hash,
    HasCommitment tables through summary.treeNumber treePosition family hash
      ∧ treePosition + 1 = summary.leafCount
  below : ∀ treePosition family hash,
    HasCommitment tables through summary.treeNumber treePosition family hash →
      treePosition < summary.leafCount

theorem treeNumber_of_treeSummary {commitments : List CommitmentColumns} {treeNumber : Nat}
    (hok : treeSummary commitments treeNumber = .ok summary) : summary.treeNumber = treeNumber := by
  rw [treeSummary] at hok
  split_ifs at hok
  cases hok
  rfl

theorem treeSummary_eq_ok {tables : IndexedTables} {treeNumber : Nat}
    (htree : ∃ commitment ∈ allCommitments through tables, commitment.treeNumber = treeNumber)
    (hok : treeSummary (allCommitments through tables) treeNumber = .ok summary) :
    SummaryOf tables through summary := by
  rw [treeSummary] at hok
  split_ifs at hok
  cases hok
  obtain ⟨commitment, hcommitment, rfl⟩ := htree
  obtain ⟨hall, -, hreached⟩ := foldl_max_spec CommitmentColumns.treePosition
    ((allCommitments through tables).filter fun other => other.treeNumber == commitment.treeNumber) 0
  have hmem : commitment ∈ (allCommitments through tables).filter fun other =>
      other.treeNumber == commitment.treeNumber := by
    rw [List.mem_filter, beq_self_eq_true]
    exact ⟨hcommitment, rfl⟩
  refine ⟨?_, ?_⟩
  · have hlast : ∃ last ∈ (allCommitments through tables).filter fun other =>
        other.treeNumber == commitment.treeNumber, last.treePosition
          = ((allCommitments through tables).filter fun other =>
            other.treeNumber == commitment.treeNumber).foldl
              (fun last commitment => max last commitment.treePosition) 0 := by
      rcases hreached with hzero | hlast
      · have hle := hall commitment hmem
        exact ⟨commitment, hmem, by omega⟩
      · exact hlast
    obtain ⟨last, hlast, heq⟩ := hlast
    rw [List.mem_filter, beq_iff_eq] at hlast
    refine ⟨last.treePosition, last.family, last.commitmentHash, ?_, by rw [heq]⟩
    exact hasCommitment_of_mem hlast.1 hlast.2
  · intro treePosition family hash hcommits
    obtain ⟨other, hother, -, htree, rfl, -⟩ := hasCommitment_iff.mp hcommits
    apply Nat.lt_succ_of_le
    apply hall
    rw [List.mem_filter, beq_iff_eq]
    exact ⟨hother, htree⟩

structure SummariesOf (tables : IndexedTables) (through : Option Nat)
    (summaries : List StoredCommitmentTreeSummary) : Prop where
  ordered : summaries.Pairwise fun left right => left.treeNumber < right.treeNumber
  trees : ∀ treeNumber, (∃ summary ∈ summaries, summary.treeNumber = treeNumber)
    ↔ ∃ treePosition family hash, HasCommitment tables through treeNumber treePosition family hash
  counts : ∀ summary ∈ summaries, SummaryOf tables through summary

theorem exists_commitmentTreeSummaries (hfits : CommitmentsFit (store.indexed key))
    (hchain : key.chainId < i64Bound) (hthrough : ∀ bound ∈ through, bound < i64Bound) :
    ∃ summaries, commitmentTreeSummaries key through store = .ok summaries
      ∧ SummariesOf (store.indexed key) through summaries := by
  set commitments := allCommitments through (store.indexed key) with hcommitments
  set trees := sortByKey id (commitments.map fun commitment => commitment.treeNumber).dedup with htrees
  have hmem : ∀ {treeNumber}, treeNumber ∈ trees
      ↔ ∃ commitment ∈ commitments, commitment.treeNumber = treeNumber := by
    intro treeNumber
    rw [htrees, (sortByKey_perm _ _).mem_iff, List.mem_dedup, List.mem_map]
  have hordered : trees.Pairwise fun left right => left < right := by
    have hnodup : trees.Nodup := (sortByKey_perm _ _).nodup_iff.mpr (List.nodup_dedup _)
    exact ((pairwise_sortByKey id _).and hnodup).imp fun hboth => lt_of_le_of_ne hboth.1 hboth.2
  obtain ⟨summaries, hsummaries⟩ : ∃ summaries, trees.mapM (treeSummary commitments)
      = .ok summaries := by
    rw [exists_mapM_eq_ok]
    intro treeNumber htree
    obtain ⟨commitment, hcommitment, rfl⟩ := hmem.mp htree
    rw [treeSummary, if_neg (Nat.not_le.mpr (hfits.of_mem hcommitment).1)]
    exact ⟨_, rfl⟩
  have hnumbers : summaries.map (fun summary => summary.treeNumber) = trees.map id :=
    map_eq_of_mapM hsummaries fun _ _ hok => treeNumber_of_treeSummary hok
  rw [List.map_id] at hnumbers
  refine ⟨summaries, ?_, ?_, ?_, ?_⟩
  · refine bind_eq_ok.mpr ⟨_, u64ToI64_eq_ok.mpr ⟨hchain, rfl⟩, ?_⟩
    exact bind_eq_ok.mpr ⟨_, mapM_u64ToI64_eq_ok.mpr ⟨hthrough, rfl⟩, hsummaries⟩
  · rw [← hnumbers, List.pairwise_map] at hordered
    exact hordered
  · intro treeNumber
    rw [← List.mem_map, hnumbers, hmem]
    constructor
    · rintro ⟨commitment, hcommitment, rfl⟩
      exact ⟨_, _, _, hasCommitment_of_mem hcommitment rfl⟩
    · rintro ⟨_, _, _, hcommits⟩
      obtain ⟨commitment, hcommitment, -, htree, -⟩ := hasCommitment_iff.mp hcommits
      exact ⟨commitment, hcommitment, htree⟩
  · intro summary hsummary
    obtain ⟨treeNumber, htree, hok⟩ := exists_of_forall₂_right (mapM_eq_ok_iff.mp hsummaries) hsummary
    exact treeSummary_eq_ok (hmem.mp htree) hok

end Summaries

end RailgunIndexer
