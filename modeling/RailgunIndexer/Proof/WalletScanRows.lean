import RailgunIndexer.WalletScanRows
import RailgunIndexer.Lib.Intervals
import RailgunIndexer.Proof.Store
import Mathlib.Data.List.Dedup

/-!
# What the wallet-scan queries read

A query of a range returns what the query of a wider range has in it, table by table, because the rows
come in the order of their blocks. A bucket that has a block is an interval from its first to its last
block, and buckets follow each other.
-/

namespace RailgunIndexer

open Lib Lib.Fallible

/-! ### One table -/

section Scan

variable {κ π ρ : Type} [LinearOrder κ] {scan : ScanTable κ π ρ} {tables : IndexedTables}
  {a b start stop : Nat}

def ScanTable.listed (scan : ScanTable κ π ρ) (a b : Nat) (tables : IndexedTables) : List ρ :=
  (sortByKey logOrder ((scan.table tables).entries.filter (scan.selects a b))).map scan.stored

def ScanTable.Fits (scan : ScanTable κ π ρ) (tables : IndexedTables) : Prop :=
  ∀ entry ∈ (scan.table tables).entries, scan.treeNumber entry.1 < u32Bound

def ScanTable.Blocks (scan : ScanTable κ π ρ) (block : ρ → Nat) : Prop :=
  ∀ entry, block (scan.stored entry) = entry.2.source.blockNumber

variable {entry : κ × IndexedRow π} {row : ρ}

theorem ScanTable.read_eq_ok :
    scan.read entry = .ok row ↔ scan.treeNumber entry.1 < u32Bound ∧ scan.stored entry = row := by
  rw [ScanTable.read]
  split_ifs with hover
  · exact iff_of_false (by simp) fun hboth => absurd hboth.1 (Nat.not_lt.mpr hover)
  · rw [Except.ok.injEq]
    exact (and_iff_right (Nat.lt_of_not_le hover)).symm

theorem ScanTable.rows_eq_ok {rows : List ρ} (hok : scan.rows a b tables = .ok rows) :
    rows = scan.listed a b tables := by
  have hread : rows.map id = scan.listed a b tables :=
    map_eq_of_mapM hok fun entry row hentry => (ScanTable.read_eq_ok.mp hentry).2.symm
  rwa [List.map_id] at hread

theorem ScanTable.Fits.rows_eq (hfits : scan.Fits tables) (a b : Nat) :
    scan.rows a b tables = .ok (scan.listed a b tables) := by
  have hread : ∀ entry ∈ sortByKey logOrder ((scan.table tables).entries.filter (scan.selects a b)),
      ∃ row, scan.read entry = .ok row := by
    intro entry hentry
    have hmem := List.mem_of_mem_filter ((sortByKey_perm _ _).subset hentry)
    exact ⟨_, ScanTable.read_eq_ok.mpr ⟨hfits entry hmem, rfl⟩⟩
  obtain ⟨rows, hok⟩ := exists_mapM_eq_ok.mpr hread
  obtain rfl := ScanTable.rows_eq_ok hok
  exact hok

theorem ScanTable.selects_iff :
    scan.selects a b entry = true ↔ scan.scannable entry.2.columns = true
      ∧ a ≤ entry.2.source.blockNumber ∧ entry.2.source.blockNumber ≤ b := by
  rw [ScanTable.selects, Bool.and_eq_true, Bool.and_eq_true, decide_eq_true_eq, decide_eq_true_eq,
    and_assoc]

theorem pairwise_logOrder (entries : List (κ × IndexedRow π))
    (hkeys : entries.Pairwise fun left right => left.1 < right.1) :
    (sortByKey logOrder entries).Pairwise fun left right => logOrder left < logOrder right := by
  have hperm := sortByKey_perm logOrder entries
  have hnodup : (entries.map Prod.fst).Nodup := List.pairwise_map.mpr (hkeys.imp ne_of_lt)
  have hdistinct := List.pairwise_map.mp ((hperm.map Prod.fst).nodup_iff.mpr hnodup)
  apply ((pairwise_sortByKey logOrder entries).and hdistinct).imp
  rintro left right ⟨hle, hne⟩
  apply lt_of_le_of_ne hle
  intro heq
  apply hne
  have hlog := (Prod.mk.inj (toLex.injective heq)).2
  exact (Prod.mk.inj (toLex.injective hlog)).2

variable {block : ρ → Nat}

/-- **A range reads what a wider range has in it.** -/
theorem ScanTable.Blocks.listed_eq_within (hblocks : scan.Blocks block) (hlow : start ≤ a)
    (hhigh : b ≤ stop) :
    scan.listed a b tables = within block (scan.listed start stop tables) a b := by
  have hsorted := pairwise_logOrder _ ((scan.table tables).sorted.filter (scan.selects start stop))
  have hread : sortByKey logOrder ((scan.table tables).entries.filter (scan.selects a b))
      = (sortByKey logOrder ((scan.table tables).entries.filter (scan.selects start stop))).filter
        fun entry => a ≤ entry.2.source.blockNumber && entry.2.source.blockNumber ≤ b := by
    apply sortByKey_eq_of_perm _ (hsorted.filter _)
    refine List.Perm.trans ?_ ((sortByKey_perm _ _).filter _).symm
    rw [List.filter_filter]
    apply List.Perm.of_eq
    apply List.filter_congr
    intro entry _
    rw [Bool.eq_iff_iff, Bool.and_eq_true, ScanTable.selects_iff, ScanTable.selects_iff,
      Bool.and_eq_true, decide_eq_true_eq, decide_eq_true_eq]
    constructor
    · rintro ⟨hscannable, hfirst, hlast⟩
      exact ⟨⟨hfirst, hlast⟩, hscannable, hlow.trans hfirst, hlast.trans hhigh⟩
    · rintro ⟨hrange, hscannable, -⟩
      exact ⟨hscannable, hrange⟩
  rw [ScanTable.listed, hread, ScanTable.listed, within, List.filter_map]
  congr 1
  apply List.filter_congr
  intro entry _
  rw [Function.comp_apply, hblocks entry]

theorem ScanTable.Blocks.listed_sublist (hblocks : scan.Blocks block) (hlow : start ≤ a)
    (hhigh : b ≤ stop) (tables : IndexedTables) :
    (scan.listed a b tables).Sublist (scan.listed start stop tables) := by
  rw [hblocks.listed_eq_within hlow hhigh]
  exact List.filter_sublist

theorem ScanTable.Blocks.sorted_listed (hblocks : scan.Blocks block) (a b : Nat)
    (tables : IndexedTables) :
    (scan.listed a b tables).Pairwise fun left right => block left ≤ block right := by
  rw [ScanTable.listed, List.pairwise_map]
  apply (pairwise_sortByKey logOrder _).imp
  intro left right hle
  rw [hblocks left, hblocks right]
  exact (Prod.Lex.toLex_le_toLex.mp hle).elim le_of_lt fun heq => heq.1.le

theorem ScanTable.perm_listed (scan : ScanTable κ π ρ) (a b : Nat) (tables : IndexedTables) :
    (scan.listed a b tables).Perm
      (((scan.table tables).entries.filter (scan.selects a b)).map scan.stored) :=
  (sortByKey_perm _ _).map _

theorem ScanTable.length_listed : (scan.listed a b tables).length = (scan.blocks a b tables).length := by
  rw [(scan.perm_listed a b tables).length_eq, List.length_map, ScanTable.blocks, List.length_map]

theorem ScanTable.Blocks.mem_blocks (hblocks : scan.Blocks block)
    (hrow : row ∈ scan.listed a b tables) : block row ∈ scan.blocks a b tables := by
  obtain ⟨entry, hentry, rfl⟩ := List.mem_map.mp ((scan.perm_listed a b tables).subset hrow)
  rw [hblocks entry]
  exact List.mem_map_of_mem hentry

def ScanTable.HasBlock (scan : ScanTable κ π ρ) (tables : IndexedTables) (block : Nat) : Prop :=
  ∃ entry ∈ (scan.table tables).entries,
    scan.scannable entry.2.columns = true ∧ entry.2.source.blockNumber = block

theorem ScanTable.mem_blocks_iff {block : Nat} :
    block ∈ scan.blocks a b tables ↔ scan.HasBlock tables block ∧ a ≤ block ∧ block ≤ b := by
  rw [ScanTable.blocks, List.mem_map]
  simp only [List.mem_filter, ScanTable.selects_iff]
  constructor
  · rintro ⟨entry, ⟨hentry, hscannable, hrange⟩, rfl⟩
    exact ⟨⟨entry, hentry, hscannable, rfl⟩, hrange⟩
  · rintro ⟨⟨entry, hentry, hscannable, rfl⟩, hrange⟩
    exact ⟨entry, ⟨hentry, hscannable, hrange⟩, rfl⟩

theorem ScanTable.Blocks.mem_range (hblocks : scan.Blocks block)
    (hrow : row ∈ scan.listed a b tables) : a ≤ block row ∧ block row ≤ b :=
  (ScanTable.mem_blocks_iff.mp (hblocks.mem_blocks hrow)).2

end Scan

/-! ### The five tables -/

section Tables

variable {tables : IndexedTables} {a b start stop : Nat}

theorem transactScan_blocks : transactScan.Blocks fun row => row.source.blockNumber :=
  fun _ => rfl

theorem shieldScan_blocks : shieldScan.Blocks fun row => row.source.blockNumber :=
  fun _ => rfl

theorem nullifierScan_blocks : nullifierScan.Blocks fun row => row.source.blockNumber :=
  fun _ => rfl

theorem legacyEncryptedScan_blocks : legacyEncryptedScan.Blocks fun row => row.source.blockNumber :=
  fun _ => rfl

theorem legacyGeneratedScan_blocks : legacyGeneratedScan.Blocks fun row => row.source.blockNumber :=
  fun _ => rfl

def scannedRows (a b : Nat) (tables : IndexedTables) : StoredWalletScanRows where
  transactCommitments := transactScan.listed a b tables
  shieldCommitments := shieldScan.listed a b tables
  nullifiers := nullifierScan.listed a b tables
  legacyEncryptedCommitments := legacyEncryptedScan.listed a b tables
  legacyGeneratedCommitments := legacyGeneratedScan.listed a b tables

def ScannableBlock (tables : IndexedTables) (block : Nat) : Prop :=
  transactScan.HasBlock tables block ∨ shieldScan.HasBlock tables block
    ∨ nullifierScan.HasBlock tables block ∨ legacyEncryptedScan.HasBlock tables block
    ∨ legacyGeneratedScan.HasBlock tables block

structure ScansFit (tables : IndexedTables) : Prop where
  transact : transactScan.Fits tables
  shield : shieldScan.Fits tables
  nullifier : nullifierScan.Fits tables
  legacyEncrypted : legacyEncryptedScan.Fits tables
  legacyGenerated : legacyGeneratedScan.Fits tables

theorem walletScanRows_eq_ok {key : ContractKey} {store : Store} {rows : StoredWalletScanRows}
    (hok : walletScanRows key a b store = .ok rows) : rows = scannedRows a b (store.indexed key) := by
  obtain ⟨_, -, hok⟩ := bind_eq_ok.mp hok
  obtain ⟨_, hstart, hok⟩ := bind_eq_ok.mp hok
  obtain ⟨_, hend, hok⟩ := bind_eq_ok.mp hok
  obtain ⟨_, htransact, hok⟩ := bind_eq_ok.mp hok
  obtain ⟨_, hshield, hok⟩ := bind_eq_ok.mp hok
  obtain ⟨_, hnullifier, hok⟩ := bind_eq_ok.mp hok
  obtain ⟨_, hencrypted, hok⟩ := bind_eq_ok.mp hok
  obtain ⟨_, hgenerated, hok⟩ := bind_eq_ok.mp hok
  have hsections := (Except.ok.inj hok).symm
  rw [ScanTable.rows_eq_ok htransact, ScanTable.rows_eq_ok hshield,
    ScanTable.rows_eq_ok hnullifier, ScanTable.rows_eq_ok hencrypted,
    ScanTable.rows_eq_ok hgenerated] at hsections
  obtain ⟨-, rfl⟩ := u64ToI64_eq_ok.mp hstart
  obtain ⟨-, rfl⟩ := u64ToI64_eq_ok.mp hend
  exact hsections

theorem ScansFit.walletScanRows_eq {key : ContractKey} {store : Store}
    (hfits : ScansFit (store.indexed key)) (hchain : key.chainId < i64Bound) (ha : a < i64Bound)
    (hb : b < i64Bound) :
    walletScanRows key a b store = .ok (scannedRows a b (store.indexed key)) := by
  rw [walletScanRows, u64ToI64_eq_ok.mpr ⟨hchain, rfl⟩, ok_bind, u64ToI64_eq_ok.mpr ⟨ha, rfl⟩,
    ok_bind, u64ToI64_eq_ok.mpr ⟨hb, rfl⟩, ok_bind, hfits.transact.rows_eq, ok_bind,
    hfits.shield.rows_eq, ok_bind, hfits.nullifier.rows_eq, ok_bind, hfits.legacyEncrypted.rows_eq,
    ok_bind, hfits.legacyGenerated.rows_eq, ok_bind, scannedRows, pure_eq_ok]

theorem mem_walletScanBlocks {block : Nat} :
    block ∈ walletScanBlocks a b tables ↔ ScannableBlock tables block ∧ a ≤ block ∧ block ≤ b := by
  simp only [walletScanBlocks, List.mem_append, ScanTable.mem_blocks_iff, ScannableBlock, or_and_right,
    or_assoc]

def StoredWalletScanRows.count (rows : StoredWalletScanRows) : Nat :=
  rows.transactCommitments.length + rows.shieldCommitments.length + rows.nullifiers.length
    + rows.legacyEncryptedCommitments.length + rows.legacyGeneratedCommitments.length

theorem StoredWalletScanRows.isEmpty_iff {rows : StoredWalletScanRows} :
    rows.isEmpty = true ↔ rows.count = 0 := by
  simp only [StoredWalletScanRows.isEmpty, StoredWalletScanRows.count, Bool.and_eq_true,
    List.isEmpty_iff_length_eq_zero]
  omega

theorem count_scannedRows : (scannedRows a b tables).count = (walletScanBlocks a b tables).length := by
  simp only [StoredWalletScanRows.count, scannedRows, ScanTable.length_listed, walletScanBlocks,
    List.length_append]

theorem isEmpty_scannedRows {block : Nat} (hscannable : ScannableBlock tables block) (hlow : a ≤ block)
    (hhigh : block ≤ b) : ¬(scannedRows a b tables).isEmpty = true := by
  have hmem := mem_walletScanBlocks.mpr ⟨hscannable, hlow, hhigh⟩
  rw [StoredWalletScanRows.isEmpty_iff, count_scannedRows]
  exact Nat.ne_of_gt (List.length_pos_of_mem hmem)

end Tables

/-! ### Populated ranges -/

section Ranges

variable {tables : IndexedTables} {startBlock endBlock bucketSpan : Nat} {blocks : List Nat}

theorem blockBucket_mono (startBlock bucketSpan : Nat) :
    Monotone (blockBucket startBlock bucketSpan) := by
  intro left right hle
  exact Nat.div_le_div_right (Nat.sub_le_sub_right hle startBlock)

structure BucketRange (startBlock bucketSpan : Nat) (blocks : List Nat) (bucket : Nat)
    (range : StoredBlockRange) : Prop where
  first : range.startBlock ∈ blocks ∧ blockBucket startBlock bucketSpan range.startBlock = bucket
  last : range.endBlock ∈ blocks ∧ blockBucket startBlock bucketSpan range.endBlock = bucket
  bounds : ∀ block ∈ blocks, blockBucket startBlock bucketSpan block = bucket →
    range.startBlock ≤ block ∧ block ≤ range.endBlock

theorem bucketRange_spec {block : Nat} (hblock : block ∈ blocks) :
    BucketRange startBlock bucketSpan blocks (blockBucket startBlock bucketSpan block)
      (bucketRange startBlock bucketSpan blocks (blockBucket startBlock bucketSpan block)) := by
  have hgroup : ∀ other, other ∈ blocks.filter (fun other =>
      blockBucket startBlock bucketSpan other == blockBucket startBlock bucketSpan block)
        ↔ other ∈ blocks
          ∧ blockBucket startBlock bucketSpan other = blockBucket startBlock bucketSpan block := by
    intro other
    rw [List.mem_filter, beq_iff_eq]
  have hmem := (hgroup block).mpr ⟨hblock, rfl⟩
  obtain ⟨first, hfirst⟩ := Option.isSome_iff_exists.mp (List.isSome_min?_of_mem hmem)
  obtain ⟨last, hlast⟩ := Option.isSome_iff_exists.mp (List.isSome_max?_of_mem hmem)
  rw [bucketRange, hfirst, hlast, Option.getD_some, Option.getD_some]
  obtain ⟨hfirst, hlow⟩ := List.min?_eq_some_iff.mp hfirst
  obtain ⟨hlast, hhigh⟩ := List.max?_eq_some_iff.mp hlast
  refine ⟨(hgroup first).mp hfirst, (hgroup last).mp hlast, ?_⟩
  intro other hother hbucket
  have hmem := (hgroup other).mpr ⟨hother, hbucket⟩
  exact ⟨hlow other hmem, hhigh other hmem⟩

/-- Items with an interval of blocks each are apart, in order and inside the range of blocks, each
starts at a scannable block, and all scannable blocks of the range are in them. -/
structure CoversScans {α : Type} (first last : α → Nat) (startBlock endBlock : Nat)
    (tables : IndexedTables) (items : List α) : Prop where
  inOrder : InOrder first last items
  inside : ∀ item ∈ items, startBlock ≤ first item ∧ last item ≤ endBlock
  populated : ∀ item ∈ items, ScannableBlock tables (first item)
  holds : ∀ block, ScannableBlock tables block → startBlock ≤ block → block ≤ endBlock →
    Holds first last items block

theorem CoversScans.joins {α β : Type} {first last : α → Nat} {starts ends : β → Nat}
    {parts : List (List α)} {joined : List β}
    (hcovers : CoversScans first last startBlock endBlock tables parts.flatten)
    (hjoins : Joins first last starts ends parts joined) :
    CoversScans starts ends startBlock endBlock tables joined := by
  refine ⟨hjoins.inOrder hcovers.inOrder, ?_, ?_, ?_⟩
  · intro chunk hchunk
    obtain ⟨⟨item, hitem, hstart⟩, other, hother, hend⟩ := hjoins.exists_ends hchunk
    rw [hstart, hend]
    exact ⟨(hcovers.inside item hitem).1, (hcovers.inside other hother).2⟩
  · intro chunk hchunk
    obtain ⟨⟨item, hitem, hstart⟩, -⟩ := hjoins.exists_ends hchunk
    rw [hstart]
    exact hcovers.populated item hitem
  · intro block hscannable hlow hhigh
    exact hjoins.holds hcovers.inOrder (hcovers.holds block hscannable hlow hhigh)

theorem coversScans_buckets : CoversScans StoredBlockRange.startBlock StoredBlockRange.endBlock
    startBlock endBlock tables (sortByKey StoredBlockRange.startBlock
      (((walletScanBlocks startBlock endBlock tables).map (blockBucket startBlock bucketSpan)).dedup.map
        (bucketRange startBlock bucketSpan (walletScanBlocks startBlock endBlock tables)))) := by
  set blocks := walletScanBlocks startBlock endBlock tables with hblocks
  set buckets := (blocks.map (blockBucket startBlock bucketSpan)).dedup with hbuckets
  have hperm := sortByKey_perm StoredBlockRange.startBlock
    (buckets.map (bucketRange startBlock bucketSpan blocks))
  have hspec : ∀ bucket ∈ buckets, BucketRange startBlock bucketSpan blocks bucket
      (bucketRange startBlock bucketSpan blocks bucket) := by
    intro bucket hbucket
    obtain ⟨block, hblock, rfl⟩ := List.mem_map.mp (List.mem_dedup.mp hbucket)
    exact bucketRange_spec hblock
  have hrange : ∀ range ∈ sortByKey StoredBlockRange.startBlock
      (buckets.map (bucketRange startBlock bucketSpan blocks)),
      ∃ bucket, BucketRange startBlock bucketSpan blocks bucket range := by
    intro range hmem
    obtain ⟨bucket, hbucket, rfl⟩ := List.mem_map.mp (hperm.subset hmem)
    exact ⟨bucket, hspec bucket hbucket⟩
  constructor
  · apply inOrder_of_buckets (blockBucket_mono startBlock bucketSpan)
    · intro range hmem
      obtain ⟨bucket, hbucket⟩ := hrange range hmem
      exact (hbucket.bounds _ hbucket.first.1 hbucket.first.2).2
    · intro range hmem
      obtain ⟨bucket, hbucket⟩ := hrange range hmem
      rw [hbucket.first.2, hbucket.last.2]
    · have hdistinct : (buckets.map (bucketRange startBlock bucketSpan blocks)).Pairwise fun left right =>
          blockBucket startBlock bucketSpan left.startBlock
            ≠ blockBucket startBlock bucketSpan right.startBlock := by
        rw [List.pairwise_map]
        apply (List.nodup_dedup _).imp_of_mem
        intro left right hleft hright hne
        rw [(hspec left hleft).first.2, (hspec right hright).first.2]
        exact hne
      exact hperm.symm.pairwise hdistinct fun hne => hne.symm
    · exact pairwise_sortByKey _ _
  · intro range hmem
    obtain ⟨bucket, hbucket⟩ := hrange range hmem
    exact ⟨(mem_walletScanBlocks.mp hbucket.first.1).2.1, (mem_walletScanBlocks.mp hbucket.last.1).2.2⟩
  · intro range hmem
    obtain ⟨bucket, hbucket⟩ := hrange range hmem
    exact (mem_walletScanBlocks.mp hbucket.first.1).1
  · intro block hscannable hlow hhigh
    have hblock : block ∈ blocks := mem_walletScanBlocks.mpr ⟨hscannable, hlow, hhigh⟩
    have hbucket : blockBucket startBlock bucketSpan block ∈ buckets :=
      List.mem_dedup.mpr (List.mem_map_of_mem hblock)
    refine ⟨_, hperm.symm.subset (List.mem_map_of_mem hbucket), ?_⟩
    exact (hspec _ hbucket).bounds block hblock rfl

theorem walletScanPopulatedBlockRanges_eq_ok {key : ContractKey} {store : Store}
    {ranges : List StoredBlockRange} (hle : startBlock ≤ endBlock)
    (hok : walletScanPopulatedBlockRanges key startBlock endBlock bucketSpan store = .ok ranges) :
    CoversScans StoredBlockRange.startBlock StoredBlockRange.endBlock startBlock endBlock
      (store.indexed key) ranges := by
  rw [walletScanPopulatedBlockRanges, if_neg (Nat.not_lt.mpr hle)] at hok
  split_ifs at hok
  obtain ⟨_, -, hok⟩ := bind_eq_ok.mp hok
  obtain ⟨_, hstart, hok⟩ := bind_eq_ok.mp hok
  obtain ⟨_, hend, hok⟩ := bind_eq_ok.mp hok
  obtain ⟨_, -, hok⟩ := bind_eq_ok.mp hok
  rw [← Except.ok.inj hok, (u64ToI64_eq_ok.mp hstart).2, (u64ToI64_eq_ok.mp hend).2]
  exact coversScans_buckets

theorem exists_walletScanPopulatedBlockRanges {key : ContractKey} {store : Store}
    (hchain : key.chainId < i64Bound) (hle : startBlock ≤ endBlock) (hend : endBlock < i64Bound)
    (hspan : 0 < bucketSpan) (hspanFits : bucketSpan < i64Bound) :
    ∃ ranges, walletScanPopulatedBlockRanges key startBlock endBlock bucketSpan store
      = .ok ranges := by
  rw [walletScanPopulatedBlockRanges, if_neg (Nat.not_lt.mpr hle), if_neg (Nat.ne_of_gt hspan),
    u64ToI64_eq_ok.mpr ⟨hchain, rfl⟩, ok_bind, u64ToI64_eq_ok.mpr ⟨lt_of_le_of_lt hle hend, rfl⟩,
    ok_bind, u64ToI64_eq_ok.mpr ⟨hend, rfl⟩, ok_bind, u64ToI64_eq_ok.mpr ⟨hspanFits, rfl⟩, ok_bind]
  exact ⟨_, rfl⟩

end Ranges

end RailgunIndexer
