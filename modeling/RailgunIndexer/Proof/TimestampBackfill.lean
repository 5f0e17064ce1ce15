import RailgunIndexer.TimestampBackfill
import RailgunIndexer.Proof.Store
import Mathlib.Data.Set.Lattice

/-!
# A backfill completes in one pass

A filled timestamp is one its block already agreed on, so no update creates or removes an agreement.
All updates then work with the sources of the first, whatever their order, and a second backfill finds
nothing left to fill.
-/

namespace RailgunIndexer

open Lib Lib.Agreement Lib.Fallible

/-! ### What a block has for sources -/

section Stamps

variable {κ π : Type} [LinearOrder κ] {startBlock endBlock : Nat} {table : OrdMap κ (StampedRow π)}

def stamps (table : OrdMap κ (StampedRow π)) : Set (BlockKey × Nat) :=
  {stamp | ∃ row ∈ table.values, row.blockKey = stamp.1 ∧ row.blockTimestamp = some stamp.2}

def blocksWithin (startBlock endBlock : Nat) : Set (BlockKey × Nat) :=
  {stamp | startBlock ≤ stamp.1.1 ∧ stamp.1.1 ≤ endBlock}

theorem within_iff {row : StampedRow π} :
    row.within startBlock endBlock = true
      ↔ startBlock ≤ row.blockNumber ∧ row.blockNumber ≤ endBlock := by
  simp [StampedRow.within]

theorem observed_selectSources :
    observed (selectSources startBlock endBlock table)
      = stamps table ∩ blocksWithin startBlock endBlock := by
  ext ⟨block, time⟩
  simp only [observed, selectSources, stamps, blocksWithin, Set.mem_inter_iff, Set.mem_ofPred_eq,
    List.mem_map, List.mem_filter, within_iff, StampedRow.source, Prod.mk.injEq]
  constructor
  · rintro ⟨row, ⟨hrow, hwithin⟩, rfl, htime⟩
    exact ⟨⟨row, hrow, rfl, htime⟩, hwithin⟩
  · rintro ⟨⟨row, hrow, rfl, htime⟩, hwithin⟩
    exact ⟨row, ⟨hrow, hwithin⟩, rfl, htime⟩

theorem observed_selectStampedSources :
    observed (selectStampedSources startBlock endBlock table)
      = stamps table ∩ blocksWithin startBlock endBlock := by
  ext ⟨block, time⟩
  simp only [observed, selectStampedSources, stamps, blocksWithin, Set.mem_inter_iff,
    Set.mem_ofPred_eq, List.mem_map, List.mem_filter, Bool.and_eq_true, within_iff,
    StampedRow.source, Prod.mk.injEq]
  constructor
  · rintro ⟨row, ⟨hrow, -, hwithin⟩, rfl, htime⟩
    exact ⟨⟨row, hrow, rfl, htime⟩, hwithin⟩
  · rintro ⟨⟨row, hrow, rfl, htime⟩, hwithin⟩
    exact ⟨row, ⟨hrow, by rw [htime]; rfl, hwithin⟩, rfl, htime⟩

end Stamps

theorem observed_append (rows others : List (BlockKey × Option Nat)) :
    observed (rows ++ others) = observed rows ∪ observed others := by
  ext stamp
  simp [observed]

def scanStamps (tables : StampedTables) : WalletScanTable → Set (BlockKey × Nat)
  | .transactCommitments => stamps tables.transactCommitments
  | .shieldCommitments => stamps tables.shieldCommitments
  | .nullifiers => stamps tables.nullifiers
  | .legacyEncryptedCommitments => stamps tables.legacyEncryptedCommitments
  | .legacyGeneratedCommitments => stamps tables.legacyGeneratedCommitments

def localSources (tables : StampedTables) : Set (BlockKey × Nat) :=
  stamps tables.publicTxidRows ∪ stamps tables.publicTransactions
    ∪ {stamp | ∃ table, stamp ∈ scanStamps tables table}

theorem exists_walletScanTable {P : WalletScanTable → Prop} : (∃ table, P table)
      ↔ P .transactCommitments ∨ P .shieldCommitments ∨ P .nullifiers
        ∨ P .legacyEncryptedCommitments ∨ P .legacyGeneratedCommitments := by
  constructor
  · rintro ⟨table, htable⟩
    cases table <;> simp [htable]
  · rintro (h | h | h | h | h) <;> exact ⟨_, h⟩

section Sources

variable {startBlock endBlock : Nat} {tables : StampedTables}

theorem observed_timestampSourceRows :
    observed (timestampSourceRows startBlock endBlock tables)
      = localSources tables ∩ blocksWithin startBlock endBlock := by
  simp only [timestampSourceRows, observed_append, observed_selectSources,
    observed_selectStampedSources, ← Set.union_inter_distrib_right]
  congr 1
  ext stamp
  simp only [localSources, Set.mem_union, Set.mem_ofPred_eq, exists_walletScanTable, scanStamps,
    or_assoc]

theorem timestampSources_eq_some_iff {block : BlockKey} {time : Nat} :
    timestampSources startBlock endBlock tables block = some time
      ↔ startBlock ≤ block.1 ∧ block.1 ≤ endBlock ∧ Agrees (localSources tables) block time := by
  rw [timestampSources, agreed?_eq_some_iff, observed_timestampSourceRows]
  constructor
  · rintro ⟨⟨hmem, hlow, hhigh⟩, honly⟩
    exact ⟨hlow, hhigh, hmem, fun other hother => honly other ⟨hother, hlow, hhigh⟩⟩
  · rintro ⟨hlow, hhigh, hmem, honly⟩
    exact ⟨⟨hmem, hlow, hhigh⟩, fun other hother => honly other hother.1⟩

theorem timestampSources_eq_none_of_lt (hempty : endBlock < startBlock) (block : BlockKey) :
    timestampSources startBlock endBlock tables block = none := by
  rw [Option.eq_none_iff_forall_ne_some]
  intro time hsome
  obtain ⟨hlow, hhigh, -⟩ := timestampSources_eq_some_iff.mp hsome
  omega

end Sources

/-! ### One table -/

section Table

variable {κ π : Type} [LinearOrder κ] {sources : BlockKey → Option Nat} {eligible : π → Bool}

variable {row : StampedRow π}

theorem updated_iff :
    row.updated sources eligible = true
      ↔ row.blockTimestamp = none ∧ eligible row.columns = true
        ∧ (sources row.blockKey).isSome = true := by
  simp [StampedRow.updated, and_assoc]

theorem setTimestamp_of_not_updated (hrow : row.updated sources eligible = false) :
    row.setTimestamp sources eligible = row := by
  rw [StampedRow.setTimestamp, if_neg (by simp [hrow])]

theorem setTimestamp_of_updated (hrow : row.updated sources eligible = true) :
    row.setTimestamp sources eligible = { row with blockTimestamp := sources row.blockKey } := by
  rw [StampedRow.setTimestamp, if_pos hrow]

theorem setTimestamp_not_updated (row : StampedRow π) :
    (row.setTimestamp sources eligible).updated sources eligible = false := by
  cases hrow : row.updated sources eligible with
  | false => rwa [setTimestamp_of_not_updated hrow]
  | true =>
      obtain ⟨-, -, hsome⟩ := updated_iff.mp hrow
      rw [setTimestamp_of_updated hrow, ← Bool.not_eq_true, updated_iff]
      rintro ⟨hnone, -⟩
      simp only at hnone
      rw [hnone] at hsome
      cases hsome

theorem setTimestamp_blockKey (row : StampedRow π) :
    (row.setTimestamp sources eligible).blockKey = row.blockKey := by
  unfold StampedRow.setTimestamp
  split_ifs <;> rfl

variable {table : OrdMap κ (StampedRow π)}

theorem updateTable_updateTable :
    updateTable sources eligible (updateTable sources eligible table)
      = updateTable sources eligible table := by
  apply OrdMap.ext_get?
  intro key
  simp only [updateTable, OrdMap.get?_mapValues, Option.map_map]
  congr 1
  funext row
  exact setTimestamp_of_not_updated (setTimestamp_not_updated row)

theorem rowsAffected_updateTable :
    rowsAffected sources eligible (updateTable sources eligible table) = 0 := by
  rw [rowsAffected, updateTable, OrdMap.values_mapValues, List.countP_eq_zero]
  intro row hrow
  obtain ⟨old, -, rfl⟩ := List.mem_map.mp hrow
  simp [setTimestamp_not_updated]

theorem updateTable_of_no_sources (hnone : ∀ block, sources block = none) :
    updateTable sources eligible table = table := by
  apply OrdMap.ext_get?
  intro key
  rw [updateTable, OrdMap.get?_mapValues]
  have hid : (StampedRow.setTimestamp sources eligible : StampedRow π → StampedRow π) = id := by
    funext row
    apply setTimestamp_of_not_updated
    simp [StampedRow.updated, hnone]
  rw [hid, Option.map_id_fun, id]

theorem stamps_subset_updateTable : stamps table ⊆ stamps (updateTable sources eligible table) := by
  rintro ⟨block, time⟩ ⟨row, hrow, hblock, htime⟩
  have hkept : row.setTimestamp sources eligible = row := by
    apply setTimestamp_of_not_updated
    simp [StampedRow.updated, htime]
  refine ⟨row, ?_, hblock, htime⟩
  rw [updateTable, OrdMap.values_mapValues]
  exact List.mem_map.mpr ⟨row, hrow, hkept⟩

theorem mem_stamps_updateTable {block : BlockKey} {time : Nat}
    (hmem : (block, time) ∈ stamps (updateTable sources eligible table)) :
    (block, time) ∈ stamps table ∨ sources block = some time := by
  obtain ⟨row, hrow, rfl, htime⟩ := hmem
  rw [updateTable, OrdMap.values_mapValues] at hrow
  obtain ⟨old, hold, rfl⟩ := List.mem_map.mp hrow
  rw [setTimestamp_blockKey]
  cases hupdated : old.updated sources eligible with
  | false =>
      rw [setTimestamp_of_not_updated hupdated] at htime
      exact .inl ⟨old, hold, rfl, htime⟩
  | true =>
      rw [setTimestamp_of_updated hupdated] at htime
      exact .inr htime

end Table

/-! ### Updates of all tables -/

section Updates

variable {sources : BlockKey → Option Nat} {tables : StampedTables} {startBlock endBlock : Nat}
  {table target : WalletScanTable} {order : List WalletScanTable}

theorem scanStamps_subset_setTimestamps (target table : WalletScanTable) :
    scanStamps tables table ⊆ scanStamps (setTimestamps sources tables target) table := by
  cases target <;> cases table <;> first | exact subset_rfl | exact stamps_subset_updateTable

theorem mem_scanStamps_setTimestamps {block : BlockKey} {time : Nat}
    (hmem : (block, time) ∈ scanStamps (setTimestamps sources tables target) table) :
    (block, time) ∈ scanStamps tables table ∨ sources block = some time := by
  cases target <;> cases table <;> first | exact .inl hmem | exact mem_stamps_updateTable hmem

theorem setTimestamps_publicTxidRows (tables : StampedTables) (target : WalletScanTable) :
    (setTimestamps sources tables target).publicTxidRows = tables.publicTxidRows := by
  cases target <;> rfl

theorem setTimestamps_publicTransactions (tables : StampedTables) (target : WalletScanTable) :
    (setTimestamps sources tables target).publicTransactions = tables.publicTransactions := by
  cases target <;> rfl

theorem timestampSources_setTimestamps (target : WalletScanTable) :
    timestampSources startBlock endBlock
        (setTimestamps (timestampSources startBlock endBlock tables) tables target)
      = timestampSources startBlock endBlock tables := by
  funext block
  apply Option.ext
  intro time
  rw [timestampSources_eq_some_iff, timestampSources_eq_some_iff,
    @agrees_iff_of_filled _ _ (localSources tables)]
  · rintro stamp (hread | ⟨table, htable⟩)
    · refine .inl ?_
      rwa [setTimestamps_publicTxidRows, setTimestamps_publicTransactions]
    · exact .inr ⟨table, scanStamps_subset_setTimestamps target table htable⟩
  · rintro block time (hread | ⟨table, htable⟩)
    · refine .inl (.inl ?_)
      rwa [setTimestamps_publicTxidRows, setTimestamps_publicTransactions] at hread
    · rcases mem_scanStamps_setTimestamps htable with hold | hfilled
      · exact .inl (.inr ⟨table, hold⟩)
      · exact .inr (timestampSources_eq_some_iff.mp hfilled).2.2

theorem setTimestamps_comm (tables : StampedTables) (first second : WalletScanTable) :
    setTimestamps sources (setTimestamps sources tables first) second
      = setTimestamps sources (setTimestamps sources tables second) first := by
  cases first <;> cases second <;> rfl

theorem affectedBy_setTimestamps (hne : table ≠ target) :
    affectedBy sources (setTimestamps sources tables target) table
      = affectedBy sources tables table := by
  cases target <;> cases table <;> first | rfl | exact absurd rfl hne

theorem saturatingAdd_comm (count left right : Nat) :
    saturatingAdd (saturatingAdd count left) right
      = saturatingAdd (saturatingAdd count right) left := by
  simp only [saturatingAdd]
  omega

theorem foldl_backfill (horder : order.Nodup) (updated : Nat)
    (hsources : timestampSources startBlock endBlock tables = sources) :
    order.foldl (backfillTable startBlock endBlock) (tables, updated)
      = (order.foldl (setTimestamps sources) tables,
        order.foldl (fun updated table => saturatingAdd updated (affectedBy sources tables table))
          updated) := by
  induction order generalizing tables updated with
  | nil => rfl
  | cons table rest ih =>
      obtain ⟨hfresh, hrest⟩ := List.nodup_cons.mp horder
      subst hsources
      simp only [List.foldl_cons, backfillTable]
      rw [ih hrest _ (timestampSources_setTimestamps table)]
      congr 1
      refine List.foldl_ext _ _ _ fun count other hother => ?_
      rw [affectedBy_setTimestamps (ne_of_mem_of_not_mem hother hfresh)]

theorem backfillTables_eq (horder : order.Perm WalletScanTable.all)
    (hsources : timestampSources startBlock endBlock tables = sources) :
    backfillTables startBlock endBlock order tables
      = (WalletScanTable.all.foldl (setTimestamps sources) tables,
        WalletScanTable.all.foldl
          (fun updated table => saturatingAdd updated (affectedBy sources tables table)) 0) := by
  have hnodup : order.Nodup := horder.nodup_iff.mpr (by decide)
  rw [backfillTables, foldl_backfill hnodup 0 hsources]
  congr 1
  · exact horder.foldl_eq' (fun first _ second _ tables => setTimestamps_comm tables first second) _
  · exact horder.foldl_eq' (fun first _ second _ count => saturatingAdd_comm count _ _) _

end Updates

/-! ### What a backfill leaves -/

section Completed

variable {κ π : Type} [LinearOrder κ]

/-- The row is as it was but for a null timestamp, which is set exactly where a wallet scans the row,
its block lies in the range and all timestamps of the block agree. -/
structure CompletedRow (seen : Set (BlockKey × Nat)) (eligible : π → Bool)
    (startBlock endBlock : Nat) (before after : StampedRow π) : Prop where
  blockKey_eq : after.blockKey = before.blockKey
  columns_eq : after.columns = before.columns
  kept : ∀ time, before.blockTimestamp = some time → after.blockTimestamp = some time
  filled : before.blockTimestamp = none → ∀ time, after.blockTimestamp = some time
    ↔ eligible before.columns = true ∧ startBlock ≤ before.blockNumber
      ∧ before.blockNumber ≤ endBlock ∧ Agrees seen before.blockKey time

structure CompletedTable (seen : Set (BlockKey × Nat)) (eligible : π → Bool)
    (startBlock endBlock : Nat) (before after : OrdMap κ (StampedRow π)) : Prop where
  keys : ∀ key, (after.get? key).isSome = (before.get? key).isSome
  rows : ∀ key row completed, before.get? key = some row → after.get? key = some completed →
    CompletedRow seen eligible startBlock endBlock row completed

/-- Five tables are completed from the timestamps there were, and two are left alone. -/
structure CompletedTables (startBlock endBlock : Nat) (before after : StampedTables) : Prop where
  transactCommitments : CompletedTable (localSources before) hasCiphertext startBlock endBlock
    before.transactCommitments after.transactCommitments
  shieldCommitments : CompletedTable (localSources before) everyRow startBlock endBlock
    before.shieldCommitments after.shieldCommitments
  nullifiers : CompletedTable (localSources before) everyRow startBlock endBlock
    before.nullifiers after.nullifiers
  legacyEncryptedCommitments : CompletedTable (localSources before) everyRow startBlock endBlock
    before.legacyEncryptedCommitments after.legacyEncryptedCommitments
  legacyGeneratedCommitments : CompletedTable (localSources before) everyRow startBlock endBlock
    before.legacyGeneratedCommitments after.legacyGeneratedCommitments
  publicTransactions_eq : after.publicTransactions = before.publicTransactions
  publicTxidRows_eq : after.publicTxidRows = before.publicTxidRows

variable {startBlock endBlock : Nat} {tables : StampedTables}

theorem completedRow_setTimestamp (eligible : π → Bool) (row : StampedRow π) :
    CompletedRow (localSources tables) eligible startBlock endBlock row
      (row.setTimestamp (timestampSources startBlock endBlock tables) eligible) := by
  refine ⟨setTimestamp_blockKey row, ?_, ?_, ?_⟩
  · unfold StampedRow.setTimestamp
    split_ifs <;> rfl
  · intro time htime
    rw [setTimestamp_of_not_updated (by simp [StampedRow.updated, htime]), htime]
  · intro hnone time
    have hsource := @timestampSources_eq_some_iff startBlock endBlock tables row.blockKey time
    cases hupdated : row.updated (timestampSources startBlock endBlock tables) eligible with
    | true =>
        obtain ⟨-, heligible, -⟩ := updated_iff.mp hupdated
        rw [setTimestamp_of_updated hupdated]
        exact hsource.trans (by simp [heligible, StampedRow.blockKey])
    | false =>
        rw [setTimestamp_of_not_updated hupdated, hnone]
        constructor
        · intro hsome
          cases hsome
        · rintro ⟨heligible, hagrees⟩
          have hsome := hsource.mpr hagrees
          simp [StampedRow.updated, hnone, heligible, hsome] at hupdated

theorem completedTable_updateTable (eligible : π → Bool) (table : OrdMap κ (StampedRow π)) :
    CompletedTable (localSources tables) eligible startBlock endBlock table
      (updateTable (timestampSources startBlock endBlock tables) eligible table) := by
  constructor
  · intro key
    rw [updateTable, OrdMap.get?_mapValues, Option.isSome_map]
  · intro key row completed hrow hcompleted
    rw [updateTable, OrdMap.get?_mapValues, hrow] at hcompleted
    cases hcompleted
    exact completedRow_setTimestamp eligible row

def backfilled (startBlock endBlock : Nat) (tables : StampedTables) : StampedTables :=
  WalletScanTable.all.foldl (setTimestamps (timestampSources startBlock endBlock tables)) tables

theorem completedTables_backfilled :
    CompletedTables startBlock endBlock tables (backfilled startBlock endBlock tables) where
  transactCommitments := completedTable_updateTable hasCiphertext tables.transactCommitments
  shieldCommitments := completedTable_updateTable everyRow tables.shieldCommitments
  nullifiers := completedTable_updateTable everyRow tables.nullifiers
  legacyEncryptedCommitments :=
    completedTable_updateTable everyRow tables.legacyEncryptedCommitments
  legacyGeneratedCommitments :=
    completedTable_updateTable everyRow tables.legacyGeneratedCommitments
  publicTransactions_eq := rfl
  publicTxidRows_eq := rfl

theorem timestampSources_backfilled :
    timestampSources startBlock endBlock (backfilled startBlock endBlock tables)
      = timestampSources startBlock endBlock tables := by
  unfold backfilled
  generalize hsources : timestampSources startBlock endBlock tables = sources
  induction WalletScanTable.all generalizing tables with
  | nil => exact hsources
  | cons table rest ih =>
      apply ih
      rw [← hsources]
      exact timestampSources_setTimestamps table

theorem setTimestamps_backfilled (table : WalletScanTable) :
    setTimestamps (timestampSources startBlock endBlock tables)
        (backfilled startBlock endBlock tables) table = backfilled startBlock endBlock tables := by
  cases table <;>
    simp only [backfilled, WalletScanTable.all, List.foldl_cons, List.foldl_nil, setTimestamps,
      updateTable_updateTable]

theorem affectedBy_backfilled (table : WalletScanTable) :
    affectedBy (timestampSources startBlock endBlock tables)
      (backfilled startBlock endBlock tables) table = 0 := by
  cases table <;> exact rowsAffected_updateTable

theorem backfillTables_backfilled :
    backfillTables startBlock endBlock WalletScanTable.all (backfilled startBlock endBlock tables)
      = (backfilled startBlock endBlock tables, 0) := by
  rw [backfillTables_eq (List.Perm.refl _) timestampSources_backfilled]
  simp only [WalletScanTable.all, List.foldl_cons, List.foldl_nil, setTimestamps_backfilled,
    affectedBy_backfilled]
  rfl

theorem backfilled_of_lt (hempty : endBlock < startBlock) :
    backfilled startBlock endBlock tables = tables := by
  have hnone : ∀ block, timestampSources startBlock endBlock tables block = none :=
    timestampSources_eq_none_of_lt hempty
  simp only [backfilled, WalletScanTable.all, List.foldl_cons, List.foldl_nil, setTimestamps,
    updateTable_of_no_sources hnone]

end Completed

/-! ### The backfill as a whole -/

section Backfill

variable {order : List WalletScanTable} {key : ContractKey} {startBlock endBlock : Nat}
  {store after : ContractKey → StampedTables} {updated : Nat}

def backfilledRows (startBlock endBlock : Nat) (tables : StampedTables) : Nat :=
  WalletScanTable.all.foldl (fun updated table =>
    saturatingAdd updated (affectedBy (timestampSources startBlock endBlock tables) tables table)) 0

theorem backfillInOrder_of_lt (hempty : endBlock < startBlock) :
    backfillInOrder order key startBlock endBlock store = .ok (store, 0) := by
  rw [backfillInOrder, if_pos hempty]

theorem backfillInOrder_eq_ok_iff (horder : order.Perm WalletScanTable.all)
    (hrange : startBlock ≤ endBlock) :
    backfillInOrder order key startBlock endBlock store = .ok (after, updated)
      ↔ (key.chainId < i64Bound ∧ startBlock < i64Bound ∧ endBlock < i64Bound)
        ∧ after = Function.update store key (backfilled startBlock endBlock (store key))
        ∧ updated = backfilledRows startBlock endBlock (store key) := by
  rw [backfillInOrder, if_neg (by omega)]
  simp only [bind_eq_ok, u64ToI64_eq_ok, pure_eq_ok, Except.ok.injEq]
  constructor
  · rintro ⟨_, ⟨hchain, -⟩, _, ⟨hstart, rfl⟩, _, ⟨hend, rfl⟩, hresult⟩
    rw [backfillTables_eq horder rfl] at hresult
    obtain ⟨hafter, hupdated⟩ := Prod.mk.inj hresult
    exact ⟨⟨hchain, hstart, hend⟩, hafter.symm, hupdated.symm⟩
  · rintro ⟨⟨hchain, hstart, hend⟩, rfl, rfl⟩
    refine ⟨_, ⟨hchain, rfl⟩, _, ⟨hstart, rfl⟩, _, ⟨hend, rfl⟩, ?_⟩
    rw [backfillTables_eq horder rfl]
    rfl

theorem exists_backfill_iff :
    (∃ result, backfillWalletScanTimestampsFromLocalSources key startBlock endBlock store
        = .ok result)
      ↔ endBlock < startBlock
        ∨ key.chainId < i64Bound ∧ startBlock < i64Bound ∧ endBlock < i64Bound := by
  rcases Nat.lt_or_ge endBlock startBlock with hempty | hrange
  · exact ⟨fun _ => .inl hempty, fun _ => ⟨_, backfillInOrder_of_lt hempty⟩⟩
  · constructor
    · rintro ⟨⟨after, updated⟩, hok⟩
      exact .inr ((backfillInOrder_eq_ok_iff (List.Perm.refl _) hrange).mp hok).1
    · rintro (hempty | hfits)
      · omega
      · exact ⟨_, (backfillInOrder_eq_ok_iff (List.Perm.refl _) hrange).mpr ⟨hfits, rfl, rfl⟩⟩

theorem backfillInOrder_after (horder : order.Perm WalletScanTable.all)
    (hok : backfillInOrder order key startBlock endBlock store = .ok (after, updated)) :
    after = Function.update store key (backfilled startBlock endBlock (store key)) := by
  rcases Nat.lt_or_ge endBlock startBlock with hempty | hrange
  · rw [backfillInOrder_of_lt hempty] at hok
    cases hok
    rw [backfilled_of_lt hempty, Function.update_eq_self]
  · exact ((backfillInOrder_eq_ok_iff horder hrange).mp hok).2.1

theorem backfillInOrder_perm (horder : order.Perm WalletScanTable.all)
    (hok : backfillWalletScanTimestampsFromLocalSources key startBlock endBlock store
      = .ok (after, updated)) :
    backfillInOrder order key startBlock endBlock store = .ok (after, updated) := by
  unfold backfillWalletScanTimestampsFromLocalSources at hok
  rcases Nat.lt_or_ge endBlock startBlock with hempty | hrange
  · rwa [backfillInOrder_of_lt hempty] at hok ⊢
  · rw [backfillInOrder_eq_ok_iff horder hrange]
    exact (backfillInOrder_eq_ok_iff (List.Perm.refl _) hrange).mp hok

theorem backfill_again
    (hok : backfillWalletScanTimestampsFromLocalSources key startBlock endBlock store
      = .ok (after, updated)) :
    backfillWalletScanTimestampsFromLocalSources key startBlock endBlock after = .ok (after, 0) := by
  unfold backfillWalletScanTimestampsFromLocalSources at hok ⊢
  rcases Nat.lt_or_ge endBlock startBlock with hempty | hrange
  · exact backfillInOrder_of_lt hempty
  · obtain ⟨hfits, rfl, -⟩ := (backfillInOrder_eq_ok_iff (List.Perm.refl _) hrange).mp hok
    have hagain := @backfillTables_backfilled startBlock endBlock (store key)
    rw [backfillTables_eq (List.Perm.refl _) rfl] at hagain
    obtain ⟨htables, hrows⟩ := Prod.mk.inj hagain
    rw [backfillInOrder_eq_ok_iff (List.Perm.refl _) hrange]
    refine ⟨hfits, ?_, ?_⟩
    · rw [Function.update_self, Function.update_idem]
      exact congrArg _ htables.symm
    · rw [Function.update_self]
      exact hrows.symm

/-- **A backfill only completes, unambiguously and in one pass.** It returns for every range that fits
the columns. It touches no other contract, fills null timestamps alone and only with the one timestamp
all sources of the block agree on, comes out the same in every order of its updates, and finds nothing
to do a second time. -/
theorem backfill_completes_in_one_pass (key : ContractKey) (startBlock endBlock : Nat)
    (store : ContractKey → StampedTables) :
    ((∃ result, backfillWalletScanTimestampsFromLocalSources key startBlock endBlock store
        = .ok result)
      ↔ endBlock < startBlock
        ∨ key.chainId < i64Bound ∧ startBlock < i64Bound ∧ endBlock < i64Bound)
      ∧ ∀ after updated, backfillWalletScanTimestampsFromLocalSources key startBlock endBlock store
          = .ok (after, updated) →
        (∀ other, other ≠ key → after other = store other)
          ∧ CompletedTables startBlock endBlock (store key) (after key)
          ∧ (∀ order : List WalletScanTable, order.Perm WalletScanTable.all →
            backfillInOrder order key startBlock endBlock store = .ok (after, updated))
          ∧ backfillWalletScanTimestampsFromLocalSources key startBlock endBlock after
            = .ok (after, 0) := by
  refine ⟨exists_backfill_iff, ?_⟩
  intro after updated hok
  have hafter := backfillInOrder_after (List.Perm.refl _) hok
  refine ⟨?_, ?_, fun order horder => backfillInOrder_perm horder hok, backfill_again hok⟩
  · intro other hne
    rw [hafter, Function.update_of_ne hne]
  · rw [hafter, Function.update_self]
    exact completedTables_backfilled

def unstampedShield : StampedTables where
  shieldCommitments := OrdMap.empty.insert (toLex (0, 0)) ⟨5, 0, none, ⟨0, 0, ⟨0, [], []⟩⟩⟩
  nullifiers := OrdMap.empty.insert (toLex (0, 0)) ⟨5, 0, some 100, ⟨0, 1, ()⟩⟩

theorem backfill_completes_in_one_pass_shield :
    ∃ after, backfillWalletScanTimestampsFromLocalSources ⟨1, 0⟩ 0 10 (fun _ => unstampedShield)
        = .ok (after, 1)
      ∧ CompletedTables 0 10 unstampedShield (after ⟨1, 0⟩)
      ∧ backfillWalletScanTimestampsFromLocalSources ⟨1, 0⟩ 0 10 after = .ok (after, 0) := by
  have hcall : ∃ after,
      backfillWalletScanTimestampsFromLocalSources ⟨1, 0⟩ 0 10 (fun _ => unstampedShield)
        = .ok (after, 1) := by
    refine ⟨_, (backfillInOrder_eq_ok_iff (List.Perm.refl _) (by decide)).mpr
      ⟨by decide, rfl, by decide⟩⟩
  obtain ⟨after, hok⟩ := hcall
  obtain ⟨-, hcompleted, -, hagain⟩ :=
    (backfill_completes_in_one_pass ⟨1, 0⟩ 0 10 fun _ => unstampedShield).2 after 1 hok
  exact ⟨after, hok, hcompleted, hagain⟩

end Backfill

end RailgunIndexer
