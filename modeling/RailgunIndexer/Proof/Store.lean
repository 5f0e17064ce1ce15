import RailgunIndexer.Store
import RailgunIndexer.Lib.Fallible
import RailgunIndexer.Lib.Replay
import Mathlib.Order.MinMax

/-!
# What the statements of the store do

Persisting a batch merges its rows into seven tables. The outer transactions are merged by minima and
maxima, every other table keeps the newer row; both merges are associative and idempotent. Each
statement fails exactly when a number does not fit its column or a constraint of its table is broken.
-/

namespace RailgunIndexer

open Lib Fallible Replay

/-! ### The two merges -/

def keepNew {ν : Type} (_ new : ν) : ν := new

instance {ν : Type} : Std.Associative (keepNew : ν → ν → ν) := ⟨fun _ _ _ => rfl⟩

instance {ν : Type} : Std.IdempotentOp (keepNew : ν → ν → ν) := ⟨fun _ => rfl⟩

theorem keepsBlock_keepNew {ν : Type} {rowBlock : ν → Nat} : KeepsBlock rowBlock keepNew :=
  fun _ _ => .inr rfl

instance : Std.Associative mergeSourceRow :=
  ⟨fun left middle right => by simp [mergeSourceRow, min_assoc, max_assoc]⟩

instance : Std.IdempotentOp mergeSourceRow := ⟨fun row => by simp [mergeSourceRow]⟩

theorem keepsBlock_mergeSourceRow : KeepsBlock PublicTransactionRow.blockNumber mergeSourceRow :=
  fun found new => min_choice found.blockNumber new.blockNumber

theorem insert_eq_mergeEntries {κ ν : Type} [LinearOrder κ] (table : OrdMap κ ν) (key : κ)
    (row : ν) : table.insert key row = mergeEntries keepNew table [(key, row)] := by
  apply OrdMap.ext_get?
  intro target
  rw [OrdMap.get?_insert, get?_mergeEntries]
  by_cases hkey : key = target
  · rw [if_pos hkey, rowsAt, List.filter_cons_of_pos (by simpa using hkey)]
    cases table.get? target <;> rfl
  · rw [if_neg hkey, rowsAt, List.filter_cons_of_neg (by simpa using hkey)]
    rfl

theorem recordSourceTransaction_eq (table : PublicTransactions) (columns : SourceColumns) :
    recordSourceTransaction table columns
      = mergeEntries mergeSourceRow table [(columns.transactionHash, sourceRow columns)] := by
  change table.upsert _ _ = table.upsert _ _
  congr 1
  funext found
  cases found <;> rfl

/-! ### Rows of a batch -/

def columnsOf (source : IndexedLogSource) : SourceColumns where
  blockNumber := source.blockNumber
  blockTimestamp := source.blockTimestamp.getD 0
  blockHash := source.blockHash
  transactionHash := source.transactionHash
  logIndex := source.logIndex

theorem u64ToI64_eq_ok {value found : Nat} {field : String} :
    u64ToI64 value field = .ok found ↔ value < i64Bound ∧ found = value := by
  unfold u64ToI64
  split
  · rename_i hbound
    simp only [reduceCtorEq, false_iff, not_and]
    omega
  · rename_i hbound
    simp only [Except.ok.injEq]
    constructor
    · intro heq
      exact ⟨by omega, heq.symm⟩
    · intro heq
      exact heq.2.symm

theorem sourceColumns_eq_ok {source : IndexedLogSource} {columns : SourceColumns}
    (hok : sourceColumns source = .ok columns) : columns = columnsOf source := by
  obtain ⟨blockNumber, hnumber, hnext⟩ := bind_eq_ok.mp hok
  obtain ⟨blockTimestamp, htimestamp, hnext⟩ := bind_eq_ok.mp hnext
  obtain ⟨logIndex, hindex, heq⟩ := bind_eq_ok.mp hnext
  cases heq
  obtain ⟨-, rfl⟩ := u64ToI64_eq_ok.mp hnumber
  obtain ⟨-, rfl⟩ := u64ToI64_eq_ok.mp hindex
  unfold sourceBlockTimestamp at htimestamp
  split at htimestamp
  · cases htimestamp
  · rename_i timestamp hsome
    obtain ⟨-, rfl⟩ := u64ToI64_eq_ok.mp htimestamp
    simp [columnsOf, hsome]

def sourceEntry (source : IndexedLogSource) : Bytes32 × PublicTransactionRow :=
  (source.transactionHash, sourceRow (columnsOf source))

def ItemFits {ω κ : Type} (source : ω → IndexedLogSource) (key : ω → Except StoreError κ)
    (item : ω) : Prop :=
  (∃ columns, sourceColumns (source item) = .ok columns) ∧ ∃ found, key item = .ok found

theorem persistItems_eq_ok {ω κ π : Type} [LinearOrder κ] {source : ω → IndexedLogSource}
    {key : ω → Except StoreError κ} {keyOf : ω → κ} {columns : ω → π}
    (hkey : ∀ item found, key item = .ok found → found = keyOf item) {items : List ω}
    {publicTransactions : PublicTransactions} {table : OrdMap κ (IndexedRow π)}
    {result : PublicTransactions × OrdMap κ (IndexedRow π)} :
    persistItems source key columns items publicTransactions table = .ok result
      ↔ (∀ item ∈ items, ItemFits source key item)
        ∧ result = (mergeEntries mergeSourceRow publicTransactions
            (items.map fun item => sourceEntry (source item)),
          mergeEntries keepNew table
            (items.map fun item => (keyOf item, ⟨columnsOf (source item), columns item⟩))) := by
  unfold persistItems
  induction items generalizing publicTransactions table with
  | nil =>
      simp only [List.foldlM_nil, pure_eq_ok, Except.ok.injEq, List.not_mem_nil, false_implies,
        implies_true, List.map_nil, true_and]
      exact eq_comm
  | cons item rest ih =>
      rw [List.foldlM_cons, List.forall_mem_cons, List.map_cons, List.map_cons]
      constructor
      · intro hrun
        obtain ⟨⟨middle, found⟩, hfirst, hrest⟩ := bind_eq_ok.mp hrun
        obtain ⟨sourceFound, hsource, hfirst⟩ := bind_eq_ok.mp hfirst
        obtain ⟨keyFound, hkeyFound, heq⟩ := bind_eq_ok.mp hfirst
        cases heq
        obtain rfl := sourceColumns_eq_ok hsource
        obtain rfl := hkey item keyFound hkeyFound
        obtain ⟨hfits, rfl⟩ := ih.mp hrest
        refine ⟨⟨⟨⟨_, hsource⟩, _, hkeyFound⟩, hfits⟩, ?_⟩
        rw [recordSourceTransaction_eq, insert_eq_mergeEntries, ← mergeEntries_append,
          ← mergeEntries_append]
        rfl
      · rintro ⟨⟨⟨⟨sourceFound, hsource⟩, keyFound, hkeyFound⟩, hfits⟩, rfl⟩
        obtain rfl := sourceColumns_eq_ok hsource
        obtain rfl := hkey item keyFound hkeyFound
        simp only [hsource, hkeyFound, ok_bind, pure_eq_ok]
        refine ih.mpr ⟨hfits, ?_⟩
        rw [recordSourceTransaction_eq, insert_eq_mergeEntries, ← mergeEntries_append,
          ← mergeEntries_append]
        rfl

def txidEntryOf (item : IndexedPublicTransaction) : (Bytes32 ×ₗ Nat) × PublicTxidRow :=
  (toLex (item.source.transactionHash, item.railgunTransactionIndex),
    { blockNumber := item.source.blockNumber
      blockTimestamp := item.blockTimestamp
      blockHash := item.source.blockHash
      firstLogIndex := item.firstLogIndex
      lastLogIndex := item.lastLogIndex
      rowId := item.id
      nullifiers := item.nullifiers
      commitments := item.commitments
      boundParamsHash := item.boundParamsHash
      hasUnshield := item.hasUnshield
      unshieldPreimage := item.unshieldPreimage
      utxoTreeIn := item.utxoTreeIn
      utxoTreeOut := item.utxoTreeOut
      utxoBatchStartPositionOut := item.utxoBatchStartPositionOut })

theorem publicTxidEntry_eq_ok {item : IndexedPublicTransaction}
    {entry : (Bytes32 ×ₗ Nat) × PublicTxidRow} (hok : publicTxidEntry item = .ok entry) :
    entry = txidEntryOf item := by
  unfold publicTxidEntry at hok
  simp only [bind_eq_ok, u64ToI64_eq_ok] at hok
  obtain ⟨_, ⟨-, rfl⟩, _, ⟨-, rfl⟩, _, ⟨-, rfl⟩, _, ⟨-, rfl⟩, _, ⟨-, rfl⟩, _, ⟨-, rfl⟩, _, ⟨-, rfl⟩,
    _, ⟨-, rfl⟩, hok⟩ := hok
  split at hok
  · exact (Except.ok.inj hok).symm
  · cases hok

theorem persistPublicTransactions_eq_ok {items : List IndexedPublicTransaction}
    {table result : OrdMap (Bytes32 ×ₗ Nat) PublicTxidRow} :
    persistPublicTransactions items table = .ok result
      ↔ (∀ item ∈ items, ∃ entry, publicTxidEntry item = .ok entry)
        ∧ result = mergeEntries keepNew table (items.map txidEntryOf) := by
  unfold persistPublicTransactions
  induction items generalizing table with
  | nil =>
      simp only [List.foldlM_nil, pure_eq_ok, Except.ok.injEq, List.not_mem_nil, false_implies,
        implies_true, List.map_nil, true_and]
      exact eq_comm
  | cons item rest ih =>
      rw [List.foldlM_cons, List.forall_mem_cons, List.map_cons]
      constructor
      · intro hrun
        obtain ⟨middle, hfirst, hrest⟩ := bind_eq_ok.mp hrun
        obtain ⟨entry, hentry, heq⟩ := bind_eq_ok.mp hfirst
        cases heq
        obtain rfl := publicTxidEntry_eq_ok hentry
        obtain ⟨hfits, rfl⟩ := ih.mp hrest
        refine ⟨⟨⟨_, hentry⟩, hfits⟩, ?_⟩
        rw [insert_eq_mergeEntries, ← mergeEntries_append]
        rfl
      · rintro ⟨⟨⟨entry, hentry⟩, hfits⟩, rfl⟩
        obtain rfl := publicTxidEntry_eq_ok hentry
        simp only [hentry, ok_bind, pure_eq_ok]
        refine ih.mpr ⟨hfits, ?_⟩
        rw [insert_eq_mergeEntries, ← mergeEntries_append]
        rfl

/-! ### Persisting a batch -/

section Batch

def rowEntries {ω κ π : Type} (source : ω → IndexedLogSource) (keyOf : ω → κ) (columns : ω → π)
    (items : List ω) : List (κ × IndexedRow π) :=
  items.map fun item => (keyOf item, ⟨columnsOf (source item), columns item⟩)

def transactEntries (batch : IndexedLogBatch) : List (TreeKey × IndexedRow TransactColumns) :=
  rowEntries (fun item => item.source) (fun item => toLex (item.treeNumber, item.treePosition))
    (fun item => ⟨item.hash, item.ciphertext⟩) batch.transactCommitments

def shieldEntries (contracts : Contracts) (batch : IndexedLogBatch) :
    List (TreeKey × IndexedRow ShieldColumns) :=
  rowEntries (fun item => item.source) (fun item => toLex (item.treeNumber, item.treePosition))
    (fun item => ⟨contracts.preimageHash item.preimage, contracts.encodePreimage item.preimage,
      item.shieldCiphertext⟩) batch.shieldCommitments

def nullifierEntries (batch : IndexedLogBatch) : List ((Nat ×ₗ Bytes32) × IndexedRow Unit) :=
  rowEntries (fun item => item.source) (fun item => toLex (item.treeNumber, item.nullifier))
    (fun _ => ()) batch.nullifiers

def legacyEncryptedEntries (batch : IndexedLogBatch) :
    List (TreeKey × IndexedRow LegacyEncryptedColumns) :=
  rowEntries (fun item => item.source) (fun item => toLex (item.treeNumber, item.treePosition))
    (fun item => ⟨item.hash, item.ciphertext⟩) batch.legacyEncryptedCommitments

def legacyGeneratedEntries (contracts : Contracts) (batch : IndexedLogBatch) :
    List (TreeKey × IndexedRow LegacyGeneratedColumns) :=
  rowEntries (fun item => item.source) (fun item => toLex (item.treeNumber, item.treePosition))
    (fun item => ⟨contracts.legacyPreimageHash item.preimage, item.preimage.abi,
      item.encryptedRandom⟩) batch.legacyGeneratedCommitments

def txidEntries (batch : IndexedLogBatch) : List ((Bytes32 ×ₗ Nat) × PublicTxidRow) :=
  batch.publicTransactions.map txidEntryOf

def IndexedTables.merge (contracts : Contracts) (tables : IndexedTables) (batch : IndexedLogBatch) :
    IndexedTables where
  transactCommitments := mergeEntries keepNew tables.transactCommitments (transactEntries batch)
  shieldCommitments :=
    mergeEntries keepNew tables.shieldCommitments (shieldEntries contracts batch)
  nullifiers := mergeEntries keepNew tables.nullifiers (nullifierEntries batch)
  legacyEncryptedCommitments :=
    mergeEntries keepNew tables.legacyEncryptedCommitments (legacyEncryptedEntries batch)
  legacyGeneratedCommitments :=
    mergeEntries keepNew tables.legacyGeneratedCommitments (legacyGeneratedEntries contracts batch)
  publicTransactions :=
    mergeEntries mergeSourceRow tables.publicTransactions ((logSources batch).map sourceEntry)
  publicTxidRows := mergeEntries keepNew tables.publicTxidRows (txidEntries batch)

structure BatchFits (batch : IndexedLogBatch) : Prop where
  transact : ∀ item ∈ batch.transactCommitments, ItemFits (fun item => item.source)
    (fun item => treeKey item.treeNumber item.treePosition) item
  shield : ∀ item ∈ batch.shieldCommitments, ItemFits (fun item => item.source)
    (fun item => treeKey item.treeNumber item.treePosition) item
  nullifier : ∀ item ∈ batch.nullifiers, ItemFits (fun item => item.source)
    (fun item => .ok (toLex (item.treeNumber, item.nullifier))) item
  legacyEncrypted : ∀ item ∈ batch.legacyEncryptedCommitments, ItemFits (fun item => item.source)
    (fun item => treeKey item.treeNumber item.treePosition) item
  legacyGenerated : ∀ item ∈ batch.legacyGeneratedCommitments, ItemFits (fun item => item.source)
    (fun item => treeKey item.treeNumber item.treePosition) item
  txid : ∀ item ∈ batch.publicTransactions, ∃ entry, publicTxidEntry item = .ok entry

theorem treeKey_eq_ok {treeNumber treePosition : Nat} {key : TreeKey}
    (hok : treeKey treeNumber treePosition = .ok key) : key = toLex (treeNumber, treePosition) := by
  obtain ⟨position, hposition, heq⟩ := bind_eq_ok.mp hok
  obtain ⟨-, rfl⟩ := u64ToI64_eq_ok.mp hposition
  exact (Except.ok.inj heq).symm

theorem mergeEntries_logSources (table : PublicTransactions) (batch : IndexedLogBatch) :
    mergeEntries mergeSourceRow table ((logSources batch).map sourceEntry)
      = mergeEntries mergeSourceRow (mergeEntries mergeSourceRow (mergeEntries mergeSourceRow
          (mergeEntries mergeSourceRow (mergeEntries mergeSourceRow table
            (batch.transactCommitments.map fun item => sourceEntry item.source))
            (batch.shieldCommitments.map fun item => sourceEntry item.source))
            (batch.nullifiers.map fun item => sourceEntry item.source))
            (batch.legacyEncryptedCommitments.map fun item => sourceEntry item.source))
            (batch.legacyGeneratedCommitments.map fun item => sourceEntry item.source) := by
  simp only [logSources, List.map_append, List.map_map, mergeEntries_append, Function.comp_def]

theorem persistTables_eq_ok {contracts : Contracts} {batch : IndexedLogBatch}
    {tables after : IndexedTables} :
    persistTables contracts batch tables = .ok after
      ↔ BatchFits batch ∧ after = tables.merge contracts batch := by
  have hsources := mergeEntries_logSources tables.publicTransactions batch
  constructor
  · intro hok
    obtain ⟨⟨_, _⟩, htransact, hok⟩ := bind_eq_ok.mp hok
    obtain ⟨⟨_, _⟩, hshield, hok⟩ := bind_eq_ok.mp hok
    obtain ⟨⟨_, _⟩, hnullifiers, hok⟩ := bind_eq_ok.mp hok
    obtain ⟨⟨_, _⟩, hencrypted, hok⟩ := bind_eq_ok.mp hok
    obtain ⟨⟨_, _⟩, hgenerated, hok⟩ := bind_eq_ok.mp hok
    obtain ⟨_, hrows, hok⟩ := bind_eq_ok.mp hok
    obtain ⟨htransactFits, heq⟩ := (persistItems_eq_ok fun _ _ => treeKey_eq_ok).mp htransact
    cases heq
    obtain ⟨hshieldFits, heq⟩ := (persistItems_eq_ok fun _ _ => treeKey_eq_ok).mp hshield
    cases heq
    obtain ⟨hnullifiersFits, heq⟩ :=
      (persistItems_eq_ok fun _ _ hkey => (Except.ok.inj hkey).symm).mp hnullifiers
    cases heq
    obtain ⟨hencryptedFits, heq⟩ := (persistItems_eq_ok fun _ _ => treeKey_eq_ok).mp hencrypted
    cases heq
    obtain ⟨hgeneratedFits, heq⟩ := (persistItems_eq_ok fun _ _ => treeKey_eq_ok).mp hgenerated
    cases heq
    obtain ⟨htxids, rfl⟩ := persistPublicTransactions_eq_ok.mp hrows
    refine ⟨⟨htransactFits, hshieldFits, hnullifiersFits, hencryptedFits, hgeneratedFits, htxids⟩,
      ?_⟩
    rw [← Except.ok.inj hok, IndexedTables.merge, hsources]
    rfl
  · rintro ⟨hfits, rfl⟩
    refine bind_eq_ok.mpr ⟨_, (persistItems_eq_ok fun _ _ => treeKey_eq_ok).mpr
      ⟨hfits.transact, rfl⟩, ?_⟩
    refine bind_eq_ok.mpr ⟨_, (persistItems_eq_ok fun _ _ => treeKey_eq_ok).mpr
      ⟨hfits.shield, rfl⟩, ?_⟩
    refine bind_eq_ok.mpr ⟨_, (persistItems_eq_ok fun _ _ hkey => (Except.ok.inj hkey).symm).mpr
      ⟨hfits.nullifier, rfl⟩, ?_⟩
    refine bind_eq_ok.mpr ⟨_, (persistItems_eq_ok fun _ _ => treeKey_eq_ok).mpr
      ⟨hfits.legacyEncrypted, rfl⟩, ?_⟩
    refine bind_eq_ok.mpr ⟨_, (persistItems_eq_ok fun _ _ => treeKey_eq_ok).mpr
      ⟨hfits.legacyGenerated, rfl⟩, ?_⟩
    refine bind_eq_ok.mpr ⟨_, persistPublicTransactions_eq_ok.mpr ⟨hfits.txid, rfl⟩, ?_⟩
    rw [IndexedTables.merge, hsources]
    rfl

theorem persistIndexedLogBatch_eq_ok {contracts : Contracts} {key : ContractKey}
    {batch : IndexedLogBatch} {store after : Store} :
    persistIndexedLogBatch contracts key batch store = .ok after
      ↔ key.chainId < i64Bound ∧ BatchFits batch
        ∧ after = { store with
            indexed := Function.update store.indexed key
              ((store.indexed key).merge contracts batch) } := by
  constructor
  · intro hok
    obtain ⟨_, hchain, hok⟩ := bind_eq_ok.mp hok
    obtain ⟨tables, htables, heq⟩ := bind_eq_ok.mp hok
    obtain ⟨hfits, rfl⟩ := persistTables_eq_ok.mp htables
    exact ⟨(u64ToI64_eq_ok.mp hchain).1, hfits, (Except.ok.inj heq).symm⟩
  · rintro ⟨hchain, hfits, rfl⟩
    refine bind_eq_ok.mpr ⟨_, u64ToI64_eq_ok.mpr ⟨hchain, rfl⟩, ?_⟩
    exact bind_eq_ok.mpr ⟨_, persistTables_eq_ok.mpr ⟨hfits, rfl⟩, rfl⟩

end Batch

/-! ### Headers, progress and rewinding -/

theorem recordIndexedBlockHeader_eq_ok {chainId blockNumber : Nat} {header : HeaderRow}
    {store after : Store} :
    recordIndexedBlockHeader chainId blockNumber header store = .ok after
      ↔ chainId < i64Bound ∧ blockNumber < i64Bound
        ∧ ((store.headers chainId).Forall fun number found =>
            found.blockHash = header.blockHash → number = blockNumber)
        ∧ after = { store with
            headers := Function.update store.headers chainId
              ((store.headers chainId).insert blockNumber header) } := by
  have hconflict : ((store.headers chainId).entries.any fun entry =>
      entry.1 != blockNumber && entry.2.blockHash == header.blockHash) = false
        ↔ (store.headers chainId).Forall fun number found =>
          found.blockHash = header.blockHash → number = blockNumber := by
    simp only [List.any_eq_false, Bool.and_eq_true, bne_iff_ne, beq_iff_eq, not_and, Prod.forall,
      OrdMap.Forall, OrdMap.get?_eq_some_iff]
    refine forall_congr' fun number => forall_congr' fun found => forall_congr' fun _ => ?_
    exact ⟨fun h heq => Decidable.byContradiction fun hne => h hne heq, fun h hne heq => hne (h heq)⟩
  simp only [recordIndexedBlockHeader, bind_eq_ok, u64ToI64_eq_ok]
  constructor
  · rintro ⟨_, ⟨hchain, rfl⟩, _, ⟨hblock, rfl⟩, hok⟩
    split at hok
    · cases hok
    · rename_i hclear
      exact ⟨hchain, hblock, hconflict.mp (by simpa using hclear), (Except.ok.inj hok).symm⟩
  · rintro ⟨hchain, hblock, hclear, rfl⟩
    refine ⟨_, ⟨hchain, rfl⟩, _, ⟨hblock, rfl⟩, ?_⟩
    rw [if_neg (by rw [hconflict.mpr hclear]; exact Bool.false_ne_true)]
    rfl

theorem recordChainIndexingProgress_eq_ok {key : ContractKey} {kind : DatasetKind}
    {new : ChainIndexingProgress} {store after : Store} :
    recordChainIndexingProgress key kind new store = .ok after
      ↔ key.chainId < i64Bound ∧ new.indexedThroughBlock < i64Bound
        ∧ after = { store with
            progress := Function.update store.progress key (Function.update (store.progress key)
              kind (some (advanceProgress new (store.progress key kind)))) } := by
  simp only [recordChainIndexingProgress, bind_eq_ok, u64ToI64_eq_ok]
  constructor
  · rintro ⟨_, ⟨hchain, -⟩, _, ⟨hblock, -⟩, heq⟩
    exact ⟨hchain, hblock, (Except.ok.inj heq).symm⟩
  · rintro ⟨hchain, hblock, rfl⟩
    exact ⟨_, ⟨hchain, rfl⟩, _, ⟨hblock, rfl⟩, rfl⟩

theorem rewindChainIndexingToReplayBlock_eq_ok {key : ContractKey} {replayFromBlock : Nat}
    {store after : Store} :
    (∃ counts, rewindChainIndexingToReplayBlock key replayFromBlock store = .ok (after, counts))
      ↔ key.chainId < i64Bound ∧ replayFromBlock < i64Bound
        ∧ after =
          { indexed := Function.update store.indexed key
              ((store.indexed key).deleteFrom replayFromBlock)
            headers := Function.update store.headers key.chainId
              ((store.headers key.chainId).filter fun number _ => number < replayFromBlock)
            progress := Function.update store.progress key fun kind =>
              rewindProgress replayFromBlock
                (previousProgress (store.headers key.chainId) replayFromBlock)
                (store.progress key kind) } := by
  simp only [rewindChainIndexingToReplayBlock, bind_eq_ok, u64ToI64_eq_ok]
  constructor
  · rintro ⟨counts, _, ⟨hchain, -⟩, _, ⟨hblock, rfl⟩, heq⟩
    exact ⟨hchain, hblock, (Prod.mk.inj (Except.ok.inj heq)).1.symm⟩
  · rintro ⟨hchain, hblock, rfl⟩
    exact ⟨_, _, ⟨hchain, rfl⟩, _, ⟨hblock, rfl⟩, rfl⟩

end RailgunIndexer
