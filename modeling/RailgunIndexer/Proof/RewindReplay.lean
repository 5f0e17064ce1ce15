import RailgunIndexer.Proof.Store

/-!
# Rewind and replay of indexed rows

A history is a list of blocks that share no key of any table. Its rows do not depend on how it is cut
into batches nor on repeated batches, and a rewind followed by a replay leaves the tables of the new
history.
-/

namespace RailgunIndexer

open Lib Fallible Replay

/-! ### Histories -/

structure Block where
  number : Nat
  logs : IndexedLogBatch
  owns : ∀ source ∈ rowSources logs, source.blockNumber = number

/-- No tree position, no nullifier of a tree and no transaction hash occurs in both blocks. -/
structure Block.Apart (left right : Block) : Prop where
  transact : ∀ item ∈ left.logs.transactCommitments, ∀ other ∈ right.logs.transactCommitments,
    (item.treeNumber, item.treePosition) ≠ (other.treeNumber, other.treePosition)
  shield : ∀ item ∈ left.logs.shieldCommitments, ∀ other ∈ right.logs.shieldCommitments,
    (item.treeNumber, item.treePosition) ≠ (other.treeNumber, other.treePosition)
  legacyEncrypted : ∀ item ∈ left.logs.legacyEncryptedCommitments,
    ∀ other ∈ right.logs.legacyEncryptedCommitments,
    (item.treeNumber, item.treePosition) ≠ (other.treeNumber, other.treePosition)
  legacyGenerated : ∀ item ∈ left.logs.legacyGeneratedCommitments,
    ∀ other ∈ right.logs.legacyGeneratedCommitments,
    (item.treeNumber, item.treePosition) ≠ (other.treeNumber, other.treePosition)
  nullifier : ∀ item ∈ left.logs.nullifiers, ∀ other ∈ right.logs.nullifiers,
    (item.treeNumber, item.nullifier) ≠ (other.treeNumber, other.nullifier)
  transactionHash : ∀ source ∈ rowSources left.logs, ∀ other ∈ rowSources right.logs,
    source.transactionHash ≠ other.transactionHash

structure History where
  blocks : List Block
  apart : blocks.Pairwise Block.Apart

def batchOf (blocks : List Block) : IndexedLogBatch where
  transactCommitments := blocks.flatMap fun block => block.logs.transactCommitments
  shieldCommitments := blocks.flatMap fun block => block.logs.shieldCommitments
  nullifiers := blocks.flatMap fun block => block.logs.nullifiers
  legacyEncryptedCommitments := blocks.flatMap fun block => block.logs.legacyEncryptedCommitments
  legacyGeneratedCommitments := blocks.flatMap fun block => block.logs.legacyGeneratedCommitments
  actions := blocks.flatMap fun block => block.logs.actions
  unshields := blocks.flatMap fun block => block.logs.unshields
  publicTransactions := blocks.flatMap fun block => block.logs.publicTransactions
  unshieldLogDerivations := (blocks.map fun block => block.logs.unshieldLogDerivations).sum
  unshieldLogDivergences := (blocks.map fun block => block.logs.unshieldLogDivergences).sum

def persistBatches (contracts : Contracts) (key : ContractKey) (batches : List (List Block × Nat))
    (store : Store) : Except StoreError Store :=
  (persisted batches).foldlM
    (fun store blocks => persistIndexedLogBatch contracts key (batchOf blocks) store) store

/-! ### The rows of blocks, table by table -/

def rowPasses {κ ν : Type} (rows : IndexedLogBatch → List (κ × ν)) : List (Block → List (κ × ν)) :=
  [fun block => rows block.logs]

def sourcePasses : List (Block → List (Bytes32 × PublicTransactionRow)) :=
  [fun block => block.logs.transactCommitments.map fun item => sourceEntry item.source,
    fun block => block.logs.shieldCommitments.map fun item => sourceEntry item.source,
    fun block => block.logs.nullifiers.map fun item => sourceEntry item.source,
    fun block => block.logs.legacyEncryptedCommitments.map fun item => sourceEntry item.source,
    fun block => block.logs.legacyGeneratedCommitments.map fun item => sourceEntry item.source]

def IndexedTables.mergeAll (contracts : Contracts) (tables : IndexedTables)
    (batches : List (List Block)) : IndexedTables where
  transactCommitments := mergeEntries keepNew tables.transactCommitments
    (batches.flatMap (entries (rowPasses transactEntries)))
  shieldCommitments := mergeEntries keepNew tables.shieldCommitments
    (batches.flatMap (entries (rowPasses (shieldEntries contracts))))
  nullifiers := mergeEntries keepNew tables.nullifiers
    (batches.flatMap (entries (rowPasses nullifierEntries)))
  legacyEncryptedCommitments := mergeEntries keepNew tables.legacyEncryptedCommitments
    (batches.flatMap (entries (rowPasses legacyEncryptedEntries)))
  legacyGeneratedCommitments := mergeEntries keepNew tables.legacyGeneratedCommitments
    (batches.flatMap (entries (rowPasses (legacyGeneratedEntries contracts))))
  publicTransactions := mergeEntries mergeSourceRow tables.publicTransactions
    (batches.flatMap (entries sourcePasses))
  publicTxidRows := mergeEntries keepNew tables.publicTxidRows
    (batches.flatMap (entries (rowPasses txidEntries)))

theorem IndexedTables.mergeAll_append (contracts : Contracts) (tables : IndexedTables)
    (left right : List (List Block)) :
    tables.mergeAll contracts (left ++ right)
      = (tables.mergeAll contracts left).mergeAll contracts right := by
  simp only [mergeAll, List.flatMap_append, mergeEntries_append]

theorem IndexedTables.merge_batchOf (contracts : Contracts) (tables : IndexedTables)
    (blocks : List Block) :
    tables.merge contracts (batchOf blocks) = tables.mergeAll contracts [blocks] := by
  simp only [merge, mergeAll, List.flatMap_cons, List.flatMap_nil, List.append_nil, entries,
    rowPasses, sourcePasses, transactEntries, shieldEntries, nullifierEntries,
    legacyEncryptedEntries, legacyGeneratedEntries, txidEntries, rowEntries, logSources, batchOf,
    List.map_append, List.map_flatMap, List.map_map, Function.comp_def, List.append_assoc]

theorem batchFits_batchOf {blocks : List Block} :
    BatchFits (batchOf blocks) ↔ ∀ block ∈ blocks, BatchFits block.logs := by
  constructor
  · intro hfits block hblock
    exact
      { transact := fun item hitem =>
          hfits.transact item (List.mem_flatMap.mpr ⟨block, hblock, hitem⟩)
        shield := fun item hitem =>
          hfits.shield item (List.mem_flatMap.mpr ⟨block, hblock, hitem⟩)
        nullifier := fun item hitem =>
          hfits.nullifier item (List.mem_flatMap.mpr ⟨block, hblock, hitem⟩)
        legacyEncrypted := fun item hitem =>
          hfits.legacyEncrypted item (List.mem_flatMap.mpr ⟨block, hblock, hitem⟩)
        legacyGenerated := fun item hitem =>
          hfits.legacyGenerated item (List.mem_flatMap.mpr ⟨block, hblock, hitem⟩)
        txid := fun item hitem =>
          hfits.txid item (List.mem_flatMap.mpr ⟨block, hblock, hitem⟩) }
  · intro hfits
    constructor
    all_goals
      intro item hitem
      obtain ⟨block, hblock, hmem⟩ := List.mem_flatMap.mp hitem
    · exact (hfits block hblock).transact item hmem
    · exact (hfits block hblock).shield item hmem
    · exact (hfits block hblock).nullifier item hmem
    · exact (hfits block hblock).legacyEncrypted item hmem
    · exact (hfits block hblock).legacyGenerated item hmem
    · exact (hfits block hblock).txid item hmem

/-! ### Runs of batches -/

section Runs

variable {contracts : Contracts} {key : ContractKey} {store after : Store}
  {batches : List (List Block × Nat)}

theorem foldlM_persist_eq_ok {batches : List (List Block)} (hrun : batches.foldlM
      (fun store blocks => persistIndexedLogBatch contracts key (batchOf blocks) store) store
      = .ok after) :
    (∀ blocks ∈ batches, ∀ block ∈ blocks, BatchFits block.logs)
      ∧ after.indexed key = (store.indexed key).mergeAll contracts batches := by
  induction batches generalizing store with
  | nil =>
      cases hrun
      exact ⟨by simp, rfl⟩
  | cons blocks rest ih =>
      obtain ⟨middle, hfirst, hrest⟩ := bind_eq_ok.mp hrun
      obtain ⟨-, hfits, rfl⟩ := persistIndexedLogBatch_eq_ok.mp hfirst
      obtain ⟨hrestFits, hafter⟩ := ih hrest
      refine ⟨List.forall_mem_cons.mpr ⟨batchFits_batchOf.mp hfits, hrestFits⟩, ?_⟩
      calc after.indexed key
          = (Function.update store.indexed key ((store.indexed key).merge contracts (batchOf blocks))
              key).mergeAll contracts rest := hafter
        _ = (store.indexed key).mergeAll contracts ([blocks] ++ rest) := by
            rw [Function.update_self, IndexedTables.merge_batchOf, IndexedTables.mergeAll_append]

theorem exists_foldlM_persist (hchain : key.chainId < i64Bound) {batches : List (List Block)}
    (hfits : ∀ blocks ∈ batches, ∀ block ∈ blocks, BatchFits block.logs) :
    ∃ after, batches.foldlM
      (fun store blocks => persistIndexedLogBatch contracts key (batchOf blocks) store) store
      = .ok after := by
  induction batches generalizing store with
  | nil => exact ⟨store, rfl⟩
  | cons blocks rest ih =>
      rw [List.forall_mem_cons] at hfits
      have hfirst := (@persistIndexedLogBatch_eq_ok contracts key (batchOf blocks) store _).mpr
        ⟨hchain, batchFits_batchOf.mpr hfits.1, rfl⟩
      obtain ⟨last, hlast⟩ := ih hfits.2
      exact ⟨last, by rw [List.foldlM_cons, hfirst, ok_bind, hlast]⟩

theorem fits_of_persistBatches (hrun : persistBatches contracts key batches store = .ok after) :
    ∀ block ∈ batches.flatMap Prod.fst, BatchFits block.logs := by
  intro block hblock
  obtain ⟨batch, hbatch, hmem⟩ := List.mem_flatMap.mp hblock
  refine (foldlM_persist_eq_ok hrun).1 batch.1 ?_ block hmem
  exact List.mem_flatMap.mpr ⟨batch, hbatch, List.mem_replicate.mpr ⟨by omega, rfl⟩⟩

theorem exists_persistBatches (hchain : key.chainId < i64Bound)
    (hfits : ∀ block ∈ batches.flatMap Prod.fst, BatchFits block.logs) :
    ∃ after, persistBatches contracts key batches store = .ok after := by
  refine exists_foldlM_persist hchain fun blocks hblocks block hblock => ?_
  obtain ⟨batch, hbatch, rfl⟩ := mem_of_mem_persisted hblocks
  exact hfits block (List.mem_flatMap.mpr ⟨batch, hbatch, hblock⟩)

theorem persistBatches_indexed (hchain : key.chainId < i64Bound) {tables : IndexedTables} :
    (persistBatches contracts key batches store).toOption.map (fun store => store.indexed key)
        = some tables
      ↔ (∀ block ∈ batches.flatMap Prod.fst, BatchFits block.logs)
        ∧ tables = (store.indexed key).mergeAll contracts (persisted batches) := by
  constructor
  · intro hsome
    obtain ⟨after, hafter, rfl⟩ := Option.map_eq_some_iff.mp hsome
    have hrun : persistBatches contracts key batches store = .ok after :=
      toOption_eq_some.mp hafter
    exact ⟨fits_of_persistBatches hrun, (foldlM_persist_eq_ok hrun).2⟩
  · rintro ⟨hfits, rfl⟩
    obtain ⟨after, hrun⟩ : ∃ after, persistBatches contracts key batches store = .ok after :=
      exists_persistBatches hchain hfits
    rw [hrun, ← (foldlM_persist_eq_ok hrun).2]
    rfl

end Runs

/-! ### Keys and blocks of the tables -/

section Keys

/-- The rows of these passes name the block they come from, and blocks that are apart share no key. -/
structure OwnedByBlocks {κ ν : Type} [LinearOrder κ] (rowBlock : ν → Nat)
    (passes : List (Block → List (κ × ν))) : Prop where
  owned : ∀ block, ∀ pass ∈ passes, ∀ entry ∈ pass block, rowBlock entry.2 = block.number
  apart : ∀ left right, Block.Apart left right → Replay.Apart passes left right

theorem ownedByBlocks_rowPasses {ω κ ν : Type} [LinearOrder κ] {rowBlock : ν → Nat}
    {items : IndexedLogBatch → List ω} {entryOf : ω → κ × ν} (source : ω → IndexedLogSource)
    (hblock : ∀ item, rowBlock (entryOf item).2 = (source item).blockNumber)
    (hsource : ∀ logs, ∀ item ∈ items logs, source item ∈ rowSources logs)
    (hkeys : ∀ left right, Block.Apart left right → ∀ item ∈ items left.logs,
      ∀ other ∈ items right.logs, (entryOf item).1 ≠ (entryOf other).1) :
    OwnedByBlocks rowBlock (rowPasses fun logs => (items logs).map entryOf) where
  owned := by
    intro block pass hpass entry hentry
    obtain rfl := List.mem_singleton.mp hpass
    obtain ⟨item, hitem, rfl⟩ := List.mem_map.mp hentry
    rw [hblock, block.owns _ (hsource block.logs item hitem)]
  apart := by
    intro left right hapart
    refine apart_of_keys_ne fun pass hpass entry hentry other hother found hfound => ?_
    obtain rfl := List.mem_singleton.mp hpass
    obtain rfl := List.mem_singleton.mp hother
    obtain ⟨item, hitem, rfl⟩ := List.mem_map.mp hentry
    obtain ⟨item', hitem', rfl⟩ := List.mem_map.mp hfound
    exact hkeys left right hapart item hitem item' hitem'

theorem forall_mem_rowSources (logs : IndexedLogBatch) :
    (∀ item ∈ logs.transactCommitments, item.source ∈ rowSources logs)
      ∧ (∀ item ∈ logs.shieldCommitments, item.source ∈ rowSources logs)
      ∧ (∀ item ∈ logs.nullifiers, item.source ∈ rowSources logs)
      ∧ (∀ item ∈ logs.legacyEncryptedCommitments, item.source ∈ rowSources logs)
      ∧ ∀ item ∈ logs.legacyGeneratedCommitments, item.source ∈ rowSources logs :=
  forall_mem_logSources.mp fun _ hmem => mem_rowSources.mpr (.inl hmem)

theorem mem_rowSources_txid (logs : IndexedLogBatch) :
    ∀ item ∈ logs.publicTransactions, item.source ∈ rowSources logs :=
  fun _ hitem => mem_rowSources.mpr (.inr (List.mem_map_of_mem hitem))

theorem ownedByBlocks_transactEntries :
    OwnedByBlocks IndexedRow.blockNumber (rowPasses transactEntries) :=
  ownedByBlocks_rowPasses (·.source) (fun _ => rfl) (fun logs => (forall_mem_rowSources logs).1)
    fun _ _ hapart item hitem other hother heq =>
      hapart.transact item hitem other hother (toLex.injective heq)

theorem ownedByBlocks_shieldEntries (contracts : Contracts) :
    OwnedByBlocks IndexedRow.blockNumber (rowPasses (shieldEntries contracts)) :=
  ownedByBlocks_rowPasses (·.source) (fun _ => rfl) (fun logs => (forall_mem_rowSources logs).2.1)
    fun _ _ hapart item hitem other hother heq =>
      hapart.shield item hitem other hother (toLex.injective heq)

theorem ownedByBlocks_nullifierEntries :
    OwnedByBlocks IndexedRow.blockNumber (rowPasses nullifierEntries) :=
  ownedByBlocks_rowPasses (·.source) (fun _ => rfl) (fun logs => (forall_mem_rowSources logs).2.2.1)
    fun _ _ hapart item hitem other hother heq =>
      hapart.nullifier item hitem other hother (toLex.injective heq)

theorem ownedByBlocks_legacyEncryptedEntries :
    OwnedByBlocks IndexedRow.blockNumber (rowPasses legacyEncryptedEntries) :=
  ownedByBlocks_rowPasses (·.source) (fun _ => rfl) (fun logs => (forall_mem_rowSources logs).2.2.2.1)
    fun _ _ hapart item hitem other hother heq =>
      hapart.legacyEncrypted item hitem other hother (toLex.injective heq)

theorem ownedByBlocks_legacyGeneratedEntries (contracts : Contracts) :
    OwnedByBlocks IndexedRow.blockNumber (rowPasses (legacyGeneratedEntries contracts)) :=
  ownedByBlocks_rowPasses (·.source) (fun _ => rfl) (fun logs => (forall_mem_rowSources logs).2.2.2.2)
    fun _ _ hapart item hitem other hother heq =>
      hapart.legacyGenerated item hitem other hother (toLex.injective heq)

theorem ownedByBlocks_txidEntries :
    OwnedByBlocks PublicTxidRow.blockNumber (rowPasses txidEntries) :=
  ownedByBlocks_rowPasses (·.source) (fun _ => rfl) mem_rowSources_txid
    fun _ _ hapart item hitem other hother heq =>
      hapart.transactionHash _ (mem_rowSources_txid _ item hitem) _ (mem_rowSources_txid _ other hother)
        (Prod.mk.inj (toLex.injective heq)).1

theorem exists_of_mem_sourcePasses {pass : Block → List (Bytes32 × PublicTransactionRow)}
    (hpass : pass ∈ sourcePasses) {block : Block} {entry : Bytes32 × PublicTransactionRow}
    (hentry : entry ∈ pass block) :
    ∃ source ∈ rowSources block.logs, sourceEntry source = entry := by
  obtain ⟨htransact, hshield, hnullifier, hencrypted, hgenerated⟩ := forall_mem_rowSources block.logs
  simp only [sourcePasses, List.mem_cons, List.not_mem_nil, or_false] at hpass
  rcases hpass with rfl | rfl | rfl | rfl | rfl <;> obtain ⟨item, hitem, heq⟩ := List.mem_map.mp hentry
  · exact ⟨_, htransact item hitem, heq⟩
  · exact ⟨_, hshield item hitem, heq⟩
  · exact ⟨_, hnullifier item hitem, heq⟩
  · exact ⟨_, hencrypted item hitem, heq⟩
  · exact ⟨_, hgenerated item hitem, heq⟩

theorem ownedByBlocks_sourcePasses :
    OwnedByBlocks PublicTransactionRow.blockNumber sourcePasses where
  owned := by
    intro block pass hpass entry hentry
    obtain ⟨source, hsource, rfl⟩ := exists_of_mem_sourcePasses hpass hentry
    exact block.owns source hsource
  apart := by
    intro left right hapart
    refine apart_of_keys_ne fun pass hpass entry hentry other hother found hfound => ?_
    obtain ⟨source, hsource, rfl⟩ := exists_of_mem_sourcePasses hpass hentry
    obtain ⟨source', hsource', rfl⟩ := exists_of_mem_sourcePasses hother hfound
    exact hapart.transactionHash source hsource source' hsource'

end Keys

/-! ### Rewind and replay -/

section Rewind

variable {contracts : Contracts} {key : ContractKey} {old new : History} {replayFromBlock : Nat}
  {stored replayed scratch : List (List Block × Nat)}

section

variable (hagree : old.blocks.filter (fun block => block.number < replayFromBlock)
    = new.blocks.filter fun block => block.number < replayFromBlock)
  (hstored : stored.flatMap Prod.fst = old.blocks)
  (hreplayed : replayed.flatMap Prod.fst
    = new.blocks.filter fun block => replayFromBlock ≤ block.number)
  (hscratch : scratch.flatMap Prod.fst = new.blocks)

include hagree hstored hreplayed hscratch

theorem table_rewind_replay {κ ν : Type} [LinearOrder κ] {op : ν → ν → ν} [Std.Associative op]
    [Std.IdempotentOp op] {rowBlock : ν → Nat} {passes : List (Block → List (κ × ν))}
    (hop : KeepsBlock rowBlock op) (howned : OwnedByBlocks rowBlock passes) :
    mergeEntries op (deleteFrom rowBlock replayFromBlock
        (mergeEntries op OrdMap.empty (persistedEntries passes stored)))
        (persistedEntries passes replayed)
      = mergeEntries op OrdMap.empty (persistedEntries passes scratch) :=
  rewind_replay hop (fun block _ => howned.owned block)
    (old.apart.imp fun hapart => howned.apart _ _ hapart)
    (new.apart.imp fun hapart => howned.apart _ _ hapart) hagree hstored hreplayed hscratch

theorem tables_rewind_replay :
    ((IndexedTables.mergeAll contracts {} (persisted stored)).deleteFrom
        replayFromBlock).mergeAll contracts (persisted replayed)
      = IndexedTables.mergeAll contracts {} (persisted scratch) := by
  have hnew : ∀ {κ ν : Type} [LinearOrder κ] {rowBlock : ν → Nat}
      {passes : List (Block → List (κ × ν))}, OwnedByBlocks rowBlock passes → _ :=
    table_rewind_replay hagree hstored hreplayed hscratch keepsBlock_keepNew
  simp only [IndexedTables.mergeAll, IndexedTables.deleteFrom, IndexedTables.mk.injEq]
  exact ⟨hnew ownedByBlocks_transactEntries, hnew (ownedByBlocks_shieldEntries contracts),
    hnew ownedByBlocks_nullifierEntries, hnew ownedByBlocks_legacyEncryptedEntries,
    hnew (ownedByBlocks_legacyGeneratedEntries contracts),
    table_rewind_replay hagree hstored hreplayed hscratch keepsBlock_mergeSourceRow
      ownedByBlocks_sourcePasses,
    hnew ownedByBlocks_txidEntries⟩

end

/-- **Rewind plus replay equals indexing the new chain from scratch.** Two histories agree below the
replayed block. Persist the batches of the old one into the empty store, rewind, and persist batches
that cover the new one from the replayed block on: the seven tables of the contract are those that
batches of the whole new history leave in the empty store, however the histories are cut and however
often a batch is repeated. -/
theorem rewound_replay_eq_scratch
    (hagree : old.blocks.filter (fun block => block.number < replayFromBlock)
      = new.blocks.filter fun block => block.number < replayFromBlock)
    (hstored : stored.flatMap Prod.fst = old.blocks)
    (hreplayed : replayed.flatMap Prod.fst
      = new.blocks.filter fun block => replayFromBlock ≤ block.number)
    (hscratch : scratch.flatMap Prod.fst = new.blocks) {indexed rewound : Store}
    {counts : ChainIndexingRewind}
    (hindexed : persistBatches contracts key stored {} = .ok indexed)
    (hrewound : rewindChainIndexingToReplayBlock key replayFromBlock indexed
      = .ok (rewound, counts)) :
    (persistBatches contracts key replayed rewound).toOption.map (fun store => store.indexed key)
      = (persistBatches contracts key scratch {}).toOption.map fun store => store.indexed key := by
  obtain ⟨hchain, -, heq⟩ := rewindChainIndexingToReplayBlock_eq_ok.mp ⟨counts, hrewound⟩
  have htables : rewound.indexed key
      = (IndexedTables.mergeAll contracts {} (persisted stored)).deleteFrom replayFromBlock := by
    rw [heq]
    refine (Function.update_self ..).trans ?_
    rw [(foldlM_persist_eq_ok hindexed).2]
  have hfits : (∀ block ∈ replayed.flatMap Prod.fst, BatchFits block.logs)
      ↔ ∀ block ∈ scratch.flatMap Prod.fst, BatchFits block.logs := by
    rw [hreplayed, hscratch]
    constructor
    · intro hfrom block hblock
      by_cases hbelow : block.number < replayFromBlock
      · have hold : block ∈ old.blocks.filter fun block => block.number < replayFromBlock := by
          rw [hagree]
          exact List.mem_filter.mpr ⟨hblock, by simpa using hbelow⟩
        exact fits_of_persistBatches hindexed block (hstored ▸ (List.mem_filter.mp hold).1)
      · exact hfrom block (List.mem_filter.mpr ⟨hblock, by simpa using hbelow⟩)
    · exact fun hall block hblock => hall block (List.mem_filter.mp hblock).1
  apply Option.ext
  intro tables
  rw [persistBatches_indexed hchain, persistBatches_indexed hchain, htables, hfits,
    tables_rewind_replay hagree hstored hreplayed hscratch]

end Rewind

def nullifierBlock (number : Nat) (nullifier transactionHash : Bytes32) : Block where
  number := number
  logs := { nullifiers := [⟨0, nullifier, ⟨number, some 0, 0, transactionHash, 0⟩⟩] }
  owns := by simp [rowSources, logSources]

theorem apart_nullifierBlock {number number' : Nat} {nullifier nullifier' hash hash' : Bytes32}
    (hnullifier : nullifier ≠ nullifier') (hhash : hash ≠ hash') :
    (nullifierBlock number nullifier hash).Apart (nullifierBlock number' nullifier' hash') where
  transact := by simp [nullifierBlock]
  shield := by simp [nullifierBlock]
  legacyEncrypted := by simp [nullifierBlock]
  legacyGenerated := by simp [nullifierBlock]
  nullifier := by simpa [nullifierBlock] using hnullifier
  transactionHash := by simpa [nullifierBlock, rowSources, logSources] using hhash

def forkHistory (transactionHash : Bytes32) (hne : 1 ≠ transactionHash) : History where
  blocks := [nullifierBlock 10 5 1, nullifierBlock 20 6 transactionHash]
  apart := List.pairwise_pair.mpr (apart_nullifierBlock (by decide) hne)

theorem rewound_replay_eq_scratch_fork :
    ∃ indexed rewound counts,
      persistBatches toyContracts ⟨1, 0⟩ [([nullifierBlock 10 5 1, nullifierBlock 20 6 2], 1)] {}
          = .ok indexed
        ∧ rewindChainIndexingToReplayBlock ⟨1, 0⟩ 20 indexed = .ok (rewound, counts)
        ∧ (persistBatches toyContracts ⟨1, 0⟩ [([nullifierBlock 20 6 3], 0)] rewound).toOption.map
            (fun store => store.indexed ⟨1, 0⟩)
          = (persistBatches toyContracts ⟨1, 0⟩
              [([nullifierBlock 10 5 1], 0), ([nullifierBlock 20 6 3], 2)] {}).toOption.map
            fun store => store.indexed ⟨1, 0⟩ :=
  ⟨_, _, _, rfl, rfl, @rewound_replay_eq_scratch toyContracts ⟨1, 0⟩ (forkHistory 2 (by decide))
    (forkHistory 3 (by decide)) 20 [([nullifierBlock 10 5 1, nullifierBlock 20 6 2], 1)]
    [([nullifierBlock 20 6 3], 0)] [([nullifierBlock 10 5 1], 0), ([nullifierBlock 20 6 3], 2)]
    rfl rfl rfl rfl _ _ _ rfl rfl⟩

end RailgunIndexer
