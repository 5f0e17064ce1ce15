import RailgunIndexer.ChainIndexer
import RailgunIndexer.Proof.Hydrate
import RailgunIndexer.Proof.Ingest
import RailgunIndexer.Proof.LogFilter
import RailgunIndexer.Proof.Store

/-!
# Rows of a fetched range

A node that serves one chain gives rows of that chain only: every row of a fetched batch names a block
of the chain, inside the range. The commit of a batch merges its rows, stores the headers of the range
and advances the progress of all datasets together.
-/

namespace RailgunIndexer

open Lib Fallible Replay

/-! ### A remote chain -/

structure RemoteChain where
  header : Nat → HeaderRow
  blockOf : Bytes32 → Nat

def RemoteChain.hash (chain : RemoteChain) (number : Nat) : Bytes32 := (chain.header number).blockHash

structure RemoteChain.Holds (chain : RemoteChain) (source : IndexedLogSource) : Prop where
  hash_eq : source.blockHash = chain.hash source.blockNumber
  block_eq : chain.blockOf source.transactionHash = source.blockNumber

def ChainProvider.ServesHeaders (provider : ChainProvider) (chain : RemoteChain) : Prop :=
  ∀ number, provider.getBlockByNumber number = some (some (chain.header number))

def ChainProvider.ServesSources (provider : ChainProvider) (P : IndexedLogSource → Prop) : Prop :=
  ∀ filter logs, provider.getLogs filter = .ok logs → ∀ log ∈ logs, ∀ source,
    sourceFromLog log = .ok source → P source ∧ source.blockNumber ≤ filter.toBlock.toNat

def ChainProvider.ServesLogs (provider : ChainProvider) (chain : RemoteChain) : Prop :=
  provider.ServesSources chain.Holds

theorem RemoteChain.holds_of_timestamp {chain : RemoteChain} {source : IndexedLogSource}
    {timestamp : Option Nat} (hholds : chain.Holds { source with blockTimestamp := timestamp }) :
    chain.Holds source :=
  ⟨hholds.hash_eq, hholds.block_eq⟩

/-! ### Sources of a batch -/

section Sources

variable {contracts : Contracts} {provider : ChainProvider} {order : VisitingOrder}
  {range : ChainLogIndexingRange} {actionStartBlock : Option UInt64} {contract : Address}
  {fromBlock legacyShieldBlock v2StartBlock : UInt64} {P : IndexedLogSource → Prop}
  {after batch : IndexedLogBatch}

theorem toBlock_le_of_mem_filters {toBlock : UInt64} {filter : Filter}
    (hfilter : filter ∈ chainIndexLogFilters contract fromBlock toBlock v2StartBlock
      legacyShieldBlock actionStartBlock) : filter.toBlock ≤ toBlock := by
  have hmin : ∀ block, min toBlock block ≤ toBlock := fun block =>
    UInt64.le_iff_toNat_le.mpr ((toNat_min toBlock block).trans_le (Nat.min_le_left _ _))
  have haction : ∀ start, ∀ filter ∈ actionLogFilters contract toBlock start,
      filter.toBlock ≤ toBlock := by
    rintro (_ | start) filter hmem
    · cases hmem
    · rw [List.mem_singleton.mp hmem]
      exact UInt64.le_refl _
  unfold chainIndexLogFilters at hfilter
  split at hfilter
  · cases hfilter
  · split at hfilter
    · obtain rfl | hmem := List.mem_cons.mp hfilter
      · exact UInt64.le_refl _
      · exact haction _ filter hmem
    · simp only [splitLogFilters, List.mem_append, List.mem_ite_nil_right, List.mem_singleton]
        at hfilter
      obtain (((⟨-, rfl⟩ | ⟨-, (rfl | ⟨-, rfl⟩) | ⟨-, rfl⟩⟩) | rfl) | hmem) := hfilter
      · exact hmin v2StartBlock
      · exact UInt64.le_refl _
      · exact hmin legacyShieldBlock
      · exact UInt64.le_refl _
      · exact UInt64.le_refl _
      · exact haction _ filter hmem

theorem fetchChainIndexLogs_sources (hserves : provider.ServesSources P) {toBlock : UInt64}
    {logs : List Log}
    (hok : fetchChainIndexLogs provider contract fromBlock toBlock v2StartBlock legacyShieldBlock
      actionStartBlock = .ok logs) {log : Log} (hlog : log ∈ logs) {source : IndexedLogSource}
    (hsource : sourceFromLog log = .ok source) : P source ∧ source.blockNumber ≤ toBlock.toNat := by
  obtain ⟨served, hserved, heq⟩ := bind_eq_ok.mp hok
  cases heq
  have hflat := (sortByKey_perm _ served.flatten).subset hlog
  obtain ⟨found, hfound, hmem⟩ := List.mem_flatten.mp hflat
  obtain ⟨filter, hfilter, hlogs⟩ := exists_of_forall₂_right (mapM_eq_ok_iff.mp hserved) hfound
  obtain ⟨hsatisfied, hbound⟩ := hserves filter found hlogs log hmem source hsource
  exact ⟨hsatisfied, hbound.trans (UInt64.le_iff_toNat_le.mp (toBlock_le_of_mem_filters hfilter))⟩

theorem logSources_mapLogSources (change : IndexedLogSource → IndexedLogSource)
    (batch : IndexedLogBatch) :
    logSources (mapLogSources change batch) = (logSources batch).map change := by
  simp only [logSources, mapLogSources, List.map_append, List.map_map, Function.comp_def]

theorem hydrateIndexedLogSourceTimestamps_sources {provider : Provider}
    (hok : hydrateIndexedLogSourceTimestamps provider batch = .ok after) :
    (∀ source ∈ logSources after, ∃ found ∈ logSources batch,
        { source with blockTimestamp := found.blockTimestamp } = found)
      ∧ after.publicTransactions = batch.publicTransactions := by
  obtain ⟨timestamps, -, heq⟩ := bind_eq_ok.mp hok
  cases heq
  refine ⟨fun source hsource => ?_, rfl⟩
  rw [logSources_mapLogSources] at hsource
  obtain ⟨found, hfound, rfl⟩ := List.mem_map.mp hsource
  exact ⟨found, hfound, rfl⟩

theorem hydratePublicTransactions_sources {provider : Provider} {railgunContract : Address}
    {actionStartBlock : Option Nat} {summaries : List TransactOutputSummary}
    (horder : summaries.Perm (publicTransactionSummaries contracts batch).values)
    (hfresh : batch.publicTransactions = [])
    (hok : hydratePublicTransactions contracts provider railgunContract actionStartBlock summaries
      batch = .ok after) :
    ∀ source ∈ rowSources after, source ∈ logSources batch := by
  obtain ⟨parts, hperm, houtcomes⟩ := hydratePublicTransactions_eq_ok horder hok
  have hlogs : logSources after = logSources batch := by
    obtain ⟨state, -, heq⟩ := bind_eq_ok.mp hok
    cases heq
    rfl
  intro source hsource
  obtain hsource | hsource := mem_rowSources.mp hsource
  · rwa [← hlogs]
  · obtain ⟨row, hrow, rfl⟩ := List.mem_map.mp hsource
    rw [hperm.mem_iff, hfresh, List.nil_append, List.mem_flatten] at hrow
    obtain ⟨rows, hrows, hrow⟩ := hrow
    obtain ⟨summary, hsummary, houtcome⟩ := exists_of_forall₂_right houtcomes hrows
    rw [houtcome.sources row hrow]
    obtain ⟨hash, hget⟩ := OrdMap.mem_values_iff.mp (horder.subset hsummary)
    exact publicTransactionSummaries_sources (P := fun _ source => source ∈ logSources batch)
      (fun _ hmem => hmem) hash summary hget

/-- **A fetched batch is made of rows of served logs, inside the range.** Only timestamps are added to
the sources of the logs. -/
theorem fetchIndexedLogBatch_sources (hserves : provider.ServesSources P)
    (htimestamp : ∀ source timestamp, P { source with blockTimestamp := timestamp } → P source)
    {fetchedLogCount : Nat}
    (hok : fetchIndexedLogBatch contracts provider order range = .ok (fetchedLogCount, batch)) :
    ∀ source ∈ rowSources batch, P source ∧ source.blockNumber ≤ range.toBlock.toNat := by
  obtain ⟨logs, hlogs, hok⟩ := bind_eq_ok.mp hok
  obtain ⟨ingested, hingested, hok⟩ := bind_eq_ok.mp hok
  obtain ⟨timed, htimed, hok⟩ := bind_eq_ok.mp hok
  obtain ⟨hydrated, hhydrated, heq⟩ := bind_eq_ok.mp hok
  cases heq
  obtain ⟨hfromLogs, hnone⟩ := ingestChainLogs_sources hingested
  obtain ⟨htimestamps, hsame⟩ := hydrateIndexedLogSourceTimestamps_sources htimed
  intro source hsource
  have hmem := hydratePublicTransactions_sources (order.perm _) (hsame.trans hnone) hhydrated
    source hsource
  obtain ⟨found, hfound, heq⟩ := htimestamps source hmem
  obtain ⟨log, hlog, hread⟩ := hfromLogs found hfound
  obtain ⟨hsatisfied, hbound⟩ := fetchChainIndexLogs_sources hserves hlogs hlog hread
  rw [← heq] at hsatisfied hbound
  exact ⟨htimestamp source _ hsatisfied, hbound⟩

end Sources

/-! ### The commit of a batch -/

theorem recordAllProgress_eq_ok {key : ContractKey} {new : ChainIndexingProgress}
    {store after : Store} :
    DatasetKind.all.foldlM (fun store kind => recordChainIndexingProgress key kind new store) store
        = .ok after
      ↔ key.chainId < i64Bound ∧ new.indexedThroughBlock < i64Bound
        ∧ after = { store with
            progress := Function.update store.progress key fun kind =>
              some (advanceProgress new (store.progress key kind)) } := by
  have hall : ∀ found : DatasetKind → Option ChainIndexingProgress,
      Function.update (Function.update (Function.update (Function.update found .walletScan
        (some (advanceProgress new (found .walletScan)))) .commitments
        (some (advanceProgress new (found .commitments)))) .merkleCheckpoint
        (some (advanceProgress new (found .merkleCheckpoint)))) .publicTxid
        (some (advanceProgress new (found .publicTxid)))
      = fun kind => some (advanceProgress new (found kind)) := by
    intro found
    funext kind
    cases kind <;> simp [Function.update]
  simp only [DatasetKind.all, List.foldlM_cons, List.foldlM_nil, bind_eq_ok,
    recordChainIndexingProgress_eq_ok, pure_eq_ok]
  constructor
  · rintro ⟨_, ⟨hchain, hblock, rfl⟩, _, ⟨-, -, rfl⟩, _, ⟨-, -, rfl⟩, _, ⟨-, -, rfl⟩, heq⟩
    refine ⟨hchain, hblock, ?_⟩
    rw [← Except.ok.inj heq, ← hall (store.progress key)]
    simp [Function.update_idem, Function.update_of_ne]
  · rintro ⟨hchain, hblock, rfl⟩
    refine ⟨_, ⟨hchain, hblock, rfl⟩, _, ⟨hchain, hblock, rfl⟩, _, ⟨hchain, hblock, rfl⟩, _,
      ⟨hchain, hblock, rfl⟩, ?_⟩
    rw [← hall (store.progress key)]
    simp [Function.update_idem, Function.update_of_ne]

theorem commitRange_eq_ok {contracts : Contracts} {range : ChainLogIndexingRange}
    {header : ChainIndexedBlockHeader} (hheaders : range.indexedBlockHeaders = [header])
    {batch : IndexedLogBatch} {store after : Store}
    (hok : commitRange contracts range batch store = .ok after) :
    range.toBlock.toNat < i64Bound
      ∧ after =
        { indexed := Function.update store.indexed range.key
            ((store.indexed range.key).merge contracts batch)
          headers := Function.update store.headers range.chainId
            ((store.headers range.chainId).insert header.blockNumber
              ⟨header.blockHash, header.parentHash⟩)
          progress := Function.update store.progress range.key fun kind =>
            some (advanceProgress ⟨range.toBlock.toNat, range.indexedThroughBlockHash⟩
              (store.progress range.key kind)) } := by
  obtain ⟨persisted, hpersisted, hok⟩ := bind_eq_ok.mp hok
  obtain ⟨headed, hheaded, hok⟩ := bind_eq_ok.mp hok
  obtain ⟨-, -, rfl⟩ := persistIndexedLogBatch_eq_ok.mp hpersisted
  simp only [hheaders, List.foldlM_cons, List.foldlM_nil, bind_eq_ok, pure_eq_ok,
    Except.ok.injEq, exists_eq_right] at hheaded
  obtain ⟨-, -, -, rfl⟩ := recordIndexedBlockHeader_eq_ok.mp hheaded
  obtain ⟨-, hblock, rfl⟩ := recordAllProgress_eq_ok.mp hok
  exact ⟨hblock, rfl⟩

end RailgunIndexer
