import RailgunIndexer.ChainIndexed
import RailgunIndexer.Proof.ChainIndexer

/-!
# Stores that follow one chain

Indexing ranges of one chain, for any contracts on it and in any order, leaves only rows, headers and
progress of that chain, and no row past the progress of its contract.
-/

namespace RailgunIndexer

open Lib Fallible Replay

/-! ### The rows of the seven tables -/

section Rows

/-- Every row of a contract satisfies the predicate, as a block number and a block hash. -/
structure IndexedTables.AllRows (P : Nat → Bytes32 → Prop) (tables : IndexedTables) : Prop where
  transact : tables.transactCommitments.Forall fun _ row =>
    P row.source.blockNumber row.source.blockHash
  shield : tables.shieldCommitments.Forall fun _ row =>
    P row.source.blockNumber row.source.blockHash
  nullifier : tables.nullifiers.Forall fun _ row =>
    P row.source.blockNumber row.source.blockHash
  legacyEncrypted : tables.legacyEncryptedCommitments.Forall fun _ row =>
    P row.source.blockNumber row.source.blockHash
  legacyGenerated : tables.legacyGeneratedCommitments.Forall fun _ row =>
    P row.source.blockNumber row.source.blockHash
  outer : tables.publicTransactions.Forall fun _ row => P row.blockNumber row.blockHash
  txid : tables.publicTxidRows.Forall fun _ row => P row.blockNumber row.blockHash

variable {P Q : Nat → Bytes32 → Prop} {tables : IndexedTables}

theorem IndexedTables.AllRows.imp (hrows : tables.AllRows P)
    (himp : ∀ number hash, P number hash → Q number hash) : tables.AllRows Q where
  transact key row hget := himp _ _ (hrows.transact key row hget)
  shield key row hget := himp _ _ (hrows.shield key row hget)
  nullifier key row hget := himp _ _ (hrows.nullifier key row hget)
  legacyEncrypted key row hget := himp _ _ (hrows.legacyEncrypted key row hget)
  legacyGenerated key row hget := himp _ _ (hrows.legacyGenerated key row hget)
  outer key row hget := himp _ _ (hrows.outer key row hget)
  txid key row hget := himp _ _ (hrows.txid key row hget)

theorem IndexedTables.allRows_and :
    tables.AllRows (fun number hash => P number hash ∧ Q number hash)
      ↔ tables.AllRows P ∧ tables.AllRows Q := by
  constructor
  · exact fun hrows => ⟨hrows.imp fun _ _ => And.left, hrows.imp fun _ _ => And.right⟩
  · rintro ⟨hleft, hright⟩
    exact
      { transact := fun key row hget => ⟨hleft.transact key row hget, hright.transact key row hget⟩
        shield := fun key row hget => ⟨hleft.shield key row hget, hright.shield key row hget⟩
        nullifier := fun key row hget =>
          ⟨hleft.nullifier key row hget, hright.nullifier key row hget⟩
        legacyEncrypted := fun key row hget =>
          ⟨hleft.legacyEncrypted key row hget, hright.legacyEncrypted key row hget⟩
        legacyGenerated := fun key row hget =>
          ⟨hleft.legacyGenerated key row hget, hright.legacyGenerated key row hget⟩
        outer := fun key row hget => ⟨hleft.outer key row hget, hright.outer key row hget⟩
        txid := fun key row hget => ⟨hleft.txid key row hget, hright.txid key row hget⟩ }

theorem IndexedTables.AllRows.congr {R : Nat → Bytes32 → Prop} (hrows : tables.AllRows R)
    (hiff : ∀ number hash, R number hash → (P number hash ↔ Q number hash)) :
    tables.AllRows P ↔ tables.AllRows Q := by
  constructor
  · intro hleft
    refine (IndexedTables.allRows_and.mpr ⟨hrows, hleft⟩).imp ?_
    exact fun number hash hboth => (hiff number hash hboth.1).mp hboth.2
  · intro hright
    refine (IndexedTables.allRows_and.mpr ⟨hrows, hright⟩).imp ?_
    exact fun number hash hboth => (hiff number hash hboth.1).mpr hboth.2

theorem IndexedTables.allRows_empty : ({} : IndexedTables).AllRows P := by
  constructor <;> exact OrdMap.forall_empty

theorem forall_deleteFrom {κ ν : Type} [LinearOrder κ] {blockNumber : ν → Nat}
    {replayFromBlock : Nat} {table : OrdMap κ ν} {R : ν → Prop} :
    (deleteFrom blockNumber replayFromBlock table).Forall (fun _ row => R row)
      ↔ table.Forall fun _ row => blockNumber row < replayFromBlock → R row := by
  simp only [OrdMap.Forall, deleteFrom, OrdMap.get?_filter, Option.filter_eq_some_iff,
    decide_eq_true_eq, and_imp]

theorem IndexedTables.allRows_deleteFrom {replayFromBlock : Nat} :
    (tables.deleteFrom replayFromBlock).AllRows P
      ↔ tables.AllRows fun number hash => number < replayFromBlock → P number hash := by
  constructor
  · intro hrows
    exact
      { transact := forall_deleteFrom.mp hrows.transact
        shield := forall_deleteFrom.mp hrows.shield
        nullifier := forall_deleteFrom.mp hrows.nullifier
        legacyEncrypted := forall_deleteFrom.mp hrows.legacyEncrypted
        legacyGenerated := forall_deleteFrom.mp hrows.legacyGenerated
        outer := forall_deleteFrom.mp hrows.outer
        txid := forall_deleteFrom.mp hrows.txid }
  · intro hrows
    exact
      { transact := forall_deleteFrom.mpr hrows.transact
        shield := forall_deleteFrom.mpr hrows.shield
        nullifier := forall_deleteFrom.mpr hrows.nullifier
        legacyEncrypted := forall_deleteFrom.mpr hrows.legacyEncrypted
        legacyGenerated := forall_deleteFrom.mpr hrows.legacyGenerated
        outer := forall_deleteFrom.mpr hrows.outer
        txid := forall_deleteFrom.mpr hrows.txid }

end Rows

/-! ### Rows of one chain -/

section Chain

/-- All rows are rows of the chain, in blocks that have been reached. An outer transaction sits in its
own block. -/
structure TablesOf (chain : RemoteChain) (reached : Nat → Prop) (tables : IndexedTables) : Prop where
  rows : tables.AllRows fun number hash => reached number ∧ hash = chain.hash number
  outer : tables.publicTransactions.Forall fun hash row => row.blockNumber = chain.blockOf hash

variable {chain : RemoteChain} {reached wider : Nat → Prop} {tables : IndexedTables}

theorem TablesOf.mono (htables : TablesOf chain reached tables)
    (hwider : ∀ number, reached number → wider number) : TablesOf chain wider tables :=
  ⟨htables.rows.imp fun number _ hrow => ⟨hwider number hrow.1, hrow.2⟩, htables.outer⟩

variable {contracts : Contracts} {batch : IndexedLogBatch}

theorem forall_merge_rowEntries {ω κ π : Type} [LinearOrder κ] {source : ω → IndexedLogSource}
    {keyOf : ω → κ} {columns : ω → π} {items : List ω} {table : OrdMap κ (IndexedRow π)}
    (P : Nat → Bytes32 → Prop)
    (htable : table.Forall fun _ row => P row.source.blockNumber row.source.blockHash)
    (hitems : ∀ item ∈ items, P (source item).blockNumber (source item).blockHash) :
    (mergeEntries keepNew table (rowEntries source keyOf columns items)).Forall fun _ row =>
      P row.source.blockNumber row.source.blockHash := by
  refine forall_mergeEntries (fun _ _ _ _ hnew => hnew) htable fun entry hentry => ?_
  obtain ⟨item, hitem, rfl⟩ := List.mem_map.mp hentry
  exact hitems item hitem

theorem IndexedTables.AllRows.merge {P : Nat → Bytes32 → Prop} (htables : tables.AllRows P)
    (hsources : ∀ source ∈ rowSources batch, P source.blockNumber source.blockHash)
    (houter : (tables.merge contracts batch).publicTransactions.Forall fun _ row =>
      P row.blockNumber row.blockHash) : (tables.merge contracts batch).AllRows P := by
  have hlogs : ∀ source ∈ logSources batch, P source.blockNumber source.blockHash :=
    fun source hsource => hsources source (mem_rowSources.mpr (.inl hsource))
  obtain ⟨htransact, hshield, hnullifier, hencrypted, hgenerated⟩ := forall_mem_logSources.mp hlogs
  exact
    { transact := forall_merge_rowEntries P htables.transact htransact
      shield := forall_merge_rowEntries P htables.shield hshield
      nullifier := forall_merge_rowEntries P htables.nullifier hnullifier
      legacyEncrypted := forall_merge_rowEntries P htables.legacyEncrypted hencrypted
      legacyGenerated := forall_merge_rowEntries P htables.legacyGenerated hgenerated
      outer := houter
      txid := by
        refine forall_mergeEntries (fun _ _ _ _ hnew => hnew) htables.txid fun entry hentry => ?_
        obtain ⟨item, hitem, rfl⟩ := List.mem_map.mp hentry
        exact hsources item.source (mem_rowSources.mpr (.inr (List.mem_map_of_mem hitem))) }

theorem IndexedTables.AllRows.merge_numbers {P : Nat → Prop}
    (htables : tables.AllRows fun number _ => P number)
    (hsources : ∀ source ∈ rowSources batch, P source.blockNumber) :
    (tables.merge contracts batch).AllRows fun number _ => P number := by
  refine htables.merge hsources (forall_mergeEntries ?_ htables.outer fun entry hentry => ?_)
  · intro hash left right hleft hright
    obtain hmin | hmin := keepsBlock_mergeSourceRow left right
    · rwa [hmin]
    · rwa [hmin]
  · obtain ⟨source, hsource, rfl⟩ := List.mem_map.mp hentry
    exact hsources source (mem_rowSources.mpr (.inl hsource))

theorem TablesOf.merge (htables : TablesOf chain reached tables)
    (hsources : ∀ source ∈ rowSources batch, chain.Holds source ∧ reached source.blockNumber) :
    TablesOf chain reached (tables.merge contracts batch) := by
  let P (number : Nat) (hash : Bytes32) : Prop := reached number ∧ hash = chain.hash number
  have hrows : ∀ source ∈ rowSources batch, P source.blockNumber source.blockHash := by
    intro source hsource
    obtain ⟨hholds, hreached⟩ := hsources source hsource
    exact ⟨hreached, hholds.hash_eq⟩
  have houter : (tables.merge contracts batch).publicTransactions.Forall fun hash row =>
      row.blockNumber = chain.blockOf hash ∧ P row.blockNumber row.blockHash := by
    refine forall_mergeEntries ?_ (fun hash row hget =>
      ⟨htables.outer hash row hget, htables.rows.outer hash row hget⟩) fun entry hentry => ?_
    · rintro hash left right ⟨hleft, -⟩ ⟨hright, hrow⟩
      have hsame : (mergeSourceRow left right).blockNumber = right.blockNumber := by
        change min left.blockNumber right.blockNumber = right.blockNumber
        rw [hleft, hright, Nat.min_self]
      rw [hsame]
      exact ⟨hright, hrow⟩
    · obtain ⟨source, hsource, rfl⟩ := List.mem_map.mp hentry
      have hmem := mem_rowSources.mpr (.inl hsource)
      exact ⟨(hsources source hmem).1.block_eq.symm, hrows source hmem⟩
  refine ⟨htables.rows.merge hrows fun hash row hget => (houter hash row hget).2, ?_⟩
  exact fun hash row hget => (houter hash row hget).1

end Chain

/-! ### Indexing a chain -/

section Reached

variable {contracts : Contracts} {chain : RemoteChain} {chainId : Nat} {provider : ChainProvider}
  {toBlock : Nat} {order : VisitingOrder} {runtime : ChainRuntime} {step : ChainIndexStep}
  {store : Store}

/-- The stores reached from the empty one by indexing ranges of the chain, for any contracts, settings
and nodes that serve it. -/
inductive IndexedFrom (contracts : Contracts) (chain : RemoteChain) (chainId : Nat) : Store → Prop
  | empty : IndexedFrom contracts chain chainId {}
  | index {store after : Store} {runtime : ChainRuntime} {provider : ChainProvider}
      {order : VisitingOrder} {safeHead fromBlock toBlock : Nat} {step : ChainIndexStep}
      (hstore : IndexedFrom contracts chain chainId store)
      (hchain : runtime.chain.chainId = chainId) (hheaders : provider.ServesHeaders chain)
      (hlogs : provider.ServesLogs chain) (hto : toBlock < u64Bound)
      (hok : indexChainRangeWithProvider contracts runtime provider order safeHead fromBlock toBlock
        store = .ok (after, step)) : IndexedFrom contracts chain chainId after

def Store.Reached (store : Store) (key : ContractKey) (number : Nat) : Prop :=
  ∃ progress, store.progress key .walletScan = some progress
    ∧ number ≤ progress.indexedThroughBlock

structure FollowsChain (chain : RemoteChain) (chainId : Nat) (store : Store) : Prop where
  headers : (store.headers chainId).Forall fun number header => header.blockHash = chain.hash number
  progress : ∀ contract progress, store.progress ⟨chainId, contract⟩ .walletScan = some progress →
    progress.indexedThroughBlock < i64Bound
      ∧ progress.indexedThroughBlockHash = chain.hash progress.indexedThroughBlock
  rows : ∀ contract, TablesOf chain (store.Reached ⟨chainId, contract⟩)
    (store.indexed ⟨chainId, contract⟩)

theorem followsChain_empty : FollowsChain chain chainId {} where
  headers := OrdMap.forall_empty
  progress _ _ hnone := nomatch hnone
  rows _ := ⟨IndexedTables.allRows_empty, OrdMap.forall_empty⟩

theorem fetchBlockHeader_eq_ok (hserves : provider.ServesHeaders chain) (number : Nat) :
    fetchBlockHeader provider number
      = .ok ⟨number, chain.hash number, (chain.header number).parentHash⟩ := by
  rw [fetchBlockHeader, hserves number]
  rfl

theorem blockNumber_fetchBlockHeader {number : Nat} {header : ChainIndexedBlockHeader}
    (hok : fetchBlockHeader provider number = .ok header) :
    header.blockNumber = number := by
  unfold fetchBlockHeader at hok
  split at hok
  · cases hok
  · cases hok
  · exact (Except.ok.inj hok) ▸ rfl

theorem toNat_toBlock_rangeToIndex (runtime : ChainRuntime) (fromBlock : Nat)
    (header : ChainIndexedBlockHeader) (hto : toBlock < u64Bound) :
    (rangeToIndex runtime fromBlock toBlock header).toBlock.toNat = toBlock := by
  change (UInt64.ofNat toBlock).toNat = toBlock
  exact Nat.mod_eq_of_lt hto

theorem le_advanceProgress (new : ChainIndexingProgress) (found : Option ChainIndexingProgress) :
    new.indexedThroughBlock ≤ (advanceProgress new found).indexedThroughBlock
      ∧ ∀ old, found = some old →
        old.indexedThroughBlock ≤ (advanceProgress new found).indexedThroughBlock := by
  cases found with
  | none => exact ⟨le_rfl, fun _ hnone => nomatch hnone⟩
  | some old =>
      rw [advanceProgress]
      split
      · rename_i hle
        exact ⟨le_rfl, fun _ hsome => Option.some.inj hsome ▸ hle⟩
      · rename_i hlt
        exact ⟨by omega, fun _ hsome => (Option.some.inj hsome ▸ le_rfl)⟩

theorem advanceProgress_eq (new : ChainIndexingProgress) (found : Option ChainIndexingProgress) :
    advanceProgress new found = new ∨ found = some (advanceProgress new found) := by
  cases found with
  | none => exact .inl rfl
  | some old =>
      rw [advanceProgress]
      split
      · exact .inl rfl
      · exact .inr rfl

theorem indexChainRangeWithProvider_commits {after : Store} {safeHead fromBlock : Nat}
    (hto : toBlock < u64Bound)
    (hok : indexChainRangeWithProvider contracts runtime provider order safeHead fromBlock toBlock
      store = .ok (after, step)) :
    ∃ header batch, fetchBlockHeader provider toBlock = .ok header
      ∧ (∃ fetchedLogCount, fetchIndexedLogBatch contracts provider order
        (rangeToIndex runtime fromBlock toBlock header) = .ok (fetchedLogCount, batch))
      ∧ toBlock < i64Bound
      ∧ after.indexed = Function.update store.indexed runtime.key
        ((store.indexed runtime.key).merge contracts batch)
      ∧ after.headers = Function.update store.headers runtime.chain.chainId
        ((store.headers runtime.chain.chainId).insert toBlock ⟨header.blockHash, header.parentHash⟩)
      ∧ after.progress = Function.update store.progress runtime.key fun kind =>
        some (advanceProgress ⟨toBlock, header.blockHash⟩ (store.progress runtime.key kind)) := by
  obtain ⟨header, hheader, hok⟩ := bind_eq_ok.mp hok
  obtain ⟨⟨stored, outcome⟩, hindexed, heq⟩ := bind_eq_ok.mp hok
  cases heq
  obtain ⟨⟨count, batch⟩, hfetched, hok⟩ := bind_eq_ok.mp (mapError_eq_ok.mp hindexed)
  obtain ⟨committed, hcommitted, heq⟩ := bind_eq_ok.mp hok
  cases heq
  obtain ⟨hbound, rfl⟩ := commitRange_eq_ok rfl (mapError_eq_ok.mp hcommitted)
  rw [toNat_toBlock_rangeToIndex runtime fromBlock header hto] at hbound
  refine ⟨header, batch, hheader, ⟨count, mapError_eq_ok.mp hfetched⟩, hbound, rfl, ?_, ?_⟩
  · rw [blockNumber_fetchBlockHeader hheader]
    rfl
  · rw [toNat_toBlock_rangeToIndex runtime fromBlock header hto]
    rfl

theorem indexChainRangeWithProvider_eq_ok {after : Store} {safeHead fromBlock : Nat}
    (hheaders : provider.ServesHeaders chain) (hlogs : provider.ServesLogs chain)
    (hto : toBlock < u64Bound)
    (hok : indexChainRangeWithProvider contracts runtime provider order safeHead fromBlock toBlock
      store = .ok (after, step)) :
    ∃ batch, (∀ source ∈ rowSources batch, chain.Holds source ∧ source.blockNumber ≤ toBlock)
      ∧ toBlock < i64Bound
      ∧ after.indexed = Function.update store.indexed runtime.key
        ((store.indexed runtime.key).merge contracts batch)
      ∧ after.headers = Function.update store.headers runtime.chain.chainId
        ((store.headers runtime.chain.chainId).insert toBlock (chain.header toBlock))
      ∧ after.progress = Function.update store.progress runtime.key fun kind =>
        some (advanceProgress ⟨toBlock, chain.hash toBlock⟩ (store.progress runtime.key kind)) := by
  obtain ⟨header, batch, hheader, ⟨count, hfetched⟩, hbound, hindexed, hstored, hprogress⟩ :=
    indexChainRangeWithProvider_commits hto hok
  rw [fetchBlockHeader_eq_ok hheaders] at hheader
  cases hheader
  have hsources := fetchIndexedLogBatch_sources hlogs
    (fun _ _ hholds => RemoteChain.holds_of_timestamp hholds) hfetched
  rw [toNat_toBlock_rangeToIndex runtime fromBlock _ hto] at hsources
  exact ⟨batch, hsources, hbound, hindexed, hstored, hprogress⟩

theorem FollowsChain.index {store after : Store} (hstore : FollowsChain chain chainId store)
    {contract : Address} {batch : IndexedLogBatch} {toBlock : Nat} (hbound : toBlock < i64Bound)
    (hsources : ∀ source ∈ rowSources batch, chain.Holds source ∧ source.blockNumber ≤ toBlock)
    (hindexed : after.indexed = Function.update store.indexed ⟨chainId, contract⟩
      ((store.indexed ⟨chainId, contract⟩).merge contracts batch))
    (hheaders : after.headers = Function.update store.headers chainId
      ((store.headers chainId).insert toBlock (chain.header toBlock)))
    (hprogress : after.progress = Function.update store.progress ⟨chainId, contract⟩ fun kind =>
      some (advanceProgress ⟨toBlock, chain.hash toBlock⟩
        (store.progress ⟨chainId, contract⟩ kind))) : FollowsChain chain chainId after := by
  have hself : ∀ kind, after.progress ⟨chainId, contract⟩ kind = some (advanceProgress
      ⟨toBlock, chain.hash toBlock⟩ (store.progress ⟨chainId, contract⟩ kind)) := by
    intro kind
    rw [hprogress, Function.update_self]
  have hother : ∀ other, other ≠ contract →
      after.progress ⟨chainId, other⟩ = store.progress ⟨chainId, other⟩ := by
    intro other hne
    rw [hprogress, Function.update_of_ne (by simpa using hne)]
  constructor
  · rw [hheaders, Function.update_self]
    exact hstore.headers.insert rfl
  · intro other progress hfound
    by_cases hne : other = contract
    · subst hne
      rw [hself, Option.some.injEq] at hfound
      obtain hnew | hold := advanceProgress_eq ⟨toBlock, chain.hash toBlock⟩
        (store.progress ⟨chainId, other⟩ .walletScan)
      · rw [← hfound, hnew]
        exact ⟨hbound, rfl⟩
      · rw [hfound] at hold
        exact hstore.progress other progress hold
    · rw [hother other hne] at hfound
      exact hstore.progress other progress hfound
  · intro other
    by_cases hne : other = contract
    · subst hne
      obtain ⟨hnew, hold⟩ := le_advanceProgress ⟨toBlock, chain.hash toBlock⟩
        (store.progress ⟨chainId, other⟩ .walletScan)
      rw [hindexed, Function.update_self]
      refine TablesOf.merge ((hstore.rows other).mono ?_) fun source hsource => ?_
      · rintro number ⟨progress, hfound, hle⟩
        exact ⟨_, hself .walletScan, hle.trans (hold progress hfound)⟩
      · obtain ⟨hholds, hle⟩ := hsources source hsource
        exact ⟨hholds, _, hself .walletScan, hle.trans hnew⟩
    · rw [hindexed, Function.update_of_ne (by simpa using hne)]
      refine (hstore.rows other).mono fun number hreached => ?_
      rwa [Store.Reached, hother other hne]

/-- **A store reached by indexing a chain follows it.** -/
theorem followsChain_of_indexedFrom (hstore : IndexedFrom contracts chain chainId store) :
    FollowsChain chain chainId store := by
  induction hstore with
  | empty => exact followsChain_empty
  | @index store after runtime _ _ _ _ _ _ _ hchain hheaders hlogs hto hok ih =>
      obtain ⟨batch, hsources, hbound, hindexed, hstored, hprogress⟩ :=
        indexChainRangeWithProvider_eq_ok hheaders hlogs hto hok
      subst hchain
      exact ih.index hbound hsources hindexed hstored hprogress

end Reached

end RailgunIndexer
