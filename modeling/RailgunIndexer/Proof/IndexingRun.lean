import RailgunIndexer.IndexingRun
import RailgunIndexer.Proof.Reorg

/-!
# No gaps in the indexed blocks

What a run of the indexing loop of one contract leaves in the store. The datasets advance together, and
the next block to index separates the blocks that have been committed since they were last rewound
from those that hold no row.
-/

namespace RailgunIndexer

open Lib Fallible

/-! ### What one step does -/

section Steps

variable {contracts : Contracts} {runtime : ChainRuntime} {provider : ChainProvider}
  {store after : Store} {progress : ChainIndexingProgress} {context : String}

theorem checkProgress_eq_absent
    (hok : checkProgress provider runtime.key context store = .ok .absent) :
    store.progress runtime.key .walletScan = none := by
  rw [checkProgress, chainIndexingProgress_eq_ok] at hok
  obtain ⟨found, hfound, hok⟩ := bind_eq_ok.mp hok
  cases hfound
  cases hprogress : store.progress runtime.key .walletScan with
  | none => rfl
  | some progress =>
      rw [hprogress] at hok
      obtain ⟨header, -, hok⟩ := bind_eq_ok.mp hok
      split at hok <;> cases hok

theorem checkProgress_eq_some
    (hprogress : store.progress runtime.key .walletScan = some progress) {check : ProgressCheck}
    (hok : checkProgress provider runtime.key context store = .ok check) :
    ∃ header, fetchBlockHeader provider progress.indexedThroughBlock = .ok header
      ∧ check = if header.blockHash = progress.indexedThroughBlockHash then
          .canonical (min (progress.indexedThroughBlock + 1) (u64Bound - 1))
        else .reorged progress := by
  rw [checkProgress, chainIndexingProgress_eq_ok, hprogress] at hok
  obtain ⟨found, hfound, hok⟩ := bind_eq_ok.mp hok
  cases hfound
  obtain ⟨header, hheader, hok⟩ := bind_eq_ok.mp hok
  refine ⟨header, hheader, ?_⟩
  split at hok
  · rename_i hhash
    rw [if_pos hhash]
    exact (Except.ok.inj hok).symm
  · rename_i hhash
    rw [if_neg hhash]
    exact (Except.ok.inj hok).symm

theorem checkProgress_eq_canonical {fromBlock : Nat}
    (hok : checkProgress provider runtime.key context store = .ok (.canonical fromBlock)) :
    ∃ progress header, store.progress runtime.key .walletScan = some progress
      ∧ fetchBlockHeader provider progress.indexedThroughBlock = .ok header
      ∧ header.blockHash = progress.indexedThroughBlockHash
      ∧ fromBlock = min (progress.indexedThroughBlock + 1) (u64Bound - 1) := by
  cases hprogress : store.progress runtime.key .walletScan with
  | none =>
      rw [checkProgress_absent hprogress] at hok
      cases hok
  | some progress =>
      obtain ⟨header, hheader, hcheck⟩ := checkProgress_eq_some hprogress hok
      refine ⟨progress, header, rfl, hheader, ?_⟩
      split at hcheck
      · rename_i hhash
        exact ⟨hhash, ProgressCheck.canonical.inj hcheck⟩
      · cases hcheck

theorem checkProgress_eq_reorged
    (hok : checkProgress provider runtime.key context store = .ok (.reorged progress)) :
    store.progress runtime.key .walletScan = some progress
      ∧ ∃ header, fetchBlockHeader provider progress.indexedThroughBlock = .ok header
        ∧ header.blockHash ≠ progress.indexedThroughBlockHash := by
  cases hfound : store.progress runtime.key .walletScan with
  | none =>
      rw [checkProgress_absent hfound] at hok
      cases hok
  | some found =>
      obtain ⟨header, hheader, hcheck⟩ := checkProgress_eq_some hfound hok
      split at hcheck
      · cases hcheck
      · rename_i hhash
        obtain rfl := ProgressCheck.reorged.inj hcheck
        exact ⟨rfl, header, hheader, hhash⟩

/-- The headers a rewind works on: the one before the replayed block is stored first, unless that
block is the start block. -/
def RewindHeaders (runtime : ChainRuntime) (provider : ChainProvider) (replayFromBlock : Nat)
    (headers rewound : OrdMap Nat HeaderRow) : Prop :=
  if runtime.chain.startBlock.toNat < replayFromBlock then
    ∃ header, fetchBlockHeader provider (replayFromBlock - 1) = .ok header
      ∧ rewound = headers.insert (replayFromBlock - 1) ⟨header.blockHash, header.parentHash⟩
  else
    rewound = headers

theorem rewindAfterReorg_eq_ok
    (hok : rewindAfterReorg runtime provider progress store = .ok after) :
    ∃ headers, RewindHeaders runtime provider (replayFromBlock runtime progress.indexedThroughBlock)
        (store.headers runtime.chain.chainId) headers
      ∧ replayFromBlock runtime progress.indexedThroughBlock < i64Bound
      ∧ after.indexed = Function.update store.indexed runtime.key
        ((store.indexed runtime.key).deleteFrom
          (replayFromBlock runtime progress.indexedThroughBlock))
      ∧ after.headers = Function.update store.headers runtime.chain.chainId
        (headers.filter fun number _ => number < replayFromBlock runtime progress.indexedThroughBlock)
      ∧ after.progress = Function.update store.progress runtime.key fun kind =>
        rewindProgress (replayFromBlock runtime progress.indexedThroughBlock)
          (previousProgress headers (replayFromBlock runtime progress.indexedThroughBlock))
          (store.progress runtime.key kind) := by
  obtain ⟨recorded, hrecorded, hok⟩ := bind_eq_ok.mp hok
  obtain ⟨⟨rewound, counts⟩, hrewound, heq⟩ := bind_eq_ok.mp hok
  cases heq
  obtain ⟨-, hreplay, rfl⟩ :=
    rewindChainIndexingToReplayBlock_eq_ok.mp ⟨counts, mapError_eq_ok.mp hrewound⟩
  rw [recordPreviousHeader] at hrecorded
  split at hrecorded
  · rename_i hstart
    obtain ⟨header, hheader, hrecorded⟩ := bind_eq_ok.mp hrecorded
    obtain ⟨-, -, -, rfl⟩ := recordIndexedBlockHeader_eq_ok.mp (mapError_eq_ok.mp hrecorded)
    have hfetched := mapError_eq_ok.mp hheader
    refine ⟨_, ?_, hreplay, rfl, ?_, rfl⟩
    · rw [RewindHeaders, if_pos hstart]
      refine ⟨header, hfetched, ?_⟩
      rw [← blockNumber_fetchBlockHeader hfetched]
      exact Function.update_self ..
    · exact Function.update_idem ..
  · rename_i hstart
    cases hrecorded
    refine ⟨store.headers runtime.chain.chainId, ?_, hreplay, rfl, rfl, rfl⟩
    rw [RewindHeaders, if_neg hstart]

theorem indexRange_eq_ok {providers : Providers} {order : VisitingOrder}
    {mode : ChainIndexProviderMode} {safeHead fromBlock toBlock : Nat} {step : ChainIndexStep}
    (hok : indexRange contracts runtime providers order mode safeHead fromBlock toBlock store
      = .ok (after, step)) :
    ∃ provider, (provider = providers.normal ∨ provider = providers.archive)
      ∧ indexChainRangeWithProvider contracts runtime provider order safeHead fromBlock toBlock store
        = .ok (after, step) := by
  cases mode with
  | archive => exact ⟨providers.archive, .inr rfl, hok⟩
  | normalWithArchiveFallback =>
      simp only [indexRange] at hok
      split at hok
      · rename_i hnormal
        exact ⟨providers.normal, .inl rfl, hnormal.trans hok⟩
      · exact ⟨providers.archive, .inr rfl, hok⟩

theorem batchToBlock_lt (fromBlock batchSpan safeHead : Nat) :
    batchToBlock fromBlock batchSpan safeHead < u64Bound := by
  have hbound : 0 < u64Bound := by decide
  simp only [batchToBlock]
  omega

theorem le_batchToBlock {fromBlock batchSpan safeHead : Nat} (hhead : fromBlock ≤ safeHead)
    (hfits : fromBlock < u64Bound) : fromBlock ≤ batchToBlock fromBlock batchSpan safeHead := by
  simp only [batchToBlock]
  omega

end Steps

/-! ### The past of a run -/

section Past

variable {events : List IndexerEvent} {event : IndexerEvent} {block : Nat}

/-- The block lies in a batch that was committed after the last rewind that reached it. -/
def CommittedSince (events : List IndexerEvent) (block : Nat) : Prop :=
  ∃ before fromBlock toBlock blockHash later,
    events = before ++ .indexed fromBlock toBlock blockHash :: later
      ∧ fromBlock ≤ block ∧ block ≤ toBlock
      ∧ ∀ replayFromBlock previousHash, .rewound replayFromBlock previousHash ∈ later →
        block < replayFromBlock

def IndexerEvent.commits : IndexerEvent → Bool
  | .rewound _ _ => true
  | .indexed _ _ _ => true
  | _ => false

def lastCommit (events : List IndexerEvent) : Option IndexerEvent :=
  (events.filter IndexerEvent.commits).getLast?

theorem CommittedSince.append (hblock : CommittedSince events block)
    (hevent : ∀ replayFromBlock previousHash, event = .rewound replayFromBlock previousHash →
      block < replayFromBlock) : CommittedSince (events ++ [event]) block := by
  obtain ⟨before, fromBlock, toBlock, blockHash, later, rfl, hfrom, hto, hlater⟩ := hblock
  refine ⟨before, fromBlock, toBlock, blockHash, later ++ [event], by simp, hfrom, hto, ?_⟩
  intro replayFromBlock previousHash hmem
  obtain hmem | hmem := List.mem_append.mp hmem
  · exact hlater replayFromBlock previousHash hmem
  · exact hevent replayFromBlock previousHash (List.mem_singleton.mp hmem).symm

theorem committedSince_indexed {fromBlock toBlock : Nat} {blockHash : Option Bytes32}
    (hfrom : fromBlock ≤ block) (hto : block ≤ toBlock) :
    CommittedSince (events ++ [.indexed fromBlock toBlock blockHash]) block :=
  ⟨events, fromBlock, toBlock, blockHash, [], rfl, hfrom, hto, fun _ _ hmem => by cases hmem⟩

theorem lastCommit_append_of_commits (hcommits : event.commits = true) :
    lastCommit (events ++ [event]) = some event := by
  rw [lastCommit, List.filter_append, List.filter_cons_of_pos hcommits, List.filter_nil,
    List.getLast?_concat]

theorem lastCommit_append_of_not_commits (hcommits : event.commits = false) :
    lastCommit (events ++ [event]) = lastCommit events := by
  rw [lastCommit, List.filter_append, List.filter_cons_of_neg (by simp [hcommits]), List.filter_nil,
    List.append_nil, lastCommit]

end Past

/-! ### The next block -/

section Run

variable {contracts : Contracts} {runtime : ChainRuntime} {provider : ChainProvider}
  {state : IndexerState}

def ChainProvider.LogsInRange (provider : ChainProvider) : Prop :=
  provider.ServesSources fun _ => True

def nextBlock (runtime : ChainRuntime) (store : Store) : Nat :=
  (store.progress runtime.key .walletScan).elim runtime.chain.startBlock.toNat
    fun progress => progress.indexedThroughBlock + 1

/-- What the loop keeps true of the store and of the commits so far. -/
structure Contiguous (runtime : ChainRuntime) (events : List IndexerEvent) (state : IndexerState) :
    Prop where
  uniform : ∀ kind, state.store.progress runtime.key kind
    = state.store.progress runtime.key .walletScan
  bounds : ∀ progress, state.store.progress runtime.key .walletScan = some progress →
    runtime.chain.startBlock.toNat ≤ progress.indexedThroughBlock
      ∧ progress.indexedThroughBlock < i64Bound
  headers : (state.store.headers runtime.chain.chainId).Forall fun number _ =>
    runtime.chain.startBlock.toNat ≤ number
  covered : ∀ block, runtime.chain.startBlock.toNat ≤ block →
    block < nextBlock runtime state.store → CommittedSince events block
  rows : (state.store.indexed runtime.key).AllRows fun number _ =>
    number < nextBlock runtime state.store
  resumed : ∀ fromBlock, state.phase = .resumed fromBlock →
    fromBlock = nextBlock runtime state.store
  afterRewind : ∀ replayFromBlock previousHash,
    lastCommit events = some (.rewound replayFromBlock previousHash) →
      nextBlock runtime state.store = replayFromBlock

variable {events : List IndexerEvent} {store after : Store} {phase next : IndexerPhase}
  {progress : ChainIndexingProgress}

theorem nextBlock_of_none (hprogress : store.progress runtime.key .walletScan = none) :
    nextBlock runtime store = runtime.chain.startBlock.toNat := by
  rw [nextBlock, hprogress, Option.elim_none]

theorem nextBlock_of_some (hprogress : store.progress runtime.key .walletScan = some progress) :
    nextBlock runtime store = progress.indexedThroughBlock + 1 := by
  rw [nextBlock, hprogress, Option.elim_some]

theorem Contiguous.nextBlock_mem (hstate : Contiguous runtime events ⟨phase, store⟩) :
    runtime.chain.startBlock.toNat ≤ nextBlock runtime store
      ∧ nextBlock runtime store < u64Bound := by
  cases hprogress : store.progress runtime.key .walletScan with
  | none =>
      rw [nextBlock_of_none hprogress]
      exact ⟨le_rfl, runtime.chain.startBlock.toNat_lt⟩
  | some progress =>
      obtain ⟨hstart, hfits⟩ := hstate.bounds progress hprogress
      rw [nextBlock_of_some hprogress]
      simp only [i64Bound, u64Bound] at hfits ⊢
      omega

theorem contiguous_empty : Contiguous runtime [] ⟨.idle, {}⟩ where
  uniform _ := rfl
  bounds _ hnone := by cases hnone
  headers := OrdMap.forall_empty
  covered _ hstart hlt := absurd hstart (Nat.not_le.mpr hlt)
  rows := IndexedTables.allRows_empty
  resumed _ hnone := by cases hnone
  afterRewind _ _ hnone := by cases hnone

theorem Contiguous.quiet {event : IndexerEvent} (hstate : Contiguous runtime events ⟨phase, store⟩)
    (hcommits : event.commits = false)
    (hresumed : ∀ fromBlock, next = .resumed fromBlock → fromBlock = nextBlock runtime store) :
    Contiguous runtime (events ++ [event]) ⟨next, store⟩ where
  uniform := hstate.uniform
  bounds := hstate.bounds
  headers := hstate.headers
  covered block hstart hlt := by
    refine (hstate.covered block hstart hlt).append ?_
    rintro replayFromBlock previousHash rfl
    cases hcommits
  rows := hstate.rows
  resumed := hresumed
  afterRewind replayFromBlock previousHash hlast :=
    hstate.afterRewind replayFromBlock previousHash
      ((lastCommit_append_of_not_commits hcommits) ▸ hlast)

theorem replayFromBlock_mem (hstart : runtime.chain.startBlock.toNat ≤ progress.indexedThroughBlock) :
    runtime.chain.startBlock.toNat ≤ replayFromBlock runtime progress.indexedThroughBlock
      ∧ replayFromBlock runtime progress.indexedThroughBlock ≤ progress.indexedThroughBlock := by
  simp only [replayFromBlock]
  omega

theorem previousProgress_of_rewindHeaders {replayFromBlock : Nat}
    {headers rewound : OrdMap Nat HeaderRow}
    (hrewound : RewindHeaders runtime provider replayFromBlock headers rewound)
    (hstart : runtime.chain.startBlock.toNat ≤ replayFromBlock)
    (hheaders : headers.Forall fun number _ => runtime.chain.startBlock.toNat ≤ number) :
    rewound.Forall (fun number _ => runtime.chain.startBlock.toNat ≤ number)
      ∧ (previousProgress rewound replayFromBlock).elim runtime.chain.startBlock.toNat
          (fun previous => previous.indexedThroughBlock + 1) = replayFromBlock
      ∧ ∀ previous, previousProgress rewound replayFromBlock = some previous →
        runtime.chain.startBlock.toNat ≤ previous.indexedThroughBlock := by
  rw [RewindHeaders] at hrewound
  split at hrewound
  · rename_i hlt
    obtain ⟨header, -, rfl⟩ := hrewound
    have hprevious : previousProgress
        (headers.insert (replayFromBlock - 1) ⟨header.blockHash, header.parentHash⟩) replayFromBlock
        = some ⟨replayFromBlock - 1, header.blockHash⟩ := by
      rw [previousProgress, if_neg (by omega), OrdMap.get?_insert, if_pos rfl]
      rfl
    rw [hprevious]
    refine ⟨hheaders.insert (by omega), Nat.sub_add_cancel (by omega), ?_⟩
    intro previous hsome
    cases hsome
    exact Nat.le_sub_one_of_lt hlt
  · subst hrewound
    have hprevious : previousProgress rewound replayFromBlock = none := by
      cases hfound : previousProgress rewound replayFromBlock with
      | none => rfl
      | some previous =>
          obtain ⟨hpositive, header, hget, -⟩ := previousProgress_eq_some_iff.mp hfound
          have hle := hheaders _ header hget
          omega
    rw [hprevious]
    refine ⟨hheaders, ?_, fun _ hnone => by cases hnone⟩
    change runtime.chain.startBlock.toNat = replayFromBlock
    omega

theorem Contiguous.rewind {previousHash : Option Bytes32}
    (hstate : Contiguous runtime events ⟨phase, store⟩)
    (hprogress : store.progress runtime.key .walletScan = some progress)
    (hok : rewindAfterReorg runtime provider progress store = .ok after) :
    Contiguous runtime
      (events ++ [.rewound (replayFromBlock runtime progress.indexedThroughBlock) previousHash])
      ⟨.idle, after⟩ := by
  obtain ⟨hstart, -⟩ := hstate.bounds progress hprogress
  obtain ⟨hreplay, hle⟩ := replayFromBlock_mem hstart
  obtain ⟨headers, hheaders, hfits, hindexed, hkept, hrewound⟩ := rewindAfterReorg_eq_ok hok
  generalize replayFromBlock runtime progress.indexedThroughBlock = replay at *
  obtain ⟨hforall, hnext, hprevious⟩ :=
    previousProgress_of_rewindHeaders hheaders hreplay hstate.headers
  have hfound : ∀ kind, after.progress runtime.key kind = previousProgress headers replay := by
    intro kind
    rw [hrewound, Function.update_self, hstate.uniform kind, hprogress, rewindProgress_of_le hle]
  have hafter : nextBlock runtime after = replay := by
    rw [nextBlock, hfound, hnext]
  constructor
  · exact fun kind => (hfound kind).trans (hfound .walletScan).symm
  · intro found hsome
    rw [hfound] at hsome
    refine ⟨hprevious found hsome, ?_⟩
    have hblock := previousProgress_eq_some hsome
    omega
  · rw [hkept, Function.update_self]
    intro number header hget
    rw [OrdMap.get?_filter, Option.filter_eq_some_iff] at hget
    exact hforall number header hget.1
  · intro block hblock hlt
    rw [hafter] at hlt
    refine (hstate.covered block hblock ?_).append ?_
    · rw [nextBlock_of_some hprogress]
      omega
    · intro replayFromBlock previousHash heq
      rwa [← (IndexerEvent.rewound.inj heq).1]
  · rw [hindexed, Function.update_self, IndexedTables.allRows_deleteFrom, hafter]
    exact hstate.rows.imp fun _ _ _ hlt => hlt
  · exact fun _ hidle => by cases hidle
  · intro replayFromBlock previousHash hlast
    rw [lastCommit_append_of_commits rfl] at hlast
    rw [hafter, ← (IndexerEvent.rewound.inj (Option.some.inj hlast)).1]

theorem Contiguous.index {providers : Providers} {order : VisitingOrder}
    {mode : ChainIndexProviderMode} {batchSpan safeHead fromBlock : Nat} {step : ChainIndexStep}
    {blockHash : Option Bytes32} (hstate : Contiguous runtime events ⟨.resumed fromBlock, store⟩)
    (hnormal : providers.normal.LogsInRange) (harchive : providers.archive.LogsInRange)
    (hhead : fromBlock ≤ safeHead)
    (hok : indexRange contracts runtime providers order mode safeHead fromBlock
      (batchToBlock fromBlock batchSpan safeHead) store = .ok (after, step)) :
    Contiguous runtime
      (events ++ [.indexed fromBlock (batchToBlock fromBlock batchSpan safeHead) blockHash])
      ⟨.idle, after⟩ := by
  have hresumed : fromBlock = nextBlock runtime store := hstate.resumed fromBlock rfl
  obtain ⟨provider, hnode, hok⟩ := indexRange_eq_ok hok
  have hto := batchToBlock_lt fromBlock batchSpan safeHead
  obtain ⟨header, batch, -, ⟨count, hfetched⟩, hfits, hindexed, hheaders, hprogress⟩ :=
    indexChainRangeWithProvider_commits hto hok
  have hserves : provider.LogsInRange := by
    obtain rfl | rfl := hnode
    · exact hnormal
    · exact harchive
  have hsources := fetchIndexedLogBatch_sources hserves (fun _ _ htrue => htrue) hfetched
  rw [toNat_toBlock_rangeToIndex runtime fromBlock header hto] at hsources
  obtain ⟨hstart, hfrom⟩ := hstate.nextBlock_mem
  rw [← hresumed] at hstart hfrom
  have hrange := @le_batchToBlock fromBlock batchSpan safeHead hhead hfrom
  generalize batchToBlock fromBlock batchSpan safeHead = toBlock at *
  have hafter : ∀ kind, after.progress runtime.key kind = some ⟨toBlock, header.blockHash⟩ := by
    intro kind
    rw [hprogress, Function.update_self, hstate.uniform kind, Option.some.injEq]
    cases hfound : store.progress runtime.key .walletScan with
    | none => rfl
    | some found =>
        rw [nextBlock_of_some hfound] at hresumed
        exact if_pos (by change found.indexedThroughBlock ≤ toBlock; omega)
  have hnext : nextBlock runtime after = toBlock + 1 := nextBlock_of_some (hafter .walletScan)
  constructor
  · exact fun kind => (hafter kind).trans (hafter .walletScan).symm
  · intro found hsome
    cases (hafter .walletScan).symm.trans hsome
    exact ⟨hstart.trans hrange, hfits⟩
  · rw [hheaders, Function.update_self]
    exact hstate.headers.insert (hstart.trans hrange)
  · intro block hblock hlt
    rw [hnext] at hlt
    by_cases hnew : fromBlock ≤ block
    · exact committedSince_indexed hnew (by omega)
    · have hbefore : block < nextBlock runtime store := by omega
      exact (hstate.covered block hblock hbefore).append fun _ _ heq => by cases heq
  · rw [hnext, hindexed, Function.update_self]
    refine @IndexedTables.AllRows.merge_numbers _ _ _ (fun number => number < toBlock + 1) ?_ ?_
    · refine hstate.rows.imp fun number _ hlt => ?_
      have hbefore : number < nextBlock runtime store := hlt
      omega
    · exact fun source hsource => Nat.lt_succ_of_le (hsources source hsource).2
  · exact fun _ hidle => by cases hidle
  · intro replayFromBlock previousHash hlast
    rw [lastCommit_append_of_commits rfl] at hlast
    cases hlast

theorem Contiguous.canonical_eq {context : String} {fromBlock : Nat}
    (hstate : Contiguous runtime events ⟨phase, store⟩)
    (hcheck : checkProgress provider runtime.key context store = .ok (.canonical fromBlock)) :
    fromBlock = nextBlock runtime store := by
  obtain ⟨progress, header, hprogress, -, -, rfl⟩ := checkProgress_eq_canonical hcheck
  have hbound := hstate.nextBlock_mem.2
  rw [nextBlock_of_some hprogress] at hbound ⊢
  omega

theorem startBlock_eq_nextBlock {context : String}
    (hcheck : checkProgress provider runtime.key context store = .ok .absent) :
    runtime.chain.startBlock.toNat = nextBlock runtime store :=
  (nextBlock_of_none (checkProgress_eq_absent hcheck)).symm

theorem Contiguous.resumed_eq {nodes : ChainProvider → Prop} {next : IndexerState} {fromBlock : Nat}
    (hstate : Contiguous runtime events state)
    (hstep : IndexerStep contracts nodes runtime state (.resumed fromBlock) next) :
    fromBlock = nextBlock runtime state.store := by
  cases hstep with
  | absent _ hcheck => exact startBlock_eq_nextBlock hcheck
  | canonical _ hcheck | canonicalUnderLease _ hcheck => exact hstate.canonical_eq hcheck

theorem Contiguous.step {state next : IndexerState} {event : IndexerEvent}
    (hstate : Contiguous runtime events state)
    (hstep : IndexerStep contracts ChainProvider.LogsInRange runtime state event next) :
    Contiguous runtime (events ++ [event]) next := by
  cases hstep with
  | absent _ hcheck =>
      refine hstate.quiet rfl fun fromBlock heq => ?_
      rw [← IndexerPhase.resumed.inj heq]
      exact startBlock_eq_nextBlock hcheck
  | canonical _ hcheck | canonicalUnderLease _ hcheck =>
      refine hstate.quiet rfl fun fromBlock heq => ?_
      rw [← IndexerPhase.resumed.inj heq]
      exact hstate.canonical_eq hcheck
  | reorged _ _ | absentUnderLease _ _ | stop => exact hstate.quiet rfl fun _ heq => by cases heq
  | rewind _ hcheck hok => exact hstate.rewind (checkProgress_eq_reorged hcheck).1 hok
  | index hnormal harchive hhead hok => exact hstate.index hnormal harchive hhead hok

theorem contiguous_of_run
    (hrun : Run.Reaches (IndexerStep contracts ChainProvider.LogsInRange runtime) ⟨.idle, {}⟩
      events state) : Contiguous runtime events state :=
  hrun.invariant contiguous_empty fun _ _ _ _ hstate hstep => hstate.step hstep

structure NoGap (contracts : Contracts) (nodes : ChainProvider → Prop) (runtime : ChainRuntime)
    (events : List IndexerEvent) (state : IndexerState) : Prop where
  uniform : ∃ progress, ∀ kind, state.store.progress runtime.key kind = progress
  covered : ∀ kind progress, state.store.progress runtime.key kind = some progress →
    ∀ block, runtime.chain.startBlock.toNat ≤ block → block ≤ progress.indexedThroughBlock →
      CommittedSince events block
  rows : ∀ kind progress, state.store.progress runtime.key kind = some progress →
    (state.store.indexed runtime.key).AllRows fun number _ => number ≤ progress.indexedThroughBlock
  resumes : ∀ fromBlock next,
    IndexerStep contracts nodes runtime state (.resumed fromBlock) next →
      fromBlock = nextBlock runtime state.store
        ∧ ∀ replayFromBlock previousHash,
          lastCommit events = some (.rewound replayFromBlock previousHash) →
            fromBlock = replayFromBlock

/-- **No gaps.** After any run of the loop of one contract from an empty store, whatever failed,
whichever nodes answered and however often the remote chain changed, all datasets have the same
progress, the blocks up to it lie in batches committed since they were last rewound, no row lies above
it, and the next batch starts right after it. -/
theorem noGap_of_run {state : IndexerState}
    (hrun : Run.Reaches (IndexerStep contracts ChainProvider.LogsInRange runtime) ⟨.idle, {}⟩ events
      state) : NoGap contracts ChainProvider.LogsInRange runtime events state := by
  have hstate := contiguous_of_run hrun
  refine ⟨⟨_, hstate.uniform⟩, ?_, ?_, ?_⟩
  · intro kind progress hprogress block hstart hle
    rw [hstate.uniform kind] at hprogress
    refine hstate.covered block hstart ?_
    rw [nextBlock_of_some hprogress]
    omega
  · intro kind progress hprogress
    rw [hstate.uniform kind] at hprogress
    refine hstate.rows.imp fun number _ hlt => ?_
    rw [nextBlock_of_some hprogress] at hlt
    omega
  · intro fromBlock next hstep
    have hnext := hstate.resumed_eq hstep
    refine ⟨hnext, fun replayFromBlock previousHash hlast => ?_⟩
    rw [hnext]
    exact hstate.afterRewind replayFromBlock previousHash hlast

/-! ### Whole cycles -/

section Cycle

variable {nodes : ChainProvider → Prop} {provider : ChainProvider}

theorem resumeTurn_run (hnodes : nodes provider) {turn : Loop.Turn Store Nat}
    (hok : resumeTurn runtime provider store = .ok turn) :
    ∃ events, match turn with
      | .again next => Run.Reaches (IndexerStep contracts nodes runtime) ⟨.idle, store⟩ events
          ⟨.idle, next⟩
      | .done fromBlock => Run.Reaches (IndexerStep contracts nodes runtime) ⟨.idle, store⟩ events
          ⟨.resumed fromBlock, store⟩ := by
  obtain ⟨check, hcheck, hok⟩ := bind_eq_ok.mp hok
  cases check with
  | absent =>
      cases hok
      exact ⟨_, .single (.absent hnodes hcheck)⟩
  | canonical fromBlock =>
      cases hok
      exact ⟨_, .single (.canonical hnodes hcheck)⟩
  | reorged progress =>
      have hsuspect : Run.Reaches (IndexerStep contracts nodes runtime) ⟨.idle, store⟩ [.silent]
          ⟨.suspect, store⟩ := .single (.reorged hnodes hcheck)
      obtain ⟨again, hagain, hok⟩ := bind_eq_ok.mp hok
      cases again with
      | absent =>
          cases hok
          exact ⟨_, hsuspect.tail (.absentUnderLease hnodes hagain)⟩
      | canonical fromBlock =>
          cases hok
          exact ⟨_, hsuspect.tail (.canonicalUnderLease hnodes hagain)⟩
      | reorged progress =>
          obtain ⟨rewound, hrewound, heq⟩ := bind_eq_ok.mp hok
          cases heq
          exact ⟨_, hsuspect.tail (.rewind hnodes hagain hrewound)⟩

theorem resumeBlockAfterReorg_run (hnodes : nodes provider) {fuel : Nat}
    {outcome : Except ChainIndexedError Nat}
    (hok : resumeBlockAfterReorg runtime provider fuel store = some (after, outcome)) :
    ∃ events phase, Run.Reaches (IndexerStep contracts nodes runtime) ⟨.idle, store⟩ events
        ⟨phase, after⟩
      ∧ ∀ fromBlock, outcome = .ok fromBlock → phase = .resumed fromBlock := by
  induction fuel generalizing store with
  | zero => cases hok
  | succ fuel ih =>
      rw [resumeBlockAfterReorg, Loop.run] at hok
      split at hok
      · cases hok
        exact ⟨[], .idle, .refl, fun _ herror => by cases herror⟩
      · rename_i fromBlock hturn
        cases hok
        obtain ⟨events, hrun⟩ := @resumeTurn_run contracts _ _ _ _ hnodes _ hturn
        refine ⟨events, _, hrun, fun found heq => ?_⟩
        rw [Except.ok.inj heq]
      · rename_i next hturn
        obtain ⟨events, hrun⟩ := @resumeTurn_run contracts _ _ _ _ hnodes _ hturn
        obtain ⟨later, phase, hlater, hphase⟩ := ih hok
        exact ⟨events ++ later, phase, hrun.trans hlater, hphase⟩

/-- **A cycle against fixed nodes is a run of the loop.** -/
theorem indexChainOnce_run {providers : Providers} {order : VisitingOrder} {batchSpan fuel : Nat}
    {mode : ChainIndexProviderMode} {outcome : Except ChainIndexedError ChainIndexStep}
    (hnormal : nodes providers.normal) (harchive : nodes providers.archive)
    (hok : indexChainOnce contracts runtime providers order batchSpan mode fuel store
      = some (after, outcome)) :
    ∃ events, Run.Reaches (IndexerStep contracts nodes runtime) ⟨.idle, store⟩ events
      ⟨.idle, after⟩ := by
  unfold indexChainOnce at hok
  split at hok
  · cases hok
    exact ⟨[], .refl⟩
  · split at hok
    · cases hok
    · rename_i hresume
      cases hok
      obtain ⟨events, phase, hrun, -⟩ := @resumeBlockAfterReorg_run contracts _ _ _ _ _ harchive _ _
        hresume
      exact ⟨_, hrun.tail .stop⟩
    · rename_i rewound fromBlock hresume
      obtain ⟨events, phase, hrun, hphase⟩ := @resumeBlockAfterReorg_run contracts _ _ _ _ _ harchive
        _ _ hresume
      obtain rfl := hphase fromBlock rfl
      dsimp only at hok
      split at hok
      · cases hok
        exact ⟨_, hrun.tail .stop⟩
      · rename_i hsafe
        split at hok
        · rename_i indexed step hindexed
          cases hok
          exact ⟨_, hrun.tail (.index hnormal harchive (Nat.not_lt.mp hsafe) hindexed)⟩
        · cases hok
          exact ⟨_, hrun.tail .stop⟩

end Cycle

end Run

theorem branchProvider_logsInRange (tip : Bytes32) : (branchProvider tip).LogsInRange :=
  fun filter logs hlogs log hlog source hsource =>
    ⟨trivial, (branchProvider_servesLogs tip filter logs hlogs log hlog source hsource).2⟩

/-- Blocks 0 to 5 are indexed on one branch; the other branch then takes over and blocks 4 and 5 are
rewound. -/
theorem noGap_branch_rewound :
    ∃ state, NoGap toyContracts ChainProvider.LogsInRange (branchRuntime 0 1)
        [.resumed 0, .indexed 0 5 (some ((branch 20).hash 5)), .silent,
          .rewound 4 (some ((branch 30).hash 3))] state
      ∧ state.store.progress ⟨1, 1⟩ .publicTxid = some ⟨3, (branch 30).hash 3⟩ := by
  have hindexed : Run.Reaches
      (IndexerStep toyContracts ChainProvider.LogsInRange (branchRuntime 0 1)) ⟨.idle, {}⟩
      [.resumed 0, .indexed 0 5 (some ((branch 20).hash 5))] ⟨.idle, branchStore⟩ :=
    (Run.Reaches.single (.absent (branchProvider_logsInRange 20) rfl)).tail
      (@IndexerStep.index toyContracts _ (branchRuntime 0 1) {} branchStore
        ⟨branchProvider 20, branchProvider 20⟩ keyOrder 6 5 0 .archive (.indexed 1 0)
        (branchProvider_logsInRange 20) (branchProvider_logsInRange 20) (by decide) rfl)
  have hsuspect := hindexed.tail (.reorged (branchProvider_logsInRange 30) rfl)
  have hrewound := hsuspect.tail (.rewind (branchProvider_logsInRange 30) rfl rfl)
  exact ⟨_, noGap_of_run hrewound, rfl⟩

theorem indexChainOnce_run_branch :
    indexChainOnce toyContracts (branchRuntime 0 1) ⟨branchProvider 20, branchProvider 20⟩ keyOrder 6
        .archive 1 {} = some (branchStore, .ok (.indexed 1 0))
      ∧ ∃ events, Run.Reaches
        (IndexerStep toyContracts ChainProvider.LogsInRange (branchRuntime 0 1)) ⟨.idle, {}⟩ events
        ⟨.idle, branchStore⟩ :=
  ⟨rfl, @indexChainOnce_run _ _ _ _ _ ⟨branchProvider 20, branchProvider 20⟩ keyOrder 6 1 .archive
    (.ok (.indexed 1 0)) (branchProvider_logsInRange 20) (branchProvider_logsInRange 20) rfl⟩

end RailgunIndexer
