import RailgunIndexer.PublicationSnapshot
import RailgunIndexer.Proof.IndexingRun

/-!
# Watermark headers

Progress belongs to a contract and headers belong to a chain. A contract keeps the header of its own
progress, but its rewinds and its batches also reach the headers other contracts of the chain rely on.
As long as no step touches the header of another contract's progress, every progress row has its
header, and the heights read for a publication pass their validation.
-/

namespace RailgunIndexer

open Lib Fallible

/-! ### The heights read for a publication -/

section Heights

variable {chain : ChainIndexedChainConfig} {store : Store}

def Store.HasWatermark (store : Store) (chainId : Nat) (progress : ChainIndexingProgress) : Prop :=
  store.headerHash chainId progress.indexedThroughBlock = some progress.indexedThroughBlockHash

theorem latestIndexedHeights_eq_ok (hchain : chain.chainId < i64Bound) :
    ∃ latest, latestIndexedHeights chain store = .ok latest
      ∧ ∀ height ∈ latest, store.progress chain.key height.datasetKind
        = some ⟨height.blockNumber, height.blockHash⟩ := by
  have hread : ∀ dataset, latestIndexedHeight chain store dataset
      = .ok ((store.progress chain.key dataset).map fun progress =>
        ⟨dataset, progress.indexedThroughBlock, progress.indexedThroughBlockHash⟩) := by
    intro dataset
    have hprogress : chainIndexingProgress chain.key dataset store
        = .ok (store.progress chain.key dataset) :=
      bind_eq_ok.mpr ⟨_, u64ToI64_eq_ok.mpr ⟨hchain, rfl⟩, rfl⟩
    rw [latestIndexedHeight, hprogress]
    rfl
  have hall : chain.datasets.mapM (latestIndexedHeight chain store)
      = .ok (chain.datasets.map fun dataset => (store.progress chain.key dataset).map fun progress =>
        ⟨dataset, progress.indexedThroughBlock, progress.indexedThroughBlockHash⟩) := by
    rw [mapM_eq_ok_iff, List.forall₂_map_right_iff]
    exact List.forall₂_same.mpr fun dataset _ => hread dataset
  refine ⟨_, bind_eq_ok.mpr ⟨_, hall, rfl⟩, ?_⟩
  intro height hheight
  rw [List.reduceOption_mem_iff, List.mem_map] at hheight
  obtain ⟨dataset, -, hheight⟩ := hheight
  obtain ⟨progress, hprogress, rfl⟩ := Option.map_eq_some_iff.mp hheight
  exact hprogress

theorem validateStoredWatermark_eq_ok (hchain : chain.chainId < i64Bound)
    {height : LatestIndexedHeight} (hfits : height.blockNumber < i64Bound) :
    validateStoredWatermark chain store height = .ok ()
      ↔ store.HasWatermark chain.chainId ⟨height.blockNumber, height.blockHash⟩ := by
  have hread : indexedBlockHeader chain.chainId height.blockNumber store
      = .ok ((store.headers chain.chainId).get? height.blockNumber) :=
    bind_eq_ok.mpr ⟨_, u64ToI64_eq_ok.mpr ⟨hchain, rfl⟩,
      bind_eq_ok.mpr ⟨_, u64ToI64_eq_ok.mpr ⟨hfits, rfl⟩, rfl⟩⟩
  rw [validateStoredWatermark, hread, Store.HasWatermark, Store.headerHash]
  change validatePublicationWatermark height _ = .ok () ↔ _
  cases hheader : (store.headers chain.chainId).get? height.blockNumber with
  | none | some header => simp [validatePublicationWatermark]

theorem validateChainSnapshot_eq_ok (hchain : chain.chainId < i64Bound)
    {latest : List LatestIndexedHeight} (hfits : ∀ height ∈ latest, height.blockNumber < i64Bound) :
    validateChainSnapshot chain latest store = .ok ()
      ↔ ∀ height ∈ latest,
        store.HasWatermark chain.chainId ⟨height.blockNumber, height.blockHash⟩ := by
  rw [validateChainSnapshot, forM_eq_ok_iff]
  exact forall₂_congr fun height hmem => validateStoredWatermark_eq_ok hchain (hfits height hmem)

end Heights

/-! ### Steps that touch no other watermark -/

section Steps

/-- The step leaves the headers of the other contracts' progress alone: a batch that ends there ends
on the same hash, and a rewind goes back neither to such a header nor past it. -/
def Undisturbed (state : IndexersState) : ContractKey × IndexerEvent → Prop
  | (key, .indexed _ toBlock blockHash) =>
      ∀ other kind progress, other ≠ key → other.chainId = key.chainId →
        state.store.progress other kind = some progress →
          progress.indexedThroughBlock = toBlock → blockHash = some progress.indexedThroughBlockHash
  | (key, .rewound replayFromBlock previousHash) =>
      ∀ other kind progress, other ≠ key → other.chainId = key.chainId →
        state.store.progress other kind = some progress →
          progress.indexedThroughBlock < replayFromBlock
            ∧ (progress.indexedThroughBlock = replayFromBlock - 1 →
              previousHash = some progress.indexedThroughBlockHash)
  | _ => True

structure Watermarked (store : Store) : Prop where
  uniform : ∀ key kind, store.progress key kind = store.progress key .walletScan
  kept : ∀ key progress, store.progress key .walletScan = some progress →
    progress.indexedThroughBlock < i64Bound ∧ store.HasWatermark key.chainId progress

variable {contracts : Contracts} {nodes : ChainProvider → Prop} {runtime : ChainRuntime}
  {store after : Store}

theorem watermarked_empty : Watermarked {} where
  uniform _ _ := rfl
  kept _ _ hnone := by cases hnone

theorem Watermarked.commit {key : ContractKey} {new : DatasetKind → Option ChainIndexingProgress}
    {headers : OrdMap Nat HeaderRow} (hstore : Watermarked store)
    (hprogress : after.progress = Function.update store.progress key new)
    (hheaders : after.headers = Function.update store.headers key.chainId headers)
    (huniform : ∀ kind, new kind = new .walletScan)
    (hown : ∀ progress, new .walletScan = some progress → progress.indexedThroughBlock < i64Bound
      ∧ (headers.get? progress.indexedThroughBlock).map HeaderRow.blockHash
        = some progress.indexedThroughBlockHash)
    (hothers : ∀ other progress, other ≠ key → other.chainId = key.chainId →
      store.progress other .walletScan = some progress →
        store.HasWatermark key.chainId progress →
          (headers.get? progress.indexedThroughBlock).map HeaderRow.blockHash
            = some progress.indexedThroughBlockHash) : Watermarked after := by
  constructor
  · intro other kind
    rw [hprogress]
    by_cases hkey : other = key
    · subst hkey
      simp only [Function.update_self]
      exact huniform kind
    · simp only [Function.update_of_ne hkey]
      exact hstore.uniform other kind
  · intro other progress hsome
    rw [Store.HasWatermark, Store.headerHash, hheaders]
    by_cases hkey : other = key
    · subst hkey
      rw [hprogress, Function.update_self] at hsome
      rw [Function.update_self]
      exact hown progress hsome
    · rw [hprogress, Function.update_of_ne hkey] at hsome
      obtain ⟨hfits, hkept⟩ := hstore.kept other progress hsome
      refine ⟨hfits, ?_⟩
      by_cases hchain : other.chainId = key.chainId
      · rw [hchain, Function.update_self]
        rw [hchain] at hkept
        exact hothers other progress hkey hchain hsome hkept
      · rw [Function.update_of_ne hchain]
        exact hkept

theorem headerHash_of_update {chainId number : Nat} {headers : OrdMap Nat HeaderRow}
    (hheaders : after.headers = Function.update store.headers chainId headers) :
    after.headerHash chainId number = (headers.get? number).map HeaderRow.blockHash := by
  rw [Store.headerHash, hheaders, Function.update_self]

theorem Watermarked.index {providers : Providers} {order : VisitingOrder}
    {mode : ChainIndexProviderMode} {safeHead fromBlock toBlock : Nat} {step : ChainIndexStep}
    (hstore : Watermarked store) (hto : toBlock < u64Bound)
    (hok : indexRange contracts runtime providers order mode safeHead fromBlock toBlock store
      = .ok (after, step))
    (hothers : ∀ other kind progress, other ≠ runtime.key → other.chainId = runtime.key.chainId →
      store.progress other kind = some progress → progress.indexedThroughBlock = toBlock →
        after.headerHash runtime.chain.chainId toBlock = some progress.indexedThroughBlockHash) :
    Watermarked after := by
  obtain ⟨provider, -, hok⟩ := indexRange_eq_ok hok
  obtain ⟨header, batch, -, -, hfits, -, hheaders, hprogress⟩ :=
    indexChainRangeWithProvider_commits hto hok
  refine hstore.commit hprogress hheaders ?_ ?_ ?_
  · intro kind
    rw [hstore.uniform runtime.key kind]
  · intro progress hsome
    rw [OrdMap.get?_insert]
    obtain hnew | hold := advanceProgress_eq ⟨toBlock, header.blockHash⟩
      (store.progress runtime.key .walletScan)
    · rw [hnew, Option.some.injEq] at hsome
      subst hsome
      exact ⟨hfits, by rw [if_pos rfl]; rfl⟩
    · rw [← hold] at hsome
      obtain ⟨hbound, hkept⟩ := hstore.kept runtime.key progress hsome
      refine ⟨hbound, ?_⟩
      by_cases hsame : toBlock = progress.indexedThroughBlock
      · rw [hsome, advanceProgress, if_pos hsame.ge, Option.some.injEq] at hold
        rw [hold, if_pos rfl]
        rfl
      · rw [if_neg hsame]
        exact hkept
  · intro other progress hne hchain hsome hkept
    by_cases hsame : progress.indexedThroughBlock = toBlock
    · rw [← headerHash_of_update hheaders, hsame]
      exact hothers other .walletScan progress hne hchain hsome hsame
    · rw [OrdMap.get?_insert, if_neg (Ne.symm hsame)]
      exact hkept

theorem Watermarked.rewind {provider : ChainProvider} {progress : ChainIndexingProgress}
    (hstore : Watermarked store)
    (hprogress : store.progress runtime.key .walletScan = some progress)
    (hok : rewindAfterReorg runtime provider progress store = .ok after)
    (hothers : ∀ other kind found, other ≠ runtime.key → other.chainId = runtime.key.chainId →
      store.progress other kind = some found →
        found.indexedThroughBlock < replayFromBlock runtime progress.indexedThroughBlock
          ∧ (found.indexedThroughBlock = replayFromBlock runtime progress.indexedThroughBlock - 1 →
            after.headerHash runtime.chain.chainId
              (replayFromBlock runtime progress.indexedThroughBlock - 1)
              = some found.indexedThroughBlockHash)) : Watermarked after := by
  obtain ⟨headers, hrewound, hfits, -, hheaders, hafter⟩ := rewindAfterReorg_eq_ok hok
  have hstart : replayFromBlock runtime progress.indexedThroughBlock
        ≤ progress.indexedThroughBlock
      ∨ replayFromBlock runtime progress.indexedThroughBlock = runtime.chain.startBlock.toNat := by
    simp only [replayFromBlock]
    omega
  generalize replayFromBlock runtime progress.indexedThroughBlock = replay at *
  have hget : ∀ number, number < replay →
      (headers.filter fun number _ => number < replay).get? number = headers.get? number := by
    intro number hlt
    rw [OrdMap.get?_filter]
    cases headers.get? number with
    | none => rfl
    | some header => exact Option.filter_some_pos (by simpa using hlt)
  refine hstore.commit hafter hheaders ?_ ?_ ?_
  · intro kind
    rw [hstore.uniform runtime.key kind]
  · intro found hsome
    rw [hprogress, rewindProgress] at hsome
    split at hsome
    · obtain ⟨hpositive, header, hheader, rfl⟩ := previousProgress_eq_some_iff.mp hsome
      refine ⟨by change replay - 1 < i64Bound; omega, ?_⟩
      rw [hget (replay - 1) (by omega), hheader]
      rfl
    · rename_i hreached
      cases hsome
      obtain ⟨hbound, hkept⟩ := hstore.kept runtime.key progress hprogress
      rw [RewindHeaders, if_neg (by omega)] at hrewound
      subst hrewound
      rw [hget _ (by omega)]
      exact ⟨hbound, hkept⟩
  · intro other found hne hchain hsome hkept
    obtain ⟨hlt, hsame⟩ := hothers other .walletScan found hne hchain hsome
    by_cases hprevious : found.indexedThroughBlock = replay - 1
    · have hhash := hsame hprevious
      rw [headerHash_of_update hheaders, ← hprevious] at hhash
      exact hhash
    · rw [hget _ hlt]
      rw [RewindHeaders] at hrewound
      split at hrewound
      · obtain ⟨header, -, rfl⟩ := hrewound
        rw [OrdMap.get?_insert, if_neg (Ne.symm hprevious)]
        exact hkept
      · rw [hrewound]
        exact hkept

theorem Watermarked.step {config : ChainIndexedDatasetConfig} {state next : IndexersState}
    {event : ContractKey × IndexerEvent} (hstate : Watermarked state.store)
    (hstep : IndexersStep contracts nodes config state event next)
    (hundisturbed : Undisturbed state event) : Watermarked next.store := by
  cases hstep with
  | @step phases _ _ _ runtime _ _ hstep =>
      generalize phases runtime.key = phase at hstep
      cases hstep with
      | absent _ _ | canonical _ _ | reorged _ _ | absentUnderLease _ _ | canonicalUnderLease _ _
      | stop => exact hstate
      | rewind _ hcheck hok =>
          exact hstate.rewind (checkProgress_eq_reorged hcheck).1 hok hundisturbed
      | index _ _ _ hok => exact hstate.index (batchToBlock_lt _ _ _) hok hundisturbed

theorem watermarked_of_undisturbed {config : ChainIndexedDatasetConfig}
    {events : List (ContractKey × IndexerEvent)} {state : IndexersState}
    (hrun : Run.Reaches (fun state event next => IndexersStep contracts nodes config state event next
      ∧ Undisturbed state event) ⟨fun _ => .idle, {}⟩ events state) : Watermarked state.store :=
  @Run.Reaches.invariant _ _ _ _ _ _ (fun _ state => Watermarked state.store) hrun watermarked_empty
    fun _ _ _ _ hstate hstep => hstate.step hstep.1 hstep.2

/-- **Watermarks of an undisturbed run.** When no step of a contract touches the header of another
contract's progress, every progress row has its header, and the heights read for a publication are
accepted. -/
theorem watermarks_kept_of_undisturbed {config : ChainIndexedDatasetConfig}
    {events : List (ContractKey × IndexerEvent)} {state : IndexersState}
    (hrun : Run.Reaches (fun state event next => IndexersStep contracts nodes config state event next
      ∧ Undisturbed state event) ⟨fun _ => .idle, {}⟩ events state) (runtime : ChainRuntime) :
    (∀ kind progress, state.store.progress runtime.key kind = some progress →
        runtime.chain.startBlock.toNat ≤ progress.indexedThroughBlock →
          state.store.HasWatermark runtime.chain.chainId progress)
      ∧ ∃ latest, latestIndexedHeights runtime.chain state.store = .ok latest
        ∧ validateChainSnapshot runtime.chain latest state.store = .ok () := by
  have hstate := watermarked_of_undisturbed hrun
  have hkept : ∀ kind progress, state.store.progress runtime.key kind = some progress →
      progress.indexedThroughBlock < i64Bound
        ∧ state.store.HasWatermark runtime.chain.chainId progress := by
    intro kind progress hprogress
    rw [hstate.uniform] at hprogress
    exact hstate.kept runtime.key progress hprogress
  refine ⟨fun kind progress hprogress _ => (hkept kind progress hprogress).2, ?_⟩
  obtain ⟨latest, hlatest, hheights⟩ :=
    @latestIndexedHeights_eq_ok runtime.chain state.store runtime.chainId_lt
  refine ⟨latest, hlatest, (validateChainSnapshot_eq_ok runtime.chainId_lt ?_).mpr ?_⟩
  · exact fun height hmem => (hkept _ _ (hheights height hmem)).1
  · exact fun height hmem => (hkept _ _ (hheights height hmem)).2

end Steps

/-! ### Two contracts of one chain -/

section Shared

def forkProvider (fork tip : Nat) : ChainProvider where
  getTransactionByHash _ := .ok none
  getBlockByHash _ := .ok none
  getFullBlockByHash _ := .ok none
  debugTraceTransaction _ := none
  traceTransaction _ := none
  getLogs _ := .ok []
  getBlockNumber := some 5
  getBlockByNumber number :=
    some (some ⟨FixedBytes.ofNat ((if number ≤ fork then 100 else tip) + number), 0⟩)

def sharedSettings (railgunContract : Address) : ChainIndexedChainConfig :=
  { toySettings 0 with railgunContract }

def sharedConfig : ChainIndexedDatasetConfig :=
  { toyConfig 0 5 with chains := [sharedSettings 1, sharedSettings 2] }

theorem valid_sharedConfig : validateChainIndexed sharedConfig = .ok () := by decide

def sharedRuntime (railgunContract : Address)
    (hchain : sharedSettings railgunContract ∈ sharedConfig.chains) : ChainRuntime where
  config := sharedConfig
  chain := sharedSettings railgunContract
  enabled := rfl
  valid := valid_sharedConfig
  configured := hchain

theorem first_configured : sharedSettings 1 ∈ sharedConfig.chains := by decide

theorem second_configured : sharedSettings 2 ∈ sharedConfig.chains := by decide

def firstRuntime : ChainRuntime := sharedRuntime 1 first_configured

def secondRuntime : ChainRuntime := sharedRuntime 2 second_configured

def sharedNodes : Providers := ⟨forkProvider 4 200, forkProvider 4 200⟩

def sharedIndexed (runtime : ChainRuntime) (toBlock : Nat) (store : Store) : Store :=
  match indexRange toyContracts runtime sharedNodes keyOrder .archive toBlock 0 toBlock store with
  | .ok (after, _) => after
  | .error _ => store

def firstStore : Store := sharedIndexed firstRuntime 5 {}

def secondStore : Store := sharedIndexed secondRuntime 3 firstStore

theorem firstStore_eq : indexRange toyContracts firstRuntime sharedNodes keyOrder .archive 5 0 5 {}
    = .ok (firstStore, .indexed 0 0) := rfl

theorem secondStore_eq : indexRange toyContracts secondRuntime sharedNodes keyOrder .archive 3 0 3
    firstStore = .ok (secondStore, .indexed 0 0) := rfl

def rewoundStore : Store :=
  match rewindAfterReorg firstRuntime (forkProvider 4 300) ⟨5, 205⟩ secondStore with
  | .ok after => after
  | .error _ => secondStore

theorem rewoundStore_eq : rewindAfterReorg firstRuntime (forkProvider 4 300) ⟨5, 205⟩ secondStore
    = .ok rewoundStore := rfl

theorem progress_firstStore {other : ContractKey} {kind : DatasetKind}
    {progress : ChainIndexingProgress} (hprogress : firstStore.progress other kind = some progress) :
    progress = ⟨5, 205⟩ := by
  obtain ⟨header, -, hheader, -, -, -, -, hafter⟩ :=
    indexChainRangeWithProvider_commits (by decide) firstStore_eq
  rw [hafter] at hprogress
  by_cases hother : other = firstRuntime.key
  · rw [hother, Function.update_self] at hprogress
    cases hheader
    exact (Option.some.inj hprogress).symm
  · rw [Function.update_of_ne hother] at hprogress
    exact absurd hprogress (by simp)

abbrev SharedIndexers := IndexersStep toyContracts (fun _ => True) sharedConfig

def SharedStep (state : IndexersState) (event : ContractKey × IndexerEvent) (next : IndexersState) :
    Prop :=
  SharedIndexers state event next ∧ Undisturbed state event

theorem sharedStep_resume (runtime : ChainRuntime) {phases : ContractKey → IndexerPhase}
    {store : Store} (hconfig : runtime.config = sharedConfig) (hphase : phases runtime.key = .idle)
    (habsent : checkProgress (forkProvider 4 200) runtime.key "read chain-indexed progress" store
      = .ok .absent) :
    SharedStep ⟨phases, store⟩ (runtime.key, .resumed runtime.chain.startBlock.toNat)
      ⟨Function.update phases runtime.key (.resumed runtime.chain.startBlock.toNat), store⟩ := by
  refine ⟨.step hconfig ?_, trivial⟩
  rw [hphase]
  exact .absent trivial habsent

theorem sharedStep_index (runtime : ChainRuntime) (toBlock : Nat) (blockHash : Option Bytes32)
    {phases : ContractKey → IndexerPhase} {store after : Store} {step : ChainIndexStep}
    (hconfig : runtime.config = sharedConfig) (hphase : phases runtime.key = .resumed 0)
    (hto : batchToBlock 0 6 toBlock = toBlock)
    (hok : indexRange toyContracts runtime sharedNodes keyOrder .archive toBlock 0 toBlock store
      = .ok (after, step))
    (hhash : after.headerHash runtime.chain.chainId toBlock = blockHash)
    (hundisturbed : Undisturbed ⟨phases, store⟩ (runtime.key, .indexed 0 toBlock blockHash)) :
    SharedStep ⟨phases, store⟩ (runtime.key, .indexed 0 toBlock blockHash)
      ⟨Function.update phases runtime.key .idle, after⟩ := by
  have hbatch : indexRange toyContracts runtime sharedNodes keyOrder .archive toBlock 0
      (batchToBlock 0 6 toBlock) store = .ok (after, step) := by
    rw [hto]
    exact hok
  have hstep := @IndexerStep.index _ (fun _ => True) _ _ _ _ _ _ _ _ _ _ trivial trivial
    (Nat.zero_le toBlock) hbatch
  rw [hto, hhash] at hstep
  refine ⟨.step hconfig ?_, hundisturbed⟩
  rw [hphase]
  exact hstep

theorem shared_run : ∃ phases, phases ⟨1, 1⟩ = .idle
    ∧ Run.Reaches SharedStep ⟨fun _ => .idle, {}⟩ [(⟨1, 1⟩, .resumed 0),
      (⟨1, 1⟩, .indexed 0 5 (some 205)), (⟨1, 2⟩, .resumed 0), (⟨1, 2⟩, .indexed 0 3 (some 103))]
      ⟨phases, secondStore⟩ := by
  have hresumed := Run.Reaches.single
    (@sharedStep_resume firstRuntime (fun _ => .idle) {} rfl rfl rfl)
  have hfirst := hresumed.tail
    (sharedStep_index firstRuntime 5 (some 205) rfl rfl rfl firstStore_eq rfl ?_)
  have hother := hfirst.tail (sharedStep_resume secondRuntime rfl rfl rfl)
  have hsecond := hother.tail
    (sharedStep_index secondRuntime 3 (some 103) rfl rfl rfl secondStore_eq rfl ?_)
  · exact ⟨_, rfl, hsecond⟩
  · intro other kind progress _ _ hprogress hblock
    obtain rfl := progress_firstStore hprogress
    exact absurd hblock (by decide)
  · intro other kind progress _ _ hprogress _
    exact absurd hprogress (by simp)

theorem watermarks_kept_shared : ∃ events state, events.length = 4
    ∧ state.store.progress secondRuntime.key .walletScan = some ⟨3, 103⟩
    ∧ state.store.HasWatermark 1 ⟨3, 103⟩
    ∧ Run.Reaches SharedStep ⟨fun _ => .idle, {}⟩ events state := by
  obtain ⟨phases, -, hrun⟩ := shared_run
  have hprogress : secondStore.progress secondRuntime.key .walletScan = some ⟨3, 103⟩ := rfl
  exact ⟨_, _, rfl, hprogress, (watermarks_kept_of_undisturbed hrun secondRuntime).1 _ _ hprogress
    (by decide), hrun⟩

/-- A rewind of the first contract deletes the header of the second contract's progress. Every node
still serves that block with the recorded hash. -/
theorem rewind_drops_other_watermark : validateChainIndexed sharedConfig = .ok ()
    ∧ ∃ events state, Run.Reaches SharedIndexers ⟨fun _ => .idle, {}⟩ events state
      ∧ state.store.progress secondRuntime.key .walletScan = some ⟨3, 103⟩
      ∧ secondRuntime.chain.startBlock.toNat ≤ 3
      ∧ (∀ tip, fetchBlockHeader (forkProvider 4 tip) 3 = .ok ⟨3, 103, 0⟩)
      ∧ ¬state.store.HasWatermark 1 ⟨3, 103⟩
      ∧ ∃ latest, latestIndexedHeights secondRuntime.chain state.store = .ok latest
        ∧ validateChainSnapshot secondRuntime.chain latest state.store
          = .error (.watermarkRewound 3 .walletScan) := by
  obtain ⟨phases, hidle, hshared⟩ := shared_run
  have hrun := @Run.Reaches.mono _ _ _ SharedIndexers _ _ _ hshared fun _ _ _ _ hstep => hstep.1
  have hsuspect : SharedIndexers ⟨phases, secondStore⟩ (⟨1, 1⟩, .silent)
      ⟨Function.update phases ⟨1, 1⟩ .suspect, secondStore⟩ := by
    refine @IndexersStep.step _ _ _ _ _ _ _ firstRuntime _ rfl ?_
    rw [show phases firstRuntime.key = .idle from hidle]
    exact @IndexerStep.reorged _ _ _ _ (forkProvider 4 300) ⟨5, 205⟩ trivial rfl
  have hrewound : SharedIndexers
      ⟨Function.update phases ⟨1, 1⟩ .suspect, secondStore⟩ (⟨1, 1⟩, .rewound 0 none)
      ⟨Function.update (Function.update phases ⟨1, 1⟩ .suspect) ⟨1, 1⟩ .idle, rewoundStore⟩ := by
    refine @IndexersStep.step _ _ _ _ _ _ _ firstRuntime _ rfl ?_
    exact .rewind trivial rfl rewoundStore_eq
  have hlost : rewoundStore.headerHash 1 3 = none := rfl
  exact ⟨valid_sharedConfig, _, _, (hrun.tail hsuspect).tail hrewound, rfl, by decide, fun _ => rfl,
    fun hkept => Option.some_ne_none _ (hkept.symm.trans hlost), _, rfl, rfl⟩

end Shared

end RailgunIndexer
