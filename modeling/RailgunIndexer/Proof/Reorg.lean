import RailgunIndexer.Proof.IndexedChain

/-!
# Recovery from a reorganisation

What one turn of `resumeBlockAfterReorg` does against a fixed remote chain, when the loop returns, and
which rows it leaves behind. A rewind that goes below the progress and above the start block writes
the remote header it falls back to itself, so the next turn always agrees with it: the loop never looks
further back than one window.
-/

namespace RailgunIndexer

open Lib Fallible

/-! ### Valid settings -/

section Settings

theorem reject_eq_ok {condition : Bool} {error : ConfigValidationError} {result : Unit} :
    reject condition error = .ok result ↔ condition = false := by
  cases condition <;> simp [reject]

theorem ChainRuntime.checks (runtime : ChainRuntime) :
    runtime.config.maxBlocksPerBatch ≠ 0
      ∧ ∃ seen, runtime.config.chains.foldlM validateChain [] = .ok seen := by
  have hvalid := runtime.valid
  simp only [validateChainIndexed, runtime.enabled, Bool.not_true, Bool.false_eq_true, if_false,
    bind_eq_ok, reject_eq_ok] at hvalid
  obtain ⟨_, -, _, -, _, -, _, -, _, -, _, hspan, _, -, _, -, seen, hseen, -⟩ := hvalid
  exact ⟨by simpa using hspan, seen, hseen⟩

theorem ChainRuntime.chainId_lt (runtime : ChainRuntime) : runtime.chain.chainId < i64Bound := by
  obtain ⟨seen, hseen⟩ := runtime.checks.2
  obtain ⟨before, next, hstep⟩ := exists_step_of_foldlM hseen runtime.configured
  obtain ⟨_, hsupported, -⟩ := bind_eq_ok.mp hstep
  have hmem : runtime.chain.chainId ∈ supportedChainIds := by
    simpa using reject_eq_ok.mp hsupported
  have hall : ∀ chainId ∈ supportedChainIds, chainId < i64Bound := by decide
  exact hall _ hmem

end Settings

/-! ### One turn -/

section Turn

variable {runtime : ChainRuntime} {provider : ChainProvider} {remote : RemoteChain} {store : Store}
  {progress : ChainIndexingProgress}

theorem chainIndexingProgress_eq_ok (runtime : ChainRuntime) (store : Store) :
    chainIndexingProgress runtime.key .walletScan store
      = .ok (store.progress runtime.key .walletScan) :=
  bind_eq_ok.mpr ⟨_, u64ToI64_eq_ok.mpr ⟨runtime.chainId_lt, rfl⟩, rfl⟩

theorem checkProgress_absent (hprogress : store.progress runtime.key .walletScan = none)
    (context : String) : checkProgress provider runtime.key context store = .ok .absent := by
  rw [checkProgress, chainIndexingProgress_eq_ok, hprogress]
  rfl

theorem resumeTurn_absent (hprogress : store.progress runtime.key .walletScan = none) :
    resumeTurn runtime provider store = .ok (.done runtime.chain.startBlock.toNat) := by
  rw [resumeTurn, checkProgress_absent hprogress]
  rfl

structure Rewound (runtime : ChainRuntime) (replayFromBlock : Nat)
    (previous : Option ChainIndexingProgress) (store after : Store) : Prop where
  indexed_eq : after.indexed runtime.key = (store.indexed runtime.key).deleteFrom replayFromBlock
  progress_eq : after.progress runtime.key .walletScan
    = rewindProgress replayFromBlock previous (store.progress runtime.key .walletScan)

theorem exists_rewound (runtime : ChainRuntime) (store : Store) {replayFromBlock : Nat}
    (hreplay : replayFromBlock < i64Bound) :
    ∃ after counts,
      rewindChainIndexingToReplayBlock runtime.key replayFromBlock store = .ok (after, counts)
        ∧ Rewound runtime replayFromBlock
          (previousProgress (store.headers runtime.chain.chainId) replayFromBlock) store after := by
  obtain ⟨counts, hok⟩ := (@rewindChainIndexingToReplayBlock_eq_ok runtime.key replayFromBlock
    store _).mpr ⟨runtime.chainId_lt, hreplay, rfl⟩
  refine ⟨_, counts, hok, ?_, ?_⟩
  · exact Function.update_self ..
  · exact congrFun (Function.update_self runtime.key _ store.progress) DatasetKind.walletScan

section

variable (hserves : provider.ServesHeaders remote)

include hserves

section

variable (hprogress : store.progress runtime.key .walletScan = some progress)

include hprogress

theorem checkProgress_some (context : String) :
    checkProgress provider runtime.key context store
      = .ok (if remote.hash progress.indexedThroughBlock = progress.indexedThroughBlockHash
          then .canonical (min (progress.indexedThroughBlock + 1) (u64Bound - 1))
          else .reorged progress) := by
  rw [checkProgress, chainIndexingProgress_eq_ok, hprogress]
  refine bind_eq_ok.mpr ⟨_, rfl, bind_eq_ok.mpr ⟨_, fetchBlockHeader_eq_ok hserves _, ?_⟩⟩
  exact (apply_ite Except.ok ..).symm

theorem resumeTurn_canonical
    (hhash : remote.hash progress.indexedThroughBlock = progress.indexedThroughBlockHash)
    (hbound : progress.indexedThroughBlock < i64Bound) :
    resumeTurn runtime provider store = .ok (.done (progress.indexedThroughBlock + 1)) := by
  have hsaturated : min (progress.indexedThroughBlock + 1) (u64Bound - 1)
      = progress.indexedThroughBlock + 1 := by
    simp only [i64Bound, u64Bound] at hbound ⊢
    omega
  rw [resumeTurn, checkProgress_some hserves hprogress, if_pos hhash, hsaturated]
  rfl

theorem resumeTurn_reorged
    (hhash : remote.hash progress.indexedThroughBlock ≠ progress.indexedThroughBlockHash) :
    resumeTurn runtime provider store
      = (rewindAfterReorg runtime provider progress store >>= fun after => .ok (.again after)) := by
  rw [resumeTurn, checkProgress_some hserves hprogress, if_neg hhash, ok_bind, resumeUnderLease,
    checkProgress_some hserves hprogress, if_neg hhash]
  rfl

end

variable (hnumbered : (store.headers runtime.chain.chainId).Forall fun number header =>
    ∀ other, header.blockHash = remote.hash other → number = other)

include hnumbered

theorem recordPreviousHeader_window {replayFromBlock : Nat}
    (hstart : runtime.chain.startBlock.toNat < replayFromBlock)
    (hreplay : replayFromBlock < i64Bound) :
    ∃ recorded, recordPreviousHeader runtime provider replayFromBlock store = .ok recorded
      ∧ recorded.indexed = store.indexed ∧ recorded.progress = store.progress
      ∧ previousProgress (recorded.headers runtime.chain.chainId) replayFromBlock
        = some ⟨replayFromBlock - 1, remote.hash (replayFromBlock - 1)⟩ := by
  obtain ⟨recorded, hrecorded, hindexed, hheaders, hprogress⟩ :
      ∃ recorded, recordIndexedBlockHeader runtime.chain.chainId (replayFromBlock - 1)
          (remote.header (replayFromBlock - 1)) store = .ok recorded
        ∧ recorded.indexed = store.indexed
        ∧ recorded.headers runtime.chain.chainId = (store.headers runtime.chain.chainId).insert
          (replayFromBlock - 1) (remote.header (replayFromBlock - 1))
        ∧ recorded.progress = store.progress := by
    refine ⟨_, recordIndexedBlockHeader_eq_ok.mpr ⟨runtime.chainId_lt, by omega, ?_, rfl⟩, rfl,
      Function.update_self .., rfl⟩
    exact fun number header hget heq => hnumbered number header hget (replayFromBlock - 1) heq
  refine ⟨recorded, ?_, hindexed, hprogress, ?_⟩
  · rw [recordPreviousHeader, if_pos hstart, fetchBlockHeader_eq_ok hserves]
    exact mapError_eq_ok.mpr hrecorded
  · rw [previousProgress, if_neg (by omega), hheaders, OrdMap.get?_insert, if_pos rfl]
    rfl

theorem rewindAfterReorg_window
    (hstart : runtime.chain.startBlock.toNat < replayFromBlock runtime progress.indexedThroughBlock)
    (hreplay : replayFromBlock runtime progress.indexedThroughBlock < i64Bound) :
    ∃ after, rewindAfterReorg runtime provider progress store = .ok after
      ∧ Rewound runtime (replayFromBlock runtime progress.indexedThroughBlock)
        (some ⟨replayFromBlock runtime progress.indexedThroughBlock - 1,
          remote.hash (replayFromBlock runtime progress.indexedThroughBlock - 1)⟩) store after := by
  obtain ⟨recorded, hrecorded, hindexed, hprogress, hprevious⟩ :=
    recordPreviousHeader_window hserves hnumbered hstart hreplay
  obtain ⟨after, counts, hok, hrewound⟩ := exists_rewound runtime recorded hreplay
  rw [hprevious] at hrewound
  refine ⟨after, ?_, ?_⟩
  · refine bind_eq_ok.mpr ⟨recorded, hrecorded, bind_eq_ok.mpr ⟨(after, counts), ?_, rfl⟩⟩
    exact mapError_eq_ok.mpr hok
  · exact ⟨hindexed ▸ hrewound.indexed_eq, hprogress ▸ hrewound.progress_eq⟩

end

section

variable (hstart : replayFromBlock runtime progress.indexedThroughBlock = runtime.chain.startBlock.toNat)

include hstart

theorem rewindAfterReorg_start_eq :
    rewindAfterReorg runtime provider progress store
      = ((rewindChainIndexingToReplayBlock runtime.key runtime.chain.startBlock.toNat store).mapError
          (.store "rewind indexed rows after reorg") >>= fun result => .ok result.1) := by
  have hrecorded : recordPreviousHeader runtime provider
      (replayFromBlock runtime progress.indexedThroughBlock) store = .ok store :=
    if_neg (by omega)
  rw [rewindAfterReorg, hrecorded, ok_bind, hstart]
  rfl

theorem rewindAfterReorg_start (hreplay : runtime.chain.startBlock.toNat < i64Bound) :
    ∃ after, rewindAfterReorg runtime provider progress store = .ok after
      ∧ Rewound runtime runtime.chain.startBlock.toNat
        (previousProgress (store.headers runtime.chain.chainId) runtime.chain.startBlock.toNat)
        store after := by
  obtain ⟨after, counts, hok, hrewound⟩ := exists_rewound runtime store hreplay
  refine ⟨after, ?_, hrewound⟩
  rw [rewindAfterReorg_start_eq hstart]
  exact bind_eq_ok.mpr ⟨(after, counts), mapError_eq_ok.mpr hok, rfl⟩

theorem rewindAfterReorg_start_error (hreplay : ¬ runtime.chain.startBlock.toNat < i64Bound) :
    ∃ error, rewindAfterReorg runtime provider progress store = .error error := by
  rw [rewindAfterReorg_start_eq hstart]
  cases hok : rewindChainIndexingToReplayBlock runtime.key runtime.chain.startBlock.toNat store with
  | error error => exact ⟨_, rfl⟩
  | ok result =>
      have hfits := rewindChainIndexingToReplayBlock_eq_ok.mp ⟨result.2, hok⟩
      exact absurd hfits.2.1 hreplay

end

end Turn

/-! ### The whole loop -/

section Loop

variable {runtime : ChainRuntime} {provider : ChainProvider} {remote : RemoteChain} {store : Store}
  {progress : ChainIndexingProgress} {headers : OrdMap Nat HeaderRow}
  {previous : ChainIndexingProgress} {block : Nat}

/-- The loop gets back to the remote chain: the progress agrees with it, or it reaches the start block
and the rewind falls back to a remote header, to nothing, or to a stored header that agrees. -/
def Recovers (runtime : ChainRuntime) (remote : RemoteChain) (store : Store)
    (progress : ChainIndexingProgress) : Prop :=
  remote.hash progress.indexedThroughBlock = progress.indexedThroughBlockHash
    ∨ (runtime.chain.startBlock.toNat ≤ progress.indexedThroughBlock
      ∧ (runtime.chain.startBlock.toNat
          < progress.indexedThroughBlock - (runtime.config.maxBlocksPerBatch - 1)
        ∨ ∀ previous, previousProgress (store.headers runtime.chain.chainId)
            runtime.chain.startBlock.toNat = some previous →
          remote.hash previous.indexedThroughBlock = previous.indexedThroughBlockHash))

theorem previousProgress_eq_some_iff {replayFromBlock : Nat} :
    previousProgress headers replayFromBlock = some previous
      ↔ replayFromBlock ≠ 0 ∧ ∃ header, headers.get? (replayFromBlock - 1) = some header
        ∧ ⟨replayFromBlock - 1, header.blockHash⟩ = previous := by
  rw [previousProgress]
  split
  · rename_i hzero
    exact iff_of_false nofun fun hsome => hsome.1 hzero
  · rename_i hpositive
    rw [Option.map_eq_some_iff]
    exact (and_iff_right hpositive).symm

theorem previousProgress_eq_some {replayFromBlock : Nat}
    (hprevious : previousProgress headers replayFromBlock = some previous) :
    previous.indexedThroughBlock + 1 = replayFromBlock := by
  obtain ⟨hpositive, header, -, rfl⟩ := previousProgress_eq_some_iff.mp hprevious
  exact Nat.sub_add_cancel (by omega)

theorem rewindProgress_of_le {replayFromBlock : Nat} {previous : Option ChainIndexingProgress}
    (hle : replayFromBlock ≤ progress.indexedThroughBlock) :
    rewindProgress replayFromBlock previous (some progress) = previous :=
  if_pos hle

theorem resumeTurn_rewound {after : Store} {replayFromBlock : Nat}
    {previous : Option ChainIndexingProgress} (hserves : provider.ServesHeaders remote)
    (hrewound : Rewound runtime replayFromBlock previous store after)
    (hprogress : store.progress runtime.key .walletScan = some progress)
    (hle : replayFromBlock ≤ progress.indexedThroughBlock) (hreplay : replayFromBlock < i64Bound)
    (hnone : previous = none → replayFromBlock = runtime.chain.startBlock.toNat)
    (hsome : ∀ found, previous = some found → found.indexedThroughBlock + 1 = replayFromBlock
      ∧ remote.hash found.indexedThroughBlock = found.indexedThroughBlockHash) :
    resumeTurn runtime provider after = .ok (.done replayFromBlock) := by
  have hafter := hrewound.progress_eq
  rw [hprogress, rewindProgress_of_le hle] at hafter
  cases previous with
  | none =>
      rw [resumeTurn_absent hafter, ← hnone rfl]
  | some found =>
      obtain ⟨hblock, hhash⟩ := hsome found rfl
      rw [resumeTurn_canonical hserves hafter hhash (by omega), hblock]

/-- **What a reorganisation ends in.** When the loop gets back to the remote chain it drops the rows
from the replayed block on and returns that block. -/
theorem ends_of_recovers (hserves : provider.ServesHeaders remote)
    (hnumbered : (store.headers runtime.chain.chainId).Forall fun number header =>
      ∀ other, header.blockHash = remote.hash other → number = other)
    (hprogress : store.progress runtime.key .walletScan = some progress)
    (hbound : progress.indexedThroughBlock < i64Bound)
    (hhash : remote.hash progress.indexedThroughBlock ≠ progress.indexedThroughBlockHash)
    (hrecovers : Recovers runtime remote store progress) :
    ∃ after, after.indexed runtime.key = (store.indexed runtime.key).deleteFrom
        (replayFromBlock runtime progress.indexedThroughBlock)
      ∧ ∀ final outcome, Loop.Ends (resumeTurn runtime provider) store final outcome
        ↔ final = after ∧ outcome = .ok (replayFromBlock runtime progress.indexedThroughBlock) := by
  obtain ⟨hreached, hfallback⟩ := hrecovers.resolve_left hhash
  have hle : replayFromBlock runtime progress.indexedThroughBlock ≤ progress.indexedThroughBlock :=
    max_le (Nat.sub_le _ _) hreached
  have hends : ∀ after previous, rewindAfterReorg runtime provider progress store = .ok after →
      Rewound runtime (replayFromBlock runtime progress.indexedThroughBlock) previous store after →
      (previous = none → replayFromBlock runtime progress.indexedThroughBlock
        = runtime.chain.startBlock.toNat) →
      (∀ found, previous = some found → found.indexedThroughBlock + 1
          = replayFromBlock runtime progress.indexedThroughBlock
        ∧ remote.hash found.indexedThroughBlock = found.indexedThroughBlockHash) →
      ∀ final outcome, Loop.Ends (resumeTurn runtime provider) store final outcome
        ↔ final = after
          ∧ outcome = .ok (replayFromBlock runtime progress.indexedThroughBlock) := by
    intro after previous hok hrewound hnone hsome final outcome
    have hturn := resumeTurn_reorged hserves hprogress hhash
    rw [hok, ok_bind] at hturn
    have hdone := resumeTurn_rewound hserves hrewound hprogress hle (by omega) hnone hsome
    rw [Loop.ends_of_again hturn, (Loop.Returns.done hdone).ends_iff]
  by_cases hstart : runtime.chain.startBlock.toNat
      < progress.indexedThroughBlock - (runtime.config.maxBlocksPerBatch - 1)
  · have hwindow : runtime.chain.startBlock.toNat
        < replayFromBlock runtime progress.indexedThroughBlock := lt_max_of_lt_left hstart
    obtain ⟨after, hok, hrewound⟩ :=
      rewindAfterReorg_window hserves hnumbered hwindow (hle.trans_lt hbound)
    refine ⟨after, hrewound.indexed_eq, hends after _ hok hrewound (fun h => nomatch h) ?_⟩
    intro found hfound
    cases hfound
    exact ⟨Nat.sub_add_cancel (by omega), rfl⟩
  · have hreplay : replayFromBlock runtime progress.indexedThroughBlock
        = runtime.chain.startBlock.toNat := max_eq_right (by omega)
    obtain ⟨after, hok, hrewound⟩ := rewindAfterReorg_start hreplay (hreached.trans_lt hbound)
    rw [← hreplay] at hrewound
    refine ⟨after, hrewound.indexed_eq, hends after _ hok hrewound (fun _ => hreplay) ?_⟩
    intro found hfound
    refine ⟨previousProgress_eq_some hfound, (hfallback.resolve_left hstart) found ?_⟩
    rwa [← hreplay]

theorem replayFromBlock_below_start
    (hbelow : progress.indexedThroughBlock < runtime.chain.startBlock.toNat) :
    replayFromBlock runtime progress.indexedThroughBlock = runtime.chain.startBlock.toNat :=
  max_eq_right (by omega)

section

variable (hserves : provider.ServesHeaders remote)

include hserves

section

variable (hprogress : store.progress runtime.key .walletScan = some progress)

include hprogress

section

variable (hhash : remote.hash progress.indexedThroughBlock ≠ progress.indexedThroughBlockHash)

include hhash

/-- **Progress below the start block that disagrees with the remote chain is rewound forever.** No
rewind reaches it, so every turn finds it again. -/
theorem loops_below_start (hbelow : progress.indexedThroughBlock < runtime.chain.startBlock.toNat)
    (hreplay : runtime.chain.startBlock.toNat < i64Bound) (fuel : Nat) :
    resumeBlockAfterReorg runtime provider fuel store = none := by
  refine @Loop.run_eq_none_of_invariant _ _ _ _ _
    (fun state => state.progress runtime.key .walletScan = some progress) ?_ hprogress fuel
  intro state hstate
  obtain ⟨after, hok, hrewound⟩ :=
    @rewindAfterReorg_start runtime provider state _ (replayFromBlock_below_start hbelow) hreplay
  refine ⟨after, by rw [resumeTurn_reorged hserves hstate hhash, hok, ok_bind], ?_⟩
  rw [hrewound.progress_eq, hstate]
  exact if_neg (by omega)

theorem not_returns_below_start
    (hbelow : progress.indexedThroughBlock < runtime.chain.startBlock.toNat) {final : Store} :
    ¬ Loop.Ends (resumeTurn runtime provider) store final (.ok block) := by
  by_cases hreplay : runtime.chain.startBlock.toNat < i64Bound
  · rintro ⟨fuel, hrun⟩
    cases hrun.symm.trans (loops_below_start hserves hprogress hhash hbelow hreplay fuel)
  · obtain ⟨error, herror⟩ :=
      @rewindAfterReorg_start_error runtime provider store _ (replayFromBlock_below_start hbelow)
        hreplay
    have hturn := resumeTurn_reorged hserves hprogress hhash
    rw [herror, error_bind] at hturn
    rw [(Loop.Returns.error hturn).ends_iff]
    exact fun hend => nomatch hend.2

end

theorem not_returns_of_not_recovers (hbound : progress.indexedThroughBlock < i64Bound)
    (hrecovers : ¬ Recovers runtime remote store progress) {final : Store} :
    ¬ Loop.Ends (resumeTurn runtime provider) store final (.ok block) := by
  simp only [Recovers, not_or, not_and, not_forall] at hrecovers
  obtain ⟨hhash, hfallback⟩ := hrecovers
  by_cases hreached : runtime.chain.startBlock.toNat ≤ progress.indexedThroughBlock
  · obtain ⟨hwindow, previous, hprevious, hstale⟩ := hfallback hreached
    have hstart : replayFromBlock runtime progress.indexedThroughBlock
        = runtime.chain.startBlock.toNat := max_eq_right (by omega)
    obtain ⟨after, hok, hrewound⟩ :=
      @rewindAfterReorg_start runtime provider store _ hstart (by omega)
    have hturn := resumeTurn_reorged hserves hprogress hhash
    rw [hok, ok_bind] at hturn
    have hafter := hrewound.progress_eq
    rw [hprogress, rewindProgress_of_le hreached, hprevious] at hafter
    rw [Loop.ends_of_again hturn]
    have hblock := previousProgress_eq_some hprevious
    exact not_returns_below_start hserves hafter hstale (by omega)
  · exact not_returns_below_start hserves hprogress hhash (by omega)

end

end

/-- **When the loop returns.** Against a fixed remote chain that serves every header the loop returns
a block exactly when there is no progress or it recovers from it. Otherwise it fails or rewinds
forever. -/
theorem resumeBlockAfterReorg_returns_iff (hserves : provider.ServesHeaders remote)
    (hcolumns : ∀ progress, store.progress runtime.key .walletScan = some progress →
      progress.indexedThroughBlock < i64Bound)
    (hnumbered : (store.headers runtime.chain.chainId).Forall fun number header =>
      ∀ other, header.blockHash = remote.hash other → number = other) :
    (∃ fuel after block, resumeBlockAfterReorg runtime provider fuel store = some (after, .ok block))
      ↔ ∀ progress, store.progress runtime.key .walletScan = some progress →
        Recovers runtime remote store progress := by
  constructor
  · rintro ⟨fuel, after, block, hrun⟩ progress hprogress
    by_contra hstuck
    exact not_returns_of_not_recovers hserves hprogress (hcolumns progress hprogress) hstuck
      ⟨fuel, hrun⟩
  · intro hrecovers
    suffices hends : ∃ after block, Loop.Ends (resumeTurn runtime provider) store after (.ok block) by
      obtain ⟨after, block, fuel, hrun⟩ := hends
      exact ⟨fuel, after, block, hrun⟩
    cases hprogress : store.progress runtime.key .walletScan with
    | none => exact ⟨_, _, (Loop.Returns.done (resumeTurn_absent hprogress)).ends_iff.mpr ⟨rfl, rfl⟩⟩
    | some progress =>
        have hbound := hcolumns progress hprogress
        by_cases hhash : remote.hash progress.indexedThroughBlock = progress.indexedThroughBlockHash
        · have hdone := resumeTurn_canonical hserves hprogress hhash hbound
          exact ⟨_, _, (Loop.Returns.done hdone).ends_iff.mpr ⟨rfl, rfl⟩⟩
        · obtain ⟨after, -, hends⟩ := ends_of_recovers hserves hnumbered hprogress hbound hhash
            (hrecovers progress hprogress)
          exact ⟨after, _, (hends after _).mpr ⟨rfl, rfl⟩⟩

def OrphansRemoved (runtime : ChainRuntime) (provider : ChainProvider) (remote : RemoteChain)
    (store : Store) : Prop :=
  ∀ fuel after block, resumeBlockAfterReorg runtime provider fuel store = some (after, .ok block) →
    (after.indexed runtime.key).AllRows fun number hash => number < block → hash = remote.hash number

theorem orphansRemoved_iff_of_ends {after : Store}
    (hends : ∀ final outcome, Loop.Ends (resumeTurn runtime provider) store final outcome ↔ final
      = after ∧ outcome = .ok block) :
    OrphansRemoved runtime provider remote store
      ↔ (after.indexed runtime.key).AllRows fun number hash =>
        number < block → hash = remote.hash number := by
  constructor
  · intro hremoved
    obtain ⟨fuel, hrun⟩ := (hends after (.ok block)).mpr ⟨rfl, rfl⟩
    exact hremoved fuel after block hrun
  · intro hrows fuel final found hrun
    obtain ⟨rfl, heq⟩ := (hends final (.ok found)).mp ⟨fuel, hrun⟩
    cases heq
    exact hrows

section Fork

variable {chain : RemoteChain} {fork : Nat}
  (hfollows : FollowsChain chain runtime.chain.chainId store)
  (hfork : ∀ number other, chain.hash number = remote.hash other ↔ number = other ∧ number ≤ fork)

include hfork in
theorem hash_eq_iff_le_fork (number : Nat) :
    chain.hash number = remote.hash number ↔ number ≤ fork := by
  rw [hfork]
  exact and_iff_right rfl

include hfollows in
theorem orphansRemoved_of_absent (hprogress : store.progress runtime.key .walletScan = none) :
    OrphansRemoved runtime provider remote store := by
  rw [orphansRemoved_iff_of_ends fun _ _ => (Loop.Returns.done (resumeTurn_absent hprogress)).ends_iff]
  refine (hfollows.rows runtime.chain.railgunContract).rows.imp ?_
  rintro number hash ⟨⟨progress, hsome, -⟩, -⟩
  exact absurd (hprogress.symm.trans hsome) nofun

include hfollows hfork in
theorem orphansRemoved_of_le_fork (hserves : provider.ServesHeaders remote)
    (hprogress : store.progress runtime.key .walletScan = some progress)
    (hle : progress.indexedThroughBlock ≤ fork) :
    OrphansRemoved runtime provider remote store := by
  obtain ⟨hbound, hstored⟩ := hfollows.progress _ progress hprogress
  have hhash : remote.hash progress.indexedThroughBlock = progress.indexedThroughBlockHash :=
    ((hash_eq_iff_le_fork hfork _).mpr hle).symm.trans hstored.symm
  have hdone := resumeTurn_canonical hserves hprogress hhash hbound
  rw [orphansRemoved_iff_of_ends fun _ _ => (Loop.Returns.done hdone).ends_iff]
  refine (hfollows.rows runtime.chain.railgunContract).rows.imp ?_
  rintro number hash ⟨⟨found, hfound, hreached⟩, rfl⟩ -
  cases hprogress.symm.trans hfound
  exact (hash_eq_iff_le_fork hfork number).mpr (hreached.trans hle)

include hfollows hfork in
theorem orphansRemoved_iff_of_recovers (hserves : provider.ServesHeaders remote)
    (hprogress : store.progress runtime.key .walletScan = some progress)
    (hdeeper : fork < progress.indexedThroughBlock)
    (hrecovers : Recovers runtime remote store progress) :
    OrphansRemoved runtime provider remote store
      ↔ (store.indexed runtime.key).AllRows fun number _ => fork < number →
        replayFromBlock runtime progress.indexedThroughBlock ≤ number := by
  obtain ⟨hbound, hstored⟩ := hfollows.progress _ progress hprogress
  have hhash : remote.hash progress.indexedThroughBlock ≠ progress.indexedThroughBlockHash := by
    intro heq
    have hshared := (hash_eq_iff_le_fork hfork _).mp (hstored.symm.trans heq.symm)
    omega
  have hnumbered : (store.headers runtime.chain.chainId).Forall fun number header =>
      ∀ other, header.blockHash = remote.hash other → number = other := by
    intro number header hget other heq
    rw [hfollows.headers number header hget] at heq
    exact ((hfork number other).mp heq).1
  obtain ⟨after, hindexed, hends⟩ :=
    ends_of_recovers hserves hnumbered hprogress hbound hhash hrecovers
  rw [orphansRemoved_iff_of_ends hends, hindexed, IndexedTables.allRows_deleteFrom]
  refine (hfollows.rows runtime.chain.railgunContract).rows.congr ?_
  rintro number hash ⟨-, rfl⟩
  rw [hash_eq_iff_le_fork hfork]
  omega

end Fork

/-- **When recovery removes every orphaned row.** The store was reached by indexing a chain that
shares with the remote one exactly the blocks up to the fork. -/
theorem orphansRemoved_iff {contracts : Contracts} {chain : RemoteChain} {fork : Nat}
    (hstore : IndexedFrom contracts chain runtime.chain.chainId store)
    (hserves : provider.ServesHeaders remote)
    (hfork : ∀ number other, chain.hash number = remote.hash other
      ↔ number = other ∧ number ≤ fork) :
    OrphansRemoved runtime provider remote store
      ↔ ∀ progress, store.progress runtime.key .walletScan = some progress →
        fork < progress.indexedThroughBlock → Recovers runtime remote store progress →
        (store.indexed runtime.key).AllRows fun number _ => fork < number →
          replayFromBlock runtime progress.indexedThroughBlock ≤ number := by
  have hfollows := followsChain_of_indexedFrom hstore
  cases hprogress : store.progress runtime.key .walletScan with
  | none =>
      exact iff_of_true (orphansRemoved_of_absent hfollows hprogress) fun _ hsome => nomatch hsome
  | some progress =>
      simp only [Option.some.injEq, forall_eq']
      by_cases hle : progress.indexedThroughBlock ≤ fork
      · refine iff_of_true (orphansRemoved_of_le_fork hfollows hfork hserves hprogress hle) ?_
        exact fun hdeeper => absurd hle (by omega)
      have hdeeper : fork < progress.indexedThroughBlock := by omega
      simp only [hdeeper, true_implies]
      by_cases hrecovers : Recovers runtime remote store progress
      · simp only [hrecovers, true_implies]
        exact orphansRemoved_iff_of_recovers hfollows hfork hserves hprogress hdeeper hrecovers
      · refine iff_of_true ?_ fun hnow => absurd hnow hrecovers
        intro fuel after block hrun
        have hbound := (hfollows.progress _ progress hprogress).1
        exact absurd ⟨fuel, hrun⟩ (not_returns_of_not_recovers hserves hprogress hbound hrecovers)

end Loop

/-! ### Two branches of a chain -/

/-- Above the genesis block, a hash has the block's number and, in its low bits, the branch. -/
def branch (tip : Bytes32) : RemoteChain where
  header number := ⟨if number = 0 then 10 else FixedBytes.ofNat (64 * number + tip.val), 0⟩
  blockOf _ := 2

theorem branch_hash_mod (tip : Bytes32) (htip : tip.val < 64) (number : Nat) :
    ((branch tip).hash number).val % 64 = if number = 0 then 10 else tip.val := by
  simp only [RemoteChain.hash, branch]
  split_ifs
  · rfl
  · change (64 * number + tip.val) % 256 ^ 32 % 64 = tip.val
    rw [Nat.mod_mod_of_dvd _ (by decide), Nat.mul_add_mod, Nat.mod_eq_of_lt htip]

theorem branch_hash_eq_iff (number other : Nat) :
    (branch 20).hash number = (branch 30).hash other ↔ number = other ∧ number ≤ 0 := by
  constructor
  · intro hsame
    have hmod := branch_hash_mod 20 (by decide) number
    rw [hsame, branch_hash_mod 30 (by decide)] at hmod
    split_ifs at hmod with hother hnumber
    · omega
    all_goals cases hmod
  · rintro ⟨rfl, hzero⟩
    rw [Nat.le_zero.mp hzero]
    rfl

def branchProvider (tip : Bytes32) : ChainProvider where
  getTransactionByHash _ := .ok none
  getBlockByHash hash := .ok (some ⟨hash, 2, 0⟩)
  getFullBlockByHash _ := .ok none
  debugTraceTransaction _ := none
  traceTransaction _ := none
  getLogs filter :=
    .ok (if 2 ≤ filter.toBlock ∧ .shield ∈ filter.eventSignatures then
      [⟨some 2, some ((branch tip).hash 2), some 1, some 0, .shield 0 0 [⟨0, ⟨0, 0, 0⟩, 0⟩] [[]]⟩]
      else [])
  getBlockNumber := some 5
  getBlockByNumber number := some (some ((branch tip).header number))

theorem branchProvider_servesLogs (tip : Bytes32) : (branchProvider tip).ServesLogs (branch tip) := by
  intro filter logs hlogs log hlog source hsource
  cases hlogs
  split at hlog
  · rename_i hrange
    obtain rfl := List.mem_singleton.mp hlog
    cases hsource
    exact ⟨⟨rfl, rfl⟩, UInt64.le_iff_toNat_le.mp hrange.1⟩
  · cases hlog

theorem valid_toyConfig (startBlock : UInt64) (window : Nat) :
    validateChainIndexed (toyConfig startBlock window) = .ok () := by
  have hchain : validateChain [] (toySettings startBlock) = .ok [(1, 1)] := by
    have hblank : isBlank "rpc" = false := by decide
    have hblank' : isBlank "archive" = false := by decide
    simp [validateChain, toySettings, hblank, hblank', reject, validateActionStartBlock,
      supportedChainIds, DatasetKind.all]
  simp [validateChainIndexed, toyConfig, reject, hchain]

def branchRuntime (startBlock : UInt64) (window : Nat) : ChainRuntime where
  config := toyConfig startBlock window
  chain := toySettings startBlock
  enabled := rfl
  valid := valid_toyConfig startBlock window
  configured := List.mem_singleton.mpr rfl

def keyOrder : VisitingOrder where
  visit summaries := summaries.values
  perm _ := List.Perm.refl _

def branchStore : Store :=
  ((indexChainRangeWithProvider toyContracts (branchRuntime 0 1) (branchProvider 20) keyOrder 5 0 5
    {}).toOption.map Prod.fst).getD {}

theorem indexedFrom_branchStore : IndexedFrom toyContracts (branch 20) 1 branchStore :=
  @IndexedFrom.index _ _ _ {} _ (branchRuntime 0 1) (branchProvider 20) keyOrder 5 0 5 (.indexed 1 0)
    .empty rfl (fun _ => rfl) (branchProvider_servesLogs 20) (by decide) rfl

theorem progress_branchStore : branchStore.progress ⟨1, 1⟩ .walletScan
    = some ⟨5, (branch 20).hash 5⟩ := rfl

theorem headers_branchStore : (branchStore.headers 1).Forall fun number header =>
    ∀ other, header.blockHash = (branch 30).hash other → number = other := by
  intro number header hget other heq
  rw [(followsChain_of_indexedFrom indexedFrom_branchStore).headers number header hget] at heq
  exact ((branch_hash_eq_iff number other).mp heq).1

/-! ### Cases -/

theorem resumeBlockAfterReorg_returns_window :
    ∃ fuel after block, resumeBlockAfterReorg (branchRuntime 0 1) (branchProvider 30) fuel branchStore
      = some (after, .ok block) := by
  refine (@resumeBlockAfterReorg_returns_iff (branchRuntime 0 1) (branchProvider 30) (branch 30)
    branchStore (fun _ => rfl) ?_ headers_branchStore).mpr ?_
  · intro progress hprogress
    cases progress_branchStore.symm.trans hprogress
    decide
  · intro progress hprogress
    cases progress_branchStore.symm.trans hprogress
    exact .inr ⟨by decide, .inl (by decide)⟩

/-- Raising the start block above the progress: the remote chain has replaced block 5, and no rewind
reaches it. -/
theorem rewinds_forever_below_start :
    IndexedFrom toyContracts (branch 20) 1 branchStore
      ∧ (branchProvider 30).ServesHeaders (branch 30)
      ∧ ∀ fuel, resumeBlockAfterReorg (branchRuntime 100 1) (branchProvider 30) fuel branchStore
        = none :=
  ⟨indexedFrom_branchStore, fun _ => rfl, fun fuel =>
    @loops_below_start (branchRuntime 100 1) (branchProvider 30) (branch 30) branchStore
      ⟨5, (branch 20).hash 5⟩ (fun _ => rfl) progress_branchStore (by decide) (by decide) (by decide)
      fuel⟩

theorem orphansRemoved_wide_window :
    OrphansRemoved (branchRuntime 0 5) (branchProvider 30) (branch 30) branchStore := by
  refine (@orphansRemoved_iff (branchRuntime 0 5) (branchProvider 30) (branch 30) branchStore
    toyContracts (branch 20) 0 indexedFrom_branchStore (fun _ => rfl) branch_hash_eq_iff).mpr ?_
  intro progress hprogress _ _
  cases progress_branchStore.symm.trans hprogress
  have hrows := ((followsChain_of_indexedFrom indexedFrom_branchStore).rows 1).rows
  exact hrows.imp fun number _ _ _ => Nat.zero_le number

/-- A fork at block 0 against a window of two blocks: the commitment of block 2 stays, though its block
is no block of the remote chain. -/
theorem orphan_survives_deep_fork :
    IndexedFrom toyContracts (branch 20) 1 branchStore
      ∧ (branchProvider 30).ServesHeaders (branch 30)
      ∧ (∀ number other, (branch 20).hash number = (branch 30).hash other
        ↔ number = other ∧ number ≤ 0)
      ∧ ∃ after row, resumeBlockAfterReorg (branchRuntime 0 1) (branchProvider 30) 2 branchStore
          = some (after, .ok 4)
        ∧ (after.indexed ⟨1, 1⟩).shieldCommitments.get? (toLex (0, 0)) = some row
        ∧ row.source.blockNumber = 2 ∧ row.source.blockHash ≠ (branch 30).hash 2 :=
  ⟨indexedFrom_branchStore, fun _ => rfl, branch_hash_eq_iff, _, _, rfl, rfl, rfl, by decide⟩

end RailgunIndexer
