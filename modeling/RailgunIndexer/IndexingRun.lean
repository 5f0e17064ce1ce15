import RailgunIndexer.ChainIndexed
import RailgunIndexer.Lib.Run

/-!
# Runs of the indexing loops

The loop of one contract as a transition system. A step is what happens between two awaits: the
progress is compared with a remote header, the comparison is repeated under the reorg lease and the
rows are rewound, a range is committed, or the cycle ends without a commit. Every step asks its own
nodes, so the remote chain may change between any two of them, and so may the span of a batch. The
loops of several contracts share one store.
-/

namespace RailgunIndexer

open Lib

/-- Where a cycle stands: before its first comparison, after one that found another hash, or with the
block to index from. -/
inductive IndexerPhase where
  | idle
  | suspect
  | resumed (fromBlock : Nat)
  deriving DecidableEq

/-- What a step returned or committed. A commit names the hash of the header it leaves at the last
block of the batch, or before the replayed block. -/
inductive IndexerEvent where
  | resumed (fromBlock : Nat)
  | rewound (replayFromBlock : Nat) (previousHash : Option Bytes32)
  | indexed (fromBlock toBlock : Nat) (blockHash : Option Bytes32)
  | silent
  deriving DecidableEq

def Store.headerHash (store : Store) (chainId blockNumber : Nat) : Option Bytes32 :=
  ((store.headers chainId).get? blockNumber).map HeaderRow.blockHash

structure IndexerState where
  phase : IndexerPhase
  store : Store

def batchToBlock (fromBlock batchSpan safeHead : Nat) : Nat :=
  min (min (fromBlock + (batchSpan - 1)) (u64Bound - 1)) safeHead

/-- One step of the loop of a contract, with nodes of the given kind. `stop` is any end of a cycle
without a commit: an error, which rolls its transaction back, a shutdown, a restart, or a chain that
has no block to index. -/
inductive IndexerStep (contracts : Contracts) (nodes : ChainProvider → Prop) (runtime : ChainRuntime) :
    IndexerState → IndexerEvent → IndexerState → Prop
  | absent {store : Store} {provider : ChainProvider} (hnodes : nodes provider)
      (hcheck : checkProgress provider runtime.key "read chain-indexed progress" store
        = .ok .absent) :
      IndexerStep contracts nodes runtime ⟨.idle, store⟩
        (.resumed runtime.chain.startBlock.toNat)
        ⟨.resumed runtime.chain.startBlock.toNat, store⟩
  | canonical {store : Store} {provider : ChainProvider} {fromBlock : Nat} (hnodes : nodes provider)
      (hcheck : checkProgress provider runtime.key "read chain-indexed progress" store
        = .ok (.canonical fromBlock)) :
      IndexerStep contracts nodes runtime ⟨.idle, store⟩ (.resumed fromBlock)
        ⟨.resumed fromBlock, store⟩
  | reorged {store : Store} {provider : ChainProvider} {progress : ChainIndexingProgress}
      (hnodes : nodes provider)
      (hcheck : checkProgress provider runtime.key "read chain-indexed progress" store
        = .ok (.reorged progress)) :
      IndexerStep contracts nodes runtime ⟨.idle, store⟩ .silent ⟨.suspect, store⟩
  | absentUnderLease {store : Store} {provider : ChainProvider} (hnodes : nodes provider)
      (hcheck : checkProgress provider runtime.key
        "re-read chain-indexed progress before reorg rewind" store = .ok .absent) :
      IndexerStep contracts nodes runtime ⟨.suspect, store⟩ .silent ⟨.idle, store⟩
  | canonicalUnderLease {store : Store} {provider : ChainProvider} {fromBlock : Nat}
      (hnodes : nodes provider)
      (hcheck : checkProgress provider runtime.key
        "re-read chain-indexed progress before reorg rewind" store = .ok (.canonical fromBlock)) :
      IndexerStep contracts nodes runtime ⟨.suspect, store⟩ (.resumed fromBlock)
        ⟨.resumed fromBlock, store⟩
  | rewind {store after : Store} {provider : ChainProvider} {progress : ChainIndexingProgress}
      (hnodes : nodes provider)
      (hcheck : checkProgress provider runtime.key
        "re-read chain-indexed progress before reorg rewind" store = .ok (.reorged progress))
      (hok : rewindAfterReorg runtime provider progress store = .ok after) :
      IndexerStep contracts nodes runtime ⟨.suspect, store⟩
        (.rewound (replayFromBlock runtime progress.indexedThroughBlock)
          (after.headerHash runtime.chain.chainId
            (replayFromBlock runtime progress.indexedThroughBlock - 1))) ⟨.idle, after⟩
  | index {store after : Store} {providers : Providers} {order : VisitingOrder}
      {batchSpan safeHead fromBlock : Nat} {mode : ChainIndexProviderMode} {step : ChainIndexStep}
      (hnormal : nodes providers.normal) (harchive : nodes providers.archive)
      (hhead : fromBlock ≤ safeHead)
      (hok : indexRange contracts runtime providers order mode safeHead fromBlock
        (batchToBlock fromBlock batchSpan safeHead) store = .ok (after, step)) :
      IndexerStep contracts nodes runtime ⟨.resumed fromBlock, store⟩
        (.indexed fromBlock (batchToBlock fromBlock batchSpan safeHead)
          (after.headerHash runtime.chain.chainId (batchToBlock fromBlock batchSpan safeHead)))
        ⟨.idle, after⟩
  | stop {phase : IndexerPhase} {store : Store} :
      IndexerStep contracts nodes runtime ⟨phase, store⟩ .silent ⟨.idle, store⟩

/-! ### Several contracts -/

structure IndexersState where
  phases : ContractKey → IndexerPhase
  store : Store

inductive IndexersStep (contracts : Contracts) (nodes : ChainProvider → Prop)
    (config : ChainIndexedDatasetConfig) :
    IndexersState → ContractKey × IndexerEvent → IndexersState → Prop
  | step {phases : ContractKey → IndexerPhase} {phase : IndexerPhase} {store after : Store}
      {runtime : ChainRuntime} {event : IndexerEvent} (hconfig : runtime.config = config)
      (hstep : IndexerStep contracts nodes runtime ⟨phases runtime.key, store⟩ event
        ⟨phase, after⟩) :
      IndexersStep contracts nodes config ⟨phases, store⟩ (runtime.key, event)
        ⟨Function.update phases runtime.key phase, after⟩

end RailgunIndexer
