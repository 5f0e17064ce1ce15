import RailgunIndexer.ChainIndexer
import RailgunIndexer.Config
import RailgunIndexer.Lib.Loop

/-!
# The indexing cycle of one contract

`resumeBlockAfterReorg` compares the stored progress with the remote chain and rewinds until they
agree; `indexChainOnce` then indexes the next range.
-/

namespace RailgunIndexer

open Lib

inductive ChainIndexedError where
  | store (context : String) (error : StoreError)
  | provider
  | blockUnavailable (blockNumber : Nat)
  | chainHead
  | previousHeader (cause : ChainIndexedError)
  | indexRange (error : ChainIndexingError)
  deriving DecidableEq

def fetchBlockHeader (provider : ChainProvider) (blockNumber : Nat) :
    Except ChainIndexedError ChainIndexedBlockHeader :=
  match provider.getBlockByNumber blockNumber with
  | none => .error .provider
  | some none => .error (.blockUnavailable blockNumber)
  | some (some header) => .ok ⟨blockNumber, header.blockHash, header.parentHash⟩

/-! ### Resuming -/

inductive ProgressCheck where
  | absent
  | canonical (resumeBlock : Nat)
  | reorged (progress : ChainIndexingProgress)
  deriving DecidableEq

/-- The loop reads the progress twice with the same steps: at its head and under the lease. -/
def checkProgress (provider : ChainProvider) (key : ContractKey) (context : String)
    (store : Store) : Except ChainIndexedError ProgressCheck := do
  match ← (chainIndexingProgress key .walletScan store).mapError (.store context) with
  | none => pure .absent
  | some progress => do
      let remoteHeader ← fetchBlockHeader provider progress.indexedThroughBlock
      if remoteHeader.blockHash = progress.indexedThroughBlockHash then
        pure (.canonical (min (progress.indexedThroughBlock + 1) (u64Bound - 1)))
      else
        pure (.reorged progress)

def replayFromBlock (runtime : ChainRuntime) (indexedThroughBlock : Nat) : Nat :=
  max (indexedThroughBlock - (runtime.config.maxBlocksPerBatch - 1)) runtime.chain.startBlock.toNat

/-- The rewind falls back to the block before, so the header of that block is stored first. -/
def recordPreviousHeader (runtime : ChainRuntime) (provider : ChainProvider)
    (replayFromBlock : Nat) (store : Store) : Except ChainIndexedError Store :=
  if runtime.chain.startBlock.toNat < replayFromBlock then do
    let header ← (fetchBlockHeader provider (replayFromBlock - 1)).mapError .previousHeader
    (recordIndexedBlockHeader runtime.chain.chainId header.blockNumber
      ⟨header.blockHash, header.parentHash⟩ store).mapError
        (.store "record reorg rewind previous block header")
  else
    .ok store

def rewindAfterReorg (runtime : ChainRuntime) (provider : ChainProvider)
    (progress : ChainIndexingProgress) (store : Store) : Except ChainIndexedError Store := do
  let replayFromBlock := replayFromBlock runtime progress.indexedThroughBlock
  let store ← recordPreviousHeader runtime provider replayFromBlock store
  let (store, _) ← (rewindChainIndexingToReplayBlock runtime.key replayFromBlock store).mapError
    (.store "rewind indexed rows after reorg")
  pure store

def resumeUnderLease (runtime : ChainRuntime) (provider : ChainProvider) (store : Store) :
    Except ChainIndexedError (Loop.Turn Store Nat) := do
  match ← checkProgress provider runtime.key
      "re-read chain-indexed progress before reorg rewind" store with
  | .absent => pure (.again store)
  | .canonical resumeBlock => pure (.done resumeBlock)
  | .reorged progress => do
      let store ← rewindAfterReorg runtime provider progress store
      pure (.again store)

def resumeTurn (runtime : ChainRuntime) (provider : ChainProvider) (store : Store) :
    Except ChainIndexedError (Loop.Turn Store Nat) := do
  match ← checkProgress provider runtime.key "read chain-indexed progress" store with
  | .absent => pure (.done runtime.chain.startBlock.toNat)
  | .canonical resumeBlock => pure (.done resumeBlock)
  | .reorged _ => resumeUnderLease runtime provider store

def resumeBlockAfterReorg (runtime : ChainRuntime) (provider : ChainProvider) (fuel : Nat)
    (store : Store) : Option (Store × Except ChainIndexedError Nat) :=
  Loop.run (resumeTurn runtime provider) fuel store

/-! ### Indexing the next range -/

inductive ChainIndexStep where
  | indexed (fetchedLogCount indexingLagBlocks : Nat)
  | caughtUp
  deriving DecidableEq

inductive ChainIndexProviderMode where
  | archive
  | normalWithArchiveFallback
  deriving DecidableEq

structure Providers where
  normal : ChainProvider
  archive : ChainProvider

def rangeToIndex (runtime : ChainRuntime) (fromBlock toBlock : Nat)
    (header : ChainIndexedBlockHeader) : ChainLogIndexingRange where
  chainId := runtime.chain.chainId
  railgunContract := runtime.chain.railgunContract
  fromBlock := UInt64.ofNat fromBlock
  toBlock := UInt64.ofNat toBlock
  indexedThroughBlockHash := header.blockHash
  indexedBlockHeaders := [header]
  v2StartBlock := runtime.chain.v2StartBlock
  legacyShieldBlock := runtime.chain.legacyShieldBlock
  actionStartBlock := runtime.chain.actionStartBlock

def indexChainRangeWithProvider (contracts : Contracts) (runtime : ChainRuntime)
    (provider : ChainProvider) (order : VisitingOrder) (safeHead fromBlock toBlock : Nat)
    (store : Store) : Except ChainIndexedError (Store × ChainIndexStep) := do
  let header ← fetchBlockHeader provider toBlock
  let (store, outcome) ← (indexChainLogRange contracts provider order
    (rangeToIndex runtime fromBlock toBlock header) store).mapError .indexRange
  pure (store, .indexed outcome.fetchedLogCount (safeHead - outcome.toBlock.toNat))

def indexRange (contracts : Contracts) (runtime : ChainRuntime) (providers : Providers)
    (order : VisitingOrder) (mode : ChainIndexProviderMode) (safeHead fromBlock toBlock : Nat)
    (store : Store) : Except ChainIndexedError (Store × ChainIndexStep) :=
  match mode with
  | .archive =>
      indexChainRangeWithProvider contracts runtime providers.archive order safeHead fromBlock
        toBlock store
  | .normalWithArchiveFallback =>
      match indexChainRangeWithProvider contracts runtime providers.normal order safeHead fromBlock
          toBlock store with
      | .ok result => .ok result
      | .error _ =>
          indexChainRangeWithProvider contracts runtime providers.archive order safeHead fromBlock
            toBlock store

/-- One cycle. The store after a failure is the one of the last commit. -/
def indexChainOnce (contracts : Contracts) (runtime : ChainRuntime) (providers : Providers)
    (order : VisitingOrder) (batchSpan : Nat) (mode : ChainIndexProviderMode) (fuel : Nat)
    (store : Store) : Option (Store × Except ChainIndexedError ChainIndexStep) :=
  match providers.normal.getBlockNumber with
  | none => some (store, .error .chainHead)
  | some head =>
      let safeHead := head - runtime.config.safeConfirmations
      match resumeBlockAfterReorg runtime providers.archive fuel store with
      | none => none
      | some (store, .error error) => some (store, .error error)
      | some (store, .ok fromBlock) =>
          if safeHead < fromBlock then
            some (store, .ok .caughtUp)
          else
            let toBlock := min (min (fromBlock + (batchSpan - 1)) (u64Bound - 1)) safeHead
            match indexRange contracts runtime providers order mode safeHead fromBlock toBlock
                store with
            | .ok (store, step) => some (store, .ok step)
            | .error error => some (store, .error error)

end RailgunIndexer
