import RailgunIndexer.Hydrate
import RailgunIndexer.LogFilter
import RailgunIndexer.Store

/-!
# Indexing a block range

`indexChainLogRange` fetches the logs of a range, turns them into a batch, and commits the batch
together with the range's headers and the contract's progress in one transaction.
-/

namespace RailgunIndexer

open Lib

structure ChainIndexedBlockHeader where
  blockNumber : Nat
  blockHash : Bytes32
  parentHash : Bytes32
  deriving DecidableEq

structure ChainLogIndexingRange where
  chainId : Nat
  railgunContract : Address
  fromBlock : UInt64
  toBlock : UInt64
  indexedThroughBlockHash : Bytes32
  indexedBlockHeaders : List ChainIndexedBlockHeader
  v2StartBlock : UInt64
  legacyShieldBlock : UInt64
  actionStartBlock : Option UInt64
  deriving DecidableEq

def ChainLogIndexingRange.key (range : ChainLogIndexingRange) : ContractKey where
  chainId := range.chainId
  railgunContract := range.railgunContract

structure ChainLogIndexingOutcome where
  fromBlock : UInt64
  toBlock : UInt64
  fetchedLogCount : Nat
  persistedRowCount : Nat
  unshieldLogDerivations : Nat
  unshieldLogDivergences : Nat
  deriving DecidableEq

inductive ChainIndexingError where
  | chainLogs (error : ChainLogIngestionError)
  | store (error : StoreError)
  deriving DecidableEq

/-- The RPC node, with its logs and its canonical blocks. A request that fails is `none`. -/
structure ChainProvider extends Provider where
  getLogs : Filter → Except ChainLogIngestionError (List Log)
  getBlockNumber : Option Nat
  getBlockByNumber : Nat → Option (Option HeaderRow)

/-- An order in which a hash map visits the summaries. -/
structure VisitingOrder where
  visit : Summaries → List TransactOutputSummary
  perm : ∀ summaries, (visit summaries).Perm summaries.values

/-! ### Fetching a batch -/

def sortLogs (logs : List Log) : List Log :=
  sortByKey (fun log => toLex (log.blockNumber.getD 0, log.logIndex.getD 0)) logs

def fetchChainIndexLogs (provider : ChainProvider) (contract : Address)
    (fromBlock toBlock v2StartBlock legacyShieldBlock : UInt64)
    (actionStartBlock : Option UInt64) : Except ChainLogIngestionError (List Log) := do
  let logs ← (chainIndexLogFilters contract fromBlock toBlock v2StartBlock legacyShieldBlock
    actionStartBlock).mapM provider.getLogs
  pure (sortLogs logs.flatten)

/-- The first source of every block whose timestamp is missing. -/
def collectMissingTimestampBlocks (sources : List IndexedLogSource) : List IndexedLogSource :=
  sources.foldl (fun missing source =>
    if source.blockTimestamp.isNone
        && missing.all fun found => found.blockHash != source.blockHash then
      missing ++ [source]
    else
      missing) []

def setSourceTimestamp (timestamps : OrdMap Bytes32 Nat) (source : IndexedLogSource) :
    IndexedLogSource :=
  { source with
    blockTimestamp := source.blockTimestamp.or (timestamps.get? source.blockHash) }

def mapLogSources (change : IndexedLogSource → IndexedLogSource) (batch : IndexedLogBatch) :
    IndexedLogBatch :=
  { batch with
    transactCommitments := batch.transactCommitments.map fun item =>
      { item with source := change item.source }
    shieldCommitments := batch.shieldCommitments.map fun item =>
      { item with source := change item.source }
    nullifiers := batch.nullifiers.map fun item => { item with source := change item.source }
    legacyEncryptedCommitments := batch.legacyEncryptedCommitments.map fun item =>
      { item with source := change item.source }
    legacyGeneratedCommitments := batch.legacyGeneratedCommitments.map fun item =>
      { item with source := change item.source } }

def hydrateIndexedLogSourceTimestamps (provider : Provider) (batch : IndexedLogBatch) :
    Except ChainLogIngestionError IndexedLogBatch := do
  let timestamps ← (collectMissingTimestampBlocks (logSources batch)).foldlM
    (fun (timestamps : OrdMap Bytes32 Nat) source => do
      let timestamp ← blockTimestampForSource provider source
      pure (timestamps.insert source.blockHash timestamp)) OrdMap.empty
  pure (mapLogSources (setSourceTimestamp timestamps) batch)

def fetchIndexedLogBatch (contracts : Contracts) (provider : ChainProvider) (order : VisitingOrder)
    (range : ChainLogIndexingRange) : Except ChainLogIngestionError (Nat × IndexedLogBatch) := do
  let logs ← fetchChainIndexLogs provider range.railgunContract range.fromBlock range.toBlock
    range.v2StartBlock range.legacyShieldBlock range.actionStartBlock
  let batch ← ingestChainLogs logs
  let batch ← hydrateIndexedLogSourceTimestamps provider.toProvider batch
  let batch ← hydratePublicTransactions contracts provider.toProvider range.railgunContract
    (range.actionStartBlock.map UInt64.toNat)
    (order.visit (publicTransactionSummaries contracts batch)) batch
  pure (logs.length, batch)

/-! ### Committing a batch -/

def commitRange (contracts : Contracts) (range : ChainLogIndexingRange) (batch : IndexedLogBatch)
    (store : Store) : Except StoreError Store := do
  let store ← persistIndexedLogBatch contracts range.key batch store
  let store ← range.indexedBlockHeaders.foldlM (fun store header =>
    recordIndexedBlockHeader range.chainId header.blockNumber
      ⟨header.blockHash, header.parentHash⟩ store) store
  DatasetKind.all.foldlM (fun store kind =>
    recordChainIndexingProgress range.key kind
      ⟨range.toBlock.toNat, range.indexedThroughBlockHash⟩ store) store

def persistedRowCount (batch : IndexedLogBatch) : Nat :=
  batch.transactCommitments.length + batch.shieldCommitments.length + batch.nullifiers.length
    + batch.legacyEncryptedCommitments.length + batch.legacyGeneratedCommitments.length
    + batch.publicTransactions.length

def indexChainLogRange (contracts : Contracts) (provider : ChainProvider) (order : VisitingOrder)
    (range : ChainLogIndexingRange) (store : Store) :
    Except ChainIndexingError (Store × ChainLogIndexingOutcome) := do
  let (fetchedLogCount, batch) ←
    (fetchIndexedLogBatch contracts provider order range).mapError .chainLogs
  let store ← (commitRange contracts range batch store).mapError .store
  pure (store,
    { fromBlock := range.fromBlock
      toBlock := range.toBlock
      fetchedLogCount
      persistedRowCount := persistedRowCount batch
      unshieldLogDerivations := batch.unshieldLogDerivations
      unshieldLogDivergences := batch.unshieldLogDivergences })

end RailgunIndexer
