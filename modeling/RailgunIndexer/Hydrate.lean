import RailgunIndexer.Calldata
import RailgunIndexer.UnshieldCalldata
import Mathlib.Data.Prod.Lex

/-!
# Building the public transaction rows of a batch

`hydratePublicTransactions` gathers, for every outer transaction of a batch, its outputs and its
nullifier logs, decodes its Railgun transactions and turns them into rows. From the first `Action`
block on, transactions are rebuilt from logs, with calldata read for unshield commitments only. The
summaries sit in a hash map, so the order in which they are visited is an argument.
-/

namespace RailgunIndexer

open Lib

/-! ### The provider -/

structure BlockHeader where
  hash : Bytes32
  number : Nat
  timestamp : Nat
  deriving DecidableEq

structure RawTransaction where
  hash : Option Bytes32
  input : Option Bytes
  deriving DecidableEq

/-- A block with its transactions, as returned in JSON. A field is `none` when it does not parse. -/
structure RawBlock where
  hash : Option Bytes32
  number : Option Nat
  timestamp : Option Nat
  transactions : Option (List RawTransaction)
  deriving DecidableEq

/-- The answers of the RPC node. A trace is `none` when its request fails. -/
structure Provider where
  getTransactionByHash : Bytes32 → Except ChainLogIngestionError (Option Bytes)
  getBlockByHash : Bytes32 → Except ChainLogIngestionError (Option BlockHeader)
  getFullBlockByHash : Bytes32 → Except ChainLogIngestionError (Option RawBlock)
  debugTraceTransaction : Bytes32 → Option TraceFrame
  traceTransaction : Bytes32 → Option (List FlatTraceFrame)

/-! ### Summaries -/

abbrev Summaries := OrdMap Bytes32 TransactOutputSummary

def recordPublicTransactionSummary (summaries : Summaries) (source : IndexedLogSource)
    (family : EmittedOutputFamily) (treeNumber treePosition : Nat) (hash : Bytes32) : Summaries :=
  let output : EmittedOutputCommitment :=
    { family, logIndex := source.logIndex, treeNumber, treePosition, hash }
  summaries.upsert source.transactionHash fun
    | some summary =>
        { summary with
          firstLogIndex := min summary.firstLogIndex source.logIndex
          lastLogIndex := max summary.lastLogIndex source.logIndex
          outputCommitments := summary.outputCommitments ++ [output] }
    | none =>
        { source
          firstLogIndex := source.logIndex
          lastLogIndex := source.logIndex
          outputCommitments := [output]
          nullifierGroups := [] }

def nullifierGroupsByTransaction (nullifiers : List IndexedNullifier) :
    OrdMap Bytes32 (List NullifierGroup) :=
  let grouped : OrdMap (Bytes32 ×ₗ Nat) NullifierGroup :=
    nullifiers.foldl (fun grouped item =>
      grouped.upsert (toLex (item.source.transactionHash, item.source.logIndex)) fun
        | some group => { group with nullifiers := group.nullifiers ++ [item.nullifier] }
        | none => { source := item.source, nullifiers := [item.nullifier] }) OrdMap.empty
  let byTransaction : OrdMap Bytes32 (List NullifierGroup) :=
    grouped.values.foldl (fun found group =>
      found.upsert group.source.transactionHash fun groups => groups.getD [] ++ [group])
      OrdMap.empty
  byTransaction.entries.foldl (fun found (transactionHash, groups) =>
    found.insert transactionHash (sortByKey (fun group => group.source.logIndex) groups))
    OrdMap.empty

def addNullifierGroups (summaries : Summaries) (entry : Bytes32 × List NullifierGroup) :
    Summaries :=
  match summaries.get? entry.1, entry.2 with
  | some summary, groups =>
      summaries.insert entry.1 (groups.foldl (fun summary group =>
        { summary with
          firstLogIndex := min summary.firstLogIndex group.source.logIndex
          lastLogIndex := max summary.lastLogIndex group.source.logIndex
          nullifierGroups := summary.nullifierGroups ++ [group] }) summary)
  | none, [] => summaries
  | none, first :: rest =>
      summaries.insert entry.1
        { source := first.source
          firstLogIndex := rest.foldl (fun least group => min least group.source.logIndex)
            first.source.logIndex
          lastLogIndex := rest.foldl (fun greatest group => max greatest group.source.logIndex)
            first.source.logIndex
          outputCommitments := []
          nullifierGroups := first :: rest }

/-- Legacy outputs count only in transactions that also have nullifiers. -/
def publicTransactionSummaries (contracts : Contracts) (batch : IndexedLogBatch) : Summaries :=
  let spends (source : IndexedLogSource) : Bool :=
    batch.nullifiers.any fun item => item.source.transactionHash == source.transactionHash
  let summaries := batch.transactCommitments.foldl (fun summaries item =>
    recordPublicTransactionSummary summaries item.source .transact item.treeNumber
      item.treePosition item.hash) OrdMap.empty
  let encrypted := batch.legacyEncryptedCommitments.filter fun item => spends item.source
  let summaries := encrypted.foldl (fun summaries item =>
    recordPublicTransactionSummary summaries item.source .legacyEncrypted item.treeNumber
      item.treePosition item.hash) summaries
  let generated := batch.legacyGeneratedCommitments.filter fun item => spends item.source
  let summaries := generated.foldl (fun summaries item =>
    recordPublicTransactionSummary summaries item.source .legacyGenerated item.treeNumber
      item.treePosition (contracts.legacyPreimageHash item.preimage)) summaries
  (nullifierGroupsByTransaction batch.nullifiers).entries.foldl addNullifierGroups summaries

/-! ### Blocks -/

structure FullBlockContext where
  timestamp : Nat
  transactionInputs : OrdMap Bytes32 Bytes

structure HydrateState where
  actionLogEvents : OrdMap Bytes32 ActionLogEvents
  blockTimestamps : OrdMap Bytes32 Nat := OrdMap.empty
  fullBlocks : OrdMap Bytes32 FullBlockContext := OrdMap.empty
  publicTransactions : List IndexedPublicTransaction
  unshieldLogDerivations : Nat
  unshieldLogDivergences : Nat

def validateSourceBlockMetadata (source : IndexedLogSource) (actualBlockHash : Bytes32)
    (actualBlockNumber : Nat) : Except ChainLogIngestionError Unit :=
  if actualBlockHash ≠ source.blockHash ∨ actualBlockNumber ≠ source.blockNumber then
    .error (.mismatchedBlock source.blockNumber source.blockHash actualBlockNumber actualBlockHash)
  else
    .ok ()

def blockTimestampForSource (provider : Provider) (source : IndexedLogSource) :
    Except ChainLogIngestionError Nat := do
  match ← provider.getBlockByHash source.blockHash with
  | none => .error (.missingBlock source.blockNumber source.blockHash)
  | some header => do
      validateSourceBlockMetadata source header.hash header.number
      pure header.timestamp

def blockTimestamp (provider : Provider) (state : HydrateState) (summary : TransactOutputSummary) :
    Except ChainLogIngestionError (Nat × HydrateState) :=
  match summary.source.blockTimestamp.or (state.blockTimestamps.get? summary.source.blockHash) with
  | some timestamp => .ok (timestamp, state)
  | none => do
      let timestamp ← blockTimestampForSource provider summary.source
      pure (timestamp, { state with
        blockTimestamps := state.blockTimestamps.insert summary.source.blockHash timestamp })

def requireBlockField {α : Type} (source : IndexedLogSource) (field : String) :
    Option α → Except ChainLogIngestionError α
  | some value => .ok value
  | none => .error (.invalidBlockField source.blockNumber source.blockHash field)

/-- The inputs of the transactions that parse; a later transaction of the same hash wins. -/
def transactionInputs (transactions : List RawTransaction) : OrdMap Bytes32 Bytes :=
  transactions.foldl (fun inputs transaction =>
    match transaction.hash, transaction.input with
    | some hash, some input => inputs.insert hash input
    | _, _ => inputs) OrdMap.empty

def rawBlockTransactionInputs (source : IndexedLogSource) (block : RawBlock) :
    Except ChainLogIngestionError (OrdMap Bytes32 Bytes) :=
  match block.transactions with
  | none => .error (.missingFullBlockTransactions source.blockNumber source.blockHash)
  | some transactions => .ok (transactionInputs transactions)

def fetchFullBlockContext (provider : Provider) (source : IndexedLogSource) :
    Except ChainLogIngestionError FullBlockContext := do
  match ← provider.getFullBlockByHash source.blockHash with
  | none => .error (.missingBlock source.blockNumber source.blockHash)
  | some block => do
      let actualBlockHash ← requireBlockField source "hash" block.hash
      let actualBlockNumber ← requireBlockField source "number" block.number
      validateSourceBlockMetadata source actualBlockHash actualBlockNumber
      let timestamp ← requireBlockField source "timestamp" block.timestamp
      let transactionInputs ← rawBlockTransactionInputs source block
      pure { timestamp, transactionInputs }

def fullBlockContext (provider : Provider) (state : HydrateState)
    (summary : TransactOutputSummary) :
    Except ChainLogIngestionError (FullBlockContext × HydrateState) :=
  match state.fullBlocks.get? summary.source.blockHash with
  | some context => .ok (context, state)
  | none => do
      let context ← fetchFullBlockContext provider summary.source
      pure (context, { state with
        blockTimestamps := state.blockTimestamps.insert summary.source.blockHash context.timestamp
        fullBlocks := state.fullBlocks.insert summary.source.blockHash context })

def contextInput (summary : TransactOutputSummary) (context : FullBlockContext) :
    Except ChainLogIngestionError Bytes :=
  match context.transactionInputs.get? summary.source.transactionHash with
  | some input => .ok input
  | none =>
      .error (.missingTransaction summary.source.transactionHash summary.source.blockNumber
        summary.source.blockHash summary.firstLogIndex summary.lastLogIndex)

/-! ### Rows from logs -/

def outerCalldata (provider : Provider) (state : HydrateState) (summary : TransactOutputSummary) :
    Except ChainLogIngestionError (Bytes × HydrateState) := do
  match ← provider.getTransactionByHash summary.source.transactionHash with
  | some input => pure (input, state)
  | none => do
      let (context, state) ← fullBlockContext provider state summary
      let input ← contextInput summary context
      pure (input, state)

/-- Only unshield-bearing transactions read calldata. -/
def resolveFrames (contracts : Contracts) (provider : Provider) (state : HydrateState)
    (summary : TransactOutputSummary) (frames : List ActionCallTransactions) :
    Except ChainLogIngestionError (List ActionCallTransactions × HydrateState) :=
  if (frames.flatMap Prod.snd).any fun item => item.2.hasUnshield then do
    let (calldata, state) ← outerCalldata provider state summary
    let (frames, derivations, divergences) ←
      resolveUnshieldCommitments contracts summary calldata frames
    pure (frames, { state with
      unshieldLogDerivations := state.unshieldLogDerivations + derivations
      unshieldLogDivergences := state.unshieldLogDivergences + divergences })
  else
    .ok (frames, state)

/-- Each call matches only its own `Transact` outputs, so a call without one gets the unshield-only
sentinel instead of a neighbouring call's position. -/
def frameSummary (summary : TransactOutputSummary) (transactLogIndex : Option Nat) :
    TransactOutputSummary :=
  { summary with
    outputCommitments := summary.outputCommitments.filter fun output =>
      some output.logIndex == transactLogIndex
    nullifierGroups := [] }

def frameRows (summary : TransactOutputSummary) (blockTimestamp : Nat)
    (frame : ActionCallTransactions) :
    Except ChainLogIngestionError (List (IndexedPublicTransaction × Nat)) := do
  let rows ← publicTransactionsFromDecoded (frameSummary summary frame.1) blockTimestamp
    (frame.2.map Prod.snd)
  pure (rows.zip (frame.2.map Prod.fst))

/-- Rows follow `Action` order. -/
def numberRows (transactionHash : Bytes32) (rows : List (IndexedPublicTransaction × Nat)) :
    List IndexedPublicTransaction :=
  (sortByKey Prod.snd rows).zipIdx.map fun ((row, _), index) =>
    { row with
      railgunTransactionIndex := index
      id := displayBytes32 transactionHash ++ ":" ++ toString index }

def hydrateFromActionLogs (contracts : Contracts) (provider : Provider) (state : HydrateState)
    (summary : TransactOutputSummary) : Except ChainLogIngestionError HydrateState := do
  let transactionHash := summary.source.transactionHash
  let events := (state.actionLogEvents.get? transactionHash).getD OrdMap.empty
  let state := { state with
    actionLogEvents := state.actionLogEvents.filter fun found _ => found ≠ transactionHash }
  let frames ← decodedTransactionsFromActionLogs contracts summary events
  let (frames, state) ← resolveFrames contracts provider state summary frames
  let (timestamp, state) ← blockTimestamp provider state summary
  let rows ← frames.mapM (frameRows summary timestamp)
  pure { state with
    publicTransactions := state.publicTransactions ++ numberRows transactionHash rows.flatten }

/-! ### Rows from calldata or traces -/

def calldataWithTimestamp (provider : Provider) (state : HydrateState)
    (summary : TransactOutputSummary) :
    Except ChainLogIngestionError ((Nat × Bytes) × HydrateState) := do
  match ← provider.getTransactionByHash summary.source.transactionHash with
  | some input => do
      let (timestamp, state) ← blockTimestamp provider state summary
      pure ((timestamp, input), state)
  | none => do
      let (context, state) ← fullBlockContext provider state summary
      let input ← contextInput summary context
      pure ((context.timestamp, input), state)

def hydrateFromCalldata (contracts : Contracts) (provider : Provider) (railgunContract : Address)
    (state : HydrateState) (summary : TransactOutputSummary) :
    Except ChainLogIngestionError HydrateState := do
  let transactionHash := summary.source.transactionHash
  let ((timestamp, calldata), state) ← calldataWithTimestamp provider state summary
  let rows ← publicTransactionsFromCalldataOrTrace contracts railgunContract
    (provider.debugTraceTransaction transactionHash) (provider.traceTransaction transactionHash)
    summary timestamp calldata
  if rows.isEmpty then
    .error (.missingRailgunCalldata transactionHash summary.source.blockNumber
      summary.source.blockHash summary.firstLogIndex summary.lastLogIndex)
  else
    pure { state with publicTransactions := state.publicTransactions ++ rows }

/-! ### The loop over the summaries -/

def hydrateSummary (contracts : Contracts) (provider : Provider) (railgunContract : Address)
    (actionStartBlock : Option Nat) (state : HydrateState) (summary : TransactOutputSummary) :
    Except ChainLogIngestionError HydrateState :=
  if actionStartBlock.any fun start => start ≤ summary.source.blockNumber then
    hydrateFromActionLogs contracts provider state summary
  else
    hydrateFromCalldata contracts provider railgunContract state summary

def rowOrder (row : IndexedPublicTransaction) : Nat ×ₗ Nat ×ₗ Bytes32 ×ₗ Nat :=
  toLex (row.source.blockNumber, toLex (row.firstLogIndex,
    toLex (row.source.transactionHash, row.railgunTransactionIndex)))

def initialHydrateState (actionStartBlock : Option Nat) (batch : IndexedLogBatch) : HydrateState where
  actionLogEvents := (actionStartBlock.map (actionLogEventsByTransaction batch)).getD OrdMap.empty
  publicTransactions := batch.publicTransactions
  unshieldLogDerivations := batch.unshieldLogDerivations
  unshieldLogDivergences := batch.unshieldLogDivergences

def hydratePublicTransactions (contracts : Contracts) (provider : Provider)
    (railgunContract : Address) (actionStartBlock : Option Nat)
    (summaries : List TransactOutputSummary) (batch : IndexedLogBatch) :
    Except ChainLogIngestionError IndexedLogBatch := do
  let state ← summaries.foldlM
    (hydrateSummary contracts provider railgunContract actionStartBlock)
    (initialHydrateState actionStartBlock batch)
  pure { batch with
    publicTransactions := sortByKey rowOrder state.publicTransactions
    unshieldLogDerivations := state.unshieldLogDerivations
    unshieldLogDivergences := state.unshieldLogDivergences }

end RailgunIndexer
