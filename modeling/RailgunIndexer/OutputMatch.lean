import RailgunIndexer.Ingest
import RailgunIndexer.Lib.SortByKey

/-!
# Matching transactions to emitted outputs

`publicTransactionsFromDecoded` turns the decoded transactions of an outer transaction into rows and
finds, for each, where its outputs start in the forest of Merkle trees. Modern transactions walk one
cursor over the emitted outputs in tree order, comparing commitment hashes; legacy transactions are
anchored at their nullifier logs or at the first legacy output.
-/

namespace RailgunIndexer

open Lib

def modernUnshieldOnlyUtxoTree : Nat := 99999

def modernUnshieldOnlyUtxoPosition : Nat := 99999

structure OutputMatch where
  outputStart : Nat
  lastLogIndex : Nat
  deriving DecidableEq

def comparableGlobalTreePosition (output : EmittedOutputCommitment) : Nat :=
  output.treeNumber * treeLeafCount + output.treePosition

def EmittedOutputCommitment.global (output : EmittedOutputCommitment) :
    Except ChainLogIngestionError Nat :=
  globalTreePosition output.treeNumber output.treePosition

def unmatchedOutputs (summary : TransactOutputSummary) (transactionIndex : Nat) :
    ChainLogIngestionError :=
  .unmatchedTransactionOutputCommitments summary.source.transactionHash summary.source.blockNumber
    transactionIndex

/-! ### Modern transactions -/

def isModernUnshieldOnly (transaction : DecodedRailgunTransaction) : Bool :=
  transaction.hasUnshield && transaction.commitments.length == 1
    && (match transaction.callKind with
      | .transact | .relay | .execute | .actionLogs => true
      | .legacyRelay | .legacyTransact => false)

structure OutputCursor where
  index : Nat
  outputStart : Option Nat := none
  lastLogIndex : Option Nat := none
  deriving DecidableEq

/-- Compare each commitment with the output under the cursor and advance on equality. -/
def matchCommitments (emittedOutputs : List EmittedOutputCommitment) (cursor : OutputCursor) :
    List Bytes32 → Except ChainLogIngestionError OutputCursor
  | [] => .ok cursor
  | commitment :: rest =>
      match emittedOutputs[cursor.index]? with
      | none => .ok cursor
      | some emitted =>
          if emitted.hash = commitment then do
            let outputStart ← match cursor.outputStart with
              | some found => .ok found
              | none => emitted.global
            matchCommitments emittedOutputs
              ⟨cursor.index + 1, some outputStart, some emitted.logIndex⟩ rest
          else
            matchCommitments emittedOutputs cursor rest

def matchedModernUnshieldOnlyOutputStartGlobal (summary : TransactOutputSummary)
    (emittedOutputs : List EmittedOutputCommitment) (emittedIndex transactionIndex : Nat) :
    Except ChainLogIngestionError OutputMatch :=
  match emittedOutputs[emittedIndex]? with
  | some emitted => do
      let outputStart ← emitted.global
      pure ⟨outputStart, emitted.logIndex⟩
  | none =>
      if emittedOutputs.isEmpty then
        .ok ⟨0, summary.firstLogIndex⟩
      else
        match (if emittedIndex = 0 then none else emittedOutputs[emittedIndex - 1]?) with
        | none => .error (unmatchedOutputs summary transactionIndex)
        | some previous => do
            let previousStart ← previous.global
            if u64Bound ≤ previousStart + 1 then
              .error (.integerOverflow "modern_unshield_only_output_start")
            else
              pure ⟨previousStart + 1, previous.logIndex⟩

def matchedOutputStartGlobal (summary : TransactOutputSummary)
    (emittedOutputs : List EmittedOutputCommitment) (emittedIndex : Nat)
    (transaction : DecodedRailgunTransaction) (transactionIndex : Nat) :
    Except ChainLogIngestionError (OutputMatch × Nat) := do
  let cursor ← matchCommitments emittedOutputs { index := emittedIndex } transaction.commitments
  match (emittedOutputs[cursor.index]?).filter fun emitted =>
      transaction.hasUnshield && emitted.family == .legacyGenerated with
  | some emitted => do
      let outputStart ← emitted.global
      pure (⟨outputStart, emitted.logIndex⟩, cursor.index + 1)
  | none =>
      match cursor.outputStart with
      | some outputStart =>
          pure (⟨outputStart, cursor.lastLogIndex.getD summary.firstLogIndex⟩, cursor.index)
      | none =>
          if isModernUnshieldOnly transaction then do
            let found ← matchedModernUnshieldOnlyOutputStartGlobal summary emittedOutputs
              cursor.index transactionIndex
            pure (found, cursor.index)
          else
            .error (unmatchedOutputs summary transactionIndex)

/-! ### Legacy transactions -/

def isLegacyOutput (output : EmittedOutputCommitment) : Bool :=
  output.family == .legacyEncrypted || output.family == .legacyGenerated

def relayLegacyOutputCount (transaction : DecodedRailgunTransaction) : Nat :=
  if transaction.hasUnshield then transaction.commitments.length - 1
  else transaction.commitments.length

def legacyNullifierGroupIndex (summary : TransactOutputSummary)
    (transaction : DecodedRailgunTransaction) (transactionIndex : Nat)
    (usedNullifierGroups : List Nat) :
    Except ChainLogIngestionError (Option (NullifierGroup × Nat)) :=
  if summary.nullifierGroups.isEmpty then
    .ok none
  else
    match summary.nullifierGroups.zipIdx.filter fun (group, index) =>
        !usedNullifierGroups.contains index && group.nullifiers == transaction.nullifiers with
    | [found] => .ok (some found)
    | [] =>
        .error (.missingTransactionNullifierGroup summary.source.transactionHash
          summary.source.blockNumber transactionIndex)
    | found =>
        .error (.ambiguousTransactionNullifierGroup summary.source.transactionHash
          summary.source.blockNumber transactionIndex found.length)

/-- The outputs logged between a nullifier log and the next one, or all when there are none. -/
def legacyOutputCandidates (emittedOutputs : List EmittedOutputCommitment)
    (summary : TransactOutputSummary) (group : NullifierGroup) (groupIndex : Nat) :
    List EmittedOutputCommitment :=
  let candidates := emittedOutputs.filter fun output =>
    group.source.logIndex < output.logIndex
      && (summary.nullifierGroups[groupIndex + 1]?).all fun next =>
        output.logIndex < next.source.logIndex
  if candidates.isEmpty then emittedOutputs else candidates

/-- Try every start in turn; only a failure to match moves on to the next one. -/
def matchedLegacyOutputFrom (summary : TransactOutputSummary)
    (emittedOutputs : List EmittedOutputCommitment) (transaction : DecodedRailgunTransaction)
    (transactionIndex : Nat) : List Nat → Except ChainLogIngestionError OutputMatch
  | [] => .error (unmatchedOutputs summary transactionIndex)
  | startIndex :: rest =>
      match matchedOutputStartGlobal summary emittedOutputs startIndex transaction
          transactionIndex with
      | .ok (found, _) => .ok found
      | .error (.unmatchedTransactionOutputCommitments ..) =>
          matchedLegacyOutputFrom summary emittedOutputs transaction transactionIndex rest
      | .error error => .error error

def matchedLegacyOutputStartGlobal (summary : TransactOutputSummary)
    (emittedOutputs : List EmittedOutputCommitment) (transaction : DecodedRailgunTransaction)
    (transactionIndex : Nat) : Except ChainLogIngestionError OutputMatch :=
  matchedLegacyOutputFrom summary emittedOutputs transaction transactionIndex
    (List.range emittedOutputs.length)

def matchedRelayLegacyOutputStartGlobal (summary : TransactOutputSummary)
    (emittedOutputs : List EmittedOutputCommitment) (priorCommitmentCount transactionIndex : Nat) :
    Except ChainLogIngestionError OutputMatch := do
  let legacy := emittedOutputs.filter isLegacyOutput
  let globals ← legacy.mapM fun output => do
    let outputGlobal ← output.global
    pure (output.family, outputGlobal)
  let first (family : EmittedOutputFamily) : Option Nat :=
    (globals.find? fun found => found.1 == family).map Prod.snd
  let lastLogIndex := legacy.foldl (fun last output => max last output.logIndex)
    summary.lastLogIndex
  match (first .legacyGenerated).or (first .legacyEncrypted) with
  | none => .error (unmatchedOutputs summary transactionIndex)
  | some anchorGlobal =>
      if u64Bound ≤ anchorGlobal + priorCommitmentCount then
        .error (.integerOverflow "relay_legacy_output_start")
      else
        pure ⟨anchorGlobal + priorCommitmentCount, lastLogIndex⟩

/-! ### The loop over the transactions -/

structure OutputState where
  emittedIndex : Nat := 0
  usedNullifierGroups : List Nat := []
  relayLegacyCommitmentOffset : Nat := 0
  usesNonSequentialOutputMapping : Bool := false
  rows : List IndexedPublicTransaction := []
  deriving DecidableEq

def matchTransaction (summary : TransactOutputSummary)
    (emittedOutputs : List EmittedOutputCommitment) (state : OutputState)
    (transaction : DecodedRailgunTransaction) (transactionIndex : Nat) :
    Except ChainLogIngestionError ((OutputMatch × Nat × Nat) × OutputState) :=
  let sequential : Except ChainLogIngestionError ((OutputMatch × Nat × Nat) × OutputState) := do
    let (found, emittedIndex) ← matchedOutputStartGlobal summary emittedOutputs state.emittedIndex
      transaction transactionIndex
    pure ((found, summary.firstLogIndex, summary.lastLogIndex), { state with emittedIndex })
  match transaction.callKind with
  | .legacyTransact => do
      match ← legacyNullifierGroupIndex summary transaction transactionIndex
          state.usedNullifierGroups with
      | some (group, groupIndex) => do
          let found ← matchedLegacyOutputStartGlobal summary
            (legacyOutputCandidates emittedOutputs summary group groupIndex) transaction
            transactionIndex
          pure ((found, group.source.logIndex, max group.source.logIndex found.lastLogIndex),
            { state with
              usedNullifierGroups := groupIndex :: state.usedNullifierGroups
              usesNonSequentialOutputMapping := true })
      | none => sequential
  | .relay | .legacyRelay =>
      if emittedOutputs.any isLegacyOutput then do
        let found ← matchedRelayLegacyOutputStartGlobal summary emittedOutputs
          state.relayLegacyCommitmentOffset transactionIndex
        let offset := state.relayLegacyCommitmentOffset + relayLegacyOutputCount transaction
        if u64Bound ≤ offset then
          .error (.integerOverflow "relay_legacy_commitment_offset")
        else
          pure ((found, summary.firstLogIndex, summary.lastLogIndex),
            { state with
              relayLegacyCommitmentOffset := offset
              usesNonSequentialOutputMapping := true })
      else
        sequential
  | .transact | .execute | .actionLogs => sequential

def rowPosition (emittedOutputs : List EmittedOutputCommitment)
    (transaction : DecodedRailgunTransaction) (outputStart : Nat) :
    Except ChainLogIngestionError (Nat × Nat) :=
  if emittedOutputs.isEmpty && isModernUnshieldOnly transaction then
    .ok (modernUnshieldOnlyUtxoTree, modernUnshieldOnlyUtxoPosition)
  else
    normalizedGlobalPosition outputStart

def publicTransactionRow (summary : TransactOutputSummary) (blockTimestamp : Nat)
    (transaction : DecodedRailgunTransaction) (transactionIndex firstLogIndex lastLogIndex : Nat)
    (position : Nat × Nat) : IndexedPublicTransaction where
  source := summary.source
  firstLogIndex
  lastLogIndex
  railgunTransactionIndex := transactionIndex
  id := displayBytes32 summary.source.transactionHash ++ ":" ++ toString transactionIndex
  blockTimestamp
  nullifiers := transaction.nullifiers
  commitments := transaction.commitments
  boundParamsHash := transaction.boundParamsHash
  hasUnshield := transaction.hasUnshield
  unshieldPreimage := transaction.unshieldPreimage
  utxoTreeIn := transaction.utxoTreeIn
  utxoTreeOut := position.1
  utxoBatchStartPositionOut := position.2
  railgunTxid := transaction.railgunTxid

def outputStep (summary : TransactOutputSummary) (blockTimestamp : Nat)
    (emittedOutputs : List EmittedOutputCommitment) (state : OutputState)
    (item : DecodedRailgunTransaction × Nat) : Except ChainLogIngestionError OutputState := do
  let ((found, firstLogIndex, lastLogIndex), state) ←
    matchTransaction summary emittedOutputs state item.1 item.2
  let position ← rowPosition emittedOutputs item.1 found.outputStart
  pure { state with
    rows := state.rows ++ [publicTransactionRow summary blockTimestamp item.1 item.2 firstLogIndex
      lastLogIndex position] }

def publicTransactionsFromDecoded (summary : TransactOutputSummary) (blockTimestamp : Nat)
    (transactions : List DecodedRailgunTransaction) :
    Except ChainLogIngestionError (List IndexedPublicTransaction) := do
  let emittedOutputs := sortByKey comparableGlobalTreePosition summary.outputCommitments
  let usesLegacySegments := transactions.any fun transaction =>
    transaction.callKind == .legacyTransact && !summary.nullifierGroups.isEmpty
  let state ← transactions.zipIdx.foldlM (outputStep summary blockTimestamp emittedOutputs) {}
  if !(usesLegacySegments || state.usesNonSequentialOutputMapping)
      && state.emittedIndex != emittedOutputs.length then
    .error (.unmatchedEmittedOutputCommitments summary.source.transactionHash
      summary.source.blockNumber state.emittedIndex emittedOutputs.length)
  else
    pure state.rows

end RailgunIndexer
