import RailgunIndexer.OutputMatch

/-!
# Rows from calldata and traces

Before the `Action` logs exist, an outer transaction's Railgun transactions are decoded from its
calldata or, when that does not carry them, from the calls of its execution trace. A trace comes as
the call tree of `debug_traceTransaction` or as the flat list of `trace_transaction`.
-/

namespace RailgunIndexer

/-! ### Calldata -/

def tryFromModernTransaction (contracts : Contracts) (callKind : RailgunCallKind)
    (transaction : Transaction) : Except ChainLogIngestionError DecodedRailgunTransaction :=
  match contracts.railgunTxid transaction with
  | none => .error .transact
  | some railgunTxid =>
      let hasUnshield := transaction.boundParams.unshield != 0
      .ok
        { callKind
          nullifiers := transaction.nullifiers
          commitments := transaction.commitments
          boundParamsHash := contracts.boundParamsHash transaction.boundParams
          hasUnshield
          unshieldPreimage :=
            if hasUnshield then some (contracts.encodePreimage transaction.unshieldPreimage)
            else none
          utxoTreeIn := transaction.boundParams.treeNumber
          railgunTxid }

def tryFromLegacyTransactionWithKind (contracts : Contracts) (callKind : RailgunCallKind)
    (transaction : LegacyTransaction) : DecodedRailgunTransaction :=
  let boundParamsHash := contracts.legacyBoundParamsHash transaction.boundParams
  let hasUnshield := transaction.boundParams.unshield != 0
  { callKind
    nullifiers := transaction.nullifiers
    commitments := transaction.commitments
    boundParamsHash
    hasUnshield
    unshieldPreimage :=
      if hasUnshield then some (contracts.encodePreimage transaction.unshieldPreimage) else none
    utxoTreeIn := transaction.boundParams.treeNumber
    railgunTxid := contracts.railgunTxidParts transaction.nullifiers transaction.commitments
      boundParamsHash }

def decodeModern (contracts : Contracts) (callKind : RailgunCallKind)
    (transactions : List Transaction) :
    Except ChainLogIngestionError (Option (List DecodedRailgunTransaction)) := do
  let decoded ← transactions.mapM (tryFromModernTransaction contracts callKind)
  pure (some decoded)

def decodeRailgunTransactions (contracts : Contracts) (calldata : Bytes) :
    Except ChainLogIngestionError (Option (List DecodedRailgunTransaction)) :=
  if let some transactions := contracts.decodeTransact calldata then
    decodeModern contracts .transact transactions
  else if let some call := contracts.decodeRelay calldata then
    decodeModern contracts .relay call.transactions
  else if let some transactions := contracts.decodeLegacyRelay calldata then
    .ok (some (transactions.map (tryFromLegacyTransactionWithKind contracts .legacyRelay)))
  else if let some call := contracts.decodeExecute calldata then
    decodeModern contracts .execute call.transactions
  else if let some transactions := contracts.decodeLegacyTransact calldata then
    .ok (some (transactions.map (tryFromLegacyTransactionWithKind contracts .legacyTransact)))
  else
    .ok none

/-! ### Traces -/

/-- A call of `debug_traceTransaction`: whether it failed, its target and input when they parse, and
the calls it made. -/
inductive TraceFrame where
  | call (failed : Bool) (target : Option Address) (input : Option Bytes)
      (calls : List TraceFrame)

/-- An entry of `trace_transaction`, placed in the call tree by its path. -/
structure FlatTraceFrame where
  failed : Bool
  traceAddress : Option (List Nat)
  target : Option Address
  input : Option Bytes
  deriving DecidableEq

def frameTransactions (contracts : Contracts) (railgunContract : Address)
    (target : Option Address) (input : Option Bytes) :
    Except ChainLogIngestionError (List DecodedRailgunTransaction) :=
  if target = some railgunContract then
    match input with
    | none => .ok []
    | some input => do
        let decoded ← decodeRailgunTransactions contracts input
        pure (decoded.getD [])
  else
    .ok []

mutual

def collectDebugTraceRailgunTransactions (contracts : Contracts) (railgunContract : Address) :
    TraceFrame → Except ChainLogIngestionError (List DecodedRailgunTransaction)
  | .call failed target input calls =>
      if failed then
        .ok []
      else do
        let own ← frameTransactions contracts railgunContract target input
        let nested ← collectDebugTraceCalls contracts railgunContract calls
        pure (own ++ nested)

def collectDebugTraceCalls (contracts : Contracts) (railgunContract : Address) :
    List TraceFrame → Except ChainLogIngestionError (List DecodedRailgunTransaction)
  | [] => .ok []
  | frame :: rest => do
      let first ← collectDebugTraceRailgunTransactions contracts railgunContract frame
      let others ← collectDebugTraceCalls contracts railgunContract rest
      pure (first ++ others)

end

def collectTraceTransactionRailgunTransactions (contracts : Contracts) (railgunContract : Address)
    (frames : List FlatTraceFrame) :
    Except ChainLogIngestionError (List DecodedRailgunTransaction) := do
  let failedPaths := (frames.filter fun frame => frame.failed).filterMap fun frame =>
    frame.traceAddress
  let succeeded := frames.filter fun frame =>
    !(frame.failed || frame.traceAddress.any fun path =>
      failedPaths.any fun failedPath => failedPath.isPrefixOf path)
  let decoded ← succeeded.mapM fun frame =>
    frameTransactions contracts railgunContract frame.target frame.input
  pure decoded.flatten

/-! ### Rows -/

def publicTransactionsFromCalldata (contracts : Contracts) (summary : TransactOutputSummary)
    (blockTimestamp : Nat) (calldata : Bytes) :
    Except ChainLogIngestionError (List IndexedPublicTransaction) := do
  match ← decodeRailgunTransactions contracts calldata with
  | none => pure []
  | some transactions => publicTransactionsFromDecoded summary blockTimestamp transactions

/-- The call tree first, then the flat trace. A trace request that fails is skipped. -/
def traceRailgunTransactions (contracts : Contracts) (railgunContract : Address)
    (debugTrace : Option TraceFrame) (flatTrace : Option (List FlatTraceFrame)) :
    Except ChainLogIngestionError (List DecodedRailgunTransaction) := do
  let decoded ← (debugTrace.map
    (collectDebugTraceRailgunTransactions contracts railgunContract)).getD (.ok [])
  if decoded.isEmpty then
    (flatTrace.map
      (collectTraceTransactionRailgunTransactions contracts railgunContract)).getD (.ok [])
  else
    pure decoded

def publicTransactionsFromTrace (contracts : Contracts) (railgunContract : Address)
    (debugTrace : Option TraceFrame) (flatTrace : Option (List FlatTraceFrame))
    (summary : TransactOutputSummary) (blockTimestamp : Nat) :
    Except ChainLogIngestionError (List IndexedPublicTransaction) := do
  let decoded ← traceRailgunTransactions contracts railgunContract debugTrace flatTrace
  publicTransactionsFromDecoded summary blockTimestamp decoded

def publicTransactionsFromCalldataOrTrace (contracts : Contracts) (railgunContract : Address)
    (debugTrace : Option TraceFrame) (flatTrace : Option (List FlatTraceFrame))
    (summary : TransactOutputSummary) (blockTimestamp : Nat) (calldata : Bytes) :
    Except ChainLogIngestionError (List IndexedPublicTransaction) :=
  let fromTrace := publicTransactionsFromTrace contracts railgunContract debugTrace flatTrace
    summary blockTimestamp
  match publicTransactionsFromCalldata contracts summary blockTimestamp calldata with
  | .ok [] => fromTrace
  | .ok rows => .ok rows
  | .error (.unmatchedEmittedOutputCommitments ..) => fromTrace
  | .error error => .error error

end RailgunIndexer
