import RailgunIndexer.ActionLogs

/-!
# Unshield commitments from calldata

No log carries an unshield commitment. The parser derives it from the `Unshield` log, and the outer
transaction's calldata may then replace it by the commitment the transaction was proved with.
Railgun transactions are searched in the calldata through known entrypoints and their nested calls.
-/

namespace RailgunIndexer

/-! ### Transactions embedded in calldata -/

def nestedCalldataMaxDepth : Nat := 4

def decodeEntrypoint (contracts : Contracts) (calldata : Bytes) : Option EntrypointCall :=
  ((contracts.decodeTransact calldata).map fun transactions => ⟨transactions, []⟩)
    |>.or (contracts.decodeRelay calldata)
    |>.or (contracts.decodeExecute calldata)
    |>.or (contracts.decodeExecute7702 calldata)
    |>.or ((contracts.decodeMulticall7702 calldata).map fun calls => ⟨[], calls⟩)
    |>.or ((contracts.decodeMulticall calldata).map fun calls => ⟨[], calls⟩)
    |>.or ((contracts.decodeHandleOps calldata).map fun operations => ⟨[], operations⟩)

def collectNestedRailgunTransactions (contracts : Contracts) : Nat → Bytes → List Transaction
  | 0, _ => []
  | levels + 1, calldata =>
      match decodeEntrypoint contracts calldata with
      | none => []
      | some call =>
          call.transactions
            ++ call.nestedCalls.flatMap (collectNestedRailgunTransactions contracts levels)

def calldataTransactions (contracts : Contracts) (calldata : Bytes) : List Transaction :=
  collectNestedRailgunTransactions contracts (nestedCalldataMaxDepth + 1) calldata

/-! ### Replacing the derived commitment -/

def contradiction (source : IndexedLogSource) (field : String) : ChainLogIngestionError :=
  .contradictingUnshieldCalldata source.transactionHash source.blockNumber field

def splitLast (commitments : List Bytes32) : Option (Bytes32 × List Bytes32) :=
  commitments.getLast?.map fun last => (last, commitments.dropLast)

/-- The row after its derived commitment has been compared with the committed one. -/
def commitUnshield (contracts : Contracts) (row : DecodedRailgunTransaction) (matched : Transaction)
    (committed derived : Bytes32) (logged : List Bytes32) : DecodedRailgunTransaction :=
  let row :=
    if derived = committed then row
    else
      { row with
        commitments := logged ++ [committed]
        railgunTxid := railgunTxidFromParts contracts row.nullifiers (logged ++ [committed])
          row.boundParamsHash }
  { row with unshieldPreimage := some (contracts.encodePreimage matched.unshieldPreimage) }

/-- One pass of the loop: the resolved row, and whether calldata differed from the log. -/
def resolveUnshieldRow (contracts : Contracts) (source : IndexedLogSource)
    (decoded : List Transaction) (row : DecodedRailgunTransaction) :
    Except ChainLogIngestionError (DecodedRailgunTransaction × Bool) :=
  if row.nullifiers.isEmpty then
    .error (contradiction source "nullifiers")
  else
    match decoded.filter fun transaction => transaction.nullifiers == row.nullifiers with
    | [matched] =>
        if matched.boundParams.unshield = 0 then
          .error (contradiction source "unshield type")
        else if matched.boundParams.treeNumber ≠ row.utxoTreeIn then
          .error (contradiction source "tree number")
        else
          match splitLast matched.commitments, splitLast row.commitments with
          | some (committed, accumulated), some (derived, logged) =>
              if logged ≠ accumulated then
                .error (contradiction source "commitments")
              else
                .ok (commitUnshield contracts row matched committed derived logged,
                  derived != committed)
          | _, _ => .error (contradiction source "commitments")
    | found =>
        .error (.ambiguousUnshieldCalldata source.transactionHash source.blockNumber found.length)

/-- Rows without an unshield are passed over. -/
def resolveRow (contracts : Contracts) (source : IndexedLogSource) (decoded : List Transaction)
    (item : Nat × DecodedRailgunTransaction) :
    Except ChainLogIngestionError ((Nat × DecodedRailgunTransaction) × Bool) :=
  if item.2.hasUnshield then do
    let (row, diverged) ← resolveUnshieldRow contracts source decoded item.2
    pure ((item.1, row), diverged)
  else
    .ok (item, false)

def resolveFrame (contracts : Contracts) (source : IndexedLogSource) (decoded : List Transaction)
    (frame : ActionCallTransactions) :
    Except ChainLogIngestionError (ActionCallTransactions × Nat) := do
  let rows ← frame.2.mapM (resolveRow contracts source decoded)
  pure ((frame.1, rows.map Prod.fst), rows.countP Prod.snd)

def unshieldRows (frames : List ActionCallTransactions) : List DecodedRailgunTransaction :=
  ((frames.flatMap Prod.snd).map Prod.snd).filter fun row => row.hasUnshield

/-- The frames after the calldata has been read, the number of log derivations kept and the number
of log derivations that differed from calldata. -/
def resolveUnshieldCommitments (contracts : Contracts) (summary : TransactOutputSummary)
    (calldata : Bytes) (frames : List ActionCallTransactions) :
    Except ChainLogIngestionError (List ActionCallTransactions × Nat × Nat) :=
  let decoded := calldataTransactions contracts calldata
  if decoded.isEmpty then
    .ok (frames, (unshieldRows frames).length, 0)
  else if decoded.any fun transaction => transaction.nullifiers.isEmpty then
    .error (contradiction summary.source "nullifiers")
  else do
    let resolved ← frames.mapM (resolveFrame contracts summary.source decoded)
    pure (resolved.map Prod.fst, 0, (resolved.map Prod.snd).sum)

end RailgunIndexer
