import RailgunIndexer.Types
import RailgunIndexer.Lib.OrdMap

/-!
# Rebuilding Railgun transactions from Action logs

Each Railgun call of an outer transaction emits `Nullified…, Action, (Unshield | nested call)*,
Transact?`, and a nested call completes before its parent resumes. The parser reads the events of one
outer transaction in log order and keeps a stack of open calls. A call that declares commitments
completes at its `Transact`; a call that declares none completes at its last `Unshield`.
-/

namespace RailgunIndexer

open Lib

inductive ActionLogEvent where
  | nullified (treeNumber : Nat) (nullifiers : List Bytes32)
  | action (configs : List TXConfig)
  | unshield (unshield : Unshield)
  | transact (hashes : List Bytes32)
  deriving DecidableEq

abbrev ActionLogEvents := OrdMap Nat ActionLogEvent

/-! ### Events of each outer transaction -/

def updateEvent (events : OrdMap Bytes32 ActionLogEvents) (source : IndexedLogSource)
    (write : Option ActionLogEvent → ActionLogEvent) : OrdMap Bytes32 ActionLogEvents :=
  events.upsert source.transactionHash fun found =>
    (found.getD OrdMap.empty).upsert source.logIndex write

def pushNullifier (treeNumber : Nat) (nullifier : Bytes32) :
    Option ActionLogEvent → ActionLogEvent
  | none => .nullified treeNumber [nullifier]
  | some (.nullified found nullifiers) => .nullified found (nullifiers ++ [nullifier])
  | some other => other

def pushTransactHash (hash : Bytes32) : Option ActionLogEvent → ActionLogEvent
  | none => .transact [hash]
  | some (.transact hashes) => .transact (hashes ++ [hash])
  | some other => other

def isActive (actionStartBlock : Nat) (source : IndexedLogSource) : Bool :=
  actionStartBlock ≤ source.blockNumber

def updateEvents {ω : Type} (actionStartBlock : Nat) (source : ω → IndexedLogSource)
    (write : ω → Option ActionLogEvent → ActionLogEvent) (items : List ω)
    (events : OrdMap Bytes32 ActionLogEvents) : OrdMap Bytes32 ActionLogEvents :=
  (items.filter fun item => isActive actionStartBlock (source item)).foldl
    (fun events item => updateEvent events (source item) (write item)) events

def actionLogEventsByTransaction (batch : IndexedLogBatch) (actionStartBlock : Nat) :
    OrdMap Bytes32 ActionLogEvents :=
  let events := updateEvents actionStartBlock (fun item : IndexedNullifier => item.source)
    (fun item => pushNullifier item.treeNumber item.nullifier) batch.nullifiers OrdMap.empty
  let events := updateEvents actionStartBlock (fun item : IndexedTransactCommitment => item.source)
    (fun item => pushTransactHash item.hash) batch.transactCommitments events
  let events := updateEvents actionStartBlock (fun item : IndexedAction => item.source)
    (fun item _ => .action item.txconfigs) batch.actions events
  updateEvents actionStartBlock (fun item : IndexedUnshield => item.source)
    (fun item _ => .unshield item.unshield) batch.unshields events

/-! ### Transactions of one call -/

structure ActionFrame where
  logIndex : Nat
  recordBase : Nat
  configs : List TXConfig
  nullified : List (Nat × List Bytes32)
  unshields : List Unshield
  expectsTransact : Bool
  deriving DecidableEq

def ActionFrame.pendingUnshields (frame : ActionFrame) : Nat :=
  frame.configs.countP (fun config => config.hasUnshield) - frame.unshields.length

def Address.intoWord (address : Address) : Bytes32 :=
  Fin.castLE (Nat.pow_le_pow_right (by decide) (by decide)) address

def unshieldCommitmentFromEvent (contracts : Contracts) (unshield : Unshield) :
    Except ChainLogIngestionError (Bytes32 × CommitmentPreimage) :=
  if hfits : unshield.amount.val + unshield.fee.val < 256 ^ 15 then
    let preimage : CommitmentPreimage :=
      { npk := Address.intoWord unshield.toAddress
        token := unshield.token
        value := ⟨unshield.amount.val + unshield.fee.val, hfits⟩ }
    .ok (contracts.preimageHash preimage, preimage)
  else
    .error (.integerOverflow "unshield_value")

def railgunTxidFromParts (contracts : Contracts) (nullifiers commitments : List Bytes32)
    (boundParamsHash : Bytes32) : U256 :=
  contracts.railgunTxidParts nullifiers commitments boundParamsHash

def takeCommitments (source : IndexedLogSource) (logIndex : Nat) (hashes : List Bytes32)
    (offset count : Nat) : Except ChainLogIngestionError (List Bytes32) :=
  if u64Bound ≤ offset + count then
    .error (.integerOverflow "action_commitment_offset")
  else if hashes.length < offset + count then
    .error (.actionCommitmentCountMismatch source.transactionHash source.blockNumber logIndex)
  else
    .ok ((hashes.drop offset).take count)

def takeUnshield (contracts : Contracts) (source : IndexedLogSource) (frameLogIndex : Nat)
    (hasUnshield : Bool) (unshields : List Unshield) :
    Except ChainLogIngestionError (Option (Bytes32 × CommitmentPreimage) × List Unshield) :=
  if hasUnshield then
    match unshields with
    | [] =>
        .error (.missingActionUnshield source.transactionHash source.blockNumber frameLogIndex)
    | unshield :: rest => do
        let derived ← unshieldCommitmentFromEvent contracts unshield
        pure (some derived, rest)
  else
    .ok (none, unshields)

def transactionFromConfig (contracts : Contracts) (config : TXConfig) (treeNumber : Nat)
    (nullifiers outputs : List Bytes32) (unshield : Option (Bytes32 × CommitmentPreimage)) :
    DecodedRailgunTransaction :=
  let commitments := outputs ++ (unshield.map Prod.fst).toList
  { callKind := .actionLogs
    nullifiers
    commitments
    boundParamsHash := config.boundParamsHash
    hasUnshield := config.hasUnshield
    unshieldPreimage := unshield.map fun derived => contracts.encodePreimage derived.2
    utxoTreeIn := treeNumber
    railgunTxid := railgunTxidFromParts contracts nullifiers commitments config.boundParamsHash }

/-- The loop over the configurations of a call: their transactions, and how many of the call's
output hashes they used. -/
def transactionsFromConfigs (contracts : Contracts) (source : IndexedLogSource)
    (frameLogIndex logIndex : Nat) (hashes : List Bytes32) :
    Nat → Nat → List Unshield → List (TXConfig × Nat × List Bytes32) →
      Except ChainLogIngestionError (List (Nat × DecodedRailgunTransaction) × Nat)
  | _, offset, _, [] => .ok ([], offset)
  | recordIndex, offset, unshields, (config, treeNumber, nullifiers) :: rest => do
      let outputs ← takeCommitments source logIndex hashes offset config.commitmentsCount
      let (unshield, unused) ←
        takeUnshield contracts source frameLogIndex config.hasUnshield unshields
      let (transactions, used) ← transactionsFromConfigs contracts source frameLogIndex logIndex
        hashes (recordIndex + 1) (offset + config.commitmentsCount) unused rest
      pure ((recordIndex, transactionFromConfig contracts config treeNumber nullifiers outputs
        unshield) :: transactions, used)

def transactionsFromActionFrame (contracts : Contracts) (source : IndexedLogSource)
    (frame : ActionFrame) (hashes : List Bytes32) (logIndex : Nat) :
    Except ChainLogIngestionError (List (Nat × DecodedRailgunTransaction)) :=
  if 0 < frame.pendingUnshields then
    .error (.missingActionUnshield source.transactionHash source.blockNumber frame.logIndex)
  else do
    let (transactions, used) ← transactionsFromConfigs contracts source frame.logIndex logIndex
      hashes frame.recordBase 0 frame.unshields (frame.configs.zip frame.nullified)
    if used = hashes.length then
      pure transactions
    else
      .error (.actionCommitmentCountMismatch source.transactionHash source.blockNumber logIndex)

/-! ### The parser -/

/-- One Railgun call's `Transact` log index, if any, and its transactions with record indexes. -/
abbrev ActionCallTransactions := Option Nat × List (Nat × DecodedRailgunTransaction)

/-- The parser's variables. Open calls are listed innermost first. -/
structure ActionLogState where
  pendingNullified : List (Nat × Nat × List Bytes32) := []
  frames : List ActionFrame := []
  nextRecordIndex : Nat := 0
  decoded : List ActionCallTransactions := []
  deriving DecidableEq

/-- The `Nullified` logs since the last `Action` are the ones these configurations announce. -/
def countsMatch (pendingNullified : List (Nat × Nat × List Bytes32)) (configs : List TXConfig) :
    Bool :=
  pendingNullified.length == configs.length
    && (pendingNullified.zip configs).all fun (pending, config) =>
      config.nullifiersCount == pending.2.2.length

def openFrame (state : ActionLogState) (logIndex : Nat) (configs : List TXConfig) : ActionFrame :=
  { logIndex
    recordBase := state.nextRecordIndex
    configs
    nullified := state.pendingNullified.map Prod.snd
    unshields := []
    expectsTransact := configs.any fun config => 0 < config.commitmentsCount }

def acceptEvent (contracts : Contracts) (source : IndexedLogSource) (state : ActionLogState)
    (logIndex : Nat) : ActionLogEvent → Except ChainLogIngestionError ActionLogState
  | .nullified treeNumber nullifiers =>
      .ok { state with
        pendingNullified := state.pendingNullified ++ [(logIndex, treeNumber, nullifiers)] }
  | .action configs =>
      if countsMatch state.pendingNullified configs then
        if configs.isEmpty then
          .ok state
        else
          .ok { state with
            pendingNullified := []
            frames := openFrame state logIndex configs :: state.frames
            nextRecordIndex := state.nextRecordIndex + configs.length }
      else
        .error (.actionNullifierCountMismatch source.transactionHash source.blockNumber logIndex)
  | .unshield unshield =>
      match state.frames with
      | frame :: rest =>
          if 0 < frame.pendingUnshields then
            .ok { state with
              frames := { frame with unshields := frame.unshields ++ [unshield] } :: rest }
          else
            .error (.unmatchedActionLog source.transactionHash source.blockNumber logIndex)
      | [] => .error (.unmatchedActionLog source.transactionHash source.blockNumber logIndex)
  | .transact hashes =>
      match state.frames with
      | frame :: rest =>
          if frame.expectsTransact then do
            let transactions ← transactionsFromActionFrame contracts source frame hashes logIndex
            pure { state with
              frames := rest
              decoded := state.decoded ++ [(some logIndex, transactions)] }
          else
            .error (.unmatchedActionLog source.transactionHash source.blockNumber logIndex)
      | [] => .error (.unmatchedActionLog source.transactionHash source.blockNumber logIndex)

/-- A call without commitments emits no `Transact` and completes at its last `Unshield`. -/
def ActionFrame.isComplete (frame : ActionFrame) : Bool :=
  !frame.expectsTransact && frame.pendingUnshields == 0

def closeCompleted (contracts : Contracts) (source : IndexedLogSource) (state : ActionLogState) :
    Except ChainLogIngestionError ActionLogState :=
  match state.frames with
  | frame :: rest =>
      if frame.isComplete then do
        let transactions ← transactionsFromActionFrame contracts source frame [] frame.logIndex
        pure { state with
          frames := rest
          decoded := state.decoded ++ [(none, transactions)] }
      else
        .ok state
  | [] => .ok state

def actionLogStep (contracts : Contracts) (source : IndexedLogSource) (state : ActionLogState)
    (entry : Nat × ActionLogEvent) : Except ChainLogIngestionError ActionLogState := do
  let accepted ← acceptEvent contracts source state entry.1 entry.2
  closeCompleted contracts source accepted

/-- After the last event no `Nullified` log and no call may be left over. -/
def finishActionLogs (source : IndexedLogSource) (state : ActionLogState) :
    Except ChainLogIngestionError (List ActionCallTransactions) :=
  match state.pendingNullified, state.frames with
  | (logIndex, _) :: _, _ =>
      .error (.actionNullifierCountMismatch source.transactionHash source.blockNumber logIndex)
  | [], frame :: _ =>
      if 0 < frame.pendingUnshields then
        .error (.missingActionUnshield source.transactionHash source.blockNumber frame.logIndex)
      else
        .error (.actionCommitmentCountMismatch source.transactionHash source.blockNumber
          frame.logIndex)
  | [], [] => .ok state.decoded

/-- Rebuilds an outer transaction's Railgun transactions from its logs, grouped per call in
completion order. -/
def decodedTransactionsFromActionLogs (contracts : Contracts) (summary : TransactOutputSummary)
    (events : ActionLogEvents) : Except ChainLogIngestionError (List ActionCallTransactions) := do
  let state ← events.entries.foldlM (actionLogStep contracts summary.source) {}
  finishActionLogs summary.source state

end RailgunIndexer
