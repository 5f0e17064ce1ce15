import RailgunIndexer.PoiArtifacts
import RailgunIndexer.Store
import RailgunIndexer.Lib.Transactions

/-!
# The store of proof-of-innocence events

A scraper writes the events of a list within a transaction: complete events with their signatures, leaves
of which only the blinded commitment is known, and the tip of the upstream it reads from. Each function
runs its statements one row at a time. A statement that affects no row is followed by a query that finds
out why. The times of the writes are left out.
-/

namespace RailgunIndexer

open Lib.Transactions

/-! ### Rows -/

structure PoiEventRow where
  blindedCommitment : Bytes32
  signature : Bytes
  eventType : PoiEventType
  eventDataComplete : Bool
  deriving DecidableEq

structure ChainTipRow where
  lastEventIndex : Nat
  lastTipMerkleroot : Option Bytes
  deriving DecidableEq

inductive PoiKey where
  | event (listKey : Bytes32) (chainId eventIndex : Nat)
  | tip (listKey : Bytes32) (chainId : Nat) (upstreamUrl : String)
  deriving DecidableEq

def PoiRow : PoiKey → Type
  | .event _ _ _ => PoiEventRow
  | .tip _ _ _ => ChainTipRow

abbrev PoiSession := Session PoiKey PoiRow StoreError

abbrev PoiRows := Rows PoiKey PoiRow

/-! ### Hexadecimal values -/

def signatureBytes : Nat := 64

def merklerootBytes : Nat := 32

def exactArray (field : String) (width : Nat) (bytes : Bytes) : Except StoreError Bytes :=
  if bytes.length = width then .ok bytes else .error (.hexLength field width bytes.length)

def strip0x (value : String) : String :=
  match value.toList with
  | '0' :: 'x' :: rest => String.ofList rest
  | _ => value

/-- The decoder of hexadecimal digits is a library's. -/
def decodeFixedHex (decodeHex : String → Option Bytes) (field : String) (width : Nat)
    (value : String) : Except StoreError Bytes :=
  match decodeHex (strip0x value) with
  | none => .error (.hex field)
  | some bytes => exactArray field width bytes

/-! ### Complete events -/

structure SignedPoiEvent where
  index : Nat
  blindedCommitment : Bytes32
  signature : String
  eventType : PoiEventType
  deriving DecidableEq

/-- Inserts a complete event, or completes one that has the same commitment. -/
def upsertEvent (blindedCommitment : Bytes32) (signature : Bytes) (eventType : PoiEventType) :
    Option PoiEventRow → Option PoiEventRow
  | none => some ⟨blindedCommitment, signature, eventType, true⟩
  | some row =>
      if row.eventDataComplete = false ∧ row.blindedCommitment = blindedCommitment then
        some ⟨blindedCommitment, signature, eventType, true⟩
      else
        none

/-- Whether the stored event is complete and the same as the one to insert. -/
def exactCompleteReinsert (blindedCommitment : Bytes32) (signature : Bytes) (eventType : PoiEventType)
    (stored : PoiEventRow) : Except StoreError Bool :=
  if stored.eventDataComplete = true ∧ stored.blindedCommitment = blindedCommitment then do
    let storedSignature ← exactArray "signature" signatureBytes stored.signature
    pure (decide (storedSignature = signature ∧ stored.eventType = eventType))
  else
    pure false

section Statements

variable (decodeHex : String → Option Bytes) (listKey : Bytes32) (chainId : Nat)

def checkReinsert (event : SignedPoiEvent) (signature : Bytes) (stored : Option PoiEventRow) :
    PoiSession :=
  match stored with
  | none => .fail .rowNotFound
  | some stored =>
      .require (exactCompleteReinsert event.blindedCommitment signature event.eventType stored)
        fun exact => if exact then .done else .fail (.poiEventConflict chainId event.index)

def insertEvent (event : SignedPoiEvent) : PoiSession :=
  .require (u64ToI64 event.index "event_index") fun eventIndex =>
    .require (decodeFixedHex decodeHex "signature" signatureBytes event.signature) fun signature =>
      .exec (.event listKey chainId eventIndex)
        (upsertEvent event.blindedCommitment signature event.eventType) fun seen =>
          if (upsertEvent event.blindedCommitment signature event.eventType seen).isSome then .done
          else
            .exec (.event listKey chainId eventIndex) (fun _ => none) fun stored =>
              checkReinsert chainId event signature stored

def insertEvents (events : List SignedPoiEvent) : PoiSession :=
  .require (u64ToI64 chainId "chain_id") fun chainId =>
    .sequence (insertEvent decodeHex listKey chainId) events

/-! ### Leaves -/

/-- Inserts a leaf as an event that is not complete, unless there is an event. -/
def insertLeafRow (blindedCommitment : Bytes32) : Option PoiEventRow → Option PoiEventRow
  | none => some ⟨blindedCommitment, List.replicate signatureBytes 0, .shield, false⟩
  | some _ => none

def checkLeaf (eventIndex : Nat) (leaf : U256) (stored : Option PoiEventRow) : PoiSession :=
  match stored with
  | none => .fail .rowNotFound
  | some stored =>
      if stored.blindedCommitment ≠ leaf then .fail (.poiEventConflict chainId eventIndex) else .done

def insertEventLeaf (startIndex offset : Nat) (leaf : U256) : PoiSession :=
  if u64Bound ≤ startIndex + offset then .fail (.eventIndexOutOfRange startIndex offset)
  else
    .require (u64ToI64 (startIndex + offset) "event_index") fun eventIndex =>
      .exec (.event listKey chainId eventIndex) (insertLeafRow leaf) fun seen =>
        if (insertLeafRow leaf seen).isSome then .done
        else
          .exec (.event listKey chainId eventIndex) (fun _ => none) fun stored =>
            checkLeaf chainId eventIndex leaf stored

def insertEventLeaves (startIndex : Nat) (leaves : List U256) : PoiSession :=
  .require (u64ToI64 chainId "chain_id") fun chainId =>
    .sequence (fun leaf => insertEventLeaf listKey chainId startIndex leaf.2 leaf.1) leaves.zipIdx

/-! ### Tips -/

def upsertTip (lastEventIndex : Nat) (lastTipMerkleroot : Option Bytes) :
    Option ChainTipRow → Option ChainTipRow
  | none => some ⟨lastEventIndex, lastTipMerkleroot⟩
  | some row =>
      if row.lastEventIndex ≤ lastEventIndex then some ⟨lastEventIndex, lastTipMerkleroot⟩ else none

def advanceChainTip (upstreamUrl : String) (lastEventIndex : Nat)
    (lastTipMerkleroot : Option String) : PoiSession :=
  .require (u64ToI64 chainId "chain_id") fun chainId =>
    .require (u64ToI64 lastEventIndex "last_event_index") fun lastEventIndex =>
      .require (lastTipMerkleroot.mapM (decodeFixedHex decodeHex "last_tip_merkleroot" merklerootBytes))
        fun lastTipMerkleroot =>
          .exec (.tip listKey chainId upstreamUrl) (upsertTip lastEventIndex lastTipMerkleroot)
            fun seen =>
              if (upsertTip lastEventIndex lastTipMerkleroot seen).isSome then .done
              else .fail (.chainTipRegression listKey chainId upstreamUrl lastEventIndex)

end Statements

/-! ### Transactions -/

inductive PoiCall where
  | insertEvents (events : List SignedPoiEvent)
  | insertEventLeaves (startIndex : Nat) (leaves : List U256)
  | advanceChainTip (upstreamUrl : String) (lastEventIndex : Nat) (lastTipMerkleroot : Option String)

/-- Calls for one list on one chain. A call that fails ends the transaction. -/
structure PoiTransaction where
  listKey : Bytes32
  chainId : Nat
  calls : List PoiCall

def PoiCall.session (decodeHex : String → Option Bytes) (listKey : Bytes32) (chainId : Nat) :
    PoiCall → PoiSession
  | .insertEvents events => RailgunIndexer.insertEvents decodeHex listKey chainId events
  | .insertEventLeaves startIndex leaves =>
      RailgunIndexer.insertEventLeaves listKey chainId startIndex leaves
  | .advanceChainTip upstreamUrl lastEventIndex lastTipMerkleroot =>
      RailgunIndexer.advanceChainTip decodeHex listKey chainId upstreamUrl lastEventIndex
        lastTipMerkleroot

def PoiTransaction.session (decodeHex : String → Option Bytes) (transaction : PoiTransaction) :
    PoiSession :=
  .sequence (PoiCall.session decodeHex transaction.listKey transaction.chainId) transaction.calls

end RailgunIndexer
