import Mathlib.Data.String.Basic
import RailgunIndexer.Lib.Cursor
import RailgunIndexer.Lib.OrdMap
import RailgunIndexer.PoiStore
import RailgunIndexer.Scrape

/-!
# The scraper of proof-of-innocence events

A worker reads the events of a list from an upstream page by page. It checks the events of a page, applies
them to a cache of all events so far, has the upstream confirm the roots, and stores the page together
with the new tip in one transaction. The cache is loaded from the store when the worker starts and is
replaced only after the commit of a page has been acknowledged.
-/

namespace RailgunIndexer

open Lib Transactions

/-! ### Tables -/

/-- The events of each list on each chain, and the tips of the upstreams they were read from. -/
structure PoiTables where
  events : Bytes32 × Nat → OrdMap Nat PoiEventRow
  tips : Bytes32 × Nat → OrdMap String ChainTipRow

namespace PoiTables

def empty : PoiTables := ⟨fun _ => .empty, fun _ => .empty⟩

def rows (tables : PoiTables) : PoiRows
  | .event listKey chainId eventIndex => (tables.events (listKey, chainId)).get? eventIndex
  | .tip listKey chainId upstreamUrl => (tables.tips (listKey, chainId)).get? upstreamUrl

def setRow (tables : PoiTables) : (key : PoiKey) → PoiRow key → PoiTables
  | .event listKey chainId eventIndex, row =>
      ⟨Function.update tables.events (listKey, chainId)
        ((tables.events (listKey, chainId)).insert eventIndex row), tables.tips⟩
  | .tip listKey chainId upstreamUrl, row =>
      ⟨tables.events, Function.update tables.tips (listKey, chainId)
        ((tables.tips (listKey, chainId)).insert upstreamUrl row)⟩

theorem get?_update_insert {κ ν : Type} [LinearOrder κ] (maps : Bytes32 × Nat → OrdMap κ ν)
    (pair other : Bytes32 × Nat) (key target : κ) (value : ν) :
    (Function.update maps pair ((maps pair).insert key value) other).get? target
      = if other = pair ∧ target = key then some value else (maps other).get? target := by
  by_cases hpair : other = pair
  · subst hpair
    simp [OrdMap.get?_insert, eq_comm]
  · simp [hpair]

theorem rows_setRow (tables : PoiTables) (key : PoiKey) (row : PoiRow key) :
    (tables.setRow key row).rows = Function.update tables.rows key (some row) := by
  funext other
  cases key with
  | event listKey chainId eventIndex =>
      cases other with
      | event otherList otherChain otherIndex =>
          refine (get?_update_insert tables.events (listKey, chainId) (otherList, otherChain)
            eventIndex otherIndex row).trans ?_
          by_cases hsame : (PoiKey.event otherList otherChain otherIndex)
              = .event listKey chainId eventIndex
          · cases hsame
            rw [if_pos ⟨rfl, rfl⟩, Function.update_self]
            rfl
          · rw [if_neg (by simpa [and_assoc] using hsame), Function.update_of_ne hsame]
            rfl
      | tip otherList otherChain otherUrl =>
          rw [Function.update_of_ne (by simp)]
          rfl
  | tip listKey chainId upstreamUrl =>
      cases other with
      | event otherList otherChain otherIndex =>
          rw [Function.update_of_ne (by simp)]
          rfl
      | tip otherList otherChain otherUrl =>
          refine (get?_update_insert tables.tips (listKey, chainId) (otherList, otherChain)
            upstreamUrl otherUrl row).trans ?_
          by_cases hsame : (PoiKey.tip otherList otherChain otherUrl)
              = .tip listKey chainId upstreamUrl
          · cases hsame
            rw [if_pos ⟨rfl, rfl⟩, Function.update_self]
            rfl
          · rw [if_neg (by simpa [and_assoc] using hsame), Function.update_of_ne hsame]
            rfl

def backing : Backing PoiKey PoiRow PoiTables := ⟨rows, setRow, rows_setRow⟩

def execute (session : PoiSession) (tables : PoiTables) : Except StoreError PoiTables :=
  match session.runIn backing tables with
  | (.ok (), after) => .ok after
  | (.error error, _) => .error error

end PoiTables

/-! ### Queries -/

structure StoredEvent where
  eventIndex : Nat
  blindedCommitment : Bytes32
  signature : Bytes
  eventType : PoiEventType
  deriving DecidableEq

structure StoredChainTip where
  lastEventIndex : Nat
  lastTipMerkleroot : Option Bytes32
  deriving DecidableEq

def rootOfBytes (bytes : Bytes) : Bytes32 := FixedBytes.ofNat (Cursor.bigEndian bytes)

section Queries

variable (listKey : Bytes32) (chainId : Nat) (tables : PoiTables)

def lastEventIndex (upstreamUrl : String) : Except StoreError (Option Nat) := do
  let chainId ← u64ToI64 chainId "chain_id"
  pure (((tables.tips (listKey, chainId)).get? upstreamUrl).map fun tip => tip.lastEventIndex)

def firstIncompleteEventIndex : Except StoreError (Option Nat) := do
  let chainId ← u64ToI64 chainId "chain_id"
  pure (((tables.events (listKey, chainId)).entries.find? fun entry =>
    entry.2.eventDataComplete = false).map Prod.fst)

def StoredEvent.ofRow (eventIndex : Nat) (row : PoiEventRow) : StoredEvent :=
  ⟨eventIndex, row.blindedCommitment, row.signature, row.eventType⟩

def storedEvent (eventIndex : Nat) (row : PoiEventRow) : Except StoreError StoredEvent := do
  let _ ← exactArray "signature" signatureBytes row.signature
  pure (.ofRow eventIndex row)

def pageEventRangeWithCompleteness (startIndex endIndex : Nat) (requireComplete : Bool) :
    Except StoreError (List StoredEvent) := do
  let storedChainId ← u64ToI64 chainId "chain_id"
  let startIndex ← u64ToI64 startIndex "start_index"
  let endIndex ← u64ToI64 endIndex "end_index"
  let rows := (tables.events (listKey, storedChainId)).entries.filter fun entry =>
    startIndex ≤ entry.1 ∧ entry.1 ≤ endIndex
  match rows.find? fun entry => requireComplete && !entry.2.eventDataComplete with
  | some entry => .error (.incompletePoiEvent chainId entry.1)
  | none => rows.mapM fun entry => storedEvent entry.1 entry.2

def pageEventRange (startIndex endIndex : Nat) : Except StoreError (List StoredEvent) :=
  pageEventRangeWithCompleteness listKey chainId tables startIndex endIndex true

def pageEventRangeForHydration (startIndex endIndex : Nat) : Except StoreError (List StoredEvent) :=
  pageEventRangeWithCompleteness listKey chainId tables startIndex endIndex false

def chainTip (upstreamUrl : String) : Except StoreError (Option StoredChainTip) := do
  let chainId ← u64ToI64 chainId "chain_id"
  ((tables.tips (listKey, chainId)).get? upstreamUrl).mapM fun tip => do
    let root ← tip.lastTipMerkleroot.mapM (exactArray "last_tip_merkleroot" merklerootBytes)
    pure ⟨tip.lastEventIndex, root.map rootOfBytes⟩

end Queries

/-! ### Libraries -/

/-- What the scraper takes from its libraries: the cache of a list's events and its roots, the check of
an event's signature, hexadecimal digits, and the tree a position belongs to. -/
structure ScrapeLibrary (Cache : Type) where
  newCache : PoiScope → Cache
  applyVerifiedArtifactEvents : Cache → List SnapshotEvent → Except String Cache
  currentRoots : Cache → Nat → Option Bytes32
  rootAtGlobalIndex : Cache → Nat → Option Bytes32
  verifyPoiEvent : SignedPoiEvent → Bytes32 → Except String Unit
  decodeHex : String → Option Bytes
  encodeHex : Bytes → String
  normalizeTreePosition : Nat → Nat → Nat × Nat

def signatureOfBytes (bytes : Bytes) : FixedBytes 64 := FixedBytes.ofNat (Cursor.bigEndian bytes)

def rootBytes (root : Bytes32) : Bytes :=
  (List.range merklerootBytes).map fun index =>
    UInt8.ofNat (root.val / 256 ^ (merklerootBytes - 1 - index))

def StoredEvent.snapshot (event : StoredEvent) : SnapshotEvent :=
  ⟨event.eventIndex, event.blindedCommitment, signatureOfBytes event.signature, event.eventType⟩

def StoredEvent.signed (encodeHex : Bytes → String) (event : StoredEvent) : SignedPoiEvent :=
  ⟨event.eventIndex, event.blindedCommitment, encodeHex event.signature, event.eventType⟩

/-! ### The worker -/

def evmChainType : Nat := 0

structure ScrapeWorker (Cache : Type) where
  listKey : Bytes32
  chainId : Nat
  upstreamUrl : String
  pageSize : PageSizeAdapter
  txidVersion : String
  cache : Option Cache

structure Upstream (Cache : Type) where
  poiEvents : Nat → Nat → Except PoiRpcError (List SignedPoiEvent)
  validateRoots : Cache → Except ScrapeError Bool

/-- How a commit ends: acknowledged, done without an acknowledgement, or not done. -/
inductive CommitOutcome where
  | committed
  | unacknowledged (error : StoreError)
  | failed (error : StoreError)

structure ScrapedPage where
  events : List SignedPoiEvent
  snapshotEvents : List SnapshotEvent
  lastEventIndex : Nat

section Worker

variable {Cache : Type} (library : ScrapeLibrary Cache)

def decodeEventSignature (signature : String) : Except ScrapeError (FixedBytes 64) :=
  match library.decodeHex (strip0x signature) with
  | none => .error .eventSignature
  | some bytes =>
      if bytes.length = signatureBytes then .ok (signatureOfBytes bytes) else .error .eventSignature

def snapshotEvent (listKey : Bytes32) (startIndex : Nat) (event : SignedPoiEvent) (offset : Nat) :
    Except ScrapeError SnapshotEvent :=
  if u64Bound ≤ startIndex + offset then
    .error (.indexOverflow startIndex)
  else if event.index ≠ startIndex + offset then
    .error (.nonContiguousEvent (startIndex + offset) event.index)
  else do
    (library.verifyPoiEvent event listKey).mapError (.invalidEventSignature event.index)
    let signature ← decodeEventSignature library event.signature
    pure ⟨event.index, event.blindedCommitment, signature, event.eventType⟩

variable (worker : ScrapeWorker Cache) (tables : PoiTables)

def nextStartIndex : Except ScrapeError Nat := do
  let incomplete ← (firstIncompleteEventIndex worker.listKey worker.chainId tables).mapError .store
  match incomplete with
  | some index => pure index
  | none => do
      let tip ← (lastEventIndex worker.listKey worker.chainId tables worker.upstreamUrl).mapError
        .store
      match tip with
      | none => pure 0
      | some tip => if u64Bound ≤ tip + 1 then .error (.indexOverflow tip) else pure (tip + 1)

/-- The events a cache is loaded with: those up to the tip of the worker's upstream. -/
def hydrationEvents : Except ScrapeError (List SnapshotEvent) := do
  let tip ← (lastEventIndex worker.listKey worker.chainId tables worker.upstreamUrl).mapError .store
  match tip with
  | none => pure []
  | some tip => do
      let events ← (pageEventRangeForHydration worker.listKey worker.chainId tables 0 tip).mapError
        .store
      pure (events.map StoredEvent.snapshot)

def ScrapeWorker.scope : PoiScope :=
  ⟨evmChainType, worker.chainId, worker.txidVersion, worker.listKey⟩

/-- Without a tip the new cache is left as it is. -/
def loadPoiCache : Except ScrapeError Cache := do
  let tip ← (lastEventIndex worker.listKey worker.chainId tables worker.upstreamUrl).mapError .store
  match tip with
  | none => pure (library.newCache worker.scope)
  | some _ => do
      let events ← hydrationEvents worker tables
      (library.applyVerifiedArtifactEvents (library.newCache worker.scope) events).mapError .cache

def cachedPoiCache : Except ScrapeError Cache :=
  match worker.cache with
  | some cache => .ok cache
  | none => loadPoiCache library worker tables

/-- The next page of the upstream with its events checked, or `none` when there are no more. -/
def requestPage (upstream : Upstream Cache) : Except ScrapeError (Option ScrapedPage) := do
  let startIndex ← nextStartIndex worker tables
  let endExclusive := startIndex + worker.pageSize.currentSize
  if u64Bound ≤ endExclusive ∨ endExclusive = 0 then
    .error (.indexOverflow startIndex)
  else do
    let events ← (upstream.poiEvents startIndex (endExclusive - 1)).mapError .poiRpc
    let snapshotEvents ← events.zipIdx.mapM fun event =>
      snapshotEvent library worker.listKey startIndex event.1 event.2
    pure (snapshotEvents.getLast?.map fun last => ⟨events, snapshotEvents, last.eventIndex⟩)

/-- The cache with a page applied, and the root of the tree of the page's last event. -/
def applyPage (upstream : Upstream Cache) (cache : Cache) (page : ScrapedPage) :
    Except ScrapeError (Cache × Bytes32) := do
  let cache ← (library.applyVerifiedArtifactEvents cache page.snapshotEvents).mapError .cache
  let accepted ← upstream.validateRoots cache
  if !accepted then
    .error .rootRejected
  else
    let treeNumber := (library.normalizeTreePosition 0 page.lastEventIndex).1
    match library.currentRoots cache treeNumber with
    | none => .error (.missingRoot treeNumber)
    | some root => pure (cache, root)

def storePage (page : ScrapedPage) (root : Bytes32) : Except StoreError PoiTables := do
  let tables ← tables.execute (insertEvents library.decodeHex worker.listKey worker.chainId page.events)
  let durableTip ← lastEventIndex worker.listKey worker.chainId tables worker.upstreamUrl
  if durableTip.all fun tip => tip ≤ page.lastEventIndex then
    tables.execute (advanceChainTip library.decodeHex worker.listKey worker.chainId
      worker.upstreamUrl page.lastEventIndex (some ("0x" ++ library.encodeHex (rootBytes root))))
  else
    pure tables

/-- The worker keeps a cache it has loaded also when the page fails afterwards. -/
def syncNextPage (upstream : Upstream Cache) (commit : CommitOutcome) :
    Except ScrapeError SyncPageOutcome × Option Cache × PoiTables :=
  match requestPage library worker tables upstream with
  | .error error => (.error error, worker.cache, tables)
  | .ok none => (.ok .caughtUp, worker.cache, tables)
  | .ok (some page) =>
      match cachedPoiCache library worker tables with
      | .error error => (.error error, worker.cache, tables)
      | .ok cache =>
          match applyPage library upstream cache page with
          | .error error => (.error error, some cache, tables)
          | .ok (applied, root) =>
              match storePage library worker tables page root with
              | .error error => (.error (.store error), some cache, tables)
              | .ok after =>
                  match commit with
                  | .committed =>
                      (.ok (.ingested page.events.length page.lastEventIndex), some applied, after)
                  | .unacknowledged error => (.error (.store error), some cache, after)
                  | .failed error => (.error (.store error), some cache, tables)

end Worker

/-! ### Replay -/

inductive ReplayError where
  | nonContiguousEvent (expected actual : Nat)
  | invalidEventSignature (eventIndex : Nat) (reason : String)
  | cache (reason : String)
  | finalRootPresenceMismatch
  | missingRoot (eventIndex : Nat)
  | finalRootMismatch (eventIndex : Nat) (expected actual : Bytes32)
  deriving DecidableEq

structure ReplayedCorpus (Cache : Type) where
  scope : PoiScope
  events : List SnapshotEvent
  cache : Cache

section Replay

variable {Cache : Type} (library : ScrapeLibrary Cache)

def replayEvent (listKey : Bytes32) (stored : StoredEvent) (expected : Nat) :
    Except ReplayError SnapshotEvent :=
  if stored.eventIndex ≠ expected then
    .error (.nonContiguousEvent expected stored.eventIndex)
  else do
    (library.verifyPoiEvent (stored.signed library.encodeHex) listKey).mapError
      (.invalidEventSignature stored.eventIndex)
    pure stored.snapshot

def checkFinalRoot (cache : Cache) (last : Option SnapshotEvent) (expected : Option Bytes32) :
    Except ReplayError Unit :=
  match last, expected with
  | none, none => .ok ()
  | none, some _ => .error .finalRootPresenceMismatch
  | some _, none => .error .finalRootPresenceMismatch
  | some last, some expected =>
      match library.rootAtGlobalIndex cache last.eventIndex with
      | none => .error (.missingRoot last.eventIndex)
      | some actual =>
          if actual ≠ expected then .error (.finalRootMismatch last.eventIndex expected actual)
          else .ok ()

def ValidatedCorpus.replay (scope : PoiScope) (storedEvents : List StoredEvent)
    (expectedFinalRoot : Option Bytes32) : Except ReplayError (ReplayedCorpus Cache) := do
  let events ← storedEvents.zipIdx.mapM fun stored => replayEvent library scope.listKey stored.1 stored.2
  let cache ← (library.applyVerifiedArtifactEvents (library.newCache scope) events).mapError .cache
  checkFinalRoot library cache events.getLast? expectedFinalRoot
  pure ⟨scope, events, cache⟩

end Replay

/-! ### Runs -/

structure ScrapeState (Cache : Type) where
  tables : PoiTables
  cache : String → Option Cache

inductive ScrapeEvent where
  | sync (upstreamUrl : String)
  | restart (upstreamUrl : String)
  | leaves (upstreamUrl : String)

def tipCount (listKey : Bytes32) (chainId : Nat) (tables : PoiTables) (upstreamUrl : String) : Nat :=
  ((tables.tips (listKey, chainId)).get? upstreamUrl).elim 0 fun tip => tip.lastEventIndex + 1

/-- The workers of one list on one chain. A page of leaves comes from an earlier version, which read on
from its upstream's tip and stored only the commitments. -/
inductive ScrapeStep {Cache : Type} (library : ScrapeLibrary Cache) (listKey : Bytes32)
    (chainId : Nat) : ScrapeState Cache → ScrapeEvent → ScrapeState Cache → Prop
  | sync {state : ScrapeState Cache} (worker : ScrapeWorker Cache) (upstream : Upstream Cache)
      (commit : CommitOutcome) (hlist : worker.listKey = listKey) (hchain : worker.chainId = chainId)
      (hcache : worker.cache = state.cache worker.upstreamUrl) :
      ScrapeStep library listKey chainId state (.sync worker.upstreamUrl)
        ⟨(syncNextPage library worker state.tables upstream commit).2.2,
          Function.update state.cache worker.upstreamUrl
            (syncNextPage library worker state.tables upstream commit).2.1⟩
  | restart {state : ScrapeState Cache} (upstreamUrl : String) :
      ScrapeStep library listKey chainId state (.restart upstreamUrl)
        ⟨state.tables, Function.update state.cache upstreamUrl none⟩
  | leaves {state : ScrapeState Cache} {inserted after : PoiTables} (upstreamUrl : String)
      (startIndex : Nat) (leaves : List U256) (lastTipMerkleroot : Option String)
      (hnonempty : leaves ≠ [])
      (hstart : startIndex ≤ tipCount listKey chainId state.tables upstreamUrl)
      (hinsert : state.tables.execute (insertEventLeaves listKey chainId startIndex leaves)
        = .ok inserted)
      (hadvance : inserted.execute (advanceChainTip library.decodeHex listKey chainId upstreamUrl
        (startIndex + leaves.length - 1) lastTipMerkleroot) = .ok after) :
      ScrapeStep library listKey chainId state (.leaves upstreamUrl) ⟨after, state.cache⟩

end RailgunIndexer
