import RailgunIndexer.Retention
import RailgunIndexer.Lib.Run

/-!
# Runs of the publishers and the sweeper

Three tasks share the publication tables: the publisher of each channel and the retention sweeper. A
step is one transaction, one call to the pinning service, or what lies between two awaits. Any
transaction may fail, and it may be committed without its task learning of it; any call may fail; the
process may stop after any step and start again.

Pins are made and removed in sections under one lock. A section is what its task does next while it
holds the lock. Activations, invalidations, abandonments and reservations do not take the lock.
-/

namespace RailgunIndexer

open Lib

/-- What the bytes with a CID are. Distinct bytes have distinct CIDs, so a CID has one content, and the
body of a manifest holds its sequence. -/
inductive PublishedContent where
  | artifact
  | poiManifest (sequence : Nat)
  | indexedManifest (sequence : Nat)
  deriving DecidableEq

/-! ### Tasks -/

/-- A cycle of the POI publisher: it reconciles the manifest it found pending, publishes the artifacts
of a graph, reserves a sequence, records the manifest and activates it. -/
inductive PoiTask where
  | idle
  | reconciling (pending : PoiManifestRow)
  | publishing (graph : List (PoiArtifactPublicationKind × String))
  | reserved (graph : List (PoiArtifactPublicationKind × String)) (sequence : Nat)
  | recorded (cid : String) (sequence : Nat)
  deriving DecidableEq

/-- A cycle of the chain-indexed publisher. The chains are published concurrently, and the cycle ends
before it reserves a sequence when one of them failed. -/
inductive IndexedTask where
  | idle
  | reconciling (pending : IndexedManifestRow)
  | repinned (pending : IndexedManifestRow)
  | publishing (artifactCids : List String) (failed : Bool)
  | reserved (artifactCids : List String) (sequence : Nat)
  | recorded (cid : String) (sequence : Nat)
  deriving DecidableEq

/-- A sweep that started at a time, with the debts or the CIDs it has still to take up. -/
inductive SweepTask where
  | idle
  | retrying (now cutoff : Nat) (debts : List String)
  | sweeping (now cutoff : Nat) (cids : List String)
  deriving DecidableEq

/-- What is done next under the pin lock. An owned pin was made in this section. -/
inductive PinSection where
  | poiArtifact (key : PoiArtifactKey) (metadata : PoiArtifactMetadata) (cid : String) (owned : Bool)
  | indexedArtifact (key : IndexedArtifactKey) (metadata : IndexedArtifactMetadata) (cid : String)
      (owned : Bool)
  | poiManifest (cid : String) (entries : List PoiManifestEntry)
      (graph : List (PoiArtifactPublicationKind × String)) (sequence : Nat) (bytes : Bytes)
  | indexedManifest (cid : String) (artifactCids : List String) (sequence : Nat) (bytes : Bytes)
  | cleanup (cid : String)
  | cleanupUnpin (cid : String)
  | cleanupDebt (cid : String)
  | debt (cid : String)
  | debtUnpin (cid : String)
  | debtSettle (cid : String) (unpinned : Bool)
  | sweep (cid : String) (cutoff now : Nat)
  | sweepUnpin (cid : String) (cutoff now : Nat)
  | sweepMark (cid : String) (cutoff now : Nat)
  deriving DecidableEq

/-- The database, the clock, and what the process holds in memory. -/
structure PublicationState where
  tables : PublicationTables
  clock : Nat
  pinLock : Option PinSection
  poi : PoiTask
  indexed : IndexedTask
  lastIpnsSequence : Option Nat
  ipnsSequenceLoaded : Bool
  sweeper : SweepTask
  deriving DecidableEq

def PublicationState.started (tables : PublicationTables) (clock : Nat) : PublicationState :=
  ⟨tables, clock, none, .idle, .idle, none, false, .idle⟩

/-- What a step has done that a statement about runs speaks of. `retention` tells the unpins of a sweep
from those that clean up after a failed publication. -/
inductive PublicationEvent where
  | silent
  | poiArtifactPinned (kind : PoiArtifactPublicationKind) (cid : String)
  | poiActivated (cid : String) (sequence : Nat)
  | poiAbandoned (unavailable : Option String)
  | indexedActivated (cid : String) (sequence : Nat)
  | sweepStarted (retentionInterval : Nat)
  | unpin (cid : String) (retention : Bool)
  deriving DecidableEq

/-- How a transaction ends: committed, with or without its task learning of it, or rolled back. -/
inductive Commits {σ : Type} (result : Except AuditError σ) (before : σ) : Bool → σ → Prop
  | acknowledged {after : σ} (hok : result = .ok after) : Commits result before true after
  | unacknowledged {after : σ} (hok : result = .ok after) : Commits result before false after
  | rolledBack : Commits result before false before

/-- A pin that was not recorded is cleaned up by the section that made it. -/
def sectionAfter (owned acknowledged : Bool) (cid : String) : Option PinSection :=
  if owned && !acknowledged then some (.cleanup cid) else none

/-! ### The POI publisher -/

section Poi

variable (library : PoiLibrary) (content : String → PublishedContent)

inductive PoiPublisherStep (s : PublicationState) : PublicationEvent → PublicationState → Prop
  | pending {row : PoiManifestRow} (hpoi : s.poi = .idle)
      (hok : Audit.pendingManifest Audit.v4 s.tables.poiManifests = .ok (some row)) :
      PoiPublisherStep s .silent { s with poi := .reconciling row }
  | noPending (hpoi : s.poi = .idle)
      (hok : Audit.pendingManifest Audit.v4 s.tables.poiManifests = .ok none) :
      PoiPublisherStep s .silent { s with poi := .publishing [] }
  | abandon {row : PoiManifestRow} {unavailable : Option String} {after : PublicationTables}
      {acknowledged : Bool} (hpoi : s.poi = .reconciling row)
      (hunavailable : ∀ cid, unavailable = some cid → cid ∈ row.artifactCids)
      (hok : Audit.abandonPendingPoiV4ManifestReconciliation s.clock row.cid row.ipnsSequence unavailable
        s.tables = .ok after) :
      PoiPublisherStep s (.poiAbandoned unavailable)
        { s with tables := after, poi := if acknowledged then .publishing [] else .idle }
  | reconcile {row : PoiManifestRow} {after : PublicationTables} (hpoi : s.poi = .reconciling row)
      (hok : Audit.recordPoiArtifactManifestIpnsPublication s.clock row.cid row.ipnsSequence s.tables
        = .ok after) :
      PoiPublisherStep s (.poiActivated row.cid row.ipnsSequence)
        { s with tables := after, poi := .idle }
  | reuse {graph : List (PoiArtifactPublicationKind × String)} {key : PoiArtifactKey}
      {metadata : PoiArtifactMetadata} {cid : String} (hlock : s.pinLock = none)
      (hpoi : s.poi = .publishing graph)
      (hok : Audit.livePoiArtifactCid key metadata.byteSize metadata.contentHash metadata.endRoot s.tables
        = .ok (some cid)) :
      PoiPublisherStep s .silent { s with pinLock := some (.poiArtifact key metadata cid false) }
  | pin {graph : List (PoiArtifactPublicationKind × String)} {key : PoiArtifactKey}
      {metadata : PoiArtifactMetadata} {cid : String} (hlock : s.pinLock = none)
      (hpoi : s.poi = .publishing graph) (hcontent : content cid = .artifact) :
      PoiPublisherStep s (.poiArtifactPinned key.kind cid)
        { s with pinLock := some (.poiArtifact key metadata cid true) }
  | recordArtifact {graph : List (PoiArtifactPublicationKind × String)} {key : PoiArtifactKey}
      {metadata : PoiArtifactMetadata} {cid : String}
      {owned acknowledged : Bool} {after : PublicationTables}
      (hlock : s.pinLock = some (.poiArtifact key metadata cid owned))
      (hpoi : s.poi = .publishing graph)
      (hcommits : Commits (Audit.recordPoiArtifactPin s.clock key cid metadata s.tables) s.tables
        acknowledged after) :
      PoiPublisherStep s .silent
        { s with
          tables := after
          pinLock := sectionAfter owned acknowledged cid
          poi := if acknowledged then .publishing (graph ++ [(key.kind, cid)]) else .idle }
  | reserve {graph : List (PoiArtifactPublicationKind × String)} {minimum sequence : Nat}
      {after : PublicationTables} {acknowledged : Bool}
      (hpoi : s.poi = .publishing graph)
      (hok : Audit.reservePoiPublicationSequence minimum s.tables = .ok (after, sequence)) :
      PoiPublisherStep s .silent
        { s with tables := after, poi := if acknowledged then .reserved graph sequence else .idle }
  | pinManifest {graph : List (PoiArtifactPublicationKind × String)}
      {entries : List PoiManifestEntry} {sequence : Nat} {cid : String} {bytes : Bytes}
      (hlock : s.pinLock = none) (hpoi : s.poi = .reserved graph sequence)
      (hentries : ∀ entry ∈ entries,
        (PoiArtifactPublicationKind.checkpointCatalog, entry.checkpointCatalog.artifact.cid) ∈ graph)
      (hcontent : content cid = .poiManifest sequence) :
      PoiPublisherStep s .silent
        { s with pinLock := some (.poiManifest cid entries graph sequence bytes) }
  | recordManifest {graph : List (PoiArtifactPublicationKind × String)}
      {entries : List PoiManifestEntry} {sequence : Nat} {cid : String} {bytes : Bytes}
      {acknowledged : Bool} {after : PublicationTables}
      (hlock : s.pinLock = some (.poiManifest cid entries graph sequence bytes))
      (hpoi : s.poi = .reserved graph sequence)
      (hcommits : Commits (Audit.recordPoiArtifactManifestPin library cid entries (graph.map Prod.snd)
        sequence bytes.length (library.contentHash bytes) s.tables) s.tables acknowledged after) :
      PoiPublisherStep s .silent
        { s with
          tables := after
          pinLock := sectionAfter true acknowledged cid
          poi := if acknowledged then .recorded cid sequence else .idle }
  | activate {cid : String} {sequence : Nat} {after : PublicationTables}
      (hpoi : s.poi = .recorded cid sequence)
      (hok : Audit.recordPoiArtifactManifestIpnsPublication s.clock cid sequence s.tables = .ok after) :
      PoiPublisherStep s (.poiActivated cid sequence) { s with tables := after, poi := .idle }
  | invalidate {cid : String} {sequence : Nat} {after : PublicationTables}
      (hok : Audit.invalidatePendingPoiManifestReconciliation s.clock cid sequence s.tables
        = .ok after) :
      PoiPublisherStep s .silent { s with tables := after }
  | stop : PoiPublisherStep s .silent { s with poi := .idle }

end Poi

/-! ### The chain-indexed publisher -/

/-- The sequence the publisher goes on from: the one in memory, once it was loaded. -/
def PublicationState.knownIpnsSequence (s : PublicationState) : Option Nat :=
  if s.ipnsSequenceLoaded then s.lastIpnsSequence else s.tables.chainIndexedIpnsLastSequence

def insertCid (cid : String) (cids : List String) : List String :=
  if cids.contains cid then cids else cids ++ [cid]

def nextIpnsSequence (nowMillis : Nat) (lastSequence : Option Nat) : Nat :=
  match lastSequence with
  | none => nowMillis
  | some last => max nowMillis (min (last + 1) (u64Bound - 1))

section Indexed

variable (library : PoiLibrary) (content : String → PublishedContent)

inductive IndexedPublisherStep (s : PublicationState) : PublicationEvent → PublicationState → Prop
  | pending {row : IndexedManifestRow} (hindexed : s.indexed = .idle)
      (hok : Audit.pendingManifest Audit.chainIndexed s.tables.indexedManifests = .ok (some row)) :
      IndexedPublisherStep s .silent { s with indexed := .reconciling row }
  | noPending (hindexed : s.indexed = .idle)
      (hok : Audit.pendingManifest Audit.chainIndexed s.tables.indexedManifests = .ok none) :
      IndexedPublisherStep s .silent { s with indexed := .publishing [] false }
  | repin {row : IndexedManifestRow} (hlock : s.pinLock = none)
      (hindexed : s.indexed = .reconciling row) :
      IndexedPublisherStep s .silent { s with indexed := .repinned row }
  | repinMismatch {row : IndexedManifestRow} {returned : String} (hlock : s.pinLock = none)
      (hindexed : s.indexed = .reconciling row)
      (hreturned : returned ≠ row.cid) :
      IndexedPublisherStep s .silent { s with pinLock := some (.cleanup returned), indexed := .idle }
  | reconcile {row : IndexedManifestRow} {after : PublicationTables} {acknowledged : Bool}
      (hindexed : s.indexed = .repinned row)
      (hok : Audit.recordIndexedManifestIpnsPublication s.clock row.cid row.ipnsSequence s.tables
        = .ok after) :
      IndexedPublisherStep s (.indexedActivated row.cid row.ipnsSequence)
        { s with
          tables := after
          indexed := .idle
          lastIpnsSequence := if acknowledged then some row.ipnsSequence else s.lastIpnsSequence
          ipnsSequenceLoaded := acknowledged || s.ipnsSequenceLoaded }
  | reuse {artifactCids : List String} {failed : Bool} {key : IndexedArtifactKey}
      {metadata : IndexedArtifactMetadata} {cid : String} (hlock : s.pinLock = none)
      (hindexed : s.indexed = .publishing artifactCids failed)
      (hok : Audit.liveIndexedArtifactCid key metadata s.tables = .ok (some cid)) :
      IndexedPublisherStep s .silent
        { s with pinLock := some (.indexedArtifact key metadata cid false) }
  | pin {artifactCids : List String} {failed : Bool} {key : IndexedArtifactKey}
      {metadata : IndexedArtifactMetadata} {cid : String} (hlock : s.pinLock = none)
      (hindexed : s.indexed = .publishing artifactCids failed) (hcontent : content cid = .artifact) :
      IndexedPublisherStep s .silent
        { s with pinLock := some (.indexedArtifact key metadata cid true) }
  | recordArtifact {artifactCids : List String} {failed : Bool} {key : IndexedArtifactKey}
      {metadata : IndexedArtifactMetadata} {cid : String}
      {owned acknowledged : Bool} {after : PublicationTables}
      (hlock : s.pinLock = some (.indexedArtifact key metadata cid owned))
      (hindexed : s.indexed = .publishing artifactCids failed)
      (hcommits : Commits (Audit.recordIndexedArtifactPin s.clock key cid metadata s.tables) s.tables
        acknowledged after) :
      IndexedPublisherStep s .silent
        { s with
          tables := after
          pinLock := sectionAfter owned acknowledged cid
          indexed := if acknowledged then .publishing (insertCid cid artifactCids) failed
            else .publishing artifactCids true }
  | fail {artifactCids : List String} {failed : Bool}
      (hindexed : s.indexed = .publishing artifactCids failed) :
      IndexedPublisherStep s .silent { s with indexed := .publishing artifactCids true }
  | reserve {artifactCids : List String} {nowMillis : Nat} {after : PublicationTables}
      {acknowledged : Bool}
      (hindexed : s.indexed = .publishing artifactCids false)
      (hcommits : Commits (Audit.recordChainIndexedIpnsSequence
        (nextIpnsSequence nowMillis s.knownIpnsSequence) s.tables) s.tables acknowledged after) :
      IndexedPublisherStep s .silent
        { s with
          tables := after
          lastIpnsSequence := if acknowledged
            then some (nextIpnsSequence nowMillis s.knownIpnsSequence) else s.knownIpnsSequence
          ipnsSequenceLoaded := true
          indexed := if acknowledged
            then .reserved artifactCids (nextIpnsSequence nowMillis s.knownIpnsSequence) else .idle }
  | pinManifest {artifactCids : List String} {sequence : Nat} {cid : String} {bytes : Bytes}
      (hlock : s.pinLock = none) (hindexed : s.indexed = .reserved artifactCids sequence)
      (hcontent : content cid = .indexedManifest sequence) :
      IndexedPublisherStep s .silent
        { s with pinLock := some (.indexedManifest cid artifactCids sequence bytes) }
  | recordManifest {artifactCids : List String} {sequence : Nat} {cid : String} {bytes : Bytes}
      {acknowledged : Bool} {after : PublicationTables}
      (hlock : s.pinLock = some (.indexedManifest cid artifactCids sequence bytes))
      (hindexed : s.indexed = .reserved artifactCids sequence)
      (hcommits : Commits (Audit.recordIndexedManifestPin cid artifactCids sequence bytes.length
        (library.contentHash bytes) bytes s.tables) s.tables acknowledged after) :
      IndexedPublisherStep s .silent
        { s with
          tables := after
          pinLock := sectionAfter true acknowledged cid
          indexed := if acknowledged then .recorded cid sequence else .idle }
  | activate {cid : String} {sequence : Nat} {after : PublicationTables}
      (hindexed : s.indexed = .recorded cid sequence)
      (hok : Audit.recordIndexedManifestIpnsPublication s.clock cid sequence s.tables = .ok after) :
      IndexedPublisherStep s (.indexedActivated cid sequence)
        { s with tables := after, indexed := .idle }
  | stop : IndexedPublisherStep s .silent { s with indexed := .idle }

end Indexed

/-! ### Cleaning up and sweeping -/

/-- A pin that was not recorded is removed unless something references its CID. -/
inductive CleanupStep (s : PublicationState) : PublicationEvent → PublicationState → Prop
  | referenced {cid : String} (hlock : s.pinLock = some (.cleanup cid))
      (hreferenced : Audit.publicationCidIsReferenced cid s.tables = true) :
      CleanupStep s .silent { s with pinLock := none }
  | unreferenced {cid : String} (hlock : s.pinLock = some (.cleanup cid))
      (hreferenced : Audit.publicationCidIsReferenced cid s.tables = false) :
      CleanupStep s .silent { s with pinLock := some (.cleanupUnpin cid) }
  | unknown {cid : String} (hlock : s.pinLock = some (.cleanup cid)) :
      CleanupStep s .silent { s with pinLock := some (.cleanupDebt cid) }
  | unpin {cid : String} {unpinned : Bool} (hlock : s.pinLock = some (.cleanupUnpin cid)) :
      CleanupStep s (.unpin cid false)
        { s with pinLock := if unpinned then none else some (.cleanupDebt cid) }
  | recordDebt {cid : String} {acknowledged : Bool} {after : PublicationTables}
      (hlock : s.pinLock = some (.cleanupDebt cid))
      (hcommits : Commits (.ok (Audit.recordPinCleanupDebt cid s.tables)) s.tables acknowledged after) :
      CleanupStep s .silent { s with tables := after, pinLock := none }

/-- A sweep takes up the debts, then the stale CIDs, each in a section of its own. -/
inductive SweeperStep (s : PublicationState) : PublicationEvent → PublicationState → Prop
  | start {retentionInterval cutoff : Nat} (hsweeper : s.sweeper = .idle)
      (hok : Retention.cutoff s.clock retentionInterval = .ok cutoff) :
      SweeperStep s (.sweepStarted retentionInterval)
        { s with
          sweeper := .retrying s.clock cutoff (s.tables.pinCleanupDebt.map PinCleanupDebt.cid) }
  | lockDebt {now cutoff : Nat} {cid : String} {rest : List String} (hlock : s.pinLock = none)
      (hsweeper : s.sweeper = .retrying now cutoff (cid :: rest)) :
      SweeperStep s .silent
        { s with pinLock := some (.debt cid), sweeper := .retrying now cutoff rest }
  | debtReferenced {cid : String} {acknowledged : Bool} {after : PublicationTables}
      (hlock : s.pinLock = some (.debt cid))
      (hreferenced : Audit.publicationCidIsReferenced cid s.tables = true)
      (hcommits : Commits (.ok (Retention.deleteDebt cid s.tables)) s.tables acknowledged after) :
      SweeperStep s .silent { s with tables := after, pinLock := none }
  | debtUnreferenced {cid : String} (hlock : s.pinLock = some (.debt cid))
      (hreferenced : Audit.publicationCidIsReferenced cid s.tables = false) :
      SweeperStep s .silent { s with pinLock := some (.debtUnpin cid) }
  | debtUnknown {cid : String} (hlock : s.pinLock = some (.debt cid)) :
      SweeperStep s .silent { s with pinLock := none, sweeper := .idle }
  | debtUnpin {cid : String} {unpinned : Bool} (hlock : s.pinLock = some (.debtUnpin cid)) :
      SweeperStep s (.unpin cid true) { s with pinLock := some (.debtSettle cid unpinned) }
  | debtSettle {cid : String} {unpinned acknowledged : Bool} {after : PublicationTables}
      (hlock : s.pinLock = some (.debtSettle cid unpinned))
      (hcommits : Commits (.ok (if unpinned then Retention.deleteDebt cid s.tables
        else Retention.countAttempt cid s.tables)) s.tables acknowledged after) :
      SweeperStep s .silent { s with tables := after, pinLock := none }
  | readStale {now cutoff : Nat} (hsweeper : s.sweeper = .retrying now cutoff []) :
      SweeperStep s .silent
        { s with sweeper := .sweeping now cutoff (Retention.staleCids cutoff s.tables) }
  | lockCid {now cutoff : Nat} {cid : String} {rest : List String} (hlock : s.pinLock = none)
      (hsweeper : s.sweeper = .sweeping now cutoff (cid :: rest)) :
      SweeperStep s .silent
        { s with pinLock := some (.sweep cid cutoff now), sweeper := .sweeping now cutoff rest }
  | eligible {cid : String} {cutoff now : Nat} (hlock : s.pinLock = some (.sweep cid cutoff now))
      (heligible : Retention.stillEligible cutoff cid s.tables = true) :
      SweeperStep s .silent { s with pinLock := some (.sweepUnpin cid cutoff now) }
  | ineligible {cid : String} {cutoff now : Nat}
      (hlock : s.pinLock = some (.sweep cid cutoff now)) :
      SweeperStep s .silent { s with pinLock := none }
  | unpin {cid : String} {cutoff now : Nat} {unpinned : Bool}
      (hlock : s.pinLock = some (.sweepUnpin cid cutoff now)) :
      SweeperStep s (.unpin cid true)
        { s with pinLock := if unpinned then some (.sweepMark cid cutoff now) else none }
  | mark {cid : String} {cutoff now : Nat} {acknowledged : Bool} {after : PublicationTables}
      (hlock : s.pinLock = some (.sweepMark cid cutoff now))
      (hcommits : Commits (.ok (Retention.markUnpinned (Retention.unixSeconds now) cutoff cid s.tables))
        s.tables acknowledged after) :
      SweeperStep s .silent { s with tables := after, pinLock := none }
  | stop : SweeperStep s .silent { s with sweeper := .idle }

/-! ### The system -/

/-- Any task takes a step, the clock is set, or the process stops and starts again. -/
inductive PublicationStep (library : PoiLibrary) (content : String → PublishedContent)
    (s : PublicationState) : PublicationEvent → PublicationState → Prop
  | poi {next : PublicationState} {event : PublicationEvent}
      (hstep : PoiPublisherStep library content s event next) :
      PublicationStep library content s event next
  | indexed {next : PublicationState} {event : PublicationEvent}
      (hstep : IndexedPublisherStep library content s event next) :
      PublicationStep library content s event next
  | cleanup {next : PublicationState} {event : PublicationEvent} (hstep : CleanupStep s event next) :
      PublicationStep library content s event next
  | sweeper {next : PublicationState} {event : PublicationEvent} (hstep : SweeperStep s event next) :
      PublicationStep library content s event next
  | tick {clock : Nat} :
      PublicationStep library content s .silent { s with clock }
  | restart :
      PublicationStep library content s .silent (.started s.tables s.clock)

end RailgunIndexer
