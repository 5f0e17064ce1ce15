import RailgunIndexer.PoiArtifacts

/-!
# The POI publication graph

An entry publishes the events of one list: a checkpoint of the first events, a current tail of the
rest, and bridges that lead from earlier checkpoints to the present one. A cycle extends the entry of
the active manifest: it keeps the checkpoint, or, when the tail has grown old or too large, it turns
the published tail into a bridge and moves the checkpoint to where that tail ended.

Times are nanoseconds since the epoch, and durations are nanoseconds.
-/

namespace RailgunIndexer

inductive PoiArtifactPublicationKind where
  | checkpointChunk
  | checkpointCatalog
  | currentTail
  | bridge
  | blockedShields
  deriving DecidableEq

structure PoiArtifactKey where
  kind : PoiArtifactPublicationKind
  scope : PoiScope
  range : Option EventRange
  deriving DecidableEq

inductive PoiPublishError where
  | publication (error : PoiPublicationError)
  | contract (error : PoiArtifactError)
  | validateActive (error : PoiArtifactError)
  | validatePrepared (error : PoiArtifactError)
  | eventCountRegresses (eventCount activeEventCount : Nat)
  | prefixConflict
  | missingPublicationTime
  | rebuiltBridgeMismatch
  | publishedBridgeMismatch
  | byteTotalOverflow
  | pin
  deriving DecidableEq

structure ActivePoiGraph where
  entry : PoiManifestEntry
  checkpointPublishedAt : Nat
  bridgePublishedAt : String → Option Nat

/-- How old the checkpoint is, unless it was published in the future. -/
def ActivePoiGraph.checkpointAge (active : ActivePoiGraph) (now : Nat) : Option Nat :=
  if active.checkpointPublishedAt ≤ now then some (now - active.checkpointPublishedAt) else none

/-- The libraries of a POI publisher and its pinning service, which gives the CID of the bytes and
whether an earlier pin of this key and this end root was used again. -/
structure PoiPublisher where
  library : PoiLibrary
  pin : PoiArtifactKey → Option Bytes32 → Bytes → Except PoiPublishError (String × Bool)
  publishPoiBlockedShields : PoiScope → Except PoiPublishError (BlockedShieldsDescriptor × Bool)
  baseRebuildInterval : Nat

/-- A week. -/
def v4BridgeRetentionTarget : Nat := 168 * 3600 * 10 ^ 9

/-! ### Bridges -/

/-- When a bridge was published: as recorded, or now for a bridge that is not active yet. -/
def bridgePublicationTime (active : ActivePoiGraph) (now : Nat) (bridge : EventArtifactDescriptor) :
    Except PoiPublishError Nat :=
  match active.bridgePublishedAt bridge.artifact.cid with
  | some publishedAt => .ok publishedAt
  | none =>
      if active.entry.retainedBridges.any fun other => other.artifact.cid == bridge.artifact.cid then
        .error .missingPublicationTime
      else
        .ok now

def isRecent (now publishedAt : Nat) : Bool :=
  publishedAt ≤ now && now - publishedAt ≤ v4BridgeRetentionTarget

def retainRecentBridges (publisher : PoiPublisher) (bridges : List EventArtifactDescriptor)
    (active : ActivePoiGraph) (now : Nat) : Except PoiPublishError (List EventArtifactDescriptor) := do
  let times ← bridges.mapM (bridgePublicationTime active now)
  let retained := ((bridges.zip times).filter fun stamped => isRecent now stamped.2).map Prod.fst
  pure (retained.drop (retained.length - publisher.library.maxRetainedBridges))

def poiArtifactRotationRequired (hasActiveTail : Bool) (checkpointAge : Option Nat)
    (rotationInterval : Nat) (currentTailFits : Bool) : Bool :=
  (hasActiveTail && checkpointAge.any fun age => rotationInterval ≤ age) || !currentTailFits

/-! ### Publishing artifacts -/

section Publish

variable (publisher : PoiPublisher) (corpus : ValidatedCorpus)

def publishPoiEventArtifact (kind : PoiArtifactPublicationKind) (prepared : PreparedEventArtifact) :
    Except PoiPublishError (EventArtifactDescriptor × Bool) := do
  let (cid, reused) ← publisher.pin ⟨kind, prepared.artifact.scope, some prepared.artifact.range⟩
    (some prepared.artifact.endRoot) prepared.bytes
  let descriptor ← (prepared.descriptor publisher.library cid).mapError .publication
  pure (descriptor, reused)

def publishPoiCheckpointCatalog (catalog : CheckpointCatalog) (bytes : Bytes) :
    Except PoiPublishError (CheckpointCatalogDescriptor × Bool) := do
  let (cid, reused) ← publisher.pin ⟨.checkpointCatalog, catalog.scope, catalog.range⟩
    catalog.checkpointRoot bytes
  let descriptor ← (publisher.library.catalogDescriptor catalog cid).mapError .contract
  pure (descriptor, reused)

def prepareEventArtifact (kind : EventArtifactKind) (startIndex endIndex : Nat) :
    Except PoiPublishError PreparedEventArtifact :=
  (corpus.prepareEventArtifact publisher.library kind startIndex endIndex).mapError .publication

/-- The stored prefix must be that of the active entry. -/
def checkActiveEntry (active : ActivePoiGraph) : Except PoiPublishError Unit := do
  (publisher.library.validateEntry active.entry).mapError .validateActive
  if corpus.eventCount < active.entry.eventCount then
    .error (.eventCountRegresses corpus.eventCount active.entry.eventCount)
  else if active.entry.eventCount = 0 then
    .ok ()
  else do
    let replayed ← (corpus.rootAt publisher.library (active.entry.eventCount - 1)).mapError .publication
    if active.entry.currentRoot ≠ some replayed then .error .prefixConflict else .ok ()

def currentTailFits (checkpointEventCount : Nat) : Except PoiPublishError Bool :=
  if checkpointEventCount < corpus.eventCount then
    match corpus.prepareEventArtifact publisher.library .currentTail checkpointEventCount
        (corpus.eventCount - 1) with
    | .ok _ => .ok true
    | .error (.contract (.eventArtifactByteLimitExceeded _ _)) => .ok false
    | .error error => .error (.publication error)
  else
    .ok true

/-- The bridges of the active entry followed by one for its published tail. -/
def bridgePublishedTail (active : ActivePoiGraph) :
    Except PoiPublishError (List EventArtifactDescriptor × Nat) :=
  if active.entry.checkpointCatalog.rowCount < active.entry.eventCount then do
    let prepared ← prepareEventArtifact publisher corpus .bridge
      active.entry.checkpointCatalog.rowCount (active.entry.eventCount - 1)
    let (bridge, reused) ← publishPoiEventArtifact publisher .bridge prepared
    pure (active.entry.retainedBridges ++ [bridge], reused.toNat)
  else
    .ok (active.entry.retainedBridges, 0)

/-- The checkpoint count, the bridges and the reused pins after a rotation. -/
def rotateCheckpoint (active : ActivePoiGraph) (now : Nat) :
    Except PoiPublishError (Nat × List EventArtifactDescriptor × Nat) := do
  let (bridges, reusedCids) ← bridgePublishedTail publisher corpus active
  let retained ← retainRecentBridges publisher bridges active now
  pure (active.entry.eventCount, retained, reusedCids)

/-- An inherited bridge is built and published again, and must come out the same. -/
def materializeBridge (inherited : List EventArtifactDescriptor) (bridge : EventArtifactDescriptor) :
    Except PoiPublishError (EventArtifactDescriptor × Bool) :=
  if !(inherited.contains bridge) then
    .ok (bridge, false)
  else do
    let prepared ← prepareEventArtifact publisher corpus .bridge bridge.range.startIndex
      bridge.range.endIndex
    let expected ← (prepared.descriptor publisher.library bridge.artifact.cid).mapError .publication
    if expected ≠ bridge then
      .error .rebuiltBridgeMismatch
    else do
      let (published, reused) ← publishPoiEventArtifact publisher .bridge prepared
      if published ≠ bridge then .error .publishedBridgeMismatch else pure (published, reused)

def publishCurrentTail (checkpointEventCount : Nat) :
    Except PoiPublishError (Option EventArtifactDescriptor × Bool) :=
  if checkpointEventCount < corpus.eventCount then do
    let prepared ← prepareEventArtifact publisher corpus .currentTail checkpointEventCount
      (corpus.eventCount - 1)
    let (descriptor, reused) ← publishPoiEventArtifact publisher .currentTail prepared
    pure (some descriptor, reused)
  else
    .ok (none, false)

end Publish

/-! ### One entry -/

structure PublishedPoiEntry where
  entry : PoiManifestEntry
  checkpointChunkCids : List String
  graphCids : List String
  checkpointBytes : Nat
  tailBytes : Nat
  reusedCids : Nat
  deriving DecidableEq

def PoiManifestEntry.graphCids (entry : PoiManifestEntry) : List String :=
  [entry.checkpointCatalog.artifact.cid, entry.blockedShields.artifact.cid]
    ++ entry.retainedBridges.map (fun bridge => bridge.artifact.cid)
    ++ (entry.currentTail.map fun tail => tail.artifact.cid).toList

section Entry

variable (publisher : PoiPublisher) (corpus : ValidatedCorpus)

/-- The checkpoint count, the bridges and the reused pins a cycle goes on with. -/
def checkpointAndBridges (now : Nat) :
    Option ActivePoiGraph → Except PoiPublishError (Nat × List EventArtifactDescriptor × Nat)
  | none => .ok (corpus.eventCount, [], 0)
  | some active => do
      checkActiveEntry publisher corpus active
      let checkpointEventCount := active.entry.checkpointCatalog.rowCount
      let currentTailFits ← currentTailFits publisher corpus checkpointEventCount
      if poiArtifactRotationRequired active.entry.currentTail.isSome (active.checkpointAge now)
          publisher.baseRebuildInterval currentTailFits then
        rotateCheckpoint publisher corpus active now
      else
        pure (checkpointEventCount, active.entry.retainedBridges, 0)

def publishPoiArtifactEntry (now : Nat) (active : Option ActivePoiGraph) :
    Except PoiPublishError PublishedPoiEntry := do
  let (checkpointEventCount, retainedBridges, bridgesReused) ←
    checkpointAndBridges publisher corpus now active
  let inheritedBridges := (active.map fun graph => graph.entry.retainedBridges).getD []
  let materialized ← retainedBridges.mapM (materializeBridge publisher corpus inheritedBridges)
  let preparedChunks ← (corpus.prepareCheckpoint publisher.library checkpointEventCount).mapError
    .publication
  let chunks ← preparedChunks.mapM (publishPoiEventArtifact publisher .checkpointChunk)
  let checkpointBytes := (chunks.map fun chunk => chunk.1.artifact.byteSize).sum
  if u64Bound ≤ checkpointBytes then .error .byteTotalOverflow
  else do
    let (catalog, catalogBytes) ← (checkpointCatalog publisher.library corpus.scope
      (chunks.map Prod.fst)).mapError .publication
    let (catalogDescriptor, catalogReused) ← publishPoiCheckpointCatalog publisher catalog catalogBytes
    let (currentTail, tailReused) ← publishCurrentTail publisher corpus checkpointEventCount
    let (blockedShields, blockedReused) ← publisher.publishPoiBlockedShields catalog.scope
    let currentRoot ← (corpus.rootBefore publisher.library corpus.eventCount).mapError .publication
    let entry : PoiManifestEntry :=
      { scope := catalog.scope
        eventCount := corpus.eventCount
        currentTipIndex := if corpus.eventCount = 0 then none else some (corpus.eventCount - 1)
        currentRoot
        checkpointCatalog := catalogDescriptor
        currentTail
        retainedBridges := materialized.map Prod.fst
        blockedShields }
    (publisher.library.validateEntry entry).mapError .validatePrepared
    pure
      { entry
        checkpointChunkCids := chunks.map fun chunk => chunk.1.artifact.cid
        graphCids := entry.graphCids
        checkpointBytes
        tailBytes := (currentTail.map fun tail => tail.artifact.byteSize).getD 0
        reusedCids := bridgesReused + materialized.countP Prod.snd + chunks.countP Prod.snd
          + catalogReused.toNat + tailReused.toNat + blockedReused.toNat }

end Entry

end RailgunIndexer
