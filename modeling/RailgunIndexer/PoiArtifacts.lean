import RailgunIndexer.Types

/-!
# POI event artifacts

A validated corpus is the list of the events of one POI list, numbered from zero, with the Merkle root
after each of them. An artifact holds consecutive events with the roots before its first and after its
last event.
-/

namespace RailgunIndexer

structure PoiScope where
  chainType : Nat
  chainId : Nat
  txidVersion : String
  listKey : Bytes32
  deriving DecidableEq

inductive PoiEventType where
  | shield
  | transact
  | unshield
  | legacyTransact
  deriving DecidableEq

structure SnapshotEvent where
  eventIndex : Nat
  blindedCommitment : Bytes32
  signature : FixedBytes 64
  eventType : PoiEventType
  deriving DecidableEq

structure EventRange where
  startIndex : Nat
  endIndex : Nat
  deriving DecidableEq

inductive EventArtifactKind where
  | checkpoint
  | bridge
  | currentTail
  deriving DecidableEq

structure EventArtifact where
  scope : PoiScope
  kind : EventArtifactKind
  range : EventRange
  startRoot : Option Bytes32
  endRoot : Bytes32
  events : List SnapshotEvent
  deriving DecidableEq

structure ArtifactDescriptor where
  cid : String
  byteSize : Nat
  sha256 : Bytes32
  deriving DecidableEq

structure EventArtifactDescriptor where
  scope : PoiScope
  kind : EventArtifactKind
  range : EventRange
  rowCount : Nat
  startRoot : Option Bytes32
  endRoot : Bytes32
  artifact : ArtifactDescriptor
  deriving DecidableEq

structure CheckpointCatalog where
  scope : PoiScope
  range : Option EventRange
  rowCount : Nat
  checkpointRoot : Option Bytes32
  chunks : List EventArtifactDescriptor
  deriving DecidableEq

structure CheckpointCatalogDescriptor where
  scope : PoiScope
  range : Option EventRange
  rowCount : Nat
  checkpointRoot : Option Bytes32
  artifact : ArtifactDescriptor
  deriving DecidableEq

structure BlockedShieldsDescriptor where
  scope : PoiScope
  rowCount : Nat
  artifact : ArtifactDescriptor
  deriving DecidableEq

structure PoiManifestEntry where
  scope : PoiScope
  eventCount : Nat
  currentTipIndex : Option Nat
  currentRoot : Option Bytes32
  checkpointCatalog : CheckpointCatalogDescriptor
  currentTail : Option EventArtifactDescriptor
  retainedBridges : List EventArtifactDescriptor
  blockedShields : BlockedShieldsDescriptor
  deriving DecidableEq

inductive PoiArtifactError where
  | eventArtifactByteLimitExceeded (actual maximum : Nat)
  | invalid (reason : String)
  deriving DecidableEq

/-- What POI publication takes from its libraries: the root after a list of events, the artifacts and
catalogs of the format with their encodings and descriptors, the digest and the CID of a block. -/
structure PoiLibrary where
  rootAfter : List SnapshotEvent → Bytes32
  newArtifact : PoiScope → EventArtifactKind → Option Bytes32 → Bytes32 → List SnapshotEvent →
    Except PoiArtifactError EventArtifact
  artifactBytes : EventArtifact → Except PoiArtifactError Bytes
  artifactDescriptor : EventArtifact → String → Except PoiArtifactError EventArtifactDescriptor
  newCatalog : PoiScope → List EventArtifactDescriptor → Except PoiArtifactError CheckpointCatalog
  catalogBytes : CheckpointCatalog → Except PoiArtifactError Bytes
  catalogDescriptor : CheckpointCatalog → String →
    Except PoiArtifactError CheckpointCatalogDescriptor
  validateEntry : PoiManifestEntry → Except PoiArtifactError Unit
  contentHash : Bytes → Bytes32
  rawBlockCid : Bytes → String
  checkpointEventSpan : Nat
  maxRetainedBridges : Nat
  span_pos : 0 < checkpointEventSpan

inductive PoiPublicationError where
  | contract (error : PoiArtifactError)
  | missingRoot (eventIndex : Nat)
  | checkpointBeyondTip (checkpointEventCount eventCount : Nat)
  | invalidEventRange (startIndex endIndex eventCount : Nat)
  deriving DecidableEq

structure ValidatedCorpus where
  scope : PoiScope
  events : List SnapshotEvent
  contiguous : ∀ (index : Nat) (event : SnapshotEvent), events[index]? = some event →
    event.eventIndex = index

namespace ValidatedCorpus

variable (corpus : ValidatedCorpus) (library : PoiLibrary)

def eventCount : Nat := corpus.events.length

def rootAt (eventIndex : Nat) : Except PoiPublicationError Bytes32 :=
  if eventIndex < corpus.events.length then
    .ok (library.rootAfter (corpus.events.take (eventIndex + 1)))
  else
    .error (.missingRoot eventIndex)

end ValidatedCorpus

/-! ### Preparing artifacts -/

structure PreparedEventArtifact where
  artifact : EventArtifact
  bytes : Bytes
  sha256 : Bytes32
  deriving DecidableEq

def PreparedEventArtifact.descriptor (prepared : PreparedEventArtifact) (library : PoiLibrary)
    (cid : String) : Except PoiPublicationError EventArtifactDescriptor :=
  (library.artifactDescriptor prepared.artifact cid).mapError .contract

namespace ValidatedCorpus

variable (corpus : ValidatedCorpus) (library : PoiLibrary)

def rootBefore (startIndex : Nat) : Except PoiPublicationError (Option Bytes32) :=
  if startIndex = 0 then .ok none
  else do
    let root ← corpus.rootAt library (startIndex - 1)
    pure (some root)

def prepareEventArtifact (kind : EventArtifactKind) (startIndex endIndex : Nat) :
    Except PoiPublicationError PreparedEventArtifact :=
  if endIndex < startIndex ∨ corpus.eventCount ≤ endIndex then
    .error (.invalidEventRange startIndex endIndex corpus.eventCount)
  else do
    let startRoot ← corpus.rootBefore library startIndex
    let endRoot ← corpus.rootAt library endIndex
    let artifact ← (library.newArtifact corpus.scope kind startRoot endRoot
      ((corpus.events.drop startIndex).take (endIndex + 1 - startIndex))).mapError .contract
    let bytes ← (library.artifactBytes artifact).mapError .contract
    pure ⟨artifact, bytes, library.contentHash bytes⟩

def prepareCheckpointFrom (checkpointEventCount : Nat) : Nat → Nat →
    Except PoiPublicationError (List PreparedEventArtifact)
  | 0, _ => .ok []
  | fuel + 1, start =>
      if start < checkpointEventCount then do
        let endIndex := min (start + (library.checkpointEventSpan - 1)) (checkpointEventCount - 1)
        let chunk ← corpus.prepareEventArtifact library .checkpoint start endIndex
        let chunks ← prepareCheckpointFrom checkpointEventCount fuel (endIndex + 1)
        pure (chunk :: chunks)
      else
        .ok []

/-- The chunks of a checkpoint. Every chunk holds an event, so there are at most as many as events. -/
def prepareCheckpoint (checkpointEventCount : Nat) :
    Except PoiPublicationError (List PreparedEventArtifact) :=
  if corpus.eventCount < checkpointEventCount then
    .error (.checkpointBeyondTip checkpointEventCount corpus.eventCount)
  else
    corpus.prepareCheckpointFrom library checkpointEventCount checkpointEventCount 0

end ValidatedCorpus

def checkpointCatalog (library : PoiLibrary) (scope : PoiScope)
    (chunks : List EventArtifactDescriptor) :
    Except PoiPublicationError (CheckpointCatalog × Bytes) := do
  let catalog ← (library.newCatalog scope chunks).mapError .contract
  let bytes ← (library.catalogBytes catalog).mapError .contract
  pure (catalog, bytes)

end RailgunIndexer
