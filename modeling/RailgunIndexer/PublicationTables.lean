import RailgunIndexer.PoiGraph
import RailgunIndexer.Artifacts
import RailgunIndexer.Lib.Table
import Mathlib.Data.List.MinMax
import Mathlib.Data.List.Dedup

/-!
# The publication tables

Two channels publish manifests: the POI channel and the chain-indexed channel. Each has a table of the
artifacts it pinned and a table of the manifests it recorded. The artifacts a manifest references and
the entries it holds are kept in its row. A manifest is recorded as pending, activated once its CID is
published to IPNS, and superseded by the activation of another. Every function here is one database
transaction or one read, and `now` is the time of its transaction.

Times are nanoseconds since the epoch.
-/

namespace RailgunIndexer

open Lib

/-! ### Rows -/

inductive IndexedArtifactPublicationKind where
  | chunk
  | catalog
  deriving DecidableEq

structure PoiArtifactMetadata where
  byteSize : Nat
  contentHash : Bytes32
  endRoot : Option Bytes32
  descriptorJson : String
  deriving DecidableEq

structure IndexedArtifactKey where
  kind : IndexedArtifactPublicationKind
  datasetKind : DatasetKind
  scope : ContractKey
  range : IndexedArtifactRange
  deriving DecidableEq

structure IndexedArtifactMetadata where
  byteSize : Nat
  contentHash : Bytes32
  formatVersion : Nat
  deriving DecidableEq

/-- A pinned artifact. Its key and its CID are unique. -/
structure ArtifactRow (κ μ : Type) where
  key : κ
  cid : String
  metadata : μ
  publishedAt : Nat
  lastReferencedAt : Nat
  unpinnedAt : Option Nat
  deriving DecidableEq

abbrev PoiArtifactRow := ArtifactRow PoiArtifactKey PoiArtifactMetadata

abbrev IndexedArtifactRow := ArtifactRow IndexedArtifactKey IndexedArtifactMetadata

structure ManifestRow (β : Type) where
  cid : String
  ipnsSequence : Nat
  byteSize : Nat
  contentHash : Bytes32
  body : β
  artifactCids : List String
  ipnsPublishedAt : Option Nat := none
  supersededAt : Option Nat := none
  unpinnedAt : Option Nat := none
  reconciliationInvalidatedAt : Option Nat := none
  deriving DecidableEq

/-- A POI manifest holds its entries, a chain-indexed one the bytes of its JSON. -/
abbrev PoiManifestRow := ManifestRow (List PoiManifestEntry)

abbrev IndexedManifestRow := ManifestRow (Option Bytes)

structure PinCleanupDebt where
  cid : String
  attempts : Nat
  deriving DecidableEq

structure PublicationTables where
  poiArtifacts : List PoiArtifactRow
  poiManifests : List PoiManifestRow
  indexedArtifacts : List IndexedArtifactRow
  indexedManifests : List IndexedManifestRow
  ipnsLastSequence : Option Nat
  chainIndexedIpnsLastSequence : Option Nat
  pinCleanupDebt : List PinCleanupDebt
  deriving DecidableEq

def PublicationTables.empty : PublicationTables := ⟨[], [], [], [], none, none, []⟩

def ArtifactRow.isLive {κ μ : Type} (row : ArtifactRow κ μ) : Bool := row.unpinnedAt.isNone

namespace ManifestRow

variable {β : Type} (row : ManifestRow β)

def isPending : Bool :=
  row.ipnsPublishedAt.isNone && row.supersededAt.isNone && row.unpinnedAt.isNone
    && row.reconciliationInvalidatedAt.isNone

def isActive : Bool := row.ipnsPublishedAt.isSome && row.supersededAt.isNone

/-- Neither superseded nor unpinned. -/
def isKept : Bool := row.supersededAt.isNone && row.unpinnedAt.isNone

end ManifestRow

inductive AuditError where
  | integerOutOfRange (field : String) (value : Nat)
  | timeBeforeUnixEpoch
  | unrecordedManifest (cid : String)
  | supersededManifest (cid : String)
  | unpinnedManifest (cid : String)
  | unresolvedPendingManifest (channel cid : String) (sequence : Nat)
  | ambiguousPendingManifests (channel : String) (count : Nat)
  | pendingManifestAuthorizationMismatch (channel cid : String) (sequence : Nat)
  | pendingManifestNotRecoverable (channel cid : String) (sequence : Nat) (state : String)
  | reconciliationSequenceNotNewer (channel cid : String) (sequence invalidatedSequence : Nat)
  | missingIndexedManifestArtifacts (expected actual : Nat)
  | poiArtifactContract (error : PoiArtifactError)
  | poiArtifactConflict (cid : String) (byteSize : Nat)
  | missingManifestArtifacts (expected actual : Nat)
  | uniqueViolation
  deriving DecidableEq

namespace Audit

def u64ToI64 (value : Nat) (field : String) : Except AuditError Nat :=
  if i64Bound ≤ value then .error (.integerOutOfRange field value) else .ok value

/-! ### Artifacts -/

section Artifacts

variable {κ μ : Type} [DecidableEq κ]

/-- The row that was referenced last among the live rows that the lookup accepts. -/
def liveArtifactCid (accepts : ArtifactRow κ μ → Bool) (rows : List (ArtifactRow κ μ)) :
    Option String :=
  ((rows.filter fun row => row.isLive && accepts row).argmax fun row =>
    toLex (row.lastReferencedAt, row.publishedAt)).map ArtifactRow.cid

/-- The row of a key and a CID is referenced again, with the metadata it keeps, or added. -/
def upsertArtifact (now : Nat) (key : κ) (cid : String) (metadata : μ) (kept : μ → μ)
    (rows : List (ArtifactRow κ μ)) : List (ArtifactRow κ μ) :=
  if rows.any fun row => row.key = key && row.cid = cid then
    Table.update (fun row => row.key = key && row.cid = cid)
      (fun row => { row with metadata := kept row.metadata, lastReferencedAt := now, unpinnedAt := none })
      rows
  else
    rows ++ [⟨key, cid, metadata, now, now, none⟩]

end Artifacts

def checkPoiArtifactKey (key : PoiArtifactKey) (byteSize : Nat) : Except AuditError Unit := do
  let _ ← u64ToI64 key.scope.chainId "chain_id"
  let _ ← u64ToI64 byteSize "byte_size"
  match key.range with
  | none => pure ()
  | some range => do
      let _ ← u64ToI64 range.startIndex "range_start"
      let _ ← u64ToI64 range.endIndex "range_end"
      pure ()

def checkIndexedArtifactKey (key : IndexedArtifactKey) (byteSize : Nat) : Except AuditError Unit := do
  let _ ← u64ToI64 key.scope.chainId "chain_id"
  let _ ← u64ToI64 key.range.start "range_start"
  let _ ← u64ToI64 key.range.end "range_end"
  let _ ← u64ToI64 byteSize "byte_size"
  pure ()

def livePoiArtifactCid (key : PoiArtifactKey) (byteSize : Nat) (contentHash : Bytes32)
    (endRoot : Option Bytes32) (tables : PublicationTables) : Except AuditError (Option String) := do
  checkPoiArtifactKey key byteSize
  pure (liveArtifactCid (fun row => row.key = key && row.metadata.byteSize = byteSize
    && row.metadata.contentHash = contentHash && row.metadata.endRoot = endRoot) tables.poiArtifacts)

def liveIndexedArtifactCid (key : IndexedArtifactKey) (metadata : IndexedArtifactMetadata)
    (tables : PublicationTables) : Except AuditError (Option String) := do
  checkIndexedArtifactKey key metadata.byteSize
  pure (liveArtifactCid (fun row => row.key = key && row.metadata = metadata) tables.indexedArtifacts)

/-- A row with other metadata is a conflict. -/
def recordPoiArtifactPin (now : Nat) (key : PoiArtifactKey) (cid : String)
    (metadata : PoiArtifactMetadata) (tables : PublicationTables) :
    Except AuditError PublicationTables := do
  checkPoiArtifactKey key metadata.byteSize
  if tables.poiArtifacts.any fun row =>
      row.key = key && row.cid = cid && row.metadata ≠ metadata then
    .error (.poiArtifactConflict cid metadata.byteSize)
  else
    pure { tables with poiArtifacts := upsertArtifact now key cid metadata id tables.poiArtifacts }

def recordIndexedArtifactPin (now : Nat) (key : IndexedArtifactKey) (cid : String)
    (metadata : IndexedArtifactMetadata) (tables : PublicationTables) :
    Except AuditError PublicationTables := do
  checkIndexedArtifactKey key metadata.byteSize
  pure { tables with
    indexedArtifacts := upsertArtifact now key cid metadata (fun _ => metadata) tables.indexedArtifacts }

/-! ### Pending manifests -/

section Manifests

variable {β : Type}

def pendingManifest (channel : String) (rows : List (ManifestRow β)) :
    Except AuditError (Option (ManifestRow β)) :=
  match rows.filter ManifestRow.isPending with
  | [] => .ok none
  | [row] => .ok (some row)
  | _ :: _ :: _ => .error (.ambiguousPendingManifests channel 2)

def rejectUnresolvedPending (channel : String) (rows : List (ManifestRow β)) :
    Except AuditError Unit :=
  match rows.find? ManifestRow.isPending with
  | none => .ok ()
  | some row => .error (.unresolvedPendingManifest channel row.cid row.ipnsSequence)

def invalidatedSequence (rows : List (ManifestRow β)) : Option Nat :=
  ((rows.filter fun row => row.reconciliationInvalidatedAt.isSome && row.supersededAt.isNone).map
    ManifestRow.ipnsSequence).max?

def ensureNewerThanInvalidatedPending (channel cid : String) (sequence : Nat)
    (rows : List (ManifestRow β)) : Except AuditError Unit :=
  match invalidatedSequence rows with
  | none => .ok ()
  | some invalidated =>
      if sequence ≤ invalidated then
        .error (.reconciliationSequenceNotNewer channel cid sequence invalidated)
      else
        .ok ()

def liveCids {κ μ : Type} (cids : List String) (rows : List (ArtifactRow κ μ)) : List String :=
  cids.dedup.filter fun cid => rows.any fun row => row.isLive && row.cid = cid

/-! ### Activation -/

/-- The row can become active: it is neither superseded, nor unpinned, nor invalidated. -/
def activates (cid : String) (sequence : Nat) (row : ManifestRow β) : Bool :=
  row.cid = cid && row.ipnsSequence = sequence && row.isKept && row.reconciliationInvalidatedAt.isNone

def activate (now : Nat) (cid : String) (sequence : Nat) : List (ManifestRow β) → List (ManifestRow β) :=
  Table.update (activates cid sequence) fun row =>
    { row with ipnsPublishedAt := some (row.ipnsPublishedAt.getD now) }

def supersede (now : Nat) (replaced : ManifestRow β → Bool) :
    List (ManifestRow β) → List (ManifestRow β) :=
  Table.update (fun row => row.supersededAt.isNone && replaced row) fun row =>
    { row with supersededAt := some now }

def isInvalidatedBefore (sequence : Nat) (row : ManifestRow β) : Bool :=
  row.reconciliationInvalidatedAt.isSome && row.ipnsSequence < sequence

end Manifests

/-! ### The POI channel -/

def v4 : String := "v4"

/-- Entries must be valid, and there is one for each scope. -/
def checkPoiEntries (library : PoiLibrary) (entries : List PoiManifestEntry) :
    Except AuditError Unit := do
  entries.forM fun entry => do
    (library.validateEntry entry).mapError .poiArtifactContract
    let _ ← u64ToI64 entry.scope.chainId "chain_id"
    pure ()
  if (entries.map PoiManifestEntry.scope).Nodup then .ok () else .error .uniqueViolation

def recordPoiArtifactManifestPin (library : PoiLibrary) (cid : String)
    (entries : List PoiManifestEntry) (artifactCids : List String) (sequence byteSize : Nat)
    (contentHash : Bytes32) (tables : PublicationTables) : Except AuditError PublicationTables := do
  let sequence ← u64ToI64 sequence "sequence"
  let byteSize ← u64ToI64 byteSize "byte_size"
  let expected := artifactCids.dedup.length
  let actual := (liveCids artifactCids tables.poiArtifacts).length
  if actual ≠ expected then .error (.missingManifestArtifacts expected actual)
  else do
    rejectUnresolvedPending v4 tables.poiManifests
    checkPoiEntries library entries
    pure { tables with
      poiManifests := tables.poiManifests ++
        [{ cid, ipnsSequence := sequence, byteSize, contentHash, body := entries,
           artifactCids := artifactCids.dedup }] }

def recordPoiArtifactManifestIpnsPublication (now : Nat) (cid : String) (sequence : Nat)
    (tables : PublicationTables) : Except AuditError PublicationTables := do
  let sequence ← u64ToI64 sequence "sequence"
  ensureNewerThanInvalidatedPending v4 cid sequence tables.poiManifests
  if !(tables.poiManifests.any (activates cid sequence)) then .error (.unrecordedManifest cid)
  else
    pure { tables with
      poiManifests := supersede now (fun row =>
        (row.cid ≠ cid && row.ipnsPublishedAt.isSome) || isInvalidatedBefore sequence row)
          (activate now cid sequence tables.poiManifests) }

/-- Why a manifest that is not pending cannot be invalidated. -/
def poiManifestState (row : PoiManifestRow) : String :=
  if row.ipnsPublishedAt.isSome then "active"
  else if row.supersededAt.isSome then "superseded"
  else if row.unpinnedAt.isSome then "unpinned"
  else if row.reconciliationInvalidatedAt.isSome then "already invalidated"
  else "not pending"

/-- The pending manifest is given up, and its sequence is not used again. -/
def invalidatePendingPoiManifestReconciliation (now : Nat) (cid : String) (sequence : Nat)
    (tables : PublicationTables) : Except AuditError PublicationTables := do
  let sequence ← u64ToI64 sequence "sequence"
  match tables.poiManifests.filter ManifestRow.isPending with
  | [pending] =>
      if pending.cid ≠ cid ∨ pending.ipnsSequence ≠ sequence then
        .error (.pendingManifestAuthorizationMismatch v4 cid sequence)
      else
        pure { tables with
          poiManifests := Table.update ManifestRow.isPending
            (fun row => { row with reconciliationInvalidatedAt := some now }) tables.poiManifests
          ipnsLastSequence := some (max (tables.ipnsLastSequence.getD sequence) sequence) }
  | _ :: _ :: rest => .error (.ambiguousPendingManifests v4 (rest.length + 2))
  | [] =>
      match tables.poiManifests.filter fun row => row.cid = cid && row.ipnsSequence = sequence with
      | [] => .error (.pendingManifestAuthorizationMismatch v4 cid sequence)
      | [row] => .error (.pendingManifestNotRecoverable v4 cid sequence (poiManifestState row))
      | _ :: _ :: rest => .error (.ambiguousPendingManifests v4 (rest.length + 2))

/-- The invalidated manifest references the artifact. -/
def invalidatedReferences (cid : String) (sequence : Nat) (artifactCid : String)
    (rows : List PoiManifestRow) : Bool :=
  rows.any fun row => row.cid = cid && row.ipnsSequence = sequence
    && row.reconciliationInvalidatedAt.isSome && row.artifactCids.contains artifactCid

/-- The pending manifest is given up, and the rows of an unavailable artifact are no longer live. -/
def abandonPendingPoiV4ManifestReconciliation (now : Nat) (cid : String) (sequence : Nat)
    (unavailableArtifactCid : Option String) (tables : PublicationTables) :
    Except AuditError PublicationTables := do
  let tables ← invalidatePendingPoiManifestReconciliation now cid sequence tables
  match unavailableArtifactCid with
  | none => pure tables
  | some unavailable =>
      pure { tables with
        poiArtifacts := Table.update
          (fun row => row.cid = unavailable && row.isLive
            && invalidatedReferences cid sequence row.cid tables.poiManifests)
          (fun row => { row with unpinnedAt := some now }) tables.poiArtifacts }

/-! ### The chain-indexed channel -/

def chainIndexed : String := "chain-indexed"

def recordIndexedManifestPin (cid : String) (artifactCids : List String) (sequence byteSize : Nat)
    (contentHash : Bytes32) (manifestJson : Bytes) (tables : PublicationTables) :
    Except AuditError PublicationTables := do
  let sequence ← u64ToI64 sequence "sequence"
  let byteSize ← u64ToI64 byteSize "byte_size"
  let expected := artifactCids.length
  let actual := (liveCids artifactCids tables.indexedArtifacts).length
  if actual ≠ expected then .error (.missingIndexedManifestArtifacts expected actual)
  else do
    rejectUnresolvedPending chainIndexed tables.indexedManifests
    pure { tables with
      indexedManifests := tables.indexedManifests ++
        [{ cid, ipnsSequence := sequence, byteSize, contentHash, body := some manifestJson,
           artifactCids := artifactCids.dedup }] }

def indexedActivationError (cid : String) (sequence : Nat) (rows : List IndexedManifestRow) :
    AuditError :=
  if rows.any fun row => row.cid = cid && row.ipnsSequence = sequence && row.unpinnedAt.isSome then
    .unpinnedManifest cid
  else if rows.any fun row =>
      row.cid = cid && row.ipnsSequence = sequence && row.supersededAt.isSome then
    .supersededManifest cid
  else
    .unrecordedManifest cid

def recordIndexedManifestIpnsPublication (now : Nat) (cid : String) (sequence : Nat)
    (tables : PublicationTables) : Except AuditError PublicationTables := do
  let sequence ← u64ToI64 sequence "sequence"
  ensureNewerThanInvalidatedPending chainIndexed cid sequence tables.indexedManifests
  if !(tables.indexedManifests.any (activates cid sequence)) then
    .error (indexedActivationError cid sequence tables.indexedManifests)
  else
    pure { tables with
      indexedManifests := supersede now (fun row =>
        (row.ipnsPublishedAt.isSome && (row.cid ≠ cid || row.ipnsSequence ≠ sequence))
          || isInvalidatedBefore sequence row)
          (activate now cid sequence tables.indexedManifests) }

/-! ### Sequences -/

/-- The next sequence of the POI channel, larger than any before it and at least `minimum`. -/
def reservePoiPublicationSequence (minimum : Nat) (tables : PublicationTables) :
    Except AuditError (PublicationTables × Nat) := do
  let minimum ← u64ToI64 minimum "poi_publication_sequence"
  let sequence := match tables.ipnsLastSequence with
    | none => minimum
    | some last => max (last + 1) minimum
  let sequence ← u64ToI64 sequence "poi_publication_sequence"
  pure ({ tables with ipnsLastSequence := some sequence }, sequence)

def recordChainIndexedIpnsSequence (sequence : Nat) (tables : PublicationTables) :
    Except AuditError PublicationTables := do
  let sequence ← u64ToI64 sequence "chain_indexed_ipns_last_sequence"
  pure { tables with
    chainIndexedIpnsLastSequence :=
      some (max (tables.chainIndexedIpnsLastSequence.getD sequence) sequence) }

/-! ### The active POI graph -/

/-- A timestamp in whole seconds, as the database rounds it. -/
def epochSeconds (time : Nat) : Nat := (time + 500000000) / 1000000000 * 1000000000

/-- The entries of a scope in active manifests, each with a live row of its checkpoint catalog. -/
def activeEntries (scope : PoiScope) (tables : PublicationTables) :
    List (PoiManifestRow × PoiManifestEntry × PoiArtifactRow) :=
  (tables.poiManifests.filter fun row => row.isActive && row.unpinnedAt.isNone).flatMap fun row =>
    (row.body.filter fun entry => entry.scope = scope).flatMap fun entry =>
      (tables.poiArtifacts.filter fun artifact =>
        artifact.cid = entry.checkpointCatalog.artifact.cid
          && artifact.key.kind = .checkpointCatalog && artifact.isLive).map fun artifact =>
            (row, entry, artifact)

def bridgePublishedAt (entry : PoiManifestEntry) (rows : List PoiArtifactRow) (cid : String) :
    Option Nat :=
  if entry.retainedBridges.any fun bridge => bridge.artifact.cid = cid then
    (rows.filter fun row => row.key.kind = .bridge && row.cid = cid).getLast?.map fun row =>
      epochSeconds row.publishedAt
  else
    none

def activePoiGraph (library : PoiLibrary) (scope : PoiScope) (tables : PublicationTables) :
    Except AuditError (Option ActivePoiGraph) := do
  let _ ← u64ToI64 scope.chainId "chain_id"
  match (activeEntries scope tables).argmax fun found =>
      toLex (found.1.ipnsSequence, found.2.2.publishedAt) with
  | none => pure none
  | some found => do
      (library.validateEntry found.2.1).mapError .poiArtifactContract
      pure (some ⟨found.2.1, epochSeconds found.2.2.publishedAt,
        bridgePublishedAt found.2.1 tables.poiArtifacts⟩)

/-! ### References -/

def publicationCidIsReferenced (cid : String) (tables : PublicationTables) : Bool :=
  (tables.indexedArtifacts.any fun row => row.cid = cid && row.isLive)
    || (tables.indexedManifests.any fun row => row.cid = cid && row.unpinnedAt.isNone)
    || (tables.poiArtifacts.any fun row => row.cid = cid && row.isLive)
    || (tables.poiManifests.any fun row => row.cid = cid && row.unpinnedAt.isNone)
    || (tables.indexedManifests.any fun row => row.artifactCids.contains cid && row.unpinnedAt.isNone)
    || (tables.poiManifests.any fun row => row.artifactCids.contains cid && row.unpinnedAt.isNone)

def recordPinCleanupDebt (cid : String) (tables : PublicationTables) : PublicationTables :=
  if tables.pinCleanupDebt.any fun debt => debt.cid = cid then tables
  else { tables with pinCleanupDebt := tables.pinCleanupDebt ++ [⟨cid, 0⟩] }

end Audit

end RailgunIndexer
