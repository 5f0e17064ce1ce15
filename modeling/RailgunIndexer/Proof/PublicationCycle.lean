import RailgunIndexer.Proof.PublicationRun

/-!
# Publication cycles that succeed

When every call of it succeeds, a publisher gets from one point of its cycle to the next: an artifact is
pinned and recorded, a sequence is reserved and a manifest recorded under it, the manifest is activated,
and the sweeper takes up a CID and unpins it.
-/

namespace RailgunIndexer

open Lib Run

section Cycles

variable {library : PoiLibrary} {content : String → PublishedContent} {s next : PublicationState}
  {event : PublicationEvent} {after : PublicationTables} {cid : String}

def InstantStep (library : PoiLibrary) (content : String → PublishedContent) (s : PublicationState)
    (event : PublicationEvent) (next : PublicationState) : Prop :=
  PublicationStep library content s event next ∧ next.clock = s.clock

theorem reaches_of_instant {events : List PublicationEvent}
    (hrun : Reaches (InstantStep library content) s events next) :
    Reaches (PublicationStep library content) s events next :=
  hrun.mono fun _ _ _ _ hstep => hstep.1

/-! ### The POI publisher -/

theorem reaches_poiPublishing (hpoi : s.poi = .idle)
    (hpending : Audit.pendingManifest Audit.v4 s.tables.poiManifests = .ok none) :
    Reaches (InstantStep library content) s [.silent] { s with poi := .publishing [] } :=
  .single ⟨.poi (.noPending hpoi hpending), rfl⟩

theorem reaches_poiArtifact {graph : List (PoiArtifactPublicationKind × String)} {key : PoiArtifactKey}
    {metadata : PoiArtifactMetadata} {cid : String} {after : PublicationTables}
    (hlock : s.pinLock = none) (hpoi : s.poi = .publishing graph) (hcontent : content cid = .artifact)
    (hrecord : Audit.recordPoiArtifactPin s.clock key cid metadata s.tables = .ok after) :
    Reaches (InstantStep library content) s [.poiArtifactPinned key.kind cid, .silent]
      { s with
        tables := after
        pinLock := none
        poi := .publishing (graph ++ [(key.kind, cid)]) } := by
  let pinned : PublicationState := { s with pinLock := some (.poiArtifact key metadata cid true) }
  have hpin : InstantStep library content s (.poiArtifactPinned key.kind cid) pinned :=
    ⟨.poi (.pin hlock hpoi hcontent), rfl⟩
  have hpinned : pinned.poi = .publishing graph := hpoi
  refine (Reaches.single hpin).tail ?_
  exact ⟨.poi (.recordArtifact rfl hpinned (.acknowledged hrecord)), rfl⟩

theorem reaches_poiManifest {graph : List (PoiArtifactPublicationKind × String)}
    {entries : List PoiManifestEntry} {minimum sequence : Nat} {cid : String} {bytes : Bytes}
    {reserved after : PublicationTables} (hlock : s.pinLock = none) (hpoi : s.poi = .publishing graph)
    (hreserve : Audit.reservePoiPublicationSequence minimum s.tables = .ok (reserved, sequence))
    (hentries : ∀ entry ∈ entries,
      (PoiArtifactPublicationKind.checkpointCatalog, entry.checkpointCatalog.artifact.cid) ∈ graph)
    (hcontent : content cid = .poiManifest sequence)
    (hrecord : Audit.recordPoiArtifactManifestPin library cid entries (graph.map Prod.snd) sequence
      bytes.length (library.contentHash bytes) reserved = .ok after) :
    Reaches (InstantStep library content) s [.silent, .silent, .silent]
      { s with tables := after, pinLock := none, poi := .recorded cid sequence } := by
  let started : PublicationState := { s with tables := reserved, poi := .reserved graph sequence }
  let pinned : PublicationState :=
    { started with pinLock := some (.poiManifest cid entries graph sequence bytes) }
  have hreserved : InstantStep library content s .silent started :=
    ⟨.poi (@PoiPublisherStep.reserve _ _ _ _ _ _ _ true hpoi hreserve), rfl⟩
  have hpin : InstantStep library content started .silent pinned :=
    ⟨.poi (.pinManifest hlock rfl hentries hcontent), rfl⟩
  have hpinned : pinned.poi = .reserved graph sequence := rfl
  refine ((Reaches.single hreserved).tail hpin).tail ?_
  exact ⟨.poi (.recordManifest rfl hpinned (.acknowledged hrecord)), rfl⟩

theorem reaches_poiActivation {sequence : Nat} (hpoi : s.poi = .recorded cid sequence)
    (hactivate : Audit.recordPoiArtifactManifestIpnsPublication s.clock cid sequence s.tables =
      .ok after) :
    Reaches (InstantStep library content) s [.poiActivated cid sequence]
      { s with tables := after, poi := .idle } :=
  .single ⟨.poi (.activate hpoi hactivate), rfl⟩

theorem reaches_poiReconciliation {row : PoiManifestRow} {after : PublicationTables}
    (hpending : Audit.pendingManifest Audit.v4 s.tables.poiManifests = .ok (some row))
    (hactivate : Audit.recordPoiArtifactManifestIpnsPublication s.clock row.cid row.ipnsSequence s.tables
      = .ok after) :
    Reaches (InstantStep library content) s
      [.silent, .silent, .poiActivated row.cid row.ipnsSequence] (.started after s.clock) := by
  refine ((Reaches.single ⟨.restart, rfl⟩).tail ⟨.poi (.pending rfl hpending), rfl⟩).tail ?_
  exact ⟨.poi (.reconcile rfl hactivate), rfl⟩

/-! ### The chain-indexed publisher -/

theorem reaches_indexedPublishing (hindexed : s.indexed = .idle)
    (hpending : Audit.pendingManifest Audit.chainIndexed s.tables.indexedManifests = .ok none) :
    Reaches (InstantStep library content) s [.silent]
      { s with indexed := .publishing [] false } :=
  .single ⟨.indexed (.noPending hindexed hpending), rfl⟩

theorem reaches_indexedArtifact {artifactCids : List String} {key : IndexedArtifactKey}
    {metadata : IndexedArtifactMetadata} {cid : String} {after : PublicationTables}
    (hlock : s.pinLock = none) (hindexed : s.indexed = .publishing artifactCids false)
    (hcontent : content cid = .artifact)
    (hrecord : Audit.recordIndexedArtifactPin s.clock key cid metadata s.tables = .ok after) :
    Reaches (InstantStep library content) s [.silent, .silent]
      { s with
        tables := after
        pinLock := none
        indexed := .publishing (insertCid cid artifactCids) false } := by
  let pinned : PublicationState := { s with pinLock := some (.indexedArtifact key metadata cid true) }
  have hpin : InstantStep library content s .silent pinned :=
    ⟨.indexed (.pin hlock hindexed hcontent), rfl⟩
  have hpinned : pinned.indexed = .publishing artifactCids false := hindexed
  refine (Reaches.single hpin).tail ?_
  exact ⟨.indexed (.recordArtifact rfl hpinned (.acknowledged hrecord)), rfl⟩

theorem reaches_indexedManifest {artifactCids : List String} {nowMillis : Nat} {cid : String}
    {bytes : Bytes} {reserved after : PublicationTables} (hlock : s.pinLock = none)
    (hindexed : s.indexed = .publishing artifactCids false)
    (hreserve : Audit.recordChainIndexedIpnsSequence (nextIpnsSequence nowMillis s.knownIpnsSequence)
      s.tables = .ok reserved)
    (hcontent : content cid = .indexedManifest (nextIpnsSequence nowMillis s.knownIpnsSequence))
    (hrecord : Audit.recordIndexedManifestPin cid artifactCids
      (nextIpnsSequence nowMillis s.knownIpnsSequence) bytes.length (library.contentHash bytes) bytes
      reserved = .ok after) :
    Reaches (InstantStep library content) s [.silent, .silent, .silent]
      { s with
        tables := after
        pinLock := none
        lastIpnsSequence := some (nextIpnsSequence nowMillis s.knownIpnsSequence)
        ipnsSequenceLoaded := true
        indexed := .recorded cid (nextIpnsSequence nowMillis s.knownIpnsSequence) } := by
  let sequence := nextIpnsSequence nowMillis s.knownIpnsSequence
  let started : PublicationState :=
    { s with
      tables := reserved
      lastIpnsSequence := some sequence
      ipnsSequenceLoaded := true
      indexed := .reserved artifactCids sequence }
  let pinned : PublicationState :=
    { started with pinLock := some (.indexedManifest cid artifactCids sequence bytes) }
  have hreserved : InstantStep library content s .silent started :=
    ⟨.indexed (.reserve hindexed (.acknowledged hreserve)), rfl⟩
  have hpin : InstantStep library content started .silent pinned :=
    ⟨.indexed (.pinManifest hlock rfl hcontent), rfl⟩
  have hpinned : pinned.indexed = .reserved artifactCids sequence := rfl
  refine ((Reaches.single hreserved).tail hpin).tail ?_
  exact ⟨.indexed (.recordManifest rfl hpinned (.acknowledged hrecord)), rfl⟩

theorem reaches_indexedActivation {sequence : Nat} (hindexed : s.indexed = .recorded cid sequence)
    (hactivate : Audit.recordIndexedManifestIpnsPublication s.clock cid sequence s.tables = .ok
      after) :
    Reaches (InstantStep library content) s [.indexedActivated cid sequence]
      { s with tables := after, indexed := .idle } :=
  .single ⟨.indexed (.activate hindexed hactivate), rfl⟩

/-! ### The sweeper -/

theorem reaches_sweepUnpin {retentionInterval cutoff : Nat} {rest : List String}
    (hlock : s.pinLock = none) (hsweeper : s.sweeper = .idle)
    (hdebts : s.tables.pinCleanupDebt = [])
    (hcutoff : Retention.cutoff s.clock retentionInterval = .ok cutoff)
    (hstale : Retention.staleCids cutoff s.tables = cid :: rest)
    (heligible : Retention.stillEligible cutoff cid s.tables = true) :
    Reaches (InstantStep library content) s
      [.sweepStarted retentionInterval, .silent, .silent, .silent]
      { s with
        pinLock := some (.sweepUnpin cid cutoff s.clock)
        sweeper := .sweeping s.clock cutoff rest } := by
  let retrying : PublicationState := { s with sweeper := .retrying s.clock cutoff [] }
  let sweeping : PublicationState := { s with sweeper := .sweeping s.clock cutoff (cid :: rest) }
  let locked : PublicationState :=
    { s with
      pinLock := some (.sweep cid cutoff s.clock)
      sweeper := .sweeping s.clock cutoff rest }
  have hstart : InstantStep library content s (.sweepStarted retentionInterval) retrying := by
    have hstep := SweeperStep.start hsweeper hcutoff
    rw [hdebts] at hstep
    exact ⟨.sweeper hstep, rfl⟩
  have hread : InstantStep library content retrying .silent sweeping := by
    have hstep := SweeperStep.readStale (s := retrying) rfl
    rw [hstale] at hstep
    exact ⟨.sweeper hstep, rfl⟩
  have hlocked : InstantStep library content sweeping .silent locked :=
    ⟨.sweeper (.lockCid hlock rfl), rfl⟩
  refine (((Reaches.single hstart).tail hread).tail hlocked).tail ?_
  exact ⟨.sweeper (.eligible (s := locked) rfl heligible), rfl⟩

end Cycles

end RailgunIndexer
