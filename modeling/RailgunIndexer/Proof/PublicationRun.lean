import RailgunIndexer.Proof.ManifestChannel

/-!
# What a publication step does

A step changes the tables in one of a few ways, and which of them it was is all that most invariants
need to know of it. Only a section that recorded a manifest adds one, and only the two publishers move
their own cycle on.
-/

namespace RailgunIndexer

open Lib

section Steps

variable {library : PoiLibrary} {content : String → PublishedContent} {s next : PublicationState}
  {event : PublicationEvent} {after : PublicationTables}

theorem Commits.eq_or {σ : Type} {result : Except AuditError σ} {before after : σ} {acknowledged : Bool}
    (hcommits : Commits result before acknowledged after) :
    result = .ok after ∨ after = before ∧ acknowledged = false := by
  cases hcommits with
  | acknowledged hok | unacknowledged hok => exact .inl hok
  | rolledBack => exact .inr ⟨rfl, rfl⟩

/-! ### Tables -/

inductive PoiTablesChange (library : PoiLibrary) (s : PublicationState) (event : PublicationEvent) :
    PublicationTables → Prop
  | same : PoiTablesChange library s event s.tables
  | artifact {key : PoiArtifactKey} {metadata : PoiArtifactMetadata} {cid : String} {owned : Bool}
      (hlock : s.pinLock = some (.poiArtifact key metadata cid owned)) :
      PoiTablesChange library s event { s.tables with
        poiArtifacts := Audit.upsertArtifact s.clock key cid metadata id s.tables.poiArtifacts }
  | manifest {cid : String} {entries : List PoiManifestEntry}
      {graph : List (PoiArtifactPublicationKind × String)} {sequence : Nat} {bytes : Bytes}
      (hlock : s.pinLock = some (.poiManifest cid entries graph sequence bytes))
      (hpoi : s.poi = .reserved graph sequence)
      (hrecord : Audit.RecordsPoiManifest library entries (graph.map Prod.snd) sequence s.tables) :
      PoiTablesChange library s event { s.tables with
        poiManifests := s.tables.poiManifests ++ [Audit.freshManifest cid sequence entries bytes.length
          (library.contentHash bytes) (graph.map Prod.snd)] }
  | activation {cid : String} {sequence : Nat} (hevent : event = .poiActivated cid sequence)
      (hrow : ∃ row ∈ s.tables.poiManifests, Audit.activates cid sequence row = true) :
      PoiTablesChange library s event { s.tables with
        poiManifests := Audit.supersede s.clock (fun row => (row.cid ≠ cid && row.ipnsPublishedAt.isSome)
          || Audit.isInvalidatedBefore sequence row)
            (Audit.activate s.clock cid sequence s.tables.poiManifests) }
  | invalidation {artifacts : List PoiArtifactRow} {last : Option Nat}
      (hartifacts : artifacts = s.tables.poiArtifacts ∨ ∃ cid sequence unavailable,
        event = .poiAbandoned (some unavailable) ∧ artifacts = Table.update
          (fun row => row.cid = unavailable && row.isLive && Audit.invalidatedReferences cid sequence
            row.cid (Table.update ManifestRow.isPending
              (fun row => { row with reconciliationInvalidatedAt := some s.clock })
              s.tables.poiManifests))
          (fun row => { row with unpinnedAt := some s.clock }) s.tables.poiArtifacts) :
      PoiTablesChange library s event { s.tables with
        poiArtifacts := artifacts
        poiManifests := Table.update ManifestRow.isPending
          (fun row => { row with reconciliationInvalidatedAt := some s.clock }) s.tables.poiManifests
        ipnsLastSequence := last }
  | sequence {last : Option Nat} :
      PoiTablesChange library s event { s.tables with ipnsLastSequence := last }

inductive IndexedTablesChange (library : PoiLibrary) (s : PublicationState)
    (event : PublicationEvent) : PublicationTables → Prop
  | same : IndexedTablesChange library s event s.tables
  | artifact {key : IndexedArtifactKey} {metadata : IndexedArtifactMetadata} {cid : String}
      {owned : Bool} (hlock : s.pinLock = some (.indexedArtifact key metadata cid owned)) :
      IndexedTablesChange library s event { s.tables with
        indexedArtifacts := Audit.upsertArtifact s.clock key cid metadata (fun _ => metadata)
          s.tables.indexedArtifacts }
  | manifest {cid : String} {artifactCids : List String} {sequence : Nat} {bytes : Bytes}
      (hlock : s.pinLock = some (.indexedManifest cid artifactCids sequence bytes))
      (hindexed : s.indexed = .reserved artifactCids sequence)
      (hrecord : Audit.RecordsIndexedManifest artifactCids sequence s.tables) :
      IndexedTablesChange library s event { s.tables with
        indexedManifests := s.tables.indexedManifests ++ [Audit.freshManifest cid sequence (some bytes)
          bytes.length (library.contentHash bytes) artifactCids] }
  | activation {cid : String} {sequence : Nat} (hevent : event = .indexedActivated cid sequence)
      (hrow : ∃ row ∈ s.tables.indexedManifests, Audit.activates cid sequence row = true) :
      IndexedTablesChange library s event { s.tables with
        indexedManifests := Audit.supersede s.clock (replacedBy cid sequence)
          (Audit.activate s.clock cid sequence s.tables.indexedManifests) }
  | sequence {last : Option Nat} :
      IndexedTablesChange library s event { s.tables with chainIndexedIpnsLastSequence := last }

inductive SweepTablesChange (s : PublicationState) : PublicationTables → Prop
  | same : SweepTablesChange s s.tables
  | debts {debts : List PinCleanupDebt} :
      SweepTablesChange s { s.tables with pinCleanupDebt := debts }
  | mark {cid : String} {cutoff now : Nat} (hlock : s.pinLock = some (.sweepMark cid cutoff now)) :
      SweepTablesChange s (Retention.markUnpinned (Retention.unixSeconds now) cutoff cid s.tables)

inductive TablesChange (library : PoiLibrary) (s : PublicationState) (event : PublicationEvent)
    (after : PublicationTables) : Prop
  | poiChannel (hchange : PoiTablesChange library s event after)
  | indexedChannel (hchange : IndexedTablesChange library s event after)
  | sweep (hchange : SweepTablesChange s after)

theorem PoiTablesChange.indexed_eq (hchange : PoiTablesChange library s event after) :
    after.indexedArtifacts = s.tables.indexedArtifacts
      ∧ after.indexedManifests = s.tables.indexedManifests
      ∧ after.chainIndexedIpnsLastSequence = s.tables.chainIndexedIpnsLastSequence := by
  cases hchange <;> exact ⟨rfl, rfl, rfl⟩

theorem IndexedTablesChange.poi_eq (hchange : IndexedTablesChange library s event after) :
    after.poiArtifacts = s.tables.poiArtifacts ∧ after.poiManifests = s.tables.poiManifests
      ∧ after.ipnsLastSequence = s.tables.ipnsLastSequence := by
  cases hchange <;> exact ⟨rfl, rfl, rfl⟩

theorem PoiPublisherStep.tablesChange (hstep : PoiPublisherStep library content s event next) :
    PoiTablesChange library s event next.tables := by
  cases hstep with
  | pending | noPending | reuse | pin | pinManifest | stop => exact .same
  | @abandon row unavailable _ _ _ _ hok =>
      obtain ⟨_, hinvalidation, rfl⟩ := Audit.abandonPendingPoiV4ManifestReconciliation_eq_ok hok
      obtain ⟨_, -, -, -, rfl⟩ := Audit.invalidatePendingPoiManifestReconciliation_eq_ok hinvalidation
      cases unavailable with
      | none => exact .invalidation (.inl rfl)
      | some unavailable => exact .invalidation (.inr ⟨_, _, unavailable, rfl, rfl⟩)
  | recordArtifact hlock _ hcommits =>
      rcases hcommits.eq_or with hok | ⟨rfl, -⟩
      · obtain rfl := Audit.recordPoiArtifactPin_eq_ok hok
        exact .artifact hlock
      · exact .same
  | reserve _ hok =>
      obtain ⟨-, rfl⟩ := Audit.reservePoiPublicationSequence_eq_ok hok
      exact .sequence
  | recordManifest hlock hpoi hcommits =>
      rcases hcommits.eq_or with hok | ⟨rfl, -⟩
      · obtain ⟨hrecord, rfl⟩ := Audit.recordPoiArtifactManifestPin_eq_ok hok
        exact .manifest hlock hpoi hrecord
      · exact .same
  | reconcile _ hok | activate _ hok =>
      obtain ⟨hrow, rfl⟩ := Audit.recordPoiArtifactManifestIpnsPublication_eq_ok hok
      exact .activation rfl hrow
  | invalidate hok =>
      obtain ⟨_, -, -, -, rfl⟩ := Audit.invalidatePendingPoiManifestReconciliation_eq_ok hok
      exact .invalidation (.inl rfl)

theorem IndexedPublisherStep.tablesChange (hstep : IndexedPublisherStep library content s event next) :
    IndexedTablesChange library s event next.tables := by
  cases hstep with
  | pending | noPending | repin | repinMismatch | reuse | pin | fail | pinManifest | stop => exact .same
  | recordArtifact hlock _ hcommits =>
      rcases hcommits.eq_or with hok | ⟨rfl, -⟩
      · obtain rfl := Audit.recordIndexedArtifactPin_eq_ok hok
        exact .artifact hlock
      · exact .same
  | reserve _ hcommits =>
      rcases hcommits.eq_or with hok | ⟨rfl, -⟩
      · obtain ⟨-, rfl⟩ := Audit.recordChainIndexedIpnsSequence_eq_ok hok
        exact .sequence
      · exact .same
  | recordManifest hlock hindexed hcommits =>
      rcases hcommits.eq_or with hok | ⟨rfl, -⟩
      · obtain ⟨hrecord, rfl⟩ := Audit.recordIndexedManifestPin_eq_ok hok
        exact .manifest hlock hindexed hrecord
      · exact .same
  | reconcile _ hok | activate _ hok =>
      obtain ⟨hrow, rfl⟩ := Audit.recordIndexedManifestIpnsPublication_eq_ok hok
      exact .activation rfl hrow

theorem CleanupStep.tablesChange (hstep : CleanupStep s event next) :
    SweepTablesChange s next.tables := by
  cases hstep with
  | referenced | unreferenced | unknown | unpin => exact .same
  | recordDebt _ hcommits =>
      rcases hcommits.eq_or with hok | ⟨rfl, -⟩
      · cases hok
        obtain ⟨debts, hdebts⟩ := Audit.recordPinCleanupDebt_eq _ s.tables
        rw [hdebts]
        exact .debts
      · exact .same

theorem SweeperStep.tablesChange (hstep : SweeperStep s event next) :
    SweepTablesChange s next.tables := by
  cases hstep with
  | start | lockDebt | debtUnreferenced | debtUnknown | debtUnpin | readStale | lockCid | eligible
  | ineligible | unpin | stop => exact .same
  | debtReferenced _ _ hcommits =>
      rcases hcommits.eq_or with hok | ⟨rfl, -⟩
      · cases hok
        exact .debts
      · exact .same
  | @debtSettle cid unpinned _ _ _ hcommits =>
      rcases hcommits.eq_or with hok | ⟨rfl, -⟩
      · cases hok
        cases unpinned <;> exact .debts
      · exact .same
  | mark hlock hcommits =>
      rcases hcommits.eq_or with hok | ⟨rfl, -⟩
      · cases hok
        exact .mark hlock
      · exact .same

theorem PublicationStep.tablesChange (hstep : PublicationStep library content s event next) :
    TablesChange library s event next.tables := by
  cases hstep with
  | poi hstep => exact .poiChannel hstep.tablesChange
  | indexed hstep => exact .indexedChannel hstep.tablesChange
  | cleanup hstep | sweeper hstep => exact .sweep hstep.tablesChange
  | tick | restart => exact .sweep .same

/-! ### Manifests -/

structure SectionOk (content : String → PublishedContent) (pinLock : Option PinSection) : Prop where
  poi : ∀ cid entries graph sequence bytes,
    pinLock = some (.poiManifest cid entries graph sequence bytes) → content cid = .poiManifest sequence
  indexed : ∀ cid artifactCids sequence bytes,
    pinLock = some (.indexedManifest cid artifactCids sequence bytes) →
      content cid = .indexedManifest sequence

def PublicationState.RecordsPoi (library : PoiLibrary) (s : PublicationState) (row : PoiManifestRow) :
    Prop :=
  ∃ cid entries graph sequence bytes, s.pinLock = some (.poiManifest cid entries graph sequence bytes)
    ∧ s.poi = .reserved graph sequence
    ∧ Audit.RecordsPoiManifest library entries (graph.map Prod.snd) sequence s.tables
    ∧ row = Audit.freshManifest cid sequence entries bytes.length (library.contentHash bytes)
      (graph.map Prod.snd)

def PublicationState.RecordsIndexed (library : PoiLibrary) (s : PublicationState)
    (row : IndexedManifestRow) : Prop :=
  ∃ cid artifactCids sequence bytes,
    s.pinLock = some (.indexedManifest cid artifactCids sequence bytes)
    ∧ s.indexed = .reserved artifactCids sequence
    ∧ Audit.RecordsIndexedManifest artifactCids sequence s.tables
    ∧ row = Audit.freshManifest cid sequence (some bytes) bytes.length (library.contentHash bytes)
      artifactCids

abbrev PoiChange (library : PoiLibrary) (content : String → PublishedContent) (s : PublicationState)
    (event : PublicationEvent) : List PoiManifestRow → List PoiManifestRow → Prop :=
  ManifestChange content s .poiManifest (s.RecordsPoi library)
    (fun cid sequence => event = .poiActivated cid sequence)

abbrev IndexedChange (library : PoiLibrary) (content : String → PublishedContent)
    (s : PublicationState) (event : PublicationEvent) :
    List IndexedManifestRow → List IndexedManifestRow → Prop :=
  ManifestChange content s .indexedManifest (s.RecordsIndexed library)
    (fun cid sequence => event = .indexedActivated cid sequence)

theorem TablesChange.poi (hok : ChannelOk content .poiManifest s.tables.poiManifests)
    (hsection : SectionOk content s.pinLock) (hchange : TablesChange library s event after) :
    PoiChange library content s event s.tables.poiManifests after.poiManifests := by
  cases hchange with
  | indexedChannel hchange =>
      rw [hchange.poi_eq.2.1]
      exact .same
  | poiChannel hchange =>
      cases hchange with
      | same | artifact | sequence => exact .same
      | manifest hlock hpoi hrecord =>
          exact .recorded hrecord.noPending ⟨_, _, _, _, _, hlock, hpoi, hrecord, rfl⟩
            (hsection.poi _ _ _ _ _ hlock) hrecord.bound rfl
      | activation hevent hrow =>
          rw [supersede_poi_eq hok.addressed hrow]
          exact .activated hevent hrow
      | invalidation => exact .invalidated
  | sweep hchange =>
      cases hchange with
      | same | debts => exact .same
      | mark hlock =>
          rw [Retention.marked_markUnpinned.poiManifests]
          exact .marked hlock

theorem TablesChange.indexed (hsection : SectionOk content s.pinLock)
    (hchange : TablesChange library s event after) :
    IndexedChange library content s event s.tables.indexedManifests after.indexedManifests := by
  cases hchange with
  | poiChannel hchange =>
      rw [hchange.indexed_eq.2.1]
      exact .same
  | indexedChannel hchange =>
      cases hchange with
      | same | artifact | sequence => exact .same
      | manifest hlock hindexed hrecord =>
          exact .recorded hrecord.noPending ⟨_, _, _, _, hlock, hindexed, hrecord, rfl⟩
            (hsection.indexed _ _ _ _ hlock) hrecord.bound rfl
      | activation hevent hrow => exact .activated hevent hrow
  | sweep hchange =>
      cases hchange with
      | same | debts => exact .same
      | mark hlock =>
          rcases Retention.marked_markUnpinned.indexedManifests with hsame | hmarked
          · rw [hsame]
            exact .same
          · rw [hmarked]
            exact .marked hlock

/-! ### Artifacts -/

/-- The ways in which the artifacts of a channel change. `locked` says what the section under the lock
may record and `abandoned` which CIDs an abandonment names. -/
inductive ArtifactChange {κ μ : Type} [DecidableEq κ] (s : PublicationState)
    (locked : κ → μ → String → Prop) (abandoned : String → Prop)
    (rows : List (ArtifactRow κ μ)) : List (ArtifactRow κ μ) → Prop
  | same : ArtifactChange s locked abandoned rows rows
  | referenced {key : κ} {metadata : μ} {cid : String} {kept : μ → μ}
      (hlocked : locked key metadata cid) (hkept : ∀ old, kept old = old ∨ kept old = metadata) :
      ArtifactChange s locked abandoned rows
        (Audit.upsertArtifact s.clock key cid metadata kept rows)
  | marked {cid : String} {cutoff now : Nat}
      (hlock : s.pinLock = some (.sweepMark cid cutoff now)) :
      ArtifactChange s locked abandoned rows
        (Retention.markArtifacts (Retention.unixSeconds now) cutoff cid rows)
  | abandoned {condition : ArtifactRow κ μ → Bool} {time : Nat}
      (habandoned : ∀ row ∈ rows, condition row = true → abandoned row.cid
        ∧ ∀ other ∈ rows, other.cid = row.cid → other.isLive = true → condition other = true) :
      ArtifactChange s locked abandoned rows
        (Table.update condition (fun row => { row with unpinnedAt := some time }) rows)

theorem TablesChange.poiArtifacts (hchange : TablesChange library s event after) :
    ArtifactChange s
      (fun key metadata cid => ∃ owned, s.pinLock = some (.poiArtifact key metadata cid owned))
      (fun cid => event = .poiAbandoned (some cid)) s.tables.poiArtifacts after.poiArtifacts := by
  cases hchange with
  | indexedChannel hchange =>
      rw [hchange.poi_eq.1]
      exact .same
  | poiChannel hchange =>
      cases hchange with
      | same | manifest | activation | sequence => exact .same
      | @artifact _ _ _ owned hlock => exact .referenced ⟨owned, hlock⟩ fun _ => .inl rfl
      | invalidation hartifacts =>
          rcases hartifacts with rfl | ⟨_, _, unavailable, hevent, rfl⟩
          · exact .same
          · refine .abandoned fun row _ hcondition => ?_
            simp only [Bool.and_eq_true, decide_eq_true_eq] at hcondition ⊢
            obtain ⟨⟨hcid, -⟩, hreferences⟩ := hcondition
            refine ⟨by rw [hevent, hcid], fun other _ hsame hlive => ⟨⟨hsame.trans hcid, hlive⟩, ?_⟩⟩
            rw [hsame]
            exact hreferences
  | sweep hchange =>
      cases hchange with
      | same | debts => exact .same
      | mark hlock =>
          rw [Retention.marked_markUnpinned.poiArtifacts]
          exact .marked hlock

theorem TablesChange.indexedArtifacts (hchange : TablesChange library s event after) :
    ArtifactChange s
      (fun key metadata cid => ∃ owned, s.pinLock = some (.indexedArtifact key metadata cid owned))
      (fun _ => False) s.tables.indexedArtifacts after.indexedArtifacts := by
  cases hchange with
  | poiChannel hchange =>
      rw [hchange.indexed_eq.1]
      exact .same
  | indexedChannel hchange =>
      cases hchange with
      | same | manifest | activation | sequence => exact .same
      | @artifact _ _ _ owned hlock => exact .referenced ⟨owned, hlock⟩ fun _ => .inr rfl
  | sweep hchange =>
      cases hchange with
      | same | debts => exact .same
      | mark hlock =>
          rcases Retention.marked_markUnpinned.indexedArtifacts with hsame | hmarked
          · rw [hsame]
            exact .same
          · rw [hmarked]
            exact .marked hlock

/-! ### Sections -/

inductive SectionEntry (content : String → PublishedContent) (s : PublicationState)
    (event : PublicationEvent) : PinSection → Prop
  | poiArtifact {key : PoiArtifactKey} {metadata : PoiArtifactMetadata} {cid : String} {owned : Bool}
      (hcid : Audit.livePoiArtifactCid key metadata.byteSize metadata.contentHash metadata.endRoot
          s.tables = .ok (some cid)
        ∨ content cid = .artifact ∧ event = .poiArtifactPinned key.kind cid ∧ owned = true) :
      SectionEntry content s event (.poiArtifact key metadata cid owned)
  | indexedArtifact {key : IndexedArtifactKey} {metadata : IndexedArtifactMetadata} {cid : String}
      {owned : Bool} (hcid : Audit.liveIndexedArtifactCid key metadata s.tables = .ok (some cid)
        ∨ content cid = .artifact ∧ owned = true) :
      SectionEntry content s event (.indexedArtifact key metadata cid owned)
  | poiManifest {cid : String} {entries : List PoiManifestEntry}
      {graph : List (PoiArtifactPublicationKind × String)} {sequence : Nat} {bytes : Bytes}
      (hpoi : s.poi = .reserved graph sequence)
      (hentries : ∀ entry ∈ entries,
        (PoiArtifactPublicationKind.checkpointCatalog, entry.checkpointCatalog.artifact.cid) ∈ graph)
      (hcontent : content cid = .poiManifest sequence) :
      SectionEntry content s event (.poiManifest cid entries graph sequence bytes)
  | indexedManifest {cid : String} {artifactCids : List String} {sequence : Nat} {bytes : Bytes}
      (hcontent : content cid = .indexedManifest sequence) :
      SectionEntry content s event (.indexedManifest cid artifactCids sequence bytes)
  | cleanupUnpin {cid : String} (hreferenced : Audit.publicationCidIsReferenced cid s.tables = false) :
      SectionEntry content s event (.cleanupUnpin cid)
  | cleanupDebt {cid : String} : SectionEntry content s event (.cleanupDebt cid)
  | debt {cid : String} : SectionEntry content s event (.debt cid)
  | debtUnpin {cid : String} (hreferenced : Audit.publicationCidIsReferenced cid s.tables = false) :
      SectionEntry content s event (.debtUnpin cid)
  | debtSettle {cid : String} {unpinned : Bool} : SectionEntry content s event (.debtSettle cid unpinned)
  | sweep {cid : String} {cutoff now : Nat} {cids : List String}
      (hsweeper : s.sweeper = .sweeping now cutoff cids) :
      SectionEntry content s event (.sweep cid cutoff now)
  | sweepUnpin {cid : String} {cutoff now : Nat} (hlock : s.pinLock = some (.sweep cid cutoff now))
      (heligible : Retention.stillEligible cutoff cid s.tables = true) :
      SectionEntry content s event (.sweepUnpin cid cutoff now)
  | sweepMark {cid : String} {cutoff now : Nat} (hlock : s.pinLock = some (.sweepUnpin cid cutoff now)) :
      SectionEntry content s event (.sweepMark cid cutoff now)

inductive SectionChange (content : String → PublishedContent) (s : PublicationState)
    (event : PublicationEvent) (next : PublicationState) : Prop
  | kept (hlock : next.pinLock = s.pinLock)
  | released (hlock : next.pinLock = none)
  | cleanup {cid : String} (hlock : next.pinLock = some (.cleanup cid))
  | entered {entered : PinSection} (hlock : next.pinLock = some entered)
      (htables : next.tables = s.tables) (hentry : SectionEntry content s event entered)

theorem SectionChange.of_sectionAfter {owned acknowledged : Bool} {cid : String}
    (hlock : next.pinLock = sectionAfter owned acknowledged cid) :
    SectionChange content s event next := by
  rw [sectionAfter] at hlock
  split_ifs at hlock
  · exact .cleanup hlock
  · exact .released hlock

theorem PoiPublisherStep.sectionChange (hstep : PoiPublisherStep library content s event next) :
    SectionChange content s event next := by
  cases hstep with
  | pending | noPending | abandon | reconcile | reserve | activate | invalidate | stop => exact .kept rfl
  | reuse _ _ hok => exact .entered rfl rfl (.poiArtifact (.inl hok))
  | pin _ _ hcontent => exact .entered rfl rfl (.poiArtifact (.inr ⟨hcontent, rfl, rfl⟩))
  | pinManifest _ hpoi hentries hcontent => exact .entered rfl rfl (.poiManifest hpoi hentries hcontent)
  | recordArtifact | recordManifest => exact .of_sectionAfter rfl

theorem IndexedPublisherStep.sectionChange (hstep : IndexedPublisherStep library content s event next) :
    SectionChange content s event next := by
  cases hstep with
  | pending | noPending | repin | reconcile | fail | reserve | activate | stop => exact .kept rfl
  | repinMismatch => exact .cleanup rfl
  | reuse _ _ hok => exact .entered rfl rfl (.indexedArtifact (.inl hok))
  | pin _ _ hcontent => exact .entered rfl rfl (.indexedArtifact (.inr ⟨hcontent, rfl⟩))
  | pinManifest _ _ hcontent => exact .entered rfl rfl (.indexedManifest hcontent)
  | recordArtifact | recordManifest => exact .of_sectionAfter rfl

theorem CleanupStep.sectionChange (hstep : CleanupStep s event next) :
    SectionChange content s event next := by
  cases hstep with
  | referenced | recordDebt => exact .released rfl
  | unreferenced _ hreferenced => exact .entered rfl rfl (.cleanupUnpin hreferenced)
  | unknown => exact .entered rfl rfl .cleanupDebt
  | @unpin _ unpinned =>
      cases unpinned
      · exact .entered rfl rfl .cleanupDebt
      · exact .released rfl

theorem SweeperStep.sectionChange (hstep : SweeperStep s event next) :
    SectionChange content s event next := by
  cases hstep with
  | start | readStale | stop => exact .kept rfl
  | debtReferenced | debtUnknown | debtSettle | ineligible | mark => exact .released rfl
  | lockDebt => exact .entered rfl rfl .debt
  | debtUnreferenced _ hreferenced => exact .entered rfl rfl (.debtUnpin hreferenced)
  | debtUnpin => exact .entered rfl rfl .debtSettle
  | lockCid _ hsweeper => exact .entered rfl rfl (.sweep hsweeper)
  | eligible hlock heligible => exact .entered rfl rfl (.sweepUnpin hlock heligible)
  | @unpin _ _ _ unpinned hlock =>
      cases unpinned
      · exact .released rfl
      · exact .entered rfl rfl (.sweepMark hlock)

theorem PublicationStep.sectionChange (hstep : PublicationStep library content s event next) :
    SectionChange content s event next := by
  cases hstep with
  | poi hstep | indexed hstep | cleanup hstep | sweeper hstep => exact hstep.sectionChange
  | tick => exact .kept rfl
  | restart => exact .released rfl

theorem PublicationStep.sectionOk (hsection : SectionOk content s.pinLock)
    (hstep : PublicationStep library content s event next) : SectionOk content next.pinLock := by
  cases hstep.sectionChange with
  | kept hlock =>
      rw [hlock]
      exact hsection
  | released hlock | cleanup hlock =>
      rw [hlock]
      exact ⟨by simp, by simp⟩
  | entered hlock _ hentry =>
      rw [hlock]
      constructor
      · rintro cid entries graph sequence bytes ⟨⟩
        cases hentry with
        | poiManifest _ _ hcontent => exact hcontent
      · rintro cid artifactCids sequence bytes ⟨⟩
        cases hentry with
        | indexedManifest hcontent => exact hcontent

end Steps

end RailgunIndexer
