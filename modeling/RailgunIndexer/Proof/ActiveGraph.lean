import RailgunIndexer.Proof.PinSafety

/-!
# The active POI graph

The next cycle finds the active manifest through a live row of the checkpoint catalog it references. A
manifest is recorded only while all of its artifacts have live rows, and a sweep marks no row that a
kept manifest needs. An abandonment marks the rows of the CID it found unavailable, whichever manifest
references it besides the abandoned one, and with an artifact that the pending and the active manifest
share the active graph is lost.

In the runs whose abandonments name no artifact of the active manifest, its artifacts stay live and the
cycle goes on from its entries.
-/

namespace RailgunIndexer

open Lib

/-- A pin returns a CID that determines the kind of the artifact, and an abandonment names no artifact of
the active manifest. -/
structure SparingStep (library : PoiLibrary) (content : String → PublishedContent)
    (poiKind : String → PoiArtifactPublicationKind) (s : PublicationState) (event : PublicationEvent)
    (next : PublicationState) : Prop where
  step : PublicationStep library content s event next
  kind : ∀ kind cid, event = .poiArtifactPinned kind cid → kind = poiKind cid
  abandoned : ∀ cid, event = .poiAbandoned (some cid) → ∀ row ∈ s.tables.poiManifests,
    row.isActive = true → cid ∉ row.artifactCids

section Steps

variable {library : PoiLibrary} {content : String → PublishedContent}
  {poiKind : String → PoiArtifactPublicationKind} {s next : PublicationState}
  {event : PublicationEvent} {row : PoiManifestRow} {tables : PublicationTables}
  {kind : Nat → PublishedContent}

/-! ### Live artifacts -/

def HasLiveRow {κ μ : Type} (rows : List (ArtifactRow κ μ)) (cid : String) : Prop :=
  ∃ row ∈ rows, row.isLive = true ∧ row.cid = cid

theorem ArtifactChange.hasLiveRow {κ μ : Type} [DecidableEq κ] {locked : κ → μ → String → Prop}
    {abandoned : String → Prop} {rows later : List (ArtifactRow κ μ)} {cid : String}
    (hchange : ArtifactChange s locked abandoned rows later) (hlive : HasLiveRow rows cid)
    (hmark : ∀ cutoff now, s.pinLock ≠ some (.sweepMark cid cutoff now)) (habandoned : ¬ abandoned cid) :
    HasLiveRow later cid := by
  obtain ⟨row, hrow, hrowLive, hcid⟩ := hlive
  cases hchange with
  | same => exact ⟨row, hrow, hrowLive, hcid⟩
  | @referenced key metadata referenced kept _ =>
      rw [Audit.upsertArtifact]
      split_ifs
      · refine ⟨_, Table.mem_update.mpr ⟨row, hrow, rfl⟩, ?_⟩
        split_ifs
        · exact ⟨rfl, hcid⟩
        · exact ⟨hrowLive, hcid⟩
      · exact ⟨row, List.mem_append_left _ hrow, hrowLive, hcid⟩
  | @marked marked cutoff now hlock =>
      have hne : row.cid ≠ marked := by
        rintro hsame
        rw [← hsame, hcid] at hlock
        exact hmark cutoff now hlock
      refine ⟨row, Table.mem_update.mpr ⟨row, hrow, if_neg ?_⟩, hrowLive, hcid⟩
      simp [hne]
  | @abandoned condition time hcondition =>
      refine ⟨row, Table.mem_update.mpr ⟨row, hrow, if_neg fun hmarked => ?_⟩, hrowLive, hcid⟩
      exact habandoned (hcid ▸ (hcondition row hrow hmarked).1)

theorem PublicationStep.poiManifests_of_abandoned {unavailable : Option String}
    (hstep : PublicationStep library content s (.poiAbandoned unavailable) next) :
    next.tables.poiManifests = Table.update ManifestRow.isPending
      (fun row => { row with reconciliationInvalidatedAt := some s.clock }) s.tables.poiManifests := by
  cases hstep with
  | poi hstep =>
      cases hstep with
      | abandon _ _ hok =>
          obtain ⟨_, hinvalidation, rfl⟩ := Audit.abandonPendingPoiV4ManifestReconciliation_eq_ok hok
          obtain ⟨_, -, -, -, rfl⟩ :=
            Audit.invalidatePendingPoiManifestReconciliation_eq_ok hinvalidation
          rfl
  | indexed hstep => cases hstep
  | cleanup hstep => cases hstep
  | sweeper hstep => cases hstep

def ManifestRow.Valid {β : Type} (row : ManifestRow β) : Prop :=
  row.isKept = true ∧ row.reconciliationInvalidatedAt = none

theorem ManifestRow.Advances.valid_of_later {β : Type} {row later : ManifestRow β}
    (hrow : row.Advances later) (hvalid : later.Valid) : row.Valid := by
  obtain ⟨hkept, hinvalidated⟩ := hvalid
  refine ⟨(hrow.needs_of_later ⟨hkept, .inl rfl⟩).1, ?_⟩
  by_contra hne
  exact hne ((hrow.invalidated hne).symm.trans hinvalidated)

theorem active_of_abandoned {rows : List PoiManifestRow} {now : Nat}
    (hrow : row ∈ Table.update ManifestRow.isPending (fun row => { row with
      reconciliationInvalidatedAt := some now }) rows) (hvalid : row.Valid) :
    row ∈ rows ∧ row.isActive = true := by
  obtain ⟨hkept, hinvalidated⟩ := hvalid
  obtain ⟨old, hold, rfl⟩ := Table.mem_update.mp hrow
  by_cases hpending : old.isPending = true
  · rw [if_pos hpending] at hinvalidated
    cases hinvalidated
  · rw [if_neg hpending] at hkept hinvalidated ⊢
    obtain ⟨hsuperseded, hunpinned⟩ := ManifestRow.isKept_iff.mp hkept
    refine ⟨hold, ManifestRow.isActive_iff.mpr ⟨fun hpublished => hpending ?_, hsuperseded⟩⟩
    exact ManifestRow.isPending_iff.mpr ⟨hpublished, hsuperseded, hunpinned, hinvalidated⟩

def ArtifactsLive (s : PublicationState) : Prop :=
  ∀ row ∈ s.tables.poiManifests, row.Valid → ∀ cid ∈ row.artifactCids,
    HasLiveRow s.tables.poiArtifacts cid

theorem SparingStep.artifactsLive (hpins : PinsOk content s) (hlive : ArtifactsLive s)
    (hstep : SparingStep library content poiKind s event next) : ArtifactsLive next := by
  intro row hrow hvalid cid hcid
  by_cases habandoned : event = .poiAbandoned (some cid)
  · subst habandoned
    rw [hstep.step.poiManifests_of_abandoned] at hrow
    obtain ⟨hold, hactive⟩ := active_of_abandoned hrow hvalid
    exact absurd hcid (hstep.abandoned cid rfl row hold hactive)
  · have hchange := hstep.step.tablesChange.poiArtifacts
    rcases (hpins.channels.poiChange hstep.step).row_cases hrow with ⟨hrecords, -⟩ | ⟨old, hold, hrowStep⟩
    · obtain ⟨_, _, graph, _, _, hlock, -, hrecord, rfl⟩ := hrecords
      refine hchange.hasLiveRow (hrecord.live cid (List.mem_dedup.mp hcid)) (fun cutoff now => ?_)
        habandoned
      simp [hlock]
    · have hbefore : cid ∈ old.artifactCids := hrowStep.advances.artifactCids ▸ hcid
      have hvalidBefore := hrowStep.advances.valid_of_later hvalid
      refine hchange.hasLiveRow (hlive old hold hvalidBefore cid hbefore) (fun cutoff now hlock => ?_)
        habandoned
      exact hpins.unneeded _ hlock cid rfl (.inl ⟨old, hold, hvalidBefore.1, .inr hbefore⟩)

/-! ### Kinds and entries -/

def PoiTask.graph : PoiTask → List (PoiArtifactPublicationKind × String)
  | .publishing graph | .reserved graph _ => graph
  | .idle | .reconciling _ | .recorded _ _ => []

theorem PublicationStep.mem_graph {kind : PoiArtifactPublicationKind} {cid : String}
    (hstep : PublicationStep library content s event next) (hgraph : (kind, cid) ∈ next.poi.graph) :
    (kind, cid) ∈ s.poi.graph
      ∨ ∃ key metadata owned, s.pinLock = some (.poiArtifact key metadata cid owned)
        ∧ kind = key.kind := by
  cases hstep with
  | indexed hstep | cleanup hstep | sweeper hstep => cases hstep <;> exact .inl hgraph
  | tick => exact .inl hgraph
  | restart => cases hgraph
  | poi hstep =>
      cases hstep with
      | reuse | pin | pinManifest | invalidate => exact .inl hgraph
      | pending | noPending | reconcile | activate | stop => cases hgraph
      | @abandon _ _ _ acknowledged | @recordManifest _ _ _ _ _ acknowledged =>
          cases acknowledged <;> cases hgraph
      | @reserve _ _ _ _ acknowledged hpoi =>
          cases acknowledged
          · cases hgraph
          · rw [hpoi]
            exact .inl hgraph
      | @recordArtifact _ key metadata _ owned acknowledged _ hlock hpoi =>
          cases acknowledged
          · cases hgraph
          · rw [hpoi]
            rcases List.mem_append.mp hgraph with hgraph | hgraph
            · exact .inl hgraph
            · obtain ⟨rfl, rfl⟩ := Prod.mk.inj (List.mem_singleton.mp hgraph)
              exact .inr ⟨key, metadata, owned, hlock, rfl⟩

structure KindsOk (poiKind : String → PoiArtifactPublicationKind) (s : PublicationState) : Prop where
  artifacts : ∀ row ∈ s.tables.poiArtifacts, row.key.kind = poiKind row.cid
  locked : ∀ key metadata cid owned, s.pinLock = some (.poiArtifact key metadata cid owned) →
    key.kind = poiKind cid
  graph : ∀ kind cid, (kind, cid) ∈ s.poi.graph → kind = poiKind cid

theorem SparingStep.kindsOk (hkinds : KindsOk poiKind s)
    (hstep : SparingStep library content poiKind s event next) : KindsOk poiKind next where
  artifacts := by
    intro row hrow
    rcases hstep.step.tablesChange.poiArtifacts.row_cases hrow with ⟨old, hold, hkey, -, hcid⟩
      | ⟨_, hlock⟩
    · rw [← hcid, ← hkey]
      exact hkinds.artifacts old hold
    · exact hkinds.locked _ _ _ _ hlock
  locked := by
    intro key metadata cid owned hlocked
    cases hstep.step.sectionChange with
    | kept hlock => exact hkinds.locked key metadata cid owned (hlock ▸ hlocked)
    | released hlock => simp [hlock] at hlocked
    | cleanup hlock => simp [hlock] at hlocked
    | entered hlock _ hentry =>
        rw [hlock] at hlocked
        cases hlocked
        cases hentry with
        | poiArtifact hcid =>
            rcases hcid with hlive | ⟨-, hevent, -⟩
            · obtain ⟨row, hrow, rfl, -, rfl⟩ := exists_of_livePoiArtifactCid hlive
              exact hkinds.artifacts row hrow
            · exact hstep.kind _ _ hevent
  graph := by
    intro kind cid hgraph
    rcases hstep.step.mem_graph hgraph with hgraph | ⟨key, metadata, owned, hlock, rfl⟩
    · exact hkinds.graph kind cid hgraph
    · exact hkinds.locked key metadata cid owned hlock

def HasCatalog (poiKind : String → PoiArtifactPublicationKind) (artifactCids : List String)
    (entry : PoiManifestEntry) : Prop :=
  entry.checkpointCatalog.artifact.cid ∈ artifactCids
    ∧ poiKind entry.checkpointCatalog.artifact.cid = .checkpointCatalog

/-- The entries of the manifests are valid and their catalogs are among the artifacts. -/
structure EntriesOk (library : PoiLibrary) (poiKind : String → PoiArtifactPublicationKind)
    (s : PublicationState) : Prop where
  locked : ∀ cid entries graph sequence bytes,
    s.pinLock = some (.poiManifest cid entries graph sequence bytes) →
      ∀ entry ∈ entries, HasCatalog poiKind (graph.map Prod.snd) entry
  valid : ∀ row ∈ s.tables.poiManifests, Audit.checkPoiEntries library row.body = .ok ()
  catalogs : ∀ row ∈ s.tables.poiManifests, ∀ entry ∈ row.body, HasCatalog poiKind row.artifactCids entry

theorem PublicationStep.entriesOk (hpins : PinsOk content s) (hkinds : KindsOk poiKind s)
    (hentries : EntriesOk library poiKind s) (hstep : PublicationStep library content s event next) :
    EntriesOk library poiKind next where
  locked := by
    intro cid entries graph sequence bytes hlocked
    cases hstep.sectionChange with
    | kept hlock => exact hentries.locked cid entries graph sequence bytes (hlock ▸ hlocked)
    | released hlock | cleanup hlock => simp [hlock] at hlocked
    | entered hlock _ hentry =>
        rw [hlock] at hlocked
        cases hlocked
        cases hentry with
        | poiManifest hpoi hgraph =>
            intro entry hmem
            have hpair := hgraph entry hmem
            refine ⟨List.mem_map.mpr ⟨_, hpair, rfl⟩, (hkinds.graph _ _ ?_).symm⟩
            rw [hpoi]
            exact hpair
  valid := by
    intro row hrow
    rcases (hpins.channels.poiChange hstep).row_cases hrow with ⟨hrecords, -⟩ | ⟨old, hold, hrowStep⟩
    · obtain ⟨_, _, _, _, _, -, -, hrecord, rfl⟩ := hrecords
      exact hrecord.entries_ok
    · rw [hrowStep.advances.body]
      exact hentries.valid old hold
  catalogs := by
    intro row hrow entry hentry
    rcases (hpins.channels.poiChange hstep).row_cases hrow with ⟨hrecords, -⟩ | ⟨old, hold, hrowStep⟩
    · obtain ⟨_, _, _, _, _, hlock, -, -, rfl⟩ := hrecords
      obtain ⟨hmem, hkind⟩ := hentries.locked _ _ _ _ _ hlock entry hentry
      exact ⟨List.mem_dedup.mpr hmem, hkind⟩
    · rw [hrowStep.advances.body] at hentry
      rw [hrowStep.advances.artifactCids]
      exact hentries.catalogs old hold entry hentry

/-! ### The graph that is found -/

theorem mem_activeEntries {scope : PoiScope}
    {found : PoiManifestRow × PoiManifestEntry × PoiArtifactRow} :
    found ∈ Audit.activeEntries scope tables
      ↔ (found.1 ∈ tables.poiManifests ∧ found.1.isActive = true ∧ found.1.unpinnedAt = none)
        ∧ (found.2.1 ∈ found.1.body ∧ found.2.1.scope = scope)
        ∧ found.2.2 ∈ tables.poiArtifacts ∧ found.2.2.cid = found.2.1.checkpointCatalog.artifact.cid
        ∧ found.2.2.key.kind = .checkpointCatalog ∧ found.2.2.isLive = true := by
  obtain ⟨row, entry, artifact⟩ := found
  simp only [Audit.activeEntries, List.mem_flatMap, List.mem_filter, List.mem_map, Bool.and_eq_true,
    decide_eq_true_eq, Option.isNone_iff_eq_none, Prod.mk.injEq]
  constructor
  · rintro ⟨_, hrow, _, hentry, _, hartifact, rfl, rfl, rfl⟩
    exact ⟨hrow, hentry, hartifact.1, hartifact.2.1.1, hartifact.2.1.2, hartifact.2.2⟩
  · rintro ⟨hrow, hentry, hmem, hcid, hkind, hlive⟩
    exact ⟨row, hrow, entry, hentry, artifact, ⟨hmem, ⟨hcid, hkind⟩, hlive⟩, rfl, rfl, rfl⟩

theorem activePoiGraph_eq_ok {entry : PoiManifestEntry}
    (hchannel : ChannelOk content kind tables.poiManifests) (hrow : row ∈ tables.poiManifests)
    (hactive : row.isActive = true) (hvalid : Audit.checkPoiEntries library row.body = .ok ())
    (hentry : entry ∈ row.body)
    (hartifact : ∃ artifact ∈ tables.poiArtifacts, artifact.isLive = true ∧ artifact.cid =
      entry.checkpointCatalog.artifact.cid ∧ artifact.key.kind = .checkpointCatalog) :
    ∃ graph, Audit.activePoiGraph library entry.scope tables = .ok (some graph)
      ∧ graph.entry = entry := by
  obtain ⟨hentries, hscopes⟩ := Audit.checkPoiEntries_eq_ok hvalid
  obtain ⟨hentryValid, hchain⟩ := hentries entry hentry
  obtain ⟨artifact, hmem, hlive, hcid, hkind⟩ := hartifact
  have hunpinned : row.unpinnedAt = none := by
    by_contra hne
    exact hchannel.unpinned row hrow hne (ManifestRow.isActive_iff.mp hactive).2
  have hfound : (row, entry, artifact) ∈ Audit.activeEntries entry.scope tables :=
    mem_activeEntries.mpr ⟨⟨hrow, hactive, hunpinned⟩, ⟨hentry, rfl⟩, hmem, hcid, hkind, hlive⟩
  rw [Audit.activePoiGraph, Audit.u64ToI64, if_neg (not_le.mpr hchain)]
  cases hargmax : (Audit.activeEntries entry.scope tables).argmax fun found =>
      toLex (found.1.ipnsSequence, found.2.2.publishedAt) with
  | none =>
      rw [List.argmax_eq_none.mp hargmax] at hfound
      cases hfound
  | some found =>
      obtain ⟨⟨hother, hotherActive, -⟩, ⟨hbody, hscope⟩, -⟩ :=
        mem_activeEntries.mp (List.argmax_mem hargmax)
      have hsame := Table.eq_of_pairwise_lt hchannel.sequences hrow hother
        (hchannel.active_one row hrow _ hother hactive hotherActive)
      rw [← hsame] at hbody
      have hfoundEntry : found.2.1 = entry := List.inj_on_of_nodup_map hscopes hbody hentry hscope
      simp only [hfoundEntry, hentryValid]
      exact ⟨_, rfl, rfl⟩

/-! ### The cycle that goes on from it -/

/-- A cycle goes on from the active entry: with its checkpoint and its bridges or, after a rotation,
with a checkpoint where it ended and the bridges to keep among its own and the one for its tail. -/
def GoesOn (publisher : PoiPublisher) (corpus : ValidatedCorpus) (now : Nat) (active : ActivePoiGraph)
    (count : Nat) (bridges : List EventArtifactDescriptor) : Prop :=
  count = active.entry.checkpointCatalog.rowCount ∧ bridges = active.entry.retainedBridges
    ∨ count = active.entry.eventCount ∧ ∃ candidates reused,
      bridgePublishedTail publisher corpus active = .ok (candidates, reused)
        ∧ retainRecentBridges publisher candidates active now = .ok bridges

theorem goesOn_of_checkpointAndBridges {publisher : PoiPublisher} {corpus : ValidatedCorpus}
    {now count reused : Nat} {active : ActivePoiGraph} {bridges : List EventArtifactDescriptor}
    (hok : checkpointAndBridges publisher corpus now (some active) = .ok (count, bridges, reused)) :
    active.entry.eventCount ≤ corpus.eventCount ∧ GoesOn publisher corpus now active count bridges := by
  obtain ⟨_, hcheck, hok⟩ := Fallible.bind_eq_ok.mp hok
  obtain ⟨fits, -, hok⟩ := Fallible.bind_eq_ok.mp hok
  refine ⟨checkActiveEntry_eq_ok hcheck, ?_⟩
  split_ifs at hok
  · obtain ⟨⟨candidates, tailReused⟩, hcandidates, hok⟩ := Fallible.bind_eq_ok.mp hok
    obtain ⟨retained, hretained, hok⟩ := Fallible.bind_eq_ok.mp hok
    obtain ⟨rfl, hrest⟩ := Prod.mk.inj (Except.ok.inj hok)
    obtain ⟨rfl, -⟩ := Prod.mk.inj hrest
    exact .inr ⟨rfl, candidates, tailReused, hcandidates, hretained⟩
  · obtain ⟨rfl, hrest⟩ := Prod.mk.inj (Except.ok.inj hok)
    cases hrest
    exact .inl ⟨rfl, rfl⟩

/-! ### Runs -/

structure GraphOk (library : PoiLibrary) (content : String → PublishedContent)
    (poiKind : String → PoiArtifactPublicationKind) (s : PublicationState) : Prop where
  pins : PinsOk content s
  live : ArtifactsLive s
  kinds : KindsOk poiKind s
  entries : EntriesOk library poiKind s

theorem graphOk_started (clock : Nat) : GraphOk library content poiKind (.started .empty clock) where
  pins := pinsOk_started clock
  live := by simp [ArtifactsLive, PublicationState.started, PublicationTables.empty]
  kinds := ⟨by simp [PublicationState.started, PublicationTables.empty],
    by simp [PublicationState.started], by simp [PublicationState.started, PoiTask.graph]⟩
  entries := ⟨by simp [PublicationState.started],
    by simp [PublicationState.started, PublicationTables.empty],
    by simp [PublicationState.started, PublicationTables.empty]⟩

theorem graphOk_of_reaches {clock : Nat} {events : List PublicationEvent}
    (hrun : Run.Reaches (SparingStep library content poiKind) (.started .empty clock) events s) :
    GraphOk library content poiKind s :=
  hrun.invariant (I := fun _ s => GraphOk library content poiKind s) (graphOk_started clock)
    fun _ _ _ _ hok hstep =>
      { pins := hstep.step.pinsOk hok.pins
        live := hstep.artifactsLive hok.pins hok.live
        kinds := hstep.kindsOk hok.kinds
        entries := hstep.step.entriesOk hok.pins hok.kinds hok.entries }

theorem ChannelOk.valid_of_active {rows : List PoiManifestRow}
    (hchannel : ChannelOk content kind rows) (hrow : row ∈ rows) (hactive : row.isActive = true) :
    row.Valid := by
  obtain ⟨hpublished, hsuperseded⟩ := ManifestRow.isActive_iff.mp hactive
  refine ⟨ManifestRow.isKept_iff.mpr ⟨hsuperseded, ?_⟩, ?_⟩
  · by_contra hne
    exact hchannel.unpinned row hrow hne hsuperseded
  · by_contra hne
    exact hpublished (hchannel.invalidated row hrow hne)

end Steps

/-! ### A shared catalog

The second manifest references the checkpoint catalog of the first, and a tail. The process stops before
it is activated, and the next cycle abandons it. -/

section Shared

open Run

variable {artifacts : List PoiArtifactRow}

def sharedContent (cid : String) : PublishedContent :=
  if cid = "first" then .poiManifest 5
  else if cid = "second" then .poiManifest 6
  else .artifact

def sharedKind (cid : String) : PoiArtifactPublicationKind :=
  if cid = "catalog" then .checkpointCatalog else .currentTail

def sharedEntry : PoiManifestEntry :=
  { smallEntry 1 1 none [] with
    checkpointCatalog := ⟨smallScope, some ⟨0, 0⟩, 1, some (FixedBytes.ofNat 1), ⟨"catalog", 0, 0⟩⟩ }

def sharedArtifact (cid : String) (unpinnedAt : Option Nat) : PoiArtifactRow :=
  ⟨⟨sharedKind cid, smallScope, none⟩, cid, ⟨0, 0, none, ""⟩, 0, 0, unpinnedAt⟩

def sharedFirst (ipnsPublishedAt : Option Nat) : PoiManifestRow :=
  { cid := "first", ipnsSequence := 5, byteSize := 0, contentHash := 0, body := [sharedEntry],
    artifactCids := ["catalog"], ipnsPublishedAt }

def sharedSecond (reconciliationInvalidatedAt : Option Nat) : PoiManifestRow :=
  { cid := "second", ipnsSequence := 6, byteSize := 0, contentHash := 0, body := [sharedEntry],
    artifactCids := ["catalog", "tail"], reconciliationInvalidatedAt }

def sharedState (last : Option Nat) (poi : PoiTask) (artifacts : List PoiArtifactRow)
    (rows : List PoiManifestRow) : PublicationState :=
  { PublicationState.started
      { PublicationTables.empty with
        poiArtifacts := artifacts
        poiManifests := rows
        ipnsLastSequence := last } 0 with
    poi }

@[simp]
theorem sharedState_poiManifests {last : Option Nat} {poi : PoiTask} {rows : List PoiManifestRow} :
    (sharedState last poi artifacts rows).tables.poiManifests = rows := rfl

abbrev SharedRun := Reaches (InstantStep smallPoiLibrary sharedContent)

def sharedCatalog : PoiArtifactRow := sharedArtifact "catalog" none

/-- The first manifest is active, and a cycle has pinned what its graph has. -/
def sharedActive (poi : PoiTask) (artifacts : List PoiArtifactRow) : PublicationState :=
  sharedState (some 5) poi artifacts [sharedFirst (some 0)]

def firstEvents : List PublicationEvent :=
  [.silent, .poiArtifactPinned .checkpointCatalog "catalog", .silent, .silent, .silent, .silent,
    .poiActivated "first" 5]

theorem reaches_sharedFirst :
    SharedRun (.started .empty 0) firstEvents (sharedActive .idle [sharedCatalog]) := by
  have hstart : SharedRun (.started .empty 0) [.silent] (sharedState none (.publishing []) [] []) :=
    reaches_poiPublishing rfl (by rfl)
  have hcatalog : SharedRun (sharedState none (.publishing []) [] [])
      [.poiArtifactPinned .checkpointCatalog "catalog", .silent]
      (sharedState none (.publishing [(.checkpointCatalog, "catalog")]) [sharedCatalog] []) :=
    @reaches_poiArtifact _ sharedContent _ [] ⟨.checkpointCatalog, smallScope, none⟩ ⟨0, 0, none, ""⟩
      "catalog" _ rfl rfl (by rfl) (by rfl)
  have hrecord : SharedRun
      (sharedState none (.publishing [(.checkpointCatalog, "catalog")]) [sharedCatalog] [])
      [.silent, .silent, .silent]
      (sharedState (some 5) (.recorded "first" 5) [sharedCatalog] [sharedFirst none]) :=
    @reaches_poiManifest _ sharedContent _ [(.checkpointCatalog, "catalog")] [sharedEntry] 5 5 "first" []
      _ _ rfl rfl (by rfl) (by simp [sharedEntry]) (by rfl) (by rfl)
  have hactivate : SharedRun
      (sharedState (some 5) (.recorded "first" 5) [sharedCatalog] [sharedFirst none])
      [.poiActivated "first" 5] (sharedActive .idle [sharedCatalog]) :=
    reaches_poiActivation rfl (by rfl)
  exact ((hstart.trans hcatalog).trans hrecord).trans hactivate

def secondEvents : List PublicationEvent :=
  [.silent, .silent, .silent, .poiArtifactPinned .currentTail "tail", .silent, .silent, .silent,
    .silent, .silent, .silent]

/-- The second manifest is recorded. -/
def sharedRecorded (poi : PoiTask) (secondInvalidatedAt : Option Nat)
    (artifacts : List PoiArtifactRow) : PublicationState :=
  sharedState (some 6) poi artifacts [sharedFirst (some 0), sharedSecond secondInvalidatedAt]

def sharedArtifacts : List PoiArtifactRow := [sharedCatalog, sharedArtifact "tail" none]

def sharedPending : PublicationState :=
  sharedRecorded (.reconciling (sharedSecond none)) none sharedArtifacts

theorem reaches_sharedReuse :
    SharedRun (sharedActive (.publishing []) [sharedCatalog]) [.silent, .silent]
      (sharedActive (.publishing [(.checkpointCatalog, "catalog")]) [sharedCatalog]) := by
  let key : PoiArtifactKey := ⟨.checkpointCatalog, smallScope, none⟩
  let metadata : PoiArtifactMetadata := ⟨0, 0, none, ""⟩
  let reused : PublicationState :=
    { sharedActive (.publishing []) [sharedCatalog] with
      pinLock := some (.poiArtifact key metadata "catalog" false) }
  have hreuse : InstantStep smallPoiLibrary sharedContent
      (sharedActive (.publishing []) [sharedCatalog]) .silent reused :=
    ⟨.poi (.reuse rfl rfl (by rfl)), rfl⟩
  refine (Reaches.single hreuse).tail ⟨.poi ?_, rfl⟩
  exact @PoiPublisherStep.recordArtifact _ _ reused [] key metadata "catalog" false true _ rfl rfl
    (.acknowledged (by rfl))

theorem reaches_sharedPending :
    SharedRun (sharedActive .idle [sharedCatalog]) secondEvents sharedPending := by
  have hstart : SharedRun (sharedActive .idle [sharedCatalog]) [.silent]
      (sharedActive (.publishing []) [sharedCatalog]) :=
    reaches_poiPublishing rfl (by rfl)
  have htail : SharedRun
      (sharedActive (.publishing [(.checkpointCatalog, "catalog")]) [sharedCatalog])
      [.poiArtifactPinned .currentTail "tail", .silent]
      (sharedActive (.publishing [(.checkpointCatalog, "catalog"), (.currentTail, "tail")])
        sharedArtifacts) :=
    @reaches_poiArtifact _ sharedContent _ [(.checkpointCatalog, "catalog")]
      ⟨.currentTail, smallScope, none⟩ ⟨0, 0, none, ""⟩ "tail" _ rfl rfl (by rfl) (by rfl)
  have hrecord : SharedRun
      (sharedActive (.publishing [(.checkpointCatalog, "catalog"), (.currentTail, "tail")])
        sharedArtifacts)
      [.silent, .silent, .silent] (sharedRecorded (.recorded "second" 6) none sharedArtifacts) :=
    @reaches_poiManifest _ sharedContent _ [(.checkpointCatalog, "catalog"), (.currentTail, "tail")]
      [sharedEntry] 0 6 "second" [] _ _ rfl rfl (by rfl) (by simp [sharedEntry]) (by rfl) (by rfl)
  have hrestart : InstantStep smallPoiLibrary sharedContent
      (sharedRecorded (.recorded "second" 6) none sharedArtifacts) .silent
      (sharedRecorded .idle none sharedArtifacts) :=
    ⟨.restart, rfl⟩
  refine ((((hstart.trans reaches_sharedReuse).trans htail).trans hrecord).tail hrestart).tail ?_
  exact ⟨.poi (.pending rfl (by rfl)), rfl⟩

theorem abandons_shared {unavailable : String} (hunavailable : unavailable ∈ ["catalog", "tail"])
    (hok : Audit.abandonPendingPoiV4ManifestReconciliation 0 "second" 6 (some unavailable)
      sharedPending.tables = .ok (sharedRecorded .idle (some 0) artifacts).tables) :
    PublicationStep smallPoiLibrary sharedContent sharedPending (.poiAbandoned (some unavailable))
      (sharedRecorded .idle (some 0) artifacts) := by
  apply PublicationStep.poi
  exact @PoiPublisherStep.abandon _ _ sharedPending (sharedSecond none) _ _ false rfl
    (fun cid hcid => Option.some.inj hcid ▸ hunavailable) hok

def tailAbandoned : PublicationState :=
  sharedRecorded .idle (some 0) [sharedCatalog, sharedArtifact "tail" (some 0)]

end Shared

end RailgunIndexer
