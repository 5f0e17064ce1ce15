import RailgunIndexer.PoiGraph
import RailgunIndexer.Lib.Fallible
import RailgunIndexer.Lib.Run
import RailgunIndexer.Lib.Tiling

/-!
# The POI publication graph covers the events

Every artifact of an entry is prepared from the corpus of its cycle, so it holds the events of its
range and the roots around them. What a cycle takes over from the active entry is the number of events
of its checkpoint and its bridges: these tile the events up to the checkpoint, a rotation appends the
bridge of the published tail, and retention drops bridges from the front.
-/

namespace RailgunIndexer

open Lib Fallible

/-! ### Assumptions on the artifact format -/

/-- An artifact that is built holds what it was given, and its range is that of its events. -/
structure BuiltFrom (scope : PoiScope) (kind : EventArtifactKind) (startRoot : Option Bytes32)
    (endRoot : Bytes32) (events : List SnapshotEvent) (artifact : EventArtifact) : Prop where
  scope : artifact.scope = scope
  kind : artifact.kind = kind
  startRoot : artifact.startRoot = startRoot
  endRoot : artifact.endRoot = endRoot
  events : artifact.events = events
  first : artifact.events.head?.map SnapshotEvent.eventIndex = some artifact.range.startIndex
  last : artifact.events.getLast?.map SnapshotEvent.eventIndex = some artifact.range.endIndex

def BuildsArtifacts (library : PoiLibrary) : Prop :=
  ∀ scope kind startRoot endRoot events artifact,
    library.newArtifact scope kind startRoot endRoot events = .ok artifact →
      BuiltFrom scope kind startRoot endRoot events artifact

structure DescribesArtifact (artifact : EventArtifact) (cid : String)
    (descriptor : EventArtifactDescriptor) : Prop where
  scope : descriptor.scope = artifact.scope
  kind : descriptor.kind = artifact.kind
  range : descriptor.range = artifact.range
  rowCount : descriptor.rowCount = artifact.events.length
  startRoot : descriptor.startRoot = artifact.startRoot
  endRoot : descriptor.endRoot = artifact.endRoot
  cid : descriptor.artifact.cid = cid

/-- A catalog that is built lists the chunks it was given, with their joint range, their events and
the root after them. -/
structure Catalogs (scope : PoiScope) (chunks : List EventArtifactDescriptor)
    (catalog : CheckpointCatalog) : Prop where
  scope : catalog.scope = scope
  chunks : catalog.chunks = chunks
  range : catalog.range = catalog.chunks.head?.bind fun first => catalog.chunks.getLast?.map fun last =>
    ⟨first.range.startIndex, last.range.endIndex⟩
  rowCount : catalog.rowCount = (catalog.chunks.map EventArtifactDescriptor.rowCount).sum
  checkpointRoot : catalog.checkpointRoot = catalog.chunks.getLast?.map EventArtifactDescriptor.endRoot

structure DescribesCatalog (catalog : CheckpointCatalog) (cid : String)
    (descriptor : CheckpointCatalogDescriptor) : Prop where
  scope : descriptor.scope = catalog.scope
  range : descriptor.range = catalog.range
  rowCount : descriptor.rowCount = catalog.rowCount
  checkpointRoot : descriptor.checkpointRoot = catalog.checkpointRoot
  cid : descriptor.artifact.cid = cid

/-- What is assumed of the artifact format: an artifact or a catalog that is built is of what it was
given, and a descriptor is of its artifact or catalog. Each of them may fail. -/
structure KeepsFormat (library : PoiLibrary) : Prop where
  artifacts : BuildsArtifacts library
  descriptors : ∀ artifact cid descriptor, library.artifactDescriptor artifact cid = .ok descriptor →
    DescribesArtifact artifact cid descriptor
  catalogs : ∀ scope chunks catalog, library.newCatalog scope chunks = .ok catalog →
    Catalogs scope chunks catalog
  catalogDescriptors : ∀ catalog cid descriptor, library.catalogDescriptor catalog cid
    = .ok descriptor → DescribesCatalog catalog cid descriptor

/-! ### Prepared artifacts -/

section Prepared

variable {corpus : ValidatedCorpus} {library : PoiLibrary} {kind : EventArtifactKind}
  {startIndex endIndex : Nat} {checkpointEventCount : Nat} {chunks : List PreparedEventArtifact}

/-- The descriptor is of the events of its range, with the roots before the first and after the last
of them, and its CID is that of the artifact with these events. -/
structure HoldsEvents (library : PoiLibrary) (corpus : ValidatedCorpus)
    (descriptor : EventArtifactDescriptor) : Prop where
  events : ∃ artifact bytes, library.artifactBytes artifact = .ok bytes
    ∧ descriptor.artifact.cid = library.rawBlockCid bytes ∧ artifact.range = descriptor.range
    ∧ artifact.events = (corpus.events.drop descriptor.range.startIndex).take
      (descriptor.range.endIndex + 1 - descriptor.range.startIndex)
  ordered : descriptor.range.startIndex ≤ descriptor.range.endIndex
  below : descriptor.range.endIndex < corpus.eventCount
  rowCount : descriptor.range.startIndex + descriptor.rowCount = descriptor.range.endIndex + 1
  startRoot : corpus.rootBefore library descriptor.range.startIndex = .ok descriptor.startRoot
  endRoot : corpus.rootAt library descriptor.range.endIndex = .ok descriptor.endRoot

/-- The artifact holds the events of its range and the roots around them, and is encoded. -/
structure PreparedFrom (library : PoiLibrary) (corpus : ValidatedCorpus)
    (prepared : PreparedEventArtifact) : Prop where
  bytes : library.artifactBytes prepared.artifact = .ok prepared.bytes
  events : prepared.artifact.events = (corpus.events.drop prepared.artifact.range.startIndex).take
    (prepared.artifact.range.endIndex + 1 - prepared.artifact.range.startIndex)
  ordered : prepared.artifact.range.startIndex ≤ prepared.artifact.range.endIndex
  below : prepared.artifact.range.endIndex < corpus.eventCount
  startRoot : corpus.rootBefore library prepared.artifact.range.startIndex
    = .ok prepared.artifact.startRoot
  endRoot : corpus.rootAt library prepared.artifact.range.endIndex = .ok prepared.artifact.endRoot

theorem tiles_events : Tiles SnapshotEvent.eventIndex SnapshotEvent.eventIndex 0 corpus.eventCount
    corpus.events := by
  have htiles := @tiles_of_getElem? _ 0 corpus.events SnapshotEvent.eventIndex fun index event hevent =>
    (corpus.contiguous index event hevent).trans (Nat.zero_add index).symm
  rwa [Nat.zero_add] at htiles

theorem PreparedFrom.holdsEvents {prepared : PreparedEventArtifact}
    {descriptor : EventArtifactDescriptor} (hprepared : PreparedFrom library corpus prepared)
    (hdescribes : DescribesArtifact prepared.artifact (library.rawBlockCid prepared.bytes) descriptor) :
    HoldsEvents library corpus descriptor := by
  have hrange := hdescribes.range
  have hbelow := hprepared.below
  have hordered := hprepared.ordered
  rw [ValidatedCorpus.eventCount] at hbelow
  refine ⟨⟨prepared.artifact, prepared.bytes, hprepared.bytes, hdescribes.cid, hrange.symm, ?_⟩, ?_,
    ?_, ?_, ?_, ?_⟩
  · rw [hrange]
    exact hprepared.events
  · rw [hrange]
    exact hordered
  · rw [hrange]
    exact hprepared.below
  · rw [hrange, hdescribes.rowCount, hprepared.events, List.length_take, List.length_drop]
    omega
  · rw [hrange, hdescribes.startRoot]
    exact hprepared.startRoot
  · rw [hrange, hdescribes.endRoot]
    exact hprepared.endRoot

section

variable (hbuilds : BuildsArtifacts library)

include hbuilds

theorem prepareEventArtifact_eq_ok {prepared : PreparedEventArtifact}
    (hok : corpus.prepareEventArtifact library kind startIndex endIndex = .ok prepared) :
    prepared.artifact.range = ⟨startIndex, endIndex⟩ ∧ PreparedFrom library corpus prepared := by
  rw [ValidatedCorpus.prepareEventArtifact] at hok
  split_ifs at hok with hrange
  obtain ⟨startRoot, hstartRoot, hok⟩ := bind_eq_ok.mp hok
  obtain ⟨endRoot, hendRoot, hok⟩ := bind_eq_ok.mp hok
  obtain ⟨artifact, hartifact, hok⟩ := bind_eq_ok.mp hok
  obtain ⟨bytes, hbytes, hok⟩ := bind_eq_ok.mp hok
  cases hok
  have hbuilt := hbuilds _ _ _ _ _ _ (mapError_eq_ok.mp hartifact)
  obtain ⟨first, hfirst, hstart⟩ := Option.map_eq_some_iff.mp hbuilt.first
  obtain ⟨last, hlast, hend⟩ := Option.map_eq_some_iff.mp hbuilt.last
  rw [hbuilt.events] at hfirst hlast
  have hslice := @Tiles.slice _ _ _ _ _ startIndex (endIndex + 1 - startIndex)
    (@tiles_events corpus) (by rw [ValidatedCorpus.eventCount] at hrange; omega)
  have hne := List.ne_nil_of_mem (List.mem_of_getLast? hlast)
  have hhead := hslice.head_eq hne
  have hstop := (hslice.getLast_eq hne).2
  rw [(List.head_eq_iff_head?_eq_some hne).mpr hfirst] at hhead
  rw [List.getLast_of_getLast?_eq_some hlast] at hstop
  have hstartIndex : artifact.range.startIndex = startIndex := by omega
  have hendIndex : artifact.range.endIndex = endIndex := by omega
  have hartifactRange : artifact.range = ⟨startIndex, endIndex⟩ := by
    rw [← hstartIndex, ← hendIndex]
  refine ⟨hartifactRange, ⟨mapError_eq_ok.mp hbytes, ?_, ?_, ?_, ?_, ?_⟩⟩
  · rw [hartifactRange]
    exact hbuilt.events
  · dsimp only
    omega
  · dsimp only
    omega
  · rw [hartifactRange, hbuilt.startRoot]
    exact hstartRoot
  · rw [hartifactRange, hbuilt.endRoot]
    exact hendRoot

theorem prepareCheckpointFrom_eq_ok {fuel start : Nat} (hstart : start ≤ checkpointEventCount)
    (hfuel : checkpointEventCount - start ≤ fuel)
    (hok : corpus.prepareCheckpointFrom library checkpointEventCount fuel start = .ok chunks) :
    Tiles (fun chunk : PreparedEventArtifact => chunk.artifact.range.startIndex)
        (fun chunk => chunk.artifact.range.endIndex) start checkpointEventCount chunks
      ∧ ∀ chunk ∈ chunks, PreparedFrom library corpus chunk := by
  induction fuel generalizing start chunks with
  | zero =>
      obtain rfl : start = checkpointEventCount := by omega
      cases hok
      exact ⟨.nil, by simp⟩
  | succ fuel ih =>
      rw [ValidatedCorpus.prepareCheckpointFrom] at hok
      split_ifs at hok with hlt
      · obtain ⟨chunk, hchunk, hok⟩ := bind_eq_ok.mp hok
        obtain ⟨rest, hrest, hok⟩ := bind_eq_ok.mp hok
        cases hok
        obtain ⟨hrange, hprepared⟩ := prepareEventArtifact_eq_ok hbuilds hchunk
        obtain ⟨htiles, hall⟩ := ih (by omega) (by omega) hrest
        refine ⟨.cons (by rw [hrange]) (by rw [hrange]; simp only; omega) ?_, ?_⟩
        · rw [hrange]
          exact htiles
        · intro other hother
          rcases List.mem_cons.mp hother with rfl | hother
          · exact hprepared
          · exact hall other hother
      · cases hok
        obtain rfl : start = checkpointEventCount := by omega
        exact ⟨.nil, by simp⟩

theorem prepareCheckpoint_eq_ok
    (hok : corpus.prepareCheckpoint library checkpointEventCount = .ok chunks) :
    checkpointEventCount ≤ corpus.eventCount
      ∧ Tiles (fun chunk : PreparedEventArtifact => chunk.artifact.range.startIndex)
        (fun chunk => chunk.artifact.range.endIndex) 0 checkpointEventCount chunks
      ∧ ∀ chunk ∈ chunks, PreparedFrom library corpus chunk := by
  rw [ValidatedCorpus.prepareCheckpoint] at hok
  split_ifs at hok with hbeyond
  exact ⟨Nat.le_of_not_lt hbeyond, prepareCheckpointFrom_eq_ok hbuilds (Nat.zero_le _) (by omega) hok⟩

end

end Prepared

/-! ### Entries -/

section Entries

variable {publisher : PoiPublisher} {corpus : ValidatedCorpus} {library : PoiLibrary}
  {descriptor bridge : EventArtifactDescriptor} {reused : Bool} {active : ActivePoiGraph}
  {now count : Nat} {bridges retained inherited : List EventArtifactDescriptor}

abbrev TilesEvents (a b : Nat) (descriptors : List EventArtifactDescriptor) : Prop :=
  Tiles (fun descriptor : EventArtifactDescriptor => descriptor.range.startIndex)
    (fun descriptor => descriptor.range.endIndex) a b descriptors

/-- The catalog descriptor is of the first `count` events, and its CID is that of the catalog whose
chunks hold them. -/
structure HoldsCheckpoint (library : PoiLibrary) (corpus : ValidatedCorpus) (count : Nat)
    (catalog : CheckpointCatalogDescriptor) : Prop where
  rowCount : catalog.rowCount = count
  range : catalog.range = if count = 0 then none else some ⟨0, count - 1⟩
  root : corpus.rootBefore library count = .ok catalog.checkpointRoot
  chunks : ∃ content bytes, library.catalogBytes content = .ok bytes
    ∧ catalog.artifact.cid = library.rawBlockCid bytes ∧ TilesEvents 0 count content.chunks
    ∧ ∀ chunk ∈ content.chunks, HoldsEvents library corpus chunk

theorem holdsCheckpoint_of_tiles {count : Nat} {chunks : List EventArtifactDescriptor}
    {catalog : CheckpointCatalog} {bytes : Bytes} {descriptor : CheckpointCatalogDescriptor}
    (hformat : KeepsFormat library)
    (hdescriptor : library.catalogDescriptor catalog (library.rawBlockCid bytes) = .ok descriptor)
    (htiles : TilesEvents 0 count chunks)
    (hholds : ∀ chunk ∈ chunks, HoldsEvents library corpus chunk)
    (hok : checkpointCatalog library corpus.scope chunks = .ok (catalog, bytes)) :
    HoldsCheckpoint library corpus count descriptor := by
  obtain ⟨found, hcatalog, hok⟩ := bind_eq_ok.mp hok
  obtain ⟨foundBytes, hbytes, hok⟩ := bind_eq_ok.mp hok
  obtain ⟨rfl, rfl⟩ := Prod.mk.inj (Except.ok.inj hok)
  have hcatalogs := hformat.catalogs _ _ _ (mapError_eq_ok.mp hcatalog)
  have hdescribes := hformat.catalogDescriptors _ _ _ hdescriptor
  obtain rfl := hcatalogs.chunks
  have hsum := htiles.sum_sizes fun chunk hchunk => (hholds chunk hchunk).rowCount
  refine ⟨?_, ?_, ?_, found, foundBytes, mapError_eq_ok.mp hbytes, hdescribes.cid, htiles, hholds⟩
  · rw [hdescribes.rowCount, hcatalogs.rowCount]
    rw [Nat.zero_add] at hsum
    exact hsum
  · rw [hdescribes.range, hcatalogs.range]
    by_cases hne : found.chunks = []
    · rw [hne] at htiles ⊢
      cases htiles
      rfl
    · obtain ⟨-, hlast⟩ := htiles.getLast_eq hne
      rw [List.head?_eq_some_head hne, List.getLast?_eq_some_getLast hne, if_neg (by omega)]
      change some (EventRange.mk _ _) = some ⟨0, count - 1⟩
      rw [htiles.head_eq hne, ← hlast]
      rfl
  · rw [hdescribes.checkpointRoot, hcatalogs.checkpointRoot]
    by_cases hne : found.chunks = []
    · rw [hne] at htiles ⊢
      cases htiles
      rfl
    · obtain ⟨-, hlast⟩ := htiles.getLast_eq hne
      have hroot := (hholds _ (List.getLast_mem hne)).endRoot
      rw [List.getLast?_eq_some_getLast hne, ValidatedCorpus.rootBefore, if_neg (by omega), ← hlast,
        Nat.add_sub_cancel, hroot]
      rfl

def Addressed (library : PoiLibrary) (descriptor : EventArtifactDescriptor) : Prop :=
  ∃ artifact bytes, artifact.range = descriptor.range
    ∧ library.artifactBytes artifact = .ok bytes
    ∧ descriptor.artifact.cid = library.rawBlockCid bytes

theorem HoldsEvents.addressed (hholds : HoldsEvents library corpus descriptor) :
    Addressed library descriptor := by
  obtain ⟨artifact, bytes, hbytes, hcid, hrange, -⟩ := hholds.events
  exact ⟨artifact, bytes, hrange, hbytes, hcid⟩

def DistinctCids (library : PoiLibrary) : Prop :=
  ∀ artifact other bytes otherBytes, library.artifactBytes artifact = .ok bytes →
    library.artifactBytes other = .ok otherBytes →
      library.rawBlockCid bytes = library.rawBlockCid otherBytes → artifact = other

def PinsByContent (publisher : PoiPublisher) : Prop :=
  ∀ key root bytes cid reused, publisher.pin key root bytes = .ok (cid, reused) →
    cid = publisher.library.rawBlockCid bytes

theorem publishPoiEventArtifact_eq_ok {kind : PoiArtifactPublicationKind}
    {prepared : PreparedEventArtifact} (hformat : KeepsFormat publisher.library)
    (hpins : PinsByContent publisher)
    (hok : publishPoiEventArtifact publisher kind prepared = .ok (descriptor, reused)) :
    DescribesArtifact prepared.artifact (publisher.library.rawBlockCid prepared.bytes) descriptor := by
  obtain ⟨⟨cid, found⟩, hpin, hok⟩ := bind_eq_ok.mp hok
  obtain ⟨published, hpublished, hok⟩ := bind_eq_ok.mp hok
  cases hok
  have hdescribes := hformat.descriptors _ _ _ (mapError_eq_ok.mp (mapError_eq_ok.mp hpublished))
  rwa [hpins _ _ _ _ _ hpin] at hdescribes

/-- What the next cycle takes over from an entry: a checkpoint within the events, and bridges that
tile the events before its end. -/
structure Continues (library : PoiLibrary) (entry : PoiManifestEntry) : Prop where
  le : entry.checkpointCatalog.rowCount ≤ entry.eventCount
  bridges : ∃ first, TilesEvents first entry.checkpointCatalog.rowCount entry.retainedBridges
  addressed : ∀ bridge ∈ entry.retainedBridges, Addressed library bridge
  bounded : entry.retainedBridges.length ≤ library.maxRetainedBridges

/-- The recorded publication times are those of the entry's bridges, in their order and not in the
future. -/
structure RecordedInOrder (active : ActivePoiGraph) (now : Nat) : Prop where
  recorded : ∀ cid time, active.bridgePublishedAt cid = some time →
    ∃ bridge ∈ active.entry.retainedBridges, bridge.artifact.cid = cid
  ordered : active.entry.retainedBridges.Pairwise fun left right => ∀ earlier later,
    active.bridgePublishedAt left.artifact.cid = some earlier →
      active.bridgePublishedAt right.artifact.cid = some later → earlier ≤ later
  past : ∀ cid time, active.bridgePublishedAt cid = some time → time ≤ now

/-! ### Retention keeps the last bridges -/

theorem bridgePublicationTime_of_mem {time : Nat} (hmem : bridge ∈ active.entry.retainedBridges)
    (htime : bridgePublicationTime active now bridge = .ok time) :
    active.bridgePublishedAt bridge.artifact.cid = some time := by
  rw [bridgePublicationTime] at htime
  split at htime
  · rename_i found hfound
    rw [hfound, Except.ok.inj htime]
  · rw [if_pos (List.any_eq_true.mpr ⟨bridge, hmem, by simp⟩)] at htime
    cases htime

theorem bridgePublicationTime_of_fresh {time : Nat} (hrecorded : RecordedInOrder active now)
    (hfresh : ∀ other ∈ active.entry.retainedBridges, other.artifact.cid ≠ bridge.artifact.cid)
    (htime : bridgePublicationTime active now bridge = .ok time) : time = now := by
  rw [bridgePublicationTime] at htime
  split at htime
  · rename_i found hfound
    obtain ⟨other, hother, hcid⟩ := hrecorded.recorded _ _ hfound
    exact absurd hcid (hfresh other hother)
  · split_ifs at htime
    exact (Except.ok.inj htime).symm

theorem isRecent_mono {earlier later : Nat} (hle : earlier ≤ later) (hnow : later ≤ now)
    (hrecent : isRecent now earlier = true) : isRecent now later = true := by
  simp only [isRecent, Bool.and_eq_true, decide_eq_true_eq] at hrecent ⊢
  omega

theorem retainRecentBridges_eq_ok
    (hordered : bridges.Pairwise fun left right => ∀ earlier later, bridgePublicationTime active now
      left = .ok earlier → bridgePublicationTime active now right = .ok later → earlier ≤ later ∧
      later ≤ now) (hok : retainRecentBridges publisher bridges active now = .ok retained) :
    retained <:+ bridges ∧ retained.length ≤ publisher.library.maxRetainedBridges := by
  obtain ⟨times, htimes, hok⟩ := bind_eq_ok.mp hok
  cases hok
  have htimes := mapM_eq_ok_iff.mp htimes
  have hfst : (bridges.zip times).map Prod.fst = bridges :=
    List.map_fst_zip htimes.length_eq.le
  have hstamped : ∀ stamped ∈ bridges.zip times,
      bridgePublicationTime active now stamped.1 = .ok stamped.2 := by
    intro stamped hmem
    exact (List.forall₂_iff_zip.mp htimes).2 hmem
  have hzip : (bridges.zip times).Pairwise fun left right =>
      isRecent now left.2 = true → isRecent now right.2 = true := by
    rw [← hfst, List.pairwise_map] at hordered
    refine hordered.imp_of_mem fun hleft hright hle => ?_
    obtain ⟨hle, hnow⟩ := hle _ _ (hstamped _ hleft) (hstamped _ hright)
    exact isRecent_mono hle hnow
  have hsuffix := (filter_isSuffix hzip).map Prod.fst
  rw [hfst] at hsuffix
  refine ⟨(List.drop_suffix _ _).trans hsuffix, ?_⟩
  rw [List.length_drop]
  omega

/-! ### One cycle -/

structure TakenOver (library : PoiLibrary) (corpus : ValidatedCorpus)
    (active : Option ActivePoiGraph) (count : Nat) (bridges : List EventArtifactDescriptor) :
    Prop where
  moved : ∀ graph, active = some graph → graph.entry.eventCount ≤ corpus.eventCount
    ∧ (count = graph.entry.checkpointCatalog.rowCount ∨ count = graph.entry.eventCount)
  tiles : ∃ first, TilesEvents first count bridges
  bounded : bridges.length ≤ library.maxRetainedBridges
  origin : ∀ bridge ∈ bridges, HoldsEvents library corpus bridge
    ∨ ∃ graph, active = some graph ∧ bridge ∈ graph.entry.retainedBridges

theorem checkActiveEntry_eq_ok (hok : checkActiveEntry publisher corpus active = .ok ()) :
    active.entry.eventCount ≤ corpus.eventCount := by
  obtain ⟨_, -, hok⟩ := bind_eq_ok.mp hok
  split_ifs at hok <;> omega

theorem cid_ne_of_tiles {first : Nat} (hdistinct : DistinctCids library)
    (htiles : TilesEvents first count bridges)
    (haddressed : ∀ other ∈ bridges, Addressed library other) (hbridge : Addressed library bridge)
    (hstart : bridge.range.startIndex = count) :
    ∀ other ∈ bridges, other.artifact.cid ≠ bridge.artifact.cid := by
  intro other hother heq
  obtain ⟨artifact, bytes, hrange, hbytes, hcid⟩ := haddressed other hother
  obtain ⟨artifact', bytes', hrange', hbytes', hcid'⟩ := hbridge
  rw [hcid, hcid'] at heq
  have hsame := hdistinct _ _ _ _ hbytes hbytes' heq
  have hbounds := htiles.bounds hother
  rw [← hrange, hsame, hrange'] at hbounds
  omega

theorem pairwise_publicationTimes (hrecorded : RecordedInOrder active now) :
    active.entry.retainedBridges.Pairwise fun left right => ∀ earlier later,
      bridgePublicationTime active now left = .ok earlier →
        bridgePublicationTime active now right = .ok later → earlier ≤ later ∧ later ≤ now := by
  refine hrecorded.ordered.imp_of_mem fun hleft hright hordered earlier later hearlier hlater => ?_
  have hearlier := bridgePublicationTime_of_mem hleft hearlier
  have hlater := bridgePublicationTime_of_mem hright hlater
  exact ⟨hordered _ _ hearlier hlater, hrecorded.past _ _ hlater⟩

section

variable (hformat : KeepsFormat publisher.library) (hdistinct : DistinctCids publisher.library)

include hformat hdistinct

theorem bridgePublishedTail_eq_ok {reused : Nat}
    (hpins : PinsByContent publisher) (hactive : Continues publisher.library active.entry)
    (hrecorded : RecordedInOrder active now)
    (hok : bridgePublishedTail publisher corpus active = .ok (bridges, reused)) :
    (∃ first, TilesEvents first active.entry.eventCount bridges)
      ∧ (bridges.Pairwise fun left right => ∀ earlier later,
        bridgePublicationTime active now left = .ok earlier →
          bridgePublicationTime active now right = .ok later → earlier ≤ later ∧ later ≤ now)
      ∧ ∀ bridge ∈ bridges, HoldsEvents publisher.library corpus bridge
        ∨ bridge ∈ active.entry.retainedBridges := by
  obtain ⟨first, htiles⟩ := hactive.bridges
  have hpairwise := pairwise_publicationTimes hrecorded
  rw [bridgePublishedTail] at hok
  split_ifs at hok with htail
  · obtain ⟨prepared, hprepared, hok⟩ := bind_eq_ok.mp hok
    obtain ⟨⟨bridge, bridgeFound⟩, hbridge, hok⟩ := bind_eq_ok.mp hok
    cases hok
    obtain ⟨hrange, hprepared⟩ :=
      prepareEventArtifact_eq_ok hformat.artifacts (mapError_eq_ok.mp hprepared)
    have hdescribes := publishPoiEventArtifact_eq_ok hformat hpins hbridge
    have hfresh := hprepared.holdsEvents hdescribes
    have hbridgeRange := hdescribes.range.trans hrange
    refine ⟨⟨first, htiles.append (.cons ?_ ?_ ?_)⟩, ?_, ?_⟩
    · rw [hbridgeRange]
    · rw [hbridgeRange]
      exact Nat.le_sub_one_of_lt htail
    · rw [hbridgeRange]
      rw [Nat.sub_add_cancel (by omega)]
      exact .nil
    · have hcids := cid_ne_of_tiles hdistinct htiles hactive.addressed hfresh.addressed
        (by rw [hbridgeRange])
      refine List.pairwise_append.mpr ⟨hpairwise, List.pairwise_singleton _ _, ?_⟩
      intro other hother last hlast earlier later hearlier hlater
      obtain rfl := List.mem_singleton.mp hlast
      have hnow := bridgePublicationTime_of_fresh hrecorded hcids hlater
      have hpast := hrecorded.past _ _ (bridgePublicationTime_of_mem hother hearlier)
      omega
    · intro other hother
      rcases List.mem_append.mp hother with hother | hother
      · exact .inr hother
      · rw [List.mem_singleton.mp hother]
        exact .inl hfresh
  · cases hok
    have hle := hactive.le
    have hcount : active.entry.checkpointCatalog.rowCount = active.entry.eventCount := by omega
    rw [hcount] at htiles
    exact ⟨⟨first, htiles⟩, hpairwise, fun bridge hbridge => .inr hbridge⟩

theorem rotateCheckpoint_eq_ok {reused : Nat}
    (hpins : PinsByContent publisher) (hactive : Continues publisher.library active.entry)
    (hevents : active.entry.eventCount ≤ corpus.eventCount) (hrecorded : RecordedInOrder active now)
    (hok : rotateCheckpoint publisher corpus active now = .ok (count, retained, reused)) :
    TakenOver publisher.library corpus (some active) count retained := by
  obtain ⟨⟨bridges, bridgeReused⟩, hbridges, hok⟩ := bind_eq_ok.mp hok
  obtain ⟨found, hretained, hok⟩ := bind_eq_ok.mp hok
  obtain ⟨rfl, hrest⟩ := Prod.mk.inj (Except.ok.inj hok)
  cases hrest
  obtain ⟨⟨first, htiles⟩, hpairwise, horigin⟩ :=
    bridgePublishedTail_eq_ok hformat hdistinct hpins hactive hrecorded hbridges
  obtain ⟨hsuffix, hbounded⟩ := retainRecentBridges_eq_ok hpairwise hretained
  refine ⟨?_, htiles.suffix hsuffix, hbounded, ?_⟩
  · intro graph heq
    cases heq
    exact ⟨hevents, .inr rfl⟩
  · intro bridge hbridge
    rcases horigin bridge (hsuffix.subset hbridge) with hfresh | hinherited
    · exact .inl hfresh
    · exact .inr ⟨active, rfl, hinherited⟩

theorem checkpointAndBridges_eq_ok {active : Option ActivePoiGraph} {reused : Nat}
    (hpins : PinsByContent publisher)
    (hactive : ∀ graph, active = some graph → Continues publisher.library graph.entry ∧
      RecordedInOrder graph now)
    (hok : checkpointAndBridges publisher corpus now active = .ok (count, bridges, reused)) :
    TakenOver publisher.library corpus active count bridges := by
  cases active with
  | none =>
      obtain ⟨rfl, hrest⟩ := Prod.mk.inj (Except.ok.inj hok)
      cases hrest
      exact ⟨by simp, ⟨_, .nil⟩, Nat.zero_le _, by simp⟩
  | some graph =>
      obtain ⟨hcontinues, hrecorded⟩ := hactive graph rfl
      obtain ⟨_, hcheck, hok⟩ := bind_eq_ok.mp hok
      obtain ⟨fits, -, hok⟩ := bind_eq_ok.mp hok
      have hevents := checkActiveEntry_eq_ok hcheck
      split_ifs at hok
      · exact rotateCheckpoint_eq_ok hformat hdistinct hpins hcontinues hevents hrecorded hok
      · obtain ⟨rfl, hrest⟩ := Prod.mk.inj (Except.ok.inj hok)
        cases hrest
        refine ⟨?_, hcontinues.bridges, hcontinues.bounded, ?_⟩
        · intro same heq
          cases heq
          exact ⟨hevents, .inl rfl⟩
        · intro bridge hbridge
          exact .inr ⟨graph, rfl, hbridge⟩

end

section

variable (hformat : KeepsFormat publisher.library) (hpins : PinsByContent publisher)

include hformat hpins

theorem materializeBridge_eq_ok {published : EventArtifactDescriptor}
    (hok : materializeBridge publisher corpus inherited bridge = .ok (published, reused)) :
    published = bridge ∧ (bridge ∈ inherited → HoldsEvents publisher.library corpus bridge) := by
  rw [materializeBridge] at hok
  split_ifs at hok with hinherited
  · cases hok
    refine ⟨rfl, fun hmem => ?_⟩
    simp [hmem] at hinherited
  · obtain ⟨prepared, hprepared, hok⟩ := bind_eq_ok.mp hok
    obtain ⟨-, hprepared⟩ :=
      prepareEventArtifact_eq_ok hformat.artifacts (mapError_eq_ok.mp hprepared)
    obtain ⟨expected, -, hok⟩ := bind_eq_ok.mp hok
    split_ifs at hok
    obtain ⟨⟨found, foundReused⟩, hfound, hok⟩ := bind_eq_ok.mp hok
    have hholds := hprepared.holdsEvents (publishPoiEventArtifact_eq_ok hformat hpins hfound)
    dsimp only at hok
    split_ifs at hok with hmismatch
    cases hok
    have hsame := not_not.mp hmismatch
    rw [hsame] at hholds
    exact ⟨hsame, fun _ => hholds⟩

theorem materializeBridges_eq_ok {materialized : List (EventArtifactDescriptor × Bool)}
    (hok : bridges.mapM (materializeBridge publisher corpus inherited) = .ok materialized) :
    materialized.map Prod.fst = bridges
      ∧ ∀ bridge ∈ bridges, bridge ∈ inherited → HoldsEvents publisher.library corpus bridge := by
  constructor
  · calc materialized.map Prod.fst
        = bridges.map id := map_eq_of_mapM hok fun bridge result hresult =>
          (materializeBridge_eq_ok hformat hpins hresult).1
      _ = bridges := List.map_id bridges
  · intro bridge hbridge
    obtain ⟨result, -, hresult⟩ := exists_of_forall₂_left (mapM_eq_ok_iff.mp hok) hbridge
    exact (materializeBridge_eq_ok hformat hpins hresult).2

theorem publishCurrentTail_eq_ok {tail : Option EventArtifactDescriptor}
    (hcount : count ≤ corpus.eventCount)
    (hok : publishCurrentTail publisher corpus count = .ok (tail, reused)) :
    (tail = none ↔ count = corpus.eventCount)
      ∧ ∀ descriptor, tail = some descriptor → descriptor.range = ⟨count, corpus.eventCount - 1⟩
        ∧ HoldsEvents publisher.library corpus descriptor := by
  rw [publishCurrentTail] at hok
  split_ifs at hok with htail
  · obtain ⟨prepared, hprepared, hok⟩ := bind_eq_ok.mp hok
    obtain ⟨⟨found, foundReused⟩, hfound, hok⟩ := bind_eq_ok.mp hok
    cases hok
    obtain ⟨hrange, hprepared⟩ :=
      prepareEventArtifact_eq_ok hformat.artifacts (mapError_eq_ok.mp hprepared)
    have hdescribes := publishPoiEventArtifact_eq_ok hformat hpins hfound
    refine ⟨⟨by simp, fun heq => by omega⟩, fun descriptor heq => ?_⟩
    rw [← Option.some.inj heq]
    exact ⟨hdescribes.range.trans hrange, hprepared.holdsEvents hdescribes⟩
  · cases hok
    exact ⟨⟨fun _ => by omega, fun _ => rfl⟩, by simp⟩

theorem publishCheckpointChunks_eq_ok {prepared : List PreparedEventArtifact}
    {chunks : List (EventArtifactDescriptor × Bool)}
    (hprepared : corpus.prepareCheckpoint publisher.library count = .ok prepared)
    (hok : prepared.mapM (publishPoiEventArtifact publisher .checkpointChunk) = .ok chunks) :
    TilesEvents 0 count (chunks.map Prod.fst)
      ∧ ∀ chunk ∈ chunks.map Prod.fst, HoldsEvents publisher.library corpus chunk := by
  obtain ⟨-, htiles, hall⟩ := prepareCheckpoint_eq_ok hformat.artifacts hprepared
  have hchunks := mapM_eq_ok_iff.mp hok
  constructor
  · apply htiles.of_forall₂
    rw [List.forall₂_map_right_iff]
    refine hchunks.imp fun artifact chunk hchunk => ?_
    rw [(publishPoiEventArtifact_eq_ok hformat hpins hchunk).range]
    exact ⟨rfl, rfl⟩
  · intro descriptor hdescriptor
    obtain ⟨chunk, hchunk, rfl⟩ := List.mem_map.mp hdescriptor
    obtain ⟨artifact, hartifact, hpublished⟩ := exists_of_forall₂_right hchunks hchunk
    exact (hall artifact hartifact).holdsEvents
      (publishPoiEventArtifact_eq_ok hformat hpins hpublished)

end

/-- The entry covers the corpus: its checkpoint holds the first events, its tail the others, and its
bridges lead up to the checkpoint. -/
structure Covers (library : PoiLibrary) (corpus : ValidatedCorpus) (entry : PoiManifestEntry) :
    Prop where
  eventCount : entry.eventCount = corpus.eventCount
  checkpoint : HoldsCheckpoint library corpus entry.checkpointCatalog.rowCount entry.checkpointCatalog
  checkpoint_le : entry.checkpointCatalog.rowCount ≤ entry.eventCount
  no_tail : entry.currentTail = none ↔ entry.checkpointCatalog.rowCount = entry.eventCount
  tail : ∀ tail, entry.currentTail = some tail →
    tail.range = ⟨entry.checkpointCatalog.rowCount, entry.eventCount - 1⟩
      ∧ HoldsEvents library corpus tail
  bridges : ∃ first, TilesEvents first entry.checkpointCatalog.rowCount entry.retainedBridges
  bridges_hold : ∀ bridge ∈ entry.retainedBridges, HoldsEvents library corpus bridge
  bridges_bounded : entry.retainedBridges.length ≤ library.maxRetainedBridges

theorem Covers.continues {entry : PoiManifestEntry} (hcovers : Covers library corpus entry) :
    Continues library entry where
  le := hcovers.checkpoint_le
  bridges := hcovers.bridges
  addressed := fun bridge hbridge => (hcovers.bridges_hold bridge hbridge).addressed
  bounded := hcovers.bridges_bounded

/-- How an entry follows the one before it: its events and its checkpoint do not get fewer, and the
checkpoint stays or moves to the events that were published before. -/
structure Follows (previous entry : PoiManifestEntry) : Prop where
  events_le : previous.eventCount ≤ entry.eventCount
  checkpoint_le : previous.checkpointCatalog.rowCount ≤ entry.checkpointCatalog.rowCount
  checkpoint : entry.checkpointCatalog.rowCount = previous.checkpointCatalog.rowCount
    ∨ entry.checkpointCatalog.rowCount = previous.eventCount

theorem publishPoiArtifactEntry_eq_ok {active : Option ActivePoiGraph}
    {published : PublishedPoiEntry} (hformat : KeepsFormat publisher.library)
    (hdistinct : DistinctCids publisher.library) (hpins : PinsByContent publisher)
    (hactive : ∀ graph, active = some graph → Continues publisher.library graph.entry ∧
      RecordedInOrder graph now)
    (hok : publishPoiArtifactEntry publisher corpus now active = .ok published) :
    Covers publisher.library corpus published.entry
      ∧ ∀ graph, active = some graph → Follows graph.entry published.entry := by
  obtain ⟨⟨count, bridges, bridgesReused⟩, hbridges, hok⟩ := bind_eq_ok.mp hok
  obtain ⟨materialized, hmaterialized, hok⟩ := bind_eq_ok.mp hok
  obtain ⟨prepared, hprepared, hok⟩ := bind_eq_ok.mp hok
  obtain ⟨chunks, hchunks, hok⟩ := bind_eq_ok.mp hok
  dsimp only at hok
  split at hok
  · cases hok
  obtain ⟨⟨catalog, catalogBytes⟩, hcatalog, hok⟩ := bind_eq_ok.mp hok
  obtain ⟨⟨descriptor, catalogReused⟩, hdescriptor, hok⟩ := bind_eq_ok.mp hok
  obtain ⟨⟨tail, tailReused⟩, htail, hok⟩ := bind_eq_ok.mp hok
  obtain ⟨⟨blockedShields, blockedReused⟩, -, hok⟩ := bind_eq_ok.mp hok
  obtain ⟨currentRoot, -, hok⟩ := bind_eq_ok.mp hok
  obtain ⟨_, -, hok⟩ := bind_eq_ok.mp hok
  cases hok
  have htaken := checkpointAndBridges_eq_ok hformat hdistinct hpins hactive hbridges
  have hprepared := mapError_eq_ok.mp hprepared
  have hcount := (prepareCheckpoint_eq_ok hformat.artifacts hprepared).1
  obtain ⟨htiles, hholds⟩ := publishCheckpointChunks_eq_ok hformat hpins hprepared hchunks
  obtain ⟨⟨cid, found⟩, hpin, hpublished⟩ := bind_eq_ok.mp hdescriptor
  obtain ⟨foundDescriptor, hfound, hpublished⟩ := bind_eq_ok.mp hpublished
  cases hpublished
  have hfound := mapError_eq_ok.mp hfound
  rw [hpins _ _ _ _ _ hpin] at hfound
  have hcheckpoint := holdsCheckpoint_of_tiles hformat hfound htiles hholds
    (mapError_eq_ok.mp hcatalog)
  obtain ⟨hnone, hsome⟩ := publishCurrentTail_eq_ok hformat hpins hcount htail
  obtain ⟨hfst, hinherited⟩ := materializeBridges_eq_ok hformat hpins hmaterialized
  have hrowCount := hcheckpoint.rowCount
  constructor
  · refine
      { eventCount := rfl
        checkpoint := by rwa [hrowCount]
        checkpoint_le := by rwa [hrowCount]
        no_tail := by rwa [hrowCount]
        tail := by rwa [hrowCount]
        bridges := by
          rw [hrowCount, hfst]
          exact htaken.tiles
        bridges_hold := by
          rw [hfst]
          intro bridge hbridge
          rcases htaken.origin bridge hbridge with hfresh | ⟨graph, hgraph, hmem⟩
          · exact hfresh
          · apply hinherited bridge hbridge
            rw [hgraph]
            exact hmem
        bridges_bounded := by
          rw [hfst]
          exact htaken.bounded }
  · intro graph hgraph
    obtain ⟨hevents, hmoved⟩ := htaken.moved graph hgraph
    have hle := (hactive graph hgraph).1.le
    have hcountLe : graph.entry.checkpointCatalog.rowCount ≤ count := by omega
    rw [← hrowCount] at hmoved hcountLe
    exact ⟨hevents, hcountLe, hmoved⟩

end Entries

/-! ### Runs -/

/-- One cycle that returned an entry: what it was given and whether its entry was then activated. -/
structure PoiCycle where
  publisher : PoiPublisher
  corpus : ValidatedCorpus
  now : Nat
  active : Option ActivePoiGraph
  published : PublishedPoiEntry
  activated : Bool

/-- A cycle is given the entry that was activated last, and pins by content. -/
structure PoiCycleStep (library : PoiLibrary) (previous : Option PoiManifestEntry) (cycle : PoiCycle)
    (next : Option PoiManifestEntry) : Prop where
  library : cycle.publisher.library = library
  pins : PinsByContent cycle.publisher
  active : cycle.active.map ActivePoiGraph.entry = previous
  recorded : ∀ graph, cycle.active = some graph → RecordedInOrder graph cycle.now
  published : publishPoiArtifactEntry cycle.publisher cycle.corpus cycle.now cycle.active
    = .ok cycle.published
  next : next = if cycle.activated then some cycle.published.entry else previous

/-- What a cycle has to show: its entry covers its corpus and follows the active one. -/
structure PoiCycle.Covered (library : PoiLibrary) (cycle : PoiCycle) : Prop where
  covers : Covers library cycle.corpus cycle.published.entry
  follows : ∀ graph, cycle.active = some graph → Follows graph.entry cycle.published.entry

theorem PoiCycleStep.covered {library : PoiLibrary} {previous next : Option PoiManifestEntry}
    {cycle : PoiCycle} (hformat : KeepsFormat library) (hdistinct : DistinctCids library)
    (hprevious : ∀ entry, previous = some entry → Continues library entry)
    (hstep : PoiCycleStep library previous cycle next) :
    cycle.Covered library ∧ ∀ entry, next = some entry → Continues library entry := by
  obtain ⟨rfl, hpins, rfl, hrecorded, hpublished, rfl⟩ := hstep
  have hactive : ∀ graph, cycle.active = some graph →
      Continues cycle.publisher.library graph.entry ∧ RecordedInOrder graph cycle.now := by
    intro graph hgraph
    exact ⟨hprevious graph.entry (by rw [hgraph]; rfl), hrecorded graph hgraph⟩
  obtain ⟨hcovers, hfollows⟩ := publishPoiArtifactEntry_eq_ok hformat hdistinct hpins hactive hpublished
  refine ⟨⟨hcovers, hfollows⟩, fun entry hentry => ?_⟩
  split_ifs at hentry
  · rw [← Option.some.inj hentry]
    exact hcovers.continues
  · exact hprevious entry hentry

/-- **The publication graph stays a contiguous cover**: from the first cycle on, every entry covers
its corpus without a gap, and the checkpoint stays or moves to the end of the active entry. -/
theorem poiGraph_covers {library : PoiLibrary} (hformat : KeepsFormat library)
    (hdistinct : DistinctCids library) {cycles : List PoiCycle} {last : Option PoiManifestEntry}
    (hrun : Run.Reaches (PoiCycleStep library) none cycles last) :
    ∀ cycle ∈ cycles, cycle.Covered library := by
  have hall := hrun.invariant (I := fun cycles last => (∀ cycle ∈ cycles, cycle.Covered library)
    ∧ ∀ entry, last = some entry → Continues library entry) (by simp) ?_
  · exact hall.1
  · rintro earlier previous cycle next ⟨hearlier, hprevious⟩ hstep
    obtain ⟨hcovered, hnext⟩ := hstep.covered hformat hdistinct hprevious
    refine ⟨fun other hother => ?_, hnext⟩
    rcases List.mem_append.mp hother with hother | hother
    · exact hearlier other hother
    · rw [List.mem_singleton.mp hother]
      exact hcovered

/-! ### A small list -/

def smallScope : PoiScope := ⟨0, 1, "V2_PoseidonMerkle", 7⟩

def smallEvents (count : Nat) : List SnapshotEvent :=
  (List.range count).map fun index => ⟨index, 0, 0, .shield⟩

theorem smallEvents_contiguous (count index : Nat) (event : SnapshotEvent)
    (hevent : (smallEvents count)[index]? = some event) : event.eventIndex = index := by
  rw [smallEvents, List.getElem?_map] at hevent
  obtain ⟨number, hnumber, rfl⟩ := Option.map_eq_some_iff.mp hevent
  obtain ⟨_, rfl⟩ := List.getElem?_eq_some_iff.mp hnumber
  exact List.getElem_range _

def smallCorpus (count : Nat) : ValidatedCorpus :=
  ⟨smallScope, smallEvents count, smallEvents_contiguous count⟩

def smallArtifact (kind : EventArtifactKind) (startIndex endIndex : Nat) : EventArtifact where
  scope := smallScope
  kind
  range := ⟨startIndex, endIndex⟩
  startRoot := if startIndex = 0 then none else some (FixedBytes.ofNat startIndex)
  endRoot := FixedBytes.ofNat (endIndex + 1)
  events := (smallEvents (endIndex + 1)).drop startIndex

def smallArtifacts : List EventArtifact :=
  [smallArtifact .checkpoint 0 0, smallArtifact .currentTail 1 1, smallArtifact .checkpoint 0 1,
    smallArtifact .bridge 1 1, smallArtifact .currentTail 2 2, smallArtifact .currentTail 1 2]

def smallDescriptor (artifact : EventArtifact) (cid : String) : EventArtifactDescriptor :=
  ⟨artifact.scope, artifact.kind, artifact.range, artifact.events.length, artifact.startRoot,
    artifact.endRoot, ⟨cid, artifact.events.length, 0⟩⟩

def smallPoiLibrary : PoiLibrary where
  rootAfter events := FixedBytes.ofNat events.length
  newArtifact scope kind startRoot endRoot events := events.head?.elim (.error (.invalid "no events"))
    fun first => .ok ⟨scope, kind, ⟨first.eventIndex, (events.getLastD first).eventIndex⟩, startRoot,
      endRoot, events⟩
  artifactBytes artifact := (smallArtifacts.findIdx? fun known => known = artifact).elim
    (.error (.invalid "unknown artifact")) fun position => .ok (List.replicate position 0)
  artifactDescriptor artifact cid := .ok (smallDescriptor artifact cid)
  newCatalog scope chunks := .ok
    { scope
      range := chunks.head?.bind fun first => chunks.getLast?.map fun last =>
        ⟨first.range.startIndex, last.range.endIndex⟩
      rowCount := (chunks.map EventArtifactDescriptor.rowCount).sum
      checkpointRoot := chunks.getLast?.map EventArtifactDescriptor.endRoot
      chunks }
  catalogBytes _ := .ok []
  catalogDescriptor catalog cid := .ok ⟨catalog.scope, catalog.range, catalog.rowCount,
    catalog.checkpointRoot, ⟨cid, 0, 0⟩⟩
  validateEntry _ := .ok ()
  contentHash _ := 0
  rawBlockCid bytes := String.ofList (List.replicate bytes.length 'b')
  checkpointEventSpan := 2
  maxRetainedBridges := 2
  span_pos := Nat.two_pos

theorem smallPoiLibrary_buildsArtifacts : BuildsArtifacts smallPoiLibrary := by
  intro scope kind startRoot endRoot events artifact hok
  cases events with
  | nil => cases hok
  | cons first rest =>
      cases hok
      exact ⟨rfl, rfl, rfl, rfl, rfl, rfl, by simp [List.getLast?_cons]⟩

theorem smallPoiLibrary_keepsFormat : KeepsFormat smallPoiLibrary where
  artifacts := smallPoiLibrary_buildsArtifacts
  descriptors := by
    intro artifact cid descriptor hok
    cases hok
    exact ⟨rfl, rfl, rfl, rfl, rfl, rfl, rfl⟩
  catalogs := by
    intro scope chunks catalog hok
    cases hok
    exact ⟨rfl, rfl, rfl, rfl, rfl⟩
  catalogDescriptors := by
    intro catalog cid descriptor hok
    cases hok
    exact ⟨rfl, rfl, rfl, rfl, rfl⟩

theorem smallPoiLibrary_artifactBytes {artifact : EventArtifact} {bytes : Bytes}
    (hbytes : smallPoiLibrary.artifactBytes artifact = .ok bytes) :
    smallArtifacts[bytes.length]? = some artifact := by
  dsimp only [smallPoiLibrary] at hbytes
  cases hposition : smallArtifacts.findIdx? fun known => known = artifact with
  | none =>
      rw [hposition] at hbytes
      cases hbytes
  | some position =>
      rw [hposition] at hbytes
      rw [← Except.ok.inj hbytes, List.length_replicate]
      obtain ⟨hlt, hknown, -⟩ := List.findIdx?_eq_some_iff_getElem.mp hposition
      rw [List.getElem?_eq_getElem hlt, of_decide_eq_true hknown]

theorem smallPoiLibrary_distinctCids : DistinctCids smallPoiLibrary := by
  intro artifact other bytes otherBytes hbytes hother hcid
  have hartifact := smallPoiLibrary_artifactBytes hbytes
  have hotherArtifact := smallPoiLibrary_artifactBytes hother
  have hlength : bytes.length = otherBytes.length := by
    have hlists := congrArg (fun cid => cid.toList.length) hcid
    simpa [smallPoiLibrary] using hlists
  rw [hlength, hotherArtifact] at hartifact
  exact (Option.some.inj hartifact).symm

def smallPoiPublisher : PoiPublisher where
  library := smallPoiLibrary
  pin _ _ bytes := .ok (smallPoiLibrary.rawBlockCid bytes, false)
  publishPoiBlockedShields scope := .ok (⟨scope, 0, ⟨"shields", 0, 0⟩⟩, false)
  baseRebuildInterval := 10

theorem smallPoiPublisher_pinsByContent : PinsByContent smallPoiPublisher := by
  intro key root bytes cid reused hok
  exact (Prod.mk.inj (Except.ok.inj hok)).1.symm

def smallCycle (count now : Nat) (active : Option ActivePoiGraph) (published : PublishedPoiEntry) :
    PoiCycle :=
  ⟨smallPoiPublisher, smallCorpus count, now, active, published, true⟩

def smallEntry (count checkpointCount : Nat) (tail : Option EventArtifactDescriptor)
    (bridges : List EventArtifactDescriptor) : PoiManifestEntry where
  scope := smallScope
  eventCount := count
  currentTipIndex := some (count - 1)
  currentRoot := some (FixedBytes.ofNat count)
  checkpointCatalog := ⟨smallScope, some ⟨0, checkpointCount - 1⟩, checkpointCount,
    some (FixedBytes.ofNat checkpointCount), ⟨"", 0, 0⟩⟩
  currentTail := tail
  retainedBridges := bridges
  blockedShields := ⟨smallScope, 0, ⟨"shields", 0, 0⟩⟩

def firstPublished : PublishedPoiEntry where
  entry := smallEntry 1 1 none []
  checkpointChunkCids := [""]
  graphCids := ["", "shields"]
  checkpointBytes := 1
  tailBytes := 0
  reusedCids := 0

def secondPublished : PublishedPoiEntry where
  entry := smallEntry 2 1 (some (smallDescriptor (smallArtifact .currentTail 1 1) "b")) []
  checkpointChunkCids := [""]
  graphCids := ["", "shields", "b"]
  checkpointBytes := 1
  tailBytes := 1
  reusedCids := 0

def rotatedPublished : PublishedPoiEntry where
  entry := smallEntry 3 2 (some (smallDescriptor (smallArtifact .currentTail 2 2) "bbbb"))
    [smallDescriptor (smallArtifact .bridge 1 1) "bbb"]
  checkpointChunkCids := ["bb"]
  graphCids := ["", "shields", "bbb", "bbbb"]
  checkpointBytes := 2
  tailBytes := 1
  reusedCids := 0

def smallActive (published : PublishedPoiEntry) : ActivePoiGraph :=
  ⟨published.entry, 0, fun _ => none⟩

theorem firstPublished_eq : publishPoiArtifactEntry smallPoiPublisher (smallCorpus 1) 0 none
    = .ok firstPublished := by
  decide +kernel

theorem secondPublished_eq : publishPoiArtifactEntry smallPoiPublisher (smallCorpus 2) 5
    (some (smallActive firstPublished)) = .ok secondPublished := by
  decide +kernel

theorem rotatedPublished_eq : publishPoiArtifactEntry smallPoiPublisher (smallCorpus 3) 10
    (some (smallActive secondPublished)) = .ok rotatedPublished := by
  decide +kernel

theorem smallActive_recordedInOrder (published : PublishedPoiEntry) (now : Nat) :
    RecordedInOrder (smallActive published) now where
  recorded := by
    intro cid time htime
    cases htime
  ordered := List.pairwise_of_forall fun _ _ _ _ hearlier => by cases hearlier
  past := by
    intro cid time htime
    cases htime

theorem smallCycle_step {count now : Nat} {active : Option ActivePoiGraph}
    {published : PublishedPoiEntry}
    (hactive : ∀ graph, active = some graph → RecordedInOrder graph now)
    (hok : publishPoiArtifactEntry smallPoiPublisher (smallCorpus count) now active
      = .ok published) :
    PoiCycleStep smallPoiLibrary (active.map ActivePoiGraph.entry)
      (smallCycle count now active published) (some published.entry) where
  library := rfl
  pins := smallPoiPublisher_pinsByContent
  active := rfl
  recorded := hactive
  published := hok
  next := rfl

theorem smallCycles_run : Run.Reaches (PoiCycleStep smallPoiLibrary) none
    [smallCycle 1 0 none firstPublished,
      smallCycle 2 5 (some (smallActive firstPublished)) secondPublished,
      smallCycle 3 10 (some (smallActive secondPublished)) rotatedPublished]
    (some rotatedPublished.entry) := by
  have hrecorded : ∀ (published : PublishedPoiEntry) (now : Nat) (graph : ActivePoiGraph),
      some (smallActive published) = some graph → RecordedInOrder graph now := by
    intro published now graph hgraph
    rw [← Option.some.inj hgraph]
    exact smallActive_recordedInOrder published now
  have hfirst := smallCycle_step (by simp) firstPublished_eq
  have hsecond := smallCycle_step (hrecorded _ 5) secondPublished_eq
  have hrotated := smallCycle_step (hrecorded _ 10) rotatedPublished_eq
  exact (((Run.Reaches.refl).tail hfirst).tail hsecond).tail hrotated

theorem poiGraph_covers_rotated : rotatedPublished.entry.retainedBridges.length = 1
    ∧ (smallCycle 3 10 (some (smallActive secondPublished)) rotatedPublished).Covered
      smallPoiLibrary :=
  ⟨rfl, poiGraph_covers smallPoiLibrary_keepsFormat smallPoiLibrary_distinctCids smallCycles_run _
    (by simp)⟩

end RailgunIndexer
