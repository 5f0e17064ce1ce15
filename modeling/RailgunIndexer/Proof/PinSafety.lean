import RailgunIndexer.Proof.ManifestSequence

/-!
# Pins that are still needed

A CID is unpinned only in a section that has checked it, and while the section holds the lock no
manifest is recorded, so a CID that nothing needed at the check is not needed at the unpin. The checks
differ: the cleanup of an uncommitted pin asks for any reference, a sweep for none that protects the
CID. A pending chain-indexed manifest is protected by neither, but its CID is that of no other row, so
no table has it stale.
-/

namespace RailgunIndexer

open Lib

/-! ### What is needed -/

/-- The manifest is neither superseded nor unpinned, as the pending and the active one are, and the CID
is its own or that of one of its artifacts. -/
def ManifestRow.Needs {β : Type} (row : ManifestRow β) (cid : String) : Prop :=
  row.isKept = true ∧ (row.cid = cid ∨ cid ∈ row.artifactCids)

def PublicationTables.Needs (tables : PublicationTables) (cid : String) : Prop :=
  (∃ row ∈ tables.poiManifests, row.Needs cid) ∨ ∃ row ∈ tables.indexedManifests, row.Needs cid

theorem ManifestRow.Advances.needs_of_later {β : Type} {row later : ManifestRow β} {cid : String}
    (hrow : row.Advances later) (hneeds : later.Needs cid) : row.Needs cid := by
  obtain ⟨hkept, hcid⟩ := hneeds
  obtain ⟨hsuperseded, hunpinned⟩ := ManifestRow.isKept_iff.mp hkept
  rw [hrow.cid, hrow.artifactCids] at hcid
  refine ⟨ManifestRow.isKept_iff.mpr ⟨?_, ?_⟩, hcid⟩
  · by_contra hne
    exact hne ((hrow.superseded hne).symm.trans hsuperseded)
  · by_contra hne
    exact hne ((hrow.unpinned hne).symm.trans hunpinned)

theorem exists_needs_of_forall₂ {β : Type} {rows later : List (ManifestRow β)} {cid : String}
    (hrows : List.Forall₂ ManifestRow.Advances rows later) (hneeds : ∃ row ∈ later, row.Needs cid) :
    ∃ row ∈ rows, row.Needs cid := by
  obtain ⟨row, hrow, hneeds⟩ := hneeds
  obtain ⟨old, hold, hadvances⟩ := Fallible.exists_of_forall₂_right hrows hrow
  exact ⟨old, hold, hadvances.needs_of_later hneeds⟩

theorem not_referenced_rows {cid : String} {tables : PublicationTables}
    (hreferenced : Audit.publicationCidIsReferenced cid tables = false) :
    (∀ row ∈ tables.poiManifests, row.unpinnedAt = none → ¬ (row.cid = cid ∨ cid ∈ row.artifactCids))
      ∧ ∀ row ∈ tables.indexedManifests, row.unpinnedAt = none →
        ¬ (row.cid = cid ∨ cid ∈ row.artifactCids) := by
  simp only [Audit.publicationCidIsReferenced, Bool.or_eq_false_iff, List.any_eq_false,
    Bool.and_eq_true, decide_eq_true_eq, Option.isNone_iff_eq_none, List.contains_iff_mem,
    not_and] at hreferenced
  obtain ⟨⟨⟨⟨⟨-, hindexedCid⟩, -⟩, hpoiCid⟩, hindexedEdge⟩, hpoiEdge⟩ := hreferenced
  refine ⟨fun row hrow hunpinned => ?_, fun row hrow hunpinned => ?_⟩
  · rintro (hcid | hcid)
    · exact hpoiCid row hrow hcid hunpinned
    · exact hpoiEdge row hrow hcid hunpinned
  · rintro (hcid | hcid)
    · exact hindexedCid row hrow hcid hunpinned
    · exact hindexedEdge row hrow hcid hunpinned

theorem not_needs_of_not_referenced {cid : String} {tables : PublicationTables}
    (hreferenced : Audit.publicationCidIsReferenced cid tables = false) : ¬ tables.Needs cid := by
  obtain ⟨hpoi, hindexed⟩ := not_referenced_rows hreferenced
  rintro (⟨row, hrow, hkept, hcid⟩ | ⟨row, hrow, hkept, hcid⟩)
  · exact hpoi row hrow (ManifestRow.isKept_iff.mp hkept).2 hcid
  · exact hindexed row hrow (ManifestRow.isKept_iff.mp hkept).2 hcid

/-! ### What the tables address -/

section Addressed

variable {library : PoiLibrary} {content : String → PublishedContent} {s next : PublicationState}
  {event : PublicationEvent}

theorem exists_of_liveArtifactCid {κ μ : Type} {accepts : ArtifactRow κ μ → Bool}
    {rows : List (ArtifactRow κ μ)} {cid : String}
    (hcid : Audit.liveArtifactCid accepts rows = some cid) :
    ∃ row ∈ rows, row.isLive = true ∧ accepts row = true ∧ row.cid = cid := by
  obtain ⟨row, hrow, hrowCid⟩ := Option.map_eq_some_iff.mp hcid
  obtain ⟨hmem, hcondition⟩ := List.mem_filter.mp (List.argmax_mem hrow)
  rw [Bool.and_eq_true] at hcondition
  exact ⟨row, hmem, hcondition.1, hcondition.2, hrowCid⟩

theorem exists_of_livePoiArtifactCid {key : PoiArtifactKey} {byteSize : Nat} {contentHash : Bytes32}
    {endRoot : Option Bytes32} {tables : PublicationTables} {cid : String}
    (hlive : Audit.livePoiArtifactCid key byteSize contentHash endRoot tables = .ok (some cid)) :
    ∃ row ∈ tables.poiArtifacts, row.key = key ∧ row.metadata.contentHash = contentHash
      ∧ row.cid = cid := by
  obtain ⟨_, -, hlive⟩ := Fallible.bind_eq_ok.mp hlive
  obtain ⟨row, hrow, -, haccepts, hcid⟩ := exists_of_liveArtifactCid (Except.ok.inj hlive)
  simp only [Bool.and_eq_true, decide_eq_true_eq] at haccepts
  exact ⟨row, hrow, haccepts.1.1.1, haccepts.1.2, hcid⟩

theorem exists_of_liveIndexedArtifactCid {key : IndexedArtifactKey} {metadata : IndexedArtifactMetadata}
    {tables : PublicationTables} {cid : String}
    (hlive : Audit.liveIndexedArtifactCid key metadata tables = .ok (some cid)) :
    ∃ row ∈ tables.indexedArtifacts, row.metadata = metadata ∧ row.cid = cid := by
  obtain ⟨_, -, hlive⟩ := Fallible.bind_eq_ok.mp hlive
  obtain ⟨row, hrow, -, haccepts, hcid⟩ := exists_of_liveArtifactCid (Except.ok.inj hlive)
  simp only [Bool.and_eq_true, decide_eq_true_eq] at haccepts
  exact ⟨row, hrow, haccepts.2, hcid⟩

/-- The content hash and the CID of the artifact that the section is about, and whether it pinned it. -/
def PinSection.artifact? : PinSection → Option (Bytes32 × String × Bool)
  | .poiArtifact _ metadata cid owned => some (metadata.contentHash, cid, owned)
  | .indexedArtifact _ metadata cid owned => some (metadata.contentHash, cid, owned)
  | _ => none

theorem PublicationStep.artifact_cases {contentHash : Bytes32} {cid : String} {owned : Bool}
    (hstep : PublicationStep library content s event next)
    (hlocked : next.pinLock.bind PinSection.artifact? = some (contentHash, cid, owned)) :
    s.pinLock.bind PinSection.artifact? = some (contentHash, cid, owned)
      ∨ (∃ row ∈ s.tables.poiArtifacts, row.metadata.contentHash = contentHash ∧ row.cid = cid)
      ∨ (∃ row ∈ s.tables.indexedArtifacts, row.metadata.contentHash = contentHash ∧ row.cid = cid)
      ∨ content cid = .artifact ∧ owned = true := by
  cases hstep.sectionChange with
  | kept hlock => exact .inl (hlock ▸ hlocked)
  | released hlock | cleanup hlock =>
      rw [hlock] at hlocked
      cases hlocked
  | entered hlock _ hentry =>
      rw [hlock] at hlocked
      cases hentry with
      | poiArtifact hcid =>
          cases hlocked
          rcases hcid with hlive | ⟨hcontent, -, rfl⟩
          · obtain ⟨row, hrow, -, hfound⟩ := exists_of_livePoiArtifactCid hlive
            exact .inr (.inl ⟨row, hrow, hfound⟩)
          · exact .inr (.inr (.inr ⟨hcontent, rfl⟩))
      | indexedArtifact hcid =>
          cases hlocked
          rcases hcid with hlive | hpinned
          · obtain ⟨row, hrow, rfl, hcid⟩ := exists_of_liveIndexedArtifactCid hlive
            exact .inr (.inr (.inl ⟨row, hrow, rfl, hcid⟩))
          · exact .inr (.inr (.inr hpinned))
      | _ => cases hlocked

theorem ArtifactChange.row_cases {κ μ : Type} [DecidableEq κ] {locked : κ → μ → String → Prop}
    {abandoned : String → Prop} {rows later : List (ArtifactRow κ μ)} {row : ArtifactRow κ μ}
    (hchange : ArtifactChange s locked abandoned rows later) (hrow : row ∈ later) :
    (∃ old ∈ rows, old.key = row.key ∧ old.metadata = row.metadata ∧ old.cid = row.cid)
      ∨ locked row.key row.metadata row.cid := by
  cases hchange with
  | same => exact .inl ⟨row, hrow, rfl, rfl, rfl⟩
  | marked | abandoned =>
      obtain ⟨old, hold, rfl⟩ := Table.mem_update.mp hrow
      refine .inl ⟨old, hold, ?_⟩
      split_ifs <;> exact ⟨rfl, rfl, rfl⟩
  | referenced hlocked hkept =>
      rw [Audit.upsertArtifact] at hrow
      split_ifs at hrow
      · obtain ⟨old, hold, rfl⟩ := Table.mem_update.mp hrow
        split_ifs with hsame
        · simp only [Bool.and_eq_true, decide_eq_true_eq] at hsame
          rcases hkept old.metadata with hmetadata | hmetadata
          · exact .inl ⟨old, hold, rfl, hmetadata.symm, rfl⟩
          · rw [← hsame.1, ← hsame.2, ← hmetadata] at hlocked
            exact .inr hlocked
        · exact .inl ⟨old, hold, rfl, rfl, rfl⟩
      · rcases List.mem_append.mp hrow with hrow | hrow
        · exact .inl ⟨row, hrow, rfl, rfl, rfl⟩
        · rw [List.mem_singleton.mp hrow]
          exact .inr hlocked

structure ArtifactsOk (content : String → PublishedContent) (s : PublicationState) : Prop where
  poi : ∀ row ∈ s.tables.poiArtifacts, content row.cid = .artifact
  indexed : ∀ row ∈ s.tables.indexedArtifacts, content row.cid = .artifact
  locked : ∀ contentHash cid owned,
    s.pinLock.bind PinSection.artifact? = some (contentHash, cid, owned) → content cid = .artifact

theorem PublicationStep.artifactsOk (hok : ArtifactsOk content s)
    (hstep : PublicationStep library content s event next) : ArtifactsOk content next where
  poi := by
    intro row hrow
    rcases hstep.tablesChange.poiArtifacts.row_cases hrow with ⟨old, hold, -, -, hcid⟩
      | ⟨owned, hlock⟩
    · rw [← hcid]
      exact hok.poi old hold
    · exact hok.locked row.metadata.contentHash row.cid owned (hlock ▸ rfl)
  indexed := by
    intro row hrow
    rcases hstep.tablesChange.indexedArtifacts.row_cases hrow with ⟨old, hold, -, -, hcid⟩
      | ⟨owned, hlock⟩
    · rw [← hcid]
      exact hok.indexed old hold
    · exact hok.locked row.metadata.contentHash row.cid owned (hlock ▸ rfl)
  locked := by
    intro contentHash cid owned hlocked
    rcases hstep.artifact_cases hlocked with hbefore | ⟨row, hrow, -, rfl⟩ | ⟨row, hrow, -, rfl⟩
      | ⟨hcontent, -⟩
    · exact hok.locked contentHash cid owned hbefore
    · exact hok.poi row hrow
    · exact hok.indexed row hrow
    · exact hcontent

/-! ### What a sweep takes up -/

theorem candidate_cases {cid : String} {cutoff : Nat} (hartifacts : ArtifactsOk content s)
    (hcandidate : Retention.isCandidate cutoff cid s.tables = true) :
    content cid = .artifact ∧ (Retention.staleArtifact cutoff cid s.tables.poiArtifacts = true
        ∨ Retention.staleArtifact cutoff cid s.tables.indexedArtifacts = true)
      ∨ (∃ row ∈ s.tables.poiManifests, row.cid = cid ∧ ∃ time ∈ row.supersededAt, time ≤ cutoff)
      ∨ ∃ row ∈ s.tables.indexedManifests, row.cid = cid ∧ ∃ time ∈ row.supersededAt, time ≤ cutoff := by
  have hartifact : ∀ {κ μ : Type} {rows : List (ArtifactRow κ μ)},
      (∀ row ∈ rows, content row.cid = .artifact) →
      Retention.staleArtifact cutoff cid rows = true → content cid = .artifact := by
    intro κ μ rows hrows hstale
    simp only [Retention.staleArtifact, Bool.and_eq_true, List.any_eq_true, decide_eq_true_eq] at hstale
    obtain ⟨⟨row, hrow, hcid, -⟩, -⟩ := hstale
    exact hcid ▸ hrows row hrow
  have hmanifest : ∀ {β : Type} {rows : List (ManifestRow β)},
      Retention.staleManifest cutoff cid rows = true →
      ∃ row ∈ rows, row.cid = cid ∧ ∃ time ∈ row.supersededAt, time ≤ cutoff := by
    intro β rows hstale
    simp only [Retention.staleManifest, Retention.isStaleManifest, Bool.and_eq_true, List.any_eq_true,
      decide_eq_true_eq, Option.any_eq_true] at hstale
    obtain ⟨row, hrow, hcid, -, time, htime, hle⟩ := hstale
    exact ⟨row, hrow, hcid, time, htime, hle⟩
  simp only [Retention.isCandidate, Bool.or_eq_true] at hcandidate
  rcases hcandidate with ((hstale | hstale) | hstale) | hstale
  · exact .inr (.inr (hmanifest hstale))
  · exact .inl ⟨hartifact hartifacts.indexed hstale, .inr hstale⟩
  · exact .inr (.inl (hmanifest hstale))
  · exact .inl ⟨hartifact hartifacts.poi hstale, .inl hstale⟩

theorem ChannelOk.eq_of_cid {β : Type} {kind : Nat → PublishedContent} {rows : List (ManifestRow β)}
    {row other : ManifestRow β} (hchannel : ChannelOk content kind rows)
    (hkind : Function.Injective kind) (hrow : row ∈ rows) (hother : other ∈ rows)
    (hcid : row.cid = other.cid) : row = other := by
  apply Table.eq_of_pairwise_lt hchannel.sequences hrow hother
  apply hkind
  rw [← hchannel.addressed row hrow, ← hchannel.addressed other hother, hcid]

theorem ChannelsOk.stale {cid : String} {cutoff : Nat} (hchannels : ChannelsOk content s)
    (hartifacts : ArtifactsOk content s)
    (hcandidate : Retention.isCandidate cutoff cid s.tables = true) :
    (∀ row ∈ s.tables.poiManifests, row.cid = cid → ∃ time ∈ row.supersededAt, time ≤ cutoff)
      ∧ ∀ row ∈ s.tables.indexedManifests, row.cid = cid →
        ∃ time ∈ row.supersededAt, time ≤ cutoff := by
  have hpoi : ∀ row ∈ s.tables.poiManifests, row.cid = cid →
      content cid = .poiManifest row.ipnsSequence :=
    fun row hrow hcid => hcid ▸ hchannels.poi.addressed row hrow
  have hindexed : ∀ row ∈ s.tables.indexedManifests, row.cid = cid →
      content cid = .indexedManifest row.ipnsSequence :=
    fun row hrow hcid => hcid ▸ hchannels.indexed.addressed row hrow
  rcases candidate_cases hartifacts hcandidate with ⟨hcontent, -⟩ | ⟨stale, hmem, hstale, htime⟩
    | ⟨stale, hmem, hstale, htime⟩
  · constructor <;> intro row hrow hcid
    · cases hcontent.symm.trans (hpoi row hrow hcid)
    · cases hcontent.symm.trans (hindexed row hrow hcid)
  · constructor <;> intro row hrow hcid
    · rwa [hchannels.poi.eq_of_cid (fun _ _ => PublishedContent.poiManifest.inj) hrow hmem
        (hcid.trans hstale.symm)]
    · cases (hpoi stale hmem hstale).symm.trans (hindexed row hrow hcid)
  · constructor <;> intro row hrow hcid
    · cases (hpoi row hrow hcid).symm.trans (hindexed stale hmem hstale)
    · rwa [hchannels.indexed.eq_of_cid (fun _ _ => PublishedContent.indexedManifest.inj) hrow hmem
        (hcid.trans hstale.symm)]

theorem not_needs_of_stillEligible {cid : String} {cutoff : Nat} (hchannels : ChannelsOk content s)
    (hartifacts : ArtifactsOk content s)
    (heligible : Retention.stillEligible cutoff cid s.tables = true) : ¬ s.tables.Needs cid := by
  rw [Retention.stillEligible, Bool.and_eq_true, Bool.not_eq_true'] at heligible
  obtain ⟨hcandidate, hunprotected⟩ := heligible
  simp only [Retention.isProtected, Retention.referencedByKept, Retention.keptManifest,
    Bool.or_eq_false_iff, List.any_eq_false, Bool.and_eq_true, decide_eq_true_eq,
    List.contains_iff_mem, not_and] at hunprotected
  obtain ⟨⟨⟨⟨-, hindexedEdge⟩, hpoiCid⟩, -⟩, hpoiEdge⟩ := hunprotected
  rintro (⟨row, hrow, hkept, hcid | hcid⟩ | ⟨row, hrow, hkept, hcid | hcid⟩)
  · exact hpoiCid row hrow hcid hkept
  · exact hpoiEdge row hrow hcid hkept
  · obtain ⟨time, htime, -⟩ := (hchannels.stale hartifacts hcandidate).2 row hrow hcid
    rw [(ManifestRow.isKept_iff.mp hkept).1] at htime
    cases htime
  · exact hindexedEdge row hrow hcid hkept

/-! ### Sections that unpin -/

def PinSection.unpinned : PinSection → Option String
  | .cleanupUnpin cid | .debtUnpin cid | .sweepUnpin cid _ _ | .sweepMark cid _ _ => some cid
  | _ => none

def UnpinsUnneeded (s : PublicationState) : Prop :=
  ∀ entered ∈ s.pinLock, ∀ cid ∈ entered.unpinned, ¬ s.tables.Needs cid

theorem PublicationStep.needs_of_later {entered : PinSection} {cid unpinned : String}
    (hchannels : ChannelsOk content s) (hlock : s.pinLock = some entered)
    (hunpinned : unpinned ∈ entered.unpinned) (hstep : PublicationStep library content s event next)
    (hneeds : next.tables.Needs cid) : s.tables.Needs cid := by
  have hpoi : ∀ row, ¬ s.RecordsPoi library row := by
    rintro _ ⟨_, _, _, _, _, hother, -⟩
    rw [hlock] at hother
    rw [Option.some.inj hother] at hunpinned
    cases hunpinned
  have hindexed : ∀ row, ¬ s.RecordsIndexed library row := by
    rintro _ ⟨_, _, _, _, hother, -⟩
    rw [hlock] at hother
    rw [Option.some.inj hother] at hunpinned
    cases hunpinned
  rcases hneeds with hneeds | hneeds
  · exact .inl (exists_needs_of_forall₂ ((hchannels.poiChange hstep).forall₂ hpoi) hneeds)
  · exact .inr (exists_needs_of_forall₂ ((hchannels.indexedChange hstep).forall₂ hindexed) hneeds)

theorem PublicationStep.unpinned_cases {entered : PinSection} {cid : String}
    (hstep : PublicationStep library content s event next) (hentered : entered ∈ next.pinLock)
    (hcid : cid ∈ entered.unpinned) :
    (∃ before ∈ s.pinLock, cid ∈ before.unpinned)
      ∨ next.tables = s.tables ∧ (Audit.publicationCidIsReferenced cid s.tables = false
        ∨ ∃ cutoff now, s.pinLock = some (.sweep cid cutoff now)
          ∧ Retention.stillEligible cutoff cid s.tables = true) := by
  cases hstep.sectionChange with
  | kept hlock => exact .inl ⟨entered, hlock ▸ hentered, hcid⟩
  | released hlock =>
      rw [hlock] at hentered
      cases hentered
  | cleanup hlock =>
      rw [hlock] at hentered
      cases hentered
      cases hcid
  | entered hlock htables hentry =>
      rw [hlock] at hentered
      cases hentered
      cases hentry with
      | cleanupUnpin hreferenced | debtUnpin hreferenced =>
          cases hcid
          exact .inr ⟨htables, .inl hreferenced⟩
      | sweepUnpin hsweep heligible =>
          cases hcid
          exact .inr ⟨htables, .inr ⟨_, _, hsweep, heligible⟩⟩
      | sweepMark hunpin => exact .inl ⟨_, hunpin, hcid⟩
      | _ => cases hcid

theorem PublicationStep.unpinsUnneeded (hchannels : ChannelsOk content s)
    (hartifacts : ArtifactsOk content s) (hunneeded : UnpinsUnneeded s)
    (hstep : PublicationStep library content s event next) : UnpinsUnneeded next := by
  intro entered hentered cid hcid hneeds
  rcases hstep.unpinned_cases hentered hcid with ⟨before, hbefore, hunpinned⟩
    | ⟨htables, hreferenced | ⟨cutoff, _, -, heligible⟩⟩
  · exact hunneeded before hbefore cid hunpinned
      (hstep.needs_of_later hchannels hbefore hunpinned hneeds)
  · exact not_needs_of_not_referenced hreferenced (htables ▸ hneeds)
  · exact not_needs_of_stillEligible hchannels hartifacts heligible (htables ▸ hneeds)

/-! ### Runs -/

structure PinsOk (content : String → PublishedContent) (s : PublicationState) : Prop where
  channels : ChannelsOk content s
  artifacts : ArtifactsOk content s
  unneeded : UnpinsUnneeded s

theorem pinsOk_started (clock : Nat) : PinsOk content (.started .empty clock) where
  channels := channelsOk_started clock
  artifacts := by constructor <;> simp [PublicationState.started, PublicationTables.empty]
  unneeded := by simp [UnpinsUnneeded, PublicationState.started]

theorem PublicationStep.pinsOk (hok : PinsOk content s)
    (hstep : PublicationStep library content s event next) : PinsOk content next where
  channels := hstep.channelsOk hok.channels
  artifacts := hstep.artifactsOk hok.artifacts
  unneeded := hstep.unpinsUnneeded hok.channels hok.artifacts hok.unneeded

theorem pinsOk_of_reaches {clock : Nat} {events : List PublicationEvent}
    (hrun : Run.Reaches (PublicationStep library content) (.started .empty clock) events s) :
    PinsOk content s :=
  hrun.invariant (I := fun _ s => PinsOk content s) (pinsOk_started clock)
    fun _ _ _ _ hok hstep => hstep.pinsOk hok

theorem PublicationStep.unpinned_of_unpin {cid : String} {retention : Bool}
    (hstep : PublicationStep library content s (.unpin cid retention) next) :
    ∃ entered ∈ s.pinLock, cid ∈ entered.unpinned := by
  cases hstep with
  | poi hstep | indexed hstep => cases hstep
  | cleanup hstep =>
      cases hstep with
      | unpin hlock => exact ⟨_, hlock, rfl⟩
  | sweeper hstep =>
      cases hstep with
      | debtUnpin hlock | unpin hlock => exact ⟨_, hlock, rfl⟩

/-- **No pin is removed that a manifest needs.** -/
theorem not_needs_of_unpin {clock : Nat} {events : List PublicationEvent} {cid : String}
    {retention : Bool}
    (hrun : Run.Reaches (PublicationStep library content) (.started .empty clock) events s)
    (hstep : PublicationStep library content s (.unpin cid retention) next) : ¬ s.tables.Needs cid := by
  obtain ⟨entered, hentered, hcid⟩ := hstep.unpinned_of_unpin
  exact (pinsOk_of_reaches hrun).unneeded entered hentered cid hcid

end Addressed

/-! ### A replaced manifest

The first manifest references a chunk, and the second one, which replaces it much later, does not. -/

section Replaced

open Run

def replacedContent (cid : String) : PublishedContent :=
  if cid = "first" then .indexedManifest 5
  else if cid = "second" then .indexedManifest 6
  else .artifact

def replacedKey : IndexedArtifactKey := ⟨.chunk, .commitments, ⟨1, 7⟩, ⟨.block, 0, 9⟩⟩

def replacedChunk : IndexedArtifactRow := ⟨replacedKey, "chunk", ⟨0, 0, 1⟩, 0, 0, none⟩

def replacedRow (cid : String) (sequence : Nat) (artifactCids : List String)
    (ipnsPublishedAt supersededAt : Option Nat) : IndexedManifestRow :=
  { cid, ipnsSequence := sequence, byteSize := 0, contentHash := 0, body := some [], artifactCids,
    ipnsPublishedAt, supersededAt }

def replacedState (clock : Nat) (last : Option Nat) (indexed : IndexedTask)
    (artifacts : List IndexedArtifactRow) (rows : List IndexedManifestRow) : PublicationState :=
  { PublicationState.started
      { PublicationTables.empty with
        indexedArtifacts := artifacts
        indexedManifests := rows
        chainIndexedIpnsLastSequence := last } clock with
    indexed
    lastIpnsSequence := last
    ipnsSequenceLoaded := last.isSome }

@[simp]
theorem replacedState_indexedManifests {clock : Nat} {last : Option Nat} {indexed : IndexedTask}
    {artifacts : List IndexedArtifactRow} {rows : List IndexedManifestRow} :
    (replacedState clock last indexed artifacts rows).tables.indexedManifests = rows := rfl

@[simp]
theorem replacedState_clock {clock : Nat} {last : Option Nat} {indexed : IndexedTask}
    {artifacts : List IndexedArtifactRow} {rows : List IndexedManifestRow} :
    (replacedState clock last indexed artifacts rows).clock = clock := rfl

abbrev ReplacedRun := Reaches (InstantStep smallPoiLibrary replacedContent)

def firstRow (ipnsPublishedAt : Option Nat) : IndexedManifestRow :=
  replacedRow "first" 5 ["chunk"] ipnsPublishedAt none

theorem reaches_firstRecorded :
    ReplacedRun (.started .empty 0) [.silent, .silent, .silent, .silent, .silent, .silent]
      (replacedState 0 (some 5) (.recorded "first" 5) [replacedChunk] [firstRow none]) := by
  have hstart : ReplacedRun (.started .empty 0) [.silent]
      (replacedState 0 none (.publishing [] false) [] []) :=
    reaches_indexedPublishing rfl (by rfl)
  have hchunk : ReplacedRun (replacedState 0 none (.publishing [] false) [] []) [.silent, .silent]
      (replacedState 0 none (.publishing ["chunk"] false) [replacedChunk] []) :=
    @reaches_indexedArtifact _ replacedContent _ [] replacedKey ⟨0, 0, 1⟩ "chunk" _ rfl rfl (by rfl)
      (by rfl)
  have hrecord : ReplacedRun (replacedState 0 none (.publishing ["chunk"] false) [replacedChunk] [])
      [.silent, .silent, .silent]
      (replacedState 0 (some 5) (.recorded "first" 5) [replacedChunk] [firstRow none]) :=
    @reaches_indexedManifest _ replacedContent _ ["chunk"] 5 "first" [] _ _ rfl rfl (by rfl) (by rfl)
      (by rfl)
  exact (hstart.trans hchunk).trans hrecord

theorem first_activated :
    InstantStep smallPoiLibrary replacedContent
      (replacedState 0 (some 5) (.recorded "first" 5) [replacedChunk] [firstRow none])
      (.indexedActivated "first" 5)
      (replacedState 0 (some 5) .idle [replacedChunk] [firstRow (some 0)]) :=
  ⟨.indexed (.activate rfl (by rfl)), rfl⟩

def replacedAt : Nat := 100000000000

def replacedRows (artifactCids : List String) : List IndexedManifestRow :=
  [replacedRow "first" 5 ["chunk"] (some 0) (some replacedAt),
    replacedRow "second" 6 artifactCids (some replacedAt) none]

/-- The first manifest is published, and a cycle begins or has not begun. -/
def afterFirst (indexed : IndexedTask) (chunk : IndexedArtifactRow) : PublicationState :=
  replacedState replacedAt (some 5) indexed [chunk] [firstRow (some 0)]

def secondPending (chunk : IndexedArtifactRow) (artifactCids : List String) : PublicationState :=
  replacedState replacedAt (some 6) (.recorded "second" 6) [chunk]
    [firstRow (some 0), replacedRow "second" 6 artifactCids none none]

def afterSecond (chunk : IndexedArtifactRow) (artifactCids : List String) : PublicationState :=
  replacedState replacedAt (some 6) .idle [chunk] (replacedRows artifactCids)

theorem reaches_secondCycle : ReplacedRun (afterFirst .idle replacedChunk) [.silent]
    (afterFirst (.publishing [] false) replacedChunk) :=
  reaches_indexedPublishing rfl (by rfl)

theorem reaches_second :
    ReplacedRun (afterFirst .idle replacedChunk)
      [.silent, .silent, .silent, .silent, .indexedActivated "second" 6]
      (afterSecond replacedChunk []) := by
  have hrecord : ReplacedRun (afterFirst (.publishing [] false) replacedChunk)
      [.silent, .silent, .silent] (secondPending replacedChunk []) :=
    @reaches_indexedManifest _ replacedContent _ [] 0 "second" [] _ _ rfl rfl (by rfl) (by rfl) (by rfl)
  have hactivate : ReplacedRun (secondPending replacedChunk []) [.indexedActivated "second" 6]
      (afterSecond replacedChunk []) :=
    reaches_indexedActivation rfl (by rfl)
  exact (reaches_secondCycle.trans hrecord).trans hactivate

def replacedSweep : PublicationState :=
  { afterSecond replacedChunk [] with
    pinLock := some (.sweepUnpin "chunk" 90000000000 replacedAt)
    sweeper := .sweeping replacedAt 90000000000 [] }

theorem replacedSweep_staleCids :
    Retention.staleCids 90000000000 (afterSecond replacedChunk []).tables = ["chunk"] := by
  decide +kernel

theorem reaches_replacedSweep :
    ReplacedRun (afterSecond replacedChunk [])
      [.sweepStarted 10000000000, .silent, .silent, .silent] replacedSweep :=
  reaches_sweepUnpin rfl rfl rfl (by rfl) replacedSweep_staleCids (by decide +kernel)

theorem not_needs_of_unpin_replaced : ¬ replacedSweep.tables.Needs "chunk" :=
  not_needs_of_unpin (((reaches_of_instant (reaches_firstRecorded.tail first_activated)).tail .tick).trans
    (reaches_of_instant (reaches_second.trans reaches_replacedSweep)))
    (.sweeper (@SweeperStep.unpin _ _ _ _ true rfl))

end Replaced

end RailgunIndexer
