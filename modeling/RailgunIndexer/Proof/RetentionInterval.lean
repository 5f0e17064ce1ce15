import RailgunIndexer.Proof.PinSafety

/-!
# The retention interval

A manifest is stale an interval after it was superseded, an artifact an interval after it was last
referenced, and the two times have nothing to do with each other. While the manifest that references it
is active, an artifact is protected however old its last reference is. Once that manifest is replaced by
one that does not reference it, nothing protects the artifact any more, and the next sweep removes it
although the replaced manifest is to be kept for the interval.

The interval is kept in the runs in which every replacement leaves each artifact of the replaced
manifest referenced by a manifest that is kept, or referenced too recently to become stale in time.
-/

namespace RailgunIndexer

open Lib

/-! ### What is to be kept -/

/-- The manifest was active and was superseded less than the interval ago, and the CID is its own or that
of one of its artifacts. -/
def ManifestRow.Holds {β : Type} (row : ManifestRow β) (retentionInterval clock : Nat) (cid : String) :
    Prop :=
  row.ipnsPublishedAt ≠ none ∧ (∃ time ∈ row.supersededAt, clock < time + retentionInterval)
    ∧ (row.cid = cid ∨ cid ∈ row.artifactCids)

def PublicationState.Holds (s : PublicationState) (retentionInterval : Nat) (cid : String) : Prop :=
  (∃ row ∈ s.tables.poiManifests, row.Holds retentionInterval s.clock cid)
    ∨ ∃ row ∈ s.tables.indexedManifests, row.Holds retentionInterval s.clock cid

/-- No sweep that starts less than the interval after the time finds the artifact stale. -/
def FreshArtifact {κ μ : Type} (retentionInterval time : Nat) (cid : String)
    (rows : List (ArtifactRow κ μ)) : Prop :=
  ∀ now cutoff, now < time + retentionInterval →
    Retention.cutoff now retentionInterval = .ok cutoff → Retention.staleArtifact cutoff cid rows = false

/-- A manifest that is kept references the artifact, or both tables have it fresh. -/
def Guarded (retentionInterval time : Nat) (cid : String) (tables : PublicationTables) : Prop :=
  Retention.referencedByKept cid tables.poiManifests = true
    ∨ Retention.referencedByKept cid tables.indexedManifests = true
    ∨ FreshArtifact retentionInterval time cid tables.poiArtifacts
      ∧ FreshArtifact retentionInterval time cid tables.indexedArtifacts

structure HistoryStep (library : PoiLibrary) (content : String → PublishedContent)
    (retentionInterval : Nat) (s : PublicationState) (event : PublicationEvent)
    (next : PublicationState) : Prop where
  step : PublicationStep library content s event next
  clock : s.clock ≤ next.clock
  sweep : ∀ interval, event = .sweepStarted interval → interval = retentionInterval

/-- An activation leaves the artifacts of the manifests it supersedes guarded. -/
structure GuardingStep (library : PoiLibrary) (content : String → PublishedContent)
    (retentionInterval : Nat) (s : PublicationState) (event : PublicationEvent)
    (next : PublicationState) : Prop
    extends HistoryStep library content retentionInterval s event next where
  poi : ∀ cid sequence, event = .poiActivated cid sequence → ∀ row ∈ next.tables.poiManifests,
    row.supersededAt = some s.clock → ∀ artifactCid ∈ row.artifactCids,
      Guarded retentionInterval s.clock artifactCid next.tables
  indexed : ∀ cid sequence, event = .indexedActivated cid sequence →
    ∀ row ∈ next.tables.indexedManifests, row.supersededAt = some s.clock →
      ∀ artifactCid ∈ row.artifactCids, Guarded retentionInterval s.clock artifactCid next.tables

/-! ### Fresh artifacts stay fresh -/

theorem Retention.cutoff_add_le {now retentionInterval cutoff : Nat}
    (hcutoff : Retention.cutoff now retentionInterval = .ok cutoff) :
    cutoff + retentionInterval ≤ now := by
  rw [Retention.cutoff] at hcutoff
  split_ifs at hcutoff
  have hseconds : cutoff = Retention.unixSeconds (now - retentionInterval) :=
    (Except.ok.inj hcutoff).symm
  rw [hseconds, Retention.unixSeconds]
  omega

section Fresh

variable {κ μ : Type} {rows : List (ArtifactRow κ μ)} {cutoff : Nat} {cid : String}

theorem Retention.staleArtifact_iff :
    Retention.staleArtifact cutoff cid rows = true
      ↔ (∃ row ∈ rows, row.cid = cid ∧ row.isLive = true)
        ∧ ∀ row ∈ rows, row.cid = cid → row.isLive = true → row.lastReferencedAt ≤ cutoff := by
  simp only [Retention.staleArtifact, Bool.and_eq_true, List.any_eq_true, List.all_eq_true,
    decide_eq_true_eq, Bool.or_eq_true, Bool.not_eq_true', Bool.eq_false_iff, ne_eq]
  refine and_congr_right fun _ => forall₂_congr fun row _ => ?_
  tauto

theorem staleArtifact_of_unpinned {condition : ArtifactRow κ μ → Bool} {time : Nat}
    (hstale : Retention.staleArtifact cutoff cid
      (Table.update condition (fun row => { row with unpinnedAt := some time }) rows) = true)
    (hunpinned : ∀ row ∈ rows, row.cid = cid → row.isLive = true → condition row = true →
      ∀ kept ∈ rows, kept.cid = cid → kept.isLive = true → condition kept = false →
        kept.lastReferencedAt ≤ cutoff → row.lastReferencedAt ≤ cutoff) :
    Retention.staleArtifact cutoff cid rows = true := by
  rw [Retention.staleArtifact_iff] at hstale ⊢
  obtain ⟨⟨later, hlater, hcid, hlive⟩, hall⟩ := hstale
  obtain ⟨kept, hkept, rfl⟩ := Table.mem_update.mp hlater
  have hcondition : condition kept = false := by
    rw [Bool.eq_false_iff]
    intro hcondition
    rw [if_pos hcondition] at hlive
    cases hlive
  have hsame : (if condition kept then { kept with unpinnedAt := some time } else kept) = kept := by
    simp [hcondition]
  rw [hsame] at hlater hcid hlive
  refine ⟨⟨kept, hkept, hcid, hlive⟩, fun row hrow hrowCid hrowLive => ?_⟩
  by_cases hrowCondition : condition row = true
  · exact hunpinned row hrow hrowCid hrowLive hrowCondition kept hkept hcid hlive hcondition
      (hall kept hlater hcid hlive)
  · refine hall row (Table.mem_update.mpr ⟨row, hrow, ?_⟩) hrowCid hrowLive
    rw [if_neg hrowCondition]

variable [DecidableEq κ]

theorem exists_mem_upsertArtifact {now : Nat} {key : κ} {metadata : μ} {kept : μ → μ} :
    ∃ row ∈ Audit.upsertArtifact now key cid metadata kept rows,
      row.cid = cid ∧ row.key = key ∧ row.isLive = true ∧ row.lastReferencedAt = now := by
  rw [Audit.upsertArtifact]
  split_ifs with hany
  · obtain ⟨row, hrow, hsame⟩ := List.any_eq_true.mp hany
    refine ⟨_, Table.mem_update.mpr ⟨row, hrow, if_pos hsame⟩, ?_⟩
    rw [Bool.and_eq_true, decide_eq_true_eq, decide_eq_true_eq] at hsame
    exact ⟨hsame.2, hsame.1, rfl, rfl⟩
  · exact ⟨_, List.mem_append_right _ List.mem_cons_self, rfl, rfl, rfl, rfl⟩

theorem mem_upsertArtifact_of_ne {now : Nat} {key : κ} {referenced : String} {metadata : μ}
    {kept : μ → μ} {row : ArtifactRow κ μ} (hne : row.cid ≠ referenced) :
    row ∈ Audit.upsertArtifact now key referenced metadata kept rows ↔ row ∈ rows := by
  rw [Audit.upsertArtifact]
  split_ifs
  · rw [Table.mem_update]
    constructor
    · rintro ⟨old, hold, rfl⟩
      split_ifs at hne ⊢ with hsame
      · simp only [Bool.and_eq_true, decide_eq_true_eq] at hsame
        exact absurd hsame.2 hne
      · exact hold
    · intro hrow
      refine ⟨row, hrow, if_neg ?_⟩
      simp [hne]
  · rw [List.mem_append, List.mem_singleton]
    refine ⟨fun hrow => hrow.resolve_right fun hnew => hne (by rw [hnew]), .inl⟩

theorem staleArtifact_of_upsert {now : Nat} {key : κ} {referenced : String} {metadata : μ}
    {kept : μ → μ} (hnow : cutoff < now)
    (hstale : Retention.staleArtifact cutoff cid
      (Audit.upsertArtifact now key referenced metadata kept rows) = true) :
    Retention.staleArtifact cutoff cid rows = true := by
  rw [Retention.staleArtifact_iff] at hstale ⊢
  obtain ⟨⟨row, hrow, hcid, hlive⟩, hall⟩ := hstale
  by_cases hsame : referenced = cid
  · subst hsame
    obtain ⟨fresh, hfresh, hfreshCid, -, hfreshLive, htime⟩ :=
      @exists_mem_upsertArtifact κ μ rows referenced _ now key metadata kept
    have hle := hall fresh hfresh hfreshCid hfreshLive
    omega
  · have hmem : ∀ other : ArtifactRow κ μ, other.cid = cid →
        (other ∈ Audit.upsertArtifact now key referenced metadata kept rows ↔ other ∈ rows) := by
      intro other hother
      exact mem_upsertArtifact_of_ne fun heq => hsame (heq.symm.trans hother)
    refine ⟨⟨row, (hmem row hcid).mp hrow, hcid, hlive⟩, fun other hother hotherCid hotherLive => ?_⟩
    exact hall other ((hmem other hotherCid).mpr hother) hotherCid hotherLive

theorem ArtifactChange.fresh {s : PublicationState} {locked : κ → μ → String → Prop}
    {abandoned : String → Prop} {later : List (ArtifactRow κ μ)} {retentionInterval time : Nat}
    (htime : time ≤ s.clock) (hfresh : FreshArtifact retentionInterval time cid rows)
    (hchange : ArtifactChange s locked abandoned rows later) :
    FreshArtifact retentionInterval time cid later := by
  intro now cutoff hnow hcutoff
  rw [Bool.eq_false_iff]
  intro hstale
  have hle := Retention.cutoff_add_le hcutoff
  refine Bool.eq_false_iff.mp (hfresh now cutoff hnow hcutoff) ?_
  cases hchange with
  | same => exact hstale
  | referenced => exact staleArtifact_of_upsert (by omega) hstale
  | marked =>
      refine staleArtifact_of_unpinned hstale
        fun row _ hcid _ hmarked kept _ hkeptCid hkeptLive hunmarked hkeptStale => ?_
      simp only [Bool.and_eq_true, decide_eq_true_eq] at hmarked
      simp only [hkeptCid, hkeptLive, ← hmarked.1.1, hcid, decide_true, Bool.and_self, Bool.true_and,
        decide_eq_false_iff_not] at hunmarked
      omega
  | abandoned habandoned =>
      refine staleArtifact_of_unpinned hstale
        fun row hrow hcid _ hmarked kept hkept hkeptCid hkeptLive hunmarked _ => ?_
      rw [(habandoned row hrow hmarked).2 kept hkept (hkeptCid.trans hcid.symm) hkeptLive] at hunmarked
      cases hunmarked

end Fresh

/-! ### The times of a sweep -/

def SweepTask.times : SweepTask → Option (Nat × Nat)
  | .idle => none
  | .retrying now cutoff _ | .sweeping now cutoff _ => some (now, cutoff)

def PinSection.times : PinSection → Option (Nat × Nat)
  | .sweep _ cutoff now | .sweepUnpin _ cutoff now | .sweepMark _ cutoff now => some (now, cutoff)
  | _ => none

section Sweeps

variable {library : PoiLibrary} {content : String → PublishedContent} {retentionInterval : Nat}
  {s next : PublicationState} {event : PublicationEvent}
  {β : Type} {rows : List (ManifestRow β)} {cid : String}

theorem PublicationStep.sweepTimes {times : Nat × Nat}
    (hstep : PublicationStep library content s event next) (htimes : times ∈ next.sweeper.times) :
    times ∈ s.sweeper.times ∨ ∃ interval, event = .sweepStarted interval
      ∧ times.1 = s.clock ∧ Retention.cutoff s.clock interval = .ok times.2 := by
  cases hstep with
  | poi hstep | indexed hstep | cleanup hstep =>
      have hsame : next.sweeper = s.sweeper := by cases hstep <;> rfl
      exact .inl (hsame ▸ htimes)
  | sweeper hstep =>
      cases hstep with
      | start _ hcutoff =>
          rw [← Option.some.inj htimes]
          exact .inr ⟨_, rfl, rfl, hcutoff⟩
      | lockDebt _ hsweeper | lockCid _ hsweeper | readStale hsweeper =>
          rw [hsweeper]
          exact .inl htimes
      | debtReferenced | debtUnreferenced | debtUnpin | debtSettle | eligible | ineligible | unpin
      | mark => exact .inl htimes
      | debtUnknown | stop => cases htimes
  | tick => exact .inl htimes
  | restart => cases htimes

structure SweepsOk (retentionInterval : Nat) (s : PublicationState) : Prop where
  sweeper : ∀ times ∈ s.sweeper.times, times.1 ≤ s.clock
    ∧ Retention.cutoff times.1 retentionInterval = .ok times.2
  locked : ∀ entered ∈ s.pinLock, ∀ times ∈ entered.times, times.1 ≤ s.clock
    ∧ Retention.cutoff times.1 retentionInterval = .ok times.2

theorem HistoryStep.sweepsOk (hok : SweepsOk retentionInterval s)
    (hstep : HistoryStep library content retentionInterval s event next) :
    SweepsOk retentionInterval next := by
  have hlater : ∀ times : Nat × Nat,
      times.1 ≤ s.clock ∧ Retention.cutoff times.1 retentionInterval = .ok times.2 →
      times.1 ≤ next.clock ∧ Retention.cutoff times.1 retentionInterval = .ok times.2 :=
    fun times htimes => ⟨htimes.1.trans hstep.clock, htimes.2⟩
  refine ⟨fun times htimes => ?_, fun entered hentered times htimes => ?_⟩
  · rcases hstep.step.sweepTimes htimes with hbefore | ⟨interval, hevent, hnow, hcutoff⟩
    · exact hlater times (hok.sweeper times hbefore)
    · rw [hstep.sweep interval hevent] at hcutoff
      exact hlater times ⟨hnow.le, hnow ▸ hcutoff⟩
  · cases hstep.step.sectionChange with
    | kept hlock => exact hlater times (hok.locked entered (hlock ▸ hentered) times htimes)
    | released hlock =>
        rw [hlock] at hentered
        cases hentered
    | cleanup hlock =>
        rw [hlock] at hentered
        rw [← Option.some.inj hentered] at htimes
        cases htimes
    | entered hlock _ hentry =>
        rw [hlock] at hentered
        cases hentered
        cases hentry with
        | poiArtifact | indexedArtifact | poiManifest | indexedManifest | cleanupUnpin | cleanupDebt
        | debt | debtUnpin | debtSettle => cases htimes
        | sweep hsweeper =>
            refine hlater times (hok.sweeper times ?_)
            rw [hsweeper]
            exact htimes
        | sweepUnpin hbefore | sweepMark hbefore =>
            exact hlater times (hok.locked _ hbefore times htimes)

/-! ### Guards stay -/

theorem Retention.referencedByKept_iff :
    Retention.referencedByKept cid rows = true
      ↔ ∃ row ∈ rows, cid ∈ row.artifactCids ∧ row.isKept = true := by
  simp [Retention.referencedByKept]

theorem ManifestChange.referencedByKept {kind : Nat → PublishedContent}
    {records : ManifestRow β → Prop} {activation : String → Nat → Prop}
    {later : List (ManifestRow β)}
    (hchange : ManifestChange content s kind records activation rows later)
    (hreferenced : Retention.referencedByKept cid rows = true) :
    Retention.referencedByKept cid later = true ∨ (∃ active sequence, activation active sequence)
      ∧ ∃ row ∈ later, row.supersededAt = some s.clock ∧ cid ∈ row.artifactCids := by
  obtain ⟨row, hrow, hcid, hkept⟩ := Retention.referencedByKept_iff.mp hreferenced
  obtain ⟨hsuperseded, hunpinned⟩ := ManifestRow.isKept_iff.mp hkept
  obtain ⟨other, hother, hrowStep⟩ := hchange.exists_later hrow
  have hcidLater : cid ∈ other.artifactCids := hrowStep.advances.artifactCids ▸ hcid
  rcases hrowStep.superseded with hsame | ⟨-, hnow, hactivation⟩
  · refine .inl (Retention.referencedByKept_iff.mpr ⟨other, hother, hcidLater, ?_⟩)
    rw [hsuperseded] at hsame
    refine ManifestRow.isKept_iff.mpr ⟨hsame, ?_⟩
    rcases hrowStep.unpinned with hunpinnedSame | ⟨_, _, _, -, time, htime, -⟩
    · exact hunpinnedSame.trans hunpinned
    · rw [hsame] at htime
      cases htime
  · exact .inr ⟨hactivation, other, hother, hnow, hcidLater⟩

theorem Guarded.of_later {time later : Nat} {tables : PublicationTables}
    (hle : time ≤ later) (hguarded : Guarded retentionInterval later cid tables) :
    Guarded retentionInterval time cid tables := by
  rcases hguarded with hpoi | hindexed | ⟨hpoi, hindexed⟩
  · exact .inl hpoi
  · exact .inr (.inl hindexed)
  · refine .inr (.inr ⟨fun now cutoff hnow => ?_, fun now cutoff hnow => ?_⟩)
    · exact hpoi now cutoff (by omega)
    · exact hindexed now cutoff (by omega)

theorem GuardingStep.guarded {time : Nat} (hchannels : ChannelsOk content s)
    (hstep : GuardingStep library content retentionInterval s event next) (htime : time ≤ s.clock)
    (hguarded : Guarded retentionInterval time cid s.tables) :
    Guarded retentionInterval time cid next.tables := by
  rcases hguarded with hpoi | hindexed | ⟨hpoi, hindexed⟩
  · rcases (hchannels.poiChange hstep.step).referencedByKept hpoi with hkept | hreplaced
    · exact .inl hkept
    · obtain ⟨⟨active, sequence, hactivation⟩, row, hrow, hnow, hcid⟩ := hreplaced
      exact (hstep.poi active sequence hactivation row hrow hnow cid hcid).of_later htime
  · rcases (hchannels.indexedChange hstep.step).referencedByKept hindexed with hkept | hreplaced
    · exact .inr (.inl hkept)
    · obtain ⟨⟨active, sequence, hactivation⟩, row, hrow, hnow, hcid⟩ := hreplaced
      exact (hstep.indexed active sequence hactivation row hrow hnow cid hcid).of_later htime
  · have hchange := hstep.step.tablesChange
    exact .inr (.inr ⟨hchange.poiArtifacts.fresh htime hpoi,
      hchange.indexedArtifacts.fresh htime hindexed⟩)

/-! ### Superseded manifests -/

/-- The rows of a channel reference artifacts, were superseded before, are marked an interval after that
at the earliest, and once superseded have their artifacts guarded. -/
structure RowsRetained {β : Type} (content : String → PublishedContent) (retentionInterval : Nat)
    (s : PublicationState) (rows : List (ManifestRow β)) : Prop where
  artifacts : ∀ row ∈ rows, ∀ cid ∈ row.artifactCids, content cid = .artifact
  times : ∀ row ∈ rows, ∀ time ∈ row.supersededAt, time ≤ s.clock
  swept : ∀ row ∈ rows, row.unpinnedAt ≠ none →
    ∃ time ∈ row.supersededAt, time + retentionInterval ≤ s.clock
  guarded : ∀ row ∈ rows, ∀ time ∈ row.supersededAt, ∀ cid ∈ row.artifactCids,
    Guarded retentionInterval time cid s.tables

theorem RowsRetained.step {β : Type} {kind : Nat → PublishedContent} {records : ManifestRow β → Prop}
    {activation : String → Nat → Prop} {rows later : List (ManifestRow β)}
    (hretained : RowsRetained content retentionInterval s rows) (hsweeps : SweepsOk retentionInterval s)
    (hclock : s.clock ≤ next.clock)
    (hartifacts : ∀ row, records row → ∀ cid ∈ row.artifactCids, content cid = .artifact)
    (hguarded : ∀ time cid, time ≤ s.clock → Guarded retentionInterval time cid s.tables →
      Guarded retentionInterval time cid next.tables)
    (hnew : ∀ active sequence, activation active sequence → ∀ row ∈ later,
      row.supersededAt = some s.clock → ∀ cid ∈ row.artifactCids,
        Guarded retentionInterval s.clock cid next.tables)
    (hchange : ManifestChange content s kind records activation rows later) :
    RowsRetained content retentionInterval next later := by
  have hpending : ∀ {row : ManifestRow β}, row.isPending = true →
      row.supersededAt = none ∧ row.unpinnedAt = none := by
    intro row hpending
    obtain ⟨-, hsuperseded, hunpinned, -⟩ := ManifestRow.isPending_iff.mp hpending
    exact ⟨hsuperseded, hunpinned⟩
  constructor
  case artifacts =>
    intro row hrow
    rcases hchange.row_cases hrow with ⟨hrecords, -⟩ | ⟨old, hold, hrowStep⟩
    · exact hartifacts row hrecords
    · rw [hrowStep.advances.artifactCids]
      exact hretained.artifacts old hold
  case times =>
    intro row hrow time htime
    rcases hchange.row_cases hrow with ⟨-, hfresh⟩ | ⟨old, hold, hrowStep⟩
    · rw [(hpending hfresh).1] at htime
      cases htime
    · rcases hrowStep.superseded with hsame | ⟨-, hnow, -⟩
      · exact (hretained.times old hold time (hsame ▸ htime)).trans hclock
      · rw [hnow] at htime
        exact (Option.some.inj htime).symm.le.trans hclock
  case swept =>
    intro row hrow hne
    rcases hchange.row_cases hrow with ⟨-, hfresh⟩ | ⟨old, hold, hrowStep⟩
    · exact absurd (hpending hfresh).2 hne
    · rcases hrowStep.unpinned with hsame | ⟨cid, cutoff, now, hlock, time, htime, hle⟩
      · rw [hsame] at hne
        obtain ⟨time, htime, hle⟩ := hretained.swept old hold hne
        have hsuperseded := hrowStep.advances.superseded (by simp [Option.mem_def.mp htime])
        exact ⟨time, hsuperseded ▸ htime, hle.trans hclock⟩
      · obtain ⟨hnow, hcutoff⟩ := hsweeps.locked _ hlock (now, cutoff) rfl
        have hinterval := Retention.cutoff_add_le hcutoff
        exact ⟨time, htime, by omega⟩
  case guarded =>
    intro row hrow time htime cid hcid
    rcases hchange.row_cases hrow with ⟨-, hfresh⟩ | ⟨old, hold, hrowStep⟩
    · rw [(hpending hfresh).1] at htime
      cases htime
    · rcases hrowStep.superseded with hsame | ⟨-, hnow, active, sequence, hactivation⟩
      · have hbefore : time ∈ old.supersededAt := hsame ▸ htime
        refine hguarded time cid (hretained.times old hold time hbefore) ?_
        exact hretained.guarded old hold time hbefore cid (hrowStep.advances.artifactCids ▸ hcid)
      · have hat : time = s.clock := Option.some.inj (htime.symm.trans hnow)
        rw [hat]
        exact hnew active sequence hactivation row hrow hnow cid hcid

/-! ### What a sweep takes up -/

structure Retained (content : String → PublishedContent) (retentionInterval : Nat)
    (s : PublicationState) : Prop where
  pins : PinsOk content s
  sweeps : SweepsOk retentionInterval s
  poi : RowsRetained content retentionInterval s s.tables.poiManifests
  indexed : RowsRetained content retentionInterval s s.tables.indexedManifests

section

variable (hretained : Retained content retentionInterval s)
  {cid : String}

include hretained

theorem Retained.not_guarded {now cutoff time : Nat}
    (hcutoff : Retention.cutoff now retentionInterval = .ok cutoff)
    (heligible : Retention.stillEligible cutoff cid s.tables = true)
    (hcontent : content cid = .artifact) (hnow : now < time + retentionInterval) :
    ¬ Guarded retentionInterval time cid s.tables := by
  rw [Retention.stillEligible, Bool.and_eq_true, Bool.not_eq_true'] at heligible
  obtain ⟨hcandidate, hunprotected⟩ := heligible
  simp only [Retention.isProtected, Bool.or_eq_false_iff] at hunprotected
  obtain ⟨⟨⟨⟨-, hindexedEdge⟩, -⟩, -⟩, hpoiEdge⟩ := hunprotected
  rintro (hpoi | hindexed | ⟨hpoi, hindexed⟩)
  · rw [hpoi] at hpoiEdge
    cases hpoiEdge
  · rw [hindexed] at hindexedEdge
    cases hindexedEdge
  · rcases candidate_cases hretained.pins.artifacts hcandidate with ⟨-, hstale | hstale⟩ | hother | hother
    · rw [hpoi now cutoff hnow hcutoff] at hstale
      cases hstale
    · rw [hindexed now cutoff hnow hcutoff] at hstale
      cases hstale
    · obtain ⟨row, hrow, hcid, -⟩ := hother
      have hmanifest := hretained.pins.channels.poi.addressed row hrow
      rw [hcid, hcontent] at hmanifest
      cases hmanifest
    · obtain ⟨row, hrow, hcid, -⟩ := hother
      have hmanifest := hretained.pins.channels.indexed.addressed row hrow
      rw [hcid, hcontent] at hmanifest
      cases hmanifest

theorem Retained.not_holds_of_stillEligible {now cutoff : Nat} (hnow : now ≤ s.clock)
    (hcutoff : Retention.cutoff now retentionInterval = .ok cutoff)
    (heligible : Retention.stillEligible cutoff cid s.tables = true) :
    ¬ s.Holds retentionInterval cid := by
  have hinterval := Retention.cutoff_add_le hcutoff
  have hcandidate : Retention.isCandidate cutoff cid s.tables = true := by
    rw [Retention.stillEligible, Bool.and_eq_true] at heligible
    exact heligible.1
  obtain ⟨hchannels, hartifacts, -⟩ := hretained.pins
  rintro (⟨row, hrow, -, ⟨time, htime, hclock⟩, hcid | hcid⟩
    | ⟨row, hrow, -, ⟨time, htime, hclock⟩, hcid | hcid⟩)
  · obtain ⟨stale, hstale, hle⟩ := (hchannels.stale hartifacts hcandidate).1 row hrow hcid
    have hsame : time = stale := Option.some.inj (htime.symm.trans hstale)
    omega
  · exact hretained.not_guarded hcutoff heligible (hretained.poi.artifacts row hrow cid hcid)
      (by omega) (hretained.poi.guarded row hrow time htime cid hcid)
  · obtain ⟨stale, hstale, hle⟩ := (hchannels.stale hartifacts hcandidate).2 row hrow hcid
    have hsame : time = stale := Option.some.inj (htime.symm.trans hstale)
    omega
  · exact hretained.not_guarded hcutoff heligible (hretained.indexed.artifacts row hrow cid hcid)
      (by omega) (hretained.indexed.guarded row hrow time htime cid hcid)

theorem Retained.not_holds_of_not_referenced
    (hreferenced : Audit.publicationCidIsReferenced cid s.tables = false) :
    ¬ s.Holds retentionInterval cid := by
  obtain ⟨hpoi, hindexed⟩ := not_referenced_rows hreferenced
  have hkept : ∀ {β : Type} {rows : List (ManifestRow β)} {row : ManifestRow β} {time : Nat},
      RowsRetained content retentionInterval s rows → row ∈ rows → time ∈ row.supersededAt →
      s.clock < time + retentionInterval → row.unpinnedAt = none := by
    intro β rows row time hrows hrow htime hclock
    by_contra hne
    obtain ⟨swept, hswept, hle⟩ := hrows.swept row hrow hne
    have hsame : time = swept := Option.some.inj (htime.symm.trans hswept)
    omega
  rintro (⟨row, hrow, -, ⟨time, htime, hclock⟩, hcid⟩ | ⟨row, hrow, -, ⟨time, htime, hclock⟩, hcid⟩)
  · exact hpoi row hrow (hkept hretained.poi hrow htime hclock) hcid
  · exact hindexed row hrow (hkept hretained.indexed hrow htime hclock) hcid

end

/-! ### Runs -/

theorem retained_started (clock : Nat) : Retained content retentionInterval (.started .empty clock) where
  pins := pinsOk_started clock
  sweeps := ⟨by simp [PublicationState.started, SweepTask.times], by simp [PublicationState.started]⟩
  poi := by constructor <;> simp [PublicationState.started, PublicationTables.empty]
  indexed := by constructor <;> simp [PublicationState.started, PublicationTables.empty]

theorem GuardingStep.retained (hretained : Retained content retentionInterval s)
    (hstep : GuardingStep library content retentionInterval s event next) :
    Retained content retentionInterval next where
  pins := hstep.step.pinsOk hretained.pins
  sweeps := hstep.toHistoryStep.sweepsOk hretained.sweeps
  poi := by
    refine hretained.poi.step hretained.sweeps hstep.clock ?_
      (fun time cid => hstep.guarded hretained.pins.channels) hstep.poi
      (hretained.pins.channels.poiChange hstep.step)
    rintro _ ⟨_, _, graph, _, _, -, -, hrecord, rfl⟩ cid hcid
    obtain ⟨row, hrow, -, rfl⟩ := hrecord.live cid (List.mem_dedup.mp hcid)
    exact hretained.pins.artifacts.poi row hrow
  indexed := by
    refine hretained.indexed.step hretained.sweeps hstep.clock ?_
      (fun time cid => hstep.guarded hretained.pins.channels) hstep.indexed
      (hretained.pins.channels.indexedChange hstep.step)
    rintro _ ⟨_, artifactCids, _, _, -, -, hrecord, rfl⟩ cid hcid
    obtain ⟨row, hrow, -, rfl⟩ := hrecord.live cid (List.mem_dedup.mp hcid)
    exact hretained.pins.artifacts.indexed row hrow

theorem ManifestChange.holds {kind : Nat → PublishedContent} {records : ManifestRow β → Prop}
    {activation : String → Nat → Prop} {later : List (ManifestRow β)}
    (hchannel : ChannelOk content kind rows) (hclock : s.clock ≤ next.clock)
    (hchange : ManifestChange content s kind records activation rows later)
    (hholds : ∃ row ∈ later, row.Holds retentionInterval next.clock cid) :
    (∃ row ∈ rows, row.Holds retentionInterval s.clock cid) ∨ ∃ row ∈ rows, row.Needs cid := by
  obtain ⟨row, hrow, hpublished, ⟨time, htime, hlt⟩, hcid⟩ := hholds
  rcases hchange.row_cases hrow with ⟨-, hfresh⟩ | ⟨old, hold, hrowStep⟩
  · rw [(ManifestRow.isPending_iff.mp hfresh).2.1] at htime
    cases htime
  · rw [hrowStep.advances.cid, hrowStep.advances.artifactCids] at hcid
    rcases hrowStep.superseded with hsame | ⟨hnone, -⟩
    · have hbefore : time ∈ old.supersededAt := hsame ▸ htime
      have hretired : old.Retired := .inl (by simp [Option.mem_def.mp hbefore])
      rw [hrowStep.advances.not_activated hretired] at hpublished
      exact .inl ⟨old, hold, hpublished, ⟨time, hbefore, by omega⟩, hcid⟩
    · refine .inr ⟨old, hold, ManifestRow.isKept_iff.mpr ⟨hnone, ?_⟩, hcid⟩
      by_contra hne
      exact hchannel.unpinned old hold hne hnone

theorem PublicationState.Holds.of_later (htables : next.tables = s.tables)
    (hclock : s.clock ≤ next.clock) (hholds : next.Holds retentionInterval cid) :
    s.Holds retentionInterval cid := by
  rw [PublicationState.Holds, htables] at hholds
  rcases hholds with ⟨row, hrow, hpublished, ⟨time, htime, hlt⟩, hcid⟩
    | ⟨row, hrow, hpublished, ⟨time, htime, hlt⟩, hcid⟩
  · exact .inl ⟨row, hrow, hpublished, ⟨time, htime, by omega⟩, hcid⟩
  · exact .inr ⟨row, hrow, hpublished, ⟨time, htime, by omega⟩, hcid⟩

def UnpinsUnheld (retentionInterval : Nat) (s : PublicationState) : Prop :=
  ∀ entered ∈ s.pinLock, ∀ cid ∈ entered.unpinned, ¬ s.Holds retentionInterval cid

theorem GuardingStep.unpinsUnheld (hretained : Retained content retentionInterval s)
    (hunheld : UnpinsUnheld retentionInterval s)
    (hstep : GuardingStep library content retentionInterval s event next) :
    UnpinsUnheld retentionInterval next := by
  intro entered hentered cid hcid hholds
  rcases hstep.step.unpinned_cases hentered hcid with ⟨before, hbefore, hunpinned⟩
    | ⟨htables, hentry⟩
  · have hunneeded := hretained.pins.unneeded before hbefore cid hunpinned
    rcases hholds with hholds | hholds
    · rcases (hretained.pins.channels.poiChange hstep.step).holds hretained.pins.channels.poi
        hstep.clock hholds with hheld | hneeds
      · exact hunheld before hbefore cid hunpinned (.inl hheld)
      · exact hunneeded (.inl hneeds)
    · rcases (hretained.pins.channels.indexedChange hstep.step).holds
        hretained.pins.channels.indexed hstep.clock hholds with hheld | hneeds
      · exact hunheld before hbefore cid hunpinned (.inr hheld)
      · exact hunneeded (.inr hneeds)
  · have hbefore := hholds.of_later htables hstep.clock
    rcases hentry with hreferenced | ⟨cutoff, now, hsweep, heligible⟩
    · exact hretained.not_holds_of_not_referenced hreferenced hbefore
    · obtain ⟨hnow, hcutoff⟩ := hretained.sweeps.locked _ hsweep (now, cutoff) rfl
      exact hretained.not_holds_of_stillEligible hnow hcutoff heligible hbefore

theorem retained_of_reaches {clock : Nat} {events : List PublicationEvent}
    (hrun : Run.Reaches (GuardingStep library content retentionInterval) (.started .empty clock)
      events s) :
    Retained content retentionInterval s ∧ UnpinsUnheld retentionInterval s := by
  refine hrun.invariant (I := fun _ s => Retained content retentionInterval s
    ∧ UnpinsUnheld retentionInterval s)
    ⟨retained_started clock, by simp [UnpinsUnheld, PublicationState.started]⟩
    fun _ _ _ _ hok hstep => ⟨hstep.retained hok.1, hstep.unpinsUnheld hok.1 hok.2⟩

/-- **While every replacement leaves the replaced artifacts guarded, a superseded manifest keeps its
whole graph pinned for the retention interval.** -/
theorem not_holds_of_unpin {clock : Nat} {events : List PublicationEvent} {retention : Bool}
    (hrun : Run.Reaches (GuardingStep library content retentionInterval) (.started .empty clock)
      events s)
    (hstep : PublicationStep library content s (.unpin cid retention) next) :
    ¬ s.Holds retentionInterval cid := by
  obtain ⟨entered, hentered, hcid⟩ := hstep.unpinned_of_unpin
  exact (retained_of_reaches hrun).2 entered hentered cid hcid

end Sweeps

/-! ### A chunk that is replaced -/

section Replaced

open Run

variable {s : PublicationState}

def replacedInterval : Nat := 10000000000

theorem historyStep_of_instant {start : PublicationState} {events : List PublicationEvent}
    (hrun : ReplacedRun start events s)
    (hsweep : ∀ interval, .sweepStarted interval ∈ events → interval = replacedInterval) :
    Reaches (HistoryStep smallPoiLibrary replacedContent replacedInterval) start events s := by
  refine hrun.mono fun event hevent state next hstep => ⟨hstep.1, hstep.2.ge, ?_⟩
  rintro interval rfl
  exact hsweep interval hevent

/-- The replaced manifest is to be kept for ten more seconds, and its chunk is unpinned at once. -/
theorem sweep_unpins_replaced_chunk :
    ∃ events next, Reaches (HistoryStep smallPoiLibrary replacedContent replacedInterval)
        (.started .empty 0) events replacedSweep
      ∧ HistoryStep smallPoiLibrary replacedContent replacedInterval replacedSweep
        (.unpin "chunk" true) next
      ∧ replacedSweep.Holds replacedInterval "chunk" := by
  have hfirst := historyStep_of_instant (reaches_firstRecorded.tail first_activated) (by simp)
  have hsecond := historyStep_of_instant (reaches_second.trans reaches_replacedSweep)
    (by simp [replacedInterval])
  refine ⟨_, _, (hfirst.tail ⟨.tick, Nat.zero_le _, by simp⟩).trans hsecond,
    ⟨.sweeper (@SweeperStep.unpin _ _ _ _ true rfl), le_rfl, by simp⟩, .inr ?_⟩
  exact ⟨_, List.mem_cons_self, by simp [replacedRow], ⟨replacedAt, rfl, by decide⟩,
    .inr List.mem_cons_self⟩

theorem guardingStep_of_instant {start : PublicationState} {events : List PublicationEvent}
    (hrun : ReplacedRun start events s)
    (hsweep : ∀ interval, .sweepStarted interval ∈ events → interval = replacedInterval)
    (hpoi : ∀ cid sequence, .poiActivated cid sequence ∉ events)
    (hindexed : ∀ cid sequence, .indexedActivated cid sequence ∉ events) :
    Reaches (GuardingStep smallPoiLibrary replacedContent replacedInterval) start events s := by
  refine (historyStep_of_instant hrun hsweep).mono fun event hevent state next hstep => ⟨hstep, ?_, ?_⟩
  · rintro cid sequence rfl
    exact absurd hevent (hpoi cid sequence)
  · rintro cid sequence rfl
    exact absurd hevent (hindexed cid sequence)

def sharedChunk : IndexedArtifactRow := { replacedChunk with lastReferencedAt := replacedAt }

theorem reaches_sharedRecorded :
    ReplacedRun (afterFirst .idle replacedChunk)
      [.silent, .silent, .silent, .silent, .silent, .silent]
      (secondPending sharedChunk ["chunk"]) := by
  have hchunk : ReplacedRun (afterFirst (.publishing [] false) replacedChunk) [.silent, .silent]
      (afterFirst (.publishing ["chunk"] false) sharedChunk) :=
    @reaches_indexedArtifact _ replacedContent _ [] replacedKey ⟨0, 0, 1⟩ "chunk" _ rfl rfl (by rfl)
      (by rfl)
  have hrecord : ReplacedRun (afterFirst (.publishing ["chunk"] false) sharedChunk)
      [.silent, .silent, .silent] (secondPending sharedChunk ["chunk"]) :=
    @reaches_indexedManifest _ replacedContent _ ["chunk"] 0 "second" [] _ _ rfl rfl (by rfl) (by rfl)
      (by rfl)
  exact (reaches_secondCycle.trans hchunk).trans hrecord

theorem shared_activated :
    InstantStep smallPoiLibrary replacedContent (secondPending sharedChunk ["chunk"])
      (.indexedActivated "second" 6) (afterSecond sharedChunk ["chunk"]) :=
  ⟨.indexed (.activate rfl (by rfl)), rfl⟩

theorem guardingStep_of_activated {cid : String} {sequence : Nat} {next : PublicationState}
    (hstep : InstantStep smallPoiLibrary replacedContent s (.indexedActivated cid sequence) next)
    (hguarded : ∀ row ∈ next.tables.indexedManifests, row.supersededAt = some s.clock →
      ∀ artifactCid ∈ row.artifactCids,
        Guarded replacedInterval s.clock artifactCid next.tables) :
    GuardingStep smallPoiLibrary replacedContent replacedInterval s (.indexedActivated cid sequence)
      next :=
  ⟨⟨hstep.1, hstep.2.ge, by simp⟩, by simp, fun _ _ _ => hguarded⟩

/-- The two manifests, a hundred seconds later. -/
def sharedLater : PublicationState :=
  { afterSecond sharedChunk ["chunk"] with clock := 200000000000 }

def sharedSweep : PublicationState :=
  { sharedLater with
    pinLock := some (.sweepUnpin "first" 190000000000 200000000000)
    sweeper := .sweeping 200000000000 190000000000 [] }

theorem reaches_sharedSweep :
    Reaches (GuardingStep smallPoiLibrary replacedContent replacedInterval) sharedLater
      [.sweepStarted replacedInterval, .silent, .silent, .silent] sharedSweep := by
  refine guardingStep_of_instant ?_ (by simp) (by simp) (by simp)
  exact reaches_sweepUnpin rfl rfl rfl (by rfl) (by decide +kernel) (by decide +kernel)

theorem not_holds_of_unpin_shared : ¬ sharedSweep.Holds replacedInterval "first" := by
  have hfirst := (guardingStep_of_instant reaches_firstRecorded (by simp) (by simp) (by simp)).tail
    (guardingStep_of_activated first_activated (by simp [firstRow, replacedRow]))
  have hshared := guardingStep_of_instant reaches_sharedRecorded (by simp) (by simp) (by simp)
  have hguarded := guardingStep_of_activated shared_activated
    (by simp [afterSecond, replacedRows, replacedRow, Guarded, Retention.referencedByKept,
      ManifestRow.isKept])
  have htick : GuardingStep smallPoiLibrary replacedContent replacedInterval
      (afterSecond sharedChunk ["chunk"]) .silent sharedLater :=
    ⟨⟨.tick, by decide, by simp⟩, by simp, by simp⟩
  have hrun := (hfirst.tail ⟨⟨.tick, Nat.zero_le _, by simp⟩, by simp, by simp⟩).trans
    (hshared.tail hguarded)
  exact not_holds_of_unpin ((hrun.tail htick).trans reaches_sharedSweep)
    (.sweeper (@SweeperStep.unpin _ _ _ _ true rfl))

end Replaced

end RailgunIndexer
