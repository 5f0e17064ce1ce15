import RailgunIndexer.Proof.PublicationCycle
import RailgunIndexer.Proof.PoiGraph

/-!
# Sequences of the manifest channels

A publisher reserves a sequence that is larger than the last one it knows of, and that one is at least
the sequence of every manifest of its channel: the POI publisher reads it from the database in the
transaction that reserves the next, the chain-indexed publisher keeps it in memory, where a
reconciliation overwrites it with the sequence of the newest manifest. So a sequence that was reserved
is larger than every recorded one until it is recorded itself, whatever fails or stops in between.
-/

namespace RailgunIndexer

open Lib

section Steps

variable {library : PoiLibrary} {content : String → PublishedContent} {s next : PublicationState}
  {event : PublicationEvent} {after : PublicationTables} {cid : String} {acknowledged : Bool}

/-! ### Steps of other tasks -/

structure PoiUntouched (s next : PublicationState) : Prop where
  task : next.poi = s.poi ∨ next.poi = .idle
  rows : List.Forall₂ ManifestRow.Advances s.tables.poiManifests next.tables.poiManifests
  sequence : next.tables.ipnsLastSequence = s.tables.ipnsLastSequence

structure IndexedUntouched (s next : PublicationState) : Prop where
  task : next.indexed = s.indexed ∧ next.lastIpnsSequence = s.lastIpnsSequence
      ∧ next.ipnsSequenceLoaded = s.ipnsSequenceLoaded
    ∨ next.indexed = .idle ∧ next.ipnsSequenceLoaded = false
  rows : List.Forall₂ ManifestRow.Advances s.tables.indexedManifests next.tables.indexedManifests
  sequence : next.tables.chainIndexedIpnsLastSequence = s.tables.chainIndexedIpnsLastSequence

theorem forall₂_advances_refl {β : Type} (rows : List (ManifestRow β)) :
    List.Forall₂ ManifestRow.Advances rows rows :=
  List.forall₂_same.mpr fun row _ => ManifestRow.Advances.refl row

theorem SweepTablesChange.advances (hchange : SweepTablesChange s after) :
    List.Forall₂ ManifestRow.Advances s.tables.poiManifests after.poiManifests
      ∧ List.Forall₂ ManifestRow.Advances s.tables.indexedManifests after.indexedManifests
      ∧ after.ipnsLastSequence = s.tables.ipnsLastSequence
      ∧ after.chainIndexedIpnsLastSequence = s.tables.chainIndexedIpnsLastSequence := by
  cases hchange with
  | same | debts => exact ⟨forall₂_advances_refl _, forall₂_advances_refl _, rfl, rfl⟩
  | @mark cid cutoff now =>
      have hmarked : Retention.Marked (Retention.unixSeconds now) cutoff cid s.tables _ :=
        Retention.marked_markUnpinned
      refine ⟨?_, ?_, hmarked.ipnsLastSequence, hmarked.chainIndexedIpnsLastSequence⟩
      · rw [hmarked.poiManifests]
        exact forall₂_marked
      · rcases hmarked.indexedManifests with hsame | hstale
        · rw [hsame]
          exact forall₂_advances_refl _
        · rw [hstale]
          exact forall₂_marked

def SameTasks (s next : PublicationState) : Prop :=
  next.poi = s.poi ∧ next.indexed = s.indexed ∧ next.lastIpnsSequence = s.lastIpnsSequence
    ∧ next.ipnsSequenceLoaded = s.ipnsSequenceLoaded

theorem CleanupStep.sameTasks (hstep : CleanupStep s event next) : SameTasks s next := by
  cases hstep <;> exact ⟨rfl, rfl, rfl, rfl⟩

theorem SweeperStep.sameTasks (hstep : SweeperStep s event next) : SameTasks s next := by
  cases hstep <;> exact ⟨rfl, rfl, rfl, rfl⟩

theorem PublicationStep.poi_or_untouched (hstep : PublicationStep library content s event next) :
    PoiPublisherStep library content s event next ∨ PoiUntouched s next := by
  cases hstep with
  | poi hstep => exact .inl hstep
  | indexed hstep =>
      obtain ⟨-, hrows, hsequence⟩ := hstep.tablesChange.poi_eq
      have htask : next.poi = s.poi := by cases hstep <;> rfl
      exact .inr ⟨.inl htask, hrows ▸ forall₂_advances_refl _, hsequence⟩
  | cleanup hstep | sweeper hstep =>
      obtain ⟨hrows, -, hsequence, -⟩ := hstep.tablesChange.advances
      exact .inr ⟨.inl hstep.sameTasks.1, hrows, hsequence⟩
  | tick => exact .inr ⟨.inl rfl, forall₂_advances_refl _, rfl⟩
  | restart => exact .inr ⟨.inr rfl, forall₂_advances_refl _, rfl⟩

theorem PublicationStep.indexed_or_untouched (hstep : PublicationStep library content s event next) :
    IndexedPublisherStep library content s event next ∨ IndexedUntouched s next := by
  cases hstep with
  | poi hstep =>
      obtain ⟨-, hrows, hsequence⟩ := hstep.tablesChange.indexed_eq
      have htask : next.indexed = s.indexed ∧ next.lastIpnsSequence = s.lastIpnsSequence
          ∧ next.ipnsSequenceLoaded = s.ipnsSequenceLoaded := by
        cases hstep <;> exact ⟨rfl, rfl, rfl⟩
      exact .inr ⟨.inl htask, hrows ▸ forall₂_advances_refl _, hsequence⟩
  | indexed hstep => exact .inl hstep
  | cleanup hstep | sweeper hstep =>
      obtain ⟨-, hrows, -, hsequence⟩ := hstep.tablesChange.advances
      exact .inr ⟨.inl hstep.sameTasks.2, hrows, hsequence⟩
  | tick => exact .inr ⟨.inl ⟨rfl, rfl, rfl⟩, forall₂_advances_refl _, rfl⟩
  | restart => exact .inr ⟨.inr ⟨rfl, rfl⟩, forall₂_advances_refl _, rfl⟩

/-! ### The sequences of the POI channel -/

theorem sequences_eq {β : Type} {rows later : List (ManifestRow β)}
    (hrows : List.Forall₂ ManifestRow.Advances rows later) :
    later.map ManifestRow.ipnsSequence = rows.map ManifestRow.ipnsSequence := by
  induction hrows with
  | nil => rfl
  | cons hrow _ ih => rw [List.map_cons, List.map_cons, ih, hrow.ipnsSequence]

def Through (last : Option Nat) (sequences : List Nat) : Prop :=
  ∀ sequence ∈ sequences, ∃ highest ∈ last, sequence ≤ highest

theorem Through.append {last : Option Nat} {sequences : List Nat} {sequence : Nat}
    (hthrough : Through last sequences) (hlast : ∃ highest ∈ last, sequence ≤ highest) :
    Through last (sequences ++ [sequence]) := by
  intro other hother
  rcases List.mem_append.mp hother with hother | hother
  · exact hthrough other hother
  · rw [List.mem_singleton.mp hother]
    exact hlast

theorem Through.mono {last later : Option Nat} {sequences : List Nat} (hthrough : Through last sequences)
    (hlater : ∀ highest ∈ last, ∃ higher ∈ later, highest ≤ higher) : Through later sequences := by
  intro sequence hsequence
  obtain ⟨highest, hhighest, hle⟩ := hthrough sequence hsequence
  obtain ⟨higher, hhigher, hle'⟩ := hlater highest hhighest
  exact ⟨higher, hhigher, hle.trans hle'⟩

/-- The database holds a sequence that none of the channel exceeds, and a reserved one is larger than
all of them. -/
structure PoiSequences (s : PublicationState) : Prop where
  persisted : Through s.tables.ipnsLastSequence (s.tables.poiManifests.map ManifestRow.ipnsSequence)
  reserved : ∀ graph sequence, s.poi = .reserved graph sequence →
    (∀ other ∈ s.tables.poiManifests.map ManifestRow.ipnsSequence, other < sequence)
      ∧ ∃ highest ∈ s.tables.ipnsLastSequence, sequence ≤ highest

section

variable (hsequences : PoiSequences s)
  {sequence : Nat}

include hsequences

theorem PoiSequences.of_eq (hrows : next.tables.poiManifests.map ManifestRow.ipnsSequence
      = s.tables.poiManifests.map ManifestRow.ipnsSequence)
    (hlast : ∀ highest ∈ s.tables.ipnsLastSequence, ∃ higher ∈ next.tables.ipnsLastSequence,
      highest ≤ higher)
    (htask : next.poi = s.poi ∨ ∀ graph sequence, next.poi ≠ .reserved graph sequence) :
    PoiSequences next where
  persisted := by
    rw [hrows]
    exact hsequences.persisted.mono hlast
  reserved graph sequence hpoi := by
    rw [hrows]
    rcases htask with htask | htask
    · obtain ⟨hlarger, highest, hhighest, hle⟩ := hsequences.reserved graph sequence (htask ▸ hpoi)
      obtain ⟨higher, hhigher, hle'⟩ := hlast highest hhighest
      exact ⟨hlarger, higher, hhigher, hle.trans hle'⟩
    · exact absurd hpoi (htask graph sequence)

theorem PoiSequences.of_same (hrows : next.tables.poiManifests = s.tables.poiManifests)
    (hlast : next.tables.ipnsLastSequence = s.tables.ipnsLastSequence)
    (htask : next.poi = s.poi ∨ ∀ graph sequence, next.poi ≠ .reserved graph sequence) :
    PoiSequences next := by
  refine hsequences.of_eq (by rw [hrows]) (fun highest hhighest => ⟨highest, ?_, le_rfl⟩) htask
  rw [hlast]
  exact hhighest

theorem PoiSequences.activation
    (hok : Audit.recordPoiArtifactManifestIpnsPublication s.clock cid sequence s.tables = .ok
      after) :
    PoiSequences { s with tables := after, poi := .idle } := by
  obtain ⟨-, rfl⟩ := Audit.recordPoiArtifactManifestIpnsPublication_eq_ok hok
  refine hsequences.of_eq ?_ (fun highest hhighest => ⟨highest, hhighest, le_rfl⟩) (.inr (by simp))
  exact sequences_eq (Table.forall₂_trans (fun _ _ _ => ManifestRow.Advances.trans) forall₂_activate
    forall₂_supersede)

theorem PoiSequences.invalidation {poi : PoiTask}
    (hok : Audit.invalidatePendingPoiManifestReconciliation s.clock cid sequence s.tables = .ok
      after) (hpoi : poi = s.poi ∨ ∀ graph sequence, poi ≠ .reserved graph sequence) :
    PoiSequences { s with tables := after, poi := poi } := by
  obtain ⟨_, -, -, -, rfl⟩ := Audit.invalidatePendingPoiManifestReconciliation_eq_ok hok
  refine hsequences.of_eq (sequences_eq forall₂_invalidated) (fun highest hhighest => ?_) hpoi
  refine ⟨_, rfl, ?_⟩
  rw [Option.mem_def.mp hhighest]
  exact le_max_left _ _

theorem PoiSequences.reservation {graph : List (PoiArtifactPublicationKind × String)}
    {minimum : Nat}
    (hok : Audit.reservePoiPublicationSequence minimum s.tables = .ok (after, sequence)) :
    PoiSequences
      { s with tables := after, poi := if acknowledged then .reserved graph sequence else .idle } := by
  obtain ⟨hlarger, rfl⟩ := Audit.reservePoiPublicationSequence_eq_ok hok
  have hall : ∀ other ∈ s.tables.poiManifests.map ManifestRow.ipnsSequence, other < sequence := by
    intro other hother
    obtain ⟨highest, hhighest, hle⟩ := hsequences.persisted other hother
    exact hle.trans_lt (hlarger highest hhighest)
  refine ⟨fun other hother => ⟨sequence, rfl, (hall other hother).le⟩, ?_⟩
  intro reservedGraph reservedSequence hpoi
  cases acknowledged with
  | false => cases hpoi
  | true =>
      cases hpoi
      exact ⟨hall, sequence, rfl, le_rfl⟩

theorem PoiPublisherStep.poiSequences
    (hstep : PoiPublisherStep library content s event next) : PoiSequences next := by
  cases hstep with
  | pending | noPending | stop => exact hsequences.of_same rfl rfl (.inr (by simp))
  | reuse | pin | pinManifest => exact hsequences.of_same rfl rfl (.inl rfl)
  | @abandon _ _ _ acknowledged _ _ hok =>
      obtain ⟨invalidated, hinvalidation, rfl⟩ :=
        Audit.abandonPendingPoiV4ManifestReconciliation_eq_ok hok
      have hinvalidated : PoiSequences { s with
          tables := invalidated
          poi := if acknowledged then .publishing [] else .idle } :=
        hsequences.invalidation hinvalidation (.inr (by cases acknowledged <;> simp))
      exact hinvalidated.of_same rfl rfl (.inl rfl)
  | reconcile _ hok | activate _ hok => exact hsequences.activation hok
  | @recordArtifact _ _ _ _ _ acknowledged _ _ _ hcommits =>
      have htask : ∀ kept graph sequence, (if acknowledged then .publishing kept else .idle)
          ≠ PoiTask.reserved graph sequence := by
        cases acknowledged <;> simp
      rcases hcommits.eq_or with hok | ⟨rfl, -⟩
      · obtain rfl := Audit.recordPoiArtifactPin_eq_ok hok
        exact hsequences.of_same rfl rfl (.inr (htask _))
      · exact hsequences.of_same rfl rfl (.inr (htask _))
  | reserve _ hok => exact hsequences.reservation hok
  | @recordManifest graph _ sequence cid _ acknowledged _ _ hpoi hcommits =>
      have htask : ∀ graph sequence', (if acknowledged then .recorded cid sequence else .idle)
          ≠ PoiTask.reserved graph sequence' := by
        cases acknowledged <;> simp
      rcases hcommits.eq_or with hok | ⟨rfl, -⟩
      · obtain ⟨-, rfl⟩ := Audit.recordPoiArtifactManifestPin_eq_ok hok
        refine ⟨?_, fun graph sequence hreserved => absurd hreserved (htask graph sequence)⟩
        rw [List.map_append]
        exact hsequences.persisted.append (hsequences.reserved graph sequence hpoi).2
      · exact hsequences.of_same rfl rfl (.inr htask)
  | invalidate hok => exact hsequences.invalidation hok (.inl rfl)

theorem PublicationStep.poiSequences
    (hstep : PublicationStep library content s event next) : PoiSequences next := by
  rcases hstep.poi_or_untouched with hpoi | hother
  · exact hpoi.poiSequences hsequences
  · refine hsequences.of_eq (sequences_eq hother.rows)
      (fun highest hhighest => ⟨highest, hother.sequence ▸ hhighest, le_rfl⟩) ?_
    rcases hother.task with hsame | hidle
    · exact .inl hsame
    · rw [hidle]
      exact .inr (by simp)

end

/-! ### The sequences of the chain-indexed channel -/

theorem lt_nextIpnsSequence {nowMillis highest : Nat} {last : Option Nat} (hlast : highest ∈ last)
    (hbound : highest < i64Bound) : highest < nextIpnsSequence nowMillis last := by
  rw [Option.mem_def.mp hlast, nextIpnsSequence]
  have hwide : i64Bound ≤ u64Bound - 1 := by decide
  omega

/-- The database, and the memory once the sequence was loaded, hold a sequence that none of the channel
exceeds. The manifest that is reconciled is the newest, and a reserved sequence is larger than all. -/
structure IndexedSequences (s : PublicationState) : Prop where
  persisted : Through s.tables.chainIndexedIpnsLastSequence
    (s.tables.indexedManifests.map ManifestRow.ipnsSequence)
  bounded : ∀ highest ∈ s.tables.chainIndexedIpnsLastSequence, highest < i64Bound
  loaded : s.ipnsSequenceLoaded = true →
    Through s.lastIpnsSequence (s.tables.indexedManifests.map ManifestRow.ipnsSequence)
      ∧ ∀ highest ∈ s.lastIpnsSequence, highest < i64Bound
  reconciling : ∀ row, s.indexed = .reconciling row ∨ s.indexed = .repinned row →
    row.ipnsSequence < i64Bound
      ∧ ∀ other ∈ s.tables.indexedManifests.map ManifestRow.ipnsSequence, other ≤ row.ipnsSequence
  reserved : ∀ artifactCids sequence, s.indexed = .reserved artifactCids sequence →
    s.ipnsSequenceLoaded = true
      ∧ (∀ other ∈ s.tables.indexedManifests.map ManifestRow.ipnsSequence, other < sequence)
      ∧ (∃ highest ∈ s.tables.chainIndexedIpnsLastSequence, sequence ≤ highest)
      ∧ ∃ highest ∈ s.lastIpnsSequence, sequence ≤ highest

theorem IndexedSequences.known (hsequences : IndexedSequences s) :
    Through s.knownIpnsSequence (s.tables.indexedManifests.map ManifestRow.ipnsSequence)
      ∧ ∀ highest ∈ s.knownIpnsSequence, highest < i64Bound := by
  rw [PublicationState.knownIpnsSequence]
  by_cases hloaded : s.ipnsSequenceLoaded = true
  · rw [if_pos hloaded]
    exact hsequences.loaded hloaded
  · rw [if_neg hloaded]
    exact ⟨hsequences.persisted, hsequences.bounded⟩

theorem IndexedSequences.of_eq (hsequences : IndexedSequences s)
    (hrows : next.tables.indexedManifests.map ManifestRow.ipnsSequence
      = s.tables.indexedManifests.map ManifestRow.ipnsSequence)
    (hpersisted : next.tables.chainIndexedIpnsLastSequence = s.tables.chainIndexedIpnsLastSequence)
    (hlast : next.lastIpnsSequence = s.lastIpnsSequence)
    (hloaded : next.ipnsSequenceLoaded = s.ipnsSequenceLoaded)
    (hreconciling : ∀ row, next.indexed = .reconciling row ∨ next.indexed = .repinned row →
      s.indexed = .reconciling row ∨ s.indexed = .repinned row)
    (hreserved : ∀ artifactCids sequence, next.indexed = .reserved artifactCids sequence →
      s.indexed = .reserved artifactCids sequence) : IndexedSequences next where
  persisted := by
    rw [hrows, hpersisted]
    exact hsequences.persisted
  bounded := by
    rw [hpersisted]
    exact hsequences.bounded
  loaded := by
    rw [hloaded, hlast, hrows]
    exact hsequences.loaded
  reconciling row hrow := by
    rw [hrows]
    exact hsequences.reconciling row (hreconciling row hrow)
  reserved artifactCids sequence hindexed := by
    rw [hloaded, hlast, hrows, hpersisted]
    exact hsequences.reserved artifactCids sequence (hreserved artifactCids sequence hindexed)

theorem IndexedSequences.of_idle (hpersisted : Through next.tables.chainIndexedIpnsLastSequence
      (next.tables.indexedManifests.map ManifestRow.ipnsSequence))
    (hbounded : ∀ highest ∈ next.tables.chainIndexedIpnsLastSequence, highest < i64Bound)
    (hloaded : next.ipnsSequenceLoaded = true →
      Through next.lastIpnsSequence (next.tables.indexedManifests.map ManifestRow.ipnsSequence)
        ∧ ∀ highest ∈ next.lastIpnsSequence, highest < i64Bound)
    (hidle : next.indexed = .idle) : IndexedSequences next where
  persisted := hpersisted
  bounded := hbounded
  loaded := hloaded
  reconciling := by simp [hidle]
  reserved := by simp [hidle]

theorem sequences_of_indexedActivation {now : Nat} {sequence : Nat} {tables : PublicationTables}
    (hok : Audit.recordIndexedManifestIpnsPublication now cid sequence tables = .ok after) :
    after.indexedManifests.map ManifestRow.ipnsSequence
        = tables.indexedManifests.map ManifestRow.ipnsSequence
      ∧ after.chainIndexedIpnsLastSequence = tables.chainIndexedIpnsLastSequence := by
  obtain ⟨-, rfl⟩ := Audit.recordIndexedManifestIpnsPublication_eq_ok hok
  exact ⟨sequences_eq forall₂_activated, rfl⟩

section

variable (hsequences : IndexedSequences s)

include hsequences

theorem IndexedSequences.reconciliation {row : IndexedManifestRow}
    (hindexed : s.indexed = .repinned row)
    (hok : Audit.recordIndexedManifestIpnsPublication s.clock row.cid row.ipnsSequence s.tables =
      .ok after) :
    IndexedSequences { s with
      tables := after
      indexed := .idle
      lastIpnsSequence := if acknowledged then some row.ipnsSequence else s.lastIpnsSequence
      ipnsSequenceLoaded := acknowledged || s.ipnsSequenceLoaded } := by
  obtain ⟨hbound, hnewest⟩ := hsequences.reconciling row (.inr hindexed)
  obtain ⟨hrows, hlast⟩ := sequences_of_indexedActivation hok
  apply IndexedSequences.of_idle
  · rw [hrows, hlast]
    exact hsequences.persisted
  · rw [hlast]
    exact hsequences.bounded
  · rw [hrows]
    cases acknowledged with
    | false => exact hsequences.loaded
    | true =>
        intro _
        refine ⟨fun other hother => ⟨row.ipnsSequence, rfl, hnewest other hother⟩, ?_⟩
        intro highest hhighest
        rw [← Option.some.inj hhighest]
        exact hbound
  · rfl

theorem IndexedSequences.persist {sequence : Nat}
    (hok : Audit.recordChainIndexedIpnsSequence sequence s.tables = .ok after) :
    Through after.chainIndexedIpnsLastSequence (after.indexedManifests.map ManifestRow.ipnsSequence)
      ∧ (∀ highest ∈ after.chainIndexedIpnsLastSequence, highest < i64Bound)
      ∧ (∃ highest ∈ after.chainIndexedIpnsLastSequence, sequence ≤ highest)
      ∧ after.indexedManifests = s.tables.indexedManifests := by
  obtain ⟨hbound, rfl⟩ := Audit.recordChainIndexedIpnsSequence_eq_ok hok
  refine ⟨hsequences.persisted.mono fun highest hhighest => ⟨_, rfl, ?_⟩, fun highest hhighest => ?_,
    ⟨_, rfl, le_max_right _ _⟩, rfl⟩
  · rw [Option.mem_def.mp hhighest]
    exact le_max_left _ _
  · rw [← Option.some.inj hhighest]
    refine max_lt ?_ hbound
    cases hlast : s.tables.chainIndexedIpnsLastSequence with
    | none => exact hbound
    | some last => exact hsequences.bounded last hlast

theorem IndexedSequences.reservation {artifactCids : List String} {nowMillis : Nat}
    (hcommits : Commits (Audit.recordChainIndexedIpnsSequence (nextIpnsSequence nowMillis
      s.knownIpnsSequence) s.tables) s.tables acknowledged after) :
    IndexedSequences { s with
      tables := after
      lastIpnsSequence := if acknowledged
        then some (nextIpnsSequence nowMillis s.knownIpnsSequence) else s.knownIpnsSequence
      ipnsSequenceLoaded := true
      indexed := if acknowledged
        then .reserved artifactCids (nextIpnsSequence nowMillis s.knownIpnsSequence)
        else .idle } := by
  obtain ⟨hknown, hbounded⟩ := hsequences.known
  have hlarger : ∀ other ∈ s.tables.indexedManifests.map ManifestRow.ipnsSequence,
      other < nextIpnsSequence nowMillis s.knownIpnsSequence := by
    intro other hother
    obtain ⟨highest, hhighest, hle⟩ := hknown other hother
    exact hle.trans_lt (lt_nextIpnsSequence hhighest (hbounded highest hhighest))
  cases hcommits with
  | acknowledged hok =>
      have hbound := (Audit.recordChainIndexedIpnsSequence_eq_ok hok).1
      obtain ⟨hpersisted, hpersistedBound, hreached, hrows⟩ := hsequences.persist hok
      refine ⟨hpersisted, hpersistedBound, fun _ => ⟨?_, ?_⟩, by simp, ?_⟩
      · rw [hrows]
        exact fun other hother => ⟨_, rfl, (hlarger other hother).le⟩
      · intro highest hhighest
        rw [← Option.some.inj hhighest]
        exact hbound
      · intro reservedCids sequence hindexed
        cases hindexed
        rw [hrows]
        exact ⟨rfl, hlarger, hreached, _, rfl, le_rfl⟩
  | unacknowledged hok =>
      obtain ⟨hpersisted, hpersistedBound, -, hrows⟩ := hsequences.persist hok
      refine .of_idle hpersisted hpersistedBound (fun _ => ⟨?_, hbounded⟩) rfl
      rw [hrows]
      exact hknown
  | rolledBack =>
      exact .of_idle hsequences.persisted hsequences.bounded (fun _ => ⟨hknown, hbounded⟩) rfl

theorem IndexedSequences.record {cid : String} {artifactCids : List String} {sequence : Nat}
    {bytes : Bytes} {acknowledged : Bool} {after : PublicationTables}
    (hindexed : s.indexed = .reserved artifactCids sequence)
    (hok : Audit.recordIndexedManifestPin cid artifactCids sequence bytes.length
      (library.contentHash bytes) bytes s.tables = .ok after) :
    IndexedSequences { s with
      tables := after
      pinLock := sectionAfter true acknowledged cid
      indexed := if acknowledged then .recorded cid sequence else .idle } := by
  obtain ⟨-, rfl⟩ := Audit.recordIndexedManifestPin_eq_ok hok
  obtain ⟨-, -, hpersisted, hlast⟩ := hsequences.reserved artifactCids sequence hindexed
  refine ⟨?_, hsequences.bounded, fun hloaded => ⟨?_, (hsequences.loaded hloaded).2⟩, ?_, ?_⟩
  · rw [List.map_append]
    exact hsequences.persisted.append hpersisted
  · rw [List.map_append]
    exact (hsequences.loaded hloaded).1.append hlast
  · cases acknowledged <;> simp
  · cases acknowledged <;> simp

end

section

variable (hok : ChannelOk content .indexedManifest s.tables.indexedManifests)

include hok

theorem IndexedPublisherStep.indexedSequences
    (hsequences : IndexedSequences s) (hstep : IndexedPublisherStep library content s event next) :
    IndexedSequences next := by
  cases hstep with
  | pending _ hpending =>
      obtain ⟨hrow, hrowPending⟩ := Audit.pendingManifest_eq_some hpending
      refine ⟨hsequences.persisted, hsequences.bounded, hsequences.loaded, ?_, by simp⟩
      intro row hreconciling
      obtain rfl : _ = row := by simpa using hreconciling
      refine ⟨hok.bounded _ hrow, fun other hother => ?_⟩
      obtain ⟨otherRow, hotherRow, rfl⟩ := List.mem_map.mp hother
      exact hok.pending_last _ hrow hrowPending otherRow hotherRow
  | noPending | repinMismatch | fail | stop =>
      exact hsequences.of_eq rfl rfl rfl rfl (by simp) (by simp)
  | repin _ hindexed =>
      refine hsequences.of_eq rfl rfl rfl rfl (fun row hrow => ?_) (by simp)
      obtain rfl : _ = row := by simpa using hrow
      exact .inl hindexed
  | reuse | pin | pinManifest =>
      exact hsequences.of_eq rfl rfl rfl rfl (fun _ hrow => hrow) fun _ _ hreserved => hreserved
  | reconcile hindexed hactivation => exact hsequences.reconciliation hindexed hactivation
  | @recordArtifact _ _ _ _ _ _ acknowledged _ _ _ hcommits =>
      rcases hcommits.eq_or with hrecord | ⟨rfl, -⟩
      · obtain rfl := Audit.recordIndexedArtifactPin_eq_ok hrecord
        exact hsequences.of_eq rfl rfl rfl rfl (by cases acknowledged <;> simp)
          (by cases acknowledged <;> simp)
      · exact hsequences.of_eq rfl rfl rfl rfl (by cases acknowledged <;> simp)
          (by cases acknowledged <;> simp)
  | reserve _ hcommits => exact hsequences.reservation hcommits
  | @recordManifest _ _ _ _ acknowledged _ _ hindexed hcommits =>
      rcases hcommits.eq_or with hrecord | ⟨rfl, rfl⟩
      · exact hsequences.record hindexed hrecord
      · exact hsequences.of_eq rfl rfl rfl rfl (by simp) (by simp)
  | activate _ hactivation =>
      obtain ⟨hrows, hlast⟩ := sequences_of_indexedActivation hactivation
      exact hsequences.of_eq hrows hlast rfl rfl (by simp) (by simp)

theorem PublicationStep.indexedSequences
    (hsequences : IndexedSequences s) (hstep : PublicationStep library content s event next) :
    IndexedSequences next := by
  rcases hstep.indexed_or_untouched with hindexed | hother
  · exact hindexed.indexedSequences hok hsequences
  · rcases hother.task with ⟨htask, hlast, hloaded⟩ | ⟨hidle, hloaded⟩
    · exact hsequences.of_eq (sequences_eq hother.rows) hother.sequence hlast hloaded (by simp [htask])
        (by simp [htask])
    · refine .of_idle ?_ ?_ (by simp [hloaded]) hidle
      · rw [hother.sequence, sequences_eq hother.rows]
        exact hsequences.persisted
      · rw [hother.sequence]
        exact hsequences.bounded

end

/-! ### Runs -/

structure ChannelsOk (content : String → PublishedContent) (s : PublicationState) : Prop where
  pinLock : SectionOk content s.pinLock
  poi : ChannelOk content .poiManifest s.tables.poiManifests
  indexed : ChannelOk content .indexedManifest s.tables.indexedManifests
  poiSequences : PoiSequences s
  indexedSequences : IndexedSequences s

theorem channelsOk_started (clock : Nat) : ChannelsOk content (.started .empty clock) where
  pinLock := ⟨by simp [PublicationState.started], by simp [PublicationState.started]⟩
  poi := channelOk_nil
  indexed := channelOk_nil
  poiSequences := ⟨by simp [PublicationState.started, PublicationTables.empty, Through],
    by simp [PublicationState.started]⟩
  indexedSequences := .of_idle (by simp [PublicationState.started, PublicationTables.empty, Through])
    (by simp [PublicationState.started, PublicationTables.empty])
    (by simp [PublicationState.started]) rfl

theorem ChannelsOk.poiChange (hok : ChannelsOk content s)
    (hstep : PublicationStep library content s event next) :
    PoiChange library content s event s.tables.poiManifests next.tables.poiManifests :=
  hstep.tablesChange.poi hok.poi hok.pinLock

theorem ChannelsOk.indexedChange (hok : ChannelsOk content s)
    (hstep : PublicationStep library content s event next) :
    IndexedChange library content s event s.tables.indexedManifests next.tables.indexedManifests :=
  hstep.tablesChange.indexed hok.pinLock

theorem PublicationStep.channelsOk (hok : ChannelsOk content s)
    (hstep : PublicationStep library content s event next) : ChannelsOk content next where
  pinLock := hstep.sectionOk hok.pinLock
  poi := by
    refine hok.poi.change ?_ (hok.poiChange hstep)
    rintro _ ⟨_, _, graph, sequence, _, -, hreserved, -, rfl⟩ row hrow
    exact (hok.poiSequences.reserved graph sequence hreserved).1 _ (List.mem_map_of_mem hrow)
  indexed := by
    refine hok.indexed.change ?_ (hok.indexedChange hstep)
    rintro _ ⟨_, artifactCids, sequence, _, -, hreserved, -, rfl⟩ row hrow
    exact (hok.indexedSequences.reserved artifactCids sequence hreserved).2.1 _
      (List.mem_map_of_mem hrow)
  poiSequences := hstep.poiSequences hok.poiSequences
  indexedSequences := hstep.indexedSequences hok.indexed hok.indexedSequences

theorem channelsOk_of_reaches {clock : Nat} {events : List PublicationEvent}
    (hrun : Run.Reaches (PublicationStep library content) (.started .empty clock) events s) :
    ChannelsOk content s :=
  hrun.invariant (I := fun _ s => ChannelsOk content s) (channelsOk_started clock)
    fun _ _ _ _ hok hstep => hstep.channelsOk hok

theorem channelFollows_of_reaches {later : List PublicationEvent} (hok : ChannelsOk content s)
    (hrun : Run.Reaches (PublicationStep library content) s later next) :
    ChannelsOk content next ∧ ChannelFollows s.tables.poiManifests next.tables.poiManifests
      ∧ ChannelFollows s.tables.indexedManifests next.tables.indexedManifests := by
  refine hrun.invariant (I := fun _ next => ChannelsOk content next
    ∧ ChannelFollows s.tables.poiManifests next.tables.poiManifests
    ∧ ChannelFollows s.tables.indexedManifests next.tables.indexedManifests)
    ⟨hok, .refl _, .refl _⟩ fun _ middle _ last hmiddle hstep => ?_
  obtain ⟨hmiddleOk, hpoi, hindexed⟩ := hmiddle
  refine ⟨hstep.channelsOk hmiddleOk, ?_, ?_⟩
  · exact hpoi.trans ((hmiddleOk.poiChange hstep).follows hmiddleOk.poi)
  · exact hindexed.trans ((hmiddleOk.indexedChange hstep).follows hmiddleOk.indexed)

/-- **Each channel keeps one pending and one active manifest, and its sequences only grow.** -/
theorem manifestChannels_monotone {clock : Nat} {events later : List PublicationEvent}
    (hrun : Run.Reaches (PublicationStep library content) (.started .empty clock) events s)
    (hlater : Run.Reaches (PublicationStep library content) s later next) :
    ChannelHistory s.tables.poiManifests next.tables.poiManifests
      ∧ ChannelHistory s.tables.indexedManifests next.tables.indexedManifests := by
  have hok := channelsOk_of_reaches hrun
  obtain ⟨hnextOk, hpoi, hindexed⟩ := channelFollows_of_reaches hok hlater
  exact ⟨hpoi.history hok.poi hnextOk.poi, hindexed.history hok.indexed hnextOk.indexed⟩

end Steps

/-! ### A restart while a manifest is pending -/

section Restart

open Run

def restartContent (cid : String) : PublishedContent :=
  if cid = "fifth" then .poiManifest 5 else .poiManifest 6

def restartRow (cid : String) (sequence : Nat) (ipnsPublishedAt supersededAt : Option Nat) :
    PoiManifestRow :=
  { cid, ipnsSequence := sequence, byteSize := 0, contentHash := 0, body := [], artifactCids := [],
    ipnsPublishedAt, supersededAt }

def restartTables (last : Nat) (rows : List PoiManifestRow) : PublicationTables :=
  { PublicationTables.empty with poiManifests := rows, ipnsLastSequence := some last }

abbrev RestartRun := Reaches (InstantStep smallPoiLibrary restartContent)

def fifthPublished : PublicationState :=
  .started (restartTables 5 [restartRow "fifth" 5 (some 10) none]) 10

def sixthPublished : PublicationState :=
  .started (restartTables 6
    [restartRow "fifth" 5 (some 10) (some 3), restartRow "sixth" 6 (some 3) none]) 3

def fifthPending : PublicationState :=
  { PublicationState.started (restartTables 5 [restartRow "fifth" 5 none none]) 10 with
    poi := .recorded "fifth" 5 }

def sixthPending : PublicationState :=
  { PublicationState.started (restartTables 6
      [restartRow "fifth" 5 (some 10) none, restartRow "sixth" 6 none none]) 3 with
    poi := .recorded "sixth" 6 }

theorem reaches_fifth :
    Reaches (PublicationStep smallPoiLibrary restartContent) (.started .empty 10)
      [.silent, .silent, .silent, .silent, .poiActivated "fifth" 5] fifthPublished := by
  have hstart : RestartRun (.started .empty 10) [.silent]
      { PublicationState.started .empty 10 with poi := .publishing [] } :=
    reaches_poiPublishing rfl rfl
  have hrecord : RestartRun { PublicationState.started .empty 10 with poi := .publishing [] }
      [.silent, .silent, .silent] fifthPending :=
    @reaches_poiManifest _ _ _ _ [] 5 _ _ [] (restartTables 5 []) _ rfl rfl (by rfl) (by simp) (by rfl)
      (by rfl)
  have hactivate : RestartRun fifthPending [.poiActivated "fifth" 5] fifthPublished :=
    reaches_poiActivation rfl (by rfl)
  exact reaches_of_instant ((hstart.trans hrecord).trans hactivate)

theorem reaches_sixth :
    Reaches (PublicationStep smallPoiLibrary restartContent) fifthPublished
      [.silent, .silent, .silent, .silent, .silent, .silent, .silent, .poiActivated "sixth" 6]
      sixthPublished := by
  have hclock : Reaches (PublicationStep smallPoiLibrary restartContent) fifthPublished [.silent]
      { fifthPublished with clock := 3 } := .single .tick
  have hstart : RestartRun { fifthPublished with clock := 3 } [.silent]
      { fifthPublished with clock := 3, poi := .publishing [] } :=
    reaches_poiPublishing rfl (by rfl)
  have hrecord : RestartRun { fifthPublished with clock := 3, poi := .publishing [] }
      [.silent, .silent, .silent] sixthPending :=
    @reaches_poiManifest _ _ _ _ [] 2 _ _ []
      (restartTables 6 [restartRow "fifth" 5 (some 10) none]) _ rfl rfl (by rfl) (by simp) (by rfl)
      (by rfl)
  have hreconcile : RestartRun sixthPending [.silent, .silent, .poiActivated "sixth" 6] sixthPublished :=
    @reaches_poiReconciliation _ _ _ (restartRow "sixth" 6 none none) _ (by rfl) (by rfl)
  exact hclock.trans (reaches_of_instant ((hstart.trans hrecord).trans hreconcile))

theorem manifestChannels_monotone_restart :
    ChannelHistory fifthPublished.tables.poiManifests sixthPublished.tables.poiManifests
      ∧ ChannelHistory fifthPublished.tables.indexedManifests
        sixthPublished.tables.indexedManifests :=
  manifestChannels_monotone reaches_fifth reaches_sixth

end Restart

end RailgunIndexer
