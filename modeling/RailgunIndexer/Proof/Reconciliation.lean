import RailgunIndexer.Reconciliation
import RailgunIndexer.Proof.PinSafety
import RailgunIndexer.Proof.Watermark

/-!
# A stale pending manifest

A pending chain-indexed manifest whose watermark was rewound, whose chain is no longer configured or one
of whose artifacts is gone fails the checks of its reconciliation, and nothing else retires it: the
channel has no counterpart of the abandonment of a POI manifest. As long as it is stale, no manifest is
recorded.
-/

namespace RailgunIndexer

open Lib Lib.Fallible

section Stale

variable {library : PoiLibrary} {content : String → PublishedContent} {env : ReconcileEnvironment}
  {entries : IndexedManifestRow → List IndexedArtifactChainEntry} {row : IndexedManifestRow}

/-- A watermark is not that of the stored header, no configured chain has the scope of an entry, or the
pinning service does not hold an artifact. -/
def ReconcileEnvironment.Stale (env : ReconcileEnvironment)
    (chainEntries : List IndexedArtifactChainEntry) (artifactCids : List String) : Prop :=
  (∃ entry ∈ chainEntries, ∃ height ∈ entry.latestIndexed,
      ¬ env.store.HasWatermark entry.scope.chainId ⟨height.blockNumber, height.blockHash⟩)
    ∨ (∃ entry ∈ chainEntries, ∀ chain ∈ env.configuredChains, chain.key ≠ entry.scope)
    ∨ ∃ cid ∈ artifactCids, env.contains cid = .ok false

theorem hasWatermark_of_validated {chain : ChainIndexedChainConfig} {store : Store}
    {height : LatestIndexedHeight} (hok : validateStoredWatermark chain store height = .ok ()) :
    store.HasWatermark chain.chainId ⟨height.blockNumber, height.blockHash⟩ := by
  obtain ⟨_, hread, -⟩ := bind_eq_ok.mp hok
  obtain ⟨_, hchain, hread⟩ := bind_eq_ok.mp (mapError_eq_ok.mp hread)
  obtain ⟨_, hblock, -⟩ := bind_eq_ok.mp hread
  exact (validateStoredWatermark_eq_ok (u64ToI64_eq_ok.mp hchain).1 (u64ToI64_eq_ok.mp hblock).1).mp hok

theorem ReconcileEnvironment.not_stale {chainEntries : List IndexedArtifactChainEntry}
    {artifactCids : List String} (hok : env.validatePending chainEntries artifactCids = .ok ()) :
    ¬ env.Stale chainEntries artifactCids := by
  obtain ⟨_, hsnapshot, havailable⟩ := bind_eq_ok.mp hok
  have hconfigured : ∀ entry ∈ chainEntries, ∃ chain ∈ env.configuredChains, chain.key = entry.scope
      ∧ validateChainSnapshot chain entry.latestIndexed env.store = .ok () := by
    intro entry hentry
    have hvalid := forM_eq_ok_iff.mp (mapError_eq_ok.mp hsnapshot) entry hentry
    split at hvalid
    · cases hvalid
    · rename_i chain hchain
      exact ⟨chain, List.mem_of_find?_eq_some hchain, by simpa using List.find?_some hchain, hvalid⟩
  rintro (⟨entry, hentry, height, hheight, hmissing⟩ | ⟨entry, hentry, hnone⟩ | ⟨cid, hcid, hgone⟩)
  · obtain ⟨chain, -, hscope, hvalid⟩ := hconfigured entry hentry
    rw [← hscope] at hmissing
    exact hmissing (hasWatermark_of_validated (forM_eq_ok_iff.mp hvalid height hheight))
  · obtain ⟨chain, hchain, hscope, -⟩ := hconfigured entry hentry
    exact hnone chain hchain hscope
  · have hheld := forM_eq_ok_iff.mp havailable cid hcid
    rw [hgone] at hheld
    cases hheld

/-! ### Steps -/

def StaleStep (library : PoiLibrary) (content : String → PublishedContent)
    (entries : IndexedManifestRow → List IndexedArtifactChainEntry) (row : IndexedManifestRow)
    (s : PublicationState) (event : PublicationEvent) (next : PublicationState) : Prop :=
  ∃ env : ReconcileEnvironment, env.Stale (entries row) row.artifactCids
    ∧ env.Step library content entries s event next

/-- The row is still pending, and its publisher has not got past the checks. -/
structure Unretired (row : IndexedManifestRow) (s : PublicationState) : Prop where
  mem : row ∈ s.tables.indexedManifests
  pending : row.isPending = true
  task : s.indexed = .idle ∨ s.indexed = .reconciling row

section

variable {s next : PublicationState} {event : PublicationEvent} (hok : Unretired row s)

include hok

theorem Unretired.not_activated (hstep : PublicationStep library content s event next) (cid : String)
    (sequence : Nat) : event ≠ .indexedActivated cid sequence := by
  rintro rfl
  have htask := hok.task
  cases hstep with
  | poi hstep | cleanup hstep | sweeper hstep => cases hstep
  | indexed hstep =>
      cases hstep with
      | reconcile hindexed | activate hindexed => simp [hindexed] at htask

theorem Unretired.mem_step (hstep : PublicationStep library content s event next) :
    row ∈ next.tables.indexedManifests := by
  have hchange := hstep.tablesChange
  generalize next.tables = tables at hchange
  cases hchange with
  | poiChannel hchange =>
      rw [hchange.indexed_eq.2.1]
      exact hok.mem
  | indexedChannel hchange =>
      cases hchange with
      | same | artifact | sequence => exact hok.mem
      | manifest => exact List.mem_append_left _ hok.mem
      | activation hevent => exact absurd hevent (hok.not_activated hstep _ _)
  | sweep hchange =>
      cases hchange with
      | same | debts => exact hok.mem
      | mark => exact mem_markUnpinned hok.mem hok.pending

theorem Unretired.pendingManifest_eq {found : Option IndexedManifestRow}
    (hpending : Audit.pendingManifest Audit.chainIndexed s.tables.indexedManifests = .ok found) :
    found = some row := by
  have hmem := List.mem_filter.mpr ⟨hok.mem, hok.pending⟩
  cases found with
  | none =>
      rw [Audit.pendingManifest] at hpending
      split at hpending
      · rename_i hempty
        rw [hempty] at hmem
        cases hmem
      · cases hpending
      · cases hpending
  | some found =>
      rw [Audit.pendingManifest_eq_some_iff.mp hpending] at hmem
      rw [List.mem_singleton.mp hmem]

theorem Unretired.step (hstep : StaleStep library content entries row s event next) :
    Unretired row next := by
  obtain ⟨env, hstale, hstep, hchecked⟩ := hstep
  refine ⟨hok.mem_step hstep, hok.pending, ?_⟩
  have htask := hok.task
  rcases hstep.indexed_or_untouched with hindexed | huntouched
  · have hidle : s.indexed = .reconciling row → next = { s with indexed := .idle } := fun hrow =>
      (hchecked row hrow hindexed).resolve_right fun hvalid => env.not_stale hvalid hstale
    cases hindexed with
    | pending _ hpending =>
        rw [Option.some.inj (hok.pendingManifest_eq hpending)]
        exact .inr rfl
    | noPending _ hnone => cases hok.pendingManifest_eq hnone
    | repin _ hreconciling =>
        have hrow : s.indexed = .reconciling row := by simpa [hreconciling] using htask
        cases congrArg PublicationState.indexed (hidle hrow)
    | repinMismatch | stop => exact .inl rfl
    | reconcile hother | reuse _ hother | pin _ hother | recordArtifact _ hother | fail hother
    | reserve hother | pinManifest _ hother | recordManifest _ hother | activate hother =>
        simp [hother] at htask
  · rcases huntouched.task with ⟨hsame, -⟩ | ⟨hidle, -⟩
    · rw [hsame]
      exact htask
    · exact .inl hidle

theorem Unretired.reaches {events : List PublicationEvent}
    (hrun : Run.Reaches (StaleStep library content entries row) s events next) : Unretired row next :=
  hrun.invariant (I := fun _ t => Unretired row t) hok fun _ _ _ _ hok hstep => hok.step hstep

end

/-- **A stale pending manifest is never retired.** While it is stale its row stays as it is, its publisher
does not get past the checks, and no other manifest can be recorded. -/
theorem stalePending_blocks {s t : PublicationState} {events : List PublicationEvent}
    (hidle : s.indexed = .idle)
    (hpending : Audit.pendingManifest Audit.chainIndexed s.tables.indexedManifests = .ok (some row))
    (hrun : Run.Reaches (StaleStep library content entries row) s events t) :
    row ∈ t.tables.indexedManifests ∧ row.isPending = true
      ∧ (t.indexed = .idle ∨ t.indexed = .reconciling row)
      ∧ ∀ cid artifactCids sequence byteSize contentHash manifestJson after,
        Audit.recordIndexedManifestPin cid artifactCids sequence byteSize contentHash manifestJson
          t.tables ≠ .ok after := by
  obtain ⟨hmem, hrow⟩ := Audit.pendingManifest_eq_some hpending
  have hok := Unretired.reaches ⟨hmem, hrow, .inl hidle⟩ hrun
  refine ⟨hok.mem, hrow, hok.task, fun _ _ _ _ _ _ _ hrecorded => ?_⟩
  obtain ⟨hrecords, -⟩ := Audit.recordIndexedManifestPin_eq_ok hrecorded
  rw [hrecords.noPending row hok.mem] at hrow
  cases hrow

end Stale

/-! ### A chain that is no longer configured

The manifest is recorded, and the process stops before it is activated. It starts again without the chain
of the manifest. -/

section Removed

open Run

def removedEntries (_ : IndexedManifestRow) : List IndexedArtifactChainEntry := [⟨⟨1, 1⟩, []⟩]

def removedRow : IndexedManifestRow := replacedRow "first" 5 ["chunk"] none none

def removedTables : PublicationTables :=
  (replacedState 0 (some 5) .idle [replacedChunk] [removedRow]).tables

def configuredFor (chains : List ChainIndexedChainConfig) : ReconcileEnvironment :=
  ⟨{}, chains, fun _ => .ok true⟩

theorem stale_removed : (configuredFor [sharedSettings 2]).Stale (removedEntries removedRow)
    removedRow.artifactCids := by
  refine .inr (.inl ⟨_, List.mem_cons_self, fun chain hchain => ?_⟩)
  rw [List.mem_singleton.mp hchain]
  decide

/-- The manifest is pending for as long as its chain is not configured again. -/
theorem removedChain_unretired :
    ∃ events, Reaches ((configuredFor [sharedSettings 1, sharedSettings 2]).Step smallPoiLibrary
        replacedContent removedEntries) (.started .empty 0) events (.started removedTables 0)
      ∧ (configuredFor [sharedSettings 2]).Stale (removedEntries removedRow) removedRow.artifactCids
      ∧ (configuredFor [sharedSettings 2]).validatePending (removedEntries removedRow)
        removedRow.artifactCids = .error (.snapshot (.unconfiguredChain 1 1))
      ∧ ∀ later t, Reaches (StaleStep smallPoiLibrary replacedContent removedEntries removedRow)
          (.started removedTables 0) later t → Unretired removedRow t := by
  have hrun := (reaches_of_instant reaches_firstRecorded).tail .restart
  refine ⟨_, hrun.mono fun event _ s next hstep => ⟨hstep, fun row _ _ => .inr ?_⟩, stale_removed, by rfl,
    fun later t hlater => Unretired.reaches ⟨List.mem_cons_self, rfl, .inl rfl⟩ hlater⟩
  exact bind_eq_ok.mpr ⟨(), by rfl, forM_eq_ok_iff.mpr fun _ _ => rfl⟩

theorem stalePending_blocks_removed :
    removedRow ∈ removedTables.indexedManifests ∧ removedRow.isPending = true := by
  have hstep : StaleStep smallPoiLibrary replacedContent removedEntries removedRow
      (.started removedTables 0) .silent
      { PublicationState.started removedTables 0 with indexed := .reconciling removedRow } :=
    ⟨_, stale_removed, .indexed (.pending rfl (by rfl)), by simp [PublicationState.started]⟩
  obtain ⟨hmem, hpending, -⟩ := stalePending_blocks rfl (by rfl) (Reaches.single hstep)
  exact ⟨hmem, hpending⟩

end Removed

end RailgunIndexer
