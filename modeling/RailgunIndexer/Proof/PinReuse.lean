import RailgunIndexer.PinReuse
import RailgunIndexer.Proof.PinSafety
import RailgunIndexer.Proof.PoiGraph
import RailgunIndexer.Proof.WalletScanCatalog

/-!
# Pins that are used again

When the pinning service returns the CID of the content hash of what it pins, every row of the artifact
tables has the CID of its own content hash, in every run of the publishers and the sweeper. A CID that is
found by its content hash is therefore that of the bytes, whether they are pinned again or not.
-/

namespace RailgunIndexer

open Lib Fallible

variable {cidOf : Bytes32 → String} {library : PoiLibrary} {content : String → PublishedContent}
  {s next : PublicationState} {event : PublicationEvent} {client : IpfsClient} {cid : String}
  {tables : PublicationTables} {bytes : Bytes}

/-! ### The tables -/

def RowsAddressed {κ μ : Type} (cidOf : Bytes32 → String) (contentHash : μ → Bytes32)
    (rows : List (ArtifactRow κ μ)) : Prop :=
  ∀ row ∈ rows, row.cid = cidOf (contentHash row.metadata)

structure TablesAddressed (cidOf : Bytes32 → String) (tables : PublicationTables) : Prop where
  poi : RowsAddressed cidOf PoiArtifactMetadata.contentHash tables.poiArtifacts
  indexed : RowsAddressed cidOf IndexedArtifactMetadata.contentHash tables.indexedArtifacts

theorem ArtifactChange.rowsAddressed {κ μ : Type} [DecidableEq κ] {contentHash : μ → Bytes32}
    {locked : κ → μ → String → Prop} {abandoned : String → Prop} {rows later : List (ArtifactRow κ μ)}
    (hrows : RowsAddressed cidOf contentHash rows)
    (hlocked : ∀ key metadata cid, locked key metadata cid → cid = cidOf (contentHash metadata))
    (hchange : ArtifactChange s locked abandoned rows later) :
    RowsAddressed cidOf contentHash later := by
  intro row hrow
  rcases hchange.row_cases hrow with ⟨old, hold, -, hmetadata, hcid⟩ | hlock
  · rw [← hmetadata, ← hcid]
    exact hrows old hold
  · exact hlocked row.key row.metadata row.cid hlock

theorem TablesAddressed.poiCid {key : PoiArtifactKey} {byteSize : Nat}
    {contentHash : Bytes32} {endRoot : Option Bytes32} (htables : TablesAddressed cidOf tables)
    (hlive : Audit.livePoiArtifactCid key byteSize contentHash endRoot tables = .ok (some cid)) :
    cid = cidOf contentHash := by
  obtain ⟨row, hrow, -, rfl, rfl⟩ := exists_of_livePoiArtifactCid hlive
  exact htables.poi row hrow

theorem TablesAddressed.indexedCid {key : IndexedArtifactKey}
    {metadata : IndexedArtifactMetadata} (htables : TablesAddressed cidOf tables)
    (hlive : Audit.liveIndexedArtifactCid key metadata tables = .ok (some cid)) :
    cid = cidOf metadata.contentHash := by
  obtain ⟨row, hrow, rfl, rfl⟩ := exists_of_liveIndexedArtifactCid hlive
  exact htables.indexed row hrow

/-! ### Runs -/

/-- A step that makes no pin but under the CID of the content hash. -/
structure AddressingStep (library : PoiLibrary) (content : String → PublishedContent)
    (cidOf : Bytes32 → String) (s : PublicationState) (event : PublicationEvent)
    (next : PublicationState) : Prop where
  step : PublicationStep library content s event next
  pins : ∀ contentHash cid, next.pinLock.bind PinSection.artifact? = some (contentHash, cid, true) →
    cid = cidOf contentHash

structure StateAddressed (cidOf : Bytes32 → String) (s : PublicationState) : Prop where
  tables : TablesAddressed cidOf s.tables
  lock : ∀ contentHash cid owned, s.pinLock.bind PinSection.artifact? = some (contentHash, cid, owned) →
    cid = cidOf contentHash

theorem AddressingStep.stateAddressed (hs : StateAddressed cidOf s)
    (hstep : AddressingStep library content cidOf s event next) : StateAddressed cidOf next where
  tables := by
    have hchange := hstep.step.tablesChange
    constructor
    · refine hchange.poiArtifacts.rowsAddressed hs.tables.poi ?_
      rintro key metadata cid ⟨owned, hlock⟩
      exact hs.lock _ cid owned (hlock ▸ rfl)
    · refine hchange.indexedArtifacts.rowsAddressed hs.tables.indexed ?_
      rintro key metadata cid ⟨owned, hlock⟩
      exact hs.lock _ cid owned (hlock ▸ rfl)
  lock := by
    intro contentHash cid owned hlocked
    rcases hstep.step.artifact_cases hlocked with hbefore | ⟨row, hrow, rfl, rfl⟩
      | ⟨row, hrow, rfl, rfl⟩ | ⟨-, rfl⟩
    · exact hs.lock contentHash cid owned hbefore
    · exact hs.tables.poi row hrow
    · exact hs.tables.indexed row hrow
    · exact hstep.pins contentHash cid hlocked

theorem tablesAddressed_of_run {clock : Nat} {events : List PublicationEvent}
    (hrun : Run.Reaches (AddressingStep library content cidOf) (.started .empty clock) events s) :
    TablesAddressed cidOf s.tables := by
  have hstarted : StateAddressed cidOf (.started .empty clock) :=
    ⟨⟨List.forall_mem_nil _, List.forall_mem_nil _⟩, fun _ _ _ hlock => by cases hlock⟩
  have hstate : StateAddressed cidOf s :=
    Run.Reaches.invariant (I := fun _ state => StateAddressed cidOf state) hrun hstarted
      fun _ _ _ _ hbefore hstep => hstep.stateAddressed hbefore
  exact hstate.tables

/-! ### The publishers' pins -/

def PinsAddressed (client : IpfsClient) (contentHash : Bytes → Bytes32) (cidOf : Bytes32 → String) :
    Prop :=
  ∀ bytes cid, client.pinBytes bytes = .ok cid → cid = cidOf (contentHash bytes)

/-- The tables are those of runs of the publishers and the sweeper. -/
def RunTables {α : Type} (library : PoiLibrary) (content : String → PublishedContent)
    (cidOf : Bytes32 → String) (tablesAt : α → PublicationTables) : Prop :=
  ∀ item, ∃ clock events state,
    Run.Reaches (AddressingStep library content cidOf) (.started .empty clock) events state
      ∧ tablesAt item = state.tables

theorem RunTables.addressed {α : Type} {tablesAt : α → PublicationTables}
    (hruns : RunTables library content cidOf tablesAt) (item : α) :
    TablesAddressed cidOf (tablesAt item) := by
  obtain ⟨clock, events, state, hrun, htables⟩ := hruns item
  rw [htables]
  exact tablesAddressed_of_run hrun

theorem reuseOrPin_cid {contentHash : Bytes → Bytes32} {reusable : Option String}
    {reused : Bool} (hpins : PinsAddressed client contentHash cidOf)
    (hreusable : ∀ found, reusable = some found → found = cidOf (contentHash bytes))
    (hok : client.reuseOrPin bytes reusable = .ok (cid, reused)) :
    cid = cidOf (contentHash bytes) := by
  have hanew : client.pinAnew bytes = .ok (cid, reused) → cid = cidOf (contentHash bytes) := by
    intro hpinned
    obtain ⟨found, hfound, hpinned⟩ := bind_eq_ok.mp hpinned
    obtain ⟨rfl, -⟩ := Prod.mk.inj (Except.ok.inj hpinned)
    exact hpins bytes found (mapError_eq_ok.mp hfound)
  cases reusable with
  | none => exact hanew hok
  | some found =>
      obtain ⟨held, -, hok⟩ := bind_eq_ok.mp hok
      split_ifs at hok
      · obtain ⟨rfl, -⟩ := Prod.mk.inj (Except.ok.inj hok)
        exact hreusable found rfl
      · exact hanew hok

theorem reuseOrPinIndexedArtifact_cid {contentHash : Bytes → Bytes32}
    {kind : IndexedArtifactPublicationKind} {descriptor : IndexedArtifactDescriptor}
    (hpins : PinsAddressed client contentHash cidOf) (htables : TablesAddressed cidOf tables)
    (hhash : descriptor.sha256 = contentHash bytes)
    (hok : client.reuseOrPinIndexedArtifact tables kind descriptor bytes = .ok cid) :
    cid = cidOf descriptor.sha256 := by
  obtain ⟨reusable, hlive, hok⟩ := bind_eq_ok.mp hok
  obtain ⟨⟨found, reused⟩, hfound, hok⟩ := bind_eq_ok.mp hok
  cases hok
  rw [hhash]
  refine reuseOrPin_cid hpins ?_ hfound
  rintro earlier rfl
  rw [← hhash]
  exact htables.indexedCid (mapError_eq_ok.mp hlive)

/-- **A POI publisher that uses earlier pins again pins by content.** -/
theorem pinsByContent_onTables {publisher : PoiPublisher}
    {tablesAt : PoiArtifactKey → PublicationTables}
    (hpins : PinsAddressed client publisher.library.contentHash cidOf)
    (hraw : ∀ bytes, publisher.library.rawBlockCid bytes = cidOf (publisher.library.contentHash bytes))
    (hruns : RunTables library content cidOf tablesAt) :
    PinsByContent (publisher.onTables client tablesAt) := by
  intro key endRoot bytes cid reused hok
  obtain ⟨reusable, hlive, hok⟩ := bind_eq_ok.mp (mapError_eq_ok.mp hok)
  change cid = publisher.library.rawBlockCid bytes
  rw [hraw]
  refine reuseOrPin_cid hpins ?_ hok
  rintro found rfl
  exact (hruns.addressed key).poiCid (mapError_eq_ok.mp hlive)

/-- **A chunk or a catalog is published under the CID of its bytes**, whether they are pinned again or
not. -/
theorem reuseOrPin_onTables {publisher : Publisher} {catalogs : CatalogLibrary}
    {contentHash : Bytes → Bytes32} {tablesAt : IndexedArtifactDescriptor → PublicationTables}
    {descriptor : IndexedArtifactDescriptor}
    (hpins : PinsAddressed client contentHash cidOf) (hruns : RunTables library content cidOf tablesAt)
    (hhash : descriptor.sha256 = contentHash bytes)
    (hok : (publisher.onTables client tablesAt).reuseOrPinIndexedArtifact descriptor bytes = .ok cid
      ∨ (catalogs.onTables client tablesAt).reuseOrPinCatalog descriptor bytes = .ok cid) :
    cid = cidOf descriptor.sha256 := by
  have htables := hruns.addressed descriptor
  rcases hok with hchunk | hcatalog
  · exact reuseOrPinIndexedArtifact_cid hpins htables hhash (mapError_eq_ok.mp hchunk)
  · exact reuseOrPinIndexedArtifact_cid hpins htables hhash (mapError_eq_ok.mp hcatalog)

end RailgunIndexer
