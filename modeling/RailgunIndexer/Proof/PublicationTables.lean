import RailgunIndexer.PublicationRun

/-!
# What a publication transaction does

One lemma for each transaction says what it requires and which columns it writes. A manifest row only
ever moves forward: it is activated when it was pending, superseded, invalidated when it was pending,
and unpinned when it was superseded.
-/

namespace RailgunIndexer

open Lib Fallible

/-! ### Transactions -/

namespace Audit

variable {after tables : PublicationTables} {cid : String} {now : Nat} {library : PoiLibrary}
  {artifactCids : List String} {contentHash : Bytes32}

theorem u64ToI64_eq_ok {value result : Nat} {field : String} (hok : u64ToI64 value field = .ok result) :
    value = result ∧ value < i64Bound := by
  rw [u64ToI64] at hok
  split_ifs at hok with hbound
  exact ⟨Except.ok.inj hok, Nat.lt_of_not_le hbound⟩

theorem recordPoiArtifactPin_eq_ok {key : PoiArtifactKey} {metadata : PoiArtifactMetadata}
    (hok : recordPoiArtifactPin now key cid metadata tables = .ok after) :
    after = { tables with
      poiArtifacts := upsertArtifact now key cid metadata id tables.poiArtifacts } := by
  obtain ⟨_, -, hok⟩ := bind_eq_ok.mp hok
  split_ifs at hok
  exact (Except.ok.inj hok).symm

theorem recordIndexedArtifactPin_eq_ok {key : IndexedArtifactKey}
    {metadata : IndexedArtifactMetadata}
    (hok : recordIndexedArtifactPin now key cid metadata tables = .ok after) :
    after = { tables with
      indexedArtifacts := upsertArtifact now key cid metadata (fun _ => metadata)
        tables.indexedArtifacts } := by
  obtain ⟨_, -, hok⟩ := bind_eq_ok.mp hok
  exact (Except.ok.inj hok).symm

section Manifests

variable {β : Type} {rows : List (ManifestRow β)} {row : ManifestRow β}
  {channel : String}

theorem pendingManifest_eq_some_iff :
    pendingManifest channel rows = .ok (some row) ↔ rows.filter ManifestRow.isPending = [row] := by
  rw [pendingManifest]
  generalize rows.filter ManifestRow.isPending = pending
  rcases pending with _ | ⟨first, _ | ⟨second, rest⟩⟩ <;> simp

theorem pendingManifest_eq_some
    (hok : pendingManifest channel rows = .ok (some row)) : row ∈ rows ∧ row.isPending = true := by
  refine List.mem_filter.mp ?_
  rw [pendingManifest_eq_some_iff.mp hok]
  exact List.mem_singleton_self row

theorem rejectUnresolvedPending_eq_ok
    (hok : rejectUnresolvedPending channel rows = .ok ()) : ∀ row ∈ rows, row.isPending = false := by
  rw [rejectUnresolvedPending] at hok
  split at hok
  · rename_i hnone
    intro row hrow
    exact Bool.eq_false_iff.mpr (List.find?_eq_none.mp hnone row hrow)
  · cases hok

theorem mem_of_liveCids {κ μ : Type} {cids : List String} {artifacts : List (ArtifactRow κ μ)}
    (hlive : cids.dedup.length ≤ (liveCids cids artifacts).length) :
    ∀ cid ∈ cids, ∃ row ∈ artifacts, row.isLive = true ∧ row.cid = cid := by
  intro cid hcid
  have hfilter : liveCids cids artifacts = cids.dedup :=
    List.filter_sublist.eq_of_length_le hlive
  rw [← List.mem_dedup, ← hfilter, liveCids, List.mem_filter, List.any_eq_true] at hcid
  obtain ⟨-, row, hrow, hrowLive⟩ := hcid
  rw [Bool.and_eq_true, decide_eq_true_eq] at hrowLive
  exact ⟨row, hrow, hrowLive⟩

end Manifests

def freshManifest {β : Type} (cid : String) (sequence : Nat) (body : β) (byteSize : Nat)
    (contentHash : Bytes32) (artifactCids : List String) : ManifestRow β :=
  { cid, ipnsSequence := sequence, byteSize, contentHash, body, artifactCids := artifactCids.dedup }

theorem checkPoiEntries_eq_ok {entries : List PoiManifestEntry}
    (hok : checkPoiEntries library entries = .ok ()) :
    (∀ entry ∈ entries, library.validateEntry entry = .ok ()
      ∧ entry.scope.chainId < i64Bound) ∧ (entries.map PoiManifestEntry.scope).Nodup := by
  obtain ⟨_, hentries, hok⟩ := bind_eq_ok.mp hok
  split_ifs at hok with hnodup
  refine ⟨fun entry hentry => ?_, hnodup⟩
  have hentry := forM_eq_ok_iff.mp hentries entry hentry
  obtain ⟨⟨⟩, hvalid, hentry⟩ := bind_eq_ok.mp hentry
  obtain ⟨_, hchain, -⟩ := bind_eq_ok.mp hentry
  exact ⟨mapError_eq_ok.mp hvalid, (u64ToI64_eq_ok hchain).2⟩

structure RecordsPoiManifest (library : PoiLibrary) (entries : List PoiManifestEntry)
    (artifactCids : List String) (sequence : Nat) (tables : PublicationTables) : Prop where
  bound : sequence < i64Bound
  live : ∀ cid ∈ artifactCids, ∃ row ∈ tables.poiArtifacts, row.isLive = true ∧ row.cid = cid
  noPending : ∀ row ∈ tables.poiManifests, row.isPending = false
  entries_ok : checkPoiEntries library entries = .ok ()

theorem recordPoiArtifactManifestPin_eq_ok {entries : List PoiManifestEntry}
    {sequence byteSize : Nat}
    (hok : recordPoiArtifactManifestPin library cid entries artifactCids sequence byteSize
      contentHash tables = .ok after) :
    RecordsPoiManifest library entries artifactCids sequence tables
      ∧ after = { tables with
        poiManifests := tables.poiManifests ++
          [freshManifest cid sequence entries byteSize contentHash artifactCids] } := by
  obtain ⟨stored, hsequence, hok⟩ := bind_eq_ok.mp hok
  obtain ⟨size, hsize, hok⟩ := bind_eq_ok.mp hok
  obtain ⟨rfl, hbound⟩ := u64ToI64_eq_ok hsequence
  obtain ⟨rfl, -⟩ := u64ToI64_eq_ok hsize
  dsimp only at hok
  split_ifs at hok with hlive
  obtain ⟨⟨⟩, hpending, hok⟩ := bind_eq_ok.mp hok
  obtain ⟨⟨⟩, hentries, hok⟩ := bind_eq_ok.mp hok
  refine ⟨⟨hbound, mem_of_liveCids (by omega), rejectUnresolvedPending_eq_ok hpending, hentries⟩, ?_⟩
  exact (Except.ok.inj hok).symm

structure RecordsIndexedManifest (artifactCids : List String) (sequence : Nat)
    (tables : PublicationTables) : Prop where
  bound : sequence < i64Bound
  live : ∀ cid ∈ artifactCids, ∃ row ∈ tables.indexedArtifacts, row.isLive = true ∧ row.cid = cid
  noPending : ∀ row ∈ tables.indexedManifests, row.isPending = false

theorem recordIndexedManifestPin_eq_ok {sequence byteSize : Nat} {manifestJson : Bytes}
    (hok : recordIndexedManifestPin cid artifactCids sequence byteSize contentHash manifestJson
      tables = .ok after) :
    RecordsIndexedManifest artifactCids sequence tables
      ∧ after = { tables with
        indexedManifests := tables.indexedManifests ++
          [freshManifest cid sequence (some manifestJson) byteSize contentHash artifactCids] } := by
  obtain ⟨stored, hsequence, hok⟩ := bind_eq_ok.mp hok
  obtain ⟨size, hsize, hok⟩ := bind_eq_ok.mp hok
  obtain ⟨rfl, hbound⟩ := u64ToI64_eq_ok hsequence
  obtain ⟨rfl, -⟩ := u64ToI64_eq_ok hsize
  dsimp only at hok
  split_ifs at hok with hlive
  obtain ⟨⟨⟩, hpending, hok⟩ := bind_eq_ok.mp hok
  have hdistinct := artifactCids.dedup_sublist.length_le
  refine ⟨⟨hbound, mem_of_liveCids (by omega), rejectUnresolvedPending_eq_ok hpending⟩, ?_⟩
  exact (Except.ok.inj hok).symm

theorem recordPoiArtifactManifestIpnsPublication_eq_ok {sequence : Nat}
    (hok : recordPoiArtifactManifestIpnsPublication now cid sequence tables = .ok after) :
    (∃ row ∈ tables.poiManifests, activates cid sequence row = true)
      ∧ after = { tables with
        poiManifests := supersede now (fun row =>
          (row.cid ≠ cid && row.ipnsPublishedAt.isSome) || isInvalidatedBefore sequence row)
            (activate now cid sequence tables.poiManifests) } := by
  obtain ⟨stored, hsequence, hok⟩ := bind_eq_ok.mp hok
  obtain ⟨rfl, -⟩ := u64ToI64_eq_ok hsequence
  obtain ⟨⟨⟩, -, hok⟩ := bind_eq_ok.mp hok
  split_ifs at hok with hany
  refine ⟨List.any_eq_true.mp ?_, (Except.ok.inj hok).symm⟩
  simpa using hany

theorem recordIndexedManifestIpnsPublication_eq_ok {sequence : Nat}
    (hok : recordIndexedManifestIpnsPublication now cid sequence tables = .ok after) :
    (∃ row ∈ tables.indexedManifests, activates cid sequence row = true)
      ∧ after = { tables with
        indexedManifests := supersede now (fun row =>
          (row.ipnsPublishedAt.isSome && (row.cid ≠ cid || row.ipnsSequence ≠ sequence))
            || isInvalidatedBefore sequence row)
            (activate now cid sequence tables.indexedManifests) } := by
  obtain ⟨stored, hsequence, hok⟩ := bind_eq_ok.mp hok
  obtain ⟨rfl, -⟩ := u64ToI64_eq_ok hsequence
  obtain ⟨⟨⟩, -, hok⟩ := bind_eq_ok.mp hok
  split_ifs at hok with hany
  refine ⟨List.any_eq_true.mp ?_, (Except.ok.inj hok).symm⟩
  simpa using hany

theorem invalidatePendingPoiManifestReconciliation_eq_ok {sequence : Nat}
    (hok : invalidatePendingPoiManifestReconciliation now cid sequence tables = .ok after) :
    ∃ pending, tables.poiManifests.filter ManifestRow.isPending = [pending] ∧ pending.cid = cid
      ∧ pending.ipnsSequence = sequence
      ∧ after = { tables with
        poiManifests := Table.update ManifestRow.isPending
          (fun row => { row with reconciliationInvalidatedAt := some now }) tables.poiManifests
        ipnsLastSequence := some (max (tables.ipnsLastSequence.getD sequence) sequence) } := by
  obtain ⟨stored, hsequence, hok⟩ := bind_eq_ok.mp hok
  obtain ⟨rfl, -⟩ := u64ToI64_eq_ok hsequence
  split at hok
  · rename_i pending hfilter
    split_ifs at hok with hother
    rw [not_or, not_not, not_not] at hother
    exact ⟨pending, hfilter, hother.1, hother.2, (Except.ok.inj hok).symm⟩
  · cases hok
  · split at hok <;> cases hok

def abandonedArtifacts (now : Nat) (cid : String) (sequence : Nat) (unavailable : Option String)
    (manifests : List PoiManifestRow) (rows : List PoiArtifactRow) : List PoiArtifactRow :=
  unavailable.elim rows fun unavailable => Table.update
    (fun row => row.cid = unavailable && row.isLive
      && invalidatedReferences cid sequence row.cid manifests)
    (fun row => { row with unpinnedAt := some now }) rows

theorem abandonPendingPoiV4ManifestReconciliation_eq_ok {sequence : Nat}
    {unavailable : Option String}
    (hok : abandonPendingPoiV4ManifestReconciliation now cid sequence unavailable tables = .ok
      after) :
    ∃ invalidated, invalidatePendingPoiManifestReconciliation now cid sequence tables = .ok invalidated
      ∧ after = { invalidated with
        poiArtifacts := abandonedArtifacts now cid sequence unavailable invalidated.poiManifests
          invalidated.poiArtifacts } := by
  obtain ⟨invalidated, hinvalidated, hok⟩ := bind_eq_ok.mp hok
  refine ⟨invalidated, hinvalidated, ?_⟩
  cases unavailable <;> exact (Except.ok.inj hok).symm

theorem reservePoiPublicationSequence_eq_ok {minimum sequence : Nat}
    (hok : reservePoiPublicationSequence minimum tables = .ok (after, sequence)) :
    (∀ last ∈ tables.ipnsLastSequence, last < sequence)
      ∧ after = { tables with ipnsLastSequence := some sequence } := by
  obtain ⟨least, -, hok⟩ := bind_eq_ok.mp hok
  obtain ⟨stored, hsequence, hok⟩ := bind_eq_ok.mp hok
  cases hok
  refine ⟨fun last hlast => ?_, rfl⟩
  have hstored := (u64ToI64_eq_ok hsequence).1
  rw [Option.mem_def.mp hlast] at hstored
  dsimp only at hstored
  omega

theorem recordChainIndexedIpnsSequence_eq_ok {sequence : Nat}
    (hok : recordChainIndexedIpnsSequence sequence tables = .ok after) :
    sequence < i64Bound
      ∧ after = { tables with
        chainIndexedIpnsLastSequence :=
          some (max (tables.chainIndexedIpnsLastSequence.getD sequence) sequence) } := by
  obtain ⟨stored, hsequence, hok⟩ := bind_eq_ok.mp hok
  obtain ⟨rfl, hbound⟩ := u64ToI64_eq_ok hsequence
  exact ⟨hbound, (Except.ok.inj hok).symm⟩

theorem recordPinCleanupDebt_eq (cid : String) (tables : PublicationTables) :
    ∃ debts, recordPinCleanupDebt cid tables = { tables with pinCleanupDebt := debts } := by
  rw [recordPinCleanupDebt]
  split_ifs
  · exact ⟨tables.pinCleanupDebt, rfl⟩
  · exact ⟨_, rfl⟩

end Audit

/-! ### Marks -/

namespace Retention

variable {sweptAt cutoff : Nat} {cid : String} {tables : PublicationTables}

/-- What a sweep writes: it marks the stale rows of the POI tables, and those of the chain-indexed
tables unless these protect the CID. -/
structure Marked (sweptAt cutoff : Nat) (cid : String) (tables after : PublicationTables) : Prop where
  poiManifests : after.poiManifests = markManifests sweptAt cutoff cid tables.poiManifests
  poiArtifacts : after.poiArtifacts = markArtifacts sweptAt cutoff cid tables.poiArtifacts
  indexedManifests : after.indexedManifests = tables.indexedManifests
    ∨ after.indexedManifests = markManifests sweptAt cutoff cid tables.indexedManifests
  indexedArtifacts : after.indexedArtifacts = tables.indexedArtifacts
    ∨ after.indexedArtifacts = markArtifacts sweptAt cutoff cid tables.indexedArtifacts
  ipnsLastSequence : after.ipnsLastSequence = tables.ipnsLastSequence
  chainIndexedIpnsLastSequence :
    after.chainIndexedIpnsLastSequence = tables.chainIndexedIpnsLastSequence

theorem marked_markUnpinned :
    Marked sweptAt cutoff cid tables (markUnpinned sweptAt cutoff cid tables) := by
  rw [markUnpinned, markIndexedArtifacts, markIndexedManifests]
  split_ifs
  all_goals refine ⟨rfl, rfl, ?_, ?_, rfl, rfl⟩
  all_goals first | exact .inl rfl | exact .inr rfl

end Retention

end RailgunIndexer
