import RailgunIndexer.Lib.Run
import RailgunIndexer.Proof.PoiScraper

/-!
# What a tip denotes

Workers of one upstream, one at a time, read a list into tables that have none of its rows. The rows are
then always the complete events of a list of checked events, and a tip counts all of them and has the root
that a cache of just these events has. So the rows up to a tip replay to its root.

The argument follows the cache. It never has more than the stored events, and a page that it accepts must
start where the tip says, so at that moment it has all of them.
-/

namespace RailgunIndexer

open Lib Transactions Fallible

variable {Cache : Type} {library : ScrapeLibrary Cache} {applied : Cache → List SnapshotEvent}
  {listKey : Bytes32} {chainId : Nat} {upstreamUrl : String}

/-! ### Rows and events -/

def StoredEvent.completeRow (event : StoredEvent) : PoiEventRow :=
  ⟨event.blindedCommitment, event.signature, event.eventType, true⟩

structure RowsOf (listKey : Bytes32) (chainId : Nat) (tables : PoiTables) (events : List StoredEvent) :
    Prop where
  rows : ∀ eventIndex, (tables.events (listKey, chainId)).get? eventIndex
    = events[eventIndex]?.map StoredEvent.completeRow
  numbered : events.map StoredEvent.eventIndex = List.range events.length
  sized : ∀ event ∈ events, event.signature.length = signatureBytes

section Rows

variable {tables : PoiTables} {events : List StoredEvent}

section

variable (hrows : RowsOf listKey chainId tables events)

include hrows

theorem RowsOf.eventIndex {eventIndex : Nat}
    {event : StoredEvent} (hevent : events[eventIndex]? = some event) :
    event.eventIndex = eventIndex := by
  have hindex := congrArg (·[eventIndex]?) hrows.numbered
  obtain ⟨hlt, rfl⟩ := List.getElem?_eq_some_iff.mp hevent
  simpa [hlt] using hindex

theorem RowsOf.complete {eventIndex : Nat}
    {row : PoiEventRow} (hrow : (tables.events (listKey, chainId)).get? eventIndex = some row) :
    ∃ event, events[eventIndex]? = some event ∧ row = event.completeRow := by
  rw [hrows.rows] at hrow
  obtain ⟨event, hevent, rfl⟩ := Option.map_eq_some_iff.mp hrow
  exact ⟨event, hevent, rfl⟩

theorem RowsOf.rowsThrough {last : Nat} (hlast : last + 1 = events.length) :
    (rowsThrough listKey chainId tables last).map (fun entry => .ofRow entry.1 entry.2) = events := by
  have hkeys : (RailgunIndexer.rowsThrough listKey chainId tables last).map Prod.fst
      = List.range (last + 1) := by
    apply rowsThrough_keys
    intro eventIndex hindex
    rw [hrows.rows, List.getElem?_eq_getElem (by omega)]
    rfl
  have hlength := congrArg List.length hkeys
  rw [List.length_map, List.length_range] at hlength
  apply List.ext_getElem
  · rw [List.length_map, hlength, hlast]
  · intro eventIndex hmapped hindex
    rw [List.length_map] at hmapped
    have hkey : (RailgunIndexer.rowsThrough listKey chainId tables last)[eventIndex].1
        = eventIndex := by
      have hget := congrArg (·[eventIndex]?) hkeys
      simpa [hmapped, hlast, hindex] using hget
    have hrow := mem_rowsThrough (List.getElem_mem hmapped)
    rw [hkey] at hrow
    obtain ⟨event, hevent, hsame⟩ := hrows.complete hrow
    rw [List.getElem_map, hkey, hsame]
    calc StoredEvent.ofRow eventIndex event.completeRow
      _ = .ofRow event.eventIndex event.completeRow := by rw [hrows.eventIndex hevent]
      _ = event := rfl
      _ = events[eventIndex] := (List.getElem?_eq_some_iff.mp hevent).2.symm

theorem RowsOf.pageEventRange {last : Nat}
    {requireComplete : Bool} (hchain : chainId < i64Bound) (hlast : last < i64Bound)
    (hlength : last + 1 = events.length) :
    pageEventRangeWithCompleteness listKey chainId tables 0 last requireComplete = .ok events := by
  apply pageEventRangeWithCompleteness_eq_ok.mpr
  refine ⟨hchain, hlast, ?_, ?_, (hrows.rowsThrough hlength).symm⟩
  · intro _ entry hentry
    obtain ⟨event, -, hrow⟩ := hrows.complete (mem_rowsThrough hentry)
    rw [hrow]
    rfl
  · intro entry hentry
    obtain ⟨event, hevent, hrow⟩ := hrows.complete (mem_rowsThrough hentry)
    rw [hrow]
    exact hrows.sized event (List.mem_of_getElem? hevent)

end

theorem RowsOf.append {worker : ScrapeWorker Cache} {page : ScrapedPage} {root : Bytes32}
    {after : PoiTables} (hrows : RowsOf worker.listKey worker.chainId tables events)
    (hpage : CheckedPage library worker.listKey events.length page)
    (hstored : StoredPage library worker tables page root after) :
    RowsOf worker.listKey worker.chainId after
      (events ++ page.events.map (SignedPoiEvent.stored library.decodeHex)) := by
  have hother : ∀ eventIndex, page.events[eventIndex - events.length]? = none
      ∨ eventIndex < events.length → ∀ event ∈ page.events, event.index ≠ eventIndex := by
    intro eventIndex houtside event hevent hsame
    obtain ⟨offset, hoffset⟩ := List.getElem?_of_mem hevent
    have hindex := hpage.index hoffset
    rcases houtside with hnone | hbefore
    · rw [← hsame, hindex, Nat.add_sub_cancel_left, hoffset] at hnone
      cases hnone
    · omega
  constructor
  · intro eventIndex
    by_cases hbefore : eventIndex < events.length
    · rw [List.getElem?_append_left hbefore, ← hrows.rows]
      exact hstored.events eventIndex (hother eventIndex (.inr hbefore))
    · have hle := Nat.le_of_not_lt hbefore
      rw [List.getElem?_append_right hle, List.getElem?_map]
      cases hget : page.events[eventIndex - events.length]? with
      | none =>
          rw [hstored.events eventIndex (hother eventIndex (.inl hget)), hrows.rows,
            List.getElem?_eq_none hle]
          rfl
      | some event =>
          obtain ⟨signature, hsignature, hrow⟩ := hstored.stored event (List.mem_of_getElem? hget)
          have hindex : event.index = eventIndex := by
            rw [hpage.index hget, Nat.add_sub_cancel' hle]
          have hmem := List.mem_of_getElem? hget
          rw [(hpage.checked event hmem).decodeFixedHex] at hsignature
          rw [← hindex, hrow, ← Except.ok.inj hsignature]
          rfl
  · rw [List.map_append, hrows.numbered, List.map_map, List.length_append, List.length_map,
      List.range_add, ← List.range'_eq_map_range]
    exact congrArg _ hpage.numbered
  · intro event hevent
    rcases List.mem_append.mp hevent with hold | hnew
    · exact hrows.sized event hold
    · obtain ⟨signed, hsigned, rfl⟩ := List.mem_map.mp hnew
      exact (hpage.checked signed hsigned).sized

end Rows

/-! ### Scraped tables -/

/-- The rows are those of checked events, and a tip counts them all and has their root. -/
structure Scraped (library : ScrapeLibrary Cache) (applied : Cache → List SnapshotEvent)
    (listKey : Bytes32) (chainId : Nat) (upstreamUrl : String) (tables : PoiTables)
    (events : List StoredEvent) : Prop extends RowsOf listKey chainId tables events where
  verified : ∀ event ∈ events,
    library.verifyPoiEvent (event.signed library.encodeHex) listKey = .ok ()
  noTip : (tables.tips (listKey, chainId)).get? upstreamUrl = none → events = []
  tip : ∀ tip, (tables.tips (listKey, chainId)).get? upstreamUrl = some tip →
    chainId < i64Bound ∧ tip.lastEventIndex < i64Bound ∧ tip.lastEventIndex + 1 = events.length
      ∧ ∃ root cache, tip.lastTipMerkleroot = some (rootBytes root)
        ∧ applied cache = events.map StoredEvent.snapshot
        ∧ library.currentRoots cache (library.normalizeTreePosition 0 tip.lastEventIndex).1
          = some root

section Scraping

variable {worker : ScrapeWorker Cache} {tables after : PoiTables} {events : List StoredEvent}

theorem RowsOf.numberedFrom (hrows : RowsOf listKey chainId tables events) :
    NumberedFrom 0 (events.map StoredEvent.snapshot) := by
  rw [NumberedFrom, List.length_map, ← List.range_eq_range', ← hrows.numbered, List.map_map]
  rfl

theorem Scraped.nextStartIndex {startIndex : Nat}
    (hscraped : Scraped library applied worker.listKey worker.chainId worker.upstreamUrl tables events)
    (hstart : nextStartIndex worker tables = .ok startIndex) : startIndex = events.length := by
  obtain ⟨incomplete, hincomplete, hstart⟩ := bind_eq_ok.mp hstart
  obtain ⟨-, hfirst⟩ := firstIncompleteEventIndex_eq_ok.mp (mapError_eq_ok.mp hincomplete)
  have hnone : incomplete = none := by
    rw [hfirst, Option.map_eq_none_iff, List.find?_eq_none]
    intro entry hentry
    obtain ⟨event, -, hrow⟩ := hscraped.complete (OrdMap.get?_eq_some_iff.mpr hentry)
    rw [hrow]
    simp [StoredEvent.completeRow]
  subst hnone
  obtain ⟨tip, htip, hstart⟩ := bind_eq_ok.mp hstart
  obtain ⟨-, rfl⟩ := lastEventIndex_eq_ok.mp (mapError_eq_ok.mp htip)
  cases hrow : (tables.tips (worker.listKey, worker.chainId)).get? worker.upstreamUrl with
  | none =>
      rw [hrow] at hstart
      rw [hscraped.noTip hrow, ← Except.ok.inj hstart]
      rfl
  | some row =>
      rw [hrow] at hstart
      dsimp only [Option.map_some] at hstart
      split_ifs at hstart
      rw [← (hscraped.tip row hrow).2.2.1, ← Except.ok.inj hstart]

theorem Scraped.loadPoiCache {cache : Cache} (hbehaves : CacheBehaves library applied)
    (hscraped : Scraped library applied worker.listKey worker.chainId worker.upstreamUrl tables events)
    (hload : loadPoiCache library worker tables = .ok cache) :
    applied cache = events.map StoredEvent.snapshot := by
  obtain ⟨tip, htip, hload⟩ := bind_eq_ok.mp hload
  obtain ⟨-, rfl⟩ := lastEventIndex_eq_ok.mp (mapError_eq_ok.mp htip)
  cases hrow : (tables.tips (worker.listKey, worker.chainId)).get? worker.upstreamUrl with
  | none =>
      rw [hrow] at hload
      rw [hscraped.noTip hrow, ← Except.ok.inj hload]
      exact hbehaves.new worker.scope
  | some row =>
      rw [hrow] at hload
      obtain ⟨found, hfound, hload⟩ := bind_eq_ok.mp hload
      obtain ⟨hchain, hlast, hlength, -⟩ := hscraped.tip row hrow
      rw [hydrationEvents_of_some hchain hrow (hscraped.pageEventRange hchain hlast hlength)] at hfound
      cases hfound
      have hnew := hbehaves.new worker.scope
      have hnumbered := hscraped.numberedFrom
      rw [hbehaves.append _ _ _ (by rwa [hnew]) (mapError_eq_ok.mp hload), hnew, List.nil_append]

theorem bytes_of_decodeFixedHex_root {root : Bytes32} {bytes : Bytes} (hhex : HexBehaves library)
    (hok : decodeFixedHex library.decodeHex "last_tip_merkleroot" merklerootBytes
      ("0x" ++ library.encodeHex (rootBytes root)) = .ok bytes) : bytes = rootBytes root := by
  have hstrip : strip0x ("0x" ++ library.encodeHex (rootBytes root))
      = library.encodeHex (rootBytes root) := by
    simp [strip0x]
  rw [decodeFixedHex, hstrip, hhex.decode] at hok
  exact (exactArray_eq_ok hok).2

theorem CheckedEvent.verified_stored {event : SignedPoiEvent} (hhex : HexBehaves library)
    (hevent : CheckedEvent library listKey event) :
    library.verifyPoiEvent ((event.stored library.decodeHex).signed library.encodeHex) listKey
      = .ok () := by
  rw [← hevent.verified]
  apply hhex.verify
  · rfl
  · rfl
  · rfl
  · rw [hevent.decoded, StoredEvent.signed, hhex.plain, hhex.decode]

theorem Scraped.store {cache next : Cache} {startIndex : Nat} {page : ScrapedPage} {root : Bytes32}
    (hbehaves : CacheBehaves library applied) (hhex : HexBehaves library)
    (hscraped : Scraped library applied worker.listKey worker.chainId worker.upstreamUrl tables events)
    (hcache : applied cache <+: events.map StoredEvent.snapshot)
    (hstart : RailgunIndexer.nextStartIndex worker tables = .ok startIndex)
    (hpage : CheckedPage library worker.listKey startIndex page)
    (happlied : library.applyVerifiedArtifactEvents cache page.snapshotEvents = .ok next)
    (hroot : library.currentRoots next (library.normalizeTreePosition 0 page.lastEventIndex).1
      = some root)
    (hstored : StoredPage library worker tables page root after) :
    Scraped library applied worker.listKey worker.chainId worker.upstreamUrl after
        (events ++ page.events.map (SignedPoiEvent.stored library.decodeHex))
      ∧ applied next = (events ++ page.events.map (SignedPoiEvent.stored library.decodeHex)).map
        StoredEvent.snapshot := by
  obtain rfl := hscraped.nextStartIndex hstart
  have hnonempty : page.snapshotEvents ≠ [] := by
    rw [hpage.snapshots]
    simpa using hpage.nonempty
  have hgap := hbehaves.gap cache next _ _ hpage.numberedFrom hnonempty happlied
  have hall : applied cache = events.map StoredEvent.snapshot :=
    hcache.eq_of_length_le (by rwa [List.length_map])
  have hnext : applied next = (events ++ page.events.map
      (SignedPoiEvent.stored library.decodeHex)).map StoredEvent.snapshot := by
    rw [List.map_append, ← hall, ← hpage.snapshots]
    apply hbehaves.append cache next
    · rw [hall, List.length_map]
      exact hpage.numberedFrom
    · exact happlied
  refine ⟨⟨hscraped.append hpage hstored, ?_, ?_, ?_⟩, hnext⟩
  · intro event hevent
    rcases List.mem_append.mp hevent with hold | hnew
    · exact hscraped.verified event hold
    · obtain ⟨signed, hsigned, rfl⟩ := List.mem_map.mp hnew
      exact (hpage.checked signed hsigned).verified_stored hhex
  · intro hnone
    obtain ⟨row, hrow, -⟩ := hstored.tip
    rw [hnone] at hrow
    cases hrow
  · intro tip htip
    obtain ⟨row, hrow, hcases⟩ := hstored.tip
    rw [htip] at hrow
    cases hrow
    have hlast := hpage.last
    rcases hcases with ⟨hold, hlower⟩ | ⟨hindex, hfits, bytes, hbytes, hmerkleroot⟩
    · have hlength := (hscraped.tip tip hold).2.2.1
      omega
    · rw [List.length_append, List.length_map, hindex]
      refine ⟨hstored.fits, hfits, hlast, root, next, ?_, hnext, hroot⟩
      rw [hmerkleroot, bytes_of_decodeFixedHex_root hhex hbytes]

end Scraping

/-! ### Replay -/

section Replay

variable {tables : PoiTables} {events : List StoredEvent}

theorem replayEvent_eq_ok {stored : StoredEvent × Nat} {snapshot : SnapshotEvent} :
    replayEvent library listKey stored.1 stored.2 = .ok snapshot
      ↔ (stored.1.eventIndex = stored.2
          ∧ library.verifyPoiEvent (stored.1.signed library.encodeHex) listKey = .ok ())
        ∧ snapshot = stored.1.snapshot := by
  rw [replayEvent]
  split_ifs with hindex
  · simp [hindex]
  · rw [bind_eq_ok]
    simp only [mapError_eq_ok, pure_eq_ok, Except.ok.injEq, not_not.mp hindex, true_and]
    constructor
    · rintro ⟨_, hverified, rfl⟩
      exact ⟨hverified, rfl⟩
    · rintro ⟨hverified, rfl⟩
      exact ⟨(), hverified, rfl⟩

theorem Scraped.mapM_replayEvent
    (hscraped : Scraped library applied listKey chainId upstreamUrl tables events) :
    events.zipIdx.mapM (fun stored => replayEvent library listKey stored.1 stored.2)
      = .ok (events.map StoredEvent.snapshot) := by
  rw [mapM_eq_ok_iff_map fun _ _ => replayEvent_eq_ok]
  constructor
  · rintro ⟨event, eventIndex⟩ hmem
    have hget := List.mk_mem_zipIdx_iff_getElem?.mp hmem
    exact ⟨hscraped.eventIndex hget, hscraped.verified event (List.mem_of_getElem? hget)⟩
  · apply List.ext_getElem <;> simp

theorem Scraped.replay {tip : ChainTipRow} {root : Bytes32} {cache : Cache} {scope : PoiScope}
    {error : ReplayError} (hbehaves : CacheBehaves library applied)
    (hscraped : Scraped library applied scope.listKey chainId upstreamUrl tables events)
    (hlength : tip.lastEventIndex + 1 = events.length)
    (hcache : applied cache = events.map StoredEvent.snapshot)
    (hroot : library.currentRoots cache (library.normalizeTreePosition 0 tip.lastEventIndex).1
      = some root)
    (hreplay : ValidatedCorpus.replay library scope events (some root) = .error error) :
    ∃ reason, error = .cache reason := by
  rw [ValidatedCorpus.replay, hscraped.mapM_replayEvent, ok_bind] at hreplay
  cases happly : library.applyVerifiedArtifactEvents (library.newCache scope)
      (events.map StoredEvent.snapshot) with
  | error reason =>
      rw [happly] at hreplay
      exact ⟨reason, (Except.error.inj hreplay).symm⟩
  | ok replayed =>
      have hnew := hbehaves.new scope
      have happlied : applied replayed = events.map StoredEvent.snapshot := by
        rw [hbehaves.append _ _ _ (hnew ▸ hscraped.numberedFrom) happly, hnew, List.nil_append]
      obtain ⟨hcurrent, -⟩ := hbehaves.roots replayed cache (happlied.trans hcache.symm)
      obtain ⟨event, hevent⟩ : ∃ event, events[tip.lastEventIndex]? = some event :=
        ⟨_, List.getElem?_eq_getElem (by omega)⟩
      have hindex : event.snapshot.eventIndex = tip.lastEventIndex := hscraped.eventIndex hevent
      have hlast : (events.map StoredEvent.snapshot).getLast? = some event.snapshot := by
        rw [List.getLast?_map, List.getLast?_eq_getElem?, ← hlength, Nat.add_sub_cancel, hevent]
        rfl
      have hat : library.rootAtGlobalIndex replayed event.snapshot.eventIndex = some root := by
        rw [hbehaves.last replayed event.snapshot (happlied ▸ hlast), hcurrent, hindex, hroot]
      rw [happly] at hreplay
      dsimp only [Except.mapError] at hreplay
      rw [ok_bind, hlast, checkFinalRoot, hat] at hreplay
      simp at hreplay

end Replay

/-! ### Runs -/

def ScrapedState (library : ScrapeLibrary Cache) (applied : Cache → List SnapshotEvent)
    (listKey : Bytes32) (chainId : Nat) (upstreamUrl : String) (state : ScrapeState Cache) : Prop :=
  ∃ events, Scraped library applied listKey chainId upstreamUrl state.tables events
    ∧ ∀ cache, state.cache upstreamUrl = some cache →
      applied cache <+: events.map StoredEvent.snapshot

def ScrapeEvent.OfUpstream (upstreamUrl : String) (event : ScrapeEvent) : Prop :=
  event = .sync upstreamUrl ∨ event = .restart upstreamUrl

theorem ScrapedState.sync {worker : ScrapeWorker Cache} {state : ScrapeState Cache}
    {left : Option Cache × PoiTables} (hbehaves : CacheBehaves library applied)
    (hhex : HexBehaves library)
    (hstate : ScrapedState library applied worker.listKey worker.chainId worker.upstreamUrl state)
    (hcache : worker.cache = state.cache worker.upstreamUrl)
    (heffect : SyncEffect library worker state.tables left) :
    ScrapedState library applied worker.listKey worker.chainId worker.upstreamUrl
      ⟨left.2, Function.update state.cache worker.upstreamUrl left.1⟩ := by
  obtain ⟨events, hscraped, hheld⟩ := hstate
  have hloaded : ∀ cache, cachedPoiCache library worker state.tables = .ok cache →
      applied cache <+: events.map StoredEvent.snapshot := by
    intro cache hok
    rw [cachedPoiCache] at hok
    split at hok
    · rename_i found hfound
      cases hok
      exact hheld _ (hcache ▸ hfound)
    · exact hscraped.loadPoiCache hbehaves hok ▸ List.prefix_refl _
  cases heffect with
  | kept =>
      refine ⟨events, hscraped, ?_⟩
      rw [hcache, Function.update_eq_self]
      exact hheld
  | loaded hok =>
      refine ⟨events, hscraped, ?_⟩
      intro cache hsame
      dsimp only at hsame
      rw [Function.update_self] at hsame
      cases hsame
      exact hloaded _ hok
  | stored hstart hpage hok happlied hroot hstored hnext =>
      obtain ⟨hafter, happly⟩ := hscraped.store hbehaves hhex (hloaded _ hok) hstart hpage happlied
        hroot hstored
      refine ⟨_, hafter, ?_⟩
      intro cache hsame
      dsimp only at hsame
      rw [Function.update_self] at hsame
      cases hsame
      rcases hnext with rfl | rfl
      · rw [List.map_append]
        exact (hloaded _ hok).trans (List.prefix_append _ _)
      · exact happly ▸ List.prefix_refl _

theorem ScrapedState.step {event : ScrapeEvent} {state next : ScrapeState Cache}
    (hbehaves : CacheBehaves library applied) (hhex : HexBehaves library)
    (hstate : ScrapedState library applied listKey chainId upstreamUrl state)
    (hstep : ScrapeStep library listKey chainId state event next)
    (hevent : event.OfUpstream upstreamUrl) :
    ScrapedState library applied listKey chainId upstreamUrl next := by
  cases hstep with
  | sync worker upstream commit hlist hchain hcache =>
      obtain rfl : worker.upstreamUrl = upstreamUrl := by
        rcases hevent with hsame | hsame <;> cases hsame
        rfl
      subst hlist hchain
      exact hstate.sync hbehaves hhex hcache (syncNextPage_effect _ _ _ _ _)
  | restart url =>
      obtain rfl : url = upstreamUrl := by
        rcases hevent with hsame | hsame <;> cases hsame
        rfl
      obtain ⟨events, hscraped, -⟩ := hstate
      refine ⟨events, hscraped, ?_⟩
      intro cache hsame
      dsimp only at hsame
      rw [Function.update_self] at hsame
      cases hsame
  | leaves url startIndex leaves root hnonempty hstart hinsert hadvance =>
      rcases hevent with hsame | hsame <;> cases hsame

/-- The rows of the list are the complete and verified events up to the tip's index, and a cache of just
these has the tip's root. -/
structure TipDenotes (library : ScrapeLibrary Cache) (applied : Cache → List SnapshotEvent)
    (listKey : Bytes32) (chainId : Nat) (upstreamUrl : String) (tables : PoiTables) (last : Nat)
    (root : Bytes32) (stored : List StoredEvent) : Prop where
  tip : chainTip listKey chainId tables upstreamUrl = .ok (some ⟨last, some root⟩)
  indices : ∀ eventIndex,
    ((tables.events (listKey, chainId)).get? eventIndex).isSome = true ↔ eventIndex ≤ last
  complete : ∀ eventIndex row, (tables.events (listKey, chainId)).get? eventIndex = some row →
    row.eventDataComplete = true
  read : pageEventRange listKey chainId tables 0 last = .ok stored
  verified : ∀ event ∈ stored,
    library.verifyPoiEvent (event.signed library.encodeHex) listKey = .ok ()
  rooted : ∃ cache, applied cache = stored.map StoredEvent.snapshot
    ∧ library.currentRoots cache (library.normalizeTreePosition 0 last).1 = some root

theorem rootOfBytes_rootBytes (root : Bytes32) : rootOfBytes (rootBytes root) = root := by
  have hvalue : Cursor.bigEndian (rootBytes root) = root.val := Cursor.bigEndian_range root.isLt
  rw [rootOfBytes, hvalue]
  exact Fin.ofNat_val_eq_self root

theorem Scraped.tipDenotes {tables : PoiTables} {events : List StoredEvent} {tip : ChainTipRow}
    (hscraped : Scraped library applied listKey chainId upstreamUrl tables events)
    (htip : (tables.tips (listKey, chainId)).get? upstreamUrl = some tip) :
    ∃ root, TipDenotes library applied listKey chainId upstreamUrl tables tip.lastEventIndex root
      events := by
  obtain ⟨hchain, hlast, hlength, root, cache, hmerkleroot, hcache, hroot⟩ := hscraped.tip tip htip
  refine ⟨root, ?_, ?_, ?_, hscraped.pageEventRange hchain hlast hlength, hscraped.verified, cache,
    hcache, hroot⟩
  · have hsized : (rootBytes root).length = merklerootBytes := by
      rw [rootBytes, List.length_map, List.length_range]
    rw [chainTip, u64ToI64_eq_ok.mpr ⟨hchain, rfl⟩, ok_bind, htip, Option.mapM_some, hmerkleroot,
      Option.mapM_some, exactArray, if_pos hsized]
    exact congrArg (fun found => Except.ok (some (StoredChainTip.mk tip.lastEventIndex (some found))))
      (rootOfBytes_rootBytes root)
  · intro eventIndex
    rw [hscraped.rows, Option.isSome_map, ← Nat.lt_add_one_iff, hlength]
    simp
  · intro eventIndex row hrow
    obtain ⟨event, -, rfl⟩ := hscraped.complete hrow
    rfl

/-- **A tip denotes a stored and checked beginning of the list.** From tables without rows of the list,
workers of one upstream leave a tip only together with all rows up to it, complete and verified, and with
the root that these rows have, so that their replay finds no gap, no wrong signature and no wrong root. -/
theorem tip_denotes_replayed_rows {start state : ScrapeState Cache} {events : List ScrapeEvent}
    {tip : ChainTipRow} (hbehaves : CacheBehaves library applied) (hhex : HexBehaves library)
    (hrows : start.tables.events (listKey, chainId) = .empty)
    (hnoTip : (start.tables.tips (listKey, chainId)).get? upstreamUrl = none)
    (hcache : start.cache upstreamUrl = none)
    (hrun : Run.Reaches (ScrapeStep library listKey chainId) start events state)
    (hevents : ∀ event ∈ events, event.OfUpstream upstreamUrl)
    (htip : (state.tables.tips (listKey, chainId)).get? upstreamUrl = some tip) :
    ∃ root stored, TipDenotes library applied listKey chainId upstreamUrl state.tables
        tip.lastEventIndex root stored
      ∧ ∀ scope error, scope.listKey = listKey →
        ValidatedCorpus.replay library scope stored (some root) = .error error →
          ∃ reason, error = .cache reason := by
  have hinit : ScrapedState library applied listKey chainId upstreamUrl start := by
    refine ⟨[], ⟨⟨?_, rfl, ?_⟩, ?_, fun _ => rfl, ?_⟩, ?_⟩
    · intro eventIndex
      rw [hrows]
      rfl
    · simp
    · simp
    · intro found hfound
      rw [hnoTip] at hfound
      cases hfound
    · intro found hfound
      rw [hcache] at hfound
      cases hfound
  have hstate : ScrapedState library applied listKey chainId upstreamUrl state := by
    refine Run.Reaches.invariant (I := fun events state =>
      (∀ event ∈ events, event.OfUpstream upstreamUrl) →
        ScrapedState library applied listKey chainId upstreamUrl state) hrun (fun _ => hinit) ?_ hevents
    intro earlier before event next hbefore hstep hall
    rw [List.forall_mem_append] at hall
    exact (hbefore hall.1).step hbehaves hhex hstep (hall.2 event List.mem_cons_self)
  obtain ⟨stored, hscraped, -⟩ := hstate
  obtain ⟨root, hdenotes⟩ := hscraped.tipDenotes htip
  refine ⟨root, stored, hdenotes, ?_⟩
  rintro scope error rfl hreplay
  obtain ⟨cache, hcache, hroot⟩ := hdenotes.rooted
  exact hscraped.replay hbehaves (hscraped.tip tip htip).2.2.1 hcache hroot hreplay

theorem tip_denotes_replayed_rows_two : ∃ state tip,
    Run.Reaches (ScrapeStep smallScrapeLibrary 1 1) smallScrapeState [.sync "a", .restart "a"] state
    ∧ (state.tables.tips (1, 1)).get? "a" = some tip ∧ tip.lastEventIndex = 1
    ∧ ∃ root stored, TipDenotes smallScrapeLibrary id 1 1 "a" state.tables 1 root stored := by
  obtain ⟨first, hfirst, hsame⟩ := @exists_sync_step _ smallScrapeLibrary smallScrapeState
    (smallWorker "a") (smallUpstream 2) .committed rfl
  have htip := smallSynced_two_tip
  rw [smallSynced, ← hsame] at htip
  have hrun := (Run.Reaches.single hfirst).tail (.restart "a")
  have hevents : ∀ event ∈ [ScrapeEvent.sync "a", .restart "a"], event.OfUpstream "a" := by
    intro event hevent
    rcases List.mem_pair.mp hevent with rfl | rfl
    · exact .inl rfl
    · exact .inr rfl
  obtain ⟨root, stored, hdenotes, -⟩ := tip_denotes_replayed_rows smallScrapeLibrary_cacheBehaves
    smallScrapeLibrary_hexBehaves rfl rfl rfl hrun hevents htip
  exact ⟨_, _, hrun, htip, rfl, root, stored, hdenotes⟩

end RailgunIndexer
