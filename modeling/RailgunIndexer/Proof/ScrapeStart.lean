import RailgunIndexer.Lib.Run
import RailgunIndexer.Proof.PoiScraper

/-!
# Where a page starts

The first page a worker asks for starts at the first row that is not complete, whichever upstream it was
read from. Its cache is loaded from the rows up to the tip of its own upstream. A page can continue the
cache only if it starts no later than the cache ends, and that depends on where the rows that are not
complete lie.

Over all runs every tip is covered: each row up to it is stored, though some may not be complete. So a
cache is loaded with as many events as the tip of its upstream counts.
-/

namespace RailgunIndexer

open Lib Transactions Fallible

variable {Cache : Type} {library : ScrapeLibrary Cache} {count : Cache → Nat} {listKey : Bytes32}
  {chainId : Nat}

/-- A cache counts its events, refuses a page that starts after them, and gains no more than a page. -/
structure CacheCounts (library : ScrapeLibrary Cache) (count : Cache → Nat) : Prop where
  new : ∀ scope, count (library.newCache scope) = 0
  gap : ∀ cache after startIndex page, NumberedFrom startIndex page → page ≠ [] →
    library.applyVerifiedArtifactEvents cache page = .ok after → startIndex ≤ count cache
  gain : ∀ cache after startIndex page, NumberedFrom startIndex page →
    library.applyVerifiedArtifactEvents cache page = .ok after →
      count after ≤ max (count cache) (startIndex + page.length)

/-! ### Covered tables -/

def StoredBelow (listKey : Bytes32) (chainId : Nat) (tables : PoiTables) (bound : Nat) : Prop :=
  ∀ eventIndex, eventIndex < bound →
    ((tables.events (listKey, chainId)).get? eventIndex).isSome = true

/-- Every tip is covered by rows, and numbers and signatures fit. -/
structure Covered (listKey : Bytes32) (chainId : Nat) (tables : PoiTables) : Prop where
  tips : ∀ upstreamUrl tip, (tables.tips (listKey, chainId)).get? upstreamUrl = some tip →
    chainId < i64Bound ∧ tip.lastEventIndex < i64Bound
      ∧ StoredBelow listKey chainId tables (tip.lastEventIndex + 1)
  events : ∀ eventIndex row, (tables.events (listKey, chainId)).get? eventIndex = some row →
    chainId < i64Bound ∧ row.signature.length = signatureBytes

section Rows

variable {tables after : PoiTables}

theorem StoredBelow.of_change {bound : Nat} (hstored : StoredBelow listKey chainId tables bound)
    (hchange : ∀ key, PoiRowChange key (tables.rows key) (after.rows key)) :
    StoredBelow listKey chainId after bound := by
  intro eventIndex hindex
  obtain ⟨row, hrow⟩ := Option.isSome_iff_exists.mp (hstored eventIndex hindex)
  have hevent : EventChange ((tables.events (listKey, chainId)).get? eventIndex)
      ((after.events (listKey, chainId)).get? eventIndex) :=
    (hchange (.event listKey chainId eventIndex)).1
  rw [hrow] at hevent
  obtain ⟨next, hnext, -⟩ := hevent.keeps
  exact Option.isSome_iff_exists.mpr ⟨next, hnext⟩

theorem Covered.events_of_change (hcovered : Covered listKey chainId tables)
    (hchange : ∀ key, PoiRowChange key (tables.rows key) (after.rows key))
    (hsized : ∀ key, SizedChange key (tables.rows key) (after.rows key)) {eventIndex : Nat}
    {row : PoiEventRow} (hrow : (after.events (listKey, chainId)).get? eventIndex = some row) :
    chainId < i64Bound ∧ row.signature.length = signatureBytes := by
  have hnew := (hchange (.event listKey chainId eventIndex)).2
  constructor
  · cases hold : (tables.events (listKey, chainId)).get? eventIndex with
    | none =>
        refine (hnew hold ?_).1
        intro hnone
        cases hrow.symm.trans hnone
    | some stored => exact (hcovered.events eventIndex stored hold).1
  · rcases hsized (.event listKey chainId eventIndex) row hrow with hold | hlength
    · exact (hcovered.events eventIndex row hold).2
    · exact hlength

theorem Covered.hydrationEvents {worker : ScrapeWorker Cache}
    (hcovered : Covered worker.listKey worker.chainId tables) (hchain : worker.chainId < i64Bound) :
    ∃ events, hydrationEvents worker tables = .ok events ∧ NumberedFrom 0 events
      ∧ events.length = tipCount worker.listKey worker.chainId tables worker.upstreamUrl := by
  cases htip : (tables.tips (worker.listKey, worker.chainId)).get? worker.upstreamUrl with
  | none =>
      refine ⟨[], hydrationEvents_of_none hchain htip, rfl, ?_⟩
      rw [tipCount, htip]
      rfl
  | some tip =>
      obtain ⟨-, hlast, hstored⟩ := hcovered.tips worker.upstreamUrl tip htip
      have hkeys := rowsThrough_keys hstored
      refine ⟨_, hydrationEvents_of_some hchain htip
        (pageEventRangeWithCompleteness_eq_ok.mpr ⟨hchain, hlast, ?_, ?_, rfl⟩), ?_, ?_⟩
      · intro hcomplete
        cases hcomplete
      · intro entry hentry
        exact (hcovered.events entry.1 entry.2 (mem_rowsThrough hentry)).2
      · have hlength := congrArg List.length hkeys
        rw [List.length_map, List.length_range] at hlength
        rw [NumberedFrom, List.length_map, List.length_map, hlength, ← List.range_eq_range', ← hkeys,
          List.map_map, List.map_map]
        rfl
      · have hlength := congrArg List.length hkeys
        rw [List.length_map, List.length_range] at hlength
        rw [List.length_map, List.length_map, hlength, tipCount, htip]
        rfl

theorem Covered.storedBelow_tipCount (hcovered : Covered listKey chainId tables)
    (upstreamUrl : String) :
    StoredBelow listKey chainId tables (tipCount listKey chainId tables upstreamUrl) := by
  intro eventIndex hindex
  rw [tipCount] at hindex
  cases htip : (tables.tips (listKey, chainId)).get? upstreamUrl with
  | none =>
      rw [htip] at hindex
      cases hindex
  | some tip =>
      rw [htip] at hindex
      exact (hcovered.tips upstreamUrl tip htip).2.2 eventIndex hindex

end Rows

/-! ### Runs -/

structure CoveredState (count : Cache → Nat) (listKey : Bytes32) (chainId : Nat)
    (state : ScrapeState Cache) : Prop where
  tables : Covered listKey chainId state.tables
  caches : ∀ upstreamUrl cache, state.cache upstreamUrl = some cache →
    StoredBelow listKey chainId state.tables (count cache)

theorem forall_update_cache {caches : String → Option Cache} {upstreamUrl : String}
    {left : Option Cache} {P : Cache → Prop} (hleft : ∀ cache, left = some cache → P cache)
    (hothers : ∀ url cache, caches url = some cache → P cache) (url : String) (cache : Cache)
    (hcache : Function.update caches upstreamUrl left url = some cache) : P cache := by
  by_cases hsame : url = upstreamUrl
  · subst hsame
    rw [Function.update_self] at hcache
    exact hleft cache hcache
  · rw [Function.update_of_ne hsame] at hcache
    exact hothers url cache hcache

section Steps

variable {worker : ScrapeWorker Cache} {tables after : PoiTables} {page : ScrapedPage}
  {startIndex : Nat} {state : ScrapeState Cache}

theorem Covered.loadPoiCache {cache : Cache} (hcounts : CacheCounts library count)
    (hcovered : Covered worker.listKey worker.chainId tables)
    (hload : loadPoiCache library worker tables = .ok cache) :
    StoredBelow worker.listKey worker.chainId tables (count cache) := by
  obtain ⟨tip, htip, hload⟩ := bind_eq_ok.mp hload
  obtain ⟨hchain, rfl⟩ := lastEventIndex_eq_ok.mp (mapError_eq_ok.mp htip)
  cases hrow : (tables.tips (worker.listKey, worker.chainId)).get? worker.upstreamUrl with
  | none =>
      rw [hrow] at hload
      rw [← Except.ok.inj hload, hcounts.new]
      intro eventIndex hindex
      cases hindex
  | some row =>
      rw [hrow] at hload
      obtain ⟨found, hfound, hload⟩ := bind_eq_ok.mp hload
      obtain ⟨events, hevents, hnumbered, hlength⟩ := hcovered.hydrationEvents hchain
      rw [hevents] at hfound
      cases hfound
      have hgain := hcounts.gain _ _ _ _ hnumbered (mapError_eq_ok.mp hload)
      rw [hcounts.new, hlength] at hgain
      intro eventIndex hindex
      exact hcovered.storedBelow_tipCount worker.upstreamUrl eventIndex (by omega)

theorem storedBelow_page {cache next : Cache} {root : Bytes32} (hcounts : CacheCounts library count)
    (hcache : StoredBelow worker.listKey worker.chainId tables (count cache))
    (hpage : CheckedPage library worker.listKey startIndex page)
    (happlied : library.applyVerifiedArtifactEvents cache page.snapshotEvents = .ok next)
    (hstored : StoredPage library worker tables page root after) :
    StoredBelow worker.listKey worker.chainId after (startIndex + page.events.length) := by
  have hnonempty : page.snapshotEvents ≠ [] := by
    rw [hpage.snapshots]
    simpa using hpage.nonempty
  have hgap := hcounts.gap cache next _ _ hpage.numberedFrom hnonempty happlied
  intro eventIndex hindex
  by_cases hbefore : eventIndex < startIndex
  · exact hcache.of_change hstored.change eventIndex (by omega)
  · have hoffset : eventIndex - startIndex < page.events.length := by omega
    have hget := List.getElem?_eq_getElem hoffset
    obtain ⟨signature, -, hrow⟩ := hstored.stored _ (List.getElem_mem hoffset)
    rw [hpage.index hget, Nat.add_sub_cancel' (Nat.le_of_not_lt hbefore)] at hrow
    exact Option.isSome_iff_exists.mpr ⟨_, hrow⟩

theorem Covered.storePage {root : Bytes32} (hcovered : Covered worker.listKey worker.chainId tables)
    (hpage : CheckedPage library worker.listKey startIndex page)
    (hbelow : StoredBelow worker.listKey worker.chainId after (startIndex + page.events.length))
    (hstored : StoredPage library worker tables page root after) :
    Covered worker.listKey worker.chainId after := by
  constructor
  · intro upstreamUrl tip htip
    by_cases hsame : upstreamUrl = worker.upstreamUrl
    · subst hsame
      obtain ⟨row, hrow, hcases⟩ := hstored.tip
      cases htip.symm.trans hrow
      rcases hcases with ⟨hold, -⟩ | ⟨hindex, hfits, -⟩
      · obtain ⟨hchain, hlast, hrows⟩ := hcovered.tips _ tip hold
        exact ⟨hchain, hlast, hrows.of_change hstored.change⟩
      · rw [hindex, hpage.last]
        exact ⟨hstored.fits, hfits, hbelow⟩
    · rw [hstored.tips upstreamUrl hsame] at htip
      obtain ⟨hchain, hlast, hrows⟩ := hcovered.tips _ tip htip
      exact ⟨hchain, hlast, hrows.of_change hstored.change⟩
  · intro eventIndex row hrow
    exact hcovered.events_of_change hstored.change hstored.sized hrow

theorem CoveredState.sync {left : Option Cache × PoiTables} (hcounts : CacheCounts library count)
    (hstate : CoveredState count worker.listKey worker.chainId state)
    (hcache : worker.cache = state.cache worker.upstreamUrl)
    (heffect : SyncEffect library worker state.tables left) :
    CoveredState count worker.listKey worker.chainId
      ⟨left.2, Function.update state.cache worker.upstreamUrl left.1⟩ := by
  have hloaded : ∀ cache, cachedPoiCache library worker state.tables = .ok cache →
      StoredBelow worker.listKey worker.chainId state.tables (count cache) := by
    intro cache hok
    rw [cachedPoiCache] at hok
    split at hok
    · rename_i found hfound
      cases hok
      exact hstate.caches _ _ (hcache ▸ hfound)
    · exact hstate.tables.loadPoiCache hcounts hok
  cases heffect with
  | kept =>
      refine ⟨hstate.tables, ?_⟩
      rw [hcache, Function.update_eq_self]
      exact hstate.caches
  | loaded hok =>
      refine ⟨hstate.tables, forall_update_cache ?_ hstate.caches⟩
      intro cache hsame
      cases hsame
      exact hloaded _ hok
  | stored hstart hpage hok happlied hroot hstored hnext =>
      have hbelow := storedBelow_page hcounts (hloaded _ hok) hpage happlied hstored
      refine ⟨hstate.tables.storePage hpage hbelow hstored, forall_update_cache ?_ ?_⟩
      · intro cache hsame
        cases hsame
        rcases hnext with rfl | rfl
        · exact (hloaded _ hok).of_change hstored.change
        · have hgain := hcounts.gain _ _ _ _ hpage.numberedFrom happlied
          rw [hpage.snapshots, List.length_map, List.length_map] at hgain
          intro eventIndex hindex
          rcases le_max_iff.mp hgain with hold | hnew
          · exact (hloaded _ hok).of_change hstored.change eventIndex (hindex.trans_le hold)
          · exact hbelow eventIndex (hindex.trans_le hnew)
      · intro upstreamUrl cache hheld
        exact (hstate.caches upstreamUrl cache hheld).of_change hstored.change

theorem CoveredState.leaves {inserted : PoiTables} {upstreamUrl : String} {leaves : List U256}
    {lastTipMerkleroot : Option String} (hstate : CoveredState count listKey chainId state)
    (hnonempty : leaves ≠ [])
    (hstart : startIndex ≤ tipCount listKey chainId state.tables upstreamUrl)
    (hinserted : InsertedLeaves listKey chainId startIndex leaves.length state.tables.rows
      inserted.rows)
    (hadvanced : AdvancedTip library.decodeHex listKey chainId upstreamUrl (startIndex +
      leaves.length - 1) lastTipMerkleroot inserted.rows after.rows) :
    CoveredState count listKey chainId ⟨after, state.cache⟩ := by
  have hchange : ∀ key, PoiRowChange key (state.tables.rows key) (after.rows key) := by
    intro key
    exact poiRowChange_preorder.trans key _ _ _ (hinserted.change key) (hadvanced.change key)
  have hsized : ∀ key, SizedChange key (state.tables.rows key) (after.rows key) := by
    intro key
    exact sizedChange_preorder.trans key _ _ _ (hinserted.sized key) (hadvanced.sized key)
  have hbelow : StoredBelow listKey chainId inserted (startIndex + leaves.length) := by
    intro eventIndex hindex
    by_cases hbefore : eventIndex < startIndex
    · exact (hstate.tables.storedBelow_tipCount upstreamUrl).of_change hinserted.change eventIndex
        (hbefore.trans_le hstart)
    · obtain ⟨row, hrow⟩ := hinserted.stored (eventIndex - startIndex) (by omega)
      rw [Nat.add_sub_cancel' (Nat.le_of_not_lt hbefore)] at hrow
      exact Option.isSome_iff_exists.mpr ⟨row, hrow⟩
  refine ⟨⟨?_, ?_⟩, ?_⟩
  · intro url tip htip
    by_cases hsame : url = upstreamUrl
    · subst hsame
      obtain ⟨root, -, hrow⟩ := hadvanced.tip
      cases htip.symm.trans hrow
      refine ⟨hadvanced.chainFits, hadvanced.indexFits, ?_⟩
      have hpositive := List.length_pos_iff.mpr hnonempty
      rw [Nat.sub_add_cancel (by omega)]
      exact hbelow.of_change hadvanced.change
    · have hold : (state.tables.tips (listKey, chainId)).get? url = some tip := by
        rw [← htip]
        refine ((hadvanced.frame (.tip listKey chainId url) ?_).trans
          (hinserted.frame (.tip listKey chainId url) ?_)).symm
        · simpa using hsame
        · simp
      obtain ⟨hchain, hlast, hrows⟩ := hstate.tables.tips url tip hold
      exact ⟨hchain, hlast, hrows.of_change hchange⟩
  · intro eventIndex row hrow
    exact hstate.tables.events_of_change hchange hsized hrow
  · intro url cache hheld
    exact (hstate.caches url cache hheld).of_change hchange

end Steps

theorem CoveredState.step {event : ScrapeEvent} {state next : ScrapeState Cache}
    (hcounts : CacheCounts library count) (hstate : CoveredState count listKey chainId state)
    (hstep : ScrapeStep library listKey chainId state event next) :
    CoveredState count listKey chainId next := by
  cases hstep with
  | sync worker upstream commit hlist hchain hcache =>
      subst hlist hchain
      exact hstate.sync hcounts hcache (syncNextPage_effect _ _ _ _ _)
  | restart url =>
      refine ⟨hstate.tables, forall_update_cache ?_ hstate.caches⟩
      intro cache hnone
      cases hnone
  | leaves url startIndex leaves root hnonempty hstart hinsert hadvance =>
      exact hstate.leaves hnonempty hstart (insertEventLeaves_execute hinsert)
        (advanceChainTip_execute hadvance)

theorem coveredState_of_reaches {start state : ScrapeState Cache} {events : List ScrapeEvent}
    (hcounts : CacheCounts library count) (hrows : start.tables.events (listKey, chainId) = .empty)
    (htips : start.tables.tips (listKey, chainId) = .empty)
    (hcaches : ∀ upstreamUrl, start.cache upstreamUrl = none)
    (hrun : Run.Reaches (ScrapeStep library listKey chainId) start events state) :
    CoveredState count listKey chainId state := by
  refine Run.Reaches.invariant (I := fun _ state => CoveredState count listKey chainId state) hrun ?_ ?_
  · refine ⟨⟨?_, ?_⟩, ?_⟩
    · intro upstreamUrl tip htip
      rw [htips] at htip
      cases htip
    · intro eventIndex row hrow
      rw [hrows] at hrow
      cases hrow
    · intro upstreamUrl cache hcache
      rw [hcaches] at hcache
      cases hcache
  · intro _ before event next hbefore hstep
    exact hbefore.step hcounts hstep

/-! ### The start of a page -/

/-- The next page starts no later than the events a cache is loaded with end. -/
def StartsWithinCache (worker : ScrapeWorker Cache) (tables : PoiTables) : Prop :=
  ∀ startIndex events, nextStartIndex worker tables = .ok startIndex →
    hydrationEvents worker tables = .ok events → startIndex ≤ events.length

/-- If rows are not complete, one of them is not past the end of what the upstream's tip counts. -/
def RepairsWithinTip (listKey : Bytes32) (chainId : Nat) (upstreamUrl : String) (tables : PoiTables) :
    Prop :=
  ∀ eventIndex row, (tables.events (listKey, chainId)).get? eventIndex = some row →
    row.eventDataComplete = false → ∃ earlier other,
      (tables.events (listKey, chainId)).get? earlier = some other ∧ other.eventDataComplete = false
        ∧ earlier ≤ tipCount listKey chainId tables upstreamUrl

section Start

variable {worker : ScrapeWorker Cache} {tables : PoiTables}

theorem chainFits_of_nextStartIndex {startIndex : Nat}
    (hok : nextStartIndex worker tables = .ok startIndex) : worker.chainId < i64Bound := by
  obtain ⟨incomplete, hincomplete, -⟩ := bind_eq_ok.mp hok
  exact (firstIncompleteEventIndex_eq_ok.mp (mapError_eq_ok.mp hincomplete)).1

theorem nextStartIndex_of_incomplete {entry : Nat × PoiEventRow} (hchain : worker.chainId < i64Bound)
    (hfound : (tables.events (worker.listKey, worker.chainId)).entries.find? (fun entry =>
      entry.2.eventDataComplete = false) = some entry) :
    nextStartIndex worker tables = .ok entry.1 := by
  rw [nextStartIndex, firstIncompleteEventIndex_eq_ok.mpr ⟨hchain, rfl⟩, hfound]
  rfl

theorem nextStartIndex_of_complete {startIndex : Nat}
    (hnone : (tables.events (worker.listKey, worker.chainId)).entries.find? (fun entry =>
      entry.2.eventDataComplete = false) = none)
    (hok : nextStartIndex worker tables = .ok startIndex) :
    startIndex = tipCount worker.listKey worker.chainId tables worker.upstreamUrl := by
  obtain ⟨incomplete, hincomplete, hok⟩ := bind_eq_ok.mp hok
  obtain ⟨-, rfl⟩ := firstIncompleteEventIndex_eq_ok.mp (mapError_eq_ok.mp hincomplete)
  rw [hnone] at hok
  obtain ⟨tip, htip, hok⟩ := bind_eq_ok.mp hok
  obtain ⟨-, rfl⟩ := lastEventIndex_eq_ok.mp (mapError_eq_ok.mp htip)
  rw [tipCount]
  cases hrow : (tables.tips (worker.listKey, worker.chainId)).get? worker.upstreamUrl with
  | none =>
      rw [hrow] at hok
      exact (Except.ok.inj hok).symm
  | some row =>
      rw [hrow] at hok
      dsimp only [Option.map_some] at hok
      split_ifs at hok
      exact (Except.ok.inj hok).symm

theorem Covered.startsWithinCache_iff (hcovered : Covered worker.listKey worker.chainId tables) :
    StartsWithinCache worker tables
      ↔ RepairsWithinTip worker.listKey worker.chainId worker.upstreamUrl tables := by
  constructor
  · intro hwithin eventIndex row hrow hincomplete
    have hchain := (hcovered.events eventIndex row hrow).1
    obtain ⟨events, hevents, -, hlength⟩ := hcovered.hydrationEvents hchain
    cases hfound : (tables.events (worker.listKey, worker.chainId)).entries.find? (fun entry =>
        entry.2.eventDataComplete = false) with
    | none =>
        have hcomplete := List.find?_eq_none.mp hfound _ (OrdMap.get?_eq_some_iff.mp hrow)
        exact absurd (decide_eq_true hincomplete) hcomplete
    | some entry =>
        have hle := hwithin _ _ (nextStartIndex_of_incomplete hchain hfound) hevents
        rw [hlength] at hle
        have hentry : entry.2.eventDataComplete = false := by simpa using List.find?_some hfound
        exact ⟨entry.1, entry.2, OrdMap.get?_eq_some_iff.mpr (List.mem_of_find?_eq_some hfound),
          hentry, hle⟩
  · intro hrepairs startIndex events hstart hevents
    have hchain := chainFits_of_nextStartIndex hstart
    obtain ⟨found, hhydrated, -, hlength⟩ := hcovered.hydrationEvents hchain
    cases hhydrated.symm.trans hevents
    rw [hlength]
    cases hfound : (tables.events (worker.listKey, worker.chainId)).entries.find? (fun entry =>
        entry.2.eventDataComplete = false) with
    | none => exact (nextStartIndex_of_complete hfound hstart).le
    | some entry =>
        cases (nextStartIndex_of_incomplete hchain hfound).symm.trans hstart
        have hentry : entry.2.eventDataComplete = false := by simpa using List.find?_some hfound
        obtain ⟨earlier, other, hother, hincomplete, hle⟩ := hrepairs entry.1 entry.2
          (OrdMap.get?_eq_some_iff.mpr (List.mem_of_find?_eq_some hfound)) hentry
        calc entry.1
          _ ≤ earlier := OrdMap.le_of_find?_eq_some hfound (OrdMap.get?_eq_some_iff.mp hother)
            (decide_eq_true hincomplete)
          _ ≤ _ := hle

end Start

/-- **A page starts within the cache just when repairs do.** In every state that runs of workers leave,
from any upstreams and with any pages of leaves before, and for every upstream a worker reads next: its
next page starts within the events its cache is loaded with if and only if the rows that are not complete,
if there are any, begin no later than the end of what the tip of that upstream counts. -/
theorem startsWithinCache_iff_repairsWithinTip {start state : ScrapeState Cache}
    {events : List ScrapeEvent} (hcounts : CacheCounts library count)
    (hrows : start.tables.events (listKey, chainId) = .empty)
    (htips : start.tables.tips (listKey, chainId) = .empty)
    (hcaches : ∀ upstreamUrl, start.cache upstreamUrl = none)
    (hrun : Run.Reaches (ScrapeStep library listKey chainId) start events state)
    (worker : ScrapeWorker Cache) (hlist : worker.listKey = listKey)
    (hchain : worker.chainId = chainId) :
    StartsWithinCache worker state.tables
      ↔ RepairsWithinTip listKey chainId worker.upstreamUrl state.tables := by
  have hstate := coveredState_of_reaches hcounts hrows htips hcaches hrun
  subst hlist hchain
  exact hstate.tables.startsWithinCache_iff

/-! ### A small run -/

section Small

theorem smallScrapeLibrary_cacheCounts : CacheCounts smallScrapeLibrary List.length where
  new _ := rfl
  gap := smallScrapeLibrary_cacheBehaves.gap
  gain cache after startIndex page hnumbered hok := by
    induction page generalizing cache startIndex with
    | nil =>
        cases hok
        exact le_max_left _ _
    | cons event rest ih =>
        obtain ⟨next, hnext, hrest⟩ := bind_eq_ok.mp ((List.foldlM_cons ..).symm.trans hok)
        obtain ⟨hindex, hrestNumbered⟩ := numberedFrom_cons.mp hnumbered
        have hle := ih next (startIndex + 1) hrestNumbered hrest
        rw [List.length_cons]
        rcases addSmallEvent_eq_ok hnext with ⟨hlength, rfl⟩ | ⟨-, rfl⟩
        · rw [List.length_append, List.length_singleton] at hle
          omega
        · omega

theorem exists_small_leaves : ∃ state,
    Run.Reaches (ScrapeStep smallScrapeLibrary 1 1) smallScrapeState [.sync "a", .leaves "a"] state
    ∧ (∃ row, (state.tables.events (1, 1)).get? 1 = some row ∧ row.eventDataComplete = false)
    ∧ tipCount 1 1 state.tables "a" = 2 ∧ nextStartIndex (smallWorker "b") state.tables = .ok 1
    ∧ hydrationEvents (smallWorker "b") state.tables = .ok [] := by
  obtain ⟨htip, hfacts⟩ := small_facts
  obtain ⟨tables, htables, hfacts⟩ := Option.map_eq_some_iff.mp hfacts
  obtain ⟨hrow, hfacts⟩ := Prod.mk.inj hfacts
  obtain ⟨hcount, hfacts⟩ := Prod.mk.inj hfacts
  obtain ⟨hstart, hevents⟩ := Prod.mk.inj hfacts
  obtain ⟨inserted, hinsert, hadvance⟩ := bind_eq_ok.mp (toOption_eq_some.mp htables)
  obtain ⟨first, hfirst, hsame⟩ := @exists_sync_step _ smallScrapeLibrary smallScrapeState
    (smallWorker "a") (smallUpstream 1) .committed rfl
  rw [smallSynced, ← hsame] at hinsert htip
  refine ⟨_, (Run.Reaches.single hfirst).tail (.leaves "a" 1 [7] none (List.cons_ne_nil _ _) ?_ hinsert
    hadvance), Option.map_eq_some_iff.mp hrow, hcount, toOption_eq_some.mp hstart,
    toOption_eq_some.mp hevents⟩
  rw [tipCount]
  exact htip.symm ▸ Nat.le_refl 1

/-- A worker of an upstream without a tip starts after all that its cache has. -/
theorem not_startsWithinCache_otherUpstream : ∃ state,
    Run.Reaches (ScrapeStep smallScrapeLibrary 1 1) smallScrapeState [.sync "a", .leaves "a"] state
    ∧ nextStartIndex (smallWorker "b") state.tables = .ok 1
    ∧ hydrationEvents (smallWorker "b") state.tables = .ok []
    ∧ ¬StartsWithinCache (smallWorker "b") state.tables := by
  obtain ⟨state, hrun, -, -, hstart, hevents⟩ := exists_small_leaves
  refine ⟨state, hrun, hstart, hevents, ?_⟩
  intro hwithin
  cases hwithin 1 [] hstart hevents

theorem startsWithinCache_sameUpstream : ∃ state,
    Run.Reaches (ScrapeStep smallScrapeLibrary 1 1) smallScrapeState [.sync "a", .leaves "a"] state
    ∧ RepairsWithinTip 1 1 "a" state.tables ∧ StartsWithinCache (smallWorker "a") state.tables := by
  obtain ⟨state, hrun, ⟨row, hrow, hincomplete⟩, hcount, -⟩ := exists_small_leaves
  have hrepairs : RepairsWithinTip 1 1 "a" state.tables := by
    intro _ _ _ _
    exact ⟨1, row, hrow, hincomplete, hcount ▸ Nat.le_succ 1⟩
  exact ⟨state, hrun, hrepairs, (startsWithinCache_iff_repairsWithinTip smallScrapeLibrary_cacheCounts
    rfl rfl (fun _ => rfl) hrun (smallWorker "a") rfl rfl).mpr hrepairs⟩

end Small

end RailgunIndexer
