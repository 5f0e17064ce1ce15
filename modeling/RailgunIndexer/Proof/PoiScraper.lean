import RailgunIndexer.Lib.Hex
import RailgunIndexer.PoiScraper
import RailgunIndexer.Proof.PoiStore

/-!
# What a page leaves behind

What the functions of the scraper do that succeed: the rows a transaction leaves, the events a page
holds, the rows a cache is loaded from. The runs of the workers of one list on one chain are the steps
of a transition system, which also has the pages of leaves that an earlier version stored.
-/

namespace RailgunIndexer

open Lib Transactions Fallible

/-! ### Calls on the tables -/

section Calls

variable {decodeHex : String → Option Bytes} {listKey : Bytes32} {chainId : Nat}
  {tables after : PoiTables} {session : PoiSession} {R : Change PoiKey PoiRow} {leaves : List U256}
  {startIndex : Nat}

theorem PoiTables.execute_eq_ok (hok : tables.execute session = .ok after) :
    session.eval tables.rows = (.ok (), after.rows) := by
  have heval := Session.runIn_eval PoiTables.backing session tables
  rw [PoiTables.execute] at hok
  split at hok
  · rename_i found hrun
    cases hok
    rw [hrun] at heval
    exact heval
  · cases hok

theorem PoiTables.execute_keeps (hok : tables.execute session = .ok after) (hR : R.Preorder)
    (hkeeps : session.Keeps R) (key : PoiKey) : R key (tables.rows key) (after.rows key) := by
  have hchange := @Session.Keeps.eval _ _ _ _ _ _ tables.rows hR hkeeps key
  rwa [PoiTables.execute_eq_ok hok] at hchange

def SizedChange : Change PoiKey PoiRow
  | .event _ _ _, old, new =>
      ∀ row : PoiEventRow, new = some row → old = some row ∨ row.signature.length = signatureBytes
  | .tip _ _ _, _, _ => True

theorem sizedChange_preorder : SizedChange.Preorder where
  refl key row := by
    cases key with
    | event _ _ _ => exact fun _ hrow => .inl hrow
    | tip _ _ _ => trivial
  trans key first second third hfirst hsecond := by
    cases key with
    | event _ _ _ =>
        intro row hrow
        rcases hsecond row hrow with hsame | hsized
        · exact hfirst row hsame
        · exact .inr hsized
    | tip _ _ _ => trivial

theorem insertEvents_keeps {events : List SignedPoiEvent}
    (hevent : ∀ event ∈ events, chainId < i64Bound → (insertEvent decodeHex listKey chainId
      event).Keeps R) :
    (insertEvents decodeHex listKey chainId events).Keeps R := by
  apply Session.keeps_require
  intro found hchain
  obtain ⟨hfits, rfl⟩ := u64ToI64_eq_ok.mp hchain
  exact Session.keeps_sequence fun event hmem => hevent event hmem hfits

structure InsertedEvents (decodeHex : String → Option Bytes) (listKey : Bytes32) (chainId : Nat)
    (events : List SignedPoiEvent) (before after : PoiRows) : Prop where
  stored : ∀ event ∈ events, StoredAs decodeHex event (after (.event listKey chainId event.index))
  frame : ∀ key, (∀ event ∈ events, key ≠ .event listKey chainId event.index) →
    after key = before key
  change : ∀ key, PoiRowChange key (before key) (after key)
  sized : ∀ key, SizedChange key (before key) (after key)

theorem insertEvents_execute {events : List SignedPoiEvent}
    (hok : tables.execute (insertEvents decodeHex listKey chainId events) = .ok after) :
    InsertedEvents decodeHex listKey chainId events tables.rows after.rows := by
  have hkeeps : (insertEvents decodeHex listKey chainId events).Keeps PoiRowChange :=
    insertEvents_keeps fun event _ hchain => insertEvent_keeps hchain event
  constructor
  · intro event hevent
    refine Session.eval_ensures (stable_storedAs event event.index) hkeeps (.inr ?_)
      (PoiTables.execute_eq_ok hok)
    apply Session.ensures_require
    intro found hchain
    obtain ⟨-, rfl⟩ := u64ToI64_eq_ok.mp hchain
    exact Session.ensures_sequence hevent (insertEvent_ensures event)
  · intro key hkey
    have hframe : (insertEvents decodeHex listKey chainId events).Keeps (Change.outside fun key =>
        ∃ event ∈ events, key = .event listKey chainId event.index) :=
      insertEvents_keeps fun event hevent _ => insertEvent_keeps_of event fun _ _ _ _ _ _ =>
        .inl ⟨event, hevent, rfl⟩
    rcases PoiTables.execute_keeps hok (Change.outside_preorder _) hframe key with hwritten | hsame
    · obtain ⟨event, hevent, hsame⟩ := hwritten
      exact absurd hsame (hkey event hevent)
    · exact hsame
  · exact PoiTables.execute_keeps hok poiRowChange_preorder hkeeps
  · apply PoiTables.execute_keeps hok sizedChange_preorder
    refine insertEvents_keeps fun event _ _ => insertEvent_keeps_of event ?_
    intro signature seen row _ hdecoded hrow found hfound
    cases hfound
    rw [(upsertEvent_eq_some hrow).2]
    exact .inr (length_of_decodeFixedHex hdecoded)

structure InsertedLeaves (listKey : Bytes32) (chainId startIndex count : Nat)
    (before after : PoiRows) : Prop where
  stored : ∀ offset, offset < count →
    ∃ row, after (.event listKey chainId (startIndex + offset)) = some row
  frame : ∀ key, (∀ eventIndex, key ≠ .event listKey chainId eventIndex) → after key = before key
  change : ∀ key, PoiRowChange key (before key) (after key)
  sized : ∀ key, SizedChange key (before key) (after key)

theorem insertEventLeaves_keeps
    (hleaf : ∀ leaf offset, chainId < i64Bound → (insertEventLeaf listKey chainId startIndex
      offset leaf).Keeps R) :
    (insertEventLeaves listKey chainId startIndex leaves).Keeps R := by
  apply Session.keeps_require
  intro found hchain
  obtain ⟨hfits, rfl⟩ := u64ToI64_eq_ok.mp hchain
  exact Session.keeps_sequence fun leaf _ => hleaf leaf.1 leaf.2 hfits

theorem insertEventLeaves_ensures {offset : Nat} {leaf : U256}
    (hleaf : (leaf, offset) ∈ leaves.zipIdx) :
    (insertEventLeaves listKey chainId startIndex leaves).Ensures
      (.event listKey chainId (startIndex + offset)) (HasLeaf leaf) := by
  apply Session.ensures_require
  intro found hchain
  obtain ⟨-, rfl⟩ := u64ToI64_eq_ok.mp hchain
  exact Session.ensures_sequence hleaf (insertEventLeaf_ensures startIndex offset leaf)

theorem insertEventLeaves_execute
    (hok : tables.execute (insertEventLeaves listKey chainId startIndex leaves) = .ok after) :
    InsertedLeaves listKey chainId startIndex leaves.length tables.rows after.rows := by
  have hkeeps : (insertEventLeaves listKey chainId startIndex leaves).Keeps PoiRowChange :=
    insertEventLeaves_keeps fun leaf offset hchain =>
      insertEventLeaf_keeps hchain startIndex offset leaf
  constructor
  · intro offset hoffset
    have hmem : (leaves[offset], offset) ∈ leaves.zipIdx :=
      List.mk_mem_zipIdx_iff_getElem?.mpr (List.getElem?_eq_getElem hoffset)
    obtain ⟨row, hrow, -⟩ := Session.eval_ensures (stable_hasLeaf leaves[offset] (startIndex + offset))
      hkeeps (.inr (insertEventLeaves_ensures hmem)) (PoiTables.execute_eq_ok hok)
    exact ⟨row, hrow⟩
  · intro key hkey
    have hframe : (insertEventLeaves listKey chainId startIndex leaves).Keeps
        (Change.outside fun key => ∃ eventIndex, key = .event listKey chainId eventIndex) :=
      insertEventLeaves_keeps fun leaf offset _ => insertEventLeaf_keeps_of startIndex offset leaf
        fun _ _ _ _ => .inl ⟨_, rfl⟩
    rcases PoiTables.execute_keeps hok (Change.outside_preorder _) hframe key with hwritten | hsame
    · obtain ⟨eventIndex, hsame⟩ := hwritten
      exact absurd hsame (hkey eventIndex)
    · exact hsame
  · exact PoiTables.execute_keeps hok poiRowChange_preorder hkeeps
  · apply PoiTables.execute_keeps hok sizedChange_preorder
    refine insertEventLeaves_keeps fun leaf offset _ =>
      insertEventLeaf_keeps_of startIndex offset leaf ?_
    intro seen row _ hrow found hfound
    cases hfound
    cases seen with
    | none =>
        cases hrow
        exact .inr List.length_replicate
    | some _ => cases hrow

structure AdvancedTip (decodeHex : String → Option Bytes) (listKey : Bytes32) (chainId : Nat)
    (upstreamUrl : String) (lastEventIndex : Nat) (lastTipMerkleroot : Option String)
    (before after : PoiRows) : Prop where
  chainFits : chainId < i64Bound
  indexFits : lastEventIndex < i64Bound
  tip : ∃ root, lastTipMerkleroot.mapM
      (decodeFixedHex decodeHex "last_tip_merkleroot" merklerootBytes) = .ok root
    ∧ after (.tip listKey chainId upstreamUrl) = some ⟨lastEventIndex, root⟩
  frame : ∀ key, key ≠ .tip listKey chainId upstreamUrl → after key = before key
  change : ∀ key, PoiRowChange key (before key) (after key)
  sized : ∀ key, SizedChange key (before key) (after key)

theorem advanceChainTip_execute {upstreamUrl : String} {lastEventIndex : Nat}
    {lastTipMerkleroot : Option String}
    (hok : tables.execute (advanceChainTip decodeHex listKey chainId upstreamUrl lastEventIndex
      lastTipMerkleroot) = .ok after) :
    AdvancedTip decodeHex listKey chainId upstreamUrl lastEventIndex lastTipMerkleroot tables.rows
      after.rows := by
  have hchange := PoiTables.execute_keeps hok poiRowChange_preorder
    (advanceChainTip_keeps upstreamUrl lastEventIndex lastTipMerkleroot)
  obtain ⟨chainId, hchain, hindexed⟩ := Session.eval_require_eq_ok (PoiTables.execute_eq_ok hok)
  obtain ⟨hchainFits, rfl⟩ := u64ToI64_eq_ok.mp hchain
  obtain ⟨lastEventIndex, hindex, hrooted⟩ := Session.eval_require_eq_ok hindexed
  obtain ⟨hindexFits, rfl⟩ := u64ToI64_eq_ok.mp hindex
  obtain ⟨root, hroot, heval⟩ := Session.eval_require_eq_ok hrooted
  dsimp only [Session.eval] at heval
  cases hwrote : upsertTip lastEventIndex root (tables.rows (.tip listKey chainId upstreamUrl)) with
  | none =>
      rw [hwrote] at heval
      cases heval
  | some row =>
      rw [hwrote] at heval
      obtain ⟨-, hrows⟩ := Prod.mk.inj heval
      rw [(upsertTip_eq_some hwrote).2] at hrows
      have hframe : ∀ key, key ≠ .tip listKey chainId upstreamUrl →
          after.rows key = tables.rows key := by
        intro key hkey
        rw [← hrows]
        exact put_of_ne hkey
      refine ⟨hchainFits, hindexFits, ⟨root, hroot, ?_⟩, hframe, hchange, ?_⟩
      · rw [← hrows]
        exact put_same
      · intro key
        by_cases hkey : key = .tip listKey chainId upstreamUrl
        · subst hkey
          trivial
        · rw [hframe key hkey]
          exact sizedChange_preorder.refl key _

end Calls

/-! ### Queries -/

section Queries

variable {listKey : Bytes32} {chainId : Nat} {tables : PoiTables} {last : Nat}

theorem lastEventIndex_eq_ok {upstreamUrl : String} {tip : Option Nat} :
    lastEventIndex listKey chainId tables upstreamUrl = .ok tip ↔ chainId < i64Bound
      ∧ tip = ((tables.tips (listKey, chainId)).get? upstreamUrl).map ChainTipRow.lastEventIndex := by
  rw [lastEventIndex, bind_eq_ok]
  constructor
  · rintro ⟨found, hchain, hok⟩
    obtain ⟨hfits, rfl⟩ := u64ToI64_eq_ok.mp hchain
    exact ⟨hfits, (Except.ok.inj hok).symm⟩
  · rintro ⟨hfits, rfl⟩
    exact ⟨chainId, u64ToI64_eq_ok.mpr ⟨hfits, rfl⟩, rfl⟩

theorem firstIncompleteEventIndex_eq_ok {first : Option Nat} :
    firstIncompleteEventIndex listKey chainId tables = .ok first ↔ chainId < i64Bound
      ∧ first = ((tables.events (listKey, chainId)).entries.find? fun entry =>
        entry.2.eventDataComplete = false).map Prod.fst := by
  rw [firstIncompleteEventIndex, bind_eq_ok]
  constructor
  · rintro ⟨found, hchain, hok⟩
    obtain ⟨hfits, rfl⟩ := u64ToI64_eq_ok.mp hchain
    exact ⟨hfits, (Except.ok.inj hok).symm⟩
  · rintro ⟨hfits, rfl⟩
    exact ⟨chainId, u64ToI64_eq_ok.mpr ⟨hfits, rfl⟩, rfl⟩

theorem storedEvent_eq_ok {eventIndex : Nat} {row : PoiEventRow} {event : StoredEvent} :
    storedEvent eventIndex row = .ok event
      ↔ row.signature.length = signatureBytes ∧ event = .ofRow eventIndex row := by
  rw [storedEvent, bind_eq_ok]
  constructor
  · rintro ⟨signature, hsignature, hok⟩
    exact ⟨(exactArray_eq_ok hsignature).1, (Except.ok.inj hok).symm⟩
  · rintro ⟨hlength, rfl⟩
    exact ⟨row.signature, by rw [exactArray, if_pos hlength], rfl⟩

def rowsThrough (listKey : Bytes32) (chainId : Nat) (tables : PoiTables) (last : Nat) :
    List (Nat × PoiEventRow) :=
  (tables.events (listKey, chainId)).entries.filter fun entry => 0 ≤ entry.1 ∧ entry.1 ≤ last

theorem mem_rowsThrough {entry : Nat × PoiEventRow}
    (hentry : entry ∈ rowsThrough listKey chainId tables last) :
    (tables.events (listKey, chainId)).get? entry.1 = some entry.2 :=
  OrdMap.get?_eq_some_iff.mpr (List.mem_filter.mp hentry).1

theorem rowsThrough_keys
    (hrows : ∀ eventIndex, eventIndex < last + 1 → ((tables.events (listKey, chainId)).get?
      eventIndex).isSome = true) :
    (rowsThrough listKey chainId tables last).map Prod.fst = List.range (last + 1) := by
  apply OrdMap.filter_keys_eq_range
  · intro entry
    rw [decide_eq_true_iff]
    omega
  · exact hrows

theorem pageEventRangeWithCompleteness_eq_ok {requireComplete : Bool} {events : List StoredEvent} :
    pageEventRangeWithCompleteness listKey chainId tables 0 last requireComplete = .ok events
      ↔ chainId < i64Bound ∧ last < i64Bound
        ∧ (requireComplete = true →
          ∀ entry ∈ rowsThrough listKey chainId tables last, entry.2.eventDataComplete = true)
        ∧ (∀ entry ∈ rowsThrough listKey chainId tables last,
          entry.2.signature.length = signatureBytes)
        ∧ events = (rowsThrough listKey chainId tables last).map fun entry => .ofRow entry.1 entry.2
      := by
  have hrows := @mapM_eq_ok_iff_map _ _ _ (fun entry : Nat × PoiEventRow =>
    storedEvent entry.1 entry.2) _ _ (fun _ _ => storedEvent_eq_ok)
    (rowsThrough listKey chainId tables last) events
  have hcomplete : (rowsThrough listKey chainId tables last).find? (fun entry =>
      requireComplete && !entry.2.eventDataComplete) = none ↔ (requireComplete = true →
        ∀ entry ∈ rowsThrough listKey chainId tables last, entry.2.eventDataComplete = true) := by
    cases requireComplete <;> simp
  rw [pageEventRangeWithCompleteness]
  constructor
  · intro hok
    obtain ⟨_, hchain, hranged⟩ := bind_eq_ok.mp hok
    obtain ⟨hfits, rfl⟩ := u64ToI64_eq_ok.mp hchain
    obtain ⟨_, hfirst, hbounded⟩ := bind_eq_ok.mp hranged
    obtain ⟨-, rfl⟩ := u64ToI64_eq_ok.mp hfirst
    obtain ⟨_, hlast, hread⟩ := bind_eq_ok.mp hbounded
    obtain ⟨hlastFits, rfl⟩ := u64ToI64_eq_ok.mp hlast
    dsimp only at hread
    split at hread
    · cases hread
    · rename_i hnone
      exact ⟨hfits, hlastFits, hcomplete.mp hnone, hrows.mp hread⟩
  · rintro ⟨hfits, hlastFits, hall, hevents⟩
    rw [u64ToI64_eq_ok.mpr ⟨hfits, rfl⟩, ok_bind, u64ToI64_eq_ok.mpr ⟨by decide, rfl⟩, ok_bind,
      u64ToI64_eq_ok.mpr ⟨hlastFits, rfl⟩, ok_bind]
    have hnone := hcomplete.mpr hall
    rw [rowsThrough] at hnone hrows
    dsimp only
    rw [hnone]
    exact hrows.mpr hevents

variable {Cache : Type} {worker : ScrapeWorker Cache}

theorem hydrationEvents_of_none (hchain : worker.chainId < i64Bound)
    (hnone : (tables.tips (worker.listKey, worker.chainId)).get? worker.upstreamUrl = none) :
    hydrationEvents worker tables = .ok [] := by
  rw [hydrationEvents, lastEventIndex_eq_ok.mpr ⟨hchain, rfl⟩, hnone]
  rfl

theorem hydrationEvents_of_some {tip : ChainTipRow} {events : List StoredEvent}
    (hchain : worker.chainId < i64Bound)
    (htip : (tables.tips (worker.listKey, worker.chainId)).get? worker.upstreamUrl = some tip)
    (hevents : pageEventRangeForHydration worker.listKey worker.chainId tables 0 tip.lastEventIndex
      = .ok events) :
    hydrationEvents worker tables = .ok (events.map StoredEvent.snapshot) := by
  rw [hydrationEvents, lastEventIndex_eq_ok.mpr ⟨hchain, rfl⟩, htip]
  dsimp only [Except.mapError, Option.map_some, ok_bind]
  rw [hevents]
  rfl

end Queries

/-! ### Pages -/

section Pages

variable {Cache : Type} {library : ScrapeLibrary Cache} {event : SignedPoiEvent} {listKey : Bytes32}
  {page : ScrapedPage} {tables : PoiTables}

def SignedPoiEvent.stored (decodeHex : String → Option Bytes) (event : SignedPoiEvent) : StoredEvent :=
  ⟨event.index, event.blindedCommitment, (decodeHex (strip0x event.signature)).getD [],
    event.eventType⟩

structure CheckedEvent (library : ScrapeLibrary Cache) (listKey : Bytes32) (event : SignedPoiEvent) :
    Prop where
  verified : library.verifyPoiEvent event listKey = .ok ()
  decoded : library.decodeHex (strip0x event.signature)
    = some (event.stored library.decodeHex).signature
  sized : (event.stored library.decodeHex).signature.length = signatureBytes

theorem CheckedEvent.decodeFixedHex (hevent : CheckedEvent library listKey event) (field : String) :
    decodeFixedHex library.decodeHex field signatureBytes event.signature
      = .ok (event.stored library.decodeHex).signature := by
  rw [RailgunIndexer.decodeFixedHex, hevent.decoded]
  exact if_pos hevent.sized

theorem decodeEventSignature_eq_ok {signature : String} {found : FixedBytes 64}
    (hok : decodeEventSignature library signature = .ok found) :
    ∃ bytes, library.decodeHex (strip0x signature) = some bytes ∧ bytes.length = signatureBytes
      ∧ found = signatureOfBytes bytes := by
  rw [decodeEventSignature] at hok
  split at hok
  · cases hok
  · rename_i bytes hbytes
    split_ifs at hok with hlength
    exact ⟨bytes, hbytes, hlength, (Except.ok.inj hok).symm⟩

theorem snapshotEvent_eq_ok {startIndex offset : Nat} {snapshot : SnapshotEvent}
    (hok : snapshotEvent library listKey startIndex event offset = .ok snapshot) :
    event.index = startIndex + offset ∧ CheckedEvent library listKey event
      ∧ snapshot = (event.stored library.decodeHex).snapshot := by
  rw [snapshotEvent] at hok
  split_ifs at hok with hoverflow hindex
  obtain ⟨_, hverified, hok⟩ := bind_eq_ok.mp hok
  obtain ⟨signature, hsignature, hok⟩ := bind_eq_ok.mp hok
  obtain ⟨bytes, hbytes, hlength, rfl⟩ := decodeEventSignature_eq_ok hsignature
  have hstored : (event.stored library.decodeHex).signature = bytes := by
    rw [SignedPoiEvent.stored, hbytes, Option.getD_some]
  refine ⟨not_not.mp hindex, ⟨mapError_eq_ok.mp hverified, ?_, ?_⟩, ?_⟩
  · rw [hstored, hbytes]
  · rw [hstored, hlength]
  · rw [← Except.ok.inj hok, StoredEvent.snapshot, hstored]
    rfl

structure CheckedPage (library : ScrapeLibrary Cache) (listKey : Bytes32) (startIndex : Nat)
    (page : ScrapedPage) : Prop where
  numbered : page.events.map SignedPoiEvent.index = List.range' startIndex page.events.length
  checked : ∀ event ∈ page.events, CheckedEvent library listKey event
  snapshots : page.snapshotEvents
    = (page.events.map (SignedPoiEvent.stored library.decodeHex)).map StoredEvent.snapshot
  last : page.lastEventIndex + 1 = startIndex + page.events.length
  nonempty : page.events ≠ []

theorem CheckedPage.index {listKey : Bytes32} {startIndex offset : Nat} {page : ScrapedPage}
    {event : SignedPoiEvent} (hpage : CheckedPage library listKey startIndex page)
    (hevent : page.events[offset]? = some event) : event.index = startIndex + offset := by
  have hindex := congrArg (·[offset]?) hpage.numbered
  obtain ⟨hlt, rfl⟩ := List.getElem?_eq_some_iff.mp hevent
  simpa [hlt] using hindex

theorem mapM_snapshotEvent_eq_ok {startIndex : Nat} {events : List SignedPoiEvent}
    {snapshots : List SnapshotEvent}
    (hok : events.zipIdx.mapM (fun event => snapshotEvent library listKey startIndex event.1
      event.2) = .ok snapshots) :
    events.map SignedPoiEvent.index = List.range' startIndex events.length
      ∧ (∀ event ∈ events, CheckedEvent library listKey event)
      ∧ snapshots
        = (events.map (SignedPoiEvent.stored library.decodeHex)).map StoredEvent.snapshot := by
  have hindices : snapshots.map SnapshotEvent.eventIndex
      = events.zipIdx.map fun event => startIndex + event.2 := by
    apply map_eq_of_mapM hok
    intro event snapshot hevent
    obtain ⟨hindex, -, rfl⟩ := snapshotEvent_eq_ok hevent
    exact hindex
  have hsnapshots : snapshots.map id
      = events.zipIdx.map fun event => (event.1.stored library.decodeHex).snapshot := by
    apply map_eq_of_mapM hok
    intro event snapshot hevent
    exact (snapshotEvent_eq_ok hevent).2.2
  have hrange : events.zipIdx.map (fun event => startIndex + event.2)
      = List.range' startIndex events.length := by
    apply List.ext_getElem <;> simp
  have hevents : events.zipIdx.map (fun event => (event.1.stored library.decodeHex).snapshot)
      = (events.map (SignedPoiEvent.stored library.decodeHex)).map StoredEvent.snapshot := by
    apply List.ext_getElem <;> simp
  rw [List.map_id, hevents] at hsnapshots
  refine ⟨?_, ?_, hsnapshots⟩
  · rw [← hrange, ← hindices, hsnapshots, List.map_map, List.map_map]
    rfl
  · intro event hevent
    obtain ⟨offset, hoffset⟩ := List.getElem?_of_mem hevent
    obtain ⟨snapshot, -, hsnapshot⟩ := exists_of_forall₂_left (mapM_eq_ok_iff.mp hok)
      (List.mk_mem_zipIdx_iff_getElem?.mpr hoffset)
    exact (snapshotEvent_eq_ok hsnapshot).2.1

variable {upstream : Upstream Cache} {worker : ScrapeWorker Cache}

theorem requestPage_eq_some (hok : requestPage library worker tables upstream = .ok (some page)) :
    ∃ startIndex, nextStartIndex worker tables = .ok startIndex
      ∧ CheckedPage library worker.listKey startIndex page := by
  obtain ⟨startIndex, hstart, hok⟩ := bind_eq_ok.mp hok
  refine ⟨startIndex, hstart, ?_⟩
  dsimp only at hok
  split_ifs at hok
  obtain ⟨events, -, hok⟩ := bind_eq_ok.mp hok
  obtain ⟨snapshots, hmapped, hok⟩ := bind_eq_ok.mp hok
  obtain ⟨last, hlast, rfl⟩ := Option.map_eq_some_iff.mp (Except.ok.inj hok)
  obtain ⟨hnumbered, hchecked, rfl⟩ := mapM_snapshotEvent_eq_ok hmapped
  obtain ⟨event, hevent, rfl⟩ : ∃ event, events.getLast? = some event
      ∧ (event.stored library.decodeHex).snapshot = last := by
    simpa [List.getLast?_map] using hlast
  have hnonempty : events ≠ [] := by
    rintro rfl
    cases hevent
  have hpositive := List.length_pos_iff.mpr hnonempty
  have hindex := congrArg List.getLast? hnumbered
  rw [List.getLast?_map, hevent, List.getLast?_range', if_neg (by omega)] at hindex
  have hindex := Option.some.inj hindex
  refine ⟨hnumbered, hchecked, rfl, ?_, hnonempty⟩
  simp only [StoredEvent.snapshot, SignedPoiEvent.stored] at hindex ⊢
  omega

structure StoredPage (library : ScrapeLibrary Cache) (worker : ScrapeWorker Cache)
    (tables : PoiTables) (page : ScrapedPage) (root : Bytes32) (after : PoiTables) : Prop where
  stored : ∀ event ∈ page.events, StoredAs library.decodeHex event
    ((after.events (worker.listKey, worker.chainId)).get? event.index)
  events : ∀ eventIndex, (∀ event ∈ page.events, event.index ≠ eventIndex) →
    (after.events (worker.listKey, worker.chainId)).get? eventIndex
      = (tables.events (worker.listKey, worker.chainId)).get? eventIndex
  tips : ∀ upstreamUrl, upstreamUrl ≠ worker.upstreamUrl →
    (after.tips (worker.listKey, worker.chainId)).get? upstreamUrl
      = (tables.tips (worker.listKey, worker.chainId)).get? upstreamUrl
  tip : ∃ row, (after.tips (worker.listKey, worker.chainId)).get? worker.upstreamUrl = some row
    ∧ ((tables.tips (worker.listKey, worker.chainId)).get? worker.upstreamUrl = some row
        ∧ page.lastEventIndex < row.lastEventIndex
      ∨ row.lastEventIndex = page.lastEventIndex ∧ page.lastEventIndex < i64Bound
        ∧ ∃ bytes, decodeFixedHex library.decodeHex "last_tip_merkleroot" merklerootBytes
            ("0x" ++ library.encodeHex (rootBytes root)) = .ok bytes
          ∧ row.lastTipMerkleroot = some bytes)
  fits : worker.chainId < i64Bound
  change : ∀ key, PoiRowChange key (tables.rows key) (after.rows key)
  sized : ∀ key, SizedChange key (tables.rows key) (after.rows key)

theorem storePage_eq_ok {after : PoiTables} {root : Bytes32}
    (hok : storePage library worker tables page root = .ok after) :
    StoredPage library worker tables page root after := by
  obtain ⟨inserted, hinsert, hok⟩ := bind_eq_ok.mp hok
  obtain ⟨durableTip, htip, hok⟩ := bind_eq_ok.mp hok
  obtain ⟨hfits, rfl⟩ := lastEventIndex_eq_ok.mp htip
  have hinserted := insertEvents_execute hinsert
  have htips : ∀ upstreamUrl, (inserted.tips (worker.listKey, worker.chainId)).get? upstreamUrl
      = (tables.tips (worker.listKey, worker.chainId)).get? upstreamUrl := by
    intro upstreamUrl
    apply hinserted.frame (.tip worker.listKey worker.chainId upstreamUrl)
    simp
  have hevents : ∀ eventIndex, (∀ event ∈ page.events, event.index ≠ eventIndex) →
      (inserted.events (worker.listKey, worker.chainId)).get? eventIndex
        = (tables.events (worker.listKey, worker.chainId)).get? eventIndex := by
    intro eventIndex hother
    apply hinserted.frame (.event worker.listKey worker.chainId eventIndex)
    intro event hevent hsame
    exact hother event hevent (PoiKey.event.inj hsame).2.2.symm
  split_ifs at hok with hadvances
  · have hadvanced := advanceChainTip_execute hok
    have hsame : ∀ eventIndex, (after.events (worker.listKey, worker.chainId)).get? eventIndex
        = (inserted.events (worker.listKey, worker.chainId)).get? eventIndex := by
      intro eventIndex
      apply hadvanced.frame (.event worker.listKey worker.chainId eventIndex)
      simp
    constructor
    · intro event hevent
      rw [hsame]
      exact hinserted.stored event hevent
    · intro eventIndex hother
      rw [hsame, hevents eventIndex hother]
    · intro upstreamUrl hother
      rw [← htips]
      apply hadvanced.frame (.tip worker.listKey worker.chainId upstreamUrl)
      simpa using hother
    · obtain ⟨stored, hstored, hrow⟩ := hadvanced.tip
      obtain ⟨bytes, hbytes, hok⟩ := bind_eq_ok.mp hstored
      cases hok
      exact ⟨_, hrow, .inr ⟨rfl, hadvanced.indexFits, bytes, hbytes, rfl⟩⟩
    · exact hfits
    · intro key
      exact poiRowChange_preorder.trans key _ _ _ (hinserted.change key) (hadvanced.change key)
    · intro key
      exact sizedChange_preorder.trans key _ _ _ (hinserted.sized key) (hadvanced.sized key)
  · obtain rfl := Except.ok.inj hok
    refine ⟨hinserted.stored, hevents, fun upstreamUrl _ => htips upstreamUrl, ?_, hfits,
      hinserted.change, hinserted.sized⟩
    cases hrow : (inserted.tips (worker.listKey, worker.chainId)).get? worker.upstreamUrl with
    | none =>
        rw [hrow] at hadvances
        exact absurd rfl hadvances
    | some row =>
        rw [hrow] at hadvances
        refine ⟨row, rfl, .inl ⟨?_, ?_⟩⟩
        · rw [← htips, hrow]
        · simpa using hadvances

theorem applyPage_eq_ok {cache applied : Cache} {root : Bytes32}
    (hok : applyPage library upstream cache page = .ok (applied, root)) :
    library.applyVerifiedArtifactEvents cache page.snapshotEvents = .ok applied
      ∧ library.currentRoots applied (library.normalizeTreePosition 0 page.lastEventIndex).1
        = some root := by
  obtain ⟨found, hfound, hok⟩ := bind_eq_ok.mp hok
  obtain ⟨accepted, -, hok⟩ := bind_eq_ok.mp hok
  split_ifs at hok
  dsimp only at hok
  split at hok
  · cases hok
  · rename_i actual hactual
    cases hok
    exact ⟨mapError_eq_ok.mp hfound, hactual⟩

/-- What a call of `syncNextPage` leaves: the worker's cache, and the tables. -/
inductive SyncEffect (library : ScrapeLibrary Cache) (worker : ScrapeWorker Cache)
    (tables : PoiTables) : Option Cache × PoiTables → Prop
  | kept : SyncEffect library worker tables (worker.cache, tables)
  | loaded {cache : Cache} (hcache : cachedPoiCache library worker tables = .ok cache) :
      SyncEffect library worker tables (some cache, tables)
  | stored {startIndex : Nat} {page : ScrapedPage} {cache applied next : Cache} {root : Bytes32}
      {after : PoiTables} (hstart : nextStartIndex worker tables = .ok startIndex)
      (hpage : CheckedPage library worker.listKey startIndex page)
      (hcache : cachedPoiCache library worker tables = .ok cache)
      (happlied : library.applyVerifiedArtifactEvents cache page.snapshotEvents = .ok applied)
      (hroot : library.currentRoots applied
        (library.normalizeTreePosition 0 page.lastEventIndex).1 = some root)
      (hstored : StoredPage library worker tables page root after)
      (hnext : next = cache ∨ next = applied) : SyncEffect library worker tables (some next, after)

theorem syncNextPage_effect (library : ScrapeLibrary Cache) (worker : ScrapeWorker Cache)
    (tables : PoiTables) (upstream : Upstream Cache) (commit : CommitOutcome) :
    SyncEffect library worker tables (syncNextPage library worker tables upstream commit).2 := by
  rw [syncNextPage]
  split
  · exact .kept
  · exact .kept
  rename_i page hrequested
  obtain ⟨startIndex, hstart, hpage⟩ := requestPage_eq_some hrequested
  split
  · exact .kept
  rename_i cache hcache
  split
  · exact .loaded hcache
  rename_i applied root happly
  obtain ⟨happlied, hroot⟩ := applyPage_eq_ok happly
  split
  · exact .loaded hcache
  rename_i after hstore
  have hstored := storePage_eq_ok hstore
  cases commit with
  | committed => exact .stored hstart hpage hcache happlied hroot hstored (.inr rfl)
  | unacknowledged error => exact .stored hstart hpage hcache happlied hroot hstored (.inl rfl)
  | failed error => exact .loaded hcache

end Pages

/-! ### Caches -/

section Caches

variable {Cache : Type}

def NumberedFrom (startIndex : Nat) (events : List SnapshotEvent) : Prop :=
  events.map SnapshotEvent.eventIndex = List.range' startIndex events.length

/-- A cache counts as holding some events. It refuses pages that leave a gap, and holds a page that
continues it after its own events; its roots come from the events alone. -/
structure CacheBehaves (library : ScrapeLibrary Cache) (applied : Cache → List SnapshotEvent) :
    Prop where
  new : ∀ scope, applied (library.newCache scope) = []
  gap : ∀ cache after startIndex page, NumberedFrom startIndex page → page ≠ [] →
    library.applyVerifiedArtifactEvents cache page = .ok after → startIndex ≤ (applied cache).length
  append : ∀ cache after page, NumberedFrom (applied cache).length page →
    library.applyVerifiedArtifactEvents cache page = .ok after → applied after = applied cache ++ page
  roots : ∀ cache other, applied cache = applied other →
    library.currentRoots cache = library.currentRoots other
      ∧ library.rootAtGlobalIndex cache = library.rootAtGlobalIndex other
  last : ∀ cache event, (applied cache).getLast? = some event →
    library.rootAtGlobalIndex cache event.eventIndex = library.currentRoots cache
      (library.normalizeTreePosition 0 event.eventIndex).1

/-- Hexadecimal digits have no marker of their own, and an event's check reads its signature only as
the bytes they stand for. -/
structure HexBehaves (library : ScrapeLibrary Cache) : Prop where
  plain : ∀ bytes, strip0x (library.encodeHex bytes) = library.encodeHex bytes
  decode : ∀ bytes, library.decodeHex (library.encodeHex bytes) = some bytes
  verify : ∀ event other listKey, event.index = other.index →
    event.blindedCommitment = other.blindedCommitment → event.eventType = other.eventType →
    library.decodeHex (strip0x event.signature) = library.decodeHex (strip0x other.signature) →
      library.verifyPoiEvent event listKey = library.verifyPoiEvent other listKey

theorem CheckedPage.numberedFrom {library : ScrapeLibrary Cache} {listKey : Bytes32}
    {startIndex : Nat} {page : ScrapedPage} (hpage : CheckedPage library listKey startIndex page) :
    NumberedFrom startIndex page.snapshotEvents := by
  rw [NumberedFrom, hpage.snapshots, List.length_map, List.length_map, ← hpage.numbered,
    List.map_map, List.map_map]
  rfl

end Caches

theorem exists_sync_step {Cache : Type} {library : ScrapeLibrary Cache} (state : ScrapeState Cache)
    (worker : ScrapeWorker Cache) (upstream : Upstream Cache) (commit : CommitOutcome)
    (hcache : worker.cache = state.cache worker.upstreamUrl) :
    ∃ next, ScrapeStep library worker.listKey worker.chainId state (.sync worker.upstreamUrl) next
      ∧ next.tables = (syncNextPage library worker state.tables upstream commit).2.2 :=
  ⟨_, .sync worker upstream commit rfl rfl hcache, rfl⟩

/-! ### A small library -/

section Small

variable {event : SnapshotEvent}

def addSmallEvent (cache : List SnapshotEvent) (event : SnapshotEvent) :
    Except String (List SnapshotEvent) :=
  if event.eventIndex = cache.length then .ok (cache ++ [event])
  else if cache[event.eventIndex]? = some event then .ok cache
  else .error "event does not continue the cache"

def verifySmallEvent (event : SignedPoiEvent) : Except String Unit :=
  if (Hex.decode (strip0x event.signature)).any fun bytes => bytes.length = signatureBytes then .ok ()
  else .error "signature"

def smallScrapeLibrary : ScrapeLibrary (List SnapshotEvent) where
  newCache _ := []
  applyVerifiedArtifactEvents cache events := events.foldlM addSmallEvent cache
  currentRoots cache _ := some (FixedBytes.ofNat cache.length)
  rootAtGlobalIndex cache _ := some (FixedBytes.ofNat cache.length)
  verifyPoiEvent event _ := verifySmallEvent event
  decodeHex := Hex.decode
  encodeHex := Hex.encode
  normalizeTreePosition _ position := (0, position)

theorem numberedFrom_cons {startIndex : Nat} {events : List SnapshotEvent} :
    NumberedFrom startIndex (event :: events)
      ↔ event.eventIndex = startIndex ∧ NumberedFrom (startIndex + 1) events := by
  rw [NumberedFrom, List.map_cons, List.length_cons, List.range'_succ, List.cons_eq_cons]
  rfl

theorem addSmallEvent_eq_ok {cache after : List SnapshotEvent}
    (hok : addSmallEvent cache event = .ok after) :
    event.eventIndex = cache.length ∧ after = cache ++ [event]
      ∨ event.eventIndex < cache.length ∧ after = cache := by
  rw [addSmallEvent] at hok
  split_ifs at hok with hnext hheld
  · exact .inl ⟨hnext, (Except.ok.inj hok).symm⟩
  · exact .inr ⟨(List.getElem?_eq_some_iff.mp hheld).1, (Except.ok.inj hok).symm⟩

theorem smallScrapeLibrary_cacheBehaves : CacheBehaves smallScrapeLibrary id where
  new _ := rfl
  gap cache after startIndex page hnumbered hnonempty hok := by
    cases page with
    | nil => exact absurd rfl hnonempty
    | cons event rest =>
        obtain ⟨next, hnext, -⟩ := bind_eq_ok.mp ((List.foldlM_cons ..).symm.trans hok)
        rw [← (numberedFrom_cons.mp hnumbered).1]
        rcases addSmallEvent_eq_ok hnext with ⟨hindex, -⟩ | ⟨hindex, -⟩
        · exact hindex.le
        · exact hindex.le
  append cache after page hnumbered hok := by
    simp only [id_eq] at hnumbered ⊢
    induction page generalizing cache with
    | nil =>
        cases hok
        rw [List.append_nil]
    | cons event rest ih =>
        obtain ⟨next, hnext, hrest⟩ := bind_eq_ok.mp ((List.foldlM_cons ..).symm.trans hok)
        obtain ⟨hindex, hrestNumbered⟩ := numberedFrom_cons.mp hnumbered
        rcases addSmallEvent_eq_ok hnext with ⟨-, rfl⟩ | ⟨hlower, -⟩
        · rw [ih (cache ++ [event]) (by simpa using hrestNumbered) hrest, List.append_assoc]
          rfl
        · omega
  roots cache other hsame := by
    obtain rfl : cache = other := hsame
    exact ⟨rfl, rfl⟩
  last _ _ _ := rfl

theorem smallScrapeLibrary_hexBehaves : HexBehaves smallScrapeLibrary where
  plain bytes := by
    rw [strip0x]
    split
    · rename_i rest hmarked
      exact absurd hmarked (Hex.encode_ne_marked bytes rest)
    · rfl
  decode := Hex.decode_encode
  verify event other _ _ _ _ hsame := by
    change verifySmallEvent event = verifySmallEvent other
    have hdecoded : Hex.decode (strip0x event.signature) = Hex.decode (strip0x other.signature) := hsame
    rw [verifySmallEvent, hdecoded]
    rfl

def smallWorker (upstreamUrl : String) : ScrapeWorker (List SnapshotEvent) :=
  ⟨1, 1, upstreamUrl, ⟨10, 10, 1, 0, 0⟩, "V2", none⟩

def smallSignedEvent (index : Nat) : SignedPoiEvent :=
  ⟨index, FixedBytes.ofNat index, Hex.encode (List.replicate signatureBytes 1), .shield⟩

def smallUpstream (count : Nat) : Upstream (List SnapshotEvent) where
  poiEvents startIndex _ := .ok (((List.range count).drop startIndex).map smallSignedEvent)
  validateRoots _ := .ok true

def smallScrapeState : ScrapeState (List SnapshotEvent) := ⟨.empty, fun _ => none⟩

def smallSynced (count : Nat) : PoiTables := (syncNextPage smallScrapeLibrary (smallWorker "a")
  smallScrapeState.tables (smallUpstream count) .committed).2.2

def smallLeafTables : Except StoreError PoiTables := do
  let inserted ← (smallSynced 1).execute (insertEventLeaves 1 1 1 [7])
  inserted.execute (advanceChainTip Hex.decode 1 1 "a" 1 none)

theorem smallSynced_two_tip :
    ((smallSynced 2).tips (1, 1)).get? "a" = some ⟨1, some (rootBytes 2)⟩ := by
  decide +kernel

theorem small_facts : ((smallSynced 1).tips (1, 1)).get? "a" = some ⟨0, some (rootBytes 1)⟩
    ∧ smallLeafTables.toOption.map (fun tables =>
      (((tables.events (1, 1)).get? 1).map PoiEventRow.eventDataComplete, tipCount 1 1 tables "a",
        (nextStartIndex (smallWorker "b") tables).toOption,
        (hydrationEvents (smallWorker "b") tables).toOption))
      = some (some false, 2, some 1, some []) := by
  decide +kernel

end Small

end RailgunIndexer
