import RailgunIndexer.PoiStore
import RailgunIndexer.Proof.Store

/-!
# The event store only grows

Every statement changes its row in one of few ways: it inserts an event, it completes one that has the
same commitment, or it moves a tip forward. So a commitment and a complete event are there for good, and
what a transaction finds out about them on the way stays true until it commits.
-/

namespace RailgunIndexer

open Lib Lib.Fallible Lib.Transactions

/-! ### How rows change -/

variable {stored : PoiEventRow}

inductive EventChange : Option PoiEventRow → Option PoiEventRow → Prop
  | same (row : Option PoiEventRow) : EventChange row row
  | insert (row : PoiEventRow) : EventChange none (some row)
  | complete {old new : PoiEventRow} (hincomplete : old.eventDataComplete = false)
      (hcomplete : new.eventDataComplete = true)
      (hcommitment : new.blindedCommitment = old.blindedCommitment) :
      EventChange (some old) (some new)

theorem EventChange.trans {first second third : Option PoiEventRow}
    (hfirst : EventChange first second) (hsecond : EventChange second third) :
    EventChange first third := by
  cases hfirst with
  | same => exact hsecond
  | insert row =>
      cases hsecond with
      | same => exact .insert row
      | complete => exact .insert _
  | complete hincomplete hcomplete hcommitment =>
      cases hsecond with
      | same => exact .complete hincomplete hcomplete hcommitment
      | complete hagain => rw [hcomplete] at hagain; cases hagain

theorem EventChange.of_complete {new : Option PoiEventRow} (hchange : EventChange (some stored) new)
    (hcomplete : stored.eventDataComplete = true) :
    new = some stored := by
  cases hchange with
  | same => rfl
  | complete hincomplete =>
      rw [hcomplete] at hincomplete
      cases hincomplete

structure KeepsEvent (old new : PoiEventRow) : Prop where
  commitment : new.blindedCommitment = old.blindedCommitment
  complete : old.eventDataComplete = true → new = old
  incomplete : new ≠ old → old.eventDataComplete = false ∧ new.eventDataComplete = true

theorem EventChange.keeps {new : Option PoiEventRow} (hchange : EventChange (some stored) new) :
    ∃ row, new = some row ∧ KeepsEvent stored row := by
  cases hchange with
  | same => exact ⟨stored, rfl, rfl, fun _ => rfl, fun hne => absurd rfl hne⟩
  | complete hincomplete hcomplete hcommitment =>
      refine ⟨_, rfl, hcommitment, ?_, fun _ => ⟨hincomplete, hcomplete⟩⟩
      intro hstored
      rw [hincomplete] at hstored
      cases hstored

def TipChange (old new : Option ChainTipRow) : Prop :=
  ∀ tip, old = some tip → ∃ next, new = some next ∧ tip.lastEventIndex ≤ next.lastEventIndex

def PoiRowChange : Change PoiKey PoiRow
  | .event _ chainId eventIndex, old, new => EventChange old new
      ∧ (old = none → new ≠ none → chainId < i64Bound ∧ eventIndex < i64Bound)
  | .tip _ _ _, old, new => TipChange old new

theorem poiRowChange_preorder : PoiRowChange.Preorder where
  refl key row := by
    cases key with
    | event listKey chainId eventIndex =>
        exact ⟨.same row, fun hnone hsome => absurd hnone hsome⟩
    | tip listKey chainId upstreamUrl => exact fun tip htip => ⟨tip, htip, le_rfl⟩
  trans key first second third hfirst hsecond := by
    cases key with
    | event listKey chainId eventIndex =>
        refine ⟨hfirst.1.trans hsecond.1, ?_⟩
        intro hnone hsome
        by_cases hmiddle : second = none
        · exact hsecond.2 hmiddle hsome
        · exact hfirst.2 hnone hmiddle
    | tip listKey chainId upstreamUrl =>
        intro tip htip
        obtain ⟨middle, hmiddle, hle⟩ := hfirst tip htip
        obtain ⟨last, hlast, hlater⟩ := hsecond middle hmiddle
        exact ⟨last, hlast, hle.trans hlater⟩

/-! ### What the statements do -/

section Statements

variable {blindedCommitment : Bytes32} {signature : Bytes} {eventType : PoiEventType}
  {seen : Option PoiEventRow} {row : PoiEventRow}

theorem upsertEvent_eq_some (hok : upsertEvent blindedCommitment signature eventType seen = some row) :
    EventChange seen (some row) ∧ row = ⟨blindedCommitment, signature, eventType, true⟩ := by
  cases seen with
  | none =>
      cases hok
      exact ⟨.insert _, rfl⟩
  | some stored =>
      rw [upsertEvent] at hok
      split_ifs at hok with hcompletes
      cases hok
      exact ⟨.complete hcompletes.1 rfl hcompletes.2.symm, rfl⟩

theorem insertLeafRow_eq_some (hok : insertLeafRow blindedCommitment seen = some row) :
    EventChange seen (some row) ∧ row.blindedCommitment = blindedCommitment := by
  cases seen with
  | none =>
      cases hok
      exact ⟨.insert _, rfl⟩
  | some stored => cases hok

theorem upsertTip_eq_some {lastEventIndex : Nat} {lastTipMerkleroot : Option Bytes}
    {before : Option ChainTipRow} {after : ChainTipRow}
    (hok : upsertTip lastEventIndex lastTipMerkleroot before = some after) :
    TipChange before (some after) ∧ after = ⟨lastEventIndex, lastTipMerkleroot⟩ := by
  cases before with
  | none =>
      refine ⟨?_, (Option.some.inj hok).symm⟩
      intro tip htip
      cases htip
  | some tip =>
      rw [upsertTip] at hok
      split_ifs at hok with hle
      cases hok
      refine ⟨?_, rfl⟩
      intro found hfound
      cases hfound
      exact ⟨_, rfl, hle⟩

theorem exactArray_eq_ok {field : String} {width : Nat} {bytes found : Bytes}
    (hok : exactArray field width bytes = .ok found) : bytes.length = width ∧ found = bytes := by
  rw [exactArray] at hok
  split_ifs at hok with hlength
  exact ⟨hlength, (Except.ok.inj hok).symm⟩

theorem exactCompleteReinsert_eq_ok
    (hok : exactCompleteReinsert blindedCommitment signature eventType row = .ok true) :
    row = ⟨blindedCommitment, signature, eventType, true⟩ := by
  rw [exactCompleteReinsert] at hok
  split_ifs at hok with hcomplete
  · obtain ⟨found, hfound, hok⟩ := bind_eq_ok.mp hok
    obtain ⟨-, rfl⟩ := exactArray_eq_ok hfound
    obtain ⟨hsignature, htype⟩ := of_decide_eq_true (Except.ok.inj hok)
    obtain ⟨commitment, stored, kind, complete⟩ := row
    obtain ⟨rfl, rfl⟩ := hcomplete
    subst hsignature htype
    rfl
  · cases Except.ok.inj hok

theorem exactCompleteReinsert_same (hlength : signature.length = signatureBytes) :
    exactCompleteReinsert blindedCommitment signature eventType
      ⟨blindedCommitment, signature, eventType, true⟩ = .ok true := by
  rw [exactCompleteReinsert, if_pos ⟨rfl, rfl⟩, exactArray, if_pos hlength, ok_bind]
  simp

theorem length_of_decodeFixedHex {decodeHex : String → Option Bytes} {field value : String}
    {width : Nat} {bytes : Bytes} (hok : decodeFixedHex decodeHex field width value = .ok bytes) :
    bytes.length = width := by
  rw [decodeFixedHex] at hok
  split at hok
  · cases hok
  · obtain ⟨hlength, rfl⟩ := exactArray_eq_ok hok
    exact hlength

end Statements

/-! ### What the calls do -/

section Calls

variable {decodeHex : String → Option Bytes} {listKey : Bytes32} {chainId : Nat}
  {R : Change PoiKey PoiRow} {P : Option PoiEventRow → Prop} {event : SignedPoiEvent}

def StoredAs (decodeHex : String → Option Bytes) (event : SignedPoiEvent) (row : Option PoiEventRow) :
    Prop :=
  ∃ signature, decodeFixedHex decodeHex "signature" signatureBytes event.signature = .ok signature
    ∧ row = some ⟨event.blindedCommitment, signature, event.eventType, true⟩

def HasLeaf (leaf : U256) (row : Option PoiEventRow) : Prop :=
  ∃ stored, row = some stored ∧ stored.blindedCommitment = leaf

theorem stable_storedAs (event : SignedPoiEvent) (eventIndex : Nat) :
    PoiRowChange.Stable (.event listKey chainId eventIndex) (StoredAs decodeHex event) := by
  rintro old new ⟨signature, hdecoded, rfl⟩ hchange
  exact ⟨signature, hdecoded, hchange.1.of_complete rfl⟩

theorem stable_hasLeaf (leaf : U256) (eventIndex : Nat) :
    PoiRowChange.Stable (.event listKey chainId eventIndex) (HasLeaf leaf) := by
  rintro old new ⟨stored, rfl, rfl⟩ hchange
  obtain ⟨row, rfl, hkeeps⟩ := hchange.1.keeps
  exact ⟨row, rfl, hkeeps.commitment⟩

theorem checkReinsert_keeps (event : SignedPoiEvent) (signature : Bytes)
    (stored : Option PoiEventRow) : (checkReinsert chainId event signature stored).Keeps R := by
  cases stored with
  | none => trivial
  | some stored =>
      apply Session.keeps_require
      intro exact _
      cases exact <;> trivial

theorem checkLeaf_keeps (eventIndex : Nat) (leaf : U256) (stored : Option PoiEventRow) :
    (checkLeaf chainId eventIndex leaf stored).Keeps R := by
  cases stored with
  | none => trivial
  | some stored =>
      rw [checkLeaf]
      split_ifs <;> trivial

theorem insertEvent_keeps_of (event : SignedPoiEvent)
    (hwrites : ∀ signature seen row, event.index < i64Bound →
      decodeFixedHex decodeHex "signature" signatureBytes event.signature = .ok signature →
      upsertEvent event.blindedCommitment signature event.eventType seen = some row →
        R (.event listKey chainId event.index) seen (some row)) :
    (insertEvent decodeHex listKey chainId event).Keeps R := by
  apply Session.keeps_require
  intro eventIndex hindex
  obtain ⟨hfits, rfl⟩ := u64ToI64_eq_ok.mp hindex
  apply Session.keeps_require
  intro signature hdecoded seen
  constructor
  · intro row hrow
    exact hwrites signature seen row hfits hdecoded hrow
  · dsimp only
    split_ifs
    · trivial
    · intro stored
      refine ⟨?_, checkReinsert_keeps event signature stored⟩
      intro row hnone
      cases hnone

theorem insertEvent_keeps (hchain : chainId < i64Bound) (event : SignedPoiEvent) :
    (insertEvent decodeHex listKey chainId event).Keeps PoiRowChange := by
  apply insertEvent_keeps_of
  intro signature seen row hfits _ hrow
  exact ⟨(upsertEvent_eq_some hrow).1, fun _ _ => ⟨hchain, hfits⟩⟩

theorem insertEventLeaf_keeps_of (startIndex offset : Nat) (leaf : U256)
    (hwrites : ∀ seen row, startIndex + offset < i64Bound → insertLeafRow leaf seen = some row →
      R (.event listKey chainId (startIndex + offset)) seen (some row)) :
    (insertEventLeaf listKey chainId startIndex offset leaf).Keeps R := by
  rw [insertEventLeaf]
  split_ifs
  · trivial
  · apply Session.keeps_require
    intro eventIndex hindex seen
    obtain ⟨hfits, rfl⟩ := u64ToI64_eq_ok.mp hindex
    constructor
    · intro row hrow
      exact hwrites seen row hfits hrow
    · dsimp only
      split_ifs
      · trivial
      · intro stored
        refine ⟨?_, checkLeaf_keeps (startIndex + offset) leaf stored⟩
        intro row hnone
        cases hnone

theorem insertEventLeaf_keeps (hchain : chainId < i64Bound) (startIndex offset : Nat) (leaf : U256) :
    (insertEventLeaf listKey chainId startIndex offset leaf).Keeps PoiRowChange := by
  apply insertEventLeaf_keeps_of
  intro seen row hfits hrow
  exact ⟨(insertLeafRow_eq_some hrow).1, fun _ _ => ⟨hchain, hfits⟩⟩

theorem advanceChainTip_keeps (upstreamUrl : String) (lastEventIndex : Nat)
    (lastTipMerkleroot : Option String) :
    (advanceChainTip decodeHex listKey chainId upstreamUrl lastEventIndex lastTipMerkleroot).Keeps
      PoiRowChange := by
  apply Session.keeps_require
  intro _ _
  apply Session.keeps_require
  intro _ _
  apply Session.keeps_require
  intro _ _ seen
  constructor
  · intro row hrow
    exact (upsertTip_eq_some hrow).1
  · dsimp only
    split_ifs <;> trivial

theorem PoiTransaction.session_keeps (decodeHex : String → Option Bytes)
    (transaction : PoiTransaction) : (transaction.session decodeHex).Keeps PoiRowChange := by
  apply Session.keeps_sequence
  intro call _
  cases call with
  | insertEvents events =>
      apply Session.keeps_require
      intro chainId hchain
      obtain ⟨hfits, rfl⟩ := u64ToI64_eq_ok.mp hchain
      exact Session.keeps_sequence fun event _ => insertEvent_keeps hfits event
  | insertEventLeaves startIndex leaves =>
      apply Session.keeps_require
      intro chainId hchain
      obtain ⟨hfits, rfl⟩ := u64ToI64_eq_ok.mp hchain
      exact Session.keeps_sequence fun leaf _ => insertEventLeaf_keeps hfits startIndex leaf.2 leaf.1
  | advanceChainTip upstreamUrl lastEventIndex lastTipMerkleroot =>
      exact advanceChainTip_keeps upstreamUrl lastEventIndex lastTipMerkleroot

theorem checkReinsert_ensures {signature : Bytes} {key : PoiKey} {Q : Option (PoiRow key) → Prop}
    (hdecoded : decodeFixedHex decodeHex "signature" signatureBytes event.signature = .ok signature)
    (stored : Option PoiEventRow) :
    StoredAs decodeHex event stored ∨ (checkReinsert chainId event signature stored).Ensures key Q := by
  cases stored with
  | none => exact .inr trivial
  | some stored =>
      by_cases hexact : exactCompleteReinsert event.blindedCommitment signature event.eventType stored
          = .ok true
      · obtain rfl := exactCompleteReinsert_eq_ok hexact
        exact .inl ⟨signature, hdecoded, rfl⟩
      · right
        apply Session.ensures_require
        intro exact hok
        cases exact with
        | false => trivial
        | true => exact absurd hok hexact

theorem checkLeaf_ensures {key : PoiKey} {Q : Option (PoiRow key) → Prop} (eventIndex : Nat)
    (leaf : U256) (stored : Option PoiEventRow) :
    HasLeaf leaf stored ∨ (checkLeaf chainId eventIndex leaf stored).Ensures key Q := by
  cases stored with
  | none => exact .inr trivial
  | some stored =>
      by_cases hsame : stored.blindedCommitment = leaf
      · exact .inl ⟨stored, rfl, hsame⟩
      · right
        rw [checkLeaf, if_pos hsame]
        trivial

theorem checkReinsert_passes {signature : Bytes} {F : (key : PoiKey) → Option (PoiRow key) → Prop}
    (hlength : signature.length = signatureBytes) :
    (checkReinsert chainId event signature
      (some ⟨event.blindedCommitment, signature, event.eventType, true⟩)).Passes F := by
  rw [checkReinsert, exactCompleteReinsert_same hlength]
  trivial

theorem insertEvent_ensures (event : SignedPoiEvent) :
    (insertEvent decodeHex listKey chainId event).Ensures (.event listKey chainId event.index)
      (StoredAs decodeHex event) := by
  apply Session.ensures_require
  intro eventIndex hindex
  obtain ⟨-, rfl⟩ := u64ToI64_eq_ok.mp hindex
  apply Session.ensures_require
  intro signature hdecoded seen
  cases hwrote : upsertEvent event.blindedCommitment signature event.eventType seen with
  | some row =>
      obtain ⟨-, rfl⟩ := upsertEvent_eq_some hwrote
      exact .inl ⟨rfl, signature, hdecoded, rfl⟩
  | none =>
      right
      simp only [hwrote, Option.isSome_none, Bool.false_eq_true, if_false]
      intro stored
      exact (checkReinsert_ensures hdecoded stored).imp_left fun hstored => ⟨rfl, hstored⟩

theorem insertEventLeaf_ensures (startIndex offset : Nat) (leaf : U256) :
    (insertEventLeaf listKey chainId startIndex offset leaf).Ensures
      (.event listKey chainId (startIndex + offset)) (HasLeaf leaf) := by
  rw [insertEventLeaf]
  split_ifs
  · trivial
  · apply Session.ensures_require
    intro eventIndex hindex
    obtain ⟨-, rfl⟩ := u64ToI64_eq_ok.mp hindex
    intro seen
    cases hwrote : insertLeafRow leaf seen with
    | some row => exact .inl ⟨rfl, row, rfl, (insertLeafRow_eq_some hwrote).2⟩
    | none =>
        right
        simp only [hwrote, Option.isSome_none, Bool.false_eq_true, if_false]
        intro stored
        exact (checkLeaf_ensures _ leaf stored).imp_left fun hleaf => ⟨rfl, hleaf⟩

def CompleteIn (rows : PoiRows) : (key : PoiKey) → Option (PoiRow key) → Prop
  | .event listKey chainId eventIndex, row => ∀ stored : PoiEventRow,
      rows (.event listKey chainId eventIndex) = some stored → stored.eventDataComplete = true →
        row = some stored
  | .tip _ _ _, _ => True

theorem completeIn_self (rows : PoiRows) (key : PoiKey) : CompleteIn rows key (rows key) := by
  cases key with
  | event listKey chainId eventIndex => exact fun _ hstored _ => hstored
  | tip listKey chainId upstreamUrl => trivial

theorem stable_completeIn (rows : PoiRows) (key : PoiKey) :
    PoiRowChange.Stable key (CompleteIn rows key) := by
  cases key with
  | event listKey chainId eventIndex =>
      rintro old new hold hchange stored hstored hcomplete
      obtain rfl := hold stored hstored hcomplete
      exact hchange.1.of_complete hcomplete
  | tip listKey chainId upstreamUrl => exact fun _ _ _ _ => trivial

theorem insertEvent_passes {rows : PoiRows} (hindex : event.index < i64Bound)
    (hstored : StoredAs decodeHex event (rows (.event listKey chainId event.index))) :
    (insertEvent decodeHex listKey chainId event).Passes (CompleteIn rows) := by
  obtain ⟨signature, hdecoded, hrow⟩ := hstored
  rw [insertEvent, u64ToI64_eq_ok.mpr ⟨hindex, rfl⟩, hdecoded]
  intro seen hseen
  obtain rfl := hseen _ hrow rfl
  have hnone : upsertEvent event.blindedCommitment signature event.eventType
      (some ⟨event.blindedCommitment, signature, event.eventType, true⟩) = none := by
    rw [upsertEvent, if_neg (by simp)]
  refine ⟨hnone, ?_⟩
  intro stored hagain
  obtain rfl := hagain _ hrow rfl
  exact ⟨rfl, checkReinsert_passes (length_of_decodeFixedHex hdecoded)⟩

end Calls

/-! ### Every run -/

section Runs

variable {decodeHex : String → Option Bytes} {transactions : Nat → PoiTransaction}
  {transaction : PoiTransaction}

/-- What the transaction submits cannot be stored together with what is: another commitment, or a
complete event that differs. -/
inductive PoiTransaction.Conflicts (decodeHex : String → Option Bytes) (transaction : PoiTransaction)
    (rows : PoiRows) : Prop
  | event {events : List SignedPoiEvent} {event : SignedPoiEvent} {stored : PoiEventRow}
      (hcall : .insertEvents events ∈ transaction.calls) (hevent : event ∈ events)
      (hstored : rows (.event transaction.listKey transaction.chainId event.index) = some stored)
      (hdiffers : stored.blindedCommitment ≠ event.blindedCommitment
        ∨ stored.eventDataComplete = true ∧ (stored.eventType ≠ event.eventType
          ∨ decodeFixedHex decodeHex "signature" signatureBytes event.signature
            ≠ .ok stored.signature))
  | leaf {startIndex offset : Nat} {leaves : List U256} {leaf : U256} {stored : PoiEventRow}
      (hcall : .insertEventLeaves startIndex leaves ∈ transaction.calls)
      (hleaf : (leaf, offset) ∈ leaves.zipIdx)
      (hstored : rows (.event transaction.listKey transaction.chainId (startIndex + offset))
        = some stored)
      (hdiffers : stored.blindedCommitment ≠ leaf)

/-- The transaction submits events that are stored as they are submitted. A call without any needs a
chain identifier that fits its column. -/
def PoiTransaction.Resubmits (decodeHex : String → Option Bytes) (transaction : PoiTransaction)
    (rows : PoiRows) : Prop :=
  ∀ call ∈ transaction.calls, ∃ events, call = .insertEvents events
    ∧ (events = [] → transaction.chainId < i64Bound)
    ∧ ∀ event ∈ events, StoredAs decodeHex event
      (rows (.event transaction.listKey transaction.chainId event.index))

theorem PoiTransaction.ensures_event {events : List SignedPoiEvent} {event : SignedPoiEvent}
    (hcall : .insertEvents events ∈ transaction.calls) (hevent : event ∈ events) :
    (transaction.session decodeHex).Ensures
      (.event transaction.listKey transaction.chainId event.index) (StoredAs decodeHex event) := by
  apply Session.ensures_sequence hcall
  apply Session.ensures_require
  intro chainId hchain
  obtain ⟨-, rfl⟩ := u64ToI64_eq_ok.mp hchain
  exact Session.ensures_sequence hevent (insertEvent_ensures event)

theorem PoiTransaction.ensures_leaf {startIndex offset : Nat} {leaves : List U256} {leaf : U256}
    (hcall : .insertEventLeaves startIndex leaves ∈ transaction.calls)
    (hleaf : (leaf, offset) ∈ leaves.zipIdx) : (transaction.session decodeHex).Ensures
      (.event transaction.listKey transaction.chainId (startIndex + offset)) (HasLeaf leaf) := by
  apply Session.ensures_sequence hcall
  apply Session.ensures_require
  intro chainId hchain
  obtain ⟨-, rfl⟩ := u64ToI64_eq_ok.mp hchain
  exact Session.ensures_sequence hleaf (insertEventLeaf_ensures startIndex offset leaf)

theorem PoiTransaction.Conflicts.exists_fact {rows : PoiRows}
    (hconflicts : transaction.Conflicts decodeHex rows) :
    ∃ key P, PoiRowChange.Stable key P ∧ (transaction.session decodeHex).Ensures key P
      ∧ ∀ new, PoiRowChange key (rows key) new → ¬P new := by
  cases hconflicts with
  | @event events event stored hcall hevent hstored hdiffers =>
      refine ⟨_, _, stable_storedAs event event.index, PoiTransaction.ensures_event hcall hevent, ?_⟩
      rintro new hchange ⟨signature, hdecoded, rfl⟩
      rw [hstored] at hchange
      obtain ⟨row, hrow, hkeeps⟩ := hchange.1.keeps
      cases hrow
      rcases hdiffers with hcommitment | ⟨hcomplete, hfields⟩
      · exact hcommitment hkeeps.commitment.symm
      · obtain rfl := hkeeps.complete hcomplete
        exact hfields.elim (fun hne => hne rfl) fun hne => hne hdecoded
  | @leaf startIndex offset leaves leaf stored hcall hleaf hstored hdiffers =>
      refine ⟨_, _, stable_hasLeaf leaf (startIndex + offset),
        PoiTransaction.ensures_leaf hcall hleaf, ?_⟩
      rintro new hchange ⟨row, rfl, rfl⟩
      rw [hstored] at hchange
      obtain ⟨kept, hrow, hkeeps⟩ := hchange.1.keeps
      cases hrow
      exact hdiffers hkeeps.commitment.symm

theorem PoiTransaction.Resubmits.passes {rows : PoiRows}
    (hfits : ∀ listKey chainId eventIndex, rows (.event listKey chainId eventIndex) ≠ none → chainId
      < i64Bound ∧ eventIndex < i64Bound) (hresubmits : transaction.Resubmits decodeHex rows) :
    (transaction.session decodeHex).Passes (CompleteIn rows) := by
  apply Session.passes_sequence
  intro call hcall
  obtain ⟨events, rfl, hnone, hstored⟩ := hresubmits call hcall
  have hrow : ∀ event ∈ events, transaction.chainId < i64Bound ∧ event.index < i64Bound := by
    intro event hevent
    apply hfits transaction.listKey
    obtain ⟨signature, -, hrow⟩ := hstored event hevent
    rw [hrow]
    exact Option.some_ne_none _
  have hchain : transaction.chainId < i64Bound := by
    cases events with
    | nil => exact hnone rfl
    | cons event rest => exact (hrow event List.mem_cons_self).1
  rw [PoiCall.session, insertEvents, u64ToI64_eq_ok.mpr ⟨hchain, rfl⟩]
  apply Session.passes_sequence
  intro event hevent
  exact insertEvent_passes (hrow event hevent).2 (hstored event hevent)

abbrev PoiState := State PoiKey PoiRow StoreError Nat

def emptyPoiStore : PoiState := State.start fun _ => none

def PoiStep (decodeHex : String → Option Bytes) (transactions : Nat → PoiTransaction) :
    PoiState → Event Nat → PoiState → Prop :=
  Step fun name => (transactions name).session decodeHex

/-- Stored events are kept, and no tip goes back. -/
structure AppendOnly (before after : PoiRows) : Prop where
  events : ∀ listKey chainId eventIndex (stored : PoiEventRow),
    before (.event listKey chainId eventIndex) = some stored → ∃ row : PoiEventRow,
      after (.event listKey chainId eventIndex) = some row ∧ KeepsEvent stored row
  tips : ∀ listKey chainId upstreamUrl (tip : ChainTipRow),
    before (.tip listKey chainId upstreamUrl) = some tip → ∃ later : ChainTipRow,
      after (.tip listKey chainId upstreamUrl) = some later
        ∧ tip.lastEventIndex ≤ later.lastEventIndex

theorem appendOnly_of_poiRowChange {before after : PoiRows}
    (hchange : ∀ key, PoiRowChange key (before key) (after key)) : AppendOnly before after := by
  constructor
  · intro listKey chainId eventIndex stored hstored
    have hevent := (hchange (.event listKey chainId eventIndex)).1
    rw [hstored] at hevent
    exact hevent.keeps
  · intro listKey chainId upstreamUrl tip htip
    exact hchange (.tip listKey chainId upstreamUrl) tip htip

structure Refused (name : Nat) (state : PoiState) : Prop where
  uncommitted : state.phase name ≠ .committed
  fails : ∀ session written, state.phase name = .running session written →
    ∃ error, (session.eval (overlay written state.rows)).1 = .error error

structure Unchanging (name : Nat) (state : PoiState) : Prop where
  written : ∀ session written, state.phase name = .running session written →
    overlay written state.rows = state.rows
  succeeds : ∀ session written, state.phase name = .running session written →
    session.eval state.rows = (.ok (), state.rows)

theorem refused_of_fact {name : Nat} {state : PoiState} {key : PoiKey} {P : Option (PoiRow key) → Prop}
    (hstable : PoiRowChange.Stable key P) (hsound : Sound PoiRowChange state)
    (hestablishes : Establishes name key P state)
    (hnever : ∀ new, PoiRowChange key (state.rows key) new → ¬P new) : Refused name state := by
  constructor
  · intro hcommitted
    exact hnever _ (poiRowChange_preorder.refl key _) (hestablishes.committed hcommitted)
  · intro session written hphase
    have hkeeping := hsound.keeping _ _ _ hphase
    cases heval : session.eval (overlay written state.rows) with
    | mk outcome after =>
        cases outcome with
        | error error => exact ⟨error, rfl⟩
        | ok value =>
            have hfact := Session.eval_ensures hstable hkeeping.keeps
              (hestablishes.running session written hphase) heval
            have hchange := @Session.Keeps.eval _ _ _ _ _ _ (overlay written state.rows)
              poiRowChange_preorder hkeeping.keeps key
            rw [heval] at hchange
            have hwhole := poiRowChange_preorder.trans key _ _ _
              (hkeeping.change_seen poiRowChange_preorder key) hchange
            exact absurd hfact (hnever _ hwhole)

/-- **The event store is append-only and safe from conflicts.** From the empty store, in every order of
the statements of any transactions, committed or rolled back: what is stored at some time is kept at
every later time, and tips only move forward. A transaction in conflict with what is stored never commits
and fails if it runs to its end. Only commits change what is stored. A transaction that submits stored
complete events again ends well and changes nothing. -/
theorem poiStore_appendOnly {events later : List (Event Nat)} {state next : PoiState}
    (hrun : Run.Reaches (PoiStep decodeHex transactions) emptyPoiStore events state)
    (hlater : Run.Reaches (PoiStep decodeHex transactions) state later next) :
    AppendOnly state.rows next.rows
    ∧ (∀ name, (transactions name).Conflicts decodeHex state.rows → Refused name next)
    ∧ (∀ event after, PoiStep decodeHex transactions next event after →
      (∀ name, event ≠ .commit name) → after.rows = next.rows)
    ∧ (∀ name, state.phase name = .idle → (transactions name).Resubmits decodeHex state.rows →
      Unchanging name next) := by
  have hkeeps : ∀ name, ((transactions name).session decodeHex).Keeps PoiRowChange :=
    fun name => (transactions name).session_keeps decodeHex
  obtain ⟨hsound, hfirst⟩ := (sound_start _).reaches poiRowChange_preorder hkeeps hrun
  obtain ⟨hsoundNext, hchange⟩ := hsound.reaches poiRowChange_preorder hkeeps hlater
  refine ⟨appendOnly_of_poiRowChange hchange, ?_, ?_, ?_⟩
  · intro name hconflicts
    obtain ⟨key, P, hstable, hensures, hnever⟩ := hconflicts.exists_fact
    have hestablishes := Establishes.reaches poiRowChange_preorder hstable hkeeps hensures
      (sound_start _) (establishes_start _) (hrun.trans hlater)
    apply refused_of_fact hstable hsoundNext hestablishes
    intro new hnew
    exact hnever new (poiRowChange_preorder.trans key _ _ _ (hchange key) hnew)
  · intro event after hstep hevent
    cases hstep with
    | start | run | rollBack => rfl
    | @commit name => exact absurd rfl (hevent name)
  · intro name hidle hresubmits
    have hpasses := hresubmits.passes fun listKey chainId eventIndex hsome =>
      (hfirst (.event listKey chainId eventIndex)).2 rfl hsome
    have hlooks : Looks (CompleteIn state.rows) name state := by
      intro session written hphase
      rw [hidle] at hphase
      cases hphase
    obtain ⟨hlooksNext, hfacts⟩ := hlooks.reaches poiRowChange_preorder (stable_completeIn state.rows)
      hkeeps hpasses hsound (completeIn_self state.rows) hlater
    constructor
    · intro session written hphase
      funext key
      exact overlay_of_none ((hlooksNext session written hphase).1 key)
    · intro session written hphase
      exact (hlooksNext session written hphase).2.eval_eq hfacts

end Runs

/-! ### A small run -/

section Small

def onesHex (_ : String) : Option Bytes := some (List.replicate signatureBytes 1)

def smallEvent : SignedPoiEvent := ⟨0, 7, "", .transact⟩

def smallEventRow : PoiEventRow := ⟨7, List.replicate signatureBytes 1, .transact, true⟩

/-- The first transaction submits an event, the second a leaf with another commitment for its index, and
the third the event again. -/
def smallTransactions : Nat → PoiTransaction
  | 0 => ⟨1, 1, [.insertEvents [smallEvent]]⟩
  | 1 => ⟨1, 1, [.insertEventLeaves 0 [8]]⟩
  | _ => ⟨1, 1, [.insertEvents [smallEvent]]⟩

theorem poiStore_appendOnly_small : ∃ state next : PoiState,
    Run.Reaches (PoiStep onesHex smallTransactions) emptyPoiStore [.start 0, .run 0, .commit 0] state
    ∧ state.rows (.event 1 1 0) = some smallEventRow
    ∧ Run.Reaches (PoiStep onesHex smallTransactions) state [.start 1, .start 2, .run 1] next
    ∧ AppendOnly state.rows next.rows ∧ Refused 1 next ∧ Unchanging 2 next := by
  obtain ⟨state, hfirst, hstored, hone, htwo⟩ : ∃ state, Run.Reaches
      (PoiStep onesHex smallTransactions) emptyPoiStore [.start 0, .run 0, .commit 0] state
      ∧ state.rows (.event 1 1 0) = some smallEventRow ∧ state.phase 1 = .idle
      ∧ state.phase 2 = .idle := by
    refine ⟨_, ((Run.Reaches.refl.tail (Step.start rfl)).tail (Step.run rfl ?_)).tail
      (Step.commit rfl), rfl, rfl, rfl⟩
    intro _ other session written hne hphase
    rcases update_phase_eq.mp hphase with ⟨hsame, -⟩ | ⟨-, hidle⟩
    · exact absurd hsame hne
    · cases hidle
  obtain ⟨next, hsecond⟩ : ∃ next, Run.Reaches (PoiStep onesHex smallTransactions) state
      [.start 1, .start 2, .run 1] next := by
    refine ⟨_, ((Run.Reaches.refl.tail (Step.start hone)).tail (Step.start ?_)).tail
      (Step.run rfl ?_)⟩
    · exact htwo
    · intro hwrites
      exact absurd (congrArg (insertLeafRow 8) hstored) hwrites
  refine ⟨state, next, hfirst, hstored, hsecond, ?_⟩
  obtain ⟨hkeeps, hrefused, -, hunchanging⟩ := poiStore_appendOnly hfirst hsecond
  refine ⟨hkeeps, hrefused 1 ?_, hunchanging 2 htwo ?_⟩
  · exact .leaf List.mem_cons_self List.mem_cons_self hstored (by decide)
  · intro call hcall
    obtain rfl := List.mem_singleton.mp hcall
    refine ⟨[smallEvent], rfl, fun hnil => absurd hnil (List.cons_ne_nil _ _), ?_⟩
    intro event hevent
    obtain rfl := List.mem_singleton.mp hevent
    exact ⟨_, rfl, hstored⟩

end Small

end RailgunIndexer
