import RailgunIndexer.Proof.Ingest
import RailgunIndexer.ActionLogs
import Mathlib.Data.List.Nodup

/-!
# From logs to the events of a transaction

Ingestion spreads the logs of an outer transaction over the row families of a batch, and
`actionLogEventsByTransaction` gathers them again by log index. The event found at an index is the
event of the log with that index: each log enters its rows as consecutive writes at its own index,
and no other log writes there.
-/

namespace RailgunIndexer

open Lib Lib.Fallible

def Log.actionEntry? (transactionHash : Bytes32) (log : Log) : Option (Nat × ActionLogEvent) :=
  if log.transactionHash = some transactionHash then
    log.logIndex.bind fun logIndex => log.event.actionLogEvent?.map fun event => (logIndex, event)
  else
    none

abbrev EventWrite := Option ActionLogEvent → ActionLogEvent

def applyWrites (start : Option ActionLogEvent) (writes : List EventWrite) :
    Option ActionLogEvent :=
  writes.foldl (fun current write => some (write current)) start

def eventAt (events : OrdMap Bytes32 ActionLogEvents) (transactionHash : Bytes32) (logIndex : Nat) :
    Option ActionLogEvent :=
  ((events.get? transactionHash).getD OrdMap.empty).get? logIndex

def eventWrites : ActionLogEvent → List EventWrite
  | .nullified treeNumber nullifiers => nullifiers.map (pushNullifier treeNumber)
  | .transact hashes => hashes.map pushTransactHash
  | .action configs => [fun _ => .action configs]
  | .unshield unshield => [fun _ => .unshield unshield]

/-- The event leaves a trace in the batch: a `Nullified` without nullifiers or a `Transact` without
hashes has no rows. -/
def ActionLogEvent.HasRows : ActionLogEvent → Prop
  | .nullified _ nullifiers => nullifiers ≠ []
  | .transact hashes => hashes ≠ []
  | .action _ | .unshield _ => True

/-! ### Writes at one index -/

section Writes

theorem foldl_pushNullifier (treeNumber : Nat) (found rest : List Bytes32) :
    applyWrites (some (.nullified treeNumber found)) (rest.map (pushNullifier treeNumber))
      = some (.nullified treeNumber (found ++ rest)) := by
  induction rest generalizing found with
  | nil => simp [applyWrites]
  | cons nullifier rest ih =>
      have hstep := ih (found ++ [nullifier])
      simpa [applyWrites, pushNullifier] using hstep

theorem foldl_pushTransactHash (found rest : List Bytes32) :
    applyWrites (some (.transact found)) (rest.map pushTransactHash)
      = some (.transact (found ++ rest)) := by
  induction rest generalizing found with
  | nil => simp [applyWrites]
  | cons hash rest ih =>
      have hstep := ih (found ++ [hash])
      simpa [applyWrites, pushTransactHash] using hstep

theorem applyWrites_eventWrites {event : ActionLogEvent} (hrows : event.HasRows) :
    applyWrites none (eventWrites event) = some event := by
  cases event with
  | nullified treeNumber nullifiers =>
      cases nullifiers with
      | nil => exact absurd rfl hrows
      | cons nullifier rest => exact foldl_pushNullifier treeNumber [nullifier] rest
  | transact hashes =>
      cases hashes with
      | nil => exact absurd rfl hrows
      | cons hash rest => exact foldl_pushTransactHash [hash] rest
  | action configs | unshield unshield => rfl

variable (actionStartBlock : Nat) (transactionHash : Bytes32) (logIndex : Nat) {ω : Type}

def isWrittenAt (source : IndexedLogSource) : Bool :=
  isActive actionStartBlock source && source.transactionHash == transactionHash
    && source.logIndex == logIndex

def familyWrites {ω : Type} (source : ω → IndexedLogSource) (write : ω → EventWrite)
    (items : List ω) : List EventWrite :=
  (items.filter fun item =>
    isWrittenAt actionStartBlock transactionHash logIndex (source item)).map write

theorem familyWrites_append (source : ω → IndexedLogSource) (write : ω → EventWrite)
    (left right : List ω) :
    familyWrites actionStartBlock transactionHash logIndex source write (left ++ right)
      = familyWrites actionStartBlock transactionHash logIndex source write left
        ++ familyWrites actionStartBlock transactionHash logIndex source write right := by
  simp [familyWrites]

theorem familyWrites_of_source {source : ω → IndexedLogSource} (write : ω → EventWrite)
    {items : List ω} {origin : IndexedLogSource} (horigin : ∀ item ∈ items, source item = origin) :
    familyWrites actionStartBlock transactionHash logIndex source write items
      = if isWrittenAt actionStartBlock transactionHash logIndex origin then items.map write
        else [] := by
  rw [familyWrites]
  split_ifs with hat
  · rw [List.filter_eq_self.mpr fun item hitem => by rw [horigin item hitem]; exact hat]
  · rw [List.filter_eq_nil_iff.mpr fun item hitem => by rw [horigin item hitem]; exact hat,
      List.map_nil]

theorem eventAt_updateEvent (events : OrdMap Bytes32 ActionLogEvents) (source : IndexedLogSource)
    (write : EventWrite) :
    eventAt (updateEvent events source write) transactionHash logIndex
      = if source.transactionHash = transactionHash ∧ source.logIndex = logIndex then
          some (write (eventAt events transactionHash logIndex))
        else eventAt events transactionHash logIndex := by
  rw [eventAt, updateEvent, OrdMap.get?_upsert]
  by_cases hhash : source.transactionHash = transactionHash
  · subst hhash
    rw [if_pos rfl, Option.getD_some, OrdMap.get?_upsert]
    by_cases hindex : source.logIndex = logIndex <;> simp [hindex, eventAt]
  · simp [hhash, eventAt]

theorem eventAt_foldl_updateEvent (source : ω → IndexedLogSource) (write : ω → EventWrite)
    (items : List ω) (events : OrdMap Bytes32 ActionLogEvents) :
    eventAt (items.foldl (fun events item => updateEvent events (source item) (write item)) events)
        transactionHash logIndex
      = applyWrites (eventAt events transactionHash logIndex)
        ((items.filter fun item => (source item).transactionHash == transactionHash
          && (source item).logIndex == logIndex).map write) := by
  induction items generalizing events with
  | nil => rfl
  | cons item rest ih =>
      rw [List.foldl_cons, ih, eventAt_updateEvent]
      by_cases hat : (source item).transactionHash = transactionHash
          ∧ (source item).logIndex = logIndex
      · rw [if_pos hat, List.filter_cons_of_pos (by simpa using hat)]
        rfl
      · rw [if_neg hat, List.filter_cons_of_neg (by simpa using hat)]

theorem eventAt_updateEvents (source : ω → IndexedLogSource) (write : ω → EventWrite)
    (items : List ω) (events : OrdMap Bytes32 ActionLogEvents) :
    eventAt (updateEvents actionStartBlock source write items events) transactionHash logIndex
      = applyWrites (eventAt events transactionHash logIndex)
        (familyWrites actionStartBlock transactionHash logIndex source write items) := by
  rw [updateEvents, eventAt_foldl_updateEvent, List.filter_filter, familyWrites]
  congr 3
  funext item
  rw [Bool.and_comm, ← Bool.and_assoc]
  rfl

def writesAt (batch : IndexedLogBatch) : List EventWrite :=
  familyWrites actionStartBlock transactionHash logIndex (fun item : IndexedNullifier => item.source)
      (fun item => pushNullifier item.treeNumber item.nullifier) batch.nullifiers
    ++ familyWrites actionStartBlock transactionHash logIndex
      (fun item : IndexedTransactCommitment => item.source)
      (fun item => pushTransactHash item.hash) batch.transactCommitments
    ++ familyWrites actionStartBlock transactionHash logIndex
      (fun item : IndexedAction => item.source) (fun item _ => .action item.txconfigs) batch.actions
    ++ familyWrites actionStartBlock transactionHash logIndex
      (fun item : IndexedUnshield => item.source) (fun item _ => .unshield item.unshield)
      batch.unshields

theorem eventAt_actionLogEventsByTransaction (batch : IndexedLogBatch) :
    eventAt (actionLogEventsByTransaction batch actionStartBlock) transactionHash logIndex
      = applyWrites none (writesAt actionStartBlock transactionHash logIndex batch) := by
  simp only [actionLogEventsByTransaction, eventAt_updateEvents, writesAt, applyWrites,
    List.foldl_append]
  rfl

end Writes

/-! ### Rows of one log -/

section Ingest

variable {log : Log} {source : IndexedLogSource} {event : ActionLogEvent} {α : Type}
variable {actionStartBlock : Nat} {transactionHash : Bytes32} {logIndex : Nat}
  {batch after : IndexedLogBatch}

def logWritesAt (transactionHash : Bytes32) (logIndex : Nat) (log : Log) : List EventWrite :=
  match log.actionEntry? transactionHash with
  | some entry => if entry.1 = logIndex then eventWrites entry.2 else []
  | none => []

theorem logWritesAt_of_source (hsource : sourceFromLog log = .ok source)
    (hevent : log.event.actionLogEvent? = some event)
    (hactive : log.transactionHash = some transactionHash → ∀ blockNumber, log.blockNumber = some
      blockNumber → actionStartBlock ≤ blockNumber) :
    logWritesAt transactionHash logIndex log
      = if isWrittenAt actionStartBlock transactionHash logIndex source then eventWrites event
        else [] := by
  obtain ⟨hnumber, hhash, hindex⟩ := sourceFromLog_eq_ok hsource
  by_cases hat : source.transactionHash = transactionHash
  · have hblock := hactive (by rw [hhash, hat]) source.blockNumber hnumber
    simp [logWritesAt, Log.actionEntry?, hhash, hindex, hevent, hat, isWrittenAt, isActive, hblock]
  · simp [logWritesAt, Log.actionEntry?, hhash, hat, isWrittenAt]

def Inserts {α : Type} (before after block : List α) : Prop :=
  ∃ left right, before = left ++ right ∧ after = left ++ block ++ right

theorem inserts_append (items block : List α) : Inserts items (items ++ block) block :=
  ⟨items, [], by simp, by simp⟩

section

variable {before after block : List α} (hinserts : Inserts before after block) (others : List α)

include hinserts

theorem Inserts.append_left : Inserts (others ++ before) (others ++ after) block := by
  obtain ⟨left, right, rfl, rfl⟩ := hinserts
  exact ⟨others ++ left, right, by simp, by simp⟩

theorem Inserts.append_right : Inserts (before ++ others) (after ++ others) block := by
  obtain ⟨left, right, rfl, rfl⟩ := hinserts
  exact ⟨left, right ++ others, by simp, by simp⟩

end

theorem inserts_nil (items : List α) : Inserts items items [] :=
  ⟨items, [], by simp, by simp⟩

theorem logWritesAt_of_unread (hevent : log.event.actionLogEvent? = none) :
    logWritesAt transactionHash logIndex log = [] := by
  cases log.logIndex <;> simp [logWritesAt, Log.actionEntry?, hevent]

theorem familyWrites_nullifierRows (treeNumber : Nat) (nullifiers : List Bytes32) :
    familyWrites actionStartBlock transactionHash logIndex
        (fun item : IndexedNullifier => item.source)
        (fun item => pushNullifier item.treeNumber item.nullifier)
        (nullifierRows treeNumber source nullifiers)
      = if isWrittenAt actionStartBlock transactionHash logIndex source then
          eventWrites (.nullified treeNumber nullifiers)
        else [] := by
  have horigin : ∀ row ∈ nullifierRows treeNumber source nullifiers, row.source = source := by
    simp [nullifierRows]
  rw [familyWrites_of_source _ _ _ _ horigin]
  simp [nullifierRows, eventWrites, Function.comp_def]

theorem Ingested.writesAt (hingested : Ingested batch log after)
    (hactive : log.transactionHash = some transactionHash → ∀ blockNumber,
      log.blockNumber = some blockNumber → actionStartBlock ≤ blockNumber) :
    Inserts (writesAt actionStartBlock transactionHash logIndex batch)
      (writesAt actionStartBlock transactionHash logIndex after)
      (logWritesAt transactionHash logIndex log) := by
  cases hingested with
  | @transact source rows hevent hsource hrows =>
      have hwrites : rows.map (fun row => pushTransactHash row.hash)
          = eventWrites (.transact (rows.map fun row => row.hash)) := by
        rw [eventWrites, List.map_map]
        rfl
      rw [logWritesAt_of_source hsource hevent hactive]
      simp only [RailgunIndexer.writesAt, familyWrites_append,
        familyWrites_of_source _ _ _ _ hrows, hwrites]
      exact (((inserts_append _ _).append_left _).append_right _).append_right _
  | nullified hevent hsource =>
      rw [logWritesAt_of_source hsource hevent hactive]
      simp only [RailgunIndexer.writesAt, familyWrites_append, familyWrites_nullifierRows]
      exact (((inserts_append _ _).append_right _).append_right _).append_right _
  | @action source txconfigs hevent hsource =>
      have horigin : ∀ row ∈ [(⟨txconfigs, source⟩ : IndexedAction)], row.source = source := by simp
      rw [logWritesAt_of_source hsource hevent hactive]
      simp only [RailgunIndexer.writesAt, familyWrites_append,
        familyWrites_of_source _ _ _ _ horigin]
      exact ((inserts_append _ _).append_left _).append_right _
  | @unshield source unshield hevent hsource =>
      have horigin : ∀ row ∈ [(⟨unshield, source⟩ : IndexedUnshield)], row.source = source := by simp
      rw [logWritesAt_of_source hsource hevent hactive]
      simp only [RailgunIndexer.writesAt, familyWrites_append,
        familyWrites_of_source _ _ _ _ horigin]
      exact (inserts_append _ _).append_left _
  | shield hevent | legacyEncrypted hevent | legacyGenerated hevent | other hevent =>
      rw [logWritesAt_of_unread hevent]
      exact inserts_nil _

/-! ### All logs of a batch -/

variable {logs : List Log}

theorem logWritesAt_eq_nil
    (hentry : ∀ event, log.actionEntry? transactionHash ≠ some (logIndex, event)) :
    logWritesAt transactionHash logIndex log = [] := by
  unfold logWritesAt
  split
  · next entry hfound =>
      refine if_neg fun hindex => hentry entry.2 ?_
      rw [hfound, ← hindex]
  · rfl

theorem writesAt_foldlM_ingestLog
    (hactive : ∀ log ∈ logs, log.transactionHash = some transactionHash → ∀ blockNumber,
      log.blockNumber = some blockNumber → actionStartBlock ≤ blockNumber)
    (hentries : ∀ event, (logIndex, event) ∉ logs.filterMap (Log.actionEntry? transactionHash))
    (hingest : logs.foldlM ingestLog batch = .ok after) :
    writesAt actionStartBlock transactionHash logIndex after
      = writesAt actionStartBlock transactionHash logIndex batch := by
  induction logs generalizing batch with
  | nil => rw [← Except.ok.inj hingest]
  | cons log rest ih =>
      obtain ⟨middle, hfirst, hrest⟩ := bind_eq_ok.mp hingest
      obtain ⟨hlog, hlogs⟩ := List.forall_mem_cons.mp hactive
      have hentry : ∀ event, log.actionEntry? transactionHash ≠ some (logIndex, event) :=
        fun event hfound => hentries event (List.mem_filterMap.mpr ⟨log, by simp, hfound⟩)
      have htail : ∀ event, (logIndex, event) ∉ rest.filterMap (Log.actionEntry? transactionHash) := by
        intro event hmem
        obtain ⟨other, hother, hfound⟩ := List.mem_filterMap.mp hmem
        exact hentries event (List.mem_filterMap.mpr ⟨other, by simp [hother], hfound⟩)
      obtain ⟨left, right, hbefore, hafter⟩ := (ingested_of_ok hfirst).writesAt hlog
      rw [logWritesAt_eq_nil hentry, List.append_nil, ← hbefore] at hafter
      rw [ih hlogs htail hrest, hafter]

theorem writesAt_empty :
    writesAt actionStartBlock transactionHash logIndex {} = [] := rfl

section

variable (hactive : ∀ log ∈ logs, log.transactionHash = some transactionHash → ∀ blockNumber,
  log.blockNumber = some blockNumber → actionStartBlock ≤ blockNumber)

include hactive

theorem eventAt_eq_none
    (hentries : ∀ event, (logIndex, event) ∉ logs.filterMap (Log.actionEntry? transactionHash))
    (hingest : ingestChainLogs logs = .ok batch) :
    eventAt (actionLogEventsByTransaction batch actionStartBlock) transactionHash logIndex
      = none := by
  rw [eventAt_actionLogEventsByTransaction, writesAt_foldlM_ingestLog hactive hentries hingest]
  rfl

theorem eventAt_eq_some
    (hdistinct : ((logs.filterMap (Log.actionEntry? transactionHash)).map Prod.fst).Nodup)
    (hmem : (logIndex, event) ∈ logs.filterMap (Log.actionEntry? transactionHash))
    (hrows : event.HasRows) (hingest : ingestChainLogs logs = .ok batch) :
    eventAt (actionLogEventsByTransaction batch actionStartBlock) transactionHash logIndex
      = some event := by
  obtain ⟨log, hlog, hentry⟩ := List.mem_filterMap.mp hmem
  obtain ⟨before, behind, rfl⟩ := List.append_of_mem hlog
  rw [List.filterMap_append, List.filterMap_cons_some hentry, List.map_append, List.map_cons,
    List.nodup_middle, List.nodup_cons] at hdistinct
  obtain ⟨hfresh, -⟩ := hdistinct
  rw [List.mem_append, not_or] at hfresh
  rw [ingestChainLogs, List.foldlM_append, bind_eq_ok] at hingest
  obtain ⟨first, hfirst, hingest⟩ := hingest
  obtain ⟨second, hsecond, hthird⟩ := bind_eq_ok.mp hingest
  have hbefore := writesAt_foldlM_ingestLog
    (fun other hother => hactive other (by simp [hother]))
    (fun other hother => hfresh.1 (List.mem_map.mpr ⟨_, hother, rfl⟩)) hfirst
  have hbehind := writesAt_foldlM_ingestLog
    (fun other hother => hactive other (by simp [hother]))
    (fun other hother => hfresh.2 (List.mem_map.mpr ⟨_, hother, rfl⟩)) hthird
  obtain ⟨left, right, hsplit, hinsert⟩ := (ingested_of_ok hsecond).writesAt (hactive log (by simp))
  rw [hbefore, writesAt_empty] at hsplit
  obtain ⟨rfl, rfl⟩ := List.append_eq_nil_iff.mp hsplit.symm
  have hwrites : logWritesAt transactionHash logIndex log = eventWrites event := by
    simp [logWritesAt, hentry]
  rw [eventAt_actionLogEventsByTransaction, hbehind, hinsert, hwrites, List.nil_append,
    List.append_nil, applyWrites_eventWrites hrows]

end

end Ingest

end RailgunIndexer
