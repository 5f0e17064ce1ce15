import RailgunIndexer.Proof.ActionFrame
import Mathlib.Data.List.Perm.Basic

/-!
# The Action-log parser loses and duplicates nothing

Every event carries facts: a nullifier list with its tree, an unshield commitment, a configuration,
the outputs of a `Transact`. At every moment each fact read so far is in exactly one place: waiting
among the pending `Nullified` logs, in an open call, or in a decoded transaction. A run that succeeds
ends with nothing waiting and no call open, so all facts are in the decoded transactions.
-/

namespace RailgunIndexer

open Lib Lib.Fallible

/-- A piece of information a log contributes to the decoded transactions. -/
inductive LogFact where
  | nullified (treeNumber : Nat) (nullifiers : List Bytes32)
  | unshield (derived : Except ChainLogIngestionError (Option Bytes32 × Option Bytes))
  | config (boundParamsHash : Bytes32) (hasUnshield : Bool)
  | outputs (logIndex : Nat) (hashes : List Bytes32)

def unshieldEntry (contracts : Contracts) (unshield : Unshield) :
    Except ChainLogIngestionError (Option Bytes32 × Option Bytes) :=
  (unshieldCommitmentFromEvent contracts unshield).map fun derived =>
    (some derived.1, some (contracts.encodePreimage derived.2))

def nullifiedFact (nullified : Nat × List Bytes32) : LogFact :=
  .nullified nullified.1 nullified.2

def unshieldFact (contracts : Contracts) (unshield : Unshield) : LogFact :=
  .unshield (unshieldEntry contracts unshield)

def configFact (config : TXConfig) : LogFact :=
  .config config.boundParamsHash config.hasUnshield

def eventFacts (contracts : Contracts) : Nat × ActionLogEvent → List LogFact
  | (_, .nullified treeNumber nullifiers) => [.nullified treeNumber nullifiers]
  | (_, .action configs) => configs.map configFact
  | (_, .unshield unshield) => [unshieldFact contracts unshield]
  | (logIndex, .transact hashes) => [.outputs logIndex hashes]

def rowFacts (transaction : DecodedRailgunTransaction) : List LogFact :=
  .nullified transaction.utxoTreeIn transaction.nullifiers
    :: .config transaction.boundParamsHash transaction.hasUnshield
    :: if transaction.hasUnshield then
        [.unshield (.ok (transaction.commitments.getLast?, transaction.unshieldPreimage))]
      else []

def groupOutputs (group : ActionCallTransactions) : List Bytes32 :=
  group.2.flatMap fun row => row.2.outputs

def tagFacts (tag : Option Nat) (hashes : List Bytes32) : List LogFact :=
  match tag with
  | some logIndex => [.outputs logIndex hashes]
  | none => []

def groupFacts (group : ActionCallTransactions) : List LogFact :=
  (group.2.flatMap fun row => rowFacts row.2) ++ tagFacts group.1 (groupOutputs group)

def frameFacts (contracts : Contracts) (frame : ActionFrame) : List LogFact :=
  frame.nullified.map nullifiedFact ++ frame.configs.map configFact
    ++ frame.unshields.map (unshieldFact contracts)

def stateFacts (contracts : Contracts) (state : ActionLogState) : List LogFact :=
  state.decoded.flatMap groupFacts ++ state.frames.flatMap (frameFacts contracts)
    ++ state.pendingNullified.map fun pending => nullifiedFact pending.2

/-! ### Closing a call -/

section Frame

variable {contracts : Contracts} {source : IndexedLogSource} {frameLogIndex logIndex : Nat}
  {hashes : List Bytes32}

theorem rowFacts_transactionFromConfig {config : TXConfig} {unshields unused : List Unshield}
    {derived : Option (Bytes32 × CommitmentPreimage)} (treeNumber : Nat)
    (nullifiers outputs : List Bytes32)
    (htake : takeUnshield contracts source frameLogIndex config.hasUnshield unshields
      = .ok (derived, unused)) :
    rowFacts (transactionFromConfig contracts config treeNumber nullifiers outputs derived)
        ++ unused.map (unshieldFact contracts)
      = nullifiedFact (treeNumber, nullifiers) :: configFact config
        :: unshields.map (unshieldFact contracts) := by
  rcases takeUnshield_eq_ok_iff.mp htake with
    ⟨hflag, rfl, rfl⟩ | ⟨hflag, unshield, value, rfl, hvalue, rfl⟩
  · simp [rowFacts, transactionFromConfig, nullifiedFact, configFact, hflag]
  · simp [rowFacts, transactionFromConfig, nullifiedFact, configFact, hflag, unshieldFact,
      unshieldEntry, hvalue, Except.map]

theorem rowFacts_transactionsFromConfigs {recordIndex offset used : Nat}
    {unshields : List Unshield} {items : List (TXConfig × Nat × List Bytes32)}
    {transactions : List (Nat × DecodedRailgunTransaction)}
    (hrun : transactionsFromConfigs contracts source frameLogIndex logIndex hashes recordIndex
      offset unshields items = .ok (transactions, used)) :
    ∃ unused : List Unshield,
      unused.length + items.countP (fun item => item.1.hasUnshield) = unshields.length
      ∧ ((transactions.flatMap fun row => rowFacts row.2)
        ++ unused.map (unshieldFact contracts)).Perm
        (items.map (fun item => nullifiedFact item.2) ++ items.map (fun item => configFact item.1)
          ++ unshields.map (unshieldFact contracts)) := by
  classical
  induction items generalizing recordIndex offset unshields transactions with
  | nil =>
      cases hrun
      exact ⟨unshields, by simp, by simp⟩
  | cons item rest ih =>
      obtain ⟨config, treeNumber, nullifiers⟩ := item
      obtain ⟨outputs, derived, unusedHead, tail, -, hderived, htail, rfl⟩ :=
        transactionsFromConfigs_cons_eq_ok_iff.mp hrun
      obtain ⟨unused, hlength, hperm⟩ := ih htail
      have hrow := rowFacts_transactionFromConfig treeNumber nullifiers outputs hderived
      refine ⟨unused, ?_, ?_⟩
      · rcases takeUnshield_eq_ok_iff.mp hderived with
          ⟨hflag, rfl, rfl⟩ | ⟨hflag, unshield, value, rfl, -, rfl⟩
        · simpa [hflag] using hlength
        · simp only [List.countP_cons, hflag, if_true, List.length_cons]
          omega
      · rw [List.perm_iff_count]
        intro fact
        have hhead := congrArg (List.count fact) hrow
        have htail := hperm.count_eq fact
        simp only [List.flatMap_cons, List.map_cons, List.count_append, List.count_cons]
          at hhead htail ⊢
        omega

/-- A call that can still be closed: one `Nullified` log per configuration, and no more `Unshield`
logs than it declares. -/
structure ActionFrame.WellFormed (frame : ActionFrame) : Prop where
  nullified_length : frame.nullified.length = frame.configs.length
  unshields_length :
    frame.unshields.length ≤ frame.configs.countP fun config => config.hasUnshield

variable {frame : ActionFrame} {transactions : List (Nat × DecodedRailgunTransaction)}

section

variable (hclose : transactionsFromActionFrame contracts source frame hashes logIndex = .ok transactions)

include hclose

theorem groupOutputs_of_frame (tag : Option Nat) :
    groupOutputs (tag, transactions) = hashes := by
  obtain ⟨-, hrun⟩ := transactionsFromActionFrame_eq_ok_iff.mp hclose
  obtain ⟨-, hdrop⟩ := outputs_transactionsFromConfigs (Nat.zero_le _) hrun
  simpa [groupOutputs] using hdrop.symm

theorem recordIndexes_of_frame (hframe : frame.WellFormed) :
    transactions.map Prod.fst = List.range' frame.recordBase frame.configs.length := by
  obtain ⟨-, hrun⟩ := transactionsFromActionFrame_eq_ok_iff.mp hclose
  rw [recordIndexes_transactionsFromConfigs hrun, List.length_zip, hframe.nullified_length,
    Nat.min_self]

theorem groupFacts_of_frame (hframe : frame.WellFormed) (tag : Option Nat) :
    (groupFacts (tag, transactions)).Perm (frameFacts contracts frame ++ tagFacts tag hashes) := by
  obtain ⟨-, hrun⟩ := transactionsFromActionFrame_eq_ok_iff.mp hclose
  obtain ⟨unused, hlength, hperm⟩ := rowFacts_transactionsFromConfigs hrun
  have hconfigs : (frame.configs.zip frame.nullified).map Prod.fst = frame.configs :=
    List.map_fst_zip hframe.nullified_length.ge
  have hnullified : (frame.configs.zip frame.nullified).map Prod.snd = frame.nullified :=
    List.map_snd_zip hframe.nullified_length.le
  have hunused : unused = [] := by
    have hcount := congrArg (List.countP fun config => config.hasUnshield) hconfigs
    rw [List.countP_map] at hcount
    have hle := hcount ▸ hframe.unshields_length
    exact List.eq_nil_of_length_eq_zero (by simp only [Function.comp_def] at hle; omega)
  have hconfigFacts := congrArg (List.map configFact) hconfigs
  have hnullifiedFacts := congrArg (List.map nullifiedFact) hnullified
  rw [groupFacts, groupOutputs_of_frame hclose tag, frameFacts, ← hconfigFacts, ← hnullifiedFacts]
  refine List.Perm.append_right _ ?_
  simpa [hunused, Function.comp_def] using hperm

end

end Frame

/-! ### The invariant of the parser -/

def openRecords (frame : ActionFrame) : List Nat :=
  List.range' frame.recordBase frame.configs.length

def groupRecords (group : ActionCallTransactions) : List Nat := group.2.map Prod.fst

/-- Open calls are well formed, the record indexes handed out are those of the decoded and the open
calls, and a call that closed without a `Transact` claims no output. -/
structure ActionLogState.Inv (state : ActionLogState) : Prop where
  frames : ∀ frame ∈ state.frames, frame.WellFormed
  records : (state.decoded.flatMap groupRecords ++ state.frames.flatMap openRecords).Perm
    (List.range state.nextRecordIndex)
  untagged : ∀ group ∈ state.decoded, group.1 = none → groupOutputs group = []

section Step

variable {contracts : Contracts} {source : IndexedLogSource} {logIndex : Nat}
  {state after : ActionLogState}

section Pop

variable {frame : ActionFrame} {rest : List ActionFrame} {hashes : List Bytes32}
  {transactions : List (Nat × DecodedRailgunTransaction)} (tag : Option Nat) (hinv : state.Inv)
  (hframes : state.frames = frame :: rest)
  (hclose : transactionsFromActionFrame contracts source frame hashes logIndex = .ok transactions)

include hinv hframes hclose

theorem inv_of_pop (htag : tag = none → hashes = []) :
    ActionLogState.Inv { state with
      frames := rest, decoded := state.decoded ++ [(tag, transactions)] } := by
  obtain ⟨hwell, hrecords, huntagged⟩ := hinv
  rw [hframes] at hwell hrecords
  obtain ⟨hframe, hrest⟩ := List.forall_mem_cons.mp hwell
  refine ⟨hrest, ?_, ?_⟩
  · have hgroup : groupRecords (tag, transactions) = openRecords frame :=
      recordIndexes_of_frame hclose hframe
    simpa [hgroup] using hrecords
  · intro group hmem hnone
    rcases List.mem_append.mp hmem with hold | hnew
    · exact huntagged group hold hnone
    · rw [List.mem_singleton.mp hnew] at hnone ⊢
      rw [groupOutputs_of_frame hclose tag, htag hnone]

theorem stateFacts_of_pop :
    (stateFacts contracts { state with
      frames := rest, decoded := state.decoded ++ [(tag, transactions)] }).Perm
      (stateFacts contracts state ++ tagFacts tag hashes) := by
  classical
  have hframe : frame.WellFormed := hinv.frames frame (by simp [hframes])
  rw [List.perm_iff_count]
  intro fact
  have hgroup := (groupFacts_of_frame hclose hframe tag).count_eq fact
  simp only [stateFacts, hframes, List.flatMap_append, List.flatMap_cons, List.flatMap_nil,
    List.count_append, List.append_nil] at hgroup ⊢
  omega

end Pop

/-! ### One event -/

theorem closeCompleted_eq_ok (hclose : closeCompleted contracts source state = .ok after) :
    after = state ∨ ∃ frame rest transactions, state.frames = frame :: rest
      ∧ transactionsFromActionFrame contracts source frame [] frame.logIndex = .ok transactions
      ∧ after = { state with
        frames := rest, decoded := state.decoded ++ [(none, transactions)] } := by
  unfold closeCompleted at hclose
  cases hframes : state.frames with
  | nil =>
      simp only [hframes, Except.ok.injEq] at hclose
      exact .inl hclose.symm
  | cons frame rest =>
      simp only [hframes] at hclose
      split_ifs at hclose with hcomplete
      · obtain ⟨transactions, htransactions, hafter⟩ := bind_eq_ok.mp hclose
        exact .inr ⟨frame, rest, transactions, rfl, htransactions, (Except.ok.inj hafter).symm⟩
      · exact .inl (Except.ok.inj hclose).symm

theorem acceptEvent_action_eq_ok {configs : List TXConfig}
    (haccept : acceptEvent contracts source state logIndex (.action configs) = .ok after) :
    state.pendingNullified.length = configs.length
      ∧ ((configs = [] ∧ after = state) ∨ after = { state with
        pendingNullified := []
        frames := openFrame state logIndex configs :: state.frames
        nextRecordIndex := state.nextRecordIndex + configs.length }) := by
  rw [acceptEvent] at haccept
  split_ifs at haccept with hcounts hempty
  · refine ⟨?_, .inl ⟨List.isEmpty_iff.mp hempty, (Except.ok.inj haccept).symm⟩⟩
    simp only [countsMatch, Bool.and_eq_true, beq_iff_eq] at hcounts
    exact hcounts.1
  · refine ⟨?_, .inr (Except.ok.inj haccept).symm⟩
    simp only [countsMatch, Bool.and_eq_true, beq_iff_eq] at hcounts
    exact hcounts.1

theorem acceptEvent_unshield_eq_ok {unshield : Unshield}
    (haccept : acceptEvent contracts source state logIndex (.unshield unshield) = .ok after) :
    ∃ frame rest, state.frames = frame :: rest ∧ 0 < frame.pendingUnshields
      ∧ after = { state with
        frames := { frame with unshields := frame.unshields ++ [unshield] } :: rest } := by
  unfold acceptEvent at haccept
  cases hframes : state.frames with
  | nil => simp [hframes] at haccept
  | cons frame rest =>
      simp only [hframes] at haccept
      split_ifs at haccept with hpending
      exact ⟨frame, rest, rfl, hpending, (Except.ok.inj haccept).symm⟩

theorem acceptEvent_transact_eq_ok {hashes : List Bytes32}
    (haccept : acceptEvent contracts source state logIndex (.transact hashes) = .ok after) :
    ∃ frame rest transactions, state.frames = frame :: rest
      ∧ transactionsFromActionFrame contracts source frame hashes logIndex = .ok transactions
      ∧ after = { state with
        frames := rest, decoded := state.decoded ++ [(some logIndex, transactions)] } := by
  unfold acceptEvent at haccept
  cases hframes : state.frames with
  | nil => simp [hframes] at haccept
  | cons frame rest =>
      simp only [hframes] at haccept
      split_ifs at haccept with hexpects
      obtain ⟨transactions, htransactions, hafter⟩ := bind_eq_ok.mp haccept
      exact ⟨frame, rest, transactions, rfl, htransactions, (Except.ok.inj hafter).symm⟩

theorem inv_acceptEvent {event : ActionLogEvent} (hinv : state.Inv)
    (haccept : acceptEvent contracts source state logIndex event = .ok after) : after.Inv := by
  cases event with
  | nullified treeNumber nullifiers =>
      cases haccept
      exact ⟨hinv.frames, hinv.records, hinv.untagged⟩
  | action configs =>
      obtain ⟨hlength, ⟨-, rfl⟩ | rfl⟩ := acceptEvent_action_eq_ok haccept
      · exact hinv
      · refine ⟨?_, ?_, hinv.untagged⟩
        · refine List.forall_mem_cons.mpr ⟨⟨?_, ?_⟩, hinv.frames⟩
          · simpa [openFrame] using hlength
          · simp [openFrame]
        · have hnew : openRecords (openFrame state logIndex configs)
              = List.range' state.nextRecordIndex configs.length := rfl
          have hrange : List.range (state.nextRecordIndex + configs.length)
              = List.range state.nextRecordIndex
                ++ List.range' state.nextRecordIndex configs.length := by
            have hsplit := List.range'_append_1 (s := 0) (m := state.nextRecordIndex)
              (n := configs.length)
            rw [Nat.zero_add] at hsplit
            rw [List.range_eq_range', List.range_eq_range', hsplit]
          simp only [List.flatMap_cons, hnew, hrange]
          refine List.Perm.trans ?_ (hinv.records.append_right _)
          rw [List.append_assoc]
          exact List.perm_append_comm.append_left _
  | unshield unshield =>
      obtain ⟨frame, rest, hframes, hpending, rfl⟩ := acceptEvent_unshield_eq_ok haccept
      obtain ⟨hwell, hrecords, huntagged⟩ := hinv
      rw [hframes] at hwell hrecords
      obtain ⟨hframe, hrest⟩ := List.forall_mem_cons.mp hwell
      refine ⟨List.forall_mem_cons.mpr ⟨⟨hframe.nullified_length, ?_⟩, hrest⟩, hrecords, huntagged⟩
      rw [ActionFrame.pendingUnshields] at hpending
      simp only [List.length_append, List.length_singleton]
      omega
  | transact hashes =>
      obtain ⟨frame, rest, transactions, hframes, hclose, rfl⟩ := acceptEvent_transact_eq_ok haccept
      exact inv_of_pop (some logIndex) hinv hframes hclose (by simp)

theorem stateFacts_acceptEvent {event : ActionLogEvent} (hinv : state.Inv)
    (haccept : acceptEvent contracts source state logIndex event = .ok after) :
    (stateFacts contracts after).Perm
      (stateFacts contracts state ++ eventFacts contracts (logIndex, event)) := by
  classical
  cases event with
  | nullified treeNumber nullifiers =>
      cases haccept
      simp [stateFacts, eventFacts, nullifiedFact]
  | action configs =>
      obtain ⟨hlength, ⟨rfl, rfl⟩ | rfl⟩ := acceptEvent_action_eq_ok haccept
      · simp [eventFacts]
      · rw [List.perm_iff_count]
        intro fact
        simp only [stateFacts, eventFacts, frameFacts, openFrame, List.flatMap_cons, List.map_nil,
          List.map_map, Function.comp_def, List.count_append, List.append_nil]
        omega
  | unshield unshield =>
      obtain ⟨frame, rest, hframes, -, rfl⟩ := acceptEvent_unshield_eq_ok haccept
      rw [List.perm_iff_count]
      intro fact
      simp only [stateFacts, eventFacts, hframes, frameFacts, List.flatMap_cons, List.map_append,
        List.map_cons, List.map_nil, List.count_append]
      omega
  | transact hashes =>
      obtain ⟨frame, rest, transactions, hframes, hclose, rfl⟩ := acceptEvent_transact_eq_ok haccept
      exact stateFacts_of_pop (some logIndex) hinv hframes hclose

theorem inv_actionLogStep {entry : Nat × ActionLogEvent} (hinv : state.Inv)
    (hstep : actionLogStep contracts source state entry = .ok after) : after.Inv := by
  obtain ⟨accepted, haccept, hclose⟩ := bind_eq_ok.mp hstep
  have haccepted := inv_acceptEvent hinv haccept
  rcases closeCompleted_eq_ok hclose with rfl | ⟨frame, rest, transactions, hframes, htxs, rfl⟩
  · exact haccepted
  · exact inv_of_pop none haccepted hframes htxs fun _ => rfl

theorem stateFacts_actionLogStep {entry : Nat × ActionLogEvent} (hinv : state.Inv)
    (hstep : actionLogStep contracts source state entry = .ok after) :
    (stateFacts contracts after).Perm
      (stateFacts contracts state ++ eventFacts contracts entry) := by
  obtain ⟨accepted, haccept, hclose⟩ := bind_eq_ok.mp hstep
  have haccepted := stateFacts_acceptEvent hinv haccept
  rcases closeCompleted_eq_ok hclose with rfl | ⟨frame, rest, transactions, hframes, htxs, rfl⟩
  · exact haccepted
  · have hpop := stateFacts_of_pop none (inv_acceptEvent hinv haccept) hframes htxs
    rw [tagFacts, List.append_nil] at hpop
    exact hpop.trans haccepted

end Step

/-! ### Whole runs -/

section Run

variable {contracts : Contracts} {summary : TransactOutputSummary} {events : ActionLogEvents}
  {groups : List ActionCallTransactions}

section

variable (hok : decodedTransactionsFromActionLogs contracts summary events = .ok groups)

include hok

theorem decoded_eq_ok :
    ∃ state : ActionLogState, events.entries.foldlM (actionLogStep contracts summary.source) {}
        = .ok state
      ∧ state.pendingNullified = [] ∧ state.frames = [] ∧ state.decoded = groups := by
  obtain ⟨state, hrun, hfinish⟩ := bind_eq_ok.mp hok
  refine ⟨state, hrun, ?_⟩
  unfold finishActionLogs at hfinish
  split at hfinish
  · cases hfinish
  · split_ifs at hfinish
  · next hpending hframes => exact ⟨hpending, hframes, Except.ok.inj hfinish⟩

theorem inv_decoded : (∀ group ∈ groups, group.1 = none → groupOutputs group = [])
      ∧ ∃ total, (groups.flatMap groupRecords).Perm (List.range total) := by
  obtain ⟨state, hrun, -, hframes, rfl⟩ := decoded_eq_ok hok
  have hstart : ActionLogState.Inv {} := ⟨by simp, by simp, by simp⟩
  have hinv := foldlM_invariant hrun hstart fun _ _ _ _ hinv hstep => inv_actionLogStep hinv hstep
  refine ⟨hinv.untagged, state.nextRecordIndex, ?_⟩
  simpa [hframes] using hinv.records

theorem groupFacts_decoded :
    (groups.flatMap groupFacts).Perm (events.entries.flatMap (eventFacts contracts)) := by
  obtain ⟨state, hrun, hpending, hframes, rfl⟩ := decoded_eq_ok hok
  have hstart : ActionLogState.Inv {} := ⟨by simp, by simp, by simp⟩
  have hfacts := foldlM_perm hrun hstart (fun _ _ _ hinv hstep => inv_actionLogStep hinv hstep)
    fun _ _ _ hinv hstep => stateFacts_actionLogStep hinv hstep
  simpa [stateFacts, hpending, hframes] using hfacts

end

end Run

/-! ### Reading the facts back -/

def LogFact.nullified? : LogFact → Option (Nat × List Bytes32)
  | .nullified treeNumber nullifiers => some (treeNumber, nullifiers)
  | _ => none

def LogFact.unshield? :
    LogFact → Option (Except ChainLogIngestionError (Option Bytes32 × Option Bytes))
  | .unshield derived => some derived
  | _ => none

def LogFact.outputs? : LogFact → Option (Nat × List Bytes32)
  | .outputs logIndex hashes => some (logIndex, hashes)
  | _ => none

def LogFact.config? : LogFact → Option (Bytes32 × Bool)
  | .config boundParamsHash hasUnshield => some (boundParamsHash, hasUnshield)
  | _ => none

def ActionLogEvent.nullified? : ActionLogEvent → Option (Nat × List Bytes32)
  | .nullified treeNumber nullifiers => some (treeNumber, nullifiers)
  | _ => none

def ActionLogEvent.unshield? : ActionLogEvent → Option Unshield
  | .unshield event => some event
  | _ => none

def ActionLogEvent.transact? : ActionLogEvent → Option (List Bytes32)
  | .transact hashes => some hashes
  | _ => none

def ActionLogEvent.configs : ActionLogEvent → List TXConfig
  | .action configs => configs
  | _ => []

section Facts

theorem flatMap_ite_singleton {α β : Type} (items : List α) (keep : α → Bool) (f : α → β) :
    (items.flatMap fun item => if keep item then [f item] else [])
      = (items.filter keep).map f := by
  induction items with
  | nil => rfl
  | cons item rest ih => cases hkeep : keep item <;> simp [hkeep, ih]

theorem rowFacts_nullified (transaction : DecodedRailgunTransaction) :
    (rowFacts transaction).filterMap LogFact.nullified?
      = [(transaction.utxoTreeIn, transaction.nullifiers)] := by
  unfold rowFacts
  split_ifs <;> rfl

theorem rowFacts_unshield (transaction : DecodedRailgunTransaction) :
    (rowFacts transaction).filterMap LogFact.unshield?
      = if transaction.hasUnshield then
          [.ok (transaction.commitments.getLast?, transaction.unshieldPreimage)]
        else [] := by
  unfold rowFacts
  split_ifs <;> rfl

theorem rowFacts_outputs (transaction : DecodedRailgunTransaction) :
    (rowFacts transaction).filterMap LogFact.outputs? = [] := by
  unfold rowFacts
  split_ifs <;> rfl

theorem rowFacts_config (transaction : DecodedRailgunTransaction) :
    (rowFacts transaction).filterMap LogFact.config?
      = [(transaction.boundParamsHash, transaction.hasUnshield)] := by
  unfold rowFacts
  split_ifs <;> rfl

theorem filterMap_tagFacts {α : Type} {pick : LogFact → Option α} (tag : Option Nat)
    (hashes : List Bytes32) :
    (tagFacts tag hashes).filterMap pick
      = (tag.bind fun logIndex => pick (.outputs logIndex hashes)).toList := by
  cases tag with
  | none => rfl
  | some logIndex => cases hpick : pick (.outputs logIndex hashes) <;> simp [tagFacts, hpick]

theorem filterMap_groupFacts {α : Type} {pick : LogFact → Option α}
    (groups : List ActionCallTransactions) :
    (groups.flatMap groupFacts).filterMap pick
      = groups.flatMap fun group =>
        (group.2.flatMap fun row => (rowFacts row.2).filterMap pick)
          ++ (group.1.bind fun logIndex => pick (.outputs logIndex (groupOutputs group))).toList := by
  simp only [List.filterMap_flatMap, groupFacts, List.filterMap_append, filterMap_tagFacts]

theorem filterMap_groupFacts_of_rows {α : Type} {pick : LogFact → Option α}
    (groups : List ActionCallTransactions)
    (hpick : ∀ logIndex hashes, pick (.outputs logIndex hashes) = none) :
    (groups.flatMap groupFacts).filterMap pick
      = (groups.flatMap Prod.snd).flatMap fun row => (rowFacts row.2).filterMap pick := by
  rw [filterMap_groupFacts, List.flatMap_assoc]
  congr 1
  funext group
  cases group.1 <;> simp [hpick]

variable (contracts : Contracts) (entry : Nat × ActionLogEvent)

theorem eventFacts_nullified :
    (eventFacts contracts entry).filterMap LogFact.nullified? = entry.2.nullified?.toList := by
  obtain ⟨logIndex, event⟩ := entry
  cases event <;>
    simp [eventFacts, configFact, unshieldFact, LogFact.nullified?, ActionLogEvent.nullified?,
      Function.comp_def]

theorem eventFacts_unshield : (eventFacts contracts entry).filterMap LogFact.unshield?
      = (entry.2.unshield?.map (unshieldEntry contracts)).toList := by
  obtain ⟨logIndex, event⟩ := entry
  cases event <;>
    simp [eventFacts, configFact, unshieldFact, LogFact.unshield?, ActionLogEvent.unshield?,
      Function.comp_def]

theorem eventFacts_outputs : (eventFacts contracts entry).filterMap LogFact.outputs?
      = (entry.2.transact?.map fun hashes => (entry.1, hashes)).toList := by
  obtain ⟨logIndex, event⟩ := entry
  cases event <;>
    simp [eventFacts, configFact, unshieldFact, LogFact.outputs?, ActionLogEvent.transact?,
      Function.comp_def]

theorem length_eventFacts_config :
    ((eventFacts contracts entry).filterMap LogFact.config?).length = entry.2.configs.length := by
  obtain ⟨logIndex, event⟩ := entry
  cases event <;>
    simp [eventFacts, configFact, unshieldFact, LogFact.config?, ActionLogEvent.configs,
      Function.comp_def]

end Facts

/-- **Conservation.** Whenever the parser succeeds, on any events whatsoever, the nullifier lists of
its transactions are those of the `Nullified` events, the last commitments of its unshield
transactions are those of the `Unshield` events, its tagged groups claim exactly the outputs of the
`Transact` events, its other groups claim none, and its record indexes number the configurations. -/
theorem decodedTransactionsFromActionLogs_conserves {contracts : Contracts}
    {summary : TransactOutputSummary} {events : ActionLogEvents}
    {groups : List ActionCallTransactions}
    (hok : decodedTransactionsFromActionLogs contracts summary events = .ok groups) :
    let rows := groups.flatMap Prod.snd
    (rows.map fun row => (row.2.utxoTreeIn, row.2.nullifiers)).Perm
        (events.values.filterMap ActionLogEvent.nullified?)
    ∧ ((rows.filter fun row => row.2.hasUnshield).map fun row =>
          Except.ok (row.2.commitments.getLast?, row.2.unshieldPreimage)).Perm
        ((events.values.filterMap ActionLogEvent.unshield?).map (unshieldEntry contracts))
    ∧ (groups.filterMap fun group => group.1.map fun logIndex => (logIndex, groupOutputs group)).Perm
        (events.entries.filterMap fun entry => entry.2.transact?.map fun hashes => (entry.1, hashes))
    ∧ (∀ group ∈ groups, group.1 = none → groupOutputs group = [])
    ∧ (rows.map Prod.fst).Perm
        (List.range (events.values.map fun event => event.configs.length).sum) := by
  have hfacts := groupFacts_decoded hok
  obtain ⟨huntagged, total, hrecords⟩ := inv_decoded hok
  intro rows
  refine ⟨?_, ?_, ?_, huntagged, ?_⟩
  · have hkind := hfacts.filterMap LogFact.nullified?
    rw [filterMap_groupFacts_of_rows _ fun _ _ => rfl, List.filterMap_flatMap] at hkind
    simp only [rowFacts_nullified, eventFacts_nullified] at hkind
    rw [← List.map_eq_flatMap] at hkind
    rw [OrdMap.values, List.filterMap_map, List.filterMap_eq_flatMap_toList]
    exact hkind
  · have hkind := hfacts.filterMap LogFact.unshield?
    rw [filterMap_groupFacts_of_rows _ fun _ _ => rfl, List.filterMap_flatMap] at hkind
    simp only [rowFacts_unshield, eventFacts_unshield] at hkind
    rw [flatMap_ite_singleton, ← List.filterMap_eq_flatMap_toList] at hkind
    rw [OrdMap.values, List.filterMap_map, List.map_filterMap]
    exact hkind
  · have hkind := hfacts.filterMap LogFact.outputs?
    rw [filterMap_groupFacts, List.filterMap_flatMap] at hkind
    have hrows : ∀ rows : List (Nat × DecodedRailgunTransaction),
        (rows.flatMap fun row => (rowFacts row.2).filterMap LogFact.outputs?) = [] := by
      simp [rowFacts_outputs]
    simp only [hrows, eventFacts_outputs, List.nil_append] at hkind
    rw [← List.filterMap_eq_flatMap_toList, ← List.filterMap_eq_flatMap_toList] at hkind
    simpa only [LogFact.outputs?, Option.map_eq_bind, Function.comp_def] using hkind
  · have hkind := (hfacts.filterMap LogFact.config?).length_eq
    rw [filterMap_groupFacts_of_rows _ fun _ _ => rfl, List.filterMap_flatMap] at hkind
    simp only [rowFacts_config, List.length_flatMap, length_eventFacts_config] at hkind
    have hrows : groups.flatMap groupRecords = rows.map Prod.fst := by
      simp only [rows, List.map_flatMap]
      rfl
    have htotal : total = (events.values.map fun event => event.configs.length).sum := by
      have hlength := hrecords.length_eq
      rw [hrows, List.length_map, List.length_range] at hlength
      rw [OrdMap.values, List.map_map, ← hlength]
      simpa [rows, Function.comp_def] using hkind
    rw [← htotal, ← hrows]
    exact hrecords

theorem decodedTransactionsFromActionLogs_conserves_one_call :
    let unshield : Unshield := ⟨9, ⟨0, 4, 0⟩, 70, 1⟩
    let events : ActionLogEvents := OrdMap.ofSorted
      [(2, .nullified 1 [5]), (3, .action [⟨1, 1, true, 8⟩]), (4, .unshield unshield),
        (6, .transact [7])] (by decide)
    let summary : TransactOutputSummary := ⟨⟨10, none, 0, 0, 0⟩, 0, 0, [], []⟩
    let groups : List ActionCallTransactions :=
      [(some 6, [(0, ⟨.actionLogs, [5], [7, 9], 8, true, some [], 1, 8⟩)])]
    decodedTransactionsFromActionLogs toyContracts summary events = .ok groups
      ∧ ((groups.flatMap Prod.snd).map fun row => (row.2.utxoTreeIn, row.2.nullifiers)).Perm
        (events.values.filterMap ActionLogEvent.nullified?) := by
  intro unshield events summary groups
  have hok : decodedTransactionsFromActionLogs toyContracts summary events = .ok groups := by rfl
  exact ⟨hok, (decodedTransactionsFromActionLogs_conserves hok).1⟩

end RailgunIndexer
