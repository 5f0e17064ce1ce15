import RailgunIndexer.CallForest
import RailgunIndexer.Proof.ActionEvents
import RailgunIndexer.Proof.ActionFrame
import RailgunIndexer.Lib.SortByKey
import Mathlib.Data.List.Perm.Basic

/-!
# The parser rebuilds every call forest

The run lemma `run_items` follows the forest. It is stated relative to the stack of open calls below
and to the call the items belong to. That call may close in the middle of its items, at its last
`Unshield`, and the items after it then run directly on the stack below; `framesOver` and
`closedGroups` describe both situations at once.
-/

namespace RailgunIndexer

open Lib Lib.Fallible

section Closing

variable {contracts : Contracts} {source : IndexedLogSource} {frameLogIndex logIndex : Nat}

theorem unshieldCommitmentFromEvent_log (log : UnshieldLog) :
    unshieldCommitmentFromEvent contracts log.unshield
      = .ok (contracts.preimageHash log.preimage, log.preimage) := by
  rw [unshieldCommitmentFromEvent, dif_pos log.fits]
  rfl

theorem numberFrom_cons (base : Nat) (row : DecodedRailgunTransaction)
    (rows : List DecodedRailgunTransaction) :
    numberFrom base (row :: rows) = (base, row) :: numberFrom (base + 1) rows := by
  simp [numberFrom, List.range'_succ]

theorem numberFrom_append (base : Nat) (left right : List DecodedRailgunTransaction) :
    numberFrom base (left ++ right)
      = numberFrom base left ++ numberFrom (base + left.length) right := by
  induction left generalizing base with
  | nil => simp [numberFrom]
  | cons row rest ih =>
      rw [List.cons_append, numberFrom_cons, ih, numberFrom_cons, List.cons_append,
        List.length_cons, Nat.add_right_comm, Nat.add_assoc base]

theorem length_callRows (configs : List CallConfig) (unshields : List UnshieldLog) :
    (callRows contracts configs unshields).length = configs.length := by
  induction configs generalizing unshields with
  | nil => rfl
  | cons config rest ih =>
      rw [callRows]
      split_ifs <;> simp [ih]

theorem transactionsFromConfigs_callRows {hashes : List Bytes32} (configs : List CallConfig)
    (unshields : List UnshieldLog) (earlier : List Bytes32) (recordIndex : Nat)
    (hhashes : hashes = earlier ++ configs.flatMap fun config => config.commitments)
    (hbound : hashes.length < u64Bound)
    (hunshields : unshields.length = configs.countP fun config => config.hasUnshield) :
    transactionsFromConfigs contracts source frameLogIndex logIndex hashes recordIndex
        earlier.length (unshields.map fun log => log.unshield)
        (configs.map fun config => (config.txconfig, config.treeNumber, config.nullifiers))
      = .ok (numberFrom recordIndex (callRows contracts configs unshields), hashes.length) := by
  induction configs generalizing unshields earlier recordIndex with
  | nil =>
      simp only [hhashes, List.flatMap_nil, List.append_nil]
      rfl
  | cons config rest ih =>
      have hsplit : hashes = (earlier ++ config.commitments)
          ++ rest.flatMap fun config => config.commitments := by
        rw [hhashes, List.flatMap_cons, List.append_assoc]
      have hlength := congrArg List.length hsplit
      simp only [List.length_append] at hlength
      have houtputs : takeCommitments source logIndex hashes earlier.length
          config.commitments.length = .ok config.commitments := by
        refine takeCommitments_eq_ok_iff.mpr ⟨by omega, by omega, ?_⟩
        rw [hsplit, List.append_assoc, List.drop_left, List.take_left]
      rw [List.map_cons, transactionsFromConfigs_cons_eq_ok_iff]
      cases hflag : config.hasUnshield with
      | false =>
          simp only [List.countP_cons, hflag, Bool.false_eq_true, if_false, Nat.add_zero]
            at hunshields
          refine ⟨config.commitments, none, unshields.map fun log => log.unshield,
            numberFrom (recordIndex + 1) (callRows contracts rest unshields), houtputs, ?_, ?_, ?_⟩
          · exact takeUnshield_eq_ok_iff.mpr (.inl ⟨hflag, rfl, rfl⟩)
          · have htail := ih unshields (earlier ++ config.commitments) (recordIndex + 1) hsplit
              hunshields
            rwa [List.length_append] at htail
          · simp only [callRows, hflag, Bool.false_eq_true, if_false, numberFrom_cons]
            rfl
      | true =>
          simp only [List.countP_cons, hflag, if_true] at hunshields
          cases unshields with
          | nil => simp at hunshields
          | cons log logs =>
              have hlogs : logs.length = rest.countP fun config => config.hasUnshield := by
                simpa using hunshields
              refine ⟨config.commitments, some (contracts.preimageHash log.preimage, log.preimage),
                logs.map fun log => log.unshield,
                numberFrom (recordIndex + 1) (callRows contracts rest logs), houtputs, ?_, ?_, ?_⟩
              · exact takeUnshield_eq_ok_iff.mpr (.inr ⟨hflag, log.unshield, _, rfl,
                  unshieldCommitmentFromEvent_log log, rfl⟩)
              · have htail := ih logs (earlier ++ config.commitments) (recordIndex + 1) hsplit hlogs
                rwa [List.length_append] at htail
              · simp only [callRows, hflag, if_true, numberFrom_cons, List.head?_cons,
                  List.tail_cons]
                rfl

end Closing

/-! ### Open calls -/

/-- A call whose `Action` has been read, with the `Unshield` logs read so far. -/
structure OpenCall where
  header : CallHeader
  base : Nat
  unshields : List UnshieldLog

namespace OpenCall

def frame (call : OpenCall) : ActionFrame where
  logIndex := call.header.actionIndex
  recordBase := call.base
  configs := call.header.configs.map CallConfig.txconfig
  nullified := call.header.configs.map fun config => (config.treeNumber, config.nullifiers)
  unshields := call.unshields.map fun log => log.unshield
  expectsTransact :=
    (call.header.configs.map CallConfig.txconfig).any fun config => 0 < config.commitmentsCount

def rows (contracts : Contracts) (call : OpenCall) : List (Nat × DecodedRailgunTransaction) :=
  numberFrom call.base (callRows contracts call.header.configs call.unshields)

def absorb (call : OpenCall) (logs : List UnshieldLog) : OpenCall :=
  { call with unshields := call.unshields ++ logs }

@[simp]
theorem absorb_nil (call : OpenCall) : call.absorb [] = call := by
  simp [absorb]

theorem absorb_absorb (call : OpenCall) (left right : List UnshieldLog) :
    (call.absorb left).absorb right = call.absorb (left ++ right) := by
  simp [absorb]

theorem pendingUnshields_frame (call : OpenCall) :
    call.frame.pendingUnshields = call.header.unshieldCount - call.unshields.length := by
  simp [ActionFrame.pendingUnshields, frame, CallHeader.unshieldCount, List.countP_map,
    Function.comp_def, CallConfig.txconfig]

theorem expectsTransact_frame (call : OpenCall) :
    call.frame.expectsTransact = !decide (call.header.commitments = []) := by
  rw [Bool.eq_iff_iff]
  simp [frame, CallHeader.commitments, CallConfig.txconfig, List.length_pos_iff]

theorem isComplete_frame (call : OpenCall) :
    call.frame.isComplete = true ↔ call.header.commitments = []
      ∧ call.header.unshieldCount ≤ call.unshields.length := by
  simp [ActionFrame.isComplete, expectsTransact_frame, pendingUnshields_frame, Nat.sub_eq_zero_iff_le]

theorem transactionsFromActionFrame_frame {contracts : Contracts} {source : IndexedLogSource}
    {logIndex : Nat} (call : OpenCall) (hfull : call.unshields.length = call.header.unshieldCount) :
    transactionsFromActionFrame contracts source call.frame call.header.commitments logIndex
      = .ok (call.rows contracts) := by
  rw [transactionsFromActionFrame_eq_ok_iff, pendingUnshields_frame]
  refine ⟨by omega, ?_⟩
  rw [frame, List.zip_map']
  exact transactionsFromConfigs_callRows call.header.configs call.unshields [] call.base rfl
    call.header.commitments_lt hfull

end OpenCall

/-! ### The stack around a list of items -/

/-- The open calls while the items of `top` are read: `top` itself until it is complete, over the
calls below it. -/
def framesOver (below : List ActionFrame) : Option OpenCall → List ActionFrame
  | none => below
  | some call => if call.frame.isComplete then below else call.frame :: below

/-- What `top` has contributed to the decoded groups: its rows once it is complete. -/
def closedGroups (contracts : Contracts) : Option OpenCall → List ActionCallTransactions
  | none => []
  | some call => if call.frame.isComplete then [(none, call.rows contracts)] else []

/-- The `Unshield` logs that follow are among those `top` declares. -/
def Declares (logs : List UnshieldLog) : Option OpenCall → Prop
  | none => logs = []
  | some call => call.unshields.length + logs.length ≤ call.header.unshieldCount

section Run

variable {contracts : Contracts} {source : IndexedLogSource} {below : List ActionFrame}
  {pending : List (Nat × Nat × List Bytes32)} {next : Nat} {decoded : List ActionCallTransactions}
  {frames : List ActionFrame} {rest : CallItems}

theorem incomplete_framesOver (hbelow : ∀ frame ∈ below, frame.isComplete = false)
    (top : Option OpenCall) : ∀ frame ∈ framesOver below top, frame.isComplete = false := by
  cases top with
  | none => exact hbelow
  | some call =>
      rw [framesOver]
      split_ifs with hcomplete
      · exact hbelow
      · exact List.forall_mem_cons.mpr ⟨by simpa using hcomplete, hbelow⟩

theorem closeCompleted_of_incomplete (hframes : ∀ frame ∈ frames, frame.isComplete = false) :
    closeCompleted contracts source ⟨pending, frames, next, decoded⟩
      = .ok ⟨pending, frames, next, decoded⟩ := by
  cases frames with
  | nil => rfl
  | cons frame rest =>
      have hframe := hframes frame (by simp)
      simp [closeCompleted, hframe]

theorem closeCompleted_openCall (call : OpenCall)
    (hcount : call.unshields.length ≤ call.header.unshieldCount) :
    closeCompleted contracts source ⟨pending, call.frame :: below, next, decoded⟩
      = .ok ⟨pending, framesOver below (some call), next,
        decoded ++ closedGroups contracts (some call)⟩ := by
  simp only [closeCompleted, framesOver, closedGroups]
  split_ifs with hcomplete
  · obtain ⟨hempty, hfull⟩ := call.isComplete_frame.mp hcomplete
    have hrows : transactionsFromActionFrame contracts source call.frame [] call.frame.logIndex
        = .ok (call.rows contracts) := by
      rw [← hempty]
      exact call.transactionsFromActionFrame_frame (by omega)
    rw [hrows]
    rfl
  · simp

theorem step_unshield (call : OpenCall) (log : UnshieldLog)
    (hcount : call.unshields.length + 1 ≤ call.header.unshieldCount) :
    actionLogStep contracts source ⟨[], framesOver below (some call), next, decoded⟩
        (log.logIndex, .unshield log.unshield)
      = .ok ⟨[], framesOver below (some (call.absorb [log])), next,
        decoded ++ closedGroups contracts (some (call.absorb [log]))⟩ := by
  have hincomplete : ¬ call.frame.isComplete = true := by
    rw [call.isComplete_frame]
    omega
  have hpending : 0 < call.frame.pendingUnshields := by
    rw [call.pendingUnshields_frame]
    omega
  have hframe : { call.frame with unshields := call.frame.unshields ++ [log.unshield] }
      = (call.absorb [log]).frame := by
    simp [OpenCall.frame, OpenCall.absorb]
  rw [framesOver, if_neg hincomplete]
  simp only [actionLogStep, acceptEvent, if_pos hpending, ok_bind, hframe]
  exact closeCompleted_openCall (call.absorb [log]) (by simpa [OpenCall.absorb] using hcount)

theorem step_shield (logIndex : Nat) (hframes : ∀ frame ∈ frames, frame.isComplete = false) :
    actionLogStep contracts source ⟨[], frames, next, decoded⟩ (logIndex, .action [])
      = .ok ⟨[], frames, next, decoded⟩ :=
  closeCompleted_of_incomplete hframes

theorem run_nullified (configs : List CallConfig)
    (hframes : ∀ frame ∈ frames, frame.isComplete = false) :
    (configs.map fun config => (config.nullifiedIndex,
          ActionLogEvent.nullified config.treeNumber config.nullifiers)).foldlM
        (actionLogStep contracts source) ⟨pending, frames, next, decoded⟩
      = .ok ⟨pending ++ configs.map fun config =>
          (config.nullifiedIndex, config.treeNumber, config.nullifiers), frames, next, decoded⟩ := by
  induction configs generalizing pending with
  | nil => simp
  | cons config rest ih =>
      rw [List.map_cons, List.foldlM_cons]
      simp only [actionLogStep, acceptEvent, ok_bind, closeCompleted_of_incomplete hframes]
      rw [ih]
      simp

theorem step_action (header : CallHeader) :
    actionLogStep contracts source
        ⟨header.configs.map fun config =>
          (config.nullifiedIndex, config.treeNumber, config.nullifiers), frames, next, decoded⟩
        header.actionEvent
      = .ok ⟨[], framesOver frames (some ⟨header, next, []⟩), next + header.configs.length,
        decoded ++ closedGroups contracts (some ⟨header, next, []⟩)⟩ := by
  have hcounts : countsMatch (header.configs.map fun config =>
      (config.nullifiedIndex, config.treeNumber, config.nullifiers))
      (header.configs.map CallConfig.txconfig) = true := by
    simp [countsMatch, List.zip_map', CallConfig.txconfig]
  have hne : ¬ (header.configs.map CallConfig.txconfig).isEmpty = true := by
    simpa using header.configs_ne
  have hframe : openFrame ⟨header.configs.map fun config =>
        (config.nullifiedIndex, config.treeNumber, config.nullifiers), frames, next, decoded⟩
        header.actionIndex (header.configs.map CallConfig.txconfig)
      = OpenCall.frame ⟨header, next, []⟩ := by
    simp [openFrame, OpenCall.frame]
  simp only [actionLogStep, CallHeader.actionEvent, acceptEvent, if_pos hcounts, if_neg hne,
    ok_bind, hframe, List.length_map]
  exact closeCompleted_openCall ⟨header, next, []⟩ (Nat.zero_le _)

theorem run_transact (call : OpenCall) {frames : List ActionFrame}
    (hfull : call.unshields.length = call.header.unshieldCount)
    (hframes : ∀ frame ∈ frames, frame.isComplete = false) {earlier : List ActionCallTransactions}
    (hdecoded : decoded.Perm (earlier ++ closedGroups contracts (some call))) :
    ∃ after, call.header.transactEvents.foldlM (actionLogStep contracts source)
        ⟨[], framesOver frames (some call), next, decoded⟩ = .ok ⟨[], frames, next, after⟩
      ∧ after.Perm (earlier ++ [(call.header.transactTag, call.rows contracts)]) := by
  by_cases hempty : call.header.commitments = []
  · have hcomplete : call.frame.isComplete = true := call.isComplete_frame.mpr ⟨hempty, hfull.ge⟩
    refine ⟨decoded, ?_, ?_⟩
    · simp [CallHeader.transactEvents, hempty, framesOver, hcomplete]
    · simpa [CallHeader.transactTag, hempty, closedGroups, hcomplete] using hdecoded
  · have hincomplete : ¬ call.frame.isComplete = true := by
      rw [call.isComplete_frame]
      exact fun h => hempty h.1
    have hexpects : call.frame.expectsTransact = true := by
      simpa [call.expectsTransact_frame] using hempty
    refine ⟨decoded ++ [(some call.header.transactIndex, call.rows contracts)], ?_, ?_⟩
    · rw [CallHeader.transactEvents, if_neg hempty, List.foldlM_cons, framesOver,
        if_neg hincomplete]
      simp only [actionLogStep, acceptEvent, if_pos hexpects,
        call.transactionsFromActionFrame_frame hfull, ok_bind, pure_eq_ok,
        closeCompleted_of_incomplete hframes, List.foldlM_nil]
    · rw [closedGroups, if_neg hincomplete, List.append_nil] at hdecoded
      rw [CallHeader.transactTag, if_neg hempty]
      exact hdecoded.append_right _

/-- Relative to any stack of incomplete calls and to the call the items belong to, the items add
their own groups and give their `Unshield` logs to that call. -/
def RunsOver (contracts : Contracts) (source : IndexedLogSource) (items : CallItems) : Prop :=
  ∀ (below : List ActionFrame) (top : Option OpenCall) (next : Nat)
    (decoded earlier : List ActionCallTransactions), items.WellFormed →
    Declares items.unshields top → (∀ frame ∈ below, frame.isComplete = false) →
    decoded.Perm (earlier ++ closedGroups contracts top) →
    ∃ after, items.events.foldlM (actionLogStep contracts source)
        ⟨[], framesOver below top, next, decoded⟩
        = .ok ⟨[], framesOver below (top.map fun call => call.absorb items.unshields),
          next + items.configCount, after⟩
      ∧ after.Perm (earlier ++ items.groups contracts next
        ++ closedGroups contracts (top.map fun call => call.absorb items.unshields))

theorem runsOver_nil : RunsOver contracts source .nil := by
  intro below top next decoded earlier _ _ _ hdecoded
  have htop : (top.map fun call => call.absorb CallItems.nil.unshields) = top := by
    simp [CallItems.unshields]
  rw [htop]
  exact ⟨decoded, rfl, by simpa [CallItems.groups] using hdecoded⟩

theorem runsOver_unshield (log : UnshieldLog) (hruns : RunsOver contracts source rest) :
    RunsOver contracts source (.unshield log rest) := by
  intro below top next decoded earlier hwell hdeclares hbelow hdecoded
  cases top with
  | none => cases hdeclares
  | some call =>
      simp only [Declares, CallItems.unshields, List.length_cons] at hdeclares
      have hincomplete : ¬ call.frame.isComplete = true := by
        rw [call.isComplete_frame]
        omega
      rw [closedGroups, if_neg hincomplete, List.append_nil] at hdecoded
      have hrest : Declares rest.unshields (some (call.absorb [log])) := by
        simp only [Declares, OpenCall.absorb, List.length_append, List.length_singleton]
        omega
      obtain ⟨after, hrun, hafter⟩ := hruns below _ next _ _ hwell hrest hbelow
        (hdecoded.append_right _)
      refine ⟨after, ?_, ?_⟩
      · rw [CallItems.events, List.foldlM_cons, step_unshield call log (by omega), ok_bind, hrun]
        simp [OpenCall.absorb_absorb, CallItems.unshields, CallItems.configCount]
      · simpa [OpenCall.absorb_absorb, CallItems.unshields, CallItems.groups] using hafter

theorem runsOver_shield (logIndex : Nat) (hruns : RunsOver contracts source rest) :
    RunsOver contracts source (.shield logIndex rest) := by
  intro below top next decoded earlier hwell hdeclares hbelow hdecoded
  obtain ⟨after, hrun, hafter⟩ := hruns below top next _ _ hwell hdeclares hbelow hdecoded
  refine ⟨after, ?_, hafter⟩
  rw [CallItems.events, List.foldlM_cons,
    step_shield logIndex (incomplete_framesOver hbelow top), ok_bind]
  exact hrun

/-- From its first `Nullified` to its `Transact`, a call leaves the stack as it found it and adds its
own rows to those of the calls nested in it. -/
theorem run_call (header : CallHeader) {body : CallItems} (hruns : RunsOver contracts source body)
    {frames : List ActionFrame} (hframes : ∀ frame ∈ frames, frame.isComplete = false)
    (hwell : body.WellFormed) (hcount : body.unshields.length = header.unshieldCount) :
    ∃ after, (header.nullifiedEvents
        ++ header.actionEvent :: (body.events ++ header.transactEvents)).foldlM
          (actionLogStep contracts source) ⟨[], frames, next, decoded⟩
        = .ok ⟨[], frames, next + header.configs.length + body.configCount, after⟩
      ∧ after.Perm (decoded ++ body.groups contracts (next + header.configs.length)
        ++ [(header.transactTag,
          numberFrom next (callRows contracts header.configs body.unshields))]) := by
  obtain ⟨afterBody, hrunBody, hafterBody⟩ := hruns frames (some ⟨header, next, []⟩)
    (next + header.configs.length) _ decoded hwell (by simp [Declares, hcount]) hframes
    (List.Perm.refl _)
  obtain ⟨after, hrun, hafter⟩ :=
    @run_transact contracts source (next + header.configs.length + body.configCount) afterBody
      (OpenCall.absorb ⟨header, next, []⟩ body.unshields) frames hcount hframes _ hafterBody
  refine ⟨after, ?_, hafter⟩
  rw [List.foldlM_append, CallHeader.nullifiedEvents, run_nullified header.configs hframes, ok_bind,
    List.foldlM_cons, List.nil_append, step_action, ok_bind, List.foldlM_append, hrunBody, ok_bind]
  exact hrun

theorem runsOver_call (header : CallHeader) {body : CallItems}
    (hbody : RunsOver contracts source body) (hrest : RunsOver contracts source rest) :
    RunsOver contracts source (.call header body rest) := by
  intro below top next decoded earlier hwell hdeclares hbelow hdecoded
  obtain ⟨hcount, hwellBody, hwellRest⟩ := hwell
  obtain ⟨afterCall, hrunCall, hafterCall⟩ := @run_call _ _ next decoded header body hbody _
    (incomplete_framesOver hbelow top) hwellBody hcount
  let group : ActionCallTransactions :=
    (header.transactTag, numberFrom next (callRows contracts header.configs body.unshields))
  have hbeforeRest : afterCall.Perm ((earlier ++ group
      :: body.groups contracts (next + header.configs.length)) ++ closedGroups contracts top) := by
    rw [List.perm_iff_count]
    intro item
    have hcall := hafterCall.count_eq item
    have hbefore := hdecoded.count_eq item
    simp only [List.count_append, List.count_cons, List.count_nil, group] at hcall hbefore ⊢
    omega
  obtain ⟨after, hrunRest, hafter⟩ := hrest below top
    (next + header.configs.length + body.configCount) _ _ hwellRest hdeclares hbelow hbeforeRest
  have hevents : (CallItems.call header body rest).events
      = (header.nullifiedEvents ++ header.actionEvent :: (body.events ++ header.transactEvents))
        ++ rest.events := by
    simp only [CallItems.events, List.append_assoc, List.cons_append]
  have hindex : next + (CallItems.call header body rest).configCount
      = next + header.configs.length + body.configCount + rest.configCount := by
    rw [CallItems.configCount]
    omega
  refine ⟨after, ?_, ?_⟩
  · rw [hevents, List.foldlM_append, hrunCall, ok_bind, hindex]
    exact hrunRest
  · refine hafter.trans (List.Perm.append_right _ ?_)
    simp only [CallItems.groups, List.append_assoc, List.cons_append]
    rfl

/-- **The run over a list of items**, of any width and nesting depth. -/
theorem run_items (items : CallItems) : RunsOver contracts source items := by
  induction items with
  | nil => exact runsOver_nil
  | unshield log rest ih => exact runsOver_unshield log ih
  | shield logIndex rest ih => exact runsOver_shield logIndex ih
  | call header body rest ihBody ihRest => exact runsOver_call header ihBody ihRest

theorem decoded_of_events (forest : CallForest) (summary : TransactOutputSummary)
    {events : ActionLogEvents} (hevents : events.entries = forest.items.events) :
    ∃ groups, decodedTransactionsFromActionLogs contracts summary events = .ok groups
      ∧ groups.Perm (forest.items.groups contracts 0) := by
  obtain ⟨after, hrun, hafter⟩ := run_items forest.items [] none 0 [] [] forest.wellFormed
    forest.topLevel (by simp) (List.Perm.refl [])
  refine ⟨after, ?_, by simpa [closedGroups] using hafter⟩
  rw [decodedTransactionsFromActionLogs, hevents]
  exact (congrArg (· >>= _) hrun).trans rfl

end Run

/-! ### Rows in record order -/

theorem rows_groups (contracts : Contracts) (items : CallItems) (base : Nat) :
    (items.rows contracts).length = items.configCount
      ∧ (items.groups contracts base).flatMap Prod.snd
        = numberFrom base (items.rows contracts) := by
  induction items generalizing base with
  | nil => exact ⟨rfl, rfl⟩
  | unshield log rest ih | shield logIndex rest ih => exact ih base
  | call header body rest ihBody ihRest =>
      have hbody := ihBody (base + header.configs.length)
      have hrest := ihRest (base + (header.configs.length + body.configCount))
      constructor
      · simp only [CallItems.rows, CallItems.configCount, List.length_append, length_callRows,
          hbody.1, hrest.1]
      · simp only [CallItems.groups, CallItems.rows, List.flatMap_cons, List.flatMap_append,
          hbody.2, hrest.2, numberFrom_append, length_callRows, hbody.1, List.append_assoc,
          Nat.add_assoc]

theorem pairwise_numberFrom (base : Nat) (rows : List DecodedRailgunTransaction) :
    (numberFrom base rows).Pairwise fun earlier later => earlier.1 < later.1 := by
  have hfst : (numberFrom base rows).map Prod.fst = List.range' base rows.length := by
    rw [numberFrom, List.map_fst_zip (by simp)]
  have hrange : (List.range' base rows.length).Pairwise (· < ·) := List.pairwise_lt_range'
  rw [← hfst, List.pairwise_map] at hrange
  exact hrange

/-! ### From the logs of a batch -/

theorem hasRows_events (items : CallItems) : ∀ entry ∈ items.events, entry.2.HasRows := by
  induction items with
  | nil => simp [CallItems.events]
  | unshield log rest ih | shield logIndex rest ih => exact List.forall_mem_cons.mpr ⟨trivial, ih⟩
  | call header body rest ihBody ihRest =>
      intro entry hentry
      simp only [CallItems.events, List.mem_append, List.mem_cons] at hentry
      rcases hentry with hnullified | rfl | (hbody | htransact) | hrest
      · obtain ⟨config, -, rfl⟩ := List.mem_map.mp hnullified
        exact config.nullifiers_ne
      · trivial
      · exact ihBody entry hbody
      · unfold CallHeader.transactEvents at htransact
        split_ifs at htransact with hempty
        · cases htransact
        · rw [List.mem_singleton.mp htransact]
          exact hempty
      · exact ihRest entry hrest

theorem events_of_logs {logs : List Log} {batch : IndexedLogBatch} {actionStartBlock : Nat}
    {transactionHash : Bytes32} (forest : CallForest) (hingest : ingestChainLogs logs = .ok batch)
    (hactive : ∀ log ∈ logs, log.transactionHash = some transactionHash → ∀ blockNumber,
      log.blockNumber = some blockNumber → actionStartBlock ≤ blockNumber)
    (hlogs : (logs.filterMap (Log.actionEntry? transactionHash)).Perm forest.items.events) :
    ((actionLogEventsByTransaction batch actionStartBlock).get? transactionHash).getD OrdMap.empty
      = OrdMap.ofSorted forest.items.events forest.increasing := by
  refine OrdMap.ext_get? fun logIndex => ?_
  have hdistinct : ((logs.filterMap (Log.actionEntry? transactionHash)).map Prod.fst).Nodup := by
    refine (hlogs.map Prod.fst).nodup_iff.mpr ?_
    exact List.pairwise_map.mpr (forest.increasing.imp ne_of_lt)
  cases hfound : (OrdMap.ofSorted forest.items.events forest.increasing).get? logIndex with
  | none =>
      refine eventAt_eq_none hactive (fun event hmem => ?_) hingest
      have hsome := OrdMap.get?_eq_some_iff.mpr (show (logIndex, event) ∈
        (OrdMap.ofSorted forest.items.events forest.increasing).entries from hlogs.subset hmem)
      rw [hfound] at hsome
      cases hsome
  | some event =>
      have hmem : (logIndex, event) ∈ forest.items.events := OrdMap.get?_eq_some_iff.mp hfound
      exact eventAt_eq_some hactive hdistinct (hlogs.symm.subset hmem)
        (hasRows_events forest.items _ hmem) hingest

/-- **The parser rebuilds every call forest.** If the logs of an outer transaction in active blocks
are those of a call forest, the parser succeeds, returns the groups of the forest's calls, and its
rows in record order are the forest's rows. -/
theorem decoded_of_forest {contracts : Contracts} {logs : List Log} {batch : IndexedLogBatch}
    {actionStartBlock : Nat} {transactionHash : Bytes32} (forest : CallForest)
    (summary : TransactOutputSummary) (hingest : ingestChainLogs logs = .ok batch)
    (hactive : ∀ log ∈ logs, log.transactionHash = some transactionHash → ∀ blockNumber,
      log.blockNumber = some blockNumber → actionStartBlock ≤ blockNumber)
    (hlogs : (logs.filterMap (Log.actionEntry? transactionHash)).Perm forest.items.events) :
    ∃ groups,
      decodedTransactionsFromActionLogs contracts summary
          (((actionLogEventsByTransaction batch actionStartBlock).get? transactionHash).getD
            OrdMap.empty)
        = .ok groups
      ∧ groups.Perm (forest.items.groups contracts 0)
      ∧ sortByKey Prod.fst (groups.flatMap Prod.snd)
        = numberFrom 0 (forest.items.rows contracts) := by
  have hevents := congrArg OrdMap.entries (events_of_logs forest hingest hactive hlogs)
  obtain ⟨groups, hok, hgroups⟩ := @decoded_of_events contracts forest summary _ hevents
  refine ⟨groups, hok, hgroups, sortByKey_eq_of_perm ?_ (pairwise_numberFrom 0 _)⟩
  rw [← (rows_groups contracts forest.items 0).2]
  exact hgroups.flatMap_right _

/-- A call with an output and an unshield, and a call nested between its `Action` and its
`Unshield`. -/
theorem decoded_of_forest_nested :
    let source : LogEvent → Nat → Log := fun event logIndex =>
      ⟨some 30, some 1, some 2, some logIndex, event⟩
    let unshield : Unshield := ⟨9, ⟨0, 4, 0⟩, 70, 1⟩
    let logs : List Log :=
      [source (.nullified 1 [5]) 2, source (.action [⟨1, 1, true, 8⟩]) 3,
        source (.nullified 1 [6]) 4, source (.action [⟨1, 0, false, 3⟩]) 5,
        source (.unshield unshield) 6, source (.transact 1 40 [7] []) 9]
    let forest : CallForest :=
      { items := .call ⟨[⟨2, 1, [5], by decide, [7], true, 8⟩], by simp, 3, 9, by decide⟩
          (.call ⟨[⟨4, 1, [6], by decide, [], false, 3⟩], by simp, 5, 0, by decide⟩ .nil
            (.unshield ⟨6, unshield, by decide⟩ .nil))
          .nil
        wellFormed := by simp [CallItems.WellFormed, CallItems.unshields, CallHeader.unshieldCount]
        topLevel := rfl
        increasing := by decide }
    let summary : TransactOutputSummary := ⟨⟨30, none, 1, 2, 2⟩, 2, 9, [], []⟩
    ∃ batch groups, ingestChainLogs logs = .ok batch
      ∧ decodedTransactionsFromActionLogs toyContracts summary
          (((actionLogEventsByTransaction batch 20).get? 2).getD OrdMap.empty) = .ok groups
      ∧ sortByKey Prod.fst (groups.flatMap Prod.snd)
        = numberFrom 0 (forest.items.rows toyContracts) := by
  intro source unshield logs forest summary
  obtain ⟨groups, hok, -, hrows⟩ := @decoded_of_forest toyContracts logs _ 20 2 forest summary rfl
    (by decide) (List.Perm.of_eq rfl)
  exact ⟨_, groups, rfl, hok, hrows⟩

end RailgunIndexer
