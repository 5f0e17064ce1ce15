import RailgunIndexer.Proof.OutputMatch

/-!
# Sequential matching cuts the outputs into segments

Transactions of the modern kinds share one cursor over the sorted outputs. Each takes the outputs from
the cursor on whose hashes it finds, in order, among its commitments, and leaves the cursor after the
last of them. A run that succeeds has taken every output, so it has cut the outputs into one segment per
transaction. Only an unshield with no other commitment may take none.
-/

namespace RailgunIndexer

open Lib Fallible

def isModernCall (transaction : DecodedRailgunTransaction) : Bool :=
  match transaction.callKind with
  | .transact | .relay | .execute | .actionLogs => true
  | .legacyRelay | .legacyTransact => false

structure IndexedPublicTransaction.PlacedAt (row : IndexedPublicTransaction) (global : Nat) : Prop where
  global : row.utxoTreeOut * treeLeafCount + row.utxoBatchStartPositionOut = global
  inTree : row.utxoBatchStartPositionOut < treeLeafCount

/-- What a segment says of its transaction and the row made of it. `remaining` are the outputs from the
segment on. -/
structure Segment (emittedOutputs remaining : List EmittedOutputCommitment)
    (transaction : DecodedRailgunTransaction) (segment : List EmittedOutputCommitment)
    (row : IndexedPublicTransaction) : Prop where
  hashes : (segment.map fun emitted => emitted.hash).Sublist transaction.commitments
  placed : ∀ first ∈ segment.head?, row.PlacedAt (comparableGlobalTreePosition first)
  unshieldOnly : segment = [] → transaction.hasUnshield = true ∧ transaction.commitments.length = 1
  placedAtNext : segment = [] → ∀ next ∈ remaining.head?,
    row.PlacedAt (comparableGlobalTreePosition next)
  placedPastLast : segment = [] → remaining = [] → ∀ last ∈ emittedOutputs.getLast?,
    row.PlacedAt (comparableGlobalTreePosition last + 1)
  sentinel : emittedOutputs = [] → row.utxoTreeOut = modernUnshieldOnlyUtxoTree
    ∧ row.utxoBatchStartPositionOut = modernUnshieldOnlyUtxoPosition

inductive Segmented (emittedOutputs : List EmittedOutputCommitment) :
    List DecodedRailgunTransaction → List (List EmittedOutputCommitment) →
      List IndexedPublicTransaction → Prop
  | nil : Segmented emittedOutputs [] [] []
  | cons {transaction : DecodedRailgunTransaction} {transactions : List DecodedRailgunTransaction}
      {segment : List EmittedOutputCommitment} {segments : List (List EmittedOutputCommitment)}
      {row : IndexedPublicTransaction} {rows : List IndexedPublicTransaction}
      (hsegment : Segment emittedOutputs (segment ++ segments.flatten) transaction segment row)
      (hrest : Segmented emittedOutputs transactions segments rows) :
      Segmented emittedOutputs (transaction :: transactions) (segment :: segments) (row :: rows)

section Walk

variable {summary : TransactOutputSummary} {blockTimestamp transactionIndex : Nat}
  {emittedOutputs : List EmittedOutputCommitment} {transaction : DecodedRailgunTransaction}
  {found : OutputMatch} {after state : OutputState}

/-! ### One transaction -/

theorem callKind_beq_legacyTransact (hmodern : isModernCall transaction = true) :
    (transaction.callKind == .legacyTransact) = false := by
  rw [isModernCall] at hmodern
  cases hkind : transaction.callKind <;> rw [hkind] at hmodern
  case legacyTransact => cases hmodern
  all_goals rfl

theorem global_eq_ok {emitted : EmittedOutputCommitment} {global : Nat}
    (hok : emitted.global = .ok global) : global = comparableGlobalTreePosition emitted := by
  rw [EmittedOutputCommitment.global, globalTreePosition] at hok
  split_ifs at hok
  exact (Except.ok.inj hok).symm

theorem matchCommitments_eq_ok {commitments : List Bytes32} {cursor after : OutputCursor}
    (hok : matchCommitments emittedOutputs cursor commitments = .ok after) :
    ∃ segment rest, emittedOutputs.drop cursor.index = segment ++ rest
      ∧ after.index = cursor.index + segment.length
      ∧ (segment.map fun emitted => emitted.hash).Sublist commitments
      ∧ after.outputStart
        = cursor.outputStart.or (segment.head?.map comparableGlobalTreePosition) := by
  induction commitments generalizing cursor with
  | nil =>
      cases hok
      exact ⟨[], _, rfl, rfl, List.Sublist.refl _, by simp⟩
  | cons commitment commitments ih =>
      rw [matchCommitments] at hok
      cases hemitted : emittedOutputs[cursor.index]? with
      | none =>
          rw [hemitted] at hok
          cases hok
          exact ⟨[], _, rfl, rfl, List.nil_sublist _, by simp⟩
      | some emitted =>
          rw [hemitted] at hok
          dsimp only at hok
          by_cases hhash : emitted.hash = commitment
          · rw [if_pos hhash] at hok
            obtain ⟨start, hstart, hok⟩ : ∃ start,
                cursor.outputStart.or (some (comparableGlobalTreePosition emitted)) = some start
                  ∧ matchCommitments emittedOutputs
                    ⟨cursor.index + 1, some start, some emitted.logIndex⟩ commitments = .ok after := by
              cases hbefore : cursor.outputStart with
              | some found =>
                  rw [hbefore] at hok
                  exact ⟨found, rfl, hok⟩
              | none =>
                  rw [hbefore] at hok
                  obtain ⟨start, hglobal, hok⟩ := bind_eq_ok.mp hok
                  exact ⟨start, by rw [global_eq_ok hglobal]; rfl, hok⟩
            obtain ⟨segment, rest, hdrop, hindex, hsub, houtput⟩ := ih hok
            have hhere : emittedOutputs.drop cursor.index = emitted :: emittedOutputs.drop
                (cursor.index + 1) := by
              rw [List.drop_eq_getElem?_toList_append, hemitted]
              rfl
            refine ⟨emitted :: segment, rest, by rw [hhere, hdrop, List.cons_append], ?_, ?_, ?_⟩
            · dsimp only at hindex
              rw [hindex, List.length_cons]
              omega
            · rw [List.map_cons, hhash]
              exact hsub.cons_cons commitment
            · rw [houtput, List.head?_cons, Option.map_some, hstart]
              rfl
          · rw [if_neg hhash] at hok
            obtain ⟨segment, rest, hdrop, hindex, hsub, houtput⟩ := ih hok
            exact ⟨segment, rest, hdrop, hindex, hsub.cons commitment, houtput⟩

theorem matchedModernUnshieldOnly_eq_ok {index : Nat} (hindex : index ≤ emittedOutputs.length)
    (hok : matchedModernUnshieldOnlyOutputStartGlobal summary emittedOutputs index
      transactionIndex = .ok found) :
    (∀ next ∈ (emittedOutputs.drop index).head?,
        found.outputStart = comparableGlobalTreePosition next)
      ∧ (emittedOutputs.drop index = [] → ∀ last ∈ emittedOutputs.getLast?,
        found.outputStart = comparableGlobalTreePosition last + 1) := by
  rw [matchedModernUnshieldOnlyOutputStartGlobal] at hok
  rw [List.head?_drop]
  cases hemitted : emittedOutputs[index]? with
  | some emitted =>
      rw [hemitted] at hok
      obtain ⟨start, hstart, hok⟩ := bind_eq_ok.mp hok
      cases hok
      constructor
      · rintro next ⟨⟩
        exact global_eq_ok hstart
      · intro hdrop
        rw [List.drop_eq_nil_iff] at hdrop
        rw [List.getElem?_eq_none hdrop] at hemitted
        cases hemitted
  | none =>
      refine ⟨by simp, fun _ last hlast => ?_⟩
      have hlength : index = emittedOutputs.length :=
        le_antisymm hindex (List.getElem?_eq_none_iff.mp hemitted)
      have hne : emittedOutputs ≠ [] := by
        rintro rfl
        cases hlast
      have hpos := List.length_pos_iff.mpr hne
      rw [List.getLast?_eq_getElem?, Option.mem_def] at hlast
      rw [hemitted, hlength, if_neg (by simp [hne])] at hok
      rw [if_neg (by omega), hlast] at hok
      obtain ⟨start, hstart, hok⟩ := bind_eq_ok.mp hok
      split_ifs at hok
      cases hok
      rw [global_eq_ok hstart]

theorem singleCommitment_of_unshieldOnly (hunshield : isModernUnshieldOnly transaction = true) :
    transaction.hasUnshield = true ∧ transaction.commitments.length = 1 := by
  simp only [isModernUnshieldOnly, Bool.and_eq_true, beq_iff_eq] at hunshield
  exact hunshield.1

theorem matchedOutputStartGlobal_eq_ok {index next : Nat}
    (hfamily : ∀ emitted ∈ emittedOutputs, isLegacyOutput emitted = false)
    (hindex : index ≤ emittedOutputs.length)
    (hok : matchedOutputStartGlobal summary emittedOutputs index transaction transactionIndex =
      .ok (found, next)) :
    ∃ segment rest, emittedOutputs.drop index = segment ++ rest ∧ next = index + segment.length
      ∧ (segment.map fun emitted => emitted.hash).Sublist transaction.commitments
      ∧ (∀ first ∈ segment.head?, found.outputStart = comparableGlobalTreePosition first)
      ∧ (segment = [] → isModernUnshieldOnly transaction = true
        ∧ (∀ following ∈ rest.head?, found.outputStart = comparableGlobalTreePosition following)
        ∧ (rest = [] → ∀ last ∈ emittedOutputs.getLast?,
          found.outputStart = comparableGlobalTreePosition last + 1)) := by
  obtain ⟨cursor, hwalk, hok⟩ := bind_eq_ok.mp hok
  obtain ⟨segment, rest, hdrop, hcursor, hsub, hstart⟩ := matchCommitments_eq_ok hwalk
  have hnever : ∀ emitted ∈ emittedOutputs, emitted.family ≠ .legacyGenerated := by
    intro emitted hmem hgenerated
    have hlegacy := hfamily emitted hmem
    rw [isLegacyOutput, hgenerated] at hlegacy
    cases hlegacy
  rw [filter_legacyGenerated_eq_none hnever] at hok
  rw [Option.none_or] at hstart
  cases segment with
  | nil =>
      rw [hstart] at hok
      dsimp only [List.head?_nil, Option.map_none] at hok
      split_ifs at hok with hunshield
      obtain ⟨unshield, hplace, hok⟩ := bind_eq_ok.mp hok
      cases hok
      rw [hcursor, List.length_nil, Nat.add_zero] at hplace ⊢
      obtain ⟨hnext, hlast⟩ := matchedModernUnshieldOnly_eq_ok hindex hplace
      rw [hdrop] at hnext hlast
      exact ⟨[], rest, hdrop, rfl, hsub, by simp, fun _ => ⟨hunshield, hnext, hlast⟩⟩
  | cons first segment =>
      rw [hstart] at hok
      cases hok
      refine ⟨first :: segment, rest, hdrop, hcursor, hsub, ?_, by simp⟩
      rintro other ⟨⟩
      rfl

/-! ### Rows -/

theorem publicTransactionRow_placedAt (transaction : DecodedRailgunTransaction)
    (transactionIndex firstLogIndex lastLogIndex global : Nat) :
    (publicTransactionRow summary blockTimestamp transaction transactionIndex firstLogIndex
      lastLogIndex (global / treeLeafCount, global % treeLeafCount)).PlacedAt global where
  global := by
    rw [Nat.mul_comm]
    exact Nat.div_add_mod _ _
  inTree := Nat.mod_lt _ (by decide)

theorem outputStep_modern_eq_ok (hmodern : isModernCall transaction = true)
    (hfamily : ∀ emitted ∈ emittedOutputs, isLegacyOutput emitted = false)
    (hindex : state.emittedIndex ≤ emittedOutputs.length)
    (hok : outputStep summary blockTimestamp emittedOutputs state (transaction, transactionIndex)
      = .ok after) :
    ∃ segment rest row, emittedOutputs.drop state.emittedIndex = segment ++ rest
      ∧ Segment emittedOutputs (segment ++ rest) transaction segment row
      ∧ after.emittedIndex = state.emittedIndex + segment.length
      ∧ after.rows = state.rows ++ [row]
      ∧ after.usesNonSequentialOutputMapping = state.usesNonSequentialOutputMapping := by
  obtain ⟨⟨⟨found, firstLogIndex, lastLogIndex⟩, moved⟩, hmatch, hok⟩ := bind_eq_ok.mp hok
  obtain ⟨position, hposition, hok⟩ := bind_eq_ok.mp hok
  cases hok
  have hnone : emittedOutputs.any isLegacyOutput = false := by
    rw [List.any_eq_false]
    intro emitted hemitted
    rw [hfamily emitted hemitted]
    decide
  have hsequential : ∃ next, matchedOutputStartGlobal summary emittedOutputs state.emittedIndex
      transaction transactionIndex = .ok (found, next) ∧ moved = { state with emittedIndex := next } := by
    rw [isModernCall] at hmodern
    rw [matchTransaction] at hmatch
    cases hkind : transaction.callKind <;> simp only [hkind, hnone] at hmodern hmatch <;>
      try cases hmodern
    all_goals
      obtain ⟨⟨start, next⟩, hstart, hmatch⟩ := bind_eq_ok.mp hmatch
      obtain ⟨hfound, rfl⟩ := Prod.mk.inj (Except.ok.inj hmatch)
      cases hfound
      exact ⟨next, hstart, rfl⟩
  obtain ⟨next, hstart, rfl⟩ := hsequential
  obtain ⟨segment, rest, hdrop, rfl, hsub, hfirst, hempty⟩ :=
    matchedOutputStartGlobal_eq_ok hfamily hindex hstart
  let row := publicTransactionRow summary blockTimestamp transaction transactionIndex firstLogIndex
    lastLogIndex position
  have hplaced : emittedOutputs ≠ [] → row.PlacedAt found.outputStart := by
    intro hne
    rw [rowPosition_of_ne_nil hne] at hposition
    obtain ⟨-, rfl⟩ := normalizedGlobalPosition_eq_ok hposition
    exact publicTransactionRow_placedAt ..
  have hne_of_mem : ∀ output ∈ segment ++ rest, emittedOutputs ≠ [] := by
    rintro output houtput rfl
    rw [← hdrop, List.drop_nil] at houtput
    cases houtput
  refine ⟨segment, rest, row, hdrop, ?_, rfl, rfl, rfl⟩
  refine
    { hashes := hsub
      placed := ?_
      unshieldOnly := fun hnil => singleCommitment_of_unshieldOnly (hempty hnil).1
      placedAtNext := ?_
      placedPastLast := ?_
      sentinel := ?_ }
  · intro first hmem
    rw [← hfirst first hmem]
    exact hplaced (hne_of_mem first (List.mem_append_left _ (List.mem_of_mem_head? hmem)))
  · rintro rfl next hmem
    rw [← (hempty rfl).2.1 next hmem]
    exact hplaced (hne_of_mem next (List.mem_of_mem_head? hmem))
  · rintro rfl hnil last hmem
    rw [← (hempty rfl).2.2 hnil last hmem]
    apply hplaced
    rintro rfl
    cases hmem
  · rintro rfl
    rw [List.drop_nil] at hdrop
    have hunshield := (hempty (List.append_eq_nil_iff.mp hdrop.symm).1).1
    rw [rowPosition, if_pos (by simp [hunshield])] at hposition
    cases hposition
    exact ⟨rfl, rfl⟩

theorem foldlM_outputStep_modern_eq_ok {transactions : List DecodedRailgunTransaction}
    (hmodern : ∀ transaction ∈ transactions, isModernCall transaction = true)
    (hfamily : ∀ emitted ∈ emittedOutputs, isLegacyOutput emitted = false)
    (hindex : state.emittedIndex ≤ emittedOutputs.length)
    (hok : (transactions.zipIdx transactionIndex).foldlM (outputStep summary blockTimestamp
      emittedOutputs) state = .ok after) :
    after.usesNonSequentialOutputMapping = state.usesNonSequentialOutputMapping
      ∧ (after.emittedIndex = emittedOutputs.length → ∃ segments rows,
        emittedOutputs.drop state.emittedIndex = segments.flatten
          ∧ Segmented emittedOutputs transactions segments rows
          ∧ after.rows = state.rows ++ rows) := by
  induction transactions generalizing state transactionIndex with
  | nil =>
      cases hok
      refine ⟨rfl, fun hall => ⟨[], [], ?_, .nil, (List.append_nil _).symm⟩⟩
      rw [hall, List.drop_length]
      rfl
  | cons transaction transactions ih =>
      rw [List.forall_mem_cons] at hmodern
      obtain ⟨middle, hstep, hok⟩ := bind_eq_ok.mp hok
      obtain ⟨segment, rest, row, hdrop, hsegment, hmoved, hrows, hsequential⟩ :=
        outputStep_modern_eq_ok hmodern.1 hfamily hindex hstep
      have hrest : emittedOutputs.drop middle.emittedIndex = rest := by
        rw [hmoved, ← List.drop_drop, hdrop, List.drop_left]
      have hlength : middle.emittedIndex ≤ emittedOutputs.length := by
        have hsplit := congrArg List.length hdrop
        rw [List.length_drop, List.length_append] at hsplit
        omega
      obtain ⟨hlater, hcut⟩ := ih hmodern.2 hlength hok
      refine ⟨hlater.trans hsequential, fun hall => ?_⟩
      obtain ⟨segments, rows, hflatten, hsegmented, hrowsLater⟩ := hcut hall
      rw [hrest] at hflatten
      rw [hflatten] at hdrop hsegment
      refine ⟨segment :: segments, row :: rows, hdrop, .cons hsegment hsegmented, ?_⟩
      rw [hrowsLater, hrows, List.append_assoc, List.singleton_append]

end Walk

/-- **Sequential matching is a segmentation.** When it succeeds, the sorted outputs are one segment per
transaction, each an ordered part of its transaction's commitments, and each row is at the first output
of its segment. A segment is empty only for an unshield without other commitments, whose row is at the
next output, past the last one, or at the sentinel when there are no outputs. -/
theorem publicTransactions_segmented {summary : TransactOutputSummary} {blockTimestamp : Nat}
    {transactions : List DecodedRailgunTransaction} {rows : List IndexedPublicTransaction}
    (hfamily : ∀ emitted ∈ summary.outputCommitments, isLegacyOutput emitted = false)
    (hmodern : ∀ transaction ∈ transactions, isModernCall transaction = true)
    (hok : publicTransactionsFromDecoded summary blockTimestamp transactions = .ok rows) :
    ∃ segments, sortByKey comparableGlobalTreePosition summary.outputCommitments = segments.flatten
      ∧ Segmented (sortByKey comparableGlobalTreePosition summary.outputCommitments) transactions
        segments rows := by
  have hlegacy : (transactions.any fun transaction =>
      transaction.callKind == .legacyTransact && !summary.nullifierGroups.isEmpty) = false := by
    rw [List.any_eq_false]
    intro transaction htransaction
    rw [callKind_beq_legacyTransact (hmodern transaction htransaction), Bool.false_and]
    decide
  have hsorted : ∀ emitted ∈ sortByKey comparableGlobalTreePosition summary.outputCommitments,
      isLegacyOutput emitted = false := fun emitted hemitted =>
    hfamily emitted ((sortByKey_perm _ _).subset hemitted)
  obtain ⟨after, hloop, hok⟩ := bind_eq_ok.mp hok
  obtain ⟨hsequential, hcut⟩ := foldlM_outputStep_modern_eq_ok hmodern hsorted (Nat.zero_le _) hloop
  rw [hlegacy, hsequential] at hok
  split_ifs at hok with hrest
  cases hok
  obtain ⟨segments, rows, hflatten, hsegmented, hrows⟩ := hcut (by simpa using hrest)
  refine ⟨segments, hflatten, ?_⟩
  rw [hrows]
  exact hsegmented

/-- An unshield between two transactions, the first of which finds two of its three commitments. -/
theorem publicTransactions_segmented_between : let transactions : List DecodedRailgunTransaction :=
      [⟨.transact, [1], [7, 9, 8], 0, false, none, 0, 0⟩, ⟨.actionLogs, [2], [5], 0, true, none, 0, 0⟩,
        ⟨.relay, [3], [6], 0, false, none, 0, 0⟩]
    let summary : TransactOutputSummary :=
      ⟨⟨10, none, 0, 0, 3⟩, 1, 3, [⟨.transact, 3, 0, 65535, 8⟩, ⟨.transact, 3, 1, 0, 6⟩,
        ⟨.transact, 3, 0, 65534, 7⟩], []⟩
    ∃ rows segments, publicTransactionsFromDecoded summary 0 transactions = .ok rows
      ∧ sortByKey comparableGlobalTreePosition summary.outputCommitments = segments.flatten
      ∧ Segmented (sortByKey comparableGlobalTreePosition summary.outputCommitments) transactions
        segments rows := by
  intro transactions summary
  have hrun : (publicTransactionsFromDecoded summary 0 transactions).map
      (fun rows => rows.map fun row => (row.utxoTreeOut, row.utxoBatchStartPositionOut))
      = .ok [(0, 65534), (1, 0), (1, 0)] := by
    decide +kernel
  cases hok : publicTransactionsFromDecoded summary 0 transactions with
  | error error =>
      rw [hok] at hrun
      cases hrun
  | ok rows =>
      obtain ⟨segments, hsegments⟩ := publicTransactions_segmented (by decide) (by decide) hok
      exact ⟨rows, segments, rfl, hsegments⟩

end RailgunIndexer
