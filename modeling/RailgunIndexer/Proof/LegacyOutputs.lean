import RailgunIndexer.Proof.OutputSegments

/-!
# Outputs of legacy transactions

A legacy `transact` call is anchored at its own nullifier log. Its outputs are looked for among those
logged before the next nullifier log, or among all outputs when there are none, by trying every start in
turn. A start that is another call's output finds nothing, because no commitment of the call is the hash
of another call's output, so the first start that is accepted is the call's own first output.
-/

namespace RailgunIndexer

open Lib Lib.Fallible

structure LegacyCall where
  transaction : DecodedRailgunTransaction
  emitted : List EmittedOutputCommitment
  withdraw : Option Bytes32
  callKind_eq : transaction.callKind = .legacyTransact
  commitments_eq : transaction.commitments
    = emitted.map (fun output => output.hash) ++ withdraw.toList
  hasUnshield_eq : transaction.hasUnshield = withdraw.isSome
  produces : emitted ≠ []
  family_eq : ∀ output ∈ emitted, output.family = .legacyEncrypted

def legacyOutputs (calls : List LegacyCall) : List EmittedOutputCommitment :=
  calls.flatMap fun call => call.emitted

def InSegment (groups : List NullifierGroup) (group : NullifierGroup)
    (output : EmittedOutputCommitment) : Prop :=
  group.source.logIndex < output.logIndex ∧ ∀ next ∈ groups,
    group.source.logIndex < next.source.logIndex → output.logIndex < next.source.logIndex

/-- What an outer transaction of legacy calls logs: one nullifier log for each call, in any order, and
the calls' outputs at consecutive places, in the order of the calls. The outputs are logged after the
last nullifier log, or each in the segment of its own call. -/
structure LegacyBundle (summary : TransactOutputSummary) (calls : List LegacyCall) : Prop where
  nullifiers_nodup : (calls.map fun call => call.transaction.nullifiers).Nodup
  groups_perm : (summary.nullifierGroups.map fun group => group.nullifiers).Perm
    (calls.map fun call => call.transaction.nullifiers)
  groups_ordered : summary.nullifierGroups.Pairwise fun earlier later =>
    earlier.source.logIndex < later.source.logIndex
  outputs_perm : summary.outputCommitments.Perm (legacyOutputs calls)
  consecutive : ∃ start, (legacyOutputs calls).map comparableGlobalTreePosition
    = List.range' start (legacyOutputs calls).length
  inTree : ∀ output ∈ legacyOutputs calls,
    output.treeNumber < u32Bound ∧ output.treePosition < treeLeafCount
  logged : (∀ output ∈ legacyOutputs calls, ∀ group ∈ summary.nullifierGroups,
      group.source.logIndex < output.logIndex)
    ∨ ∀ call ∈ calls, ∀ group ∈ summary.nullifierGroups,
      group.nullifiers = call.transaction.nullifiers →
        ∀ output ∈ call.emitted, InSegment summary.nullifierGroups group output
  hashes_nodup : ((legacyOutputs calls).map fun output => output.hash).Nodup
  withdraw_free : ∀ call ∈ calls, ∀ output ∈ legacyOutputs calls,
    call.withdraw ≠ some output.hash

/-- Each call has a nullifier log with its nullifiers, and a row that starts there and is at the place
of the call's own first output. -/
inductive LegacyMatched (groups : List NullifierGroup) :
    List LegacyCall → List Nat → List IndexedPublicTransaction → Prop
  | nil : LegacyMatched groups [] [] []
  | cons {call : LegacyCall} {calls : List LegacyCall} {groupIndex : Nat} {assigned : List Nat}
      {row : IndexedPublicTransaction} {rows : List IndexedPublicTransaction} {group : NullifierGroup}
      (hgroup : groups[groupIndex]? = some group)
      (hown : group.nullifiers = call.transaction.nullifiers)
      (hlog : row.firstLogIndex = group.source.logIndex)
      (hplaced : ∀ first ∈ call.emitted.head?, row.PlacedAt (comparableGlobalTreePosition first))
      (hrest : LegacyMatched groups calls assigned rows) :
      LegacyMatched groups (call :: calls) (groupIndex :: assigned) (row :: rows)

section Search

variable {summary : TransactOutputSummary} {transactionIndex : Nat}
  {emittedOutputs : List EmittedOutputCommitment} {transaction : DecodedRailgunTransaction}
  {emitted : EmittedOutputCommitment}

/-! ### Trying one start -/

theorem matchCommitments_of_free {commitments : List Bytes32} {cursor : OutputCursor}
    (hemitted : emittedOutputs[cursor.index]? = some emitted) (hfree : emitted.hash ∉ commitments) :
    matchCommitments emittedOutputs cursor commitments = .ok cursor := by
  induction commitments with
  | nil => rfl
  | cons commitment rest ih =>
      rw [List.mem_cons, not_or] at hfree
      rw [matchCommitments]
      simp only [hemitted, if_neg hfree.1]
      exact ih hfree.2

theorem exists_matchCommitments
    (hglobal : ∀ emitted ∈ emittedOutputs, emitted.global = .ok (comparableGlobalTreePosition emitted))
    (cursor : OutputCursor) (commitments : List Bytes32) :
    ∃ after, matchCommitments emittedOutputs cursor commitments = .ok after := by
  induction commitments generalizing cursor with
  | nil => exact ⟨cursor, rfl⟩
  | cons commitment rest ih =>
      rw [matchCommitments]
      cases hemitted : emittedOutputs[cursor.index]? with
      | none => exact ⟨cursor, rfl⟩
      | some emitted =>
          simp only []
          by_cases hhash : emitted.hash = commitment
          · rw [if_pos hhash]
            cases cursor.outputStart with
            | none =>
                simp only [hglobal emitted (List.mem_of_getElem? hemitted), ok_bind]
                exact ih _
            | some found => exact ih _
          · rw [if_neg hhash]
            exact ih _

theorem isModernUnshieldOnly_of_legacy (hkind : transaction.callKind = .legacyTransact) :
    isModernUnshieldOnly transaction = false := by
  rw [isModernUnshieldOnly, hkind, Bool.and_false]

theorem ne_legacyGenerated_of_encrypted
    (hfamily : ∀ emitted ∈ emittedOutputs, emitted.family = .legacyEncrypted) :
    ∀ emitted ∈ emittedOutputs, emitted.family ≠ .legacyGenerated := by
  intro emitted hmem
  rw [hfamily emitted hmem]
  decide

theorem matchedOutputStartGlobal_other (hkind : transaction.callKind = .legacyTransact)
    (hfamily : ∀ emitted ∈ emittedOutputs, emitted.family = .legacyEncrypted) {index : Nat}
    (hemitted : emittedOutputs[index]? = some emitted)
    (hfree : emitted.hash ∉ transaction.commitments) :
    matchedOutputStartGlobal summary emittedOutputs index transaction transactionIndex
      = .error (unmatchedOutputs summary transactionIndex) := by
  rw [matchedOutputStartGlobal, matchCommitments_of_free hemitted hfree]
  simp only [ok_bind, filter_legacyGenerated_eq_none (ne_legacyGenerated_of_encrypted hfamily),
    isModernUnshieldOnly_of_legacy hkind]
  rfl

theorem matchedOutputStartGlobal_own
    (hfamily : ∀ emitted ∈ emittedOutputs, emitted.family = .legacyEncrypted)
    (hglobal : ∀ emitted ∈ emittedOutputs, emitted.global = .ok (comparableGlobalTreePosition emitted))
    {index : Nat} {first : EmittedOutputCommitment} {rest : List Bytes32}
    (hfirst : emittedOutputs[index]? = some first)
    (hcommitments : transaction.commitments = first.hash :: rest) :
    ∃ lastLogIndex next,
      matchedOutputStartGlobal summary emittedOutputs index transaction transactionIndex
        = .ok (⟨comparableGlobalTreePosition first, lastLogIndex⟩, next) := by
  have hstep : matchCommitments emittedOutputs { index } transaction.commitments
      = matchCommitments emittedOutputs ⟨index + 1, some (comparableGlobalTreePosition first),
        some first.logIndex⟩ rest := by
    rw [hcommitments, matchCommitments]
    simp only [hfirst, if_true, hglobal first (List.mem_of_getElem? hfirst), ok_bind]
  obtain ⟨after, hafter⟩ := exists_matchCommitments hglobal
    ⟨index + 1, some (comparableGlobalTreePosition first), some first.logIndex⟩ rest
  obtain ⟨segment, tail, -, -, -, hstart⟩ := matchCommitments_eq_ok hafter
  refine ⟨after.lastLogIndex.getD summary.firstLogIndex, after.index, ?_⟩
  rw [matchedOutputStartGlobal, hstep, hafter]
  simp only [ok_bind, filter_legacyGenerated_eq_none (ne_legacyGenerated_of_encrypted hfamily), hstart]
  rfl

/-! ### Trying every start -/

theorem matchedLegacyOutputFrom_skip {starts : List Nat} (later : List Nat)
    (hskip : ∀ startIndex ∈ starts,
      matchedOutputStartGlobal summary emittedOutputs startIndex transaction transactionIndex
        = .error (unmatchedOutputs summary transactionIndex)) :
    matchedLegacyOutputFrom summary emittedOutputs transaction transactionIndex (starts ++ later)
      = matchedLegacyOutputFrom summary emittedOutputs transaction transactionIndex later := by
  induction starts with
  | nil => rfl
  | cons startIndex rest ih =>
      rw [List.forall_mem_cons] at hskip
      rw [List.cons_append, matchedLegacyOutputFrom, hskip.1]
      exact ih hskip.2

theorem matchedLegacyOutputStartGlobal_own (hkind : transaction.callKind = .legacyTransact)
    (hfamily : ∀ emitted ∈ emittedOutputs, emitted.family = .legacyEncrypted)
    (hglobal : ∀ emitted ∈ emittedOutputs, emitted.global = .ok (comparableGlobalTreePosition emitted))
    {before after : List EmittedOutputCommitment} {first : EmittedOutputCommitment}
    {rest : List Bytes32} (hemitted : emittedOutputs = before ++ first :: after)
    (hbefore : ∀ output ∈ before, output.hash ∉ transaction.commitments)
    (hcommitments : transaction.commitments = first.hash :: rest) :
    ∃ lastLogIndex,
      matchedLegacyOutputStartGlobal summary emittedOutputs transaction transactionIndex
        = .ok ⟨comparableGlobalTreePosition first, lastLogIndex⟩ := by
  have hstarts : List.range emittedOutputs.length
      = List.range before.length ++ before.length :: List.range' (before.length + 1) after.length := by
    rw [hemitted, List.length_append, List.length_cons, List.range_eq_range', List.range_eq_range',
      ← List.range'_append_1, Nat.zero_add, List.range'_succ]
  have hskip : ∀ startIndex ∈ List.range before.length,
      matchedOutputStartGlobal summary emittedOutputs startIndex transaction transactionIndex
        = .error (unmatchedOutputs summary transactionIndex) := by
    intro startIndex hstart
    rw [List.mem_range] at hstart
    apply matchedOutputStartGlobal_other hkind hfamily _ (hbefore _ (List.getElem_mem hstart))
    rw [hemitted, List.getElem?_append_left hstart, List.getElem?_eq_getElem hstart]
  have hfirst : emittedOutputs[before.length]? = some first := by
    rw [hemitted, List.getElem?_append_right le_rfl, Nat.sub_self, List.getElem?_cons_zero]
  obtain ⟨lastLogIndex, next, hown⟩ := @matchedOutputStartGlobal_own summary transactionIndex _ _
    hfamily hglobal _ _ _ hfirst hcommitments
  refine ⟨lastLogIndex, ?_⟩
  rw [matchedLegacyOutputStartGlobal, hstarts, matchedLegacyOutputFrom_skip _ hskip,
    matchedLegacyOutputFrom, hown]

/-! ### The nullifier log of a call -/

theorem legacyNullifierGroupIndex_own
    (hnodup : (summary.nullifierGroups.map fun group => group.nullifiers).Nodup)
    {groupIndex : Nat} {group : NullifierGroup} {used : List Nat}
    (hgroup : summary.nullifierGroups[groupIndex]? = some group)
    (hown : group.nullifiers = transaction.nullifiers) (hunused : groupIndex ∉ used) :
    legacyNullifierGroupIndex summary transaction transactionIndex used
      = .ok (some (group, groupIndex)) := by
  have hzip : summary.nullifierGroups.zipIdx.Nodup := by
    apply List.Nodup.of_map Prod.snd
    rw [List.zipIdx_map_snd]
    exact List.nodup_range'
  have hfound : (summary.nullifierGroups.zipIdx.filter fun item =>
      !used.contains item.2 && item.1.nullifiers == transaction.nullifiers)
        = [(group, groupIndex)] := by
    rw [← List.perm_singleton, List.perm_ext_iff_of_nodup (hzip.filter _) (List.nodup_singleton _)]
    rintro ⟨other, index⟩
    rw [List.mem_filter, List.mem_singleton, List.mk_mem_zipIdx_iff_getElem?, Prod.mk.injEq]
    constructor
    · rintro ⟨hother, hmatch⟩
      rw [Bool.and_eq_true, beq_iff_eq] at hmatch
      obtain rfl : index = groupIndex := by
        have hlt : index < (summary.nullifierGroups.map fun group => group.nullifiers).length := by
          rw [List.length_map]
          exact (List.getElem?_eq_some_iff.mp hother).1
        apply (List.getElem?_inj hlt hnodup).mp
        rw [List.getElem?_map, List.getElem?_map, hother, hgroup, Option.map_some, Option.map_some,
          hmatch.2, hown]
      exact ⟨Option.some.inj (hother.symm.trans hgroup), rfl⟩
    · rintro ⟨rfl, rfl⟩
      refine ⟨hgroup, ?_⟩
      simp only [hown]
      simp [hunused]
  have hne : summary.nullifierGroups.isEmpty = false := by
    rw [List.isEmpty_eq_false_iff]
    rintro hnil
    rw [hnil] at hgroup
    cases hgroup
  rw [legacyNullifierGroupIndex, hne, if_neg (by decide)]
  split
  case h_1 found hitems =>
    rw [List.head_eq_of_cons_eq (hitems.symm.trans hfound)]
  case h_2 hitems => cases hitems.symm.trans hfound
  case h_3 hone hnil => exact (hone _ hfound).elim

end Search

section Bundle

variable {summary : TransactOutputSummary} {blockTimestamp : Nat} {calls : List LegacyCall}
  {output : EmittedOutputCommitment} {call : LegacyCall} {earlier later : List LegacyCall}
  {assigned : List Nat}

theorem LegacyBundle.sorted (hbundle : LegacyBundle summary calls) :
    sortByKey comparableGlobalTreePosition summary.outputCommitments = legacyOutputs calls := by
  obtain ⟨start, hconsecutive⟩ := hbundle.consecutive
  apply sortByKey_eq_of_perm hbundle.outputs_perm
  rw [← List.pairwise_map (f := comparableGlobalTreePosition), hconsecutive]
  exact List.pairwise_lt_range'

theorem LegacyBundle.lt_positionBound (hbundle : LegacyBundle summary calls)
    (houtput : output ∈ legacyOutputs calls) :
    comparableGlobalTreePosition output < positionBound := by
  obtain ⟨htree, hposition⟩ := hbundle.inTree output houtput
  calc output.treeNumber * treeLeafCount + output.treePosition
      < output.treeNumber * treeLeafCount + treeLeafCount := Nat.add_lt_add_left hposition _
    _ = (output.treeNumber + 1) * treeLeafCount := (Nat.succ_mul _ _).symm
    _ ≤ u32Bound * treeLeafCount := Nat.mul_le_mul_right _ htree

theorem LegacyBundle.global_eq (hbundle : LegacyBundle summary calls)
    (houtput : output ∈ legacyOutputs calls) :
    output.global = .ok (comparableGlobalTreePosition output) := by
  have hlt : comparableGlobalTreePosition output < u64Bound :=
    lt_trans (hbundle.lt_positionBound houtput) (by decide)
  exact if_neg (Nat.not_le.mpr hlt)

theorem legacyOutputs_family (houtput : output ∈ legacyOutputs calls) :
    output.family = .legacyEncrypted := by
  obtain ⟨call, -, houtput⟩ := List.mem_flatMap.mp houtput
  exact call.family_eq output houtput

theorem LegacyBundle.candidates (hbundle : LegacyBundle summary calls) (hcall : call ∈ calls)
    {groupIndex : Nat} {group : NullifierGroup}
    (hgroup : summary.nullifierGroups[groupIndex]? = some group)
    (hown : group.nullifiers = call.transaction.nullifiers) :
    ∃ keep : EmittedOutputCommitment → Bool, (∀ output ∈ call.emitted, keep output = true)
      ∧ legacyOutputCandidates (legacyOutputs calls) summary group groupIndex
        = (legacyOutputs calls).filter keep := by
  have hmem := List.mem_of_getElem? hgroup
  have hlater : ∀ next, summary.nullifierGroups[groupIndex + 1]? = some next →
      group.source.logIndex < next.source.logIndex := by
    intro next hnext
    obtain ⟨hlt, rfl⟩ := List.getElem?_eq_some_iff.mp hgroup
    obtain ⟨hlt', rfl⟩ := List.getElem?_eq_some_iff.mp hnext
    exact List.pairwise_iff_getElem.mp hbundle.groups_ordered _ _ hlt hlt' (Nat.lt_succ_self _)
  rw [legacyOutputCandidates]
  split_ifs with hempty
  · refine ⟨fun _ => true, fun _ _ => rfl, ?_⟩
    rw [List.filter_true]
  · refine ⟨_, ?_, rfl⟩
    intro output houtput
    rw [Bool.and_eq_true, decide_eq_true_eq, Option.all_eq_true]
    rcases hbundle.logged with hafter | hsegments
    · obtain ⟨candidate, hcandidate⟩ := List.exists_mem_of_ne_nil _
        (fun hnil => hempty (List.isEmpty_iff.mpr hnil))
      rw [List.mem_filter, Bool.and_eq_true, Option.all_eq_true] at hcandidate
      refine ⟨hafter output (List.mem_flatMap.mpr ⟨call, hcall, houtput⟩) group hmem, ?_⟩
      intro next hnext
      have hlow := hafter candidate hcandidate.1 next (List.mem_of_getElem? hnext)
      have hhigh := of_decide_eq_true (hcandidate.2.2 next hnext)
      exact absurd (lt_trans hlow hhigh) (lt_irrefl _)
    · obtain ⟨hlow, hhigh⟩ := hsegments call hcall group hmem hown output houtput
      refine ⟨hlow, fun next hnext => decide_eq_true ?_⟩
      exact hhigh next (List.mem_of_getElem? hnext) (hlater next hnext)

theorem legacyOutputs_split (earlier later : List LegacyCall) (call : LegacyCall) :
    legacyOutputs (earlier ++ call :: later)
      = legacyOutputs earlier ++ (call.emitted ++ legacyOutputs later) := by
  rw [legacyOutputs, List.flatMap_append, List.flatMap_cons]
  rfl

theorem LegacyBundle.not_mem_commitments (hbundle : LegacyBundle summary (earlier ++ call :: later))
    (houtput : output ∈ legacyOutputs earlier) : output.hash ∉ call.transaction.commitments := by
  have hmem : output ∈ legacyOutputs (earlier ++ call :: later) := by
    rw [legacyOutputs_split]
    exact List.mem_append_left _ houtput
  have hnodup := hbundle.hashes_nodup
  rw [legacyOutputs_split, List.map_append, List.nodup_append, List.map_append] at hnodup
  rw [call.commitments_eq, List.mem_append, not_or]
  constructor
  · intro hhash
    exact hnodup.2.2 _ (List.mem_map_of_mem houtput) _ (List.mem_append_left _ hhash) rfl
  · intro hhash
    rw [Option.mem_toList] at hhash
    exact hbundle.withdraw_free call (List.mem_append_right _ List.mem_cons_self) output hmem hhash

theorem LegacyBundle.matched_own (hbundle : LegacyBundle summary (earlier ++ call :: later))
    {groupIndex : Nat} {group : NullifierGroup}
    (hgroup : summary.nullifierGroups[groupIndex]? = some group)
    (hown : group.nullifiers = call.transaction.nullifiers) (transactionIndex : Nat) :
    ∃ first ∈ call.emitted.head?, ∃ lastLogIndex, matchedLegacyOutputStartGlobal summary
      (legacyOutputCandidates (legacyOutputs (earlier ++ call :: later)) summary group groupIndex)
      call.transaction transactionIndex = .ok ⟨comparableGlobalTreePosition first, lastLogIndex⟩ := by
  obtain ⟨keep, hkeep, hcandidates⟩ :=
    hbundle.candidates (List.mem_append_right _ List.mem_cons_self) hgroup hown
  obtain ⟨first, more, hemitted⟩ := List.exists_cons_of_ne_nil call.produces
  refine ⟨first, by rw [hemitted]; rfl, ?_⟩
  rw [hcandidates]
  apply matchedLegacyOutputStartGlobal_own call.callKind_eq
  · intro output houtput
    exact legacyOutputs_family (List.mem_filter.mp houtput).1
  · intro output houtput
    exact hbundle.global_eq (List.mem_filter.mp houtput).1
  · rw [legacyOutputs_split, List.filter_append, List.filter_append, List.filter_eq_self.mpr hkeep,
      hemitted, List.cons_append]
  · intro output houtput
    exact hbundle.not_mem_commitments (List.mem_filter.mp houtput).1
  · rw [call.commitments_eq, hemitted, List.map_cons, List.cons_append]

/-! ### The loop over the calls -/

theorem LegacyBundle.outputStep_own {earlier later : List LegacyCall} {call : LegacyCall}
    (hbundle : LegacyBundle summary (earlier ++ call :: later)) {groupIndex : Nat}
    {group : NullifierGroup} (hgroup : summary.nullifierGroups[groupIndex]? = some group)
    (hown : group.nullifiers = call.transaction.nullifiers) {state : OutputState}
    (hunused : groupIndex ∉ state.usedNullifierGroups) (transactionIndex : Nat) :
    ∃ row, outputStep summary blockTimestamp (legacyOutputs (earlier ++ call :: later)) state
        (call.transaction, transactionIndex)
        = .ok { state with
          usedNullifierGroups := groupIndex :: state.usedNullifierGroups
          usesNonSequentialOutputMapping := true
          rows := state.rows ++ [row] }
      ∧ row.firstLogIndex = group.source.logIndex
      ∧ ∀ first ∈ call.emitted.head?, row.PlacedAt (comparableGlobalTreePosition first) := by
  have hnodup := hbundle.groups_perm.nodup_iff.mpr hbundle.nullifiers_nodup
  obtain ⟨first, hfirst, lastLogIndex, hmatched⟩ := hbundle.matched_own hgroup hown transactionIndex
  have hmem : first ∈ legacyOutputs (earlier ++ call :: later) := by
    rw [legacyOutputs_split]
    exact List.mem_append_right _ (List.mem_append_left _ (List.mem_of_mem_head? hfirst))
  have hstep : matchTransaction summary (legacyOutputs (earlier ++ call :: later)) state
      call.transaction transactionIndex = .ok
        ((⟨comparableGlobalTreePosition first, lastLogIndex⟩, group.source.logIndex,
          max group.source.logIndex lastLogIndex),
        { state with
          usedNullifierGroups := groupIndex :: state.usedNullifierGroups
          usesNonSequentialOutputMapping := true }) := by
    rw [matchTransaction]
    simp only [call.callKind_eq, legacyNullifierGroupIndex_own hnodup hgroup hown hunused, ok_bind,
      hmatched, pure_eq_ok]
  refine ⟨publicTransactionRow summary blockTimestamp call.transaction transactionIndex
    group.source.logIndex (max group.source.logIndex lastLogIndex)
    (comparableGlobalTreePosition first / treeLeafCount,
      comparableGlobalTreePosition first % treeLeafCount), ?_, rfl, ?_⟩
  · rw [outputStep, hstep]
    simp only [ok_bind, rowPosition_of_ne_nil (List.ne_nil_of_mem hmem),
      normalizedGlobalPosition_of_lt (hbundle.lt_positionBound hmem), pure_eq_ok]
  · intro other hother
    cases hfirst.symm.trans hother
    exact publicTransactionRow_placedAt ..

theorem LegacyBundle.exists_group (hbundle : LegacyBundle summary calls) (hcall : call ∈ calls) :
    ∃ (groupIndex : Nat) (group : NullifierGroup),
      summary.nullifierGroups[groupIndex]? = some group
        ∧ group.nullifiers = call.transaction.nullifiers := by
  have hmem := hbundle.groups_perm.mem_iff.mpr (List.mem_map_of_mem hcall)
  obtain ⟨group, hgroup, hown⟩ := List.mem_map.mp hmem
  obtain ⟨groupIndex, hindex⟩ := List.mem_iff_getElem?.mp hgroup
  exact ⟨groupIndex, group, hindex, hown⟩

theorem LegacyBundle.foldlM_outputStep {earlier later : List LegacyCall}
    (hbundle : LegacyBundle summary (earlier ++ later)) {state : OutputState}
    (hused : ∀ groupIndex ∈ state.usedNullifierGroups, ∃ call ∈ earlier,
      (summary.nullifierGroups[groupIndex]?).map (fun group => group.nullifiers)
        = some call.transaction.nullifiers) (transactionIndex : Nat) :
    ∃ after assigned rows,
      ((later.map fun call => call.transaction).zipIdx transactionIndex).foldlM
          (outputStep summary blockTimestamp (legacyOutputs (earlier ++ later))) state = .ok after
        ∧ LegacyMatched summary.nullifierGroups later assigned rows
        ∧ after.usedNullifierGroups = assigned.reverse ++ state.usedNullifierGroups
        ∧ after.rows = state.rows ++ rows
        ∧ (later ≠ [] ∨ state.usesNonSequentialOutputMapping = true →
          after.usesNonSequentialOutputMapping = true) := by
  induction later generalizing earlier state transactionIndex with
  | nil =>
      refine ⟨state, [], [], rfl, .nil, rfl, (List.append_nil _).symm, ?_⟩
      rintro (hne | hmapped)
      · exact absurd rfl hne
      · exact hmapped
  | cons call later ih =>
      obtain ⟨groupIndex, group, hgroup, hown⟩ :=
        hbundle.exists_group (List.mem_append_right _ List.mem_cons_self)
      have hmap : (summary.nullifierGroups[groupIndex]?).map (fun group => group.nullifiers)
          = some call.transaction.nullifiers := by
        rw [hgroup, Option.map_some, hown]
      have hunused : groupIndex ∉ state.usedNullifierGroups := by
        intro hmem
        obtain ⟨other, hother, hnullifiers⟩ := hused groupIndex hmem
        have hnodup := hbundle.nullifiers_nodup
        rw [List.map_append, List.nodup_append] at hnodup
        apply hnodup.2.2 _ (List.mem_map_of_mem hother) _ (List.mem_map_of_mem List.mem_cons_self)
        exact Option.some.inj (hnullifiers.symm.trans hmap)
      obtain ⟨row, hstep, hlog, hplaced⟩ :=
        @LegacyBundle.outputStep_own summary blockTimestamp _ _ _ hbundle _ _ hgroup hown _ hunused
          transactionIndex
      let next : OutputState := { state with
        usedNullifierGroups := groupIndex :: state.usedNullifierGroups
        usesNonSequentialOutputMapping := true
        rows := state.rows ++ [row] }
      have hnext : ∀ index ∈ next.usedNullifierGroups, ∃ other ∈ earlier ++ [call],
          (summary.nullifierGroups[index]?).map (fun group => group.nullifiers)
            = some other.transaction.nullifiers := by
        intro index hindex
        rcases List.mem_cons.mp hindex with rfl | hindex
        · exact ⟨call, List.mem_append_right _ List.mem_cons_self, hmap⟩
        · obtain ⟨other, hother, hnullifiers⟩ := hused index hindex
          exact ⟨other, List.mem_append_left _ hother, hnullifiers⟩
      rw [List.append_cons] at hbundle hstep ⊢
      obtain ⟨after, assigned, rows, hloop, hmatched, hassigned, hrows, hmapped⟩ :=
        ih hbundle hnext (transactionIndex + 1)
      refine ⟨after, groupIndex :: assigned, row :: rows, ?_, .cons hgroup hown hlog hplaced hmatched, ?_,
        ?_, fun _ => hmapped (.inr rfl)⟩
      · rw [List.map_cons, List.zipIdx_cons, List.foldlM_cons, hstep, ok_bind, hloop]
      · rw [hassigned, List.reverse_cons, List.append_assoc, List.singleton_append]
      · rw [hrows, List.append_assoc, List.singleton_append]

theorem LegacyMatched.map_assigned {groups : List NullifierGroup}
    {rows : List IndexedPublicTransaction} (hmatched : LegacyMatched groups calls assigned rows) :
    (assigned.map fun groupIndex => (groups[groupIndex]?).map fun group => group.nullifiers)
      = (calls.map fun call => call.transaction.nullifiers).map some := by
  induction hmatched with
  | nil => rfl
  | cons hgroup hown _ _ _ ih =>
      rw [List.map_cons, List.map_cons, List.map_cons, ih, hgroup, Option.map_some, hown]

theorem LegacyBundle.assigned_perm (hbundle : LegacyBundle summary calls)
    {rows : List IndexedPublicTransaction}
    (hmatched : LegacyMatched summary.nullifierGroups calls assigned rows) :
    assigned.Perm (List.range summary.nullifierGroups.length) := by
  have hmap := hmatched.map_assigned
  have hnodup : assigned.Nodup := by
    apply List.Nodup.of_map
    rw [hmap]
    exact hbundle.nullifiers_nodup.map (Option.some_injective _)
  have hsubset : assigned ⊆ List.range summary.nullifierGroups.length := by
    intro groupIndex hindex
    have hmem := List.mem_map_of_mem (f := fun groupIndex =>
      (summary.nullifierGroups[groupIndex]?).map fun group => group.nullifiers) hindex
    rw [hmap] at hmem
    obtain ⟨nullifiers, -, hsome⟩ := List.mem_map.mp hmem
    obtain ⟨group, hgroup, -⟩ := Option.map_eq_some_iff.mp hsome.symm
    exact List.mem_range.mpr (List.getElem?_eq_some_iff.mp hgroup).1
  have hlength : (List.range summary.nullifierGroups.length).length = assigned.length := by
    have hcount := congrArg List.length hmap
    have hgroups := hbundle.groups_perm.length_eq
    simp only [List.length_map] at hcount hgroups
    rw [List.length_range, hcount, hgroups]
  exact (List.subperm_of_subset hnodup hsubset).perm_of_length_le hlength.le

/-- **Legacy matching finds every call's own outputs.** The loop succeeds, uses each nullifier log for
the one call whose nullifiers it has, and puts each row at its call's first output. -/
theorem publicTransactions_legacy (hbundle : LegacyBundle summary calls) :
    ∃ after assigned rows,
      (calls.map fun call => call.transaction).zipIdx.foldlM (outputStep summary blockTimestamp
          (sortByKey comparableGlobalTreePosition summary.outputCommitments)) {} = .ok after
        ∧ publicTransactionsFromDecoded summary blockTimestamp
          (calls.map fun call => call.transaction) = .ok rows
        ∧ after.usedNullifierGroups = assigned.reverse
        ∧ assigned.Perm (List.range summary.nullifierGroups.length)
        ∧ LegacyMatched summary.nullifierGroups calls assigned rows := by
  obtain ⟨after, assigned, rows, hloop, hmatched, hassigned, hrows, hmapped⟩ :=
    @LegacyBundle.foldlM_outputStep summary blockTimestamp [] calls hbundle {}
      (fun _ hnone => absurd hnone List.not_mem_nil) 0
  rw [List.nil_append] at hloop
  refine ⟨after, assigned, rows, ?_, ?_, ?_, hbundle.assigned_perm hmatched, hmatched⟩
  · rw [hbundle.sorted]
    exact hloop
  · rw [publicTransactionsFromDecoded, hbundle.sorted, hloop, ok_bind, hrows]
    cases calls with
    | nil =>
        cases hloop
        simp [legacyOutputs]
    | cons call calls =>
        rw [hmapped (.inl (List.cons_ne_nil _ _))]
        simp
  · rw [hassigned, List.append_nil]

end Bundle

def legacyCall (nullifiers : List Bytes32) (emitted : List EmittedOutputCommitment)
    (withdraw : Option Bytes32) (hproduces : emitted ≠ [])
    (hfamily : ∀ output ∈ emitted, output.family = .legacyEncrypted) : LegacyCall where
  transaction := ⟨.legacyTransact, nullifiers,
    emitted.map (fun output => output.hash) ++ withdraw.toList, 0, withdraw.isSome, none, 0, 0⟩
  emitted
  withdraw
  callKind_eq := rfl
  commitments_eq := rfl
  hasUnshield_eq := rfl
  produces := hproduces
  family_eq := hfamily

/-- Two calls whose nullifier logs come in the opposite order, each with its outputs after its own. -/
theorem publicTransactions_legacy_swapped :
    let calls := [
      legacyCall [1] [⟨.legacyEncrypted, 6, 0, 65535, 7⟩, ⟨.legacyEncrypted, 6, 1, 0, 8⟩] (some 5)
        (by decide) (by decide),
      legacyCall [2] [⟨.legacyEncrypted, 4, 1, 1, 9⟩] none (by decide) (by decide)]
    let source : IndexedLogSource := ⟨10, none, 0, 0, 6⟩
    let summary : TransactOutputSummary := ⟨source, 3, 6, [⟨.legacyEncrypted, 4, 1, 1, 9⟩,
      ⟨.legacyEncrypted, 6, 0, 65535, 7⟩, ⟨.legacyEncrypted, 6, 1, 0, 8⟩],
      [⟨⟨10, none, 0, 0, 3⟩, [2]⟩, ⟨⟨10, none, 0, 0, 5⟩, [1]⟩]⟩
    LegacyBundle summary calls ∧ ∃ assigned rows,
      publicTransactionsFromDecoded summary 0 (calls.map fun call => call.transaction) = .ok rows
        ∧ assigned.Perm [0, 1] ∧ LegacyMatched summary.nullifierGroups calls assigned rows := by
  intro calls source summary
  have hbundle : LegacyBundle summary calls :=
    { nullifiers_nodup := by decide
      groups_perm := by decide
      groups_ordered := by decide
      outputs_perm := by decide
      consecutive := ⟨65535, by decide +kernel⟩
      inTree := by decide
      logged := .inr (by unfold InSegment; decide)
      hashes_nodup := by decide
      withdraw_free := by decide }
  obtain ⟨after, assigned, rows, -, hok, -, hperm, hmatched⟩ :=
    @publicTransactions_legacy summary 0 calls hbundle
  exact ⟨hbundle, assigned, rows, hok, hperm, hmatched⟩

end RailgunIndexer
