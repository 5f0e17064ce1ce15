import RailgunIndexer.OutputMatch
import RailgunIndexer.Proof.ActionFrame
import RailgunIndexer.Proof.Ingest

/-!
# Output positions of a Railgun call

The outputs of a call's `Transact` log sit at consecutive global positions. Matching walks a cursor
over them by hash equality, so a row gets its own position exactly when the cursor is where the
earlier configurations end. The only way to lose the cursor is an unshield commitment whose hash is
the next emitted hash.
-/

namespace RailgunIndexer

open Lib Lib.Fallible

/-- A transaction of a Railgun call: the outputs it has in the call's `Transact` log and its unshield
commitment, at least one of the two. -/
structure CallTransaction where
  transaction : DecodedRailgunTransaction
  outputs : List Bytes32
  unshield : Option Bytes32
  callKind_eq : transaction.callKind = .actionLogs
  commitments_eq : transaction.commitments = outputs ++ unshield.toList
  hasUnshield_eq : transaction.hasUnshield = unshield.isSome
  produces : outputs ≠ [] ∨ unshield.isSome = true

def callHashes (calls : List CallTransaction) : List Bytes32 :=
  calls.flatMap fun call => call.outputs

structure Placed (start : Nat) (hashes : List Bytes32)
    (emittedOutputs : List EmittedOutputCommitment) : Prop where
  hashes_eq : emittedOutputs.map (fun emitted => emitted.hash) = hashes
  global_eq : ∀ (index : Nat) (emitted : EmittedOutputCommitment),
    emittedOutputs[index]? = some emitted → emitted.global = .ok (start + index)
  family_eq : ∀ emitted ∈ emittedOutputs, emitted.family = .transact
  bound : ∀ index, index < emittedOutputs.length → start + index < positionBound

def OwnPositions : Nat → List CallTransaction → List IndexedPublicTransaction → Prop
  | _, [], [] => True
  | position, call :: calls, row :: rows =>
      (call.outputs ≠ [] → row.utxoTreeOut = position / treeLeafCount
        ∧ row.utxoBatchStartPositionOut = position % treeLeafCount)
      ∧ OwnPositions (position + call.outputs.length) calls rows
  | _, _, _ => False

/-- No unshield commitment is the hash of the output that follows its configuration. -/
def NoUnshieldMatches : List CallTransaction → Prop
  | [] => True
  | call :: calls => (∀ unshield, call.unshield = some unshield →
      (callHashes calls).head? ≠ some unshield) ∧ NoUnshieldMatches calls

def EndsWithoutOutputs (calls : List CallTransaction) : Prop :=
  ∃ call, calls.getLast? = some call ∧ call.outputs = []

section Walk

variable {start : Nat} {hashes : List Bytes32} {emittedOutputs : List EmittedOutputCommitment}
  {tail : List Bytes32} {found : OutputMatch}

theorem filter_legacyGenerated_eq_none
    (hfamily : ∀ emitted ∈ emittedOutputs, emitted.family ≠ .legacyGenerated) (index : Nat)
    (hasUnshield : Bool) :
    ((emittedOutputs[index]?).filter fun emitted =>
      hasUnshield && emitted.family == .legacyGenerated) = none := by
  rw [Option.filter_eq_none_iff]
  intro emitted hemitted
  simp [hfamily emitted (List.mem_of_getElem? hemitted)]

section

variable (hplaced : Placed start hashes emittedOutputs)

include hplaced

theorem Placed.getElem?_hash (index : Nat) :
    (emittedOutputs[index]?).map (fun emitted => emitted.hash) = hashes[index]? := by
  rw [← hplaced.hashes_eq, List.getElem?_map]

theorem Placed.length_eq : emittedOutputs.length = hashes.length := by
  rw [← hplaced.hashes_eq, List.length_map]

theorem matchCommitments_append (outputs more tail : List Bytes32) (cursor : OutputCursor)
    (hdrop : hashes.drop cursor.index = outputs ++ tail) :
    ∃ lastLogIndex, matchCommitments emittedOutputs cursor (outputs ++ more)
      = matchCommitments emittedOutputs
        ⟨cursor.index + outputs.length,
          if outputs = [] then cursor.outputStart
          else some (cursor.outputStart.getD (start + cursor.index)), lastLogIndex⟩ more := by
  induction outputs generalizing cursor with
  | nil => exact ⟨cursor.lastLogIndex, by simp⟩
  | cons output rest ih =>
      have hhash : hashes[cursor.index]? = some output := by
        have hhead := congrArg List.head? hdrop
        simpa [List.head?_drop] using hhead
      obtain ⟨emitted, hemitted, houtput⟩ :=
        Option.map_eq_some_iff.mp ((hplaced.getElem?_hash cursor.index).trans hhash)
      have hglobal := hplaced.global_eq cursor.index emitted hemitted
      have hnext : hashes.drop (cursor.index + 1) = rest ++ tail := by
        rw [← List.drop_drop, hdrop]
        rfl
      obtain ⟨last, hrest⟩ := ih ⟨cursor.index + 1,
        some (cursor.outputStart.getD (start + cursor.index)), some emitted.logIndex⟩ hnext
      refine ⟨last, ?_⟩
      have hstep : matchCommitments emittedOutputs cursor (output :: rest ++ more)
          = matchCommitments emittedOutputs ⟨cursor.index + 1,
            some (cursor.outputStart.getD (start + cursor.index)), some emitted.logIndex⟩
            (rest ++ more) := by
        rw [List.cons_append, matchCommitments]
        simp only [hemitted, houtput, if_true]
        cases cursor.outputStart with
        | none => simp [hglobal]
        | some found => simp
      rw [hstep, hrest]
      simp [Nat.add_assoc, Nat.add_comm 1]

theorem matchCommitments_bounds {commitments : List Bytes32} {cursor after : OutputCursor}
    (hwalk : matchCommitments emittedOutputs cursor commitments = .ok after) :
    cursor.index ≤ after.index
      ∧ ∀ position, after.outputStart = some position → cursor.outputStart = some position
        ∨ start + cursor.index ≤ position := by
  induction commitments generalizing cursor with
  | nil =>
      cases hwalk
      exact ⟨le_rfl, fun position hposition => .inl hposition⟩
  | cons commitment rest ih =>
      rw [matchCommitments] at hwalk
      cases hemitted : emittedOutputs[cursor.index]? with
      | none =>
          simp only [hemitted, Except.ok.injEq] at hwalk
          subst hwalk
          exact ⟨le_rfl, fun position hposition => .inl hposition⟩
      | some emitted =>
          have hglobal := hplaced.global_eq cursor.index emitted hemitted
          simp only [hemitted] at hwalk
          split_ifs at hwalk with hhash
          · cases hstart : cursor.outputStart with
            | none =>
                simp only [hstart, hglobal, ok_bind] at hwalk
                obtain ⟨hindex, hpositions⟩ := ih hwalk
                refine ⟨Nat.le_of_succ_le hindex, fun position hposition => .inr ?_⟩
                rcases hpositions position hposition with hfound | hlater
                · exact (Option.some.inj hfound).le
                · exact Nat.le_of_succ_le hlater
            | some found =>
                simp only [hstart, ok_bind] at hwalk
                obtain ⟨hindex, hpositions⟩ := ih hwalk
                refine ⟨Nat.le_of_succ_le hindex, fun position hposition => ?_⟩
                rcases hpositions position hposition with hfound | hlater
                · exact .inl hfound
                · exact .inr (Nat.le_of_succ_le hlater)
          · exact ih hwalk

theorem Placed.no_legacyGenerated : ∀ emitted ∈ emittedOutputs, emitted.family ≠ .legacyGenerated := by
  intro emitted hmem
  rw [hplaced.family_eq emitted hmem]
  decide

theorem matchCommitments_unshield (cursor : OutputCursor) (unshield : Option Bytes32)
    (hfree : ∀ commitment, unshield = some commitment →
      hashes[cursor.index]? ≠ some commitment) :
    matchCommitments emittedOutputs cursor unshield.toList = .ok cursor := by
  cases unshield with
  | none => rfl
  | some commitment =>
      have hhash := hplaced.getElem?_hash cursor.index
      rw [Option.toList_some, matchCommitments]
      cases hemitted : emittedOutputs[cursor.index]? with
      | none => rfl
      | some emitted =>
          have hne : emitted.hash ≠ commitment := by
            intro heq
            apply hfree commitment rfl
            rw [← hhash, hemitted, Option.map_some, heq]
          simp only [if_neg hne]
          rfl

end

variable {summary : TransactOutputSummary} {index transactionIndex : Nat}

theorem matchedModernUnshieldOnly_placed (hplaced : Placed start hashes emittedOutputs)
    (hne : emittedOutputs ≠ []) (hindex : index ≤ emittedOutputs.length) :
    ∃ lastLogIndex, matchedModernUnshieldOnlyOutputStartGlobal summary emittedOutputs index
      transactionIndex = .ok ⟨start + index, lastLogIndex⟩ := by
  unfold matchedModernUnshieldOnlyOutputStartGlobal
  cases hemitted : emittedOutputs[index]? with
  | some emitted =>
      refine ⟨emitted.logIndex, ?_⟩
      simp [hplaced.global_eq index emitted hemitted]
  | none =>
      have hpos : 0 < emittedOutputs.length := List.length_pos_iff.mpr hne
      have hend : index = emittedOutputs.length := by
        have hge := List.getElem?_eq_none_iff.mp hemitted
        omega
      have hprevious : emittedOutputs[index - 1]? = some (emittedOutputs.getLast hne) := by
        rw [hend, ← List.getLast?_eq_getElem?, List.getLast?_eq_some_getLast hne]
      have hglobal := hplaced.global_eq (index - 1) _ hprevious
      have hbound := hplaced.bound (index - 1) (by omega)
      have hwide : positionBound < u64Bound := by decide
      have hsucc : start + (index - 1) + 1 = start + index := by omega
      refine ⟨(emittedOutputs.getLast hne).logIndex, ?_⟩
      rw [if_neg (by simpa using hne)]
      simp only [if_neg (show ¬ index = 0 by omega), hprevious, hglobal, ok_bind, hsucc]
      rw [if_neg (by omega)]
      rfl

theorem CallTransaction.isModernUnshieldOnly_iff (call : CallTransaction) :
    isModernUnshieldOnly call.transaction = true ↔ call.outputs = [] := by
  have hproduces := call.produces
  simp only [isModernUnshieldOnly, call.callKind_eq, call.hasUnshield_eq, call.commitments_eq]
  cases hunshield : call.unshield with
  | none => simpa [hunshield] using hproduces
  | some commitment => simp

section

variable (hplaced : Placed start hashes emittedOutputs)

include hplaced

theorem matchedOutputStartGlobal_of_free
    (hne : emittedOutputs ≠ []) (hindex : index ≤ emittedOutputs.length) (call : CallTransaction)
    (hdrop : hashes.drop index = call.outputs ++ tail)
    (hfree : ∀ commitment, call.unshield = some commitment → tail.head? ≠ some commitment) :
    ∃ lastLogIndex, matchedOutputStartGlobal summary emittedOutputs index call.transaction
      transactionIndex = .ok (⟨start + index, lastLogIndex⟩, index + call.outputs.length) := by
  obtain ⟨last, hwalk⟩ := matchCommitments_append hplaced call.outputs call.unshield.toList tail
    { index := index } hdrop
  have hnext : hashes[index + call.outputs.length]? = tail.head? := by
    rw [← List.head?_drop, ← List.drop_drop, hdrop, List.drop_left]
  rw [matchCommitments_unshield hplaced _ _ fun commitment hsome =>
    hnext ▸ hfree commitment hsome] at hwalk
  rw [matchedOutputStartGlobal, call.commitments_eq, hwalk, ok_bind,
    filter_legacyGenerated_eq_none hplaced.no_legacyGenerated]
  by_cases hempty : call.outputs = []
  · obtain ⟨found, hfound⟩ : ∃ lastLogIndex, matchedModernUnshieldOnlyOutputStartGlobal summary
        emittedOutputs index transactionIndex = .ok ⟨start + index, lastLogIndex⟩ :=
      matchedModernUnshieldOnly_placed hplaced hne hindex
    refine ⟨found, ?_⟩
    simp [hempty, call.isModernUnshieldOnly_iff.mpr hempty, hfound]
  · refine ⟨last.getD summary.firstLogIndex, ?_⟩
    simp [hempty]

theorem matchedOutputStartGlobal_of_match
    (call : CallTransaction) {unshield : Bytes32} (hunshield : call.unshield = some unshield)
    (hdrop : hashes.drop index = call.outputs ++ unshield :: tail) {next : Nat}
    (hmatch : matchedOutputStartGlobal summary emittedOutputs index call.transaction
      transactionIndex = .ok (found, next)) :
    next = index + call.outputs.length + 1 := by
  have hsplit : hashes.drop index = (call.outputs ++ [unshield]) ++ tail := by
    rw [hdrop, List.append_assoc]
    rfl
  obtain ⟨last, hwalk⟩ := matchCommitments_append hplaced (call.outputs ++ [unshield]) [] tail
    { index := index } hsplit
  have hcommitments : call.transaction.commitments = call.outputs ++ [unshield] ++ [] := by
    rw [call.commitments_eq, hunshield, List.append_nil]
    rfl
  rw [matchedOutputStartGlobal, hcommitments, hwalk, matchCommitments, ok_bind,
    filter_legacyGenerated_eq_none hplaced.no_legacyGenerated] at hmatch
  simp only [List.append_eq_nil_iff, List.cons_ne_nil, and_false, if_false, pure_eq_ok,
    Except.ok.injEq, Prod.mk.injEq] at hmatch
  rw [← hmatch.2, List.length_append]
  rfl

theorem matchedOutputStartGlobal_bounds (call : CallTransaction) {next : Nat}
    (hmatch : matchedOutputStartGlobal summary emittedOutputs index call.transaction
      transactionIndex = .ok (found, next)) :
    index ≤ next ∧ (call.outputs ≠ [] → start + index ≤ found.outputStart) := by
  obtain ⟨cursor, hwalk, hmatch⟩ := bind_eq_ok.mp hmatch
  obtain ⟨hle, hpositions⟩ := matchCommitments_bounds hplaced hwalk
  rw [filter_legacyGenerated_eq_none hplaced.no_legacyGenerated] at hmatch
  cases hstart : cursor.outputStart with
  | some position =>
      simp only [hstart, pure_eq_ok, Except.ok.injEq, Prod.mk.injEq] at hmatch
      obtain ⟨rfl, rfl⟩ := hmatch
      refine ⟨hle, fun _ => ?_⟩
      rcases hpositions position hstart with hnone | hge
      · cases hnone
      · exact hge
  | none =>
      simp only [hstart] at hmatch
      split_ifs at hmatch with honly
      obtain ⟨modern, -, hresult⟩ := bind_eq_ok.mp hmatch
      obtain ⟨-, rfl⟩ := hresult
      exact ⟨hle, fun hnonempty => absurd (call.isModernUnshieldOnly_iff.mp honly) hnonempty⟩

end

end Walk

/-! ### All transactions of a call -/

def walkCalls (summary : TransactOutputSummary) (blockTimestamp : Nat)
    (emittedOutputs : List EmittedOutputCommitment) :
    Nat → Nat → List CallTransaction →
      Except ChainLogIngestionError (List IndexedPublicTransaction × Nat)
  | emittedIndex, _, [] => .ok ([], emittedIndex)
  | emittedIndex, transactionIndex, call :: calls => do
      let (found, next) ← matchedOutputStartGlobal summary emittedOutputs emittedIndex
        call.transaction transactionIndex
      let position ← rowPosition emittedOutputs call.transaction found.outputStart
      let (rows, last) ← walkCalls summary blockTimestamp emittedOutputs next
        (transactionIndex + 1) calls
      pure (publicTransactionRow summary blockTimestamp call.transaction transactionIndex
        summary.firstLogIndex summary.lastLogIndex position :: rows, last)

section Calls

variable {summary : TransactOutputSummary} {blockTimestamp : Nat}
  {emittedOutputs : List EmittedOutputCommitment} {emittedIndex last transactionIndex : Nat}
  {call : CallTransaction} {calls : List CallTransaction}
  {rows : List IndexedPublicTransaction}

theorem outputStep_call (call : CallTransaction) (state : OutputState) (transactionIndex : Nat) :
    outputStep summary blockTimestamp emittedOutputs state (call.transaction, transactionIndex)
      = (do
        let (found, next) ← matchedOutputStartGlobal summary emittedOutputs state.emittedIndex
          call.transaction transactionIndex
        let position ← rowPosition emittedOutputs call.transaction found.outputStart
        pure { state with
          emittedIndex := next
          rows := state.rows ++ [publicTransactionRow summary blockTimestamp call.transaction
            transactionIndex summary.firstLogIndex summary.lastLogIndex position] }) := by
  simp only [outputStep, matchTransaction, call.callKind_eq]
  cases matchedOutputStartGlobal summary emittedOutputs state.emittedIndex call.transaction
    transactionIndex <;> rfl

theorem foldlM_outputStep_calls (calls : List CallTransaction) (state : OutputState)
    (transactionIndex : Nat) :
    ((calls.map fun call => call.transaction).zipIdx transactionIndex).foldlM
        (outputStep summary blockTimestamp emittedOutputs) state
      = (walkCalls summary blockTimestamp emittedOutputs state.emittedIndex transactionIndex
          calls).map fun result =>
        { state with emittedIndex := result.2, rows := state.rows ++ result.1 } := by
  induction calls generalizing state transactionIndex with
  | nil => simp [walkCalls, Except.map]
  | cons call calls ih =>
      rw [List.map_cons, List.zipIdx_cons, List.foldlM_cons, outputStep_call, walkCalls]
      cases hmatch : matchedOutputStartGlobal summary emittedOutputs state.emittedIndex
          call.transaction transactionIndex with
      | error error => rfl
      | ok result =>
          obtain ⟨found, next⟩ := result
          simp only [ok_bind]
          cases hposition : rowPosition emittedOutputs call.transaction found.outputStart with
          | error error => rfl
          | ok position =>
              simp only [ok_bind, pure_eq_ok, ih]
              cases walkCalls summary blockTimestamp emittedOutputs next (transactionIndex + 1)
                calls with
              | error error => rfl
              | ok rest => simp [Except.map]

theorem publicTransactionsFromDecoded_calls (calls : List CallTransaction) :
    publicTransactionsFromDecoded summary blockTimestamp (calls.map fun call => call.transaction)
      = (do
        let emittedOutputs := sortByKey comparableGlobalTreePosition summary.outputCommitments
        let (rows, last) ← walkCalls summary blockTimestamp emittedOutputs 0 0 calls
        if last = emittedOutputs.length then
          pure rows
        else
          .error (.unmatchedEmittedOutputCommitments summary.source.transactionHash
            summary.source.blockNumber last emittedOutputs.length)) := by
  have hlegacy : ((calls.map fun call => call.transaction).any fun transaction =>
      transaction.callKind == .legacyTransact && !summary.nullifierGroups.isEmpty) = false := by
    simp [List.any_eq_false, CallTransaction.callKind_eq]
  simp only [publicTransactionsFromDecoded, hlegacy, foldlM_outputStep_calls]
  cases walkCalls summary blockTimestamp
      (sortByKey comparableGlobalTreePosition summary.outputCommitments) 0 0 calls with
  | error error => rfl
  | ok result =>
      obtain ⟨rows, last⟩ := result
      by_cases hlast : last = (sortByKey comparableGlobalTreePosition
          summary.outputCommitments).length <;> simp [Except.map, hlast]

theorem walkCalls_cons_eq_ok
    (hwalk : walkCalls summary blockTimestamp emittedOutputs emittedIndex transactionIndex (call
      :: calls) = .ok (rows, last)) :
    ∃ found next position tail,
      matchedOutputStartGlobal summary emittedOutputs emittedIndex call.transaction transactionIndex
        = .ok (found, next)
      ∧ rowPosition emittedOutputs call.transaction found.outputStart = .ok position
      ∧ walkCalls summary blockTimestamp emittedOutputs next (transactionIndex + 1) calls
        = .ok (tail, last)
      ∧ rows = publicTransactionRow summary blockTimestamp call.transaction transactionIndex
        summary.firstLogIndex summary.lastLogIndex position :: tail := by
  obtain ⟨⟨found, next⟩, hmatch, hwalk⟩ := bind_eq_ok.mp hwalk
  obtain ⟨position, hposition, hwalk⟩ := bind_eq_ok.mp hwalk
  obtain ⟨⟨tail, final⟩, htail, hresult⟩ := bind_eq_ok.mp hwalk
  obtain ⟨rfl, rfl⟩ := hresult
  exact ⟨found, next, position, tail, hmatch, hposition, htail, rfl⟩

theorem rowPosition_of_ne_nil (hne : emittedOutputs ≠ [])
    (transaction : DecodedRailgunTransaction) (outputStart : Nat) :
    rowPosition emittedOutputs transaction outputStart = normalizedGlobalPosition outputStart := by
  rw [rowPosition, if_neg]
  simp [hne]

variable {start : Nat} {hashes : List Bytes32}

theorem not_ownPositions_of_ahead (hplaced : Placed start hashes emittedOutputs)
    (hne : emittedOutputs ≠ []) (houtputs : callHashes calls ≠ []) {position : Nat}
    (hahead : position < start + emittedIndex)
    (hwalk : walkCalls summary blockTimestamp emittedOutputs emittedIndex transactionIndex calls =
      .ok (rows, last)) : ¬ OwnPositions position calls rows := by
  induction calls generalizing emittedIndex transactionIndex rows with
  | nil => exact absurd rfl houtputs
  | cons call calls ih =>
      obtain ⟨found, next, place, tail, hmatch, hplace, htail, rfl⟩ := walkCalls_cons_eq_ok hwalk
      obtain ⟨hle, hstart⟩ := matchedOutputStartGlobal_bounds hplaced call hmatch
      rintro ⟨hown, hrest⟩
      by_cases hempty : call.outputs = []
      · rw [hempty, List.length_nil, Nat.add_zero] at hrest
        have hcalls : callHashes calls ≠ [] := by
          simpa [callHashes, hempty] using houtputs
        exact ih hcalls (by omega) htail hrest
      · rw [rowPosition_of_ne_nil hne] at hplace
        obtain ⟨-, rfl⟩ := normalizedGlobalPosition_eq_ok hplace
        obtain ⟨htree, hposition⟩ := hown hempty
        have hfound := Nat.div_add_mod found.outputStart treeLeafCount
        have hwanted := Nat.div_add_mod position treeLeafCount
        simp only [publicTransactionRow] at htree hposition
        rw [htree, hposition] at hfound
        have hge := hstart hempty
        omega

theorem endsWithoutOutputs_of_no_hashes (hcalls : calls ≠ []) (hhashes : callHashes calls = []) :
    EndsWithoutOutputs calls := by
  refine ⟨calls.getLast hcalls, List.getLast?_eq_some_getLast hcalls, ?_⟩
  exact List.flatMap_eq_nil_iff.mp hhashes _ (List.getLast_mem hcalls)

theorem endsWithoutOutputs_cons (hcalls : calls ≠ []) :
    EndsWithoutOutputs (call :: calls) ↔ EndsWithoutOutputs calls := by
  rw [EndsWithoutOutputs, EndsWithoutOutputs, List.getLast?_cons_of_ne_nil hcalls]

theorem endsWithoutOutputs_cons_of_room {length : Nat}
    (hplace : start + emittedIndex < positionBound)
    (hlength : length - emittedIndex = call.outputs.length + (callHashes calls).length) :
    (start + length = positionBound ∧ EndsWithoutOutputs (call :: calls))
      ↔ start + length = positionBound ∧ EndsWithoutOutputs calls := by
  by_cases hcalls : calls = []
  · subst hcalls
    simp only [EndsWithoutOutputs, List.getLast?_singleton, List.getLast?_nil, Option.some.injEq,
      exists_eq_left', reduceCtorEq, false_and, exists_false, and_false, iff_false, not_and]
    intro hfull hempty
    simp only [hempty, callHashes, List.flatMap_nil, List.length_nil] at hlength
    omega
  · rw [endsWithoutOutputs_cons hcalls]

theorem walkCalls_cons_of_place (hne : emittedOutputs ≠ []) {lastLogIndex : Nat}
    (hmatch : matchedOutputStartGlobal summary emittedOutputs emittedIndex call.transaction
      transactionIndex = .ok (⟨start + emittedIndex, lastLogIndex⟩, emittedIndex +
      call.outputs.length)) (hplace : start + emittedIndex < positionBound) :
    (∃ rows, walkCalls summary blockTimestamp emittedOutputs emittedIndex transactionIndex
        (call :: calls) = .ok (rows, last)
        ∧ OwnPositions (start + emittedIndex) (call :: calls) rows)
      ↔ ∃ rows, walkCalls summary blockTimestamp emittedOutputs
          (emittedIndex + call.outputs.length) (transactionIndex + 1) calls = .ok (rows, last)
        ∧ OwnPositions (start + (emittedIndex + call.outputs.length)) calls rows := by
  rw [← Nat.add_assoc]
  constructor
  · rintro ⟨rows, hwalk, hown⟩
    obtain ⟨found, next, place, tail, hfound, -, hrest, rfl⟩ := walkCalls_cons_eq_ok hwalk
    rw [hmatch, Except.ok.injEq, Prod.mk.injEq] at hfound
    obtain ⟨rfl, rfl⟩ := hfound
    exact ⟨tail, hrest, hown.2⟩
  · rintro ⟨tail, hrest, hown⟩
    refine ⟨publicTransactionRow summary blockTimestamp call.transaction transactionIndex
      summary.firstLogIndex summary.lastLogIndex
      ((start + emittedIndex) / treeLeafCount, (start + emittedIndex) % treeLeafCount)
      :: tail, ?_, fun _ => ⟨rfl, rfl⟩, hown⟩
    simp only [walkCalls, hmatch, ok_bind, rowPosition_of_ne_nil hne,
      normalizedGlobalPosition_of_lt hplace, hrest, pure_eq_ok]

theorem walkCalls_cons_past_bound (hne : emittedOutputs ≠ []) {next : Nat} {found : OutputMatch}
    (hmatch : matchedOutputStartGlobal summary emittedOutputs emittedIndex call.transaction
      transactionIndex = .ok (found, next)) (hplace : ¬ found.outputStart < positionBound) :
    walkCalls summary blockTimestamp emittedOutputs emittedIndex transactionIndex (call :: calls)
      ≠ .ok (rows, last) := by
  intro hwalk
  obtain ⟨_, _, place, tail, hfound, hposition, -, -⟩ := walkCalls_cons_eq_ok hwalk
  rw [hmatch, Except.ok.injEq, Prod.mk.injEq] at hfound
  obtain ⟨rfl, -⟩ := hfound
  rw [rowPosition_of_ne_nil hne] at hposition
  exact hplace (normalizedGlobalPosition_eq_ok hposition).1

theorem not_ownPositions_of_match (hplaced : Placed start hashes emittedOutputs)
    (hne : emittedOutputs ≠ []) {unshield : Bytes32}
    (hdrop : hashes.drop emittedIndex = call.outputs ++ callHashes calls)
    (hunshield : call.unshield = some unshield) (hhead : (callHashes calls).head? = some unshield)
    (hwalk : walkCalls summary blockTimestamp emittedOutputs emittedIndex transactionIndex (call
      :: calls) = .ok (rows, last)) :
    ¬ OwnPositions (start + emittedIndex) (call :: calls) rows := by
  obtain ⟨tail, htail⟩ := List.head?_eq_some_iff.mp hhead
  obtain ⟨found, next, place, rest, hfound, -, hrest, rfl⟩ := walkCalls_cons_eq_ok hwalk
  have hnext := matchedOutputStartGlobal_of_match hplaced call hunshield (htail ▸ hdrop) hfound
  intro hown
  refine absurd hown.2 (not_ownPositions_of_ahead hplaced hne ?_ ?_ hrest)
  · rw [htail]
    exact List.cons_ne_nil _ _
  · omega

/-- With the cursor right, the calls get their own positions exactly when no unshield commitment is
the next emitted hash and no call ends past the last position. -/
theorem walkCalls_iff (hplaced : Placed start hashes emittedOutputs) (hne : emittedOutputs ≠ [])
    (calls : List CallTransaction) {emittedIndex : Nat} (transactionIndex : Nat)
    (hindex : emittedIndex ≤ hashes.length) (hdrop : hashes.drop emittedIndex = callHashes calls) :
    (∃ rows, walkCalls summary blockTimestamp emittedOutputs emittedIndex transactionIndex calls
        = .ok (rows, hashes.length) ∧ OwnPositions (start + emittedIndex) calls rows)
      ↔ NoUnshieldMatches calls
        ∧ ¬ (start + hashes.length = positionBound ∧ EndsWithoutOutputs calls) := by
  induction calls generalizing emittedIndex transactionIndex with
  | nil =>
      have hend : emittedIndex = hashes.length := by
        have hge := List.drop_eq_nil_iff.mp hdrop
        omega
      subst hend
      refine ⟨fun _ => ⟨trivial, fun hcontra => ?_⟩, fun _ => ⟨[], rfl, trivial⟩⟩
      obtain ⟨-, call, hlast, -⟩ := hcontra
      cases hlast
  | cons call calls ih =>
      have hcons : hashes.drop emittedIndex = call.outputs ++ callHashes calls := hdrop
      have hlength := congrArg List.length hcons
      rw [List.length_drop, List.length_append] at hlength
      have hemitted := hplaced.length_eq
      by_cases hfree : ∀ unshield, call.unshield = some unshield →
          (callHashes calls).head? ≠ some unshield
      · obtain ⟨lastLogIndex, hmatch⟩ : ∃ lastLogIndex, matchedOutputStartGlobal summary
            emittedOutputs emittedIndex call.transaction transactionIndex
            = .ok (⟨start + emittedIndex, lastLogIndex⟩, emittedIndex + call.outputs.length) :=
          matchedOutputStartGlobal_of_free hplaced hne (by omega) call hcons hfree
        by_cases hplace : start + emittedIndex < positionBound
        · have hnextDrop : hashes.drop (emittedIndex + call.outputs.length) = callHashes calls := by
            rw [← List.drop_drop, hcons, List.drop_left]
          rw [walkCalls_cons_of_place hne hmatch hplace,
            ih (transactionIndex + 1) (by omega) hnextDrop,
            endsWithoutOutputs_cons_of_room hplace hlength, NoUnshieldMatches, and_assoc]
          exact (and_iff_right hfree).symm
        · have hpos : 0 < emittedOutputs.length := List.length_pos_iff.mpr hne
          have hbound := hplaced.bound (emittedOutputs.length - 1) (by omega)
          have hend : emittedIndex = hashes.length := by
            by_contra hlt
            exact hplace (hplaced.bound emittedIndex (by omega))
          constructor
          · rintro ⟨rows, hwalk, -⟩
            exact absurd hwalk (walkCalls_cons_past_bound hne hmatch hplace)
          · rintro ⟨-, hover⟩
            refine absurd ⟨by omega, endsWithoutOutputs_of_no_hashes (List.cons_ne_nil _ _) ?_⟩ hover
            rw [← hdrop, hend, List.drop_length]
      · simp only [not_forall, not_not] at hfree
        obtain ⟨unshield, hunshield, hhead⟩ := hfree
        constructor
        · rintro ⟨rows, hwalk, hown⟩
          exact absurd hown (not_ownPositions_of_match hplaced hne hcons hunshield hhead hwalk)
        · rintro ⟨hno, -⟩
          exact absurd hhead (hno.1 unshield hunshield)

theorem walkCalls_of_no_hashes {calls : List CallTransaction} (hhashes : callHashes calls = [])
    (position emittedIndex transactionIndex : Nat) :
    ∃ rows, walkCalls summary blockTimestamp [] emittedIndex transactionIndex calls
        = .ok (rows, emittedIndex) ∧ OwnPositions position calls rows := by
  induction calls generalizing position transactionIndex with
  | nil => exact ⟨[], rfl, trivial⟩
  | cons call calls ih =>
      obtain ⟨hempty, hrest⟩ := List.append_eq_nil_iff.mp
        (show call.outputs ++ callHashes calls = [] from hhashes)
      obtain ⟨rows, hwalk, hown⟩ := ih hrest (position + call.outputs.length) (transactionIndex + 1)
      have honly := call.isModernUnshieldOnly_iff.mpr hempty
      have hcursor : ∀ commitments, matchCommitments [] { index := emittedIndex } commitments
          = .ok { index := emittedIndex } := by
        intro commitments
        cases commitments <;> rfl
      refine ⟨publicTransactionRow summary blockTimestamp call.transaction transactionIndex
        summary.firstLogIndex summary.lastLogIndex
        (modernUnshieldOnlyUtxoTree, modernUnshieldOnlyUtxoPosition) :: rows, ?_,
        fun hne => absurd hempty hne, hown⟩
      simp [walkCalls, matchedOutputStartGlobal, hcursor, honly,
        matchedModernUnshieldOnlyOutputStartGlobal, rowPosition, hwalk]

theorem noUnshieldMatches_of_no_hashes (hhashes : callHashes calls = []) :
    NoUnshieldMatches calls := by
  induction calls with
  | nil => trivial
  | cons call calls ih =>
      have hrest := (List.append_eq_nil_iff.mp
        (show call.outputs ++ callHashes calls = [] from hhashes)).2
      exact ⟨by simp [hrest], ih hrest⟩

end Calls

/-! ### The transactions the parser makes of a call -/

section Parsed

variable {contracts : Contracts} {source : IndexedLogSource} {logIndex : Nat}
  {hashes : List Bytes32} {transactions : List (Nat × DecodedRailgunTransaction)}

theorem exists_callTransactions_of_configs {frameLogIndex recordIndex offset used : Nat}
    {unshields : List Unshield} {items : List (TXConfig × Nat × List Bytes32)}
    (hproduces : ∀ item ∈ items, 0 < item.1.commitmentsCount ∨ item.1.hasUnshield = true)
    (hrun : transactionsFromConfigs contracts source frameLogIndex logIndex hashes recordIndex
      offset unshields items = .ok (transactions, used)) :
    ∃ calls : List CallTransaction,
      calls.map (fun call => call.transaction) = transactions.map Prod.snd
      ∧ hashes.drop offset = callHashes calls ++ hashes.drop used := by
  induction items generalizing recordIndex offset unshields transactions with
  | nil =>
      cases hrun
      exact ⟨[], rfl, rfl⟩
  | cons item rest ih =>
      obtain ⟨config, treeNumber, nullifiers⟩ := item
      obtain ⟨outputs, derived, unused, tail, houtputs, hderived, htail, rfl⟩ :=
        transactionsFromConfigs_cons_eq_ok_iff.mp hrun
      obtain ⟨-, hlength, houtputs⟩ := takeCommitments_eq_ok_iff.mp houtputs
      obtain ⟨hfirst, hrest⟩ := List.forall_mem_cons.mp hproduces
      obtain ⟨calls, hcalls, hdrop⟩ := ih hrest htail
      have hsome : (derived.map Prod.fst).isSome = config.hasUnshield := by
        rw [Option.isSome_map]
        exact isSome_of_takeUnshield hderived
      have houtputsLength : outputs.length = config.commitmentsCount := by
        rw [houtputs, List.length_take, List.length_drop]
        omega
      let call : CallTransaction :=
        { transaction := transactionFromConfig contracts config treeNumber nullifiers outputs derived
          outputs := outputs
          unshield := derived.map Prod.fst
          callKind_eq := rfl
          commitments_eq := rfl
          hasUnshield_eq := hsome.symm
          produces := by
            rw [hsome, ← List.length_pos_iff, houtputsLength]
            exact hfirst }
      refine ⟨call :: calls, congrArg (_ :: ·) hcalls, ?_⟩
      change _ = (outputs ++ callHashes calls) ++ _
      rw [List.append_assoc, ← hdrop, ← List.drop_drop, houtputs, List.take_append_drop]

/-- **A parsed call uses the hashes of its `Transact` log in order**, each for one transaction, when
every configuration has an output or an unshield. -/
theorem exists_callTransactions {frame : ActionFrame}
    (hproduces : ∀ config ∈ frame.configs, 0 < config.commitmentsCount ∨ config.hasUnshield = true)
    (hrun : transactionsFromActionFrame contracts source frame hashes logIndex = .ok transactions) :
    ∃ calls : List CallTransaction,
      calls.map (fun call => call.transaction) = transactions.map Prod.snd
      ∧ callHashes calls = hashes := by
  obtain ⟨-, hconfigs⟩ := transactionsFromActionFrame_eq_ok_iff.mp hrun
  obtain ⟨calls, hcalls, hdrop⟩ := exists_callTransactions_of_configs
    (fun item hitem => hproduces item.1 (List.of_mem_zip hitem).1) hconfigs
  refine ⟨calls, hcalls, ?_⟩
  rwa [List.drop_zero, List.drop_length, List.append_nil, eq_comm] at hdrop

theorem exists_callTransactions_two :
    let unshield : Unshield := ⟨11, ⟨0, 4, 0⟩, 70, 1⟩
    let frame : ActionFrame :=
      ⟨2, 0, [⟨1, 2, false, 5⟩, ⟨1, 1, true, 6⟩], [(0, [16]), (1, [17])], [unshield], true⟩
    ∃ transactions, transactionsFromActionFrame toyContracts ⟨10, none, 0, 0, 3⟩ frame [7, 8, 9] 3
        = .ok transactions
      ∧ transactions.map (fun transaction => transaction.2.commitments) = [[7, 8], [9, 11]]
      ∧ ∃ calls : List CallTransaction,
        calls.map (fun call => call.transaction) = transactions.map Prod.snd
        ∧ callHashes calls = [7, 8, 9] :=
  ⟨_, rfl, rfl, @exists_callTransactions toyContracts ⟨10, none, 0, 0, 3⟩ 3 [7, 8, 9] _
    ⟨2, 0, [⟨1, 2, false, 5⟩, ⟨1, 1, true, 6⟩], [(0, [16]), (1, [17])], [⟨11, ⟨0, 4, 0⟩, 70, 1⟩], true⟩
    (by decide) rfl⟩

end Parsed

/-! ### The outputs of an ingested log -/

def emittedOutput (row : IndexedTransactCommitment) : EmittedOutputCommitment :=
  ⟨.transact, row.source.logIndex, row.treeNumber, row.treePosition, row.hash⟩

section Ingested

variable {treeNumber startPosition : Nat} {ciphertext : List Bytes} {source : IndexedLogSource}
  {hashes : List Bytes32} {rows : List IndexedTransactCommitment}

theorem placed_of_transactRows
    (hrows : transactRows treeNumber startPosition ciphertext source hashes = .ok rows) :
    Placed (treeNumber * treeLeafCount + startPosition) hashes (rows.map emittedOutput)
      ∧ sortByKey comparableGlobalTreePosition (rows.map emittedOutput)
        = rows.map emittedOutput := by
  have hplace : ∀ (index : Nat) (emitted : EmittedOutputCommitment),
      (rows.map emittedOutput)[index]? = some emitted →
      emitted.global = .ok (treeNumber * treeLeafCount + startPosition + index)
        ∧ comparableGlobalTreePosition emitted
          = treeNumber * treeLeafCount + startPosition + index
        ∧ treeNumber * treeLeafCount + startPosition + index < positionBound := by
    intro index emitted hemitted
    rw [List.getElem?_map, Option.map_eq_some_iff] at hemitted
    obtain ⟨row, hrow, rfl⟩ := hemitted
    exact globalTreePosition_of_normalized (transactRows_getElem hrows hrow)
  refine ⟨⟨?_, fun index emitted hemitted => (hplace index emitted hemitted).1, ?_, ?_⟩, ?_⟩
  · rw [List.map_map]
    exact (transactRows_eq_ok hrows).2
  · intro emitted hemitted
    obtain ⟨row, -, rfl⟩ := List.mem_map.mp hemitted
    rfl
  · intro index hlt
    exact (hplace index _ (List.getElem?_eq_getElem hlt)).2.2
  · refine sortByKey_eq_of_perm (List.Perm.refl _) (List.pairwise_iff_getElem.mpr ?_)
    intro left right hleft hright hlt
    rw [(hplace left _ (List.getElem?_eq_getElem hleft)).2.1,
      (hplace right _ (List.getElem?_eq_getElem hright)).2.1]
    omega

/-- **Output positions of a call.** The rows of a call are produced and have their own positions
exactly when no unshield commitment is the hash of the output that follows it, and the call does not
end, without outputs of its own left, at the very last position of the forest. -/
theorem ownPositions_iff (calls : List CallTransaction) (summary : TransactOutputSummary)
    (blockTimestamp : Nat)
    (hrows : transactRows treeNumber startPosition ciphertext source (callHashes calls) = .ok rows)
    (hsummary : summary.outputCommitments = rows.map emittedOutput) :
    (∃ result, publicTransactionsFromDecoded summary blockTimestamp
          (calls.map fun call => call.transaction) = .ok result
        ∧ OwnPositions (treeNumber * treeLeafCount + startPosition) calls result)
      ↔ NoUnshieldMatches calls
        ∧ ¬ (callHashes calls ≠ []
          ∧ treeNumber * treeLeafCount + startPosition + (callHashes calls).length = positionBound
          ∧ EndsWithoutOutputs calls) := by
  obtain ⟨hplaced, hsorted⟩ := placed_of_transactRows hrows
  have hlength := hplaced.length_eq
  rw [publicTransactionsFromDecoded_calls, hsummary, hsorted]
  by_cases hhashes : callHashes calls = []
  · have hnone : rows.map emittedOutput = [] := by
      rw [hhashes] at hlength
      exact List.eq_nil_of_length_eq_zero hlength
    obtain ⟨result, hwalk, hown⟩ := @walkCalls_of_no_hashes summary blockTimestamp calls hhashes
      (treeNumber * treeLeafCount + startPosition) 0 0
    refine iff_of_true ⟨result, ?_, hown⟩
      ⟨noUnshieldMatches_of_no_hashes hhashes, fun hover => hover.1 hhashes⟩
    simp [hnone, hwalk]
  · have hne : rows.map emittedOutput ≠ [] := by
      intro hnone
      rw [hnone] at hlength
      exact hhashes (List.eq_nil_of_length_eq_zero hlength.symm)
    have hwalk := @walkCalls_iff summary blockTimestamp _ _ _ hplaced hne calls 0 0 (Nat.zero_le _)
      rfl
    rw [Nat.add_zero] at hwalk
    simp only [hhashes, ne_eq, not_false_eq_true, true_and]
    rw [← hwalk]
    constructor
    · rintro ⟨result, hresult, hown⟩
      obtain ⟨⟨found, last⟩, hfound, hresult⟩ := bind_eq_ok.mp hresult
      simp only [] at hresult
      split_ifs at hresult with hlast
      simp only [pure_eq_ok, Except.ok.injEq] at hresult
      subst hresult
      exact ⟨found, by rw [hfound, hlast, hlength], hown⟩
    · rintro ⟨result, hresult, hown⟩
      exact ⟨result, by simp [hresult, hlength], hown⟩

end Ingested

def sampleCall (outputs : List Bytes32) (unshield : Option Bytes32)
    (hproduces : outputs ≠ [] ∨ unshield.isSome = true) : CallTransaction where
  transaction := ⟨.actionLogs, [1], outputs ++ unshield.toList, 0, unshield.isSome, none, 0, 0⟩
  outputs
  unshield
  callKind_eq := rfl
  commitments_eq := rfl
  hasUnshield_eq := rfl
  produces := hproduces

/-- An unshield commitment equal to the next emitted hash: the second configuration, whose first
output is at position 0, is stored at position 1. -/
theorem unshield_consumes_output :
    let calls := [sampleCall [] (some 7) (by decide), sampleCall [7, 8] none (by decide)]
    let source : IndexedLogSource := ⟨10, none, 0, 0, 3⟩
    let summary : TransactOutputSummary :=
      ⟨source, 1, 3, [⟨.transact, 3, 0, 0, 7⟩, ⟨.transact, 3, 0, 1, 8⟩], []⟩
    (publicTransactionsFromDecoded summary 0 (calls.map fun call => call.transaction)).map
        (fun rows => rows.map fun row => (row.utxoTreeOut, row.utxoBatchStartPositionOut))
      = .ok [(0, 0), (0, 1)]
      ∧ (transactRows 0 0 [] source (callHashes calls)).map (fun rows => rows.map emittedOutput)
        = .ok summary.outputCommitments
      ∧ ¬ ∃ result, publicTransactionsFromDecoded summary 0 (calls.map fun call => call.transaction)
          = .ok result ∧ OwnPositions 0 calls result := by
  intro calls source summary
  have hrun : (publicTransactionsFromDecoded summary 0 (calls.map fun call => call.transaction)).map
      (fun rows => rows.map fun row => (row.utxoTreeOut, row.utxoBatchStartPositionOut))
      = .ok [(0, 0), (0, 1)] := by
    decide +kernel
  refine ⟨hrun, by decide +kernel, ?_⟩
  rintro ⟨result, hresult, hown⟩
  rw [hresult] at hrun
  obtain ⟨first, tail, rfl, -, htail⟩ := List.map_eq_cons_iff.mp (Except.ok.inj hrun)
  obtain ⟨second, rest, rfl, hsecond, -⟩ := List.map_eq_cons_iff.mp htail
  have hposition : second.utxoBatchStartPositionOut = 1 := congrArg Prod.snd hsecond
  exact absurd (hposition.symm.trans (hown.2.1 (by decide)).2) (by decide)

theorem ownPositions_over_boundary :
    let calls := [sampleCall [7] (some 9) (by decide), sampleCall [8] none (by decide)]
    let source : IndexedLogSource := ⟨10, none, 0, 0, 3⟩
    let summary : TransactOutputSummary :=
      ⟨source, 1, 3, [⟨.transact, 3, 0, 65535, 7⟩, ⟨.transact, 3, 1, 0, 8⟩], []⟩
    ∃ result, publicTransactionsFromDecoded summary 0 (calls.map fun call => call.transaction)
        = .ok result ∧ OwnPositions (0 * treeLeafCount + 65535) calls result := by
  intro calls source summary
  have hrows : transactRows 0 65535 [] source (callHashes calls)
      = .ok [⟨0, 65535, 7, none, source⟩, ⟨1, 0, 8, none, source⟩] := by
    decide +kernel
  refine (ownPositions_iff calls summary 0 hrows rfl).mpr
    ⟨⟨?_, ?_, trivial⟩, fun hover => absurd hover.2.1 (by decide)⟩
  · intro unshield hunshield
    cases hunshield
    decide
  · intro unshield hunshield
    cases hunshield

end RailgunIndexer
