import RailgunIndexer.UnshieldCalldata
import RailgunIndexer.Lib.Fallible

/-!
# What calldata may change

A transaction embedded in the outer calldata takes over an unshield row as soon as its nullifiers,
tree number, unshield type and accumulated commitments are those of the row. Its bound parameters
are never compared with the hash the `Action` log announced.
-/

namespace RailgunIndexer

open Lib Fallible

variable {contracts : Contracts} {source : IndexedLogSource} {decoded : List Transaction}
  {calldata : Bytes} {transaction : Transaction} {resolved row : DecodedRailgunTransaction}
  {after frames : List ActionCallTransactions}

/-! ### The transactions that can be selected -/

/-- The transaction is reached from the calldata through at most `levels` known entrypoints. -/
inductive Embedded (contracts : Contracts) (transaction : Transaction) : Nat → Bytes → Prop where
  | here {levels : Nat} {calldata : Bytes} {call : EntrypointCall}
      (hcall : decodeEntrypoint contracts calldata = some call)
      (hmem : transaction ∈ call.transactions) : Embedded contracts transaction (levels + 1) calldata
  | nested {levels : Nat} {calldata inner : Bytes} {call : EntrypointCall}
      (hcall : decodeEntrypoint contracts calldata = some call) (hmem : inner ∈ call.nestedCalls)
      (hinner : Embedded contracts transaction levels inner) :
      Embedded contracts transaction (levels + 1) calldata

theorem mem_collectNestedRailgunTransactions {levels : Nat} :
    transaction ∈ collectNestedRailgunTransactions contracts levels calldata
      ↔ Embedded contracts transaction levels calldata := by
  induction levels generalizing calldata with
  | zero => exact iff_of_false List.not_mem_nil (nomatch ·)
  | succ levels ih =>
      rw [collectNestedRailgunTransactions]
      constructor
      · intro hmem
        cases hcall : decodeEntrypoint contracts calldata with
        | none => simp [hcall] at hmem
        | some call =>
            simp only [hcall, List.mem_append, List.mem_flatMap] at hmem
            obtain hmem | ⟨inner, hinner, hmem⟩ := hmem
            · exact .here hcall hmem
            · exact .nested hcall hinner (ih.mp hmem)
      · intro hembedded
        cases hembedded with
        | here hcall hmem => simp [hcall, hmem]
        | nested hcall hmem hinner =>
            simp only [hcall, List.mem_append, List.mem_flatMap]
            exact .inr ⟨_, hmem, ih.mpr hinner⟩

theorem mem_calldataTransactions :
    transaction ∈ calldataTransactions contracts calldata
      ↔ Embedded contracts transaction (nestedCalldataMaxDepth + 1) calldata :=
  mem_collectNestedRailgunTransactions

/-! ### One row -/

theorem splitLast_eq_some {commitments : List Bytes32} {last : Bytes32} {init : List Bytes32} :
    splitLast commitments = some (last, init) ↔ commitments = init ++ [last] := by
  unfold splitLast
  constructor
  · intro hsplit
    obtain ⟨found, hfound, heq⟩ := Option.map_eq_some_iff.mp hsplit
    cases heq
    obtain ⟨init, rfl⟩ := List.getLast?_eq_some_iff.mp hfound
    rw [List.dropLast_concat]
  · rintro rfl
    simp

/-- The only embedded transaction with the row's nullifiers, and the row it makes of the derived
one. -/
structure PairedWith (contracts : Contracts) (decoded : List Transaction)
    (row resolved : DecodedRailgunTransaction) (matched : Transaction) : Prop where
  unique : decoded.filter (fun transaction => transaction.nullifiers == row.nullifiers) = [matched]
  unshieldType : matched.boundParams.unshield ≠ 0
  treeNumber : matched.boundParams.treeNumber = row.utxoTreeIn
  commitments : ∃ logged derived committed, row.commitments = logged ++ [derived]
    ∧ matched.commitments = logged ++ [committed]
    ∧ resolved = commitUnshield contracts row matched committed derived logged

theorem PairedWith.matches_iff {matched : Transaction}
    (hpaired : PairedWith contracts decoded row resolved matched) (transaction : Transaction) :
    transaction ∈ decoded ∧ transaction.nullifiers = row.nullifiers ↔ transaction = matched := by
  have hmem : transaction ∈ decoded.filter (fun found => found.nullifiers == row.nullifiers)
      ↔ transaction ∈ [matched] := by rw [hpaired.unique]
  rwa [List.mem_filter, beq_iff_eq, List.mem_singleton] at hmem

@[simp]
theorem commitUnshield_hasUnshield (row : DecodedRailgunTransaction) (matched : Transaction)
    (committed derived : Bytes32) (logged : List Bytes32) :
    (commitUnshield contracts row matched committed derived logged).hasUnshield
      = row.hasUnshield := by
  unfold commitUnshield
  split <;> rfl

theorem commitUnshield_commitments (matched : Transaction) {committed derived : Bytes32}
    {logged : List Bytes32} (hrow : row.commitments = logged ++ [derived]) :
    (commitUnshield contracts row matched committed derived logged).commitments
      = logged ++ [committed] := by
  unfold commitUnshield
  split
  · rename_i hsame
    rw [hrow, hsame]
  · rfl

theorem resolveUnshieldRow_eq_ok {diverged : Bool}
    (hok : resolveUnshieldRow contracts source decoded row = .ok (resolved, diverged)) :
    ∃ matched, PairedWith contracts decoded row resolved matched := by
  unfold resolveUnshieldRow at hok
  split at hok
  · cases hok
  · split at hok
    · rename_i matched hunique
      split at hok
      · cases hok
      · split at hok
        · cases hok
        · rename_i htype htree
          split at hok
          · rename_i committed accumulated derived logged hmatched hrow
            split at hok
            · cases hok
            · rename_i hlogged
              obtain rfl := not_not.mp hlogged
              cases hok
              exact ⟨matched, hunique, htype, not_not.mp htree, logged, derived, committed,
                splitLast_eq_some.mp hrow, splitLast_eq_some.mp hmatched, rfl⟩
          · cases hok
    · cases hok

def RowResolved (contracts : Contracts) (decoded : List Transaction)
    (row resolved : DecodedRailgunTransaction) : Prop :=
  if row.hasUnshield then
    resolved.hasUnshield = true ∧ ∃ matched, PairedWith contracts decoded row resolved matched
  else
    resolved = row

theorem RowResolved.hasUnshield_eq (hrow : RowResolved contracts decoded row resolved) :
    resolved.hasUnshield = row.hasUnshield := by
  unfold RowResolved at hrow
  split at hrow
  · rename_i hunshield
    rw [hrow.1, hunshield]
  · rw [hrow]

theorem resolveRow_eq_ok {item : Nat × DecodedRailgunTransaction}
    {result : (Nat × DecodedRailgunTransaction) × Bool}
    (hok : resolveRow contracts source decoded item = .ok result) :
    result.1.1 = item.1 ∧ RowResolved contracts decoded item.2 result.1.2 := by
  unfold resolveRow at hok
  unfold RowResolved
  split at hok
  · rename_i hunshield
    rw [bind_eq_ok] at hok
    obtain ⟨⟨resolved, diverged⟩, hresolved, heq⟩ := hok
    cases heq
    obtain ⟨matched, hpaired⟩ := resolveUnshieldRow_eq_ok hresolved
    rw [if_pos hunshield]
    refine ⟨rfl, ?_, matched, hpaired⟩
    obtain ⟨logged, derived, committed, -, -, rfl⟩ := hpaired.commitments
    rw [commitUnshield_hasUnshield, hunshield]
  · rename_i hunshield
    cases hok
    rw [if_neg hunshield]
    exact ⟨rfl, rfl⟩

/-! ### The whole transaction -/

/-- Two lists of frames with the same `Transact` logs and record indexes and related rows. -/
def FramesRelated (R : DecodedRailgunTransaction → DecodedRailgunTransaction → Prop) :
    List ActionCallTransactions → List ActionCallTransactions → Prop :=
  List.Forall₂ fun frame after => after.1 = frame.1
    ∧ List.Forall₂ (fun item result => result.1 = item.1 ∧ R item.2 result.2) frame.2 after.2

theorem FramesRelated.rows {R : DecodedRailgunTransaction → DecodedRailgunTransaction → Prop}
    (hframes : FramesRelated R frames after) :
    List.Forall₂ R ((frames.flatMap Prod.snd).map Prod.snd)
      ((after.flatMap Prod.snd).map Prod.snd) := by
  have hitems : List.Forall₂ (fun item result : Nat × DecodedRailgunTransaction =>
      result.1 = item.1 ∧ R item.2 result.2) (frames.flatMap Prod.snd) (after.flatMap Prod.snd) :=
    List.rel_flatMap hframes fun _ _ hframe => hframe.2
  rw [List.forall₂_map_left_iff, List.forall₂_map_right_iff]
  exact hitems.imp fun _ _ hitem => hitem.2

theorem unshieldRows_resolved
    (hframes : FramesRelated (RowResolved contracts decoded) frames after) :
    List.Forall₂ (fun row resolved => ∃ matched, PairedWith contracts decoded row resolved matched)
      (unshieldRows frames) (unshieldRows after) := by
  have hfiltered : List.Forall₂ (RowResolved contracts decoded) (unshieldRows frames)
      (unshieldRows after) :=
    List.rel_filter (fun _ _ hrow => iff_of_eq (congrArg (· = true) hrow.hasUnshield_eq.symm))
      hframes.rows
  have hunshield : ∀ row ∈ unshieldRows frames, row.hasUnshield = true :=
    fun row hmem => (List.mem_filter.mp hmem).2
  refine ((List.forall₂_and_left _ _).mpr ⟨hunshield, hfiltered⟩).imp ?_
  rintro row resolved ⟨hrow, hresolved⟩
  rw [RowResolved, if_pos hrow] at hresolved
  exact hresolved.2

theorem resolveFrame_eq_ok {frame : ActionCallTransactions} {result : ActionCallTransactions × Nat}
    (hok : resolveFrame contracts source decoded frame = .ok result) :
    result.1.1 = frame.1 ∧ List.Forall₂ (fun item resolved => resolved.1 = item.1
      ∧ RowResolved contracts decoded item.2 resolved.2) frame.2 result.1.2 := by
  unfold resolveFrame at hok
  rw [bind_eq_ok] at hok
  obtain ⟨rows, hrows, heq⟩ := hok
  cases heq
  refine ⟨rfl, ?_⟩
  rw [List.forall₂_map_right_iff]
  exact (mapM_eq_ok_iff.mp hrows).imp fun _ _ hrow => resolveRow_eq_ok hrow

theorem resolveUnshieldCommitments_eq_ok {summary : TransactOutputSummary}
    {derivations divergences : Nat}
    (hok : resolveUnshieldCommitments contracts summary calldata frames = .ok (after, derivations,
      divergences)) :
    (calldataTransactions contracts calldata = [] ∧ after = frames)
      ∨ (calldataTransactions contracts calldata ≠ []
        ∧ FramesRelated (RowResolved contracts (calldataTransactions contracts calldata))
          frames after) := by
  unfold resolveUnshieldCommitments at hok
  simp only [List.isEmpty_iff] at hok
  split at hok
  · rename_i hnone
    exact .inl ⟨hnone, (Prod.mk.inj (Except.ok.inj hok)).1.symm⟩
  · rename_i hsome
    split at hok
    · cases hok
    · rw [bind_eq_ok] at hok
      obtain ⟨resolved, hresolved, heq⟩ := hok
      cases heq
      refine .inr ⟨hsome, ?_⟩
      rw [FramesRelated, List.forall₂_map_right_iff]
      exact (mapM_eq_ok_iff.mp hresolved).imp fun _ _ hframe => resolveFrame_eq_ok hframe

/-! ### Agreement with the logs -/

/-- Every unshield row is paired with one embedded transaction that agrees with all its call's logs
committed to, the announced bound-parameters hash included. -/
def RowsAgreeWithLogs (contracts : Contracts) (calldata : Bytes)
    (frames after : List ActionCallTransactions) : Prop :=
  List.Forall₂ (fun row resolved => ∃ matched,
      PairedWith contracts (calldataTransactions contracts calldata) row resolved matched
        ∧ contracts.boundParamsHash matched.boundParams = row.boundParamsHash)
    (unshieldRows frames) (unshieldRows after)

/-- **Calldata agrees with the logs exactly when nothing embedded contradicts the bound
parameters.** All other facts the logs committed to are compared by the code; the hash of the bound
parameters has to be right in the calldata already, in every embedded transaction that carries an
unshield row's nullifiers. -/
theorem rowsAgreeWithLogs_iff {summary : TransactOutputSummary} {calldata : Bytes}
    {frames after : List ActionCallTransactions} {derivations divergences : Nat}
    (hok : resolveUnshieldCommitments contracts summary calldata frames
      = .ok (after, derivations, divergences))
    (hembedded : ∃ transaction,
      Embedded contracts transaction (nestedCalldataMaxDepth + 1) calldata) :
    RowsAgreeWithLogs contracts calldata frames after
      ↔ ∀ row ∈ unshieldRows frames, ∀ transaction,
        Embedded contracts transaction (nestedCalldataMaxDepth + 1) calldata →
          transaction.nullifiers = row.nullifiers →
            contracts.boundParamsHash transaction.boundParams = row.boundParamsHash := by
  obtain ⟨found, hfound⟩ := hembedded
  obtain ⟨hnone, -⟩ | ⟨-, hframes⟩ := resolveUnshieldCommitments_eq_ok hok
  · rw [← mem_calldataTransactions, hnone] at hfound
    exact absurd hfound List.not_mem_nil
  · have hpaired := unshieldRows_resolved hframes
    constructor
    · intro hagree row hrow transaction htransaction hnullifiers
      obtain ⟨resolved, -, matched, hmatched, hhash⟩ := exists_of_forall₂_left hagree hrow
      rw [← mem_calldataTransactions] at htransaction
      rwa [(hmatched.matches_iff transaction).mp ⟨htransaction, hnullifiers⟩]
    · intro hhashes
      refine ((List.forall₂_and_left _ _).mpr ⟨hhashes, hpaired⟩).imp ?_
      rintro row resolved ⟨hrow, matched, hmatched⟩
      obtain ⟨hmem, hnullifiers⟩ := (hmatched.matches_iff matched).mpr rfl
      exact ⟨matched, hmatched, hrow matched (mem_calldataTransactions.mp hmem) hnullifiers⟩

def embeddedTransaction (remaining : Bytes) : Transaction where
  nullifiers := [5]
  commitments := [9]
  boundParams := { treeNumber := 0, unshield := 1, remaining }
  unshieldPreimage :=
    { npk := 9, token := { tokenType := 0, tokenAddress := 0, tokenSubID := 0 }, value := 1 }

def loggedRow : DecodedRailgunTransaction where
  callKind := .actionLogs
  nullifiers := [5]
  commitments := [8]
  boundParamsHash := 1
  hasUnshield := true
  unshieldPreimage := some []
  utxoTreeIn := 0
  railgunTxid := 8

def loggedSummary : TransactOutputSummary where
  source :=
    { blockNumber := 1, blockTimestamp := none, blockHash := 1, transactionHash := 1, logIndex := 0 }
  firstLogIndex := 0
  lastLogIndex := 2
  outputCommitments := []
  nullifierGroups := []

/-- Bindings under which calldata `[1]` is a `transact` of the given transaction and calldata `[2]`
a multicall of it, bound parameters are hashed to their length, and a txid is the first
commitment. -/
def embeddingContracts (transaction : Transaction) : Contracts :=
  { toyContracts with
    boundParamsHash := fun boundParams => FixedBytes.ofNat boundParams.remaining.length
    railgunTxidParts := fun _ commitments _ => commitments.headD 0
    decodeTransact := fun calldata => if calldata = [1] then some [transaction] else none
    decodeMulticall := fun calldata => if calldata = [2] then some [[1]] else none }

/-- A decoy with other bound parameters, one multicall deep, replaces the row's unshield commitment
and its txid. -/
theorem decoy_replaces_commitment :
    let contracts := embeddingContracts (embeddedTransaction [])
    let after := [(none, [(0, { loggedRow with commitments := [9], railgunTxid := 9 })])]
    resolveUnshieldCommitments contracts loggedSummary [2] [(none, [(0, loggedRow)])]
        = .ok (after, 0, 1)
      ∧ (∀ transaction ∈ calldataTransactions contracts [2],
        contracts.boundParamsHash transaction.boundParams ≠ loggedRow.boundParamsHash)
      ∧ ¬ RowsAgreeWithLogs contracts [2] [(none, [(0, loggedRow)])] after := by
  intro contracts after
  have hdecoy : ∀ transaction ∈ calldataTransactions contracts [2],
      contracts.boundParamsHash transaction.boundParams ≠ loggedRow.boundParamsHash := by decide
  refine ⟨rfl, hdecoy, ?_⟩
  intro hagree
  have hrow : loggedRow ∈ unshieldRows [(none, [(0, loggedRow)])] := by decide
  obtain ⟨_, -, matched, hmatched, hhash⟩ := exists_of_forall₂_left hagree hrow
  exact hdecoy matched ((hmatched.matches_iff matched).mpr rfl).1 hhash

theorem rowsAgreeWithLogs_multicall :
    let contracts := embeddingContracts (embeddedTransaction [0])
    RowsAgreeWithLogs contracts [2] [(none, [(0, loggedRow)])]
      [(none, [(0, { loggedRow with commitments := [9], railgunTxid := 9 })])] := by
  intro contracts
  have hembedded : Embedded contracts (embeddedTransaction [0]) (nestedCalldataMaxDepth + 1) [2] :=
    mem_calldataTransactions.mp (by decide)
  refine (@rowsAgreeWithLogs_iff contracts loggedSummary [2] _ _ 0 1 rfl ⟨_, hembedded⟩).mpr ?_
  intro row hrow transaction htransaction _
  rw [← mem_calldataTransactions] at htransaction
  obtain rfl : row = loggedRow := List.mem_singleton.mp hrow
  obtain rfl : transaction = embeddedTransaction [0] := List.mem_singleton.mp htransaction
  decide

end RailgunIndexer
