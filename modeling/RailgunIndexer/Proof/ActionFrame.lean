import RailgunIndexer.ActionLogs
import RailgunIndexer.Lib.Fallible

/-!
# The transactions of one Railgun call

What a successful split of a call's logs says about each of its transactions, read off the loop over
the configurations: one transaction per configuration, with the nullifiers of its `Nullified` log, the
next outputs of the call, and the next `Unshield` log when it declares an unshield.
-/

namespace RailgunIndexer

open Lib Lib.Fallible

def DecodedRailgunTransaction.outputs (transaction : DecodedRailgunTransaction) : List Bytes32 :=
  if transaction.hasUnshield then transaction.commitments.dropLast else transaction.commitments

section Steps

variable {contracts : Contracts} {source : IndexedLogSource} {frameLogIndex logIndex : Nat}
  {hashes : List Bytes32} {outputs nullifiers : List Bytes32}
  {derived : Option (Bytes32 × CommitmentPreimage)} {hasUnshield : Bool} {unused : List Unshield}
  {transactions : List (Nat × DecodedRailgunTransaction)}
  {unshields : List Unshield}

theorem takeCommitments_eq_ok_iff {offset count : Nat} :
    takeCommitments source logIndex hashes offset count = .ok outputs
      ↔ offset + count < u64Bound ∧ offset + count ≤ hashes.length
        ∧ outputs = (hashes.drop offset).take count := by
  unfold takeCommitments
  split_ifs with hbound hlength
  · simp [hbound]
  · simp [hlength]
  · rw [Except.ok.injEq]
    constructor
    · intro heq
      exact ⟨by omega, by omega, heq.symm⟩
    · rintro ⟨-, -, heq⟩
      exact heq.symm

theorem takeUnshield_eq_ok_iff :
    takeUnshield contracts source frameLogIndex hasUnshield unshields = .ok (derived, unused)
      ↔ (hasUnshield = false ∧ derived = none ∧ unused = unshields)
        ∨ (hasUnshield = true ∧ ∃ unshield value, unshields = unshield :: unused
          ∧ unshieldCommitmentFromEvent contracts unshield = .ok value ∧ derived = some value) := by
  unfold takeUnshield
  cases hasUnshield with
  | false => simp [eq_comm]
  | true =>
      cases unshields with
      | nil => simp
      | cons unshield rest =>
          simp only [if_true, bind_eq_ok, pure_eq_ok, Except.ok.injEq, Prod.mk.injEq,
            List.cons.injEq, reduceCtorEq, false_and, true_and, false_or]
          constructor
          · rintro ⟨value, hvalue, rfl, rfl⟩
            exact ⟨unshield, value, ⟨rfl, rfl⟩, hvalue, rfl⟩
          · rintro ⟨other, value, ⟨rfl, rfl⟩, hvalue, rfl⟩
            exact ⟨value, hvalue, rfl, rfl⟩

theorem transactionsFromConfigs_cons_eq_ok_iff {recordIndex offset used treeNumber : Nat}
    {config : TXConfig} {rest : List (TXConfig × Nat × List Bytes32)} :
    transactionsFromConfigs contracts source frameLogIndex logIndex hashes recordIndex offset
        unshields ((config, treeNumber, nullifiers) :: rest) = .ok (transactions, used)
      ↔ ∃ outputs derived unused tail,
        takeCommitments source logIndex hashes offset config.commitmentsCount = .ok outputs
        ∧ takeUnshield contracts source frameLogIndex config.hasUnshield unshields
          = .ok (derived, unused)
        ∧ transactionsFromConfigs contracts source frameLogIndex logIndex hashes (recordIndex + 1)
          (offset + config.commitmentsCount) unused rest = .ok (tail, used)
        ∧ transactions = (recordIndex, transactionFromConfig contracts config treeNumber nullifiers
          outputs derived) :: tail := by
  rw [transactionsFromConfigs, bind_eq_ok]
  constructor
  · rintro ⟨outputs, houtputs, hnext⟩
    obtain ⟨⟨derived, unused⟩, hderived, hnext⟩ := bind_eq_ok.mp hnext
    obtain ⟨⟨tail, final⟩, htail, hresult⟩ := bind_eq_ok.mp hnext
    obtain ⟨rfl, rfl⟩ := hresult
    exact ⟨outputs, derived, unused, tail, houtputs, hderived, htail, rfl⟩
  · rintro ⟨outputs, derived, unused, tail, houtputs, hderived, htail, rfl⟩
    refine ⟨outputs, houtputs, ?_⟩
    rw [hderived, ok_bind]
    simp only [htail, ok_bind, pure_eq_ok]

theorem transactionsFromActionFrame_eq_ok_iff {frame : ActionFrame} :
    transactionsFromActionFrame contracts source frame hashes logIndex = .ok transactions
      ↔ frame.pendingUnshields = 0
        ∧ transactionsFromConfigs contracts source frame.logIndex logIndex hashes frame.recordBase 0
          frame.unshields (frame.configs.zip frame.nullified)
          = .ok (transactions, hashes.length) := by
  unfold transactionsFromActionFrame
  split_ifs with hpending
  · simp only [false_iff, not_and]
    omega
  · rw [bind_eq_ok]
    constructor
    · rintro ⟨⟨found, used⟩, hfound, hresult⟩
      simp only [] at hresult
      split_ifs at hresult with hused
      simp only [pure_eq_ok, Except.ok.injEq] at hresult
      subst hresult hused
      exact ⟨by omega, hfound⟩
    · rintro ⟨-, hfound⟩
      exact ⟨(transactions, hashes.length), hfound, by simp⟩

theorem outputs_transactionFromConfig {config : TXConfig} {treeNumber : Nat}
    (hderived : derived.isSome = config.hasUnshield) :
    (transactionFromConfig contracts config treeNumber nullifiers outputs derived).outputs
      = outputs := by
  cases derived with
  | none | some value => simp [DecodedRailgunTransaction.outputs, transactionFromConfig, ← hderived]

theorem isSome_of_takeUnshield
    (htake : takeUnshield contracts source frameLogIndex hasUnshield unshields = .ok (derived,
      unused)) : derived.isSome = hasUnshield := by
  rcases takeUnshield_eq_ok_iff.mp htake with ⟨rfl, rfl, -⟩ | ⟨rfl, -, -, -, -, rfl⟩ <;> rfl

end Steps

section Loop

variable {contracts : Contracts} {source : IndexedLogSource} {frameLogIndex logIndex : Nat}
  {hashes : List Bytes32} {recordIndex offset used : Nat} {unshields : List Unshield}
  {items : List (TXConfig × Nat × List Bytes32)}
  {transactions : List (Nat × DecodedRailgunTransaction)}

theorem recordIndexes_transactionsFromConfigs
    (hrun : transactionsFromConfigs contracts source frameLogIndex logIndex hashes recordIndex
      offset unshields items = .ok (transactions, used)) :
    transactions.map Prod.fst = List.range' recordIndex items.length := by
  induction items generalizing recordIndex offset unshields transactions with
  | nil =>
      cases hrun
      rfl
  | cons item rest ih =>
      obtain ⟨outputs, derived, unused, tail, -, -, htail, rfl⟩ :=
        transactionsFromConfigs_cons_eq_ok_iff.mp hrun
      rw [List.map_cons, ih htail, List.length_cons, List.range'_succ]

theorem outputs_transactionsFromConfigs (hoffset : offset ≤ hashes.length)
    (hrun : transactionsFromConfigs contracts source frameLogIndex logIndex hashes recordIndex
      offset unshields items = .ok (transactions, used)) :
    used ≤ hashes.length
      ∧ hashes.drop offset = (transactions.flatMap fun row => row.2.outputs) ++ hashes.drop used := by
  induction items generalizing recordIndex offset unshields transactions with
  | nil =>
      cases hrun
      exact ⟨hoffset, rfl⟩
  | cons item rest ih =>
      obtain ⟨outputs, derived, unused, tail, houtputs, hderived, htail, rfl⟩ :=
        transactionsFromConfigs_cons_eq_ok_iff.mp hrun
      obtain ⟨-, hlength, rfl⟩ := takeCommitments_eq_ok_iff.mp houtputs
      obtain ⟨hused, hdrop⟩ := ih hlength htail
      refine ⟨hused, ?_⟩
      rw [List.flatMap_cons, outputs_transactionFromConfig (isSome_of_takeUnshield hderived),
        List.append_assoc, ← hdrop, ← List.drop_drop, List.take_append_drop]

end Loop

end RailgunIndexer
