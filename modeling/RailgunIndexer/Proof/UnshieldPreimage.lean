import RailgunIndexer.PublicTxid
import RailgunIndexer.Proof.ActionConservation
import RailgunIndexer.Proof.Hydrate
import RailgunIndexer.Proof.UnshieldCalldata
import Mathlib.Data.Nat.Pairing

/-!
# Unshield preimages from hydration to publication

Publication insists that a row's unshield preimage hashes to the row's last commitment. The
derivation from an `Unshield` log establishes this; the calldata override copies commitment and
preimage from calldata and relies on the two belonging together there.
-/

namespace RailgunIndexer

open Lib Fallible

variable {contracts : Contracts} {error : PublicTxidChunkError}

def CoherentUnshield (contracts : Contracts) (commitments : List Bytes32)
    (encoded : Option Bytes) : Prop :=
  ∃ preimage, encoded.bind contracts.decodePreimage = some preimage
    ∧ commitments.getLast? = some (contracts.preimageHash preimage)

section Derivation

variable {contracts : Contracts} {source : IndexedLogSource} {frames : List ActionCallTransactions}
  {summary : TransactOutputSummary} {frameLogIndex : Nat}

theorem unshieldCommitmentFromEvent_eq_ok {unshield : Unshield}
    {derived : Bytes32 × CommitmentPreimage}
    (hok : unshieldCommitmentFromEvent contracts unshield = .ok derived) :
    derived.1 = contracts.preimageHash derived.2 := by
  unfold unshieldCommitmentFromEvent at hok
  split at hok
  · cases hok
    rfl
  · cases hok

theorem forall_decoded {P : DecodedRailgunTransaction → Prop} {events : ActionLogEvents}
    (hframe : ∀ frame hashes logIndex transactions, transactionsFromActionFrame contracts
      summary.source frame hashes logIndex = .ok transactions → ∀ item ∈ transactions, P item.2)
    (hok : decodedTransactionsFromActionLogs contracts summary events = .ok frames) :
    ∀ transaction ∈ frameTransactionsOf frames, P transaction := by
  have hpush : ∀ {decoded : List ActionCallTransactions} {tag frame hashes logIndex transactions},
      (∀ transaction ∈ frameTransactionsOf decoded, P transaction) →
        transactionsFromActionFrame contracts summary.source frame hashes logIndex
          = .ok transactions →
        ∀ transaction ∈ frameTransactionsOf (decoded ++ [(tag, transactions)]), P transaction := by
    intro decoded tag frame hashes logIndex transactions hdecoded hmade transaction hmem
    simp only [frameTransactionsOf, List.flatMap_append, List.map_append, List.mem_append,
      List.flatMap_cons, List.flatMap_nil, List.append_nil] at hmem
    obtain hmem | hmem := hmem
    · exact hdecoded transaction hmem
    · obtain ⟨item, hitem, rfl⟩ := List.mem_map.mp hmem
      exact hframe _ _ _ _ hmade item hitem
  obtain ⟨state, hrun, -, -, rfl⟩ := decoded_eq_ok hok
  refine @foldlM_invariant _ _ _ _
    (fun state => ∀ transaction ∈ frameTransactionsOf state.decoded, P transaction)
    _ _ _ hrun (by simp [frameTransactionsOf]) ?_
  intro state entry _ after hstate hstep
  obtain ⟨accepted, haccept, hclose⟩ := bind_eq_ok.mp hstep
  have haccepted : ∀ transaction ∈ frameTransactionsOf accepted.decoded, P transaction := by
    obtain ⟨logIndex, event⟩ := entry
    cases event with
    | nullified treeNumber nullifiers =>
        cases haccept
        exact hstate
    | action configs =>
        obtain ⟨-, ⟨-, rfl⟩ | rfl⟩ := acceptEvent_action_eq_ok haccept <;> exact hstate
    | unshield unshield =>
        obtain ⟨_, _, -, -, rfl⟩ := acceptEvent_unshield_eq_ok haccept
        exact hstate
    | transact hashes =>
        obtain ⟨_, _, _, -, hmade, rfl⟩ := acceptEvent_transact_eq_ok haccept
        exact hpush hstate hmade
  obtain rfl | ⟨_, _, _, -, hmade, rfl⟩ := closeCompleted_eq_ok hclose
  · exact haccepted
  · exact hpush haccepted hmade

variable (hinverse : ∀ preimage, contracts.decodePreimage (contracts.encodePreimage preimage)
  = some preimage)

include hinverse

theorem coherent_transactionFromConfig {config : TXConfig} {treeNumber : Nat}
    {nullifiers outputs : List Bytes32} {unshields unused : List Unshield}
    {derived : Option (Bytes32 × CommitmentPreimage)}
    (htake : takeUnshield contracts source frameLogIndex config.hasUnshield unshields = .ok
      (derived, unused)) (hunshield : config.hasUnshield = true) :
    let row := transactionFromConfig contracts config treeNumber nullifiers outputs derived
    CoherentUnshield contracts row.commitments row.unshieldPreimage := by
  obtain ⟨hnone, -⟩ | ⟨-, unshield, value, -, hvalue, rfl⟩ := takeUnshield_eq_ok_iff.mp htake
  · rw [hunshield] at hnone
    cases hnone
  · refine ⟨value.2, hinverse value.2, ?_⟩
    simp [transactionFromConfig, unshieldCommitmentFromEvent_eq_ok hvalue]

theorem coherent_transactionsFromConfigs {logIndex recordIndex offset used : Nat}
    {hashes : List Bytes32} {unshields : List Unshield}
    {items : List (TXConfig × Nat × List Bytes32)}
    {transactions : List (Nat × DecodedRailgunTransaction)}
    (hok : transactionsFromConfigs contracts source frameLogIndex logIndex hashes recordIndex
      offset unshields items = .ok (transactions, used)) :
    ∀ item ∈ transactions, item.2.hasUnshield = true →
      CoherentUnshield contracts item.2.commitments item.2.unshieldPreimage := by
  induction items generalizing recordIndex offset unshields transactions with
  | nil =>
      cases hok
      simp
  | cons first rest ih =>
      obtain ⟨outputs, derived, unused, tail, -, htake, htail, rfl⟩ :=
        transactionsFromConfigs_cons_eq_ok_iff.mp hok
      refine List.forall_mem_cons.mpr ⟨fun hunshield => ?_, ih htail⟩
      exact coherent_transactionFromConfig hinverse htake hunshield

/-- **The derivation from `Unshield` logs is coherent.** -/
theorem coherent_decoded {events : ActionLogEvents}
    (hok : decodedTransactionsFromActionLogs contracts summary events = .ok frames) :
    ∀ row ∈ unshieldRows frames,
      CoherentUnshield contracts row.commitments row.unshieldPreimage := by
  have hrows := forall_decoded (P := fun row => row.hasUnshield = true →
    CoherentUnshield contracts row.commitments row.unshieldPreimage)
    (fun _ _ _ _ hframe => coherent_transactionsFromConfigs hinverse
      (transactionsFromActionFrame_eq_ok_iff.mp hframe).2) hok
  intro row hmem
  obtain ⟨hrow, hunshield⟩ := List.mem_filter.mp hmem
  exact hrows row hrow hunshield

theorem PairedWith.coherent_iff {decoded : List Transaction}
    {row resolved : DecodedRailgunTransaction} {matched : Transaction}
    (hpaired : PairedWith contracts decoded row resolved matched) :
    CoherentUnshield contracts resolved.commitments resolved.unshieldPreimage
      ↔ matched.commitments.getLast? = some (contracts.preimageHash matched.unshieldPreimage) := by
  obtain ⟨logged, derived, committed, hrow, hmatched, rfl⟩ := hpaired.commitments
  have hencoded : (commitUnshield contracts row matched committed derived logged).unshieldPreimage
      = some (contracts.encodePreimage matched.unshieldPreimage) := rfl
  rw [CoherentUnshield, commitUnshield_commitments matched hrow, hencoded, hmatched]
  simp [hinverse]

end Derivation

/-! ### One outer transaction -/

/-- In the calldata served for an outer transaction, every embedded transaction with the nullifiers
of an unshield row commits, last, to its own unshield preimage. -/
def CalldataCommitsToPreimages (contracts : Contracts) (provider : Provider)
    (summary : TransactOutputSummary) (events : ActionLogEvents) : Prop :=
  ∀ frames calldata, decodedTransactionsFromActionLogs contracts summary events = .ok frames →
    servedCalldata provider summary.source = some calldata →
      ∀ row ∈ unshieldRows frames, ∀ transaction,
        Embedded contracts transaction (nestedCalldataMaxDepth + 1) calldata →
          transaction.nullifiers = row.nullifiers →
            transaction.commitments.getLast?
              = some (contracts.preimageHash transaction.unshieldPreimage)

theorem ActionOutcome.coherent_iff {provider : Provider} {summary : TransactOutputSummary}
    {events : ActionLogEvents} {resolved : List ActionCallTransactions}
    (hinverse : ∀ preimage, contracts.decodePreimage (contracts.encodePreimage preimage) = some
      preimage) (houtcome : ActionOutcome contracts provider summary events resolved) :
    (∀ row ∈ unshieldRows resolved,
        CoherentUnshield contracts row.commitments row.unshieldPreimage)
      ↔ CalldataCommitsToPreimages contracts provider summary events := by
  obtain ⟨frames, hframes, ⟨hnone, rfl⟩ | ⟨calldata, _, _, hserved, hresolve⟩⟩ := houtcome
  · refine iff_of_true (by simp [hnone]) ?_
    intro found calldata hfound _ row hrow
    cases hframes.symm.trans hfound
    simp [hnone] at hrow
  · obtain ⟨hnone, rfl⟩ | ⟨-, hrelated⟩ := resolveUnshieldCommitments_eq_ok hresolve
    · refine iff_of_true (coherent_decoded hinverse hframes) ?_
      intro _ found _ hfound _ _ transaction hembedded
      cases hserved.symm.trans hfound
      rw [← mem_calldataTransactions, hnone] at hembedded
      exact absurd hembedded List.not_mem_nil
    · have hpaired := unshieldRows_resolved hrelated
      constructor
      · intro hcoherent found foundCalldata hfound hfoundCalldata row hrow transaction hembedded
          hnullifiers
        cases hframes.symm.trans hfound
        cases hserved.symm.trans hfoundCalldata
        obtain ⟨result, hresult, matched, hmatched⟩ := exists_of_forall₂_left hpaired hrow
        rw [← mem_calldataTransactions] at hembedded
        rw [(hmatched.matches_iff transaction).mp ⟨hembedded, hnullifiers⟩]
        exact (hmatched.coherent_iff hinverse).mp (hcoherent result hresult)
      · intro hcommits result hresult
        obtain ⟨row, hrow, matched, hmatched⟩ := exists_of_forall₂_right hpaired hresult
        obtain ⟨hmem, hnullifiers⟩ := (hmatched.matches_iff matched).mpr rfl
        exact (hmatched.coherent_iff hinverse).mpr (hcommits frames calldata hframes hserved row
          hrow matched (mem_calldataTransactions.mp hmem) hnullifiers)

/-! ### Publication -/

def PublicTxidChunkError.IsIncoherent : PublicTxidChunkError → Prop
  | .invalidUnshieldPreimage _ | .missingUnshieldCommitment _ | .unshieldCommitmentMismatch _ => True
  | .emptyChunk | .nonContiguousTxidIndex _ _ | .txidIndexOverflow | .crossesTxidTreeBoundary _ _
  | .checkpointDoesNotStartAtTreePrefix _ | .payloadTooLarge | .stringTooLong _ _
  | .chunkTooLarge _ _ | .encoding | .unexpectedUnshieldPreimage _ => False

theorem encodeUnshieldPreimage_error {record : StoredPublicTxidRow}
    (hcoherent : record.hasUnshield = true → CoherentUnshield contracts record.commitments
      record.unshieldPreimage) (herror : encodeUnshieldPreimage contracts record = .error error) :
    ¬ error.IsIncoherent := by
  unfold encodeUnshieldPreimage at herror
  split at herror
  · cases herror
  · rename_i encoded hencoded
    split at herror
    · obtain rfl := Except.error.inj herror
      exact id
    · rename_i hunshield
      obtain ⟨preimage, hdecode, hlast⟩ := hcoherent (by simpa using hunshield)
      rw [hencoded, Option.bind_some] at hdecode
      simp only [hdecode, hlast, ne_eq, not_true_eq_false, if_false] at herror
      split at herror
      · obtain rfl := Except.error.inj herror
        exact id
      · cases herror

theorem encodePublicTxidUnshieldPreimages_error {records : List StoredPublicTxidRow}
    (hcoherent : ∀ record ∈ records, record.hasUnshield = true → CoherentUnshield contracts
      record.commitments record.unshieldPreimage)
    (herror : encodePublicTxidUnshieldPreimages contracts records = .error error) :
    ¬ error.IsIncoherent := by
  unfold encodePublicTxidUnshieldPreimages at herror
  simp only [] at herror
  split at herror
  · obtain rfl := Except.error.inj herror
    exact id
  · cases hparts : records.mapM (encodeUnshieldPreimage contracts) with
    | ok parts =>
        rw [hparts, ok_bind] at herror
        cases herror
    | error found =>
        rw [hparts, error_bind] at herror
        obtain rfl := Except.error.inj herror
        obtain ⟨record, hmem, hrecord⟩ := mapM_eq_error hparts
        exact encodeUnshieldPreimage_error (hcoherent record hmem) hrecord

/-! ### The whole batch -/

/-- The rows of the `Action` path carry coherent unshields, and no list of them, numbered in any
way, fails to publish for lack of coherence. -/
structure UnshieldsCoherent (contracts : Contracts) (actionStartBlock : Nat)
    (batch : IndexedLogBatch) : Prop where
  rows : ∀ row ∈ batch.publicTransactions, actionStartBlock ≤ row.source.blockNumber →
    row.hasUnshield = true → CoherentUnshield contracts row.commitments row.unshieldPreimage
  publication : ∀ records : List (Nat × IndexedPublicTransaction),
    (∀ record ∈ records, record.2 ∈ batch.publicTransactions
      ∧ actionStartBlock ≤ record.2.source.blockNumber) →
    ∀ error, encodePublicTxidUnshieldPreimages contracts
      (records.map fun record => storedPublicTxidRow record.1 record.2) = .error error →
      ¬ error.IsIncoherent

theorem unshieldsCoherent_of_rows {actionStartBlock : Nat} {batch : IndexedLogBatch}
    (hrows : ∀ row ∈ batch.publicTransactions, actionStartBlock ≤ row.source.blockNumber →
      row.hasUnshield = true → CoherentUnshield contracts row.commitments row.unshieldPreimage) :
    UnshieldsCoherent contracts actionStartBlock batch := by
  refine ⟨hrows, fun records hrecords error herror => ?_⟩
  refine encodePublicTxidUnshieldPreimages_error ?_ herror
  intro record hrecord hunshield
  obtain ⟨⟨txidIndex, row⟩, hmem, rfl⟩ := List.mem_map.mp hrecord
  obtain ⟨hrow, hblock⟩ := hrecords _ hmem
  exact hrows row hrow hblock hunshield

/-- **Unshield preimages are coherent exactly when the served calldata is.** From the first `Action`
block on, every row with an unshield carries a preimage of its last commitment, and publishes, if
and only if the embedded transactions that take over unshield rows commit to the preimages they
carry. -/
theorem unshieldsCoherent_iff {contracts : Contracts} {provider : Provider}
    {railgunContract : Address} {actionStartBlock : Nat} {batch after : IndexedLogBatch}
    {summaries : List TransactOutputSummary}
    (hinverse : ∀ preimage, contracts.decodePreimage (contracts.encodePreimage preimage)
      = some preimage)
    (horder : summaries.Perm (publicTransactionSummaries contracts batch).values)
    (hfresh : batch.publicTransactions = [])
    (hok : hydratePublicTransactions contracts provider railgunContract (some actionStartBlock)
      summaries batch = .ok after) :
    UnshieldsCoherent contracts actionStartBlock after
      ↔ ∀ summary ∈ summaries, actionStartBlock ≤ summary.source.blockNumber →
        CalldataCommitsToPreimages contracts provider summary
          (eventsOf (actionLogEventsByTransaction batch actionStartBlock) summary) := by
  obtain ⟨parts, hperm, houtcomes⟩ := hydratePublicTransactions_eq_ok horder hok
  rw [hfresh, List.nil_append] at hperm
  constructor
  · intro hcoherent summary hsummary hblock
    obtain ⟨rows, hrows, houtcome⟩ := exists_of_forall₂_left houtcomes hsummary
    obtain ⟨resolved, hresolved, hcarried⟩ := houtcome.actionRows (by simpa [fromActionLogs])
    refine (hresolved.coherent_iff hinverse).mp fun transaction htransaction => ?_
    obtain ⟨hmem, hunshield⟩ := List.mem_filter.mp htransaction
    obtain ⟨row, hrow, hcarries⟩ := hcarried.2 transaction hmem
    have hafter := hperm.symm.subset (List.mem_flatten.mpr ⟨rows, hrows, hrow⟩)
    have hrowCoherent := hcoherent.rows row hafter (by rwa [hcarries.source_eq])
      (hcarries.hasUnshield_eq.trans hunshield)
    rwa [hcarries.commitments_eq, hcarries.unshieldPreimage_eq] at hrowCoherent
  · intro hcommits
    refine unshieldsCoherent_of_rows fun row hmem hblock hunshield => ?_
    obtain ⟨rows, hrows, hrow⟩ := List.mem_flatten.mp (hperm.subset hmem)
    obtain ⟨summary, hsummary, houtcome⟩ := exists_of_forall₂_right houtcomes hrows
    rw [houtcome.sources row hrow] at hblock
    obtain ⟨resolved, hresolved, hcarried⟩ := houtcome.actionRows (by simpa [fromActionLogs])
    obtain ⟨transaction, htransaction, hcarries⟩ := hcarried.1 row hrow
    rw [hcarries.commitments_eq, hcarries.unshieldPreimage_eq]
    refine (hresolved.coherent_iff hinverse).mpr (hcommits summary hsummary hblock) transaction ?_
    exact List.mem_filter.mpr ⟨htransaction, hcarries.hasUnshield_eq.symm.trans hunshield⟩

/-! ### A redirected unshield

Bindings with an invertible encoding of preimages, and a batch with one call that unshields. The
calldata preimage of a redirected unshield names another recipient than its commitment. -/

def preimageCode (preimage : CommitmentPreimage) : Nat :=
  Nat.pair preimage.npk.val (Nat.pair preimage.token.tokenType
    (Nat.pair preimage.token.tokenAddress.val
      (Nat.pair preimage.token.tokenSubID.val preimage.value.val)))

def preimageOfCode (code : Nat) : CommitmentPreimage :=
  let tokenType := code.unpair.2.unpair
  let tokenAddress := tokenType.2.unpair
  let remaining := tokenAddress.2.unpair
  { npk := FixedBytes.ofNat code.unpair.1
    token :=
      { tokenType := tokenType.1
        tokenAddress := FixedBytes.ofNat tokenAddress.1
        tokenSubID := FixedBytes.ofNat remaining.1 }
    value := FixedBytes.ofNat remaining.2 }

theorem preimageOfCode_preimageCode (preimage : CommitmentPreimage) :
    preimageOfCode (preimageCode preimage) = preimage := by
  simp [preimageOfCode, preimageCode, Nat.unpair_pair, FixedBytes.ofNat]

def unshieldingTransaction (commitment npk : Bytes32) : Transaction where
  nullifiers := [5]
  commitments := [commitment]
  boundParams := { treeNumber := 0, unshield := 2, remaining := [] }
  unshieldPreimage :=
    { npk, token := { tokenType := 0, tokenAddress := 0, tokenSubID := 0 }, value := 0 }

def unshieldingContracts (transaction : Transaction) : Contracts :=
  { toyContracts with
    encodePreimage := fun preimage => List.replicate (preimageCode preimage) 0
    decodePreimage := fun encoded => some (preimageOfCode encoded.length)
    decodeTransact := fun calldata => if calldata = [1] then some [transaction] else none }

theorem decode_encode_unshieldingContracts (transaction : Transaction)
    (preimage : CommitmentPreimage) :
    (unshieldingContracts transaction).decodePreimage
      ((unshieldingContracts transaction).encodePreimage preimage) = some preimage := by
  change some (preimageOfCode (List.replicate (preimageCode preimage) (0 : UInt8)).length) = _
  rw [List.length_replicate, preimageOfCode_preimageCode]

def unshieldingProvider : Provider where
  getTransactionByHash _ := .ok (some [1])
  getBlockByHash blockHash := .ok (some { hash := blockHash, number := 1, timestamp := 7 })
  getFullBlockByHash _ := .ok none
  debugTraceTransaction _ := none
  traceTransaction _ := none

def unshieldingSource (logIndex : Nat) : IndexedLogSource where
  blockNumber := 1
  blockTimestamp := none
  blockHash := 3
  transactionHash := 4
  logIndex

def unshieldingConfig : TXConfig where
  nullifiersCount := 1
  commitmentsCount := 0
  hasUnshield := true
  boundParamsHash := 0

def unshieldingLog : Unshield where
  toAddress := 8
  token := { tokenType := 0, tokenAddress := 0, tokenSubID := 0 }
  amount := 0
  fee := 0

def unshieldingBatch : IndexedLogBatch where
  nullifiers := [{ treeNumber := 0, nullifier := 5, source := unshieldingSource 0 }]
  actions := [{ txconfigs := [unshieldingConfig], source := unshieldingSource 1 }]
  unshields := [{ unshield := unshieldingLog, source := unshieldingSource 2 }]

def unshieldingRow (transaction : Transaction) : IndexedPublicTransaction where
  source := unshieldingSource 0
  firstLogIndex := 0
  lastLogIndex := 0
  railgunTransactionIndex := 0
  id := displayBytes32 4 ++ ":" ++ toString 0
  blockTimestamp := 7
  nullifiers := [5]
  commitments := transaction.commitments
  boundParamsHash := 0
  hasUnshield := true
  unshieldPreimage :=
    some ((unshieldingContracts transaction).encodePreimage transaction.unshieldPreimage)
  utxoTreeIn := 0
  utxoTreeOut := modernUnshieldOnlyUtxoTree
  utxoBatchStartPositionOut := modernUnshieldOnlyUtxoPosition
  railgunTxid := 0

/-- The committed recipient is `8` and the calldata preimage names `9`: the row is stored with a
preimage of another commitment, and the chunk that contains it cannot be published. -/
theorem redirected_unshield_incoherent :
    let transaction := unshieldingTransaction 8 9
    let contracts := unshieldingContracts transaction
    let row := unshieldingRow transaction
    hydratePublicTransactions contracts unshieldingProvider 0 (some 1)
        (publicTransactionSummaries contracts unshieldingBatch).values unshieldingBatch
        = .ok { unshieldingBatch with publicTransactions := [row] }
      ∧ row.hasUnshield = true
      ∧ ¬ CoherentUnshield contracts row.commitments row.unshieldPreimage
      ∧ encodePublicTxidUnshieldPreimages contracts [storedPublicTxidRow 0 row]
        = .error (.unshieldCommitmentMismatch 0) := by
  intro transaction contracts row
  have hdecode : contracts.decodePreimage (contracts.encodePreimage transaction.unshieldPreimage)
      = some transaction.unshieldPreimage := decode_encode_unshieldingContracts transaction _
  have hmismatch : contracts.preimageHash transaction.unshieldPreimage ≠ 8 := by decide
  refine ⟨rfl, rfl, ?_, ?_⟩
  · rintro ⟨preimage, hpreimage, hlast⟩
    cases hdecode.symm.trans hpreimage
    exact hmismatch (Option.some.inj hlast).symm
  · have hrow : encodeUnshieldPreimage contracts (storedPublicTxidRow 0 row)
        = .error (.unshieldCommitmentMismatch 0) := by
      have hencoded : (storedPublicTxidRow 0 row).unshieldPreimage
          = some (contracts.encodePreimage transaction.unshieldPreimage) := rfl
      simp only [encodeUnshieldPreimage, hencoded, hdecode]
      rfl
    rw [encodePublicTxidUnshieldPreimages, List.mapM_cons, hrow]
    rfl

theorem unshieldsCoherent_direct :
    let contracts := unshieldingContracts (unshieldingTransaction 8 8)
    UnshieldsCoherent contracts 1
      { unshieldingBatch with publicTransactions := [unshieldingRow (unshieldingTransaction 8 8)] } := by
  intro contracts
  refine (@unshieldsCoherent_iff contracts unshieldingProvider 0 1 unshieldingBatch _ _
    (decode_encode_unshieldingContracts _) (.refl _) rfl rfl).mpr ?_
  intro summary _ _ frames calldata _ hserved row _ transaction hembedded _
  obtain rfl : [1] = calldata := Option.some.inj hserved
  rw [← mem_calldataTransactions] at hembedded
  obtain rfl : transaction = unshieldingTransaction 8 8 := List.mem_singleton.mp hembedded
  rfl

end RailgunIndexer
