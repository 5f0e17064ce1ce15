import RailgunIndexer.ActionLogs
import RailgunIndexer.Ingest
import RailgunIndexer.Lib.Fallible

/-!
# Rows of ingested logs

Where the rows of a log come from and where they are placed. The hashes of one `Transact` log sit at
consecutive global positions, whatever tree boundaries they cross.
-/

namespace RailgunIndexer

open Lib Lib.Fallible

def positionBound : Nat := u32Bound * treeLeafCount

section Positions

variable {position : Nat}

theorem normalizedGlobalPosition_of_lt (hlt : position < positionBound) :
    normalizedGlobalPosition position
      = .ok (position / treeLeafCount, position % treeLeafCount) := by
  have hdiv : position / treeLeafCount < u32Bound :=
    Nat.div_lt_of_lt_mul (by rw [Nat.mul_comm]; exact hlt)
  rw [normalizedGlobalPosition, normalizeTreePosition, if_neg (by omega), if_neg (by omega),
    Nat.zero_add]

theorem normalizedGlobalPosition_of_ge (hge : positionBound ≤ position) :
    normalizedGlobalPosition position = .error (.integerOverflow "tree_number") := by
  have hdiv : u32Bound ≤ position / treeLeafCount :=
    (Nat.le_div_iff_mul_le (by decide)).mpr hge
  rw [normalizedGlobalPosition, normalizeTreePosition, if_pos hdiv]

theorem normalizedGlobalPosition_eq_ok {place : Nat × Nat}
    (hplace : normalizedGlobalPosition position = .ok place) :
    position < positionBound ∧ place = (position / treeLeafCount, position % treeLeafCount) := by
  rcases Nat.lt_or_ge position positionBound with hlt | hge
  · rw [normalizedGlobalPosition_of_lt hlt] at hplace
    exact ⟨hlt, (Except.ok.inj hplace).symm⟩
  · rw [normalizedGlobalPosition_of_ge hge] at hplace
    cases hplace

theorem globalTreePosition_of_normalized {treeNumber startPosition index tree : Nat}
    (hnormal : normalizedEventPosition treeNumber startPosition index = .ok (tree, position)) :
    globalTreePosition tree position
        = .ok (treeNumber * treeLeafCount + startPosition + index)
      ∧ tree * treeLeafCount + position = treeNumber * treeLeafCount + startPosition + index
      ∧ treeNumber * treeLeafCount + startPosition + index < positionBound := by
  unfold normalizedEventPosition normalizeTreePosition at hnormal
  split_ifs at hnormal with hsum hincrement htree
  obtain ⟨rfl, rfl⟩ := hnormal
  have hglobal : (treeNumber + (startPosition + index) / treeLeafCount) * treeLeafCount
      + (startPosition + index) % treeLeafCount
      = treeNumber * treeLeafCount + startPosition + index := by
    simp only [treeLeafCount]
    omega
  have hlt : treeNumber * treeLeafCount + startPosition + index < positionBound := by
    simp only [positionBound, treeLeafCount, u32Bound] at htree ⊢
    omega
  have hwide : positionBound < u64Bound := by decide
  rw [globalTreePosition, hglobal]
  exact ⟨if_neg (by omega), rfl, hlt⟩

end Positions

section Rows

variable {log : Log} {source : IndexedLogSource} {ciphertext : List Bytes} {hash : List Bytes32}
  {startPosition treeNumber : Nat}

theorem requireMetadata_eq_ok {α : Type} {field : String} {found : Option α} {value : α} :
    requireMetadata field found = .ok value ↔ found = some value := by
  cases found <;> simp [requireMetadata]

theorem sourceFromLog_eq_ok (hsource : sourceFromLog log = .ok source) :
    log.blockNumber = some source.blockNumber ∧ log.transactionHash = some source.transactionHash
      ∧ log.logIndex = some source.logIndex := by
  simp only [sourceFromLog, bind_eq_ok, requireMetadata_eq_ok, pure_eq_ok, Except.ok.injEq]
    at hsource
  obtain ⟨blockNumber, hnumber, blockHash, -, transactionHash, hhash, logIndex, hindex, rfl⟩ := hsource
  exact ⟨hnumber, hhash, hindex⟩

theorem transactRows_eq_ok {rows : List IndexedTransactCommitment}
    (hrows : transactRows treeNumber startPosition ciphertext source hash = .ok rows) :
    (∀ row ∈ rows, row.source = source) ∧ rows.map (fun row => row.hash) = hash := by
  constructor
  · refine forall_mem_of_mapM hrows ?_
    rintro ⟨hash, index⟩ row hrow
    obtain ⟨⟨tree, position⟩, -, hrow⟩ := bind_eq_ok.mp hrow
    rw [← Except.ok.inj hrow]
  · have hmap : rows.map (fun row => row.hash) = hash.zipIdx.map Prod.fst := by
      refine map_eq_of_mapM hrows ?_
      rintro ⟨hash, index⟩ row hrow
      obtain ⟨⟨tree, position⟩, -, hrow⟩ := bind_eq_ok.mp hrow
      rw [← Except.ok.inj hrow]
    rw [hmap, List.zipIdx_map_fst]

theorem transactRows_getElem {rows : List IndexedTransactCommitment}
    (hrows : transactRows treeNumber startPosition ciphertext source hash = .ok rows) {index : Nat}
    {row : IndexedTransactCommitment} (hrow : rows[index]? = some row) :
    normalizedEventPosition treeNumber startPosition index
      = .ok (row.treeNumber, row.treePosition) := by
  obtain ⟨hlength, hitems⟩ := List.forall₂_iff_get.mp (mapM_eq_ok_iff.mp hrows)
  obtain ⟨hlt, rfl⟩ := List.getElem?_eq_some_iff.mp hrow
  have hitem := hitems index (by omega) hlt
  obtain ⟨⟨tree, position⟩, hposition, hresult⟩ := bind_eq_ok.mp hitem
  simp only [List.get_eq_getElem, List.getElem_zipIdx, Nat.zero_add] at hposition hresult
  rw [hposition, ← Except.ok.inj hresult]

theorem shieldRows_source {commitments : List CommitmentPreimage} {ciphertexts : List Bytes}
    {rows : List IndexedShieldCommitment}
    (hrows : shieldRows treeNumber startPosition commitments ciphertexts source = .ok rows) :
    ∀ row ∈ rows, row.source = source := by
  refine forall_mem_of_mapM hrows fun item row hrow => ?_
  obtain ⟨place, -, heq⟩ := bind_eq_ok.mp hrow
  rw [← Except.ok.inj heq]

theorem legacyEncryptedRows_source {hash : List U256} {rows : List IndexedLegacyEncryptedCommitment}
    (hrows : legacyEncryptedRows treeNumber startPosition hash ciphertext source = .ok rows) :
    ∀ row ∈ rows, row.source = source := by
  refine forall_mem_of_mapM hrows fun item row hrow => ?_
  obtain ⟨place, -, heq⟩ := bind_eq_ok.mp hrow
  rw [← Except.ok.inj heq]

theorem legacyGeneratedRows_source {commitments : List LegacyCommitmentPreimage}
    {encryptedRandom : List (U256 × U256)} {rows : List IndexedLegacyGeneratedCommitment}
    (hrows : legacyGeneratedRows treeNumber startPosition commitments encryptedRandom source = .ok
      rows) : ∀ row ∈ rows, row.source = source := by
  refine forall_mem_of_mapM hrows fun item row hrow => ?_
  obtain ⟨place, -, heq⟩ := bind_eq_ok.mp hrow
  rw [← Except.ok.inj heq]

end Rows

/-! ### What one log adds -/

def LogEvent.actionLogEvent? : LogEvent → Option ActionLogEvent
  | .transact _ _ hash _ => some (.transact hash)
  | .nullifiers treeNumber nullifier => some (.nullified treeNumber.val nullifier)
  | .nullified treeNumber nullifier => some (.nullified treeNumber.val nullifier)
  | .action txconfigs => some (.action txconfigs)
  | .unshield event => some (.unshield event)
  | _ => none

section Sources

variable {batch after : IndexedLogBatch} {log : Log} {source : IndexedLogSource}

inductive Ingested (batch : IndexedLogBatch) (log : Log) : IndexedLogBatch → Prop
  | transact {source : IndexedLogSource} {rows : List IndexedTransactCommitment}
      (hevent : log.event.actionLogEvent? = some (.transact (rows.map fun row => row.hash)))
      (hsource : sourceFromLog log = .ok source) (hrows : ∀ row ∈ rows, row.source = source) :
      Ingested batch log { batch with transactCommitments := batch.transactCommitments ++ rows }
  | nullified {source : IndexedLogSource} {treeNumber : Nat} {nullifiers : List Bytes32}
      (hevent : log.event.actionLogEvent? = some (.nullified treeNumber nullifiers))
      (hsource : sourceFromLog log = .ok source) :
      Ingested batch log { batch with
        nullifiers := batch.nullifiers ++ nullifierRows treeNumber source nullifiers }
  | action {source : IndexedLogSource} {txconfigs : List TXConfig}
      (hevent : log.event.actionLogEvent? = some (.action txconfigs))
      (hsource : sourceFromLog log = .ok source) :
      Ingested batch log { batch with actions := batch.actions ++ [⟨txconfigs, source⟩] }
  | unshield {source : IndexedLogSource} {unshield : Unshield}
      (hevent : log.event.actionLogEvent? = some (.unshield unshield))
      (hsource : sourceFromLog log = .ok source) :
      Ingested batch log { batch with unshields := batch.unshields ++ [⟨unshield, source⟩] }
  | shield {source : IndexedLogSource} {rows : List IndexedShieldCommitment}
      (hevent : log.event.actionLogEvent? = none)
      (hsource : sourceFromLog log = .ok source) (hrows : ∀ row ∈ rows, row.source = source) :
      Ingested batch log { batch with shieldCommitments := batch.shieldCommitments ++ rows }
  | legacyEncrypted {source : IndexedLogSource} {rows : List IndexedLegacyEncryptedCommitment}
      (hevent : log.event.actionLogEvent? = none)
      (hsource : sourceFromLog log = .ok source) (hrows : ∀ row ∈ rows, row.source = source) :
      Ingested batch log { batch with
        legacyEncryptedCommitments := batch.legacyEncryptedCommitments ++ rows }
  | legacyGenerated {source : IndexedLogSource} {rows : List IndexedLegacyGeneratedCommitment}
      (hevent : log.event.actionLogEvent? = none)
      (hsource : sourceFromLog log = .ok source) (hrows : ∀ row ∈ rows, row.source = source) :
      Ingested batch log { batch with
        legacyGeneratedCommitments := batch.legacyGeneratedCommitments ++ rows }
  | other (hevent : log.event.actionLogEvent? = none) : Ingested batch log batch

theorem uintTo_eq_ok {bound value : Nat} {word : U256} (hok : uintTo bound word = .ok value) :
    value = word.val := by
  unfold uintTo at hok
  split_ifs at hok
  exact (Except.ok.inj hok).symm

theorem ingested_of_ingestShieldCommitments {treeNumber startPosition : U256}
    {commitments : List CommitmentPreimage} {ciphertexts : List Bytes}
    (hevent : log.event.actionLogEvent? = none)
    (hok : ingestShieldCommitments batch log treeNumber startPosition commitments ciphertexts
      = .ok after) : Ingested batch log after := by
  simp only [ingestShieldCommitments, bind_eq_ok, pure_eq_ok, Except.ok.injEq] at hok
  obtain ⟨source, hsource, tree, -, start, -, rows, hrows, rfl⟩ := hok
  exact .shield hevent hsource (shieldRows_source hrows)

theorem ingested_of_ok (hok : ingestLog batch log = .ok after) : Ingested batch log after := by
  unfold ingestLog at hok
  cases hevent : log.event with
  | transact treeNumber startPosition hash ciphertext =>
      simp only [hevent, bind_eq_ok, pure_eq_ok, Except.ok.injEq] at hok
      obtain ⟨tree, -, start, -, source, hsource, rows, hrows, rfl⟩ := hok
      obtain ⟨horigin, hhashes⟩ := transactRows_eq_ok hrows
      exact .transact (by rw [hevent, hhashes]; rfl) hsource horigin
  | shield treeNumber startPosition commitments ciphertexts
  | legacyShield treeNumber startPosition commitments ciphertexts =>
      simp only [hevent] at hok
      exact ingested_of_ingestShieldCommitments (by rw [hevent]; rfl) hok
  | nullifiers treeNumber nullifier =>
      simp only [hevent, bind_eq_ok, pure_eq_ok, Except.ok.injEq] at hok
      obtain ⟨tree, htree, source, hsource, rfl⟩ := hok
      obtain rfl := uintTo_eq_ok htree
      exact .nullified (by rw [hevent]; rfl) hsource
  | nullified treeNumber nullifier =>
      simp only [hevent, bind_eq_ok, pure_eq_ok, Except.ok.injEq] at hok
      obtain ⟨source, hsource, rfl⟩ := hok
      exact .nullified (by rw [hevent]; rfl) hsource
  | action txconfigs =>
      simp only [hevent, bind_eq_ok, pure_eq_ok, Except.ok.injEq] at hok
      obtain ⟨source, hsource, rfl⟩ := hok
      exact .action (by rw [hevent]; rfl) hsource
  | unshield unshield =>
      simp only [hevent, bind_eq_ok, pure_eq_ok, Except.ok.injEq] at hok
      obtain ⟨source, hsource, rfl⟩ := hok
      exact .unshield (by rw [hevent]; rfl) hsource
  | commitmentBatch treeNumber startPosition hash ciphertext =>
      simp only [hevent, bind_eq_ok, pure_eq_ok, Except.ok.injEq] at hok
      obtain ⟨tree, -, start, -, source, hsource, rows, hrows, rfl⟩ := hok
      exact .legacyEncrypted (by rw [hevent]; rfl) hsource (legacyEncryptedRows_source hrows)
  | generatedCommitmentBatch treeNumber startPosition commitments encryptedRandom =>
      simp only [hevent, bind_eq_ok, pure_eq_ok, Except.ok.injEq] at hok
      obtain ⟨tree, -, start, -, source, hsource, rows, hrows, rfl⟩ := hok
      exact .legacyGenerated (by rw [hevent]; rfl) hsource (legacyGeneratedRows_source hrows)
  | undecodable =>
      simp only [hevent] at hok
      cases hok
  | other =>
      simp only [hevent, Except.ok.injEq] at hok
      subst hok
      exact .other (by rw [hevent]; rfl)

structure Gains (log : Log) (batch after : IndexedLogBatch) : Prop where
  sources : ∀ source ∈ logSources after, source ∈ logSources batch ∨ sourceFromLog log = .ok source
  publicTransactions_eq : after.publicTransactions = batch.publicTransactions

theorem gains_of_rows {ω : Type} {rows : List ω} {read : ω → IndexedLogSource}
    (hsource : sourceFromLog log = .ok source) (hrows : ∀ row ∈ rows, read row = source)
    (hafter : ∀ found, found ∈ logSources after → found ∈ logSources batch ∨ found ∈ rows.map read)
    (hpublic : after.publicTransactions = batch.publicTransactions) : Gains log batch after := by
  refine ⟨fun found hfound => (hafter found hfound).imp_right fun hnew => ?_, hpublic⟩
  obtain ⟨row, hrow, rfl⟩ := List.mem_map.mp hnew
  rw [hsource, hrows row hrow]

theorem Ingested.gains (hingested : Ingested batch log after) : Gains log batch after := by
  cases hingested with
  | transact _ hsource hrows | shield _ hsource hrows | legacyEncrypted _ hsource hrows
  | legacyGenerated _ hsource hrows =>
      refine gains_of_rows hsource hrows (fun found => ?_) rfl
      simp only [logSources, List.map_append, List.mem_append]
      tauto
  | @nullified source treeNumber nullifiers _ hsource =>
      refine @gains_of_rows _ _ _ _ _ (nullifierRows treeNumber source nullifiers)
        (fun row => row.source) hsource (by simp [nullifierRows]) (fun found => ?_) rfl
      simp only [logSources, List.map_append, List.mem_append]
      tauto
  | action | unshield | other => exact ⟨fun _ => .inl, rfl⟩

theorem ingestChainLogs_sources {logs : List Log} (hok : ingestChainLogs logs = .ok batch) :
    (∀ source ∈ logSources batch, ∃ log ∈ logs, sourceFromLog log = .ok source)
      ∧ batch.publicTransactions = [] := by
  refine @foldlM_invariant _ _ _ ingestLog
    (fun batch => (∀ source ∈ logSources batch, ∃ log ∈ logs, sourceFromLog log = .ok source)
      ∧ batch.publicTransactions = []) logs {} batch hok ⟨by simp [logSources], rfl⟩ ?_
  rintro batch log hlog after ⟨hsources, hnone⟩ hstep
  have hgains := (ingested_of_ok hstep).gains
  refine ⟨fun source hsource => ?_, hgains.publicTransactions_eq.trans hnone⟩
  obtain hold | hnew := hgains.sources source hsource
  · exact hsources source hold
  · exact ⟨log, hlog, hnew⟩

end Sources

end RailgunIndexer
