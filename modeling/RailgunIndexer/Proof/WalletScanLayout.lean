import RailgunIndexer.WalletScanChunk
import RailgunIndexer.Proof.RecordLayout
import RailgunIndexer.Proof.WalletScanRows

/-!
# Wallet-scan sections read back

The Squid verifier reads the five sections of a wallet-scan chunk. From what the publisher writes it
takes the rows of the five tables.
-/

namespace RailgunIndexer

open Lib Fallible Cursor

/-! ### Checked sums -/

section Sums

variable {ε : Type} {overflow : ε} {counts : List Nat} {start total : Nat}

theorem foldlM_addChecked (hok : counts.foldlM (addChecked overflow) start = .ok total) :
    total = start + counts.sum := by
  induction counts generalizing start with
  | nil => exact (Except.ok.inj hok).symm
  | cons count counts ih =>
      obtain ⟨middle, hstep, hok⟩ := bind_eq_ok.mp hok
      rw [addChecked] at hstep
      split_ifs at hstep
      rw [ih hok, ← Except.ok.inj hstep, List.sum_cons, Nat.add_assoc]

theorem foldlM_addChecked_lt (hok : counts.foldlM (addChecked overflow) start = .ok total)
    (hstart : start < u64Bound) : total < u64Bound := by
  refine @foldlM_invariant _ _ _ _ (fun total => total < u64Bound) _ _ _ hok hstart ?_
  intro total count _ after _ hstep
  rw [addChecked] at hstep
  split_ifs at hstep with hfits
  rw [← Except.ok.inj hstep]
  omega

theorem exists_foldlM_addChecked (overflow : ε) (hfits : start + counts.sum < u64Bound) :
    counts.foldlM (addChecked overflow) start = .ok (start + counts.sum) := by
  induction counts generalizing start with
  | nil => rfl
  | cons count counts ih =>
      rw [List.sum_cons, ← Nat.add_assoc] at hfits ⊢
      have hstep : addChecked overflow start count = .ok (start + count) :=
        if_neg (by omega)
      rw [List.foldlM_cons, hstep, ok_bind, ih hfits]

end Sums

theorem sum_counts (rows : StoredWalletScanRows) :
    0 + [rows.transactCommitments.length, rows.shieldCommitments.length, rows.nullifiers.length,
      rows.legacyEncryptedCommitments.length, rows.legacyGeneratedCommitments.length].sum
        = rows.count := by
  simp only [List.sum_cons, List.sum_nil, StoredWalletScanRows.count]
  omega

namespace SquidParity

/-! ### Rows -/

theorem reads_fixed64 (words : U256 × U256) :
    Reads readFixed64 (writeBytes32 words.1 ++ writeBytes32 words.2) words :=
  (reads_fixed32 words.1).bind (reads_fixed32 words.2).map

theorem reads_bytes {value bytes : Bytes} (hok : writeScanBytes value = .ok bytes) :
    Reads readBytes bytes value := by
  rw [writeScanBytes] at hok
  split_ifs at hok with hlength
  cases hok
  exact (reads_u32 (Nat.lt_of_not_le hlength)).bind (reads_exact _ value)

theorem expectEnd_whole (label : String) (bytes : Bytes) :
    expectEnd label ⟨bytes, bytes.length⟩ = .ok () :=
  if_neg (not_not.mpr rfl)

theorem reads_writeRecords {ρ σ : Type} {write : ρ → Except WalletScanChunkError Bytes}
    {read : ParityReader σ} {records : List ρ} {row : ρ → σ} {bytes : Bytes}
    (hlength : records.length < u64Bound)
    (hrow : ∀ record ∈ records, ∀ part, write record = .ok part → Reads read part (row record))
    (hok : writeRecords write records = .ok bytes) :
    Reads (readRows read) bytes (records.map row) := by
  obtain ⟨parts, hparts, hok⟩ := bind_eq_ok.mp hok
  cases hok
  exact reads_rows hlength (forall₂_of_mapM hparts hrow)

theorem writeRecords_ne_nil {ρ : Type} {write : ρ → Except WalletScanChunkError Bytes}
    {records : List ρ} {bytes : Bytes} (hok : writeRecords write records = .ok bytes) :
    bytes ≠ [] := by
  obtain ⟨parts, -, hok⟩ := bind_eq_ok.mp hok
  cases hok
  exact writeLittleEndian_append_ne_nil _ (by decide)

/-! ### Wallet-scan rows -/

structure FitsSource (source : StoredIndexedLogSourceRow) : Prop where
  blockNumber : source.blockNumber < u64Bound
  blockTimestamp : ∀ timestamp, source.blockTimestamp = some timestamp → timestamp < u64Bound

structure FitsRow (source : StoredIndexedLogSourceRow) (treeNumber treePosition : Nat) : Prop where
  source : FitsSource source
  treeNumber : treeNumber < u32Bound
  treePosition : treePosition < u64Bound

def sourceSubset (source : StoredIndexedLogSourceRow) : SourceSubset :=
  ⟨source.blockNumber, source.blockTimestamp, source.transactionHash⟩

theorem reads_source {name : String} {source : StoredIndexedLogSourceRow} {bytes : Bytes}
    (hfits : FitsSource source) (hok : writeSource name source = .ok bytes) :
    Reads readSource bytes (sourceSubset source) := by
  rw [writeSource] at hok
  split at hok
  · cases hok
  · rename_i timestamp htimestamp
    cases hok
    rw [sourceSubset, htimestamp, List.append_assoc]
    refine (reads_u64 hfits.blockNumber).bind ?_
    exact (reads_u64 (hfits.blockTimestamp _ htimestamp)).bind (reads_fixed32 _).map

section Rows

variable (decodeCiphertext : Bytes → Option TransactCiphertextOverlap)
  {bytes : Bytes}

def transactRow (record : StoredTransactCommitmentRow) : TransactWalletRow where
  key := (sourceSubset record.source).key record.treeNumber (some record.treePosition)
    record.commitmentHash
  blockTimestamp := record.source.blockTimestamp
  ciphertext := decodeCiphertext record.ciphertext

def shieldRow (record : StoredShieldCommitmentRow) : ShieldWalletRow where
  key := (sourceSubset record.source).key record.treeNumber (some record.treePosition)
    record.commitmentHash
  blockTimestamp := record.source.blockTimestamp
  preimage := record.preimage
  shieldCiphertext := record.shieldCiphertext

def nullifierRow (record : StoredNullifierRow) : NullifierWalletRow where
  key := (sourceSubset record.source).key record.treeNumber none record.nullifier
  blockTimestamp := record.source.blockTimestamp

def legacyEncryptedRow (record : StoredLegacyEncryptedCommitmentRow) : LegacyEncryptedWalletRow where
  key := (sourceSubset record.source).key record.treeNumber (some record.treePosition)
    record.commitmentHash
  blockTimestamp := record.source.blockTimestamp
  ciphertext := record.ciphertext

def legacyGeneratedRow (record : StoredLegacyGeneratedCommitmentRow) : LegacyGeneratedWalletRow where
  key := (sourceSubset record.source).key record.treeNumber (some record.treePosition)
    record.commitmentHash
  blockTimestamp := record.source.blockTimestamp
  preimage := record.preimage
  encryptedRandom := record.encryptedRandom

variable {decodeCiphertext}

theorem reads_transactRow {record : StoredTransactCommitmentRow}
    (hfits : FitsRow record.source record.treeNumber record.treePosition)
    (hdecodes : (decodeCiphertext record.ciphertext).isSome = true)
    (hok : writeTransactRecord record = .ok bytes) :
    Reads (readTransactRow decodeCiphertext) bytes (transactRow decodeCiphertext record) := by
  obtain ⟨source, hsource, hok⟩ := bind_eq_ok.mp hok
  obtain ⟨ciphertext, hciphertext, hok⟩ := bind_eq_ok.mp hok
  cases hok
  obtain ⟨overlap, hoverlap⟩ := Option.isSome_iff_exists.mp hdecodes
  have hdecoded : Reads (parseTransactCiphertextOverlap decodeCiphertext record.ciphertext) []
      overlap := by
    rw [parseTransactCiphertextOverlap, hoverlap]
    exact Reads.pure overlap
  rw [transactRow, hoverlap, ← List.append_nil ciphertext]
  simp only [List.append_assoc]
  refine (reads_source hfits.source hsource).bind ((reads_u32 hfits.treeNumber).bind ?_)
  refine (reads_u64 hfits.treePosition).bind ((reads_fixed32 _).bind ?_)
  exact (reads_bytes hciphertext).bind hdecoded.map

theorem reads_shieldRow {record : StoredShieldCommitmentRow}
    (hfits : FitsRow record.source record.treeNumber record.treePosition)
    (hok : writeShieldRecord record = .ok bytes) : Reads readShieldRow bytes (shieldRow record) := by
  obtain ⟨source, hsource, hok⟩ := bind_eq_ok.mp hok
  obtain ⟨preimage, hpreimage, hok⟩ := bind_eq_ok.mp hok
  obtain ⟨ciphertext, hciphertext, hok⟩ := bind_eq_ok.mp hok
  cases hok
  simp only [List.append_assoc]
  refine (reads_source hfits.source hsource).bind ((reads_u32 hfits.treeNumber).bind ?_)
  refine (reads_u64 hfits.treePosition).bind ((reads_fixed32 _).bind ?_)
  exact (reads_bytes hpreimage).bind (reads_bytes hciphertext).map

theorem reads_nullifierRow {record : StoredNullifierRow}
    (hsourceFits : FitsSource record.source) (htree : record.treeNumber < u32Bound)
    (hok : writeNullifierRecord record = .ok bytes) :
    Reads readNullifierRow bytes (nullifierRow record) := by
  obtain ⟨source, hsource, hok⟩ := bind_eq_ok.mp hok
  cases hok
  simp only [List.append_assoc]
  refine (reads_source hsourceFits hsource).bind ((reads_u32 htree).bind ?_)
  exact (reads_fixed32 _).map

theorem reads_legacyEncryptedRow {record : StoredLegacyEncryptedCommitmentRow}
    (hfits : FitsRow record.source record.treeNumber record.treePosition)
    (hok : writeLegacyEncryptedRecord record = .ok bytes) :
    Reads readLegacyEncryptedRow bytes (legacyEncryptedRow record) := by
  obtain ⟨source, hsource, hok⟩ := bind_eq_ok.mp hok
  obtain ⟨ciphertext, hciphertext, hok⟩ := bind_eq_ok.mp hok
  cases hok
  simp only [List.append_assoc]
  refine (reads_source hfits.source hsource).bind ((reads_u32 hfits.treeNumber).bind ?_)
  refine (reads_u64 hfits.treePosition).bind ((reads_fixed32 _).bind ?_)
  exact (reads_bytes hciphertext).map

theorem reads_legacyGeneratedRow {record : StoredLegacyGeneratedCommitmentRow}
    (hfits : FitsRow record.source record.treeNumber record.treePosition)
    (hok : writeLegacyGeneratedRecord record = .ok bytes) :
    Reads readLegacyGeneratedRow bytes (legacyGeneratedRow record) := by
  obtain ⟨source, hsource, hok⟩ := bind_eq_ok.mp hok
  obtain ⟨preimage, hpreimage, hok⟩ := bind_eq_ok.mp hok
  cases hok
  simp only [List.append_assoc]
  refine (reads_source hfits.source hsource).bind ((reads_u32 hfits.treeNumber).bind ?_)
  refine (reads_u64 hfits.treePosition).bind ((reads_fixed32 _).bind ?_)
  exact (reads_bytes hpreimage).bind (reads_fixed64 _).map

end Rows

/-! ### Wallet-scan sections -/

section Sections

variable {decodeCiphertext : Bytes → Option TransactCiphertextOverlap}
  {before after : WalletScanPayload} {wallet next : WalletArtifacts} {rows : StoredWalletScanRows}
  {sectionId : Nat}

structure Parsed (decodeCiphertext : Bytes → Option TransactCiphertextOverlap)
    (before : WalletScanPayload) (wallet : WalletArtifacts) : Prop where
  parses : ∀ rest, before.sections.foldlM
    (parseWalletSection decodeCiphertext (before.payload ++ rest)) {} = .ok wallet
  tiles : SectionsTile before.sections before.payload

theorem parseWalletSection_of_reads {front bytes rest : Bytes}
    (hreads : Reads (readWalletSection decodeCiphertext wallet sectionId) bytes next) :
    parseWalletSection decodeCiphertext (front ++ bytes ++ rest) wallet
      ⟨sectionId, front.length, bytes.length⟩ = .ok next := by
  have hinside : ¬ (front ++ bytes ++ rest).length < front.length + bytes.length := by
    rw [List.length_append, List.length_append]
    omega
  rw [parseWalletSection, if_neg hinside, List.append_assoc, List.drop_left, List.take_left,
    hreads.whole, ok_bind]
  dsimp only
  rw [expectEnd_whole, ok_bind, pure_eq_ok]

theorem Parsed.append {written : Except WalletScanChunkError Bytes}
    (hparsed : Parsed decodeCiphertext before wallet)
    (hok : appendSection sectionId written before = .ok after)
    (hwritten : ∀ bytes, written = .ok bytes → bytes ≠ []
      ∧ Reads (readWalletSection decodeCiphertext wallet sectionId) bytes next) :
    Parsed decodeCiphertext after next := by
  obtain ⟨bytes, hbytes, hok⟩ := bind_eq_ok.mp hok
  cases hok
  obtain ⟨hne, hreads⟩ := hwritten bytes hbytes
  refine ⟨?_, hparsed.tiles.append hne sectionId⟩
  intro rest
  have hbefore := hparsed.parses (bytes ++ rest)
  rw [← List.append_assoc] at hbefore
  rw [List.foldlM_append, hbefore, ok_bind, List.foldlM_cons, parseWalletSection_of_reads hreads,
    ok_bind, List.foldlM_nil, pure_eq_ok]

theorem Parsed.appendRecords {ρ σ : Type}
    {write : ρ → Except WalletScanChunkError Bytes} {read : ParityReader σ} {records : List ρ}
    {row : ρ → σ} {keep : List σ → WalletArtifacts}
    (hparsed : Parsed decodeCiphertext before wallet)
    (hok : appendSection sectionId (writeRecords write records) before = .ok after)
    (hsection : readWalletSection decodeCiphertext wallet sectionId = (do
      let found ← readRows read
      pure (keep found)))
    (hlength : records.length < u64Bound)
    (hrow : ∀ record ∈ records, ∀ part, write record = .ok part → Reads read part (row record)) :
    Parsed decodeCiphertext after (keep (records.map row)) := by
  apply hparsed.append hok
  intro bytes hbytes
  refine ⟨writeRecords_ne_nil hbytes, ?_⟩
  rw [hsection]
  exact (reads_writeRecords hlength hrow hbytes).map

structure FitsScan (rows : StoredWalletScanRows) : Prop where
  transact : ∀ record ∈ rows.transactCommitments,
    FitsRow record.source record.treeNumber record.treePosition
  shield : ∀ record ∈ rows.shieldCommitments,
    FitsRow record.source record.treeNumber record.treePosition
  nullifier : ∀ record ∈ rows.nullifiers,
    FitsSource record.source ∧ record.treeNumber < u32Bound
  legacyEncrypted : ∀ record ∈ rows.legacyEncryptedCommitments,
    FitsRow record.source record.treeNumber record.treePosition
  legacyGenerated : ∀ record ∈ rows.legacyGeneratedCommitments,
    FitsRow record.source record.treeNumber record.treePosition

def walletArtifacts (decodeCiphertext : Bytes → Option TransactCiphertextOverlap)
    (rows : StoredWalletScanRows) : WalletArtifacts where
  transact := rows.transactCommitments.map (transactRow decodeCiphertext)
  shield := rows.shieldCommitments.map shieldRow
  nullifiers := rows.nullifiers.map nullifierRow
  legacyEncrypted := rows.legacyEncryptedCommitments.map legacyEncryptedRow
  legacyGenerated := rows.legacyGeneratedCommitments.map legacyGeneratedRow

theorem parsed_encodeWalletScanRecords {encoded : WalletScanPayload} {rowCount : Nat}
    (hfits : FitsScan rows)
    (hciphertexts : ∀ record ∈ rows.transactCommitments,
      (decodeCiphertext record.ciphertext).isSome = true)
    (hok : encodeWalletScanRecords rows = .ok (encoded, rowCount)) :
    Parsed decodeCiphertext encoded (walletArtifacts decodeCiphertext rows) := by
  obtain ⟨_, htransact, hok⟩ := bind_eq_ok.mp hok
  obtain ⟨_, hshield, hok⟩ := bind_eq_ok.mp hok
  obtain ⟨_, hnullifier, hok⟩ := bind_eq_ok.mp hok
  obtain ⟨_, hencrypted, hok⟩ := bind_eq_ok.mp hok
  obtain ⟨_, hgenerated, hok⟩ := bind_eq_ok.mp hok
  obtain ⟨total, hcount, hok⟩ := bind_eq_ok.mp hok
  cases hok
  have htotal := foldlM_addChecked_lt hcount (by decide)
  rw [foldlM_addChecked hcount, sum_counts, StoredWalletScanRows.count] at htotal
  have hstart : Parsed decodeCiphertext ⟨[], []⟩ {} := ⟨fun _ => rfl, sectionsTile_nil⟩
  have htransacts := hstart.appendRecords htransact rfl (by omega) fun record hrecord _ =>
    reads_transactRow (hfits.transact record hrecord) (hciphertexts record hrecord)
  have hshields := htransacts.appendRecords hshield rfl (by omega) fun record hrecord _ =>
    reads_shieldRow (hfits.shield record hrecord)
  have hnullifiers := hshields.appendRecords hnullifier rfl (by omega) fun record hrecord _ =>
    reads_nullifierRow (hfits.nullifier record hrecord).1 (hfits.nullifier record hrecord).2
  have hencrypteds := hnullifiers.appendRecords hencrypted rfl (by omega) fun record hrecord _ =>
    reads_legacyEncryptedRow (hfits.legacyEncrypted record hrecord)
  exact hencrypteds.appendRecords hgenerated rfl (by omega) fun record hrecord _ =>
    reads_legacyGeneratedRow (hfits.legacyGenerated record hrecord)

end Sections

end SquidParity

end RailgunIndexer
