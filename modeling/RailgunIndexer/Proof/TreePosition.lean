import RailgunIndexer.OutputMatch
import RailgunIndexer.Proof.Ingest

/-!
# Positions in the forest of trees

A tree number and a position name a leaf of one endless tree, its global position. Normalizing keeps
the global position and fails only where the tree number leaves its 32 bits, so the leaves of one
event occupy consecutive global positions whatever tree boundaries they cross.
-/

namespace RailgunIndexer

open Lib Lib.Fallible

/-! ### Normal places -/

variable {treeNumber : UInt32} {treePosition : UInt64}

def globalOf (place : Nat × Nat) : Nat := place.1 * treeLeafCount + place.2

structure NormalPlace (place : Nat × Nat) : Prop where
  tree_lt : place.1 < u32Bound
  position_lt : place.2 < treeLeafCount

section Places

variable {treeNumber treePosition : Nat} {place : Nat × Nat}

theorem NormalPlace.globalOf_lt (hplace : NormalPlace place) : globalOf place < positionBound := by
  have htree := hplace.tree_lt
  have hposition := hplace.position_lt
  simp only [globalOf, positionBound, u32Bound, treeLeafCount] at *
  omega

theorem normalizeTreePosition_eq_ok_iff :
    normalizeTreePosition treeNumber treePosition = .ok place
      ↔ treeNumber + treePosition / treeLeafCount < u32Bound
        ∧ place = (treeNumber + treePosition / treeLeafCount, treePosition % treeLeafCount) := by
  unfold normalizeTreePosition
  constructor
  · intro hok
    split_ifs at hok with hincrement htree
    exact ⟨by omega, (Except.ok.inj hok).symm⟩
  · rintro ⟨hlt, rfl⟩
    rw [if_neg (by omega), if_neg (by omega)]

theorem exists_normalizeTreePosition_iff :
    (∃ place, normalizeTreePosition treeNumber treePosition = .ok place)
      ↔ treeNumber + treePosition / treeLeafCount < u32Bound := by
  constructor
  · rintro ⟨place, hok⟩
    exact (normalizeTreePosition_eq_ok_iff.mp hok).1
  · intro hlt
    exact ⟨_, normalizeTreePosition_eq_ok_iff.mpr ⟨hlt, rfl⟩⟩

theorem normalizeTreePosition_exact
    (hok : normalizeTreePosition treeNumber treePosition = .ok place) :
    NormalPlace place ∧ globalOf place = globalOf (treeNumber, treePosition) := by
  obtain ⟨hlt, rfl⟩ := normalizeTreePosition_eq_ok_iff.mp hok
  refine ⟨⟨hlt, Nat.mod_lt _ (by decide)⟩, ?_⟩
  simp only [globalOf, treeLeafCount]
  omega

theorem globalTreePosition_of_normalPlace (hplace : NormalPlace (treeNumber, treePosition)) :
    globalTreePosition treeNumber treePosition = .ok (globalOf (treeNumber, treePosition)) := by
  have hlt := hplace.globalOf_lt
  have hwide : positionBound < u64Bound := by decide
  simp only [globalOf] at hlt
  rw [globalTreePosition, if_neg (by omega), globalOf]

theorem globalTreePosition_eq_ok {global : Nat}
    (hok : globalTreePosition treeNumber treePosition = .ok global) :
    global = globalOf (treeNumber, treePosition) := by
  unfold globalTreePosition at hok
  split_ifs at hok
  exact (Except.ok.inj hok).symm

theorem normalizedGlobalPosition_globalOf (hplace : NormalPlace place) :
    normalizedGlobalPosition (globalOf place) = .ok place := by
  have hposition := hplace.position_lt
  rw [normalizedGlobalPosition_of_lt hplace.globalOf_lt]
  simp only [globalOf, treeLeafCount] at *
  congr 2 <;> omega

theorem globalTreePosition_normalizedGlobalPosition {global : Nat}
    (hok : normalizedGlobalPosition global = .ok (treeNumber, treePosition)) :
    globalTreePosition treeNumber treePosition = .ok global := by
  obtain ⟨hplace, hglobal⟩ := normalizeTreePosition_exact hok
  rw [globalTreePosition_of_normalPlace hplace, hglobal, globalOf, Nat.zero_mul, Nat.zero_add]

end Places

/-! ### Positions of one event -/

section Event

variable {treeNumber startPosition index : Nat} {place : Nat × Nat}

theorem normalizedEventPosition_eq_ok_iff :
    normalizedEventPosition treeNumber startPosition index = .ok place
      ↔ startPosition + index < u64Bound
        ∧ normalizeTreePosition treeNumber (startPosition + index) = .ok place := by
  unfold normalizedEventPosition
  by_cases hsum : u64Bound ≤ startPosition + index
  · rw [if_pos hsum]
    constructor
    · intro hok
      cases hok
    · rintro ⟨hlt, -⟩
      omega
  · rw [if_neg hsum]
    exact ⟨fun hok => ⟨by omega, hok⟩, fun hok => hok.2⟩

theorem normalizedEventPosition_exact
    (hok : normalizedEventPosition treeNumber startPosition index = .ok place) :
    NormalPlace place ∧ globalOf place = globalOf (treeNumber, startPosition) + index := by
  obtain ⟨hplace, hglobal⟩ :=
    normalizeTreePosition_exact (normalizedEventPosition_eq_ok_iff.mp hok).2
  refine ⟨hplace, hglobal.trans ?_⟩
  rw [globalOf, globalOf, Nat.add_assoc]

theorem normalizedEventPosition_pred
    (hok : normalizedEventPosition treeNumber startPosition (index + 1) = .ok place) :
    ∃ previous, normalizedEventPosition treeNumber startPosition index = .ok previous
      ∧ globalOf place = globalOf previous + 1 := by
  obtain ⟨hlt, hnormal⟩ := normalizedEventPosition_eq_ok_iff.mp hok
  obtain ⟨htree, -⟩ := normalizeTreePosition_eq_ok_iff.mp hnormal
  have hle : (startPosition + index) / treeLeafCount ≤ (startPosition + (index + 1)) / treeLeafCount :=
    Nat.div_le_div_right (by omega)
  obtain ⟨previous, hprevious⟩ := exists_normalizeTreePosition_iff.mpr
    (show treeNumber + (startPosition + index) / treeLeafCount < u32Bound by omega)
  have hevent : normalizedEventPosition treeNumber startPosition index = .ok previous :=
    normalizedEventPosition_eq_ok_iff.mpr ⟨by omega, hprevious⟩
  refine ⟨previous, hevent, ?_⟩
  rw [(normalizedEventPosition_exact hok).2, (normalizedEventPosition_exact hevent).2, Nat.add_assoc]

end Event

/-! ### Leaves of one event -/

inductive CommitmentTable where
  | transact
  | shield
  | legacyEncrypted
  | legacyGenerated
  deriving DecidableEq

def IndexedLogBatch.leaves (batch : IndexedLogBatch) : CommitmentTable → List (Nat × Nat)
  | .transact => batch.transactCommitments.map fun row => (row.treeNumber, row.treePosition)
  | .shield => batch.shieldCommitments.map fun row => (row.treeNumber, row.treePosition)
  | .legacyEncrypted =>
      batch.legacyEncryptedCommitments.map fun row => (row.treeNumber, row.treePosition)
  | .legacyGenerated =>
      batch.legacyGeneratedCommitments.map fun row => (row.treeNumber, row.treePosition)

/-- The interval of global positions an event announces: where it starts, and one position for each
commitment that comes with the rest of its data. -/
def LogEvent.leafPositions : LogEvent → CommitmentTable → List Nat
  | .transact treeNumber startPosition hash _, .transact =>
      List.range' (globalOf (treeNumber.val, startPosition.val)) hash.length
  | .shield treeNumber startPosition commitments ciphertexts, .shield
  | .legacyShield treeNumber startPosition commitments ciphertexts, .shield =>
      List.range' (globalOf (treeNumber.val, startPosition.val))
        (min commitments.length ciphertexts.length)
  | .commitmentBatch treeNumber startPosition hash ciphertext, .legacyEncrypted =>
      List.range' (globalOf (treeNumber.val, startPosition.val)) (min ciphertext.length hash.length)
  | .generatedCommitmentBatch treeNumber startPosition commitments encryptedRandom,
      .legacyGenerated =>
      List.range' (globalOf (treeNumber.val, startPosition.val))
        (min commitments.length encryptedRandom.length)
  | _, _ => []

/-- Places inside their trees that occupy the given global positions, one after the other. -/
structure Occupies (places : List (Nat × Nat)) (positions : List Nat) : Prop where
  normal : ∀ place ∈ places, NormalPlace place
  globals : places.map globalOf = positions

theorem occupies_of_mapM {α ρ : Type} {items : List α} {rows : List ρ} {place : ρ → Nat × Nat}
    {treeNumber startPosition : Nat} {build : α × Nat → Except ChainLogIngestionError ρ}
    (hrows : items.zipIdx.mapM build = .ok rows)
    (hbuild : ∀ item row, build item = .ok row →
      normalizedEventPosition treeNumber startPosition item.2 = .ok (place row)) :
    Occupies (rows.map place)
      (List.range' (globalOf (treeNumber, startPosition)) items.length) := by
  constructor
  · intro found hfound
    obtain ⟨row, hrow, rfl⟩ := List.mem_map.mp hfound
    exact forall_mem_of_mapM (P := fun row => NormalPlace (place row)) hrows
      (fun item row hok => (normalizedEventPosition_exact (hbuild item row hok)).1) row hrow
  · have hglobals : rows.map (fun row => globalOf (place row))
        = items.zipIdx.map fun item => globalOf (treeNumber, startPosition) + item.2 :=
      map_eq_of_mapM hrows fun item row hok =>
        (normalizedEventPosition_exact (hbuild item row hok)).2
    calc (rows.map place).map globalOf
        = items.zipIdx.map fun item => globalOf (treeNumber, startPosition) + item.2 := by
          rw [List.map_map]
          exact hglobals
      _ = (items.zipIdx.map Prod.snd).map (globalOf (treeNumber, startPosition) + ·) := by
          rw [List.map_map]
          rfl
      _ = List.range' (globalOf (treeNumber, startPosition)) items.length := by
          rw [List.zipIdx_map_snd, ← List.range_eq_range', List.range'_eq_map_range]

theorem Occupies.nil : Occupies [] [] :=
  ⟨by simp, rfl⟩

/-- Each table gains, in order, places at the global positions the event has for it. -/
def AddsLeaves (event : LogEvent) (batch after : IndexedLogBatch) : Prop :=
  ∀ table, ∃ places, after.leaves table = batch.leaves table ++ places
    ∧ Occupies places (event.leafPositions table)

section Leaves

variable {batch after : IndexedLogBatch} {log : Log} {event : LogEvent} {source : IndexedLogSource}
  {treeNumber startPosition : Nat} {ciphertext ciphertexts : List Bytes}

theorem addsLeaves_of_eq (hpositions : ∀ table, event.leafPositions table = [])
    (hleaves : ∀ table, after.leaves table = batch.leaves table) : AddsLeaves event batch after := by
  intro table
  refine ⟨[], ?_, ?_⟩
  · rw [hleaves, List.append_nil]
  · rw [hpositions]
    exact .nil

theorem addsLeaves_of_table (target : CommitmentTable) {places : List (Nat × Nat)}
    (hgain : after.leaves target = batch.leaves target ++ places)
    (hoccupies : Occupies places (event.leafPositions target))
    (hother : ∀ table, table ≠ target →
      after.leaves table = batch.leaves table ∧ event.leafPositions table = []) :
    AddsLeaves event batch after := by
  intro table
  by_cases heq : table = target
  · subst heq
    exact ⟨places, hgain, hoccupies⟩
  · obtain ⟨hsame, hnone⟩ := hother table heq
    refine ⟨[], ?_, ?_⟩
    · rw [hsame, List.append_nil]
    · rw [hnone]
      exact .nil

theorem occupies_transactRows {hash : List Bytes32} {rows : List IndexedTransactCommitment}
    (hrows : transactRows treeNumber startPosition ciphertext source hash = .ok rows) :
    Occupies (rows.map fun row => (row.treeNumber, row.treePosition))
      (List.range' (globalOf (treeNumber, startPosition)) hash.length) := by
  refine occupies_of_mapM hrows ?_
  rintro ⟨hash, index⟩ row hrow
  obtain ⟨⟨tree, position⟩, hplace, hrow⟩ := bind_eq_ok.mp hrow
  rw [hplace, ← Except.ok.inj hrow]

theorem occupies_shieldRows {commitments : List CommitmentPreimage}
    {rows : List IndexedShieldCommitment}
    (hrows : shieldRows treeNumber startPosition commitments ciphertexts source = .ok rows) :
    Occupies (rows.map fun row => (row.treeNumber, row.treePosition))
      (List.range' (globalOf (treeNumber, startPosition))
        (min commitments.length ciphertexts.length)) := by
  rw [← List.length_zip]
  refine occupies_of_mapM hrows ?_
  rintro ⟨⟨preimage, ciphertext⟩, index⟩ row hrow
  obtain ⟨⟨tree, position⟩, hplace, hrow⟩ := bind_eq_ok.mp hrow
  rw [hplace, ← Except.ok.inj hrow]

theorem occupies_legacyEncryptedRows {hash : List U256}
    {rows : List IndexedLegacyEncryptedCommitment}
    (hrows : legacyEncryptedRows treeNumber startPosition hash ciphertext source = .ok rows) :
    Occupies (rows.map fun row => (row.treeNumber, row.treePosition))
      (List.range' (globalOf (treeNumber, startPosition)) (min ciphertext.length hash.length)) := by
  rw [← List.length_zip]
  refine occupies_of_mapM hrows ?_
  rintro ⟨⟨ciphertext, hash⟩, index⟩ row hrow
  obtain ⟨⟨tree, position⟩, hplace, hrow⟩ := bind_eq_ok.mp hrow
  rw [hplace, ← Except.ok.inj hrow]

theorem occupies_legacyGeneratedRows {commitments : List LegacyCommitmentPreimage}
    {encryptedRandom : List (U256 × U256)} {rows : List IndexedLegacyGeneratedCommitment}
    (hrows : legacyGeneratedRows treeNumber startPosition commitments encryptedRandom source
      = .ok rows) :
    Occupies (rows.map fun row => (row.treeNumber, row.treePosition))
      (List.range' (globalOf (treeNumber, startPosition))
        (min commitments.length encryptedRandom.length)) := by
  rw [← List.length_zip]
  refine occupies_of_mapM hrows ?_
  rintro ⟨⟨preimage, random⟩, index⟩ row hrow
  obtain ⟨⟨tree, position⟩, hplace, hrow⟩ := bind_eq_ok.mp hrow
  rw [hplace, ← Except.ok.inj hrow]

theorem addsLeaves_of_ingestShieldCommitments {tree start : U256}
    {commitments : List CommitmentPreimage}
    (hpositions : event.leafPositions .shield = List.range' (globalOf (tree.val, start.val)) (min
      commitments.length ciphertexts.length))
    (hnone : ∀ table, table ≠ .shield → event.leafPositions table = [])
    (hok : ingestShieldCommitments batch log tree start commitments ciphertexts = .ok after) :
    AddsLeaves event batch after := by
  simp only [ingestShieldCommitments, bind_eq_ok, pure_eq_ok, Except.ok.injEq] at hok
  obtain ⟨source, -, treeNumber, htree, startPosition, hstart, rows, hrows, rfl⟩ := hok
  obtain rfl := uintTo_eq_ok htree
  obtain rfl := uintTo_eq_ok hstart
  refine addsLeaves_of_table .shield (List.map_append ..) (hpositions ▸ occupies_shieldRows hrows) ?_
  intro table hne
  refine ⟨?_, hnone table hne⟩
  cases table <;> first | rfl | exact absurd rfl hne

theorem ingestLog_addsLeaves (hok : ingestLog batch log = .ok after) :
    AddsLeaves log.event batch after := by
  unfold ingestLog at hok
  cases hevent : log.event with
  | transact tree start hash ciphertext =>
      simp only [hevent, bind_eq_ok, pure_eq_ok, Except.ok.injEq] at hok
      obtain ⟨treeNumber, htree, startPosition, hstart, source, -, rows, hrows, rfl⟩ := hok
      obtain rfl := uintTo_eq_ok htree
      obtain rfl := uintTo_eq_ok hstart
      refine addsLeaves_of_table .transact (List.map_append ..) (occupies_transactRows hrows) ?_
      intro table hne
      cases table <;> first | exact ⟨rfl, rfl⟩ | exact absurd rfl hne
  | shield tree start commitments ciphertexts | legacyShield tree start commitments ciphertexts =>
      simp only [hevent] at hok
      refine addsLeaves_of_ingestShieldCommitments rfl ?_ hok
      intro table hne
      cases table <;> first | rfl | exact absurd rfl hne
  | nullifiers treeNumber nullifier =>
      simp only [hevent, bind_eq_ok, pure_eq_ok, Except.ok.injEq] at hok
      obtain ⟨tree, -, source, -, rfl⟩ := hok
      exact addsLeaves_of_eq (fun table => by cases table <;> rfl) fun table => by
        cases table <;> rfl
  | nullified treeNumber nullifier | action txconfigs | unshield unshield =>
      simp only [hevent, bind_eq_ok, pure_eq_ok, Except.ok.injEq] at hok
      obtain ⟨source, -, rfl⟩ := hok
      exact addsLeaves_of_eq (fun table => by cases table <;> rfl) fun table => by
        cases table <;> rfl
  | commitmentBatch tree start hash ciphertext =>
      simp only [hevent, bind_eq_ok, pure_eq_ok, Except.ok.injEq] at hok
      obtain ⟨treeNumber, htree, startPosition, hstart, source, -, rows, hrows, rfl⟩ := hok
      obtain rfl := uintTo_eq_ok htree
      obtain rfl := uintTo_eq_ok hstart
      refine addsLeaves_of_table .legacyEncrypted (List.map_append ..)
        (occupies_legacyEncryptedRows hrows) ?_
      intro table hne
      cases table <;> first | exact ⟨rfl, rfl⟩ | exact absurd rfl hne
  | generatedCommitmentBatch tree start commitments encryptedRandom =>
      simp only [hevent, bind_eq_ok, pure_eq_ok, Except.ok.injEq] at hok
      obtain ⟨treeNumber, htree, startPosition, hstart, source, -, rows, hrows, rfl⟩ := hok
      obtain rfl := uintTo_eq_ok htree
      obtain rfl := uintTo_eq_ok hstart
      refine addsLeaves_of_table .legacyGenerated (List.map_append ..)
        (occupies_legacyGeneratedRows hrows) ?_
      intro table hne
      cases table <;> first | exact ⟨rfl, rfl⟩ | exact absurd rfl hne
  | undecodable =>
      simp only [hevent] at hok
      cases hok
  | other =>
      simp only [hevent, Except.ok.injEq] at hok
      subst hok
      exact addsLeaves_of_eq (fun table => by cases table <;> rfl) fun _ => rfl

theorem leaves_prefix_of_ingest {logs : List Log} (hok : logs.foldlM ingestLog batch = .ok after)
    (table : CommitmentTable) : batch.leaves table <+: after.leaves table := by
  induction logs generalizing batch with
  | nil =>
      cases hok
      exact List.prefix_rfl
  | cons log rest ih =>
      obtain ⟨next, hnext, hrest⟩ := bind_eq_ok.mp hok
      obtain ⟨places, hplaces, -⟩ := ingestLog_addsLeaves hnext table
      exact (hplaces ▸ List.prefix_append _ places).trans (ih hrest)

theorem ingestChainLogs_split {earlier later : List Log}
    (hok : ingestChainLogs (earlier ++ log :: later) = .ok after) :
    ∃ before next, ingestChainLogs earlier = .ok before ∧ ingestLog before log = .ok next
      ∧ later.foldlM ingestLog next = .ok after := by
  rw [ingestChainLogs, List.foldlM_append] at hok
  obtain ⟨before, hbefore, hrest⟩ := bind_eq_ok.mp hok
  obtain ⟨next, hnext, hlater⟩ := bind_eq_ok.mp hrest
  exact ⟨before, next, hbefore, hnext, hlater⟩

end Leaves

/-! ### Comparing positions -/

theorem toNat_comparableGlobalTreePositionU128 (treeNumber : UInt32) (treePosition : UInt64) :
    (comparableGlobalTreePositionU128 treeNumber treePosition).toNat
      = globalOf (treeNumber.toNat, treePosition.toNat) := by
  have htree : treeNumber.toNat < 2 ^ 32 := treeNumber.toNat_lt
  have hposition : treePosition.toNat < 2 ^ 64 := treePosition.toNat_lt
  simp only [comparableGlobalTreePositionU128, globalOf, BitVec.toNat_add, BitVec.toNat_mul,
    BitVec.toNat_setWidth, BitVec.toNat_ofNat, UInt32.toNat_toBitVec, UInt64.toNat_toBitVec,
    treeLeafCount]
  omega

theorem comparable_lt_iff {otherNumber : UInt32} {otherPosition : UInt64} {global other : Nat}
    (hglobal : globalTreePosition treeNumber.toNat treePosition.toNat = .ok global)
    (hother : globalTreePosition otherNumber.toNat otherPosition.toNat = .ok other) :
    (comparableGlobalTreePositionU128 treeNumber treePosition
        < comparableGlobalTreePositionU128 otherNumber otherPosition ↔ global < other)
      ∧ (comparableGlobalTreePositionU128 treeNumber treePosition
        = comparableGlobalTreePositionU128 otherNumber otherPosition ↔ global = other) := by
  rw [globalTreePosition_eq_ok hglobal, globalTreePosition_eq_ok hother, BitVec.lt_def,
    ← BitVec.toNat_inj, toNat_comparableGlobalTreePositionU128,
    toNat_comparableGlobalTreePositionU128]
  exact ⟨Iff.rfl, Iff.rfl⟩

/-! ### The arithmetic as a whole -/

/-- **Tree position arithmetic is exact.** Normalizing keeps the global position and fails only where
the tree number leaves 32 bits, global and normal positions are inverse, the leaves of one event are
consecutive across tree boundaries, and the 128-bit key orders places as their global positions. -/
theorem treePositions_exact (treeNumber : UInt32) (treePosition : UInt64) :
    ((∃ place, normalizeTreePosition treeNumber.toNat treePosition.toNat = .ok place)
        ↔ treeNumber.toNat + treePosition.toNat / treeLeafCount < u32Bound)
      ∧ (∀ tree position,
        normalizeTreePosition treeNumber.toNat treePosition.toNat = .ok (tree, position) →
          position < treeLeafCount
            ∧ tree * treeLeafCount + position
              = treeNumber.toNat * treeLeafCount + treePosition.toNat)
      ∧ (treePosition.toNat < treeLeafCount →
        ∃ global, globalTreePosition treeNumber.toNat treePosition.toNat = .ok global
          ∧ normalizedGlobalPosition global = .ok (treeNumber.toNat, treePosition.toNat))
      ∧ (∀ tree position, normalizedGlobalPosition treePosition.toNat = .ok (tree, position) →
        globalTreePosition tree position = .ok treePosition.toNat)
      ∧ (∀ index place,
        normalizedEventPosition treeNumber.toNat treePosition.toNat (index + 1) = .ok place →
          ∃ previous global,
            normalizedEventPosition treeNumber.toNat treePosition.toNat index = .ok previous
              ∧ globalTreePosition previous.1 previous.2 = .ok global
              ∧ globalTreePosition place.1 place.2 = .ok (global + 1))
      ∧ (∀ earlier log later batch, ingestChainLogs (earlier ++ log :: later) = .ok batch →
        ∃ before next, ingestChainLogs earlier = .ok before ∧ ingestLog before log = .ok next
          ∧ AddsLeaves log.event before next
          ∧ ∀ table, next.leaves table <+: batch.leaves table)
      ∧ (comparableGlobalTreePositionU128 treeNumber treePosition).toNat
        = treeNumber.toNat * treeLeafCount + treePosition.toNat
      ∧ ∀ (otherNumber : UInt32) (otherPosition : UInt64) (global other : Nat),
        globalTreePosition treeNumber.toNat treePosition.toNat = .ok global →
          globalTreePosition otherNumber.toNat otherPosition.toNat = .ok other →
            (comparableGlobalTreePositionU128 treeNumber treePosition
                < comparableGlobalTreePositionU128 otherNumber otherPosition ↔ global < other)
              ∧ (comparableGlobalTreePositionU128 treeNumber treePosition
                = comparableGlobalTreePositionU128 otherNumber otherPosition ↔ global = other) := by
  refine ⟨exists_normalizeTreePosition_iff, ?_, ?_, ?_, ?_, ?_,
    toNat_comparableGlobalTreePositionU128 treeNumber treePosition, ?_⟩
  · intro tree position hok
    obtain ⟨hplace, hglobal⟩ := normalizeTreePosition_exact hok
    exact ⟨hplace.position_lt, hglobal⟩
  · intro hposition
    have hplace : NormalPlace (treeNumber.toNat, treePosition.toNat) :=
      ⟨treeNumber.toNat_lt, hposition⟩
    exact ⟨_, globalTreePosition_of_normalPlace hplace, normalizedGlobalPosition_globalOf hplace⟩
  · intro tree position hok
    exact globalTreePosition_normalizedGlobalPosition hok
  · rintro index ⟨tree, position⟩ hok
    obtain ⟨⟨previousTree, previousPosition⟩, hprevious, hnext⟩ := normalizedEventPosition_pred hok
    refine ⟨(previousTree, previousPosition), globalOf (previousTree, previousPosition), hprevious,
      ?_, ?_⟩
    · exact globalTreePosition_of_normalPlace (normalizedEventPosition_exact hprevious).1
    · rw [← hnext]
      exact globalTreePosition_of_normalPlace (normalizedEventPosition_exact hok).1
  · intro earlier log later batch hok
    obtain ⟨before, next, hbefore, hnext, hlater⟩ := ingestChainLogs_split hok
    exact ⟨before, next, hbefore, hnext, ingestLog_addsLeaves hnext,
      leaves_prefix_of_ingest hlater⟩
  · intro otherNumber otherPosition global other hglobal hother
    exact comparable_lt_iff hglobal hother

theorem normalizedEventPosition_rollover :
    normalizedEventPosition (3 : UInt32).toNat (65534 : UInt64).toNat 2 = .ok (4, 0) := by
  decide

/-- The third leaf of an event at the end of tree 3 opens tree 4. -/
theorem treePositions_exact_rollover :
    ∃ previous global,
      normalizedEventPosition (3 : UInt32).toNat (65534 : UInt64).toNat 1 = .ok previous
        ∧ globalTreePosition previous.1 previous.2 = .ok global
        ∧ globalTreePosition 4 0 = .ok (global + 1) :=
  (treePositions_exact 3 65534).2.2.2.2.1 1 (4, 0) normalizedEventPosition_rollover

end RailgunIndexer
