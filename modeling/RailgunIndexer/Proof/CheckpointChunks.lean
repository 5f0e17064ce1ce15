import RailgunIndexer.Proof.PoiGraph

/-!
# The chunks of a checkpoint

The chunk at a position holds the events of that position's span, or those that are left for the
last one. It is prepared from these events and the roots around them, so a longer corpus prepares the
same chunk wherever the span is full.
-/

namespace RailgunIndexer

open Lib Fallible

section Chunks

variable {corpus later : ValidatedCorpus} {library : PoiLibrary} {count : Nat}
  {chunks laterChunks : List PreparedEventArtifact} {chunk next : PreparedEventArtifact}

/-! ### The chunk at a position -/

def chunkEnd (library : PoiLibrary) (count start : Nat) : Nat :=
  min (start + (library.checkpointEventSpan - 1)) (count - 1)

theorem prepareCheckpointFrom_getElem? {fuel start index : Nat} (hfuel : count - start ≤ fuel)
    (hok : corpus.prepareCheckpointFrom library count fuel start = .ok chunks)
    (hindex : start + index * library.checkpointEventSpan < count) :
    ∃ chunk, chunks[index]? = some chunk
      ∧ corpus.prepareEventArtifact library .checkpoint
        (start + index * library.checkpointEventSpan)
        (chunkEnd library count (start + index * library.checkpointEventSpan)) = .ok chunk := by
  induction fuel generalizing start chunks index with
  | zero => omega
  | succ fuel ih =>
      have hspan := library.span_pos
      rw [ValidatedCorpus.prepareCheckpointFrom, if_pos (by omega)] at hok
      obtain ⟨chunk, hchunk, hok⟩ := bind_eq_ok.mp hok
      obtain ⟨rest, hrest, hok⟩ := bind_eq_ok.mp hok
      cases hok
      cases index with
      | zero =>
          rw [Nat.zero_mul, Nat.add_zero]
          exact ⟨chunk, rfl, hchunk⟩
      | succ index =>
          rw [Nat.succ_mul] at hindex ⊢
          have hend : min (start + (library.checkpointEventSpan - 1)) (count - 1) + 1
              = start + library.checkpointEventSpan := by omega
          rw [hend] at hrest
          obtain ⟨found, hfound, hprepared⟩ := @ih _ (start + library.checkpointEventSpan) index
            (by omega) hrest (by omega)
          refine ⟨found, hfound, ?_⟩
          rw [show start + (index * library.checkpointEventSpan + library.checkpointEventSpan)
            = start + library.checkpointEventSpan + index * library.checkpointEventSpan by omega]
          exact hprepared

theorem lt_of_getElem?_prepareCheckpointFrom {fuel start index : Nat}
    (hok : corpus.prepareCheckpointFrom library count fuel start = .ok chunks)
    (hindex : chunks[index]? = some chunk) :
    start + index * library.checkpointEventSpan < count := by
  induction fuel generalizing start chunks index with
  | zero =>
      cases hok
      cases hindex
  | succ fuel ih =>
      rw [ValidatedCorpus.prepareCheckpointFrom] at hok
      split_ifs at hok with hlt
      · obtain ⟨first, -, hok⟩ := bind_eq_ok.mp hok
        obtain ⟨rest, hrest, hok⟩ := bind_eq_ok.mp hok
        cases hok
        cases index with
        | zero => omega
        | succ index =>
            have hbelow := ih hrest hindex
            rw [Nat.succ_mul]
            omega
      · cases hok
        cases hindex

theorem prepared_of_getElem? {index : Nat}
    (hok : corpus.prepareCheckpoint library count = .ok chunks)
    (hindex : chunks[index]? = some chunk) :
    index * library.checkpointEventSpan < count
      ∧ corpus.prepareEventArtifact library .checkpoint (index * library.checkpointEventSpan)
        (chunkEnd library count (index * library.checkpointEventSpan)) = .ok chunk := by
  rw [ValidatedCorpus.prepareCheckpoint] at hok
  split_ifs at hok
  have hlt := lt_of_getElem?_prepareCheckpointFrom hok hindex
  obtain ⟨found, hfound, hprepared⟩ := prepareCheckpointFrom_getElem? (Nat.sub_le _ _) hok hlt
  rw [hindex] at hfound
  cases hfound
  rw [Nat.zero_add] at hlt hprepared
  exact ⟨hlt, hprepared⟩

theorem exists_getElem?_of_lt {index : Nat}
    (hok : corpus.prepareCheckpoint library count = .ok chunks)
    (hindex : index * library.checkpointEventSpan < count) :
    ∃ chunk, chunks[index]? = some chunk := by
  rw [ValidatedCorpus.prepareCheckpoint] at hok
  split_ifs at hok
  rw [← Nat.zero_add (index * library.checkpointEventSpan)] at hindex
  obtain ⟨found, hfound, -⟩ := prepareCheckpointFrom_getElem? (Nat.sub_le _ _) hok hindex
  exact ⟨found, hfound⟩

/-! ### Partition -/

def PreparedEventArtifact.IsFull (chunk : PreparedEventArtifact) (library : PoiLibrary) : Prop :=
  chunk.artifact.range.endIndex + 1 = chunk.artifact.range.startIndex + library.checkpointEventSpan

/-- The ranges follow each other from the first event to the last one of the checkpoint. Every chunk
before the last is full, and it starts with the root its predecessor ends with. -/
structure PartitionsCheckpoint (library : PoiLibrary) (count : Nat)
    (chunks : List PreparedEventArtifact) : Prop where
  tiles : Tiles (fun chunk : PreparedEventArtifact => chunk.artifact.range.startIndex)
    (fun chunk => chunk.artifact.range.endIndex) 0 count chunks
  span : ∀ chunk ∈ chunks, chunk.artifact.range.endIndex + 1
    ≤ chunk.artifact.range.startIndex + library.checkpointEventSpan
  first : ∀ chunk, chunks[0]? = some chunk → chunk.artifact.startRoot = none
  next : ∀ index chunk next, chunks[index]? = some chunk → chunks[index + 1]? = some next →
    chunk.IsFull library ∧ next.artifact.startRoot = some chunk.artifact.endRoot

theorem partitionsCheckpoint (hbuilds : BuildsArtifacts library)
    (hok : corpus.prepareCheckpoint library count = .ok chunks) :
    PartitionsCheckpoint library count chunks := by
  obtain ⟨-, htiles, hprepared⟩ := prepareCheckpoint_eq_ok hbuilds hok
  have hrange : ∀ (index : Nat) (chunk : PreparedEventArtifact), chunks[index]? = some chunk →
      chunk.artifact.range
      = ⟨index * library.checkpointEventSpan,
        chunkEnd library count (index * library.checkpointEventSpan)⟩ := by
    intro index chunk hindex
    exact (prepareEventArtifact_eq_ok hbuilds (prepared_of_getElem? hok hindex).2).1
  refine ⟨htiles, ?_, ?_, ?_⟩
  · intro chunk hchunk
    obtain ⟨index, hindex⟩ := List.mem_iff_getElem?.mp hchunk
    rw [hrange index chunk hindex, chunkEnd]
    dsimp only
    have hspan := library.span_pos
    omega
  · intro chunk hindex
    have hroot := (hprepared chunk (List.mem_of_getElem? hindex)).startRoot
    rw [hrange 0 chunk hindex, Nat.zero_mul, ValidatedCorpus.rootBefore, if_pos rfl] at hroot
    exact (Except.ok.inj hroot).symm
  · intro index chunk next hchunk hnext
    have hlt := (prepared_of_getElem? hok hnext).1
    rw [Nat.succ_mul] at hlt
    have hspan := library.span_pos
    have hend : chunk.artifact.range.endIndex + 1 = (index + 1) * library.checkpointEventSpan := by
      rw [hrange index chunk hchunk, chunkEnd, Nat.succ_mul]
      dsimp only
      omega
    have hstart : next.artifact.range.startIndex = (index + 1) * library.checkpointEventSpan := by
      rw [hrange _ next hnext]
    constructor
    · rw [PreparedEventArtifact.IsFull, hend, hrange index chunk hchunk, Nat.succ_mul]
    · have hbefore := (hprepared next (List.mem_of_getElem? hnext)).startRoot
      have hafter := (hprepared chunk (List.mem_of_getElem? hchunk)).endRoot
      rw [hstart, ← hend, ValidatedCorpus.rootBefore, if_neg (Nat.succ_ne_zero _),
        Nat.add_sub_cancel, hafter] at hbefore
      exact (Except.ok.inj hbefore).symm

/-! ### A longer corpus -/

structure ExtendsCorpus (corpus later : ValidatedCorpus) : Prop where
  scope : later.scope = corpus.scope
  events : corpus.events <+: later.events

section

variable (hextends : ExtendsCorpus corpus later)

include hextends

theorem ExtendsCorpus.take {stop : Nat}
    (hstop : stop ≤ corpus.events.length) : later.events.take stop = corpus.events.take stop := by
  obtain ⟨added, hadded⟩ := hextends.events
  rw [← hadded, List.take_append_of_le_length hstop]

theorem ExtendsCorpus.rootAt {index : Nat} (hindex : index < corpus.eventCount) :
    later.rootAt library index = corpus.rootAt library index := by
  have hlength := hextends.events.length_le
  rw [ValidatedCorpus.eventCount] at hindex
  rw [ValidatedCorpus.rootAt, ValidatedCorpus.rootAt, if_pos hindex, if_pos (by omega),
    hextends.take hindex]

theorem ExtendsCorpus.prepareEventArtifact
    {kind : EventArtifactKind} {startIndex endIndex : Nat} (hle : startIndex ≤ endIndex)
    (hend : endIndex < corpus.eventCount) :
    later.prepareEventArtifact library kind startIndex endIndex
      = corpus.prepareEventArtifact library kind startIndex endIndex := by
  rw [ValidatedCorpus.prepareEventArtifact, ValidatedCorpus.prepareEventArtifact]
  have hlength : corpus.eventCount ≤ later.eventCount := hextends.events.length_le
  have hroot : later.rootBefore library startIndex = corpus.rootBefore library startIndex := by
    rw [ValidatedCorpus.rootBefore, ValidatedCorpus.rootBefore, hextends.rootAt (by omega)]
  have hevents : (later.events.drop startIndex).take (endIndex + 1 - startIndex)
      = (corpus.events.drop startIndex).take (endIndex + 1 - startIndex) := by
    rw [List.take_drop, List.take_drop, hextends.take]
    rw [ValidatedCorpus.eventCount] at hend
    omega
  rw [if_neg (by omega), if_neg (by omega), hroot, hextends.rootAt hend, hextends.scope, hevents]

theorem full_chunk_sealed {index laterCount : Nat} (hbuilds : BuildsArtifacts library)
    (hcount : count ≤ laterCount) (hok : corpus.prepareCheckpoint library count = .ok chunks)
    (hlater : later.prepareCheckpoint library laterCount = .ok laterChunks)
    (hindex : chunks[index]? = some chunk) (hfull : chunk.IsFull library) :
    laterChunks[index]? = some chunk := by
  obtain ⟨hlt, hprepared⟩ := prepared_of_getElem? hok hindex
  have hrange := (prepareEventArtifact_eq_ok hbuilds hprepared).1
  have hbound := (prepareCheckpoint_eq_ok hbuilds hok).1
  rw [PreparedEventArtifact.IsFull, hrange, chunkEnd] at hfull
  dsimp only at hfull
  have hend : chunkEnd library laterCount (index * library.checkpointEventSpan)
      = chunkEnd library count (index * library.checkpointEventSpan) := by
    rw [chunkEnd, chunkEnd]
    omega
  have hle : index * library.checkpointEventSpan
      ≤ chunkEnd library count (index * library.checkpointEventSpan) := by
    rw [chunkEnd]
    omega
  have hlast : chunkEnd library count (index * library.checkpointEventSpan) < corpus.eventCount := by
    rw [chunkEnd]
    omega
  obtain ⟨found, hfound⟩ := exists_getElem?_of_lt hlater (hlt.trans_le hcount)
  have hsame := (prepared_of_getElem? hlater hfound).2
  rw [hend, hextends.prepareEventArtifact hle hlast, hprepared] at hsame
  rw [hfound, Except.ok.inj hsame]

end

/-- **A checkpoint is partitioned into chunks, and full chunks are sealed.** -/
theorem checkpoint_partitioned_sealed (hbuilds : BuildsArtifacts library)
    (hok : corpus.prepareCheckpoint library count = .ok chunks) :
    PartitionsCheckpoint library count chunks
      ∧ ∀ later laterCount laterChunks, ExtendsCorpus corpus later → count ≤ laterCount →
        later.prepareCheckpoint library laterCount = .ok laterChunks →
          ∀ (index : Nat) (chunk : PreparedEventArtifact), chunks[index]? = some chunk →
            chunk.IsFull library → laterChunks[index]? = some chunk := by
  refine ⟨partitionsCheckpoint hbuilds hok, ?_⟩
  intro later laterCount laterChunks hextends hcount hlater index chunk hindex hfull
  exact full_chunk_sealed hextends hbuilds hcount hok hlater hindex hfull

end Chunks

def countingPoiLibrary : PoiLibrary :=
  { smallPoiLibrary with
    artifactBytes := fun artifact => .ok (List.replicate artifact.events.length 0) }

def sealedChunk : PreparedEventArtifact :=
  ⟨smallArtifact .checkpoint 0 1, [0, 0], 0⟩

theorem sealedChunk_prepared :
    (smallCorpus 2).prepareCheckpoint countingPoiLibrary 2 = .ok [sealedChunk] := by
  decide +kernel

theorem sealedChunk_followed : (smallCorpus 3).prepareCheckpoint countingPoiLibrary 3
    = .ok [sealedChunk, ⟨smallArtifact .checkpoint 2 2, [0], 0⟩] := by
  decide +kernel

theorem checkpoint_partitioned_sealed_appended :
    PartitionsCheckpoint countingPoiLibrary 2 [sealedChunk]
      ∧ ([sealedChunk, ⟨smallArtifact .checkpoint 2 2, [0], 0⟩] : List _)[0]? = some sealedChunk := by
  obtain ⟨hpartitions, hsealed⟩ := @checkpoint_partitioned_sealed (smallCorpus 2) countingPoiLibrary 2
    [sealedChunk] smallPoiLibrary_buildsArtifacts sealedChunk_prepared
  have hextends : ExtendsCorpus (smallCorpus 2) (smallCorpus 3) :=
    ⟨rfl, by decide⟩
  exact ⟨hpartitions, hsealed _ 3 _ hextends (Nat.le_succ 2) sealedChunk_followed 0 _ rfl rfl⟩

end RailgunIndexer
