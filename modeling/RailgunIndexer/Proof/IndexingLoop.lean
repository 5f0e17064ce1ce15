import RailgunIndexer.IndexingLoop

/-!
# The span of a batch stays in its bounds

The spans are ordered: the least span, the current one, its maximum, and the configured one. No cycle
raises the maximum, and a rejection lowers it to what is asked for next, so that no later range of the
catch-up is larger.
-/

namespace RailgunIndexer

section Spans

variable {config : ChainIndexedDatasetConfig} {spans : BatchSpans}

structure SpansOk (config : ChainIndexedDatasetConfig) (spans : BatchSpans) : Prop where
  lower : min config.maxBlocksPerBatch minIndexingBatchBlocks ≤ spans.batchSpan
  ordered : spans.batchSpan ≤ spans.maxBatchSpan
  upper : spans.maxBatchSpan ≤ config.maxBlocksPerBatch

theorem minBatchSpan_eq (hspan : 1 ≤ config.maxBlocksPerBatch) :
    minBatchSpan config = min config.maxBlocksPerBatch minIndexingBatchBlocks := by
  apply Nat.max_eq_right
  exact Nat.le_min.mpr ⟨hspan, by decide⟩

/-! ### One cycle -/

theorem spansOk_start : SpansOk config (.start config) :=
  ⟨Nat.min_le_left _ _, le_rfl, le_rfl⟩

theorem SpansOk.caughtUp (hok : SpansOk config spans) : SpansOk config spans.caughtUp :=
  ⟨hok.lower.trans hok.ordered, le_rfl, hok.upper⟩

theorem grow_maxBatchSpan (fetchedLogCount : Nat) :
    (spans.grow fetchedLogCount).maxBatchSpan = spans.maxBatchSpan := by
  rw [BatchSpans.grow]
  split_ifs <;> rfl

theorem grow_complete (fetchedLogCount : Nat) :
    (spans.grow fetchedLogCount).historicalCatchUpComplete = spans.historicalCatchUpComplete := by
  rw [BatchSpans.grow]
  split_ifs <;> rfl

theorem SpansOk.grow (hok : SpansOk config spans) (fetchedLogCount : Nat) :
    SpansOk config (spans.grow fetchedLogCount) := by
  rw [BatchSpans.grow]
  split_ifs
  · refine ⟨?_, Nat.min_le_right _ _, hok.upper⟩
    have hdouble : min config.maxBlocksPerBatch minIndexingBatchBlocks ≤ spans.batchSpan * 2 :=
      hok.lower.trans (Nat.le_mul_of_pos_right _ Nat.two_pos)
    have hbound : min config.maxBlocksPerBatch minIndexingBatchBlocks ≤ u64Bound - 1 :=
      (Nat.min_le_right _ _).trans (by decide)
    exact Nat.le_min.mpr ⟨Nat.le_min.mpr ⟨hdouble, hbound⟩, hok.lower.trans hok.ordered⟩
  · exact hok

theorem shrink_maxBatchSpan_le (blockRangeTooLarge : Bool) :
    (spans.shrink config blockRangeTooLarge).maxBatchSpan ≤ spans.maxBatchSpan := by
  rw [BatchSpans.shrink]
  split_ifs
  · exact le_rfl
  · exact Nat.min_le_left _ _
  · exact le_rfl

section

variable (hspan : 1 ≤ config.maxBlocksPerBatch)

include hspan

theorem SpansOk.shrink (hok : SpansOk config spans)
    (blockRangeTooLarge : Bool) : SpansOk config (spans.shrink config blockRangeTooLarge) := by
  have hupper := (@shrink_maxBatchSpan_le config spans blockRangeTooLarge).trans hok.upper
  have hmax := hok.lower.trans hok.ordered
  rw [BatchSpans.shrink, minBatchSpan_eq hspan] at hupper ⊢
  by_cases hcomplete : spans.historicalCatchUpComplete = true
  · rwa [if_pos hcomplete]
  · rw [if_neg hcomplete] at hupper ⊢
    refine ⟨?_, Nat.min_le_right _ _, hupper⟩
    refine Nat.le_min.mpr ⟨Nat.le_max_right _ _, ?_⟩
    split_ifs
    · exact Nat.le_min.mpr ⟨hmax, Nat.le_max_right _ _⟩
    · exact hmax

theorem shrink_rejected (hcomplete : spans.historicalCatchUpComplete = false) :
    (spans.shrink config true).maxBatchSpan ≤ max (spans.requested config / 2)
      (min config.maxBlocksPerBatch minIndexingBatchBlocks) := by
  rw [BatchSpans.shrink, BatchSpans.requested, minBatchSpan_eq hspan, hcomplete]
  exact Nat.min_le_right _ _

theorem SpansOk.next (hok : SpansOk config spans)
    (outcome : CycleOutcome) : SpansOk config (spans.next config outcome) := by
  rcases outcome with error | step
  · exact hok.shrink hspan _
  · cases step with
    | indexed fetchedLogCount indexingLagBlocks =>
        rw [BatchSpans.next]
        split_ifs
        · exact (hok.grow fetchedLogCount).caughtUp
        · exact hok.grow fetchedLogCount
    | caughtUp => exact hok.caughtUp

end

theorem next_maxBatchSpan_le (outcome : CycleOutcome) :
    (spans.next config outcome).maxBatchSpan ≤ spans.maxBatchSpan := by
  rcases outcome with error | step
  · exact shrink_maxBatchSpan_le _
  · cases step with
    | indexed fetchedLogCount indexingLagBlocks =>
        rw [BatchSpans.next]
        split_ifs
        · exact (grow_maxBatchSpan fetchedLogCount).le
        · exact (grow_maxBatchSpan fetchedLogCount).le
    | caughtUp => exact le_rfl

theorem next_complete (hcomplete : spans.historicalCatchUpComplete = true) (outcome : CycleOutcome) :
    (spans.next config outcome).historicalCatchUpComplete = true := by
  rcases outcome with error | step
  · rw [BatchSpans.next, BatchSpans.shrink, if_pos hcomplete]
    exact hcomplete
  · cases step with
    | indexed fetchedLogCount indexingLagBlocks =>
        rw [BatchSpans.next]
        split_ifs
        · rfl
        · exact (grow_complete fetchedLogCount).trans hcomplete
    | caughtUp => rfl

/-! ### Every run -/

theorem batchSpansAfter_append (earlier later : List CycleOutcome) :
    batchSpansAfter config (earlier ++ later)
      = later.foldl (BatchSpans.next config) (batchSpansAfter config earlier) :=
  List.foldl_append

theorem foldl_next {P : BatchSpans → Prop}
    (hnext : ∀ spans outcome, P spans → P (spans.next config outcome)) (hspans : P spans)
    (outcomes : List CycleOutcome) : P (outcomes.foldl (BatchSpans.next config) spans) := by
  induction outcomes generalizing spans with
  | nil => exact hspans
  | cons outcome outcomes ih => exact ih (hnext spans outcome hspans)

theorem spansOk_after (hspan : 1 ≤ config.maxBlocksPerBatch) (outcomes : List CycleOutcome) :
    SpansOk config (batchSpansAfter config outcomes) := by
  apply foldl_next
  · intro spans outcome hok
    exact hok.next hspan outcome
  · exact spansOk_start

theorem foldl_maxBatchSpan_le (outcomes : List CycleOutcome) :
    (outcomes.foldl (BatchSpans.next config) spans).maxBatchSpan ≤ spans.maxBatchSpan := by
  apply foldl_next (P := fun later => later.maxBatchSpan ≤ spans.maxBatchSpan)
  · intro later outcome hle
    exact (next_maxBatchSpan_le outcome).trans hle
  · exact le_rfl

structure SpansControlled (config : ChainIndexedDatasetConfig) (state : BatchSpans)
    (later : List CycleOutcome) (next : BatchSpans) : Prop where
  bounds : SpansOk config next
  falling : next.maxBatchSpan ≤ state.maxBatchSpan
  rejected : ∀ error rest, later = .error error :: rest → isBlockRangeTooLarge error = true →
    state.historicalCatchUpComplete = false → next.historicalCatchUpComplete = false →
    next.requested config ≤ max (state.requested config / 2)
      (min config.maxBlocksPerBatch minIndexingBatchBlocks)
  tail : state.historicalCatchUpComplete = true →
    next.requested config = config.tailSafetyBlockSpan

/-- **The spans of a batch are controlled.** After any cycles, and after any more of them. -/
theorem batchSpans_controlled (hspan : 1 ≤ config.maxBlocksPerBatch)
    (earlier later : List CycleOutcome) :
    SpansControlled config (batchSpansAfter config earlier) later
      (batchSpansAfter config (earlier ++ later)) := by
  have hok := spansOk_after hspan (earlier ++ later)
  rw [batchSpansAfter_append] at hok ⊢
  refine ⟨hok, foldl_maxBatchSpan_le later, ?_, ?_⟩
  · rintro error rest rfl hlarge hcatchUp hcomplete
    rw [BatchSpans.requested, hcomplete]
    calc ((Except.error error :: rest).foldl (BatchSpans.next config)
          (batchSpansAfter config earlier)).batchSpan
      _ ≤ (rest.foldl (BatchSpans.next config)
          ((batchSpansAfter config earlier).shrink config true)).maxBatchSpan := by
        have hle := hok.ordered
        rw [List.foldl_cons, BatchSpans.next, hlarge] at hle ⊢
        exact hle
      _ ≤ ((batchSpansAfter config earlier).shrink config true).maxBatchSpan :=
        foldl_maxBatchSpan_le rest
      _ ≤ _ := shrink_rejected hspan hcatchUp
  · intro hcomplete
    have hlater := foldl_next (P := fun spans => spans.historicalCatchUpComplete = true)
      (fun spans outcome hspans => @next_complete config spans hspans outcome) hcomplete later
    rw [BatchSpans.requested, if_pos hlater]

end Spans

/-! ### A rejected range -/

section Rejected

def rejectedConfig : ChainIndexedDatasetConfig :=
  { toyConfig 0 9999 with chains := [], tailSafetyBlockSpan := 50 }

/-- The node rejects ten thousand blocks, and the span grows back to half of them only. -/
theorem batchSpans_controlled_rejected :
    SpansControlled rejectedConfig (batchSpansAfter rejectedConfig [])
      [.error ["Block range is too large"], .error ["timeout"], .ok (.indexed 0 9),
        .ok (.indexed 0 9)]
      (batchSpansAfter rejectedConfig ([] ++ [.error ["Block range is too large"],
        .error ["timeout"], .ok (.indexed 0 9), .ok (.indexed 0 9)])) :=
  batchSpans_controlled (by decide) [] _

end Rejected

end RailgunIndexer
