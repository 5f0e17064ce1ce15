import RailgunIndexer.ChainIndexed
import Mathlib.Data.List.Infix

/-!
# The span of a batch

The loop of a contract chooses how many blocks its next cycle may index. While it catches up with the
chain it doubles the span after a range without logs, halves it after an error, and lowers its maximum
for good when the node rejected the range as too large. Once it has caught up it asks for the span of
the tail.
-/

namespace RailgunIndexer

def minIndexingBatchBlocks : Nat := 1000

structure BatchSpans where
  batchSpan : Nat
  maxBatchSpan : Nat
  historicalCatchUpComplete : Bool
  deriving DecidableEq

/-- How a cycle ended. An error is the list of its own text and those of its sources. -/
abbrev CycleOutcome := Except (List String) ChainIndexStep

def isBlockRangeTooLarge (error : List String) : Bool :=
  error.any fun source =>
    decide ("block range is too large".toList <:+: source.toList.map Char.toLower)

section Loop

variable (config : ChainIndexedDatasetConfig)

def minBatchSpan : Nat := max 1 (min config.maxBlocksPerBatch minIndexingBatchBlocks)

def BatchSpans.start : BatchSpans := ⟨config.maxBlocksPerBatch, config.maxBlocksPerBatch, false⟩

def BatchSpans.requested (spans : BatchSpans) : Nat :=
  if spans.historicalCatchUpComplete then config.tailSafetyBlockSpan else spans.batchSpan

def BatchSpans.grow (spans : BatchSpans) (fetchedLogCount : Nat) : BatchSpans :=
  if !spans.historicalCatchUpComplete && fetchedLogCount == 0
      && spans.batchSpan < spans.maxBatchSpan then
    { spans with batchSpan := min (min (spans.batchSpan * 2) (u64Bound - 1)) spans.maxBatchSpan }
  else
    spans

def BatchSpans.caughtUp (spans : BatchSpans) : BatchSpans :=
  { spans with historicalCatchUpComplete := true, batchSpan := spans.maxBatchSpan }

/-- An error changes nothing once the loop has caught up. -/
def BatchSpans.shrink (spans : BatchSpans) (blockRangeTooLarge : Bool) : BatchSpans :=
  if spans.historicalCatchUpComplete then spans
  else
    let nextBatchSpan := max (spans.batchSpan / 2) (minBatchSpan config)
    let maxBatchSpan :=
      if blockRangeTooLarge then min spans.maxBatchSpan nextBatchSpan else spans.maxBatchSpan
    { spans with batchSpan := min nextBatchSpan maxBatchSpan, maxBatchSpan }

def BatchSpans.next (spans : BatchSpans) : CycleOutcome → BatchSpans
  | .ok (.indexed fetchedLogCount indexingLagBlocks) =>
      let spans := spans.grow fetchedLogCount
      if indexingLagBlocks = 0 then spans.caughtUp else spans
  | .ok .caughtUp => spans.caughtUp
  | .error error => spans.shrink config (isBlockRangeTooLarge error)

def batchSpansAfter (outcomes : List CycleOutcome) : BatchSpans :=
  outcomes.foldl (BatchSpans.next config) (.start config)

end Loop

end RailgunIndexer
