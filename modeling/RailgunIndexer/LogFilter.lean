import RailgunIndexer.Types

/-!
# Log filters of a block range

Which logs the indexer requests for a block range. The contract emits different events in different
eras: legacy commitment batches before `v2StartBlock`, the legacy `Shield` up to
`legacyShieldBlock`, and `Action` and `Unshield` from `actionStartBlock` on. A range inside one era
takes a single combined filter; a range that straddles a boundary takes one filter per family.
-/

namespace RailgunIndexer

inductive EventSignature where
  | commitmentBatch
  | generatedCommitmentBatch
  | transact
  | legacyShield
  | shield
  | nullifiers
  | nullified
  | action
  | unshield
  deriving DecidableEq

structure Filter where
  address : Address
  fromBlock : UInt64
  toBlock : UInt64
  eventSignatures : List EventSignature
  deriving DecidableEq

def Filter.Selects (filter : Filter) (block : UInt64) (signature : EventSignature) : Prop :=
  filter.fromBlock ≤ block ∧ block ≤ filter.toBlock ∧ signature ∈ filter.eventSignatures

instance (filter : Filter) (block : UInt64) (signature : EventSignature) :
    Decidable (filter.Selects block signature) :=
  inferInstanceAs (Decidable (_ ∧ _ ∧ _))

def actionEventSignatures : List EventSignature := [.action, .unshield]

def saturatingSucc (block : UInt64) : UInt64 :=
  if block.toNat + 1 < u64Bound then block + 1 else block

def eraEventSignaturesForRange (fromBlock toBlock v2StartBlock legacyShieldBlock : UInt64) :
    Option (List EventSignature) :=
  if 0 < v2StartBlock ∧ toBlock < v2StartBlock then
    some [.commitmentBatch, .generatedCommitmentBatch, .nullifiers, .nullified]
  else if fromBlock < v2StartBlock then
    none
  else if toBlock ≤ legacyShieldBlock then
    some [.transact, .legacyShield, .nullifiers, .nullified]
  else if legacyShieldBlock < fromBlock then
    some [.transact, .shield, .nullifiers, .nullified]
  else
    none

def combinedEventSignaturesForRange (fromBlock toBlock v2StartBlock legacyShieldBlock : UInt64)
    (actionStartBlock : Option UInt64) : Option (List EventSignature) :=
  (eraEventSignaturesForRange fromBlock toBlock v2StartBlock legacyShieldBlock).map
    fun eventSignatures =>
      if actionStartBlock.any fun start => start ≤ fromBlock then
        eventSignatures ++ actionEventSignatures
      else
        eventSignatures

/-- First block from which a range requests `Action` and `Unshield` logs. -/
def actionFromBlock (fromBlock toBlock : UInt64) (actionStartBlock : Option UInt64) :
    Option UInt64 :=
  (actionStartBlock.filter fun start => start ≤ toBlock).map fun start => max start fromBlock

def actionLogFilters (contract : Address) (toBlock : UInt64) : Option UInt64 → List Filter
  | some start => [⟨contract, start, toBlock, actionEventSignatures⟩]
  | none => []

/-- One filter for each event family, for a range that straddles an era boundary. -/
def splitLogFilters (contract : Address)
    (fromBlock toBlock v2StartBlock legacyShieldBlock : UInt64) (actionFrom : Option UInt64) :
    List Filter :=
  let v2Start := max fromBlock v2StartBlock
  (if fromBlock ≤ v2StartBlock then
    [⟨contract, fromBlock, min toBlock v2StartBlock,
      [.commitmentBatch, .generatedCommitmentBatch]⟩]
  else [])
  ++ (if v2StartBlock ≤ toBlock then
    [⟨contract, v2Start, toBlock, [.transact]⟩]
    ++ (if v2Start ≤ legacyShieldBlock then
      [⟨contract, v2Start, min toBlock legacyShieldBlock, [.legacyShield]⟩]
    else [])
    ++ (if legacyShieldBlock < toBlock then
      [⟨contract, max v2Start (saturatingSucc legacyShieldBlock), toBlock, [.shield]⟩]
    else [])
  else [])
  ++ [⟨contract, fromBlock, toBlock, [.nullifiers, .nullified]⟩]
  ++ actionLogFilters contract toBlock actionFrom

def chainIndexLogFilters (contract : Address)
    (fromBlock toBlock v2StartBlock legacyShieldBlock : UInt64)
    (actionStartBlock : Option UInt64) : List Filter :=
  if toBlock < fromBlock then
    []
  else
    let actionFrom := actionFromBlock fromBlock toBlock actionStartBlock
    match combinedEventSignaturesForRange fromBlock toBlock v2StartBlock legacyShieldBlock
        actionStartBlock with
    | some eventSignatures =>
        ⟨contract, fromBlock, toBlock, eventSignatures⟩ ::
          actionLogFilters contract toBlock (actionFrom.filter fun start => fromBlock < start)
    | none =>
        splitLogFilters contract fromBlock toBlock v2StartBlock legacyShieldBlock actionFrom

def Selected (contract : Address) (fromBlock toBlock v2StartBlock legacyShieldBlock : UInt64)
    (actionStartBlock : Option UInt64) (block : UInt64) (signature : EventSignature) : Prop :=
  ∃ filter ∈ chainIndexLogFilters contract fromBlock toBlock v2StartBlock legacyShieldBlock
    actionStartBlock, filter.Selects block signature

instance (contract : Address) (fromBlock toBlock v2StartBlock legacyShieldBlock : UInt64)
    (actionStartBlock : Option UInt64) (block : UInt64) (signature : EventSignature) :
    Decidable (Selected contract fromBlock toBlock v2StartBlock legacyShieldBlock
      actionStartBlock block signature) :=
  inferInstanceAs (Decidable (∃ filter ∈ _, _))

end RailgunIndexer
