import RailgunIndexer.LogFilter
import Mathlib.Data.List.Pairwise
import Mathlib.Tactic.Cases

/-!
# Which logs a block range selects

`selected_iff` reads the filters of a range as one condition on a block and a signature: the pair is
in range and in era, or it is the one exception, a legacy commitment batch in the block
`v2StartBlock` itself, which only the split filters request. Everything else in this module is a
consequence.
-/

namespace RailgunIndexer

def InEra (v2StartBlock legacyShieldBlock : UInt64) (actionStartBlock : Option UInt64)
    (block : UInt64) : EventSignature → Prop
  | .commitmentBatch | .generatedCommitmentBatch => block < v2StartBlock
  | .transact => v2StartBlock ≤ block
  | .legacyShield => v2StartBlock ≤ block ∧ block ≤ legacyShieldBlock
  | .shield => v2StartBlock ≤ block ∧ legacyShieldBlock < block
  | .nullifiers | .nullified => True
  | .action | .unshield => ∃ start, actionStartBlock = some start ∧ start ≤ block

def IsLegacyBatch (signature : EventSignature) : Prop :=
  signature = .commitmentBatch ∨ signature = .generatedCommitmentBatch

def LegacyOverlap (fromBlock toBlock v2StartBlock legacyShieldBlock : UInt64) : Prop :=
  fromBlock < v2StartBlock ∨ (fromBlock ≤ legacyShieldBlock ∧ legacyShieldBlock < toBlock)

section Words

theorem toNat_max (a b : UInt64) : (max a b).toNat = max a.toNat b.toNat := by
  simp only [Max.max]
  split <;> simp_all [UInt64.le_iff_toNat_le]

theorem toNat_min (a b : UInt64) : (min a b).toNat = min a.toNat b.toNat := by
  simp only [Min.min]
  split <;> simp_all [UInt64.le_iff_toNat_le]

theorem toNat_succ_of_lt {a b : UInt64} (hlt : a < b) : (a + 1).toNat = a.toNat + 1 := by
  have hbound := b.toNat_lt
  rw [UInt64.lt_iff_toNat_lt] at hlt
  rw [UInt64.toNat_add]
  simp only [UInt64.reduceToNat]
  omega

theorem saturatingSucc_of_lt {a b : UInt64} (hlt : a < b) : saturatingSucc a = a + 1 := by
  have hbound := b.toNat_lt
  rw [UInt64.lt_iff_toNat_lt] at hlt
  rw [saturatingSucc, if_pos]
  simp only [u64Bound]
  omega

end Words

section Selection

variable {contract : Address} {fromBlock toBlock v2StartBlock legacyShieldBlock : UInt64}
  {actionStartBlock : Option UInt64} {block : UInt64} {signature : EventSignature}

theorem action_selected_iff :
    (∃ start, actionFromBlock fromBlock toBlock actionStartBlock = some start
        ∧ start ≤ block ∧ block ≤ toBlock)
      ↔ fromBlock ≤ block ∧ block ≤ toBlock
        ∧ ∃ start, actionStartBlock = some start ∧ start ≤ block := by
  cases actionStartBlock with
  | none => simp [actionFromBlock]
  | some start =>
      simp only [actionFromBlock, Option.filter_some, Option.some.injEq, exists_eq_left',
        UInt64.le_iff_toNat_le, decide_eq_true_eq]
      split_ifs with hstart
      · simp only [Option.map_some, Option.some.injEq, exists_eq_left', toNat_max]
        omega
      · simp only [Option.map_none, reduceCtorEq, false_and, exists_false, false_iff]
        omega

theorem actionFromBlock_filter_of_started
    (hstarted : (actionStartBlock.any fun start => start ≤ fromBlock) = true) :
    ((actionFromBlock fromBlock toBlock actionStartBlock).filter fun start => fromBlock < start)
      = none := by
  cases actionStartBlock with
  | none => simp at hstarted
  | some start =>
      simp only [Option.any_some, decide_eq_true_eq, UInt64.le_iff_toNat_le] at hstarted
      have hmax : ¬ fromBlock < max start fromBlock := by
        rw [UInt64.lt_iff_toNat_lt, toNat_max]
        omega
      simp only [actionFromBlock, Option.filter_some]
      split_ifs
      · rw [Option.map_some, Option.filter_some, if_neg (by simpa using hmax)]
      · rfl

theorem actionFromBlock_filter_of_not_started
    (hstarted : (actionStartBlock.any fun start => start ≤ fromBlock) = false) :
    ((actionFromBlock fromBlock toBlock actionStartBlock).filter fun start => fromBlock < start)
      = actionFromBlock fromBlock toBlock actionStartBlock := by
  cases actionStartBlock with
  | none => simp [actionFromBlock]
  | some start =>
      simp only [Option.any_some, decide_eq_false_iff_not, UInt64.le_iff_toNat_le] at hstarted
      have hmax : fromBlock < max start fromBlock := by
        rw [UInt64.lt_iff_toNat_lt, toNat_max]
        omega
      simp only [actionFromBlock, Option.filter_some]
      split_ifs <;> simp [hmax]

theorem exists_actionLogFilters_selects_iff {actionFrom : Option UInt64} :
    (∃ filter ∈ actionLogFilters contract toBlock actionFrom, filter.Selects block signature)
      ↔ signature ∈ actionEventSignatures
        ∧ ∃ start, actionFrom = some start ∧ start ≤ block ∧ block ≤ toBlock := by
  cases actionFrom with
  | none => simp [actionLogFilters]
  | some start =>
      simp only [actionLogFilters, List.mem_singleton, exists_eq_left, Filter.Selects,
        Option.some.injEq, exists_eq_left']
      tauto

theorem selected_of_combined {eventSignatures : List EventSignature} (hrange : fromBlock ≤ toBlock)
    (hera : eraEventSignaturesForRange fromBlock toBlock v2StartBlock legacyShieldBlock
      = some eventSignatures) :
    Selected contract fromBlock toBlock v2StartBlock legacyShieldBlock actionStartBlock block
        signature
      ↔ fromBlock ≤ block ∧ block ≤ toBlock ∧ (signature ∈ eventSignatures
        ∨ signature ∈ actionEventSignatures
          ∧ ∃ start, actionStartBlock = some start ∧ start ≤ block) := by
  have hnot : ¬ toBlock < fromBlock := UInt64.not_lt.mpr hrange
  rw [Selected, chainIndexLogFilters, if_neg hnot, combinedEventSignaturesForRange, hera]
  simp only [Option.map_some, List.mem_cons, exists_eq_or_imp,
    exists_actionLogFilters_selects_iff]
  cases hstarted : actionStartBlock.any fun start => start ≤ fromBlock with
  | true =>
      rw [actionFromBlock_filter_of_started hstarted]
      simp only [if_true, Filter.Selects, List.mem_append, reduceCtorEq, false_and,
        exists_false, and_false, or_false]
      have hactive : fromBlock ≤ block →
          ∃ start, actionStartBlock = some start ∧ start ≤ block := by
        intro hblock
        obtain ⟨start, hsome, hle⟩ := (Option.any_eq_true _ _).mp hstarted
        refine ⟨start, hsome, ?_⟩
        rw [decide_eq_true_eq] at hle
        exact UInt64.le_trans hle hblock
      tauto
  | false =>
      rw [actionFromBlock_filter_of_not_started hstarted, action_selected_iff]
      simp only [Bool.false_eq_true, if_false, Filter.Selects]
      tauto

theorem era_eq_none
    (hera : eraEventSignaturesForRange fromBlock toBlock v2StartBlock legacyShieldBlock = none) :
    ¬ (0 < v2StartBlock ∧ toBlock < v2StartBlock)
      ∧ (fromBlock < v2StartBlock
        ∨ ¬ toBlock ≤ legacyShieldBlock ∧ ¬ legacyShieldBlock < fromBlock) := by
  unfold eraEventSignaturesForRange at hera
  split_ifs at hera <;> tauto

theorem exists_mem_ite_nil {α : Type} {c : Prop} [Decidable c] {items : List α} {P : α → Prop} :
    (∃ item ∈ (if c then items else []), P item) ↔ c ∧ ∃ item ∈ items, P item := by
  by_cases hc : c <;> simp [hc]

theorem selected_of_split (hrange : fromBlock ≤ toBlock)
    (hera : eraEventSignaturesForRange fromBlock toBlock v2StartBlock legacyShieldBlock = none) :
    Selected contract fromBlock toBlock v2StartBlock legacyShieldBlock actionStartBlock block
        signature
      ↔ fromBlock ≤ block ∧ block ≤ toBlock
        ∧ (InEra v2StartBlock legacyShieldBlock actionStartBlock block signature
          ∨ IsLegacyBatch signature ∧ block = v2StartBlock) := by
  have hnot : ¬ toBlock < fromBlock := UInt64.not_lt.mpr hrange
  rw [Selected, chainIndexLogFilters, if_neg hnot, combinedEventSignaturesForRange, hera]
  have hsplit := era_eq_none hera
  have hv2 : v2StartBlock ≤ toBlock := by
    simp only [UInt64.le_iff_toNat_le, UInt64.lt_iff_toNat_lt] at hsplit hrange ⊢
    have hzero : (0 : UInt64).toNat = 0 := rfl
    omega
  have hshield : legacyShieldBlock < toBlock →
      (saturatingSucc legacyShieldBlock).toNat = legacyShieldBlock.toNat + 1 := by
    intro hlt
    rw [saturatingSucc_of_lt hlt, toNat_succ_of_lt hlt]
  simp only [Option.map_none, splitLogFilters, List.mem_append, or_and_right, exists_or,
    exists_mem_ite_nil, exists_actionLogFilters_selects_iff, action_selected_iff,
    List.mem_singleton, exists_eq_left]
  cases signature
  case nullifiers | nullified | action | unshield =>
    simp [Filter.Selects, InEra, IsLegacyBatch, actionEventSignatures]
  all_goals
    simp only [Filter.Selects, InEra, IsLegacyBatch, actionEventSignatures, List.mem_cons,
      List.not_mem_nil, reduceCtorEq, or_false, false_or, or_true, and_false, false_and, and_true,
      true_and, UInt64.le_iff_toNat_le, UInt64.lt_iff_toNat_lt, toNat_max, toNat_min,
      ← UInt64.toNat_inj] at hsplit hrange hv2 hshield ⊢
    omega

/-- **What a range selects.** A pair is selected exactly when it is in range and in era, except that
ranges with a legacy overlap also select the legacy batches of the block `v2StartBlock`. -/
theorem selected_iff (hrange : fromBlock ≤ toBlock) :
    Selected contract fromBlock toBlock v2StartBlock legacyShieldBlock actionStartBlock block
        signature
      ↔ fromBlock ≤ block ∧ block ≤ toBlock
        ∧ (InEra v2StartBlock legacyShieldBlock actionStartBlock block signature
          ∨ IsLegacyBatch signature ∧ block = v2StartBlock
            ∧ LegacyOverlap fromBlock toBlock v2StartBlock legacyShieldBlock) := by
  cases hera : eraEventSignaturesForRange fromBlock toBlock v2StartBlock legacyShieldBlock with
  | none =>
      have hoverlap : LegacyOverlap fromBlock toBlock v2StartBlock legacyShieldBlock := by
        have hsplit := era_eq_none hera
        simp only [LegacyOverlap, UInt64.le_iff_toNat_le, UInt64.lt_iff_toNat_lt] at hsplit ⊢
        omega
      rw [selected_of_split hrange hera]
      simp only [hoverlap, and_true]
  | some eventSignatures =>
      rw [selected_of_combined hrange hera]
      unfold eraEventSignaturesForRange at hera
      refine and_congr_right fun hfrom => and_congr_right fun hto => ?_
      split_ifs at hera with hlegacy hmixed hold hnew
      all_goals
        rw [Option.some.injEq] at hera
        subst hera
        cases signature
        case nullifiers | nullified | action | unshield =>
          simp [InEra, IsLegacyBatch, actionEventSignatures]
        all_goals
          simp only [InEra, IsLegacyBatch, LegacyOverlap, actionEventSignatures, List.mem_cons,
            List.not_mem_nil, reduceCtorEq, or_false, or_true, false_and, true_and, true_iff,
            false_iff, UInt64.le_iff_toNat_le, UInt64.lt_iff_toNat_lt, ← UInt64.toNat_inj] at *
          omega

/-- **Splitting a range.** The filters of `[fromBlock, toBlock]` select what those of its two parts
select, except when the first block of a part is `v2StartBlock` and only one of the two sides
straddles an era boundary there. -/
theorem selected_split_iff {middle : UInt64} (hfrom : fromBlock ≤ middle) (hto : middle < toBlock) :
    (∀ block signature,
      Selected contract fromBlock toBlock v2StartBlock legacyShieldBlock actionStartBlock block
          signature
        ↔ Selected contract fromBlock middle v2StartBlock legacyShieldBlock actionStartBlock block
            signature
          ∨ Selected contract (middle + 1) toBlock v2StartBlock legacyShieldBlock actionStartBlock
            block signature)
      ↔ ¬ (fromBlock = v2StartBlock ∧ middle ≤ legacyShieldBlock ∧ legacyShieldBlock < toBlock)
        ∧ ¬ (middle + 1 = v2StartBlock
          ∧ ¬ (v2StartBlock ≤ legacyShieldBlock ∧ legacyShieldBlock < toBlock)) := by
  have hsucc := toNat_succ_of_lt hto
  have hright : middle + 1 ≤ toBlock := by
    rw [UInt64.lt_iff_toNat_lt] at hto
    rw [UInt64.le_iff_toNat_le]
    omega
  have hwhole : fromBlock ≤ toBlock := by
    rw [UInt64.lt_iff_toNat_lt] at hto
    rw [UInt64.le_iff_toNat_le] at hfrom ⊢
    omega
  simp only [selected_iff hwhole, selected_iff hfrom, selected_iff hright]
  constructor
  · intro hsame
    have hbatch := hsame v2StartBlock .commitmentBatch
    simp only [InEra, IsLegacyBatch, LegacyOverlap, true_or, true_and, UInt64.le_iff_toNat_le,
      UInt64.lt_iff_toNat_lt, ← UInt64.toNat_inj, hsucc] at *
    omega
  · intro hexcept block signature
    have hcover : fromBlock ≤ block ∧ block ≤ toBlock
        ↔ (fromBlock ≤ block ∧ block ≤ middle) ∨ (middle + 1 ≤ block ∧ block ≤ toBlock) := by
      simp only [UInt64.le_iff_toNat_le, UInt64.lt_iff_toNat_lt, hsucc] at *
      omega
    by_cases hera : InEra v2StartBlock legacyShieldBlock actionStartBlock block signature
    · simp only [hera, true_or, and_true]
      exact hcover
    by_cases hbatch : IsLegacyBatch signature ∧ block = v2StartBlock
    · obtain ⟨hbatch, rfl⟩ := hbatch
      simp only [hera, hbatch, false_or, true_and]
      simp only [LegacyOverlap, UInt64.le_iff_toNat_le, UInt64.lt_iff_toNat_lt,
        ← UInt64.toNat_inj, hsucc] at *
      omega
    · have hnone : ∀ overlap : Prop,
          ¬ (IsLegacyBatch signature ∧ block = v2StartBlock ∧ overlap) :=
        fun _ hall => hbatch ⟨hall.1, hall.2.1⟩
      simp only [hera, hnone, or_self, and_false]

/-- A batch boundary right before `v2StartBlock` loses a legacy batch of that block. -/
theorem selected_split_at_v2StartBlock :
    Selected 0 5 20 10 0 none 10 .commitmentBatch
      ∧ ¬ (Selected 0 5 9 10 0 none 10 .commitmentBatch
        ∨ Selected 0 10 20 10 0 none 10 .commitmentBatch) := by
  decide

theorem selected_split_below_v2StartBlock : ((2 : UInt64) ≤ 4 ∧ (4 : UInt64) < 20)
      ∧ ∀ block signature, Selected 0 2 20 10 0 none block signature
        ↔ Selected 0 2 4 10 0 none block signature ∨ Selected 0 5 20 10 0 none block signature :=
  ⟨by decide, (selected_split_iff (by decide) (by decide)).mpr (by decide)⟩

theorem pairwise_disjoint_eventSignatures :
    (chainIndexLogFilters contract fromBlock toBlock v2StartBlock legacyShieldBlock
      actionStartBlock).Pairwise
        fun left right => left.eventSignatures.Disjoint right.eventSignatures := by
  unfold chainIndexLogFilters
  split_ifs with hempty
  · exact List.Pairwise.nil
  cases hera : eraEventSignaturesForRange fromBlock toBlock v2StartBlock legacyShieldBlock with
  | none =>
      simp only [combinedEventSignaturesForRange, hera, Option.map_none, splitLogFilters]
      cases actionFromBlock fromBlock toBlock actionStartBlock <;> split_ifs <;>
        simp [actionLogFilters, actionEventSignatures]
  | some eventSignatures =>
      simp only [combinedEventSignaturesForRange, hera, Option.map_some]
      cases hstarted : actionStartBlock.any fun start => start ≤ fromBlock with
      | true =>
          rw [actionFromBlock_filter_of_started hstarted]
          exact List.pairwise_singleton _ _
      | false =>
          rw [actionFromBlock_filter_of_not_started hstarted]
          unfold eraEventSignaturesForRange at hera
          cases actionFromBlock fromBlock toBlock actionStartBlock with
          | none => exact List.pairwise_singleton _ _
          | some start =>
              split_ifs at hera <;> simp at hera <;> subst hera <;>
                simp [actionLogFilters, actionEventSignatures]

/-- **The filters of a range are complete and disjoint.** -/
theorem chainIndexLogFilters_complete_disjoint (hrange : fromBlock ≤ toBlock)
    (hlegacy : legacyShieldBlock.toNat + 1 < u64Bound) :
    let selected := Selected contract fromBlock toBlock v2StartBlock legacyShieldBlock
      actionStartBlock
    ((chainIndexLogFilters contract fromBlock toBlock v2StartBlock legacyShieldBlock
      actionStartBlock).Pairwise fun left right => ∀ block signature,
        ¬ (left.Selects block signature ∧ right.Selects block signature))
    ∧ (∀ block signature, selected block signature → fromBlock ≤ block ∧ block ≤ toBlock)
    ∧ (∀ block, fromBlock ≤ block → block ≤ toBlock →
      (block < v2StartBlock →
        selected block .commitmentBatch ∧ selected block .generatedCommitmentBatch)
      ∧ (v2StartBlock ≤ block → selected block .transact)
      ∧ (v2StartBlock ≤ block → block ≤ legacyShieldBlock → selected block .legacyShield)
      ∧ (max v2StartBlock (legacyShieldBlock + 1) ≤ block → selected block .shield)
      ∧ selected block .nullifiers ∧ selected block .nullified
      ∧ (∀ start, actionStartBlock = some start → start ≤ block →
        selected block .action ∧ selected block .unshield))
    ∧ (∀ block, block ≤ legacyShieldBlock → ¬ selected block .shield)
    ∧ (∀ block, legacyShieldBlock < block → ¬ selected block .legacyShield) := by
  intro selected
  have hsucc : (legacyShieldBlock + 1).toNat = legacyShieldBlock.toNat + 1 := by
    exact Nat.mod_eq_of_lt hlegacy
  have hspec : ∀ block signature, selected block signature ↔ _ :=
    fun block signature => selected_iff hrange
  refine ⟨?_, ?_, ?_, ?_, ?_⟩
  · refine pairwise_disjoint_eventSignatures.imp ?_
    intro left right hdisjoint block signature hboth
    exact hdisjoint hboth.1.2.2 hboth.2.2.2
  · intro block signature hselected
    obtain ⟨hfrom, hto, -⟩ := (hspec block signature).mp hselected
    exact ⟨hfrom, hto⟩
  · intro block hfrom hto
    have hinEra : ∀ {signature}, InEra v2StartBlock legacyShieldBlock actionStartBlock block
        signature → selected block signature :=
      fun hera => (hspec _ _).mpr ⟨hfrom, hto, .inl hera⟩
    refine ⟨fun hv2 => ⟨hinEra hv2, hinEra hv2⟩, fun hv2 => hinEra hv2,
      fun hv2 hold => hinEra ⟨hv2, hold⟩, fun hnew => hinEra ?_, hinEra trivial, hinEra trivial,
      fun start hstart hle => ⟨hinEra ⟨start, hstart, hle⟩, hinEra ⟨start, hstart, hle⟩⟩⟩
    simp only [InEra, UInt64.le_iff_toNat_le, UInt64.lt_iff_toNat_lt, toNat_max, hsucc] at hnew ⊢
    omega
  · intro block hle hselected
    have hera := (hspec _ _).mp hselected
    simp only [InEra, IsLegacyBatch, reduceCtorEq, or_self, false_and, or_false] at hera
    exact UInt64.not_lt.mpr hle hera.2.2.2
  · intro block hlt hselected
    have hera := (hspec _ _).mp hselected
    simp only [InEra, IsLegacyBatch, reduceCtorEq, or_self, false_and, or_false] at hera
    exact UInt64.not_lt.mpr hera.2.2.2 hlt

theorem chainIndexLogFilters_complete_disjoint_mixed :
    Selected 0 5 20 10 12 (some 15) 16 .shield
      ∧ ¬ Selected 0 5 20 10 12 (some 15) 12 .shield :=
  have hall := @chainIndexLogFilters_complete_disjoint 0 5 20 10 12 (some 15)
    (by decide) (by decide)
  ⟨(hall.2.2.1 16 (by decide) (by decide)).2.2.2.1 (by decide), hall.2.2.2.1 12 (by decide)⟩

end Selection

end RailgunIndexer
