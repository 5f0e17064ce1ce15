import RailgunIndexer.Proof.PublicationTables

/-!
# The manifests of a channel

The rows of a channel change in four ways: one is recorded, one is activated and the others are
superseded, the pending one is invalidated, or superseded ones are marked as unpinned. Under each of
them the sequences stay in order, at most one manifest is pending and at most one is active, and the
pending one is the newest. The publishers record only sequences that they reserved, and these are larger
than any recorded before, whatever the clock, a failure or a restart does to the reservation.
-/

namespace RailgunIndexer

open Lib

/-! ### Rows move forward -/

namespace ManifestRow

variable {β : Type} {row later last : ManifestRow β}

theorem isPending_iff : row.isPending = true ↔ row.ipnsPublishedAt = none ∧ row.supersededAt = none
    ∧ row.unpinnedAt = none ∧ row.reconciliationInvalidatedAt = none := by
  simp [isPending, and_assoc]

theorem isActive_iff : row.isActive = true ↔ row.ipnsPublishedAt ≠ none ∧ row.supersededAt = none := by
  simp [isActive, Option.isSome_iff_ne_none]

theorem isKept_iff : row.isKept = true ↔ row.supersededAt = none ∧ row.unpinnedAt = none := by
  simp [isKept]

/-- What may happen to a row: a column that is set stays as it is, only a pending row is activated, and
only a superseded row is unpinned. -/
structure Advances (row later : ManifestRow β) : Prop where
  cid : later.cid = row.cid
  ipnsSequence : later.ipnsSequence = row.ipnsSequence
  artifactCids : later.artifactCids = row.artifactCids
  body : later.body = row.body
  published : row.ipnsPublishedAt ≠ none → later.ipnsPublishedAt = row.ipnsPublishedAt
  superseded : row.supersededAt ≠ none → later.supersededAt = row.supersededAt
  unpinned : row.unpinnedAt ≠ none → later.unpinnedAt = row.unpinnedAt
  invalidated : row.reconciliationInvalidatedAt ≠ none →
    later.reconciliationInvalidatedAt = row.reconciliationInvalidatedAt
  activated : row.ipnsPublishedAt = none → later.ipnsPublishedAt ≠ none → row.isPending = true
  swept : row.unpinnedAt = none → later.unpinnedAt ≠ none → later.supersededAt ≠ none
  given_up : row.reconciliationInvalidatedAt = none → later.reconciliationInvalidatedAt ≠ none →
    later.ipnsPublishedAt = none

theorem Advances.refl (row : ManifestRow β) : row.Advances row where
  cid := rfl
  ipnsSequence := rfl
  artifactCids := rfl
  body := rfl
  published _ := rfl
  superseded _ := rfl
  unpinned _ := rfl
  invalidated _ := rfl
  activated hnone hsome := absurd hnone hsome
  swept hnone hsome := absurd hnone hsome
  given_up hnone hsome := absurd hnone hsome

theorem Advances.isPending_of_later (hrow : row.Advances later) (hpending : later.isPending = true) :
    row.isPending = true := by
  obtain ⟨hpublished, hsuperseded, hunpinned, hinvalidated⟩ := isPending_iff.mp hpending
  refine isPending_iff.mpr ⟨?_, ?_, ?_, ?_⟩
  · by_contra hne
    exact hne ((hrow.published hne).symm.trans hpublished)
  · by_contra hne
    exact hne ((hrow.superseded hne).symm.trans hsuperseded)
  · by_contra hne
    exact hne ((hrow.unpinned hne).symm.trans hunpinned)
  · by_contra hne
    exact hne ((hrow.invalidated hne).symm.trans hinvalidated)

theorem Advances.ipnsPublishedAt_eq_none (hrow : row.Advances later)
    (hinvalidated : row.reconciliationInvalidatedAt ≠ none) (hpublished : row.ipnsPublishedAt = none) :
    later.ipnsPublishedAt = none := by
  by_contra hsome
  obtain ⟨-, -, -, hpending⟩ := isPending_iff.mp (hrow.activated hpublished hsome)
  exact hinvalidated hpending

theorem Advances.trans (hrow : row.Advances later) (hlater : later.Advances last) :
    row.Advances last where
  cid := hlater.cid.trans hrow.cid
  ipnsSequence := hlater.ipnsSequence.trans hrow.ipnsSequence
  artifactCids := hlater.artifactCids.trans hrow.artifactCids
  body := hlater.body.trans hrow.body
  published hne := by
    have hsame := hrow.published hne
    exact (hlater.published (hsame ▸ hne)).trans hsame
  superseded hne := by
    have hsame := hrow.superseded hne
    exact (hlater.superseded (hsame ▸ hne)).trans hsame
  unpinned hne := by
    have hsame := hrow.unpinned hne
    exact (hlater.unpinned (hsame ▸ hne)).trans hsame
  invalidated hne := by
    have hsame := hrow.invalidated hne
    exact (hlater.invalidated (hsame ▸ hne)).trans hsame
  activated hnone hsome := by
    by_cases hmiddle : later.ipnsPublishedAt = none
    · exact hrow.isPending_of_later (hlater.activated hmiddle hsome)
    · exact hrow.activated hnone hmiddle
  swept hnone hsome := by
    by_cases hmiddle : later.unpinnedAt = none
    · exact hlater.swept hmiddle hsome
    · have hsuperseded := hrow.swept hnone hmiddle
      rwa [hlater.superseded hsuperseded]
  given_up hnone hsome := by
    by_cases hmiddle : later.reconciliationInvalidatedAt = none
    · exact hlater.given_up hmiddle hsome
    · exact hlater.ipnsPublishedAt_eq_none hmiddle (hrow.given_up hnone hmiddle)

end ManifestRow

/-! ### Changes of a channel -/

section Changes

variable {β : Type} {rows later : List (ManifestRow β)} {cid : String} {now : Nat}

/-- What the activation of a manifest supersedes: the other active ones, and the invalidated ones
before it. -/
def replacedBy (cid : String) (sequence : Nat) (row : ManifestRow β) : Bool :=
  (row.ipnsPublishedAt.isSome && (row.cid ≠ cid || row.ipnsSequence ≠ sequence))
    || Audit.isInvalidatedBefore sequence row

/-- The ways in which the rows of a channel change. `content` says what the bytes with a CID are, `kind`
what a manifest of this channel with a sequence is, `records` which rows may be recorded, and `activation`
which manifest the step activates. -/
inductive ManifestChange (content : String → PublishedContent) (s : PublicationState)
    (kind : Nat → PublishedContent) (records : ManifestRow β → Prop)
    (activation : String → Nat → Prop) (rows : List (ManifestRow β)) : List (ManifestRow β) → Prop
  | same : ManifestChange content s kind records activation rows rows
  | recorded {row : ManifestRow β} (hnone : ∀ other ∈ rows, other.isPending = false)
      (hrecords : records row)
      (hcontent : content row.cid = kind row.ipnsSequence) (hbound : row.ipnsSequence < i64Bound)
      (hfresh : row.isPending = true) :
      ManifestChange content s kind records activation rows (rows ++ [row])
  | activated {cid : String} {sequence : Nat} (hactivation : activation cid sequence)
      (hrow : ∃ row ∈ rows, Audit.activates cid sequence row = true) :
      ManifestChange content s kind records activation rows
        (Audit.supersede s.clock (replacedBy cid sequence)
          (Audit.activate s.clock cid sequence rows))
  | invalidated :
      ManifestChange content s kind records activation rows
        (Table.update ManifestRow.isPending
          (fun row => { row with reconciliationInvalidatedAt := some s.clock }) rows)
  | marked {cid : String} {cutoff now : Nat}
      (hlock : s.pinLock = some (.sweepMark cid cutoff now)) :
      ManifestChange content s kind records activation rows
        (Retention.markManifests (Retention.unixSeconds now) cutoff cid rows)

variable {row : ManifestRow β}

theorem activates_iff {sequence : Nat} :
    Audit.activates cid sequence row = true ↔ row.cid = cid ∧ row.ipnsSequence = sequence
      ∧ row.supersededAt = none ∧ row.unpinnedAt = none
      ∧ row.reconciliationInvalidatedAt = none := by
  simp [Audit.activates, ManifestRow.isKept, and_assoc]

theorem forall₂_activate {sequence : Nat} :
    List.Forall₂ ManifestRow.Advances rows (Audit.activate now cid sequence rows) := by
  refine Table.forall₂_update ManifestRow.Advances.refl fun row _ hactivates => ?_
  obtain ⟨-, -, hsuperseded, hunpinned, hinvalidated⟩ := activates_iff.mp hactivates
  constructor
  case published =>
    intro hne
    obtain ⟨time, htime⟩ := Option.ne_none_iff_exists'.mp hne
    simp [htime]
  case activated =>
    intro hnone _
    exact ManifestRow.isPending_iff.mpr ⟨hnone, hsuperseded, hunpinned, hinvalidated⟩
  all_goals simp_all

theorem forall₂_supersede {replaced : ManifestRow β → Bool} :
    List.Forall₂ ManifestRow.Advances rows (Audit.supersede now replaced rows) := by
  refine Table.forall₂_update ManifestRow.Advances.refl fun row _ hreplaced => ?_
  constructor
  all_goals simp_all

theorem forall₂_activated {sequence : Nat} :
    List.Forall₂ ManifestRow.Advances rows
      (Audit.supersede now (replacedBy cid sequence) (Audit.activate now cid sequence rows)) :=
  Table.forall₂_trans (fun _ _ _ => ManifestRow.Advances.trans) forall₂_activate forall₂_supersede

theorem forall₂_invalidated :
    List.Forall₂ ManifestRow.Advances rows (Table.update ManifestRow.isPending
      (fun row => { row with reconciliationInvalidatedAt := some now }) rows) := by
  refine Table.forall₂_update ManifestRow.Advances.refl fun row _ hpending => ?_
  have hcolumns := ManifestRow.isPending_iff.mp hpending
  constructor
  all_goals simp_all

theorem forall₂_marked {sweptAt cutoff : Nat} :
    List.Forall₂ ManifestRow.Advances rows (Retention.markManifests sweptAt cutoff cid rows) := by
  refine Table.forall₂_update ManifestRow.Advances.refl fun row _ hstale => ?_
  simp only [Retention.isStaleManifest, Bool.and_eq_true, Option.isNone_iff_eq_none,
    Option.any_eq_true] at hstale
  obtain ⟨-, hunpinned, time, hsuperseded, -⟩ := hstale
  constructor
  all_goals simp_all

variable {content : String → PublishedContent} {s : PublicationState}
  {kind : Nat → PublishedContent} {records : ManifestRow β → Prop}
  {activation : String → Nat → Prop} {condition : ManifestRow β → Bool}
  {set : ManifestRow β → ManifestRow β}

/-- What a step does to a row that stands in its place: it moves forward, an activation supersedes it at
the time of the step, and a mark finds it superseded by the cutoff. -/
structure RowStep (s : PublicationState) (activation : String → Nat → Prop) (row later : ManifestRow β) :
    Prop where
  advances : row.Advances later
  superseded : later.supersededAt = row.supersededAt ∨ row.supersededAt = none
    ∧ later.supersededAt = some s.clock ∧ ∃ cid sequence, activation cid sequence
  unpinned : later.unpinnedAt = row.unpinnedAt ∨ ∃ cid cutoff now,
    s.pinLock = some (.sweepMark cid cutoff now) ∧ ∃ time ∈ later.supersededAt, time ≤ cutoff

theorem forall₂_update_iff {R : ManifestRow β → ManifestRow β → Prop} :
    List.Forall₂ R rows (Table.update condition set rows)
      ↔ ∀ row ∈ rows, R row (if condition row then set row else row) := by
  rw [Table.update, List.forall₂_map_right_iff, List.forall₂_same]

theorem rowStep_activated {sequence : Nat} (hactivation : activation cid sequence) :
    List.Forall₂ (RowStep s activation) rows
      (Audit.supersede s.clock (replacedBy cid sequence) (Audit.activate s.clock cid sequence rows)) := by
  have hadvances : List.Forall₂ ManifestRow.Advances rows
      (Audit.supersede s.clock (replacedBy cid sequence)
        (Audit.activate s.clock cid sequence rows)) := forall₂_activated
  rw [Audit.supersede, Audit.activate, Table.update, Table.update, List.map_map,
    List.forall₂_map_right_iff, List.forall₂_same] at hadvances ⊢
  intro row hrow
  refine ⟨hadvances row hrow, ?_, ?_⟩
  · dsimp only [Function.comp_apply]
    split_ifs with hactivates hreplaced hreplaced
    · rw [Bool.and_eq_true, Option.isNone_iff_eq_none] at hreplaced
      exact .inr ⟨hreplaced.1, rfl, cid, sequence, hactivation⟩
    · exact .inl rfl
    · rw [Bool.and_eq_true, Option.isNone_iff_eq_none] at hreplaced
      exact .inr ⟨hreplaced.1, rfl, cid, sequence, hactivation⟩
    · exact .inl rfl
  · left
    dsimp only [Function.comp_apply]
    split_ifs <;> rfl

section

variable (hchange : ManifestChange content s kind records activation rows later)

include hchange

theorem ManifestChange.rowSteps :
    ∃ kept added, later = kept ++ added ∧ List.Forall₂ (RowStep s activation) rows kept
      ∧ ∀ row ∈ added, records row ∧ row.isPending = true := by
  have hrefl : List.Forall₂ (RowStep s activation) rows rows :=
    List.forall₂_same.mpr fun row _ => ⟨.refl row, .inl rfl, .inl rfl⟩
  cases hchange with
  | same => exact ⟨rows, [], by simp, hrefl, by simp⟩
  | @recorded row _ hrecords _ _ hfresh =>
      refine ⟨rows, [row], rfl, hrefl, fun added hadded => ?_⟩
      rw [List.mem_singleton.mp hadded]
      exact ⟨hrecords, hfresh⟩
  | activated hactivation => exact ⟨_, [], by simp, rowStep_activated hactivation, by simp⟩
  | invalidated =>
      refine ⟨_, [], (List.append_nil _).symm, forall₂_update_iff.mpr fun row hrow => ⟨?_, ?_, ?_⟩,
        by simp⟩
      · exact forall₂_update_iff.mp forall₂_invalidated row hrow
      · left
        split_ifs <;> rfl
      · left
        split_ifs <;> rfl
  | @marked cid cutoff now hlock =>
      refine ⟨_, [], (List.append_nil _).symm, forall₂_update_iff.mpr fun row hrow => ⟨?_, ?_, ?_⟩,
        by simp⟩
      · exact forall₂_update_iff.mp forall₂_marked row hrow
      · left
        split_ifs <;> rfl
      · split_ifs with hstale
        · simp only [Retention.isStaleManifest, Bool.and_eq_true, Option.any_eq_true,
            decide_eq_true_eq] at hstale
          obtain ⟨-, -, time, htime, hle⟩ := hstale
          exact .inr ⟨cid, cutoff, now, hlock, time, htime, hle⟩
        · exact .inl rfl

theorem ManifestChange.row_cases (hrow : row ∈ later) :
    records row ∧ row.isPending = true ∨ ∃ old ∈ rows, RowStep s activation old row := by
  obtain ⟨kept, added, rfl, hkept, hadded⟩ := hchange.rowSteps
  rcases List.mem_append.mp hrow with hrow | hrow
  · exact .inr (Fallible.exists_of_forall₂_right hkept hrow)
  · exact .inl (hadded row hrow)

theorem ManifestChange.exists_later (hrow : row ∈ rows) :
    ∃ other ∈ later, RowStep s activation row other := by
  obtain ⟨kept, added, rfl, hkept, -⟩ := hchange.rowSteps
  obtain ⟨other, hother, hstep⟩ := Fallible.exists_of_forall₂_left hkept hrow
  exact ⟨other, List.mem_append_left _ hother, hstep⟩

theorem ManifestChange.forall₂
    (hnone : ∀ row, ¬ records row) : List.Forall₂ ManifestRow.Advances rows later := by
  cases hchange with
  | same => exact List.forall₂_same.mpr fun row _ => ManifestRow.Advances.refl row
  | recorded _ hrecords => exact absurd hrecords (hnone _)
  | activated => exact forall₂_activated
  | invalidated => exact forall₂_invalidated
  | marked => exact forall₂_marked

end

theorem isActive_of_activated {sequence : Nat}
    (hmem : row ∈ Audit.supersede now (replacedBy cid sequence) (Audit.activate now cid sequence
      rows)) (hactive : row.isActive = true) : row.cid = cid ∧ row.ipnsSequence = sequence := by
  obtain ⟨middle, -, rfl⟩ := Table.mem_update.mp hmem
  obtain ⟨hpublished, hsuperseded⟩ := ManifestRow.isActive_iff.mp hactive
  split_ifs at hpublished hsuperseded ⊢ with hreplaced
  simp only [hsuperseded, replacedBy, Option.isNone_none, Bool.true_and, Bool.or_eq_true,
    Bool.and_eq_true, decide_eq_true_eq, Option.isSome_iff_ne_none, not_or, not_and] at hreplaced
  simpa using hreplaced.1 hpublished

theorem exists_isActive_of_activated {sequence : Nat} (hmem : row ∈ rows)
    (hactivates : Audit.activates cid sequence row = true) :
    ∃ current ∈ Audit.supersede now (replacedBy cid sequence) (Audit.activate now cid sequence rows),
      current.isActive = true := by
  obtain ⟨hcid, hsequence, hsuperseded, -, hinvalidated⟩ := activates_iff.mp hactivates
  have hactivated : { row with ipnsPublishedAt := some (row.ipnsPublishedAt.getD now) }
      ∈ Audit.activate now cid sequence rows :=
    Table.mem_update.mpr ⟨row, hmem, by rw [if_pos hactivates]⟩
  refine ⟨_, Table.mem_update.mpr ⟨_, hactivated, if_neg ?_⟩, ?_⟩
  · simp [replacedBy, Audit.isInvalidatedBefore, hcid, hsequence, hinvalidated]
  · exact ManifestRow.isActive_iff.mpr ⟨by simp, hsuperseded⟩

theorem isActive_of_update
    (hset : ∀ row ∈ rows, (set row).ipnsPublishedAt = row.ipnsPublishedAt ∧ (set row).supersededAt =
      row.supersededAt ∧ (set row).ipnsSequence = row.ipnsSequence ∧ (set row).cid = row.cid)
    (hmem : row ∈ Table.update condition set rows) (hactive : row.isActive = true) :
    ∃ old ∈ rows, old.isActive = true ∧ row.ipnsSequence = old.ipnsSequence
      ∧ row.cid = old.cid := by
  obtain ⟨old, hold, rfl⟩ := Table.mem_update.mp hmem
  obtain ⟨hpublished, hsuperseded, hsequence, hcid⟩ := hset old hold
  refine ⟨old, hold, ?_⟩
  split_ifs at hactive ⊢
  · rw [ManifestRow.isActive, hpublished, hsuperseded] at hactive
    exact ⟨hactive, hsequence, hcid⟩
  · exact ⟨hactive, rfl, rfl⟩

/-- The rows of a channel: sequences in the order of recording, each the one its bytes hold, the pending
manifest the newest, one active manifest, only superseded ones unpinned, and only unpublished ones
given up. -/
structure ChannelOk (content : String → PublishedContent) (kind : Nat → PublishedContent)
    (rows : List (ManifestRow β)) : Prop where
  sequences : rows.Pairwise fun left right => left.ipnsSequence < right.ipnsSequence
  addressed : ∀ row ∈ rows, content row.cid = kind row.ipnsSequence
  bounded : ∀ row ∈ rows, row.ipnsSequence < i64Bound
  pending_last : ∀ row ∈ rows, row.isPending = true → ∀ other ∈ rows,
    other.ipnsSequence ≤ row.ipnsSequence
  active_one : ∀ row ∈ rows, ∀ other ∈ rows, row.isActive = true → other.isActive = true →
    row.ipnsSequence = other.ipnsSequence
  unpinned : ∀ row ∈ rows, row.unpinnedAt ≠ none → row.supersededAt ≠ none
  invalidated : ∀ row ∈ rows, row.reconciliationInvalidatedAt ≠ none → row.ipnsPublishedAt = none

theorem channelOk_nil : ChannelOk content kind ([] : List (ManifestRow β)) where
  sequences := .nil
  addressed := by simp
  bounded := by simp
  pending_last := by simp
  active_one := by simp
  unpinned := by simp
  invalidated := by simp

section

variable (hok : ChannelOk content kind rows)

include hok

theorem ChannelOk.record {row : ManifestRow β} (hnone : ∀ other ∈ rows, other.isPending = false)
    (hlarger : ∀ other ∈ rows, other.ipnsSequence < row.ipnsSequence)
    (hcontent : content row.cid = kind row.ipnsSequence) (hbound : row.ipnsSequence < i64Bound)
    (hfresh : row.isPending = true) : ChannelOk content kind (rows ++ [row]) := by
  obtain ⟨hpublished, hsuperseded, hunpinned, -⟩ := ManifestRow.isPending_iff.mp hfresh
  have hcases : ∀ other ∈ rows ++ [row], other ∈ rows ∨ other = row := by
    intro other hother
    rcases List.mem_append.mp hother with hother | hother
    · exact .inl hother
    · exact .inr (List.mem_singleton.mp hother)
  have hinactive : row.isActive = false := by
    rw [ManifestRow.isActive, hpublished]
    rfl
  constructor
  case sequences =>
    refine List.pairwise_append.mpr ⟨hok.sequences, List.pairwise_singleton _ _, ?_⟩
    intro other hother newest hnewest
    rw [List.mem_singleton.mp hnewest]
    exact hlarger other hother
  case addressed =>
    intro other hother
    rcases hcases other hother with hother | rfl
    · exact hok.addressed other hother
    · exact hcontent
  case bounded =>
    intro other hother
    rcases hcases other hother with hother | rfl
    · exact hok.bounded other hother
    · exact hbound
  case pending_last =>
    intro other hother hpending old hold
    rcases hcases other hother with hother | rfl
    · rw [hnone other hother] at hpending
      cases hpending
    · rcases hcases old hold with hold | rfl
      · exact (hlarger old hold).le
      · exact le_rfl
  case active_one =>
    intro other hother current hcurrent hotherActive hcurrentActive
    rcases hcases other hother with hother | rfl
    · rcases hcases current hcurrent with hcurrent | rfl
      · exact hok.active_one other hother current hcurrent hotherActive hcurrentActive
      · rw [hinactive] at hcurrentActive
        cases hcurrentActive
    · rw [hinactive] at hotherActive
      cases hotherActive
  case unpinned =>
    intro other hother
    rcases hcases other hother with hother | rfl
    · exact hok.unpinned other hother
    · exact fun hne => absurd hunpinned hne
  case invalidated =>
    intro other hother
    rcases hcases other hother with hother | rfl
    · exact hok.invalidated other hother
    · exact fun _ => hpublished

theorem ChannelOk.of_forall₂ (hrows : List.Forall₂ ManifestRow.Advances rows later)
    (hactive : ∀ row ∈ later, ∀ other ∈ later, row.isActive = true → other.isActive = true →
      row.ipnsSequence = other.ipnsSequence) : ChannelOk content kind later where
  sequences := Table.forall₂_pairwise hrows hok.sequences fun a b a' b' ha hb hlt => by
    rw [ha.ipnsSequence, hb.ipnsSequence]
    exact hlt
  addressed row hrow := by
    obtain ⟨old, hold, hadvances⟩ := Fallible.exists_of_forall₂_right hrows hrow
    rw [hadvances.cid, hadvances.ipnsSequence]
    exact hok.addressed old hold
  bounded row hrow := by
    obtain ⟨old, hold, hadvances⟩ := Fallible.exists_of_forall₂_right hrows hrow
    rw [hadvances.ipnsSequence]
    exact hok.bounded old hold
  pending_last row hrow hpending other hother := by
    obtain ⟨old, hold, hadvances⟩ := Fallible.exists_of_forall₂_right hrows hrow
    obtain ⟨oldOther, holdOther, hadvancesOther⟩ := Fallible.exists_of_forall₂_right hrows hother
    rw [hadvances.ipnsSequence, hadvancesOther.ipnsSequence]
    exact hok.pending_last old hold (hadvances.isPending_of_later hpending) oldOther holdOther
  active_one := hactive
  unpinned row hrow hne := by
    obtain ⟨old, hold, hadvances⟩ := Fallible.exists_of_forall₂_right hrows hrow
    by_cases hold' : old.unpinnedAt = none
    · exact hadvances.swept hold' hne
    · have hsuperseded := hok.unpinned old hold hold'
      rwa [hadvances.superseded hsuperseded]
  invalidated row hrow hne := by
    obtain ⟨old, hold, hadvances⟩ := Fallible.exists_of_forall₂_right hrows hrow
    by_cases hold' : old.reconciliationInvalidatedAt = none
    · exact hadvances.given_up hold' hne
    · exact hadvances.ipnsPublishedAt_eq_none hold' (hok.invalidated old hold hold')

theorem ChannelOk.update
    (hset : ∀ row ∈ rows, (set row).ipnsPublishedAt = row.ipnsPublishedAt ∧ (set row).supersededAt =
      row.supersededAt ∧ (set row).ipnsSequence = row.ipnsSequence ∧ (set row).cid = row.cid)
    (hrows : List.Forall₂ ManifestRow.Advances rows (Table.update condition set rows)) :
    ChannelOk content kind (Table.update condition set rows) := by
  refine hok.of_forall₂ hrows fun row hrow other hother hactive hotherActive => ?_
  obtain ⟨old, hold, holdActive, hsequence, -⟩ := isActive_of_update hset hrow hactive
  obtain ⟨oldOther, holdOther, holdOtherActive, hotherSequence, -⟩ :=
    isActive_of_update hset hother hotherActive
  rw [hsequence, hotherSequence]
  exact hok.active_one old hold oldOther holdOther holdActive holdOtherActive

theorem ChannelOk.change
    (hlarger : ∀ row, records row → ∀ other ∈ rows, other.ipnsSequence < row.ipnsSequence)
    (hchange : ManifestChange content s kind records activation rows later) :
    ChannelOk content kind later := by
  cases hchange with
  | same => exact hok
  | recorded hnone hrecords hcontent hbound hfresh =>
      exact hok.record hnone (hlarger _ hrecords) hcontent hbound hfresh
  | activated =>
      refine hok.of_forall₂ forall₂_activated fun row hrow other hother hactive hotherActive => ?_
      exact (isActive_of_activated hrow hactive).2.trans
        (isActive_of_activated hother hotherActive).2.symm
  | invalidated => exact hok.update (fun _ _ => ⟨rfl, rfl, rfl, rfl⟩) forall₂_invalidated
  | marked => exact hok.update (fun _ _ => ⟨rfl, rfl, rfl, rfl⟩) forall₂_marked

end

/-- How the rows of a channel follow earlier ones: every row is still there and has only moved forward,
and the active manifest is the same or a newer one. -/
structure ChannelFollows (rows later : List (ManifestRow β)) : Prop where
  kept : Table.Extends ManifestRow.Advances rows later
  active : ∀ row ∈ rows, row.isActive = true → ∃ current ∈ later, current.isActive = true
    ∧ row.ipnsSequence ≤ current.ipnsSequence
    ∧ (row.cid ≠ current.cid → row.ipnsSequence < current.ipnsSequence)

theorem ChannelFollows.refl (rows : List (ManifestRow β)) : ChannelFollows rows rows where
  kept := Table.extends_refl ManifestRow.Advances.refl
  active row hrow hactive := ⟨row, hrow, hactive, le_rfl, fun hne => absurd rfl hne⟩

theorem ChannelFollows.trans {last : List (ManifestRow β)} (hfirst : ChannelFollows rows later)
    (hsecond : ChannelFollows later last) : ChannelFollows rows last where
  kept := hfirst.kept.trans (fun _ _ _ => ManifestRow.Advances.trans) hsecond.kept
  active row hrow hactive := by
    obtain ⟨middle, hmiddle, hmiddleActive, hle, hlt⟩ := hfirst.active row hrow hactive
    obtain ⟨current, hcurrent, hcurrentActive, hle', hlt'⟩ :=
      hsecond.active middle hmiddle hmiddleActive
    refine ⟨current, hcurrent, hcurrentActive, hle.trans hle', fun hne => ?_⟩
    by_cases hcid : row.cid = middle.cid
    · exact hle.trans_lt (hlt' (hcid ▸ hne))
    · exact (hlt hcid).trans_le hle'

theorem ChannelFollows.of_update
    (hset : ∀ row ∈ rows, (set row).ipnsPublishedAt = row.ipnsPublishedAt ∧ (set row).supersededAt =
      row.supersededAt ∧ (set row).ipnsSequence = row.ipnsSequence ∧ (set row).cid = row.cid)
    (hrows : List.Forall₂ ManifestRow.Advances rows (Table.update condition set rows)) :
    ChannelFollows rows (Table.update condition set rows) where
  kept := Table.extends_of_forall₂ hrows
  active row hrow hactive := by
    obtain ⟨hpublished, hsuperseded, hsequence, hcid⟩ := hset row hrow
    refine ⟨_, Table.mem_update.mpr ⟨row, hrow, rfl⟩, ?_⟩
    split_ifs
    · refine ⟨?_, hsequence.ge, fun hne => absurd hcid.symm hne⟩
      rw [ManifestRow.isActive, hpublished, hsuperseded]
      exact hactive
    · exact ⟨hactive, le_rfl, fun hne => absurd rfl hne⟩

theorem ChannelOk.le_of_activates (hok : ChannelOk content kind rows) {sequence : Nat}
    {active : ManifestRow β} (hrow : row ∈ rows)
    (hactivates : Audit.activates cid sequence row = true) (hmem : active ∈ rows)
    (hactive : active.isActive = true) :
    active.ipnsSequence ≤ sequence ∧ (active.cid ≠ cid → active.ipnsSequence < sequence) := by
  obtain ⟨hcid, hsequence, hsuperseded, hunpinned, hinvalidated⟩ := activates_iff.mp hactivates
  have hle : active.ipnsSequence ≤ row.ipnsSequence := by
    by_cases hpublished : row.ipnsPublishedAt = none
    · exact hok.pending_last row hrow
        (ManifestRow.isPending_iff.mpr ⟨hpublished, hsuperseded, hunpinned, hinvalidated⟩) active hmem
    · exact (hok.active_one active hmem row hrow hactive
        (ManifestRow.isActive_iff.mpr ⟨hpublished, hsuperseded⟩)).le
  refine ⟨hsequence ▸ hle, fun hne => lt_of_le_of_ne (hsequence ▸ hle) fun heq => ?_⟩
  have hsame := Table.eq_of_pairwise_lt hok.sequences hmem hrow (heq.trans hsequence.symm)
  rw [hsame, hcid] at hne
  exact hne rfl

theorem ManifestChange.follows (hok : ChannelOk content kind rows)
    (hchange : ManifestChange content s kind records activation rows later) :
    ChannelFollows rows later := by
  cases hchange with
  | same => exact .refl rows
  | recorded =>
      refine ⟨Table.extends_append ManifestRow.Advances.refl _, fun row hrow hactive => ?_⟩
      exact ⟨row, List.mem_append_left _ hrow, hactive, le_rfl, fun hne => absurd rfl hne⟩
  | activated _ hrow =>
      obtain ⟨row, hrow, hactivates⟩ := hrow
      refine ⟨Table.extends_of_forall₂ forall₂_activated, fun active hmem hactive => ?_⟩
      obtain ⟨current, hcurrent, hcurrentActive⟩ := exists_isActive_of_activated hrow hactivates
      obtain ⟨hcid, hsequence⟩ := isActive_of_activated hcurrent hcurrentActive
      refine ⟨current, hcurrent, hcurrentActive, ?_⟩
      rw [hcid, hsequence]
      exact hok.le_of_activates hrow hactivates hmem hactive
  | invalidated => exact .of_update (fun _ _ => ⟨rfl, rfl, rfl, rfl⟩) forall₂_invalidated
  | marked => exact .of_update (fun _ _ => ⟨rfl, rfl, rfl, rfl⟩) forall₂_marked

def ManifestRow.Retired (row : ManifestRow β) : Prop :=
  row.supersededAt ≠ none ∨ row.reconciliationInvalidatedAt ≠ none ∨ row.unpinnedAt ≠ none

theorem ManifestRow.Advances.not_activated {later : ManifestRow β} (hrow : row.Advances later)
    (hretired : row.Retired) : later.ipnsPublishedAt = row.ipnsPublishedAt := by
  by_cases hpublished : row.ipnsPublishedAt = none
  · rw [hpublished]
    by_contra hsome
    obtain ⟨-, hsuperseded, hunpinned, hinvalidated⟩ :=
      ManifestRow.isPending_iff.mp (hrow.activated hpublished hsome)
    rcases hretired with hne | hne | hne
    · exact hne hsuperseded
    · exact hne hinvalidated
    · exact hne hunpinned
  · exact hrow.published hpublished

theorem ChannelOk.not_active (hok : ChannelOk content kind rows) {later : ManifestRow β}
    (hmem : row ∈ rows) (hretired : row.Retired) (hrow : row.Advances later) :
    later.isActive = false := by
  rw [Bool.eq_false_iff]
  intro hactive
  obtain ⟨hpublished, hsuperseded⟩ := ManifestRow.isActive_iff.mp hactive
  have hkept : row.supersededAt = none := by
    by_contra hne
    exact hne ((hrow.superseded hne).symm.trans hsuperseded)
  rw [hrow.not_activated hretired] at hpublished
  rcases hretired with hne | hne | hne
  · exact hne hkept
  · exact hpublished (hok.invalidated row hmem hne)
  · exact hok.unpinned row hmem hne hkept

/-- The rows of a channel, and how they follow earlier ones. Rows stand in the order of recording. At
most one manifest is pending and at most one is active, sequences increase, the active manifest is
replaced only by a newer one, and a retired row is not activated any more. -/
structure ChannelHistory (rows later : List (ManifestRow β)) : Prop where
  pending_one : (later.filter ManifestRow.isPending).length ≤ 1
  active_one : (later.filter ManifestRow.isActive).length ≤ 1
  sequences : later.Pairwise fun left right => left.ipnsSequence < right.ipnsSequence
  kept : Table.Extends ManifestRow.Advances rows later
  active : ∀ row ∈ rows, row.isActive = true → ∃ current ∈ later, current.isActive = true
    ∧ row.ipnsSequence ≤ current.ipnsSequence
    ∧ (row.cid ≠ current.cid → row.ipnsSequence < current.ipnsSequence)
  retired : Table.Extends (fun row later => row.Retired →
    later.isActive = false ∧ later.ipnsPublishedAt = row.ipnsPublishedAt) rows later

theorem ChannelFollows.history (hfollows : ChannelFollows rows later)
    (hok : ChannelOk content kind rows) (hlater : ChannelOk content kind later) :
    ChannelHistory rows later where
  pending_one := Table.length_filter_le_one hlater.sequences
    fun row hrow other hother hpending hotherPending =>
      (hlater.pending_last other hother hotherPending row hrow).antisymm
        (hlater.pending_last row hrow hpending other hother)
  active_one := Table.length_filter_le_one hlater.sequences hlater.active_one
  sequences := hlater.sequences
  kept := hfollows.kept
  active := hfollows.active
  retired := hfollows.kept.mono fun _ hrow _ hadvances hretired =>
    ⟨hok.not_active hrow hretired hadvances, hadvances.not_activated hretired⟩

end Changes

theorem mem_markUnpinned {tables : PublicationTables} {sweptAt cutoff : Nat} {cid : String}
    {found : IndexedManifestRow} (hfound : found ∈ tables.indexedManifests)
    (hpending : found.isPending = true) :
    found ∈ (Retention.markUnpinned sweptAt cutoff cid tables).indexedManifests := by
  rcases (@Retention.marked_markUnpinned sweptAt cutoff cid tables).indexedManifests with hsame | hmarked
  · rwa [hsame]
  · rw [hmarked]
    refine Table.mem_update.mpr ⟨found, hfound, if_neg ?_⟩
    simp [Retention.isStaleManifest, (ManifestRow.isPending_iff.mp hpending).2.1]

/-! ### Steps change a channel -/

section Steps

variable {library : PoiLibrary} {content : String → PublishedContent} {s next : PublicationState}
  {event : PublicationEvent}

theorem supersede_poi_eq {rows : List PoiManifestRow} {now : Nat} {cid : String} {sequence : Nat}
    (haddressed : ∀ row ∈ rows, content row.cid = .poiManifest row.ipnsSequence)
    (hrow : ∃ row ∈ rows, Audit.activates cid sequence row = true) :
    Audit.supersede now (fun row =>
        (row.cid ≠ cid && row.ipnsPublishedAt.isSome) || Audit.isInvalidatedBefore sequence row)
        (Audit.activate now cid sequence rows)
      = Audit.supersede now (replacedBy cid sequence) (Audit.activate now cid sequence rows) := by
  obtain ⟨activated, hactivated, hactivates⟩ := hrow
  obtain ⟨hcid, hsequence, -⟩ := activates_iff.mp hactivates
  refine List.map_congr_left fun row hrow => ?_
  obtain ⟨old, hold, hadvances⟩ := Fallible.exists_of_forall₂_right forall₂_activate hrow
  have hsame : row.cid = cid → row.ipnsSequence = sequence := by
    intro hrowCid
    have hcontent := haddressed old hold
    rw [← hadvances.cid, hrowCid, ← hcid, haddressed activated hactivated] at hcontent
    rw [hadvances.ipnsSequence, ← hsequence]
    exact (PublishedContent.poiManifest.inj hcontent).symm
  by_cases hrowCid : row.cid = cid
  · simp [replacedBy, hrowCid, hsame hrowCid]
  · simp [replacedBy, hrowCid]

end Steps

end RailgunIndexer
