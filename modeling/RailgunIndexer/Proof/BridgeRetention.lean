import RailgunIndexer.Proof.PoiGraph

/-!
# Which bridges a rotation keeps

Bridges are kept by their age: the time of the host less the time at which the database stamped them.
Stamps that do not decrease along the list lose the old bridges in front. A stamp after the time of the
host has no age, and its bridge is dropped as well, from behind older ones that are kept.
-/

namespace RailgunIndexer

open Lib Fallible

section Retention

variable {publisher : PoiPublisher} {active : ActivePoiGraph} {now : Nat}
  {inherited bridges : List EventArtifactDescriptor} {created : Option EventArtifactDescriptor}
  {bridge : EventArtifactDescriptor} {kept : List EventArtifactDescriptor}

def ActivePoiGraph.publishedAt (active : ActivePoiGraph) (now : Nat)
    (bridge : EventArtifactDescriptor) : Nat :=
  (active.bridgePublishedAt bridge.artifact.cid).getD now

/-- Every bridge has a stamp, and the stamps do not decrease along the list. -/
structure StampedInOrder (active : ActivePoiGraph) (inherited : List EventArtifactDescriptor) :
    Prop where
  stamped : ∀ bridge ∈ inherited, (active.bridgePublishedAt bridge.artifact.cid).isSome
  ordered : inherited.Pairwise fun left right => ∀ earlier later,
    active.bridgePublishedAt left.artifact.cid = some earlier →
      active.bridgePublishedAt right.artifact.cid = some later → earlier ≤ later

structure IsCreated (active : ActivePoiGraph) (bridge : EventArtifactDescriptor) : Prop where
  unstamped : active.bridgePublishedAt bridge.artifact.cid = none
  fresh : ∀ other ∈ active.entry.retainedBridges, other.artifact.cid ≠ bridge.artifact.cid

/-- The last bridges are kept, the created one among them, and no more than may be. -/
structure KeepsLast (publisher : PoiPublisher) (inherited : List EventArtifactDescriptor)
    (created : Option EventArtifactDescriptor) (retained : List EventArtifactDescriptor) : Prop where
  suffix : retained <:+ inherited ++ created.toList
  created : ∀ bridge ∈ created, bridge ∈ retained
  bounded : retained.length ≤ publisher.library.maxRetainedBridges

/-- No bridge is stamped after the time of the host, unless no stamped one is kept anyway. -/
structure ClocksAgree (publisher : PoiPublisher) (active : ActivePoiGraph) (now : Nat)
    (inherited : List EventArtifactDescriptor) (created : Option EventArtifactDescriptor) : Prop where
  room : created.isSome → 0 < publisher.library.maxRetainedBridges
  past : (∀ bridge ∈ inherited, active.publishedAt now bridge ≤ now)
    ∨ (∀ bridge ∈ inherited, isRecent now (active.publishedAt now bridge) = false)
    ∨ publisher.library.maxRetainedBridges ≤ created.toList.length

/-! ### What is kept -/

theorem publishedAt_of_some {time : Nat}
    (htime : active.bridgePublishedAt bridge.artifact.cid = some time) :
    active.publishedAt now bridge = time := by
  rw [ActivePoiGraph.publishedAt, htime, Option.getD_some]

theorem isRecent_self : isRecent now now = true := by
  simp [isRecent]

theorem IsCreated.publishedAt (hcreated : IsCreated active bridge) :
    active.publishedAt now bridge = now := by
  rw [ActivePoiGraph.publishedAt, hcreated.unstamped, Option.getD_none]

theorem StampedInOrder.bridgePublicationTime (hstamped : StampedInOrder active inherited)
    (hbridge : bridge ∈ inherited) :
    bridgePublicationTime active now bridge = .ok (active.publishedAt now bridge) := by
  obtain ⟨time, htime⟩ := Option.isSome_iff_exists.mp (hstamped.stamped bridge hbridge)
  rw [publishedAt_of_some htime, RailgunIndexer.bridgePublicationTime, htime]

theorem IsCreated.bridgePublicationTime (hcreated : IsCreated active bridge) :
    bridgePublicationTime active now bridge = .ok (active.publishedAt now bridge) := by
  rw [hcreated.publishedAt, RailgunIndexer.bridgePublicationTime, hcreated.unstamped]
  apply if_neg
  intro hany
  obtain ⟨other, hother, hcid⟩ := List.any_eq_true.mp hany
  exact hcreated.fresh other hother (eq_of_beq hcid)

theorem zip_filter_map_fst {α β : Type} (keeps : β → Bool) (value : α → β) (items : List α) :
    ((items.zip (items.map value)).filter fun stamped => keeps stamped.2).map Prod.fst
      = items.filter fun item => keeps (value item) := by
  induction items with
  | nil => rfl
  | cons item rest ih =>
      rw [List.map_cons, List.zip_cons_cons, List.filter_cons, List.filter_cons]
      by_cases hkeeps : keeps (value item) = true
      · rw [if_pos hkeeps, if_pos hkeeps, List.map_cons, ih]
      · rw [if_neg hkeeps, if_neg hkeeps, ih]

theorem retainRecentBridges_eq
    (htimes : ∀ bridge ∈ bridges, bridgePublicationTime active now bridge = .ok (active.publishedAt
      now bridge))
    (hkept : kept = bridges.filter fun bridge => isRecent now (active.publishedAt now bridge)) :
    retainRecentBridges publisher bridges active now
      = .ok (kept.drop (kept.length - publisher.library.maxRetainedBridges)) := by
  have hmapM : bridges.mapM (bridgePublicationTime active now)
      = .ok (bridges.map (active.publishedAt now)) := by
    rw [mapM_eq_ok_iff, List.forall₂_map_right_iff]
    exact List.forall₂_same.mpr htimes
  rw [retainRecentBridges, hmapM, ok_bind, zip_filter_map_fst, ← hkept, pure_eq_ok]

theorem retainRecentBridges_created (hstamped : StampedInOrder active inherited)
    (hcreated : ∀ bridge ∈ created, IsCreated active bridge)
    (hkept : kept = inherited.filter fun bridge => isRecent now (active.publishedAt now bridge)) :
    retainRecentBridges publisher (inherited ++ created.toList) active now
      = .ok ((kept ++ created.toList).drop ((kept ++ created.toList).length
        - publisher.library.maxRetainedBridges)) := by
  apply retainRecentBridges_eq
  · intro bridge hbridge
    rcases List.mem_append.mp hbridge with hbridge | hbridge
    · exact hstamped.bridgePublicationTime hbridge
    · exact (hcreated bridge (Option.mem_toList.mp hbridge)).bridgePublicationTime
  · rw [List.filter_append, ← hkept]
    congr 1
    symm
    apply List.filter_eq_self.mpr
    intro bridge hbridge
    rw [(hcreated bridge (Option.mem_toList.mp hbridge)).publishedAt]
    exact isRecent_self

/-! ### When the last ones are kept -/

section

variable (hstamped : StampedInOrder active inherited)

include hstamped

theorem StampedInOrder.le (now : Nat) :
    inherited.Pairwise fun left right => active.publishedAt now left ≤ active.publishedAt now right := by
  refine hstamped.ordered.imp_of_mem fun hleft hright hle => ?_
  obtain ⟨earlier, hearlier⟩ := Option.isSome_iff_exists.mp (hstamped.stamped _ hleft)
  obtain ⟨later, hlater⟩ := Option.isSome_iff_exists.mp (hstamped.stamped _ hright)
  rw [publishedAt_of_some hearlier, publishedAt_of_some hlater]
  exact hle earlier later hearlier hlater

theorem filter_isSuffix_of_past (hpast : ∀ bridge ∈ inherited, active.publishedAt now bridge ≤ now) :
    (inherited.filter fun bridge => isRecent now (active.publishedAt now bridge)) <:+ inherited := by
  apply filter_isSuffix
  refine (hstamped.le now).imp_of_mem fun _ hright hle => ?_
  exact isRecent_mono hle (hpast _ hright)

theorem past_of_suffix (hne : kept ≠ []) (hsuffix : kept <:+ inherited)
    (hrecent : ∀ bridge ∈ kept, isRecent now (active.publishedAt now bridge) = true) :
    ∀ bridge ∈ inherited, active.publishedAt now bridge ≤ now := by
  obtain ⟨dropped, rfl⟩ := hsuffix
  obtain ⟨front, last, rfl⟩ : ∃ front last, kept = front ++ [last] :=
    ⟨_, _, (List.dropLast_append_getLast hne).symm⟩
  have hlast : active.publishedAt now last ≤ now := by
    have hrecentLast := hrecent last (List.mem_append_right _ List.mem_cons_self)
    rw [isRecent, Bool.and_eq_true] at hrecentLast
    exact of_decide_eq_true hrecentLast.1
  intro bridge hbridge
  rw [← List.append_assoc] at hbridge
  have hle := hstamped.le now
  rw [← List.append_assoc] at hle
  rcases List.mem_append.mp hbridge with hbridge | hbridge
  · have hbefore := (List.pairwise_append.mp hle).2.2 bridge hbridge last List.mem_cons_self
    exact hbefore.trans hlast
  · rw [List.mem_singleton.mp hbridge]
    exact hlast

theorem keepsLast_of_clocksAgree
    (hkept : kept = inherited.filter fun bridge => isRecent now (active.publishedAt now bridge))
    (hagree : ClocksAgree publisher active now inherited created) :
    KeepsLast publisher inherited created ((kept ++ created.toList).drop
      ((kept ++ created.toList).length - publisher.library.maxRetainedBridges)) := by
  have hroom : created.toList.length ≤ publisher.library.maxRetainedBridges := by
    cases created with
    | none => exact Nat.zero_le _
    | some bridge => exact hagree.room rfl
  have hdrop : (kept ++ created.toList).drop
      ((kept ++ created.toList).length - publisher.library.maxRetainedBridges)
      = kept.drop (kept.length + created.toList.length - publisher.library.maxRetainedBridges)
        ++ created.toList := by
    rw [List.length_append, List.drop_append_of_le_length (by omega)]
  refine ⟨?_, ?_, ?_⟩
  · rw [hdrop, List.suffix_append_inj_of_length_eq rfl]
    refine ⟨?_, rfl⟩
    rcases hagree.past with hpast | hold | hfull
    · rw [hkept]
      exact (List.drop_suffix _ _).trans (filter_isSuffix_of_past hstamped hpast)
    · have hnil : kept = [] := by
        rw [hkept, List.filter_eq_nil_iff]
        intro bridge hbridge
        rw [hold bridge hbridge]
        exact Bool.false_ne_true
      rw [hnil, List.drop_nil]
      exact List.nil_suffix
    · rw [List.drop_of_length_le (by omega)]
      exact List.nil_suffix
  · intro bridge hbridge
    rw [hdrop]
    exact List.mem_append_right _ (Option.mem_toList.mpr hbridge)
  · rw [List.length_drop]
    omega

theorem clocksAgree_of_keepsLast
    (hkept : kept = inherited.filter fun bridge => isRecent now (active.publishedAt now bridge))
    (hkeeps : KeepsLast publisher inherited created ((kept ++ created.toList).drop ((kept ++
      created.toList).length - publisher.library.maxRetainedBridges))) :
    ClocksAgree publisher active now inherited created := by
  have hroom : created.isSome → 0 < publisher.library.maxRetainedBridges := by
    intro hsome
    obtain ⟨bridge, hbridge⟩ := Option.isSome_iff_exists.mp hsome
    exact (List.length_pos_of_mem (hkeeps.created bridge hbridge)).trans_le hkeeps.bounded
  refine ⟨hroom, ?_⟩
  by_cases hfull : publisher.library.maxRetainedBridges ≤ created.toList.length
  · exact .inr (.inr hfull)
  by_cases hnil : kept = []
  · right
    left
    intro bridge hbridge
    rw [hkept, List.filter_eq_nil_iff] at hnil
    exact Bool.eq_false_of_not_eq_true (hnil bridge hbridge)
  left
  have hpositive := List.length_pos_iff.mpr hnil
  have hsuffix := hkeeps.suffix
  rw [List.length_append, List.drop_append_of_le_length (by omega),
    List.suffix_append_inj_of_length_eq rfl] at hsuffix
  refine past_of_suffix hstamped ?_ hsuffix.1 ?_
  · intro hdropped
    rw [List.drop_eq_nil_iff] at hdropped
    omega
  · intro bridge hbridge
    have hmem := List.mem_of_mem_drop hbridge
    rw [hkept] at hmem
    exact (List.mem_filter.mp hmem).2

end

/-- **A rotation keeps the last bridges exactly if the clocks agree.** -/
theorem retainRecentBridges_keepsLast_iff (hstamped : StampedInOrder active inherited)
    (hcreated : ∀ bridge ∈ created, IsCreated active bridge) :
    ∃ retained, retainRecentBridges publisher (inherited ++ created.toList) active now = .ok retained
      ∧ (KeepsLast publisher inherited created retained
        ↔ ClocksAgree publisher active now inherited created) :=
  ⟨_, retainRecentBridges_created hstamped hcreated rfl, clocksAgree_of_keepsLast hstamped rfl,
    keepsLast_of_clocksAgree hstamped rfl⟩

end Retention

/-! ### A database that is ahead

The second bridge was stamped one second after the time of the host. -/

section Ahead

def aheadBridge (index : Nat) : EventArtifactDescriptor where
  scope := smallScope
  kind := .bridge
  range := ⟨index, index⟩
  rowCount := 1
  startRoot := some 0
  endRoot := 0
  artifact := ⟨if index = 1 then "first" else if index = 2 then "second" else "third", 0, 0⟩

def aheadNow : Nat := 1000 * 10 ^ 9

def aheadActive : ActivePoiGraph where
  entry := smallEntry 4 3 none [aheadBridge 1, aheadBridge 2]
  checkpointPublishedAt := 0
  bridgePublishedAt cid :=
    if cid = "first" then some (aheadNow - 10 ^ 9)
    else if cid = "second" then some (aheadNow + 10 ^ 9)
    else none

theorem aheadActive_stampedInOrder : StampedInOrder aheadActive [aheadBridge 1, aheadBridge 2] := by
  constructor
  · intro bridge hbridge
    rcases List.mem_pair.mp hbridge with rfl | rfl <;> rfl
  · refine List.pairwise_pair.mpr fun earlier later hearlier hlater => ?_
    cases hearlier
    cases hlater
    decide

theorem aheadBridge_isCreated : IsCreated aheadActive (aheadBridge 3) := by
  constructor
  · rfl
  · intro other hother
    rcases List.mem_pair.mp hother with rfl | rfl <;> decide

/-- The first bridge and the third are kept without the second between them. -/
theorem retainRecentBridges_drops_middle :
    StampedInOrder aheadActive [aheadBridge 1, aheadBridge 2]
    ∧ IsCreated aheadActive (aheadBridge 3)
    ∧ retainRecentBridges smallPoiPublisher ([aheadBridge 1, aheadBridge 2] ++ [aheadBridge 3])
      aheadActive aheadNow = .ok [aheadBridge 1, aheadBridge 3]
    ∧ ¬ [aheadBridge 1, aheadBridge 3] <:+ [aheadBridge 1, aheadBridge 2] ++ [aheadBridge 3] :=
  ⟨aheadActive_stampedInOrder, aheadBridge_isCreated, by decide +kernel, by decide +kernel⟩

theorem retainRecentBridges_keepsLast_later : ∃ retained,
    retainRecentBridges smallPoiPublisher ([aheadBridge 1, aheadBridge 2] ++ [aheadBridge 3])
      aheadActive (aheadNow + 2 * 10 ^ 9) = .ok retained
    ∧ KeepsLast smallPoiPublisher [aheadBridge 1, aheadBridge 2] (some (aheadBridge 3)) retained := by
  have hcreated : ∀ bridge ∈ some (aheadBridge 3), IsCreated aheadActive bridge := by
    intro bridge hbridge
    rw [← Option.some.inj hbridge]
    exact aheadBridge_isCreated
  obtain ⟨retained, hok, hiff⟩ := @retainRecentBridges_keepsLast_iff smallPoiPublisher aheadActive
    (aheadNow + 2 * 10 ^ 9) _ _ aheadActive_stampedInOrder hcreated
  refine ⟨retained, hok, hiff.mpr ⟨fun _ => by decide, .inl ?_⟩⟩
  intro bridge hbridge
  rcases List.mem_pair.mp hbridge with rfl | rfl <;> decide

end Ahead

end RailgunIndexer
