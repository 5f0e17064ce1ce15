import RailgunIndexer.Lib.SortByKey
import Mathlib.Data.List.Forall2
import Mathlib.Data.List.Nodup
import Mathlib.Order.OrderDual

/-!
# Votes

Some voters answer yes or no and others not at all. A quorum of yes is certain when every way to fill
in the missing answers has it, and certain to be missed when none has. Voters that name a choice are
grouped by it, and the choice with the most voters is the first of the groups sorted by their size.
-/

namespace Lib.Quorum

/-! ### Missing answers -/

section Completions

variable {answers : List (Option Bool)} {filled : List Bool} {quorum : Nat}

/-- Every known answer is kept, and the missing ones are filled in. -/
def Completes (answers : List (Option Bool)) (filled : List Bool) : Prop :=
  List.Forall₂ (fun answer value => ∀ known ∈ answer, value = known) answers filled

theorem completes_getD (guess : Bool) :
    Completes answers (answers.map fun answer => answer.getD guess) := by
  rw [Completes, List.forall₂_map_right_iff]
  refine List.forall₂_same.mpr fun answer _ known hknown => ?_
  rw [Option.mem_def.mp hknown, Option.getD_some]

theorem count_getD_false :
    (answers.map fun answer => answer.getD false).count true = answers.count (some true) := by
  induction answers with
  | nil => rfl
  | cons answer rest ih =>
      rw [List.map_cons, List.count_cons, List.count_cons, ih]
      rcases answer with - | ⟨- | -⟩ <;> rfl

theorem count_getD_true : (answers.map fun answer => answer.getD true).count true
      = answers.count (some true) + answers.count none := by
  induction answers with
  | nil => rfl
  | cons answer rest ih =>
      rcases answer with - | ⟨- | -⟩ <;> simp <;> omega

theorem Completes.count_bounds (hcompletes : Completes answers filled) :
    answers.count (some true) ≤ filled.count true
      ∧ filled.count true ≤ answers.count (some true) + answers.count none := by
  induction hcompletes with
  | nil => exact ⟨le_rfl, Nat.zero_le _⟩
  | @cons answer value _ _ hvalue _ ih =>
      rcases answer with - | known
      · cases value <;> simp <;> omega
      · obtain rfl := hvalue known rfl
        cases value <;> simp <;> omega

theorem reached_iff : (∀ filled, Completes answers filled → quorum ≤ filled.count true)
    ↔ quorum ≤ answers.count (some true) := by
  constructor
  · intro hreached
    exact count_getD_false ▸ hreached _ (completes_getD false)
  · intro hle filled hcompletes
    exact hle.trans hcompletes.count_bounds.1

theorem missed_iff : (∀ filled, Completes answers filled → filled.count true < quorum)
    ↔ answers.count (some true) + answers.count none < quorum := by
  constructor
  · intro hmissed
    exact count_getD_true ▸ hmissed _ (completes_getD true)
  · intro hlt filled hcompletes
    exact hcompletes.count_bounds.2.trans_lt hlt

end Completions

/-! ### Groups -/

section Groups

variable {κ α : Type} [DecidableEq κ]

def join (choice : κ) (voter : α) : List (κ × List α) → List (κ × List α)
  | [] => [(choice, [voter])]
  | (other, voters) :: rest =>
      if other = choice then (other, voters ++ [voter]) :: rest
      else (other, voters) :: join choice voter rest

def votersOf (choice : κ) : List (κ × List α) → List α
  | [] => []
  | (other, voters) :: rest => if other = choice then voters else votersOf choice rest

variable {choice other : κ} {voter : α} {groups : List (κ × List α)} {votes : List (α × κ)}
  {group : κ × List α} {later : List (α × κ)}

theorem map_fst_join : (join choice voter groups).map Prod.fst
    = if choice ∈ groups.map Prod.fst then groups.map Prod.fst
      else groups.map Prod.fst ++ [choice] := by
  induction groups with
  | nil => rfl
  | cons group rest ih =>
      rw [join, List.map_cons]
      by_cases hsame : group.1 = choice
      · rw [if_pos hsame, if_pos (List.mem_cons.mpr (.inl hsame.symm)), List.map_cons]
      · rw [if_neg hsame, List.map_cons, ih]
        by_cases hmem : choice ∈ rest.map Prod.fst
        · rw [if_pos hmem, if_pos (List.mem_cons_of_mem _ hmem)]
        · have hnot : choice ∉ group.1 :: rest.map Prod.fst := by
            rw [List.mem_cons, not_or]
            exact ⟨fun heq => hsame heq.symm, hmem⟩
          rw [if_neg hmem, if_neg hnot, List.cons_append]

theorem nodup_join (hnodup : (groups.map Prod.fst).Nodup) :
    ((join choice voter groups).map Prod.fst).Nodup := by
  rw [map_fst_join]
  by_cases hmem : choice ∈ groups.map Prod.fst
  · rwa [if_pos hmem]
  · rw [if_neg hmem, ← List.concat_eq_append]
    exact hnodup.concat hmem

theorem votersOf_join : votersOf other (join choice voter groups)
    = if other = choice then votersOf choice groups ++ [voter] else votersOf other groups := by
  induction groups with
  | nil =>
      by_cases hsame : other = choice
      · simp [votersOf, join, hsame]
      · simp [votersOf, join, hsame, Ne.symm hsame]
  | cons group rest ih =>
      rw [join]
      by_cases hfirst : group.1 = choice
      · by_cases hsame : other = choice
        · simp [votersOf, hfirst, hsame]
        · simp [votersOf, hfirst, hsame, Ne.symm hsame]
      · rw [if_neg hfirst, votersOf, ih, votersOf, votersOf, if_neg hfirst]
        by_cases hother : group.1 = other
        · have hne : other ≠ choice := fun heq => hfirst (hother.trans heq)
          rw [if_pos hother, if_pos hother, if_neg hne]
        · rw [if_neg hother, if_neg hother]

theorem votersOf_of_mem (hnodup : (groups.map Prod.fst).Nodup) (hgroup : group ∈ groups) :
    votersOf group.1 groups = group.2 := by
  induction groups with
  | nil => cases hgroup
  | cons first rest ih =>
      obtain ⟨hfirst, hrest⟩ := List.nodup_cons.mp hnodup
      rw [votersOf]
      rcases List.mem_cons.mp hgroup with rfl | hgroup
      · rw [if_pos rfl]
      · rw [if_neg, ih hrest hgroup]
        intro hsame
        exact hfirst (hsame ▸ List.mem_map_of_mem hgroup)

theorem exists_mem_of_votersOf (hne : votersOf choice groups ≠ []) :
    ∃ group ∈ groups, group.1 = choice := by
  induction groups with
  | nil => exact absurd rfl hne
  | cons first rest ih =>
      by_cases hsame : first.1 = choice
      · exact ⟨first, List.mem_cons_self, hsame⟩
      · rw [votersOf, if_neg hsame] at hne
        obtain ⟨group, hgroup, hchoice⟩ := ih hne
        exact ⟨group, List.mem_cons_of_mem _ hgroup, hchoice⟩

def votesFor (votes : List (α × κ)) (choice : κ) : List α :=
  (votes.filter fun vote => vote.2 = choice).map Prod.fst

theorem votesFor_append :
    votesFor (votes ++ later) choice = votesFor votes choice ++ votesFor later choice := by
  rw [votesFor, List.filter_append, List.map_append, votesFor, votesFor]

/-- What groups stand for: each choice with those that voted for it, in the order of their votes. -/
structure Tallies (votes : List (α × κ)) (groups : List (κ × List α)) : Prop where
  nodup : (groups.map Prod.fst).Nodup
  voters : ∀ choice, votersOf choice groups = votesFor votes choice

theorem Tallies.join (htallies : Tallies votes groups) (vote : α × κ) :
    Tallies (votes ++ [vote]) (join vote.2 vote.1 groups) := by
  refine ⟨nodup_join htallies.nodup, fun choice => ?_⟩
  rw [votersOf_join, htallies.voters, htallies.voters, votesFor_append]
  by_cases hsame : choice = vote.2
  · rw [if_pos hsame, hsame]
    simp [votesFor]
  · rw [if_neg hsame]
    simp [votesFor, Ne.symm hsame]

theorem Tallies.foldl (htallies : Tallies votes groups) :
    Tallies (votes ++ later)
      (later.foldl (fun groups vote => Quorum.join vote.2 vote.1 groups) groups) := by
  induction later generalizing votes groups with
  | nil => rwa [List.append_nil]
  | cons vote later ih =>
      rw [List.append_cons]
      exact ih (htallies.join vote)

theorem tallies_nil : Tallies ([] : List (α × κ)) [] :=
  ⟨List.nodup_nil, fun _ => rfl⟩

theorem Tallies.group_voters (htallies : Tallies votes groups) (hgroup : group ∈ groups) :
    group.2 = votesFor votes group.1 :=
  (votersOf_of_mem htallies.nodup hgroup).symm.trans (htallies.voters group.1)

def bySize (groups : List (κ × List α)) : List (κ × List α) :=
  sortByKey (fun group => OrderDual.toDual group.2.length) groups

omit [DecidableEq κ] in
theorem length_le_of_head? (hfirst : (bySize groups).head? = some group) :
    group ∈ groups ∧ ∀ other ∈ groups, other.2.length ≤ group.2.length := by
  obtain ⟨rest, hrest⟩ := List.head?_eq_some_iff.mp hfirst
  have hperm := sortByKey_perm (fun group : κ × List α => OrderDual.toDual group.2.length) groups
  have hsorted := pairwise_sortByKey (fun group : κ × List α => OrderDual.toDual group.2.length) groups
  rw [← bySize, hrest] at hperm hsorted
  refine ⟨hperm.subset List.mem_cons_self, fun other hother => ?_⟩
  rcases List.mem_cons.mp (hperm.symm.subset hother) with rfl | hlater
  · exact le_rfl
  · exact OrderDual.toDual_le_toDual.mp ((List.pairwise_cons.mp hsorted).1 other hlater)

theorem Tallies.most_of_head? (htallies : Tallies votes groups)
    (hfirst : (bySize groups).head? = some group) (choice : κ) :
    (votesFor votes choice).length ≤ group.2.length := by
  by_cases hnone : votesFor votes choice = []
  · rw [hnone]
    exact Nat.zero_le _
  · rw [← htallies.voters] at hnone
    obtain ⟨other, hother, rfl⟩ := exists_mem_of_votersOf hnone
    rw [← htallies.group_voters hother]
    exact (length_le_of_head? hfirst).2 other hother

theorem Tallies.exists_head? (htallies : Tallies votes groups)
    (hvotes : 0 < (votesFor votes choice).length) : ∃ group, (bySize groups).head? = some group := by
  rw [← htallies.voters] at hvotes
  obtain ⟨group, hgroup, -⟩ := exists_mem_of_votersOf (List.length_pos_iff.mp hvotes)
  have hmem := (sortByKey_perm (fun group : κ × List α => OrderDual.toDual group.2.length)
    groups).symm.subset hgroup
  exact ⟨_, List.head?_eq_some_head (List.ne_nil_of_mem hmem)⟩

end Groups

end Lib.Quorum
