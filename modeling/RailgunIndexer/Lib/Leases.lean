import Mathlib.Data.List.Nodup
import Mathlib.Data.List.Perm.Subperm
import Mathlib.Data.List.Perm.Lattice

/-!
# Counted leases

A coordinator grants numbered leases and counts those that are not settled. The events of a run say
which leases were granted and which were settled; a lease that its holder drops is neither. `Balanced`
ties the number of the next lease and the count to the events, and says that the lease being held is
still open.
-/

namespace Lib.Leases

variable {ε : Type} {granted? settled? : ε → Option Nat} {events : List ε} {event : ε}
  {next active : Nat} {held : Option Nat}

def outstanding (granted? settled? : ε → Option Nat) (events : List ε) : List Nat :=
  (events.filterMap granted?).filter fun lease => lease ∉ events.filterMap settled?

theorem filterMap_snoc_none {read : ε → Option Nat} (hnone : read event = none) :
    (events ++ [event]).filterMap read = events.filterMap read := by
  rw [List.filterMap_append, List.filterMap_cons_none hnone, List.filterMap_nil, List.append_nil]

theorem filterMap_snoc_some {read : ε → Option Nat} {lease : Nat} (hsome : read event = some lease) :
    (events ++ [event]).filterMap read = events.filterMap read ++ [lease] := by
  rw [List.filterMap_append, List.filterMap_cons_some hsome, List.filterMap_nil]

structure Balanced (granted? settled? : ε → Option Nat) (events : List ε) (next active : Nat)
    (held : Option Nat) : Prop where
  granted_eq : events.filterMap granted? = List.range next
  settled_nodup : (events.filterMap settled?).Nodup
  settled_lt : ∀ lease ∈ events.filterMap settled?, lease < next
  active_add : active + (events.filterMap settled?).length = next
  held_open : ∀ lease, held = some lease → lease < next ∧ lease ∉ events.filterMap settled?

theorem balanced_nil : Balanced granted? settled? [] 0 0 none where
  granted_eq := rfl
  settled_nodup := List.nodup_nil
  settled_lt := by simp
  active_add := rfl
  held_open := by simp

theorem Balanced.other (hbalanced : Balanced granted? settled? events next active held)
    (hgranted : granted? event = none) (hsettled : settled? event = none) {later : Option Nat}
    (hheld : later = held ∨ later = none) :
    Balanced granted? settled? (events ++ [event]) next active later := by
  have hgrants := @filterMap_snoc_none _ events _ _ hgranted
  have hsettles := @filterMap_snoc_none _ events _ _ hsettled
  constructor
  · rw [hgrants, hbalanced.granted_eq]
  · rw [hsettles]
    exact hbalanced.settled_nodup
  · rw [hsettles]
    exact hbalanced.settled_lt
  · rw [hsettles]
    exact hbalanced.active_add
  · intro lease hlease
    rw [hsettles]
    rcases hheld with rfl | rfl
    · exact hbalanced.held_open lease hlease
    · cases hlease

theorem Balanced.grant (hbalanced : Balanced granted? settled? events next active held)
    (hgranted : granted? event = some next) (hsettled : settled? event = none) :
    Balanced granted? settled? (events ++ [event]) (next + 1) (active + 1) (some next) := by
  have hsettles := @filterMap_snoc_none _ events _ _ hsettled
  have hactive := hbalanced.active_add
  constructor
  · rw [filterMap_snoc_some hgranted, hbalanced.granted_eq, List.range_succ]
  · rw [hsettles]
    exact hbalanced.settled_nodup
  · rw [hsettles]
    intro lease hlease
    have hlt := hbalanced.settled_lt lease hlease
    omega
  · rw [hsettles]
    omega
  · intro lease hlease
    cases hlease
    rw [hsettles]
    refine ⟨Nat.lt_succ_self _, fun hmem => ?_⟩
    exact Nat.lt_irrefl _ (hbalanced.settled_lt _ hmem)

theorem Balanced.settle {lease : Nat}
    (hbalanced : Balanced granted? settled? events next (active + 1) (some lease))
    (hgranted : granted? event = none) (hsettled : settled? event = some lease) :
    Balanced granted? settled? (events ++ [event]) next active none := by
  have hgrants := @filterMap_snoc_none _ events _ _ hgranted
  have hsettles := @filterMap_snoc_some _ events _ _ _ hsettled
  obtain ⟨hlt, hopen⟩ := hbalanced.held_open lease rfl
  have hactive := hbalanced.active_add
  constructor
  · rw [hgrants, hbalanced.granted_eq]
  · rw [hsettles]
    exact List.nodup_append.mpr ⟨hbalanced.settled_nodup, List.nodup_singleton lease,
      fun found hfound other hother => by
        rw [List.mem_singleton.mp hother]
        rintro rfl
        exact hopen hfound⟩
  · rw [hsettles]
    intro found hfound
    rcases List.mem_append.mp hfound with hold | hnew
    · exact hbalanced.settled_lt found hold
    · rw [List.mem_singleton.mp hnew]
      exact hlt
  · rw [hsettles, List.length_append, List.length_singleton]
    omega
  · intro found hfound
    cases hfound

theorem Balanced.active_pos {lease : Nat}
    (hbalanced : Balanced granted? settled? events next active (some lease)) : 0 < active := by
  obtain ⟨hlt, hopen⟩ := hbalanced.held_open lease rfl
  have hsubset : lease :: events.filterMap settled? ⊆ List.range next := by
    intro found hfound
    rcases List.mem_cons.mp hfound with rfl | hsettled
    · exact List.mem_range.mpr hlt
    · exact List.mem_range.mpr (hbalanced.settled_lt found hsettled)
  have hnodup : (lease :: events.filterMap settled?).Nodup :=
    List.nodup_cons.mpr ⟨hopen, hbalanced.settled_nodup⟩
  have hlength := (hnodup.subperm hsubset).length_le
  rw [List.length_cons, List.length_range] at hlength
  have hactive := hbalanced.active_add
  omega

theorem Balanced.length_outstanding (hbalanced : Balanced granted? settled? events next active held) :
    (outstanding granted? settled? events).length = active := by
  have hsettled : ((List.range next).filter fun lease => lease ∈ events.filterMap settled?).Perm
      (events.filterMap settled?) := by
    refine (List.perm_ext_iff_of_nodup (List.nodup_range.filter _) hbalanced.settled_nodup).mpr ?_
    intro lease
    rw [List.mem_filter, decide_eq_true_eq, List.mem_range]
    exact ⟨fun hmem => hmem.2, fun hmem => ⟨hbalanced.settled_lt lease hmem, hmem⟩⟩
  have hsplit := List.length_eq_length_filter_add
    (l := List.range next) fun lease => decide (lease ∈ events.filterMap settled?)
  rw [List.length_range, hsettled.length_eq] at hsplit
  have hactive := hbalanced.active_add
  have houtstanding : (outstanding granted? settled? events).length
      = ((List.range next).filter fun lease =>
        !decide (lease ∈ events.filterMap settled?)).length := by
    rw [outstanding, hbalanced.granted_eq]
    simp only [decide_not]
  omega

theorem Balanced.settled_of_zero (hbalanced : Balanced granted? settled? events next 0 held) :
    ∀ lease ∈ events.filterMap granted?, lease ∈ events.filterMap settled? := by
  intro lease hlease
  by_contra hopen
  have hnil := List.length_eq_zero_iff.mp hbalanced.length_outstanding
  have hmem : lease ∈ outstanding granted? settled? events :=
    List.mem_filter.mpr ⟨hlease, decide_eq_true hopen⟩
  rw [hnil] at hmem
  cases hmem

end Lib.Leases
