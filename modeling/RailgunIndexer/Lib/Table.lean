import RailgunIndexer.Lib.Fallible
import Mathlib.Data.List.Nodup

/-!
# Tables as lists of rows

A table is the list of its rows in the order of insertion. An `update` rewrites the rows that meet a
condition, so it relates every row to the one in its place, and what no rewrite changes is read off
that relation. Statements that also append rows keep the related rows in front.
-/

namespace Lib.Table

variable {ρ σ : Type} {rows later : List ρ} {row : ρ}

def update (condition : ρ → Bool) (set : ρ → ρ) (rows : List ρ) : List ρ :=
  rows.map fun row => if condition row then set row else row

variable {condition : ρ → Bool} {set : ρ → ρ}

theorem mem_update :
    row ∈ update condition set rows
      ↔ ∃ old ∈ rows, (if condition old then set old else old) = row :=
  List.mem_map

/-- Every row of the first table stands in its place, changed as `R` allows, and rows may follow. -/
def Extends (R : ρ → ρ → Prop) (rows later : List ρ) : Prop :=
  ∃ kept added, later = kept ++ added ∧ List.Forall₂ R rows kept

variable {R S : ρ → ρ → Prop}

theorem extends_of_forall₂ (hrows : List.Forall₂ R rows later) : Extends R rows later :=
  ⟨later, [], by simp, hrows⟩

theorem extends_refl (hrefl : ∀ row, R row row) : Extends R rows rows :=
  extends_of_forall₂ (List.forall₂_same.mpr fun row _ => hrefl row)

theorem extends_append (hrefl : ∀ row, R row row) (added : List ρ) : Extends R rows (rows ++ added) :=
  ⟨rows, added, rfl, List.forall₂_same.mpr fun row _ => hrefl row⟩

theorem forall₂_update (hrefl : ∀ row, R row row)
    (hset : ∀ row ∈ rows, condition row = true → R row (set row)) :
    List.Forall₂ R rows (update condition set rows) := by
  rw [update, List.forall₂_map_right_iff]
  refine List.forall₂_same.mpr fun row hrow => ?_
  by_cases hcondition : condition row = true
  · rw [if_pos hcondition]
    exact hset row hrow hcondition
  · rw [if_neg hcondition]
    exact hrefl row

theorem forall₂_trans {last : List ρ} (htrans : ∀ a b c, R a b → R b c → R a c)
    (hfirst : List.Forall₂ R rows later) (hsecond : List.Forall₂ R later last) :
    List.Forall₂ R rows last := by
  induction hfirst generalizing last with
  | nil => exact hsecond
  | cons hhead _ ih =>
      cases hsecond with
      | cons hnext hrest => exact .cons (htrans _ _ _ hhead hnext) (ih hrest)

theorem Extends.mono (hrows : Extends R rows later)
    (himp : ∀ row ∈ rows, ∀ other, R row other → S row other) : Extends S rows later := by
  obtain ⟨kept, added, rfl, hkept⟩ := hrows
  refine ⟨kept, added, rfl, ?_⟩
  induction hkept with
  | nil => exact .nil
  | cons hhead _ ih =>
      exact .cons (himp _ List.mem_cons_self _ hhead)
        (ih fun row hrow => himp row (List.mem_cons_of_mem _ hrow))

theorem Extends.trans {last : List ρ} (htrans : ∀ a b c, R a b → R b c → R a c)
    (hfirst : Extends R rows later) (hsecond : Extends R later last) : Extends R rows last := by
  obtain ⟨kept, added, rfl, hkept⟩ := hfirst
  obtain ⟨keptLater, addedLater, rfl, hkeptLater⟩ := hsecond
  have hfront := List.forall₂_take kept.length hkeptLater
  rw [List.take_left] at hfront
  refine ⟨keptLater.take kept.length, keptLater.drop kept.length ++ addedLater, ?_,
    forall₂_trans htrans hkept hfront⟩
  rw [← List.append_assoc, List.take_append_drop]

theorem forall₂_pairwise (hrows : List.Forall₂ R rows later) (hpairwise : rows.Pairwise S)
    (hkeep : ∀ a b a' b', R a a' → R b b' → S a b → S a' b') : later.Pairwise S := by
  induction hrows with
  | nil => exact .nil
  | @cons head head' tail tail' hhead htail ih =>
      obtain ⟨hfirst, hrest⟩ := List.pairwise_cons.mp hpairwise
      refine List.pairwise_cons.mpr ⟨fun other hother => ?_, ih hrest⟩
      obtain ⟨old, hold, hrelated⟩ := Fallible.exists_of_forall₂_right htail hother
      exact hkeep _ _ _ _ hhead hrelated (hfirst old hold)

theorem eq_of_pairwise_lt {key : ρ → Nat} {other : ρ}
    (hpairwise : rows.Pairwise fun left right => key left < key right) (hrow : row ∈ rows)
    (hother : other ∈ rows) (hkey : key row = key other) : row = other := by
  have hnodup : (rows.map key).Nodup := List.pairwise_map.mpr (hpairwise.imp Nat.ne_of_lt)
  exact List.inj_on_of_nodup_map hnodup hrow hother hkey

theorem length_filter_le_one {key : ρ → Nat}
    (hpairwise : rows.Pairwise fun left right => key left < key right)
    (hagree : ∀ row ∈ rows, ∀ other ∈ rows, condition row = true → condition other = true → key
      row = key other) : (rows.filter condition).length ≤ 1 := by
  have hfiltered := hpairwise.filter condition
  have hmem : ∀ row ∈ rows.filter condition, row ∈ rows ∧ condition row = true := by
    intro row hrow
    exact List.mem_filter.mp hrow
  cases hfound : rows.filter condition with
  | nil => simp
  | cons first rest =>
      cases rest with
      | nil => simp
      | cons second rest =>
          rw [hfound] at hfiltered hmem
          have hlt := List.rel_of_pairwise_cons hfiltered (List.mem_cons_self (a := second))
          obtain ⟨hfirst, hfirstMeets⟩ := hmem first List.mem_cons_self
          obtain ⟨hsecond, hsecondMeets⟩ := hmem second (List.mem_cons_of_mem _ List.mem_cons_self)
          exact absurd (hagree first hfirst second hsecond hfirstMeets hsecondMeets) (Nat.ne_of_lt hlt)

end Lib.Table
