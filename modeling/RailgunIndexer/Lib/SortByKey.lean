import Mathlib.Data.List.Sort
import Mathlib.Data.List.Nodup

/-!
# Sorting by a key

A stable sort of a list by a key in a linear order. When the keys are distinct, the sorted list is
the only increasing arrangement of its elements.
-/

namespace Lib

variable {α κ : Type} [LinearOrder κ]

def sortByKey (key : α → κ) (items : List α) : List α :=
  items.insertionSort fun left right => key left ≤ key right

theorem sortByKey_perm (key : α → κ) (items : List α) : (sortByKey key items).Perm items :=
  List.perm_insertionSort _ items

theorem pairwise_sortByKey (key : α → κ) (items : List α) :
    (sortByKey key items).Pairwise fun left right => key left ≤ key right := by
  exact List.pairwise_insertionSort _ items

theorem sortByKey_eq_of_perm {key : α → κ} {items sorted : List α} (hperm : items.Perm sorted)
    (hsorted : sorted.Pairwise fun left right => key left < key right) :
    sortByKey key items = sorted := by
  have hkeys : (sorted.map key).Nodup :=
    List.pairwise_map.mpr (hsorted.imp ne_of_lt)
  have hfound := (sortByKey_perm key items).trans hperm
  refine List.Perm.eq_of_pairwise ?_ (pairwise_sortByKey key items) (hsorted.imp le_of_lt) hfound
  intro left right hleft hright hle hge
  exact List.inj_on_of_nodup_map hkeys (hfound.subset hleft) hright (le_antisymm hle hge)

end Lib
