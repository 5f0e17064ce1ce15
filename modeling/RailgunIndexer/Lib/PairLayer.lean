import Mathlib.Algebra.GroupWithZero.Nat
import Mathlib.Logic.Function.Iterate
import Mathlib.Tactic.Cases
import Mathlib.Tactic.SplitIfs

/-!
# Layers of a binary tree

A layer of a full binary tree is a list, and the layer above it has the hash of each pair. When all
leaves from some point on are equal, the nodes above them are equal on every layer, and a layer is
determined by what stands before them. `sparse` keeps only that part and the value of the others.
-/

namespace Lib.PairLayer

variable {α : Type}

/-- The hashes of consecutive pairs. A last element without a partner is dropped. -/
def pairUp (hash : α → α → α) : List α → List α
  | [] => []
  | [_] => []
  | left :: right :: rest => hash left right :: pairUp hash rest

def padEven (value : α) (layer : List α) : List α :=
  if layer.length % 2 = 0 then layer else layer ++ [value]

/-- The layer above the kept part of a layer, and the value of the nodes after it. -/
def sparse (hash : α → α → α) (state : List α × α) : List α × α :=
  (pairUp hash (padEven state.2 state.1), hash state.2 state.2)

variable {hash : α → α → α}

theorem pairUp_append {left : List α} (right : List α) (heven : left.length % 2 = 0) :
    pairUp hash (left ++ right) = pairUp hash left ++ pairUp hash right := by
  induction left using pairUp.induct with
  | case1 => rfl
  | case2 => simp at heven
  | case3 first second rest ih =>
      have hrest : rest.length % 2 = 0 := by
        simp only [List.length_cons] at heven
        omega
      rw [List.cons_append, List.cons_append, pairUp, ih hrest, pairUp, List.cons_append]

theorem pairUp_replicate (count : Nat) (value : α) :
    pairUp hash (List.replicate (2 * count) value) = List.replicate count (hash value value) := by
  induction count with
  | zero => rfl
  | succ count ih =>
      rw [Nat.mul_succ, List.replicate_succ, List.replicate_succ, pairUp, ih, List.replicate_succ]

theorem length_pairUp (layer : List α) : (pairUp hash layer).length = layer.length / 2 := by
  induction layer using pairUp.induct with
  | case1 | case2 => simp [pairUp]
  | case3 left right rest ih =>
      simp only [pairUp, List.length_cons, ih]
      omega

theorem length_padEven (value : α) (layer : List α) :
    (padEven value layer).length = 2 * ((layer.length + 1) / 2) := by
  rw [padEven]
  split_ifs
  · omega
  · rw [List.length_append, List.length_singleton]
    omega

theorem rightpad_padEven {layer : List α} {count : Nat} (value : α)
    (hlength : layer.length ≤ 2 * count) :
    layer.rightpad (2 * count) value = (padEven value layer).rightpad (2 * count) value := by
  rw [padEven]
  split_ifs with heven
  · rfl
  · have hcount : 2 * count - layer.length = 2 * count - (layer.length + 1) + 1 := by omega
    simp only [List.rightpad, List.length_append, List.length_singleton, List.append_assoc,
      List.singleton_append, ← List.replicate_succ, hcount]

/-- **One layer up.** The padded layer and its kept part go up together. -/
theorem pairUp_rightpad {layer : List α} {count : Nat} (value : α)
    (hlength : layer.length ≤ 2 * count) :
    pairUp hash (layer.rightpad (2 * count) value)
      = (pairUp hash (padEven value layer)).rightpad count (hash value value) := by
  have hpadded := length_padEven value layer
  have hrest : 2 * count - (padEven value layer).length
      = 2 * (count - (pairUp hash (padEven value layer)).length) := by
    rw [length_pairUp]
    omega
  rw [rightpad_padEven value hlength, List.rightpad, pairUp_append _ (by omega), hrest,
    pairUp_replicate, List.rightpad]

theorem length_sparse (state : List α × α) :
    (sparse hash state).1.length = (state.1.length + 1) / 2 := by
  rw [sparse, length_pairUp, length_padEven]
  omega

theorem pairUp_iterate_rightpad {depth : Nat} {state : List α × α} {count : Nat}
    (hlength : state.1.length ≤ 2 ^ depth * count) :
    (pairUp hash)^[depth] (state.1.rightpad (2 ^ depth * count) state.2)
      = ((sparse hash)^[depth] state).1.rightpad count ((sparse hash)^[depth] state).2 := by
  induction depth generalizing state with
  | zero => simp
  | succ depth ih =>
      have hpow : 2 ^ (depth + 1) * count = 2 * (2 ^ depth * count) := by
        rw [Nat.pow_succ, Nat.mul_comm (2 ^ depth) 2, Nat.mul_assoc]
      rw [hpow] at hlength ⊢
      have habove : (sparse hash state).1.length ≤ 2 ^ depth * count := by
        rw [length_sparse]
        omega
      rw [Function.iterate_succ_apply, Function.iterate_succ_apply, pairUp_rightpad _ hlength]
      exact ih habove

theorem sparse_iterate_ne_nil {depth : Nat} {state : List α × α} (hne : state.1 ≠ []) :
    ((sparse hash)^[depth] state).1 ≠ [] := by
  induction depth generalizing state with
  | zero => exact hne
  | succ depth ih =>
      apply ih
      have hpos := List.length_pos_iff.mpr hne
      apply List.ne_nil_of_length_pos
      rw [length_sparse]
      omega

/-- **The top of the tree.** The kept part of the top layer is the root of the full tree. -/
theorem pairUp_iterate_eq_sparse {depth : Nat} {layer : List α} {value : α} (hne : layer ≠ [])
    (hlength : layer.length ≤ 2 ^ depth) :
    (pairUp hash)^[depth] (layer.rightpad (2 ^ depth) value)
      = ((sparse hash)^[depth] (layer, value)).1 := by
  have htop := @pairUp_iterate_rightpad _ hash depth (layer, value) 1 (by rwa [Nat.mul_one])
  have hpos := List.length_pos_iff.mpr (@sparse_iterate_ne_nil _ hash depth (layer, value) hne)
  rw [Nat.mul_one] at htop
  rw [htop, List.rightpad, Nat.sub_eq_zero_of_le hpos, List.replicate_zero, List.append_nil]

end Lib.PairLayer
