import Mathlib.Data.List.Infix
import Mathlib.Data.List.Perm.Basic
import Mathlib.Tactic.Cases

/-!
# Rose trees and paths

A rose tree in preorder is a list of nodes with their paths from the root, and a node is below another
when its path extends the other's. A subtree can be cut off where its root is, or by leaving out of the
list every node with a cut node's path before its own. Both leave the same nodes.
-/

namespace Lib.Rose

inductive Tree (α : Type) where
  | node (label : α) (children : List (Tree α))

variable {α : Type}

mutual

def Tree.nodes (path : List Nat) : Tree α → List (List Nat × α)
  | .node label children => (path, label) :: nodesFrom path 0 children

def nodesFrom (path : List Nat) (index : Nat) : List (Tree α) → List (List Nat × α)
  | [] => []
  | child :: rest => child.nodes (path ++ [index]) ++ nodesFrom path (index + 1) rest

end

mutual

/-- The nodes that are left when the subtree of every cut node is cut off. -/
def Tree.pruned (cut : α → Bool) (path : List Nat) : Tree α → List (List Nat × α)
  | .node label children => if cut label then [] else (path, label) :: prunedFrom cut path 0 children

def prunedFrom (cut : α → Bool) (path : List Nat) (index : Nat) :
    List (Tree α) → List (List Nat × α)
  | [] => []
  | child :: rest => child.pruned cut (path ++ [index]) ++ prunedFrom cut path (index + 1) rest

end

/-- A cut node has a path that the path extends. -/
def blocked (cut : α → Bool) (nodes : List (List Nat × α)) (path : List Nat) : Bool :=
  nodes.any fun other => cut other.2 && other.1.isPrefixOf path

variable {cut : α → Bool} {nodes : List (List Nat × α)} {path : List Nat}

theorem blocked_eq_true_iff :
    blocked cut nodes path = true ↔ ∃ other ∈ nodes, cut other.2 = true ∧ other.1 <+: path := by
  simp [blocked]

theorem blocked_perm {permuted : List (List Nat × α)} (hperm : permuted.Perm nodes)
    (path : List Nat) : blocked cut permuted path = blocked cut nodes path :=
  hperm.any_eq

/-! ### Paths of nodes -/

mutual

theorem path_isPrefix (tree : Tree α) (path : List Nat) :
    ∀ node ∈ tree.nodes path, path <+: node.1 := by
  cases tree with
  | node label children =>
      intro node hnode
      rw [Tree.nodes, List.mem_cons] at hnode
      rcases hnode with rfl | hnode
      · exact List.prefix_rfl
      · obtain ⟨index, -, hbefore⟩ := child_isPrefix children path 0 node hnode
        exact (List.prefix_append _ _).trans hbefore

theorem child_isPrefix (children : List (Tree α)) (path : List Nat) (start : Nat) :
    ∀ node ∈ nodesFrom path start children, ∃ index, start ≤ index ∧ path ++ [index] <+: node.1 := by
  cases children with
  | nil =>
      intro node hnode
      cases hnode
  | cons child rest =>
      intro node hnode
      rw [nodesFrom, List.mem_append] at hnode
      rcases hnode with hnode | hnode
      · exact ⟨start, le_rfl, path_isPrefix child (path ++ [start]) node hnode⟩
      · obtain ⟨index, hle, hbefore⟩ := child_isPrefix rest path (start + 1) node hnode
        exact ⟨index, Nat.le_of_succ_le hle, hbefore⟩

end

theorem index_eq_of_isPrefix {extended : List Nat} {left right : Nat}
    (hleft : path ++ [left] <+: extended) (hright : path ++ [right] <+: extended) :
    left = right := by
  have hbefore := List.prefix_of_prefix_length_le hleft hright (by simp)
  have hsame := hbefore.eq_of_length (by simp)
  simpa using hsame

/-! ### Cutting subtrees off -/

theorem filter_eq_nil_of_cut {kept : List (List Nat × α)} {label : α} (hmem : (path, label) ∈ nodes)
    (hcut : cut label = true) (hkept : ∀ node ∈ kept, path <+: node.1) :
    kept.filter (fun node => !blocked cut nodes node.1) = [] := by
  rw [List.filter_eq_nil_iff]
  intro node hnode
  have hblocked : blocked cut nodes node.1 = true :=
    blocked_eq_true_iff.mpr ⟨_, hmem, hcut, hkept node hnode⟩
  simp [hblocked]

mutual

theorem filter_nodes (tree : Tree α) (path : List Nat) (nodes : List (List Nat × α))
    (hsubset : ∀ other ∈ tree.nodes path, other ∈ nodes)
    (hlocal : ∀ other ∈ nodes, cut other.2 = true → ∀ extended, path <+: extended →
      other.1 <+: extended → other ∈ tree.nodes path) :
    (tree.nodes path).filter (fun node => !blocked cut nodes node.1) = tree.pruned cut path := by
  cases tree with
  | node label children =>
      have hself : (path, label) ∈ nodes := hsubset _ (by rw [Tree.nodes]; exact List.mem_cons_self)
      by_cases hcut : cut label = true
      · rw [filter_eq_nil_of_cut hself hcut (path_isPrefix _ path), Tree.pruned, if_pos hcut]
      · have hchild : ∀ other ∈ nodes, cut other.2 = true → ∀ extended, path <+: extended →
            other.1 <+: extended → other ∈ nodesFrom path 0 children := by
          intro other hother hotherCut extended hpath hbefore
          have hmem := hlocal other hother hotherCut extended hpath hbefore
          rw [Tree.nodes, List.mem_cons] at hmem
          rcases hmem with rfl | hmem
          · exact absurd hotherCut hcut
          · exact hmem
        have hfree : blocked cut nodes path = false := by
          rw [Bool.eq_false_iff]
          intro hblocked
          obtain ⟨other, hother, hotherCut, hbefore⟩ := blocked_eq_true_iff.mp hblocked
          obtain ⟨index, -, hbelow⟩ := child_isPrefix children path 0 other
            (hchild other hother hotherCut path List.prefix_rfl hbefore)
          have hlength := (hbelow.trans hbefore).length_le
          rw [List.length_append, List.length_singleton] at hlength
          omega
        have hrest := filter_nodesFrom children path 0 nodes
          (fun other hother => hsubset other (by
            exact List.mem_cons_of_mem _ hother))
          (fun other hother hotherCut index _ extended hindex hbefore =>
            hchild other hother hotherCut extended ((List.prefix_append _ _).trans hindex) hbefore)
        rw [Tree.nodes, List.filter_cons_of_pos (by simp [hfree]), hrest, Tree.pruned, if_neg hcut]

theorem filter_nodesFrom (children : List (Tree α)) (path : List Nat) (start : Nat)
    (nodes : List (List Nat × α)) (hsubset : ∀ other ∈ nodesFrom path start children, other ∈ nodes)
    (hlocal : ∀ other ∈ nodes, cut other.2 = true → ∀ index, start ≤ index →
      ∀ extended, path ++ [index] <+: extended → other.1 <+: extended →
        other ∈ nodesFrom path start children) :
    (nodesFrom path start children).filter (fun node => !blocked cut nodes node.1)
      = prunedFrom cut path start children := by
  cases children with
  | nil => rfl
  | cons child rest =>
      rw [nodesFrom] at hsubset hlocal ⊢
      have hhead := filter_nodes child (path ++ [start]) nodes
        (fun other hother => hsubset other (List.mem_append_left _ hother))
        (by
          intro other hother hotherCut extended hpath hbefore
          rcases List.mem_append.mp (hlocal other hother hotherCut start le_rfl extended hpath hbefore)
            with hmem | hmem
          · exact hmem
          · obtain ⟨index, hle, hbelow⟩ := child_isPrefix rest path (start + 1) other hmem
            have hsame := index_eq_of_isPrefix (hbelow.trans hbefore) hpath
            omega)
      have htail := filter_nodesFrom rest path (start + 1) nodes
        (fun other hother => hsubset other (List.mem_append_right _ hother))
        (by
          intro other hother hotherCut index hle extended hpath hbefore
          rcases List.mem_append.mp (hlocal other hother hotherCut index (by omega) extended hpath
            hbefore) with hmem | hmem
          · have hbelow := path_isPrefix child (path ++ [start]) other hmem
            have hsame := index_eq_of_isPrefix (hbelow.trans hbefore) hpath
            omega
          · exact hmem)
      rw [List.filter_append, hhead, htail, prunedFrom]

end

/-- **Two ways to cut.** The nodes without a cut node at or above them are those of the pruned tree. -/
theorem filter_nodes_eq_pruned (tree : Tree α) :
    (tree.nodes []).filter (fun node => !blocked cut (tree.nodes []) node.1) = tree.pruned cut [] :=
  filter_nodes tree [] _ (fun _ hother => hother) fun _ hother _ _ _ _ => hother

end Lib.Rose
