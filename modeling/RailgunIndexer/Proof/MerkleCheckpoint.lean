import RailgunIndexer.MerkleCheckpoint
import RailgunIndexer.Lib.Fallible

/-!
# The sparse root is the root of the full tree

The layer the verification tool starts from is the leaf list padded with zero values. The kept part of
each layer of the publisher, padded with the root of an empty subtree of that height, is the same layer
of the full tree, up to the root.
-/

namespace RailgunIndexer

open Lib PairLayer

variable (library : TreeLibrary) {leaves : List Bytes32}

theorem foldlM_set_replicate {value : U256} (leaves before : List Bytes32) {spare : Nat}
    (hspare : leaves.length ≤ spare) :
    (leaves.zipIdx before.length).foldlM (fun layer leaf =>
        if layer.length ≤ leaf.2 then .error .leafCountExceedsTreeSize
        else (.ok (layer.set leaf.2 leaf.1) : Except MerkleRootError (List U256)))
      (before ++ List.replicate spare value)
      = .ok ((before ++ leaves) ++ List.replicate (spare - leaves.length) value) := by
  induction leaves generalizing before spare with
  | nil => simp
  | cons leaf rest ih =>
      rw [List.length_cons] at hspare
      obtain ⟨spare, rfl⟩ : ∃ less, spare = less + 1 := ⟨spare - 1, by omega⟩
      have hroom : ¬ (before ++ List.replicate (spare + 1) value).length ≤ before.length := by
        rw [List.length_append, List.length_replicate]
        omega
      have hset : (before ++ List.replicate (spare + 1) value).set before.length leaf
          = (before ++ [leaf]) ++ List.replicate spare value := by
        rw [List.replicate_succ, List.set_append_right _ _ le_rfl, Nat.sub_self, List.set_cons_zero,
          List.append_assoc, List.singleton_append]
      have hrest := ih (before ++ [leaf]) (Nat.le_of_succ_le_succ hspare)
      rw [List.length_append, List.length_singleton] at hrest
      rw [List.zipIdx_cons, List.foldlM_cons, if_neg hroom, Fallible.ok_bind, hset, hrest]
      simp

theorem placeLeaves_eq_ok (hlength : leaves.length ≤ treeLeafCount) :
    placeLeaves library leaves = .ok (leaves.rightpad treeLeafCount library.merkleZeroValue) :=
  foldlM_set_replicate leaves [] hlength

theorem merkleRoot_eq_checkpointRoot {checkpoint : MerkleCheckpointArtifact}
    (hne : checkpoint.leaves ≠ []) (hlength : checkpoint.leaves.length ≤ treeLeafCount) :
    merkleRoot library checkpoint.leaves = .ok (checkpointRoot library checkpoint) := by
  have hroot := @pairUp_iterate_eq_sparse _ library.poseidon treeDepth checkpoint.leaves
    library.merkleZeroValue hne hlength
  rw [merkleRoot, placeLeaves_eq_ok library hlength, Fallible.ok_bind, Fallible.pure_eq_ok,
    checkpointRoot, ← hroot]
  rfl

theorem rightpad_append_replicate {count size : Nat} (value : Bytes32)
    (hlength : leaves.length + count ≤ size) :
    (leaves ++ List.replicate count value).rightpad size value = leaves.rightpad size value := by
  have hsplit : size - leaves.length = count + (size - (leaves.length + count)) := by omega
  rw [List.rightpad, List.rightpad, List.append_assoc, List.length_append, List.length_replicate,
    hsplit, List.replicate_add]

/-- **The publisher's root is that of the full tree**, so explicit zero leaves at the end of a checkpoint
do not change it. -/
theorem checkpointRoot_eq_full {checkpoint : MerkleCheckpointArtifact} (hne : checkpoint.leaves ≠ [])
    (hlength : checkpoint.leaves.length ≤ treeLeafCount) :
    merkleRoot library checkpoint.leaves = .ok (checkpointRoot library checkpoint)
      ∧ ∀ count, checkpoint.leaves.length + count ≤ treeLeafCount →
        ∀ extended : MerkleCheckpointArtifact,
          extended.leaves = checkpoint.leaves ++ List.replicate count library.merkleZeroValue →
            checkpointRoot library extended = checkpointRoot library checkpoint := by
  refine ⟨merkleRoot_eq_checkpointRoot library hne hlength, fun count hcount extended hextended => ?_⟩
  have hlong : extended.leaves.length ≤ treeLeafCount := by
    rw [hextended, List.length_append, List.length_replicate]
    exact hcount
  have hextendedNe : extended.leaves ≠ [] := by
    rw [hextended]
    exact List.append_ne_nil_of_left_ne_nil hne _
  have hsame : merkleRoot library extended.leaves = merkleRoot library checkpoint.leaves := by
    rw [merkleRoot, merkleRoot, placeLeaves_eq_ok library hlong, placeLeaves_eq_ok library hlength,
      hextended, rightpad_append_replicate _ hcount]
  rw [merkleRoot_eq_checkpointRoot library hextendedNe hlong,
    merkleRoot_eq_checkpointRoot library hne hlength] at hsame
  exact Except.ok.inj hsame

def mixLibrary : TreeLibrary := ⟨fun left right => FixedBytes.ofNat (3 * left.val + right.val), 7⟩

/-- Three leaves, and the same with a zero leaf written out. -/
theorem checkpointRoot_eq_full_three :
    checkpointRoot mixLibrary ⟨0, 4, 1, [1, 2, 3, 7]⟩ = checkpointRoot mixLibrary ⟨0, 3, 1, [1, 2, 3]⟩ :=
  (checkpointRoot_eq_full mixLibrary (List.cons_ne_nil _ _) (by decide)).2 1 (by decide)
    ⟨0, 4, 1, [1, 2, 3, 7]⟩ rfl

end RailgunIndexer
