import RailgunIndexer.Ingest
import RailgunIndexer.Lib.PairLayer

/-!
# Roots of commitment trees

A commitment tree has a fixed depth, and positions without a commitment hold a fixed zero value. The
publisher computes the root of a checkpoint from the leaves it has; the verification tool builds the
whole tree.
-/

namespace RailgunIndexer

open Lib PairLayer

def treeDepth : Nat := 16

structure TreeLibrary where
  poseidon : U256 → U256 → U256
  merkleZeroValue : U256

structure MerkleCheckpointArtifact where
  treeNumber : Nat
  leafCount : Nat
  lastIndexedBlock : Nat
  leaves : List Bytes32
  deriving DecidableEq

/-- The publisher pads each layer with at most one empty subtree. -/
def checkpointRoot (library : TreeLibrary) (checkpoint : MerkleCheckpointArtifact) : Bytes32 :=
  (((sparse library.poseidon)^[treeDepth]
    (checkpoint.leaves, library.merkleZeroValue)).1.head?).getD library.merkleZeroValue

inductive MerkleRootError where
  | leafCountExceedsTreeSize
  deriving DecidableEq

/-- The leaves are written over a full layer of zero values. -/
def placeLeaves (library : TreeLibrary) (leaves : List Bytes32) :
    Except MerkleRootError (List U256) :=
  leaves.zipIdx.foldlM (fun layer leaf =>
    if layer.length ≤ leaf.2 then .error .leafCountExceedsTreeSize else .ok (layer.set leaf.2 leaf.1))
    (List.replicate treeLeafCount library.merkleZeroValue)

/-- The verification tool hashes all layers of the full tree. -/
def merkleRoot (library : TreeLibrary) (leaves : List Bytes32) : Except MerkleRootError Bytes32 := do
  let layer ← placeLeaves library leaves
  pure ((((pairUp library.poseidon)^[treeDepth] layer).head?).getD library.merkleZeroValue)

end RailgunIndexer
