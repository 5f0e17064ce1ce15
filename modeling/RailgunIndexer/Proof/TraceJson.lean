import RailgunIndexer.TraceJson
import RailgunIndexer.Lib.Fallible

/-!
# The two trace collectors agree

The debug collector does not descend below a failed frame, so it reads the calls of the pruned tree in
preorder. The other collector leaves out every entry whose path extends that of a failed one, and these
are the nodes the pruned tree does not have.
-/

namespace RailgunIndexer

open Lib Rose Fallible

section Traces

variable (contracts : Contracts) (railgunContract : Address) (library : TraceLibrary)

def TraceCall.address (call : TraceCall) : Option Address := call.target.bind library.parseAddress

def TraceCall.calldata (call : TraceCall) : Option Bytes := call.input.bind (decodeHexBytes library)

/-- The inputs of the calls to the contract, as far as they can be read. -/
def calldataTo (nodes : List (List Nat × TraceCall)) : List Bytes :=
  (nodes.filter fun node => node.2.address library = some railgunContract).filterMap fun node =>
    node.2.calldata library

/-- The transactions that the inputs of the calls to the contract decode to, one input after the other.
An input that is no Railgun call has none. -/
def collectNodes (nodes : List (List Nat × TraceCall)) :
    Except ChainLogIngestionError (List DecodedRailgunTransaction) := do
  let decoded ← (calldataTo railgunContract library nodes).mapM (decodeRailgunTransactions contracts)
  pure (decoded.flatMap fun transactions => transactions.getD [])

theorem collectNodes_nil : collectNodes contracts railgunContract library [] = .ok [] := rfl

theorem collectNodes_append (left right : List (List Nat × TraceCall)) :
    collectNodes contracts railgunContract library (left ++ right) = (do
      let first ← collectNodes contracts railgunContract library left
      let second ← collectNodes contracts railgunContract library right
      pure (first ++ second)) := by
  simp only [collectNodes, calldataTo, List.filter_append, List.filterMap_append, List.mapM_append,
    bind_assoc, pure_bind, List.flatMap_append]

theorem calldataTo_singleton (node : List Nat × TraceCall) :
    calldataTo railgunContract library [node]
      = if node.2.address library = some railgunContract then (node.2.calldata library).toList
        else [] := by
  by_cases htarget : node.2.address library = some railgunContract
  · cases hinput : node.2.calldata library <;> simp [calldataTo, htarget, hinput]
  · simp [calldataTo, htarget]

theorem collectNodes_singleton (node : List Nat × TraceCall) :
    collectNodes contracts railgunContract library [node]
      = frameTransactions contracts railgunContract (node.2.address library)
        (node.2.calldata library) := by
  rw [collectNodes, calldataTo_singleton]
  unfold frameTransactions
  split_ifs
  · cases node.2.calldata library with
    | none => rfl
    | some input =>
        rw [Option.toList_some, List.mapM_cons, List.mapM_nil]
        dsimp only
        cases decodeRailgunTransactions contracts input with
        | error error => rfl
        | ok decoded =>
            change Except.ok (decoded.getD [] ++ []) = Except.ok (decoded.getD [])
            rw [List.append_nil]
  · rfl

theorem collectNodes_cons (node : List Nat × TraceCall) (nodes : List (List Nat × TraceCall)) :
    collectNodes contracts railgunContract library (node :: nodes) = (do
      let own ← frameTransactions contracts railgunContract (node.2.address library)
        (node.2.calldata library)
      let rest ← collectNodes contracts railgunContract library nodes
      pure (own ++ rest)) := by
  rw [← collectNodes_singleton]
  exact collectNodes_append contracts railgunContract library [node] nodes

theorem mapM_frameTransactions (nodes : List (List Nat × TraceCall)) : (do
      let decoded ← nodes.mapM fun node => frameTransactions contracts railgunContract
        (node.2.address library) (node.2.calldata library)
      pure decoded.flatten) = collectNodes contracts railgunContract library nodes := by
  induction nodes with
  | nil => rfl
  | cons node rest ih =>
      rw [collectNodes_cons, ← ih]
      simp only [List.mapM_cons, bind_assoc, pure_bind, List.flatten_cons]

/-! ### The call tree -/

theorem traceFrame_debugRendering (call : TraceCall) (children : List (Rose.Tree TraceCall)) :
    traceFrame library (debugRendering (.node call children))
      = .call call.failed (call.address library) (call.calldata library)
        (traceFrames library (debugRenderings children)) := by
  obtain ⟨target, input, error⟩ := call
  cases target <;> cases input <;> cases error <;> rfl

mutual

theorem collectDebug_eq_collectNodes (tree : Rose.Tree TraceCall) (path : List Nat) :
    collectDebugTraceRailgunTransactions contracts railgunContract
        (traceFrame library (debugRendering tree))
      = collectNodes contracts railgunContract library (tree.pruned TraceCall.failed path) := by
  cases tree with
  | node call children =>
      have hcalls := collectDebugCalls_eq_collectNodes children path 0
      rw [traceFrame_debugRendering, collectDebugTraceRailgunTransactions, Rose.Tree.pruned, hcalls]
      by_cases hfailed : call.failed = true
      · rw [if_pos hfailed, if_pos hfailed, collectNodes_nil]
      · rw [if_neg hfailed, if_neg hfailed, collectNodes_cons]

theorem collectDebugCalls_eq_collectNodes (children : List (Rose.Tree TraceCall)) (path : List Nat)
    (index : Nat) :
    collectDebugTraceCalls contracts railgunContract (traceFrames library (debugRenderings children))
      = collectNodes contracts railgunContract library
        (prunedFrom TraceCall.failed path index children) := by
  cases children with
  | nil => rfl
  | cons child rest =>
      have hchild := collectDebug_eq_collectNodes child (path ++ [index])
      have hrest := collectDebugCalls_eq_collectNodes rest path (index + 1)
      rw [debugRenderings, traceFrames, collectDebugTraceCalls, hchild, hrest, prunedFrom,
        collectNodes_append]

end

/-! ### The flat list -/

theorem mapM_asNat_number (path : List Nat) :
    (path.map Value.number).mapM Value.asNat = some path := by
  induction path with
  | nil => rfl
  | cons index rest ih =>
      rw [List.map_cons, List.mapM_cons, ih]
      rfl

theorem flatTraceFrame_flatEntry (node : List Nat × TraceCall) :
    flatTraceFrame library (flatEntry node)
      = ⟨node.2.failed, some node.1, node.2.address library, node.2.calldata library⟩ := by
  obtain ⟨path, target, input, error⟩ := node
  have hpath := mapM_asNat_number path
  cases target <;> cases input <;> cases error <;>
    · rw [flatTraceFrame, FlatTraceFrame.mk.injEq]
      exact ⟨rfl, hpath, rfl, rfl⟩

theorem flatTraceFrames_flatRendering (nodes : List (List Nat × TraceCall)) :
    flatTraceFrames library (flatRendering nodes) = nodes.map fun node =>
      ⟨node.2.failed, some node.1, node.2.address library, node.2.calldata library⟩ := by
  have hentries : (fun node => flatTraceFrame library (flatEntry node)) = fun node =>
      ⟨node.2.failed, some node.1, node.2.address library, node.2.calldata library⟩ := by
    funext node
    exact flatTraceFrame_flatEntry library node
  rw [flatTraceFrames, flatRendering, Value.asArray, Option.getD_some, List.map_map, ← hentries]
  rfl

theorem failed_or_blocked {nodes : List (List Nat × TraceCall)} {node : List Nat × TraceCall}
    (hnode : node ∈ nodes) :
    (node.2.failed || blocked TraceCall.failed nodes node.1) = blocked TraceCall.failed nodes node.1 := by
  by_cases hfailed : node.2.failed = true
  · have hblocked : blocked TraceCall.failed nodes node.1 = true :=
      blocked_eq_true_iff.mpr ⟨node, hnode, hfailed, List.prefix_rfl⟩
    rw [hfailed, hblocked, Bool.true_or]
  · rw [Bool.eq_false_iff.mpr hfailed, Bool.false_or]

theorem collectTraceTransaction_eq_collectNodes (nodes : List (List Nat × TraceCall)) :
    collectTraceTransactionRailgunTransactions contracts railgunContract
        (flatTraceFrames library (flatRendering nodes))
      = collectNodes contracts railgunContract library
        (nodes.filter fun node => !blocked TraceCall.failed nodes node.1) := by
  have hfilter : nodes.filter (fun node => !(node.2.failed || blocked TraceCall.failed nodes node.1))
      = nodes.filter fun node => !blocked TraceCall.failed nodes node.1 := by
    apply List.filter_congr
    intro node hnode
    rw [failed_or_blocked hnode]
  rw [← hfilter, flatTraceFrames_flatRendering, collectTraceTransactionRailgunTransactions,
    ← mapM_frameTransactions]
  simp only [List.filter_map, List.filterMap_map, List.mapM_map, Function.comp_def, blocked,
    Option.any_some, List.filterMap_eq_map', List.any_map, List.any_filter]

/-! ### Both -/

/-- **The two collectors agree.** Both return the transactions of the calls to the contract that have no
error on themselves or above them, in preorder, or the first error among them. Entries of the flat list
that are not such calls may stand anywhere. -/
theorem traceCollectors_agree (tree : Rose.Tree TraceCall) :
    collectTraceTransactionRailgunTransactions contracts railgunContract
        (flatTraceFrames library (flatRendering (tree.nodes [])))
      = collectDebugTraceRailgunTransactions contracts railgunContract
        (traceFrame library (debugRendering tree))
    ∧ collectDebugTraceRailgunTransactions contracts railgunContract
        (traceFrame library (debugRendering tree))
      = collectNodes contracts railgunContract library (tree.pruned TraceCall.failed [])
    ∧ ∀ permuted : List (List Nat × TraceCall), permuted.Perm (tree.nodes []) →
      permuted.filter (fun node => node ∈ tree.pruned TraceCall.failed [])
        = (tree.nodes []).filter (fun node => node ∈ tree.pruned TraceCall.failed []) →
      collectTraceTransactionRailgunTransactions contracts railgunContract
          (flatTraceFrames library (flatRendering permuted))
        = collectTraceTransactionRailgunTransactions contracts railgunContract
          (flatTraceFrames library (flatRendering (tree.nodes []))) := by
  have hdebug := collectDebug_eq_collectNodes contracts railgunContract library tree []
  have hflat := collectTraceTransaction_eq_collectNodes contracts railgunContract library (tree.nodes [])
  have hpruned := @filter_nodes_eq_pruned _ TraceCall.failed tree
  refine ⟨by rw [hflat, hpruned, hdebug], hdebug, fun permuted hperm horder => ?_⟩
  have hmem : ∀ node ∈ tree.nodes [], (!blocked TraceCall.failed (tree.nodes []) node.1)
      = decide (node ∈ tree.pruned TraceCall.failed []) := by
    intro node hnode
    rw [Bool.eq_iff_iff, decide_eq_true_eq, ← hpruned, List.mem_filter]
    exact ⟨fun hkept => ⟨hnode, hkept⟩, fun hkept => hkept.2⟩
  have hfilter : permuted.filter (fun node => !blocked TraceCall.failed permuted node.1)
      = (tree.nodes []).filter fun node => !blocked TraceCall.failed (tree.nodes []) node.1 := by
    rw [List.filter_congr hmem, ← horder]
    apply List.filter_congr
    intro node hnode
    rw [blocked_perm hperm, hmem node (hperm.mem_iff.mp hnode)]
  rw [collectTraceTransaction_eq_collectNodes, hfilter, hflat]

end Traces

def toyTraceLibrary : TraceLibrary where
  parseAddress text := if text = "contract" then some 1 else none
  decodeHex text := some (text.toList.map fun digit => UInt8.ofNat digit.toNat)

/-- A transaction for every byte of the input. -/
def bytewiseContracts : Contracts :=
  { toyContracts with
    decodeLegacyTransact := fun input => some (input.map fun byte =>
      ⟨[FixedBytes.ofNat byte.toNat], [], ⟨0, 0, []⟩, ⟨0, ⟨0, 0, 0⟩, 0⟩⟩) }

def failingTree : Rose.Tree TraceCall :=
  .node ⟨some "outer", some "0", none⟩
    [.node ⟨some "contract", some "1", some "reverted"⟩ [.node ⟨some "contract", some "2", none⟩ []],
      .node ⟨some "contract", some "34", none⟩ [.node ⟨some "contract", some "5", none⟩ []]]

/-- The failed call and the one it made come last. Only the other calls to the contract count. -/
theorem traceCollectors_agree_moved :
    collectTraceTransactionRailgunTransactions bytewiseContracts 1
        (flatTraceFrames toyTraceLibrary (flatRendering
          [([], ⟨some "outer", some "0", none⟩), ([1], ⟨some "contract", some "34", none⟩),
            ([1, 0], ⟨some "contract", some "5", none⟩),
            ([0, 0], ⟨some "contract", some "2", none⟩),
            ([0], ⟨some "contract", some "1", some "reverted"⟩)]))
      = collectDebugTraceRailgunTransactions bytewiseContracts 1
        (traceFrame toyTraceLibrary (debugRendering failingTree))
    ∧ (collectDebugTraceRailgunTransactions bytewiseContracts 1
        (traceFrame toyTraceLibrary (debugRendering failingTree))).map
          (fun transactions => transactions.map DecodedRailgunTransaction.nullifiers)
      = .ok [[51], [52], [53]] := by
  obtain ⟨hagree, hnodes, hpermuted⟩ :=
    traceCollectors_agree bytewiseContracts 1 toyTraceLibrary failingTree
  refine ⟨?_, ?_⟩
  · exact hpermuted _ (by decide) (by decide)
  · decide +kernel

end RailgunIndexer
