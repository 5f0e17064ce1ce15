import RailgunIndexer.Ipfs
import RailgunIndexer.PublicationRun
import RailgunIndexer.PublicationSnapshot

/-!
# Reconciling a pending chain-indexed manifest

A manifest that was recorded and not activated is taken up by the next cycle. Before it is pinned again
its watermarks are compared with the stored headers and its artifacts are looked for. When one of these
checks fails the cycle ends with an error, and the row stays as it is.
-/

namespace RailgunIndexer

open Lib

/-- What the checks read of an entry of a manifest. -/
structure IndexedArtifactChainEntry where
  scope : ContractKey
  latestIndexed : List LatestIndexedHeight

inductive ReconcileError where
  | snapshot (error : SnapshotError)
  | ipfs (cid : String) (error : IpfsError)
  | unavailable (cid : String)

/-- What the checks compare a manifest with. -/
structure ReconcileEnvironment where
  store : Store
  configuredChains : List ChainIndexedChainConfig
  contains : String → Except IpfsError Bool

namespace ReconcileEnvironment

variable (env : ReconcileEnvironment)

def validateCombinedManifestSnapshot (entries : List IndexedArtifactChainEntry) :
    Except SnapshotError Unit :=
  entries.forM fun entry =>
    match env.configuredChains.find? fun chain => chain.key = entry.scope with
    | none => .error (.unconfiguredChain entry.scope.chainId entry.scope.railgunContract)
    | some chain => validateChainSnapshot chain entry.latestIndexed env.store

def ensureIndexedArtifactsAvailable (artifactCids : List String) : Except ReconcileError Unit :=
  artifactCids.forM fun cid => do
    if ← (env.contains cid).mapError (.ipfs cid) then pure () else .error (.unavailable cid)

def validatePending (entries : List IndexedArtifactChainEntry) (artifactCids : List String) :
    Except ReconcileError Unit := do
  (env.validateCombinedManifestSnapshot entries).mapError .snapshot
  env.ensureIndexedArtifactsAvailable artifactCids

/-- A publication step. A pending manifest, whose body has the given entries, is pinned again only if it
passes the checks; else its cycle ends. -/
structure Step (library : PoiLibrary) (content : String → PublishedContent)
    (entries : IndexedManifestRow → List IndexedArtifactChainEntry) (s : PublicationState)
    (event : PublicationEvent) (next : PublicationState) : Prop where
  step : PublicationStep library content s event next
  checked : ∀ row, s.indexed = .reconciling row → IndexedPublisherStep library content s event next →
    next = { s with indexed := .idle } ∨ env.validatePending (entries row) row.artifactCids = .ok ()

end ReconcileEnvironment

end RailgunIndexer
