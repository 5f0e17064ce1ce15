import RailgunIndexer.Catalog
import RailgunIndexer.Ipfs
import RailgunIndexer.PublicationTables

/-!
# Pins that are used again

Before it pins an artifact, a publisher looks for a live row with the artifact's key and content. If the
pinning service still has the CID of the row, that CID is used again; otherwise the bytes are pinned.
This is what the publishers of the two channels take as their pinning service. The tables may change
between two artifacts of a publication, so a lookup reads those of its own time.
-/

namespace RailgunIndexer

inductive PinError where
  | lookup (error : AuditError)
  | service (error : IpfsError)

namespace IpfsClient

variable (client : IpfsClient)

def pinAnew (bytes : Bytes) : Except PinError (String × Bool) := do
  let cid ← (client.pinBytes bytes).mapError .service
  pure (cid, false)

/-- The CID, and whether it is that of an earlier pin. -/
def reuseOrPin (bytes : Bytes) : Option String → Except PinError (String × Bool)
  | none => client.pinAnew bytes
  | some cid => do
      let held ← (client.contains cid).mapError .service
      if held then pure (cid, true) else client.pinAnew bytes

def reuseOrPinPoiArtifact (library : PoiLibrary) (tables : PublicationTables) (key : PoiArtifactKey)
    (endRoot : Option Bytes32) (bytes : Bytes) : Except PinError (String × Bool) := do
  let reusable ← (Audit.livePoiArtifactCid key bytes.length (library.contentHash bytes) endRoot
    tables).mapError .lookup
  client.reuseOrPin bytes reusable

def reuseOrPinIndexedArtifact (tables : PublicationTables)
    (kind : IndexedArtifactPublicationKind) (descriptor : IndexedArtifactDescriptor) (bytes : Bytes) :
    Except PinError String := do
  let reusable ← (Audit.liveIndexedArtifactCid
    ⟨kind, descriptor.datasetKind, descriptor.scope, descriptor.range⟩
    ⟨descriptor.byteSize, descriptor.sha256, descriptor.encodingVersion⟩ tables).mapError .lookup
  let (cid, _) ← client.reuseOrPin bytes reusable
  pure cid

end IpfsClient

def PoiPublisher.onTables (publisher : PoiPublisher) (client : IpfsClient)
    (tablesAt : PoiArtifactKey → PublicationTables) : PoiPublisher :=
  { publisher with
    pin := fun key endRoot bytes =>
      (client.reuseOrPinPoiArtifact publisher.library (tablesAt key) key endRoot bytes).mapError
        fun _ => .pin }

def Publisher.onTables (publisher : Publisher) (client : IpfsClient)
    (tablesAt : IndexedArtifactDescriptor → PublicationTables) : Publisher :=
  { publisher with
    reuseOrPinIndexedArtifact := fun descriptor bytes =>
      (client.reuseOrPinIndexedArtifact (tablesAt descriptor) .chunk descriptor bytes).mapError
        fun _ => .pin }

def CatalogLibrary.onTables (library : CatalogLibrary) (client : IpfsClient)
    (tablesAt : IndexedArtifactDescriptor → PublicationTables) : CatalogLibrary :=
  { library with
    reuseOrPinCatalog := fun descriptor bytes =>
      (client.reuseOrPinIndexedArtifact (tablesAt descriptor) .catalog descriptor bytes).mapError
        fun _ => .pin }

end RailgunIndexer
