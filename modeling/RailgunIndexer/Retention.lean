import RailgunIndexer.PublicationTables
import RailgunIndexer.Lib.SortByKey
import Mathlib.Data.String.Basic

/-!
# Retention

A sweep unpins the CIDs that nothing has needed since its cutoff. A manifest is stale when it was
superseded by then, the artifacts with a CID when none of their live rows was referenced since. A CID
is taken up when one of the four tables has it stale, and passed over when another still protects it.
Both are checked again under the pin lock, before the CID is unpinned and its stale rows are marked.
-/

namespace RailgunIndexer

open Lib

namespace Retention

/-- Whole seconds, in nanoseconds. -/
def unixSeconds (time : Nat) : Nat := time / 1000000000 * 1000000000

/-- The cutoff of a sweep. -/
def cutoff (now retentionInterval : Nat) : Except AuditError Nat :=
  if now < retentionInterval then .error .timeBeforeUnixEpoch
  else .ok (unixSeconds (now - retentionInterval))

section Rows

variable {β κ μ : Type} (cutoff : Nat) (cid : String)

def isStaleManifest (row : ManifestRow β) : Bool :=
  row.unpinnedAt.isNone && row.supersededAt.any fun time => time ≤ cutoff

def staleManifest (rows : List (ManifestRow β)) : Bool :=
  rows.any fun row => row.cid = cid && isStaleManifest cutoff row

/-- Some artifact with the CID is live, and none was referenced after the cutoff. -/
def staleArtifact (rows : List (ArtifactRow κ μ)) : Bool :=
  (rows.any fun row => row.cid = cid && row.isLive)
    && rows.all fun row => !(row.cid = cid && row.isLive) || row.lastReferencedAt ≤ cutoff

def activeManifest (rows : List (ManifestRow β)) : Bool :=
  rows.any fun row => row.cid = cid && row.isActive

def recentArtifact (rows : List (ArtifactRow κ μ)) : Bool :=
  rows.any fun row => row.cid = cid && row.isLive && cutoff < row.lastReferencedAt

def referencedByKept (rows : List (ManifestRow β)) : Bool :=
  rows.any fun row => row.artifactCids.contains cid && row.isKept

def keptManifest (rows : List (ManifestRow β)) : Bool :=
  rows.any fun row => row.cid = cid && row.isKept

end Rows

section Sweep

variable (cutoff : Nat) (cid : String) (tables : PublicationTables)

def isCandidate : Bool :=
  staleManifest cutoff cid tables.indexedManifests || staleArtifact cutoff cid tables.indexedArtifacts
    || staleManifest cutoff cid tables.poiManifests || staleArtifact cutoff cid tables.poiArtifacts

def isProtected : Bool :=
  activeManifest cid tables.indexedManifests || recentArtifact cutoff cid tables.indexedArtifacts
    || referencedByKept cid tables.indexedManifests || keptManifest cid tables.poiManifests
    || recentArtifact cutoff cid tables.poiArtifacts || referencedByKept cid tables.poiManifests

def stillEligible : Bool := isCandidate cutoff cid tables && !isProtected cutoff cid tables

def staleCids : List String :=
  sortByKey id <| ((tables.indexedManifests.map ManifestRow.cid
    ++ tables.indexedArtifacts.map ArtifactRow.cid ++ tables.poiManifests.map ManifestRow.cid
    ++ tables.poiArtifacts.map ArtifactRow.cid).dedup.filter fun cid => stillEligible cutoff cid tables)

end Sweep

/-! ### Marking the rows -/

section Marks

variable {β κ μ : Type} (sweptAt cutoff : Nat) (cid : String)

def markManifests (rows : List (ManifestRow β)) : List (ManifestRow β) :=
  Table.update (fun row => row.cid = cid && isStaleManifest cutoff row)
    (fun row => { row with unpinnedAt := some sweptAt }) rows

def markArtifacts (rows : List (ArtifactRow κ μ)) : List (ArtifactRow κ μ) :=
  Table.update (fun row => row.cid = cid && row.isLive && row.lastReferencedAt ≤ cutoff)
    (fun row => { row with unpinnedAt := some sweptAt }) rows

/-- The chain-indexed tables are marked only while neither of them protects the CID. -/
def markIndexedManifests (tables : PublicationTables) : PublicationTables :=
  if activeManifest cid tables.indexedManifests || recentArtifact cutoff cid tables.indexedArtifacts
  then tables
  else { tables with indexedManifests := markManifests sweptAt cutoff cid tables.indexedManifests }

def markIndexedArtifacts (tables : PublicationTables) : PublicationTables :=
  if activeManifest cid tables.indexedManifests || recentArtifact cutoff cid tables.indexedArtifacts
  then tables
  else { tables with indexedArtifacts := markArtifacts sweptAt cutoff cid tables.indexedArtifacts }

def markUnpinned (tables : PublicationTables) : PublicationTables :=
  let tables := markIndexedArtifacts sweptAt cutoff cid (markIndexedManifests sweptAt cutoff cid tables)
  { tables with
    poiManifests := markManifests sweptAt cutoff cid tables.poiManifests
    poiArtifacts := markArtifacts sweptAt cutoff cid tables.poiArtifacts }

end Marks

/-! ### Debts -/

def deleteDebt (cid : String) (tables : PublicationTables) : PublicationTables :=
  { tables with pinCleanupDebt := tables.pinCleanupDebt.filter fun debt => debt.cid ≠ cid }

def countAttempt (cid : String) (tables : PublicationTables) : PublicationTables :=
  { tables with
    pinCleanupDebt := Table.update (fun debt => debt.cid = cid)
      (fun debt => { debt with attempts := debt.attempts + 1 }) tables.pinCleanupDebt }

end Retention

end RailgunIndexer
