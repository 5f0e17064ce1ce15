import RailgunIndexer.PublicationRun

/-!
# Pin ownership

A publisher takes a lease before it asks the provider to pin, and settles the lease once the pin is
accounted for. The coordinator counts the leases that are not settled, and a shutdown first closes it
and then waits for the count to reach zero before it aborts what is still running.

Every pin is made in a section under the pin lifecycle gate. A section is one of seven places in the
publishers; it looks for a reusable pin, takes a lease, pins, records the pin and settles. A pin that
could not be recorded is cleaned up: it stays when something references it, is unpinned otherwise, and
becomes a debt when neither is known to have happened. A step is one transaction, one call to the
provider, or what lies between two awaits, and a section may be dropped at any await.
-/

namespace RailgunIndexer.PinOwnership

open Lib

/-! ### The coordinator -/

/-- Whether leases are granted, and how many are not settled. -/
structure PinOwnershipState where
  accepting : Bool
  active : Nat
  deriving DecidableEq

def tryAcquirePinOwnership (state : PinOwnershipState) : Option PinOwnershipState :=
  if state.accepting then some { state with active := state.active + 1 } else none

def stopNewPinOwnership (state : PinOwnershipState) : PinOwnershipState :=
  { state with accepting := false }

/-- The source panics when no lease is left to settle. -/
def settlePinOwnership (state : PinOwnershipState) : Option PinOwnershipState :=
  if state.active = 0 then none else some { state with active := state.active - 1 }

/-! ### Sections -/

inductive PinSite where
  | publishPoiEventArtifact (kind : PoiArtifactPublicationKind) (scope : PoiScope)
      (range : EventRange) (metadata : PoiArtifactMetadata)
  | publishPoiCheckpointCatalog (scope : PoiScope) (range : Option EventRange)
      (metadata : PoiArtifactMetadata)
  | publishPoiBlockedShields (scope : PoiScope) (metadata : PoiArtifactMetadata)
  | publishPoiManifests (entries : List PoiManifestEntry) (artifactCids : List String)
      (sequence byteSize : Nat) (contentHash : Bytes32)
  | reuseOrPinIndexedArtifact (key : IndexedArtifactKey) (metadata : IndexedArtifactMetadata)
  | publishCycle (artifactCids : List String) (sequence byteSize : Nat) (contentHash : Bytes32)
      (manifestJson : Bytes)
  | reconcilePendingManifest (pending : IndexedManifestRow)
  deriving DecidableEq

namespace PinSite

def poiArtifact? : PinSite → Option (PoiArtifactKey × PoiArtifactMetadata)
  | .publishPoiEventArtifact kind scope range metadata => some (⟨kind, scope, some range⟩, metadata)
  | .publishPoiCheckpointCatalog scope range metadata =>
      some (⟨.checkpointCatalog, scope, range⟩, metadata)
  | .publishPoiBlockedShields scope metadata => some (⟨.blockedShields, scope, none⟩, metadata)
  | _ => none

/-- The live row with the same content, which artifacts may reuse. Manifests are always pinned. -/
def reusableCid (tables : PublicationTables) (site : PinSite) : Except AuditError (Option String) :=
  match site.poiArtifact?, site with
  | some (key, metadata), _ =>
      Audit.livePoiArtifactCid key metadata.byteSize metadata.contentHash metadata.endRoot tables
  | none, .reuseOrPinIndexedArtifact key metadata => Audit.liveIndexedArtifactCid key metadata tables
  | none, _ => .ok none

/-- The transaction that records a pin. A reconciliation records nothing: its row is there. -/
def record (library : PoiLibrary) (now : Nat) (cid : String) (tables : PublicationTables)
    (site : PinSite) : Option (Except AuditError PublicationTables) :=
  match site.poiArtifact?, site with
  | some (key, metadata), _ => some (Audit.recordPoiArtifactPin now key cid metadata tables)
  | none, .publishPoiManifests entries artifactCids sequence byteSize contentHash =>
      some (Audit.recordPoiArtifactManifestPin library cid entries artifactCids sequence byteSize
        contentHash tables)
  | none, .reuseOrPinIndexedArtifact key metadata =>
      some (Audit.recordIndexedArtifactPin now key cid metadata tables)
  | none, .publishCycle artifactCids sequence byteSize contentHash manifestJson =>
      some (Audit.recordIndexedManifestPin cid artifactCids sequence byteSize contentHash manifestJson
        tables)
  | none, _ => none

/-- The POI manifest is given up when a shutdown was requested while it was pinned. -/
def checksRunning : PinSite → Bool
  | .publishPoiManifests .. => true
  | _ => false

def pending? : PinSite → Option IndexedManifestRow
  | .reconcilePendingManifest pending => some pending
  | _ => none

end PinSite

/-- What a section does next. A lease is known by its number, and `returned` is the CID its pin call
returned, if it did not fail. -/
inductive SectionPhase where
  | deciding
  | looked (found : Option String)
  | reusing (cid : String)
  | pinning (lease : Nat)
  | pinned (lease : Nat) (cid : String)
  | cleaning (lease : Nat) (cid : String)
  | unpinning (lease : Nat) (cid : String)
  | owing (lease : Nat) (cid : String)
  | settling (lease : Nat) (returned : Option String)
  | finished
  deriving DecidableEq

def SectionPhase.lease? : SectionPhase → Option Nat
  | .pinning lease | .pinned lease _ | .cleaning lease _ | .unpinning lease _ | .owing lease _
  | .settling lease _ => some lease
  | .deciding | .looked _ | .reusing _ | .finished => none

inductive GateHolder where
  | publisher (site : PinSite) (phase : SectionPhase)
  | sweeper
  deriving DecidableEq

/-! ### State -/

/-- How far a shutdown has come. `idle` has found no lease unsettled. -/
inductive DrainPhase where
  | serving
  | stopped
  | draining
  | waiting
  | idle
  | aborted
  | joined
  deriving DecidableEq

/-- `granted` numbers the leases. `reconciling` is the manifest that the chain-indexed publisher found
pending in the cycle it is in. -/
structure PinState where
  tables : PublicationTables
  clock : Nat
  ownership : PinOwnershipState
  granted : Nat
  gate : Option GateHolder
  reconciling : Option IndexedManifestRow
  shutdownRequested : Bool
  drain : DrainPhase

def PinState.started (tables : PublicationTables) (clock : Nat) : PinState :=
  ⟨tables, clock, ⟨true, 0⟩, 0, none, none, false, .serving⟩

def PinState.enter (s : PinState) (site : PinSite) (phase : SectionPhase) : PinState :=
  { s with gate := some (.publisher site phase) }

/-- No section that reconciles the pending manifest holds the gate. -/
def PinState.OutsideReconciliation (s : PinState) : Prop :=
  ∀ site phase, s.gate = some (.publisher site phase) → site.pending? = none

inductive PinEvent where
  | silent
  | granted (lease : Nat)
  | pinFailed (lease : Nat)
  | pinned (lease : Nat) (cid : String)
  | unpinned (lease : Nat) (cid : String)
  | settled (lease : Nat) (returned : Option String)
  | abandoned (cid : String)
  | stopped
  | aborted
  deriving DecidableEq

/-! ### Steps of a section -/

inductive SectionStep (library : PoiLibrary) (s : PinState) : PinEvent → PinState → Prop
  | lock {site : PinSite} (hgate : s.gate = none)
      (hpending : ∀ pending, site.pending? = some pending → s.reconciling = some pending) :
      SectionStep library s .silent (s.enter site .deciding)
  | look {site : PinSite} {found : Option String}
      (hgate : s.gate = some (.publisher site .deciding)) (hok : site.reusableCid s.tables = .ok found) :
      SectionStep library s .silent (s.enter site (.looked found))
  | reuse {site : PinSite} {cid : String}
      (hgate : s.gate = some (.publisher site (.looked (some cid)))) :
      SectionStep library s .silent (s.enter site (.reusing cid))
  | recordReused {site : PinSite} {cid : String} {acknowledged : Bool}
      {result : Except AuditError PublicationTables} {after : PublicationTables}
      (hgate : s.gate = some (.publisher site (.reusing cid)))
      (hrecord : site.record library s.clock cid s.tables = some result)
      (hcommits : Commits result s.tables acknowledged after) :
      SectionStep library s .silent ({ s with tables := after }.enter site .finished)
  | acquire {site : PinSite} {found : Option String} {ownership : PinOwnershipState}
      (hgate : s.gate = some (.publisher site (.looked found))) (hrunning : s.shutdownRequested = false)
      (hlease : tryAcquirePinOwnership s.ownership = some ownership) :
      SectionStep library s (.granted s.granted)
        ({ s with ownership, granted := s.granted + 1 }.enter site (.pinning s.granted))
  | giveUp {site : PinSite} {phase : SectionPhase} (hgate : s.gate = some (.publisher site phase))
      (hphase : phase.lease? = none) :
      SectionStep library s .silent (s.enter site .finished)
  | pinFailed {site : PinSite} {lease : Nat}
      (hgate : s.gate = some (.publisher site (.pinning lease))) :
      SectionStep library s (.pinFailed lease) (s.enter site (.settling lease none))
  | pin {site : PinSite} {lease : Nat} {cid : String}
      (hgate : s.gate = some (.publisher site (.pinning lease))) :
      SectionStep library s (.pinned lease cid) (s.enter site (.pinned lease cid))
  | stopped {site : PinSite} {lease : Nat} {cid : String}
      (hgate : s.gate = some (.publisher site (.pinned lease cid)))
      (hsite : site.checksRunning = true) (hshutdown : s.shutdownRequested = true) :
      SectionStep library s .silent (s.enter site (.cleaning lease cid))
  | record {site : PinSite} {lease : Nat} {cid : String} {acknowledged : Bool}
      {result : Except AuditError PublicationTables} {after : PublicationTables}
      (hgate : s.gate = some (.publisher site (.pinned lease cid)))
      (hrecord : site.record library s.clock cid s.tables = some result)
      (hcommits : Commits result s.tables acknowledged after) :
      SectionStep library s .silent ({ s with tables := after }.enter site
        (if acknowledged then .settling lease (some cid) else .cleaning lease cid))
  | reconciled {site : PinSite} {pending : IndexedManifestRow} {lease : Nat}
      (hgate : s.gate = some (.publisher site (.pinned lease pending.cid)))
      (hsite : site.pending? = some pending) :
      SectionStep library s .silent (s.enter site (.settling lease (some pending.cid)))
  | mismatched {site : PinSite} {pending : IndexedManifestRow} {lease : Nat} {cid : String}
      (hgate : s.gate = some (.publisher site (.pinned lease cid)))
      (hsite : site.pending? = some pending) (hcid : cid ≠ pending.cid) :
      SectionStep library s .silent (s.enter site (.cleaning lease cid))
  | referenced {site : PinSite} {lease : Nat} {cid : String}
      (hgate : s.gate = some (.publisher site (.cleaning lease cid)))
      (hreferenced : Audit.publicationCidIsReferenced cid s.tables = true) :
      SectionStep library s .silent (s.enter site (.settling lease (some cid)))
  | unreferenced {site : PinSite} {lease : Nat} {cid : String}
      (hgate : s.gate = some (.publisher site (.cleaning lease cid)))
      (hreferenced : Audit.publicationCidIsReferenced cid s.tables = false) :
      SectionStep library s .silent (s.enter site (.unpinning lease cid))
  | unknown {site : PinSite} {lease : Nat} {cid : String}
      (hgate : s.gate = some (.publisher site (.cleaning lease cid))) :
      SectionStep library s .silent (s.enter site (.owing lease cid))
  | unpin {site : PinSite} {lease : Nat} {cid : String}
      (hgate : s.gate = some (.publisher site (.unpinning lease cid))) :
      SectionStep library s (.unpinned lease cid) (s.enter site (.settling lease (some cid)))
  | unpinFailed {site : PinSite} {lease : Nat} {cid : String}
      (hgate : s.gate = some (.publisher site (.unpinning lease cid))) :
      SectionStep library s .silent (s.enter site (.owing lease cid))
  | recordDebt {site : PinSite} {lease : Nat} {cid : String} {acknowledged : Bool}
      {after : PublicationTables} (hgate : s.gate = some (.publisher site (.owing lease cid)))
      (hcommits : Commits (.ok (Audit.recordPinCleanupDebt cid s.tables)) s.tables acknowledged after) :
      SectionStep library s .silent ({ s with tables := after }.enter site
        (if acknowledged then .settling lease (some cid) else .finished))
  | settle {site : PinSite} {lease : Nat} {returned : Option String} {ownership : PinOwnershipState}
      (hgate : s.gate = some (.publisher site (.settling lease returned)))
      (hsettle : settlePinOwnership s.ownership = some ownership) :
      SectionStep library s (.settled lease returned) ({ s with ownership }.enter site .finished)
  | unlock {site : PinSite} (hgate : s.gate = some (.publisher site .finished)) :
      SectionStep library s .silent { s with gate := none }
  | drop {site : PinSite} {phase : SectionPhase} (hgate : s.gate = some (.publisher site phase)) :
      SectionStep library s .silent { s with gate := none }

/-! ### Everything else that writes the tables -/

/-- The sweeper writes under the gate, whatever it has found there. -/
inductive SweepStep (s : PinState) : PinEvent → PinState → Prop
  | lock (hgate : s.gate = none) : SweepStep s .silent { s with gate := some .sweeper }
  | deleteDebt {cid : String} (hgate : s.gate = some .sweeper) :
      SweepStep s .silent { s with tables := Retention.deleteDebt cid s.tables }
  | countAttempt {cid : String} (hgate : s.gate = some .sweeper) :
      SweepStep s .silent { s with tables := Retention.countAttempt cid s.tables }
  | mark {sweptAt cutoff : Nat} {cid : String} (hgate : s.gate = some .sweeper) :
      SweepStep s .silent { s with tables := Retention.markUnpinned sweptAt cutoff cid s.tables }
  | unlock (hgate : s.gate = some .sweeper) : SweepStep s .silent { s with gate := none }

/-- The transactions of the publishers that do not take the gate. -/
inductive UnlockedWrite (now : Nat) (tables : PublicationTables) : PinEvent → PublicationTables → Prop
  | activatePoi {after : PublicationTables} {cid : String} {sequence : Nat}
      (hok : Audit.recordPoiArtifactManifestIpnsPublication now cid sequence tables = .ok after) :
      UnlockedWrite now tables .silent after
  | invalidatePoi {after : PublicationTables} {cid : String} {sequence : Nat}
      (hok : Audit.invalidatePendingPoiManifestReconciliation now cid sequence tables = .ok after) :
      UnlockedWrite now tables .silent after
  | abandonManifest {after : PublicationTables} {cid : String} {sequence : Nat}
      (hok : Audit.abandonPendingPoiV4ManifestReconciliation now cid sequence none tables = .ok after) :
      UnlockedWrite now tables .silent after
  | abandonArtifact {after : PublicationTables} {cid unavailable : String} {sequence : Nat}
      (hok : Audit.abandonPendingPoiV4ManifestReconciliation now cid sequence (some unavailable) tables
        = .ok after) :
      UnlockedWrite now tables (.abandoned unavailable) after
  | reservePoi {after : PublicationTables} {minimum sequence : Nat}
      (hok : Audit.reservePoiPublicationSequence minimum tables = .ok (after, sequence)) :
      UnlockedWrite now tables .silent after
  | reserveIndexed {after : PublicationTables} {sequence : Nat}
      (hok : Audit.recordChainIndexedIpnsSequence sequence tables = .ok after) :
      UnlockedWrite now tables .silent after

/-- The chain-indexed publisher is one task: while a section of its reconciliation runs, it neither
activates a manifest nor leaves the cycle. -/
inductive CycleStep (s : PinState) : PinEvent → PinState → Prop
  | load {row : IndexedManifestRow} (hnone : s.reconciling = none)
      (hok : Audit.pendingManifest Audit.chainIndexed s.tables.indexedManifests = .ok (some row)) :
      CycleStep s .silent { s with reconciling := some row }
  | leave (houtside : s.OutsideReconciliation) :
      CycleStep s .silent { s with reconciling := none }
  | activate {cid : String} {sequence : Nat} {after : PublicationTables}
      (houtside : s.OutsideReconciliation)
      (hok : Audit.recordIndexedManifestIpnsPublication s.clock cid sequence s.tables = .ok after) :
      CycleStep s .silent { s with tables := after, reconciling := none }
  | write {event : PinEvent} {after : PublicationTables}
      (hwrite : UnlockedWrite s.clock s.tables event after) :
      CycleStep s event { s with tables := after }
  | tick {clock : Nat} : CycleStep s .silent { s with clock }

/-! ### Shutdown -/

/-- The main task closes the coordinator, asks the tasks to stop and joins them. When they have not
all finished in time, it waits until it reads a count of zero, and aborts the rest. -/
inductive DrainStep (s : PinState) : PinEvent → PinState → Prop
  | stop (hdrain : s.drain = .serving) :
      DrainStep s .stopped { s with ownership := stopNewPinOwnership s.ownership, drain := .stopped }
  | request (hdrain : s.drain = .stopped) :
      DrainStep s .silent { s with shutdownRequested := true, drain := .draining }
  | joined (hdrain : s.drain = .draining) : DrainStep s .silent { s with drain := .joined }
  | expired (hdrain : s.drain = .draining) :
      DrainStep s .silent { s with drain := if 0 < s.ownership.active then .waiting else .idle }
  | woken (hdrain : s.drain = .waiting) (hactive : s.ownership.active = 0) :
      DrainStep s .silent { s with drain := .idle }
  | abort (hdrain : s.drain = .idle) : DrainStep s .aborted { s with drain := .aborted }

inductive PinStep (library : PoiLibrary) (s : PinState) : PinEvent → PinState → Prop
  | pinSection {next : PinState} {event : PinEvent} (hstep : SectionStep library s event next) :
      PinStep library s event next
  | sweep {next : PinState} {event : PinEvent} (hstep : SweepStep s event next) :
      PinStep library s event next
  | cycle {next : PinState} {event : PinEvent} (hstep : CycleStep s event next) :
      PinStep library s event next
  | drain {next : PinState} {event : PinEvent} (hstep : DrainStep s event next) :
      PinStep library s event next

end RailgunIndexer.PinOwnership
