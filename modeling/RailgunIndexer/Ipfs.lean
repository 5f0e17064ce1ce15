import RailgunIndexer.Types
import RailgunIndexer.Lib.Quorum

/-!
# Pinning services

Artifacts are pinned with several services at once. A quorum of them must return the same CID for a
pin to succeed, or report a CID as present. The services are asked concurrently and their answers are
taken in the order of the configuration.
-/

namespace RailgunIndexer

open Lib

structure PinningCidMismatch where
  service : String
  returned : String
  deriving DecidableEq

structure PinningServiceFailure where
  service : String
  error : String
  deriving DecidableEq

inductive IpfsError where
  | noPinningServices
  | invalidQuorum (quorum clients : Nat)
  | pinningQuorumNotMet (expected : String) (required : Nat) (successes : List String)
      (mismatches : List PinningCidMismatch) (failures : List PinningServiceFailure)
  | containsQuorumUndecidable (cid : String) (required : Nat) (present missing : List String)
      (failures : List PinningServiceFailure)
  | service (message : String)
  deriving DecidableEq

structure IpfsClient where
  serviceName : String
  pinBytes : Bytes → Except IpfsError String
  contains : String → Except IpfsError Bool

structure IpfsLibrary where
  rawBlockCid : Bytes → Except IpfsError String
  display : IpfsError → String

structure MultiPinner where
  clients : List IpfsClient
  quorum : Nat
  quorum_pos : 0 < quorum
  quorum_le : quorum ≤ clients.length

/-- The services of the answers that are as given, where none stands for an error. -/
def servicesThat {α : Type} [DecidableEq α] (answer : Option α)
    (results : List (String × Except IpfsError α)) : List String :=
  (results.filter fun result => result.2.toOption = answer).map Prod.fst

def serviceFailure {α : Type} (library : IpfsLibrary) (result : String × Except IpfsError α) :
    Option PinningServiceFailure :=
  match result.2 with
  | .ok _ => none
  | .error error => some ⟨result.1, library.display error⟩

def addCidSuccess (cidGroups : List (String × List String)) (returned service : String) :
    List (String × List String) :=
  Quorum.join returned service cidGroups

def addPinResult (cidGroups : List (String × List String))
    (result : String × Except IpfsError String) : List (String × List String) :=
  match result.2 with
  | .ok returned => addCidSuccess cidGroups returned result.1
  | .error _ => cidGroups

namespace MultiPinner

def new (clients : List IpfsClient) (quorum : Nat) : Except IpfsError MultiPinner :=
  if clients = [] then .error .noPinningServices
  else if hquorum : 0 < quorum ∧ quorum ≤ clients.length then
    .ok ⟨clients, quorum, hquorum.1, hquorum.2⟩
  else .error (.invalidQuorum quorum clients.length)

variable (pinner : MultiPinner) (library : IpfsLibrary)

def ask {α : Type} (answer : IpfsClient → Except IpfsError α) : List (String × Except IpfsError α) :=
  pinner.clients.map fun client => (client.serviceName, answer client)

/-- Without a quorum, the services of the other CIDs are mismatches of the one returned most. -/
def pinBytes (bytes : Bytes) : Except IpfsError String :=
  let results := pinner.ask fun client => client.pinBytes bytes
  let failures := results.filterMap (serviceFailure library)
  match Quorum.bySize (results.foldl addPinResult []) with
  | [] => do
      let candidate ← library.rawBlockCid bytes
      .error (.pinningQuorumNotMet candidate pinner.quorum [] [] failures)
  | (cid, successes) :: others =>
      if pinner.quorum ≤ successes.length then .ok cid
      else do
        let _ ← library.rawBlockCid bytes
        .error (.pinningQuorumNotMet cid pinner.quorum successes
          (others.flatMap fun group => group.2.map fun service => ⟨service, group.1⟩) failures)

def contains (cid : String) : Except IpfsError Bool :=
  let results := pinner.ask fun client => client.contains cid
  let present := servicesThat (some true) results
  let failures := results.filterMap (serviceFailure library)
  if pinner.quorum ≤ present.length then .ok true
  else if failures = [] then .ok false
  else .error (.containsQuorumUndecidable cid pinner.quorum present
    (servicesThat (some false) results) failures)

end MultiPinner

end RailgunIndexer
