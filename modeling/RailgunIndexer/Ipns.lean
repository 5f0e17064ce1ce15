import Mathlib.Logic.Function.Basic
import RailgunIndexer.Types

/-!
# The IPNS publisher

A task takes requests from a channel into a queue and publishes them one at a time, each with a put query
of the DHT. A request whose query fails goes back to the front of the queue until its deadline is near.
Requests may carry a lease that keeps the indexer from rewinding a chain.

The task's functions say which effects they have. Its loop, the swarm, the callers and the lock behind the
leases are the steps of a transition system. Between any two of the task's steps the clock may advance and
callers may give up. Times are in nanoseconds.
-/

namespace RailgunIndexer.Ipns

/-! ### Requests -/

def second : Nat := 1000000000

def publishQueueCapacity : Nat := 16

def minConnectedPeersForPublish : Nat := 8

def publishRetryDelays : List Nat := [2 * second, 5 * second, 10 * second]

def minRetryRemaining : Nat := second

inductive IpnsError where
  | timeout (timeout : Nat)
  | record (reason : String)
  | store (reason : String)
  | putRecord (reason : String)
  deriving DecidableEq

structure IpnsPublication where
  peerId : String
  ipnsName : String
  value : String
  sequence : Nat
  deriving DecidableEq

/-- A request is known by the number of its arrival, and so is the end of its response channel. -/
structure PublishRequest where
  arrival : Nat
  manifestCid : String
  sequence : Nat
  timeout : Nat
  deadline : Nat
  notBefore : Nat
  attemptsStarted : Nat
  canonicalityLease : Option Nat
  deriving DecidableEq

structure ActivePublish where
  queryId : Nat
  request : PublishRequest
  publication : IpnsPublication
  deriving DecidableEq

namespace PublishRequest

def isExpired (request : PublishRequest) (now : Nat) : Bool := request.deadline ≤ now

def mayExpireWhileActive (request : PublishRequest) (now : Nat) : Bool :=
  request.canonicalityLease.isNone && request.isExpired now

end PublishRequest

/-! ### The task -/

structure Task where
  pending : List PublishRequest
  active : Option ActivePublish
  bootstrapCompleted : Bool

/-- What the task does besides changing its state. An attempt starts with a query and finishes with the
query's outcome or when it is given up. -/
inductive Effect where
  | arrive (request : PublishRequest)
  | start (request : PublishRequest) (queryId : Nat)
  | finish (queryId : Nat)
  | retry (request : PublishRequest)
  | respond (arrival : Nat) (result : Except IpnsError IpnsPublication)

structure RecordLibrary where
  buildSignedRecord : String → Nat → Except IpnsError IpnsPublication

inductive SwarmEvent where
  | putRecord (id : Nat) (result : Except String Unit)
  | bootstrap (result : Except String Unit) (last : Bool)
  | connectionEstablished
  | other

section Functions

variable (isClosed : Nat → Bool)

/-- Requests that are still wanted, in their order, and the answers to the others. -/
def discardUnpublishablePending (now : Nat) : List PublishRequest → List PublishRequest × List Effect
  | [] => ([], [])
  | request :: rest =>
      let (retained, effects) := discardUnpublishablePending now rest
      if isClosed request.arrival then (retained, effects)
      else if request.isExpired now then
        (retained, .respond request.arrival (.error (.timeout request.timeout)) :: effects)
      else (request :: retained, effects)

def retryDelay (attemptsStarted : Nat) : Nat :=
  publishRetryDelays.getD (min (attemptsStarted - 1) (publishRetryDelays.length - 1)) 0

def nextRetryAt (request : PublishRequest) (now : Nat) : Option Nat :=
  if isClosed request.arrival || request.isExpired now then none
  else
    let remaining := request.deadline - now
    if remaining ≤ minRetryRemaining then none
    else
      let maxDelay := remaining - minRetryRemaining
      some (now + min (retryDelay request.attemptsStarted) maxDelay)

def hasEnoughConnectedPeersForPublish (connectedPeers : Nat) (bootstrapCompleted : Bool) : Bool :=
  if bootstrapCompleted then 0 < connectedPeers else minConnectedPeersForPublish ≤ connectedPeers

/-- An attempt counts from when its request leaves the queue, also if no query comes of it. -/
def PublishRequest.begin (request : PublishRequest) : PublishRequest :=
  { request with attemptsStarted := min (request.attemptsStarted + 1) (u32Bound - 1) }

def startFront (library : RecordLibrary) (putRecord : Except String Nat) (task : Task)
    (request : PublishRequest) : Task × List Effect :=
  match library.buildSignedRecord request.manifestCid request.sequence with
  | .error error => (task, [.respond request.arrival (.error error)])
  | .ok publication =>
      match putRecord with
      | .error reason => (task, [.respond request.arrival (.error (.store reason))])
      | .ok queryId =>
          ({ task with active := some ⟨queryId, request, publication⟩ }, [.start request queryId])

def maybeStartPublish (library : RecordLibrary) (connectedPeers : Nat)
    (putRecord : Except String Nat) (task : Task) (now : Nat) : Task × List Effect :=
  let (pending, discarded) := discardUnpublishablePending isClosed now task.pending
  let idle : Task := { task with pending := pending }
  if task.active.isSome
      || !hasEnoughConnectedPeersForPublish connectedPeers task.bootstrapCompleted then
    (idle, discarded)
  else
    match pending with
    | [] => (idle, discarded)
    | front :: rest =>
        if now < front.notBefore then (idle, discarded)
        else
          let (started, effects) :=
            startFront library putRecord { task with pending := rest } front.begin
          (started, discarded ++ effects)

def expireActivePublish (task : Task) (now : Nat) : Task × List Effect :=
  match task.active with
  | none => (task, [])
  | some publish =>
      if publish.request.mayExpireWhileActive now then
        ({ task with active := none }, [.finish publish.queryId,
          .respond publish.request.arrival (.error (.timeout publish.request.timeout))])
      else (task, [])

def finishPublish (task : Task) (publish : ActivePublish) (result : Except String Unit) (now : Nat) :
    Task × List Effect :=
  let idle : Task := { task with active := none }
  match result with
  | .ok () =>
      (idle, [.finish publish.queryId, .respond publish.request.arrival (.ok publish.publication)])
  | .error reason =>
      if publish.request.isExpired now then
        (idle, [.finish publish.queryId,
          .respond publish.request.arrival (.error (.timeout publish.request.timeout))])
      else
        match nextRetryAt isClosed publish.request now with
        | some retryAt =>
            let request := { publish.request with notBefore := retryAt }
            ({ idle with pending := request :: task.pending },
              [.finish publish.queryId, .retry request])
        | none =>
            (idle, [.finish publish.queryId,
              .respond publish.request.arrival (.error (.putRecord reason))])

/-- The state after an event, its effects, and whether the next request may be started at once. -/
def handleSwarmEvent (task : Task) (event : SwarmEvent) (now : Nat) : Task × List Effect × Bool :=
  match event with
  | .putRecord id result =>
      match task.active with
      | some publish =>
          if publish.queryId = id then
            let (after, effects) := finishPublish isClosed task publish result now
            (after, effects, true)
          else (task, [], false)
      | none => (task, [], false)
  | .bootstrap (.ok ()) true => ({ task with bootstrapCompleted := true }, [], true)
  | .bootstrap _ _ => (task, [], false)
  | .connectionEstablished => (task, [], true)
  | .other => (task, [], false)

end Functions

/-! ### The system -/

/-- Where the task is: at the head of its loop, waiting, or in the handler of an event that lets the next
request start. -/
inductive Phase where
  | head
  | selecting
  | starting
  | stopped
  deriving DecidableEq

/-- `queries` are the put queries of the swarm without an outcome, each with the request it is for;
`leases` are the leases that are held by others than requests, and `reorg` is the exclusive lock. -/
structure State where
  clock : Nat
  closed : Nat → Bool
  channel : List PublishRequest
  arrivals : Nat
  phase : Phase
  task : Task
  connectedPeers : Nat
  queries : List (Nat × PublishRequest)
  leases : Nat → Bool
  reorg : Bool

def State.initial : State where
  clock := 0
  closed _ := false
  channel := []
  arrivals := 0
  phase := .head
  task := ⟨[], none, false⟩
  connectedPeers := 0
  queries := []
  leases _ := false
  reorg := false

def State.requests (state : State) : List PublishRequest :=
  (state.task.active.map ActivePublish.request).toList ++ state.task.pending ++ state.channel

/-- A lease is held as long as anyone has a copy of it. -/
def State.LeaseHeld (state : State) (lease : Nat) : Prop :=
  state.leases lease = true
    ∨ ∃ request ∈ state.requests, request.canonicalityLease = some lease

def Effect.startedQuery : Effect → Option (Nat × PublishRequest)
  | .start request queryId => some (queryId, request)
  | _ => none

def startedQueries (effects : List Effect) : List (Nat × PublishRequest) :=
  effects.filterMap Effect.startedQuery

/-- A put query has a number of its own among those without an outcome. -/
def State.Fresh (state : State) (putRecord : Except String Nat) : Prop :=
  ∀ query ∈ state.queries, putRecord ≠ .ok query.1

def State.runHead (state : State) (library : RecordLibrary) (putRecord : Except String Nat) :
    State × List Effect :=
  let (expired, ended) := expireActivePublish state.task state.clock
  let (task, effects) := maybeStartPublish state.closed library state.connectedPeers putRecord expired
    state.clock
  ({ state with
      task := task
      phase := .selecting
      queries := startedQueries effects ++ state.queries }, ended ++ effects)

def State.runStart (state : State) (library : RecordLibrary) (putRecord : Except String Nat) :
    State × List Effect :=
  let (task, effects) := maybeStartPublish state.closed library state.connectedPeers putRecord
    state.task state.clock
  ({ state with
      task := task
      phase := .head
      queries := startedQueries effects ++ state.queries }, effects)

def State.runEvent (state : State) (event : SwarmEvent) : State × List Effect :=
  let (task, effects, starts) := handleSwarmEvent state.closed state.task event state.clock
  ({ state with task := task, phase := if starts then .starting else .head }, effects)

def State.reported (state : State) (event : SwarmEvent) : State :=
  match event with
  | .putRecord id _ => { state with queries := state.queries.filter fun query => query.1 ≠ id }
  | _ => state

inductive Step (library : RecordLibrary) (state : State) : List Effect → State → Prop
  | advance (clock : Nat) (hclock : state.clock ≤ clock) :
      Step library state [] { state with clock := clock }
  | giveUp (arrival : Nat) :
      Step library state [] { state with closed := Function.update state.closed arrival true }
  | connect (connectedPeers : Nat) :
      Step library state [] { state with connectedPeers := connectedPeers }
  | publicationLease (lease : Nat) (hreorg : state.reorg = false) :
      Step library state [] { state with leases := Function.update state.leases lease true }
  | dropLease (lease : Nat) :
      Step library state [] { state with leases := Function.update state.leases lease false }
  | reorgLease (hfree : ∀ lease, ¬state.LeaseHeld lease) :
      Step library state [] { state with reorg := true }
  | dropReorg : Step library state [] { state with reorg := false }
  | send (request : PublishRequest) (hrunning : state.phase ≠ .stopped)
      (hcapacity : state.channel.length < publishQueueCapacity)
      (harrival : request.arrival = state.arrivals)
      (hlease : ∀ lease, request.canonicalityLease = some lease → state.leases lease = true) :
      Step library state [.arrive request]
        { state with channel := state.channel ++ [request], arrivals := state.arrivals + 1 }
  | head (putRecord : Except String Nat) (hphase : state.phase = .head)
      (hfresh : state.Fresh putRecord) :
      Step library state (state.runHead library putRecord).2 (state.runHead library putRecord).1
  | start (putRecord : Except String Nat) (hphase : state.phase = .starting)
      (hfresh : state.Fresh putRecord) :
      Step library state (state.runStart library putRecord).2 (state.runStart library putRecord).1
  | wake (hphase : state.phase = .selecting) :
      Step library state [] { state with phase := .head }
  | receive {request : PublishRequest} {rest : List PublishRequest}
      (hphase : state.phase = .selecting) (hchannel : state.channel = request :: rest) :
      Step library state [] { state with
        channel := rest
        task := { state.task with pending := state.task.pending ++ [request] }
        phase := .head }
  | swarm (event : SwarmEvent) (hphase : state.phase = .selecting)
      (hquery : ∀ id result, event = .putRecord id result → ∃ query ∈ state.queries, query.1 = id) :
      Step library state ((state.reported event).runEvent event).2
        ((state.reported event).runEvent event).1
  | stop :
      Step library state (state.task.active.map fun publish => .finish publish.queryId).toList
        { state with
          channel := []
          task := ⟨[], none, state.task.bootstrapCompleted⟩
          phase := .stopped
          queries := [] }

end RailgunIndexer.Ipns
