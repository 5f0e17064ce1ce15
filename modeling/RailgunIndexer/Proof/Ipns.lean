import RailgunIndexer.Ipns
import RailgunIndexer.Lib.Run
import Mathlib.Data.List.Basic

/-!
# The queue of the IPNS publisher

Every step of the system does a few moves on what matters for the order of attempts and for leases: the
active attempt, the requests that wait, and the queries without an outcome. The results about whole runs
are invariants of the moves. A request moves from the channel through the queue to the active attempt, may
return to the front, and never comes back once it is gone. A query of a request with a lease has no
outcome only while that request is the active one.
-/

namespace RailgunIndexer.Ipns

open Lib

/-! ### Moves -/

variable {effects later : List Effect} {isClosed : Nat → Bool} {result : Task × List Effect}
  {state : State} {publish : ActivePublish} {library : RecordLibrary} {query : Nat × PublishRequest}
  {request : PublishRequest} {queryId : Nat}

/-- What matters of a state. The requests wait in the order of their arrival. -/
structure View where
  arrivals : Nat
  active : Option ActivePublish
  waiting : List PublishRequest
  queries : List (Nat × PublishRequest)

def State.view (state : State) : View :=
  ⟨state.arrivals, state.task.active, state.task.pending ++ state.channel, state.queries⟩

def View.requests (view : View) : List PublishRequest :=
  (view.active.map ActivePublish.request).toList ++ view.waiting

theorem State.requests_eq (state : State) : state.requests = state.view.requests :=
  List.append_assoc _ _ _

def View.without (view : View) (queryId : Nat) : List (Nat × PublishRequest) :=
  view.queries.filter fun query => query.1 ≠ queryId

def Effect.IsResponse : Effect → Prop
  | .respond _ _ => True
  | _ => False

def PublishRequest.after (request : PublishRequest) (retryAt : Nat) : PublishRequest :=
  { request with notBefore := retryAt }

inductive Move (view : View) : List Effect → View → Prop
  | quiet {waiting : List PublishRequest} {effects : List Effect}
      (hwaiting : waiting.Sublist view.waiting) (heffects : ∀ effect ∈ effects, effect.IsResponse) :
      Move view effects { view with waiting := waiting }
  | start {front : PublishRequest} {rest : List PublishRequest} {queryId : Nat}
      {publication : IpnsPublication} (hactive : view.active = none)
      (hwaiting : (front :: rest).Sublist view.waiting) :
      Move view [.start front.begin queryId] ⟨view.arrivals,
        some ⟨queryId, front.begin, publication⟩, rest, (queryId, front.begin) :: view.queries⟩
  | expire {publish : ActivePublish} {result : Except IpnsError IpnsPublication}
      (hactive : view.active = some publish) (hlease : publish.request.canonicalityLease = none) :
      Move view [.finish publish.queryId, .respond publish.request.arrival result]
        { view with active := none }
  | report {queryId : Nat}
      (hother : ∀ publish, view.active = some publish → publish.queryId ≠ queryId) :
      Move view [] { view with queries := view.without queryId }
  | answer {publish : ActivePublish} {result : Except IpnsError IpnsPublication}
      (hactive : view.active = some publish) :
      Move view [.finish publish.queryId, .respond publish.request.arrival result]
        { view with active := none, queries := view.without publish.queryId }
  | retry {publish : ActivePublish} {retryAt : Nat} (hactive : view.active = some publish)
      (hretry : retryAt < publish.request.deadline) :
      Move view [.finish publish.queryId, .retry (publish.request.after retryAt)]
        ⟨view.arrivals, none, publish.request.after retryAt :: view.waiting,
          view.without publish.queryId⟩
  | arrive {request : PublishRequest} (harrival : request.arrival = view.arrivals) :
      Move view [.arrive request]
        { view with arrivals := view.arrivals + 1, waiting := view.waiting ++ [request] }
  | stop :
      Move view (view.active.map fun publish => .finish publish.queryId).toList
        ⟨view.arrivals, none, [], []⟩

/-! ### The functions of the task -/

section Functions

variable {isClosed : Nat → Bool} {library : RecordLibrary} {putRecord : Except String Nat} {now : Nat}

theorem discardUnpublishablePending_sublist (pending : List PublishRequest) :
    (discardUnpublishablePending isClosed now pending).1.Sublist pending := by
  induction pending with
  | nil => exact List.Sublist.slnil
  | cons request rest ih =>
      rw [discardUnpublishablePending]
      split_ifs
      · exact ih.cons request
      · exact ih.cons request
      · exact ih.cons_cons request

theorem publishable_of_mem {pending : List PublishRequest} {request : PublishRequest}
    (hmem : request ∈ (discardUnpublishablePending isClosed now pending).1) :
    isClosed request.arrival = false ∧ now < request.deadline := by
  induction pending with
  | nil => cases hmem
  | cons first rest ih =>
      rw [discardUnpublishablePending] at hmem
      split_ifs at hmem with hclosed hexpired
      · exact ih hmem
      · exact ih hmem
      · rcases List.mem_cons.mp hmem with rfl | hmem
        · refine ⟨Bool.eq_false_iff.mpr hclosed, ?_⟩
          simpa [PublishRequest.isExpired] using hexpired
        · exact ih hmem

theorem isResponse_of_mem_discarded {pending : List PublishRequest} {effect : Effect}
    (hmem : effect ∈ (discardUnpublishablePending isClosed now pending).2) : effect.IsResponse := by
  induction pending with
  | nil => cases hmem
  | cons first rest ih =>
      rw [discardUnpublishablePending] at hmem
      split_ifs at hmem with hclosed hexpired
      · exact ih hmem
      · rcases List.mem_cons.mp hmem with rfl | hmem
        · trivial
        · exact ih hmem
      · exact ih hmem

inductive Starts (isClosed : Nat → Bool) (task : Task) (now : Nat) : Task × List Effect → Prop
  | idle {pending : List PublishRequest} {effects : List Effect}
      (hpending : pending.Sublist task.pending) (heffects : ∀ effect ∈ effects, effect.IsResponse) :
      Starts isClosed task now ({ task with pending := pending }, effects)
  | started {front : PublishRequest} {rest : List PublishRequest} {queryId : Nat}
      {publication : IpnsPublication} {effects : List Effect} (hactive : task.active = none)
      (hpending : (front :: rest).Sublist task.pending) (hopen : isClosed front.arrival = false)
      (hdeadline : now < front.deadline) (heffects : ∀ effect ∈ effects, effect.IsResponse) :
      Starts isClosed task now
        ({ task with pending := rest, active := some ⟨queryId, front.begin, publication⟩ },
          effects ++ [.start front.begin queryId])

theorem startFront_starts {task : Task} {front : PublishRequest} {rest : List PublishRequest}
    {effects : List Effect} (hactive : task.active = none)
    (hpending : (front :: rest).Sublist task.pending) (hopen : isClosed front.arrival = false)
    (hdeadline : now < front.deadline) (heffects : ∀ effect ∈ effects, effect.IsResponse) :
    Starts isClosed task now
      ((startFront library putRecord { task with pending := rest } front.begin).1,
        effects ++ (startFront library putRecord { task with pending := rest } front.begin).2) := by
  have hrest : rest.Sublist task.pending := (List.sublist_cons_self front rest).trans hpending
  have hanswered : ∀ result, ∀ effect ∈ effects ++ [Effect.respond front.begin.arrival result],
      effect.IsResponse := by
    intro result
    rw [List.forall_mem_append]
    refine ⟨heffects, ?_⟩
    intro effect heffect
    rw [List.mem_singleton.mp heffect]
    trivial
  rw [startFront]
  split
  · exact .idle hrest (hanswered _)
  · split
    · exact .idle hrest (hanswered _)
    · exact .started hactive hpending hopen hdeadline heffects

theorem maybeStartPublish_starts (connectedPeers : Nat) (task : Task) :
    Starts isClosed task now
      (maybeStartPublish isClosed library connectedPeers putRecord task now) := by
  have hsublist := @discardUnpublishablePending_sublist isClosed now task.pending
  have hpublishable := @publishable_of_mem isClosed now task.pending
  have hresponses := @isResponse_of_mem_discarded isClosed now task.pending
  rw [maybeStartPublish]
  generalize discardUnpublishablePending isClosed now task.pending = discarded at *
  obtain ⟨pending, effects⟩ := discarded
  split_ifs with hwaits
  · exact .idle hsublist fun _ => hresponses
  · have hactive : task.active = none := by
      cases hactive : task.active with
      | none => rfl
      | some publish => simp [hactive] at hwaits
    cases pending with
    | nil => exact .idle hsublist fun _ => hresponses
    | cons front rest =>
        dsimp only
        split_ifs
        · exact .idle hsublist fun _ => hresponses
        · obtain ⟨hopen, hdeadline⟩ := @hpublishable front List.mem_cons_self
          exact startFront_starts hactive hsublist hopen hdeadline fun _ => hresponses

theorem nextRetryAt_lt_deadline {request : PublishRequest} {retryAt : Nat}
    (hretry : nextRetryAt isClosed request now = some retryAt) : retryAt < request.deadline := by
  rw [nextRetryAt] at hretry
  dsimp only at hretry
  split_ifs at hretry with hended hshort
  cases hretry
  rw [minRetryRemaining, second] at hshort ⊢
  omega

end Functions

/-! ### Steps as moves -/

def Moves (view : View) (effects : List Effect) (next : View) : Prop :=
  ∃ moves, Run.Reaches Move view moves next ∧ moves.flatten = effects

namespace Moves

variable {effects : List Effect}

theorem refl (view : View) : Moves view [] view := ⟨[], .refl, rfl⟩

theorem of_move {view next : View} (hmove : Move view effects next) : Moves view effects next :=
  ⟨[effects], .single hmove, List.flatten_singleton⟩

theorem trans {first second third : View} {later : List Effect}
    (hfirst : Moves first effects second) (hsecond : Moves second later third) :
    Moves first (effects ++ later) third := by
  obtain ⟨moves, hmoves, rfl⟩ := hfirst
  obtain ⟨more, hmore, rfl⟩ := hsecond
  exact ⟨moves ++ more, hmoves.trans hmore, List.flatten_append⟩

end Moves

def State.viewWith (state : State) (task : Task) (effects : List Effect) : View :=
  ⟨state.arrivals, task.active, task.pending ++ state.channel,
    startedQueries effects ++ state.queries⟩

theorem startedQueries_of_responses (heffects : ∀ effect ∈ effects, effect.IsResponse) :
    startedQueries effects = [] := by
  rw [startedQueries, List.filterMap_eq_nil_iff]
  intro effect heffect
  have hresponse := heffects effect heffect
  cases effect <;> first | rfl | cases hresponse

theorem Starts.moves {now : Nat} {task : Task} (hstarts : Starts isClosed task now result) :
    Moves (state.viewWith task []) result.2 (state.viewWith result.1 result.2) := by
  cases hstarts with
  | idle hpending heffects =>
      dsimp only [State.viewWith]
      rw [startedQueries_of_responses heffects]
      exact .of_move (.quiet (hpending.append_right state.channel) heffects)
  | @started front rest queryId publication effects hactive hpending hopen hdeadline heffects =>
      have hqueries : startedQueries (effects ++ [.start front.begin queryId])
          = [(queryId, front.begin)] := by
        rw [startedQueries, List.filterMap_append]
        exact congrArg (· ++ [(queryId, front.begin)]) (startedQueries_of_responses heffects)
      dsimp only [State.viewWith]
      rw [hqueries]
      refine .trans (.of_move (.quiet (List.Sublist.refl _) heffects)) (.of_move ?_)
      exact .start hactive (hpending.append_right state.channel)

theorem expireActivePublish_moves (state : State) (task : Task) (now : Nat) :
    Moves (state.viewWith task []) (expireActivePublish task now).2
      (state.viewWith (expireActivePublish task now).1 []) := by
  rw [expireActivePublish]
  split
  · exact .refl _
  · rename_i publish hactive
    split_ifs with hexpires
    · rw [PublishRequest.mayExpireWhileActive, Bool.and_eq_true, Option.isNone_iff_eq_none] at hexpires
      exact .of_move (.expire hactive hexpires.1)
    · exact .refl _

theorem finishPublish_moves {result : Except String Unit}
    (hactive : state.task.active = some publish) (now : Nat) :
    Moves state.view (finishPublish state.closed state.task publish result now).2
      { (state.viewWith (finishPublish state.closed state.task publish result now).1 []) with
        queries := state.view.without publish.queryId } := by
  cases result with
  | ok done => exact .of_move (.answer hactive)
  | error reason =>
      rw [finishPublish]
      split_ifs
      · exact .of_move (.answer hactive)
      · split
        · rename_i retryAt hretry
          exact .of_move (.retry hactive (nextRetryAt_lt_deadline hretry))
        · exact .of_move (.answer hactive)

theorem handleSwarmEvent_of_active {isClosed : Nat → Bool} {task : Task} {publish : ActivePublish}
    (hactive : task.active = some publish) (result : Except String Unit) (now : Nat) :
    handleSwarmEvent isClosed task (.putRecord publish.queryId result) now
      = ((finishPublish isClosed task publish result now).1,
        (finishPublish isClosed task publish result now).2, true) := by
  rw [handleSwarmEvent, hactive]
  exact if_pos rfl

theorem handleSwarmEvent_of_other {isClosed : Nat → Bool} {task : Task} {id : Nat}
    (hother : ∀ publish, task.active = some publish → publish.queryId ≠ id)
    (result : Except String Unit) (now : Nat) :
    handleSwarmEvent isClosed task (.putRecord id result) now = (task, [], false) := by
  rw [handleSwarmEvent]
  cases hactive : task.active with
  | none => rfl
  | some publish => exact if_neg (hother publish hactive)

theorem handleSwarmEvent_moves (state : State) (event : SwarmEvent) :
    Moves state.view ((state.reported event).runEvent event).2
      ((state.reported event).runEvent event).1.view := by
  cases event with
  | putRecord id result =>
      by_cases hmatches : ∃ publish, state.task.active = some publish ∧ publish.queryId = id
      · obtain ⟨publish, hactive, rfl⟩ := hmatches
        have hhandled := @handleSwarmEvent_of_active state.closed _ _ hactive result state.clock
        dsimp only [State.reported, State.runEvent, State.view]
        rw [hhandled]
        exact finishPublish_moves hactive state.clock
      · have hother : ∀ publish, state.task.active = some publish → publish.queryId ≠ id := by
          intro publish hactive hsame
          exact hmatches ⟨publish, hactive, hsame⟩
        have hhandled := @handleSwarmEvent_of_other state.closed _ _ hother result state.clock
        dsimp only [State.reported, State.runEvent, State.view]
        rw [hhandled]
        exact .of_move (.report hother)
  | bootstrap result last =>
      cases result <;> cases last <;> exact .refl _
  | connectionEstablished | other => exact .refl _

/-- **Every step is a few moves.** -/
theorem Step.moves {next : State} (hstep : Step library state effects next) :
    Moves state.view effects next.view := by
  cases hstep with
  | advance => exact .refl _
  | giveUp => exact .refl _
  | connect => exact .refl _
  | publicationLease => exact .refl _
  | dropLease => exact .refl _
  | reorgLease => exact .refl _
  | dropReorg => exact .refl _
  | send request hrunning hcapacity harrival hlease =>
      have hmove := @Move.arrive state.view request harrival
      rw [State.view, List.append_assoc] at hmove
      exact .of_move hmove
  | head putRecord hphase hfresh =>
      exact .trans (expireActivePublish_moves state state.task state.clock)
        (maybeStartPublish_starts state.connectedPeers _).moves
  | start putRecord hphase hfresh =>
      exact (maybeStartPublish_starts state.connectedPeers state.task).moves
  | wake => exact .refl _
  | @receive request rest hphase hchannel =>
      have hwaiting : state.task.pending ++ [request] ++ rest = state.task.pending ++ state.channel := by
        rw [hchannel, List.append_assoc]
        rfl
      rw [State.view, State.view]
      rw [hwaiting]
      exact .refl _
  | swarm event hphase hquery => exact handleSwarmEvent_moves state event
  | stop => exact .of_move .stop

/-! ### Attempts -/

/-- The query of the active attempt after an effect. An attempt that starts while another is active, or
finishes without being active, has no place. -/
def attempt : Option Nat → Effect → Option (Option Nat)
  | none, .start _ queryId => some (some queryId)
  | some _, .start _ _ => none
  | none, .finish _ => none
  | some active, .finish queryId => if active = queryId then some none else none
  | active, .arrive _ => some active
  | active, .retry _ => some active
  | active, .respond _ _ => some active

def View.activeQuery (view : View) : Option Nat := view.active.map ActivePublish.queryId

theorem foldlM_attempt_responses (active : Option Nat)
    (heffects : ∀ effect ∈ effects, effect.IsResponse) :
    effects.foldlM attempt active = some active := by
  induction effects with
  | nil => rfl
  | cons effect rest ih =>
      rw [List.forall_mem_cons] at heffects
      have hfirst : attempt active effect = some active := by
        cases effect with
        | respond arrival result => cases active <;> rfl
        | _ => cases heffects.1
      rw [List.foldlM_cons, hfirst]
      exact ih heffects.2

variable {next view : View}

theorem Move.attempts (hmove : Move view effects next) :
    effects.foldlM attempt view.activeQuery = some next.activeQuery := by
  have hfinish : ∀ publish : ActivePublish,
      attempt (some publish.queryId) (.finish publish.queryId) = some none := fun _ => if_pos rfl
  cases hmove with
  | quiet hwaiting heffects => exact foldlM_attempt_responses _ heffects
  | start hactive hwaiting =>
      rw [View.activeQuery, hactive]
      rfl
  | expire hactive hlease | answer hactive | retry hactive hretry =>
      rw [View.activeQuery, hactive, Option.map_some, List.foldlM_cons, hfinish]
      rfl
  | report hother => rfl
  | @arrive request harrival =>
      have harrive : attempt view.activeQuery (.arrive request) = some view.activeQuery := by
        cases view.activeQuery <;> rfl
      rw [List.foldlM_cons, harrive]
      rfl
  | stop =>
      rw [View.activeQuery]
      cases view.active with
      | none => rfl
      | some publish =>
          rw [Option.map_some, Option.map_some, Option.toList_some, List.foldlM_cons, hfinish]
          rfl

/-! ### Order -/

def View.order (view : View) : List Nat := view.requests.map PublishRequest.arrival

theorem View.order_of_none (hactive : view.active = none) :
    view.order = view.waiting.map PublishRequest.arrival := by
  rw [View.order, View.requests, hactive]
  rfl

theorem View.order_of_some (hactive : view.active = some publish) :
    view.order = publish.request.arrival :: view.waiting.map PublishRequest.arrival := by
  rw [View.order, View.requests, hactive]
  rfl

theorem Move.order (hmove : Move view effects next) :
    (next.arrivals = view.arrivals ∧ next.order.Sublist view.order)
      ∨ (next.arrivals = view.arrivals + 1 ∧ next.order = view.order ++ [view.arrivals]) := by
  cases hmove with
  | quiet hwaiting heffects =>
      exact .inl ⟨rfl, (hwaiting.append_left _).map PublishRequest.arrival⟩
  | start hactive hwaiting =>
      rw [View.order_of_none hactive]
      exact .inl ⟨rfl, hwaiting.map PublishRequest.arrival⟩
  | expire hactive hlease | answer hactive =>
      rw [View.order_of_some hactive]
      exact .inl ⟨rfl, List.sublist_cons_self _ _⟩
  | report hother => exact .inl ⟨rfl, List.Sublist.refl _⟩
  | retry hactive hretry =>
      rw [View.order_of_some hactive]
      exact .inl ⟨rfl, List.Sublist.refl _⟩
  | arrive harrival =>
      refine .inr ⟨rfl, ?_⟩
      rw [← harrival]
      simp [View.order, View.requests]
  | stop => exact .inl ⟨rfl, List.nil_sublist _⟩

theorem Move.started {view next : View} {effects : List Effect} (hmove : Move view effects next) :
    startedQueries effects = [] ∨ ∃ query, startedQueries effects = [query]
      ∧ query.2.arrival ∈ view.order ∧ ∃ rest, next.order = query.2.arrival :: rest := by
  cases hmove with
  | quiet hwaiting heffects => exact .inl (startedQueries_of_responses heffects)
  | @start front rest queryId publication hactive hwaiting =>
      refine .inr ⟨(queryId, front.begin), rfl, ?_, _, rfl⟩
      rw [View.order_of_none hactive]
      exact List.mem_map.mpr ⟨front, hwaiting.subset List.mem_cons_self, rfl⟩
  | expire | report | answer | retry | arrive => exact .inl rfl
  | stop => cases view.active <;> exact .inl rfl

def startedArrivals (effects : List Effect) : List Nat :=
  (startedQueries effects).map fun query => query.2.arrival

theorem startedArrivals_append (effects later : List Effect) :
    startedArrivals (effects ++ later) = startedArrivals effects ++ startedArrivals later := by
  rw [startedArrivals, startedQueries, List.filterMap_append, List.map_append]
  rfl

/-- Requests are in the order of their arrival, and no attempt was for a later one than any there is. -/
structure InOrder (effects : List Effect) (view : View) : Prop where
  sorted : view.order.Pairwise (· < ·)
  bounded : ∀ arrival ∈ view.order, arrival < view.arrivals
  ordered : (startedArrivals effects).Pairwise (· ≤ ·)
  started : ∀ arrival ∈ startedArrivals effects,
    arrival < view.arrivals ∧ ∀ other ∈ view.order, arrival ≤ other

theorem InOrder.move (horder : InOrder effects view) (hmove : Move view later next) :
    InOrder (effects ++ later) next := by
  have hold : InOrder effects next := by
    rcases hmove.order with ⟨harrivals, hsublist⟩ | ⟨harrivals, hnew⟩
    · refine ⟨horder.sorted.sublist hsublist, ?_, horder.ordered, ?_⟩
      · intro arrival harrival
        rw [harrivals]
        exact horder.bounded arrival (hsublist.subset harrival)
      · intro arrival harrival
        rw [harrivals]
        obtain ⟨hlt, hle⟩ := horder.started arrival harrival
        exact ⟨hlt, fun other hother => hle other (hsublist.subset hother)⟩
    · refine ⟨?_, ?_, horder.ordered, ?_⟩
      · rw [hnew, List.pairwise_append]
        refine ⟨horder.sorted, List.pairwise_singleton _ _, ?_⟩
        intro arrival harrival other hother
        rw [List.mem_singleton.mp hother]
        exact horder.bounded arrival harrival
      · intro arrival harrival
        rw [hnew, List.mem_append, List.mem_singleton] at harrival
        rw [harrivals]
        rcases harrival with harrival | rfl
        · exact (horder.bounded arrival harrival).trans (Nat.lt_succ_self _)
        · exact Nat.lt_succ_self _
      · intro arrival harrival
        obtain ⟨hlt, hle⟩ := horder.started arrival harrival
        rw [harrivals]
        refine ⟨hlt.trans (Nat.lt_succ_self _), ?_⟩
        intro other hother
        rw [hnew, List.mem_append, List.mem_singleton] at hother
        rcases hother with hother | rfl
        · exact hle other hother
        · exact hlt.le
  rcases hmove.started with hnone | ⟨query, hquery, hmem, rest, hfirst⟩
  · have hsame : startedArrivals (effects ++ later) = startedArrivals effects := by
      rw [startedArrivals_append, startedArrivals, startedArrivals, hnone]
      exact List.append_nil _
    refine ⟨hold.sorted, hold.bounded, ?_, ?_⟩
    · rw [hsame]
      exact hold.ordered
    · rw [hsame]
      exact hold.started
  · have hsame : startedArrivals (effects ++ later)
        = startedArrivals effects ++ [query.2.arrival] := by
      rw [startedArrivals_append, startedArrivals, startedArrivals, hquery]
      rfl
    have hsorted := hold.sorted
    rw [hfirst, List.pairwise_cons] at hsorted
    have hin : query.2.arrival ∈ next.order := by
      rw [hfirst]
      exact List.mem_cons_self
    refine ⟨hold.sorted, hold.bounded, ?_, ?_⟩
    · rw [hsame, List.pairwise_append]
      refine ⟨hold.ordered, List.pairwise_singleton _ _, ?_⟩
      intro arrival harrival other hother
      rw [List.mem_singleton.mp hother]
      exact (horder.started arrival harrival).2 _ hmem
    · rw [hsame]
      intro arrival harrival
      rcases List.mem_append.mp harrival with harrival | harrival
      · exact hold.started arrival harrival
      · rw [List.mem_singleton.mp harrival]
        refine ⟨hold.bounded _ hin, ?_⟩
        intro other hother
        rw [hfirst] at hother
        rcases List.mem_cons.mp hother with rfl | hother
        · exact le_rfl
        · exact (hsorted.1 other hother).le

/-! ### Leases -/

/-- A query of a request with a lease has no outcome only while the request is the active one. -/
def LeasedActive (view : View) : Prop :=
  ∀ query ∈ view.queries, query.2.canonicalityLease ≠ none → ∃ publish,
    view.active = some publish ∧ publish.queryId = query.1 ∧ publish.request = query.2

theorem LeasedActive.without (hleased : LeasedActive view) (hactive : view.active = some publish)
    (hquery : query ∈ view.without publish.queryId) : query.2.canonicalityLease = none := by
  obtain ⟨hmem, hne⟩ := List.mem_filter.mp hquery
  by_contra hlease
  obtain ⟨other, hother, hid, -⟩ := hleased query hmem hlease
  cases hactive.symm.trans hother
  exact of_decide_eq_true hne hid.symm

theorem LeasedActive.move (hleased : LeasedActive view) (hmove : Move view effects next) :
    LeasedActive next := by
  cases hmove with
  | quiet hwaiting heffects | arrive harrival => exact hleased
  | start hactive hwaiting =>
      intro query hquery hlease
      rcases List.mem_cons.mp hquery with rfl | hquery
      · exact ⟨_, rfl, rfl, rfl⟩
      · obtain ⟨publish, hpublish, -⟩ := hleased query hquery hlease
        cases hactive.symm.trans hpublish
  | expire hactive hlease =>
      intro query hquery hqueryLease
      obtain ⟨other, hother, -, hrequest⟩ := hleased query hquery hqueryLease
      cases hactive.symm.trans hother
      exact absurd (hrequest ▸ hlease) hqueryLease
  | report hother =>
      intro query hquery hlease
      exact hleased query (List.mem_filter.mp hquery).1 hlease
  | answer hactive | retry hactive hretry =>
      intro query hquery hlease
      exact absurd (hleased.without hactive hquery) hlease
  | stop =>
      intro query hquery
      cases hquery

def PublishRequest.key (request : PublishRequest) : Nat × Option Nat :=
  (request.arrival, request.canonicalityLease)

theorem View.mem_requests_of_waiting (hrequest : request ∈ view.waiting) :
    request ∈ view.requests :=
  List.mem_append_right _ hrequest

theorem View.mem_requests_of_active (hactive : view.active = some publish) :
    publish.request ∈ view.requests := by
  rw [View.requests, hactive]
  exact List.mem_cons_self

theorem Move.arrivals_le (hmove : Move view effects next) : view.arrivals ≤ next.arrivals := by
  rcases hmove.order with ⟨hsame, -⟩ | ⟨hmore, -⟩
  · exact hsame.ge
  · exact hmore ▸ Nat.le_succ _

theorem not_isResponse_arrive (heffects : ∀ effect ∈ effects, effect.IsResponse) :
    .arrive request ∉ effects :=
  fun hmem => heffects _ hmem

theorem Move.of_arrive (hmove : Move view effects next) (harrive : .arrive request ∈ effects) :
    request.arrival = view.arrivals ∧ next.arrivals = view.arrivals + 1
      ∧ effects = [.arrive request] := by
  cases hmove with
  | quiet hwaiting heffects => exact absurd harrive (not_isResponse_arrive heffects)
  | arrive harrival =>
      obtain rfl := Effect.arrive.inj (List.mem_singleton.mp harrive)
      exact ⟨harrival, rfl, rfl⟩
  | stop =>
      cases hactive : view.active <;> simp [hactive] at harrive
  | _ => simp at harrive

theorem Move.request_of_mem (hmove : Move view effects next) (hrequest : request ∈ next.requests) :
    (∃ old ∈ view.requests, old.key = request.key) ∨ .arrive request ∈ effects := by
  cases hmove with
  | quiet hwaiting heffects =>
      refine .inl ⟨request, ?_, rfl⟩
      rcases List.mem_append.mp hrequest with hactive | hwaits
      · exact List.mem_append_left _ hactive
      · exact View.mem_requests_of_waiting (hwaiting.subset hwaits)
  | @start front rest queryId publication hactive hwaiting =>
      left
      rcases List.mem_cons.mp hrequest with rfl | hwaits
      · exact ⟨front, View.mem_requests_of_waiting (hwaiting.subset List.mem_cons_self), rfl⟩
      · exact ⟨request, View.mem_requests_of_waiting
          (hwaiting.subset (List.mem_cons_of_mem _ hwaits)), rfl⟩
  | expire hactive hlease | answer hactive =>
      exact .inl ⟨request, View.mem_requests_of_waiting hrequest, rfl⟩
  | report hother => exact .inl ⟨request, hrequest, rfl⟩
  | retry hactive hretry =>
      left
      rcases List.mem_cons.mp hrequest with rfl | hwaits
      · exact ⟨_, View.mem_requests_of_active hactive, rfl⟩
      · exact ⟨request, View.mem_requests_of_waiting hwaits, rfl⟩
  | arrive harrival =>
      rcases List.mem_append.mp hrequest with hactive | hwaits
      · exact .inl ⟨request, List.mem_append_left _ hactive, rfl⟩
      · rcases List.mem_append.mp hwaits with hwaits | hnew
        · exact .inl ⟨request, View.mem_requests_of_waiting hwaits, rfl⟩
        · rw [List.mem_singleton.mp hnew]
          exact .inr List.mem_cons_self
  | stop => cases hrequest

theorem Move.query_of_mem (hmove : Move view effects next) (hquery : query ∈ next.queries) :
    query ∈ view.queries ∨ ∃ old ∈ view.requests, old.key = query.2.key := by
  cases hmove with
  | quiet hwaiting heffects | expire hactive hlease | arrive harrival => exact .inl hquery
  | @start front rest queryId publication hactive hwaiting =>
      rcases List.mem_cons.mp hquery with rfl | hquery
      · exact .inr ⟨front, View.mem_requests_of_waiting (hwaiting.subset List.mem_cons_self), rfl⟩
      · exact .inl hquery
  | report hother | answer hactive | retry hactive hretry =>
      exact .inl (List.mem_filter.mp hquery).1
  | stop => cases hquery

/-- What has arrived is known by its number: requests and queries with that number have its lease. -/
structure LeasesKept (effects : List Effect) (view : View) : Prop where
  queries : ∀ query ∈ view.queries, query.2.arrival < view.arrivals
  arrived : ∀ request, .arrive request ∈ effects → request.arrival < view.arrivals
  held : ∀ request, .arrive request ∈ effects → ∀ other ∈ view.requests,
    other.arrival = request.arrival → other.canonicalityLease = request.canonicalityLease
  queried : ∀ request, .arrive request ∈ effects → ∀ query ∈ view.queries,
    query.2.arrival = request.arrival → query.2.canonicalityLease = request.canonicalityLease

theorem View.arrival_mem_order (hrequest : request ∈ view.requests) :
    request.arrival ∈ view.order :=
  List.mem_map_of_mem hrequest

theorem LeasesKept.move (hkept : LeasesKept effects view) (horder : InOrder effects view)
    (hmove : Move view later next) : LeasesKept (effects ++ later) next := by
  have hbounded : ∀ request ∈ view.requests, request.arrival < view.arrivals := fun request hrequest =>
    horder.bounded _ (View.arrival_mem_order hrequest)
  constructor
  · intro query hquery
    refine Nat.lt_of_lt_of_le ?_ hmove.arrivals_le
    rcases hmove.query_of_mem hquery with hquery | ⟨old, hold, hkey⟩
    · exact hkept.queries query hquery
    · exact (Prod.mk.inj hkey).1 ▸ hbounded old hold
  · intro request harrive
    rcases List.mem_append.mp harrive with harrive | harrive
    · exact Nat.lt_of_lt_of_le (hkept.arrived request harrive) hmove.arrivals_le
    · obtain ⟨harrival, hnext, -⟩ := hmove.of_arrive harrive
      rw [harrival, hnext]
      exact Nat.lt_succ_self _
  · intro request harrive other hother hsame
    rcases List.mem_append.mp harrive with harrive | harrive
    · rcases hmove.request_of_mem hother with ⟨old, hold, hkey⟩ | hnew
      · obtain ⟨harrival, hlease⟩ := Prod.mk.inj hkey
        rw [← hlease]
        exact hkept.held request harrive old hold (harrival.trans hsame)
      · have hlt := hkept.arrived request harrive
        rw [← hsame, (hmove.of_arrive hnew).1] at hlt
        exact absurd hlt (Nat.lt_irrefl _)
    · obtain ⟨harrival, -, heffects⟩ := hmove.of_arrive harrive
      rcases hmove.request_of_mem hother with ⟨old, hold, hkey⟩ | hnew
      · have hlt := hbounded old hold
        rw [(Prod.mk.inj hkey).1, hsame, harrival] at hlt
        exact absurd hlt (Nat.lt_irrefl _)
      · rw [heffects, List.mem_singleton] at hnew
        rw [Effect.arrive.inj hnew]
  · intro request harrive query hquery hsame
    rcases List.mem_append.mp harrive with harrive | harrive
    · rcases hmove.query_of_mem hquery with hquery | ⟨old, hold, hkey⟩
      · exact hkept.queried request harrive query hquery hsame
      · obtain ⟨harrival, hlease⟩ := Prod.mk.inj hkey
        rw [← hlease]
        exact hkept.held request harrive old hold (harrival.trans hsame)
    · have hlt : query.2.arrival < view.arrivals := by
        rcases hmove.query_of_mem hquery with hquery | ⟨old, hold, hkey⟩
        · exact hkept.queries query hquery
        · exact (Prod.mk.inj hkey).1 ▸ hbounded old hold
      rw [hsame, (hmove.of_arrive harrive).1] at hlt
      exact absurd hlt (Nat.lt_irrefl _)

/-! ### Runs -/

structure Disciplined (effects : List Effect) (view : View) : Prop where
  attempts : effects.foldlM attempt none = some view.activeQuery
  inOrder : InOrder effects view
  retries : ∀ request, .retry request ∈ effects → request.notBefore < request.deadline
  leasedActive : LeasedActive view
  leasesKept : LeasesKept effects view

theorem disciplined_initial : Disciplined [] State.initial.view where
  attempts := rfl
  inOrder := ⟨List.Pairwise.nil, List.forall_mem_nil _, List.Pairwise.nil, List.forall_mem_nil _⟩
  retries := by simp
  leasedActive := List.forall_mem_nil _
  leasesKept := by constructor <;> simp [State.initial, State.view]

theorem Move.retries (hmove : Move view effects next) (hretry : .retry request ∈ effects) :
    request.notBefore < request.deadline := by
  cases hmove with
  | quiet hwaiting heffects => exact (heffects _ hretry).elim
  | retry hactive hbefore =>
      rcases List.mem_pair.mp hretry with hsame | hsame
      · cases hsame
      · obtain rfl := Effect.retry.inj hsame
        exact hbefore
  | stop =>
      cases hactive : view.active <;> simp [hactive] at hretry
  | _ => simp at hretry

theorem Disciplined.move (hdisciplined : Disciplined effects view) (hmove : Move view later next) :
    Disciplined (effects ++ later) next where
  attempts := by
    rw [List.foldlM_append, hdisciplined.attempts]
    exact hmove.attempts
  inOrder := hdisciplined.inOrder.move hmove
  retries request hretry := by
    rcases List.mem_append.mp hretry with hretry | hretry
    · exact hdisciplined.retries request hretry
    · exact hmove.retries hretry
  leasedActive := hdisciplined.leasedActive.move hmove
  leasesKept := hdisciplined.leasesKept.move hdisciplined.inOrder hmove

theorem moves_of_reaches {start : State} {events : List (List Effect)}
    (hrun : Run.Reaches (Step library) start events state) :
    Moves start.view events.flatten state.view := by
  refine Run.Reaches.invariant (I := fun events state => Moves start.view events.flatten state.view)
    hrun (.refl _) ?_
  intro events state effects next hmoves hstep
  rw [List.flatten_append, List.flatten_singleton]
  exact hmoves.trans hstep.moves

theorem Disciplined.moves (hdisciplined : Disciplined effects view)
    (hmoves : Moves view later next) :
    Disciplined (effects ++ later) next := by
  obtain ⟨moves, hrun, rfl⟩ := hmoves
  refine Run.Reaches.invariant (I := fun moves next => Disciplined (effects ++ moves.flatten) next)
    hrun ?_ ?_
  · rwa [List.flatten_nil, List.append_nil]
  · intro moves view later next hbefore hmove
    rw [List.flatten_append, List.flatten_singleton, ← List.append_assoc]
    exact hbefore.move hmove

theorem Moves.request_of_mem (hmoves : Moves view effects next) (hrequest : request ∈ next.requests)
    (harrival : request.arrival < view.arrivals) :
    ∃ old ∈ view.requests, old.key = request.key := by
  obtain ⟨moves, hrun, -⟩ := hmoves
  have hinvariant : view.arrivals ≤ next.arrivals ∧ ∀ request ∈ next.requests,
      request.arrival < view.arrivals → ∃ old ∈ view.requests, old.key = request.key := by
    refine Run.Reaches.invariant (I := fun _ next => view.arrivals ≤ next.arrivals
      ∧ ∀ request ∈ next.requests, request.arrival < view.arrivals →
        ∃ old ∈ view.requests, old.key = request.key) hrun ?_ ?_
    · exact ⟨le_rfl, fun request hrequest _ => ⟨request, hrequest, rfl⟩⟩
    · rintro _ before effects after ⟨hle, hheld⟩ hmove
      refine ⟨hle.trans hmove.arrivals_le, ?_⟩
      intro request hrequest hlt
      rcases hmove.request_of_mem hrequest with ⟨old, hold, hkey⟩ | hnew
      · have hsame := (Prod.mk.inj hkey).1
        obtain ⟨first, hfirst, hfirstKey⟩ := hheld old hold (hsame ▸ hlt)
        exact ⟨first, hfirst, hfirstKey.trans hkey⟩
      · rw [(hmove.of_arrive hnew).1] at hlt
        exact absurd (hlt.trans_le hle) (Nat.lt_irrefl _)
  exact hinvariant.2 request hrequest harrival

/-! ### Times and the lock -/

theorem mem_startedQueries (hstart : .start request queryId ∈ effects) :
    (queryId, request) ∈ startedQueries effects :=
  List.mem_filterMap.mpr ⟨_, hstart, rfl⟩

theorem startedQueries_expireActivePublish (task : Task) (now : Nat) :
    startedQueries (expireActivePublish task now).2 = [] := by
  rw [expireActivePublish]
  split
  · rfl
  · split_ifs <;> rfl

theorem startedQueries_finishPublish (isClosed : Nat → Bool) (task : Task) (publish : ActivePublish)
    (result : Except String Unit) (now : Nat) :
    startedQueries (finishPublish isClosed task publish result now).2 = [] := by
  cases result with
  | ok done => rfl
  | error reason =>
      rw [finishPublish]
      split_ifs
      · rfl
      · split <;> rfl

theorem startedQueries_handleSwarmEvent (isClosed : Nat → Bool) (task : Task) (event : SwarmEvent)
    (now : Nat) : startedQueries (handleSwarmEvent isClosed task event now).2.1 = [] := by
  cases event with
  | putRecord id result =>
      by_cases hmatches : ∃ publish, task.active = some publish ∧ publish.queryId = id
      · obtain ⟨publish, hactive, rfl⟩ := hmatches
        rw [handleSwarmEvent_of_active hactive]
        exact startedQueries_finishPublish isClosed task publish result now
      · rw [handleSwarmEvent_of_other fun publish hactive hsame => hmatches ⟨publish, hactive, hsame⟩]
        rfl
  | bootstrap result last => cases result <;> cases last <;> rfl
  | connectionEstablished => rfl
  | other => rfl

theorem Starts.timely {task : Task} {now : Nat} (hstarts : Starts isClosed task now result)
    (hstart : .start request queryId ∈ result.2) :
    now < request.deadline ∧ isClosed request.arrival = false := by
  cases hstarts with
  | idle hpending heffects => exact (heffects _ hstart).elim
  | started hactive hpending hopen hdeadline heffects =>
      rcases List.mem_append.mp hstart with hstart | hstart
      · exact (heffects _ hstart).elim
      · obtain ⟨rfl, -⟩ := Effect.start.inj (List.mem_singleton.mp hstart)
        exact ⟨hdeadline, hopen⟩

theorem Step.start_timely {next : State} (hstep : Step library state effects next)
    (hstart : .start request queryId ∈ effects) :
    state.clock < request.deadline ∧ state.closed request.arrival = false := by
  cases hstep with
  | head putRecord hphase hfresh =>
      change Effect.start request queryId
        ∈ (expireActivePublish state.task state.clock).2 ++ _ at hstart
      rcases List.mem_append.mp hstart with hended | hstart
      · have hmem := mem_startedQueries hended
        rw [startedQueries_expireActivePublish] at hmem
        cases hmem
      · exact (maybeStartPublish_starts state.connectedPeers _).timely hstart
  | start putRecord hphase hfresh =>
      exact (maybeStartPublish_starts state.connectedPeers state.task).timely hstart
  | swarm event hphase hquery =>
      have hmem := mem_startedQueries hstart
      rw [State.runEvent] at hmem
      rw [startedQueries_handleSwarmEvent] at hmem
      cases hmem
  | stop =>
      cases hactive : state.task.active <;> simp [hactive] at hstart
  | _ => simp at hstart

def LockSound (state : State) : Prop := state.reorg = true → ∀ lease, ¬state.LeaseHeld lease

theorem State.LeaseHeld.of_step {next : State} {lease : Nat}
    (hdisciplined : Disciplined effects state.view) (hstep : Step library state later next)
    (harrivals : next.arrivals = state.arrivals) (hleases : next.leases = state.leases)
    (hheld : next.LeaseHeld lease) : state.LeaseHeld lease := by
  rcases hheld with hheld | ⟨request, hrequest, hlease⟩
  · exact .inl (hleases ▸ hheld)
  · rw [State.requests_eq] at hrequest
    have hbounded := (hdisciplined.moves hstep.moves).inOrder.bounded _
      (View.arrival_mem_order hrequest)
    obtain ⟨old, hold, hkey⟩ := hstep.moves.request_of_mem hrequest (hbounded.trans_eq harrivals)
    rw [← State.requests_eq] at hold
    exact .inr ⟨old, hold, (Prod.mk.inj hkey).2.trans hlease⟩

theorem LockSound.step {library : RecordLibrary} {state next : State} {effects later : List Effect}
    (hsound : LockSound state) (hdisciplined : Disciplined effects state.view)
    (hstep : Step library state later next) : LockSound next := by
  have htask : next.arrivals = state.arrivals → next.leases = state.leases →
      next.reorg = state.reorg → LockSound next := by
    intro harrivals hleases hreorg hlocked lease hheld
    exact hsound (hreorg ▸ hlocked) lease (hheld.of_step hdisciplined hstep harrivals hleases)
  cases hstep with
  | publicationLease lease hreorg =>
      intro hlocked
      cases hreorg.symm.trans hlocked
  | dropLease lease =>
      intro hlocked other hheld
      apply hsound hlocked other
      rcases hheld with hheld | hrequest
      · left
        by_cases hsame : other = lease
        · subst hsame
          dsimp only at hheld
          rw [Function.update_self] at hheld
          cases hheld
        · dsimp only at hheld
          rwa [Function.update_of_ne hsame] at hheld
      · exact .inr hrequest
  | reorgLease hfree => exact fun _ => hfree
  | dropReorg =>
      intro hlocked
      cases hlocked
  | send request hrunning hcapacity harrival hlease =>
      intro hlocked lease hheld
      apply hsound hlocked lease
      rcases hheld with hheld | ⟨other, hother, hsame⟩
      · exact .inl hheld
      · rw [State.requests] at hother
        rw [← List.append_assoc] at hother
        rcases List.mem_append.mp hother with hold | hnew
        · exact .inr ⟨other, hold, hsame⟩
        · obtain rfl := List.mem_singleton.mp hnew
          exact .inl (hlease lease hsame)
  | swarm event hphase hquery =>
      cases event <;> exact htask rfl rfl rfl
  | _ => exact htask rfl rfl rfl

structure KeepsDiscipline (library : RecordLibrary) (effects : List Effect) (state : State) :
    Prop where
  one : effects.foldlM attempt none = some state.view.activeQuery
  order : (startedArrivals effects).Pairwise (· ≤ ·)
  timely : ∀ later next request queryId, Step library state later next →
    .start request queryId ∈ later →
      state.clock < request.deadline ∧ state.closed request.arrival = false
  retries : ∀ request, .retry request ∈ effects → request.notBefore < request.deadline
  leases : ∀ request lease, .arrive request ∈ effects → request.canonicalityLease = some lease →
    (∃ held ∈ state.requests, held.arrival = request.arrival ∧ held.canonicalityLease = some lease)
      ∨ ∀ later next, Run.Reaches (Step library) state later next →
        ∀ query ∈ next.queries, query.2.arrival ≠ request.arrival
  lock : state.reorg = true → ∀ query ∈ state.queries, query.2.canonicalityLease = none

theorem query_ne_of_gone {next : State} {later : List (List Effect)} {lease : Nat}
    (hdisciplined : Disciplined effects state.view) (harrive : .arrive request ∈ effects)
    (hlease : request.canonicalityLease = some lease)
    (hgone : ¬∃ held ∈ state.requests, held.arrival = request.arrival ∧ held.canonicalityLease =
      some lease) (hrun : Run.Reaches (Step library) state later next)
    (hquery : query ∈ next.queries) : query.2.arrival ≠ request.arrival := by
  intro hsame
  have hmoves := moves_of_reaches hrun
  have hnext := hdisciplined.moves hmoves
  have hqueryLease : query.2.canonicalityLease = some lease := by
    rw [hnext.leasesKept.queried request (List.mem_append_left _ harrive) query hquery hsame, hlease]
  obtain ⟨publish, hactive, -, hrequest⟩ := hnext.leasedActive query hquery (by simp [hqueryLease])
  have hmem := View.mem_requests_of_active hactive
  rw [hrequest] at hmem
  obtain ⟨old, hold, hkey⟩ := hmoves.request_of_mem hmem
    (hsame ▸ hdisciplined.leasesKept.arrived request harrive)
  obtain ⟨harrival, holdLease⟩ := Prod.mk.inj hkey
  rw [← State.requests_eq] at hold
  exact hgone ⟨old, hold, harrival.trans hsame, holdLease.trans hqueryLease⟩

/-- **The publisher keeps the discipline of its queue.** In every run, attempts are made one at a time and
in the order of arrival, each before its request's deadline and while its caller waits; a retry is never
put off beyond the deadline; and the lease of a request is held from its arrival until none of its queries
is without an outcome, so that the lock is never taken exclusively while such a query is under way. -/
theorem publisher_keeps_discipline {library : RecordLibrary} {events : List (List Effect)}
    {state : State} (hrun : Run.Reaches (Step library) .initial events state) :
    KeepsDiscipline library events.flatten state := by
  have hinvariant : Disciplined events.flatten state.view ∧ LockSound state := by
    refine Run.Reaches.invariant (I := fun events (state : State) =>
      Disciplined events.flatten state.view ∧ LockSound state) hrun ⟨disciplined_initial, ?_⟩ ?_
    · intro hlocked
      cases hlocked
    · rintro events before effects next ⟨hdisciplined, hsound⟩ hstep
      rw [List.flatten_append, List.flatten_singleton]
      exact ⟨hdisciplined.moves hstep.moves, hsound.step hdisciplined hstep⟩
  obtain ⟨hdisciplined, hsound⟩ := hinvariant
  refine ⟨hdisciplined.attempts, hdisciplined.inOrder.ordered, ?_, hdisciplined.retries, ?_, ?_⟩
  · intro later next request queryId hstep hstart
    exact hstep.start_timely hstart
  · intro request lease harrive hlease
    by_cases hheld : ∃ held ∈ state.requests, held.arrival = request.arrival
        ∧ held.canonicalityLease = some lease
    · exact .inl hheld
    · right
      intro later next hlater query hquery
      exact query_ne_of_gone hdisciplined harrive hlease hheld hlater hquery
  · intro hlocked query hquery
    by_contra hleased
    obtain ⟨lease, hlease⟩ := Option.ne_none_iff_exists'.mp hleased
    obtain ⟨publish, hactive, -, hrequest⟩ := hdisciplined.leasedActive query hquery hleased
    have hmem := View.mem_requests_of_active hactive
    rw [← State.requests_eq, hrequest] at hmem
    exact hsound hlocked lease (.inr ⟨query.2, hmem, hlease⟩)

/-! ### A small run -/

section Small

def smallRecords : RecordLibrary := ⟨fun cid sequence => .ok ⟨"peer", "name", "/ipfs/" ++ cid, sequence⟩⟩

def smallRequest (arrival : Nat) : PublishRequest :=
  ⟨arrival, "cid", arrival + 1, 60 * second, 60 * second, 0, 0, some 7⟩

/-- Two requests wait; the first is answered, and the second is started. -/
def smallEffects : List Effect :=
  [.arrive (smallRequest 0), .arrive (smallRequest 1), .start (smallRequest 0).begin 5, .finish 5,
    .respond 0 (.ok ⟨"peer", "name", "/ipfs/cid", 1⟩), .start (smallRequest 1).begin 6]

theorem publisher_keeps_discipline_two : ∃ events state,
    Run.Reaches (Step smallRecords) .initial events state ∧ events.flatten = smallEffects
    ∧ state.queries = [(6, (smallRequest 1).begin)] ∧ state.reorg = false
    ∧ KeepsDiscipline smallRecords events.flatten state := by
  have hrun : ∃ events state, Run.Reaches (Step smallRecords) .initial events state
      ∧ events.flatten = smallEffects ∧ state.queries = [(6, (smallRequest 1).begin)] := by
    have hleased := Run.Reaches.single (@Step.publicationLease smallRecords .initial 7 rfl)
    have hfirst := hleased.tail (.send (smallRequest 0) (by decide) (by decide) rfl (by decide))
    have hsecond := hfirst.tail (.send (smallRequest 1) (by decide) (by decide) rfl (by decide))
    have hidle := hsecond.tail (.head (.error "") rfl (List.forall_mem_nil _))
    have hwaiting := (hidle.tail (.receive rfl rfl)).tail (.head (.error "") rfl (List.forall_mem_nil _))
    have hconnected := (hwaiting.tail (.receive rfl rfl)).tail (.connect minConnectedPeersForPublish)
    have hstarted := hconnected.tail (.head (.ok 5) rfl (List.forall_mem_nil _))
    have hanswered := hstarted.tail (.swarm (.putRecord 5 (.ok ())) rfl fun _ _ hevent =>
      ⟨_, List.mem_cons_self, (SwarmEvent.putRecord.inj hevent).1⟩)
    exact ⟨_, _, hanswered.tail (.start (.ok 6) rfl (List.forall_mem_nil _)), rfl, rfl⟩
  obtain ⟨events, state, hrun, heffects, hqueries⟩ := hrun
  have hkeeps := publisher_keeps_discipline hrun
  refine ⟨events, state, hrun, heffects, hqueries, ?_, hkeeps⟩
  rw [Bool.eq_false_iff]
  intro hlocked
  have hnone := hkeeps.lock hlocked (6, (smallRequest 1).begin)
  rw [hqueries] at hnone
  cases hnone List.mem_cons_self

end Small

end RailgunIndexer.Ipns
